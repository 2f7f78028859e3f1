import Playscript.Proofs.Compiler.Entries

/-!
# The messages that a script denotes

What a script denotes is said of its blocks alone, with the markers and the default act of the
settings it starts with: a bracketed block makes an act current, any other block denotes a message
of the current act or none. No directive is carried out, and no line is looked at twice.
-/
namespace Playscript

open Script (Line Block Piece)

/-! ## Lines -/

/-- A line that a marker starts; the empty marker starts none. -/
def Script.Marked (marker : List Char) (line : Line) : Prop :=
  marker ≠ [] ∧ marker <+: line

instance (marker : List Char) (line : Line) : Decidable (Script.Marked marker line) :=
  inferInstanceAs (Decidable (_ ∧ _))

inductive Script.NamesRole : Line → List Char → Prop
  | colon (front : Line) : NamesRole (front ++ [':']) (Text.trim front)
  | bare {line : Line} (h : ∀ front, line ≠ front ++ [':']) : NamesRole line line

open Script (Marked NamesRole)

/-! ## Blocks -/

structure Utterance where
  act : String
  role : List Char
  lines : List Line
  deriving DecidableEq, Repr

namespace Utterance

def message (settings : Record) (utterance : Utterance) : Record :=
  let content := Compiler.joinLines settings utterance.lines
  Table.ofList [
    (Settings.roleKey settings, .ofChars utterance.role),
    (Settings.contentKey settings, .ofChars (Piece.sources ((Piece.scan content).map Piece.bare)))]

/-- The message of a block in an act: the first line that is no directive names the role. The act,
the first line of the block and the line of the role must not be comments. -/
inductive OfBlock (settings : Record) (act : String) : Block → Utterance → Prop
  | intro {block : Block} {front later : List Line} {head : Line} {role : List Char}
      (hact : ¬ Marked (Settings.commentMarker settings) act.toList)
      (hfirst : ¬ Marked (Settings.commentMarker settings) block.head)
      (hlines : block.lines = front ++ head :: later)
      (hfront : ∀ line ∈ front, Marked (Settings.directiveMarker settings) line)
      (hhead : ¬ Marked (Settings.directiveMarker settings) head)
      (hcomment : ¬ Marked (Settings.commentMarker settings) head)
      (hrole : NamesRole head role) :
      OfBlock settings act block ⟨act, role, later.filter fun line =>
        ¬ Marked (Settings.directiveMarker settings) line ∧
          ¬ Marked (Settings.commentMarker settings) line⟩

inductive OfBlocks (settings : Record) : String → List Block → List Utterance → Prop
  | nil {act : String} : OfBlocks settings act [] []
  | act {act : String} {inner : List Char} {block : Block} {rest : List Block}
      {said : List Utterance} (hhead : block.head = '[' :: (inner ++ [']']))
      (hrest : OfBlocks settings
        (if Text.trim inner = [] then Settings.defaultAct settings
          else String.ofList (Text.trim inner)) rest said) :
      OfBlocks settings act (block :: rest) said
  | message {act : String} {block : Block} {rest : List Block} {utterance : Utterance}
      {said : List Utterance} (hhead : ∀ inner, block.head ≠ '[' :: (inner ++ [']']))
      (hblock : OfBlock settings act block utterance) (hrest : OfBlocks settings act rest said) :
      OfBlocks settings act (block :: rest) (utterance :: said)
  | silent {act : String} {block : Block} {rest : List Block} {said : List Utterance}
      (hhead : ∀ inner, block.head ≠ '[' :: (inner ++ [']']))
      (hblock : ∀ utterance, ¬ OfBlock settings act block utterance)
      (hrest : OfBlocks settings act rest said) : OfBlocks settings act (block :: rest) said

end Utterance

def Denotes (settings : Record) (text : String) (said : List Utterance) : Prop :=
  Utterance.OfBlocks settings (Settings.defaultAct settings) (Script.blocks text.toList) said

/-! ## Lines as the compiler reads them -/

namespace Script

theorem dropWhile_eq_cons_iff {p : Line → Bool} {lines later : List Line} {head : Line} :
    lines.dropWhile p = head :: later ↔ ∃ front, lines = front ++ head :: later ∧
      (∀ line ∈ front, p line = true) ∧ ¬ p head = true := by
  constructor
  · intro h
    have hhead := List.head?_dropWhile_not p lines
    rw [h] at hhead
    refine ⟨lines.takeWhile p, ?_, fun _ hline => List.mem_takeWhile_imp hline,
      by simpa using hhead⟩
    rw [← h, List.takeWhile_append_dropWhile]
  · rintro ⟨front, rfl, hfront, hhead⟩
    rw [List.dropWhile_append_of_pos hfront, List.dropWhile_cons_of_neg hhead]

theorem isPrefixOf_iff_marked {marker : List Char} {line : Line} :
    (marker != [] && marker.isPrefixOf line) = true ↔ Marked marker line := by
  rw [Marked, Bool.and_eq_true, bne_iff_ne, List.isPrefixOf_iff_prefix]

theorem isComment_iff_marked {settings : Record} {line : Line} :
    Settings.isComment settings line = true ↔ Marked (Settings.commentMarker settings) line :=
  isPrefixOf_iff_marked

theorem isActHead_of_inner {line : Line} {inner : List Char} (h : actInner? line = some inner) :
    isActHead line = true := by
  rw [isActHead, h]
  rfl

theorem actName_of_inner {line : Line} {inner : List Char} (h : actInner? line = some inner)
    (default : String) : actName line default =
      if Text.trim inner = [] then default else String.ofList (Text.trim inner) := by
  rw [actName, h, Option.getD_some]
  cases Text.trim inner <;> rfl

namespace Written

variable {line : Line}

theorem trimLeft_eq (h : Written line) : Text.trimLeft line = line :=
  Text.trimLeft_of_head (h.trimmed ▸ Text.trim_head line)

theorem trimRight_eq (h : Written line) : Text.trimRight line = line := by
  have htrim := h.trimmed
  rwa [Text.trim, h.trimLeft_eq] at htrim

theorem marks_iff (h : Written line) {marker : List Char} :
    Directive.marks marker line = true ↔ Marked marker line := by
  rw [Directive.marks, h.trimLeft_eq]
  exact isPrefixOf_iff_marked

theorem actInner?_eq_some (h : Written line) {inner : List Char} :
    actInner? line = some inner ↔ line = '[' :: (inner ++ [']']) := by
  have hend : Text.dropLineEnd line = line := by
    rw [Text.dropLineEnd, if_neg]
    exact fun hlast => h.unbroken (List.mem_of_getLast? hlast)
  rw [actInner?, hend]
  constructor
  · intro hinner
    split at hinner
    · next rest =>
      split_ifs at hinner with hclosed
      cases hinner
      obtain ⟨front, rfl⟩ := List.getLast?_eq_some_iff.1 hclosed.1
      rw [List.dropLast_concat]
    · cases hinner
  · rintro rfl
    have hunbroken : '\n' ∉ inner ++ [']'] := fun hmem => h.unbroken (List.mem_cons_of_mem _ hmem)
    simp only [List.getLast?_concat, hunbroken, not_false_eq_true, and_self, if_true,
      List.dropLast_concat]

theorem not_isActHead (h : Written line) (hline : ∀ inner, line ≠ '[' :: (inner ++ [']'])) :
    ¬ isActHead line = true := fun hact =>
  let ⟨inner, hinner⟩ := Option.isSome_iff_exists.1 hact
  hline inner (h.actInner?_eq_some.1 hinner)

theorem namesRole_iff (h : Written line) {role : List Char} :
    NamesRole line role ↔ roleName line = role := by
  rw [roleName, h.trimRight_eq]
  by_cases hlast : line.getLast? = some ':'
  · rw [if_pos hlast]
    obtain ⟨front, rfl⟩ := List.getLast?_eq_some_iff.1 hlast
    rw [List.dropLast_concat]
    constructor
    · intro hrole
      generalize hline : front ++ [':'] = line at hrole
      cases hrole with
      | colon other => rw [(List.append_inj_left' hline rfl)]
      | bare hbare => exact (hbare front hline.symm).elim
    · rintro rfl
      exact .colon front
  · rw [if_neg hlast, h.trimmed]
    constructor
    · intro hrole
      cases hrole with
      | colon front => exact (hlast List.getLast?_concat).elim
      | bare hbare => rfl
    · rintro rfl
      exact .bare fun front hline => hlast (hline ▸ List.getLast?_concat)

end Written
end Script

/-! ## Reading and denotation -/

open Script (Written)

variable {settings : Record} {act : String}

def Entry.utterance (entry : Entry) : Utterance :=
  ⟨entry.act, Script.roleName entry.head, entry.lines⟩

namespace Utterance

theorem filter_eq {lines : List Line} (h : ∀ line ∈ lines, Written line) :
    (lines.filter fun line => !Directive.marks (Settings.directiveMarker settings) line &&
        !Settings.isComment settings line) =
      lines.filter fun line => ¬ Marked (Settings.directiveMarker settings) line ∧
        ¬ Marked (Settings.commentMarker settings) line := by
  refine List.filter_congr fun line hline => Bool.eq_iff_iff.2 ?_
  rw [Bool.and_eq_true, Bool.not_eq_true', Bool.not_eq_true', ← Bool.not_eq_true,
    ← Bool.not_eq_true, (h line hline).marks_iff, Script.isComment_iff_marked, decide_eq_true_iff]

theorem OfBlock.entry {block : Block} {utterance : Utterance}
    (hsaid : OfBlock settings act block utterance) (h : ∀ line ∈ block.lines, Written line) :
    (Entry.ofBlock? settings act block).map Entry.utterance = some utterance := by
  obtain ⟨hact, hfirst, hlines, hfront, hhead, hcomment, hrole⟩ := hsaid
  rw [← Script.isComment_iff_marked] at hact hfirst hcomment
  rw [Entry.ofBlock?, if_neg (by simp [hact, hfirst])]
  rw [hlines] at h ⊢
  obtain ⟨hwrittenFront, hwritten⟩ := List.forall_mem_append.1 h
  obtain ⟨hwrittenHead, hwrittenLater⟩ := List.forall_mem_cons.1 hwritten
  rw [Script.dropWhile_eq_cons_iff.2 ⟨_, rfl, fun line hline =>
      (hwrittenFront line hline).marks_iff.2 (hfront line hline),
      mt hwrittenHead.marks_iff.1 hhead⟩,
    Entry.ofLines?, if_neg hcomment, ← filter_eq hwrittenLater,
    ← hwrittenHead.namesRole_iff.1 hrole]
  rfl

theorem OfBlock.of_entry {block : Block} {entry : Entry} (h : ∀ line ∈ block.lines, Written line)
    (hentry : Entry.ofBlock? settings act block = some entry) :
    OfBlock settings act block entry.utterance := by
  rw [Entry.ofBlock?] at hentry
  split at hentry
  · cases hentry
  next hcommented =>
  rw [Bool.or_eq_true, not_or, Script.isComment_iff_marked, Script.isComment_iff_marked]
    at hcommented
  cases hrest : block.lines.dropWhile (Directive.marks (Settings.directiveMarker settings)) with
  | nil => rw [hrest] at hentry; cases hentry
  | cons head later =>
    obtain ⟨front, hlines, hfront, hhead⟩ := Script.dropWhile_eq_cons_iff.1 hrest
    rw [hlines] at h
    obtain ⟨hwrittenFront, hwritten⟩ := List.forall_mem_append.1 h
    obtain ⟨hwrittenHead, hwrittenLater⟩ := List.forall_mem_cons.1 hwritten
    rw [hrest, Entry.ofLines?] at hentry
    split at hentry
    · cases hentry
    next hcomment =>
    cases hentry
    rw [Entry.utterance, filter_eq hwrittenLater]
    exact .intro hcommented.1 hcommented.2 hlines
      (fun line hline => (hwrittenFront line hline).marks_iff.1 (hfront line hline))
      (mt hwrittenHead.marks_iff.2 hhead)
      (mt Script.isComment_iff_marked.2 hcomment) (hwrittenHead.namesRole_iff.2 rfl)

theorem OfBlocks.entries {blocks : List Block} {said : List Utterance}
    (hsaid : OfBlocks settings act blocks said)
    (h : ∀ block ∈ blocks, ∀ line ∈ block.lines, Written line) :
    said = (Entry.ofBlocks settings act blocks).map Entry.utterance := by
  induction hsaid with
  | nil => rfl
  | act hhead hrest ih =>
    obtain ⟨hblock, hrest⟩ := List.forall_mem_cons.1 h
    have hname := (hblock _ List.mem_cons_self).actInner?_eq_some.2 hhead
    rw [ih hrest, Entry.ofBlocks, if_pos (Script.isActHead_of_inner hname),
      Script.actName_of_inner hname]
  | message hhead hblock hrest ih =>
    obtain ⟨hwritten, hrest⟩ := List.forall_mem_cons.1 h
    rw [ih hrest, Entry.ofBlocks, if_neg ((hwritten _ List.mem_cons_self).not_isActHead hhead)]
    obtain ⟨entry, hentry, rfl⟩ := Option.map_eq_some_iff.1 (hblock.entry hwritten)
    rw [hentry]
    rfl
  | silent hhead hblock hrest ih =>
    obtain ⟨hwritten, hrest⟩ := List.forall_mem_cons.1 h
    rw [ih hrest, Entry.ofBlocks, if_neg ((hwritten _ List.mem_cons_self).not_isActHead hhead)]
    -- An entry would be a message of the block.
    have hnone : Entry.ofBlock? settings _ _ = none := Option.eq_none_iff_forall_ne_some.2
      fun entry hentry => hblock _ (.of_entry hwritten hentry)
    rw [hnone]
    rfl

theorem OfBlocks.of_entries {blocks : List Block}
    (h : ∀ block ∈ blocks, ∀ line ∈ block.lines, Written line) :
    OfBlocks settings act blocks ((Entry.ofBlocks settings act blocks).map Entry.utterance) := by
  induction blocks generalizing act with
  | nil => exact .nil
  | cons block rest ih =>
    obtain ⟨hwritten, hrest⟩ := List.forall_mem_cons.1 h
    have hhead := hwritten _ List.mem_cons_self
    rw [Entry.ofBlocks]
    cases hname : Script.actInner? block.head with
    | some inner =>
      rw [if_pos (Script.isActHead_of_inner hname), Script.actName_of_inner hname]
      exact .act (hhead.actInner?_eq_some.1 hname) (ih hrest)
    | none =>
      have hbare : ∀ inner, block.head ≠ '[' :: (inner ++ [']']) := fun inner heq => by
        rw [hhead.actInner?_eq_some.2 heq] at hname
        cases hname
      rw [if_neg (hhead.not_isActHead hbare), List.map_append]
      cases hentry : Entry.ofBlock? settings act block with
      | some entry => exact .message hbare (.of_entry hwritten hentry) (ih hrest)
      | none =>
        refine .silent hbare (fun utterance hsaid => ?_) (ih hrest)
        have hsome := hsaid.entry hwritten
        rw [hentry] at hsome
        cases hsome

end Utterance

theorem Denotes.iff_entries {text : String} {said : List Utterance} :
    Denotes settings text said ↔ said = (Entry.ofText settings text).map Entry.utterance := by
  have hwritten : ∀ block ∈ Script.blocks text.toList, ∀ line ∈ block.lines, Written line :=
    fun _ hblock _ hline => Script.written_of_mem_blocks hblock hline
  exact ⟨fun hsaid => Utterance.OfBlocks.entries hsaid hwritten,
    fun heq => heq ▸ Utterance.OfBlocks.of_entries hwritten⟩

namespace Compiler

/-- Compiling stores exactly the messages that a script denotes, unless a directive that is carried
out writes in the settings of the language: every act has its own, in order, and no others. -/
theorem messages_eq_denoted {text : String} {scenario : Scenario} {after : Record}
    (h : compile text settings = (.ok scenario, after))
    (hquiet : ∀ e ∈ events text settings, e.changed? = none) :
    ∃ said, (∀ other, Denotes settings text other ↔ other = said) ∧ ∀ act,
      scenario.messagesOf act =
        (said.filter (·.act = act)).map (Utterance.message settings) := by
  refine ⟨(Entry.ofText settings text).map Entry.utterance, fun _ => Denotes.iff_entries,
    fun act => ?_⟩
  rw [messages_eq_entries h hquiet, List.filter_map, List.map_map]
  rfl

/-- Of two acts, the second one has the message after its head, without its comment and its
directives. -/
theorem second_act_has_its_message :
    let text := "user:\nhi\n\n[end]\n\n% calm\nuser:\n# no\nbye\n% title x"
    let settings := Settings.defaults
    ∃ scenario after, compile text settings = (.ok scenario, after) ∧
      (∀ e ∈ events text settings, e.changed? = none) ∧
      Denotes settings text [
        ⟨"default", "user".toList, ["hi".toList]⟩, ⟨"end", "user".toList, ["bye".toList]⟩] ∧
      scenario.messagesOf "end" = [[("role", .str "user"), ("content", .str "bye")]] := by
  intro text settings
  have hquiet : ∀ e ∈ events text settings, e.changed? = none := by decide +kernel
  have hentries : (Entry.ofText settings text).map Entry.utterance = [
      ⟨"default", "user".toList, ["hi".toList]⟩, ⟨"end", "user".toList, ["bye".toList]⟩] := by
    decide +kernel
  have hcompiles : (compile text settings).1.toOption.isSome = true := by decide +kernel
  cases hcompile : compile text settings with
  | mk outcome after =>
    rw [hcompile] at hcompiles
    cases outcome with
    | error fault => cases hcompiles
    | ok scenario =>
      obtain ⟨said, hsaid, hmessages⟩ := messages_eq_denoted hcompile hquiet
      have hdenotes := Denotes.iff_entries.2 hentries.symm
      refine ⟨scenario, after, rfl, hquiet, hdenotes, ?_⟩
      rw [hmessages, ← (hsaid _).1 hdenotes]
      rfl

end Compiler
end Playscript
