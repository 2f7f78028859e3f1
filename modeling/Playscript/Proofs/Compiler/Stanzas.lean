import Playscript.Proofs.Compiler.Entries

/-!
# What a script directs

A script that leaves the settings of the language alone can be read with its directives. Every block
is a stanza of an act: it directs the act, and it may say a message, whose body may hold directives
of its own. Compiling such a script carries out these directives and tells these messages, in order,
and nothing else happens.
-/
namespace Playscript

open Script (Line Block)
open Compiler (Position toldIn)

/-! ## Reading with directives -/

namespace Directive

def ofLine? (settings : Record) (line : Line) : Option Directive :=
  let marker := Settings.directiveMarker settings
  if marks marker line then (ofChars ((Text.trimLeft line).drop marker.length)).toOption else none

def ofLines (settings : Record) (lines : List Line) : List Directive :=
  lines.filterMap (ofLine? settings)

theorem mem_ofLines {settings : Record} {lines : List Line} {directive : Directive} :
    directive ∈ ofLines settings lines ↔ ∃ line ∈ lines,
      marks (Settings.directiveMarker settings) line = true ∧
        ofChars ((Text.trimLeft line).drop (Settings.directiveMarker settings).length) =
          .ok directive := by
  simp only [ofLines, List.mem_filterMap, ofLine?, Option.ite_none_right_eq_some, toOption_eq_some]

theorem ofLines_subset {settings : Record} {lines lines' : List Line} (h : lines ⊆ lines') :
    ofLines settings lines ⊆ ofLines settings lines' := fun _ hmem => by
  obtain ⟨line, hline, hread⟩ := mem_ofLines.1 hmem
  exact mem_ofLines.2 ⟨line, h hline, hread⟩

end Directive

/-- A message with the directives in its body. -/
structure Speech where
  entry : Entry
  directives : List Directive
  deriving DecidableEq, Repr

def Speech.ofLines? (settings : Record) (act : String) (lines : List Line) : Option Speech :=
  (Entry.ofLines? settings act lines).map fun entry =>
    ⟨entry, Directive.ofLines settings (lines.tail.filter fun line =>
      !Settings.isComment settings line)⟩

/-- What a block says in the act that it belongs to: directives of the act, and maybe a message. -/
structure Stanza where
  act : String
  directives : List Directive
  speech : Option Speech
  deriving DecidableEq, Repr

namespace Stanza

def ofBlock (settings : Record) (position : Position) (block : Block) : Stanza :=
  let marked := Directive.marks (Settings.directiveMarker settings)
  if Script.isActHead block.head then
    let act := Script.actName block.head (Settings.defaultAct settings)
    if Settings.isComment settings act.toList then ⟨act, [], none⟩
    else
      let body := block.body.filter fun line => !Settings.isComment settings line
      ⟨act, Directive.ofLines settings body, none⟩
  else if Settings.isComment settings block.head || Settings.isComment settings position.act.toList
  then ⟨position.act, [], none⟩
  else if position.preamble then
    let entry? := Entry.ofLines? settings position.act (block.lines.dropWhile marked)
    ⟨position.act, Directive.ofLines settings block.lines, entry?.map fun entry => ⟨entry, []⟩⟩
  else
    ⟨position.act, Directive.ofLines settings (block.lines.takeWhile marked),
      Speech.ofLines? settings position.act (block.lines.dropWhile marked)⟩

def positionAfter (settings : Record) (position : Position) (block : Block) : Position :=
  if Script.isActHead block.head then
    ⟨Script.actName block.head (Settings.defaultAct settings), false⟩
  else position

def ofBlocks (settings : Record) : Position → List Block → List Stanza
  | _, [] => []
  | position, block :: rest =>
    ofBlock settings position block ::
      ofBlocks settings (positionAfter settings position block) rest

def ofText (settings : Record) (text : String) : List Stanza :=
  ofBlocks settings ⟨Settings.defaultAct settings, true⟩ (Script.blocks text.toList)

def speechIn? (act : String) (stanza : Stanza) : Option Speech :=
  if stanza.act = act then stanza.speech else none

def speeches (act : String) (stanzas : List Stanza) : List Speech :=
  stanzas.filterMap (speechIn? act)

def events (settings : Record) (stanza : Stanza) (told : Nat) : List Event :=
  stanza.directives.map (.directive ⟨stanza.act, none⟩) ++
    stanza.speech.elim [] fun speech =>
      speech.directives.map (.directive ⟨stanza.act, some told⟩) ++
        [.message (speech.entry.told settings)]

def follow (settings : Record) (past : List Event) (stanza : Stanza) : List Event :=
  past ++ stanza.events settings (toldIn stanza.act past).length

end Stanza

namespace Compiler

open Directive (marks)

variable {settings : Record} {source : List Line} {past : List Event} {d t : Draft}

/-! ## Blocks -/

theorem Trace.directives_eq (h : Trace settings source past d) {scope : Draft → Scope}
    {here : Scope} (hscope : ∀ d : Draft, d.settings = settings → scope d = here)
    {lines kept : List Line} {since : List Event} (hread : LinesRead scope lines d since kept t)
    (hlines : lines ⊆ source) (hquiet : Quiet (past ++ since)) :
    since = (Directive.ofLines settings lines).map (.directive here) := by
  induction hread generalizing past with
  | nil => rfl
  | directive hmarks hofChars hperform hrest ih =>
    obtain ⟨hline, hlines⟩ := List.cons_subset.1 hlines
    have hsettings := h.settings_of_quiet (Quiet.append_iff.1 hquiet).1
    rw [List.append_cons] at hquiet
    rw [Directive.ofLines, List.filterMap_cons, Directive.ofLine?, ← hsettings, hmarks, if_pos rfl,
      hofChars, hsettings, hscope _ hsettings,
      ih (h.directive hline hmarks hofChars hperform) hlines hquiet]
    rfl
  | keep hmarks hrest ih =>
    have hsettings := h.settings_of_quiet (Quiet.append_iff.1 hquiet).1
    rw [Directive.ofLines, List.filterMap_cons, Directive.ofLine?, ← hsettings, hmarks, hsettings,
      ih h (List.cons_subset.1 hlines).2 hquiet]
    rfl

theorem Trace.nextMessage_eq (h : Trace settings source past d) (hquiet : Quiet past)
    (act : String) : nextMessage act d = ⟨act, some (toldIn act past).length⟩ := by
  have hmessages := congrArg List.length (h.messages_eq hquiet.namedBy act)
  rw [List.length_map, Scenario.messagesOf] at hmessages
  rw [nextMessage, Scenario.act?_ensureAct, if_pos rfl, ← hmessages]
  cases d.scenario.act? act <;> rfl

theorem Trace.speech_eq (h : Trace settings source past d) {act : String} {lines : List Line}
    {reading : Reading} {since : List Event} (hread : RestRead act lines d since reading t)
    (hlines : lines ⊆ source) (hquiet : Quiet (past ++ since)) :
    since = ((Speech.ofLines? settings act lines).elim [] Speech.directives).map
      (.directive ⟨act, some (toldIn act past).length⟩) := by
  have hpast := (Quiet.append_iff.1 hquiet).1
  have hsettings := h.settings_of_quiet hpast
  cases hread with
  | nil => rfl
  | comment hcomment =>
    rw [Speech.ofLines?, Entry.ofLines?, ← hsettings, if_pos hcomment]
    rfl
  | message hcomment hbody =>
    have hdirectives := (h.register act none).directives_eq (fun _ _ => h.nextMessage_eq hpast act)
      hbody (List.Subset.trans (List.filter_subset_self _) (List.cons_subset.1 hlines).2) hquiet
    rw [hsettings] at hcomment hdirectives
    rw [hdirectives, Speech.ofLines?, Entry.ofLines?, hcomment]
    rfl

theorem speech_of_kept {act : String} {lines : List Line}
    (h : ∀ line ∈ lines, marks (Settings.directiveMarker settings) line = false) :
    (Speech.ofLines? settings act lines).elim [] Speech.directives = [] := by
  have hbody : Directive.ofLines settings
      (lines.tail.filter fun line => !Settings.isComment settings line) = [] := by
    refine List.filterMap_eq_nil_iff.2 fun line hline => ?_
    rw [Directive.ofLine?, h line (List.mem_of_mem_tail (List.mem_filter.1 hline).1)]
    rfl
  rw [Speech.ofLines?, hbody]
  cases Entry.ofLines? settings act lines <;> rfl

theorem toldIn_directives (act : String) (here : Scope) (directives : List Directive) :
    toldIn act (directives.map (.directive here)) = [] := by
  have hnone : (directives.map (Event.directive here)).filterMap Event.message? = [] := by
    rw [List.filterMap_map]
    exact List.filterMap_eq_nil_iff.2 fun _ _ => rfl
  rw [toldIn, hnone]
  rfl

theorem Trace.stanza_eq (h : Trace settings source past d) {position : Position} {block : Block}
    {result : Position × Reading} {since : List Event}
    (hread : BlockRead position block d since result t) (hlines : block.lines ⊆ source)
    (hpreamble : position.preamble = true → position.act = Settings.defaultAct settings)
    (hquiet : Quiet (past ++ since)) :
    let stanza := Stanza.ofBlock settings position block
    result.1 = Stanza.positionAfter settings position block ∧
      since = stanza.directives.map (.directive ⟨stanza.act, none⟩) ++
        (stanza.speech.elim [] Speech.directives).map
          (.directive ⟨stanza.act, some (toldIn stanza.act past).length⟩) := by
  have hsettings := h.settings_of_quiet (Quiet.append_iff.1 hquiet).1
  rw [Stanza.positionAfter, Stanza.ofBlock]
  cases hread with
  | commentedAct hact hname =>
    rw [hsettings] at hname
    simp only [hact, hname, hsettings, if_true]
    exact ⟨trivial, rfl⟩
  | act hact heq hname hbody =>
    have hdirectives := h.directives_eq (fun _ _ => rfl) hbody
      (List.Subset.trans (List.filter_subset_self _) (List.cons_subset.1 hlines).2) hquiet
    rw [hsettings] at heq hname hdirectives
    subst heq
    simp only [hact, hname, if_true, Bool.false_eq_true, if_false]
    exact ⟨trivial, hdirectives.trans (List.append_nil _).symm⟩
  | comment hact hcomment =>
    rw [hsettings] at hcomment
    simp only [hact, hcomment, if_true, Bool.false_eq_true, if_false]
    exact ⟨trivial, rfl⟩
  | preamble hact hcomment hpre hall hrest =>
    rw [← List.append_assoc] at hquiet
    have hfront := (Quiet.append_iff.1 hquiet).1
    obtain ⟨hu, hsubset, -⟩ := h.lines hall hlines
    have hdirectives :=
      h.directives_eq (fun d hd => by rw [hd, ← hpreamble hpre]) hall hlines hfront
    have hspeech := hu.speech_eq hrest (List.Subset.trans hsubset hlines) hquiet
    -- What is kept here holds no directives any more.
    rw [h.kept_eq hall hlines hfront, speech_of_kept fun line hline => by
      simpa using (List.mem_filter.1 hline).2] at hspeech
    rw [hsettings] at hcomment
    rw [hu.settings_of_quiet hfront, hdirectives, hspeech, ← hpreamble hpre]
    simp only [hact, hcomment, hpre, if_true, Bool.false_eq_true, if_false]
    refine ⟨congrArg (Position.mk position.act) hpre.symm, ?_⟩
    cases Entry.ofLines? settings position.act
      (block.lines.dropWhile (marks (Settings.directiveMarker settings))) <;> rfl
  | message hact hcomment hpre hfront hrest =>
    rw [← List.append_assoc] at hquiet
    have htaken : block.lines.takeWhile (marks (Settings.directiveMarker d.settings)) ⊆ source :=
      List.Subset.trans (List.takeWhile_subset _) hlines
    obtain ⟨hu, -⟩ := h.lines hfront htaken
    have hdirectives := h.directives_eq (fun _ _ => rfl) hfront htaken (Quiet.append_iff.1 hquiet).1
    have hspeech := hu.speech_eq hrest (List.Subset.trans (List.dropWhile_subset _) hlines) hquiet
    rw [hdirectives, toldIn_append, toldIn_directives, List.append_nil] at hspeech
    rw [hsettings] at hcomment hdirectives hspeech
    rw [hdirectives, hspeech]
    simp only [hact, hcomment, hpre, Bool.false_eq_true, if_false, and_self]

theorem speech_ofBlock (settings : Record) (position : Position) (block : Block) :
    (Stanza.ofBlock settings position block).speech.map Speech.entry =
      entryOf? settings position.act block := by
  rw [Stanza.ofBlock, entryOf?, Entry.ofBlock?, Bool.or_comm]
  dsimp only
  split_ifs
  · rfl
  · rfl
  · rfl
  · rw [Option.map_map]
    exact Option.map_id'
  · rw [Speech.ofLines?, Option.map_map]
    exact Option.map_id'

theorem act_of_ofLines? {act : String} {lines : List Line} {entry : Entry}
    (h : Entry.ofLines? settings act lines = some entry) : entry.act = act := by
  cases lines with
  | nil => cases h
  | cons head body =>
    rw [Entry.ofLines?] at h
    split_ifs at h
    cases h
    rfl

theorem act_of_ofBlock (settings : Record) (position : Position) (block : Block) :
    let stanza := Stanza.ofBlock settings position block
    ∀ speech ∈ stanza.speech, speech.entry.act = stanza.act := by
  intro stanza speech hspeech
  rw [Option.mem_def] at hspeech
  have hentry := speech_ofBlock settings position block
  rw [hspeech, Option.map_some, entryOf?, Entry.ofBlock?, Bool.or_comm] at hentry
  rw [show stanza = Stanza.ofBlock settings position block from rfl, Stanza.ofBlock]
  split_ifs at hentry ⊢
  · exact act_of_ofLines? hentry.symm
  · exact act_of_ofLines? hentry.symm

theorem act_of_ofBlocks {position : Position} {blocks : List Block} :
    ∀ stanza ∈ Stanza.ofBlocks settings position blocks, ∀ speech ∈ stanza.speech,
      speech.entry.act = stanza.act := by
  induction blocks generalizing position with
  | nil => exact fun _ h => absurd h List.not_mem_nil
  | cons block rest ih => exact List.forall_mem_cons.2 ⟨act_of_ofBlock settings position block, ih⟩

theorem act_of_ofText (settings : Record) (text : String) :
    ∀ stanza ∈ Stanza.ofText settings text, ∀ speech ∈ stanza.speech,
      speech.entry.act = stanza.act :=
  act_of_ofBlocks

/-! ## Scripts -/

theorem Trace.follow_eq (h : Trace settings source past d) {position : Position}
    {blocks : List Block} {since : List Event} (hread : BlocksRead position blocks d since t)
    (hblocks : ∀ block ∈ blocks, block.lines ⊆ source)
    (hpreamble : position.preamble = true → position.act = Settings.defaultAct settings)
    (hquiet : Quiet (past ++ since)) :
    past ++ since =
      (Stanza.ofBlocks settings position blocks).foldl (Stanza.follow settings) past := by
  -- What is quiet so far leaves the settings as they were given, so that the stanza of the next
  -- block is read under the settings in force.
  induction hread generalizing past with
  | nil => exact List.append_nil past
  | @cons position block _ d u _ _ since _ result hread hstore hrest ih =>
    obtain ⟨hblock, hblocks⟩ := List.forall_mem_cons.1 hblocks
    obtain ⟨hu, hleads⟩ := h.block hread hblock
    have hw := hu.storeReading hleads hstore
    rw [← List.append_assoc] at hquiet
    have hblockQuiet := (Quiet.append_iff.1 hquiet).1
    rw [← List.append_assoc] at hquiet
    obtain ⟨-, hnext, htold⟩ := h.entryOf?_eq hread hblock hpreamble hblockQuiet
    obtain ⟨hposition, hevents⟩ := h.stanza_eq hread hblock hpreamble hblockQuiet
    have hstanza : past ++ since ++ ((result.2.told? u.settings).map Event.message).toList =
        Stanza.follow settings past (Stanza.ofBlock settings position block) := by
      rw [hu.settings_of_quiet hblockQuiet, htold, ← speech_ofBlock, hevents, Stanza.follow,
        Stanza.events, List.append_assoc, List.append_assoc]
      cases (Stanza.ofBlock settings position block).speech <;> rfl
    rw [Stanza.ofBlocks, List.foldl_cons, ← hstanza, ← hposition, ← ih hw hblocks hnext hquiet]
    simp only [List.append_assoc]

theorem events_eq_follow {text : String} (h : run text settings = (.ok (), d))
    (hquiet : Quiet (events text settings)) :
    events text settings = (Stanza.ofText settings text).foldl (Stanza.follow settings) [] := by
  rw [events, ← List.nil_append (eventsFrom _ _ _)] at hquiet ⊢
  exact Trace.start.follow_eq (blocksRead_of_run (run_eq_ok.1 h))
    (fun _ => Script.lines_subset_source) (fun _ => rfl) hquiet

end Compiler

end Playscript
