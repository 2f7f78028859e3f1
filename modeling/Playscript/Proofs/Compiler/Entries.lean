import Playscript.Proofs.Compiler.Messages

/-!
# What a script says

A script that leaves the settings of the language alone can be read without carrying out its
directives: its blocks say entries, each a message of an act. Compiling such a script puts into
every act what its entries say, in order, whatever the directives write elsewhere.
-/
namespace Playscript

open Script (Line Block Piece Placeholder)

/-! ## Reading without directives -/

/-- A directive that leaves the settings of the language and the record of their changes alone: it
is a parse directive in neither of its spellings, and no scenario setting under the record. -/
def Directive.Plain : Directive → Prop
  | .setting _ _ => False
  | .use key _ => (Path.ofChars key).head? ≠ some Draft.overridesKey
  | _ => True

def Directive.PlainLine (settings : Record) (line : Line) : Prop :=
  let marker := Settings.directiveMarker settings
  Directive.marks marker line = true → ∀ directive,
    Directive.ofChars ((Text.trimLeft line).drop marker.length) = .ok directive → directive.Plain

structure Entry where
  act : String
  head : Line
  lines : List Line
  deriving DecidableEq, Repr

namespace Entry

def ofLines? (settings : Record) (act : String) : List Line → Option Entry
  | [] => none
  | head :: body =>
    if Settings.isComment settings head then none
    else some ⟨act, head, body.filter fun line =>
      !Directive.marks (Settings.directiveMarker settings) line &&
        !Settings.isComment settings line⟩

def ofBlock? (settings : Record) (act : String) (block : Block) : Option Entry :=
  if Settings.isComment settings act.toList || Settings.isComment settings block.head then none
  else ofLines? settings act
    (block.lines.dropWhile (Directive.marks (Settings.directiveMarker settings)))

def ofBlocks (settings : Record) : String → List Block → List Entry
  | _, [] => []
  | act, block :: rest =>
    if Script.isActHead block.head then
      ofBlocks settings (Script.actName block.head (Settings.defaultAct settings)) rest
    else (ofBlock? settings act block).toList ++ ofBlocks settings act rest

def ofText (settings : Record) (text : String) : List Entry :=
  ofBlocks settings (Settings.defaultAct settings) (Script.blocks text.toList)

def content (settings : Record) (entry : Entry) : List Char :=
  Compiler.joinLines settings entry.lines

def message (settings : Record) (entry : Entry) : Record :=
  Table.ofList [
    (Settings.roleKey settings, .ofChars (Script.roleName entry.head)),
    (Settings.contentKey settings,
      .ofChars (Piece.sources ((Piece.scan (entry.content settings)).map Piece.bare)))]

end Entry

def Entry.told (settings : Record) (entry : Entry) : Told :=
  ⟨entry.act, entry.head, entry.content settings⟩

def Act.say (settings : Record) (act : Act) (entry : Entry) : Act :=
  let act := act.register (Placeholder.ofContent (entry.content settings))
  { act with messages := act.messages ++ [entry.message settings] }

namespace Compiler

open Directive (marks PlainLine)

variable {settings : Record} {source : List Line} {past : List Event} {d t : Draft}

/-! ## Blocks -/

def actAfter (settings : Record) (act : String) (block : Block) : String :=
  if Script.isActHead block.head then
    Script.actName block.head (Settings.defaultAct settings)
  else act

def entryOf? (settings : Record) (act : String) (block : Block) : Option Entry :=
  if Script.isActHead block.head then none else Entry.ofBlock? settings act block

theorem Trace.kept_eq (h : Trace settings source past d) {scope : Draft → Scope}
    {lines kept : List Line} {since : List Event} (hread : LinesRead scope lines d since kept t)
    (hlines : lines ⊆ source) (hquiet : Quiet (past ++ since)) :
    kept = lines.filter fun line => !marks (Settings.directiveMarker settings) line := by
  induction hread generalizing past with
  | nil => rfl
  | directive hmarks hofChars hperform hrest ih =>
    obtain ⟨hline, hlines⟩ := List.cons_subset.1 hlines
    have hsettings := h.settings_of_quiet (Quiet.append_iff.1 hquiet).1
    rw [List.append_cons] at hquiet
    rw [ih (h.directive hline hmarks hofChars hperform) hlines hquiet, List.filter_cons,
      ← hsettings, hmarks]
    rfl
  | keep hmarks hrest ih =>
    have hsettings := h.settings_of_quiet (Quiet.append_iff.1 hquiet).1
    rw [ih h (List.cons_subset.1 hlines).2 hquiet, List.filter_cons, ← hsettings, hmarks]
    rfl

theorem Trace.ofLines?_eq (h : Trace settings source past d) {act : String} {lines : List Line}
    {reading : Reading} {since : List Event} (hread : RestRead act lines d since reading t)
    (hlines : lines ⊆ source) (hquiet : Quiet (past ++ since)) :
    reading.told? settings = (Entry.ofLines? settings act lines).map (Entry.told settings) := by
  have hsettings := h.settings_of_quiet (Quiet.append_iff.1 hquiet).1
  cases hread with
  | nil => rfl
  | comment hcomment =>
    rw [Entry.ofLines?, ← hsettings, if_pos hcomment]
    rfl
  | message hcomment hbody =>
    have hkept := (h.register act none).kept_eq hbody
      (List.Subset.trans (List.filter_subset_self _) (List.cons_subset.1 hlines).2) hquiet
    rw [hsettings] at hcomment hkept
    rw [hkept, List.filter_filter, Entry.ofLines?, hcomment]
    rfl

theorem ofLines?_filter (act : String) (lines : List Line) :
    let marked := marks (Settings.directiveMarker settings)
    Entry.ofLines? settings act (lines.filter fun line => !marked line) =
      Entry.ofLines? settings act (lines.dropWhile marked) := by
  induction lines with
  | nil => rfl
  | cons line rest ih =>
    cases hmarks : marks (Settings.directiveMarker settings) line with
    | true => simpa [hmarks] using ih
    | false =>
      simp only [List.filter_cons, List.dropWhile_cons, hmarks, Bool.not_false, if_true,
        Bool.false_eq_true, if_false, Entry.ofLines?, List.filter_filter, Bool.and_right_comm,
        Bool.and_self]

theorem Trace.entryOf?_eq (h : Trace settings source past d) {position : Position} {block : Block}
    {result : Position × Reading} {since : List Event}
    (hread : BlockRead position block d since result t) (hlines : block.lines ⊆ source)
    (hpreamble : position.preamble = true → position.act = Settings.defaultAct settings)
    (hquiet : Quiet (past ++ since)) :
    result.1.act = actAfter settings position.act block ∧
      (result.1.preamble = true → result.1.act = Settings.defaultAct settings) ∧
      result.2.told? settings =
        (entryOf? settings position.act block).map (Entry.told settings) := by
  have hsettings := h.settings_of_quiet (Quiet.append_iff.1 hquiet).1
  rw [actAfter, entryOf?, Entry.ofBlock?, Bool.or_comm, ← hsettings]
  cases hread with
  | commentedAct hact hname =>
    rw [if_pos hact, if_pos hact]
    exact ⟨rfl, fun he => (nomatch he), rfl⟩
  | act hact heq hname hbody =>
    rw [if_pos hact, if_pos hact]
    exact ⟨heq, fun he => (nomatch he), rfl⟩
  | comment hact hcomment =>
    rw [hact, hcomment]
    exact ⟨rfl, hsettings ▸ hpreamble, rfl⟩
  | preamble hact hcomment hpre hall hrest =>
    rw [← List.append_assoc] at hquiet
    have hfront := (Quiet.append_iff.1 hquiet).1
    obtain ⟨hu, hsubset, -⟩ := h.lines hall hlines
    have hreading := hu.ofLines?_eq hrest (List.Subset.trans hsubset hlines) hquiet
    -- Here all directives of the block are taken out first, those in its body too.
    rw [hu.settings_of_quiet hfront, h.kept_eq hall hlines hfront, ofLines?_filter,
      ← hpreamble hpre] at hreading
    rw [hact, hcomment, hu.settings_of_quiet hfront, hsettings]
    exact ⟨(hpreamble hpre).symm, fun _ => rfl, hreading⟩
  | message hact hcomment hpre hfront hrest =>
    rw [← List.append_assoc] at hquiet
    obtain ⟨hu, -⟩ := h.lines hfront (List.Subset.trans (List.takeWhile_subset _) hlines)
    have hreading := hu.ofLines?_eq hrest
      (List.Subset.trans (List.dropWhile_subset _) hlines) hquiet
    rw [hact, hcomment]
    exact ⟨rfl, hsettings ▸ hpreamble, hsettings ▸ hreading⟩

/-! ## Scripts -/

theorem LinesRead.filterMap_message? {scope : Draft → Scope} {lines kept : List Line}
    {since : List Event} (h : LinesRead scope lines d since kept t) :
    since.filterMap Event.message? = [] := by
  induction h with
  | nil => rfl
  | directive hmarks hofChars hperform hrest ih => exact ih
  | keep hmarks hrest ih => exact ih

theorem RestRead.filterMap_message? {act : String} {lines : List Line} {reading : Reading}
    {since : List Event} (h : RestRead act lines d since reading t) :
    since.filterMap Event.message? = [] := by
  cases h with
  | nil => rfl
  | comment hcomment => rfl
  | message hcomment hbody => exact hbody.filterMap_message?

theorem BlockRead.filterMap_message? {position : Position} {block : Block}
    {result : Position × Reading} {since : List Event}
    (h : BlockRead position block d since result t) : since.filterMap Event.message? = [] := by
  cases h with
  | commentedAct hact hname => rfl
  | act hact heq hname hbody => exact hbody.filterMap_message?
  | comment hact hcomment => rfl
  | preamble hact hcomment hpre hall hrest =>
    rw [List.filterMap_append, hall.filterMap_message?, hrest.filterMap_message?, List.append_nil]
  | message hact hcomment hpre hfront hrest =>
    rw [List.filterMap_append, hfront.filterMap_message?, hrest.filterMap_message?, List.append_nil]

theorem Entry.ofBlocks_cons (settings : Record) (act : String) (block : Block)
    (rest : List Block) :
    Entry.ofBlocks settings act (block :: rest) = (entryOf? settings act block).toList ++
      Entry.ofBlocks settings (actAfter settings act block) rest := by
  simp only [Entry.ofBlocks, entryOf?, actAfter]
  split_ifs <;> rfl

theorem Trace.ofBlocks_eq (h : Trace settings source past d) {position : Position}
    {blocks : List Block} {since : List Event} (hread : BlocksRead position blocks d since t)
    (hblocks : ∀ block ∈ blocks, block.lines ⊆ source)
    (hpreamble : position.preamble = true → position.act = Settings.defaultAct settings)
    (hquiet : Quiet (past ++ since)) :
    since.filterMap Event.message? =
      (Entry.ofBlocks settings position.act blocks).map (Entry.told settings) := by
  induction hread generalizing past with
  | nil => rfl
  | @cons position block _ _ _ _ _ _ _ _ hread hstore hrest ih =>
    obtain ⟨hblock, hblocks⟩ := List.forall_mem_cons.1 hblocks
    obtain ⟨hu, hleads⟩ := h.block hread hblock
    have hw := hu.storeReading hleads hstore
    rw [← List.append_assoc] at hquiet
    have hblockQuiet := (Quiet.append_iff.1 hquiet).1
    rw [← List.append_assoc] at hquiet
    obtain ⟨hact, hnext, htold⟩ := h.entryOf?_eq hread hblock hpreamble hblockQuiet
    rw [List.filterMap_append, hread.filterMap_message?, List.nil_append, List.filterMap_append,
      ih hw hblocks hnext hquiet, Entry.ofBlocks_cons, List.map_append, hact,
      hu.settings_of_quiet hblockQuiet, htold]
    cases entryOf? settings position.act block <;> rfl

theorem message?_events {text : String} (h : run text settings = (.ok (), d))
    (hquiet : Quiet (events text settings)) :
    (events text settings).filterMap Event.message? =
      (Entry.ofText settings text).map (Entry.told settings) := by
  rw [events, ← List.nil_append (eventsFrom _ _ _)] at hquiet
  exact Trace.start.ofBlocks_eq (blocksRead_of_run (run_eq_ok.1 h))
    (fun _ => Script.lines_subset_source) (fun _ => rfl) hquiet

theorem toldIn_eq {text : String} (h : run text settings = (.ok (), d))
    (hquiet : Quiet (events text settings)) (act : String) :
    toldIn act (events text settings) =
      ((Entry.ofText settings text).filter (·.act = act)).map (Entry.told settings) := by
  rw [toldIn, message?_events h hquiet, List.filter_map]
  rfl

theorem run_of_compile {text : String} {scenario : Scenario} {after : Record}
    (h : compile text settings = (.ok scenario, after)) :
    ∃ d, run text settings = (.ok (), d) ∧ d.scenario = scenario ∧ d.settings = after := by
  rw [compile] at h
  cases hrun : run text settings with
  | mk outcome draft =>
    rw [hrun] at h
    cases outcome with
    | error fault => cases h
    | ok _ =>
      cases h
      exact ⟨draft, rfl, rfl, rfl⟩

theorem messages_eq_entries {text : String} {scenario : Scenario} {after : Record}
    (h : compile text settings = (.ok scenario, after))
    (hquiet : ∀ e ∈ events text settings, e.changed? = none) (act : String) :
    scenario.messagesOf act =
      ((Entry.ofText settings text).filter (·.act = act)).map (Entry.message settings) := by
  obtain ⟨d, hrun, rfl, -⟩ := run_of_compile h
  rw [(trace_run hrun).messages_eq (Quiet.namedBy hquiet), toldIn_eq hrun hquiet, List.map_map]
  rfl

/-! ## Plain scripts -/

def PlainScript (settings : Record) (text : String) : Prop :=
  ∀ block ∈ Script.blocks text.toList, ∀ line ∈ block.lines, PlainLine settings line

theorem quiet_of_directives {P : Directive → Prop} (hP : ∀ key value, ¬ P (.setting key value))
    (h : ∀ scope directive, .directive scope directive ∈ past → P directive) : Quiet past := by
  intro e he
  cases e with
  | message told => rfl
  | directive scope directive =>
    cases directive with
    | setting key value => exact (hP key value (h _ _ he)).elim
    | _ => rfl

theorem Trace.directive_of_line (h : Trace settings source past d) {P : Directive → Prop}
    (hP : ∀ key value, ¬ P (.setting key value))
    (hsource : ∀ line ∈ source, marks (Settings.directiveMarker settings) line = true →
      ∀ directive, Directive.ofChars ((Text.trimLeft line).drop
        (Settings.directiveMarker settings).length) = .ok directive → P directive) :
    ∀ scope directive, .directive scope directive ∈ past → P directive := by
  induction h with
  | start => exact fun _ _ he => nomatch he
  | register h act description ih => exact ih
  | @directive past d t h line scope directive hline hmarks hread hrun ih =>
    rw [h.settings_of_quiet (quiet_of_directives hP ih)] at hmarks hread
    intro scope' directive' he
    obtain he | he := List.mem_append.1 he
    · exact ih _ _ he
    · cases List.mem_singleton.1 he
      exact hsource line hline hmarks directive hread
  | message h told hknown hwritten hbefore hearlier hhead hcomment ih =>
    intro scope directive he
    obtain he | he := List.mem_append.1 he
    · exact ih _ _ he
    · cases List.mem_singleton.1 he

theorem PlainScript.quiet_open {text : String} (hplain : PlainScript settings text)
    (h : run text settings = (.ok (), d)) :
    Quiet (events text settings) ∧ Open (events text settings) := by
  have hP : ∀ key value, ¬ (Directive.setting key value).Plain := fun _ _ => id
  have hdirectives := (trace_run h).directive_of_line hP fun line hline => by
    obtain ⟨block, hblock, hmem⟩ := List.mem_flatMap.1 hline
    exact hplain block hblock line hmem
  refine ⟨quiet_of_directives hP hdirectives, fun e he path hpath => ?_⟩
  cases e with
  | message told => cases hpath
  | directive scope directive =>
    cases directive with
    | use key value =>
      cases hpath
      exact hdirectives _ _ he
    | _ => cases hpath

end Compiler
end Playscript
