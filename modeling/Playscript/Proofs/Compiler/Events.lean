import Playscript.Proofs.Compiler.InOrder
import Playscript.Proofs.Compiler.Placeholders
import Playscript.Proofs.Script.Layout

/-!
# What happens while a script is compiled

Compiling carries out directives and stores messages. Which lines are directives hangs on the
markers in force, so the events are listed along the drafts that compiling goes through. A trace is
a draft together with the events on the way to it; every script that compiles ends in the trace of
its events, and what each step of a trace keeps holds there.
-/
namespace Playscript

open Script (Line Block Piece Placeholder)

structure Told where
  act : String
  head : Line
  content : List Char
  deriving DecidableEq, Repr

def Told.record (settings : Record) (told : Told) : Record :=
  Table.ofList [
    (Settings.roleKey settings, .ofChars (Script.roleName told.head)),
    (Settings.contentKey settings,
      .ofChars (Piece.sources ((Piece.scan told.content).map Piece.bare)))]

def Act.hear (settings : Record) (act : Act) (told : Told) : Act :=
  let act := act.register (Placeholder.ofContent told.content)
  { act with messages := act.messages ++ [told.record settings] }

inductive Event
  | directive (scope : Scope) (directive : Directive)
  | message (told : Told)

namespace Event

def changed? : Event → Option Path
  | .directive _ (.setting key _) => some (Path.ofChars key)
  | _ => none

def configured? : Event → Option Path
  | .directive _ (.use key _) => some (Path.ofChars key)
  | _ => none

def message? : Event → Option Told
  | .message told => some told
  | _ => none

end Event

namespace Compiler

open Directive (marks)

/-! ## Events of blocks -/

def lineEvents (scope : Draft → Scope) : List Line → Draft → List Event
  | [], _ => []
  | line :: rest, draft =>
    let marker := Settings.directiveMarker draft.settings
    if marks marker line then
      match Directive.ofChars ((Text.trimLeft line).drop marker.length) with
      | .error _ => []
      | .ok directive =>
        match (Directive.perform (scope draft) directive).run draft with
        | .ok _ after => .directive (scope draft) directive :: lineEvents scope rest after
        | .error _ _ => []
    else lineEvents scope rest draft

def restEvents (act : String) (lines : List Line) (draft : Draft) : List Event :=
  match lines with
  | [] => []
  | head :: body =>
    if Settings.isComment draft.settings head then []
    else lineEvents (fun _ => nextMessage act draft)
      (body.filter fun line => !Settings.isComment draft.settings line)
      { draft with scenario := draft.scenario.ensureAct act none }

def blockEvents (position : Position) (block : Block) (draft : Draft) : List Event :=
  let settings := draft.settings
  if Script.isActHead block.head then
    let act := Script.actName block.head (Settings.defaultAct settings)
    if Settings.isComment settings act.toList then []
    else lineEvents (fun _ => ⟨act, none⟩)
      (block.body.filter fun line => !Settings.isComment settings line) draft
  else if Settings.isComment settings block.head || Settings.isComment settings position.act.toList
  then []
  else if position.preamble then
    let scope := fun draft : Draft => ⟨Settings.defaultAct draft.settings, none⟩
    lineEvents scope block.lines draft ++
      match (extractPreamble block.lines).run draft with
      | .ok kept after => restEvents (Settings.defaultAct after.settings) kept after
      | .error _ _ => []
  else
    let front := block.lines.takeWhile (marks (Settings.directiveMarker settings))
    lineEvents (fun _ => ⟨position.act, none⟩) front draft ++
      match (extractLeading position.act block.lines).run draft with
      | .ok kept after => restEvents position.act kept after
      | .error _ _ => []

def Reading.told? (settings : Record) : Reading → Option Told
  | .message name written lines => some ⟨name, written.head, joinLines settings lines⟩
  | _ => none

def eventsFrom : Position → List Block → Draft → List Event
  | _, [], _ => []
  | position, block :: rest, draft =>
    blockEvents position block draft ++
      match (readBlock position block).run draft with
      | .error _ _ => []
      | .ok (next, reading) after =>
        ((reading.told? after.settings).map Event.message).toList ++
          match (storeReading reading).run after with
          | .ok _ draft => eventsFrom next rest draft
          | .error _ _ => []

def events (text : String) (settings : Record) : List Event :=
  eventsFrom ⟨Settings.defaultAct settings, true⟩ (Script.blocks text.toList)
    (.start .empty settings)

/-! ## Readings that go through -/

inductive LinesRead (scope : Draft → Scope) :
    List Line → Draft → List Event → List Line → Draft → Prop
  | nil (d : Draft) : LinesRead scope [] d [] [] d
  | directive {line : Line} {rest kept : List Line} {d u t : Draft} {since : List Event}
      {directive : Directive} (hmarks : marks (Settings.directiveMarker d.settings) line = true)
      (hread : Directive.ofChars ((Text.trimLeft line).drop
        (Settings.directiveMarker d.settings).length) = .ok directive)
      (hrun : (Directive.perform (scope d) directive).run d = .ok () u)
      (h : LinesRead scope rest u since kept t) :
      LinesRead scope (line :: rest) d (.directive (scope d) directive :: since) kept t
  | keep {line : Line} {rest kept : List Line} {d t : Draft} {since : List Event}
      (hmarks : marks (Settings.directiveMarker d.settings) line = false)
      (h : LinesRead scope rest d since kept t) :
      LinesRead scope (line :: rest) d since (line :: kept) t

inductive RestRead (act : String) : List Line → Draft → List Event → Reading → Draft → Prop
  | nil (d : Draft) : RestRead act [] d [] .directives d
  | comment {head : Line} {body : List Line} {d : Draft}
      (hcomment : Settings.isComment d.settings head = true) :
      RestRead act (head :: body) d [] .comment d
  | message {head : Line} {body kept : List Line} {d t : Draft} {since : List Event}
      (hcomment : Settings.isComment d.settings head = false)
      (h : LinesRead (fun _ => nextMessage act d)
        (body.filter fun line => !Settings.isComment d.settings line)
        { d with scenario := d.scenario.ensureAct act none } since kept t) :
      RestRead act (head :: body) d since (.message act ⟨head, body⟩ kept) t

inductive BlockRead (position : Position) (block : Block) (d : Draft) :
    List Event → Position × Reading → Draft → Prop
  | commentedAct (hact : Script.isActHead block.head = true)
      (hname : Settings.isComment d.settings
        (Script.actName block.head (Settings.defaultAct d.settings)).toList = true) :
      BlockRead position block d []
        (⟨Script.actName block.head (Settings.defaultAct d.settings), false⟩, .comment) d
  | act {since : List Event} {kept : List Line} {t : Draft} {act : String}
      (hact : Script.isActHead block.head = true)
      (heq : act = Script.actName block.head (Settings.defaultAct d.settings))
      (hname : Settings.isComment d.settings act.toList = false)
      (h : LinesRead (fun _ => ⟨act, none⟩)
        (block.body.filter fun line => !Settings.isComment d.settings line) d since kept t) :
      BlockRead position block d since (⟨act, false⟩, .act act kept) t
  | comment (hact : Script.isActHead block.head = false)
      (hcomment : (Settings.isComment d.settings block.head ||
        Settings.isComment d.settings position.act.toList) = true) :
      BlockRead position block d [] (position, .comment) d
  | preamble {since later : List Event} {kept : List Line} {reading : Reading} {u t : Draft}
      (hact : Script.isActHead block.head = false)
      (hcomment : (Settings.isComment d.settings block.head ||
        Settings.isComment d.settings position.act.toList) = false)
      (hpreamble : position.preamble = true)
      (hlines : LinesRead (fun draft => ⟨Settings.defaultAct draft.settings, none⟩) block.lines d
        since kept u)
      (hrest : RestRead (Settings.defaultAct u.settings) kept u later reading t) :
      BlockRead position block d (since ++ later)
        (⟨Settings.defaultAct u.settings, true⟩, reading) t
  | message {since later : List Event} {dropped : List Line} {reading : Reading} {u t : Draft}
      (hact : Script.isActHead block.head = false)
      (hcomment : (Settings.isComment d.settings block.head ||
        Settings.isComment d.settings position.act.toList) = false)
      (hpreamble : position.preamble = false)
      (hfront : LinesRead (fun _ => ⟨position.act, none⟩)
        (block.lines.takeWhile (marks (Settings.directiveMarker d.settings))) d since dropped u)
      (hrest : RestRead position.act
        (block.lines.dropWhile (marks (Settings.directiveMarker d.settings))) u later reading t) :
      BlockRead position block d (since ++ later) (position, reading) t

inductive BlocksRead : Position → List Block → Draft → List Event → Draft → Prop
  | nil (position : Position) (d : Draft) : BlocksRead position [] d [] d
  | cons {position : Position} {block : Block} {rest : List Block} {d u v t : Draft}
      {since later : List Event} {result : Position × Reading}
      (hread : BlockRead position block d since result u)
      (hstore : (storeReading result.2).run u = .ok () v)
      (h : BlocksRead result.1 rest v later t) :
      BlocksRead position (block :: rest) d
        (since ++ (((result.2.told? u.settings).map Event.message).toList ++ later)) t

section

variable {scope : Draft → Scope} {position : Position} {block : Block} {act : String}
variable {lines kept : List Line} {reading : Reading} {d t : Draft}

theorem linesRead_of_run (hrun : (readInOrder scope lines).run d = .ok kept t) :
    LinesRead scope lines d (lineEvents scope lines d) kept t := by
  induction lines generalizing d kept with
  | nil =>
    obtain ⟨rfl, rfl⟩ := run_pure_eq_ok.1 hrun
    exact .nil d
  | cons line rest ih =>
    rw [readInOrder, run_get_bind] at hrun
    rw [lineEvents]
    cases hmarks : marks (Settings.directiveMarker d.settings) line with
    | true =>
      simp only [hmarks, if_true] at hrun ⊢
      obtain ⟨_, u, hstore, htail⟩ := run_bind_eq_ok.1 hrun
      obtain ⟨directive, v, hofChars, hperform⟩ := run_bind_eq_ok.1 hstore
      obtain ⟨hread, rfl⟩ := run_ofExcept_eq_ok.1 hofChars
      simp only [hread, hperform]
      exact .directive hmarks hread hperform (ih htail)
    | false =>
      simp only [hmarks, Bool.false_eq_true, if_false] at hrun ⊢
      obtain ⟨tail, u, htail, hpure⟩ := run_bind_eq_ok.1 hrun
      obtain ⟨rfl, rfl⟩ := run_pure_eq_ok.1 hpure
      exact .keep hmarks (ih htail)

theorem restRead_of_run (hrun : (readRest Directive.extract act lines).run d = .ok reading t) :
    RestRead act lines d (restEvents act lines d) reading t := by
  cases lines with
  | nil =>
    obtain ⟨rfl, rfl⟩ := run_pure_eq_ok.1 hrun
    exact .nil d
  | cons head body =>
    rw [restEvents]
    cases hcomment : Settings.isComment d.settings head with
    | true =>
      simp only [readRest, Block.ofLines?, run_get_bind, hcomment, if_true] at hrun ⊢
      obtain ⟨rfl, rfl⟩ := run_pure_eq_ok.1 hrun
      exact .comment hcomment
    | false =>
      rw [readRest_message _ _ _ hcomment, run_map_eq_ok] at hrun
      obtain ⟨kept, hkept, rfl⟩ := hrun
      rw [extract_eq] at hkept
      exact .message hcomment (linesRead_of_run hkept)

theorem blockRead_of_run {result : Position × Reading}
    (hrun : (readBlock position block).run d = .ok result t) :
    BlockRead position block d (blockEvents position block d) result t := by
  rw [readBlock, run_get_bind] at hrun
  rw [blockEvents]
  dsimp only at hrun ⊢
  split_ifs at hrun ⊢ with hact hname hcomment hpreamble
  · obtain ⟨rfl, rfl⟩ := run_pure_eq_ok.1 hrun
    exact .commentedAct hact hname
  · obtain ⟨_, u, hread, hpure⟩ := run_bind_eq_ok.1 hrun
    obtain ⟨rfl, rfl⟩ := run_pure_eq_ok.1 hpure
    obtain ⟨lines, v, hfilter, hread⟩ := run_bind_eq_ok.1 hread
    obtain ⟨rfl, rfl⟩ := run_pure_eq_ok.1 hfilter
    obtain ⟨kept, w, hkept, hpure⟩ := run_bind_eq_ok.1 hread
    obtain ⟨rfl, rfl⟩ := run_pure_eq_ok.1 hpure
    rw [extract_eq] at hkept
    exact .act hact rfl (eq_false_of_ne_true hname) (linesRead_of_run hkept)
  · obtain ⟨rfl, rfl⟩ := run_pure_eq_ok.1 hrun
    exact .comment (eq_false_of_ne_true hact) hcomment
  · obtain ⟨kept, u, hkept, hrun⟩ := run_bind_eq_ok.1 hrun
    rw [run_get_bind] at hrun
    obtain ⟨reading, v, hrest, hpure⟩ := run_bind_eq_ok.1 hrun
    obtain ⟨rfl, rfl⟩ := run_pure_eq_ok.1 hpure
    rw [hkept]
    rw [extractPreamble_eq] at hkept
    exact .preamble (eq_false_of_ne_true hact) (eq_false_of_ne_true hcomment) hpreamble
      (linesRead_of_run hkept) (restRead_of_run hrest)
  · obtain ⟨kept, u, hkept, hrun⟩ := run_bind_eq_ok.1 hrun
    obtain ⟨reading, v, hrest, hpure⟩ := run_bind_eq_ok.1 hrun
    obtain ⟨rfl, rfl⟩ := run_pure_eq_ok.1 hpure
    rw [hkept]
    obtain ⟨rfl, dropped, hfront⟩ := extractLeading_ok hkept
    exact .message (eq_false_of_ne_true hact) (eq_false_of_ne_true hcomment)
      (eq_false_of_ne_true hpreamble) (linesRead_of_run hfront) (restRead_of_run hrest)

theorem blocksRead_of_run {blocks : List Block}
    (hrun : (steps position blocks).run d = .ok () t) :
    BlocksRead position blocks d (eventsFrom position blocks d) t := by
  induction blocks generalizing position d with
  | nil =>
    cases hrun
    exact .nil position _
  | cons block rest ih =>
    rw [steps, step_eq] at hrun
    obtain ⟨next, w, hstep, hsteps⟩ := run_bind_eq_ok.1 hrun
    obtain ⟨result, u, hread, hstep⟩ := run_bind_eq_ok.1 hstep
    obtain ⟨_, v, hstore, hpure⟩ := run_bind_eq_ok.1 hstep
    obtain ⟨rfl, rfl⟩ := run_pure_eq_ok.1 hpure
    rw [eventsFrom, hread]
    simp only [hstore]
    exact .cons (blockRead_of_run hread) hstore (ih hsteps)

end

/-! ## Traces -/

/-- Drafts that compiling a script under given settings goes through, with the events on the way
there. A directive stands on a line of the script that starts with the marker in force. A message is
led by a line that was no comment when it was read. -/
inductive Trace (settings : Record) (source : List Line) : List Event → Draft → Prop
  | start : Trace settings source [] (.start .empty settings)
  | register {past : List Event} {d : Draft} (h : Trace settings source past d) (act : String)
      (description : Option String) :
      Trace settings source past { d with scenario := d.scenario.ensureAct act description }
  | directive {past : List Event} {d t : Draft} (h : Trace settings source past d) {line : Line}
      {scope : Scope} {directive : Directive} (hline : line ∈ source)
      (hmarks : marks (Settings.directiveMarker d.settings) line)
      (hread : Directive.ofChars ((Text.trimLeft line).drop
        (Settings.directiveMarker d.settings).length) = .ok directive)
      (hrun : (Directive.perform scope directive).run d = .ok () t) :
      Trace settings source (past ++ [.directive scope directive]) t
  | message {past before : List Event} {d e : Draft} (h : Trace settings source past d)
      (told : Told) (hknown : (d.scenario.act? told.act).isSome)
      (hwritten : ∀ p ∈ Placeholder.ofContent told.content, ∃ v, p.written = .ok v)
      (hbefore : Trace settings source before e) (hearlier : before <+: past)
      (hhead : told.head ∈ source) (hcomment : Settings.isComment e.settings told.head = false) :
      Trace settings source (past ++ [.message told])
        { d with scenario := d.scenario.modifyAct told.act (·.hear d.settings told) }

structure Leads (settings : Record) (source : List Line) (past : List Event) (d : Draft)
    (told : Told) : Prop where
  known : (d.scenario.act? told.act).isSome
  head : told.head ∈ source
  uncommented : ∃ before e, Trace settings source before e ∧ before <+: past ∧
    Settings.isComment e.settings told.head = false

variable {settings : Record} {source : List Line} {past : List Event} {d t : Draft}

namespace Trace

theorem lines (h : Trace settings source past d) {scope : Draft → Scope} {lines kept : List Line}
    {since : List Event} (hread : LinesRead scope lines d since kept t) (hlines : lines ⊆ source) :
    Trace settings source (past ++ since) t ∧ kept ⊆ lines ∧ Draft.Calm d t := by
  induction hread generalizing past with
  | nil d =>
    rw [List.append_nil]
    exact ⟨h, List.Subset.refl _, Draft.Calm.refl d⟩
  | directive hmarks hofChars hperform hrest ih =>
    obtain ⟨hline, hlines⟩ := List.cons_subset.1 hlines
    obtain ⟨ht, hkept, hcalm⟩ := ih (h.directive hline hmarks hofChars hperform) hlines
    have heffect := Directive.effect_of_perform hperform
    rw [List.append_assoc, List.singleton_append] at ht
    exact ⟨ht, List.subset_cons_of_subset _ hkept, (Draft.calm_of_effect heffect).trans hcalm⟩
  | keep hmarks hrest ih =>
    obtain ⟨ht, hkept, hcalm⟩ := ih h (List.cons_subset.1 hlines).2
    exact ⟨ht, List.cons_subset_cons _ hkept, hcalm⟩

theorem rest (h : Trace settings source past d) {act : String} {lines : List Line}
    {reading : Reading} {since : List Event} (hread : RestRead act lines d since reading t)
    (hlines : lines ⊆ source) :
    Trace settings source (past ++ since) t ∧
      ∀ told ∈ reading.told? t.settings, Leads settings source (past ++ since) t told := by
  cases hread with
  | nil =>
    rw [List.append_nil]
    exact ⟨h, fun _ htold => by cases htold⟩
  | comment =>
    rw [List.append_nil]
    exact ⟨h, fun _ htold => by cases htold⟩
  | message hcomment hbody =>
    obtain ⟨hhead, hlines⟩ := List.cons_subset.1 hlines
    obtain ⟨ht, -, hcalm⟩ := (h.register act none).lines hbody
      (List.Subset.trans (List.filter_subset_self _) hlines)
    refine ⟨ht, fun told htold => ?_⟩
    cases htold
    exact ⟨hcalm.known act (d.known_ensureAct act none), hhead, past, d, h,
      List.prefix_append _ _, hcomment⟩

theorem block (h : Trace settings source past d) {position : Position} {block : Block}
    {result : Position × Reading} {since : List Event}
    (hread : BlockRead position block d since result t) (hlines : block.lines ⊆ source) :
    Trace settings source (past ++ since) t ∧
      ∀ told ∈ result.2.told? t.settings, Leads settings source (past ++ since) t told := by
  cases hread with
  | commentedAct hact hname =>
    rw [List.append_nil]
    exact ⟨h, fun _ htold => by cases htold⟩
  | act hact heq hname hbody =>
    refine ⟨(h.lines hbody ?_).1, fun _ htold => by cases htold⟩
    exact List.Subset.trans (List.filter_subset_self _) (List.cons_subset.1 hlines).2
  | comment hact hcomment =>
    rw [List.append_nil]
    exact ⟨h, fun _ htold => by cases htold⟩
  | preamble hact hcomment hpreamble hall hrest =>
    obtain ⟨hu, hkept, -⟩ := h.lines hall hlines
    rw [← List.append_assoc]
    exact hu.rest hrest (List.Subset.trans hkept hlines)
  | message hact hcomment hpreamble hfront hrest =>
    obtain ⟨hu, -⟩ := h.lines hfront (List.Subset.trans (List.takeWhile_subset _) hlines)
    rw [← List.append_assoc]
    exact hu.rest hrest (List.Subset.trans (List.dropWhile_subset _) hlines)

theorem storeReading (h : Trace settings source past d) {reading : Reading}
    (hleads : ∀ told ∈ reading.told? d.settings, Leads settings source past d told)
    (hrun : (storeReading reading).run d = .ok () t) :
    Trace settings source (past ++ ((reading.told? d.settings).map Event.message).toList) t := by
  cases reading with
  | comment =>
    cases hrun
    exact (List.append_nil past).symm ▸ h
  | directives =>
    cases hrun
    exact (List.append_nil past).symm ▸ h
  | act name lines =>
    cases hrun
    exact (List.append_nil past).symm ▸ h.register name _
  | message name written lines =>
    have hlead := hleads _ rfl
    obtain ⟨before, e, he, hearlier, hcomment⟩ := hlead.uncommented
    rw [Compiler.storeReading, run_get_bind] at hrun
    obtain ⟨content, u, hcontent, hrun⟩ := run_bind_eq_ok.1 hrun
    obtain ⟨rfl, hwritten, rfl⟩ := storePieces_ok hcontent
    cases hrun
    dsimp only
    rw [Scenario.modifyAct_modifyAct]
    exact h.message _ hlead.known hwritten he hearlier hlead.head hcomment

theorem blocks (h : Trace settings source past d) {position : Position} {blocks : List Block}
    {since : List Event} (hread : BlocksRead position blocks d since t)
    (hblocks : ∀ block ∈ blocks, block.lines ⊆ source) :
    Trace settings source (past ++ since) t := by
  induction hread generalizing past with
  | nil =>
    rw [List.append_nil]
    exact h
  | cons hread hstore hrest ih =>
    obtain ⟨hblock, hblocks⟩ := List.forall_mem_cons.1 hblocks
    obtain ⟨hu, hleads⟩ := h.block hread hblock
    have ht := ih (hu.storeReading hleads hstore) hblocks
    rwa [List.append_assoc, List.append_assoc] at ht

end Trace

end Compiler

/-! ## Scripts -/

namespace Script

def source (text : String) : List Line := (blocks text.toList).flatMap Block.lines

theorem lines_subset_source {text : String} {block : Block} (h : block ∈ blocks text.toList) :
    block.lines ⊆ source text := fun _ hline => List.mem_flatMap.2 ⟨block, h, hline⟩

theorem trim_of_mem_source {text : String} {line : Line} (h : line ∈ source text) :
    Text.trim line = line := by
  obtain ⟨block, hblock, hline⟩ := List.mem_flatMap.1 h
  exact (written_of_mem_blocks hblock hline).trimmed

end Script

namespace Compiler

def Position.first (settings : Record) : Position := ⟨Settings.defaultAct settings, true⟩

variable {settings : Record} {text : String} {d : Draft}

theorem run_eq_ok : run text settings = (.ok (), d) ↔
    (steps (.first settings) (Script.blocks text.toList)).run (.start .empty settings) =
      .ok () d := by
  rw [run, Position.first]
  split
  · next hrun => simp [hrun]
  · next hrun => simp [hrun]

theorem trace_run (h : run text settings = (.ok (), d)) :
    Trace settings (Script.source text) (events text settings) d := by
  rw [events, ← List.nil_append (eventsFrom _ _ _)]
  exact Trace.start.blocks (blocksRead_of_run (run_eq_ok.1 h)) fun _ => Script.lines_subset_source

end Compiler
end Playscript
