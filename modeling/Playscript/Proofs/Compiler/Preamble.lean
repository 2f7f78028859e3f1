import Playscript.Proofs.Compiler.Comments
import Playscript.Proofs.Compiler.Stanzas
import Playscript.Proofs.Scenario.Placing

/-!
# The preamble

Before the first act head the directives of a block are taken from all its lines, after it those in
front of the role first and those of the body as the directives of a message. For blocks whose
directives stand in front and leave the settings of the language alone the two ways agree: what is
written before the first act head may as well stand under the head of the default act.
-/
namespace Playscript

open Script (Line Block Section Opens)

namespace Draft

def registered (d : Draft) (act : String) : Draft :=
  { d with scenario := d.scenario.ensureAct act none }

structure Plain (settings : Record) (d : Draft) : Prop where
  settings : d.settings = settings
  shared : d.shared = []
  listed : (Table.get? d.scenario.config "order").isSome

structure Ahead (settings : Record) (act : String) (d e : Draft) : Prop where
  plain : Plain settings d
  registered : e = d.registered act

variable {settings : Record} {act : String} {d e : Draft}

theorem Plain.start (settings : Record) : Plain settings (.start .empty settings) :=
  ⟨rfl, rfl, rfl⟩

theorem Plain.ensureAct (h : Plain settings d) (act : String) (description : Option String) :
    Plain settings { d with scenario := d.scenario.ensureAct act description } := by
  refine ⟨h.settings, h.shared, ?_⟩
  obtain ⟨order, horder⟩ := Scenario.config_ensureAct h.listed act description
  rw [horder]
  exact Table.isSome_get?_set _ _ _

theorem Plain.modifyAct (h : Plain settings d) (act : String) (change : Act → Act) :
    Plain settings { d with scenario := d.scenario.modifyAct act change } :=
  ⟨h.settings, h.shared, by rw [Scenario.config_modifyAct]; exact h.listed⟩

theorem Plain.setConfig (h : Plain settings d) {first : String} (hfirst : first ≠ "order")
    (rest : Path) (value : Value) : Plain settings (d.setConfig (first :: rest) value) := by
  refine ⟨?_, ?_, ?_⟩
  · rw [setConfig_eq h.shared]
    exact h.settings
  · rw [setConfig_eq h.shared]
    exact h.shared
  · rw [get?_config_setConfig hfirst]
    exact h.listed

theorem Plain.ahead_self (h : Plain settings d) (hknown : (d.scenario.act? act).isSome) :
    Ahead settings act d d :=
  ⟨h, by rw [Draft.registered, Scenario.ensureAct_none hknown]⟩

theorem Ahead.settings_eq (h : Ahead settings act d e) : e.settings = d.settings := by
  rw [h.registered]
  rfl

theorem Ahead.ensureAct (h : Ahead settings act d e) (description : Option String) :
    { e with scenario := e.scenario.ensureAct act description } =
      { d with scenario := d.scenario.ensureAct act description } := by
  rw [h.registered, Draft.registered]
  dsimp only
  rw [Scenario.ensureAct_ensureAct]

theorem Ahead.setConfig (h : Ahead settings act d e) {first : String} (hfirst : first ≠ "order")
    (rest : Path) (value : Value) :
    Ahead settings act (d.setConfig (first :: rest) value) (e.setConfig (first :: rest) value) := by
  refine ⟨h.plain.setConfig hfirst rest value, ?_⟩
  have hshared : (d.registered act).shared = [] := h.plain.shared
  rw [h.registered, setConfig_eq h.plain.shared, setConfig_eq hshared]
  simp only [Draft.registered, storeConfig,
    Scenario.ensureAct_setConfig h.plain.listed hfirst rest value]

end Draft

namespace Directive

def isParse : Directive → Bool
  | .setting _ _ => true
  | _ => false

end Directive

namespace Compiler

open Directive (marks)
open Draft (Plain Ahead)

variable {settings : Record} {act : String} {d e : Draft}

/-! ## From a draft and from one ahead of it -/

def Knows (settings : Record) (act : String) (d : Draft) : Prop :=
  Plain settings d ∧ (d.scenario.act? act).isSome

theorem Knows.modifyAct (h : Knows settings act d) (name : String) (change : Act → Act) :
    Knows settings act { d with scenario := d.scenario.modifyAct name change } :=
  ⟨h.1.modifyAct name change, by rw [Scenario.isSome_act?_modifyAct]; exact h.2⟩

theorem agree_of_registering {α : Type} (h : Ahead settings act d e) (description : Option String)
    {x : Drafting α} (hx : Keeps (Knows settings act) x) :
    Agree (Ahead settings act)
      (do modify fun draft => { draft with scenario := draft.scenario.ensureAct act description }
          x)
      (do modify fun draft => { draft with scenario := draft.scenario.ensureAct act description }
          x) d e := by
  have hknows : Knows settings act
      { d with scenario := d.scenario.ensureAct act description } :=
    ⟨h.plain.ensureAct act description, d.known_ensureAct act description⟩
  exact agree_of_run rfl (congrArg x.run (h.ensureAct description))
    ((hx _ hknows).mono fun _ ht => ht.1.ahead_self ht.2)

theorem agree_writeAct (h : Ahead settings act d e) (key : List Char) (value : Value) :
    Agree (Ahead settings act) (Directive.writeAct ⟨act, none⟩ key value)
      (Directive.writeAct ⟨act, none⟩ key value) d e :=
  agree_of_registering h none ((keeps_ofExcept _).bind fun _ =>
    keeps_modify fun _ ht => ht.modifyAct _ _)

theorem agree_perform (h : Ahead settings act d e) {directive : Directive}
    (hquiet : directive.isParse = false) :
    Agree (Ahead settings act) (Directive.perform ⟨act, none⟩ directive)
      (Directive.perform ⟨act, none⟩ directive) d e := by
  cases directive with
  | setting key value => cases hquiet
  | use key value =>
    rw [Directive.perform, Directive.writeScenario]
    split
    · exact coupled_pure _ _ _ h
    · split_ifs with hfirst
      · exact coupled_pure _ _ _ h
      · exact (coupled_ofExcept _).bind
          (fun v => coupled_modify fun _ _ hst => hst.setConfig hfirst _ v) d e h
  | assign key value => exact agree_writeAct h key _
  | flag key => exact agree_writeAct h key _
  | ignored => exact coupled_pure _ _ _ h

theorem agree_store (h : Ahead settings act d e) {s : List Char}
    (hquiet : ∀ directive, Directive.ofChars s = .ok directive → directive.isParse = false) :
    Agree (Ahead settings act) (Directive.store ⟨act, none⟩ s)
      (Directive.store ⟨act, none⟩ s) d e := by
  rw [Directive.store]
  cases hread : Directive.ofChars s with
  | error fault => exact ⟨rfl, h⟩
  | ok directive =>
    exact agree_perform h (hquiet directive hread)

/-! ## Blocks -/

/-- A block whose directives stand in front of its other lines and leave the settings of the
language alone. In a block that a comment leads nothing matters. -/
structure Fronted (settings : Record) (block : Block) : Prop where
  message : Script.isActHead block.head = false
  front : Settings.isComment settings block.head = false →
    ∀ line ∈ block.lines.dropWhile (marks (Settings.directiveMarker settings)),
      marks (Settings.directiveMarker settings) line = false
  quiet : Settings.isComment settings block.head = false →
    ∀ directive ∈ Directive.ofLines settings block.lines, directive.isParse = false

instance (settings : Record) (block : Block) : Decidable (Fronted settings block) :=
  decidable_of_iff (_ ∧ _ ∧ _)
    ⟨fun h => ⟨h.1, h.2.1, h.2.2⟩, fun h => ⟨h.message, h.front, h.quiet⟩⟩

theorem agree_front (h : Ahead settings (Settings.defaultAct settings) d e) {lines : List Line}
    (hfront : ∀ line ∈ lines.dropWhile (marks (Settings.directiveMarker settings)),
      marks (Settings.directiveMarker settings) line = false)
    (hquiet : ∀ directive ∈ Directive.ofLines settings lines, directive.isParse = false)
    {f g : List Line → Drafting Unit}
    (hnext : Coupled (Ahead settings (Settings.defaultAct settings))
      (f (lines.dropWhile (marks (Settings.directiveMarker settings))))
      (g (lines.dropWhile (marks (Settings.directiveMarker settings))))) :
    Agree (Ahead settings (Settings.defaultAct settings)) (extractPreamble lines >>= f)
      (extractLeading (Settings.defaultAct settings) lines >>= g) d e := by
  have hleading : (extractLeading (Settings.defaultAct settings) lines >>= g).run e = (do
      let _ ← readInOrder (fun _ => ⟨Settings.defaultAct settings, none⟩)
        (lines.takeWhile (marks (Settings.directiveMarker settings)))
      g (lines.dropWhile (marks (Settings.directiveMarker settings)))).run e := by
    simp only [extractLeading, extract_eq, bind_assoc, pure_bind, run_get_bind, h.settings_eq,
      h.plain.settings]
  rw [extractPreamble_eq]
  refine (agree_congr rfl hleading).2 ?_
  clear hleading
  induction lines generalizing d e f with
  | nil => exact hnext d e h
  | cons line rest ih =>
    cases hmarks : marks (Settings.directiveMarker settings) line with
    | true =>
      rw [List.dropWhile_cons_of_pos hmarks] at hfront hnext ⊢
      rw [List.takeWhile_cons_of_pos hmarks]
      have hline := fun directive hread =>
        hquiet directive (Directive.mem_ofLines.2 ⟨line, List.mem_cons_self, hmarks, hread⟩)
      have hrest := fun directive hmem =>
        hquiet directive (Directive.ofLines_subset (List.subset_cons_self line rest) hmem)
      refine (agree_congr ?_ ?_).2 ((agree_store h hline).bind
        fun _ s t hst => ih hst hfront hrest hnext)
      · simp only [readInOrder, bind_assoc, run_get_bind, h.plain.settings, hmarks, if_true]
      · simp only [readInOrder, bind_assoc, run_get_bind, h.settings_eq, h.plain.settings, hmarks,
          if_true]
    | false =>
      have hneg : ¬ marks (Settings.directiveMarker settings) line = true := by simp [hmarks]
      rw [List.dropWhile_cons_of_neg hneg] at hfront hnext ⊢
      rw [List.takeWhile_cons_of_neg hneg]
      have hall := (readInOrder_all_iff
        (fun draft => ⟨Settings.defaultAct draft.settings, none⟩) (line :: rest) d d).2
          ⟨h.plain.settings ▸ hfront, rfl⟩
      exact (agree_congr (run_bind_ok hall) rfl).2 (hnext d e h)

theorem keeps_storePieces (pieces : List Script.Piece) :
    Keeps (Knows settings act) (storePieces act pieces) :=
  storePieces_induction (keeps_pure _) (fun _ _ hx => hx.bind fun _ => keeps_pure _)
    (fun _ _ _ hx => (keeps_ofExcept _).bind fun _ =>
      (keeps_modify fun _ ht => ht.modifyAct _ _).bind fun _ => hx) pieces

theorem agree_storeMessage (h : Ahead settings act d e) {block : Block}
    (hbody : ∀ line ∈ block.body, marks (Settings.directiveMarker settings) line = false) :
    Agree (Ahead settings act) (storeMessage act block) (storeMessage act block) d e := by
  refine agree_of_registering h none fun s hs => ?_
  have hextract : ∀ scope, (Directive.extract scope
      (block.body.filter fun line => !Settings.isComment s.settings line)).run s =
        .ok (block.body.filter fun line => !Settings.isComment s.settings line) s := by
    intro scope
    rw [extract_eq, readInOrder_all_iff, hs.1.settings]
    exact ⟨fun line hline => hbody line (List.mem_filter.1 hline).1, rfl⟩
  simp only [Leaves, uncommented, bind_assoc, pure_bind, ensures_bind, ensures_get]
  rw [Ensures, hextract]
  exact Ensures.mono (keeps_storePieces _ s hs) (fun _ _ ht => ht.modifyAct _ _) fun _ _ ht => ht

theorem agree_storeRest (h : Ahead settings act d e) {lines : List Line}
    (hlines : ∀ line ∈ lines, marks (Settings.directiveMarker settings) line = false) :
    Agree (Ahead settings act) (storeRest act lines) (storeRest act lines) d e := by
  cases lines with
  | nil => exact coupled_pure _ _ _ h
  | cons head body =>
    have hbody : ∀ line ∈ body, marks (Settings.directiveMarker settings) line = false :=
      (List.forall_mem_cons.1 hlines).2
    refine (agree_congr (run_get_bind (s := d)) (run_get_bind (s := e))).2 ?_
    rw [h.settings_eq]
    split_ifs
    · exact coupled_pure _ _ _ h
    · exact agree_storeMessage h hbody

theorem agree_steps {blocks : List Block} (hblocks : ∀ block ∈ blocks, Fronted settings block)
    (hact : Settings.isComment settings (Settings.defaultAct settings).toList = false)
    (h : Ahead settings (Settings.defaultAct settings) d e) :
    Agree (Ahead settings (Settings.defaultAct settings))
      (steps ⟨Settings.defaultAct settings, true⟩ blocks)
      (steps ⟨Settings.defaultAct settings, false⟩ blocks) d e := by
  induction blocks generalizing d e with
  | nil => exact coupled_pure _ _ _ h
  | cons block rest ih =>
    obtain ⟨hblock, hrest⟩ := List.forall_mem_cons.1 hblocks
    cases hcomment : Settings.isComment settings block.head with
    | true =>
      have hskip : ∀ position, ∀ t : Draft, t.settings = settings →
          (steps position (block :: rest)).run t = (steps position rest).run t := by
        intro position t ht
        rw [steps, run_bind_ok (step_of_comment hblock.message (Or.inl (ht ▸ hcomment)))]
      refine (agree_congr (hskip _ d h.plain.settings) (hskip _ e ?_)).2 (ih hrest h)
      rw [h.settings_eq, h.plain.settings]
    | false =>
      have hfront := hblock.front hcomment
      refine (agree_congr ?_ ?_).2 (agree_front h hfront (hblock.quiet hcomment)
        (f := fun lines => do
          let act := Settings.defaultAct (← get).settings
          storeRest act lines
          steps ⟨act, true⟩ rest)
        (g := fun lines => do
          storeRest (Settings.defaultAct settings) lines
          steps ⟨Settings.defaultAct settings, false⟩ rest) ?_)
      · simp only [steps, step, bind_assoc, run_get_bind, h.plain.settings, hblock.message,
          hcomment, hact, Bool.or_false, Bool.false_eq_true, if_false, if_true, pure_bind]
      · simp only [steps, step, bind_assoc, run_get_bind, h.settings_eq, h.plain.settings,
          hblock.message, hcomment, hact, Bool.or_false, Bool.false_eq_true, if_false, pure_bind]
      · intro s t hst
        have hagree := (agree_storeRest hst hfront).bind fun _ s t hst => ih hrest hst
        refine (agree_congr ?_ rfl).2 hagree
        simp only [run_get_bind, hst.plain.settings]

/-! ## Scripts -/

def opening : Block := ⟨"[]".toList, []⟩

theorem step_opening (settings : Record) :
    (step (.first settings) opening).run (.start .empty settings) =
      .ok ⟨Settings.defaultAct settings, false⟩
        (if Settings.isComment settings (Settings.defaultAct settings).toList
        then .start .empty settings
        else Draft.registered (.start .empty settings) (Settings.defaultAct settings)) := by
  have hhead : Script.isActHead opening.head = true := rfl
  have hname : Script.actName opening.head (Settings.defaultAct settings) =
      Settings.defaultAct settings := rfl
  have hsettings : (Draft.start .empty settings).settings = settings := rfl
  simp only [step, run_get_bind, hsettings, hhead, hname, if_true]
  cases Settings.isComment settings (Settings.defaultAct settings).toList <;> rfl

/-- What stands before the first act head may as well stand under a head of the default act, if it
registers this act and its directives stand in front of the messages. -/
theorem compile_opened {text text' : String} {before rest : List Block}
    (hblocks : Script.blocks text.toList = before ++ rest)
    (hopened : Script.blocks text'.toList = opening :: (before ++ rest))
    (hbefore : ∀ block ∈ before, Fronted settings block)
    (hregistered :
      ((draftAfter settings before).scenario.act? (Settings.defaultAct settings)).isSome)
    (hrest : Opens rest) :
    compile text' settings = compile text settings := by
  let inside : Position := ⟨Settings.defaultAct settings, false⟩
  have hplain := steps_append_of_opens hrest (.first settings) inside before
  have hstart := step_opening settings
  rw [← hblocks] at hplain
  cases hact : Settings.isComment settings (Settings.defaultAct settings).toList with
  | true =>
    -- A default act with the name of a comment is read past in both ways.
    have hheads : ∀ block ∈ before, Script.isActHead block.head = false :=
      fun block hblock => (hbefore block hblock).message
    rw [hact, if_pos rfl] at hstart
    refine compile_congr ?_
    rw [hopened, hblocks, steps, run_bind_ok hstart]
    rw [steps_of_comment hheads _ hact, steps_of_comment hheads _ hact, steps_of_opens hrest]
  | false =>
    rw [hact, if_neg Bool.false_ne_true] at hstart
    have hahead : Ahead settings (Settings.defaultAct settings) (.start .empty settings)
        (Draft.registered (.start .empty settings) (Settings.defaultAct settings)) :=
      ⟨Plain.start settings, rfl⟩
    have hagree := agree_steps hbefore hact hahead
    have hinside := steps_append_of_opens hrest inside inside before
    cases hrun : (steps (.first settings) before).run (.start .empty settings) with
    | ok _ t =>
      obtain ⟨_, u, hu, -, hahead⟩ := (hagree.of_ok hrun).exists_ok fun _ _ => id
      -- The act is known by now, so both ways have come to the same draft.
      have hknown : (t.scenario.act? (Settings.defaultAct settings)).isSome := by
        rwa [draftAfter_of_run hrun] at hregistered
      have hsame : u = t := by
        rw [hahead.registered, ← (hahead.plain.ahead_self hknown).registered]
      refine compile_congr ?_
      rw [hopened, steps, run_bind_ok hstart, hinside, run_bind_ok hu, hplain, run_bind_ok hrun,
        hsame]
    | error fault t =>
      cases hu : (steps inside before).run
          (Draft.registered (.start .empty settings) (Settings.defaultAct settings)) with
      | ok _ u => exact ((hagree.of_error hrun).of_ok hu).elim
      | error fault' u =>
        obtain ⟨rfl, hahead⟩ := (hagree.of_error hrun).of_error hu
        have hfails := compile_of_error (hplain ▸ run_bind_error hrun)
        have hfails' : compile text' settings = (.error fault, u.settings) := by
          refine compile_of_error ?_
          rw [hopened, steps, run_bind_ok hstart, hinside, run_bind_error hu]
        rw [hfails, hfails', hahead.settings_eq]

/-- A setting of the scenario, a directive before a role and a block that is a comment, before the
first act head and under the head of the default act. -/
theorem compile_opened_greeting :
    let greeting := "% use mood calm\n\n% note=1\nuser:\nhi {x|2}\n# aside\n\n"
    let text := greeting ++ "# bot:\n% parse join -\n\n[end]"
    let text' := "[]\n\n" ++ text
    let settings := Settings.defaults
    let before := (Script.blocks text.toList).take 3
    let rest := (Script.blocks text.toList).drop 3
    Script.blocks text.toList = before ++ rest ∧
      Script.blocks text'.toList = opening :: (before ++ rest) ∧
      (∀ block ∈ before, Fronted settings block) ∧
      ((draftAfter settings before).scenario.act? (Settings.defaultAct settings)).isSome ∧
      Opens rest ∧ (compile text settings).1.toOption.isSome ∧
      compile text' settings = compile text settings := by
  intro greeting text text' settings before rest
  have hblocks : Script.blocks text.toList = before ++ rest := (List.take_append_drop 3 _).symm
  have hopened : Script.blocks text'.toList = opening :: (before ++ rest) := by decide +kernel
  have hbefore : ∀ block ∈ before, Fronted settings block := by decide +kernel
  have hregistered :
      ((draftAfter settings before).scenario.act? (Settings.defaultAct settings)).isSome := by
    decide +kernel
  have hrest : Opens rest := by decide +kernel
  have hcompiles : (compile text settings).1.toOption.isSome := by decide +kernel
  exact ⟨hblocks, hopened, hbefore, hregistered, hrest, hcompiles,
    compile_opened hblocks hopened hbefore hregistered hrest⟩

end Compiler

end Playscript
