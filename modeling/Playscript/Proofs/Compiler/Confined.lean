import Playscript.Proofs.Compiler.Parts
import Playscript.Proofs.Compiler.Stanzas
import Playscript.Proofs.Scenario.Placing

/-!
# Computations confined to one act

A section whose directives write in the settings of its act, if anywhere, is compiled without a look
at other acts and without a change of them: what comes of it depends on the settings of the language
and on what its act holds before, and can be put under the name of the act in any other draft.
-/
namespace Playscript

open Script (Line Block Section Opens)

namespace Draft

def put (d : Draft) (name : String) : Option Act → Draft
  | none => d
  | some act => { d with scenario := d.scenario.putAct name act }

variable (d : Draft) (name : String) (act? : Option Act)

@[simp] theorem put_none : d.put name none = d := rfl

@[simp] theorem settings_put : (d.put name act?).settings = d.settings := by cases act? <;> rfl

@[simp] theorem shared_put : (d.put name act?).shared = d.shared := by cases act? <;> rfl

@[simp] theorem written_put : (d.put name act?).written = d.written := by cases act? <;> rfl

theorem act?_put (other : String) :
    (d.put name act?).scenario.act? other =
      if name = other then act?.or (d.scenario.act? other) else d.scenario.act? other := by
  cases act? with
  | none => rw [put_none, Option.none_or, ite_self]
  | some act => exact d.scenario.act?_putAct name other act

theorem put_put (act?' : Option Act) :
    (d.put name act?).put name act?' = d.put name (act?'.or act?) := by
  cases act?' with
  | none => rw [put_none, Option.none_or]
  | some act' =>
    cases act? with
    | none => rfl
    | some act => simp only [put, Scenario.putAct_putAct, Option.some_or]

theorem ensureAct_eq_put (description : Option String) :
    { d with scenario := d.scenario.ensureAct name description } =
      d.put name (some (((d.scenario.act? name).getD .empty).describe description)) := by
  rw [Scenario.ensureAct_eq_putAct, put]

theorem modifyAct_eq_put (change : Act → Act) :
    { d with scenario := d.scenario.modifyAct name change } =
      d.put name ((d.scenario.act? name).map change) := by
  cases hact : d.scenario.act? name with
  | none => rw [Scenario.modifyAct_of_none hact, Option.map_none, put]
  | some act => rw [Scenario.modifyAct_eq_putAct hact, Option.map_some, put]

end Draft

/-- A computation that under given settings looks at one act only and changes no other: from a draft
with the same act, it gives the same and puts the same act in place. -/
def Confined {α : Type} (settings : Record) (act : String) (x : Drafting α) (ok : α → Prop) :
    Prop :=
  ∀ d : Draft, d.settings = settings → ∀ a t, x.run d = .ok a t → ok a ∧
    ∃ act?, t = d.put act act? ∧ ∀ e : Draft, e.settings = settings →
      e.scenario.act? act = d.scenario.act? act → x.run e = .ok a (e.put act act?)

section

variable {α β : Type} {settings : Record} {act : String} {x : Drafting α} {f : α → Drafting β}
variable {ok : α → Prop} {ok' : β → Prop}

theorem confined_pure {a : α} (h : ok a) : Confined settings act (pure a) ok := by
  intro d _ b t hrun
  obtain ⟨rfl, rfl⟩ := run_pure_eq_ok.1 hrun
  exact ⟨h, none, rfl, fun _ _ _ => rfl⟩

theorem confined_ofExcept (y : Except Fault α) :
    Confined settings act (ofExcept y) fun a => y = .ok a := by
  intro d _ a t hrun
  obtain ⟨rfl, rfl⟩ := run_ofExcept_eq_ok.1 hrun
  exact ⟨rfl, none, rfl, fun _ _ _ => rfl⟩

theorem Confined.bind (hx : Confined settings act x ok)
    (hf : ∀ a, ok a → Confined settings act (f a) ok') : Confined settings act (x >>= f) ok' := by
  intro d hd b t hrun
  obtain ⟨a, u, hfirst, hrest⟩ := run_bind_eq_ok.1 hrun
  obtain ⟨ha, act?, rfl, hx⟩ := hx d hd a u hfirst
  obtain ⟨hb, act?', rfl, hf⟩ := hf a ha _ ((d.settings_put act act?).trans hd) b t hrest
  refine ⟨hb, act?'.or act?, d.put_put act act? act?', fun e he hsame => ?_⟩
  have hact : (e.put act act?).scenario.act? act = (d.put act act?).scenario.act? act := by
    rw [Draft.act?_put, Draft.act?_put, hsame]
  rw [run_bind_ok (hx e he hsame), hf _ ((e.settings_put act act?).trans he) hact, Draft.put_put]

theorem confined_get {f : Draft → Drafting α}
    (hsame : ∀ d e : Draft, d.settings = settings → e.settings = settings →
      e.scenario.act? act = d.scenario.act? act → f e = f d)
    (hf : ∀ d : Draft, d.settings = settings → Confined settings act (f d) ok) :
    Confined settings act (get >>= f) ok := by
  intro d hd a t hrun
  obtain ⟨ha, act?, rfl, hrest⟩ := hf d hd d hd a t hrun
  refine ⟨ha, act?, rfl, fun e he hact => ?_⟩
  rw [run_get_bind, hsame d e hd he hact]
  exact hrest e he hact

theorem confined_modify {g : Draft → Draft} (c : Option Act → Option Act)
    (hg : ∀ d, g d = d.put act (c (d.scenario.act? act))) :
    Confined settings act (modify g) fun _ => True := by
  intro d _ a t hrun
  cases hrun
  refine ⟨trivial, c (d.scenario.act? act), hg d, fun e _ hsame => ?_⟩
  change EStateM.Result.ok () (g e) = _
  rw [hg e, hsame]

theorem confined_register (description : Option String) :
    Confined settings act
      (modify fun draft => { draft with scenario := draft.scenario.ensureAct act description })
      fun _ => True :=
  confined_modify (fun act? => some ((act?.getD .empty).describe description)) fun d =>
    d.ensureAct_eq_put act description

theorem confined_change (change : Act → Act) :
    Confined settings act
      (modify fun draft => { draft with scenario := draft.scenario.modifyAct act change })
      fun _ => True :=
  confined_modify (Option.map change) fun d => d.modifyAct_eq_put act change

end

/-! ## Directives -/

namespace Directive

def isInner : Directive → Bool
  | .setting _ _ => false
  | .use _ _ => false
  | _ => true

variable {settings : Record} {scope : Scope}

theorem writeAct_confined (key : List Char) (value : Value) :
    Confined settings scope.act (writeAct scope key value) fun _ => True :=
  (confined_register none).bind fun _ _ =>
    (confined_ofExcept _).bind fun _ _ => confined_change _

theorem perform_confined {directive : Directive} (h : directive.isInner = true) :
    Confined settings scope.act (perform scope directive) fun _ => True := by
  cases directive with
  | setting key value => cases h
  | use key value => cases h
  | assign key value => exact writeAct_confined key _
  | flag key => exact writeAct_confined key _
  | ignored => exact confined_pure trivial

theorem store_confined {s : List Char}
    (h : ∀ directive, ofChars s = .ok directive → directive.isInner = true) :
    Confined settings scope.act (store scope s) fun _ => True :=
  (confined_ofExcept _).bind fun directive hread => perform_confined (h directive hread)

theorem extract_confined (scope : Scope) {lines : List Line}
    (h : ∀ directive ∈ ofLines settings lines, directive.isInner = true) :
    Confined settings scope.act (extract scope lines) fun _ => True := by
  induction lines with
  | nil => exact confined_pure trivial
  | cons line rest ih =>
    have hrest : ∀ directive ∈ ofLines settings rest, directive.isInner = true :=
      fun directive hmem => h directive (ofLines_subset (List.subset_cons_self line rest) hmem)
    refine confined_get (fun d e hd he _ => by simp only [hd, he]) fun d hd => ?_
    rw [hd]
    dsimp only
    split_ifs with hmarks
    · have hline := fun directive hread =>
        h directive (mem_ofLines.2 ⟨line, List.mem_cons_self, hmarks, hread⟩)
      exact (store_confined hline).bind fun _ _ => ih hrest
    · exact (ih hrest).bind fun _ _ => confined_pure trivial

end Directive

structure Stanza.Inner (stanza : Stanza) : Prop where
  directives : ∀ directive ∈ stanza.directives, directive.isInner = true
  speech : ∀ speech ∈ stanza.speech, ∀ directive ∈ speech.directives, directive.isInner = true

instance (stanza : Stanza) : Decidable stanza.Inner :=
  decidable_of_iff (_ ∧ _) ⟨fun h => ⟨h.1, h.2⟩, fun h => ⟨h.directives, h.speech⟩⟩

def Script.Section.stanzas (part : Section) (settings : Record) : List Stanza :=
  Stanza.ofBlocks settings ⟨part.act settings, false⟩ part.blocks

namespace Compiler

open Directive (marks extract_confined)

variable {settings : Record} {act : String}

/-! ## Blocks -/

theorem uncommented_confined (lines : List Line) :
    Confined settings act (uncommented lines)
      (· = lines.filter fun line => !Settings.isComment settings line) :=
  confined_get (fun d e hd he _ => by simp only [hd, he]) fun d hd => confined_pure (by rw [hd])

theorem extractLeading_confined {lines : List Line}
    (h : ∀ directive ∈ Directive.ofLines settings
      (lines.takeWhile (marks (Settings.directiveMarker settings))), directive.isInner = true) :
    Confined settings act (extractLeading act lines)
      (· = lines.dropWhile (marks (Settings.directiveMarker settings))) := by
  refine confined_get (fun d e hd he _ => by simp only [hd, he]) fun d hd => ?_
  rw [hd]
  exact (extract_confined ⟨act, none⟩ h).bind fun _ _ => confined_pure rfl

theorem storeAct_confined {block : Block}
    (h : ∀ directive ∈ Directive.ofLines settings
      (block.body.filter fun line => !Settings.isComment settings line), directive.isInner = true) :
    Confined settings act (storeAct act block) fun _ => True :=
  (uncommented_confined _).bind fun _ hlines =>
    (extract_confined ⟨act, none⟩ (hlines ▸ h)).bind fun _ _ => confined_register _

theorem storePieces_confined (pieces : List Script.Piece) :
    Confined settings act (storePieces act pieces) fun _ => True :=
  storePieces_induction (P := fun x => Confined settings act x fun _ => True)
    (confined_pure trivial)
    (fun _ _ hx => hx.bind fun _ _ => confined_pure trivial)
    (fun _ _ _ hx => (confined_ofExcept _).bind fun _ _ =>
      (confined_change _).bind fun _ _ => hx) pieces

theorem storeMessage_confined {block : Block}
    (h : ∀ directive ∈ Directive.ofLines settings
      (block.body.filter fun line => !Settings.isComment settings line), directive.isInner = true) :
    Confined settings act (storeMessage act block) fun _ => True := by
  refine (confined_register none).bind fun _ _ =>
    confined_get (fun d e _ _ hsame => by simp only [hsame]) fun d _ =>
      (uncommented_confined _).bind fun _ hlines =>
        (extract_confined ⟨act, some _⟩ (hlines ▸ h)).bind fun _ _ =>
          confined_get (fun d e hd he _ => by simp only [hd, he]) fun d _ =>
            (storePieces_confined _).bind fun _ _ => confined_change _

theorem storeRest_confined {lines : List Line}
    (h : ∀ speech ∈ Speech.ofLines? settings act lines, ∀ directive ∈ speech.directives,
      directive.isInner = true) :
    Confined settings act (storeRest act lines) fun _ => True := by
  cases lines with
  | nil => exact confined_pure trivial
  | cons head body =>
    refine confined_get (fun d e hd he _ => by simp only [hd, he]) fun d hd => ?_
    rw [hd]
    split_ifs with hcomment
    · exact confined_pure trivial
    · have hspeech : ∃ entry, Speech.ofLines? settings act (head :: body) =
          some ⟨entry, Directive.ofLines settings
            (body.filter fun line => !Settings.isComment settings line)⟩ := by
        simp only [Speech.ofLines?, Entry.ofLines?, hcomment]
        exact ⟨_, rfl⟩
      obtain ⟨entry, hspeech⟩ := hspeech
      exact storeMessage_confined fun directive hmem => h _ hspeech directive hmem

theorem step_opening_confined {block : Block} (hhead : Script.isActHead block.head = true)
    (position : Position)
    (h : (Stanza.ofBlock settings ⟨Script.actName block.head (Settings.defaultAct settings), false⟩
      block).Inner) :
    Confined settings (Script.actName block.head (Settings.defaultAct settings))
      (step position block)
      (· = ⟨Script.actName block.head (Settings.defaultAct settings), false⟩) := by
  refine confined_get (fun d e hd he _ => by simp only [hd, he]) fun d hd => ?_
  rw [hd]
  dsimp only
  rw [if_pos hhead]
  cases hcomment : Settings.isComment settings
      (Script.actName block.head (Settings.defaultAct settings)).toList with
  | true => exact confined_pure rfl
  | false =>
    refine (storeAct_confined fun directive hmem => h.directives directive ?_).bind
      fun _ _ => confined_pure rfl
    simpa only [Stanza.ofBlock, hhead, hcomment, if_true, Bool.false_eq_true, if_false] using hmem

theorem step_message_confined {block : Block} (hhead : Script.isActHead block.head = false)
    (h : (Stanza.ofBlock settings ⟨act, false⟩ block).Inner) :
    Confined settings act (step ⟨act, false⟩ block) (· = ⟨act, false⟩) := by
  have hmessage : ¬ Script.isActHead block.head = true := by simp [hhead]
  refine confined_get (fun d e hd he _ => by simp only [hd, he]) fun d hd => ?_
  rw [hd]
  dsimp only
  rw [if_neg hmessage]
  rw [Stanza.ofBlock, if_neg hmessage] at h
  split_ifs at h ⊢ with hcomment hpreamble
  · exact confined_pure rfl
  · exact hpreamble.elim
  · refine (extractLeading_confined h.directives).bind fun lines hlines => ?_
    exact (storeRest_confined (hlines ▸ h.speech)).bind fun _ _ => confined_pure rfl

theorem steps_messages_confined {blocks : List Block}
    (hheads : ∀ block ∈ blocks, Script.isActHead block.head = false)
    (h : ∀ stanza ∈ Stanza.ofBlocks settings ⟨act, false⟩ blocks, stanza.Inner) :
    Confined settings act (steps ⟨act, false⟩ blocks) fun _ => True := by
  induction blocks with
  | nil => exact confined_pure trivial
  | cons block rest ih =>
    obtain ⟨hhead, hheads⟩ := List.forall_mem_cons.1 hheads
    have hstays : Stanza.positionAfter settings ⟨act, false⟩ block = ⟨act, false⟩ := by
      rw [Stanza.positionAfter, if_neg (by simp [hhead])]
    rw [Stanza.ofBlocks, hstays] at h
    obtain ⟨hblock, hrest⟩ := List.forall_mem_cons.1 h
    refine (step_message_confined hhead hblock).bind fun position hposition => ?_
    rw [hposition]
    exact ih hheads hrest

theorem steps_confined {part : Section} (h : ∀ stanza ∈ part.stanzas settings, stanza.Inner)
    (position : Position) :
    Confined settings (part.act settings) (steps position part.blocks) fun _ => True := by
  have hmoves : Stanza.positionAfter settings ⟨part.act settings, false⟩ part.opening =
      ⟨part.act settings, false⟩ := by
    rw [Stanza.positionAfter, if_pos part.opens]
    rfl
  rw [Section.stanzas, Section.blocks, Stanza.ofBlocks, hmoves] at h
  obtain ⟨hopening, hmessages⟩ := List.forall_mem_cons.1 h
  refine (step_opening_confined part.opens position hopening).bind fun next hnext => ?_
  rw [hnext]
  exact steps_messages_confined part.within hmessages

/-! ## Two sections -/

theorem steps_swapped {first second : Section} {d t : Draft}
    (hacts : first.act d.settings ≠ second.act d.settings)
    (hfirst : ∀ stanza ∈ first.stanzas d.settings, stanza.Inner)
    (hsecond : ∀ stanza ∈ second.stanzas d.settings, stanza.Inner) {position : Position}
    (h : (steps position (first.blocks ++ second.blocks)).run d = .ok () t) :
    ∃ one? two?,
      t = (d.put (first.act d.settings) one?).put (second.act d.settings) two? ∧
      (steps position (second.blocks ++ first.blocks)).run d =
        .ok () ((d.put (second.act d.settings) two?).put (first.act d.settings) one?) := by
  rw [steps_append_of_opens second.opens_blocks position position] at h
  obtain ⟨_, u, hone, htwo⟩ := run_bind_eq_ok.1 h
  obtain ⟨-, one?, rfl, honeAt⟩ := steps_confined hfirst position d rfl _ _ hone
  obtain ⟨-, two?, rfl, htwoAt⟩ := steps_confined hsecond position _
    (d.settings_put (first.act d.settings) one?) _ _ htwo
  refine ⟨one?, two?, rfl, ?_⟩
  have htwo' := htwoAt d rfl (by rw [Draft.act?_put, if_neg hacts])
  have hone' := honeAt (d.put (second.act d.settings) two?) (d.settings_put _ two?)
    (by rw [Draft.act?_put, if_neg hacts.symm])
  rw [steps_append_of_opens first.opens_blocks position position, run_bind_ok htwo', hone']

end Compiler

end Playscript
