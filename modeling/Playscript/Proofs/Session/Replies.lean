import Playscript.Proofs.Session.Coupling
import Playscript.Proofs.Session.Sound

/-!
# Sessions that answer alike

Two sessions without hooks that have come to the same answer alike in everything that follows, if
their stagings look alike.
-/
namespace Playscript

namespace Session

def Command.Follows : Command → Prop
  | .execute .. | .next .. | .answer _ | .pushMessages _ | .pushContexts _ | .clearContext
  | .configValue .. | .printHistory _ | .currentAct | .remaining | .finish => True
  | _ => False

def SameReplies (s t : Session) : Prop :=
  ∀ commands : List (Timestamp × Command), (∀ c ∈ commands, c.2.Follows) →
    (run s commands).1 = (run t commands).1

/-- Sessions under the same settings without hooks that have come to the same in two stagings, with
ledgers that amount to the same. The calls noted before may differ. -/
inductive Alike (a b : Staging) : Session → Session → Prop
  | intro {config : Config} (h : config.Hookless) (progress : Progress) {cost cost' : Option Ledger}
    (hcost : cost'.map Ledger.settled = cost.map Ledger.settled) (calls calls' : List Call) :
    Alike a b ⟨config, some a, some { progress with cost := cost }, calls⟩
      ⟨config, some b, some { progress with cost := cost' }, calls'⟩

end Session

structure Staging.Matched (a b : Staging) : Prop where
  ordered : a.scenario.Ordered
  order : b.scenario.order = a.scenario.order
  keys : b.scenario.acts.keys = a.scenario.acts.keys
  looks : LooksAlike a b

namespace Staging.Matched

variable {a b : Staging}

theorem act?_isNone (h : Matched a b) (name : String) :
    (b.scenario.act? name).isNone = (a.scenario.act? name).isNone := by
  apply Bool.eq_iff_iff.2
  simp only [Option.isNone_iff_eq_none, Scenario.act?, Table.get?_eq_none_iff, h.keys]

theorem nameFrom (h : Matched a b) (v : Value) :
    b.scenario.nameFrom v = a.scenario.nameFrom v := by
  unfold Scenario.nameFrom Scenario.unusedName
  rw [h.keys]

theorem mem_order (h : Matched a b) {name : String} {act : Act}
    (hact : a.scenario.act? name = some act) : name ∈ a.scenario.order := by
  apply (h.ordered.mem_order name).2
  by_contra hname
  rw [Scenario.act?, (Table.get?_eq_none_iff _ _).2 hname] at hact
  cases hact

theorem shown (h : Matched a b) (key : String) (name : String) :
    a.shown (Path.ofString key) name = b.shown (Path.ofString key) name := by
  cases hact : a.scenario.act? name with
  | some act => exact h.looks.shown key name (h.mem_order hact)
  | none =>
    have hb : (b.scenario.act? name).isNone = true := by
      rw [h.act?_isNone, hact, Option.isNone_none]
    simp only [Staging.shown, actConfig, isUnknown, hact, hb, Option.isNone_none, if_true]

end Staging.Matched

namespace Session

open Staging (Matched)

variable {a b : Staging}

/-! ## Parts of a play -/

theorem coupled_runHooks (stage : Stage) (value : Value) :
    Coupled (Alike a b) (runHooks stage value) (runHooks stage value) := by
  rintro _ _ ⟨h, progress, hcost, calls, calls'⟩
  rw [agree_congr (run_runHooks h stage value) (run_runHooks h stage value)]
  exact ⟨rfl, h, progress, hcost, calls, calls'⟩

theorem coupling_alike : Coupling (Alike a b) where
  progress := by
    rintro _ _ ⟨h, progress, hcost, calls, calls'⟩
    exact Or.inr ⟨_, _, rfl, rfl⟩
  moved := by
    rintro change hfree _ _ @⟨config, h, progress, cost, cost', hcost, calls, calls'⟩
    simp only [Option.map_some]
    rw [hfree progress cost, hfree progress cost']
    exact ⟨h, change progress, hcost, calls, calls'⟩
  hooks := fun stage _ value => coupled_runHooks stage value

theorem coupled_replacement (hkey : a.contentKey = b.contentKey) (act : String) {i j : Nat}
    (message : Record) {action : Action}
    (hconfig : ∀ label run, action = .call label run →
      a.messageConfig act (.int i) = b.messageConfig act (.int j)) :
    Coupled (Alike a b) (replacement a act i message action)
      (replacement b act j message action) := by
  cases action with
  | fixed v =>
    cases v with
    | null => exact coupled_pure _
    | _ => exact coupled_pure _
  | call label run =>
    apply coupled_get_bind
    rintro _ _ ⟨h, progress, hcost, calls, calls'⟩
    dsimp only [Progress.settled]
    rw [hconfig label run rfl, hkey, hcost]
    refine ((coupled_modify fun _ _ hst => ?_).bind fun _ => coupled_ofExcept _) _ _
      ⟨h, progress, hcost, calls, calls'⟩
    obtain ⟨h, progress, hcost, calls, calls'⟩ := hst
    exact ⟨h, progress, hcost, _, _⟩

theorem coupled_applyAction (h : Matched a b) (act : String) {i j : Nat} {message : Record}
    (hseen : a.seenConfig act (i, message) = b.seenConfig act (j, message)) :
    Coupled (Alike a b) (applyAction a act (i, message)) (applyAction b act (j, message)) := by
  intro s t hst
  rw [agree_congr (applyAction_eq a act i message) (applyAction_eq b act j message)]
  have hconfig : t.config = s.config := by
    cases hst
    rfl
  rw [hconfig, ← h.looks.roleKey]
  refine ((coupled_ofExcept _).bind fun actions => ?_) s t hst
  split_ifs
  · exact coupled_throw _
  · apply coupled_replacement h.looks.contentKey act message
    intro label run haction
    unfold Staging.seenConfig Staging.roleOf at hseen
    rw [← h.looks.roleKey] at hseen
    dsimp only at hseen
    generalize (Table.get? message a.roleKey).getD .null = role at hseen haction
    cases role with
    | str name => exact hseen
    | _ => cases haction

theorem coupled_applyActions (h : Matched a b) (act : String) {built built' : List (Nat × Record)}
    (hbuilt : built.map (fun entry => (entry.2, a.seenConfig act entry)) =
      built'.map fun entry => (entry.2, b.seenConfig act entry)) :
    Coupled (Alike a b) (applyActions a act built) (applyActions b act built') := by
  induction built generalizing built' with
  | nil =>
    cases built' with
    | nil => exact coupled_pure _
    | cons entry rest => cases hbuilt
  | cons entry rest ih =>
    cases built' with
    | nil => cases hbuilt
    | cons entry' rest' =>
      obtain ⟨i, message⟩ := entry
      obtain ⟨j, message'⟩ := entry'
      obtain ⟨hentry, hrest⟩ := List.cons.inj hbuilt
      obtain ⟨rfl, hseen⟩ := Prod.mk.inj hentry
      apply (coupled_applyAction h act hseen).bind
      intro v
      exact (ih hrest).bind fun _ => coupled_pure _

theorem coupled_buildMessages (h : Matched a b) {act : String} (hact : act ∈ a.scenario.order)
    (context : Record) :
    Coupled (Alike a b) (buildMessages a act context) (buildMessages b act context) := by
  have hoffered := h.looks.offered context act hact
  unfold Staging.offered at hoffered
  unfold buildMessages
  cases ha : a.buildIndexed (.dict context) (some act) with
  | error fault =>
    cases hb : b.buildIndexed (.dict context) (some act) with
    | error fault' =>
      rw [ha, hb] at hoffered
      cases hoffered
      exact coupled_throw _
    | ok built' =>
      rw [ha, hb] at hoffered
      cases hoffered
  | ok built =>
    cases hb : b.buildIndexed (.dict context) (some act) with
    | error fault' =>
      rw [ha, hb] at hoffered
      cases hoffered
    | ok built' =>
      rw [ha, hb] at hoffered
      have hbuilt := Except.ok.inj hoffered
      exact (coupled_applyActions h act hbuilt).bind fun messages => coupled_runHooks _ _

/-! ## Where two sessions stand -/

theorem Alike.currentAct (h : Matched a b) {s t : Session} (hst : Alike a b s t) :
    t.currentAct = s.currentAct := by
  obtain ⟨-, progress, hcost, calls, calls'⟩ := hst
  simp only [Session.currentAct, h.order]
  cases horder : a.scenario.order with
  | nil => rw [h.looks.opening horder]
  | cons first rest => cases progress.act <;> rfl

theorem Alike.actAt (h : Matched a b) {s t : Session} (hst : Alike a b s t) (act : Value) :
    t.actAt act = s.actAt act := by
  unfold Session.actAt
  rw [hst.currentAct h]

theorem Alike.remaining (h : Matched a b) {s t : Session} (hst : Alike a b s t) :
    t.remaining = s.remaining := by
  have hact := hst.currentAct h
  obtain ⟨-, progress, hcost, calls, calls'⟩ := hst
  simp only [Session.remaining, hact, current?]
  split
  · next heq hname =>
    cases heq
    simp only [hname, h.order]
  · next hnone =>
    split
    · next heq hname => exact (hnone _ _ _ rfl hname).elim
    · rfl

theorem Alike.isNull_actAt {s t : Session} (hst : Alike a b s t) (act : Value) :
    (s.actAt act).isNull = false := by
  obtain ⟨-, progress, hcost, calls, calls'⟩ := hst
  rw [Session.actAt]
  split_ifs with hact
  · cases act <;> first | rfl | cases hact
  · simp only [Session.currentAct]
    cases progress.act with
    | some act => rfl
    | none => cases a.scenario.order <;> rfl

theorem exists_name_of_nameFrom {scenario : Scenario} {v : Value} (hv : v.isNull = false)
    {name? : Option String} (h : scenario.nameFrom v = .ok name?) :
    ∃ name, name? = some name := by
  unfold Scenario.nameFrom at h
  split at h
  · cases hv
  · exact ⟨_, (Except.ok.inj h).symm⟩
  · split_ifs at h
    exact ⟨_, (Except.ok.inj h).symm⟩

theorem configValue_eq {s : Session} {staging : Staging} (hs : s.staging = some staging)
    {act : Value} (hact : (s.actAt act).isNull = false) (path : Path) :
    s.configValue path act = (do
      match ← staging.scenario.nameFrom (s.actAt act) with
      | none => return .null
      | some name => staging.shown path name) := by
  simp only [Session.configValue, hs]
  cases hname : staging.scenario.nameFrom (s.actAt act) with
  | error fault => rfl
  | ok name? =>
    obtain ⟨name, rfl⟩ := exists_name_of_nameFrom hact hname
    rfl

theorem Alike.configValue (h : Matched a b) {s t : Session} (hst : Alike a b s t) (key : String)
    (act : Value) :
    t.configValue (Path.ofString key) act = s.configValue (Path.ofString key) act := by
  have hact := hst.actAt h act
  have hnull := hst.isNull_actAt act
  have hs : s.staging = some a := by
    cases hst
    rfl
  have ht : t.staging = some b := by
    cases hst
    rfl
  rw [configValue_eq hs hnull, configValue_eq ht (hact ▸ hnull), hact, h.nameFrom]
  cases hname : a.scenario.nameFrom (s.actAt act) with
  | error fault => rfl
  | ok name? =>
    cases name? with
    | none => rfl
    | some name => exact (h.shown key name).symm

/-! ## Commands -/

theorem coupled_execute (h : Matched a b) (context act : Value) :
    Coupled (Alike a b) (execute context act) (execute context act) := by
  apply coupled_get_bind
  intro s t hst
  have hact := hst.actAt h
  obtain ⟨hconfig, progress, hcost, calls, calls'⟩ := hst
  dsimp only [current?]
  refine ((coupled_ofExcept _).bind fun entries => ?_) _ _ ⟨hconfig, progress, hcost, calls, calls'⟩
  rw [hact, h.nameFrom]
  apply (coupled_ofExcept _).bind
  intro name?
  cases name? with
  | none => exact coupled_pure _
  | some name =>
    dsimp only
    rw [h.act?_isNone name]
    cases hfound : a.scenario.act? name with
    | none => exact coupled_pure _
    | some found =>
      apply (coupling_alike.advance fun _ _ => rfl).bind
      intro _
      apply (coupled_buildMessages h (h.mem_order hfound) _).bind
      intro messages
      exact (coupling_alike.record messages).bind fun _ => coupled_pure _

theorem coupled_next (h : Matched a b) (context : Value) (wholeHistory : Bool) :
    Coupled (Alike a b) (next context wholeHistory) (next context wholeHistory) := by
  apply coupled_get_bind
  intro s t hst
  obtain ⟨hconfig, progress, hcost, calls, calls'⟩ := hst
  dsimp only [current?]
  refine ((coupled_runHooks _ _).bind fun history => ?_) _ _
    ⟨hconfig, progress, hcost, calls, calls'⟩
  refine (coupling_alike.advance fun _ _ => rfl).bind fun _ => coupled_get_bind fun s t hst => ?_
  have hact : t.progress.bind (·.act) = s.progress.bind (·.act) := by
    cases hst
    rfl
  rw [hact]
  cases s.progress.bind (·.act) with
  | none => exact coupled_pure _ _ _ hst
  | some act =>
    refine ((coupled_execute h _ _).bind fun messages => ?_) _ _ hst
    cases messages with
    | none => exact coupled_pure _
    | some messages =>
      dsimp only
      split_ifs
      · exact coupling_alike.said.bind fun _ => coupled_pure _
      · exact (coupled_runHooks _ _).bind fun _ => coupled_pure _

theorem coupled_clearContext : Coupled (Alike a b) clearContext clearContext := by
  apply coupled_get_bind
  rintro _ _ ⟨hconfig, progress, hcost, calls, calls'⟩
  refine ((coupled_runHooks _ _).bind fun _ => ?_) _ _ ⟨hconfig, progress, hcost, calls, calls'⟩
  exact coupling_alike.advance fun _ _ => rfl

theorem coupled_printHistory (h : Matched a b) (skipped : Value) :
    Coupled (Alike a b) (printHistory skipped) (printHistory skipped) := by
  apply coupled_get_bind
  rintro _ _ ⟨hconfig, progress, hcost, calls, calls'⟩
  dsimp only [current?]
  refine ((coupled_runHooks _ _).bind fun shown => ?_) _ _ ⟨hconfig, progress, hcost, calls, calls'⟩
  rw [h.looks.roleKey, h.looks.contentKey]
  apply (coupled_ofExcept _).bind
  intro messages
  exact (coupled_ofExcept _).bind fun text => coupled_pure _

theorem coupled_perform (h : Matched a b) (now : Timestamp) {command : Command}
    (hcommand : command.Follows) :
    Coupled (Alike a b) (perform now command) (perform now command) := by
  cases command with
  | execute context act => exact (coupled_execute h context act).bind fun _ => coupled_pure _
  | next context whole => exact (coupled_next h context whole).bind fun _ => coupled_pure _
  | answer message => exact (coupling_alike.answer message).bind fun _ => coupled_pure _
  | pushMessages messages =>
    exact (coupling_alike.pushMessages messages).bind fun _ => coupled_pure _
  | pushContexts contexts =>
    exact (coupling_alike.pushContexts contexts).bind fun _ => coupled_pure _
  | clearContext => exact coupled_clearContext.bind fun _ => coupled_pure _
  | printHistory skipped => exact (coupled_printHistory h skipped).bind fun _ => coupled_pure _
  | finish => exact coupling_alike.finish.bind fun _ => coupled_pure _
  | currentAct =>
    apply coupled_get_bind
    intro s t hst
    rw [hst.currentAct h]
    exact coupled_pure _ _ _ hst
  | remaining =>
    apply coupled_get_bind
    intro s t hst
    rw [hst.remaining h]
    exact coupled_pure _ _ _ hst
  | configValue key act =>
    apply coupled_get_bind
    intro s t hst
    rw [hst.configValue h]
    exact ((coupled_ofExcept _).bind fun _ => coupled_pure _) _ _ hst
  | _ => exact hcommand.elim

/-! ## Runs -/

theorem step_of_agree {R : Session → Session → Prop} {now : Timestamp} {command : Command}
    {s t : Session} (h : Agree R (perform now command) (perform now command) s t) :
    (step now s command).1 = (step now t command).1 ∧
      R (step now s command).2 (step now t command).2 := by
  unfold step
  cases hs : (perform now command).run s with
  | ok reply s' =>
    have h := h.of_ok hs
    cases ht : (perform now command).run t with
    | ok reply' t' =>
      obtain ⟨rfl, hR⟩ := h.of_ok ht
      exact ⟨rfl, hR⟩
    | error fault t' => exact (h.of_error ht).elim
  | error fault s' =>
    have h := h.of_error hs
    cases ht : (perform now command).run t with
    | ok reply' t' => exact (h.of_ok ht).elim
    | error fault' t' =>
      obtain ⟨rfl, hR⟩ := h.of_error ht
      exact ⟨rfl, hR⟩

theorem Alike.sameReplies (h : Matched a b) {s t : Session} (hst : Alike a b s t) :
    SameReplies s t := by
  intro commands hcommands
  induction commands generalizing s t with
  | nil => rfl
  | cons command rest ih =>
    obtain ⟨hcommand, hrest⟩ := List.forall_mem_cons.1 hcommands
    obtain ⟨hreply, hnext⟩ := step_of_agree (coupled_perform h command.1 hcommand s t hst)
    simp only [run, hreply, ih hnext hrest]

namespace SameReplies

variable {s t : Session}

theorem reply (h : SameReplies s t) (now : Timestamp) (command : Command)
    (hcommand : command.Follows) : (step now s command).1 = (step now t command).1 :=
  List.head_eq_of_cons_eq (h [(now, command)] (List.forall_mem_singleton.2 hcommand))

theorem step (h : SameReplies s t) (now : Timestamp) (command : Command)
    (hcommand : command.Follows) : SameReplies (step now s command).2 (step now t command).2 := by
  intro rest hrest
  have hrun := h ((now, command) :: rest) (List.forall_mem_cons.2 ⟨hcommand, hrest⟩)
  exact List.tail_eq_of_cons_eq hrun

end SameReplies

end Session

end Playscript
