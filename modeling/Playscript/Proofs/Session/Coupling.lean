import Playscript.Proofs.Session.Frame

/-!
# Two sessions side by side

Two sessions that have come to the same, but for what their ledgers book, are led on alike by what
looks at neither, as long as the hooks that run in between do the same in both.
-/
namespace Playscript.Session

def CostFree (change : Progress → Progress) : Prop :=
  ∀ p cost, change { p with cost := cost } = { change p with cost := cost }

/-- A relation between sessions that have come to the same but for their ledgers, which lasts when
both are changed alike elsewhere and when hooks run whose answers are written back. -/
structure Coupling (R : Session → Session → Prop) : Prop where
  progress : ∀ s t, R s t → (s.progress = none ∧ t.progress = none) ∨
    ∃ p cost, s.progress = some p ∧ t.progress = some { p with cost := cost }
  moved : ∀ (change : Progress → Progress), CostFree change → ∀ s t, R s t →
    R { s with progress := s.progress.map change } { t with progress := t.progress.map change }
  hooks : ∀ stage : Stage, ¬ stage.Shows → ∀ value, Coupled R (runHooks stage value)
    (runHooks stage value)

variable {R : Session → Session → Prop} {β : Type}

theorem coupled_reading {f : Session → Play β} (hf : ∀ s, Coupled R (f s) (f s))
    (h : ∀ s t, R s t → f t = f s) : Coupled R (get >>= f) (get >>= f) :=
  coupled_get_bind fun s t hst => by
    rw [h s t hst]
    exact hf s s t hst

namespace Coupling

variable {change : Progress → Progress}

theorem extend (h : Coupling R) (hfree : CostFree change) :
    Coupled R (extend change) (extend change) :=
  coupled_modify (h.moved change hfree)

theorem advance (h : Coupling R) (hfree : CostFree change) :
    Coupled R (advance change) (advance change) := by
  intro s t hst
  have hmoved := h.moved change hfree s t hst
  rw [Agree, ensures_advance]
  obtain ⟨hs, ht⟩ | ⟨p, cost, hs, ht⟩ := h.progress s t hst
  · simp only [ensures_advance, hs, ht]
    exact ⟨trivial, hst⟩
  · rw [hs, ht] at hmoved
    simp only [ensures_advance, hs, ht]
    exact ⟨trivial, hmoved⟩

theorem said (h : Coupling R) : Coupled R said said := by
  refine coupled_reading (fun s => ?_) fun s t hst => ?_
  · cases s.progress with
    | none => exact coupled_throw _
    | some p => exact coupled_ofExcept _
  · obtain ⟨hs, ht⟩ | ⟨p, cost, hs, ht⟩ := h.progress s t hst <;> rw [hs, ht]

theorem record (h : Coupling R) (messages : Value) :
    Coupled R (record messages) (record messages) := by
  refine coupled_reading (fun s => ?_) fun s t hst => ?_
  · cases s.progress with
    | none => exact coupled_throw _
    | some p =>
      exact (coupled_ofExcept _).bind fun _ => (coupled_ofExcept _).bind fun _ =>
        h.advance fun _ _ => rfl
  · obtain ⟨hs, ht⟩ | ⟨p, cost, hs, ht⟩ := h.progress s t hst <;> rw [hs, ht]

theorem answer (h : Coupling R) (message : Value) :
    Coupled R (answer message) (answer message) := by
  refine coupled_reading (fun s => ?_) fun s t hst => ?_
  · cases s.progress with
    | none => exact coupled_pure _
    | some p => exact (coupled_ofExcept _).bind fun _ => h.extend fun _ _ => rfl
  · obtain ⟨hs, ht⟩ | ⟨p, cost, hs, ht⟩ := h.progress s t hst <;> rw [hs, ht]

theorem pushMessages (h : Coupling R) (messages : Value) :
    Coupled R (pushMessages messages) (pushMessages messages) := by
  refine coupled_reading (fun s => ?_) fun s t hst => ?_
  · cases s.progress with
    | none => exact coupled_pure _
    | some p =>
      exact (coupled_ofExcept _).bind fun _ => (h.hooks _ id _).bind fun _ =>
        (coupled_ofExcept _).bind fun _ => h.extend fun _ _ => rfl
  · obtain ⟨hs, ht⟩ | ⟨p, cost, hs, ht⟩ := h.progress s t hst <;> rw [hs, ht]

theorem pushContexts (h : Coupling R) (contexts : Value) :
    Coupled R (pushContexts contexts) (pushContexts contexts) := by
  refine coupled_reading (fun s => ?_) fun s t hst => ?_
  · cases s.progress with
    | none => exact coupled_pure _
    | some p =>
      exact (coupled_ofExcept _).bind fun _ => (h.hooks _ id _).bind fun _ =>
        (coupled_ofExcept _).bind fun _ => h.extend fun _ _ => rfl
  · obtain ⟨hs, ht⟩ | ⟨p, cost, hs, ht⟩ := h.progress s t hst
    · rw [hs, ht]
    · rw [hs, ht]
      rfl

theorem finish (h : Coupling R) : Coupled R finish finish := by
  refine coupled_reading (fun s => ?_) fun s t hst => ?_
  · cases s.progress with
    | none => exact coupled_pure _
    | some p => exact (h.advance fun _ _ => rfl).bind fun _ => h.said
  · obtain ⟨hs, ht⟩ | ⟨p, cost, hs, ht⟩ := h.progress s t hst <;> rw [hs, ht]

end Coupling

end Playscript.Session
