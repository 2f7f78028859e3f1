import Playscript.Proofs.Session.Frame

/-!
# Parts of operations that only read

Running hooks and actions is noted as calls, but changes nothing else of a session: neither what it
has come to nor its staging nor its settings. So does building messages.
-/
namespace Playscript.Session

def Quiet {α : Type} (x : Play α) : Prop :=
  ∀ s, Keeps (fun t => s.config.Steady ∧ Noted s t) x

variable {α : Type} {x : Play α}

theorem Quiet.leaves (hx : Quiet x) {s : Session} (hs : s.config.Steady) :
    Leaves x s (Noted s) :=
  (hx s s ⟨hs, Noted.refl s⟩).mono fun _ ht => ht.2

theorem Noted.config {s t : Session} (h : Noted s t) : t.config = s.config := by
  obtain ⟨calls, rfl⟩ := h
  rfl

theorem callFree_noted (s : Session) : CallFree fun t => s.config.Steady ∧ Noted s t :=
  fun _ _ ht => ⟨ht.1, ht.2.trans ⟨_, rfl⟩⟩

theorem hooksKeep_noted (s : Session) (stage : Stage) :
    HooksKeep (fun t => s.config.Steady ∧ Noted s t) stage := by
  intro value t ht
  have ht' : t.config.Steady := ht.2.config ▸ ht.1
  exact (runHooks_steady ht' stage value).mono (fun _ _ hu => ⟨ht.1, ht.2.trans hu.1⟩)
    fun _ _ hu => ⟨ht.1, ht.2.trans hu.1⟩

theorem quiet_runHooks (stage : Stage) (value : Value) : Quiet (runHooks stage value) := fun s =>
  hooksKeep_noted s stage value

theorem quiet_applyActions (staging : Staging) (act : String) (entries : List (Nat × Record)) :
    Quiet (applyActions staging act entries) := fun s =>
  (callFree_noted s).applyActions staging act entries

theorem quiet_buildMessages (staging : Staging) (act : String) (context : Record) :
    Quiet (buildMessages staging act context) := fun s =>
  (callFree_noted s).buildMessages (hooksKeep_noted s _) staging act context

theorem quiet_said : Quiet said := fun _ => keeps_said

/-! ## Steps -/

variable [DataModel]

theorem step_leaves {now : Timestamp} {s : Session} {command : Command} {P : Session → Prop}
    (h : Leaves (perform now command) s P) : P (step now s command).2 := by
  simp only [step]
  split
  · next h' => exact h.of_ok h'
  · next h' => exact h.of_error h'

theorem run_leaves {P : Session → Prop} {commands : List (Timestamp × Command)}
    (h : ∀ c ∈ commands, Keeps P (perform c.1 c.2)) {s : Session} (hs : P s) :
    P (run s commands).2 := by
  induction commands generalizing s with
  | nil => exact hs
  | cons command rest ih =>
    obtain ⟨hcommand, hrest⟩ := List.forall_mem_cons.1 h
    exact ih hrest (step_leaves (hcommand s hs))

theorem perform_of_step {now : Timestamp} {s t : Session} {command : Command} {reply : Reply}
    (h : step now s command = (.ok reply, t)) : (perform now command).run s = .ok reply t := by
  simp only [step] at h
  split at h
  · next hrun =>
    cases h
    exact hrun
  · cases h

theorem step_configValue (s : Session) (now : Timestamp) (key : String) (act : Value) :
    (step now s (.configValue key act)).1 =
      Reply.value <$> s.configValue (Path.ofString key) act := by
  have hrun : (perform now (.configValue key act)).run s =
      (ofExcept (s.configValue (Path.ofString key) act) >>= fun v =>
        pure (Reply.value v) : Play Reply).run s := rfl
  rw [step, hrun]
  cases s.configValue (Path.ofString key) act <;> rfl

end Playscript.Session
