import Playscript.Proofs.Session.Reading

/-!
# Sessions without hooks

In a session without hooks a value that hooks would be shown stays as it is, and saving a session
leaves it as it is. What becomes of a message is up to the action of its role.
-/
namespace Playscript

def Config.Hookless (config : Config) : Prop :=
  ∃ table, config.hooks = .proper table ∧ ∀ entry ∈ table, entry.2 = .proper []

theorem Config.Hookless.steady {config : Config} (h : config.Hookless) : config.Steady := by
  obtain ⟨table, htable, hnone⟩ := h
  exact ⟨table, htable, fun entry he =>
    ⟨[], hnone entry he, fun _ hk => absurd hk List.not_mem_nil⟩⟩

theorem Config.Hookless.hooksAt {config : Config} (h : config.Hookless) (stage : Stage) :
    config.hooksAt stage = .ok [] := by
  obtain ⟨table, htable, hnone⟩ := h
  cases hget : Table.get? table stage.name with
  | none => simp [Config.hooksAt, hookTable, htable, hget, bind, Except.bind, pure, Except.pure]
  | some slot =>
    obtain rfl := hnone _ (Table.mem_of_get? hget)
    simp [Config.hooksAt, hookTable, htable, hget, bind, Except.bind, pure, Except.pure]

namespace Session

variable {s : Session}

theorem run_runHooks (h : s.config.Hookless) (stage : Stage) (value : Value) :
    (runHooks stage value).run s = .ok value s := by
  simp only [runHooks, run_get_bind, h.hooksAt stage]
  rfl

theorem ensures_runHooks (h : s.config.Hookless) {stage : Stage} {value : Value}
    {ok : Value → Session → Prop} {failed : Fault → Session → Prop} :
    Ensures (runHooks stage value) s ok failed ↔ ok value s := by
  rw [Ensures, run_runHooks h]

/-! ## Saving -/

theorem run_save [DataModel] (h : s.config.Hookless) {staging : Staging} {progress : Progress}
    (hcurrent : s.current? = some (staging, progress)) :
    save.run s = if DataModel.holds (Snapshot.values ⟨staging.scenario, progress⟩)
      then .ok (some ⟨staging.scenario, progress⟩) s else .error .tooDeep s := by
  have hprogress := (eq_of_current? hcurrent).2
  have hsame : { s with progress := some { progress with history := progress.history } } = s := by
    rw [← hprogress]
  simp only [save, run_get_bind, hprogress]
  rw [run_bind_ok (run_runHooks h _ _), run_bind_ok (run_advance hprogress), hsame,
    run_get_bind, hcurrent]
  dsimp only
  split_ifs <;> rfl

theorem current?_of_save [DataModel] (h : s.config.Hookless) {snapshot : Snapshot} {t : Session}
    (hsave : save.run s = .ok (some snapshot) t) : ∃ here, s.current? = some here := by
  cases hprogress : s.progress with
  | none =>
    simp only [save, run_get_bind, hprogress] at hsave
    cases hsave
  | some progress =>
    cases hstaging : s.staging with
    | some staging => exact ⟨_, current?_eq hstaging hprogress⟩
    | none =>
      simp only [save, run_get_bind, hprogress] at hsave
      rw [run_bind_ok (run_runHooks h _ _), run_bind_ok (run_advance hprogress), run_get_bind]
        at hsave
      simp only [current?, hstaging] at hsave
      cases hsave

/-! ## Actions -/

def actionOf (actions : Table Action) : Value → Action
  | .str name => (Table.get? actions name).getD (.fixed .null)
  | _ => .fixed .null

def replacement (staging : Staging) (act : String) (index : Nat) (message : Record) :
    Action → Play Value
  | .fixed .null => pure (.dict message)
  | .fixed v => pure v
  | .call label run => do
    match (← get).progress with
    | none => throw .sessionEnded
    | some progress =>
      let content := String.ofList (Staging.textAt message staging.contentKey)
      let view : ActionView :=
        ⟨content, staging.messageConfig act (.int index), progress.context, act,
          progress.settled⟩
      note (.action label view)
      ofExcept (run view)

theorem applyAction_eq (staging : Staging) (act : String) (index : Nat) (message : Record) :
    (applyAction staging act (index, message)).run s =
      (ofExcept s.config.actionTable >>= fun actions =>
        if !((Table.get? message staging.roleKey).getD .null).isKey then throw .unusableKey
        else replacement staging act index message
          (actionOf actions ((Table.get? message staging.roleKey).getD .null))).run s := by
  simp only [applyAction, run_get_bind]
  cases s.config.actionTable with
  | error fault => rfl
  | ok actions =>
    rw [run_bind_ok (run_ofExcept_ok _ _), run_bind_ok (run_ofExcept_ok _ _)]
    generalize (Table.get? message staging.roleKey).getD .null = role
    cases hatom : role.isKey with
    | false => rfl
    | true =>
      cases role with
      | str name =>
        simp only [actionOf]
        cases (Table.get? actions name).getD (.fixed .null) with
        | fixed v => cases v <;> rfl
        | call label run => rfl
      | _ => rfl

end Session

end Playscript
