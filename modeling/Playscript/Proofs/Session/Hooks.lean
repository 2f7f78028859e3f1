import Mathlib.Tactic.SplitIfs
import Playscript.Proofs.Outcome
import Playscript.Proofs.Table
import Playscript.Session.Basic

/-!
# Steady hooks

A hook is a reducer over lists: shown a list it answers with a list or with nothing. A steady hook
does this without fault and never ends the session. A chain of steady hooks turns a list into a list
and changes nothing but the record of calls.
-/
namespace Playscript

def Value.IsList (v : Value) : Prop := ∃ items, v = .list items

theorem Value.isList_list (items : List Value) : (Value.list items).IsList := ⟨items, rfl⟩

structure Hook.Reduces (run : HookView → Except Fault HookEffect) : Prop where
  answers : ∀ view, view.value.IsList →
    ∃ effect, run view = .ok effect ∧ ∀ v, effect.value = some v → v.IsList
  keepsOn : ∀ view effect, run view = .ok effect → effect.endsSession = false

/-- A hook that can be called and is a reducer over lists. -/
def Hook.Steady : Hook → Prop
  | .call _ run => Hook.Reduces run
  | .inert _ => False

def Config.Steady (config : Config) : Prop :=
  ∃ table, config.hooks = .proper table ∧
    ∀ entry ∈ table, ∃ hooks, entry.2 = .proper hooks ∧ ∀ hook ∈ hooks, hook.Steady

namespace Config

theorem Steady.hooksAt {config : Config} (h : config.Steady) (stage : Stage) :
    ∃ hooks, config.hooksAt stage = .ok hooks ∧ ∀ hook ∈ hooks, hook.Steady := by
  obtain ⟨table, htable, hsteady⟩ := h
  cases hget : Table.get? table stage.name with
  | none =>
    refine ⟨[], ?_, fun _ hmem => (nomatch hmem)⟩
    simp [Config.hooksAt, hookTable, htable, hget, bind, Except.bind, pure, Except.pure]
  | some slot =>
    obtain ⟨hooks, rfl, hhooks⟩ := hsteady _ (Table.mem_of_get? hget)
    refine ⟨hooks, ?_, hhooks⟩
    simp [Config.hooksAt, hookTable, htable, hget, bind, Except.bind, pure, Except.pure]

theorem addHook_eq_ok {config config' : Config} {stage : Stage} {hook : Hook}
    (h : config.addHook stage hook = .ok config') :
    ∃ table hooks, config.hooks = .proper table ∧
      (Table.get? table stage.name).getD (.proper []) = .proper hooks ∧
      config' = { config with
        hooks := .proper (Table.set table stage.name (.proper (hooks ++ [hook]))) } := by
  cases hdemand : config.demand "add_hook" with
  | error fault => simp [addHook, hdemand, bind, Except.bind] at h
  | ok _ =>
    cases htable : config.hooks with
    | other v => simp [addHook, hdemand, hookTable, htable, bind, Except.bind] at h
    | proper table =>
      simp only [addHook, hdemand, hookTable, htable, bind, Except.bind] at h
      cases hslot : (Table.get? table stage.name).getD (.proper []) with
      | other v => simp [hslot, throw, throwThe, MonadExceptOf.throw] at h
      | proper hooks =>
        simp only [hslot, pure, Except.pure, Except.ok.injEq] at h
        exact ⟨table, hooks, rfl, hslot, h.symm⟩

theorem Steady.addHook {config : Config} (h : config.Steady) {hook : Hook} (hhook : hook.Steady)
    {stage : Stage} {config' : Config} (h' : config.addHook stage hook = .ok config') :
    config'.Steady := by
  obtain ⟨table, hooks, htable, hslot, rfl⟩ := addHook_eq_ok h'
  obtain ⟨table', htable', hsteady⟩ := h
  cases htable.symm.trans htable'
  have hhooks : ∀ hook ∈ hooks, hook.Steady := by
    cases hget : Table.get? table stage.name with
    | none =>
      rw [hget] at hslot
      cases hslot
      exact fun _ hmem => (nomatch hmem)
    | some slot =>
      rw [hget] at hslot
      obtain ⟨hooks', rfl, hhooks'⟩ := hsteady _ (Table.mem_of_get? hget)
      cases hslot
      exact hhooks'
  refine ⟨_, rfl, fun entry hentry => ?_⟩
  rcases Table.mem_set hentry with hold | rfl
  · exact hsteady _ hold
  · refine ⟨_, rfl, fun k hk => ?_⟩
    rcases List.mem_append.1 hk with hk | hk
    · exact hhooks k hk
    · exact List.mem_singleton.1 hk ▸ hhook

theorem addAction_eq_ok {config config' : Config} {role : String} {action : Action}
    (h : config.addAction role action = .ok config') :
    ∃ actions, config.actions = .proper actions ∧
      config' = { config with actions := .proper (Table.set actions role action) } := by
  cases hdemand : config.demand "add_action" with
  | error fault => simp [addAction, hdemand, bind, Except.bind] at h
  | ok _ =>
    cases hactions : config.actions with
    | proper actions =>
      simp only [addAction, hdemand, hactions, bind, Except.bind, pure, Except.pure,
        Except.ok.injEq] at h
      exact ⟨actions, rfl, h.symm⟩
    | other v => simp [addAction, hdemand, hactions, bind, Except.bind, throw, throwThe,
        MonadExceptOf.throw] at h

theorem addAction_hooks {config config' : Config} {role : String} {action : Action}
    (h : config.addAction role action = .ok config') : config'.hooks = config.hooks := by
  obtain ⟨actions, -, rfl⟩ := addAction_eq_ok h
  rfl

theorem setField_hooks (config : Config) {name : String} (hname : name ≠ "hooks") (value : Value) :
    (config.setField name value).hooks = config.hooks := by
  rw [setField]
  split_ifs <;> simp_all

theorem Steady.congr {config config' : Config} (h : config.Steady)
    (hhooks : config'.hooks = config.hooks) : config'.Steady := by
  obtain ⟨table, htable, hsteady⟩ := h
  exact ⟨table, hhooks.trans htable, hsteady⟩

theorem update_eq_ok {config config' : Config} {values : Record}
    (h : config.update values = .ok config') :
    config' = values.foldl (fun config entry => config.setField entry.1 entry.2) config := by
  cases hdemand : config.demand "update" with
  | error fault => simp [update, hdemand, bind, Except.bind] at h
  | ok _ =>
    simp only [update, hdemand, bind, Except.bind, pure, Except.pure] at h
    split_ifs at h
    exact (Except.ok.inj h).symm

theorem Steady.setField {config : Config} (h : config.Steady) {name : String} {value : Value}
    (hvalue : name = "hooks" → (default.setField name value).Steady) :
    (config.setField name value).Steady := by
  by_cases hname : name = "hooks"
  · apply (hvalue hname).congr
    subst hname
    rfl
  · exact h.congr (setField_hooks config hname value)

theorem Steady.update {config config' : Config} (h : config.Steady) {values : Record}
    (hvalues : ∀ entry ∈ values, entry.1 = "hooks" → (default.setField entry.1 entry.2).Steady)
    (h' : config.update values = .ok config') : config'.Steady := by
  have hfold : ∀ (config : Config), config.Steady →
      (values.foldl (fun config entry => config.setField entry.1 entry.2) config).Steady := by
    clear h h'
    induction values with
    | nil => exact fun _ h => h
    | cons entry rest ih =>
      intro config h
      exact ih (fun e he => hvalues e (List.mem_cons_of_mem _ he)) _
        (h.setField (hvalues entry List.mem_cons_self))
  rw [update_eq_ok h']
  exact hfold _ h

end Config

namespace Session

def Noted (s t : Session) : Prop := ∃ calls, t = { s with calls := calls }

theorem Noted.refl (s : Session) : Noted s s := ⟨s.calls, rfl⟩

theorem Noted.trans {s t u : Session} (hst : Noted s t) (htu : Noted t u) : Noted s u := by
  obtain ⟨calls, rfl⟩ := hst
  obtain ⟨calls', rfl⟩ := htu
  exact ⟨calls', rfl⟩

theorem ensures_note {call : Call} {s : Session} {ok : Unit → Session → Prop}
    {failed : Fault → Session → Prop} :
    Ensures (note call) s ok failed ↔ ok () { s with calls := s.calls ++ [call] } := Iff.rfl

theorem ensures_advance {change : Progress → Progress} {s : Session}
    {ok : Unit → Session → Prop} {failed : Fault → Session → Prop} :
    Ensures (advance change) s ok failed ↔
      match s.progress with
      | some progress => ok () { s with progress := some (change progress) }
      | none => failed .sessionEnded s := by
  simp only [advance, ensures_bind, ensures_get]
  cases s.progress <;> simp

theorem run_advance {s : Session} {change : Progress → Progress} {progress : Progress}
    (h : s.progress = some progress) :
    (advance change).run s = .ok () { s with progress := some (change progress) } := by
  simp only [advance, run_get_bind, h]
  rfl

theorem current?_eq {s : Session} {staging : Staging} {progress : Progress}
    (hs : s.staging = some staging)
    (hp : s.progress = some progress) : s.current? = some (staging, progress) := by
  simp only [current?, hs, hp]

theorem eq_of_current? {s : Session} {staging : Staging} {progress : Progress}
    (h : s.current? = some (staging, progress)) :
    s.staging = some staging ∧ s.progress = some progress := by
  rw [current?] at h
  split at h
  · next hstaging hprogress =>
    cases h
    exact ⟨hstaging, hprogress⟩
  · cases h

theorem runAll_steady {hooks : List Hook} (hhooks : ∀ hook ∈ hooks, hook.Steady) (value : Value)
    (s : Session) :
    Ensures (runAll hooks value) s (fun v t => Noted s t ∧ (value.IsList → v.IsList))
      (fun _ t => Noted s t ∧ ¬ value.IsList) := by
  induction hooks generalizing value s with
  | nil => exact ⟨Noted.refl s, id⟩
  | cons hook rest ih =>
    have hsteady := hhooks _ List.mem_cons_self
    cases hook with
    | inert v => exact hsteady.elim
    | call label run =>
      simp only [runAll, ensures_bind, ensures_get]
      cases hcurrent : s.current? with
      | none => exact ⟨Noted.refl s, id⟩
      | some here =>
        obtain ⟨staging, progress⟩ := here
        simp only [ensures_bind, ensures_note, ensures_ofExcept]
        refine ⟨fun effect heffect => ?_, fun fault hfault => ⟨⟨_, rfl⟩, fun hlist => ?_⟩⟩
        · have hon := hsteady.keepsOn _ _ heffect
          simp only [hon, Bool.false_eq_true, if_false]
          refine Ensures.mono (ih (fun k hk => hhooks k (List.mem_cons_of_mem _ hk)) _ _)
            (fun v t ht => ⟨Noted.trans ⟨_, rfl⟩ ht.1, fun hlist => ht.2 ?_⟩)
            (fun fault t ht => ⟨Noted.trans ⟨_, rfl⟩ ht.1, fun hlist => ht.2 ?_⟩)
          all_goals
            obtain ⟨effect', heffect', hvalue⟩ := hsteady.answers
              ⟨value, staging.scenario, progress.settled⟩ hlist
            cases heffect.symm.trans heffect'
            cases hv : effect.value with
            | none => exact hlist
            | some v => exact hvalue v hv
        · obtain ⟨effect, heffect, -⟩ := hsteady.answers
            ⟨value, staging.scenario, progress.settled⟩ hlist
          cases hfault.symm.trans heffect

theorem runHooks_steady {s : Session} (h : s.config.Steady) (stage : Stage) (value : Value) :
    Ensures (runHooks stage value) s (fun v t => Noted s t ∧ (value.IsList → v.IsList))
      (fun _ t => Noted s t ∧ ¬ value.IsList) := by
  obtain ⟨hooks, hat, hhooks⟩ := h.hooksAt stage
  simp only [runHooks, ensures_bind, ensures_get, hat, ensures_ofExcept_ok]
  exact runAll_steady hhooks value s

end Session

end Playscript
