import Playscript.Proofs.Session.Frame

/-!
# Hooks that only look on

At some stages hooks are shown something, and nothing of what they make of it is written back.
Settings may differ in such hooks only, and go on to do so while they are changed alike.
-/
namespace Playscript

/-- A hook that never ends the session. What cannot be called ends none. -/
def Hook.Lasting : Hook → Prop
  | .call _ run => ∀ view effect, run view = .ok effect → effect.endsSession = false
  | .inert _ => True

theorem Stage.eq_of_name {a b : Stage} (h : a.name = b.name) : a = b := by
  have hname := Stage.ofName_name a
  rw [h, Stage.ofName_name] at hname
  exact (Except.ok.inj hname).symm

namespace Config

def OnlookersLast (config : Config) : Prop :=
  ∀ stage : Stage, stage.Shows → ∀ hooks, config.hooksAt stage = .ok hooks →
    ∀ hook ∈ hooks, hook.Lasting

def AgreeAt (stage : Stage) (a b : Option (Slot (List Hook))) : Prop :=
  a = b ∨ stage.Shows ∧ (∃ hooks, a.getD (.proper []) = .proper hooks) ∧
    ∃ hooks, b.getD (.proper []) = .proper hooks

def HooksAgree : Slot (Table (Slot (List Hook))) → Slot (Table (Slot (List Hook))) → Prop
  | .proper a, .proper b =>
    ∀ stage : Stage, AgreeAt stage (Table.get? a stage.name) (Table.get? b stage.name)
  | a, b => a = b

/-- Settings that differ, if at all, only in hooks that look on. -/
structure DiffersInOnlookers (c d : Config) : Prop where
  rest : d = { c with hooks := d.hooks }
  hooks : HooksAgree c.hooks d.hooks

def AlikeResults (x y : Except Fault Config) : Prop :=
  (∃ c d, x = .ok c ∧ y = .ok d ∧ DiffersInOnlookers c d) ∨
    ∃ fault, x = .error fault ∧ y = .error fault

variable {c d : Config}

theorem hooksAgree_refl (hooks : Slot (Table (Slot (List Hook)))) : HooksAgree hooks hooks := by
  cases hooks with
  | proper table => exact fun _ => Or.inl rfl
  | other v => rfl

theorem DiffersInOnlookers.refl (c : Config) : DiffersInOnlookers c c :=
  ⟨rfl, hooksAgree_refl _⟩

theorem DiffersInOnlookers.hookTable (h : DiffersInOnlookers c d) :
    (∃ a b, c.hooks = .proper a ∧ d.hooks = .proper b ∧
      ∀ stage : Stage, AgreeAt stage (Table.get? a stage.name) (Table.get? b stage.name)) ∨
    ∃ v, c.hooks = .other v ∧ d.hooks = .other v := by
  have hagree := h.hooks
  cases hc : c.hooks with
  | proper a =>
    cases hd : d.hooks with
    | proper b =>
      rw [hc, hd] at hagree
      exact Or.inl ⟨a, b, rfl, rfl, hagree⟩
    | other v =>
      rw [hc, hd] at hagree
      cases hagree
  | other v =>
    rw [hc] at hagree
    have hv : Slot.other v = d.hooks := by
      cases hd : d.hooks <;> rw [hd] at hagree <;> exact hagree
    exact Or.inr ⟨v, rfl, hv.symm⟩

def listed : Option (Slot (List Hook)) → Except Fault (List Hook)
  | none => .ok []
  | some (.proper hooks) => .ok hooks
  | some (.other v) => List.map .inert <$> v.several

theorem hooksAt_eq {config : Config} {table : Table (Slot (List Hook))}
    (h : config.hooks = .proper table) (stage : Stage) :
    config.hooksAt stage = listed (Table.get? table stage.name) := by
  simp only [Config.hooksAt, Config.hookTable, h, bind, Except.bind]
  cases Table.get? table stage.name with
  | none => rfl
  | some slot => cases slot <;> rfl

theorem hooksAt_of_other {config : Config} {v : Value} (h : config.hooks = .other v)
    (stage : Stage) : config.hooksAt stage = .error .notRecord := by
  simp only [Config.hooksAt, Config.hookTable, h, bind, Except.bind]

theorem exists_listed {a : Option (Slot (List Hook))} {hooks : List Hook}
    (h : a.getD (.proper []) = .proper hooks) : listed a = .ok hooks := by
  cases a with
  | none =>
    cases h
    rfl
  | some slot =>
    obtain rfl : slot = .proper hooks := h
    rfl

theorem DiffersInOnlookers.hooksAt (h : DiffersInOnlookers c d) (stage : Stage) :
    d.hooksAt stage = c.hooksAt stage ∨
      stage.Shows ∧ (∃ hooks, c.hooksAt stage = .ok hooks) ∧
        ∃ hooks, d.hooksAt stage = .ok hooks := by
  obtain ⟨a, b, hc, hd, hagree⟩ | ⟨v, hc, hd⟩ := h.hookTable
  · rw [hooksAt_eq hc, hooksAt_eq hd]
    obtain heq | ⟨hshows, ⟨hooks, ha⟩, hooks', hb⟩ := hagree stage
    · exact Or.inl (by rw [heq])
    · exact Or.inr ⟨hshows, ⟨hooks, exists_listed ha⟩, hooks', exists_listed hb⟩
  · exact Or.inl (by rw [hooksAt_of_other hc, hooksAt_of_other hd])

theorem DiffersInOnlookers.hooksAt_cases (h : DiffersInOnlookers c d) (stage : Stage) :
    (∃ fault, c.hooksAt stage = .error fault ∧ d.hooksAt stage = .error fault) ∨
      ∃ hooks hooks', c.hooksAt stage = .ok hooks ∧ d.hooksAt stage = .ok hooks' := by
  obtain hsame | ⟨-, ⟨hooks, hc⟩, hooks', hd⟩ := h.hooksAt stage
  · rw [hsame]
    cases c.hooksAt stage with
    | error fault => exact Or.inl ⟨fault, rfl, rfl⟩
    | ok hooks => exact Or.inr ⟨hooks, hooks, rfl, rfl⟩
  · exact Or.inr ⟨hooks, hooks', hc, hd⟩

/-! ## Changing settings -/

theorem DiffersInOnlookers.demand (h : DiffersInOnlookers c d) (operation : String) :
    d.demand operation = c.demand operation := by
  rw [h.rest, Config.demand, Config.demand]

theorem DiffersInOnlookers.addAction (h : DiffersInOnlookers c d) (role : String)
    (action : Action) : AlikeResults (c.addAction role action) (d.addAction role action) := by
  have hactions : d.actions = c.actions := by rw [h.rest]
  simp only [Config.addAction, h.demand, hactions, bind, Except.bind]
  cases c.demand "add_action" with
  | error fault => exact Or.inr ⟨fault, rfl, rfl⟩
  | ok _ =>
    cases c.actions with
    | other v => exact Or.inr ⟨_, rfl, rfl⟩
    | proper actions =>
      refine Or.inl ⟨_, _, rfl, rfl, ?_, h.hooks⟩
      rw [h.rest]

theorem agreeAt_set {a b : Table (Slot (List Hook))}
    (h : ∀ stage : Stage, AgreeAt stage (Table.get? a stage.name) (Table.get? b stage.name))
    {stage : Stage} {x y : Slot (List Hook)} (hxy : AgreeAt stage (some x) (some y))
    (other : Stage) :
    AgreeAt other (Table.get? (Table.set a stage.name x) other.name)
      (Table.get? (Table.set b stage.name y) other.name) := by
  rw [Table.get?_set, Table.get?_set]
  split_ifs with hname
  · obtain rfl : stage = other := Stage.eq_of_name hname
    exact hxy
  · exact h other

theorem addHook_eq {config : Config} {table : Table (Slot (List Hook))}
    (h : config.hooks = .proper table) (stage : Stage) (hook : Hook) :
    config.addHook stage hook = (do
      config.demand "add_hook"
      match (Table.get? table stage.name).getD (.proper []) with
      | .proper hooks => return { config with
          hooks := .proper (Table.set table stage.name (.proper (hooks ++ [hook]))) }
      | .other _ => throw .notExtensible) := by
  simp only [Config.addHook, Config.hookTable, h]
  cases config.demand "add_hook" <;> rfl

theorem DiffersInOnlookers.addHook (h : DiffersInOnlookers c d) (stage : Stage) (hook : Hook) :
    AlikeResults (c.addHook stage hook) (d.addHook stage hook) := by
  obtain ⟨a, b, hc, hd, hagree⟩ | ⟨v, hc, hd⟩ := h.hookTable
  · rw [addHook_eq hc, addHook_eq hd, h.demand]
    cases c.demand "add_hook" with
    | error fault => exact Or.inr ⟨fault, rfl, rfl⟩
    | ok _ =>
      simp only [bind, Except.bind]
      obtain heq | ⟨hshows, ⟨hooks, ha⟩, hooks', hb⟩ := hagree stage
      · rw [heq]
        cases (Table.get? b stage.name).getD (.proper []) with
        | other v => exact Or.inr ⟨_, rfl, rfl⟩
        | proper hooks =>
          refine Or.inl ⟨_, _, rfl, rfl, ?_, agreeAt_set hagree (Or.inl rfl)⟩
          rw [h.rest]
      · rw [ha, hb]
        refine Or.inl ⟨_, _, rfl, rfl, ?_, agreeAt_set hagree (Or.inr ⟨hshows, ⟨_, rfl⟩, _, rfl⟩)⟩
        rw [h.rest]
  · simp only [Config.addHook, h.demand, Config.hookTable, hc, hd, bind, Except.bind]
    cases c.demand "add_hook" with
    | error fault => exact Or.inr ⟨fault, rfl, rfl⟩
    | ok _ => exact Or.inr ⟨_, rfl, rfl⟩

theorem DiffersInOnlookers.setField (h : DiffersInOnlookers c d) (name : String) (value : Value) :
    DiffersInOnlookers (c.setField name value) (d.setField name value) := by
  obtain ⟨hrest, hhooks⟩ := h
  unfold Config.setField
  split_ifs
  · exact ⟨by rw [hrest], hhooks⟩
  · exact ⟨by rw [hrest], hhooks⟩
  · exact ⟨by rw [hrest], hhooks⟩
  · exact ⟨by rw [hrest], hhooks⟩
  · exact ⟨by rw [hrest], hooksAgree_refl _⟩
  · exact ⟨by rw [hrest], hhooks⟩
  · exact ⟨hrest, hhooks⟩

theorem DiffersInOnlookers.update (h : DiffersInOnlookers c d) (values : Record) :
    AlikeResults (c.update values) (d.update values) := by
  have hfold : DiffersInOnlookers
      (values.foldl (fun config entry => config.setField entry.1 entry.2) c)
      (values.foldl (fun config entry => config.setField entry.1 entry.2) d) := by
    induction values generalizing c d with
    | nil => exact h
    | cons entry rest ih => exact ih (h.setField entry.1 entry.2)
  simp only [Config.update, h.demand, bind, Except.bind]
  cases c.demand "update" with
  | error fault => exact Or.inr ⟨fault, rfl, rfl⟩
  | ok _ =>
    dsimp only
    split_ifs
    · exact Or.inr ⟨_, rfl, rfl⟩
    · exact Or.inl ⟨_, _, rfl, rfl, hfold⟩

theorem eq_of_checked {config config' : Config} (h : config.checked = .ok config') :
    config' = config := by
  simp only [Config.checked, bind, Except.bind] at h
  split at h
  · cases h
  · split at h
    · cases h
    · exact (Except.ok.inj h).symm

/-! ## Hooks that last -/

theorem OnlookersLast.of_hooks {config config' : Config} (h : config.OnlookersLast)
    (hhooks : config'.hooks = config.hooks) : config'.OnlookersLast := by
  intro stage hshows hooks hat
  refine h stage hshows hooks (Eq.trans ?_ hat)
  simp only [Config.hooksAt, Config.hookTable, hhooks]

theorem OnlookersLast.addHook {config config' : Config} (h : config.OnlookersLast) {stage : Stage}
    {hook : Hook} (hhook : stage.Shows → hook.Lasting)
    (h' : config.addHook stage hook = .ok config') : config'.OnlookersLast := by
  obtain ⟨table, hooks, htable, hslot, rfl⟩ := addHook_eq_ok h'
  intro other hshows hooks' hat
  rw [hooksAt_eq rfl, Table.get?_set] at hat
  split_ifs at hat with hname
  · obtain rfl : stage = other := Stage.eq_of_name hname
    cases hat
    have hbefore := h stage hshows hooks ((hooksAt_eq htable stage).trans (exists_listed hslot))
    exact List.forall_mem_append.2 ⟨hbefore, List.forall_mem_singleton.2 (hhook hshows)⟩
  · exact h other hshows hooks' ((hooksAt_eq htable other).trans hat)

theorem onlookersLast_hooksOf (config : Config) (value : Value) :
    { config with hooks := hooksOf value }.OnlookersLast := by
  intro stage _ hooks hat hook hmem
  have hinert : ∃ items : List Value, hooks = items.map .inert := by
    cases value with
    | dict entries =>
      rw [hooksAt_eq rfl, Table.get?_map stageHooksOf] at hat
      cases hget : Table.get? entries stage.name with
      | none =>
        rw [hget] at hat
        cases hat
        exact ⟨[], rfl⟩
      | some v =>
        rw [hget] at hat
        cases v with
        | list items | tuple items =>
          cases hat
          exact ⟨items, rfl⟩
        | str s =>
          cases hat
          exact ⟨_, rfl⟩
        | dict entries =>
          cases hat
          exact ⟨_, rfl⟩
        | _ => cases hat
    | _ =>
      rw [hooksAt_of_other rfl] at hat
      cases hat
  obtain ⟨items, rfl⟩ := hinert
  obtain ⟨v, -, rfl⟩ := List.mem_map.1 hmem
  trivial

theorem OnlookersLast.setField {config : Config} (h : config.OnlookersLast) (name : String)
    (value : Value) : (config.setField name value).OnlookersLast := by
  by_cases hname : name = "hooks"
  · subst hname
    exact onlookersLast_hooksOf config value
  · exact h.of_hooks (Config.setField_hooks config hname value)

theorem OnlookersLast.update {config config' : Config} (h : config.OnlookersLast) {values : Record}
    (h' : config.update values = .ok config') : config'.OnlookersLast := by
  rw [update_eq_ok h']
  clear h'
  induction values generalizing config with
  | nil => exact h
  | cons entry rest ih => exact ih (h.setField entry.1 entry.2)

end Config

end Playscript
