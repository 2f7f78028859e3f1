import Mathlib.Tactic.SplitIfs
import Playscript.Proofs.Table
import Playscript.Scenario

/-!
# Acts by name

Registering an act and changing an act touch the act of that name only.
-/
namespace Playscript.Scenario

theorem modifyAct_id (s : Scenario) (name : String) : s.modifyAct name id = s := by
  rw [modifyAct]
  split
  · next act hact =>
    have hset : Table.set s.acts name act = s.acts := Table.set_of_get? hact
    rw [id, hset]
  · rfl

theorem modifyAct_modifyAct (s : Scenario) (name : String) (f g : Act → Act) :
    (s.modifyAct name f).modifyAct name g = s.modifyAct name (g ∘ f) := by
  cases hact : s.act? name with
  | none => simp only [modifyAct, hact]
  | some act =>
    have hnext : Scenario.act? ⟨Table.set s.acts name (f act), s.config⟩ name = some (f act) := by
      rw [act?, Table.get?_set, if_pos rfl]
    simp only [modifyAct, hact, hnext, Table.set_set, Function.comp_apply]

theorem act?_modifyAct (s : Scenario) (name other : String) (change : Act → Act) :
    (s.modifyAct name change).act? other =
      if name = other then (s.act? name).map change else s.act? other := by
  rw [modifyAct]
  cases h : s.act? name with
  | none =>
    split_ifs with he
    · rw [← he, h]
      rfl
    · rfl
  | some act => simp only [act?, Table.get?_set, Option.map_some]

theorem isSome_act?_modifyAct (s : Scenario) (name other : String) (change : Act → Act) :
    ((s.modifyAct name change).act? other).isSome = (s.act? other).isSome := by
  rw [act?_modifyAct]
  split_ifs with he
  · rw [Option.isSome_map, he]
  · rfl

theorem config_modifyAct (s : Scenario) (name : String) (change : Act → Act) :
    (s.modifyAct name change).config = s.config := by
  rw [modifyAct]
  split <;> rfl

theorem act?_ensureAct (s : Scenario) (name other : String) (description : Option String) :
    (s.ensureAct name description).act? other =
      if name = other then some (((s.act? name).getD .empty).describe description)
      else s.act? other := by
  rw [ensureAct]
  cases h : s.act? name with
  | none => simp only [act?, Table.get?_set, Option.getD_none]
  | some act => simp only [act?, Table.get?_set, Option.getD_some]

theorem get?_config_ensureAct (s : Scenario) (name : String) (description : Option String)
    {key : String} (h : key ≠ "order") :
    Table.get? (s.ensureAct name description).config key = Table.get? s.config key := by
  rw [ensureAct]
  cases s.act? name with
  | none => simp only [Table.get?_set, if_neg h.symm]
  | some act => rfl

end Playscript.Scenario
