import Mathlib.Data.List.Nodup
import Playscript.Proofs.Path
import Playscript.Proofs.Scenario.Order

/-!
# Acts in their places

Registering an act and changing an act both put an act under its name: in place of the one that was
there, or after all others. So two scenarios that have come to the same acts by other ways differ in
the order of their acts at most.
-/
namespace Playscript

namespace Scenario

def putAct (s : Scenario) (name : String) (act : Act) : Scenario :=
  (s.ensureAct name none).modifyAct name fun _ => act

variable {s t : Scenario} {name : String} {act : Act}

theorem modifyAct_congr (h : s.act? name = some act) {f g : Act → Act} (hfg : f act = g act) :
    s.modifyAct name f = s.modifyAct name g := by
  simp only [modifyAct, h, hfg]

theorem modifyAct_of_none (h : s.act? name = none) (f : Act → Act) : s.modifyAct name f = s := by
  simp only [modifyAct, h]

theorem ensureAct_of_act? (h : s.act? name = some act) (description : Option String) :
    s.ensureAct name description = s.modifyAct name (·.describe description) := by
  simp only [ensureAct, modifyAct, h]

theorem ensureAct_none (h : (s.act? name).isSome) : s.ensureAct name none = s := by
  obtain ⟨act, hact⟩ := Option.isSome_iff_exists.1 h
  rw [ensureAct_of_act? hact]
  exact s.modifyAct_id name

theorem act?_putAct (s : Scenario) (name other : String) (act : Act) :
    (s.putAct name act).act? other = if name = other then some act else s.act? other := by
  rw [putAct, act?_modifyAct, act?_ensureAct, act?_ensureAct, if_pos rfl]
  split_ifs <;> rfl

theorem modifyAct_eq_putAct (h : s.act? name = some act) (f : Act → Act) :
    s.modifyAct name f = s.putAct name (f act) := by
  rw [putAct, ensureAct_none (by rw [h]; rfl)]
  exact modifyAct_congr h rfl

theorem putAct_putAct (s : Scenario) (name : String) (act act' : Act) :
    (s.putAct name act).putAct name act' = s.putAct name act' := by
  have hact : (s.putAct name act).act? name = some act := by rw [act?_putAct, if_pos rfl]
  rw [← modifyAct_eq_putAct hact fun _ => act', putAct, modifyAct_modifyAct, putAct]
  rfl

theorem ensureAct_eq_putAct (s : Scenario) (name : String) (description : Option String) :
    s.ensureAct name description =
      s.putAct name (((s.act? name).getD .empty).describe description) := by
  cases h : s.act? name with
  | some act => rw [ensureAct_of_act? h, modifyAct_eq_putAct h, Option.getD_some]
  | none =>
    have hempty : (s.ensureAct name none).act? name = some .empty := by
      rw [act?_ensureAct, if_pos rfl, h]
      rfl
    rw [putAct, modifyAct, hempty]
    simp only [ensureAct, h, Option.getD_none, Table.set_set]

theorem ensureAct_ensureAct (s : Scenario) (name : String) (description : Option String) :
    (s.ensureAct name none).ensureAct name description = s.ensureAct name description := by
  rw [ensureAct_eq_putAct s name none, ensureAct_eq_putAct, act?_putAct, if_pos rfl, putAct_putAct,
    ensureAct_eq_putAct s name description]
  rfl

/-! ## Settings beside the order -/

theorem set_order_of_isSome {config : Record} (h : (Table.get? config "order").isSome) :
    ∃ order, config = Table.set config "order" order := by
  obtain ⟨order, horder⟩ := Option.isSome_iff_exists.1 h
  exact ⟨order, (Table.set_of_get? horder).symm⟩

theorem config_ensureAct (h : (Table.get? s.config "order").isSome) (name : String)
    (description : Option String) :
    ∃ order, (s.ensureAct name description).config = Table.set s.config "order" order := by
  rw [ensureAct]
  split
  · exact set_order_of_isSome h
  · exact ⟨_, rfl⟩

theorem config_putAct (h : (Table.get? s.config "order").isSome) (name : String) (act : Act) :
    ∃ order, (s.putAct name act).config = Table.set s.config "order" order := by
  rw [putAct, config_modifyAct]
  exact config_ensureAct h name none

end Scenario

/-! ## The order of acts -/

theorem Path.set_setOrder {config : Record} (h : (Table.get? config "order").isSome)
    {first : String} (hfirst : first ≠ "order") (rest : Path) (value order : Value) :
    Path.set (Table.set config "order" order) (first :: rest) value =
      Table.set (Path.set config (first :: rest) value) "order" order := by
  rw [Path.set_cons, Path.set_cons, Table.get?_set, if_neg hfirst.symm,
    Table.set_comm hfirst.symm h]

theorem Scenario.ensureAct_setConfig {s : Scenario} (h : (Table.get? s.config "order").isSome)
    {first : String} (hfirst : first ≠ "order") (rest : Path) (value : Value) (name : String)
    (description : Option String) :
    ({ s with config := Path.set s.config (first :: rest) value } : Scenario).ensureAct name
        description =
      { s.ensureAct name description with
        config := Path.set (s.ensureAct name description).config (first :: rest) value } := by
  have hhead : (first :: rest).head? ≠ some "order" := fun heq => hfirst (Option.some.inj heq)
  have hitems : orderItems (Path.set s.config (first :: rest) value) = orderItems s.config := by
    rw [orderItems, Path.get?_set_of_head hhead, orderItems]
  have hact : ({ s with config := Path.set s.config (first :: rest) value } : Scenario).act? name =
      s.act? name := rfl
  rw [ensureAct, ensureAct, hact]
  cases s.act? name with
  | some act => rfl
  | none =>
    dsimp only
    rw [hitems, Path.set_setOrder h hfirst]

structure Scenario.Reordered (s t : Scenario) : Prop where
  acts : s.acts.Perm t.acts
  order : s.order.Perm t.order
  config : t.config = Table.set s.config "order" (.list (t.order.map .str))

theorem Scenario.reordered_of_act? {s t : Scenario} (hs : s.Ordered) (ht : t.Ordered)
    (hacts : ∀ name, t.act? name = s.act? name)
    (hconfig : ∃ order, t.config = Table.set s.config "order" order) : s.Reordered t := by
  refine ⟨Table.perm_of_get? hs.keys_nodup ht.keys_nodup fun name => (hacts name).symm, ?_, ?_⟩
  · refine (List.perm_ext_iff_of_nodup hs.nodup ht.nodup).2 fun name => ?_
    rw [hs.mem_order, ht.mem_order, ← isSome_act?_iff, ← isSome_act?_iff, hacts]
  · obtain ⟨order, horder⟩ := hconfig
    have hlisted := ht.listed
    rw [horder, Table.get?_set, if_pos rfl] at hlisted
    rw [horder, Option.some.inj hlisted]

end Playscript
