import Mathlib.Tactic.SplitIfs
import Playscript.Draft
import Playscript.Proofs.Coercion
import Playscript.Proofs.Path

/-!
# Writing in drafts

Writing in the settings of a draft leaves its acts alone, and the settings of the scenario except
those under the first segment of the path. As long as no part is shared, each write is one write to
one of the two layers, or the same write to both.
-/
namespace Playscript.Draft

theorem acts_setConfig (d : Draft) (path : Path) (value : Value) :
    (d.setConfig path value).scenario.acts = d.scenario.acts := by
  unfold setConfig
  dsimp only
  split
  · rfl
  · split_ifs <;> rfl

theorem acts_override (d : Draft) (path : Path) (value : Value) :
    (d.override path value).scenario.acts = d.scenario.acts := by
  have hsetting : (d.setSetting path value).scenario.acts = d.scenario.acts := by
    rw [setSetting]
    dsimp only
    split_ifs <;> rfl
  unfold override
  dsimp only
  split
  · exact (acts_setConfig _ _ _).trans hsetting
  · exact (acts_setConfig _ _ _).trans hsetting

variable {d : Draft}

theorem get?_config_setConfig {first key : String} (h : first ≠ key) (rest : Path) (value : Value) :
    Table.get? (d.setConfig (first :: rest) value).scenario.config key =
      Table.get? d.scenario.config key := by
  have hstored : Table.get? (d.storeConfig (first :: rest) value).scenario.config key =
      Table.get? d.scenario.config key := by
    rw [storeConfig, Path.get?_set_cons, if_neg h]
  rw [setConfig]
  split_ifs <;> exact hstored

theorem get?_config_override {key : String} (h : overridesKey ≠ key) (path : Path) (value : Value) :
    Table.get? (d.override path value).scenario.config key =
      Table.get? d.scenario.config key := by
  have hsetting : Table.get? (d.setSetting path value).scenario.config key =
      Table.get? d.scenario.config key := by
    rw [setSetting]
    dsimp only
    split_ifs
    · rw [storeConfig, Path.get?_set_cons, if_neg h]
      rfl
    · rfl
  unfold override
  dsimp only
  split <;> exact (get?_config_setConfig h _ _).trans hsetting

theorem get?_settings_override (d : Draft) (key : String) (value : Value) :
    Table.get? (d.override [key] value).settings key = some value := by
  have hset : ∀ entries, Table.get? (Path.set entries [key] value) key = some value := by
    intro entries
    rw [Path.get?_set_cons, if_pos rfl, Path.placed]
  have hsetting : Table.get? (d.setSetting [key] value).settings key = some value := by
    rw [setSetting]
    dsimp only
    split_ifs <;> exact hset _
  have hconfig :
      Table.get? ((d.setSetting [key] value).setConfig [overridesKey, key] value).settings key =
        some value := by
    rw [setConfig]
    dsimp only
    rw [if_pos rfl]
    dsimp only
    split_ifs
    · exact hset _
    · exact hsetting
  unfold override
  dsimp only
  split <;> exact hconfig

theorem setConfig_eq (hshared : d.shared = []) (path : Path) (value : Value) :
    d.setConfig path value = d.storeConfig path value := by
  cases path with
  | nil => rfl
  | cons first inner =>
    have hsame : { d.storeConfig (first :: inner) value with shared := [] } =
        d.storeConfig (first :: inner) value := by
      rw [← hshared]
      rfl
    have hstored : (d.storeConfig (first :: inner) value).shared = [] := hshared
    simp only [setConfig, hstored, Sharing.reaches_nil, Sharing.keep_nil, Bool.false_eq_true,
      if_false,
      ite_self, hsame]

theorem setSetting_eq (hshared : d.shared = []) (path : Path) (value : Value) :
    d.setSetting path value = d.storeSetting path value := by
  have hsame : { d.storeSetting path value with shared := [] } = d.storeSetting path value := by
    rw [← hshared]
    rfl
  simp only [setSetting, hshared, Sharing.reaches_nil, Sharing.keep_nil, Bool.false_eq_true,
    if_false, hsame]

theorem override_eq (hshared : d.shared = []) (path : Path) {value : Value}
    (hvalue : value.Writable) :
    d.override path value =
      (d.storeSetting path value).storeConfig (overridesKey :: path) value := by
  have hsetting : (d.storeSetting path value).shared = [] := hshared
  unfold override
  rw [setSetting_eq hshared, setConfig_eq hsetting]
  dsimp only
  split
  · exact hvalue.elim
  · rfl

end Playscript.Draft
