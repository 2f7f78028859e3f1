import Mathlib.Tactic.SplitIfs
import Playscript.Directive
import Playscript.Proofs.Draft
import Playscript.Proofs.Outcome
import Playscript.Proofs.Scenario.Acts

/-!
# What directives do

A directive that is carried out makes one change: of the settings of the language, of those of the
scenario, or of those of an act, which it registers. It never says anything: messages and
placeholders stay as they are.
-/
namespace Playscript

namespace Draft

def configure (d : Draft) (scope : Scope) (key : List Char) (value : Value) : Draft :=
  { d with
    scenario := (d.scenario.ensureAct scope.act none).modifyAct scope.act fun act =>
      let path := Path.ofChars (Directive.scopedKey scope key)
      { act with config := Path.set act.config path value } }

end Draft

namespace Directive

def Effect (scope : Scope) (d t : Draft) : Directive → Prop
  | .setting key value => ∃ v, Coercion.restore value = .ok v ∧ t = d.override (Path.ofChars key) v
  | .use key value =>
    ((Path.ofChars key = [] ∨ (Path.ofChars key).head? = some "order") ∧ t = d) ∨
      ∃ first rest v, Path.ofChars key = first :: rest ∧ first ≠ "order" ∧
        Coercion.restore value = .ok v ∧ t = d.setConfig (first :: rest) v
  | .assign key value => ∃ v, Coercion.restore value = .ok v ∧ t = d.configure scope key v
  | .flag key => t = d.configure scope key (.bool true)
  | .ignored => t = d

theorem stored_ofChars (value : List Char) : stored (.ofChars value) = Coercion.restore value :=
  congrArg Coercion.restore String.toList_ofList

theorem writeAct_ok {scope : Scope} {key : List Char} {value : Value} {d t : Draft}
    (h : (writeAct scope key value).run d = .ok () t) :
    ∃ v, stored value = .ok v ∧ t = d.configure scope key v := by
  obtain ⟨_, u, hregister, hrest⟩ := run_bind_eq_ok.1 h
  cases hregister
  obtain ⟨v, w, hstored, hwrite⟩ := run_bind_eq_ok.1 hrest
  obtain ⟨hv, rfl⟩ := run_ofExcept_eq_ok.1 hstored
  cases hwrite
  exact ⟨v, hv, rfl⟩

theorem effect_of_perform {scope : Scope} {directive : Directive} {d t : Draft}
    (h : (perform scope directive).run d = .ok () t) : directive.Effect scope d t := by
  cases directive with
  | setting key value =>
    obtain ⟨v, u, hstored, hwrite⟩ := run_bind_eq_ok.1 h
    obtain ⟨hv, rfl⟩ := run_ofExcept_eq_ok.1 hstored
    cases hwrite
    exact ⟨v, stored_ofChars value ▸ hv, rfl⟩
  | use key value =>
    rw [perform, writeScenario] at h
    rw [Effect]
    split at h
    · next hpath =>
      cases h
      exact Or.inl ⟨Or.inl hpath, rfl⟩
    · next first rest hpath =>
      split_ifs at h with hfirst
      · cases h
        exact Or.inl ⟨Or.inr (by rw [hpath, hfirst]; rfl), rfl⟩
      · obtain ⟨v, u, hstored, hwrite⟩ := run_bind_eq_ok.1 h
        obtain ⟨hv, rfl⟩ := run_ofExcept_eq_ok.1 hstored
        cases hwrite
        exact Or.inr ⟨first, rest, v, hpath, hfirst, stored_ofChars value ▸ hv, rfl⟩
  | assign key value =>
    obtain ⟨v, hv, rfl⟩ := writeAct_ok h
    exact ⟨v, stored_ofChars value ▸ hv, rfl⟩
  | flag key =>
    obtain ⟨v, hv, rfl⟩ := writeAct_ok h
    cases hv
    rfl
  | ignored =>
    cases h
    rfl

end Directive

/-! ## What acts say -/

def Act.spoken (act : Act) : Act := { act with description := none, config := [] }

@[simp] theorem Act.spoken_describe (act : Act) (description : Option String) :
    (act.describe description).spoken = act.spoken := by
  unfold describe
  split
  · rfl
  · split_ifs <;> rfl

namespace Draft

def spoken (d : Draft) (act : String) : Act := ((d.scenario.act? act).getD .empty).spoken

structure Calm (d t : Draft) : Prop where
  known : ∀ act, (d.scenario.act? act).isSome → (t.scenario.act? act).isSome
  same : ∀ act, t.spoken act = d.spoken act

variable {d t u : Draft}

theorem Calm.refl (d : Draft) : Calm d d := ⟨fun _ => id, fun _ => rfl⟩

theorem Calm.trans (h : Calm d t) (h' : Calm t u) : Calm d u :=
  ⟨fun act hk => h'.known act (h.known act hk), fun act => (h'.same act).trans (h.same act)⟩

theorem calm_of_acts (h : t.scenario.acts = d.scenario.acts) : Calm d t := by
  have hact : ∀ act, t.scenario.act? act = d.scenario.act? act := fun act => by
    rw [Scenario.act?, h, Scenario.act?]
  exact ⟨fun act hk => by rwa [hact], fun act => by rw [spoken, hact, spoken]⟩

theorem known_ensureAct (d : Draft) (act : String) (description : Option String) :
    ((d.scenario.ensureAct act description).act? act).isSome := by
  rw [Scenario.act?_ensureAct, if_pos rfl]
  rfl

theorem calm_ensureAct (d : Draft) (act : String) (description : Option String) :
    Calm d { d with scenario := d.scenario.ensureAct act description } := by
  refine ⟨fun other hk => ?_, fun other => ?_⟩
  · simp only [Scenario.act?_ensureAct]
    split_ifs
    · rfl
    · exact hk
  · simp only [spoken, Scenario.act?_ensureAct]
    split_ifs with he
    · rw [Option.getD_some, Act.spoken_describe, he]
    · rfl

theorem spoken_modifyAct {act : String} (hknown : (d.scenario.act? act).isSome)
    (change change' : Act → Act) (hchange : ∀ a, (change a).spoken = change' a.spoken)
    (other : String) :
    spoken { d with scenario := d.scenario.modifyAct act change } other =
      if act = other then change' (d.spoken other) else d.spoken other := by
  obtain ⟨a, ha⟩ := Option.isSome_iff_exists.1 hknown
  simp only [spoken, Scenario.act?_modifyAct]
  split_ifs with he
  · subst he
    simp only [ha, Option.map_some, Option.getD_some, hchange]
  · rfl

theorem calm_configure (d : Draft) (scope : Scope) (key : List Char) (value : Value) :
    Calm d (d.configure scope key value) := by
  let registered : Draft := { d with scenario := d.scenario.ensureAct scope.act none }
  have hknown : (registered.scenario.act? scope.act).isSome := known_ensureAct d _ _
  refine (calm_ensureAct d scope.act none).trans ⟨fun other hk => ?_, fun other => ?_⟩
  · rw [configure, Scenario.isSome_act?_modifyAct]
    exact hk
  · let path := Path.ofChars (Directive.scopedKey scope key)
    have hsame := spoken_modifyAct hknown
      (fun act => { act with config := Path.set act.config path value }) id (fun _ => rfl) other
    exact hsame.trans (ite_self _)

theorem calm_of_effect {scope : Scope} {directive : Directive}
    (h : directive.Effect scope d t) : Calm d t := by
  cases directive with
  | setting key value =>
    obtain ⟨v, -, rfl⟩ := h
    exact calm_of_acts (acts_override _ _ _)
  | use key value =>
    obtain ⟨-, rfl⟩ | ⟨first, rest, v, -, -, -, rfl⟩ := h
    · exact Calm.refl _
    · exact calm_of_acts (acts_setConfig _ _ _)
  | assign key value =>
    obtain ⟨v, -, rfl⟩ := h
    exact calm_configure _ _ _ _
  | flag key =>
    obtain rfl : t = _ := h
    exact calm_configure _ _ _ _
  | ignored =>
    obtain rfl : t = _ := h
    exact Calm.refl _

end Draft

end Playscript
