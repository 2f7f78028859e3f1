import Playscript.Proofs.Compiler.OwnSettings
import Playscript.Proofs.Directive.Reading
import Playscript.Proofs.Path.Apart

/-!
# How far directives reach

A directive writes at its own path in each of its layers and leaves alone what stands apart from it.
If its key has no segments, its own path is that of the whole layer: in the settings of the language
and in those of an act nothing is written then, but the record of the changes and the settings of a
message have a path of their own, and the value takes the place of all that stands there.
-/
namespace Playscript

/-- Of two records, the second has what the first has apart from a path; without a path they are the
same. -/
def Path.Framed (path? : Option Path) (before after : Record) : Prop :=
  match path? with
  | none => after = before
  | some path => ∀ other v, Path.Apart path other →
    (Path.Leads (.dict after) other v ↔
      Path.Leads (.dict before) other v ∧ ¬ Path.Listed (.dict before) path other)

theorem Path.framed_set (entries : Record) (path : Path) (v : Value) :
    Path.Framed (some path) entries (Path.set entries path v) :=
  fun _ _ h => Path.leads_set_iff h entries v

namespace Directive

/-! ## Layers -/

def settingPath? : Directive → Option Path
  | .setting key _ => some (Path.ofChars key)
  | _ => none

def configPath? : Directive → Option Path
  | .setting key _ => some (Draft.overridesKey :: Path.ofChars key)
  | .use key _ =>
    match Path.ofChars key with
    | [] => none
    | first :: rest => if first = "order" then none else some (first :: rest)
  | _ => none

def actPath? (scope : Scope) (act : String) : Directive → Option Path
  | .assign key _ | .flag key =>
    if scope.act = act then some (scope.place (Path.ofChars key)) else none
  | _ => none

def registered (scope : Scope) (s : Scenario) : Directive → Scenario
  | .assign _ _ | .flag _ => s.ensureAct scope.act none
  | _ => s

/-- What a directive leaves alone in every layer: what stands apart from its path there. -/
structure Frame (scope : Scope) (directive : Directive) (d t : Draft) : Prop where
  settings : Path.Framed directive.settingPath? d.settings t.settings
  config : Path.Framed directive.configPath? (directive.registered scope d.scenario).config
    t.scenario.config
  acts : ∀ act, Path.Framed (directive.actPath? scope act) (d.scenario.configOf act)
    (t.scenario.configOf act)

variable {scope : Scope} {directive : Directive} {d t : Draft}

theorem frame_configure (d : Draft) (key : List Char) (v : Value)
    (hsettings : directive.settingPath? = none) (hconfig : directive.configPath? = none)
    (hregistered : directive.registered scope d.scenario = d.scenario.ensureAct scope.act none)
    (hact : ∀ act, directive.actPath? scope act =
      if scope.act = act then some (scope.place (Path.ofChars key)) else none) :
    directive.Frame scope d (d.configure scope key v) := by
  refine ⟨?_, ?_, fun act => ?_⟩
  · rw [hsettings]
    rfl
  · rw [hconfig, hregistered]
    exact Scenario.config_modifyAct _ _ _
  · rw [hact, Compiler.configOf_configure]
    split_ifs
    · exact Path.framed_set _ _ v
    · rfl

theorem frame_of_effect (hshared : d.shared = []) (h : directive.Effect scope d t) :
    directive.Frame scope d t := by
  cases directive with
  | setting key value =>
    obtain ⟨v, hv, rfl⟩ := h
    rw [Draft.override_eq hshared _ (Coercion.writable_restore hv)]
    exact ⟨Path.framed_set _ _ v, Path.framed_set _ _ v, fun act => rfl⟩
  | use key value =>
    obtain ⟨hpath, rfl⟩ | ⟨first, rest, v, hpath, hfirst, -, rfl⟩ := h
    · have hnone : (Directive.use key value).configPath? = none := by
        rw [configPath?]
        cases hkey : Path.ofChars key with
        | nil => rfl
        | cons first rest =>
          rw [hkey] at hpath
          obtain hnil | horder := hpath
          · cases hnil
          · exact if_pos (Option.some.inj horder)
      exact ⟨rfl, by rw [hnone]; rfl, fun act => rfl⟩
    · have hsome : (Directive.use key value).configPath? = some (first :: rest) := by
        rw [configPath?, hpath]
        exact if_neg hfirst
      rw [Draft.setConfig_eq hshared]
      exact ⟨rfl, by rw [hsome]; exact Path.framed_set _ _ v, fun act => rfl⟩
  | assign key value =>
    obtain ⟨v, -, rfl⟩ := h
    exact frame_configure d key v rfl rfl rfl fun act => rfl
  | flag key =>
    obtain rfl : t = _ := h
    exact frame_configure d key _ rfl rfl rfl fun act => rfl
  | ignored =>
    obtain rfl : t = _ := h
    exact ⟨rfl, rfl, fun act => rfl⟩

theorem registered_of_failed (scope : Scope) (directive : Directive) (d : Draft) :
    Ensures (perform scope directive) d (fun _ _ => True)
      fun _ t => t = { d with scenario := directive.registered scope d.scenario } := by
  have hwrite : ∀ (u : Draft) (value : Value) (change : Value → Draft → Draft),
      Ensures (do modify (change (← ofExcept (stored value))) : Drafting Unit) u
        (fun _ _ => True) fun _ t => t = u := by
    intro u value change
    refine ensures_bind.2 (ensures_ofExcept.2 ⟨fun v _ => ?_, fun fault _ => rfl⟩)
    exact ensures_modify.2 trivial
  cases directive with
  | setting key value => exact hwrite d _ fun v => (·.override (Path.ofChars key) v)
  | use key value =>
    rw [perform, writeScenario]
    cases Path.ofChars key with
    | nil => exact trivial
    | cons first rest =>
      dsimp only
      split_ifs
      · exact trivial
      · exact hwrite d _ fun v => (·.setConfig (first :: rest) v)
  | assign key value =>
    refine ensures_bind.2 (ensures_modify.2 ?_)
    exact hwrite _ _ fun v draft => { draft with
      scenario := draft.scenario.modifyAct scope.act fun act =>
        { act with config := Path.set act.config (Path.ofChars (scopedKey scope key)) v } }
  | flag key => exact trivial
  | ignored => exact trivial

/-! ## Keys without segments -/

def Keyless : Directive → Prop
  | .setting key _ | .use key _ | .assign key _ | .flag key => Path.ofChars key = []
  | .ignored => True

/-- Without a key there is no place for the value: that of the whole record of the changes and that
of all settings of a message are not meant for it, and are not written if it cannot be read. -/
def Harmless (scope : Scope) : Directive → Prop
  | .setting _ value => Fails (Coercion.restore value)
  | .assign _ value => scope.index = none ∨ Fails (Coercion.restore value)
  | .flag _ => scope.index = none
  | .use _ _ | .ignored => True

def Unwritten (scope : Scope) (directive : Directive) (d t : Draft) : Prop :=
  t.settings = d.settings ∧ t.scenario = directive.registered scope d.scenario

theorem run_of_effect (h : directive.Effect scope d t) :
    (perform scope directive).run d = .ok () t := by
  have hassign : ∀ key value v, stored value = .ok v → t = d.configure scope key v →
      (writeAct scope key value).run d = .ok () t := by
    rintro key value v hv rfl
    rw [writeAct, hv]
    rfl
  cases directive with
  | setting key value =>
    obtain ⟨v, hv, rfl⟩ := h
    rw [perform, writeSetting, stored_ofChars, hv]
    rfl
  | use key value =>
    rw [perform, writeScenario]
    obtain ⟨hpath, rfl⟩ | ⟨first, rest, v, hpath, hfirst, hv, rfl⟩ := h
    · cases hkey : Path.ofChars key with
      | nil => rfl
      | cons first rest =>
        rw [hkey] at hpath
        obtain hnil | horder := hpath
        · cases hnil
        · dsimp only
          rw [if_pos (Option.some.inj horder)]
          rfl
    · rw [hpath]
      dsimp only
      rw [if_neg hfirst, stored_ofChars, hv]
      rfl
  | assign key value =>
    obtain ⟨v, hv, rfl⟩ := h
    exact hassign key _ v ((stored_ofChars value).trans hv) rfl
  | flag key => exact hassign key _ _ rfl h
  | ignored =>
    obtain rfl : t = _ := h
    rfl

theorem configure_keyless (d : Draft) {key : List Char} (hkey : Path.ofChars key = [])
    (hindex : scope.index = none) (v : Value) :
    d.configure scope key v = { d with scenario := d.scenario.ensureAct scope.act none } := by
  have hpath : Path.ofChars (scopedKey scope key) = [] := by rwa [scopedKey, hindex]
  rw [Draft.configure]
  dsimp only
  rw [hpath]
  exact congrArg (fun scenario => { d with scenario := scenario }) (Scenario.modifyAct_id _ _)

theorem unwritten_of_harmless (hshared : d.shared = []) (hkeyless : directive.Keyless)
    (h : directive.Harmless scope) (heffect : directive.Effect scope d t) :
    directive.Unwritten scope d t := by
  cases directive with
  | setting key value =>
    obtain ⟨v, hv, -⟩ := heffect
    have hfails : Fails (Coercion.restore value) := h
    rw [hv] at hfails
    exact (not_fails_ok v hfails).elim
  | use key value =>
    have hkey : Path.ofChars key = [] := hkeyless
    obtain ⟨-, rfl⟩ | ⟨first, rest, v, hpath, -⟩ := heffect
    · exact ⟨rfl, rfl⟩
    · rw [hkey] at hpath
      cases hpath
  | assign key value =>
    obtain ⟨v, hv, rfl⟩ := heffect
    obtain hindex | hfails := h
    · rw [configure_keyless d hkeyless hindex]
      exact ⟨rfl, rfl⟩
    · rw [hv] at hfails
      exact (not_fails_ok v hfails).elim
  | flag key =>
    obtain rfl : t = _ := heffect
    rw [configure_keyless d hkeyless h]
    exact ⟨rfl, rfl⟩
  | ignored =>
    obtain rfl : t = _ := heffect
    exact ⟨rfl, rfl⟩

/-! ## What a value takes the place of -/

end Directive

def Scenario.Recorded (s : Scenario) : Prop :=
  ∀ v, Table.get? s.config Draft.overridesKey = some v → ∃ entries, v = .dict entries

namespace Directive

variable {key value : List Char} {v : Value}

theorem setting_wipes_changes (scope : Scope) (hkey : Path.ofChars key = [])
    (hvalue : Coercion.restore value = .ok v) : ∃ scenario : Scenario, scenario.Recorded ∧
      ¬ Leaves (perform scope (.setting key value)) (.start scenario [])
        ((Directive.setting key value).Unwritten scope (.start scenario [])) := by
  have hwritable := Coercion.writable_restore hvalue
  let scenario : Scenario := ⟨[], [(Draft.overridesKey, .dict [])]⟩
  refine ⟨scenario, fun w hw => ⟨[], (Option.some.inj hw).symm⟩, fun hleaves => ?_⟩
  have heffect : (Directive.setting key value).Effect scope (.start scenario []) _ :=
    ⟨v, hvalue, rfl⟩
  have hsame := (hleaves.of_ok (run_of_effect heffect)).2
  rw [Draft.override_eq rfl _ hwritable, hkey] at hsame
  have hconfig : [(Draft.overridesKey, v)] = [(Draft.overridesKey, .dict [])] :=
    congrArg Scenario.config hsame
  obtain rfl : v = .dict [] := (Prod.mk.inj (List.cons.inj hconfig).1).2
  exact hwritable

theorem configure_wipes_message {index : Int} (hindex : scope.index = some index)
    (hkey : Path.ofChars key = []) (hv : v.Writable) : ∃ scenario : Scenario, scenario.Recorded ∧
      ((Draft.start scenario []).configure scope key v).scenario ≠
        scenario.ensureAct scope.act none := by
  let config : Record := [("messages", .dict [(Path.segment index, .dict [])])]
  let scenario : Scenario := ⟨[(scope.act, { Act.empty with config := config })], []⟩
  refine ⟨scenario, fun _ hnone => (nomatch hnone), fun hsame => ?_⟩
  have hconfig := congrArg (Scenario.configOf · scope.act) hsame
  have hown : scenario.configOf scope.act = config := by
    simp only [scenario, Scenario.configOf, Scenario.act?, Table.get?_cons, if_true,
      Option.map_some, Option.getD_some]
  have hplace : scope.place (Path.ofChars key) = ["messages", Path.segment index] := by
    rw [Scope.place, hindex, hkey]
  have hset : Path.set config ["messages", Path.segment index] v =
      [("messages", .dict [(Path.segment index, v)])] := by
    simp [config, Path.set, Table.set, Table.get?, Value.entries]
  rw [Compiler.configOf_configure, if_pos rfl, Compiler.configOf_ensureAct, hplace] at hconfig
  have hstart : (Draft.start scenario []).scenario.configOf scope.act = config := hown
  rw [hstart, hown, hset] at hconfig
  simp only [config, List.cons.injEq, Prod.mk.injEq, Value.dict.injEq, and_true,
    true_and] at hconfig
  subst hconfig
  exact hv

theorem unwritten_iff_harmless (scope : Scope) (hkeyless : directive.Keyless) :
    (∀ scenario settings, scenario.Recorded →
      Leaves (perform scope directive) (.start scenario settings)
        (directive.Unwritten scope (.start scenario settings))) ↔ directive.Harmless scope := by
  constructor
  · intro h
    have hconfigure : ∀ key v, Path.ofChars key = [] → v.Writable →
        (∀ d, directive.Effect scope d (d.configure scope key v)) →
        (∀ s : Scenario, directive.registered scope s = s.ensureAct scope.act none) →
        scope.index = none := by
      intro key v hkey hv heffect hregistered
      cases hindex : scope.index with
      | none => rfl
      | some index =>
        obtain ⟨scenario, hrecorded, hother⟩ := configure_wipes_message hindex hkey hv
        have hsame := (h scenario [] hrecorded).of_ok (run_of_effect (heffect _))
        exact (hother (hsame.2.trans (hregistered scenario))).elim
    cases directive with
    | setting key value =>
      by_contra hreads
      obtain ⟨v, hv⟩ := exists_ok_of_not_fails hreads
      obtain ⟨scenario, hrecorded, hleaves⟩ := setting_wipes_changes scope hkeyless hv
      exact hleaves (h scenario [] hrecorded)
    | assign key value =>
      by_cases hreads : Fails (Coercion.restore value)
      · exact Or.inr hreads
      · obtain ⟨v, hv⟩ := exists_ok_of_not_fails hreads
        exact Or.inl (hconfigure key v hkeyless (Coercion.writable_restore hv)
          (fun d => ⟨v, hv, rfl⟩) fun _ => rfl)
    | flag key => exact hconfigure key (.bool true) hkeyless trivial (fun _ => rfl) fun _ => rfl
    | use key value => trivial
    | ignored => trivial
  · intro h scenario settings _
    have hfailed := registered_of_failed scope directive (.start scenario settings)
    cases hrun : (perform scope directive).run (.start scenario settings) with
    | ok _ t =>
      rw [Leaves, Ensures, hrun]
      exact unwritten_of_harmless rfl hkeyless h (effect_of_perform hrun)
    | error fault t =>
      obtain rfl := hfailed.of_error hrun
      rw [Leaves, Ensures, hrun]
      exact ⟨rfl, rfl⟩

/-- How far the directive of a text reaches: in every layer what stands apart from its own path
stays, also if it fails. Without a key it writes no value, unless it is a setting, which wipes the
record of the changes, or stands in a message, whose settings it wipes. -/
theorem reach_of_store (scope : Scope) (s : List Char) :
    ∃ directive, ofChars s = .ok directive ∧
      (∀ scenario settings, Ensures (store scope s) (.start scenario settings)
        (fun _ t => directive.Frame scope (.start scenario settings) t)
        fun _ t => t = { Draft.start scenario settings with
          scenario := directive.registered scope scenario }) ∧
      (directive.Keyless →
        ((∀ scenario settings, scenario.Recorded →
          Leaves (store scope s) (.start scenario settings)
            (directive.Unwritten scope (.start scenario settings))) ↔
          directive.Harmless scope)) := by
  obtain ⟨directive, hread⟩ := exists_ofChars s
  have hstore := run_store hread scope
  refine ⟨directive, hread, fun scenario settings => ?_, fun hkeyless => ?_⟩
  · have hfailed := registered_of_failed scope directive (.start scenario settings)
    refine (ensures_congr (hstore _)).2 ?_
    cases hrun : (perform scope directive).run (.start scenario settings) with
    | ok _ t =>
      rw [Ensures, hrun]
      exact frame_of_effect rfl (effect_of_perform hrun)
    | error fault t =>
      rw [Ensures, hrun]
      exact hfailed.of_error hrun
  · rw [← unwritten_iff_harmless scope hkeyless]
    exact forall_congr' fun scenario => forall_congr' fun settings => imp_congr_right fun _ =>
      ensures_congr (hstore _)

/-- A setting with a point for a key wipes the record of the changes. -/
theorem point_wipes_changes : ∃ directive, ofChars "parse . x".toList = .ok directive ∧
    directive.Keyless ∧ ¬ ∀ scenario settings, scenario.Recorded →
      Leaves (store ⟨"A", none⟩ "parse . x".toList) (.start scenario settings)
        (directive.Unwritten ⟨"A", none⟩ (.start scenario settings)) := by
  obtain ⟨directive, hread, -, hkeyless⟩ := reach_of_store ⟨"A", none⟩ "parse . x".toList
  have hpoint : ofChars "parse . x".toList = .ok (.setting ['.'] ['x']) := by decide +kernel
  obtain rfl := Except.ok.inj (hread.symm.trans hpoint)
  have hkey : (Directive.setting ['.'] ['x']).Keyless := by
    rw [Keyless]
    decide +kernel
  refine ⟨_, hread, hkey, fun hall => ?_⟩
  have hfails : Fails (Coercion.restore ['x']) := (hkeyless hkey).1 hall
  obtain ⟨fault, hfault⟩ := hfails
  cases hfault

end Directive

end Playscript
