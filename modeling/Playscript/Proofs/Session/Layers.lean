import Playscript.Proofs.Session.Reading

/-!
# Settings by layers

The settings of an act lie in layers: its own on top, then those of the default act, then those of
the scenario. What stands at a path comes from the first layer that has the first segment of the
path, and from this layer alone: records of several layers are not joined.
-/
namespace Playscript

namespace Layers

def find (layers : Layers) (segment : String) (rest : Path) : Except Fault Value :=
  match layers.get? segment with
  | some v => Path.get v rest
  | none => .ok .null

theorem flatten_eq_foldr (layers : Layers) :
    Layers.flatten layers = layers.foldr (fun layer below => Table.update below layer) [] := by
  induction layers with
  | nil => rfl
  | cons layer rest ih => rw [flatten, ih, List.foldr_cons]

variable {layers : Layers}

theorem get?_flatten (h : ∀ layer ∈ layers, layer.keys.Nodup) (name : String) :
    Table.get? (Layers.flatten layers) name = layers.get? name := by
  induction layers with
  | nil => rfl
  | cons layer rest ih =>
    obtain ⟨hlayer, hrest⟩ := List.forall_mem_cons.1 h
    rw [flatten, Table.get?_update hlayer, ih hrest, Layers.get?, Option.orElse_eq_orElse,
      Option.orElse_eq_or]

theorem get_flatten (h : ∀ layer ∈ layers, layer.keys.Nodup) (segment : String) (rest : Path) :
    Path.get (.dict (Layers.flatten layers)) (segment :: rest) = layers.find segment rest := by
  have hsame := get?_flatten h segment
  cases hfound : layers.get? segment <;> simp only [Path.get, find, hsame, hfound]

end Layers

structure Scenario.NamesOnce (s : Scenario) : Prop where
  config : s.config.keys.Nodup
  acts : ∀ entry ∈ s.acts, entry.2.config.keys.Nodup

namespace Staging

variable {staging : Staging} {act : Option String}

def layersFor (staging : Staging) (act : Option String) : Layers :=
  let own := (act.filter (· ≠ staging.defaultAct)).bind staging.scenario.act?
  let shared := staging.scenario.act? staging.defaultAct
  (own.toList ++ shared.toList).map Act.config ++ [staging.scenarioLayer]

theorem configLayers_eq (h : staging.isUnknown act = false) :
    staging.configLayers act = .ok (staging.layersFor act) := by
  rw [configLayers, layersFor]
  cases act with
  | none => simp [Option.toList_map]
  | some name =>
    by_cases hname : name = staging.defaultAct
    · simp [Option.filter, Option.toList_map, hname]
    · obtain ⟨found, hfound⟩ := Option.isSome_iff_exists.1 (Option.isNone_eq_false_iff.1 h)
      simp [Option.filter, Option.toList_map, hname, hfound]

theorem actConfig_eq (staging : Staging) (act : Option String) :
    staging.actConfig act =
      .ok (if staging.isUnknown act then none else some (staging.layersFor act)) := by
  rw [actConfig]
  cases h : staging.isUnknown act with
  | true => rfl
  | false =>
    have hlayers : Layers.ofRecords (staging.layersFor act) = staging.layersFor act := by
      rw [Layers.ofRecords]
      simp [layersFor]
    simp only [Bool.false_eq_true, if_false, configLayers_eq h, bind, Except.bind, pure,
      Except.pure, hlayers]

theorem contextLayers_unknown {name : String} (h : staging.isUnknown (some name) = true)
    {context : Value} {given : Record} (hgiven : context.toRecordIfGiven = .ok given) :
    staging.contextLayers context (some name) = .ok (given :: staging.layersFor none) := by
  have hlayers : staging.configLayers none = .ok (staging.layersFor none) := configLayers_eq rfl
  simp only [contextLayers, h, if_true, hlayers, hgiven, bind, Except.bind, pure, Except.pure]

theorem nodup_of_mem_layersFor (h : staging.scenario.NamesOnce) (act : Option String) :
    ∀ layer ∈ staging.layersFor act, layer.keys.Nodup := by
  have hact : ∀ {name found}, staging.scenario.act? name = some found → found.config.keys.Nodup :=
    fun hfound => h.acts _ (Table.mem_of_get? hfound)
  intro layer hlayer
  simp only [layersFor, List.mem_append, List.mem_map, Option.mem_toList, List.mem_singleton]
    at hlayer
  obtain ⟨found, hown | hshared, rfl⟩ | rfl := hlayer
  · obtain ⟨name, -, hname⟩ := Option.bind_eq_some_iff.1 hown
    exact hact hname
  · exact hact hshared
  · exact h.config.sublist (List.filter_sublist.map _)

end Staging

namespace Session

def askedAct (s : Session) (act : Option String) : Option String :=
  (act.filter (· ≠ "")).or s.currentAct

def asFlag : Value → Value
  | .str s => if s = "" then .bool true else .str s
  | v => v

variable {s : Session} {staging : Staging}

theorem nameFrom_actAt (s : Session) (scenario : Scenario) (act : Option String) :
    scenario.nameFrom (s.actAt (.ofText? act)) = .ok (s.askedAct act) := by
  have hname : ∀ name : Option String, scenario.nameFrom (.ofText? name) = .ok name := by
    intro name
    cases name <;> rfl
  rw [actAt, askedAct]
  cases act with
  | none => exact hname _
  | some name =>
    by_cases hempty : name = ""
    · subst hempty
      exact hname _
    · simpa [Value.ofText?, Value.truthy, Option.filter, hempty] using hname (some name)

theorem configValue_eq_find (hs : s.staging = some staging) (honce : staging.scenario.NamesOnce)
    (act : Option String) (segment : String) (rest : Path) :
    s.configValue (segment :: rest) (.ofText? act) =
      if staging.isUnknown (s.askedAct act) then .ok .null
      else asFlag <$> (staging.layersFor (s.askedAct act)).find segment rest := by
  simp only [configValue, hs, nameFrom_actAt, Staging.actConfig_eq, bind, Except.bind]
  split_ifs with hunknown
  · rfl
  · dsimp only
    rw [Layers.get_flatten (Staging.nodup_of_mem_layersFor honce _)]
    cases (staging.layersFor (s.askedAct act)).find segment rest with
    | error fault => rfl
    | ok v =>
      cases v with
      | str text =>
        have hshown : asFlag <$> (.ok (.str text) : Except Fault Value) =
            .ok (if text = "" then .bool true else .str text) := rfl
        rw [hshown]
        dsimp only
        split_ifs <;> rfl
      | _ => rfl

/-- The settings of an act are the layers of it and of what it inherits, and are looked up from the
front, layer by layer. A session shows what is found for the act that is asked for, and a context of
an act that does not exist lies over the settings of the default act. -/
theorem settings_from_first_layer (now : Timestamp) (hs : s.staging = some staging)
    (honce : staging.scenario.NamesOnce) :
    (∀ act, staging.isUnknown act = false →
      staging.actConfig act = .ok (some (staging.layersFor act)) ∧
      Layers.flatten (staging.layersFor act) =
        (staging.layersFor act).foldr (fun layer below => Table.update below layer) [] ∧
      (∀ name, Table.get? (Layers.flatten (staging.layersFor act)) name =
        (staging.layersFor act).get? name) ∧
      ∀ key segment rest, Path.ofString key = segment :: rest →
        Path.get (.dict (Layers.flatten (staging.layersFor act))) (Path.ofString key) =
          (staging.layersFor act).find segment rest) ∧
    (∀ act key segment rest, Path.ofString key = segment :: rest →
      (step now s (.configValue key (.ofText? act))).1 =
        if staging.isUnknown (s.askedAct act) then .ok .nothing
        else (fun v => .value (asFlag v)) <$>
          (staging.layersFor (s.askedAct act)).find segment rest) ∧
    ∀ context given name, context.toRecordIfGiven = .ok given →
      staging.isUnknown (some name) = true →
      staging.contextLayers context (some name) = .ok (given :: staging.layersFor none) := by
  refine ⟨fun act hknown => ⟨?_, ?_, ?_, ?_⟩, ?_, ?_⟩
  · rw [Staging.actConfig_eq, hknown]
    rfl
  · exact Layers.flatten_eq_foldr _
  · exact Layers.get?_flatten (Staging.nodup_of_mem_layersFor honce act)
  · intro key segment rest hkey
    rw [hkey, Layers.get_flatten (Staging.nodup_of_mem_layersFor honce act)]
  · intro act key segment rest hkey
    rw [step_configValue, hkey, configValue_eq_find hs honce]
    split_ifs with hunknown
    · rfl
    · cases (staging.layersFor (s.askedAct act)).find segment rest <;> rfl
  · intro context given name hgiven hunknown
    exact Staging.contextLayers_unknown hunknown hgiven

/-- A record on top hides the whole record under the same name, and an act that does not exist is
shown nothing. -/
theorem settings_of_stacked_acts :
    let acts : Table Act := [
      ("default", { Act.empty with config := [("a", .dict [("y", .int 2)]), ("b", .int 3)] }),
      ("A", { Act.empty with config := [("a", .dict [("x", .int 1)])] })]
    let scenario : Scenario :=
      ⟨acts, [("order", .list [.str "default", .str "A"]), ("b", .int 4), ("c", .str "")]⟩
    let staging : Staging := ⟨scenario, Settings.defaults, "???"⟩
    let s := (step default (new .default) (.init (.staged staging) .null)).2
    let shown (key : String) (act : Option String) : Except Fault Reply :=
      (step default s (.configValue key (.ofText? act))).1
    staging.actConfig (some "A") = .ok (some [[("a", .dict [("x", .int 1)])],
        [("a", .dict [("y", .int 2)]), ("b", .int 3)], [("b", .int 4), ("c", .str "")]]) ∧
      shown "a.x" (some "A") = .ok (.value (.int 1)) ∧ shown "a.y" (some "A") = .ok .nothing ∧
      shown "a . y" none = .ok (.value (.int 2)) ∧ shown "b" (some "A") = .ok (.value (.int 3)) ∧
      shown "c" none = .ok (.value (.bool true)) ∧ shown "b" (some "B") = .ok .nothing ∧
      staging.contextLayers .null (some "B") = .ok
        [[], [("a", .dict [("y", .int 2)]), ("b", .int 3)], [("b", .int 4), ("c", .str "")]] := by
  intro acts scenario staging s shown
  have hs : s.staging = some staging := rfl
  have honce : staging.scenario.NamesOnce := ⟨by decide, by decide⟩
  obtain ⟨hview, hshown, hcontext⟩ := settings_from_first_layer default hs honce
  exact ⟨(hview (some "A") (by decide)).1, hshown (some "A") "a.x" "a" ["x"] (by decide),
    hshown (some "A") "a.y" "a" ["y"] (by decide), hshown none "a . y" "a" ["y"] (by decide),
    hshown (some "A") "b" "b" [] (by decide), hshown none "c" "c" [] (by decide),
    hshown (some "B") "b" "b" [] (by decide), hcontext .null [] "B" rfl (by decide)⟩

end Session

end Playscript
