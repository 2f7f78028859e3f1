import Playscript.Proofs.Scenario.Dump

/-!
# How scenarios come about

A scenario starts empty or is read from plain data, and the operations of the compiler change it,
with any keys and values, in any act and at any message. Whatever they are told, the order stays in
step with the acts and is only appended to.
-/
namespace Playscript

open Draft (Writes)

/-! ## Operations -/

/-- What can be done to a scenario that is being compiled. -/
inductive Operation
  | register (act : String) (description : Option String)
  | directive (scope : Scope) (text : List Char)
  | extract (scope : Scope) (lines : List Script.Line)
  | use (key : List Char) (value : Value)
  | setting (key : List Char) (value : Value)
  | placeholder (act name : String) (default : Value)
  | step (position : Compiler.Position) (block : Script.Block)

namespace Operation

def perform : Operation → Drafting Unit
  | .register act description => modify fun draft =>
    { draft with scenario := draft.scenario.ensureAct act description }
  | .directive scope text => Directive.store scope text
  | .extract scope lines => do let _ ← Directive.extract scope lines
  | .use key value => Directive.writeScenario key value
  | .setting key value => Directive.writeSetting key value
  | .placeholder act name default => modify fun draft =>
    { draft with scenario := draft.scenario.modifyAct act (·.storePlaceholder name default) }
  | .step position block => do let _ ← Compiler.step position block

def apply (op : Operation) (d : Draft) : Draft :=
  match op.perform.run d with
  | .ok _ after => after
  | .error _ after => after

theorem perform_writes (op : Operation) : WritesOnly (fun _ => True) op.perform := by
  cases op with
  | register act description => exact writesOnly_modify fun d => .register d _ _ trivial
  | directive scope text => exact store_writes trivial text
  | extract scope lines => exact (extract_writes trivial lines).bind fun _ => writesOnly_pure _
  | use key value => exact writeScenario_writes key value
  | setting key value => exact writeSetting_writes key value
  | placeholder act name default => exact writesOnly_modify fun d => .placeholder d _ _ _
  | step position block =>
    exact (Compiler.step_writes (fun _ _ => trivial) trivial block).bind fun _ =>
      writesOnly_pure _

theorem apply_writes (op : Operation) (d : Draft) : Writes (fun _ => True) d (op.apply d) := by
  have h := op.perform_writes d d (Writes.refl d)
  rw [apply]
  split
  · next hrun => exact h.of_ok hrun
  · next hrun => exact h.of_error hrun

end Operation

namespace Scenario

/-- The scenarios that operations make of the empty one and of what is read from plain data, in
drafts with any settings of the language. -/
inductive Reached : Scenario → Prop
  | empty : Reached .empty
  | read {v : Value} {s : Scenario} (hv : v.Distinct) (h : check v = .ok s) : Reached s
  | after {d : Draft} (h : Reached d.scenario) (op : Operation) : Reached (op.apply d).scenario

theorem Reached.ordered {s : Scenario} (h : s.Reached) : s.Ordered := by
  induction h with
  | empty => exact ordered_empty
  | read hv h => exact ordered_of_check hv h
  | after h op ih => exact ((op.apply_writes _).grown ih).ordered

/-! ## Reading -/

/-- The two parts of a repaired order: the given entries that name acts, where they come first, and
the other acts in the order of the table. -/
structure Repairs (given : List Value) (acts named rest : List String) : Prop where
  mem_named : ∀ name, name ∈ named ↔ .str name ∈ given ∧ name ∈ acts
  firsts : named.Pairwise fun x y =>
    (given.filterMap nameOf?).idxOf x < (given.filterMap nameOf?).idxOf y
  mem_rest : ∀ name, name ∈ rest ↔ name ∈ acts ∧ .str name ∉ given
  sublist : rest.Sublist acts

theorem mem_filterMap_nameOf? (given : List Value) (name : String) :
    name ∈ given.filterMap nameOf? ↔ .str name ∈ given := by
  rw [List.mem_filterMap]
  refine ⟨?_, fun h => ⟨_, h, rfl⟩⟩
  rintro ⟨v, hv, hname⟩
  cases v with
  | str s =>
    cases hname
    exact hv
  | _ => cases hname

theorem repairs_repairOrder (acts : List String) (given : List Value) :
    ∃ named rest, repairOrder acts given = named ++ rest ∧ Repairs given acts named rest := by
  let named := (given.filterMap nameOf?).eraseDups.filter (· ∈ acts)
  have hnamed : ∀ name, name ∈ named ↔ .str name ∈ given ∧ name ∈ acts := fun name => by
    simp only [named, List.mem_filter, List.mem_eraseDups, mem_filterMap_nameOf?, decide_eq_true_eq]
  refine ⟨named, acts.filter (· ∉ named), rfl, hnamed, ?_, fun name => ?_, List.filter_sublist⟩
  · exact (idxOf_eraseDups _).filter _
  · simp only [List.mem_filter, hnamed, decide_eq_true_eq]
    tauto

theorem repairs_of_check {v : Value} {s : Scenario} (h : check v = .ok s) :
    ∃ given named rest, givenOrder (Path.find v ["config", "order"]) = .ok given ∧
      s.order = named ++ rest ∧ Repairs given s.acts.keys named rest := by
  obtain ⟨r, acts, config, rfl, -, hconfig, hparts⟩ := check_eq_ok h
  obtain ⟨given, hgiven, rfl⟩ := ofParts_eq_ok.1 hparts
  obtain ⟨named, rest, hrepaired, hrepairs⟩ := repairs_repairOrder (Table.keys acts) given
  have hfind : Path.find (.dict r) ["config", "order"] =
      (Table.get? config "order").getD .null := by
    obtain ⟨w, hw, hrecord⟩ | ⟨hnone, rfl⟩ := DataModel.Documented.field_eq_ok.1 hconfig
    · obtain rfl := DataModel.Documented.record_eq_ok.1 hrecord
      simp only [Path.find, Path.get, hw]
      cases Table.get? config "order" with
      | none => rfl
      | some order => simp only [Option.getD_some]
    · simp only [Path.find, Path.get, hnone]
      rfl
  refine ⟨given, named, rest, by rw [hfind, hgiven], ?_, hrepairs⟩
  rw [order_set, hrepaired]

end Scenario

/-! ## Acts in order -/

namespace Staging

theorem acts_of_ordered {staging : Staging} (h : staging.scenario.Ordered) :
    ∃ acts, staging.acts = .ok acts ∧ acts.keys = staging.scenario.order ∧
      ∀ name, Table.get? acts name = staging.scenario.act? name := by
  let entry : String → String × Act := fun name =>
    (name, (staging.scenario.act? name).getD .empty)
  have hknown : ∀ name ∈ staging.scenario.order,
      staging.scenario.act? name = some (entry name).2 := by
    intro name hname
    obtain ⟨act, hact⟩ := Option.isSome_iff_exists.1
      ((staging.scenario.isSome_act?_iff name).2 ((h.mem_order name).1 hname))
    simp only [entry, hact, Option.getD_some]
  have hkeys : Table.keys (staging.scenario.order.map entry) = staging.scenario.order := by
    rw [Table.keys, List.map_map]
    exact List.map_id' _
  have hentries : Table.ofList (staging.scenario.order.map entry) =
      staging.scenario.order.map entry := by
    refine Table.update_of_nodup (t := []) ?_
    rw [List.nil_append, hkeys]
    exact h.nodup
  refine ⟨staging.scenario.order.map entry, ?_, hkeys, fun name => ?_⟩
  · rw [acts, mapM_of_ok (g := entry)]
    · exact congrArg Except.ok hentries
    · intro name hname
      rw [hknown name hname]
      rfl
  · rw [Table.get?_map_names]
    split_ifs with hname
    · exact (hknown name hname).symm
    · have hkey := mt (h.mem_order name).2 hname
      exact ((Table.get?_eq_none_iff _ _).2 hkey).symm

end Staging

/-! ## The order of the acts -/

namespace Scenario

/-- In every scenario that comes about, the order lists every act once, operations only append to
it, a dump is read back as it is, and the acts can be listed. An order that is read keeps the given
names of acts as they first come and has the other acts after them. -/
theorem Reached.order_in_step {s : Scenario} (h : s.Reached) :
    s.Ordered ∧
    (∀ (op : Operation) (d : Draft), d.scenario = s → s.order <+: (op.apply d).scenario.order) ∧
    (∀ v, check v = .ok s → ∃ given named rest,
      givenOrder (Path.find v ["config", "order"]) = .ok given ∧
        s.order = named ++ rest ∧ Repairs given s.acts.keys named rest) ∧
    check s.dump = .ok s ∧
    (∀ staging : Staging, staging.scenario = s → ∃ acts, staging.acts = .ok acts ∧
      acts.keys = s.order ∧ ∀ name, Table.get? acts name = s.act? name) := by
  have hordered := h.ordered
  refine ⟨hordered, ?_, fun v => repairs_of_check, check_dump hordered, ?_⟩
  · rintro op d rfl
    exact ((op.apply_writes d).grown hordered).appended
  · rintro staging rfl
    exact Staging.acts_of_ordered hordered

/-- An order with an unknown name and a name given twice, and an act that is registered later. -/
theorem order_in_step_b_a_c :
    let data : Value := .dict [
      ("acts", .dict [("a", .dict []), ("b", .dict [])]),
      ("config", .dict [("order", .list [.str "b", .str "x", .str "b"])])]
    ∃ s, check data = .ok s ∧ s.order = ["b", "a"] ∧ s.Ordered ∧ check s.dump = .ok s ∧
      s.order <+:
        ((Operation.register "c" none).apply (.start s Settings.defaults)).scenario.order ∧
      ((Operation.register "c" none).apply (.start s Settings.defaults)).scenario.order =
        ["b", "a", "c"] := by
  intro data
  have hdistinct : data.Distinct := by
    simp [data, Value.Distinct, Value.DistinctEntries, Value.DistinctItems]
  have hread : (check data).outcome.toOption.any (fun s => s.order == ["b", "a"] &&
      ((Operation.register "c" none).apply (.start s Settings.defaults)).scenario.order ==
        ["b", "a", "c"]) = true := rfl
  cases hcheck : check data with
  | error fault => rw [hcheck] at hread; cases hread
  | ok s =>
    rw [hcheck] at hread
    obtain ⟨horder, hafter⟩ := Bool.and_eq_true_iff.1 hread
    obtain ⟨hordered, happended, -, hdump, -⟩ := (Reached.read hdistinct hcheck).order_in_step
    exact ⟨s, rfl, beq_iff_eq.1 horder, hordered, hdump,
      happended (.register "c" none) (.start s Settings.defaults) rfl, beq_iff_eq.1 hafter⟩

end Scenario

end Playscript
