import Playscript.Proofs.Scenario.Order

/-!
# Dumps of scenarios

A scenario can be dumped as plain data. Reading the dump gives the scenario back: its order is in
step with its acts, so nothing in it has to be repaired.
-/
namespace Playscript

def Act.dump (act : Act) : Value :=
  .dict [
    ("messages", .list (act.messages.map Value.dict)),
    ("description", .ofText? act.description),
    ("has_placeholders", .bool act.hasPlaceholders),
    ("placeholders", .dict act.placeholders),
    ("config", .dict act.config)]

section

variable [DataModel] [DataModel.Documented]

open DataModel.Documented

theorem Act.check_dump (act : Act) : Act.check act.dump = .ok act := by
  have hrecord : ∀ r : Record, DataModel.record (.dict r) = .ok r := fun _ => record_eq_ok.2 rfl
  have hmessages : DataModel.list DataModel.record (.list (act.messages.map Value.dict)) =
      .ok act.messages := DataModel.list_map_self fun _ _ => hrecord _
  refine Check.andThen_eq_ok.2 ⟨_, fields_eq_ok.2 rfl, ?_⟩
  refine Check.seq_eq_ok.2 ⟨_, _, Check.seq_eq_ok.2 ⟨_, _, Check.seq_eq_ok.2 ⟨_, _,
    Check.seq_eq_ok.2 ⟨_, _, Check.map_eq_ok.2 ⟨_, ?_, rfl⟩, ?_, rfl⟩, ?_, rfl⟩, ?_, rfl⟩, ?_, rfl⟩
  · exact DataModel.field_of_get rfl hmessages
  · exact DataModel.field_of_get rfl (DataModel.optional_ofText? _)
  · exact DataModel.field_of_get rfl (truth_bool _)
  · exact DataModel.field_of_get rfl (hrecord _)
  · exact DataModel.field_of_get rfl (hrecord _)

end

namespace Scenario

def dump (s : Scenario) : Value :=
  .dict [
    ("acts", .dict (s.acts.map fun entry => (entry.1, entry.2.dump))),
    ("config", .dict s.config)]

theorem eraseDups_eq_self {names : List String} (h : names.Nodup) : names.eraseDups = names := by
  induction names with
  | nil => rfl
  | cons name rest ih =>
    obtain ⟨hname, hrest⟩ := List.nodup_cons.1 h
    have hfilter : rest.filter (fun other => !other == name) = rest :=
      List.filter_eq_self.2 fun other hother => by
        simp only [Bool.not_eq_true', beq_eq_false_iff_ne]
        exact fun heq => hname (heq ▸ hother)
    rw [List.eraseDups_cons, hfilter, ih hrest]

theorem repairOrder_eq_self {acts order : List String} (hnodup : order.Nodup)
    (hmem : ∀ name, name ∈ order ↔ name ∈ acts) : repairOrder acts (order.map .str) = order := by
  have hnamed : order.eraseDups.filter (· ∈ acts) = order := by
    rw [eraseDups_eq_self hnodup]
    exact List.filter_eq_self.2 fun name hname => decide_eq_true ((hmem name).1 hname)
  have hrest : acts.filter (· ∉ order) = [] :=
    List.filter_eq_nil_iff.2 fun name hname => by simp [(hmem name).2 hname]
  simp only [repairOrder, filterMap_nameOf?_map_str, hnamed, hrest, List.append_nil]

theorem Value.areKeys_texts (names : List String) : Value.areKeys (names.map .str) = true := by
  induction names with
  | nil => rfl
  | cons name rest ih => exact ih

theorem givenOrder_texts (names : List String) :
    givenOrder (.list (names.map .str)) = .ok (names.map .str) := by
  cases names with
  | nil => rfl
  | cons name rest =>
    simp only [givenOrder, Value.truthy, List.map_cons, List.isEmpty_cons, Bool.not_false, if_true]
    exact if_pos (Value.areKeys_texts (name :: rest))

theorem check_dump [DataModel] [DataModel.Documented] {s : Scenario} (h : s.Ordered) :
    Scenario.check s.dump = .ok s := by
  have hacts : DataModel.table Act.check
      (.dict (s.acts.map fun entry => (entry.1, entry.2.dump))) =
        .ok (s.acts.map fun entry => (entry.1, id entry.2)) :=
    DataModel.table_map fun _ _ => Act.check_dump _
  simp only [id, List.map_id'] at hacts
  have hparts : ofParts s.acts s.config = .ok s := by
    simp only [ofParts, h.listed, Option.getD_some, givenOrder_texts, bind, Except.bind, pure,
      Except.pure]
    rw [repairOrder_eq_self h.nodup h.mem_order, Table.set_of_get? h.listed]
  refine Check.andThen_eq_ok.2 ⟨_, DataModel.Documented.fields_eq_ok.2 rfl,
    Check.andThen_eq_ok.2 ⟨(s.acts, s.config), ?_, hparts⟩⟩
  refine Check.seq_eq_ok.2 ⟨_, _, Check.map_eq_ok.2 ⟨_, ?_, rfl⟩, ?_, rfl⟩
  · exact DataModel.field_of_get rfl hacts
  · exact DataModel.field_of_get rfl (DataModel.Documented.record_eq_ok.2 rfl)

end Scenario

end Playscript
