import Playscript.Proofs.Scenario.Dump
import Playscript.Proofs.Timestamp
import Playscript.Proofs.Value.Finite
import Playscript.Snapshot

/-!
# Reading snapshots back

A snapshot holds what a session is written down as. Reading it gives the progress back as it was, if
its values are finite, and the scenario with its values as they are written down. Only in the ledger
what was booked as the totals becomes a usage of its own.
-/
namespace Playscript

variable [DataModel]

open DataModel (plain plainEntries)
open DataModel.Documented

/-! ## Scenarios -/

def Act.stored (act : Act) : Act where
  messages := act.messages.map plainEntries
  description := act.description
  hasPlaceholders := act.hasPlaceholders
  placeholders := plainEntries act.placeholders
  config := plainEntries act.config

theorem Act.toValue_eq [DataModel.Documented] (act : Act) : act.toValue = act.stored.dump := by
  simp only [toValue, stored, dump, plain_dict, List.map_map]
  rfl

namespace Scenario

def stored (s : Scenario) : Scenario where
  acts := s.acts.map fun entry => (entry.1, entry.2.stored)
  config := plainEntries s.config

theorem keys_stored (s : Scenario) : s.stored.acts.keys = s.acts.keys := by
  simp [stored, Table.keys]

variable [DataModel.Documented]

theorem stored_listed {s : Scenario} (h : s.Ordered) :
    Table.get? s.stored.config "order" = some (.list (s.order.map .str)) := by
  simp only [stored, DataModel.get?_plainEntries, h.listed, Option.map_some,
    DataModel.plain_texts]

theorem order_stored {s : Scenario} (h : s.Ordered) : s.stored.order = s.order := by
  simp only [order, orderItems, stored_listed h]
  exact filterMap_nameOf?_map_str s.order

theorem ordered_stored {s : Scenario} (h : s.Ordered) : s.stored.Ordered where
  listed := by rw [order_stored h, stored_listed h]
  nodup := by rw [order_stored h]; exact h.nodup
  keys_nodup := by rw [keys_stored]; exact h.keys_nodup
  mem_order name := by rw [order_stored h, keys_stored]; exact h.mem_order name

theorem toValue_eq (s : Scenario) : s.toValue = s.stored.dump := by
  simp only [toValue, stored, dump, plain_dict, List.map_map, Act.toValue_eq]
  rfl

theorem check_toValue {s : Scenario} (h : s.Ordered) :
    Scenario.check s.toValue = .ok s.stored := by
  rw [toValue_eq]
  exact check_dump (ordered_stored h)

end Scenario

/-! ## Ledgers and logs -/

open Value (Finite FiniteEntries)

structure Further (names : List String) (extra : Record) : Prop where
  finite : FiniteEntries extra
  apart : ∀ entry ∈ extra, entry.1 ∉ names

theorem Further.beside_append [DataModel.Documented] {names : List String} {extra : Record}
    (h : Further names extra) {fixed : Record} (hfixed : ∀ entry ∈ fixed, entry.1 ∈ names) :
    DataModel.beside names (fixed ++ plainEntries extra) = extra := by
  rw [beside_eq, DataModel.plainEntries_eq_self h.finite, List.filter_append,
    List.filter_eq_nil_iff.2 fun entry he => by simp [hfixed entry he],
    List.filter_eq_self.2 fun entry he => decide_eq_true (h.apart entry he), List.nil_append]

namespace Usage

theorem check_toValue [DataModel.Documented] {u : Usage} (h : Further names u.extra) :
    check u.toValue = .ok u := by
  refine Check.andThen_eq_ok.2 ⟨_, fields_eq_ok.2 rfl, ?_⟩
  refine Check.seq_eq_ok.2 ⟨_, _, Check.seq_eq_ok.2 ⟨_, _, Check.seq_eq_ok.2 ⟨_, _,
    Check.map_eq_ok.2 ⟨_, ?_, rfl⟩, ?_, rfl⟩, ?_, rfl⟩,
    congrArg Except.ok (h.beside_append ?_), rfl⟩
  · exact DataModel.field_of_get rfl (integer_int _)
  · exact DataModel.field_of_get rfl (integer_int _)
  · exact DataModel.field_of_get rfl (integer_int _)
  · simp [names]

end Usage

def Ledger.Sound (ledger : Ledger) : Prop :=
  ∀ usage ∈ ledger.requests ++ [ledger.totals], Further Usage.names usage.extra

namespace Ledger

omit [DataModel] in
theorem requests_settled (ledger : Ledger) : ledger.settled.requests = ledger.requests := by
  rw [settled, requests, List.map_map]
  exact List.map_id _

omit [DataModel] in
theorem settled_settled (ledger : Ledger) : ledger.settled.settled = ledger.settled := by
  rw [settled, requests_settled]
  rfl

theorem check_toValue [DataModel.Documented] {ledger : Ledger} (h : ledger.Sound) :
    check ledger.toValue = .ok ledger.settled := by
  obtain ⟨hrequests, htotals⟩ := List.forall_mem_append.1 h
  have hlist : DataModel.list Usage.check (.list (ledger.requests.map Usage.toValue)) =
      .ok ledger.requests :=
    DataModel.list_map_self fun u hu => Usage.check_toValue (hrequests u hu)
  refine Check.andThen_eq_ok.2 ⟨_, fields_eq_ok.2 rfl, Check.seq_eq_ok.2 ⟨_, _,
    Check.map_eq_ok.2 ⟨_, ?_, rfl⟩, ?_, rfl⟩⟩
  · exact DataModel.field_of_get rfl hlist
  · exact DataModel.field_of_get rfl (Usage.check_toValue (htotals _ (List.mem_singleton_self _)))

end Ledger

structure LogEntry.Sound (entry : LogEntry) : Prop where
  timestamp : entry.timestamp.Valid
  request : entry.request.Finite
  response : entry.response.Finite
  extra : Further names entry.extra

namespace LogEntry

theorem checkAt_toValue [DataModel.Documented] (now : Timestamp) {entry : LogEntry}
    (h : entry.Sound) : checkAt now entry.toValue = .ok entry := by
  have hany : ∀ {v : Value}, v.Finite → DataModel.any (plain v) = .ok v := fun hv =>
    (any_eq _).trans (congrArg Except.ok (DataModel.plain_eq_self hv))
  refine Check.andThen_eq_ok.2 ⟨_, fields_eq_ok.2 rfl, ?_⟩
  refine Check.seq_eq_ok.2 ⟨_, _, Check.seq_eq_ok.2 ⟨_, _, Check.seq_eq_ok.2 ⟨_, _,
    Check.map_eq_ok.2 ⟨_, ?_, rfl⟩, ?_, rfl⟩, ?_, rfl⟩,
    congrArg Except.ok (h.extra.beside_append ?_), rfl⟩
  · exact DataModel.field_of_get rfl (time_text h.timestamp)
  · exact DataModel.field_of_get rfl (hany h.request)
  · exact DataModel.field_of_get rfl (hany h.response)
  · simp [names]

end LogEntry

/-! ## Progress -/

def Value.IsFiniteRecord (v : Value) : Prop := ∃ entries, v = .dict entries ∧ FiniteEntries entries

omit [DataModel] in
theorem Value.IsFiniteRecord.finite {v : Value} (h : v.IsFiniteRecord) : v.Finite := by
  obtain ⟨entries, rfl, hentries⟩ := h
  exact hentries

theorem Value.IsFiniteRecord.checkEntry [DataModel.Documented] {v : Value}
    (h : v.IsFiniteRecord) : Snapshot.checkEntry v = .ok v := by
  obtain ⟨entries, rfl, -⟩ := h
  exact Check.map_eq_ok.2 ⟨entries, record_eq_ok.2 rfl, rfl⟩

structure Progress.Sound (p : Progress) : Prop where
  history : ∃ messages, p.history = .list messages ∧ ∀ v ∈ messages, v.IsFiniteRecord
  contexts : ∀ v ∈ p.contexts, v.IsFiniteRecord
  context : FiniteEntries p.context
  log : ∀ entries ∈ p.log, ∀ entry ∈ entries, entry.Sound
  cost : ∀ ledger ∈ p.cost, ledger.Sound

namespace Snapshot

variable [DataModel.Documented]

theorem map_plain_eq_self {vs : List Value} (h : ∀ v ∈ vs, v.IsFiniteRecord) :
    vs.map plain = vs :=
  DataModel.plainItems_eq_self (Value.finiteItems_iff.2 fun v hv => (h v hv).finite)

theorem checkHistory_plain {history : Value} {messages : List Value}
    (hhistory : history = .list messages) (h : ∀ v ∈ messages, v.IsFiniteRecord) :
    checkHistory (plain history) = .ok history := by
  subst hhistory
  rw [plain_list, map_plain_eq_self h]
  exact Check.map_eq_ok.2 ⟨_, DataModel.list_self fun v hv => (h v hv).checkEntry, rfl⟩

/-- A snapshot of a sound progress is read back with the same progress. -/
theorem ofValue_toValue (now : Timestamp) {s : Snapshot} (hscenario : s.scenario.Ordered)
    (h : s.progress.Sound) :
    ofValue now s.toValue = .ok ⟨s.scenario.stored, s.progress.settled⟩ := by
  obtain ⟨messages, hhistory, hmessages⟩ := h.history
  have hqueue : DataModel.list DataModel.text (.list (s.progress.queue.map .str)) =
      .ok s.progress.queue := DataModel.list_map_self fun _ _ => text_eq_ok.2 rfl
  have hcontexts : DataModel.list checkEntry (.list (s.progress.contexts.map plain)) =
      .ok s.progress.contexts := by
    rw [map_plain_eq_self h.contexts]
    exact DataModel.list_self fun v hv => (h.contexts v hv).checkEntry
  have hcontext : DataModel.record (plain (.dict s.progress.context)) =
      .ok s.progress.context := by
    rw [plain_dict, DataModel.plainEntries_eq_self h.context, record_eq_ok]
  have hnone : ∀ {α : Type} {check : Value → Check α},
      DataModel.optional check .null = .ok none := optional_eq_ok.2 (Or.inl ⟨rfl, rfl⟩)
  refine Check.andThen_eq_ok.2 ⟨_, fields_eq_ok.2 rfl, Check.seq_eq_ok.2 ⟨_, s.progress.settled,
    Check.map_eq_ok.2 ⟨s.scenario.stored, ?_, rfl⟩, ?_, rfl⟩⟩
  · exact DataModel.required_of_get rfl (Scenario.check_toValue hscenario)
  · refine Check.seq_eq_ok.2 ⟨_, _, Check.seq_eq_ok.2 ⟨_, _, Check.seq_eq_ok.2 ⟨_, _,
      Check.seq_eq_ok.2 ⟨_, _, Check.seq_eq_ok.2 ⟨_, _, Check.seq_eq_ok.2 ⟨_, _,
      Check.map_eq_ok.2 ⟨_, ?_, rfl⟩, ?_, rfl⟩, ?_, rfl⟩, ?_, rfl⟩, ?_, rfl⟩, ?_, rfl⟩, ?_, rfl⟩
    · exact DataModel.field_of_get rfl (DataModel.optional_ofText? _)
    · exact DataModel.field_of_get rfl hqueue
    · exact DataModel.field_of_get rfl (checkHistory_plain hhistory hmessages)
    · exact DataModel.field_of_get rfl hcontexts
    · exact DataModel.field_of_get rfl hcontext
    · apply DataModel.field_of_get rfl
      cases hentries : s.progress.log with
      | none => exact hnone
      | some entries =>
        exact DataModel.optional_of_ok rfl (DataModel.list_map_self fun entry he =>
          LogEntry.checkAt_toValue now (h.log entries hentries entry he))
    · apply DataModel.field_of_get rfl
      show DataModel.optional Ledger.check _ = .ok (s.progress.cost.map Ledger.settled)
      cases hledger : s.progress.cost with
      | none => exact hnone
      | some ledger =>
        exact DataModel.optional_of_ok rfl (Ledger.check_toValue (h.cost ledger hledger))

end Snapshot

end Playscript
