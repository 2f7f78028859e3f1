import Playscript.Proofs.Snapshot
import Playscript.Snapshot.Depth

/-!
# What snapshots are made of

Around the free values in it a snapshot has a fixed shape: messages and contexts are records, what
is logged has a time that can be written, and what stands beside fixed fields has other names. A
check gives this shape, whatever it reads, and values with a property if all it reads has the
property.
-/
namespace Playscript

open Value (Finite FiniteEntries Hereditary)

variable {F : Value → Prop}

def Value.IsRecordOf (F : Value → Prop) (v : Value) : Prop :=
  ∃ entries, v = .dict entries ∧ ∀ e ∈ entries, F e.2

structure Beside (F : Value → Prop) (names : List String) (extra : Record) : Prop where
  values : ∀ e ∈ extra, F e.2
  apart : ∀ e ∈ extra, e.1 ∉ names

theorem beside_nil (names : List String) : Beside F names [] :=
  ⟨fun _ h => absurd h List.not_mem_nil, fun _ h => absurd h List.not_mem_nil⟩

theorem beside_of_beside [DataModel] [DataModel.Documented] {names : List String} {r : Record}
    (h : ∀ e ∈ r, F e.2) : Beside F names (DataModel.beside names r) := by
  rw [DataModel.Documented.beside_eq]
  exact ⟨fun e he => h e (List.mem_filter.1 he).1,
    fun _ he => of_decide_eq_true (List.mem_filter.1 he).2⟩

def Ledger.MadeOf (F : Value → Prop) (ledger : Ledger) : Prop :=
  ∀ usage ∈ ledger.requests ++ [ledger.totals], Beside F Usage.names usage.extra

structure LogEntry.MadeOf (F : Value → Prop) (entry : LogEntry) : Prop where
  timestamp : entry.timestamp.Valid
  request : F entry.request
  response : F entry.response
  extra : Beside F names entry.extra

structure Progress.MadeOf (F : Value → Prop) (p : Progress) : Prop where
  history : ∃ messages, p.history = .list messages ∧ ∀ v ∈ messages, v.IsRecordOf F
  contexts : ∀ v ∈ p.contexts, v.IsRecordOf F
  context : ∀ e ∈ p.context, F e.2
  log : ∀ entries ∈ p.log, ∀ entry ∈ entries, entry.MadeOf F
  cost : ∀ ledger ∈ p.cost, ledger.MadeOf F

theorem Ledger.madeOf_empty : Ledger.empty.MadeOf F := by
  intro usage h
  rw [List.mem_singleton.1 h]
  exact beside_nil _

theorem Ledger.madeOf_iff {ledger : Ledger} : ledger.MadeOf F ↔
    (∀ request ∈ ledger.booked, Beside F Usage.names (request.amount ledger.totals).extra) ∧
      Beside F Usage.names ledger.totals.extra := by
  rw [MadeOf, List.forall_mem_append, List.forall_mem_singleton, requests, List.forall_mem_map]

def Ledger.Request.MadeOf (F : Value → Prop) : Ledger.Request → Prop
  | .usage u => Beside F Usage.names u.extra
  | .totals => True

theorem Ledger.MadeOf.add {ledger : Ledger} (h : ledger.MadeOf F) {request : Ledger.Request}
    (hrequest : request.MadeOf F) : (ledger.add request).MadeOf F := by
  obtain ⟨hbooked, htotals⟩ := madeOf_iff.1 h
  have hlater : ∀ r : Ledger.Request,
      (r.amount (ledger.add request).totals).extra = (r.amount ledger.totals).extra := fun r => by
    cases r <;> rfl
  refine madeOf_iff.2 ⟨List.forall_mem_append.2 ⟨fun r hr => ?_, ?_⟩, htotals⟩
  · rw [hlater]
    exact hbooked r hr
  · rw [List.forall_mem_singleton, hlater]
    cases request with
    | usage u => exact hrequest
    | totals => exact htotals

/-! ## Finite values -/

theorem isFiniteRecord_iff {v : Value} : v.IsFiniteRecord ↔ v.IsRecordOf Finite :=
  exists_congr fun _ => and_congr_right fun _ => Value.finiteEntries_iff

theorem further_iff {names : List String} {extra : Record} :
    Further names extra ↔ Beside Finite names extra :=
  ⟨fun h => ⟨Value.finiteEntries_iff.1 h.finite, h.apart⟩,
    fun h => ⟨Value.finiteEntries_iff.2 h.values, h.apart⟩⟩

theorem Ledger.sound_iff {ledger : Ledger} : ledger.Sound ↔ ledger.MadeOf Finite :=
  forall₂_congr fun _ _ => further_iff

theorem LogEntry.sound_iff {entry : LogEntry} : entry.Sound ↔ entry.MadeOf Finite :=
  ⟨fun h => ⟨h.timestamp, h.request, h.response, further_iff.1 h.extra⟩,
    fun h => ⟨h.timestamp, h.request, h.response, further_iff.2 h.extra⟩⟩

theorem Progress.sound_iff {p : Progress} : p.Sound ↔ p.MadeOf Finite := by
  constructor
  · intro h
    obtain ⟨messages, hmessages, hfinite⟩ := h.history
    exact ⟨⟨messages, hmessages, fun v hv => isFiniteRecord_iff.1 (hfinite v hv)⟩,
      fun v hv => isFiniteRecord_iff.1 (h.contexts v hv), Value.finiteEntries_iff.1 h.context,
      fun entries hes entry he => LogEntry.sound_iff.1 (h.log entries hes entry he),
      fun ledger hl => Ledger.sound_iff.1 (h.cost ledger hl)⟩
  · intro h
    obtain ⟨messages, hmessages, hfinite⟩ := h.history
    exact ⟨⟨messages, hmessages, fun v hv => isFiniteRecord_iff.2 (hfinite v hv)⟩,
      fun v hv => isFiniteRecord_iff.2 (h.contexts v hv), Value.finiteEntries_iff.2 h.context,
      fun entries hes entry he => LogEntry.sound_iff.2 (h.log entries hes entry he),
      fun ledger hl => Ledger.sound_iff.2 (h.cost ledger hl)⟩

/-! ## Checks -/

variable [DataModel] [DataModel.Documented]

open DataModel.Documented

namespace DataModel

variable {α : Type} {check : Value → Check α} {P : α → Prop}

def Gives (F : Value → Prop) (check : Value → Check α) (P : α → Prop) : Prop :=
  ∀ v a, F v → check v = .ok a → P a

theorem gives_any : Gives F any F := by
  intro v w hv hw
  obtain rfl := Except.ok.inj ((any_eq v).symm.trans hw)
  exact hv

theorem gives_record (hF : Hereditary F) : Gives F record fun r => ∀ e ∈ r, F e.2 := by
  intro v entries hv h
  obtain rfl := record_eq_ok.1 h
  exact hF.entries.1 hv

theorem Gives.list (hF : Hereditary F) (h : Gives F check P) :
    Gives F (list check) fun as => ∀ a ∈ as, P a := by
  intro v as hv has
  obtain ⟨vs, hvs, hall⟩ := list_eq_ok.1 has
  have hitems : ∀ v ∈ vs, F v := by
    obtain rfl | rfl := hvs
    · exact hF.items.1 hv
    · exact hF.tuple hv
  clear has hvs hv
  induction hall with
  | nil => exact fun _ ha => absurd ha List.not_mem_nil
  | cons ha _ ih =>
    obtain ⟨hv, hrest⟩ := List.forall_mem_cons.1 hitems
    exact List.forall_mem_cons.2 ⟨h _ _ hv ha, ih hrest⟩

theorem Gives.table (hF : Hereditary F) (h : Gives F check P) :
    Gives F (table check) fun t => ∀ e ∈ t, P e.2 := by
  intro v t hv ht
  obtain ⟨es, rfl, hall⟩ := table_eq_ok.1 ht
  have hentries := hF.entries.1 hv
  clear ht hv
  induction hall with
  | nil => exact fun _ he => absurd he List.not_mem_nil
  | cons he _ ih =>
    obtain ⟨hv, hrest⟩ := List.forall_mem_cons.1 hentries
    exact List.forall_mem_cons.2 ⟨h _ _ hv he.2, ih hrest⟩

theorem Gives.optional (h : Gives F check P) :
    Gives F (optional check) fun a? => ∀ a ∈ a?, P a := by
  intro v a? hv ha
  obtain ⟨-, rfl⟩ | ⟨-, a, hread, rfl⟩ := optional_eq_ok.1 ha
  · exact fun _ hmem => absurd hmem (Option.not_mem_none _)
  · intro b hb
    cases hb
    exact h v a hv hread

theorem Gives.field (h : Gives F check P) {r : Record} (hr : ∀ e ∈ r, F e.2) {name : String}
    {default a : α} (hdefault : P default) (ha : field name default check r = .ok a) :
    P a := by
  obtain ⟨v, hv, ha⟩ | ⟨-, rfl⟩ := field_eq_ok.1 ha
  · exact h v a (hr _ (Table.mem_of_get? hv)) ha
  · exact hdefault

theorem Gives.required (h : Gives F check P) {r : Record} (hr : ∀ e ∈ r, F e.2) {name : String}
    {a : α} (ha : required name check r = .ok a) : P a := by
  obtain ⟨v, hv, ha⟩ := required_eq_ok.1 ha
  exact h v a (hr _ (Table.mem_of_get? hv)) ha

end DataModel

/-! ## Reading -/

theorem Usage.gives_check (hF : Hereditary F) :
    DataModel.Gives F check fun u => Beside F names u.extra := by
  intro v u hv h
  obtain ⟨r, hr, h⟩ := Check.andThen_eq_ok.1 h
  obtain ⟨_, extra, h, hextra, hu⟩ := Check.seq_eq_ok.1 h
  obtain ⟨_, total, h, -, hthird⟩ := Check.seq_eq_ok.1 h
  obtain ⟨_, completion, h, -, hsecond⟩ := Check.seq_eq_ok.1 h
  obtain ⟨prompt, -, hfirst⟩ := Check.map_eq_ok.1 h
  subst hfirst hsecond hthird hu
  obtain rfl := fields_eq_ok.1 hr
  obtain rfl := Except.ok.inj hextra
  exact beside_of_beside (hF.entries.1 hv)

theorem Ledger.gives_check (hF : Hereditary F) : DataModel.Gives F check (Ledger.MadeOf F) := by
  intro v ledger hv h
  obtain ⟨r, hr, h⟩ := Check.andThen_eq_ok.1 h
  obtain ⟨_, totals, h, htotals, hledger⟩ := Check.seq_eq_ok.1 h
  obtain ⟨requests, hrequests, hfirst⟩ := Check.map_eq_ok.1 h
  subst hfirst hledger
  obtain rfl := fields_eq_ok.1 hr
  have hv := hF.entries.1 hv
  have hown : ∀ us : List Usage, (∀ u ∈ us, Beside F Usage.names u.extra) →
      ∀ r ∈ us.map Ledger.Request.usage, Beside F Usage.names (r.amount totals).extra :=
    fun _ h => List.forall_mem_map.2 h
  refine Ledger.madeOf_iff.2 ⟨hown _ ?_, ?_⟩
  · exact ((Usage.gives_check hF).list hF).field hv (fun _ hu => absurd hu List.not_mem_nil)
      hrequests
  · exact (Usage.gives_check hF).field hv (beside_nil _) htotals

theorem LogEntry.gives_checkAt (hF : Hereditary F) {now : Timestamp} (hnow : now.Valid) :
    DataModel.Gives F (checkAt now) (LogEntry.MadeOf F) := by
  intro v entry hv h
  obtain ⟨r, hr, h⟩ := Check.andThen_eq_ok.1 h
  obtain ⟨_, extra, h, hextra, hentry⟩ := Check.seq_eq_ok.1 h
  obtain ⟨_, response, h, hresponse, hthird⟩ := Check.seq_eq_ok.1 h
  obtain ⟨_, request, h, hrequest, hsecond⟩ := Check.seq_eq_ok.1 h
  obtain ⟨timestamp, htimestamp, hfirst⟩ := Check.map_eq_ok.1 h
  subst hfirst hsecond hthird hentry
  obtain rfl := fields_eq_ok.1 hr
  obtain rfl := Except.ok.inj hextra
  have hv := hF.entries.1 hv
  have htime : DataModel.Gives F DataModel.time Timestamp.Valid := fun _ _ _ hw => time_valid hw
  exact ⟨htime.field hv hnow htimestamp, DataModel.gives_any.field hv hF.null hrequest,
    DataModel.gives_any.field hv hF.null hresponse, beside_of_beside hv⟩

namespace Snapshot

theorem gives_checkEntry (hF : Hereditary F) :
    DataModel.Gives F checkEntry (Value.IsRecordOf F) := by
  intro v w hv h
  obtain ⟨entries, hentries, rfl⟩ := Check.map_eq_ok.1 h
  exact ⟨entries, rfl, DataModel.gives_record hF v entries hv hentries⟩

theorem gives_checkHistory (hF : Hereditary F) : DataModel.Gives F checkHistory fun history =>
    ∃ messages, history = .list messages ∧ ∀ m ∈ messages, m.IsRecordOf F := by
  intro v w hv h
  obtain ⟨messages, hmessages, rfl⟩ := Check.map_eq_ok.1 h
  exact ⟨messages, rfl, (gives_checkEntry hF).list hF v messages hv hmessages⟩

omit [DataModel.Documented] in
theorem parts_of_checkProgress {now : Timestamp} {r : Record} {progress : Progress}
    (h : checkProgress now r = .ok progress) :
    DataModel.field "history" (.list []) checkHistory r = .ok progress.history ∧
      DataModel.field "contexts" [] (DataModel.list checkEntry) r = .ok progress.contexts ∧
      DataModel.field "context" [] DataModel.record r = .ok progress.context ∧
      DataModel.field "log" none (DataModel.optional (DataModel.list (LogEntry.checkAt now))) r =
        .ok progress.log ∧
      DataModel.field "cost" none (DataModel.optional Ledger.check) r = .ok progress.cost := by
  obtain ⟨_, cost, h, hcost, hprogress⟩ := Check.seq_eq_ok.1 h
  obtain ⟨_, log, h, hlog, hsixth⟩ := Check.seq_eq_ok.1 h
  obtain ⟨_, context, h, hcontext, hfifth⟩ := Check.seq_eq_ok.1 h
  obtain ⟨_, contexts, h, hcontexts, hfourth⟩ := Check.seq_eq_ok.1 h
  obtain ⟨_, history, h, hhistory, hthird⟩ := Check.seq_eq_ok.1 h
  obtain ⟨_, queue, h, -, hsecond⟩ := Check.seq_eq_ok.1 h
  obtain ⟨act, -, hfirst⟩ := Check.map_eq_ok.1 h
  subst hfirst hsecond hthird hfourth hfifth hsixth hprogress
  exact ⟨hhistory, hcontexts, hcontext, hlog, hcost⟩

theorem madeOf_of_checkProgress (hF : Hereditary F) {now : Timestamp} (hnow : now.Valid)
    {r : Record} (hr : ∀ e ∈ r, F e.2) {progress : Progress}
    (h : checkProgress now r = .ok progress) : progress.MadeOf F := by
  obtain ⟨hhistory, hcontexts, hcontext, hlog, hcost⟩ := parts_of_checkProgress h
  refine ⟨?_, ?_, ?_, ?_, ?_⟩
  · exact (gives_checkHistory hF).field hr ⟨[], rfl, fun _ hm => absurd hm List.not_mem_nil⟩
      hhistory
  · exact ((gives_checkEntry hF).list hF).field hr (fun _ hm => absurd hm List.not_mem_nil)
      hcontexts
  · exact (DataModel.gives_record hF).field hr (fun _ hm => absurd hm List.not_mem_nil) hcontext
  · exact ((LogEntry.gives_checkAt hF hnow).list hF).optional.field hr
      (fun _ hm => absurd hm (Option.not_mem_none _)) hlog
  · exact (Ledger.gives_check hF).optional.field hr
      (fun _ hm => absurd hm (Option.not_mem_none _)) hcost

theorem checkProgress_of_ofValue {now : Timestamp} {v : Value} {snapshot : Snapshot}
    (h : ofValue now v = .ok snapshot) :
    ∃ r, v = .dict r ∧ checkProgress now r = .ok snapshot.progress := by
  obtain ⟨r, hr, h⟩ := Check.andThen_eq_ok.1 h
  obtain ⟨_, progress, h, hprogress, hsnapshot⟩ := Check.seq_eq_ok.1 h
  obtain ⟨scenario, -, hfirst⟩ := Check.map_eq_ok.1 h
  subst hfirst hsnapshot
  exact ⟨r, fields_eq_ok.1 hr, hprogress⟩

theorem madeOf_of_ofValue (hF : Hereditary F) {now : Timestamp} (hnow : now.Valid) {v : Value}
    (hv : F v) {snapshot : Snapshot} (h : ofValue now v = .ok snapshot) :
    snapshot.progress.MadeOf F := by
  obtain ⟨r, rfl, hprogress⟩ := checkProgress_of_ofValue h
  exact madeOf_of_checkProgress hF hnow (hF.entries.1 hv) hprogress

end Snapshot

end Playscript
