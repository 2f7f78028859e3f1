import Playscript.Proofs.Snapshot.Made

/-!
# Snapshots of finite values

What is read from finite values can be written down again without loss: a scenario is stored as it
is, and the progress in it is sound.
-/
namespace Playscript

open Value (Finite FiniteEntries)

/-! ## Scenarios -/

structure Act.Finite (act : Act) : Prop where
  messages : ∀ message ∈ act.messages, FiniteEntries message
  placeholders : FiniteEntries act.placeholders
  config : FiniteEntries act.config

structure Scenario.Finite (s : Scenario) : Prop where
  acts : ∀ entry ∈ s.acts, entry.2.Finite
  config : FiniteEntries s.config

variable [DataModel] [DataModel.Documented]

theorem Act.stored_eq_self {act : Act} (h : act.Finite) : act.stored = act := by
  have hmessages : act.messages.map DataModel.plainEntries = act.messages := by
    conv_rhs => rw [← List.map_id act.messages]
    exact List.map_congr_left fun message hm => DataModel.plainEntries_eq_self (h.messages _ hm)
  simp only [stored, hmessages, DataModel.plainEntries_eq_self h.placeholders,
    DataModel.plainEntries_eq_self h.config]

theorem Scenario.stored_eq_self {s : Scenario} (h : s.Finite) : s.stored = s := by
  have hacts : s.acts.map (fun entry => (entry.1, entry.2.stored)) = s.acts := by
    conv_rhs => rw [← List.map_id s.acts]
    exact List.map_congr_left fun entry he => Prod.ext rfl (Act.stored_eq_self (h.acts entry he))
  simp only [stored, hacts, DataModel.plainEntries_eq_self h.config]

open DataModel.Documented

theorem DataModel.gives_finiteEntries : Gives Value.Finite record FiniteEntries :=
  fun v entries hv h =>
    Value.finiteEntries_iff.2 (gives_record Value.hereditary_finite v entries hv h)

theorem Act.gives_check : DataModel.Gives Value.Finite check Act.Finite := by
  intro v act hv h
  obtain ⟨r, hr, h⟩ := Check.andThen_eq_ok.1 h
  obtain ⟨_, config, h, hconfig, hact⟩ := Check.seq_eq_ok.1 h
  obtain ⟨_, placeholders, h, hplaceholders, hfourth⟩ := Check.seq_eq_ok.1 h
  obtain ⟨_, has, h, -, hthird⟩ := Check.seq_eq_ok.1 h
  obtain ⟨_, description, h, -, hsecond⟩ := Check.seq_eq_ok.1 h
  obtain ⟨messages, hmessages, hfirst⟩ := Check.map_eq_ok.1 h
  subst hfirst hsecond hthird hfourth hact
  obtain rfl := fields_eq_ok.1 hr
  have hv := Value.finiteEntries_iff.1 hv
  exact ⟨(DataModel.gives_finiteEntries.list Value.hereditary_finite).field hv
      (fun _ hm => absurd hm List.not_mem_nil) hmessages,
    DataModel.gives_finiteEntries.field hv Value.finiteEntries_nil hplaceholders,
    DataModel.gives_finiteEntries.field hv Value.finiteEntries_nil hconfig⟩

namespace Scenario

omit [DataModel] [DataModel.Documented] in
theorem finite_of_ofParts {acts : Table Act} {config : Record} {s : Scenario}
    (hacts : ∀ entry ∈ acts, entry.2.Finite) (hconfig : FiniteEntries config)
    (h : ofParts acts config = .ok s) : s.Finite := by
  unfold ofParts at h
  cases hgiven : givenOrder ((Table.get? config "order").getD .null) with
  | error fault => simp [hgiven, bind, Except.bind] at h
  | ok given =>
    simp only [hgiven, bind, Except.bind, pure, Except.pure, Except.ok.injEq] at h
    subst h
    refine ⟨hacts, hconfig.set _ (Value.finiteItems_iff.2 fun v hv => ?_)⟩
    obtain ⟨name, -, rfl⟩ := List.mem_map.1 hv
    trivial

theorem gives_check : DataModel.Gives Value.Finite check Scenario.Finite := by
  intro v s hv h
  obtain ⟨r, hr, h⟩ := Check.andThen_eq_ok.1 h
  obtain ⟨⟨acts, config⟩, hparts, hs⟩ := Check.andThen_eq_ok.1 h
  obtain ⟨g, config', hg, hconfig, hpair⟩ := Check.seq_eq_ok.1 hparts
  obtain ⟨acts', hacts, rfl⟩ := Check.map_eq_ok.1 hg
  cases hpair
  obtain rfl := fields_eq_ok.1 hr
  have hv := Value.finiteEntries_iff.1 hv
  refine finite_of_ofParts ((Act.gives_check.table Value.hereditary_finite).field hv ?_ hacts)
    (DataModel.gives_finiteEntries.field hv Value.finiteEntries_nil hconfig) hs
  exact fun _ he => absurd he List.not_mem_nil

end Scenario

namespace Snapshot

theorem sound_of_ofValue {now : Timestamp} (hnow : now.Valid) {v : Value} (hv : v.Finite)
    {snapshot : Snapshot} (h : ofValue now v = .ok snapshot) :
    snapshot.scenario.Finite ∧ snapshot.progress.Sound := by
  refine ⟨?_, Progress.sound_iff.2 (madeOf_of_ofValue Value.hereditary_finite hnow hv h)⟩
  obtain ⟨r, hr, h⟩ := Check.andThen_eq_ok.1 h
  obtain ⟨_, progress, h, -, hsnapshot⟩ := Check.seq_eq_ok.1 h
  obtain ⟨scenario, hscenario, hfirst⟩ := Check.map_eq_ok.1 h
  subst hfirst hsnapshot
  obtain rfl := fields_eq_ok.1 hr
  exact Scenario.gives_check.required (Value.finiteEntries_iff.1 hv) hscenario

theorem ordered_of_ofValue {now : Timestamp} {v : Value} (hv : v.Distinct) {snapshot : Snapshot}
    (h : ofValue now v = .ok snapshot) : snapshot.scenario.Ordered := by
  obtain ⟨r, hr, h⟩ := Check.andThen_eq_ok.1 h
  obtain ⟨_, progress, h, -, hsnapshot⟩ := Check.seq_eq_ok.1 h
  obtain ⟨scenario, hscenario, hfirst⟩ := Check.map_eq_ok.1 h
  subst hfirst hsnapshot
  obtain rfl := fields_eq_ok.1 hr
  obtain ⟨w, hw, hscenario⟩ := required_eq_ok.1 hscenario
  exact Scenario.ordered_of_check (hv.2.get hw) hscenario

end Snapshot

end Playscript
