import Playscript.Proofs.Session.Telling

/-!
# Resuming

A snapshot holds the scenario and how far the session has come, but not the settings the script was
compiled under. A session that is resumed from one stages the scenario anew. It goes on as the first
one would have if the scenario staged anew looks as it did.
-/
namespace Playscript

namespace Session

/-- If the session has a snapshot, a new one under its settings can load it, and from there on
answers as the session itself. -/
def Resumes (s : Session) : Prop :=
  ∀ snapshot t, save.run s = .ok (some snapshot) t → ∀ now, ∃ u,
    (perform now (.load snapshot.toValue)).run (new s.config) = .ok .done u ∧ SameReplies t u

theorem stagingSettings_congr {config config' : Config}
    (h : config'.defaultPlaceholder = config.defaultPlaceholder) :
    stagingSettings config' = stagingSettings config := by
  funext given
  simp only [stagingSettings, h]

theorem exists_ofScenario (config : Config) (scenario : Scenario) :
    ∃ other, Staging.ofScenario scenario (stagingSettings config []) = .ok other ∧
      other.scenario = scenario := by
  rw [stagingSettings]
  split_ifs
  · exact ⟨_, rfl, rfl⟩
  · exact ⟨_, rfl, rfl⟩

theorem run_load [DataModel] {config : Config} (h : config.Hookless) {now : Timestamp} {v : Value}
    {snapshot : Snapshot} (hread : Snapshot.ofValue now v = .ok snapshot) {other : Staging}
    (hother : Staging.ofScenario snapshot.scenario (stagingSettings config []) = .ok other) :
    (perform now (.load v)).run (new config) =
      .ok .done ⟨config, some other, some snapshot.progress, []⟩ := by
  have hload : (load snapshot).run (new config) =
      .ok () ⟨config, some other, some snapshot.progress, []⟩ := by
    simp only [load, run_get_bind, new]
    rw [hother]
    refine (run_bind_ok (run_ofExcept_ok other _)).trans ?_
    refine (run_bind_ok rfl).trans ((run_bind_ok (run_runHooks h _ _)).trans ?_)
    rfl
  simp only [perform, hread]
  refine (run_bind_ok (run_ofExcept_ok snapshot _)).trans ?_
  rw [run_bind_ok hload]
  rfl

/-! ## Starting -/

def started (config : Config) (scenario : Scenario) : Progress :=
  { Progress.initial scenario with
    log := if config.fullLog.truthy then some [] else none
    cost := if config.costOnly.truthy then some .empty else none }

variable {config : Config} {now : Timestamp} {source : Source} {text : String} {given : Value}

theorem step_init_error {fault : Fault}
    (hstage : source.stage (stagingSettings config <$> given.toRecordIfGiven) = .error fault) :
    (step now (new config) (.init source given)).2 = new config := by
  have hrun : (perform now (.init source given)).run (new config) = .error fault (new config) := by
    apply run_bind_error
    simp only [init, run_get_bind, new]
    rw [hstage]
    rfl
  simp only [step, hrun]

theorem step_init_ok (h : config.Hookless) {staging : Staging}
    (hstage : source.stage (stagingSettings config <$> given.toRecordIfGiven) = .ok staging) :
    (step now (new config) (.init source given)).2 =
      ⟨config, some staging, some (started config staging.scenario), []⟩ := by
  have hinit : (init source given).run (new config) =
      .ok () ⟨config, some staging, some (started config staging.scenario), []⟩ := by
    simp only [init, run_get_bind, new]
    rw [hstage]
    refine (run_bind_ok (run_ofExcept_ok staging _)).trans ?_
    refine (run_bind_ok rfl).trans ((run_bind_ok (run_runHooks h _ _)).trans ?_)
    rfl
  have hrun : (perform now (.init source given)).run (new config) = .ok .done _ :=
    run_bind_ok hinit
  simp only [step, hrun]

theorem finite_of_textual {s : Scenario} (h : s.Textual) :
    ∀ entry ∈ s.acts, ∀ message ∈ entry.2.messages, Value.FiniteEntries message := by
  intro entry hentry message hmessage
  apply Value.finiteEntries_iff.2
  intro field hfield
  obtain ⟨t, ht⟩ := (h entry hentry).2 message hmessage field hfield
  rw [ht]
  trivial

theorem started_sound (config : Config) (scenario : Scenario) :
    (started config scenario).Sound :=
  Progress.sound_iff.2 (madeOf_initial scenario _ _)

theorem ofText_of_stage {given : Except Fault Record} {staging : Staging}
    (h : (Source.text text).stage given = .ok staging) :
    ∃ given', Staging.ofText text given' = .ok staging := by
  cases given with
  | error fault => cases h
  | ok given' => exact ⟨given', h⟩

theorem sound_of_init (h : config.Plain)
    (hlooks : ∀ staging,
      (Source.text text).stage (stagingSettings config <$> given.toRecordIfGiven) = .ok staging →
      DataModel.holds staging.scenario.values = true →
      ∃ other, Staging.ofScenario staging.scenario.stored (stagingSettings config []) = .ok other ∧
        staging.LooksAlike other) :
    Sound (stagingSettings config []) (step now (new config) (.init (.text text) given)).2 := by
  cases hstage : (Source.text text).stage (stagingSettings config <$> given.toRecordIfGiven) with
  | error fault =>
    rw [step_init_error hstage]
    exact ⟨h, rfl, fun _ hs => absurd hs (Option.not_mem_none _),
      fun _ hp => absurd hp (Option.not_mem_none _)⟩
  | ok staging =>
    rw [step_init_ok h.hookless hstage]
    obtain ⟨given', hof⟩ := ofText_of_stage hstage
    refine ⟨h, rfl, fun other hother => ?_, fun p hp => ?_⟩
    · cases hother
      exact ⟨finite_of_textual (Staging.textual_of_ofText hof), Staging.ordered_of_ofText hof,
        hlooks staging hstage⟩
    · cases hp
      exact started_sound config staging.scenario

/-! ## Going on -/

theorem holds_of_values {scenario : Scenario} {progress : Progress}
    (h : DataModel.holds (Snapshot.values ⟨scenario, progress⟩) = true) :
    DataModel.holds scenario.values = true := by
  rw [DataModel.holds_iff] at h ⊢
  exact fun v hv => h v (List.mem_append_left _ hv)

theorem run_load_saved (now : Timestamp) {staging other : Staging} {progress : Progress}
    (h : config.Hookless) (hordered : staging.scenario.Ordered) (hprogress : progress.Sound)
    (hother : Staging.ofScenario staging.scenario.stored (stagingSettings config []) = .ok other) :
    (perform now (.load (Snapshot.toValue ⟨staging.scenario, progress⟩))).run (new config) =
      .ok .done ⟨config, some other, some progress.settled, []⟩ :=
  run_load h (Snapshot.ofValue_toValue now hordered hprogress) hother

theorem matched_of_looksAlike {staging other : Staging} (hordered : staging.scenario.Ordered)
    (hother : other.scenario = staging.scenario.stored) (h : staging.LooksAlike other) :
    staging.Matched other where
  ordered := hordered
  order := by rw [hother, Scenario.order_stored hordered]
  keys := by rw [hother, Scenario.keys_stored]
  looks := h

theorem Sound.resumes {settings : Record} {s : Session} (h : Sound settings s) : Resumes s := by
  intro snapshot t hsave now
  obtain ⟨⟨staging, progress⟩, hcurrent⟩ := current?_of_save h.config.hookless hsave
  obtain ⟨hlasting, hprogress⟩ := h.of_current hcurrent
  rw [run_save h.config.hookless hcurrent] at hsave
  split_ifs at hsave with hholds
  cases hsave
  obtain ⟨config, staged, begun, calls⟩ := s
  obtain ⟨rfl, rfl⟩ : staged = some staging ∧ begun = some progress := eq_of_current? hcurrent
  obtain ⟨other, hother, hlooks⟩ := hlasting.again (holds_of_values hholds)
  have hmatched := matched_of_looksAlike hlasting.ordered (Staging.scenario_of_ofScenario hother)
    hlooks
  obtain rfl : stagingSettings config [] = settings := h.given
  refine ⟨_, run_load_saved now h.config.hookless hlasting.ordered hprogress hother, ?_⟩
  have hcost : (progress.cost.map Ledger.settled).map Ledger.settled =
      progress.cost.map Ledger.settled := by
    rw [Option.map_map, funext Ledger.settled_settled (f := Ledger.settled ∘ Ledger.settled)]
  exact Alike.sameReplies hmatched ⟨h.config.hookless, progress, hcost, calls, []⟩

theorem textual_stored {s : Scenario} (h : s.Textual) : s.stored.Textual := by
  intro entry hentry
  obtain ⟨⟨name, act⟩, hact, rfl⟩ := List.mem_map.1 hentry
  obtain ⟨hname, htexts⟩ := h _ hact
  refine ⟨hname, fun message hmessage field hfield => ?_⟩
  obtain ⟨written, hwritten, rfl⟩ := List.mem_map.1 hmessage
  rw [DataModel.plainEntries_eq_self (finite_of_textual h _ hact written hwritten)] at hfield
  exact htexts written hwritten field hfield

theorem looksAlike_of_resumes {placeholder : Value} {staging : Staging}
    (htextual : staging.scenario.Textual) (hordered : staging.scenario.Ordered)
    (hholds : DataModel.holds staging.scenario.values = true) {other : Staging}
    (hother : Staging.ofScenario staging.scenario.stored
      (stagingSettings (tellingConfig placeholder []) []) = .ok other)
    (h : ∀ expected,
      Resumes (opened (tellingConfig placeholder expected) staging staging.scenario)) :
    staging.LooksAlike other := by
  have hscenario := Staging.scenario_of_ofScenario hother
  refine looksAlike_of_sameReplies placeholder hordered htextual ?_ ?_ ?_ fun expected => ?_
  · rw [hscenario]
    exact textual_stored htextual
  · rw [hscenario, Scenario.order_stored hordered]
  · rw [hscenario, Scenario.keys_stored]
  · have hplain := tellingConfig_plain placeholder expected
    have hstarted : started (tellingConfig placeholder expected) staging.scenario =
        Progress.initial staging.scenario := rfl
    have hinitial : (Progress.initial staging.scenario).Sound :=
      started_sound (tellingConfig placeholder expected) staging.scenario
    have hvalues : Snapshot.values ⟨staging.scenario, Progress.initial staging.scenario⟩ =
        staging.scenario.values := List.append_nil _
    have hsave := run_save
      (s := opened (tellingConfig placeholder expected) staging staging.scenario)
      hplain.hookless rfl
    rw [hvalues, if_pos hholds] at hsave
    obtain ⟨u, hload, hsame⟩ := h expected _ _ hsave default
    have hopened := run_load_saved default hplain.hookless hordered hinitial hother
    cases hload.symm.trans hopened
    exact hsame

theorem looksAlike_of_started {staging other : Staging}
    (hstage : (Source.text text).stage (stagingSettings config <$> given.toRecordIfGiven) =
      .ok staging)
    (hholds : DataModel.holds staging.scenario.values = true)
    (hother : Staging.ofScenario staging.scenario.stored (stagingSettings config []) = .ok other)
    (h : ∀ expected, ∃ now, Resumes
      (step now (new (tellingConfig config.defaultPlaceholder expected))
        (.init (.text text) given)).2) :
    staging.LooksAlike other := by
  obtain ⟨given', hof⟩ := ofText_of_stage hstage
  have hsettings : ∀ expected, stagingSettings (tellingConfig config.defaultPlaceholder expected) =
      stagingSettings config := fun _ => stagingSettings_congr rfl
  apply looksAlike_of_resumes (Staging.textual_of_ofText hof) (Staging.ordered_of_ofText hof) hholds
    (hsettings [] ▸ hother)
  intro expected
  obtain ⟨now, hresumes⟩ := h expected
  rw [← hsettings expected] at hstage
  rwa [step_init_ok (tellingConfig_plain _ expected).hookless hstage] at hresumes

theorem resumes_of_looksAlike (hplain : config.Plain)
    (h : ∀ staging,
      (Source.text text).stage (stagingSettings config <$> given.toRecordIfGiven) = .ok staging →
      DataModel.holds staging.scenario.values = true →
      ∃ other, Staging.ofScenario staging.scenario.stored (stagingSettings config []) = .ok other ∧
        staging.LooksAlike other)
    (now : Timestamp) {before : List (Timestamp × Command)}
    (hbefore : ∀ c ∈ before, c.1.Valid ∧ c.2.Plain) :
    Resumes (run (new config) ((now, .init (.text text) given) :: before)).2 := by
  have hstart : Sound (stagingSettings config [])
      (step now (new config) (.init (.text text) given)).2 := sound_of_init hplain h
  exact (run_sound hstart hbefore).resumes

/-- Resuming is invisible, whatever the settings beside the text for placeholders without a value
and whatever has come before, exactly if the scenario of the script, staged anew from what a
snapshot holds, looks as it did. -/
theorem resuming_invisible_iff (config : Config) (text : String) (given : Value) :
    (∀ config' : Config, config'.Plain → config'.defaultPlaceholder = config.defaultPlaceholder →
      ∀ (now : Timestamp) (before : List (Timestamp × Command)),
        (∀ c ∈ before, c.1.Valid ∧ c.2.Plain) →
        Resumes (run (new config') ((now, .init (.text text) given) :: before)).2) ↔
    ∀ staging,
      (Source.text text).stage (stagingSettings config <$> given.toRecordIfGiven) = .ok staging →
      DataModel.holds staging.scenario.values = true →
      ∃ other, Staging.ofScenario staging.scenario.stored (stagingSettings config []) = .ok other ∧
        staging.LooksAlike other := by
  constructor
  · intro h staging hstage hholds
    obtain ⟨other, hother, -⟩ := exists_ofScenario config staging.scenario.stored
    refine ⟨other, hother, looksAlike_of_started hstage hholds hother fun expected => ?_⟩
    exact ⟨_, h _ (tellingConfig_plain _ expected) rfl default [] fun _ hc =>
      absurd hc List.not_mem_nil⟩
  · intro h config' hplain hplaceholder now before hbefore
    rw [← stagingSettings_congr hplaceholder] at h
    exact resumes_of_looksAlike hplain h now hbefore

/-! ## What is lost -/

theorem roleKey_of_ofScenario {scenario : Scenario} {other : Staging}
    (hother : Staging.ofScenario scenario (stagingSettings config []) = .ok other)
    (hscript : Path.find (.dict scenario.overrides) ["keys", "role"] = .null) :
    other.roleKey = "role" := by
  have hfind : Path.find (.dict other.settings) ["keys", "role"] = .str "role" := by
    unfold stagingSettings at hother
    split_ifs at hother
    · cases hother
      rfl
    · cases hother
      rfl
  have hscenario := Staging.scenario_of_ofScenario hother
  simp only [Staging.roleKey, Staging.setting, Staging.settingValue, hscenario, hscript, hfind]
  rfl

theorem not_resumes_of_roleKey {staging : Staging}
    (hstage : (Source.text text).stage (stagingSettings config <$> given.toRecordIfGiven) =
      .ok staging)
    (hholds : DataModel.holds staging.scenario.values = true)
    (hscript : Path.find (.dict staging.scenario.stored.overrides) ["keys", "role"] = .null)
    (hkey : staging.roleKey ≠ "role") :
    ∃ config' : Config, config'.Plain ∧ config'.defaultPlaceholder = config.defaultPlaceholder ∧
      ∀ now, ¬ Resumes (step now (new config') (.init (.text text) given)).2 := by
  obtain ⟨other, hother, -⟩ := exists_ofScenario config staging.scenario.stored
  by_contra hall
  push Not at hall
  have hlooks := looksAlike_of_started hstage hholds hother fun expected =>
    hall _ (tellingConfig_plain _ expected) rfl
  exact hkey (hlooks.roleKey.trans (roleKey_of_ofScenario hother hscript))

/-! ## Scripts that are staged anew as they were -/

theorem resumes_of_sameTexts (hplain : config.Plain)
    (h : ∀ staging,
      (Source.text text).stage (stagingSettings config <$> given.toRecordIfGiven) = .ok staging →
      ∃ other, Staging.ofScenario staging.scenario.stored (stagingSettings config []) = .ok other ∧
        staging.SameTexts other)
    (now : Timestamp) {before : List (Timestamp × Command)}
    (hbefore : ∀ c ∈ before, c.1.Valid ∧ c.2.Plain) :
    Resumes (run (new config) ((now, .init (.text text) given) :: before)).2 := by
  refine resumes_of_looksAlike hplain (fun staging hstage _ => ?_) now hbefore
  obtain ⟨other, hother, hsame⟩ := h staging hstage
  exact ⟨other, hother, hsame.looksAlike⟩

theorem sharedParts_of_stagingSettings {settings : Record}
    (h : Settings.overlay Settings.defaults (stagingSettings config []) = .ok settings) :
    Staging.sharedParts settings = [] := by
  rw [stagingSettings] at h
  split_ifs at h
  · cases h
    rfl
  · cases h
    rfl

theorem ofScenario_of_ofText {staging : Staging}
    (h : Staging.ofText text (stagingSettings config []) = .ok staging) :
    Staging.ofScenario staging.scenario (stagingSettings config []) = .ok staging := by
  obtain ⟨settings, hsettings, rfl⟩ := Staging.exists_run_of_ofText h
  rw [sharedParts_of_stagingSettings hsettings, Sharing.follow_nil]
  simp only [Staging.ofScenario, hsettings, bind, Except.bind, pure, Except.pure]

theorem resumes_of_no_settings (hplain : config.Plain)
    (hstored : ∀ staging, Staging.ofText text (stagingSettings config []) = .ok staging →
      staging.scenario.stored = staging.scenario)
    (now : Timestamp) {before : List (Timestamp × Command)}
    (hbefore : ∀ c ∈ before, c.1.Valid ∧ c.2.Plain) :
    Resumes (run (new config) ((now, .init (.text text) .null) :: before)).2 := by
  refine resumes_of_sameTexts hplain (fun staging hstage => ?_) now hbefore
  have hof : Staging.ofText text (stagingSettings config []) = .ok staging := hstage
  refine ⟨staging, ?_, rfl, rfl, rfl, rfl, rfl, rfl⟩
  rw [hstored staging hof]
  exact ofScenario_of_ofText hof

end Session

end Playscript
