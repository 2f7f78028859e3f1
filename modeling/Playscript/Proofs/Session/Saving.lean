import Playscript.Proofs.Session.Queue
import Playscript.Proofs.Session.Resuming

/-!
# Saving what a session has come to

The snapshot of a session without hooks, whose actions are fixed records, is read back as what the
session has come to, if all that it has come to is made of lists, records, texts and finite numbers.
-/
namespace Playscript

def Action.IsFixed (action : Action) : Prop :=
  action = .fixed .null ∨ ∃ entries, action = .fixed (.dict entries)

structure Config.Fixed (config : Config) : Prop where
  hookless : config.Hookless
  actions : ∀ actions, config.actions = .proper actions → ∀ entry ∈ actions, entry.2.IsFixed

namespace Config

theorem setField_actions (config : Config) {name : String} (hname : name ≠ "actions")
    (value : Value) : (config.setField name value).actions = config.actions := by
  rw [setField]
  split_ifs <;> simp_all

theorem Hookless.of_hooks {config config' : Config} (h : config.Hookless)
    (hhooks : config'.hooks = config.hooks) : config'.Hookless := by
  obtain ⟨table, htable, hnone⟩ := h
  exact ⟨table, hhooks.trans htable, hnone⟩

theorem Fixed.setField {config : Config} (h : config.Fixed) {name : String} {value : Value}
    (hvalue : (default.setField name value).Fixed) : (config.setField name value).Fixed where
  hookless := by
    by_cases hname : name = "hooks"
    · subst hname
      exact hvalue.hookless.of_hooks rfl
    · exact h.hookless.of_hooks (setField_hooks config hname value)
  actions := by
    by_cases hname : name = "actions"
    · subst hname
      exact hvalue.actions
    · rw [setField_actions config hname value]
      exact h.actions

theorem Fixed.update {config config' : Config} (h : config.Fixed) {values : Record}
    (hvalues : ∀ entry ∈ values, (default.setField entry.1 entry.2).Fixed)
    (h' : config.update values = .ok config') : config'.Fixed := by
  rw [update_eq_ok h']
  clear h'
  induction values generalizing config with
  | nil => exact h
  | cons entry rest ih =>
    obtain ⟨hentry, hrest⟩ := List.forall_mem_cons.1 hvalues
    exact ih (h.setField hentry) hrest

theorem Fixed.addAction {config config' : Config} (h : config.Fixed) {role : String}
    {action : Action} (haction : action.IsFixed) (h' : config.addAction role action = .ok config') :
    config'.Fixed := by
  obtain ⟨actions, hactions, rfl⟩ := addAction_eq_ok h'
  refine ⟨h.hookless, fun table htable entry hentry => ?_⟩
  cases htable
  rcases Table.mem_set hentry with hentry | rfl
  · exact h.actions actions hactions entry hentry
  · exact haction

end Config

/-! ## Values of a snapshot -/

theorem finiteEntries_of_values {r : Record} (h : ∀ v ∈ Table.values r, v.Finite) :
    Value.FiniteEntries r :=
  Value.finiteEntries_iff.2 fun entry hentry => h entry.2 (List.mem_map_of_mem hentry)

theorem finiteRecords_of_contents {vs : List Value}
    (hrecords : ∀ v ∈ vs, v.IsRecordOf fun _ => True)
    (h : ∀ v ∈ vs.flatMap Value.contents, v.Finite) : ∀ v ∈ vs, v.IsFiniteRecord := by
  intro v hv
  obtain ⟨entries, rfl, -⟩ := hrecords v hv
  exact ⟨entries, rfl, finiteEntries_of_values fun w hw => h w (List.mem_flatMap.2 ⟨_, hv, hw⟩)⟩

theorem Scenario.finite_of_values {s : Scenario} (h : ∀ v ∈ s.values, v.Finite) : s.Finite := by
  obtain ⟨hacts, hconfig⟩ := List.forall_mem_append.1 h
  refine ⟨fun entry hentry => ?_, finiteEntries_of_values hconfig⟩
  have hact : ∀ v ∈ entry.2.values, v.Finite := fun v hv =>
    hacts v (List.mem_flatMap.2 ⟨entry.2, List.mem_map_of_mem hentry, hv⟩)
  obtain ⟨hfirst, hown⟩ := List.forall_mem_append.1 hact
  obtain ⟨hmessages, hplaceholders⟩ := List.forall_mem_append.1 hfirst
  refine ⟨fun message hmessage => finiteEntries_of_values fun v hv => ?_,
    finiteEntries_of_values hplaceholders, finiteEntries_of_values hown⟩
  exact hmessages v (List.mem_flatMap.2 ⟨message, hmessage, hv⟩)

theorem Progress.sound_of_values {p : Progress} (hmade : p.MadeOf fun _ => True)
    (h : ∀ v ∈ p.values, v.Finite) : p.Sound := by
  obtain ⟨messages, hhistory, hrecords⟩ := hmade.history
  unfold values at h
  rw [hhistory] at h
  obtain ⟨h, hcost⟩ := List.forall_mem_append.1 h
  obtain ⟨h, hlogged⟩ := List.forall_mem_append.1 h
  obtain ⟨h, hcontext⟩ := List.forall_mem_append.1 h
  obtain ⟨hhistory', hcontexts⟩ := List.forall_mem_append.1 h
  refine ⟨⟨messages, hhistory, finiteRecords_of_contents hrecords hhistory'⟩,
    finiteRecords_of_contents hmade.contexts hcontexts, finiteEntries_of_values hcontext,
    fun entries hentries entry hentry => ?_, fun ledger hledger usage husage => ?_⟩
  · have hentry' : ∀ v ∈ entry.values, v.Finite := fun v hv => by
      refine hlogged v (List.mem_flatMap.2 ⟨entry, ?_, hv⟩)
      rwa [Option.mem_def.1 hentries]
    obtain ⟨hrequest, hrest⟩ := List.forall_mem_cons.1 hentry'
    obtain ⟨hresponse, hextra⟩ := List.forall_mem_cons.1 hrest
    have hshape := hmade.log entries hentries entry hentry
    exact ⟨hshape.timestamp, hrequest, hresponse, finiteEntries_of_values hextra,
      hshape.extra.apart⟩
  · rw [Option.mem_def.1 hledger] at hcost
    exact ⟨hcost _ (List.mem_map.2 ⟨usage, husage, rfl⟩),
      (hmade.cost ledger hledger usage husage).apart⟩

theorem Ledger.values_settled (ledger : Ledger) : ledger.settled.values = ledger.values := by
  rw [values, requests_settled]
  rfl

namespace Snapshot

theorem values_settled (scenario : Scenario) (p : Progress) :
    values ⟨scenario, p.settled⟩ = values ⟨scenario, p⟩ := by
  cases hcost : p.cost with
  | none => simp only [values, Progress.values, Progress.settled, Progress.logged, hcost,
      Option.map_none]
  | some ledger =>
    simp only [values, Progress.values, Progress.settled, Progress.logged, hcost, Option.map_some,
      Option.elim_some, Ledger.values_settled]

theorem toValue_settled [DataModel] (scenario : Scenario) (p : Progress) :
    toValue ⟨scenario, p.settled⟩ = toValue ⟨scenario, p⟩ := by
  cases hcost : p.cost with
  | none => simp only [toValue, Progress.settled, hcost, Option.map_none]
  | some ledger =>
    simp only [toValue, Progress.settled, hcost, Option.map_some, Ledger.toValue,
      Ledger.requests_settled]
    rfl

end Snapshot

namespace Session

/-- A command that goes on with a session without hooks and hands messages over as records. -/
def Command.Shaped : Command → Prop
  | .reload .. | .addHook .. => False
  | .init source _ => source.Sound
  | .load v => v.Distinct
  | .resume snapshot => snapshot.scenario.Ordered ∧ snapshot.progress.MadeOf fun _ => True
  | .addAction _ action => action.IsFixed
  | .update values => ∀ entry ∈ values, (Config.default.setField entry.1 entry.2).Fixed
  | .answer message => message.IsRecordOf fun _ => True
  | .pushMessages messages => ∀ m ∈ messages.oneOrSeveral, m.IsRecordOf fun _ => True
  | .addUsage request => request.MadeOf fun _ => True
  | _ => True

abbrev Shaped : Session → Prop :=
  Kept Config.Fixed (fun staging => staging.scenario.Ordered) fun _ => True

theorem keeping_shape :
    Keeping Config.Fixed (fun staging => staging.scenario.Ordered) fun _ => True where
  values := Value.hereditary_any
  hookless := fun _ h => h.hookless
  actions := by
    intro config h actions hactions entry hentry
    obtain hnone | ⟨entries, hfixed⟩ := h.actions actions hactions entry hentry
    · rw [hnone]
      exact fun m hm => by cases hm
    · rw [hfixed]
      exact messagesOf_dict fun _ _ => trivial
  built := fun _ _ _ _ _ _ _ _ _ _ => trivial

section Library

variable [DataModel] [DataModel.Documented]

theorem perform_shaped {now : Timestamp} (hnow : now.Valid) {command : Command}
    (h : command.Shaped) : Keeps Shaped (perform now command) := by
  have hkeeping := keeping_shape
  cases command with
  | reload | addHook => exact h.elim
  | init source given =>
    exact fun s hs => (hkeeping.init_kept hs fun _ => h.ordered).bind_pure _
  | load v =>
    intro s hs
    refine ensures_bind.2 (ensures_ofExcept.2 ⟨fun snapshot hread => ?_, fun _ _ => hs⟩)
    have hmade := Snapshot.madeOf_of_ofValue Value.hereditary_any hnow trivial hread
    refine (hkeeping.load_kept hs (fun staging hstaging => ?_) hmade).bind_pure _
    rw [Staging.scenario_of_ofScenario hstaging]
    exact Snapshot.ordered_of_ofValue h hread
  | resume snapshot =>
    refine fun s hs => (hkeeping.load_kept hs (fun staging hstaging => ?_) h.2).bind_pure _
    rw [Staging.scenario_of_ofScenario hstaging]
    exact h.1
  | addAction role action =>
    exact Keeping.configure_kept (fun _ _ hc hc' => Config.Fixed.addAction hc h hc') _
  | update values =>
    exact Keeping.configure_kept (fun _ _ hc hc' => Config.Fixed.update hc h hc') _
  | answer | pushMessages | addUsage => exact hkeeping.perform_kept hnow h
  | execute | next => exact hkeeping.perform_kept hnow fun _ _ _ _ _ => trivial
  | pushContexts contexts => exact hkeeping.perform_kept hnow fun _ _ _ _ _ _ => trivial
  | addCost cost => exact hkeeping.perform_kept hnow fun _ _ _ _ => trivial
  | log request response rest =>
    exact hkeeping.perform_kept hnow ⟨trivial, trivial, fun _ _ => trivial⟩
  | _ => exact hkeeping.perform_kept hnow trivial

theorem run_shaped {config : Config} (h : config.Fixed) {commands : List (Timestamp × Command)}
    (hcommands : ∀ c ∈ commands, c.1.Valid ∧ c.2.Shaped) :
    Shaped (run (new config) commands).2 := by
  have hnew : Shaped (new config) := ⟨h, fun _ hs => absurd hs (Option.not_mem_none _),
    fun _ hp => absurd hp (Option.not_mem_none _)⟩
  exact run_leaves (fun c hc => perform_shaped (hcommands c hc).1 (hcommands c hc).2) hnew

/-! ## Saved and read back -/

omit [DataModel.Documented] in
theorem step_save {s : Session} (h : s.config.Hookless) (now : Timestamp) {staging : Staging}
    {progress : Progress} (hcurrent : s.current? = some (staging, progress)) :
    step now s .save = (if DataModel.holds (Snapshot.values ⟨staging.scenario, progress⟩)
      then .ok (.value (Snapshot.toValue ⟨staging.scenario, progress⟩))
      else .error .tooDeep, s) := by
  have hsave := run_save h hcurrent
  split_ifs at hsave ⊢ with hholds
  · simp only [step, perform, run_bind_ok hsave]
    rfl
  · simp only [step, perform, run_bind_error hsave]

/-- What a session without hooks and with fixed actions has come to is saved without loss, if it is
made of lists, records, texts and finite numbers and has no more levels than the library of data
models writes: its snapshot is read back as the scenario that is played and all that was played and
recorded, and a session that loads it has the same snapshot. -/
theorem saved_without_loss {config : Config} (hconfig : config.Fixed)
    {commands : List (Timestamp × Command)}
    (hcommands : ∀ c ∈ commands, c.1.Valid ∧ c.2.Shaped) {s : Session}
    (hs : (run (new config) commands).2 = s) {staging : Staging} {progress : Progress}
    (hcurrent : s.current? = some (staging, progress))
    (hfinite : ∀ v ∈ Snapshot.values ⟨staging.scenario, progress⟩, v.Finite) (later : Timestamp) :
    let snapshot : Snapshot := ⟨staging.scenario, progress⟩
    step later s .save = (if DataModel.holds snapshot.values
      then .ok (.value snapshot.toValue) else .error .tooDeep, s) ∧
    Snapshot.ofValue later snapshot.toValue = .ok ⟨staging.scenario, progress.settled⟩ ∧
    ∀ other : Config, other.Hookless → ∃ t,
      step later (new other) (.load snapshot.toValue) = (.ok .done, t) ∧
      (step later t .save).1 = (step later s .save).1 := by
  intro snapshot
  have hshaped : Shaped s := hs ▸ run_shaped hconfig hcommands
  obtain ⟨hordered, hmade⟩ := hshaped.of_current hcurrent
  obtain ⟨hscenario, hprogress⟩ := List.forall_mem_append.1 hfinite
  have hsound : progress.Sound := Progress.sound_of_values hmade hprogress
  have hstored : staging.scenario.stored = staging.scenario :=
    Scenario.stored_eq_self (Scenario.finite_of_values hscenario)
  have hread : Snapshot.ofValue later snapshot.toValue =
      .ok ⟨staging.scenario, progress.settled⟩ := by
    rw [Snapshot.ofValue_toValue later hordered hsound, hstored]
  have hsave := step_save hshaped.config.hookless later hcurrent
  refine ⟨hsave, hread, fun other hother => ?_⟩
  obtain ⟨staged, hstaged, hsame⟩ := exists_ofScenario other staging.scenario
  have hload := run_load hother hread hstaged
  refine ⟨⟨other, some staged, some progress.settled, []⟩, by simp only [step, hload, snapshot], ?_⟩
  rw [hsave, step_save (s := ⟨other, some staged, some progress.settled, []⟩) hother later rfl,
    hsame, Snapshot.values_settled, Snapshot.toValue_settled]

end Library

/-- A session that played the only act of a script under a context, kept a log and counted costs is
read back from its snapshot. -/
theorem played_script_read_back :
    let config : Config := { Config.default with fullLog := .bool true, costOnly := .bool true }
    let now : Timestamp := ⟨1970, 1, 1, 0, 0, 0, 0, none⟩
    let commands : List (Timestamp × Command) := [
      (now, .init (.text "user:\nHi") .null),
      (now, .next (.dict [("x", .int 1)]) false),
      (now, .answer (.dict [("role", .str "assistant")])),
      (now, .addUsage (.usage ⟨1, 2, 3, [("cached", .int 1)]⟩)),
      (now, .addUsage .totals),
      (now, .log (.str "q") (.str "r") [("model", .str "m")])]
    let s := (run (new config) commands).2
    ∃ snapshot read : Snapshot, step now s .save = (.ok (.value snapshot.toValue), s) ∧
      Snapshot.ofValue now snapshot.toValue = .ok read ∧
      read.progress.act = some "default" ∧
      read.progress.log.map List.length = some 1 ∧
      read.progress.cost.map (·.requests.map Usage.total) = some [3, 6] ∧
      read.progress.cost.map (·.totals.total) = some 6 := by
  intro config now commands s
  have hconfig : config.Fixed :=
    ⟨⟨[], rfl, fun _ h => absurd h List.not_mem_nil⟩, fun _ h _ he => by
      cases h
      exact absurd he List.not_mem_nil⟩
  have hcommands : ∀ c ∈ commands, c.1.Valid ∧ c.2.Shaped := by
    have hnow : now.Valid := Timestamp.valid_epoch
    simp [commands, hnow, Command.Shaped, Source.Sound, Value.IsRecordOf, Usage.names,
      Ledger.Request.MadeOf, Beside.mk]
  have hgoes : s.current?.isSome = true := by decide +kernel
  obtain ⟨⟨staging, progress⟩, hcurrent⟩ := Option.isSome_iff_exists.1 hgoes
  have hfinite : ∀ here ∈ s.current?,
      ∀ v ∈ Snapshot.values ⟨here.1.scenario, here.2⟩, v.Finite := by
    decide +kernel
  have hholds : ∀ here ∈ s.current?,
      DataModel.holds (Snapshot.values ⟨here.1.scenario, here.2⟩) = true := by decide +kernel
  have hreached : ∀ here ∈ s.current?, here.2.settled.act = some "default" ∧
      here.2.settled.log.map List.length = some 1 ∧
      here.2.settled.cost.map (·.requests.map Usage.total) = some [3, 6] ∧
      here.2.settled.cost.map (·.totals.total) = some 6 := by
    decide +kernel
  obtain ⟨hsave, hread, -⟩ := saved_without_loss hconfig hcommands rfl hcurrent
    (hfinite _ hcurrent) now
  rw [if_pos (hholds _ hcurrent)] at hsave
  exact ⟨_, _, hsave, hread, hreached _ hcurrent⟩

/-- A logged pair is read back as a list, and content of too many levels keeps a session from being
saved. -/
theorem pair_read_back_as_list :
    let config : Config := { Config.default with fullLog := .bool true }
    let now : Timestamp := ⟨1970, 1, 1, 0, 0, 0, 0, none⟩
    let pair : Value := .tuple [.int 1, .int 2]
    let deep : Value := Nat.repeat (fun v => .list [v]) 255 .null
    let commands : List (Timestamp × Command) :=
      [(now, .init (.text "user:\nHi") .null), (now, .log pair (.str "r") [])]
    let s := (run (new config) commands).2
    let t := (run (new config) (commands ++ [(now, .answer (.dict [("content", deep)]))])).2
    let logged := fun snapshot : Snapshot =>
      snapshot.progress.log.map (·.map fun entry => String.ofList entry.request.text)
    (∃ snapshot read : Snapshot, s.progress = some snapshot.progress ∧
      step now s .save = (.ok (.value snapshot.toValue), s) ∧
      Snapshot.ofValue now snapshot.toValue = .ok read ∧
      logged snapshot = some ["(1, 2)"] ∧ logged read = some ["[1, 2]"]) ∧
    (step now t .save).1 = .error .tooDeep := by
  intro config now pair deep commands s t logged
  have hconfig : config.Fixed :=
    ⟨⟨[], rfl, fun _ h => absurd h List.not_mem_nil⟩, fun _ h _ he => by
      cases h
      exact absurd he List.not_mem_nil⟩
  have hs : Shaped s := by
    refine run_shaped hconfig ?_
    have hnow : now.Valid := Timestamp.valid_epoch
    simp [commands, hnow, Command.Shaped, Source.Sound]
  have ht : Shaped t := by
    refine run_shaped hconfig ?_
    have hnow : now.Valid := Timestamp.valid_epoch
    simp [commands, hnow, Command.Shaped, Source.Sound, Value.IsRecordOf]
  constructor
  · have hgoes : s.current?.isSome = true := by decide +kernel
    obtain ⟨⟨staging, progress⟩, hcurrent⟩ := Option.isSome_iff_exists.1 hgoes
    have hsaved : ∀ here ∈ s.current?,
        let snapshot : Snapshot := ⟨here.1.scenario, here.2⟩
        DataModel.holds snapshot.values = true ∧ logged snapshot = some ["(1, 2)"] ∧
          (Snapshot.ofValue now snapshot.toValue).toOption.map logged = some (some ["[1, 2]"]) := by
      decide +kernel
    obtain ⟨hholds, hlogged, hreads⟩ := hsaved _ hcurrent
    obtain ⟨read, hread, hlist⟩ := Option.map_eq_some_iff.1 hreads
    have hsave := step_save hs.config.hookless now hcurrent
    rw [if_pos hholds] at hsave
    exact ⟨_, read, (eq_of_current? hcurrent).2, hsave, toOption_eq_some.1 hread, hlogged, hlist⟩
  · have hgoes : t.current?.isSome = true := by decide +kernel
    obtain ⟨⟨staging, progress⟩, hcurrent⟩ := Option.isSome_iff_exists.1 hgoes
    have hdeep : ∀ here ∈ t.current?,
        DataModel.holds (Snapshot.values ⟨here.1.scenario, here.2⟩) = false := by decide +kernel
    rw [step_save ht.config.hookless now hcurrent, hdeep _ hcurrent]
    rfl

end Session

end Playscript
