import Playscript.Proofs.Session.Contexts
import Playscript.Proofs.Session.Onlookers
import Playscript.Proofs.Session.Queue

/-!
# The history of a session

A history only grows, and at its end: playing an act adds the messages of the act, a reply is added
as it is, and messages from outside are added as the hooks make them. Two stages are set apart,
before the next act and before saving, where the history is replaced by what the hooks there make
of it.
-/
namespace Playscript

def Value.listed (v : Value) : List Value := v.several.toOption.getD []

/-- A history with more messages at its end. What hooks have made no list takes none. -/
def Value.appended (history : Value) (added : List Value) : Value :=
  match history with
  | .list earlier => .list (earlier ++ added)
  | v => v

theorem Value.appended_nil (history : Value) : history.appended [] = history := by
  cases history with
  | list earlier => rw [appended, List.append_nil]
  | _ => rfl

theorem Value.appended_appended (history : Value) (added more : List Value) :
    (history.appended added).appended more = history.appended (added ++ more) := by
  cases history with
  | list earlier => simp only [appended, List.append_assoc]
  | _ => rfl

theorem Value.items_cases (v : Value) :
    (∃ items, v = .list items ∧ v.items = .ok items) ∨
      v.items = .error .notExtensible ∧ ∀ added, v.appended added = v := by
  cases v with
  | list items => exact Or.inl ⟨items, rfl, rfl⟩
  | _ => exact Or.inr ⟨rfl, fun _ => rfl⟩

def Stage.Rewrites : Stage → Prop
  | .beforeNext | .beforeSave => True
  | _ => False

namespace Config

/-- No hook ends the session, and none stands where the history is replaced. -/
structure Faithful (config : Config) : Prop where
  lasting : ∀ stage hooks, config.hooksAt stage = .ok hooks → ∀ hook ∈ hooks, hook.Lasting
  alone : ∀ stage : Stage, stage.Rewrites → ∀ hooks, config.hooksAt stage = .ok hooks → hooks = []

variable {config config' : Config}

theorem Faithful.of_hooks (h : config.Faithful) (hhooks : config'.hooks = config.hooks) :
    config'.Faithful := by
  have hat : ∀ stage, config'.hooksAt stage = config.hooksAt stage := fun stage => by
    simp only [hooksAt, hookTable, hhooks]
  exact ⟨fun stage hooks h' => h.lasting stage hooks (hat stage ▸ h'),
    fun stage hstage hooks h' => h.alone stage hstage hooks (hat stage ▸ h')⟩

theorem Faithful.addHook (h : config.Faithful) {stage : Stage} {hook : Hook}
    (hhook : hook.Lasting) (hstage : ¬ stage.Rewrites)
    (h' : config.addHook stage hook = .ok config') : config'.Faithful := by
  obtain ⟨table, hooks, htable, hslot, rfl⟩ := addHook_eq_ok h'
  have hbefore := h.lasting stage hooks ((hooksAt_eq htable stage).trans (exists_listed hslot))
  constructor
  · intro other hooks' hat
    rw [hooksAt_eq rfl, Table.get?_set] at hat
    split_ifs at hat with hname
    · cases hat
      exact List.forall_mem_append.2 ⟨hbefore, List.forall_mem_singleton.2 hhook⟩
    · exact h.lasting other hooks' ((hooksAt_eq htable other).trans hat)
  · intro other hother hooks' hat
    rw [hooksAt_eq rfl, Table.get?_set] at hat
    split_ifs at hat with hname
    · exact (hstage (Stage.eq_of_name hname ▸ hother)).elim
    · exact h.alone other hother hooks' ((hooksAt_eq htable other).trans hat)

theorem Faithful.update (h : config.Faithful) {values : Record}
    (hvalues : ∀ entry ∈ values, entry.1 = "hooks" → (default.setField entry.1 entry.2).Faithful)
    (h' : config.update values = .ok config') : config'.Faithful := by
  rw [update_eq_ok h']
  clear h'
  induction values generalizing config with
  | nil => exact h
  | cons entry rest ih =>
    obtain ⟨hentry, hrest⟩ := List.forall_mem_cons.1 hvalues
    refine ih ?_ hrest
    by_cases hname : entry.1 = "hooks"
    · apply (hentry hname).of_hooks
      simp only [hname]
      rfl
    · exact h.of_hooks (setField_hooks config hname entry.2)

end Config

namespace Session

/-! ## What is recorded -/

def played? (s : Session) (context act : Value) : Option Value :=
  match (execute context act).run s with
  | .ok messages _ => messages
  | .error _ _ => none

def playedNext? (s : Session) (context : Value) : Option Value :=
  s.goesOn?.bind fun (act, arrived) =>
    arrived.played? (if context.truthy then context else .dict []) (.str act)

def received (s : Session) (messages : Value) : List Value :=
  match (runHooks .beforePushMessage (.list messages.oneOrSeveral)).run s with
  | .ok made _ => made.listed
  | .error _ _ => []

/-- What a command adds to the history. -/
def Command.records (s : Session) : Command → List Value
  | .execute context act => (s.played? context act).elim [] Value.listed
  | .next context _ => (s.playedNext? context).elim [] Value.listed
  | .answer message => [message]
  | .pushMessages messages => s.received messages
  | _ => []

def recorded : Session → List (Timestamp × Command) → List Value
  | _, [] => []
  | s, (now, command) :: rest => command.records s ++ recorded (step now s command).2 rest

def Command.Faithful : Command → Prop
  | .addHook name hook => hook.Lasting ∧ ∀ stage, Stage.ofName name = .ok stage → ¬ stage.Rewrites
  | .update values => ∀ entry ∈ values, entry.1 = "hooks" →
      (Config.default.setField entry.1 entry.2).Faithful
  | _ => True

structure Recalls (history : Value) (s : Session) : Prop where
  faithful : s.config.Faithful
  recalled : ∃ p, s.progress = some p ∧ p.history = history

variable {history : Value} {s : Session}

theorem Recalls.advanced (h : Recalls history s) {p : Progress} {history' : Value}
    (hp : p.history = history') : Recalls history' { s with progress := some p } :=
  ⟨h.faithful, p, rfl, hp⟩

theorem Recalls.configured (h : Recalls history s) {config : Config} (hconfig : config.Faithful) :
    Recalls history { s with config := config } := ⟨hconfig, h.recalled⟩

/-! ## Operations that leave the history alone -/

theorem callFree_recalls : CallFree (Recalls history) := fun _ _ h => ⟨h.faithful, h.recalled⟩

theorem hooksKeep_recalls (stage : Stage) : HooksKeep (Recalls history) stage := by
  -- The hooks that run are those of the settings at the start, so these are kept in view.
  intro value s hs
  have hkept : Keeps (fun t => t.config = s.config ∧ Recalls history t) (runHooks stage value) := by
    refine keeps_runHooks (fun t hooks ht hat => keeps_runAll ?_ fun label run hmem => ?_) value
    · exact fun t _ _ ht => ⟨ht.1, callFree_recalls t _ ht.2⟩
    · intro view effect heffect hends
      have hlasting : Hook.Lasting (.call label run) := ht.2.faithful.lasting stage hooks hat _ hmem
      rw [hlasting view effect heffect] at hends
      cases hends
  exact (hkept s ⟨rfl, hs⟩).mono fun _ ht => ht.2

theorem keeps_advance_recalls {change : Progress → Progress}
    (h : ∀ p, (change p).history = p.history) : Keeps (Recalls history) (advance change) :=
  keeps_advancing fun _ p hs hp => by
    obtain ⟨q, hq, rfl⟩ := hs.recalled
    cases hp.symm.trans hq
    exact hs.advanced (h p)

theorem keeps_extend_recalls {change : Progress → Progress}
    (h : ∀ p, (change p).history = p.history) : Keeps (Recalls history) (extend change) :=
  keeps_extending fun _ p hs hp => by
    obtain ⟨q, hq, rfl⟩ := hs.recalled
    cases hp.symm.trans hq
    exact hs.advanced (h p)

theorem ledgerFree_recalls : LedgerFree (Recalls history) := fun _ p _ _ hs hp => by
  obtain ⟨q, hq, rfl⟩ := hs.recalled
  cases hp.symm.trans hq
  exact hs.advanced rfl

theorem runHooks_alone (h : Recalls history s) (stage : Stage) (hstage : stage.Rewrites)
    (value : Value) :
    Ensures (runHooks stage value) s (fun v t => v = value ∧ t = s) (fun _ t => t = s) := by
  simp only [runHooks, ensures_bind, ensures_get]
  refine ensures_ofExcept.2 ⟨fun hooks hat => ?_, fun _ _ => rfl⟩
  rw [h.faithful.alone stage hstage hooks hat]
  exact ⟨rfl, rfl⟩

theorem keeps_save_recalls : Keeps (Recalls history) save := by
  apply keeps_get_bind
  intro s hs
  obtain ⟨p, hp, rfl⟩ := hs.recalled
  rw [hp]
  refine ensures_bind.2 ((runHooks_alone hs .beforeSave trivial _).mono ?_ ?_)
  · rintro _ _ ⟨rfl, rfl⟩
    have hsame : Keeps (Recalls p.history) (advance fun q => { q with history := p.history }) :=
      keeps_advancing fun _ _ ht _ => ht.advanced rfl
    exact hsame.bind (fun _ => keeps_snapshot) _ hs
  · rintro _ _ rfl
    exact hs

def Command.Tells : Command → Prop
  | .execute .. | .next .. | .answer _ | .pushMessages _ => True
  | _ => False

theorem keeps_perform_recalls (now : Timestamp) {command : Command} (hrestarts : ¬ command.Restarts)
    (hfaithful : command.Faithful) (htells : ¬ command.Tells) :
    Keeps (Recalls history) (perform now command) := by
  by_cases hasks : command.Asks
  · exact keeps_asks (fun stage _ => hooksKeep_recalls stage) now hasks
  cases command with
  | init | load | resume | reload => exact (hrestarts trivial).elim
  | execute | next | answer | pushMessages => exact (htells trivial).elim
  | save => exact keeps_save_recalls.bind fun _ => keeps_pure _
  | clearContext =>
    exact ((hooksKeep_recalls _).clearContext (keeps_advance_recalls fun _ => by rfl)).bind
      fun _ => keeps_pure _
  | finish =>
    exact (keeps_finishing (keeps_advance_recalls fun _ => by rfl)).bind fun _ => keeps_pure _
  | pushContexts contexts =>
    exact ((hooksKeep_recalls _).pushContexts (fun _ => keeps_extend_recalls fun _ => by rfl)
      _).bind fun _ => keeps_pure _
  | addAction role action =>
    apply keeps_get_bind
    intro s hs
    refine ensures_bind.2 (ensures_ofExcept.2 ⟨fun config hconfig => ?_, fun _ _ => hs⟩)
    exact hs.configured (hs.faithful.of_hooks (Config.addAction_hooks hconfig))
  | addHook name hook =>
    intro s hs
    refine ensures_bind.2 (ensures_ofExcept.2 ⟨fun stage hstage => ?_, fun _ _ => hs⟩)
    rw [ensures_bind, ensures_get, ensures_bind]
    refine ensures_ofExcept.2 ⟨fun config hconfig => ?_, fun _ _ => hs⟩
    exact hs.configured (hs.faithful.addHook hfaithful.1 (hfaithful.2 stage hstage) hconfig)
  | update values =>
    apply keeps_get_bind
    intro s hs
    refine ensures_bind.2 (ensures_ofExcept.2 ⟨fun config hconfig => ?_, fun _ _ => hs⟩)
    exact hs.configured (hs.faithful.update hfaithful hconfig)
  | runHooks stage value =>
    exact (keeps_runHooksAt hooksKeep_recalls _ _).bind fun _ => keeps_pure _
  | addCost cost => exact (ledgerFree_recalls.addRead _).bind fun _ => keeps_pure _
  | addUsage usage => exact (ledgerFree_recalls.addRead _).bind fun _ => keeps_pure _
  | log request response rest =>
    exact (ledgerFree_recalls.log _ _ _ _).bind fun _ => keeps_pure _
  | _ => exact (hasks trivial).elim

/-! ## Operations that add to the history -/

namespace Recalls

theorem record_recalls (h : Recalls history s) (messages : Value) :
    Ensures (record messages) s
      (fun _ t => Recalls (history.appended messages.listed) t ∧ history.IsList)
      (fun _ t => Recalls history t) := by
  obtain ⟨p, hp, rfl⟩ := h.recalled
  simp only [record, ensures_bind, ensures_get, hp]
  obtain ⟨earlier, hhistory, hitems⟩ | ⟨hitems, -⟩ := p.history.items_cases
  · rw [hitems, ensures_ofExcept_ok]
    refine ensures_ofExcept.2 ⟨fun added hadded => ensures_advance.2 ?_, fun _ _ => h⟩
    rw [hp, Value.listed, hadded, hhistory]
    exact ⟨h.advanced rfl, earlier, rfl⟩
  · rw [hitems]
    exact h

theorem execute_recalls (h : Recalls history s) (context act : Value) :
    Ensures (execute context act) s
      (fun messages t => Recalls (history.appended (messages.elim [] Value.listed)) t ∧
        (messages.isSome → history.IsList))
      (fun _ t => Recalls history t) := by
  have hstays : ∀ t, Recalls history t →
      Recalls (history.appended ((none : Option Value).elim [] Value.listed)) t ∧
        ((none : Option Value).isSome → history.IsList) := fun t ht =>
    ⟨history.appended_nil.symm ▸ ht, fun hsome => nomatch hsome⟩
  rw [execute, ensures_bind, ensures_get]
  split
  · exact hstays s h
  · next staging progress _ =>
    refine ensures_bind.2 (ensures_ofExcept.2 ⟨fun given _ => ?_, fun _ _ => h⟩)
    refine ensures_bind.2 (ensures_ofExcept.2 ⟨fun name _ => ?_, fun _ _ => h⟩)
    split
    · dsimp only
      split_ifs
      · exact hstays s h
      · refine ensures_bind.2 (Ensures.mono (keeps_advance_recalls (fun _ => by rfl) s h)
          (fun _ t ht => ?_) fun _ _ ht => ht)
        have hbuilt : ∀ stage, HooksKeep (Recalls history) stage := hooksKeep_recalls
        refine ensures_bind.2 (Ensures.mono (callFree_recalls.buildMessages (hbuilt _) _ _ _ t ht)
          (fun messages u hu => ?_) fun _ _ hu => hu)
        exact ensures_bind.2 ((record_recalls hu messages).mono
          (fun _ _ hv => ⟨hv.1, fun _ => hv.2⟩) fun _ _ hv => hv)
    · exact hstays s h

theorem answer_recalls (h : Recalls history s) (message : Value) :
    Leaves (answer message) s (Recalls (history.appended [message])) := by
  obtain ⟨p, hp, rfl⟩ := h.recalled
  simp only [Leaves, answer, ensures_bind, ensures_get, hp]
  obtain ⟨earlier, hhistory, hitems⟩ | ⟨hitems, hsame⟩ := p.history.items_cases
  · rw [hitems, hhistory]
    refine ⟨h.faithful, _, congrArg (Option.map _) hp, rfl⟩
  · rw [hitems, hsame]
    exact h

theorem pushMessages_recalls (h : Recalls history s) (messages : Value) :
    Leaves (pushMessages messages) s (Recalls (history.appended (s.received messages))) := by
  obtain ⟨p, hp, rfl⟩ := h.recalled
  simp only [Leaves, pushMessages, ensures_bind, ensures_get, hp]
  obtain ⟨earlier, hhistory, hitems⟩ | ⟨hitems, hsame⟩ := p.history.items_cases
  · have hhooks := hooksKeep_recalls .beforePushMessage (.list messages.oneOrSeveral) s h
    rw [hitems, ensures_ofExcept_ok, Ensures]
    split
    · next made t hrun =>
      have ht := hhooks.of_ok hrun
      have hreceived : s.received messages = made.listed := by simp only [received, hrun]
      rw [hreceived]
      refine ensures_ofExcept.2 ⟨fun added hadded => ?_, fun fault hfault => ?_⟩
      · obtain ⟨q, hq, -⟩ := ht.recalled
        rw [hhistory, Value.listed, hadded]
        exact ⟨ht.faithful, _, congrArg (Option.map _) hq, rfl⟩
      · rw [Value.listed, hfault]
        exact (Value.appended_nil _).symm ▸ ht
    · next fault t hrun =>
      have hreceived : s.received messages = [] := by simp only [received, hrun]
      rw [hreceived, Value.appended_nil]
      exact hhooks.of_error hrun
  · rw [hitems, hsame]
    exact h

theorem next_cases (h : Recalls history s) :
    (∃ act arrived, s.goesOn? = some (act, arrived) ∧ Recalls history arrived ∧
      ∀ context wholeHistory,
        (next context wholeHistory).run s = (playCurrent context wholeHistory act).run arrived) ∨
    s.goesOn? = none ∧
      ∀ context wholeHistory, Leaves (next context wholeHistory) s (Recalls history) := by
  simp only [Leaves, Ensures, goesOn?, next, run_get_bind]
  cases hcurrent : s.current? with
  | none => exact Or.inr ⟨rfl, fun _ _ => h⟩
  | some here =>
    obtain ⟨staging, progress⟩ := here
    have hp := (eq_of_current? hcurrent).2
    obtain ⟨q, hq, hhistory⟩ := h.recalled
    obtain rfl : progress = q := Option.some.inj (hp.symm.trans hq)
    have hhooks := runHooks_alone h .beforeNext trivial progress.history
    simp only [Option.bind_eq_bind, Option.bind_some]
    cases hrun : (runHooks .beforeNext progress.history).run s with
    | error fault t =>
      obtain rfl := hhooks.of_error hrun
      simp only [run_bind_error hrun]
      exact Or.inr ⟨trivial, fun _ _ => h⟩
    | ok history' t =>
      obtain ⟨rfl, rfl⟩ := hhooks.of_ok hrun
      simp only [run_bind_ok hrun, run_bind_ok (run_advance hp), run_get_bind, Option.bind_some, hp]
      cases hqueue : progress.queue with
      | nil => exact Or.inr ⟨rfl, fun _ _ => h.advanced hhistory⟩
      | cons act rest => exact Or.inl ⟨act, _, rfl, h.advanced hhistory, fun _ _ => rfl⟩

theorem playCurrent_recalls (h : Recalls history s) (context : Value) (wholeHistory : Bool)
    (act : String) :
    let given := if context.truthy then context else .dict []
    let played := s.played? given (.str act)
    Leaves (playCurrent context wholeHistory act) s
        (Recalls (history.appended (played.elim [] Value.listed))) ∧
      ∀ messages, played = some messages →
        ∃ t, (playCurrent context true act).run s =
          .ok (some (history.appended messages.listed)) t := by
  intro given played
  have hplayed := execute_recalls h given (.str act)
  have hsaid : ∀ {t items}, Recalls (.list items) t → said.run t = .ok items t := by
    intro t items ht
    obtain ⟨p, hp, hhistory⟩ := ht.recalled
    simp only [said, run_get_bind, hp, hhistory]
    rfl
  cases hrun : (execute given (.str act)).run s with
  | error fault t =>
    have hnone : played = none := by simp only [played, played?, hrun]
    rw [hnone]
    refine ⟨?_, fun messages hsome => nomatch hsome⟩
    rw [Leaves, Ensures, playCurrent, run_bind_error hrun]
    exact (Value.appended_nil history).symm ▸ hplayed.of_error hrun
  | ok messages t =>
    have hsome : played = messages := by simp only [played, played?, hrun]
    obtain ⟨ht, hlist⟩ := hplayed.of_ok hrun
    rw [hsome]
    constructor
    · rw [Leaves, playCurrent]
      refine (ensures_congr (run_bind_ok hrun)).2 ?_
      cases messages with
      | none => exact ht
      | some messages =>
        dsimp only
        split_ifs
        · exact (keeps_said.bind fun _ => keeps_pure _) t ht
        · exact ((hooksKeep_recalls _ _).bind fun _ => keeps_pure _) t ht
    · rintro messages rfl
      obtain ⟨earlier, rfl⟩ := hlist rfl
      refine ⟨t, ?_⟩
      rw [playCurrent, run_bind_ok hrun]
      exact run_bind_ok (hsaid ht)

theorem next_recalls (h : Recalls history s) (context : Value) (wholeHistory : Bool) :
    Leaves (next context wholeHistory) s
        (Recalls (history.appended ((s.playedNext? context).elim [] Value.listed))) ∧
      ∀ messages, s.playedNext? context = some messages →
        ∃ t, (next context true).run s = .ok (some (history.appended messages.listed)) t := by
  obtain ⟨act, arrived, hgoes, harrived, hrun⟩ | ⟨hgoes, hstays⟩ := h.next_cases
  · simp only [playedNext?, hgoes, Option.bind_some, hrun]
    rw [Leaves, ensures_congr (hrun context wholeHistory)]
    exact harrived.playCurrent_recalls context wholeHistory act
  · simp only [playedNext?, hgoes, Option.bind_none, Option.elim_none, Value.appended_nil]
    refine ⟨hstays context wholeHistory, fun messages hsome => ?_⟩
    cases hsome

/-! ## Runs -/

theorem step_recalls (now : Timestamp) (h : Recalls history s) {command : Command}
    (hrestarts : ¬ command.Restarts) (hfaithful : command.Faithful) :
    Recalls (history.appended (command.records s)) (step now s command).2 := by
  by_cases htells : command.Tells
  · cases command with
    | execute context act =>
      have hplayed : Leaves (execute context act) s
          (Recalls (history.appended ((s.played? context act).elim [] Value.listed))) := by
        have hensured := h.execute_recalls context act
        rw [played?, Leaves, Ensures]
        cases hrun : (execute context act).run s with
        | ok messages t => exact (hensured.of_ok hrun).1
        | error fault t => exact (Value.appended_nil history).symm ▸ hensured.of_error hrun
      exact step_leaves (ensures_bind.2 hplayed)
    | next context wholeHistory =>
      exact step_leaves (ensures_bind.2 (h.next_recalls context wholeHistory).1)
    | answer message => exact step_leaves (ensures_bind.2 (h.answer_recalls message))
    | pushMessages messages => exact step_leaves (ensures_bind.2 (h.pushMessages_recalls messages))
    | _ => exact htells.elim
  · have hnothing : command.records s = [] := by
      cases command <;> first | rfl | exact (htells trivial).elim
    rw [hnothing, Value.appended_nil]
    exact step_leaves (keeps_perform_recalls now hrestarts hfaithful htells s h)

theorem run_recalls (h : Recalls history s) {commands : List (Timestamp × Command)}
    (hcommands : ∀ c ∈ commands, ¬ c.2.Restarts ∧ c.2.Faithful) :
    Recalls (history.appended (recorded s commands)) (run s commands).2 := by
  induction commands generalizing history s with
  | nil => exact (Value.appended_nil history).symm ▸ h
  | cons command rest ih =>
    obtain ⟨⟨hrestarts, hfaithful⟩, hrest⟩ := List.forall_mem_cons.1 hcommands
    rw [recorded, ← Value.appended_appended]
    exact ih (step_recalls command.1 h hrestarts hfaithful) hrest

end Recalls

/-- The history of a session under way after a run of commands is the history before the run and
then, command by command, what each of them recorded. With the next act played, playing on answers
on request with the history that holds its messages already. -/
theorem history_of_run {s : Session} {p : Progress} (hfaithful : s.config.Faithful)
    (hp : s.progress = some p) {commands : List (Timestamp × Command)}
    (hcommands : ∀ c ∈ commands, ¬ c.2.Restarts ∧ c.2.Faithful) :
    let u := (run s commands).2
    ∃ q, u.progress = some q ∧ q.history = p.history.appended (recorded s commands) ∧
      ∀ now context messages, u.playedNext? context = some messages →
        ∃ t r, step now u (.next context true) = (.ok (.value r.history), t) ∧
          t.progress = some r ∧ r.history = q.history.appended messages.listed := by
  intro u
  have hend := Recalls.run_recalls ⟨hfaithful, p, hp, rfl⟩ hcommands
  obtain ⟨q, hq, hhistory⟩ := hend.recalled
  refine ⟨q, hq, hhistory, fun now context messages hplayed => ?_⟩
  obtain ⟨hleaves, hanswered⟩ := hend.next_recalls context true
  obtain ⟨t, hrun⟩ := hanswered messages hplayed
  have hnext := hleaves.of_ok hrun
  rw [hplayed] at hnext
  obtain ⟨r, hr, hgrown⟩ := hnext.recalled
  have hstep : (perform now (.next context true)).run u = .ok (.value r.history) t := by
    rw [hgrown]
    exact run_bind_ok hrun
  refine ⟨t, r, ?_, hr, hhistory ▸ hgrown⟩
  rw [step, hstep]

/-- An act is played on to, whose message a hook doubles and another one hides from the answer. A
reply comes, and two messages from outside, of which a hook lets the first one in. -/
theorem history_of_doubled_act :
    let double : Hook := .call "double" fun view =>
      .ok ⟨some (.list (view.value.listed ++ view.value.listed)), false⟩
    let first : Hook := .call "first" fun view =>
      .ok ⟨some (.list (view.value.listed.take 1)), false⟩
    let config : Config := { Config.default with hooks := .proper [
      ("after_build", .proper [double]), ("next_returns", .proper [first]),
      ("before_push_message", .proper [first])] }
    let line (text : String) : Record := [("role", .str "user"), ("content", .str text)]
    let acts : Scenario :=
      ⟨[("A", { Act.empty with messages := [line "a"] })], [("order", .list [.str "A"])]⟩
    let started := (step default (new config) (.init (.compiled acts) .null)).2
    let commands : List (Timestamp × Command) := [(default, .next .null false),
      (default, .answer (.dict (line "b"))),
      (default, .pushMessages (.list [.dict (line "c"), .dict (line "d")])), (default, .save),
      (default, .finish)]
    ∃ q, (run started commands).2.progress = some q ∧
      q.history.equal (.list
        [.dict (line "a"), .dict (line "a"), .dict (line "b"), .dict (line "c")]) = true := by
  intro double first config line acts started commands
  have hlasting : double.Lasting ∧ first.Lasting :=
    ⟨fun _ _ h => by cases h; rfl, fun _ _ h => by cases h; rfl⟩
  have hfaithful : started.config.Faithful := by
    constructor
    · intro stage hooks hat hook hhook
      cases stage with
      | afterBuild =>
        cases hat
        exact List.mem_singleton.1 hhook ▸ hlasting.1
      | nextReturns | beforePushMessage =>
        cases hat
        exact List.mem_singleton.1 hhook ▸ hlasting.2
      | _ =>
        cases hat
        cases hhook
    · intro stage hstage hooks hat
      cases stage <;> first | exact hstage.elim | exact (Except.ok.inj hat).symm
  have hcommands : ∀ c ∈ commands, ¬ c.2.Restarts ∧ c.2.Faithful := by
    simp [commands, Command.Restarts, Command.Faithful]
  have hgoes : started.progress.isSome = true := by decide +kernel
  obtain ⟨p, hp⟩ := Option.isSome_iff_exists.1 hgoes
  obtain ⟨q, hq, hhistory, -⟩ := history_of_run hfaithful hp hcommands
  have hstart : p.history = .list [] := by
    cases hp
    rfl
  refine ⟨q, hq, ?_⟩
  rw [hhistory, hstart]
  decide +kernel

end Session

end Playscript
