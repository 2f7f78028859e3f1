import Playscript.Proofs.Session.Coupling
import Playscript.Proofs.Session.Onlookers
import Playscript.Proofs.Session.Reading

/-!
# Sessions that differ in hooks that only look on

Two sessions whose settings differ only in hooks that look on come to the same whatever these hooks
answer, as long as none of them ends the session or fails to answer when the merged context is to be
cleared.
-/
namespace Playscript

namespace Session

open Config (DiffersInOnlookers)

/-- Sessions that have come to the same in the same staging, under settings that differ only in
hooks that look on. -/
structure Twins (s t : Session) : Prop where
  settings : s.config.DiffersInOnlookers t.config
  lasting : s.config.OnlookersLast
  lasting' : t.config.OnlookersLast
  staging : t.staging = s.staging
  progress : t.progress = s.progress

variable {s t : Session}

theorem Twins.noted (h : Twins s t) {s' t' : Session} (hs : Noted s s') (ht : Noted t t') :
    Twins s' t' := by
  obtain ⟨calls, rfl⟩ := hs
  obtain ⟨calls', rfl⟩ := ht
  exact ⟨h.settings, h.lasting, h.lasting', h.staging, h.progress⟩

theorem Twins.moved (h : Twins s t) (change : Progress → Progress) :
    Twins { s with progress := s.progress.map change }
      { t with progress := t.progress.map change } :=
  ⟨h.settings, h.lasting, h.lasting', h.staging, congrArg (Option.map change) h.progress⟩

theorem Twins.current? (h : Twins s t) : t.current? = s.current? := by
  rw [Session.current?, Session.current?, h.staging, h.progress]

theorem Twins.actAt (h : Twins s t) (act : Value) : t.actAt act = s.actAt act := by
  rw [Session.actAt, Session.actAt, currentAct, currentAct, h.staging, h.progress]

theorem Twins.fullLog (h : Twins s t) : t.config.fullLog = s.config.fullLog := by
  rw [h.settings.rest]

theorem Twins.costOnly (h : Twins s t) : t.config.costOnly = s.config.costOnly := by
  rw [h.settings.rest]

theorem Twins.actionTable (h : Twins s t) : t.config.actionTable = s.config.actionTable := by
  rw [h.settings.rest]
  rfl

theorem Twins.stagingSettings (h : Twins s t) :
    stagingSettings t.config = stagingSettings s.config := by
  rw [h.settings.rest]
  rfl

/-! ## Onlookers -/

theorem hooksKeep_onlooked (s : Session) {stage : Stage} (hshows : stage.Shows) :
    HooksKeep (fun t => s.config.OnlookersLast ∧ Noted s t) stage := by
  refine keeps_runHooks fun t hooks ht hat =>
    keeps_runAll ?_ fun label run hmem view effect heffect hends => ?_
  · exact fun _ _ _ hu => ⟨hu.1, hu.2.trans ⟨_, rfl⟩⟩
  · have hlasting : Hook.Lasting (.call label run) :=
      ht.1 stage hshows hooks (ht.2.config ▸ hat) _ hmem
    rw [hlasting view effect heffect] at hends
    cases hends

theorem runHooks_onlooked (h : s.config.OnlookersLast) (stage : Stage) (hshows : stage.Shows)
    (value : Value) : Leaves (runHooks stage value) s (Noted s) :=
  (hooksKeep_onlooked s hshows value s ⟨h, Noted.refl s⟩).mono fun _ ht => ht.2

theorem asks_onlooked (h : s.config.OnlookersLast) (now : Timestamp) {command : Command}
    (hasks : command.Asks) : Leaves (perform now command) s (Noted s) :=
  (keeps_asks (fun _ hshows => hooksKeep_onlooked s hshows) now hasks s ⟨h, Noted.refl s⟩).mono
    fun _ ht => ht.2

/-! ## The same in both sessions -/

def Mirrored {α : Type} (x : Play α) : Prop := Coupled Twins x x

variable {α β : Type}

theorem Mirrored.bind {x : Play α} {f : α → Play β} (hx : Mirrored x) (hf : ∀ a, Mirrored (f a)) :
    Mirrored (x >>= f) := Coupled.bind hx hf

theorem mirrored_pure (a : α) : Mirrored (pure a : Play α) := coupled_pure a

theorem mirrored_throw (fault : Fault) : Mirrored (throw fault : Play α) := coupled_throw fault

theorem mirrored_ofExcept (y : Except Fault α) : Mirrored (ofExcept y : Play α) :=
  coupled_ofExcept y

theorem mirrored_note (call : Call) : Mirrored (note call) := fun _ _ hst =>
  ⟨rfl, hst.noted ⟨_, rfl⟩ ⟨_, rfl⟩⟩

theorem mirrored_runAll (hooks : List Hook) (value : Value) : Mirrored (runAll hooks value) := by
  induction hooks generalizing value with
  | nil => exact mirrored_pure _
  | cons hook rest ih =>
    refine coupled_reading (fun s => ?_) fun s t hst => by simp only [hst.current?]
    split
    · exact mirrored_pure _
    · cases hook with
      | inert v => exact mirrored_throw _
      | call label run =>
        refine (mirrored_note _).bind fun _ => (mirrored_ofExcept _).bind fun effect => ?_
        dsimp only
        split_ifs
        · have hended : Mirrored (modify fun session => { session with progress := none }) :=
            coupled_modify fun _ _ hst =>
              ⟨hst.settings, hst.lasting, hst.lasting', hst.staging, rfl⟩
          exact hended.bind fun _ => ih _
        · exact ih _

theorem mirrored_runHooks {stage : Stage} (h : ¬ stage.Shows) (value : Value) :
    Mirrored (runHooks stage value) := by
  refine coupled_reading (fun s => (mirrored_ofExcept _).bind fun _ => mirrored_runAll _ _)
    fun s t hst => ?_
  obtain hsame | ⟨hshows, -⟩ := hst.settings.hooksAt stage
  · rw [hsame]
  · exact (h hshows).elim

theorem coupling_twins : Coupling Twins where
  progress := fun s t hst => by
    rw [hst.progress]
    cases s.progress with
    | none => exact Or.inl ⟨rfl, rfl⟩
    | some p => exact Or.inr ⟨p, p.cost, rfl, rfl⟩
  moved := fun change _ _ _ hst => hst.moved change
  hooks := fun _ h value => mirrored_runHooks h value

theorem mirrored_advance (change : Progress → Progress) : Mirrored (advance change) := by
  intro s t hst
  have hmoved := hst.moved change
  rw [hst.progress] at hmoved
  rw [Agree, ensures_advance]
  simp only [ensures_advance, hst.progress]
  cases hp : s.progress with
  | none => exact ⟨trivial, hst⟩
  | some p =>
    rw [hp] at hmoved
    exact ⟨trivial, hmoved⟩

/-! ### Playing -/

theorem mirrored_applyAction (staging : Staging) (act : String) (entry : Nat × Record) :
    Mirrored (applyAction staging act entry) := by
  obtain ⟨index, message⟩ := entry
  refine coupled_reading (fun s => (mirrored_ofExcept _).bind fun actions => ?_) fun s t hst => ?_
  · dsimp only
    split_ifs
    · exact mirrored_throw _
    · split
      · exact mirrored_pure _
      · exact mirrored_pure _
      · split
        · exact mirrored_throw _
        · exact (mirrored_note _).bind fun _ => mirrored_ofExcept _
  · simp only [hst.actionTable, hst.progress]

theorem mirrored_applyActions (staging : Staging) (act : String) (entries : List (Nat × Record)) :
    Mirrored (applyActions staging act entries) := by
  induction entries with
  | nil => exact mirrored_pure _
  | cons entry rest ih =>
    exact (mirrored_applyAction _ _ _).bind fun _ => ih.bind fun _ => mirrored_pure _

theorem mirrored_buildMessages (staging : Staging) (act : String) (context : Record) :
    Mirrored (buildMessages staging act context) :=
  (mirrored_ofExcept _).bind fun _ => (mirrored_applyActions _ _ _).bind fun _ =>
    mirrored_runHooks id _

theorem mirrored_execute (context act : Value) : Mirrored (execute context act) := by
  refine coupled_reading (fun s => ?_) fun s t hst => by simp only [hst.current?, hst.actAt]
  split
  · exact mirrored_pure _
  · refine (mirrored_ofExcept _).bind fun _ => (mirrored_ofExcept _).bind fun name => ?_
    split
    · dsimp only
      split_ifs
      · exact mirrored_pure _
      · exact (mirrored_advance _).bind fun _ => (mirrored_buildMessages _ _ _).bind fun _ =>
          (coupling_twins.record _).bind fun _ => mirrored_pure _
    · exact mirrored_pure _

theorem linked_next (h : Twins s t) (context : Value) (wholeHistory : Bool) :
    Linked Twins (next context wholeHistory) (next context wholeHistory) s t := by
  refine linked_get_bind ?_
  rw [h.current?]
  cases s.current? with
  | none => exact (mirrored_pure none s t h).linked
  | some here =>
    refine (mirrored_runHooks id _ s t h).linked_bind fun history s t h => ?_
    refine (mirrored_advance _ s t h).linked_bind fun _ s t h => linked_get_bind ?_
    rw [h.progress]
    cases s.progress.bind (·.act) with
    | none => exact (mirrored_pure none s t h).linked
    | some act =>
      refine (mirrored_execute _ _ s t h).linked_bind fun messages s t h => ?_
      cases messages with
      | none => exact (mirrored_pure none s t h).linked
      | some messages =>
        dsimp only
        split_ifs
        · exact (coupling_twins.said.bind (fun _ => mirrored_pure _) s t h).linked
        -- The replies may differ here, what the sessions have come to does not.
        · exact Linked.bind_pure ((runHooks_onlooked h.lasting .nextReturns trivial messages).linked
            (runHooks_onlooked h.lasting' .nextReturns trivial messages) fun _ _ => h.noted) _

/-! ### Recording -/

theorem mirrored_addRead (request : Except Fault Ledger.Request) :
    Mirrored (addRead request) := by
  refine coupled_reading (fun s => ?_) fun s t hst => by rw [hst.progress, hst.costOnly]
  split_ifs
  · exact mirrored_pure _
  · refine (mirrored_advance _).bind fun _ => (mirrored_ofExcept _).bind fun _ =>
      (mirrored_advance _).bind fun _ => ?_
    exact coupled_reading (fun s => mirrored_pure _) fun s t hst => by rw [hst.progress]

theorem mirrored_log (now : Timestamp) (request response : Value) (rest : Record) :
    Mirrored (log now request response rest) := by
  rw [log]
  split
  · exact mirrored_throw _
  · refine coupled_reading (fun s => ?_) fun s t hst => by rw [hst.progress, hst.fullLog]
    dsimp only
    split_ifs
    · exact mirrored_pure _
    · exact (mirrored_advance _).bind fun _ => (mirrored_ofExcept _).bind fun _ =>
        mirrored_advance _

/-! ### Starting and saving -/

theorem mirrored_save : Mirrored save := by
  refine coupled_reading (fun s => ?_) fun s t hst => by rw [hst.progress]
  split
  · exact mirrored_pure _
  · refine (mirrored_runHooks id _).bind fun _ => (mirrored_advance _).bind fun _ => ?_
    refine coupled_reading (fun s => ?_) fun s t hst => by rw [hst.current?]
    split
    · exact mirrored_pure _
    · dsimp only
      split_ifs
      · exact mirrored_pure _
      · exact mirrored_throw _

theorem mirrored_begin (staging : Staging) (progress : Progress) :
    Mirrored (modify fun session : Session =>
      { session with staging := some staging, progress := some progress } : Play PUnit) :=
  coupled_modify fun _ _ hst => ⟨hst.settings, hst.lasting, hst.lasting', rfl, rfl⟩

theorem mirrored_init (source : Source) (given : Value) : Mirrored (init source given) := by
  refine coupled_reading (fun s => ?_) fun s t hst => by
    simp only [hst.stagingSettings, hst.fullLog, hst.costOnly]
  exact (mirrored_ofExcept _).bind fun staging => (mirrored_begin staging _).bind fun _ =>
    (mirrored_runHooks id _).bind fun _ => mirrored_advance _

theorem mirrored_load (snapshot : Snapshot) : Mirrored (load snapshot) := by
  refine coupled_reading (fun s => ?_) fun s t hst => by simp only [hst.stagingSettings]
  exact (mirrored_ofExcept _).bind fun staging => (mirrored_begin staging _).bind fun _ =>
    (mirrored_runHooks id _).bind fun _ => mirrored_advance _

theorem mirrored_reload (now : Timestamp) (carrier : Carrier) {config : Config}
    (h : config.OnlookersLast) : Mirrored (reload now carrier config) := by
  refine mirrored_save.bind fun snapshot => (mirrored_ofExcept _).bind fun written => ?_
  cases hchecked : config.checked with
  | error fault => exact mirrored_throw fault
  | ok config' =>
    obtain rfl : config' = config := Config.eq_of_checked hchecked
    have hnew : Mirrored
        (modify fun session => { Session.new config' with calls := session.calls } : Play PUnit) :=
      coupled_modify fun _ _ _ => ⟨.refl config', h, h, rfl, rfl⟩
    exact hnew.bind fun _ => (mirrored_ofExcept _).bind fun snapshot => mirrored_load snapshot

/-! ### Where hooks look on -/

def ClearingAnswered (s : Session) : Prop :=
  ∀ p hooks, s.progress = some p → s.config.hooksAt .beforeClearContext = .ok hooks →
    ∃ v t, (runAll hooks (.list p.contexts)).run s = .ok v t

theorem run_clearing (hlast : s.config.OnlookersLast) (hanswered : s.ClearingAnswered)
    {p : Progress} (hp : s.progress = some p) {hooks : List Hook}
    (hat : s.config.hooksAt .beforeClearContext = .ok hooks) :
    ∃ v t, (runHooks .beforeClearContext (.list p.contexts)).run s = .ok v t ∧ Noted s t := by
  obtain ⟨v, t, hrun⟩ := hanswered p hooks hp hat
  have hhooks : (runHooks .beforeClearContext (.list p.contexts)).run s = .ok v t := by
    simp only [runHooks, run_get_bind, hat]
    exact hrun
  exact ⟨v, t, hhooks, (runHooks_onlooked hlast .beforeClearContext trivial _).of_ok hhooks⟩

theorem run_runHooks_error {stage : Stage} {fault : Fault}
    (h : s.config.hooksAt stage = .error fault) (value : Value) :
    (runHooks stage value).run s = .error fault s := by
  simp only [runHooks, run_get_bind, h]
  rfl

theorem linked_clearContext (h : Twins s t) (hs : s.ClearingAnswered) (ht : t.ClearingAnswered) :
    Linked Twins clearContext clearContext s t := by
  refine linked_get_bind ?_
  rw [h.progress]
  cases hp : s.progress with
  | none => exact (mirrored_pure () s t h).linked
  | some p =>
    obtain ⟨fault, hat, hat'⟩ | ⟨hooks, hooks', hat, hat'⟩ :=
      h.settings.hooksAt_cases .beforeClearContext
    · exact linked_congr (run_bind_error (run_runHooks_error hat _))
        (run_bind_error (run_runHooks_error hat' _)) (mirrored_throw fault s t h).linked
    · obtain ⟨v, s', hrun, hs'⟩ := run_clearing h.lasting hs hp hat
      obtain ⟨v', t', hrun', ht'⟩ := run_clearing h.lasting' ht (h.progress.trans hp) hat'
      exact linked_congr (run_bind_ok hrun) (run_bind_ok hrun')
        (mirrored_advance _ s' t' (h.noted hs' ht')).linked

theorem linked_runHooks (h : Twins s t) (stage : Stage) (value : Value) :
    Linked Twins (runHooks stage value) (runHooks stage value) s t := by
  by_cases hshows : stage.Shows
  · exact (runHooks_onlooked h.lasting stage hshows value).linked
      (runHooks_onlooked h.lasting' stage hshows value) fun _ _ => h.noted
  · exact (mirrored_runHooks hshows value s t h).linked

theorem linked_runHooksAt (h : Twins s t) (stage : String) (value : Value) :
    Linked Twins (runHooksAt stage value) (runHooksAt stage value) s t := by
  refine linked_get_bind ?_
  have htables : (∃ a b, s.config.hookTable = .ok a ∧ t.config.hookTable = .ok b) ∨
      ∃ fault, s.config.hookTable = .error fault ∧ t.config.hookTable = .error fault := by
    obtain ⟨a, b, hs, ht, -⟩ | ⟨v, hs, ht⟩ := h.settings.hookTable
    · exact Or.inl ⟨a, b, by rw [Config.hookTable, hs], by rw [Config.hookTable, ht]⟩
    · exact Or.inr ⟨_, by rw [Config.hookTable, hs], by rw [Config.hookTable, ht]⟩
  obtain ⟨a, b, hs, ht⟩ | ⟨fault, hs, ht⟩ := htables
  · rw [hs, ht]
    refine linked_congr (run_bind_ok (run_ofExcept_ok a s)) (run_bind_ok (run_ofExcept_ok b t)) ?_
    exact (mirrored_ofExcept _ s t h).linked_bind fun stage s t h => linked_runHooks h stage _
  · rw [hs, ht]
    exact (mirrored_throw fault s t h).linked

/-! ### Settings -/

theorem mirrored_configure {change : Config → Except Fault Config}
    (halike : ∀ c d, DiffersInOnlookers c d → Config.AlikeResults (change c) (change d))
    (hlast : ∀ c c', c.OnlookersLast → change c = .ok c' → c'.OnlookersLast) (reply : Reply) :
    Mirrored (do configure (← ofExcept (change (← get).config)); return reply) := by
  refine coupled_get_bind fun s t hst => ?_
  obtain ⟨c, d, hc, hd, hcd⟩ | ⟨fault, hc, hd⟩ := halike _ _ hst.settings
  · rw [hc, hd]
    exact ⟨rfl, hcd, hlast _ _ hst.lasting hc, hlast _ _ hst.lasting' hd, hst.staging, hst.progress⟩
  · rw [hc, hd]
    exact mirrored_throw fault s t hst

/-! ## Commands -/

theorem Mirrored.reply {x : Play α} (hx : Mirrored x) (h : Twins s t) (g : α → Reply) :
    Linked Twins (x >>= fun a => pure (g a)) (x >>= fun a => pure (g a)) s t :=
  ((hx.bind fun _ => mirrored_pure _) s t h).linked

def Command.LetsLast : Command → Prop
  | .addHook name hook =>
    ∀ stage : Stage, Stage.ofName name = .ok stage → stage.Shows → hook.Lasting
  | .reload _ config => config.OnlookersLast
  | _ => True

theorem linked_perform (h : Twins s t) (now : Timestamp) {command : Command}
    (hcommand : command.LetsLast)
    (hclear : command = .clearContext → s.ClearingAnswered ∧ t.ClearingAnswered) :
    Linked Twins (perform now command) (perform now command) s t := by
  by_cases hasks : command.Asks
  · exact (asks_onlooked h.lasting now hasks).linked (asks_onlooked h.lasting' now hasks)
      fun _ _ => h.noted
  cases command with
  | init source given => exact (mirrored_init source given).reply h _
  | load v =>
    exact ((mirrored_ofExcept _).bind fun snapshot => (mirrored_load snapshot).bind fun _ =>
      mirrored_pure _) s t h |>.linked
  | resume snapshot => exact (mirrored_load snapshot).reply h _
  | reload carrier config => exact (mirrored_reload now carrier hcommand).reply h _
  | save => exact mirrored_save.reply h _
  | clearContext =>
    obtain ⟨hs, ht⟩ := hclear rfl
    exact (linked_clearContext h hs ht).bind_pure _
  | addAction role action =>
    refine (mirrored_configure (fun c d hcd => hcd.addAction role action) ?_ .done s t h).linked
    exact fun c c' hc hc' => hc.of_hooks (Config.addAction_hooks hc')
  | addHook name hook =>
    rw [perform]
    cases hname : Stage.ofName name with
    | error fault => exact (mirrored_throw fault s t h).linked
    | ok stage =>
      refine (mirrored_configure (fun c d hcd => hcd.addHook stage hook) ?_ .done s t h).linked
      exact fun c c' hc hc' => hc.addHook (hcommand stage hname) hc'
  | update values =>
    refine (mirrored_configure (fun c d hcd => hcd.update values) ?_ .nothing s t h).linked
    exact fun c c' hc hc' => hc.update hc'
  | execute context act => exact (mirrored_execute context act).reply h _
  | next context wholeHistory => exact (linked_next h context wholeHistory).bind_pure _
  | finish => exact Mirrored.reply coupling_twins.finish h _
  | answer message => exact Mirrored.reply (coupling_twins.answer message) h _
  | pushMessages messages => exact Mirrored.reply (coupling_twins.pushMessages messages) h _
  | pushContexts contexts => exact Mirrored.reply (coupling_twins.pushContexts contexts) h _
  | runHooks stage value => exact (linked_runHooksAt h stage value).bind_pure _
  | addCost cost => exact (mirrored_addRead _).reply h _
  | addUsage usage => exact (mirrored_addRead _).reply h _
  | log request response rest => exact (mirrored_log now request response rest).reply h _
  | _ => exact (hasks trivial).elim

/-! ## Runs -/

theorem step_twins (h : Twins s t) (now : Timestamp) {command : Command}
    (hcommand : command.LetsLast)
    (hclear : command = .clearContext → s.ClearingAnswered ∧ t.ClearingAnswered) :
    Twins (step now s command).2 (step now t command).2 :=
  step_leaves (P := fun s' => Twins s' (step now t command).2)
    ((linked_perform h now hcommand hclear).mono fun _ ht => step_leaves ht)

theorem run_twins (h : Twins s t) {commands : List (Timestamp × Command)}
    (hcommands : ∀ c ∈ commands, c.2.LetsLast)
    (hclear : ∀ n now, commands[n]? = some (now, .clearContext) →
      (run s (commands.take n)).2.ClearingAnswered ∧
        (run t (commands.take n)).2.ClearingAnswered) (n : Nat) :
    Twins (run s (commands.take n)).2 (run t (commands.take n)).2 := by
  induction commands generalizing s t n with
  | nil => cases n <;> exact h
  | cons timed rest ih =>
    obtain ⟨now, command⟩ := timed
    obtain ⟨hcommand, hrest⟩ := List.forall_mem_cons.1 hcommands
    cases n with
    | zero => exact h
    | succ n =>
      have hstep : Twins (step now s command).2 (step now t command).2 := by
        refine step_twins h now hcommand fun heq => hclear 0 now ?_
        rw [heq]
        rfl
      exact ih hstep hrest (fun k => hclear (k + 1)) n

/-- Hooks that only look on have no effect: under settings that differ in nothing else two sessions
come to the same with every command, whatever these hooks answer, if none of them ends the session
and none is left without an answer where the merged context is cleared. What only asks leaves a
session as it is. -/
theorem onlookers_have_no_effect {c d : Config} (hcd : c.DiffersInOnlookers d)
    (hc : c.OnlookersLast) (hd : d.OnlookersLast) {commands : List (Timestamp × Command)}
    (hcommands : ∀ c ∈ commands, c.2.LetsLast)
    (hclear : ∀ n now, commands[n]? = some (now, .clearContext) →
      (run (new c) (commands.take n)).2.ClearingAnswered ∧
        (run (new d) (commands.take n)).2.ClearingAnswered) (n : Nat) :
    let s := (run (new c) (commands.take n)).2
    let t := (run (new d) (commands.take n)).2
    t.staging = s.staging ∧ t.progress = s.progress ∧
      ∀ (now : Timestamp) (command : Command), command.Asks →
        Noted s (step now s command).2 ∧ Noted t (step now t command).2 := by
  have hstart : Twins (new c) (new d) := ⟨hcd, hc, hd, rfl, rfl⟩
  have htwins := run_twins hstart hcommands hclear n
  exact ⟨htwins.staging, htwins.progress, fun now command hasks =>
    ⟨step_leaves (asks_onlooked htwins.lasting now hasks),
      step_leaves (asks_onlooked htwins.lasting' now hasks)⟩⟩

/-- A hook that shows nothing of the queue, of what an act said or of the contexts, and no hook. -/
theorem hiding_has_no_effect :
    let hook : Hook := .call "hide" fun _ => .ok ⟨some (.list []), false⟩
    let c : Config := { Config.default with hooks := .proper [("next_returns", .proper [hook]),
      ("before_clear_context", .proper [hook]), ("get_act_queue", .proper [hook])] }
    let acts : Scenario := ⟨[("A", Act.empty)], [("order", .list [.str "A"])]⟩
    let commands : List (Timestamp × Command) := [(default, .init (.compiled acts) .null),
      (default, .next (.dict [("x", .int 1)]) false), (default, .clearContext), (default, .hasNext)]
    let s := (run (new c) commands).2
    let t := (run (new .default) commands).2
    s.progress.isSome = true ∧ t.progress = s.progress ∧ Noted s (step default s .nextAct).2 := by
  intro hook c acts commands s t
  have hlasting : hook.Lasting := fun _ _ h => by
    cases h
    rfl
  have hc : c.OnlookersLast := by
    intro stage _ hooks hat k hk
    have hhooks : hooks = [hook] ∨ hooks = [] := by
      cases stage <;>
        first | exact Or.inl (Except.ok.inj hat).symm | exact Or.inr (Except.ok.inj hat).symm
    obtain rfl | rfl := hhooks
    · exact List.mem_singleton.1 hk ▸ hlasting
    · cases hk
  have hd : Config.default.OnlookersLast := fun _ _ hooks hat k hk => by
    cases hat
    cases hk
  have hcd : c.DiffersInOnlookers .default := by
    refine ⟨rfl, fun stage => ?_⟩
    cases stage <;>
      first | exact Or.inl rfl | exact Or.inr ⟨trivial, ⟨_, rfl⟩, _, rfl⟩
  have hcommands : ∀ c ∈ commands, c.2.LetsLast := by simp [commands, Command.LetsLast]
  have hclear : ∀ n now, commands[n]? = some (now, .clearContext) →
      (run (new c) (commands.take n)).2.ClearingAnswered ∧
        (run (new .default) (commands.take n)).2.ClearingAnswered := by
    intro n now hn
    have hposition : n = 2 := by
      match n with
      | 0 | 1 | 3 => cases hn
      | 2 => rfl
      | n + 4 => cases hn
    subst hposition
    constructor
    · intro p hooks _ hat
      obtain rfl : [hook] = hooks := Except.ok.inj hat
      exact ⟨_, _, rfl⟩
    · intro p hooks _ hat
      obtain rfl : [] = hooks := Except.ok.inj hat
      exact ⟨_, _, rfl⟩
  obtain ⟨-, hprogress, hasks⟩ := onlookers_have_no_effect hcd hc hd hcommands hclear 4
  exact ⟨by decide +kernel, hprogress, (hasks default .nextAct trivial).1⟩

end Session

end Playscript
