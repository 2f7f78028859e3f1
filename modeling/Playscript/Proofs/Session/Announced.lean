import Playscript.Proofs.Session.Onlookers
import Playscript.Proofs.Session.Queue
import Playscript.Proofs.Snapshot.Made

/-!
# What is announced and what is played

The next act is announced from the queue as the hooks show it, and taken from the queue as it is.
The two are the same act where the hooks leave the first entry of the queue in its place. The queue
of a snapshot may name acts that do not exist: playing on passes over them.
-/
namespace Playscript

/-- A hook that leaves the first entry of a list in its place, and an empty list empty. -/
def Hook.KeepsFirst : Hook → Prop
  | .call _ run => ∀ view effect items shown, view.value = .list items → run view = .ok effect →
      effect.value = some (.list shown) → shown.head? = items.head?
  | .inert _ => False

def Config.ShowsFirst (config : Config) : Prop :=
  ∀ hooks, config.hooksAt .getActQueue = .ok hooks → ∀ hook ∈ hooks, hook.KeepsFirst

def Hook.ofList (label : String) (f : List Value → List Value) : Hook :=
  .call label fun view => match view.value with
    | .list items => .ok ⟨some (.list (f items)), false⟩
    | _ => .ok ⟨none, false⟩

theorem Hook.steady_ofList (label : String) (f : List Value → List Value) :
    (Hook.ofList label f).Steady := by
  refine ⟨fun view ⟨items, hitems⟩ => ?_, fun view effect h => ?_⟩
  · refine ⟨⟨some (.list (f items)), false⟩, by simp only [hitems], fun v hv => ?_⟩
    cases hv
    exact Value.isList_list _
  · split at h <;> cases h <;> rfl

theorem Hook.keepsFirst_ofList (label : String) {f : List Value → List Value}
    (hf : ∀ items, (f items).head? = items.head?) : (Hook.ofList label f).KeepsFirst := by
  intro view effect items shown hitems heffect hshown
  simp only [hitems] at heffect
  cases heffect
  cases hshown
  exact hf items

theorem Config.steady_singleton (stage : String) {hook : Hook} (h : hook.Steady) :
    Config.Steady { Config.default with hooks := .proper [(stage, .proper [hook])] } :=
  ⟨_, rfl, List.forall_mem_singleton.2 ⟨[hook], rfl, List.forall_mem_singleton.2 h⟩⟩

def Value.IsRecordOrNull (v : Value) : Prop := v = .null ∨ ∃ entries, v = .dict entries

theorem Value.IsRecordOrNull.ne_str {v : Value} (h : v.IsRecordOrNull) (name : String) :
    v ≠ .str name := by
  rcases h with rfl | ⟨entries, rfl⟩ <;> exact Value.noConfusion

theorem Value.IsRecordOrNull.exists_given {v : Value} (h : v.IsRecordOrNull) :
    ∃ given, v.toRecordIfGiven = .ok given := by
  rcases h with rfl | ⟨entries, rfl⟩
  · exact ⟨[], rfl⟩
  · exact ⟨entries, Value.toRecordIfGiven_dict entries⟩

namespace Session

structure Orderly (s : Session) : Prop where
  steady : s.config.Steady
  staged : ∀ progress, s.progress = some progress → ∃ staging, s.staging = some staging
  listed : ∀ progress, s.progress = some progress → progress.history.IsList

/-- A command under which a session stays orderly: it brings in steady hooks only, and no snapshot
whose history is not a list. -/
def Command.Orderly : Command → Prop
  | .resume snapshot => snapshot.progress.history.IsList
  | .reload _ config => config.Steady
  | .addHook _ hook => hook.Steady
  | .update values => ∀ entry ∈ values, entry.1 = "hooks" →
      (Config.default.setField entry.1 entry.2).Steady
  | _ => True

def HasAct (s : Session) (act : String) : Prop :=
  ∃ staging, s.staging = some staging ∧ (staging.scenario.act? act).isSome

def upcoming (s : Session) : Option String := s.progress.bind (·.queue.head?)

variable {s t : Session} {progress : Progress}

/-! ## Orderly sessions -/

theorem sturdy_orderly : Sturdy Orderly where
  steady := fun _ h => h.steady
  listed := fun _ p h hp => h.listed p hp
  noted := fun _ _ h => ⟨h.steady, h.staged, h.listed⟩
  aside := fun s p change hc h hp => by
    refine ⟨h.steady, fun _ _ => h.staged p hp, fun q hq => ?_⟩
    cases hq
    exact (hc p).2 (h.listed p hp)
  configured := fun _ _ h hconfig => ⟨hconfig, h.staged, h.listed⟩

theorem Orderly.underway (h : Orderly s) (hp : s.progress = some progress) : Underway s :=
  ⟨h.steady, h.staged progress hp, progress, hp, h.listed progress hp⟩

theorem Underway.orderly (h : Underway s) : Orderly s where
  steady := h.steady
  staged := fun _ _ => h.staged
  listed := fun p hp => by
    obtain ⟨progress, hprogress, hlist⟩ := h.listed
    cases hprogress.symm.trans hp
    exact hlist

theorem orderly_new {config : Config} (h : config.Steady) (calls : List Call) :
    Orderly { new config with calls := calls } :=
  ⟨h, fun _ hp => (nomatch hp), fun _ hp => (nomatch hp)⟩

theorem Orderly.rewritten (h : Orderly s) (stage : Stage) {value : Value} (hlist : value.IsList) :
    Leaves (do
      let history ← runHooks stage value
      advance fun progress => { progress with history := history }) s Orderly :=
  ensures_bind.2 ((sturdy_orderly.runHooks_list h stage hlist).mono
    (fun _ t ht => sturdy_orderly.keeps_advance (by exact fun _ => ⟨rfl, fun _ => ht.2⟩) t ht.1)
    fun _ _ => id)

theorem keeps_init (source : Source) (given : Value) : Keeps Orderly (init source given) := by
  apply keeps_get_bind
  intro s h
  refine ensures_bind.2 (ensures_ofExcept.2 ⟨fun staging _ => ?_, fun _ _ => h⟩)
  have hstarted : Underway { s with
      staging := some staging
      progress := some { Progress.initial staging.scenario with
        log := if s.config.fullLog.truthy then some [] else none
        cost := if s.config.costOnly.truthy then some .empty else none } } :=
    ⟨h.steady, ⟨staging, rfl⟩, _, rfl, Value.isList_list _⟩
  exact ensures_bind.2 (ensures_modify.2
    (hstarted.orderly.rewritten .afterInit (Value.isList_list _)))

theorem keeps_load {snapshot : Snapshot} (hlist : snapshot.progress.history.IsList) :
    Keeps Orderly (load snapshot) := by
  apply keeps_get_bind
  intro s h
  refine ensures_bind.2 (ensures_ofExcept.2 ⟨fun staging _ => ?_, fun _ _ => h⟩)
  have hloaded : Underway { s with
      staging := some staging
      progress := some snapshot.progress } :=
    ⟨h.steady, ⟨staging, rfl⟩, _, rfl, hlist⟩
  exact ensures_bind.2 (ensures_modify.2 (hloaded.orderly.rewritten .afterLoad hlist))

theorem isList_history_of_ofValue {now : Timestamp} {v : Value} {snapshot : Snapshot}
    (h : Snapshot.ofValue now v = .ok snapshot) : snapshot.progress.history.IsList := by
  obtain ⟨r, -, hprogress⟩ := Snapshot.checkProgress_of_ofValue h
  have hhistory := (Snapshot.parts_of_checkProgress hprogress).1
  obtain ⟨messages, hmessages, -⟩ := (Snapshot.gives_checkHistory Value.hereditary_any).field
    (fun _ _ => trivial) ⟨[], rfl, fun _ hm => absurd hm List.not_mem_nil⟩ hhistory
  exact ⟨messages, hmessages⟩

theorem keeps_reload (now : Timestamp) (carrier : Carrier) {config : Config}
    (hconfig : config.Steady) : Keeps Orderly (reload now carrier config) := by
  refine sturdy_orderly.keeps_save.bind fun saved => (keeps_ofExcept _).bind fun written => ?_
  intro s h
  refine ensures_bind.2 (ensures_ofExcept.2 ⟨fun config' hchecked => ?_, fun _ _ => h⟩)
  cases Config.eq_of_checked hchecked
  refine ensures_bind.2 (ensures_modify.2 ?_)
  have hnew : Orderly { new config with calls := s.calls } := orderly_new hconfig _
  refine ensures_bind.2 (ensures_ofExcept.2 ⟨fun snapshot hread => ?_, fun _ _ => hnew⟩)
  exact keeps_load (isList_history_of_ofValue hread) _ hnew

theorem keeps_finish : Keeps Orderly finish :=
  keeps_finishing (keeps_advancing fun _ p h hp =>
    Underway.orderly ⟨h.steady, h.staged p hp, _, rfl, h.listed p hp⟩)

theorem next_idle (hp : s.progress = none) (context : Value) (wholeHistory : Bool) :
    (next context wholeHistory).run s = .ok none s := by
  have hcurrent : s.current? = none := by
    rw [current?, hp]
    cases s.staging <;> rfl
  simp only [next, run_get_bind, hcurrent]
  rfl

theorem keeps_next (context : Value) (wholeHistory : Bool) :
    Keeps Orderly (next context wholeHistory) := by
  intro s h
  cases hp : s.progress with
  | none => rwa [Leaves, Ensures, next_idle hp]
  | some progress =>
    have hunder := h.underway hp
    obtain ⟨history, calls, -, hrun⟩ := hunder.next_run hp
    have hgone := (hunder.goneOn progress history calls).orderly
    rw [Leaves, Ensures, hrun]
    cases progress.queue.head? with
    | none => exact hgone
    | some act => exact sturdy_orderly.keeps_playCurrent _ _ _ _ hgone

theorem keeps_perform_orderly (now : Timestamp) {command : Command} (h : command.Orderly) :
    Keeps Orderly (perform now command) := by
  cases command with
  | init source settings => exact (keeps_init _ _).bind fun _ => keeps_pure _
  | load v =>
    intro s hs
    refine ensures_bind.2 (ensures_ofExcept.2 ⟨fun snapshot hread => ?_, fun _ _ => hs⟩)
    exact (keeps_load (isList_history_of_ofValue hread)).bind (fun _ => keeps_pure _) s hs
  | resume snapshot => exact (keeps_load h).bind fun _ => keeps_pure _
  | reload carrier config => exact (keeps_reload _ _ h).bind fun _ => keeps_pure _
  | finish => exact keeps_finish.bind fun _ => keeps_pure _
  | next context wholeHistory => exact (keeps_next _ _).bind fun _ => keeps_pure _
  | addHook stage hook => exact sturdy_orderly.keeps_perform now h rfl
  | update values => exact sturdy_orderly.keeps_perform now h rfl
  | _ => exact sturdy_orderly.keeps_perform now trivial rfl

theorem run_orderly {config : Config} (hconfig : config.Steady)
    {commands : List (Timestamp × Command)} (hcommands : ∀ c ∈ commands, c.2.Orderly) :
    Orderly (run (new config) commands).2 :=
  run_leaves (fun c hc => keeps_perform_orderly c.1 (hcommands c hc)) (orderly_new hconfig [])

/-! ## What is shown -/

theorem runAll_keepsFirst {hooks : List Hook} (hsteady : ∀ hook ∈ hooks, hook.Steady)
    (hfirst : ∀ hook ∈ hooks, hook.KeepsFirst) (items : List Value) (s : Session) :
    Ensures (runAll hooks (.list items)) s
      (fun v _ => ∃ shown, v = .list shown ∧ shown.head? = items.head?) (fun _ _ => True) := by
  induction hooks generalizing items s with
  | nil => exact ⟨items, rfl, rfl⟩
  | cons hook rest ih =>
    obtain ⟨hhook, hrest⟩ := List.forall_mem_cons.1 hsteady
    obtain ⟨hkeeps, hkept⟩ := List.forall_mem_cons.1 hfirst
    cases hook with
    | inert v => exact hhook.elim
    | call label run =>
      simp only [runAll, ensures_bind, ensures_get]
      cases hcurrent : s.current? with
      | none => exact ⟨items, rfl, rfl⟩
      | some here =>
        obtain ⟨staging, progress⟩ := here
        simp only [ensures_bind, ensures_note]
        refine ensures_ofExcept.2 ⟨fun effect heffect => ?_, fun _ _ => trivial⟩
        simp only [hhook.keepsOn _ _ heffect, Bool.false_eq_true, if_false]
        -- The hook answers with nothing or a list, and either begins like what it is shown.
        obtain ⟨shown, hshown, hhead⟩ : ∃ shown, effect.value.getD (.list items) = .list shown ∧
            shown.head? = items.head? := by
          obtain ⟨effect', heffect', hvalue⟩ := hhook.answers
            ⟨.list items, staging.scenario, progress.settled⟩ (Value.isList_list items)
          cases heffect.symm.trans heffect'
          cases hv : effect.value with
          | none => exact ⟨items, rfl, rfl⟩
          | some v =>
            obtain ⟨shown, rfl⟩ := hvalue v hv
            exact ⟨shown, rfl, hkeeps _ effect items shown rfl heffect hv⟩
        rw [hshown]
        refine (ih hrest hkept shown _).mono (fun v t hlast => ?_) fun _ _ => id
        obtain ⟨last, hv, hlast⟩ := hlast
        exact ⟨last, hv, hlast.trans hhead⟩

theorem Orderly.shownQueue_run (h : Orderly s) :
    ∃ (shown : List Value) (t : Session), shownQueue.run s = .ok (.list shown) t ∧ Noted s t ∧
      (s.config.ShowsFirst → shown.head? = s.upcoming.map .str) := by
  simp only [shownQueue, run_get_bind]
  cases hp : s.progress with
  | none => exact ⟨[], s, rfl, Noted.refl s, fun _ => by rw [upcoming, hp]; rfl⟩
  | some progress =>
    obtain ⟨v, t, hrun, ht, hv⟩ :=
      (runHooks_steady h.steady .getActQueue (.list (progress.queue.map .str))).exists_ok
        fun _ _ hf => hf.2 (Value.isList_list _)
    obtain ⟨shown, rfl⟩ := hv (Value.isList_list _)
    refine ⟨shown, t, hrun, ht, fun hfirst => ?_⟩
    obtain ⟨hooks, hat, hsteady⟩ := h.steady.hooksAt .getActQueue
    have hspec := runAll_keepsFirst hsteady (hfirst hooks hat) (progress.queue.map .str) s
    simp only [runHooks, run_get_bind, hat] at hrun
    obtain ⟨_, hshown, hhead⟩ := hspec.of_ok hrun
    cases hshown
    rw [hhead, List.head?_map, upcoming, hp]
    rfl

theorem first_list (items : List Value) :
    (Value.list items).first = .ok (items.head?.getD .null) := by
  cases items <;> rfl

theorem Orderly.announced (h : Orderly s) (now : Timestamp) :
    ∃ (first : Option Value) (t : Session), Noted s t ∧
      step now s .nextAct = (.ok (.value? first), t) ∧
      step now s .hasNext = (.ok (.value (.bool first.isSome)), t) ∧
      (s.config.ShowsFirst → first = s.upcoming.map .str) := by
  obtain ⟨shown, t, hrun, ht, hfirst⟩ := h.shownQueue_run
  refine ⟨shown.head?, t, ht, ?_, ?_, hfirst⟩
  · have hnext : nextAct.run s = .ok (shown.head?.getD .null) t := by
      rw [nextAct, run_bind_ok hrun, first_list]
      rfl
    simp only [step, perform, run_bind_ok hnext]
    rfl
  · have hnext : hasNext.run s = .ok shown.head?.isSome t := by
      rw [hasNext, run_bind_ok hrun]
      cases shown <;> rfl
    simp only [step, perform, run_bind_ok hnext]
    rfl

/-! ## What is played -/

/-- What a `next` that plays no act does: it answers nothing. Of a session under way it takes the
head off the queue and leaves the history as the hooks make it; otherwise it leaves all as it is. -/
structure PassesOver (now : Timestamp) (s : Session) (context : Value) (wholeHistory : Bool) :
    Prop where
  silent : (step now s (.next context wholeHistory)).1 = .ok .nothing
  idle : s.progress = none → (step now s (.next context wholeHistory)).2 = s
  gone : ∀ progress, s.progress = some progress → ∃ history calls,
    (runHooks .beforeNext progress.history).run s = .ok (.list history) { s with calls := calls } ∧
      (step now s (.next context wholeHistory)).2 = s.goneOn progress history calls

theorem actAt_of_actNow {staging : Staging} (hstaging : s.staging = some staging) {name : String}
    (h : s.actNow = some name) : s.actAt (.str name) = .str name := by
  obtain ⟨progress, hp, hact⟩ := Option.bind_eq_some_iff.1 h
  have hcurrent : s.currentAct = some name := by
    simp [currentAct, hstaging, hp, hact]
  rw [actAt, hcurrent]
  split_ifs <;> rfl

theorem exists_of_upcoming {act : String} (h : s.upcoming = some act) :
    ∃ progress, s.progress = some progress ∧ progress.queue.head? = some act :=
  Option.bind_eq_some_iff.1 h

section

variable (now : Timestamp) (h : Orderly s) {context : Value} (wholeHistory : Bool)
include h

theorem Orderly.passesOver (hp : s.progress = some progress) (context : Value)
    (hrest : ∀ history calls, (progress.queue.head?.elim (pure none)
      (playCurrent context wholeHistory)).run (s.goneOn progress history calls) =
        .ok none (s.goneOn progress history calls)) :
    PassesOver now s context wholeHistory := by
  obtain ⟨history, calls, hhooks, hrun⟩ := (h.underway hp).next_run hp
  have hstep : step now s (.next context wholeHistory) =
      (.ok .nothing, s.goneOn progress history calls) := by
    simp only [step, perform, run_bind_ok ((hrun context wholeHistory).trans (hrest _ _))]
    rfl
  refine ⟨by rw [hstep], fun hnone => ?_, fun p hp' => ?_⟩
  · cases hp.symm.trans hnone
  · cases hp.symm.trans hp'
    exact ⟨history, calls, hhooks, by rw [hstep]⟩

theorem Orderly.passesOver_of_empty (hup : s.upcoming = none) (context : Value) :
    PassesOver now s context wholeHistory := by
  cases hp : s.progress with
  | none =>
    have hstep : step now s (.next context wholeHistory) = (.ok .nothing, s) := by
      simp only [step, perform, run_bind_ok (next_idle hp context wholeHistory)]
      rfl
    refine ⟨by rw [hstep], fun _ => by rw [hstep], fun p hp' => ?_⟩
    cases hp.symm.trans hp'
  | some progress =>
    refine h.passesOver now wholeHistory hp context fun history calls => ?_
    have hhead : progress.queue.head? = none := by
      rw [upcoming, hp] at hup
      exact hup
    rw [hhead]
    rfl

theorem Orderly.passesOver_of_unknown {staging : Staging} (hstaging : s.staging = some staging)
    {act : String} (hup : s.upcoming = some act) (hunknown : staging.scenario.act? act = none)
    (hcontext : context.IsRecordOrNull) : PassesOver now s context wholeHistory := by
  obtain ⟨progress, hp, hhead⟩ := exists_of_upcoming hup
  obtain ⟨given, hgiven⟩ := hcontext.exists_given
  refine h.passesOver now wholeHistory hp context fun history calls => ?_
  have hhere : (s.goneOn progress history calls).current? = some (staging, _) :=
    current?_eq (by exact hstaging) rfl
  have hat : (s.goneOn progress history calls).actAt (.str act) = .str act :=
    actAt_of_actNow (by exact hstaging) (by exact hhead)
  have hexec : (execute context (.str act)).run (s.goneOn progress history calls) =
      .ok none (s.goneOn progress history calls) := by
    simp only [execute, run_get_bind, hhere, request_of_notText hcontext.ne_str, hat, hgiven,
      Scenario.nameFrom]
    rw [run_bind_ok (run_ofExcept_ok given _), run_bind_ok (run_ofExcept_ok _ _)]
    simp only [hunknown]
    rfl
  simp only [hhead, Option.elim_some, playCurrent, execute_ifTruthy hcontext.ne_str,
    run_bind_ok hexec]
  rfl

theorem Orderly.visits_of_known {staging : Staging} (hstaging : s.staging = some staging)
    {act : String} (hup : s.upcoming = some act) (hknown : (staging.scenario.act? act).isSome)
    (hcontext : context.IsRecordOrNull) : Visits now s context wholeHistory act := by
  obtain ⟨progress, hp, hhead⟩ := exists_of_upcoming hup
  exact (h.underway hp).next_visits now hp hstaging hhead hknown
    (fun _ _ => actAt_of_actNow (by exact hstaging) (by exact hhead)) hcontext.ne_str wholeHistory

omit h in
theorem PassesOver.actNow (hpass : PassesOver now s context wholeHistory) :
    (step now s (.next context wholeHistory)).2.actNow = s.upcoming := by
  cases hp : s.progress with
  | none => rw [hpass.idle hp, Session.actNow, upcoming, hp]; rfl
  | some progress =>
    obtain ⟨history, calls, -, hstep⟩ := hpass.gone progress hp
    rw [hstep, upcoming, hp]
    rfl

omit h in
theorem PassesOver.not_visits (hpass : PassesOver now s context wholeHistory) (act : String) :
    ¬ Visits now s context wholeHistory act := by
  rintro ⟨t, ⟨progress, calls, history, hp, rfl⟩, hvisits⟩
  split at hvisits
  · have hsilent := hpass.silent
    rw [hvisits.2] at hsilent
    cases hsilent
  · exact hvisits
  · obtain ⟨⟨p, given, earlier, items, calls, hp', -, -, -, rfl⟩, v, w, ⟨calls', rfl⟩, hstep, -⟩ :=
      hvisits
    cases hp'
    obtain ⟨history', calls', -, hgone⟩ := hpass.gone progress hp
    rw [hstep] at hgone
    -- To visit an act is to add a context, and none is added.
    have hcontexts := congrArg (fun t => t.progress.map (·.contexts)) hgone
    simp [entered, goneOn] at hcontexts

theorem Orderly.actNow_next (hcontext : context.IsRecordOrNull) :
    (step now s (.next context wholeHistory)).2.actNow = s.upcoming := by
  cases hup : s.upcoming with
  | none => rw [← hup, (h.passesOver_of_empty now wholeHistory hup context).actNow]
  | some act =>
    obtain ⟨progress, hp, -⟩ := exists_of_upcoming hup
    obtain ⟨staging, hstaging⟩ := h.staged progress hp
    cases hfound : staging.scenario.act? act with
    | none =>
      rw [(h.passesOver_of_unknown now wholeHistory hstaging hup hfound hcontext).actNow, hup]
    | some found =>
      have hknown : (staging.scenario.act? act).isSome := by rw [hfound]; rfl
      exact (h.visits_of_known now wholeHistory hstaging hup hknown hcontext).actNow

theorem Orderly.passesOver_of_not_hasAct {act : String} (hup : s.upcoming = some act)
    (hact : ¬ s.HasAct act) (hcontext : context.IsRecordOrNull) :
    PassesOver now s context wholeHistory := by
  obtain ⟨progress, hp, -⟩ := exists_of_upcoming hup
  obtain ⟨staging, hstaging⟩ := h.staged progress hp
  have hunknown : staging.scenario.act? act = none :=
    Option.not_isSome_iff_eq_none.1 fun hknown => hact ⟨staging, hstaging, hknown⟩
  exact h.passesOver_of_unknown now wholeHistory hstaging hup hunknown hcontext

theorem Orderly.visits_iff (hcontext : context.IsRecordOrNull) (act : String) :
    Visits now s context wholeHistory act ↔ s.HasAct act ∧ s.upcoming = some act := by
  constructor
  · intro hvisits
    have hup : s.upcoming = some act := by
      rw [← h.actNow_next now wholeHistory hcontext, hvisits.actNow]
    refine ⟨?_, hup⟩
    by_contra hact
    exact (h.passesOver_of_not_hasAct now wholeHistory hup hact hcontext).not_visits _ _ act hvisits
  · rintro ⟨⟨staging, hstaging, hknown⟩, hup⟩
    exact h.visits_of_known now wholeHistory hstaging hup hknown hcontext

end

theorem Noted.upcoming {s t : Session} (h : Noted s t) : t.upcoming = s.upcoming := by
  obtain ⟨calls, rfl⟩ := h
  rfl

/-- In every session that is reached from a new one with steady hooks, the next act can be asked
for, and playing on right after that plays the act at the head of the queue. Where the hooks show
the queue with its first entry in place, this is the act that was announced: playing on visits it,
or passes over it if there is no act of the name, and if nothing was announced it plays nothing. -/
theorem next_plays_announced {config : Config} (hconfig : config.Steady)
    {commands : List (Timestamp × Command)} (hcommands : ∀ c ∈ commands, c.2.Orderly)
    (now later : Timestamp) :
    let s := (run (new config) commands).2
    ∃ (first : Option Value) (t : Session),
      step now s .nextAct = (.ok (.value? first), t) ∧
      step now s .hasNext = (.ok (.value (.bool first.isSome)), t) ∧
      ∀ (context : Value) (wholeHistory : Bool), context.IsRecordOrNull →
        (∀ act, Visits later t context wholeHistory act ↔ t.HasAct act ∧ t.upcoming = some act) ∧
        (s.config.ShowsFirst →
          (∀ v, first = some v → ∃ act, v = .str act ∧
            (t.HasAct act → Visits later t context wholeHistory act ∧
              (step later t (.next context wholeHistory)).2.actNow = some act) ∧
            (¬ t.HasAct act → PassesOver later t context wholeHistory)) ∧
          (first = none → PassesOver later t context wholeHistory)) := by
  intro s
  have hs : Orderly s := run_orderly hconfig hcommands
  obtain ⟨first, t, hst, hnext, hhas, hshown⟩ := hs.announced now
  have ht : Orderly t := sturdy_orderly.of_noted hs hst
  refine ⟨first, t, hnext, hhas, fun context wholeHistory hcontext => ?_⟩
  have hiff := ht.visits_iff later wholeHistory hcontext
  refine ⟨hiff, fun hfirst => ?_⟩
  have hup : first = t.upcoming.map .str := by rw [hst.upcoming, hshown hfirst]
  refine ⟨fun v hv => ?_, fun hnone => ?_⟩
  · obtain ⟨act, hact, rfl⟩ := Option.map_eq_some_iff.1 (hup.symm.trans hv)
    refine ⟨act, rfl, fun hknown => ?_, fun hunknown => ?_⟩
    · have hvisits := (hiff act).2 ⟨hknown, hact⟩
      exact ⟨hvisits, hvisits.actNow⟩
    · exact ht.passesOver_of_not_hasAct later wholeHistory hact hunknown hcontext
  · have hempty := Option.map_eq_none_iff.1 (hup.symm.trans hnone)
    exact ht.passesOver_of_empty later wholeHistory hempty context

/-- Two acts under a hook that shows the first entry of the queue only: once the first act was
played on to, the second one is announced and visited. -/
theorem second_of_two_announced :
    let acts : Scenario :=
      ⟨[("A", Act.empty), ("B", Act.empty)], [("order", .list [.str "A", .str "B"])]⟩
    let hook := Hook.ofList "first" (·.take 1)
    let config := { Config.default with hooks := .proper [("get_act_queue", .proper [hook])] }
    let commands : List (Timestamp × Command) :=
      [(default, .init (.compiled acts) .null), (default, .next .null false)]
    let s := (run (new config) commands).2
    config.Steady ∧ s.config.ShowsFirst ∧ ∃ t,
      step default s .nextAct = (.ok (.value (.str "B")), t) ∧
        Visits default t .null false "B" := by
  intro acts hook config commands s
  have hconfig : config.Steady := Config.steady_singleton _ (Hook.steady_ofList _ _)
  have hfirst : s.config.ShowsFirst := by
    intro hooks hat
    cases hat
    refine List.forall_mem_singleton.2 (Hook.keepsFirst_ofList _ fun items => ?_)
    cases items <;> rfl
  have hcommands : ∀ c ∈ commands, c.2.Orderly :=
    List.forall_mem_cons.2 ⟨trivial, List.forall_mem_singleton.2 trivial⟩
  obtain ⟨first, t, hnext, -, hplays⟩ := next_plays_announced hconfig hcommands default default
  have hreply : first.getD .null = .str "B" :=
    Reply.value.inj (Except.ok.inj (congrArg Prod.fst hnext).symm)
  have hsome : first = some (.str "B") := by
    cases first with
    | none => cases hreply
    | some v => exact congrArg some hreply
  subst hsome
  obtain ⟨act, hact, hvisits, -⟩ := ((hplays .null false (Or.inl rfl)).2 hfirst).1 _ rfl
  cases hact
  have ht : t.staging = s.staging := congrArg (fun result => result.2.staging) hnext.symm
  exact ⟨hconfig, hfirst, t, hnext, (hvisits ⟨_, ht, rfl⟩).1⟩

/-- What is announced need not be played: the hooks may show the queue in another order, and the
queue of a snapshot may name what is no act. With nothing announced, the history still grows by what
the hooks add to it. -/
theorem announced_not_always_played :
    let acts : Scenario :=
      ⟨[("A", Act.empty), ("B", Act.empty)], [("order", .list [.str "A", .str "B"])]⟩
    let under (stage : String) (f : List Value → List Value) : Config :=
      { Config.default with hooks := .proper [(stage, .proper [.ofList "hook" f])] }
    let reversed := (run (new (under "get_act_queue" .reverse))
      [(default, .init (.compiled acts) .null)]).2
    let resumed := (run (new Config.default)
      [(default, .resume ⟨acts, { Progress.initial acts with queue := ["Z"] }⟩)]).2
    let exhausted := (run (new (under "before_next" (· ++ [.dict []])))
      [(default, .init (.compiled ⟨[], []⟩) .null)]).2
    (∀ stage f, (under stage f).Steady) ∧
    (∃ t, step default reversed .nextAct = (.ok (.value (.str "B")), t) ∧
      ¬ Visits default t .null false "B" ∧
      (step default t (.next .null false)).2.actNow = some "A") ∧
    (∃ t, step default resumed .nextAct = (.ok (.value (.str "Z")), t) ∧
      ¬ Visits default t .null false "Z" ∧
      (step default t (.next .null false)).1 = .ok .nothing) ∧
    ∃ t, step default exhausted .hasNext = (.ok (.value (.bool false)), t) ∧
      t.progress.map (·.history) = some (.list []) ∧
      (step default t (.next .null false)).2.progress.map (·.history) =
        some (.list [.dict []]) := by
  intro acts under reversed resumed exhausted
  have hsteady : ∀ stage f, (under stage f).Steady := fun stage f =>
    Config.steady_singleton stage (Hook.steady_ofList _ f)
  refine ⟨hsteady, ⟨_, rfl, ?_, rfl⟩, ⟨_, rfl, ?_, rfl⟩, _, rfl, rfl, rfl⟩
  · intro hvisits
    exact absurd hvisits.actNow (by decide)
  · have horderly : Orderly (step default resumed .nextAct).2 := by
      have hplain : Config.default.Steady := ⟨[], rfl, fun _ hmem => (nomatch hmem)⟩
      have hresumed : Orderly resumed :=
        run_orderly hplain (List.forall_mem_singleton.2 (Value.isList_list []))
      have hasked : Keeps Orderly (perform default .nextAct) :=
        keeps_perform_orderly default trivial
      exact step_leaves (hasked _ hresumed)
    exact (horderly.passesOver_of_unknown default false rfl rfl rfl (Or.inl rfl)).not_visits _ _ "Z"

end Session

end Playscript
