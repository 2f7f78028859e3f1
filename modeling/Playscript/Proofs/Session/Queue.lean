import Playscript.Proofs.Scenario.Order
import Playscript.Proofs.Session.Reading

/-!
# Playing through the queue

The queue, the current act and the order of the acts are kept apart: playing an act by name moves
the current act but not the queue, and playing on moves both. The invariant `Playing` ties them
together: after `k` steps the queue is the order without its first `k` acts.
-/
namespace Playscript.Session

def Command.Steady : Command → Prop
  | .init .. | .load _ | .resume _ | .reload .. | .finish => False
  | .next context _ => ∀ name, context ≠ .str name
  | .addHook _ hook => hook.Steady
  | .update values => ∀ entry ∈ values, entry.1 = "hooks" →
      (Config.default.setField entry.1 entry.2).Steady
  | _ => True

def Command.isNext : Command → Bool
  | .next .. => true
  | _ => false

/-- A session under way whose queue is the order of the acts without its first `k`. -/
structure Playing (order : List String) (k : Nat) (s : Session) : Prop where
  steady : s.config.Steady
  staged : ∃ staging, s.staging = some staging ∧ staging.scenario.Ordered ∧
    staging.scenario.order = order
  queued : ∃ progress, s.progress = some progress ∧ progress.queue = order.drop k ∧
    progress.history.IsList

variable {order : List String} {k : Nat} {s t : Session} {P : Session → Prop}

/-! ## Commands that leave the queue alone -/

def Aside (change : Progress → Progress) : Prop :=
  ∀ p, (change p).queue = p.queue ∧ (p.history.IsList → (change p).history.IsList)

structure Sturdy (P : Session → Prop) : Prop where
  steady : ∀ s, P s → s.config.Steady
  listed : ∀ s p, P s → s.progress = some p → p.history.IsList
  noted : CallFree P
  aside : ∀ s p change, Aside change → P s → s.progress = some p →
    P { s with progress := some (change p) }
  configured : ∀ s config, P s → config.Steady → P { s with config := config }

theorem sturdy_playing : Sturdy (Playing order k) where
  steady := fun _ h => h.steady
  listed := fun s p h hp => by
    obtain ⟨q, hq, -, hlist⟩ := h.queued
    cases hp.symm.trans hq
    exact hlist
  noted := fun _ _ h => ⟨h.steady, h.staged, h.queued⟩
  aside := fun s p change hc h hp => by
    obtain ⟨q, hq, hqueue, hlist⟩ := h.queued
    cases hp.symm.trans hq
    exact ⟨h.steady, h.staged, change p, rfl, (hc p).1.trans hqueue, (hc p).2 hlist⟩
  configured := fun _ _ h hconfig => ⟨hconfig, h.staged, h.queued⟩

namespace Sturdy

theorem of_noted (hP : Sturdy P) (h : P s) (hst : Noted s t) : P t := by
  obtain ⟨calls, rfl⟩ := hst
  exact hP.noted s calls h

theorem keeps_quiet (hP : Sturdy P) {α : Type} {x : Play α} (hx : Quiet x) : Keeps P x :=
  fun _ h => (hx.leaves (hP.steady _ h)).mono fun _ ht => hP.of_noted h ht

theorem hooksKeep (hP : Sturdy P) (stage : Stage) : HooksKeep P stage := fun value =>
  hP.keeps_quiet (quiet_runHooks stage value)

theorem runHooks_list (hP : Sturdy P) (h : P s) (stage : Stage) {value : Value}
    (hlist : value.IsList) :
    Ensures (runHooks stage value) s (fun v t => P t ∧ v.IsList) (fun _ => P) :=
  (runHooks_steady (hP.steady s h) stage value).mono
    (fun _ _ ht => ⟨hP.of_noted h ht.1, ht.2 hlist⟩) fun _ _ ht => hP.of_noted h ht.1

theorem keeps_advance (hP : Sturdy P) {change : Progress → Progress} (hc : Aside change) :
    Keeps P (advance change) :=
  keeps_advancing fun s p => hP.aside s p change hc

theorem keeps_extend (hP : Sturdy P) {change : Progress → Progress} (hc : Aside change) :
    Keeps P (extend change) :=
  keeps_extending fun s p => hP.aside s p change hc

theorem historyFree (hP : Sturdy P) : HistoryFree P := fun s p items =>
  hP.aside s p (fun p => { p with history := .list items }) fun _ => ⟨rfl, fun _ => ⟨_, rfl⟩⟩

theorem ledgerFree (hP : Sturdy P) : LedgerFree P := fun s p cost log =>
  hP.aside s p (fun p => { p with cost := cost, log := log }) fun _ => ⟨rfl, id⟩

theorem keeps_execute (hP : Sturdy P) (context act : Value) : Keeps P (execute context act) :=
  hP.noted.execute (hP.hooksKeep _) hP.historyFree
    (fun _ _ _ => hP.keeps_advance (by exact fun _ => ⟨rfl, id⟩)) context act

theorem keeps_save (hP : Sturdy P) : Keeps P save := by
  apply keeps_get_bind
  intro s h
  cases hp : s.progress with
  | none => exact h
  | some progress =>
    refine ensures_bind.2 ((hP.runHooks_list h _ (hP.listed s progress h hp)).mono
      (fun v t ht => ?_) fun _ _ => id)
    exact Keeps.bind (hP.keeps_advance (by exact fun _ => ⟨rfl, fun _ => ht.2⟩))
      (fun _ => keeps_snapshot) t ht.1

theorem keeps_perform (hP : Sturdy P) (now : Timestamp) {command : Command} (h : command.Steady)
    (hnext : command.isNext = false) : Keeps P (perform now command) := by
  by_cases hasks : command.Asks
  · exact keeps_asks (fun stage _ => hP.hooksKeep stage) now hasks
  cases command with
  | init | load | resume | reload | finish => exact h.elim
  | next => cases hnext
  | save => exact hP.keeps_save.bind fun _ => keeps_pure _
  | clearContext =>
    exact ((hP.hooksKeep _).clearContext (hP.keeps_advance fun _ => ⟨rfl, id⟩)).bind fun _ =>
      keeps_pure _
  | addAction role action =>
    apply keeps_get_bind
    intro s hs
    refine ensures_bind.2 (ensures_ofExcept.2 ⟨fun config hconfig => ?_, fun _ _ => hs⟩)
    exact hP.configured s _ hs ((hP.steady s hs).congr (Config.addAction_hooks hconfig))
  | addHook stage hook =>
    apply Keeps.bind (keeps_ofExcept _)
    intro stage
    apply keeps_get_bind
    intro s hs
    refine ensures_bind.2 (ensures_ofExcept.2 ⟨fun config hconfig => ?_, fun _ _ => hs⟩)
    exact hP.configured s _ hs ((hP.steady s hs).addHook h hconfig)
  | update values =>
    apply keeps_get_bind
    intro s hs
    refine ensures_bind.2 (ensures_ofExcept.2 ⟨fun config hconfig => ?_, fun _ _ => hs⟩)
    exact hP.configured s _ hs ((hP.steady s hs).update h hconfig)
  | execute context act => exact (hP.keeps_execute _ _).bind fun _ => keeps_pure _
  | answer message => exact (hP.historyFree.answer _).bind fun _ => keeps_pure _
  | pushMessages messages =>
    exact (hP.historyFree.pushMessages (hP.hooksKeep _) _).bind fun _ => keeps_pure _
  | pushContexts contexts =>
    exact ((hP.hooksKeep _).pushContexts (fun _ => hP.keeps_extend fun _ => ⟨rfl, id⟩) _).bind
      fun _ => keeps_pure _
  | runHooks stage value =>
    exact (keeps_runHooksAt hP.hooksKeep _ _).bind fun _ => keeps_pure _
  | addCost cost => exact (hP.ledgerFree.addRead _).bind fun _ => keeps_pure _
  | addUsage usage => exact (hP.ledgerFree.addRead _).bind fun _ => keeps_pure _
  | log request response rest =>
    exact (hP.ledgerFree.log _ _ _ _).bind fun _ => keeps_pure _
  | _ => exact (hasks trivial).elim

end Sturdy

/-! ## Playing on -/

structure Underway (s : Session) : Prop where
  steady : s.config.Steady
  staged : ∃ staging, s.staging = some staging
  listed : ∃ progress, s.progress = some progress ∧ progress.history.IsList

theorem Playing.underway (h : Playing order k s) : Underway s := by
  obtain ⟨staging, hstaging, -⟩ := h.staged
  obtain ⟨progress, hp, -, hlist⟩ := h.queued
  exact ⟨h.steady, ⟨staging, hstaging⟩, progress, hp, hlist⟩

def playCurrent (context : Value) (wholeHistory : Bool) (act : String) : Play (Option Value) := do
  match ← execute (if context.truthy then context else .dict []) (.str act) with
  | none => return none
  | some messages =>
    if wholeHistory then return some (.list (← said))
    else return some (← runHooks .nextReturns messages)

def Arrived (act : Option String) (s t : Session) : Prop :=
  ∃ progress calls history, s.progress = some progress ∧ t = { s with
    calls := calls
    progress := some { progress with
      act := act
      queue := progress.queue.tail
      history := .list history } }

def goneOn (progress : Progress) (history : List Value) (calls : List Call) (s : Session) :
    Session :=
  { s with
    calls := calls
    progress := some { progress with
      act := progress.queue.head?
      queue := progress.queue.tail
      history := .list history } }

theorem Underway.next_run (h : Underway s) {progress : Progress}
    (hp : s.progress = some progress) :
    ∃ history calls,
      (runHooks .beforeNext progress.history).run s =
        .ok (.list history) { s with calls := calls } ∧
        ∀ context wholeHistory, (next context wholeHistory).run s =
          (progress.queue.head?.elim (pure none) (playCurrent context wholeHistory)).run
            (goneOn progress history calls s) := by
  obtain ⟨staging, hstaging⟩ := h.staged
  obtain ⟨progress', hp', hlist⟩ := h.listed
  cases hp.symm.trans hp'
  obtain ⟨v, u, hrun, ⟨calls, rfl⟩, hv⟩ :=
    (runHooks_steady h.steady .beforeNext progress.history).exists_ok fun _ _ hf => hf.2 hlist
  obtain ⟨history, rfl⟩ := hv hlist
  refine ⟨history, calls, hrun, fun context wholeHistory => ?_⟩
  simp only [next, run_get_bind, current?_eq hstaging hp, run_bind_ok hrun]
  rw [run_bind_ok (run_advance (by exact hp))]
  simp only [run_get_bind, Option.bind_some, goneOn]
  cases progress.queue.head? with
  | none => rfl
  | some act => rfl

theorem next_run (h : Playing order k s) (context : Value) (wholeHistory : Bool) :
    ∃ t, Arrived order[k]? s t ∧ (next context wholeHistory).run s =
      (order[k]?.elim (pure none) (playCurrent context wholeHistory)).run t := by
  obtain ⟨progress, hp, hqueue, -⟩ := h.queued
  obtain ⟨history, calls, -, hrun⟩ := h.underway.next_run hp
  have hhead : progress.queue.head? = order[k]? := by rw [hqueue, List.head?_drop]
  refine ⟨_, ⟨progress, calls, history, hp, rfl⟩, ?_⟩
  rw [hrun, hhead, goneOn, hhead]

theorem Playing.arrived (h : Playing order k s) (ht : Arrived order[k]? s t) :
    Playing order (k + 1) t := by
  obtain ⟨progress, calls, history, hp, rfl⟩ := ht
  obtain ⟨progress', hp', hqueue, -⟩ := h.queued
  cases hp.symm.trans hp'
  exact ⟨h.steady, h.staged, _, rfl, by rw [hqueue, List.tail_drop], _, rfl⟩

theorem Sturdy.keeps_playCurrent (hP : Sturdy P) (context : Value) (wholeHistory : Bool)
    (act : String) : Keeps P (playCurrent context wholeHistory act) := by
  apply (hP.keeps_execute _ _).bind
  intro messages
  split
  · exact keeps_pure _
  · split_ifs
    · exact keeps_said.bind fun _ => keeps_pure _
    · exact (hP.hooksKeep _ _).bind fun _ => keeps_pure _

theorem next_leaves (h : Playing order k s) (context : Value) (wholeHistory : Bool) :
    Leaves (next context wholeHistory) s (Playing order (k + 1)) := by
  obtain ⟨t, ht, hrun⟩ := next_run h context wholeHistory
  have ht' := h.arrived ht
  rw [Leaves, Ensures, hrun]
  cases order[k]? with
  | none => exact ht'
  | some act => exact sturdy_playing.keeps_playCurrent _ _ _ t ht'

/-! ## Runs -/

def nexts (commands : List (Timestamp × Command)) : Nat := commands.countP (·.2.isNext)

theorem step_playing (h : Playing order k s) (now : Timestamp) {command : Command}
    (hc : command.Steady) :
    Playing order (if command.isNext then k + 1 else k) (step now s command).2 := by
  apply step_leaves
  cases hnext : command.isNext with
  | false => exact sturdy_playing.keeps_perform now hc hnext s h
  | true =>
    cases command <;> try cases hnext
    exact ensures_bind.2 ((next_leaves h _ _).mono fun _ ht => ht)

theorem run_playing (h : Playing order k s) {commands : List (Timestamp × Command)}
    (hc : ∀ c ∈ commands, c.2.Steady) :
    Playing order (k + nexts commands) (run s commands).2 := by
  induction commands generalizing s k with
  | nil => exact h
  | cons command rest ih =>
    have hstep := step_playing h command.1 (hc _ List.mem_cons_self)
    have hrest := ih hstep fun c hmem => hc c (List.mem_cons_of_mem _ hmem)
    have hcount : (if command.2.isNext then k + 1 else k) + nexts rest =
        k + nexts (command :: rest) := by
      simp only [nexts, List.countP_cons]
      split_ifs <;> omega
    rw [← hcount]
    exact hrest

/-! ## The current act -/

def actNow (s : Session) : Option String := s.progress.bind (·.act)

theorem Noted.actNow {s t : Session} (h : Noted s t) : t.actNow = s.actNow := by
  obtain ⟨calls, rfl⟩ := h
  rfl

def entered (act : String) (given : Record) (progress : Progress) : Progress :=
  { progress with
    act := some act
    context := Context.merge progress.context given
    contexts := progress.contexts ++ [.dict given] }

def Played (act : String) (context messages : Value) (s t : Session) : Prop :=
  ∃ progress given earlier items calls, s.progress = some progress ∧
    context.toRecordIfGiven = .ok given ∧ progress.history = .list earlier ∧
    messages = .list items ∧ t = { s with
      calls := calls
      progress := some { entered act given progress with history := .list (earlier ++ items) } }

theorem request_of_notText {context : Value} (h : ∀ name, context ≠ .str name) (act : Value) :
    request context act = (context, act) := by
  cases context <;> first | rfl | exact absurd rfl (h _)

theorem actAt_str {name : String} (h : name ≠ "") (s : Session) :
    s.actAt (.str name) = .str name := by
  simp [actAt, Value.truthy, h]

theorem buildMessages_spec (hs : s.config.Steady) (staging : Staging) (act : String)
    (context : Record) :
    Ensures (buildMessages staging act context) s (fun v t => Noted s t ∧ v.IsList)
      (fun _ t => Noted s t) := by
  refine ensures_bind.2 (ensures_ofExcept.2 ⟨fun built _ => ?_, fun _ _ => Noted.refl s⟩)
  refine ensures_bind.2 (Ensures.mono ((quiet_applyActions staging act built).leaves hs)
    (fun messages t ht => ?_) fun _ _ => id)
  exact (runHooks_steady (ht.config ▸ hs) _ _).mono
    (fun v u hu => ⟨ht.trans hu.1, hu.2 (Value.isList_list _)⟩) fun _ u hu => ht.trans hu.1

theorem Underway.execute_spec (h : Underway s) {staging : Staging}
    (hstaging : s.staging = some staging) {act : String} (hat : s.actAt (.str act) = .str act)
    (hknown : (staging.scenario.act? act).isSome) {context : Value}
    (hcontext : ∀ name, context ≠ .str name) :
    Ensures (execute context (.str act)) s
      (fun messages t => ∃ v, messages = some v ∧ Played act context v s t)
      (fun _ t => t = s ∨ t.actNow = some act) := by
  obtain ⟨progress, hp, earlier, hearlier⟩ := h.listed
  have hknown : (staging.scenario.act? act).isNone = false := Option.isNone_eq_false_iff.2 hknown
  simp only [execute, ensures_bind, ensures_get, current?_eq hstaging hp,
    request_of_notText hcontext, hat, Scenario.nameFrom, ensures_ofExcept_ok]
  refine ensures_ofExcept.2 ⟨fun given hgiven => ?_, fun _ _ => Or.inl rfl⟩
  simp only [hknown, Bool.false_eq_true, if_false, ensures_bind]
  apply ensures_advance.2
  rw [hp]
  have hentered : Session.config { s with progress := some (entered act given progress) } =
      s.config := rfl
  refine Ensures.mono (buildMessages_spec (hentered ▸ h.steady) staging act _) ?_ ?_
  · rintro v t ⟨⟨calls, rfl⟩, items, rfl⟩
    simp only [record, ensures_bind, ensures_get, hearlier, Value.items, ensures_ofExcept_ok,
      Value.several, ensures_advance, ensures_pure]
    exact ⟨_, rfl, progress, given, earlier, items, calls, hp, hgiven, hearlier, rfl, rfl⟩
  · rintro fault t ⟨calls, rfl⟩
    exact Or.inr rfl

theorem execute_ifTruthy {context : Value} (h : ∀ name, context ≠ .str name) (act : Value) :
    execute (if context.truthy then context else .dict []) act = execute context act := by
  by_cases ht : context.truthy
  · rw [if_pos ht]
  · rw [if_neg ht]
    have hgiven : context.toRecordIfGiven = Value.toRecordIfGiven (.dict []) := by
      rw [Value.toRecordIfGiven, if_neg ht]
      rfl
    simp only [execute, request_of_notText h, hgiven,
      request_of_notText (fun _ => Value.noConfusion : ∀ name, Value.dict [] ≠ .str name)]

/-- What a `next` that finds an act does: it makes the act the current one and plays it. A fault in
playing the act is a fault of `next`; otherwise the answer is what the act said, as the hooks leave
it, or the history. -/
def Visits (now : Timestamp) (s : Session) (context : Value) (wholeHistory : Bool)
    (act : String) : Prop :=
  ∃ t, Arrived (some act) s t ∧
    match (execute context (.str act)).run t with
    | .error fault u => u.actNow = some act ∧
        step now s (.next context wholeHistory) = (.error fault, u)
    | .ok none _ => False
    | .ok (some messages) u => Played act context messages t u ∧
        ∃ v w, Noted u w ∧ step now s (.next context wholeHistory) = (.ok (.value v), w) ∧
          if wholeHistory then u.progress.map (·.history) = some v
          else (runHooks .nextReturns messages).run u = .ok v w

theorem Underway.goneOn (h : Underway s) (progress : Progress) (history : List Value)
    (calls : List Call) : Underway (s.goneOn progress history calls) :=
  ⟨h.steady, h.staged, _, rfl, _, rfl⟩

theorem Underway.next_visits (now : Timestamp) (h : Underway s) {progress : Progress}
    (hp : s.progress = some progress) {staging : Staging} (hstaging : s.staging = some staging)
    {act : String} (hhead : progress.queue.head? = some act)
    (hknown : (staging.scenario.act? act).isSome)
    (hat : ∀ history calls, (s.goneOn progress history calls).actAt (.str act) = .str act)
    {context : Value} (hcontext : ∀ name, context ≠ .str name) (wholeHistory : Bool) :
    Visits now s context wholeHistory act := by
  obtain ⟨history, calls, -, hrun⟩ := h.next_run hp
  have hrun := hrun context wholeHistory
  have hmoved := h.goneOn progress history calls
  have hnow : (s.goneOn progress history calls).actNow = some act := hhead
  refine ⟨s.goneOn progress history calls, ⟨progress, calls, history, hp, by rw [← hhead]; rfl⟩, ?_⟩
  have hspec := hmoved.execute_spec hstaging (hat history calls) hknown hcontext
  simp only [hhead, Option.elim_some, playCurrent, execute_ifTruthy hcontext] at hrun
  cases hexec : (execute context (.str act)).run (s.goneOn progress history calls) with
  | error fault u =>
    rw [run_bind_error hexec] at hrun
    refine ⟨?_, ?_⟩
    · rcases hspec.of_error hexec with rfl | hu
      · exact hnow
      · exact hu
    · simp only [step, perform, run_bind_error hrun]
  | ok messages u =>
    obtain ⟨v, rfl, hplayed⟩ := hspec.of_ok hexec
    have hsteady : u.config.Steady := by
      obtain ⟨_, _, _, _, _, -, -, -, -, rfl⟩ := hplayed
      exact hmoved.steady
    rw [run_bind_ok hexec] at hrun
    refine ⟨hplayed, ?_⟩
    cases wholeHistory with
    | true =>
      obtain ⟨progress, given, earlier, items, calls, hp, -, -, -, rfl⟩ := hplayed
      refine ⟨_, _, Noted.refl _, ?_, rfl⟩
      simp only [step, perform]
      rw [run_bind_ok hrun]
      rfl
    | false =>
      obtain ⟨_, _, _, items, _, -, -, -, rfl, -⟩ := hplayed
      obtain ⟨v, w, hhooks, hw, -⟩ := (runHooks_steady hsteady .nextReturns (.list items)).exists_ok
        fun _ _ hf => hf.2 (Value.isList_list _)
      refine ⟨v, w, hw, ?_, hhooks⟩
      simp only [Bool.false_eq_true, if_false] at hrun
      rw [run_bind_ok hhooks] at hrun
      simp only [step, perform]
      rw [run_bind_ok hrun]
      rfl

theorem next_visits (now : Timestamp) (h : Playing order k s) {act : String}
    (hk : order[k]? = some act) (hact : act ≠ "") {context : Value}
    (hcontext : ∀ name, context ≠ .str name) (wholeHistory : Bool) :
    Visits now s context wholeHistory act := by
  obtain ⟨staging, hstaging, hordered, horder⟩ := h.staged
  obtain ⟨progress, hp, hqueue, -⟩ := h.queued
  have hmem : act ∈ staging.scenario.order := horder ▸ List.mem_of_getElem? hk
  have hknown := (staging.scenario.isSome_act?_iff act).2 ((hordered.mem_order act).1 hmem)
  have hhead : progress.queue.head? = some act := by rw [hqueue, List.head?_drop, hk]
  exact h.underway.next_visits now hp hstaging hhead hknown (fun _ _ => actAt_str hact _) hcontext
    wholeHistory

theorem Visits.actNow {now : Timestamp} {context : Value} {wholeHistory : Bool} {act : String}
    (h : Visits now s context wholeHistory act) :
    (step now s (.next context wholeHistory)).2.actNow = some act := by
  obtain ⟨t, -, h⟩ := h
  split at h
  · rw [h.2]
    exact h.1
  · exact h.elim
  · obtain ⟨⟨_, _, _, _, _, -, -, -, -, rfl⟩, v, w, hw, hstep, -⟩ := h
    rw [hstep]
    exact hw.actNow

theorem next_exhausted (now : Timestamp) (h : Playing order k s) (hk : order.length ≤ k)
    (context : Value) (wholeHistory : Bool) :
    (step now s (.next context wholeHistory)).1 = .ok .nothing ∧
      (step now s (.next context wholeHistory)).2.actNow = none := by
  obtain ⟨t, ht, hrun⟩ := next_run h context wholeHistory
  rw [List.getElem?_eq_none hk] at ht hrun
  obtain ⟨progress, calls, history, hp, rfl⟩ := ht
  simp only [step, perform]
  rw [run_bind_ok hrun]
  exact ⟨rfl, rfl⟩

theorem next_actNow (now : Timestamp) (h : Playing order k s) (hnames : ∀ name ∈ order, name ≠ "")
    {context : Value} (hcontext : ∀ name, context ≠ .str name) (wholeHistory : Bool) :
    (step now s (.next context wholeHistory)).2.actNow = order[k]? := by
  cases hk : order[k]? with
  | none => exact (next_exhausted now h (List.getElem?_eq_none_iff.1 hk) _ _).2
  | some act =>
    exact (next_visits now h hk (hnames act (List.mem_of_getElem? hk)) hcontext _).actNow

def movedByNext : Bool → Session → List (Timestamp × Command) → Bool
  | moved, _, [] => moved
  | moved, s, (now, command) :: rest =>
    let t := (step now s command).2
    movedByNext (if command.isNext then t.actNow.isSome else moved && t.actNow == s.actNow)
      t rest

def AtLast (order : List String) (k : Nat) (s : Session) : Prop :=
  ∃ j, k = j + 1 ∧ j < order.length ∧ s.actNow = order[j]?

theorem run_atLast (h : Playing order k s) (hnames : ∀ name ∈ order, name ≠ "")
    {commands : List (Timestamp × Command)} (hc : ∀ c ∈ commands, c.2.Steady) {moved : Bool}
    (hmoved : moved = true → AtLast order k s) (hend : movedByNext moved s commands = true) :
    AtLast order (k + nexts commands) (run s commands).2 := by
  induction commands generalizing s k moved with
  | nil => exact hmoved hend
  | cons timed rest ih =>
    obtain ⟨now, command⟩ := timed
    have hsteady : command.Steady := hc _ List.mem_cons_self
    have hstep := step_playing h now hsteady
    have hcount : (if command.isNext then k + 1 else k) + nexts rest =
        k + nexts ((now, command) :: rest) := by
      simp only [nexts, List.countP_cons]
      split_ifs <;> omega
    rw [← hcount]
    refine ih hstep (fun c hmem => hc c (List.mem_cons_of_mem _ hmem)) (fun hflag => ?_) hend
    cases hnext : command.isNext with
    | false =>
      simp only [hnext, Bool.false_eq_true, if_false, Bool.and_eq_true, beq_iff_eq] at hflag ⊢
      obtain ⟨j, hk, hj, hact⟩ := hmoved hflag.1
      exact ⟨j, hk, hj, hflag.2.trans hact⟩
    | true =>
      simp only [hnext, if_true] at hflag ⊢
      cases command <;> try cases hnext
      next context wholeHistory =>
      have hact := next_actNow now h hnames hsteady wholeHistory
      refine ⟨k, rfl, ?_, hact⟩
      rw [hact] at hflag
      simpa using hflag

theorem dropWhile_ne_eq_drop {names : List String} (h : names.Nodup) {i : Nat} {a : String}
    (hi : names[i]? = some a) : names.dropWhile (· ≠ a) = names.drop i := by
  induction names generalizing i with
  | nil => cases hi
  | cons name rest ih =>
    obtain ⟨hname, hrest⟩ := List.nodup_cons.1 h
    cases i with
    | zero =>
      cases hi
      simp
    | succ i =>
      have hne : name ≠ a := fun he => hname (he ▸ List.mem_of_getElem? hi)
      simpa [hne] using ih hrest hi

theorem AtLast.remaining (hlast : AtLast order k s) (h : Playing order k s) :
    s.remaining = order.drop k := by
  obtain ⟨j, rfl, hj, hact⟩ := hlast
  obtain ⟨staging, hstaging, hordered, rfl⟩ := h.staged
  obtain ⟨progress, hp, -⟩ := h.queued
  have hget : staging.scenario.order[j]? = some staging.scenario.order[j] :=
    List.getElem?_eq_getElem hj
  have hcurrent : s.currentAct = some staging.scenario.order[j] := by
    rw [actNow, hp, Option.bind_some, hget] at hact
    simp [currentAct, hstaging, hp, hact]
  simp only [Session.remaining, current?_eq hstaging hp, hcurrent]
  rw [dropWhile_ne_eq_drop hordered.nodup hget, List.drop_drop]

/-! ## From the start -/

def Source.Sound : Source → Prop
  | .text _ => True
  | .data v => v.Distinct
  | .compiled scenario => scenario.Ordered
  | .staged staging => staging.scenario.Ordered

theorem Source.Sound.ordered [DataModel] [DataModel.Documented] {source : Source}
    (h : source.Sound) {given : Except Fault Record}
    {staging : Staging} (hstage : source.stage given = .ok staging) : staging.scenario.Ordered := by
  cases source with
  | staged staging' =>
    cases hstage
    exact h
  | text script =>
    cases given with
    | error fault => cases hstage
    | ok given => exact Staging.ordered_of_ofText hstage
  | compiled scenario =>
    cases given with
    | error fault => cases hstage
    | ok given => exact Staging.scenario_of_ofScenario hstage ▸ h
  | data v =>
    cases given with
    | error fault => cases hstage
    | ok given =>
      simp only [Source.stage, bind, Except.bind] at hstage
      split at hstage
      · cases hstage
      · cases hcheck : Scenario.check v with
        | error issues => simp [hcheck, Check.outcome] at hstage
        | ok scenario =>
          simp only [hcheck, Check.outcome] at hstage
          exact Staging.scenario_of_ofScenario hstage ▸ Scenario.ordered_of_check h hcheck

theorem init_playing (h : s.config.Steady) {source : Source} (hsource : source.Sound)
    (settings : Value) :
    Ensures (init source settings) s
      (fun _ t => ∃ staging, t.staging = some staging ∧ Playing staging.scenario.order 0 t)
      (fun _ _ => True) := by
  simp only [init, ensures_bind, ensures_get]
  refine ensures_ofExcept.2 ⟨fun staging hstaging => ?_, fun _ _ => trivial⟩
  have hordered := hsource.ordered hstaging
  rw [ensures_modify]
  refine Ensures.mono (runHooks_steady (by exact h) _ _) (fun v t ht => ?_) fun _ _ _ => trivial
  obtain ⟨⟨calls, rfl⟩, hv⟩ := ht
  exact ensures_advance.2 ⟨staging, rfl, h, ⟨staging, rfl, hordered, rfl⟩, _, rfl, rfl,
    hv (Value.isList_list _)⟩

/-- Playing on visits every act once and in order, whatever is done in between: after `k` times the
queue is the order without its first `k` acts, the next time visits act `k` of the order, and once
there is none the answer is nothing. The acts after the current one are the queue whenever the
current act was last changed by playing on. -/
theorem next_visits_in_order {now : Timestamp} {config : Config} (hconfig : config.Steady)
    {source : Source} (hsource : source.Sound) {settings : Value} {reply : Reply}
    {started : Session}
    (hinit : step now (new config) (.init source settings) = (.ok reply, started))
    {staging : Staging} (hstaging : started.staging = some staging)
    (hnames : ∀ name ∈ staging.scenario.order, name ≠ "")
    {commands : List (Timestamp × Command)} (hcommands : ∀ c ∈ commands, c.2.Steady) :
    let order := staging.scenario.order
    let k := nexts commands
    let session := (run started commands).2
    (∃ progress, session.progress = some progress ∧ progress.queue = order.drop k ∧
      (movedByNext false started commands = true → session.remaining = progress.queue)) ∧
    ∀ (now : Timestamp) (context : Value) (wholeHistory : Bool), (∀ name, context ≠ .str name) →
      (∀ act, order[k]? = some act → Visits now session context wholeHistory act ∧
        (step now session (.next context wholeHistory)).2.actNow = some act) ∧
      (order.length ≤ k → (step now session (.next context wholeHistory)).1 = .ok .nothing ∧
        (step now session (.next context wholeHistory)).2.actNow = none) := by
  have hstart : Playing staging.scenario.order 0 started := by
    have hspec : Ensures (perform now (.init source settings)) (new config)
        (fun _ t => ∃ staging, t.staging = some staging ∧ Playing staging.scenario.order 0 t)
        (fun _ _ => True) := by
      refine ensures_bind.2 (Ensures.mono (init_playing hconfig hsource settings) ?_ ?_)
      · exact fun _ _ h => h
      · exact fun _ _ h => h
    obtain ⟨staging', hstaging', hplaying⟩ := hspec.of_ok (perform_of_step hinit)
    cases hstaging'.symm.trans hstaging
    exact hplaying
  have hend := run_playing hstart hcommands
  rw [Nat.zero_add] at hend
  refine ⟨?_, fun now context wholeHistory hcontext => ⟨fun act hact => ?_, fun hk => ?_⟩⟩
  · obtain ⟨progress, hp, hqueue, -⟩ := hend.queued
    refine ⟨progress, hp, hqueue, fun hmoved => ?_⟩
    have hlast := run_atLast hstart hnames hcommands (fun h : false = true => nomatch h)
      hmoved
    rw [Nat.zero_add] at hlast
    rw [hlast.remaining hend, hqueue]
  · have hvisits := next_visits now hend hact (hnames act (List.mem_of_getElem? hact)) hcontext
      wholeHistory
    exact ⟨hvisits, hvisits.actNow⟩
  · exact next_exhausted now hend hk context wholeHistory

/-- Two acts under a hook that passes on what it is shown: once an act was played on to and the
other one was played by name, playing on visits the second act. -/
theorem second_of_two_visited :
    let acts : Scenario :=
      ⟨[("A", Act.empty), ("B", Act.empty)], [("order", .list [.str "A", .str "B"])]⟩
    let hook : Hook := .call "pass" fun view => .ok ⟨some view.value, false⟩
    let config : Config :=
      { Config.default with hooks := .proper [("before_next", .proper [hook])] }
    let started := (step default (new config) (.init (.compiled acts) .null)).2
    let commands : List (Timestamp × Command) :=
      [(default, .next .null false), (default, .execute .null (.str "B"))]
    let session := (run started commands).2
    (∃ progress, session.progress = some progress ∧ progress.queue = ["B"]) ∧
      Visits default session .null true "B" ∧
      (step default session (.next .null true)).2.actNow = some "B" := by
  intro acts hook config started commands session
  have hhook : hook.Steady :=
    ⟨fun view h => ⟨_, rfl, fun v hv => Option.some.inj hv ▸ h⟩, fun view _ h => by cases h; rfl⟩
  have hconfig : config.Steady := by
    refine ⟨_, rfl, fun entry hentry => ⟨[hook], ?_, fun k hk => ?_⟩⟩
    · rw [List.mem_singleton.1 hentry]
    · rw [List.mem_singleton.1 hk]
      exact hhook
  have hacts : acts.Ordered :=
    ⟨rfl, by decide, by decide, fun name => Iff.rfl⟩
  have hinit :
      step default (new config) (.init (.compiled acts) .null) = (.ok .done, started) := rfl
  have hsound : Source.Sound (.compiled acts) := hacts
  have hcommands : ∀ c ∈ commands, c.2.Steady := by
    simp [commands, Command.Steady]
  obtain ⟨⟨progress, hp, hqueue, -⟩, hnext⟩ :=
    next_visits_in_order hconfig hsound hinit rfl (by decide) hcommands
  have hvisits := (hnext default .null true fun _ h => nomatch h).1 "B" rfl
  exact ⟨⟨progress, hp, hqueue⟩, hvisits⟩

end Playscript.Session
