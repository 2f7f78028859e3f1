import Playscript.Proofs.Session.Hookless
import Playscript.Proofs.Snapshot.Made

/-!
# What sessions without hooks keep

A session without hooks whose actions give records keeps the shape of snapshots: its messages and
contexts are records, and what it logs and counts can be told apart from the fixed fields. If a
property of values that is inherited by the parts of a value holds of all that is handed over and
built, it holds of all that the session has come to.
-/
namespace Playscript

open Value (Hereditary IsRecordOf)

def Action.SpeaksOf (F : Value → Prop) : Action → Prop
  | .fixed v => ∀ m ∈ Session.messagesOf v, m.IsRecordOf F
  | .call _ run => ∀ view v, run view = .ok v → ∀ m ∈ Session.messagesOf v, m.IsRecordOf F

namespace Session

/-- A session under settings of a kind that plays a staging of a kind or none and is made of values
with a property. -/
structure Kept (C : Config → Prop) (G : Staging → Prop) (F : Value → Prop)
    (s : Session) : Prop where
  config : C s.config
  staging : ∀ staging, s.staging = some staging → G staging
  progress : ∀ p, s.progress = some p → p.MadeOf F

structure Keeping (C : Config → Prop) (G : Staging → Prop) (F : Value → Prop) : Prop where
  values : Hereditary F
  hookless : ∀ config, C config → config.Hookless
  actions : ∀ config, C config → ∀ actions, config.actions = .proper actions →
    ∀ entry ∈ actions, entry.2.SpeaksOf F
  built : ∀ staging, G staging → ∀ context act built, staging.buildIndexed context act = .ok built →
    ∀ entry ∈ built, ∀ field ∈ entry.2, F field.2

variable {C : Config → Prop} {G : Staging → Prop} {F : Value → Prop} {s : Session}

theorem Kept.advanced (h : Kept C G F s) {p : Progress} (hp : p.MadeOf F) :
    Kept C G F { s with progress := some p } :=
  ⟨h.config, h.staging, fun _ hq => Option.some.inj hq ▸ hp⟩

theorem Kept.of_current (h : Kept C G F s) {staging : Staging} {progress : Progress}
    (hs : s.current? = some (staging, progress)) : G staging ∧ progress.MadeOf F :=
  ⟨h.staging _ (eq_of_current? hs).1, h.progress _ (eq_of_current? hs).2⟩

theorem callFree_kept : CallFree (Kept C G F) := fun _ _ h => ⟨h.config, h.staging, h.progress⟩

theorem keeps_advance_kept {change : Progress → Progress}
    (hchange : ∀ p, p.MadeOf F → (change p).MadeOf F) : Keeps (Kept C G F) (advance change) :=
  keeps_advancing fun _ p h hp => h.advanced (hchange p (h.progress p hp))

theorem madeOf_extended {p : Progress} (h : p.MadeOf F) {earlier added : List Value}
    (hearlier : p.history.items = .ok earlier) (hadded : ∀ m ∈ added, m.IsRecordOf F) :
    Progress.MadeOf F { p with history := .list (earlier ++ added) } := by
  obtain ⟨messages, hmessages, hrecords⟩ := h.history
  rw [hmessages] at hearlier
  cases hearlier
  exact ⟨⟨_, rfl, List.forall_mem_append.2 ⟨hrecords, hadded⟩⟩, h.contexts, h.context, h.log,
    h.cost⟩

theorem madeOf_initial (scenario : Scenario) (logs counts : Bool) :
    Progress.MadeOf F { Progress.initial scenario with
      log := if logs then some [] else none
      cost := if counts then some .empty else none } where
  history := ⟨[], rfl, fun _ h => absurd h List.not_mem_nil⟩
  contexts := fun _ h => absurd h List.not_mem_nil
  context := fun _ h => absurd h List.not_mem_nil
  log := by
    intro entries hentries entry hentry
    dsimp only at hentries
    split_ifs at hentries
    · cases hentries
      exact absurd hentry List.not_mem_nil
    · exact absurd hentries (Option.not_mem_none _)
  cost := by
    intro ledger hledger
    dsimp only at hledger
    split_ifs at hledger
    · cases hledger
      exact Ledger.madeOf_empty
    · exact absurd hledger (Option.not_mem_none _)

theorem isRecordOf_of_mem_several {vs : List Value} (h : ∀ v ∈ vs, v.IsRecordOf F)
    {added : List Value} (hadded : (Value.list vs).several = .ok added) :
    ∀ v ∈ added, v.IsRecordOf F := by
  cases hadded
  exact h

theorem messagesOf_dict {message : Record} (h : ∀ e ∈ message, F e.2) :
    ∀ m ∈ messagesOf (.dict message), m.IsRecordOf F := by
  intro m hm
  unfold messagesOf at hm
  split_ifs at hm
  · rw [List.mem_singleton.1 hm]
    exact ⟨message, rfl, h⟩
  · cases hm

theorem extend_kept (hs : Kept C G F s) {change : Progress → Progress} {p : Progress}
    (hp : s.progress = some p) (hmade : (change p).MadeOf F) :
    Leaves (extend change) s (Kept C G F) := by
  refine ensures_modify.2 ?_
  rw [hp]
  exact hs.advanced hmade

def HandsOver (F : Value → Prop) (context : Value) : Prop :=
  ∀ act entries, (request context act).1.toRecordIfGiven = .ok entries → ∀ e ∈ entries, F e.2

theorem handsOver_empty : HandsOver F (.dict []) := by
  intro act entries hentries
  cases hentries
  exact fun _ he => absurd he List.not_mem_nil

def Command.Carries (F : Value → Prop) : Command → Prop
  | .init .. | .load _ | .resume _ | .reload .. | .addAction .. | .addHook .. | .update _ => False
  | .execute context _ | .next context _ => HandsOver F context
  | .answer message => message.IsRecordOf F
  | .pushMessages messages => ∀ m ∈ messages.oneOrSeveral, m.IsRecordOf F
  | .pushContexts contexts => ∀ records, contexts.oneOrSeveral.mapM Value.toRecord = .ok records →
      ∀ record ∈ records, ∀ e ∈ record, F e.2
  | .addCost cost => ∀ pairs, cost.toPairs = .ok pairs → ∀ e ∈ pairs.named, F e.2
  | .addUsage request => request.MadeOf F
  | .log request response rest => F request ∧ F response ∧ ∀ e ∈ rest, F e.2
  | _ => True

namespace Keeping

theorem hooksKeep (h : Keeping C G F) (stage : Stage) : HooksKeep (Kept C G F) stage :=
  fun _ _ hs => (ensures_runHooks (h.hookless _ hs.config)).2 hs

/-! ## Playing -/

theorem actionOf_speaks (h : Keeping C G F) {config : Config} (hconfig : C config)
    {actions : Table Action} (hactions : config.actionTable = .ok actions) (role : Value) :
    (actionOf actions role).SpeaksOf F := by
  have hnone : Action.SpeaksOf F (.fixed .null) := fun _ hm => by cases hm
  have htable : config.actions = .proper actions := by
    rw [Config.actionTable] at hactions
    split at hactions
    · next heq => rw [heq, Except.ok.inj hactions]
    · cases hactions
  unfold actionOf
  split
  · next name =>
    cases hget : Table.get? actions name with
    | none => exact hnone
    | some action => exact h.actions config hconfig actions htable _ (Table.mem_of_get? hget)
  · exact hnone

theorem replacement_kept (hs : Kept C G F s) (staging : Staging) (act : String) (index : Nat)
    {message : Record} (hmessage : ∀ e ∈ message, F e.2) {action : Action}
    (haction : action.SpeaksOf F) :
    Ensures (replacement staging act index message action) s
      (fun v t => Kept C G F t ∧ ∀ m ∈ messagesOf v, m.IsRecordOf F) (fun _ t => Kept C G F t) := by
  cases action with
  | fixed v =>
    cases v with
    | null => exact ⟨hs, messagesOf_dict hmessage⟩
    | _ => exact ⟨hs, haction⟩
  | call label run =>
    simp only [replacement, ensures_bind, ensures_get]
    split
    · exact hs
    · simp only [ensures_bind, ensures_note]
      exact ensures_ofExcept.2 ⟨fun v hv => ⟨callFree_kept _ _ hs, haction _ _ hv⟩,
        fun _ _ => callFree_kept _ _ hs⟩

theorem applyAction_kept (h : Keeping C G F) (hs : Kept C G F s) (staging : Staging) (act : String)
    {entry : Nat × Record} (hentry : ∀ e ∈ entry.2, F e.2) :
    Ensures (applyAction staging act entry) s
      (fun v t => Kept C G F t ∧ ∀ m ∈ messagesOf v, m.IsRecordOf F) (fun _ t => Kept C G F t) := by
  obtain ⟨index, message⟩ := entry
  rw [ensures_congr (applyAction_eq staging act index message), ensures_bind]
  refine ensures_ofExcept.2 ⟨fun actions hactions => ?_, fun _ _ => hs⟩
  split_ifs
  · exact hs
  · exact replacement_kept hs staging act index hentry (h.actionOf_speaks hs.config hactions _)

theorem applyActions_kept (h : Keeping C G F) (hs : Kept C G F s) (staging : Staging) (act : String)
    {built : List (Nat × Record)} (hbuilt : ∀ entry ∈ built, ∀ e ∈ entry.2, F e.2) :
    Ensures (applyActions staging act built) s
      (fun messages t => Kept C G F t ∧ ∀ m ∈ messages, m.IsRecordOf F)
      (fun _ t => Kept C G F t) := by
  induction built generalizing s with
  | nil => exact ⟨hs, fun _ hm => absurd hm List.not_mem_nil⟩
  | cons entry rest ih =>
    obtain ⟨hentry, hrest⟩ := List.forall_mem_cons.1 hbuilt
    simp only [applyActions, ensures_bind]
    refine (h.applyAction_kept hs staging act hentry).mono (fun v t ht => ?_) fun _ _ ht => ht
    refine (ih ht.1 hrest).mono (fun more u hu => ⟨hu.1, ?_⟩) fun _ _ hu => hu
    exact List.forall_mem_append.2 ⟨ht.2, hu.2⟩

theorem buildMessages_kept (h : Keeping C G F) (hs : Kept C G F s) {staging : Staging}
    (hstaging : G staging) (act : String) (context : Record) :
    Ensures (buildMessages staging act context) s
      (fun v t => Kept C G F t ∧ ∃ messages, v = .list messages ∧ ∀ m ∈ messages, m.IsRecordOf F)
      (fun _ t => Kept C G F t) := by
  simp only [buildMessages, ensures_bind]
  refine ensures_ofExcept.2 ⟨fun built hbuilt => ?_, fun _ _ => hs⟩
  refine (h.applyActions_kept hs staging act (h.built staging hstaging _ _ _ hbuilt)).mono
    (fun messages t ht => ?_) fun _ _ ht => ht
  exact (ensures_runHooks (h.hookless _ ht.1.config)).2 ⟨ht.1, messages, rfl, ht.2⟩

theorem record_kept (hs : Kept C G F s) {messages : List Value}
    (hmessages : ∀ m ∈ messages, m.IsRecordOf F) :
    Leaves (record (.list messages)) s (Kept C G F) := by
  apply ensures_bind.2
  rw [ensures_get]
  split
  · exact hs
  · next progress hprogress =>
    simp only [ensures_bind]
    refine ensures_ofExcept.2 ⟨fun earlier hearlier => ?_, fun _ _ => hs⟩
    refine ensures_ofExcept.2 ⟨fun added hadded => ?_, fun _ _ => hs⟩
    apply ensures_advance.2
    rw [hprogress]
    exact hs.advanced (madeOf_extended (hs.progress _ hprogress) hearlier
      (isRecordOf_of_mem_several hmessages hadded))

theorem execute_kept (h : Keeping C G F) {context : Value} (hcontext : HandsOver F context)
    (act : Value) : Keeps (Kept C G F) (execute context act) := by
  apply keeps_get_bind
  intro s hs
  split
  · exact hs
  · next staging progress hcurrent =>
    obtain ⟨hstaging, hmade⟩ := hs.of_current hcurrent
    refine ensures_bind.2 (ensures_ofExcept.2 ⟨fun entries hentries => ?_, fun _ _ => hs⟩)
    refine ensures_bind.2 (ensures_ofExcept.2 ⟨fun name _ => ?_, fun _ _ => hs⟩)
    have hgiven := hcontext act entries hentries
    split
    · next name =>
      dsimp only
      split_ifs
      · exact hs
      · have hmerged := h.values.merge hmade.context hgiven
        refine Keeps.bind (keeps_advance_kept fun p hp => ?_) (fun _ t ht => ?_) s hs
        · exact ⟨hp.history, List.forall_mem_append.2 ⟨hp.contexts,
            List.forall_mem_singleton.2 ⟨_, rfl, hgiven⟩⟩, hmerged, hp.log, hp.cost⟩
        refine ensures_bind.2 ((h.buildMessages_kept ht hstaging _ _).mono (fun v u hu => ?_)
          fun _ _ hu => hu)
        obtain ⟨hu, messages, rfl, hmessages⟩ := hu
        exact ensures_bind.2 ((record_kept hu hmessages).mono fun _ hw => hw)
    · exact hs

theorem next_kept (h : Keeping C G F) {context : Value} (hcontext : HandsOver F context)
    (wholeHistory : Bool) : Keeps (Kept C G F) (next context wholeHistory) := by
  apply keeps_get_bind
  intro s hs
  split
  · exact hs
  · next progress hcurrent =>
    have hmade := (hs.of_current hcurrent).2
    refine ensures_bind.2 ((ensures_runHooks (h.hookless _ hs.config)).2 ?_)
    refine Keeps.bind (keeps_advance_kept fun p hp => ?_) (fun _ t ht => ?_) s hs
    · exact ⟨hmade.history, hp.contexts, hp.context, hp.log, hp.cost⟩
    have hgiven : HandsOver F (if context.truthy then context else .dict []) := by
      split_ifs
      · exact hcontext
      · exact handsOver_empty
    refine keeps_get.bind (fun session => ?_) t ht
    split
    · exact keeps_pure _
    · apply (h.execute_kept hgiven _).bind
      intro messages
      split
      · exact keeps_pure _
      · split_ifs
        · exact keeps_said.bind fun _ => keeps_pure _
        · exact (h.hooksKeep _ _).bind fun _ => keeps_pure _

theorem finish_kept : Keeps (Kept C G F) finish :=
  keeps_finishing (keeps_advance_kept fun _ hp =>
    ⟨hp.history, hp.contexts, hp.context, hp.log, hp.cost⟩)

theorem clearContext_kept (h : Keeping C G F) : Keeps (Kept C G F) clearContext :=
  (h.hooksKeep _).clearContext (keeps_advance_kept fun _ hp =>
    ⟨hp.history, hp.contexts, fun _ he => absurd he List.not_mem_nil, hp.log, hp.cost⟩)

/-! ## Starting and saving -/

theorem begin_kept (h : Keeping C G F) (hs : Kept C G F s) {staging : Staging}
    (hstaging : G staging) {progress : Progress} (hprogress : progress.MadeOf F) (stage : Stage) :
    Leaves (do
      modify fun session =>
        { session with staging := some staging, progress := some progress }
      let history ← runHooks stage progress.history
      advance fun p => { p with history := history } : Play Unit) s (Kept C G F) := by
  have hbegun : Kept C G F { s with staging := some staging, progress := some progress } :=
    ⟨hs.config, fun _ hq => Option.some.inj hq ▸ hstaging,
      fun _ hq => Option.some.inj hq ▸ hprogress⟩
  refine ensures_bind.2 (ensures_modify.2 (ensures_bind.2 ?_))
  refine (ensures_runHooks (h.hookless _ hbegun.config)).2 ?_
  refine keeps_advance_kept (fun p hp => ?_) _ hbegun
  exact ⟨hprogress.history, hp.contexts, hp.context, hp.log, hp.cost⟩

theorem init_kept [DataModel] (h : Keeping C G F) (hs : Kept C G F s) {source : Source}
    {given : Value}
    (hstaging : ∀ staging,
      source.stage (stagingSettings s.config <$> given.toRecordIfGiven) = .ok staging → G staging) :
    Leaves (init source given) s (Kept C G F) :=
  ensures_bind.2 (ensures_bind.2 (ensures_ofExcept.2 ⟨fun staging hstaged =>
    h.begin_kept hs (hstaging staging hstaged) (madeOf_initial _ _ _) .afterInit, fun _ _ => hs⟩))

theorem load_kept (h : Keeping C G F) (hs : Kept C G F s) {snapshot : Snapshot}
    (hstaging : ∀ staging, Staging.ofScenario snapshot.scenario (stagingSettings s.config []) =
      .ok staging → G staging) (hprogress : snapshot.progress.MadeOf F) :
    Leaves (load snapshot) s (Kept C G F) :=
  ensures_bind.2 (ensures_bind.2 (ensures_ofExcept.2 ⟨fun staging hstaged =>
    h.begin_kept hs (hstaging staging hstaged) hprogress .afterLoad, fun _ _ => hs⟩))

theorem save_kept [DataModel] (h : Keeping C G F) : Keeps (Kept C G F) save := by
  apply keeps_get_bind
  intro s hs
  split
  · exact hs
  · next progress hprogress =>
    refine ensures_bind.2 ((ensures_runHooks (h.hookless _ hs.config)).2 ?_)
    refine Keeps.bind (keeps_advance_kept fun p hp => ?_) (fun _ => keeps_snapshot) s hs
    exact ⟨(hs.progress _ hprogress).history, hp.contexts, hp.context, hp.log, hp.cost⟩

/-! ## Recording -/

theorem answer_kept {message : Value} (hmessage : message.IsRecordOf F) :
    Keeps (Kept C G F) (answer message) := by
  apply keeps_get_bind
  intro s hs
  split
  · exact hs
  · next progress hprogress =>
    refine ensures_bind.2 (ensures_ofExcept.2 ⟨fun earlier hearlier => ?_, fun _ _ => hs⟩)
    refine extend_kept hs hprogress ?_
    exact madeOf_extended (hs.progress _ hprogress) hearlier (List.forall_mem_singleton.2 hmessage)

theorem pushMessages_kept (h : Keeping C G F) {messages : Value}
    (hmessages : ∀ m ∈ messages.oneOrSeveral, m.IsRecordOf F) :
    Keeps (Kept C G F) (pushMessages messages) := by
  apply keeps_get_bind
  intro s hs
  split
  · exact hs
  · next progress hprogress =>
    refine ensures_bind.2 (ensures_ofExcept.2 ⟨fun earlier hearlier => ?_, fun _ _ => hs⟩)
    refine ensures_bind.2 ((ensures_runHooks (h.hookless _ hs.config)).2 ?_)
    refine ensures_bind.2 (ensures_ofExcept.2 ⟨fun added hadded => ?_, fun _ _ => hs⟩)
    refine extend_kept hs hprogress ?_
    exact madeOf_extended (hs.progress _ hprogress) hearlier
      (isRecordOf_of_mem_several hmessages hadded)

theorem pushContexts_kept (h : Keeping C G F) {contexts : Value}
    (hcontexts : ∀ records, contexts.oneOrSeveral.mapM Value.toRecord = .ok records →
      ∀ record ∈ records, ∀ e ∈ record, F e.2) :
    Keeps (Kept C G F) (pushContexts contexts) := by
  apply keeps_get_bind
  intro s hs
  split_ifs
  · refine ensures_bind.2 (ensures_ofExcept.2 ⟨fun records hrecords => ?_, fun _ _ => hs⟩)
    refine ensures_bind.2 ((ensures_runHooks (h.hookless _ hs.config)).2 ?_)
    refine ensures_bind.2 (ensures_ofExcept.2 ⟨fun added hadded => ?_, fun _ _ => hs⟩)
    have hadded : ∀ v ∈ added, v.IsRecordOf F := by
      refine isRecordOf_of_mem_several (fun v hv => ?_) hadded
      obtain ⟨record, hrecord, rfl⟩ := List.mem_map.1 hv
      exact ⟨record, rfl, hcontexts records hrecords record hrecord⟩
    refine keeps_extending (fun s p hs hp => hs.advanced ?_) s hs
    have hmade := hs.progress p hp
    exact ⟨hmade.history, List.forall_mem_append.2 ⟨hmade.contexts, hadded⟩, hmade.context,
      hmade.log, hmade.cost⟩
  · exact hs

theorem addRead_kept {request : Except Fault Ledger.Request}
    (hrequest : ∀ r, request = .ok r → r.MadeOf F) : Keeps (Kept C G F) (addRead request) := by
  apply keeps_get.bind
  intro session
  split_ifs
  · exact keeps_pure _
  · refine (keeps_advance_kept fun p hp => ?_).bind fun _ => ?_
    · refine ⟨hp.history, hp.contexts, hp.context, hp.log, fun ledger hledger => ?_⟩
      cases hcost : p.cost with
      | none =>
        rw [hcost] at hledger
        cases hledger
        exact Ledger.madeOf_empty
      | some kept =>
        rw [hcost] at hledger
        cases hledger
        exact hp.cost _ hcost
    · intro t ht
      refine ensures_bind.2 (ensures_ofExcept.2 ⟨fun r hr => ?_, fun _ _ => ht⟩)
      refine Keeps.bind (keeps_advance_kept fun p hp => ?_)
        (fun _ => keeps_get.bind fun _ => keeps_pure _) t ht
      refine ⟨hp.history, hp.contexts, hp.context, hp.log, fun ledger hledger => ?_⟩
      obtain ⟨kept, hkept, rfl⟩ := Option.map_eq_some_iff.1 hledger
      exact (hp.cost kept hkept).add (hrequest r hr)

variable [DataModel]

theorem log_kept [DataModel.Documented] (h : Keeping C G F) {now : Timestamp}
    (hnow : now.Valid) {request response : Value}
    (hrequest : F request) (hresponse : F response) {rest : Record} (hrest : ∀ e ∈ rest, F e.2) :
    Keeps (Kept C G F) (log now request response rest) := by
  rw [log]
  split
  · exact keeps_throw _
  · apply keeps_get.bind
    intro session
    dsimp only
    split_ifs
    · exact keeps_pure _
    · refine (keeps_advance_kept fun p hp => ?_).bind fun _ t ht => ?_
      · refine ⟨hp.history, hp.contexts, hp.context, fun entries hentries => ?_, hp.cost⟩
        cases hlog : p.log with
        | none =>
          rw [hlog] at hentries
          cases hentries
          exact fun _ he => absurd he List.not_mem_nil
        | some kept =>
          rw [hlog] at hentries
          cases hentries
          exact hp.log _ hlog
      · refine ensures_bind.2 (ensures_ofExcept.2 ⟨fun entry hentry => ?_, fun _ _ => ht⟩)
        have hfields : F (.dict ([("request", request), ("response", response)] ++ rest)) :=
          h.values.entries.2 (List.forall_mem_cons.2 ⟨hrequest,
            List.forall_mem_cons.2 ⟨hresponse, hrest⟩⟩)
        have hmade := LogEntry.gives_checkAt h.values hnow _ entry hfields hentry
        refine keeps_advance_kept (fun p hp => ?_) t ht
        refine ⟨hp.history, hp.contexts, hp.context, fun entries hentries => ?_, hp.cost⟩
        obtain ⟨kept, hlog, rfl⟩ := Option.map_eq_some_iff.1 hentries
        exact List.forall_mem_append.2 ⟨hp.log kept hlog, List.forall_mem_singleton.2 hmade⟩

theorem madeOf_of_addCost [DataModel.Documented] (h : Keeping C G F) {cost : Value}
    (hcost : ∀ pairs, cost.toPairs = .ok pairs → ∀ e ∈ pairs.named, F e.2) {r : Ledger.Request}
    (hr : (.usage <$> (cost.toPairs >>= fun pairs => (Usage.checkPairs pairs).outcome) :
      Except Fault Ledger.Request) = .ok r) : r.MadeOf F := by
  obtain ⟨u, hu, rfl⟩ := map_eq_ok.1 hr
  obtain ⟨pairs, hpairs, hu⟩ := bind_eq_ok.1 hu
  obtain ⟨g, done, hg, -, hgu⟩ := Check.seq_eq_ok.1 hu
  obtain ⟨u', hcheck, hconst⟩ := Check.map_eq_ok.1 hg
  subst hconst
  obtain rfl : u' = u := hgu
  exact Usage.gives_check h.values _ _ (h.values.entries.2 (hcost pairs hpairs)) hcheck

/-! ## Commands -/

theorem perform_kept [DataModel.Documented] (h : Keeping C G F) {now : Timestamp}
    (hnow : now.Valid) {command : Command}
    (hcarries : command.Carries F) : Keeps (Kept C G F) (perform now command) := by
  by_cases hasks : command.Asks
  · exact keeps_asks (fun stage _ => h.hooksKeep stage) now hasks
  cases command with
  | init | load | resume | reload | addAction | addHook | update => exact hcarries.elim
  | save => exact h.save_kept.bind fun _ => keeps_pure _
  | clearContext => exact h.clearContext_kept.bind fun _ => keeps_pure _
  | finish => exact finish_kept.bind fun _ => keeps_pure _
  | execute context act => exact (h.execute_kept hcarries act).bind fun _ => keeps_pure _
  | next context wholeHistory =>
    exact (h.next_kept hcarries wholeHistory).bind fun _ => keeps_pure _
  | answer message => exact (answer_kept hcarries).bind fun _ => keeps_pure _
  | pushMessages messages => exact (h.pushMessages_kept hcarries).bind fun _ => keeps_pure _
  | pushContexts contexts => exact (h.pushContexts_kept hcarries).bind fun _ => keeps_pure _
  | runHooks stage value =>
    exact (keeps_runHooksAt h.hooksKeep _ _).bind fun _ => keeps_pure _
  | addCost cost =>
    exact (addRead_kept fun _ hu => h.madeOf_of_addCost hcarries hu).bind fun _ => keeps_pure _
  | addUsage usage =>
    exact (addRead_kept fun _ hu => Except.ok.inj hu ▸ hcarries).bind fun _ => keeps_pure _
  | log request response rest =>
    exact (h.log_kept hnow hcarries.1 hcarries.2.1 hcarries.2.2).bind fun _ => keeps_pure _
  | _ => exact (hasks trivial).elim

omit [DataModel] in
theorem configure_kept {change : Config → Except Fault Config}
    (hchange : ∀ config config', C config → change config = .ok config' → C config')
    (reply : Reply) :
    Keeps (Kept C G F) (do configure (← ofExcept (change (← get).config)); return reply) := by
  apply keeps_get_bind
  intro s hs
  refine ensures_bind.2 (ensures_ofExcept.2 ⟨fun config hconfig => ?_, fun _ _ => hs⟩)
  exact ⟨hchange _ _ hs.config hconfig, hs.staging, hs.progress⟩

end Keeping

end Session

end Playscript
