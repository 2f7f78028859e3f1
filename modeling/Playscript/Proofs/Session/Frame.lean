import Playscript.Proofs.Session.Hooks
import Playscript.Session.Command

/-!
# What operations leave alone

An operation that only asks changes a session through the hooks that it runs, and hooks note calls
and may end the session. So it keeps every property that its hooks keep.
-/
namespace Playscript

def Stage.Shows : Stage → Prop
  | .nextReturns | .beforeGetMessages | .beforeGetContexts | .beforePrintHistory
  | .beforeClearContext | .getActQueue => True
  | _ => False

namespace Session

variable {P : Session → Prop} {stage : Stage}

def HooksKeep (P : Session → Prop) (stage : Stage) : Prop :=
  ∀ value, Keeps P (runHooks stage value)

def CallFree (P : Session → Prop) : Prop :=
  ∀ s calls, P s → P { s with calls := calls }

theorem keeps_runAll {hooks : List Hook}
    (hnotes : ∀ s label view, P s → P { s with calls := s.calls ++ [.hook label view] })
    (hends : ∀ label run, .call label run ∈ hooks → ∀ view effect, run view = .ok effect →
      effect.endsSession = true → ∀ s, P s → P { s with progress := none }) (value : Value) :
    Keeps P (runAll hooks value) := by
  induction hooks generalizing value with
  | nil => exact keeps_pure _
  | cons hook rest ih =>
    refine keeps_get.bind fun session => ?_
    split
    · exact keeps_pure _
    · cases hook with
      | inert v => exact keeps_throw _
      | call label run =>
        refine Keeps.bind (fun s hs => hnotes s _ _ hs) fun _ => ?_
        intro s hs
        refine ensures_bind.2 (ensures_ofExcept.2 ⟨fun effect heffect => ?_, fun _ _ => hs⟩)
        have hrest := ih fun label run hmem => hends label run (List.mem_cons_of_mem _ hmem)
        dsimp only
        split_ifs with hend
        · have hended := hends label run List.mem_cons_self _ effect heffect hend s hs
          exact ensures_bind.2 (ensures_modify.2 (hrest _ _ hended))
        · exact hrest _ s hs

theorem keeps_runHooks
    (h : ∀ s hooks, P s → s.config.hooksAt stage = .ok hooks →
      ∀ value, Keeps P (runAll hooks value)) :
    HooksKeep P stage := by
  intro value
  refine keeps_get_bind fun s hs => ensures_bind.2 (ensures_ofExcept.2 ⟨fun hooks hat => ?_, ?_⟩)
  · exact h s hooks hs hat value s hs
  · exact fun _ _ => hs

theorem keeps_advancing {change : Progress → Progress}
    (h : ∀ s p, P s → s.progress = some p → P { s with progress := some (change p) }) :
    Keeps P (advance change) := by
  intro s hs
  apply ensures_advance.2
  cases hp : s.progress with
  | none => exact hs
  | some p => exact h s p hs hp

theorem keeps_extending {change : Progress → Progress}
    (h : ∀ s p, P s → s.progress = some p → P { s with progress := some (change p) }) :
    Keeps P (extend change) := by
  refine keeps_modify fun s hs => ?_
  cases hp : s.progress with
  | none =>
    have hsame : { s with progress := none } = s := by rw [← hp]
    exact hsame ▸ hs
  | some p => exact h s p hs hp

/-! ## Operations that only ask -/

theorem HooksKeep.getMessages (h : HooksKeep P .beforeGetMessages) (act : Value) :
    Keeps P (getMessages act) := by
  refine keeps_get.bind fun session => ?_
  split
  · exact keeps_pure _
  · split_ifs
    · exact h _
    · exact keeps_pure _

theorem HooksKeep.getContexts (h : HooksKeep P .beforeGetContexts) : Keeps P getContexts := by
  refine keeps_get.bind fun session => ?_
  split
  · exact keeps_pure _
  · exact h _

theorem HooksKeep.shownQueue (h : HooksKeep P .getActQueue) : Keeps P shownQueue := by
  refine keeps_get.bind fun session => ?_
  split
  · exact keeps_pure _
  · exact h _

theorem HooksKeep.hasNext (h : HooksKeep P .getActQueue) : Keeps P hasNext :=
  h.shownQueue.bind fun _ => (keeps_ofExcept _).bind fun _ => keeps_pure _

theorem HooksKeep.nextAct (h : HooksKeep P .getActQueue) : Keeps P nextAct :=
  h.shownQueue.bind fun _ => keeps_ofExcept _

theorem HooksKeep.nextActData (h : HooksKeep P .getActQueue) : Keeps P nextActData :=
  h.nextAct.bind fun _ => keeps_get.bind fun _ => keeps_ofExcept _

theorem HooksKeep.printHistory (h : HooksKeep P .beforePrintHistory) (skipped : Value) :
    Keeps P (printHistory skipped) := by
  refine keeps_get.bind fun session => ?_
  split
  · exact keeps_pure _
  · exact (h _).bind fun _ => (keeps_ofExcept _).bind fun _ => (keeps_ofExcept _).bind fun _ =>
      keeps_pure _

theorem keeps_said : Keeps P said := by
  refine keeps_get.bind fun session => ?_
  split
  · exact keeps_throw _
  · exact keeps_ofExcept _

theorem keeps_runHooksAt (h : ∀ stage, HooksKeep P stage) (stage : String) (value : Value) :
    Keeps P (runHooksAt stage value) :=
  keeps_get.bind fun _ => (keeps_ofExcept _).bind fun _ => (keeps_ofExcept _).bind fun stage =>
    h stage _

/-! ## Building messages -/

theorem CallFree.applyAction (h : CallFree P) (staging : Staging) (act : String)
    (entry : Nat × Record) : Keeps P (applyAction staging act entry) := by
  refine keeps_get.bind fun session => (keeps_ofExcept _).bind fun actions => ?_
  dsimp only
  split_ifs
  · exact keeps_throw _
  · split
    · exact keeps_pure _
    · exact keeps_pure _
    · split
      · exact keeps_throw _
      · exact Keeps.bind (fun s hs => h s _ hs) fun _ => keeps_ofExcept _

theorem CallFree.applyActions (h : CallFree P) (staging : Staging) (act : String)
    (entries : List (Nat × Record)) : Keeps P (applyActions staging act entries) := by
  induction entries with
  | nil => exact keeps_pure _
  | cons entry rest ih =>
    exact (h.applyAction _ _ _).bind fun _ => ih.bind fun _ => keeps_pure _

theorem CallFree.buildMessages (h : CallFree P) (hhooks : HooksKeep P .afterBuild)
    (staging : Staging) (act : String) (context : Record) :
    Keeps P (buildMessages staging act context) :=
  (keeps_ofExcept _).bind fun _ => (h.applyActions _ _ _).bind fun _ => hhooks _

/-! ## Recording -/

def HistoryFree (P : Session → Prop) : Prop :=
  ∀ s p items, P s → s.progress = some p →
    P { s with progress := some { p with history := .list items } }

def LedgerFree (P : Session → Prop) : Prop :=
  ∀ s p cost log, P s → s.progress = some p →
    P { s with progress := some { p with cost := cost, log := log } }

theorem HistoryFree.record (h : HistoryFree P) (messages : Value) : Keeps P (record messages) := by
  refine keeps_get.bind fun session => ?_
  split
  · exact keeps_throw _
  · exact (keeps_ofExcept _).bind fun _ => (keeps_ofExcept _).bind fun _ =>
      keeps_advancing fun s p => h s p _

theorem HistoryFree.answer (h : HistoryFree P) (message : Value) : Keeps P (answer message) := by
  refine keeps_get.bind fun session => ?_
  split
  · exact keeps_pure _
  · exact (keeps_ofExcept _).bind fun _ => keeps_extending fun s p => h s p _

theorem HistoryFree.pushMessages (h : HistoryFree P) (hhooks : HooksKeep P .beforePushMessage)
    (messages : Value) : Keeps P (pushMessages messages) := by
  refine keeps_get.bind fun session => ?_
  split
  · exact keeps_pure _
  · exact (keeps_ofExcept _).bind fun _ => (hhooks _).bind fun _ => (keeps_ofExcept _).bind fun _ =>
      keeps_extending fun s p => h s p _

theorem keeps_addRead
    (h : ∀ s p cost, P s → s.progress = some p →
      P { s with progress := some { p with cost := cost } })
    (request : Except Fault Ledger.Request) : Keeps P (addRead request) := by
  refine keeps_get.bind fun session => ?_
  split_ifs
  · exact keeps_pure _
  · exact (keeps_advancing fun s p => h s p _).bind fun _ => (keeps_ofExcept _).bind fun _ =>
      (keeps_advancing fun s p => h s p _).bind fun _ => keeps_get.bind fun _ => keeps_pure _

theorem keeps_log [DataModel]
    (h : ∀ s p log, P s → s.progress = some p → P { s with progress := some { p with log := log } })
    (now : Timestamp) (request response : Value) (rest : Record) :
    Keeps P (log now request response rest) := by
  rw [Session.log]
  split
  · exact keeps_throw _
  · refine keeps_get.bind fun session => ?_
    dsimp only
    split_ifs
    · exact keeps_pure _
    · exact (keeps_advancing fun s p => h s p _).bind fun _ => (keeps_ofExcept _).bind fun _ =>
        keeps_advancing fun s p => h s p _

theorem LedgerFree.addRead (h : LedgerFree P) (request : Except Fault Ledger.Request) :
    Keeps P (addRead request) := keeps_addRead (fun s p cost => h s p cost p.log) request

theorem LedgerFree.log [DataModel] (h : LedgerFree P) (now : Timestamp) (request response : Value)
    (rest : Record) : Keeps P (log now request response rest) :=
  keeps_log (fun s p log => h s p p.cost log) now request response rest

theorem HooksKeep.pushContexts (h : HooksKeep P .beforePushContext)
    (hchange : ∀ added, Keeps P (extend fun p => { p with contexts := p.contexts ++ added }))
    (contexts : Value) : Keeps P (pushContexts contexts) := by
  refine keeps_get.bind fun session => ?_
  split_ifs
  · exact (keeps_ofExcept _).bind fun _ => (h _).bind fun _ => (keeps_ofExcept _).bind fun _ =>
      hchange _
  · exact keeps_pure _

/-! ## Playing and saving -/

theorem CallFree.execute (h : CallFree P) (hhooks : HooksKeep P .afterBuild)
    (hhistory : HistoryFree P)
    (hchange : ∀ name merged context, Keeps P (advance fun p =>
      { p with act := some name, context := merged, contexts := p.contexts ++ [.dict context] }))
    (context act : Value) : Keeps P (execute context act) := by
  refine keeps_get.bind fun session => ?_
  split
  · exact keeps_pure _
  · refine (keeps_ofExcept _).bind fun _ => (keeps_ofExcept _).bind fun name => ?_
    split
    · dsimp only
      split_ifs
      · exact keeps_pure _
      · exact (hchange _ _ _).bind fun _ => (h.buildMessages hhooks _ _ _).bind fun _ =>
          (hhistory.record _).bind fun _ => keeps_pure _
    · exact keeps_pure _

theorem keeps_playing_on (hbefore : HooksKeep P .beforeNext) (hreturns : HooksKeep P .nextReturns)
    (hchange : ∀ history, Keeps P (advance fun p =>
      { p with history := history, act := p.queue.head?, queue := p.queue.tail }))
    (hexecute : ∀ context act, Keeps P (execute context act)) (context : Value)
    (wholeHistory : Bool) : Keeps P (next context wholeHistory) := by
  refine keeps_get.bind fun session => ?_
  split
  · exact keeps_pure _
  · refine (hbefore _).bind fun _ => (hchange _).bind fun _ => keeps_get.bind fun session => ?_
    split
    · exact keeps_pure _
    · refine (hexecute _ _).bind fun messages => ?_
      split
      · exact keeps_pure _
      · split_ifs
        · exact keeps_said.bind fun _ => keeps_pure _
        · exact (hreturns _).bind fun _ => keeps_pure _

theorem keeps_finishing (h : Keeps P (advance fun p => { p with act := none, queue := [] })) :
    Keeps P finish := by
  refine keeps_get.bind fun session => ?_
  split
  · exact keeps_pure _
  · exact h.bind fun _ => keeps_said

theorem HooksKeep.clearContext (h : HooksKeep P .beforeClearContext)
    (hchange : Keeps P (advance fun p => { p with context := [] })) : Keeps P clearContext := by
  refine keeps_get.bind fun session => ?_
  split
  · exact keeps_pure _
  · exact (h _).bind fun _ => hchange

theorem keeps_snapshot [DataModel] : Keeps P (do
    match (← get).current? with
    | none => return none
    | some (staging, progress) =>
      let snapshot : Snapshot := ⟨staging.scenario, progress⟩
      if DataModel.holds snapshot.values then return some snapshot else throw .tooDeep :
    Play (Option Snapshot)) := by
  refine keeps_get.bind fun session => ?_
  split
  · exact keeps_pure _
  · dsimp only
    split_ifs
    · exact keeps_pure _
    · exact keeps_throw _

theorem HooksKeep.save [DataModel] (h : HooksKeep P .beforeSave)
    (hchange : ∀ history, Keeps P (advance fun p => { p with history := history })) :
    Keeps P save := by
  refine keeps_get.bind fun session => ?_
  split
  · exact keeps_pure _
  · exact (h _).bind fun _ => (hchange _).bind fun _ => keeps_snapshot

/-! ## Commands that only ask -/

def Command.Asks : Command → Prop
  | .getMessages _ | .getContexts | .remaining | .currentAct | .currentActData | .hasNext | .nextAct
  | .nextActData | .actData _ | .scenario | .configValue .. | .printHistory _ => True
  | _ => False

theorem keeps_asks [DataModel] (h : ∀ stage : Stage, stage.Shows → HooksKeep P stage)
    (now : Timestamp)
    {command : Command} (hasks : command.Asks) : Keeps P (perform now command) := by
  cases command with
  | getMessages act =>
    exact ((h .beforeGetMessages trivial).getMessages act).bind fun _ => keeps_pure _
  | getContexts => exact (h .beforeGetContexts trivial).getContexts.bind fun _ => keeps_pure _
  | remaining => exact keeps_get.bind fun _ => keeps_pure _
  | currentAct => exact keeps_get.bind fun _ => keeps_pure _
  | currentActData => exact keeps_get.bind fun _ => (keeps_ofExcept _).bind fun _ => keeps_pure _
  | hasNext => exact (h .getActQueue trivial).hasNext.bind fun _ => keeps_pure _
  | nextAct => exact (h .getActQueue trivial).nextAct.bind fun _ => keeps_pure _
  | nextActData => exact (h .getActQueue trivial).nextActData.bind fun _ => keeps_pure _
  | actData name => exact keeps_get.bind fun _ => (keeps_ofExcept _).bind fun _ => keeps_pure _
  | scenario =>
    refine keeps_get.bind fun session => ?_
    split
    · exact keeps_pure _
    · exact keeps_pure _
  | configValue key act =>
    exact keeps_get.bind fun _ => (keeps_ofExcept _).bind fun _ => keeps_pure _
  | printHistory skipped =>
    exact ((h .beforePrintHistory trivial).printHistory skipped).bind fun _ => keeps_pure _
  | _ => exact hasks.elim

end Session

end Playscript
