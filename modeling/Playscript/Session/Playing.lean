import Playscript.Session.Position

/-!
# Playing acts

To play an act is to build its messages under the merged context, to pass them through the actions
of their roles, and to add them to the history. Playing on takes the next act from the queue.
-/
namespace Playscript.Session

def applyAction (staging : Staging) (act : String) (entry : Nat × Record) : Play Value := do
  let (index, message) := entry
  let session ← get
  let actions ← ofExcept session.config.actionTable
  let role := (Table.get? message staging.roleKey).getD .null
  if !role.isKey then throw .unusableKey
  let action := match role with
    | .str name => (Table.get? actions name).getD (.fixed .null)
    | _ => .fixed .null
  match action with
  | .fixed .null => return .dict message
  | .fixed v => return v
  | .call label run =>
    match session.progress with
    | none => throw .sessionEnded
    | some progress =>
      let content := String.ofList (Staging.textAt message staging.contentKey)
      let view : ActionView :=
        ⟨content, staging.messageConfig act (.int index), progress.context, act,
          progress.settled⟩
      note (.action label view)
      ofExcept (run view)

def messagesOf (v : Value) : List Value :=
  if v.truthy then
    match v with
    | .list items => items.filter Value.truthy
    | v => [v]
  else []

def applyActions (staging : Staging) (act : String) : List (Nat × Record) → Play (List Value)
  | [] => pure []
  | entry :: rest => do
    let messages := messagesOf (← applyAction staging act entry)
    return messages ++ (← applyActions staging act rest)

def buildMessages (staging : Staging) (act : String) (context : Record) : Play Value := do
  let built ← ofExcept (staging.buildIndexed (.dict context) (some act))
  runHooks .afterBuild (.list (← applyActions staging act built))

def record (messages : Value) : Play Unit := do
  match (← get).progress with
  | none => throw .sessionEnded
  | some progress =>
    let earlier ← ofExcept progress.history.items
    let added ← ofExcept messages.several
    advance fun progress => { progress with history := .list (earlier ++ added) }

def request (context act : Value) : Value × Value :=
  match context with
  | .str name => (.null, .str name)
  | context => (context, act)

/-- Plays an act, the current one if none is named, under the merged context with a further one
joined to it. Nothing is played when no session is under way or the act does not exist. -/
def execute (context act : Value) : Play (Option Value) := do
  let session ← get
  match session.current? with
  | none => return none
  | some (staging, progress) =>
    let (context, act) := request context act
    let context ← ofExcept context.toRecordIfGiven
    let some name ← ofExcept (staging.scenario.nameFrom (session.actAt act)) | return none
    if (staging.scenario.act? name).isNone then return none
    let merged := Context.merge progress.context context
    advance fun progress => { progress with
      act := some name
      context := merged
      contexts := progress.contexts ++ [.dict context] }
    let messages ← buildMessages staging name merged
    record messages
    return some messages

def said : Play (List Value) := do
  match (← get).progress with
  | none => throw .sessionEnded
  | some progress => ofExcept progress.history.several

/-- Goes on to the next act of the queue and plays it. The answer is what the act said, or on
request the whole history. -/
def next (context : Value) (wholeHistory : Bool) : Play (Option Value) := do
  match (← get).current? with
  | none => return none
  | some (_, progress) =>
    let history ← runHooks .beforeNext progress.history
    -- With an empty queue there is no current act any more.
    advance fun progress => { progress with
      history := history
      act := progress.queue.head?
      queue := progress.queue.tail }
    match ((← get).progress.bind (·.act)) with
    | none => return none
    | some act =>
      match ← execute (if context.truthy then context else .dict []) (.str act) with
      | none => return none
      | some messages =>
        if wholeHistory then return some (.list (← said))
        else return some (← runHooks .nextReturns messages)

def finish : Play (List Value) := do
  match (← get).progress with
  | none => return []
  | some _ =>
    advance fun progress => { progress with act := none, queue := [] }
    said

def clearContext : Play Unit := do
  match (← get).progress with
  | none => return ()
  | some progress =>
    let _ ← runHooks .beforeClearContext (.list progress.contexts)
    advance fun progress => { progress with context := [] }

end Playscript.Session
