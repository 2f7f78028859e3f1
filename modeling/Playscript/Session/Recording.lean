import Playscript.Session.Position

/-!
# Recording

Replies, messages and contexts from outside are added to a session as they come. The costs and the
log are kept only while they are switched on.
-/
namespace Playscript.Session

def extend (change : Progress → Progress) : Play Unit :=
  modify fun session => { session with progress := session.progress.map change }

def answer (message : Value) : Play Unit := do
  match (← get).progress with
  | none => return ()
  | some progress =>
    let earlier ← ofExcept progress.history.items
    extend fun progress => { progress with history := .list (earlier ++ [message]) }

def pushMessages (messages : Value) : Play Unit := do
  match (← get).progress with
  | none => return ()
  | some progress =>
    let earlier ← ofExcept progress.history.items
    let given := Value.list messages.oneOrSeveral
    let added ← ofExcept (← runHooks .beforePushMessage given).several
    extend fun progress => { progress with history := .list (earlier ++ added) }

def pushContexts (contexts : Value) : Play Unit := do
  if (← get).progress.isSome then
    let contexts ← ofExcept (contexts.oneOrSeveral.mapM Value.toRecord)
    let added ← ofExcept (← runHooks .beforePushContext (.list (contexts.map .dict))).several
    extend fun progress => { progress with contexts := progress.contexts ++ added }

def getMessages (act : Value) : Play Value := do
  let session ← get
  match session.current? with
  | none => return .null
  | some (_, progress) =>
    if (session.actAt act).truthy then runHooks .beforeGetMessages progress.history
    else return .null

def getContexts : Play Value := do
  match (← get).progress with
  | none => return .null
  | some progress => runHooks .beforeGetContexts (.list progress.contexts)

def addRead (request : Except Fault Ledger.Request) : Play (Option Usage) := do
  let session ← get
  if session.progress.isNone || !session.config.costOnly.truthy then return none
  advance fun progress => { progress with cost := some (progress.cost.getD .empty) }
  let request ← ofExcept request
  advance fun progress => { progress with cost := progress.cost.map (·.add request) }
  return ((← get).progress.bind (·.cost)).map (·.totals)

/-- Books a usage that was made before, which may be the totals that an earlier call answered. -/
def addUsage (request : Ledger.Request) : Play (Option Usage) :=
  addRead (.ok request)

def exchangeNames : List String := [Config.ownName, "request", "response"]

variable [DataModel]

def addCost (cost : Value) : Play (Option Usage) :=
  addRead (.usage <$> (cost.toPairs >>= fun pairs => (Usage.checkPairs pairs).outcome))

def log (now : Timestamp) (request response : Value) (rest : Record) : Play Unit := do
  match exchangeNames.find? (Table.contains rest) with
  | some name => throw (.takenName name)
  | none => pure ()
  let session ← get
  if session.progress.isNone || !session.config.fullLog.truthy then return ()
  -- The log is opened also for an exchange that cannot be read.
  advance fun progress => { progress with log := some (progress.log.getD []) }
  let fields : Record := [("request", request), ("response", response)] ++ rest
  let entry ← ofExcept (LogEntry.checkAt now (.dict fields)).outcome
  advance fun progress => { progress with log := progress.log.map (· ++ [entry]) }

end Playscript.Session
