import Playscript.Session.Playing
import Playscript.Session.Recording
import Playscript.Session.Start
import Playscript.Session.Transcript
import Playscript.Yaml.Document

/-!
# Commands

Everything that can be asked of a session is a command, and every command has a reply. A run carries
out commands in order; a command that fails leaves the session as it was at the failure, and the
run goes on from there.
-/
namespace Playscript

namespace Session

inductive Carrier where
  | record
  | snapshot
  | document
  deriving DecidableEq, Repr

inductive Command where
  | init (source : Source) (settings : Value)
  | load (snapshot : Value)
  | resume (snapshot : Snapshot)
  | reload (carrier : Carrier) (config : Config)
  | save
  | clearContext
  | addAction (role : String) (action : Action)
  | addHook (stage : String) (hook : Hook)
  | update (values : Record)
  | execute (context act : Value)
  | next (context : Value) (wholeHistory : Bool)
  | finish
  | answer (message : Value)
  | pushMessages (messages : Value)
  | pushContexts (contexts : Value)
  | getMessages (act : Value)
  | getContexts
  | remaining
  | currentAct
  | currentActData
  | hasNext
  | nextAct
  | nextActData
  | actData (name : Value)
  | scenario
  | configValue (key : String) (act : Value)
  | printHistory (skipped : Value)
  | runHooks (stage : String) (value : Value)
  | addCost (cost : Value)
  | addUsage (request : Ledger.Request)
  | log (request response : Value) (rest : Record)

inductive Reply where
  | value (v : Value)
  | act (act : Act)
  | scenario (scenario : Scenario)
  | usage (usage : Usage)

namespace Reply

def nothing : Reply := .value .null

def done : Reply := .value (.bool true)

def value? (v : Option Value) : Reply :=
  .value (v.getD .null)

def text? (s : Option String) : Reply :=
  .value (.ofText? s)

def act? : Option Act → Reply
  | some found => .act found
  | none => nothing

def usage? : Option Usage → Reply
  | some totals => .usage totals
  | none => nothing

end Reply

def configure (config : Config) : Play Unit :=
  modify fun session => { session with config := config }

variable [DataModel]

def carry (now : Timestamp) (carrier : Carrier) (snapshot : Option Snapshot) :
    Except Fault Value :=
  let written := snapshot.elim .null Snapshot.toValue
  match carrier with
  | .record => .ok written
  | .snapshot => (fun _ => written) <$> Snapshot.ofValue now written
  | .document =>
    match written with
    | .dict entries => Value.dict <$> Yaml.read (Yaml.write entries)
    | _ => .error .nothingToWrite

def reload (now : Timestamp) (carrier : Carrier) (config : Config) : Play Unit := do
  let written ← ofExcept (carry now carrier (← save))
  let config ← ofExcept config.checked
  -- The new session takes the place of this one, whether it can read the snapshot or not.
  modify fun session => { Session.new config with calls := session.calls }
  load (← ofExcept (Snapshot.ofValue now written))

def perform (now : Timestamp) : Command → Play Reply
  | .init source settings => do init source settings; return .done
  | .load v => do load (← ofExcept (Snapshot.ofValue now v)); return .done
  | .resume snapshot => do load snapshot; return .done
  | .reload carrier config => do reload now carrier config; return .done
  | .save => return .value ((← save).elim .null Snapshot.toValue)
  | .clearContext => do clearContext; return .done
  | .addAction role action => do
    configure (← ofExcept ((← get).config.addAction role action))
    return .done
  | .addHook stage hook => do
    let stage ← ofExcept (Stage.ofName stage)
    configure (← ofExcept ((← get).config.addHook stage hook))
    return .done
  | .update values => do
    configure (← ofExcept ((← get).config.update values))
    return .nothing
  | .execute context act => return .value? (← execute context act)
  | .next context wholeHistory => return .value? (← next context wholeHistory)
  | .finish => return .value (.list (← finish))
  | .answer message => do answer message; return .nothing
  | .pushMessages messages => do pushMessages messages; return .nothing
  | .pushContexts contexts => do pushContexts contexts; return .nothing
  | .getMessages act => return .value (← getMessages act)
  | .getContexts => return .value (← getContexts)
  | .remaining => return .value (.list ((← get).remaining.map .str))
  | .currentAct => return .text? (← get).currentAct
  | .currentActData => do
    let session ← get
    return .act? (← ofExcept (session.actData (.ofText? session.currentAct)))
  | .hasNext => return .value (.bool (← hasNext))
  | .nextAct => return .value (← nextAct)
  | .nextActData => return .act? (← nextActData)
  | .actData name => return .act? (← ofExcept ((← get).actData name))
  | .scenario => do
    match (← get).staging with
    | some staging => return .scenario staging.scenario
    | none => return .nothing
  | .configValue key act => do
    let session ← get
    return .value (← ofExcept (session.configValue (Path.ofString key) act))
  | .printHistory skipped => return .text? (← printHistory skipped)
  | .runHooks stage value => return .value (← runHooksAt stage value)
  | .addCost cost => return .usage? (← addCost cost)
  | .addUsage request => return .usage? (← addUsage request)
  | .log request response rest => do log now request response rest; return .nothing

def step (now : Timestamp) (session : Session) (command : Command) :
    Except Fault Reply × Session :=
  match (perform now command).run session with
  | .ok reply session => (.ok reply, session)
  | .error fault session => (.error fault, session)

def run : Session → List (Timestamp × Command) → List (Except Fault Reply) × Session
  | session, [] => ([], session)
  | session, (now, command) :: rest =>
    let (reply, session) := step now session command
    let (replies, session) := run session rest
    (reply :: replies, session)

end Session

end Playscript
