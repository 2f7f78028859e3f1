import Playscript.Session.Basic

/-!
# Where a session stands

What can be asked of a session without playing on: the current act and the acts after it, settings,
and the queue as the hooks show it.
-/
namespace Playscript.Session

def currentAct (session : Session) : Option String :=
  match session.staging with
  | none => none
  | some staging =>
    match session.progress with
    | none => some staging.defaultAct
    | some progress =>
      (progress.act.or staging.scenario.order.head?).or (some staging.defaultAct)

def actData (session : Session) (name : Value) : Except Fault (Option Act) :=
  match session.current? with
  | none => .ok none
  | some (staging, _) => do
    return (← staging.scenario.nameFrom name).bind staging.scenario.act?

def actAt (session : Session) (act : Value) : Value :=
  if act.truthy then act else .ofText? session.currentAct

def remaining (session : Session) : List String :=
  match session.current?, session.currentAct with
  | some (staging, _), some act => (staging.scenario.order.dropWhile (· ≠ act)).drop 1
  | _, _ => []

def configValue (session : Session) (path : Path) (act : Value) : Except Fault Value :=
  match session.staging with
  | none => .ok .null
  | some staging => do
    match ← staging.actConfig (← staging.scenario.nameFrom (session.actAt act)) with
    | none => return .null
    | some layers =>
      match ← Path.get (.dict layers.flatten) path with
      | .str s => return if s = "" then .bool true else .str s
      | v => return v

def shownQueue : Play Value := do
  match (← get).progress with
  | none => return .list []
  | some progress => runHooks .getActQueue (.list (progress.queue.map .str))

def hasNext : Play Bool := do
  return !(← ofExcept (← shownQueue).several).isEmpty

def nextAct : Play Value := do
  ofExcept (← shownQueue).first

def nextActData : Play (Option Act) := do
  let name ← nextAct
  ofExcept ((← get).actData name)

end Playscript.Session
