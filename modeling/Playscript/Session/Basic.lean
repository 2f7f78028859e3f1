import Playscript.Session.Config
import Playscript.Staging

/-!
# Sessions

A session plays a scenario act by act. It holds the settings, the staging, and how far it has come;
before it starts and after a hook ends it there is no progress. The calls of the actions and hooks
in the settings are noted in order.
-/
namespace Playscript

/-- A session. Without progress it has not started or was ended by a hook. -/
structure Session where
  config : Config
  staging : Option Staging
  progress : Option Progress
  calls : List Call

abbrev Play := EStateM Fault Session

namespace Session

def new (config : Config) : Session := ⟨config, none, none, []⟩

def current? (session : Session) : Option (Staging × Progress) :=
  match session.staging, session.progress with
  | some staging, some progress => some (staging, progress)
  | _, _ => none

def advance (change : Progress → Progress) : Play Unit := do
  let session ← get
  match session.progress with
  | some progress => set { session with progress := some (change progress) }
  | none => throw .sessionEnded

def note (call : Call) : Play Unit :=
  modify fun session => { session with calls := session.calls ++ [call] }

/-! ## Hooks -/

def runAll : List Hook → Value → Play Value
  | [], value => pure value
  | hook :: rest, value => do
    match (← get).current? with
    | none => pure value
    | some (staging, progress) =>
      match hook with
      | .inert _ => throw .notFunction
      | .call label run =>
        let view : HookView := ⟨value, staging.scenario, progress.settled⟩
        note (.hook label view)
        let effect ← ofExcept (run view)
        if effect.endsSession then modify fun session => { session with progress := none }
        runAll rest (effect.value.getD value)

def runHooks (stage : Stage) (value : Value) : Play Value := do
  runAll (← ofExcept ((← get).config.hooksAt stage)) value

def runHooksAt (stage : String) (value : Value) : Play Value := do
  let _ ← ofExcept (← get).config.hookTable
  runHooks (← ofExcept (Stage.ofName stage)) (if value.isNull then .list [] else value)

end Session

end Playscript
