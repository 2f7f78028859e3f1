import Playscript.Session.Basic
import Playscript.Snapshot.Depth

/-!
# Starting, resuming, saving

A session starts afresh from a script, from plain data, or from a scenario that is compiled or
staged already. Saving it gives a snapshot, from which another session goes on.
-/
namespace Playscript.Session

inductive Source where
  | text (script : String)
  | data (v : Value)
  | compiled (scenario : Scenario)
  | staged (staging : Staging)

def Source.ofValue : Value → Source
  | .str script => .text script
  | v => .data v

def stagingSettings (config : Config) (given : Record) : Record :=
  if config.defaultPlaceholder.isNull ∨ Table.contains given "default_placeholder" then given
  else Table.set given "default_placeholder" config.defaultPlaceholder

def load (snapshot : Snapshot) : Play Unit := do
  let given := stagingSettings (← get).config []
  let staging ← ofExcept (Staging.ofScenario snapshot.scenario given)
  modify fun session => { session with
    staging := some staging
    progress := some snapshot.progress }
  let history ← runHooks .afterLoad snapshot.progress.history
  advance fun progress => { progress with history := history }

variable [DataModel]

/-- Stages a source under settings that are read first. A staging is taken as it is, whatever the
settings are. -/
def Source.stage (source : Source) (given : Except Fault Record) : Except Fault Staging :=
  match source with
  | .staged staging => .ok staging
  | .text script => do Staging.ofText script (← given)
  | .compiled scenario => do Staging.ofScenario scenario (← given)
  | .data v => do
    let given ← given
    let _ ← Settings.overlay Settings.defaults given
    Staging.ofScenario (← (Scenario.check v).outcome) given

def init (source : Source) (given : Value) : Play Unit := do
  let config := (← get).config
  let staging ← ofExcept (source.stage (stagingSettings config <$> given.toRecordIfGiven))
  modify fun session => { session with
    staging := some staging
    progress := some { Progress.initial staging.scenario with
      log := if config.fullLog.truthy then some [] else none
      cost := if config.costOnly.truthy then some .empty else none } }
  let history ← runHooks .afterInit (.list [])
  advance fun progress => { progress with history := history }

/-- The snapshot of a session under way. What hooks do to the history stays, also where there is no
snapshot since a value has too many levels. -/
def save : Play (Option Snapshot) := do
  match (← get).progress with
  | none => return none
  | some progress =>
    let history ← runHooks .beforeSave progress.history
    advance fun progress => { progress with history := history }
    match (← get).current? with
    | none => return none
    | some (staging, progress) =>
      let snapshot : Snapshot := ⟨staging.scenario, progress⟩
      if DataModel.holds snapshot.values then return some snapshot else throw .tooDeep

end Playscript.Session
