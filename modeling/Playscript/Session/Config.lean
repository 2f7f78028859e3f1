import Playscript.Session.Callback
import Playscript.Session.Stage
import Playscript.Value.Pairs

/-!
# Session settings

The settings of a session say what is recorded, what is shown for a placeholder without a value,
which action changes the messages of a role, and which hooks run at which stage. A caller may set
any of them to any value: one of a wrong kind stays where it is put, and is a fault where it is
used. A value put under the name of an operation takes the place of the operation.
-/
namespace Playscript

inductive Slot (α : Type) where
  | proper (content : α)
  | other (v : Value)

/-- Session settings. The hooks are listed by the names of their stages. The taken names are those
of operations that can be asked for no more. -/
structure Config where
  fullLog : Value
  costOnly : Value
  defaultPlaceholder : Value
  actions : Slot (Table Action)
  hooks : Slot (Table (Slot (List Hook)))
  taken : List String

namespace Config

def default : Config := ⟨.bool false, .bool false, .null, .proper [], .proper [], []⟩

instance : Inhabited Config := ⟨default⟩

def operations : List String := ["update", "add_action", "add_hook", "to_dict"]

def demand (config : Config) (operation : String) : Except Fault Unit :=
  if operation ∈ config.taken then .error .notFunction else .ok ()

/-! ## Registration -/

def actionTable (config : Config) : Except Fault (Table Action) :=
  match config.actions with
  | .proper actions => .ok actions
  | .other _ => .error .notRecord

def hookTable (config : Config) : Except Fault (Table (Slot (List Hook))) :=
  match config.hooks with
  | .proper hooks => .ok hooks
  | .other _ => .error .notRecord

def hooksAt (config : Config) (stage : Stage) : Except Fault (List Hook) := do
  match Table.get? (← config.hookTable) stage.name with
  | none => return []
  | some (.proper hooks) => return hooks
  | some (.other v) => return (← v.several).map .inert

def addAction (config : Config) (role : String) (action : Action) : Except Fault Config := do
  config.demand "add_action"
  match config.actions with
  | .proper actions => return { config with actions := .proper (Table.set actions role action) }
  | .other _ => throw .notWritable

def addHook (config : Config) (stage : Stage) (hook : Hook) : Except Fault Config := do
  config.demand "add_hook"
  let table ← config.hookTable
  match (Table.get? table stage.name).getD (.proper []) with
  | .proper hooks =>
    let slot := Slot.proper (hooks ++ [hook])
    return { config with hooks := .proper (Table.set table stage.name slot) }
  | .other _ => throw .notExtensible

def addHookAt (config : Config) (stage : String) (hook : Hook) : Except Fault Config := do
  config.demand "add_hook"
  let _ ← config.hookTable
  config.addHook (← Stage.ofName stage) hook

def checked (config : Config) : Except Fault Config := do
  let _ ← (← config.hookTable).mapM fun entry => Stage.ofName entry.1
  return config

/-! ## Settings as plain data -/

def actionsOf : Value → Slot (Table Action)
  | .dict entries => .proper (Action.ofRecord entries)
  | v => .other v

def stageHooksOf : Value → Slot (List Hook)
  | .list items => .proper (items.map .inert)
  | v => .other v

def hooksOf : Value → Slot (Table (Slot (List Hook)))
  | .dict entries => .proper (entries.map fun entry => (entry.1, stageHooksOf entry.2))
  | v => .other v

/-- Puts a value into the setting of a name, or in place of the operation of that name. Any other
name changes nothing. -/
def setField (config : Config) (name : String) (value : Value) : Config :=
  if name = "full_log" then { config with fullLog := value }
  else if name = "cost_only" then { config with costOnly := value }
  else if name = "default_placeholder" then { config with defaultPlaceholder := value }
  else if name = "actions" then { config with actions := actionsOf value }
  else if name = "hooks" then { config with hooks := hooksOf value }
  else if name ∈ operations then { config with taken := name :: config.taken }
  else config

def ownName : String := "self"

def update (config : Config) (values : Record) : Except Fault Config := do
  config.demand "update"
  if Table.contains values ownName then throw (.takenName ownName)
  return values.foldl (fun config entry => config.setField entry.1 entry.2) config

def fields : List String := ["full_log", "cost_only", "default_placeholder", "actions", "hooks"]

def givenHooks (v : Value) : Except Fault (Table (Slot (List Hook))) := do
  (← v.asRecord).mapM fun entry => do
    let stage ← Stage.ofName entry.1
    return (stage.name, Slot.proper ((← entry.2.several).map .inert))

def ofRecord (values : Record) : Except Fault Config := do
  match values.find? fun entry => entry.1 ∉ fields with
  | some entry => throw (.unknownSetting entry.1)
  | none =>
    let config := values.foldl (fun config entry => config.setField entry.1 entry.2) default
    let hooks ← givenHooks ((Table.get? values "hooks").getD (.dict []))
    return { config with hooks := .proper hooks }

def hookList (config : Config) : Except Fault (List (Stage × Slot (List Hook))) := do
  config.demand "to_dict"
  (← config.hookTable).mapM fun entry => do return (← Stage.ofName entry.1, entry.2)

end Config

end Playscript
