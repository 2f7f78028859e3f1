import Playscript.Environment.Listing
import Playscript.Files
import Playscript.Session.Config

/-!
# Environment

Some settings are taken from variables: where the scripts are, what is recorded, and what stands for
a placeholder without a value. Variables may also be listed in a file; those already set win.
-/
namespace Playscript

abbrev Environment := Table String

namespace Environment

def onWords : List String := ["1", "true", "yes", "on"]

def flag (env : Environment) (name : String) : Bool :=
  match Table.get? env name with
  | some text => String.ofList ((Text.trim text.toList).map Char.toLower) ∈ onWords
  | none => false

def listed (env : Environment) (bindings : List (List Char × Option (List Char))) :
    Table (Option String) :=
  bindings.foldl (fun values entry =>
    let value? (name : List Char) : Option (List Char) :=
      let name := String.ofList name
      -- A variable of the environment wins over one that is listed before.
      match Table.get? env name, Table.get? values name with
      | some text, _ => some text.toList
      | none, some value => some ((value.map String.toList).getD [])
      | none, none => none
    let value := entry.2.map fun text => String.ofList (Listing.expand value? text)
    Table.set values (String.ofList entry.1) value) []

/-- The environment with a further variable. No name may be empty or hold an equals sign, and
neither a name nor a value may hold a null character. -/
def withVariable (env : Environment) (name value : String) : Except Fault Environment :=
  if name = "" ∨ '=' ∈ name.toList ∨ '\x00' ∈ name.toList ∨ '\x00' ∈ value.toList then
    .error .unusableVariable
  else .ok (Table.set env name value)

def ofList (entries : List (String × String)) : Except Fault Environment :=
  entries.foldlM (fun env entry => env.withVariable entry.1 entry.2) []

def withText (env : Environment) (text : String) : Except Fault Environment :=
  (env.listed (Listing.bindings text.toList)).foldlM (fun known entry =>
    match entry.2.filter fun _ => !Table.contains env entry.1 with
    | some value => known.withVariable entry.1 value
    | none => .ok known) env

def offWords : List String := ["1", "true", "t", "yes", "y"]

def foldCase (c : Char) : Char :=
  if c = 'ſ' then 's' else c.toLower

def ignoresFiles (env : Environment) : Bool :=
  match Table.get? env "PYTHON_DOTENV_DISABLED" with
  | some text => String.ofList (text.toList.map foldCase) ∈ offWords
  | none => false

def withFile? (env : Environment) (tree : FileTree) (path : Option String) :
    Except Fault Environment :=
  match path.filter fun path => path ≠ "" ∧ !env.ignoresFiles with
  | none => .ok env
  | some path =>
    if '\x00' ∈ path.toList then .error .unusablePath
    else if FilePath.endsInDirectory path then .ok env
    else match tree.read (.ofString path) with
      | .ok text => env.withText text
      | .error .invalidEncoding => .error .invalidEncoding
      | .error _ => .ok env

def scenarioDirectory (env : Environment) : String :=
  (Table.get? env "SCENARIOS_DIR").getD "config/scenario"

def fullLog (env : Environment) : Bool :=
  env.flag "SCENARIO_FULL_LOG"

def costOnly (env : Environment) : Bool :=
  env.flag "SCENARIO_COST_ONLY"

def defaultPlaceholder (env : Environment) : Option String :=
  Table.get? env "SCENARIO_DEFAULT_PLACEHOLDER"

def config (env : Environment) : Config :=
  { Config.default with
    fullLog := .bool env.fullLog
    costOnly := .bool env.costOnly
    defaultPlaceholder := env.defaultPlaceholder.elim .null .str }

end Environment

end Playscript
