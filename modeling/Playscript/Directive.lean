import Playscript.Coercion
import Playscript.Draft
import Playscript.Script.Block
import Playscript.Settings
import Playscript.Text.Word

/-!
# Directives

A line that starts with the directive marker never becomes text of a message. What follows the
marker is read as one of four forms, and the directive writes into the settings of the language,
of the scenario, of its act, or of its message. The marker is looked up afresh for every line,
since a directive may change it.
-/
namespace Playscript

inductive Directive where
  | setting (key value : List Char)
  | use (key value : List Char)
  | assign (key value : List Char)
  | flag (key : List Char)
  | ignored
  deriving DecidableEq, Repr

structure Scope where
  act : String
  index : Option Int

namespace Directive

/-! ## Reading -/

def keyed (make : List Char → List Char → Directive) (s : List Char) : Except Fault Directive :=
  match Text.words s with
  | _ :: key :: values => .ok (make key ([' '].intercalate values))
  | _ => .error .missingKey

def setting? (s : List Char) : Except Fault (Option Directive) :=
  if "parse ".toList.isPrefixOf s then some <$> keyed .setting s else .ok none

def use? (s : List Char) : Except Fault (Option Directive) :=
  if "use ".toList.isPrefixOf s then some <$> keyed .use s else .ok none

def after? (start s : List Char) : Option (List Char) :=
  if start.isPrefixOf s then some (s.drop start.length) else none

def assigned (key value : List Char) : Directive :=
  match after? "scenario.".toList key with
  | some key => .use key value
  | none =>
    match after? "parser.".toList key with
    | some key => .setting key value
    | none => .assign ((after? "act.".toList key).getD key) value

/-- The form `key=value`. Without a key, or with a line feed in the value, it says nothing. -/
def assignment? (s : List Char) : Option Directive :=
  if '=' ∈ s then
    let key := Text.trim (s.takeWhile (· ≠ '='))
    let value := Text.trim ((s.dropWhile (· ≠ '=')).drop 1)
    some (if key = [] ∨ '\n' ∈ value then .ignored else assigned key value)
  else none

def isFlagChar (c : Char) : Bool :=
  Text.isWord c || c == '.' || c == '-'

def flag? (s : List Char) : Option Directive :=
  let key := Text.dropLineEnd s
  if key ≠ [] ∧ key.all isFlagChar then some (.flag s) else none

def ofChars (s : List Char) : Except Fault Directive := do
  let s := Text.trim s
  match ← setting? s with
  | some directive => return directive
  | none =>
    match ← use? s with
    | some directive => return directive
    | none => return ((assignment? s).or (flag? s)).getD .ignored

/-! ## Writing -/

def stored : Value → Except Fault Value
  | .str s => Coercion.restore s.toList
  | v => .ok v

def writeSetting (key : List Char) (value : Value) : Drafting Unit := do
  let value ← ofExcept (stored value)
  modify (·.override (Path.ofChars key) value)

def writeScenario (key : List Char) (value : Value) : Drafting Unit :=
  match Path.ofChars key with
  | [] => pure ()
  | first :: rest =>
    -- The order of the acts is not a directive's to change.
    if first = "order" then pure ()
    else do
      let value ← ofExcept (stored value)
      modify (·.setConfig (first :: rest) value)

def scopedKey (scope : Scope) (key : List Char) : List Char :=
  match scope.index with
  | none => key
  | some index => "messages.".toList ++ Text.decimal index ++ '.' :: key

def writeAct (scope : Scope) (key : List Char) (value : Value) : Drafting Unit := do
  modify fun draft => { draft with scenario := draft.scenario.ensureAct scope.act none }
  let value ← ofExcept (stored value)
  modify fun draft => { draft with
    scenario := draft.scenario.modifyAct scope.act fun act =>
      { act with config := Path.set act.config (Path.ofChars (scopedKey scope key)) value } }

def perform (scope : Scope) : Directive → Drafting Unit
  | .setting key value => writeSetting key (.ofChars value)
  | .use key value => writeScenario key (.ofChars value)
  | .assign key value => writeAct scope key (.ofChars value)
  | .flag key => writeAct scope key (.bool true)
  | .ignored => pure ()

def store (scope : Scope) (s : List Char) : Drafting Unit := do
  perform scope (← ofExcept (ofChars s))

def storeForm (scope : Scope) (form : Except Fault (Option Directive)) : Drafting Bool := do
  match ← ofExcept form with
  | some directive =>
    perform scope directive
    return true
  | none => return false

/-! ## Lines -/

def marks (marker : List Char) (line : Script.Line) : Bool :=
  marker != [] && marker.isPrefixOf (Text.trimLeft line)

def extract (scope : Scope) : List Script.Line → Drafting (List Script.Line)
  | [] => pure []
  | line :: rest => do
    let marker := Settings.directiveMarker (← get).settings
    if marks marker line then
      store scope ((Text.trimLeft line).drop marker.length)
      extract scope rest
    else
      return line :: (← extract scope rest)

end Directive

end Playscript
