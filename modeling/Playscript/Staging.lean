import Playscript.Compiler
import Playscript.Merge
import Playscript.Value.Written

/-!
# Staging a scenario

A staging is a scenario together with what is needed to build its messages: the settings it was
opened with and the text shown for a placeholder that has no value. Building never changes the
scenario. A setting that the script itself has changed comes before the settings given here.
-/
namespace Playscript

structure Staging where
  scenario : Scenario
  settings : Record
  sentinel : String
  deriving Repr

namespace Staging

open Script (Piece Placeholder)

/-- The sentinel: from the given settings, else from the script, else question marks. -/
def sentinelOf (given overrides : Record) : String :=
  let value := (Table.get? given "default_placeholder").getD
    ((Table.get? overrides "default_placeholder").getD .null)
  String.ofList (Settings.textOr ['?', '?', '?'] value)

def ofScenario (scenario : Scenario) (given : Record) : Except Fault Staging := do
  let settings ← Settings.overlay Settings.defaults given
  return ⟨scenario, settings, sentinelOf given scenario.overrides⟩

/-- The parts of settings that a script compiled under them has in common with them: the records
in the `keys` section. -/
def sharedParts (settings : Record) : List Path :=
  (Settings.keys settings).filterMap fun entry =>
    match entry.2 with
    | .dict _ => some ["keys", entry.1]
    | _ => none

def ofText (text : String) (given : Record) : Except Fault Staging := do
  let settings ← Settings.overlay Settings.defaults given
  let (outcome, draft) := Compiler.run text settings
  outcome
  -- What the script writes below a shared part shows in the settings of the staging too.
  return ⟨draft.scenario, Sharing.follow (sharedParts settings) settings draft.written,
    sentinelOf given draft.scenario.overrides⟩

def settingValue (staging : Staging) (path : Path) : Value :=
  let overridden := Path.find (.dict staging.scenario.overrides) path
  if overridden.isNull then Path.find (.dict staging.settings) path else overridden

def setting (staging : Staging) (path : Path) (fallback : String) : String :=
  match Settings.plain (staging.settingValue path) with
  | [] => fallback
  | text => String.ofList text

def defaultAct (staging : Staging) : String :=
  staging.setting ["keys", "default_act"] "default"

def roleKey (staging : Staging) : String :=
  staging.setting ["keys", "role"] "role"

def contentKey (staging : Staging) : String :=
  staging.setting ["keys", "content"] "content"

def commentMarker (staging : Staging) : String :=
  staging.setting ["comment"] "#"

def actOrDefault (staging : Staging) (act : Option String) : String :=
  (act.filter (· ≠ "")).getD staging.defaultAct

/-! ## Building -/

variable [Interpreter]

/-- The value of a placeholder: from the context at its path or, if it is dotted, under the whole
name, then the default of the act, then the default written beside it, then the sentinel. -/
def valueOf (staging : Staging) (context : Value) (defaults : Record) (placeholder : Placeholder) :
    Except Fault Value := do
  let name := placeholder.name
  let value ← Path.get context (Path.ofString name)
  let value ←
    if value.isNull ∧ '.' ∈ name.toList then
      (fun entries => (Table.get? entries name).getD .null) <$> context.asRecord
    else pure value
  let value := if value.isNull then (Table.get? defaults name).getD .null else value
  match value with
  | .null =>
    match placeholder.default? with
    | some text => return .str text
    | none => return .str staging.sentinel
  | value => return value

def substitute (staging : Staging) (context : Value) (defaults : Record) :
    Piece → Except Fault (List Char)
  | .char c => .ok [c]
  | .token inside =>
    match Placeholder.ofInside? inside with
    | none => .ok (Piece.source (.token inside))
    | some placeholder => do
      (← staging.valueOf context defaults placeholder).written Value.render

/-- Replaces the placeholders of a content, with the defaults of an act. -/
def replace (staging : Staging) (context : Value) (defaults : Record) (content : List Char) :
    Except Fault (List Char) :=
  List.flatten <$> (Piece.scan content).mapM (staging.substitute context defaults)

def actNamed (staging : Staging) (act : Option String) : Except Fault String :=
  match act.filter (· ≠ "") with
  | some name => .ok name
  | none => do
    let _ ← (staging.settingValue ["keys", "default_act"]).written Settings.plain
    return staging.defaultAct

def replacePlaceholders (staging : Staging) (content : String) (context : Value)
    (act : Option String) : Except Fault String := do
  let act ← staging.actNamed act
  let defaults := ((staging.scenario.act? act).map (·.placeholders)).getD []
  return String.ofList (← staging.replace context defaults content.toList)

structure Format where
  roleKey : String
  contentKey : String
  comment : List Char
  fillRoles : Bool

def format (staging : Staging) : Format where
  roleKey := staging.roleKey
  contentKey := staging.contentKey
  comment := staging.commentMarker.toList
  fillRoles := ((Table.get? staging.scenario.config "role_placeholders").getD .null).truthy

def textAt (message : Record) (key : String) : List Char :=
  ((Table.get? message key).map Value.text).getD []

def readText (message : Record) (key : String) : Except Fault (List Char) :=
  match Table.get? message key with
  | none => .ok []
  | some v => v.written Value.text

/-- Builds one message; a commented role keeps it out. -/
def buildMessage (staging : Staging) (format : Format) (context : Value) (defaults : Record)
    (message : Record) : Except Fault (Option Record) := do
  let role ← readText message format.roleKey
  if format.comment ≠ [] ∧ format.comment.isPrefixOf role then return none
  let message ←
    if format.fillRoles then
      pure (Table.set message format.roleKey
        (.ofChars (← staging.replace context defaults role)))
    else pure message
  let content ← staging.replace context defaults (← readText message format.contentKey)
  return some (Table.set message format.contentKey (.ofChars content))

def buildFrom (staging : Staging) (format : Format) (context : Value) (defaults : Record) :
    Nat → List Record → Except Fault (List (Nat × Record))
  | _, [] => .ok []
  | index, message :: rest => do
    let built ← staging.buildMessage format context defaults message
    let more ← buildFrom staging format context defaults (index + 1) rest
    match built with
    | none => return more
    | some message => return (index, message) :: more

def buildIndexed (staging : Staging) (context : Value) (act : Option String) :
    Except Fault (List (Nat × Record)) :=
  -- A context that does not count as given is empty.
  let context := if context.truthy then context else .dict []
  match staging.scenario.act? (staging.actOrDefault act) with
  | none => .ok []
  | some act => staging.buildFrom staging.format context act.placeholders 0 act.messages

def build (staging : Staging) (context : Value) (act : Option String) :
    Except Fault (List Record) :=
  List.map Prod.snd <$> staging.buildIndexed context act

/-! ## Settings of acts -/

def scenarioLayer (staging : Staging) : Record :=
  staging.scenario.config.filter fun entry =>
    entry.1 ≠ "order" ∧ entry.1 ≠ "parser_overrides"

/-- The layers of settings of an act: its own unless it is the default act, those of the default
act, and those of the scenario. -/
def configLayers (staging : Staging) (act : Option String) : Except Fault (List Record) :=
  let shared := ((staging.scenario.act? staging.defaultAct).map (·.config)).toList
  let layers := shared ++ [staging.scenarioLayer]
  match act.filter (· ≠ staging.defaultAct) with
  | none => .ok layers
  | some name =>
    match staging.scenario.act? name with
    | some act => .ok (act.config :: layers)
    | none => .error (.unknownAct name)

def isUnknown (staging : Staging) (act : Option String) : Bool :=
  match act with
  | none => false
  | some name => (staging.scenario.act? name).isNone

def actConfig (staging : Staging) (act : Option String) : Except Fault (Option Layers) := do
  if staging.isUnknown act then return none
  return some (Layers.ofRecords (← staging.configLayers act))

def ownConfig (staging : Staging) (act : Option String) : Except Fault (Option Record) := do
  if staging.isUnknown act then return none
  return (← staging.configLayers act).head?

def messageConfig (staging : Staging) (act : String) (number : Value) : Option Record := do
  let act ← staging.scenario.act? act
  let .dict messages ← Table.get? act.config "messages" | none
  let .dict config ← Table.get? messages (String.ofList number.text) | none
  return config

/-- A context over the settings of an act; an unknown act counts as none. -/
def contextLayers (staging : Staging) (context : Value) (act : Option String) :
    Except Fault Layers := do
  let act := if staging.isUnknown act then none else act
  let layers ← staging.configLayers act
  return (← context.toRecordIfGiven) :: layers

/-! ## Acts -/

def placeholderNames (staging : Staging) (act : String) : List String :=
  ((staging.scenario.act? act).map (·.placeholders.keys)).getD []

def acts (staging : Staging) : Except Fault (Table Act) := do
  let entries ← staging.scenario.order.mapM fun name =>
    match staging.scenario.act? name with
    | some act => pure (name, act)
    | none => throw (.unknownAct name)
  return Table.ofList entries

end Staging

end Playscript
