import Playscript.Value.Literal
import Playscript.Value.Pairs

/-!
# Settings of the script language

The settings are a record: the comment and directive markers, the text that joins content lines,
the continuation marker, and under `keys` the names used in messages and the default act. A script
may write any value into them, so each setting is read as the text its value stands for.
-/
namespace Playscript.Settings

def defaults : Record := [
  ("join", .str " "),
  ("comment", .str "#"),
  ("new_line", .str "\\"),
  ("directive", .str "%"),
  ("keys", .dict [
    ("role", .str "role"),
    ("content", .str "content"),
    ("default_act", .str "default")])]

def keySection (settings : Record) : Except Fault Record :=
  match Table.get? settings "keys" with
  | none => .ok []
  | some (.dict entries) => .ok entries
  | some _ => .error .keysNotRecord

/-- Lays settings over others; the `keys` sections are joined one level deep. -/
def overlay (base extension : Record) : Except Fault Record := do
  let lower ← keySection base
  let upper ← keySection extension
  return Table.set (Table.update base extension) "keys" (.dict (Table.update lower upper))

def overlayGiven (base extension : Value) : Except Fault Record := do
  let extension := if extension.truthy then extension else .dict []
  let _ ← base.toRecord
  let _ ← extension.toRecord
  let base ← base.asRecord
  let _ ← keySection base
  overlay base (← extension.asRecord)

theorem overlayGiven_dict (base extension : Record) :
    overlayGiven (.dict base) (.dict extension) = overlay base extension := by
  cases extension with
  | nil => cases h : keySection base <;> simp [overlayGiven, overlay, Value.truthy,
      Value.asRecord, h, bind, Except.bind]
  | cons entry rest => cases h : keySection base <;> simp [overlayGiven, overlay, Value.truthy,
      Value.asRecord, h, bind, Except.bind]

mutual

def plain : Value → List Char
  | .null => []
  | .bool true => ['t', 'r', 'u', 'e']
  | .bool false => ['f', 'a', 'l', 's', 'e']
  | .list items => [','].intercalate (plainItems items)
  | v => v.text

def plainItems : List Value → List (List Char)
  | [] => []
  | v :: vs => plain v :: plainItems vs

end

def textOr (default : List Char) : Value → List Char
  | .null => default
  | v => plain v

def textOf (settings : Record) (name : String) (default : List Char) : List Char :=
  textOr default ((Table.get? settings name).getD .null)

def keys (settings : Record) : Record :=
  ((Table.get? settings "keys").map Value.entries).getD []

def nameOf (settings : Record) (key fallback : String) : String :=
  match textOf (keys settings) key [] with
  | [] => fallback
  | name => String.ofList name

def defaultAct (settings : Record) : String :=
  nameOf settings "default_act" "default"

def roleKey (settings : Record) : String :=
  nameOf settings "role" "role"

def contentKey (settings : Record) : String :=
  nameOf settings "content" "content"

def commentMarker (settings : Record) : List Char :=
  textOf settings "comment" []

def isComment (settings : Record) (line : List Char) : Bool :=
  let marker := commentMarker settings
  marker != [] && marker.isPrefixOf line

def directiveMarker (settings : Record) : List Char :=
  match Table.get? settings "directive" with
  | some v => if v.truthy then v.text else ['%']
  | none => ['%']

end Playscript.Settings
