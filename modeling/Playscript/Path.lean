import Playscript.Number.Numeral
import Playscript.Value

/-!
# Dotted paths

A path names a part of a value by the keys and positions that lead to it. In a text the segments
are separated by points, and blank segments do not count.
-/
namespace Playscript

abbrev Path := List String

namespace Path

def ofChars (s : List Char) : Path :=
  (((s.splitOn '.').map Text.trim).filter (· ≠ [])).map String.ofList

def ofString (s : String) : Path :=
  ofChars s.toList

/-- The list position that a segment writes: nothing unless all its characters are digits, and a
fault if they form no number. -/
def position? (segment : String) : Except Fault (Option Nat) :=
  let s := segment.toList
  if s ≠ [] ∧ s.all Text.isDigit then
    if s.all Text.isDecimal then (fun n => some n.toNat) <$> integerOfDigits false s
    else .error .unreadableNumber
  else .ok none

def get : Value → Path → Except Fault Value
  | v, [] => .ok v
  | .dict entries, key :: rest =>
    match Table.get? entries key with
    | some v => get v rest
    | none => .ok .null
  | .list items, segment :: rest =>
    match position? segment with
    | .error fault => .error fault
    | .ok none => .ok .null
    | .ok (some n) =>
      match items[n]? with
      | some v => get v rest
      | none => .ok .null
  | _, _ :: _ => .ok .null

/-- Reads the part of a value at a path of names. Only a segment of digits can fail to be read, so
nothing is lost by reading a fault as nothing. -/
def find (v : Value) (path : Path) : Value :=
  match get v path with
  | .ok part => part
  | .error _ => .null

def set : Record → Path → Value → Record
  | entries, [], _ => entries
  | entries, [key], v => Table.set entries key v
  | entries, key :: next :: rest, v =>
    -- On the way, whatever is no record gives place to one.
    let inner := ((Table.get? entries key).map Value.entries).getD []
    Table.set entries key (.dict (set inner (next :: rest) v))

/-- Stores a value at a path of a value. In what is no record nothing can be stored, and no way
leads on. -/
def store : Value → Path → Value → Except Fault Value
  | target, [], _ => .ok target
  | .dict entries, path, v => .ok (.dict (set entries path v))
  | _, [_], _ => .error .notWritable
  | _, _ :: _ :: _, _ => .error .notRecord

@[simp] theorem get_nil (v : Value) : get v [] = .ok v := by
  cases v <;> rfl

@[simp] theorem set_nil (entries : Record) (v : Value) : set entries [] v = entries := rfl

@[simp] theorem set_singleton (entries : Record) (key : String) (v : Value) :
    set entries [key] v = Table.set entries key v := rfl

end Path

end Playscript
