import Playscript.Fault
import Playscript.Value

/-!
# Records given in other forms

Where a record is asked for, a list of pairs does as well: of lists of a key and a value, of texts
of two characters, or of records of two keys. Later pairs of a key replace earlier ones. The keys
of pairs need not be texts, but only what stands under a text can be asked for by name.
-/
namespace Playscript

abbrev Pairs := List (Value × Value)

namespace Pairs

def set : Pairs → Value → Value → Pairs
  | [], key, v => [(key, v)]
  | (k, old) :: rest, key, v =>
    if k.equal key then (k, v) :: rest else (k, old) :: set rest key v

def named (pairs : Pairs) : Record :=
  pairs.filterMap fun
    | (.str name, v) => some (name, v)
    | _ => none

def otherKeys (pairs : Pairs) : List Value :=
  pairs.filterMap fun
    | (.str _, _) => none
    | (key, _) => some key

def ofRecord (entries : Record) : Pairs :=
  entries.map fun entry => (.str entry.1, entry.2)

@[simp] theorem named_ofRecord (entries : Record) : named (ofRecord entries) = entries := by
  induction entries with
  | nil => rfl
  | cons entry rest ih =>
    simp only [named, ofRecord] at ih
    simp [named, ofRecord, ih]

end Pairs

namespace Value

def several : Value → Except Fault (List Value)
  | .list items | .tuple items => .ok items
  | .str s => .ok (s.toList.map fun c => .ofChars [c])
  | .dict entries => .ok (entries.map fun entry => .str entry.1)
  | _ => .error .notSeveral

def oneOrSeveral : Value → List Value
  | .list items => items
  | v => [v]

def items : Value → Except Fault (List Value)
  | .list items => .ok items
  | _ => .error .notExtensible

def first (v : Value) : Except Fault Value :=
  if v.truthy then
    match v with
    | .dict _ => .error .notIndexed
    | v => do return (← v.several).head?.getD .null
  else .ok .null

def pair (v : Value) : Except Fault (Value × Value) := do
  match ← v.several with
  | [key, v] => if key.isKey then return (key, v) else throw .unusableKey
  | _ => throw .notPair

def toPairs : Value → Except Fault Pairs
  | .dict entries => .ok (.ofRecord entries)
  | v => do
    let items ← (← v.several).mapM pair
    return items.foldl (fun pairs item => pairs.set item.1 item.2) []

/-- The record that a value is or lists, as far as it can be asked for by name. -/
def toRecord (v : Value) : Except Fault Record :=
  Pairs.named <$> v.toPairs

def toRecordIfGiven (v : Value) : Except Fault Record :=
  if v.truthy then v.toRecord else .ok []

def asRecord : Value → Except Fault Record
  | .dict entries => .ok entries
  | _ => .error .notRecord

@[simp] theorem toRecord_dict (entries : Record) : toRecord (.dict entries) = .ok entries := by
  simp [toRecord, toPairs, Functor.map, Except.map]

@[simp] theorem toRecordIfGiven_dict (entries : Record) :
    toRecordIfGiven (.dict entries) = .ok entries := by
  cases entries <;> simp [toRecordIfGiven, truthy]

end Value

end Playscript
