import Playscript.Number.Binary64
import Playscript.Table

/-!
# Values

Settings, contexts and messages are made of plain values: nothing, truth values, integers of any
size, binary numbers, texts, lists, and records with text keys in order of insertion. A caller may
also give a tuple, a list that cannot be changed any more; no text is read as one.
-/
namespace Playscript

inductive Value where
  | null
  | bool (b : Bool)
  | int (n : Int)
  | float (x : Binary64)
  | str (s : String)
  | list (items : List Value)
  | tuple (items : List Value)
  | dict (entries : List (String × Value))
  deriving Inhabited, Repr

abbrev Record := Table Value

namespace Value

def ofChars (s : List Char) : Value :=
  .str (String.ofList s)

/-- Whether the value counts as given: nothing, false, zeros and empty texts, lists and records
do not. -/
def truthy : Value → Bool
  | .null => false
  | .bool b => b
  | .int n => n != 0
  | .float x => !x.isZero
  | .str s => s != ""
  | .list items | .tuple items => !items.isEmpty
  | .dict entries => !entries.isEmpty

def isNull : Value → Bool
  | .null => true
  | _ => false

mutual

/-- Whether the value can be a key: a list or a record cannot, and a tuple only if all its items
can. -/
def isKey : Value → Bool
  | .list _ | .dict _ => false
  | .tuple items => areKeys items
  | _ => true

def areKeys : List Value → Bool
  | [] => true
  | v :: vs => isKey v && areKeys vs

end

def entries : Value → Record
  | .dict entries => entries
  | _ => []

def integer? : Value → Option Int
  | .bool b => some (if b then 1 else 0)
  | .int n => some n
  | _ => none

def equalAtoms (a b : Value) : Bool :=
  match a, b with
  | .null, .null => true
  | .str s, .str t => s == t
  | .float x, .float y => x.equal y
  | .float x, b => match b.integer? with
    | some n => x.toInt? == some n
    | none => false
  | a, .float y => match a.integer? with
    | some n => y.toInt? == some n
    | none => false
  | a, b => match a.integer?, b.integer? with
    | some m, some n => m == n
    | _, _ => false

mutual

/-- Equality of values. Lists and tuples are compared item by item, records without regard to
order. -/
def equal : Value → Value → Bool
  | .list xs, b => match b with
    | .list ys => equalItems xs ys
    | _ => false
  | .tuple xs, b => match b with
    | .tuple ys => equalItems xs ys
    | _ => false
  | .dict es, b => match b with
    | .dict fs => es.length == fs.length && equalEntries es fs
    | _ => false
  | a, b => equalAtoms a b

def equalItems : List Value → List Value → Bool
  | [], ys => ys.isEmpty
  | x :: xs, ys => match ys with
    | [] => false
    | y :: ys => equal x y && equalItems xs ys

def equalEntries : List (String × Value) → Record → Bool
  | [], _ => true
  | (key, x) :: es, fs => (match Table.get? fs key with
    | some y => equal x y
    | none => false) && equalEntries es fs

end

end Value

end Playscript
