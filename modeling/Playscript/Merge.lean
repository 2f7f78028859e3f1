import Playscript.Value

/-!
# Joining records

Contexts are merged deeply: lists concatenate, records merge, and otherwise the later value wins.
Settings are overlaid by key, except that their `keys` sections are joined. Layers are looked up
from front to back.
-/
namespace Playscript

namespace Context

mutual

def mergeValue : Value → Value → Value
  | .list xs, b => match b with
    | .list ys => .list (xs ++ ys)
    | b => b
  | .dict es, b => match b with
    | .dict fs => .dict (mergeEntries es fs ++ fs.filter fun entry => !Table.contains es entry.1)
    | b => b
  | _, b => b

def mergeEntries : List (String × Value) → Record → List (String × Value)
  | [], _ => []
  | (key, a) :: es, fs =>
    (key, match Table.get? fs key with
      | some b => mergeValue a b
      | none => a) :: mergeEntries es fs

end

/-- Merges two contexts: the keys of the first in their order, then the new keys of the second. -/
def merge (a b : Record) : Record :=
  mergeEntries a b ++ b.filter fun entry => !Table.contains a entry.1

theorem mergeValue_dict (es fs : Record) :
    mergeValue (.dict es) (.dict fs) = .dict (merge es fs) := by
  simp [mergeValue, merge]

end Context

abbrev Layers := List Record

namespace Layers

def get? : Layers → String → Option Value
  | [], _ => none
  | layer :: rest, key => (Table.get? layer key) <|> get? rest key

/-- The view as one record. The keys of the last layer come first, then the new keys of each
earlier one. -/
def flatten : Layers → Record
  | [] => []
  | layer :: rest => Table.update (flatten rest) layer

def keys (layers : Layers) : List String :=
  Table.keys (flatten layers)

def ofRecords : List Record → Layers
  | [] => [[]]
  | layers => layers

def set : Layers → String → Value → Layers
  | [], key, v => [Table.set [] key v]
  | layer :: rest, key, v => Table.set layer key v :: rest

end Layers

end Playscript
