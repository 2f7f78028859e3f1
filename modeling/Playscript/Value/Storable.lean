import Playscript.Value

/-!
# Values that are written down

What is written down is read back as lists, records and texts. There are no numbers among it that
are not finite, and no tuples.
-/
namespace Playscript.Value

mutual

/-- The value as it can be written down: numbers that are not finite become nothing, and tuples
lists. -/
def storable : Value → Value
  | .float x => if x.isFinite then .float x else .null
  | .list items | .tuple items => .list (storableItems items)
  | .dict es => .dict (storableEntries es)
  | v => v

def storableItems : List Value → List Value
  | [] => []
  | v :: vs => storable v :: storableItems vs

def storableEntries : List (String × Value) → List (String × Value)
  | [] => []
  | (key, v) :: es => (key, storable v) :: storableEntries es

end

def ofText? : Option String → Value
  | none => .null
  | some s => .str s

end Playscript.Value
