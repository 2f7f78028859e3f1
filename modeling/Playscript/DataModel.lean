import Playscript.Check
import Playscript.Timestamp
import Playscript.Value.Depth
import Playscript.Value.Storable

/-!
# Data models

Scenarios, ledgers and snapshots are models: records of fields with fixed names and kinds. How the
fields are read from plain data, and how the free values in them are written down, is the matter of
a library of data models. The library is a parameter of everything that reads or writes models; the
rules of `Check` make the standard one.
-/
namespace Playscript

/-- A library of data models. -/
class DataModel where
  /-- The record that a model is read from. -/
  fields : Value → Check Record
  /-- A field with a default. -/
  field {α : Type} (name : String) (default : α) (check : Value → Check α) (r : Record) : Check α
  required {α : Type} (name : String) (check : Value → Check α) (r : Record) : Check α
  /-- What a record holds beside the fields of the given names. -/
  beside (names : List String) (r : Record) : Record
  any : Value → Check Value
  text : Value → Check String
  truth : Value → Check Bool
  integer : Value → Check Int
  time : Value → Check Timestamp
  record : Value → Check Record
  list {α : Type} (item : Value → Check α) : Value → Check (List α)
  table {α : Type} (entry : Value → Check α) : Value → Check (Table α)
  optional {α : Type} (check : Value → Check α) : Value → Check (Option α)
  /-- A free value as it is written down. -/
  plain : Value → Value
  /-- Whether a model with the given free values in it can be written down. -/
  holds : List Value → Bool

namespace DataModel

def maxDepth : Nat := 255

instance standard : DataModel where
  fields := Check.fields
  field := Check.field
  required := Check.required
  beside names r := r.filter fun entry => entry.1 ∉ names
  any := Check.any
  text := Check.text
  truth := Check.truth
  integer := Check.integer
  time := Timestamp.check
  record := Check.record
  list := Check.list
  table := Check.table
  optional := Check.optional
  plain := Value.storable
  holds values := decide (Value.depthOfItems values ≤ maxDepth)

variable [DataModel]

def plainEntries (r : Record) : Record :=
  r.map fun entry => (entry.1, plain entry.2)

end DataModel

end Playscript
