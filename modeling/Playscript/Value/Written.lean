import Playscript.Fault
import Playscript.Number.Numeral
import Playscript.Value.Literal

/-!
# Values that have a text

Not every value can be written as a text. An integer of more than `digitLimit` digits cannot,
wherever it stands in the value, and a value with parts may be so deep that the stack of the
interpreter is full before its text is complete. Which values these are is left to the interpreter.
-/
namespace Playscript

/-- An interpreter, by the values for which its stack is full before the text is complete that a
way of writing gives. -/
class Interpreter where
  isFull : (Value → List Char) → Value → Bool

instance Interpreter.unbounded : Interpreter := ⟨fun _ _ => false⟩

namespace Value

mutual

def oversized : Value → Bool
  | .int n => digitLimit < (Nat.toDigits 10 n.natAbs).length
  | .list items | .tuple items => oversizedItems items
  | .dict entries => oversizedEntries entries
  | _ => false

def oversizedItems : List Value → Bool
  | [] => false
  | v :: vs => oversized v || oversizedItems vs

def oversizedEntries : List (String × Value) → Bool
  | [] => false
  | (_, v) :: es => oversized v || oversizedEntries es

end

def hasParts : Value → Bool
  | .list _ | .tuple _ | .dict _ => true
  | _ => false

variable [Interpreter]

/-- The text that a way of writing gives a value, if there is one. It is not told apart which of
the two causes leaves a value without a text. -/
def written (write : Value → List Char) (v : Value) : Except Fault (List Char) :=
  if v.oversized || (v.hasParts && Interpreter.isFull write v) then .error .noText
  else .ok (write v)

end Value

end Playscript
