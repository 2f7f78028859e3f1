import Playscript.Fault
import Playscript.Number.Binary64
import Playscript.Text.Blank
import Playscript.Text.Digit

/-!
# Numerals

A numeral is an optional sign, digits with at most one point among them, and an optional exponent.
Without point and exponent it writes an integer, otherwise a binary number. The digits may come
from any decimal alphabet, and a line feed may follow.
-/
namespace Playscript

structure Numeral where
  negative : Bool
  whole : List Char
  fraction : Option (List Char)
  exponent : Option (Bool × List Char)

def digitLimit : Nat := 4300

def integerOfDigits (negative : Bool) (digits : List Char) : Except Fault Int :=
  if digitLimit < digits.length then .error .oversizedNumber
  else
    let magnitude := (Text.digitsValue? digits).getD 0
    .ok (if negative then -(magnitude : Int) else (magnitude : Int))

namespace Numeral

def takeSign : List Char → Bool × List Char
  | '+' :: rest => (false, rest)
  | '-' :: rest => (true, rest)
  | rest => (false, rest)

def takeFraction : List Char → Option (List Char) × List Char
  | '.' :: rest => (some (rest.takeWhile Text.isDecimal), rest.dropWhile Text.isDecimal)
  | rest => (none, rest)

def takeExponent : List Char → Option (Option (Bool × List Char))
  | [] => some none
  | mark :: rest =>
    let (negative, digits) := takeSign rest
    if (mark = 'e' ∨ mark = 'E') ∧ digits ≠ [] ∧ digits.all Text.isDecimal then
      some (some (negative, digits))
    else none

def ofChars? (s : List Char) : Option Numeral := do
  let (negative, s) := takeSign (Text.dropLineEnd s)
  let whole := s.takeWhile Text.isDecimal
  let (fraction, rest) := takeFraction (s.dropWhile Text.isDecimal)
  if whole = [] ∧ fraction.getD [] = [] then none
  return ⟨negative, whole, fraction, ← takeExponent rest⟩

def scale (n : Numeral) : Int :=
  let exponent : Int := match n.exponent with
    | none => 0
    | some (negative, digits) =>
      let magnitude := (Text.digitsValue? digits).getD 0
      if negative then -(magnitude : Int) else (magnitude : Int)
  exponent - ((n.fraction.getD []).length : Int)

def binary (n : Numeral) : Binary64 :=
  let digits := (Text.digitsValue? (n.whole ++ n.fraction.getD [])).getD 0
  .ofDecimal n.negative digits n.scale

def value (n : Numeral) : Except Fault (Int ⊕ Binary64) :=
  match n.fraction, n.exponent with
  | none, none => Sum.inl <$> integerOfDigits n.negative n.whole
  | _, _ => .ok (.inr n.binary)

end Numeral

end Playscript
