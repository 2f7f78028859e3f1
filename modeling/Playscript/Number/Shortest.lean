import Playscript.Number.Binary64

/-!
# The shortest decimal of a binary number

A number is written with the fewest decimal digits that read back as the same number, and with
the nearest of those. The digits are found by trying precisions from one digit to seventeen: at
each precision only the two neighbours of the number on the decimal grid can read back.
-/
namespace Playscript

structure Decimal where
  digits : List Char
  point : Int

namespace Decimal

def ofNat (n : Nat) (exponent : Int) : Decimal :=
  let digits := Nat.toDigits 10 n
  ⟨(digits.reverse.dropWhile (· == '0')).reverse, (digits.length : Int) + exponent⟩

def positional (d : Decimal) : List Char :=
  if d.point ≤ 0 then
    '0' :: '.' :: (List.replicate (-d.point).toNat '0' ++ d.digits)
  else if (d.digits.length : Int) ≤ d.point then
    d.digits ++ List.replicate (d.point.toNat - d.digits.length) '0' ++ ['.', '0']
  else
    d.digits.take d.point.toNat ++ '.' :: d.digits.drop d.point.toNat

def scientific (d : Decimal) : List Char :=
  let exponent := d.point - 1
  let digits := Nat.toDigits 10 exponent.natAbs
  let mantissa := match d.digits with
    | first :: second :: rest => first :: '.' :: second :: rest
    | digits => digits
  mantissa ++ ['e', if exponent < 0 then '-' else '+'] ++
    List.replicate (2 - digits.length) '0' ++ digits

def text (d : Decimal) : List Char :=
  if -4 < d.point ∧ d.point ≤ 16 then d.positional else d.scientific

end Decimal

namespace Binary64

def pointOf (num den : Nat) : Int :=
  let estimate := ((Nat.toDigits 10 num).length : Int) - ((Nat.toDigits 10 den).length : Int)
  let reached := match estimate with
    | .ofNat e => decide (den * tenTo e ≤ num)
    | .negSucc e => decide (den ≤ num * tenTo (e + 1))
  if reached then estimate + 1 else estimate

/-- The decimal of the given precision that reads back as the number, the nearer one if both
neighbours do. -/
def atPrecision (number : Binary64) (num den : Nat) (point : Int) (precision : Nat) :
    Option Decimal :=
  let exponent := point - precision
  let (n, d) := match exponent with
    | .ofNat e => (num, den * tenTo e)
    | .negSucc e => (num * tenTo (e + 1), den)
  let below := n / d
  let readsBack (digits : Nat) := ofDecimal false digits exponent == number
  match readsBack below, readsBack (below + 1) with
  | true, true => some (.ofNat (roundDiv n d) exponent)
  | true, false => some (.ofNat below exponent)
  | false, true => some (.ofNat (below + 1) exponent)
  | false, false => none

def shortest (mantissa : Nat) (exponent : Int) : Decimal :=
  let (num, den) := quotient mantissa exponent
  let point := pointOf num den
  let number := finite false mantissa exponent
  ((List.range 17).findSome? fun n => atPrecision number num den point (n + 1)).getD ⟨[], 0⟩

def text : Binary64 → List Char
  | .nan => ['n', 'a', 'n']
  | .infinite negative => (if negative then ['-'] else []) ++ ['i', 'n', 'f']
  | .finite negative mantissa exponent =>
    (if negative then ['-'] else []) ++
      if mantissa = 0 then ['0', '.', '0'] else (shortest mantissa exponent).text

end Binary64

end Playscript
