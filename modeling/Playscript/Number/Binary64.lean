/-!
# Binary floating-point numbers

A number with a fraction or an exponent is held in the binary64 format. Such numbers are mostly read
from decimals, compared and written again, so a value is kept as the exact product
`mantissa * 2 ^ exponent`, and every conversion is exact natural-number arithmetic followed by one
rounding to nearest, ties to even.
-/
namespace Playscript

def twoTo (n : Nat) : Nat := Nat.pow 2 n

def tenTo (n : Nat) : Nat := Nat.pow 10 n

/-- A binary64 number. A finite one has a mantissa below `2 ^ 53` and an exponent from -1074 to
971; the mantissa reaches `2 ^ 52` unless the exponent is -1074. -/
inductive Binary64 where
  | nan
  | infinite (negative : Bool)
  | finite (negative : Bool) (mantissa : Nat) (exponent : Int)
  deriving DecidableEq, Repr, Inhabited

namespace Binary64

def roundDiv (num den : Nat) : Nat :=
  let quotient := num / den
  let twice := 2 * (num % den)
  if twice < den then quotient
  else if den < twice then quotient + 1
  else quotient + quotient % 2

def scaled (num den : Nat) (exponent : Int) : Nat × Nat :=
  match exponent with
  | .ofNat e => (num, den * twoTo e)
  | .negSucc e => (num * twoTo (e + 1), den)

/-- The exponent at which the quotient of two positive naturals has a mantissa of 53 bits, or the
least exponent of the format. -/
def exponentOf (num den : Nat) : Int :=
  let estimate := max (-1074) ((num.log2 : Int) - (den.log2 : Int) - 53)
  let (n, d) := scaled num den estimate
  if n / d < twoTo 53 then estimate else estimate + 1

def ofQuotient (negative : Bool) (num den : Nat) : Binary64 :=
  if num = 0 then .finite negative 0 (-1074)
  else
    let exponent := exponentOf num den
    let (n, d) := scaled num den exponent
    let mantissa := roundDiv n d
    let (mantissa, exponent) :=
      if mantissa = twoTo 53 then (twoTo 52, exponent + 1) else (mantissa, exponent)
    if 971 < exponent then .infinite negative else .finite negative mantissa exponent

def ofDecimal (negative : Bool) (digits : Nat) (exponent : Int) : Binary64 :=
  -- Far beyond the range of the format the answer is known without forming the power.
  let magnitude := ((Nat.toDigits 10 digits).length : Int) + exponent
  if digits = 0 ∨ magnitude < -400 then .finite negative 0 (-1074)
  else if 400 < magnitude then .infinite negative
  else match exponent with
    | .ofNat e => ofQuotient negative (digits * tenTo e) 1
    | .negSucc e => ofQuotient negative digits (tenTo (e + 1))

def quotient (mantissa : Nat) : Int → Nat × Nat
  | .ofNat e => (mantissa * twoTo e, 1)
  | .negSucc e => (mantissa, twoTo (e + 1))

def toInt? : Binary64 → Option Int
  | .finite negative mantissa exponent =>
    let magnitude : Option Nat := match exponent with
      | .ofNat e => some (mantissa * twoTo e)
      | .negSucc e =>
        if mantissa % twoTo (e + 1) = 0 then some (mantissa / twoTo (e + 1)) else none
    magnitude.map fun n => if negative then -(n : Int) else (n : Int)
  | _ => none

def isZero : Binary64 → Bool
  | .finite _ mantissa _ => mantissa == 0
  | _ => false

def equal : Binary64 → Binary64 → Bool
  | .nan, _ => false
  | _, .nan => false
  | a, b => a == b || (a.isZero && b.isZero)

def isFinite : Binary64 → Bool
  | .finite .. => true
  | _ => false

end Binary64

end Playscript
