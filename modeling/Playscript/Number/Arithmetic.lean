import Playscript.Number.Binary64

/-!
# Arithmetic on binary numbers

A sum or a product of finite numbers is formed exactly, as a quotient of integers, and rounded once.
Infinite results arise from rounding, or because a number was infinite before.
-/
namespace Playscript.Binary64

def ofNat (n : Nat) : Binary64 :=
  ofQuotient false n 1

def isNegative : Binary64 → Bool
  | .nan => false
  | .infinite negative => negative
  | .finite negative _ _ => negative

def mul (a b : Binary64) : Binary64 :=
  let negative := a.isNegative != b.isNegative
  match a, b with
  | .finite _ m e, .finite _ n f =>
    let (num, den) := quotient m e
    let (num', den') := quotient n f
    ofQuotient negative (num * num') (den * den')
  | .nan, _ => .nan
  | _, .nan => .nan
  | a, b => if a.isZero || b.isZero then .nan else .infinite negative

def signedQuotient (negative : Bool) (mantissa : Nat) (exponent : Int) : Int × Nat :=
  let (num, den) := quotient mantissa exponent
  (if negative then -(num : Int) else (num : Int), den)

/-- The sum of two numbers. A sum of zero is positive unless both numbers are negative. -/
def add (a b : Binary64) : Binary64 :=
  match a, b with
  | .finite s m e, .finite t n f =>
    let (num, den) := signedQuotient s m e
    let (num', den') := signedQuotient t n f
    let total := num * den' + num' * den
    ofQuotient (if total = 0 then s && t else decide (total < 0)) total.natAbs (den * den')
  | .nan, _ => .nan
  | _, .nan => .nan
  | .infinite s, .infinite t => if s = t then .infinite s else .nan
  | .infinite s, _ => .infinite s
  | _, .infinite t => .infinite t

def negate : Binary64 → Binary64
  | .nan => .nan
  | .infinite negative => .infinite !negative
  | .finite negative mantissa exponent => .finite (!negative) mantissa exponent

end Playscript.Binary64
