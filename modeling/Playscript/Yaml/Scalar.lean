import Playscript.Calendar
import Playscript.Number.Arithmetic
import Playscript.Number.Numeral
import Playscript.Value

/-!
# Plain scalars

A scalar without quotes is read by its spelling as nothing, a truth value, a number, a date, or
else as a text. A text that would be read as something else has to be quoted when it is written.
-/
namespace Playscript.Yaml

inductive ScalarKind where
  | null
  | truth (b : Bool)
  | integer
  | number
  | date
  | merge
  | default
  | reserved
  | text
  deriving DecidableEq, Repr

namespace Scalar

def nullWords : List String := ["", "~", "null", "Null", "NULL"]

def trueWords : List String :=
  ["yes", "Yes", "YES", "true", "True", "TRUE", "on", "On", "ON"]

def falseWords : List String :=
  ["no", "No", "NO", "false", "False", "FALSE", "off", "Off", "OFF"]

def isDigitMark (c : Char) : Bool :=
  c.isDigit || c == '_'

def isHexDigit (c : Char) : Bool :=
  c.isDigit || ('a' ≤ c && c ≤ 'f') || ('A' ≤ c && c ≤ 'F')

def isSexagesimal : List Char → Bool
  | [c] => c.isDigit
  | [b, c] => '0' ≤ b && b ≤ '5' && c.isDigit
  | _ => false

def unsigned (s : List Char) : List Char :=
  (Numeral.takeSign s).2

def isInteger (s : List Char) : Bool :=
  match unsigned s with
  | ['0'] => true
  | '0' :: 'b' :: rest => rest != [] && rest.all fun c => c == '0' || c == '1' || c == '_'
  | '0' :: 'x' :: rest => rest != [] && rest.all fun c => isHexDigit c || c == '_'
  | '0' :: rest => rest.all fun c => ('0' ≤ c && c ≤ '7') || c == '_'
  | c :: rest =>
    c.isDigit && match rest.splitOn ':' with
      | first :: groups => first.all isDigitMark && groups.all isSexagesimal
      | [] => false
  | [] => false

def isExponent : List Char → Bool
  | [] => true
  | mark :: sign :: digits =>
    (mark == 'e' || mark == 'E') && (sign == '-' || sign == '+') && digits != [] &&
      digits.all Char.isDigit
  | _ => false

def isFraction (s : List Char) : Bool :=
  isExponent (s.dropWhile isDigitMark)

def infinityWords : List String := ["inf", "Inf", "INF"]

def nanWords : List String := ["nan", "NaN", "NAN"]

def isNumber (s : List Char) : Bool :=
  let fromPoint := match s with
    | '.' :: c :: rest => c.isDigit && isFraction rest || String.ofList (c :: rest) ∈ nanWords
    | _ => false
  let body := unsigned s
  let infinite := match body with
    | '.' :: rest => String.ofList rest ∈ infinityWords
    | _ => false
  let whole := body.takeWhile (· ≠ '.')
  let withWhole := match whole, body.dropWhile (· ≠ '.') with
    | c :: rest, '.' :: fraction =>
      c.isDigit && match rest.splitOn ':' with
        | [first] => first.all isDigitMark && isFraction fraction
        | first :: groups =>
          first.all isDigitMark && groups.all isSexagesimal && fraction.all isDigitMark
        | [] => false
    | _, _ => false
  fromPoint || infinite || withWhole

def skipDigits (least most : Nat) (s : List Char) : Option (List Char) :=
  let count := ((s.take most).takeWhile Char.isDigit).length
  if least ≤ count then some (s.drop count) else none

def skipChar (c : Char) : List Char → Option (List Char)
  | [] => none
  | first :: rest => if first = c then some rest else none

def isGap (c : Char) : Bool :=
  c == ' ' || c == '\t'

def isOffset (s : List Char) : Bool :=
  s == [] || match s.dropWhile isGap with
    | ['Z'] => true
    | sign :: rest =>
      (sign == '-' || sign == '+') && match skipDigits 1 2 rest with
        | some [] => true
        | some (':' :: minutes) => skipDigits 2 2 minutes == some []
        | _ => false
    | [] => false

def isShortDate (s : List Char) : Bool :=
  (do
    let s ← skipChar '-' (← skipDigits 4 4 s)
    let s ← skipChar '-' (← skipDigits 2 2 s)
    skipDigits 2 2 s) == some []

def skipTime (s : List Char) : Option (List Char) := do
  let s ← skipChar '-' (← skipDigits 4 4 s)
  let s ← skipChar '-' (← skipDigits 1 2 s)
  let s ← skipDigits 1 2 s
  let s ← match s with
    | 'T' :: rest | 't' :: rest => some rest
    | c :: rest => if isGap c then some (rest.dropWhile isGap) else none
    | [] => none
  let s ← skipChar ':' (← skipDigits 1 2 s)
  let s ← skipChar ':' (← skipDigits 2 2 s)
  let s ← skipDigits 2 2 s
  return match s with
    | '.' :: rest => rest.dropWhile Char.isDigit
    | rest => rest

def isDate (s : List Char) : Bool :=
  isShortDate s || match skipTime s with
    | some rest => isOffset rest
    | none => false

def kind (s : List Char) : ScalarKind :=
  let word := String.ofList s
  if word ∈ nullWords then .null
  else if word ∈ trueWords then .truth true
  else if word ∈ falseWords then .truth false
  else if word = "<<" then .merge
  else if word = "=" then .default
  else if word ∈ ["!", "&", "*"] then .reserved
  else if isNumber s then .number
  else if isInteger s then .integer
  else if isDate s then .date
  else .text

/-! ## Values -/

def digitOf (c : Char) : Nat :=
  if c.isDigit then c.toNat - 0x30 else c.toLower.toNat - 0x57

def ofBase (base : Nat) (digits : List Char) : Nat :=
  digits.foldl (fun total c => base * total + digitOf c) 0

def ofGroups (groups : List (List Char)) : Except Fault Int :=
  groups.foldlM (fun total group => do return 60 * total + (← integerOfDigits false group)) 0

def integer (s : List Char) : Except Fault Int :=
  let (negative, s) := Numeral.takeSign (s.filter (· ≠ '_'))
  let sign (n : Nat) : Int := if negative then -(n : Int) else (n : Int)
  match s with
  | '0' :: 'b' :: rest =>
    if rest = [] then .error .unreadableNumber else .ok (sign (ofBase 2 rest))
  | '0' :: 'x' :: rest =>
    if rest = [] then .error .unreadableNumber else .ok (sign (ofBase 16 rest))
  | '0' :: rest => .ok (sign (ofBase 8 rest))
  | s => (if negative then (- ·) else id) <$> ofGroups (s.splitOn ':')

def decimal (s : List Char) : Binary64 :=
  ((Numeral.ofChars? s).map Numeral.binary).getD .nan

def sumGroups : Nat → List (List Char) → Binary64 → Except Fault Binary64
  | _, [], total => .ok total
  | base, group :: rest, total =>
    let factor := Binary64.ofNat base
    -- A power of sixty beyond the range of the format is a fault.
    if factor.isFinite then
      sumGroups (60 * base) rest (total.add ((decimal group).mul factor))
    else .error .overflow

def number (s : List Char) : Except Fault Binary64 :=
  let (negative, s) := Numeral.takeSign ((s.filter (· ≠ '_')).map Char.toLower)
  let signed (x : Binary64) := if negative then x.negate else x
  if s = ['.', 'i', 'n', 'f'] then .ok (.infinite negative)
  else if s = ['.', 'n', 'a', 'n'] then .ok .nan
  else match s.splitOn ':' with
    | first :: next :: groups =>
      signed <$> sumGroups 1 (first :: next :: groups).reverse (.ofNat 0)
    | _ => .ok (signed (decimal s))

def numbers (s : List Char) : List Nat :=
  let runs := (s.map fun c => if c.isDigit then c else ' ').splitOn ' '
  (runs.filter (· ≠ [])).map (ofBase 10)

def isRealOffset (s : List Char) : Bool :=
  match numbers s with
  | [hours] => hours < 24
  | [hours, minutes] => 60 * hours + minutes < 24 * 60
  | _ => true

def isRealDate (s : List Char) : Bool :=
  match numbers s with
  | year :: month :: day :: time => year != 0 && Calendar.isDay year month day &&
    match time with
    | hour :: minute :: second :: _ =>
      Calendar.isTime hour minute second && isRealOffset ((skipTime s).getD [])
    | _ => true
  | _ => false

def value (s : List Char) : Except Fault Value :=
  match kind s with
  | .null => .ok .null
  | .truth b => .ok (.bool b)
  | .integer => Value.int <$> integer s
  | .number => Value.float <$> number s
  | .merge | .default | .reserved => .error .malformedText
  | .date => if isRealDate s then .ok (.ofChars s) else .error .impossibleDate
  | .text => .ok (.ofChars s)

end Scalar

end Playscript.Yaml
