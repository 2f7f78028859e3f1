import Playscript.Calendar
import Playscript.Check
import Playscript.Number.Arithmetic
import Playscript.Number.Numeral
import Playscript.Value.Literal

/-!
# Timestamps

A timestamp is a date and a time of day with microseconds, with or without an offset from UTC. It is
written in ISO 8601 and may be given in that form, as a date alone, or as a number of seconds since
1970 in UTC. A number beyond the year 2603 counts milliseconds instead. The years 1 to 9999 can be
written; the year 0 can be read, but not kept.
-/
namespace Playscript

structure Timestamp where
  year : Nat
  month : Nat
  day : Nat
  hour : Nat
  minute : Nat
  second : Nat
  micro : Nat
  offset : Option Int
  deriving DecidableEq, Repr, Inhabited

namespace Timestamp

/-! ## Writing -/

def padded (width n : Nat) : List Char :=
  let digits := Nat.toDigits 10 n
  List.replicate (width - digits.length) '0' ++ digits

def offsetText : Option Int → List Char
  | none => []
  | some minutes =>
    (if minutes < 0 then '-' else '+') ::
      (padded 2 (minutes.natAbs / 60) ++ ':' :: padded 2 (minutes.natAbs % 60))

def text (t : Timestamp) : List Char :=
  padded 4 t.year ++ '-' :: padded 2 t.month ++ '-' :: padded 2 t.day ++
    'T' :: padded 2 t.hour ++ ':' :: padded 2 t.minute ++ ':' :: padded 2 t.second ++
    (if t.micro = 0 then [] else '.' :: padded 6 t.micro) ++ offsetText t.offset

/-! ## Reading texts -/

def takeDigits (count : Nat) (s : List Char) : Option (Nat × List Char) :=
  let digits := s.take count
  if digits.length = count ∧ digits.all Char.isDigit then
    some ((Text.digitsValue? digits).getD 0, s.drop count)
  else none

def takeChar (c : Char) : List Char → Option (List Char)
  | [] => none
  | first :: rest => if first = c then some rest else none

def takeDate (s : List Char) : Option ((Nat × Nat × Nat) × List Char) := do
  let (year, s) ← takeDigits 4 s
  let (month, s) ← takeDigits 2 (← takeChar '-' s)
  let (day, s) ← takeDigits 2 (← takeChar '-' s)
  if !Calendar.isDay year month day then none
  return ((year, month, day), s)

def takeSeconds : List Char → Option ((Nat × Nat) × List Char)
  | ':' :: s => do
    let (second, s) ← takeDigits 2 s
    if 59 < second then none
    match s with
    | c :: rest =>
      if c = '.' ∨ c = ',' then
        let digits := rest.takeWhile Char.isDigit
        if digits = [] then none
        let kept := digits.take 6
        let micro := (Text.digitsValue? kept).getD 0 * tenTo (6 - kept.length)
        return ((second, micro), rest.dropWhile Char.isDigit)
      else return ((second, 0), s)
    | [] => return ((second, 0), [])
  | s => some ((0, 0), s)

def takeOffset : List Char → Option (Option Int)
  | [] => some none
  | ['Z'] | ['z'] => some (some 0)
  | sign :: s => do
    let negative := sign = '-' ∨ sign = '−'
    if !negative ∧ sign ≠ '+' then none
    let (hours, s) ← takeDigits 2 s
    let (minutes, s) ← takeDigits 2 ((takeChar ':' s).getD s)
    if s ≠ [] ∨ 59 < minutes ∨ 23 < hours then none
    let total : Int := hours * 60 + minutes
    return some (if negative then -total else total)

def ofIso? (s : List Char) : Option Timestamp := do
  let ((year, month, day), s) ← takeDate s
  match s with
  | [] => none
  | separator :: s =>
    if separator ∉ ['T', 't', ' ', '_'] then none
    let (hour, s) ← takeDigits 2 s
    let (minute, s) ← takeDigits 2 (← takeChar ':' s)
    let ((second, micro), s) ← takeSeconds s
    if 23 < hour ∨ 59 < minute then none
    return ⟨year, month, day, hour, minute, second, micro, ← takeOffset s⟩

def ofDate? (s : List Char) : Option Timestamp := do
  let ((year, month, day), rest) ← takeDate s
  if rest ≠ [] then none
  return ⟨year, month, day, 0, 0, 0, 0, none⟩

/-! ## Reading seconds -/

def dateOfDays (days : Int) : Nat × Nat × Nat :=
  -- Days are counted from the first of March of the year 0, so that the leap day ends a year.
  let n := (days + 719468).toNat
  let era := n / 146097
  let inEra := n % 146097
  let yearOfEra := (inEra - inEra / 1460 + inEra / 36524 - inEra / 146096) / 365
  let inYear := inEra - (365 * yearOfEra + yearOfEra / 4 - yearOfEra / 100)
  let shifted := (5 * inYear + 2) / 153
  let day := inYear - (153 * shifted + 2) / 5 + 1
  let month := if shifted < 10 then shifted + 3 else shifted - 9
  (yearOfEra + 400 * era + (if month ≤ 2 then 1 else 0), month, day)

def ofSeconds? (second : Int) (micro : Nat) : Option Timestamp :=
  let second := second + (micro / 1000000 : Nat)
  if second < -62167219200 ∨ 253402300799 < second then none
  else
    let (year, month, day) := dateOfDays (second.fdiv 86400)
    let inDay := (second.fmod 86400).toNat
    some ⟨year, month, day, inDay / 3600, inDay / 60 % 60, inDay % 60, micro % 1000000, some 0⟩

def secondsLimit : Nat := 20000000000

def ofInt? (n : Int) : Option Timestamp :=
  if n.natAbs ≤ secondsLimit then ofSeconds? n 0
  else ofSeconds? (n.fdiv 1000) ((n.fmod 1000).toNat * 1000)

def roundHalfUp (num den : Nat) : Nat :=
  (2 * num + den) / (2 * den)

/-- The timestamp of a number of seconds. What is above the second below it is counted in
microseconds, in the arithmetic of the format. -/
def ofSecondsWithFraction? : Binary64 → Option Timestamp
  | .finite negative mantissa exponent =>
    let (num, den) := Binary64.signedQuotient negative mantissa exponent
    let above := Binary64.ofQuotient false (num.fmod den).toNat den
    match above.mul (.ofNat 1000000) with
    | .finite _ m e =>
      let (micros, unit) := Binary64.quotient m e
      ofSeconds? (num.fdiv den) (roundHalfUp micros unit)
    | _ => none
  | _ => none

def countsMilliseconds : Binary64 → Bool
  | .finite _ mantissa exponent =>
    let (num, den) := Binary64.quotient mantissa exponent
    secondsLimit * den < num
  | .infinite _ => true
  | .nan => false

def ofMilliseconds? : Binary64 → Option Timestamp
  | .finite negative mantissa exponent =>
    let (num, den) := Binary64.signedQuotient negative mantissa exponent
    let second := num.fdiv (den * 1000)
    let above := (num.fmod (den * 1000)).toNat
    ofSeconds? second (roundHalfUp (above * 1000) den)
  | _ => none

def ofNumber? (x : Binary64) : Option Timestamp :=
  if countsMilliseconds x then ofMilliseconds? x else ofSecondsWithFraction? x

/-! ## Reading numbers in texts -/

def wordOfText? (s : List Char) : Option Int :=
  let (negative, digits) := Numeral.takeSign s
  if digits = [] ∨ !digits.all Char.isDigit then none
  else
    let magnitude := (Text.digitsValue? digits).getD 0
    let n : Int := if negative then -(magnitude : Int) else (magnitude : Int)
    if Check.isWord n then some n else none

def numberOfText? (s : List Char) : Option Binary64 := do
  if '\n' ∈ s then none
  let n ← Numeral.ofChars? s
  let digits := n.whole ++ (← n.fraction)
  if !(digits ++ (n.exponent.map Prod.snd).getD []).all Char.isDigit then none
  return .ofDecimal n.negative ((Text.digitsValue? digits).getD 0) n.scale

def ofNumberText? (s : List Char) : Option Timestamp :=
  match wordOfText? s with
  | some n => ofInt? n
  | none => (numberOfText? s).bind ofNumber?

/-! ## Timestamps as they may be given -/

def keep (t : Timestamp) : Check Timestamp :=
  if t.year = 0 then Check.defect .outOfRangeTime else .ok t

def keep? : Option Timestamp → Check Timestamp
  | some t => keep t
  | none => Check.defect .outOfRangeTime

/-- A timestamp as it may be given. An integer beyond a word counts as the number nearest to it. -/
def check : Value → Check Timestamp
  | .str s =>
    match ((ofIso? s.toList).or (ofNumberText? s.toList)).or (ofDate? s.toList) with
    | some t => keep t
    | none => Check.defect .unreadableTime
  | .int n =>
    if Check.isWord n then keep? (ofInt? n)
    else match Binary64.ofQuotient (decide (n < 0)) n.natAbs 1 with
      | .finite negative mantissa exponent => keep? (ofNumber? (.finite negative mantissa exponent))
      | _ => Check.defect .notTime
  | .float x => keep? (ofNumber? x)
  | _ => Check.defect .notTime

end Timestamp

end Playscript
