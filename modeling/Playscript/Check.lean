import Playscript.Fault
import Playscript.Text.Blank
import Playscript.Text.Digit
import Playscript.Value

/-!
# Checking the shape of data

Data from outside is checked part by part. The issues of all parts are collected in order; any
other fault ends the check. Some leniency is part of the rules: truth values and integers may be
given in other forms.
-/
namespace Playscript

def Check (α : Type) := Except Fault α

namespace Check

variable {α β : Type}

def outcome (check : Check α) : Except Fault α := check

def apply (f : Check (α → β)) (x : Unit → Check α) : Check β :=
  match f with
  | .ok f =>
    match x () with
    | .ok a => .ok (f a)
    | .error fault => .error fault
  | .error (.invalid issues) =>
    match x () with
    | .error (.invalid more) => .error (.invalid (issues ++ more))
    | .error fault => .error fault
    | .ok _ => .error (.invalid issues)
  | .error fault => .error fault

instance : Applicative Check where
  pure a := .ok a
  seq f x := apply f x

def defect (d : Defect) : Check α :=
  .error (.invalid [⟨d, []⟩])

def within (place : Place) (check : Check α) : Check α :=
  match check with
  | .error (.invalid issues) => .error (.invalid (issues.map (Issue.within place)))
  | result => result

def andThen (check : Check α) (next : α → Except Fault β) : Check β :=
  match check with
  | .ok a => next a
  | .error fault => .error fault

/-! ## Kinds -/

def record : Value → Check Record
  | .dict entries => .ok entries
  | _ => defect .notRecord

def fields : Value → Check Record
  | .dict entries => .ok entries
  | _ => defect .notModel

def text : Value → Check String
  | .str s => .ok s
  | _ => defect .notText

def any : Value → Check Value := .ok

def itemsFrom (item : Value → Check α) : Nat → List Value → Check (List α)
  | _, [] => pure []
  | position, v :: rest =>
    List.cons <$> within (.index position) (item v) <*> itemsFrom item (position + 1) rest

def list (item : Value → Check α) : Value → Check (List α)
  | .list items | .tuple items => itemsFrom item 0 items
  | _ => defect .notList

def entries (entry : Value → Check α) : List (String × Value) → Check (Table α)
  | [] => pure []
  | (key, v) :: rest =>
    (fun a more => (key, a) :: more) <$> within (.key key) (entry v) <*> entries entry rest

def table (entry : Value → Check α) : Value → Check (Table α)
  | .dict es => entries entry es
  | _ => defect .notRecord

def optional (check : Value → Check α) : Value → Check (Option α)
  | .null => .ok none
  | v => (some <$> check v : Check (Option α))

def field (name : String) (default : α) (check : Value → Check α) (r : Record) : Check α :=
  match Table.get? r name with
  | some v => within (.key name) (check v)
  | none => .ok default

def required (name : String) (check : Value → Check α) (r : Record) : Check α :=
  match Table.get? r name with
  | some v => within (.key name) (check v)
  | none => within (.key name) (defect .missing)

/-! ## Truth values -/

def trueWords : List String := ["1", "on", "t", "true", "y", "yes"]

def falseWords : List String := ["0", "off", "f", "false", "n", "no"]

def wordOf? (x : Binary64) : Option Int :=
  x.toInt?.filter fun n => n.natAbs < twoTo 63

def isWord (n : Int) : Bool :=
  -(twoTo 63 : Int) ≤ n && n < (twoTo 63 : Int)

def truthOfInt (n : Int) : Check Bool :=
  if n = 0 then .ok false else if n = 1 then .ok true else defect .unreadableTruth

/-- A truth value, also as the number one or zero or as a word of any case. A number that is no
integer of a word is none. -/
def truth : Value → Check Bool
  | .bool b => .ok b
  | .int n => if isWord n then truthOfInt n else defect .notTruth
  | .float x => match wordOf? x with
    | some n => truthOfInt n
    | none => defect .notTruth
  | .str s =>
    let word := String.ofList (s.toList.map Char.toLower)
    if word ∈ trueWords then .ok true
    else if word ∈ falseWords then .ok false
    else defect .unreadableTruth
  | _ => defect .notTruth

/-! ## Integers -/

def integerTextLimit : Nat := 4300

def splitMinus : List Char → Bool × List Char
  | '-' :: rest => (true, rest)
  | s => (false, s)

def isOversized (s : List Char) : Bool :=
  let run := (splitMinus s).2.takeWhile Char.isDigit
  run.head? != some '0' && integerTextLimit < run.length

def plainInteger? (s : List Char) : Option Int :=
  let (negative, digits) := splitMinus s
  if digits = [] ∨ !digits.all Char.isDigit ∨ (digits.head? = some '0' ∧ digits ≠ ['0']) ∨
      integerTextLimit < digits.length then none
  else
    let magnitude := (Text.digitsValue? digits).getD 0
    some (if negative then -(magnitude : Int) else (magnitude : Int))

def endsZeros (c : Char) : Bool :=
  c.isDigit || c == '-'

def dropZerosAfter (last : Char) : List Char → Option (List Char)
  | [] => some [last]
  | c :: rest =>
    if c = '0' ∨ c = '_' then dropZerosAfter c rest
    else if endsZeros c then some (c :: rest)
    else if c = '.' then some (last :: c :: rest)
    else none

def dropZeros : List Char → Option (List Char)
  | [] => none
  | c :: rest =>
    if c = '0' then dropZerosAfter c rest else if endsZeros c then some (c :: rest) else none

def dropLeadingZeros (s : List Char) : Option (List Char) :=
  match splitMinus s with
  | (true, digits) => (dropZeros digits).map ('-' :: ·)
  | (false, s) => dropZeros s

def dropFraction (s : List Char) : List Char :=
  match s.dropWhile (· ≠ '.') with
  | '.' :: zeros => if zeros ≠ [] ∧ zeros.all (· == '0') then s.takeWhile (· ≠ '.') else s
  | _ => s

def dropUnderscores (s : List Char) : List Char :=
  let groups := s.splitOn '_'
  if groups.all (· ≠ []) then groups.flatten else s

def isSpace (c : Char) : Bool :=
  Text.isBlank c && !(0x1C ≤ c.toNat && c.toNat ≤ 0x1F)

/-- The text without what an integer may have besides its plain form: white space around it, a plus
sign, zeros in front, a fraction of zeros, and underscores. -/
def tidied? (s : List Char) : Option (List Char) := do
  let s := ((s.dropWhile isSpace).reverse.dropWhile isSpace).reverse
  let s ← match s with
    | '+' :: '-' :: _ => none
    | '+' :: rest => some rest
    | s => some s
  return dropUnderscores (dropFraction (← dropLeadingZeros s))

def integerOfText (s : List Char) : Check Int :=
  if isOversized s then defect .oversizedInteger
  else match (plainInteger? s).or ((tidied? s).bind plainInteger?) with
    | some n => .ok n
    | none => defect .unreadableInteger

/-- An integer, also as a truth value, a number without fraction, or a text of digits. -/
def integer : Value → Check Int
  | .bool b => .ok (if b then 1 else 0)
  | .int n => .ok n
  | .float x => match x.toInt? with
    | some n => if n.natAbs < twoTo 63 then .ok n else defect .oversizedInteger
    | none => if x.isFinite then defect .fractionalInteger else defect .notFinite
  | .str s => integerOfText s.toList
  | _ => defect .notInteger

end Check

end Playscript
