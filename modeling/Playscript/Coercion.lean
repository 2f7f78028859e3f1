import Playscript.Number.Numeral
import Playscript.Value

/-!
# Coercion

A directive writes its value as text. Coercion reads the text as a list, a quoted text, an escape,
a truth value or a number, in this order, and keeps it as a text if it is none of them.
-/
namespace Playscript.Coercion

def unquote? (s : List Char) : Option (List Char) :=
  match s with
  | '"' :: rest => if rest.getLast? = some '"' then some rest.dropLast else none
  | '\'' :: rest => if rest.getLast? = some '\'' then some rest.dropLast else none
  | _ => none

def special? : List Char → Option Char
  | ['\\', 'n'] => some '\n'
  | ['\\', 't'] => some '\t'
  | ['\\', 's'] => some ' '
  | _ => none

def truth? : List Char → Option Bool
  | ['t', 'r', 'u', 'e'] => some true
  | ['f', 'a', 'l', 's', 'e'] => some false
  | _ => none

def number? (s : List Char) : Except Fault (Option Value) :=
  match Numeral.ofChars? s with
  | none => .ok none
  | some numeral =>
    match numeral.value with
    | .error fault => .error fault
    | .ok (.inl n) => .ok (some (.int n))
    | .ok (.inr x) => .ok (some (.float x))

def scalar (s : List Char) : Except Fault Value :=
  match unquote? s with
  | some inner => .ok (.ofChars inner)
  | none =>
    match special? s with
    | some c => .ok (.ofChars [c])
    | none =>
      match truth? s with
      | some b => .ok (.bool b)
      | none =>
        match number? s with
        | .error fault => .error fault
        | .ok (some v) => .ok v
        | .ok none => .ok (.ofChars s)

def balanced : List Char → Bool
  | [] => true
  | c :: rest => if c = '"' then !balanced rest else balanced rest

def pieces : List Char → List (List Char)
  | [] => [[]]
  | c :: rest =>
    if c = ',' ∧ balanced rest then [] :: pieces rest
    else match pieces rest with
      | [] => [[c]]
      | piece :: more => (c :: piece) :: more

def isItem : Value → Bool
  | .str s => s != ""
  | _ => true

/-- Reads a text with separating commas as a list of scalars. Empty items are left out. -/
def array? (s : List Char) : Except Fault (Option Value) :=
  match pieces s with
  | [] | [_] => .ok none
  | items =>
    match items.mapM fun item => scalar (Text.trim item) with
    | .error fault => .error fault
    | .ok values => .ok (some (.list (values.filter isItem)))

def restore (s : List Char) : Except Fault Value :=
  match array? s with
  | .error fault => .error fault
  | .ok (some v) => .ok v
  | .ok none => scalar s

end Playscript.Coercion
