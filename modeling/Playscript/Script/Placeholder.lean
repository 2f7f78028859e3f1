import Playscript.Text.Blank
import Playscript.Text.Word

/-!
# Placeholders

A placeholder is a name in braces, with an optional default after a bar. Only innermost braces with
something between them count, and only if what they hold starts with a name.
-/
namespace Playscript.Script

inductive Piece where
  | char (c : Char)
  | token (inside : List Char)
  deriving DecidableEq, Repr

namespace Piece

def source : Piece → List Char
  | .char c => [c]
  | .token inside => '\x7b' :: (inside ++ ['\x7d'])

def scanFrom : Option (List Char) → List Char → List Piece
  | none, [] => []
  -- The pending characters follow an open brace, in reverse.
  | some pending, [] => .char '\x7b' :: pending.reverse.map .char
  | none, c :: rest =>
    if c = '\x7b' then scanFrom (some []) rest else .char c :: scanFrom none rest
  | some pending, c :: rest =>
    if c = '\x7b' then
      .char '\x7b' :: (pending.reverse.map .char ++ scanFrom (some []) rest)
    else if c = '\x7d' then
      if pending = [] then .char '\x7b' :: .char '\x7d' :: scanFrom none rest
      else .token pending.reverse :: scanFrom none rest
    else scanFrom (some (c :: pending)) rest

def scan (text : List Char) : List Piece :=
  scanFrom none text

end Piece

def isNameChar (c : Char) : Bool :=
  Text.isWord c || c == '.' || c == ':' || c == '-'

structure Placeholder where
  name : String
  default : Option String
  deriving DecidableEq, Repr

namespace Placeholder

/-- Reads the inside of braces. Further bars in the default count as spaces. -/
def ofInside? (inside : List Char) : Option Placeholder :=
  match (inside.splitOn '|').map Text.trim with
  | [] => none
  | name :: defaults =>
    if name ≠ [] ∧ name.all isNameChar then
      some {
        name := String.ofList name
        default := if defaults = [] then none
          else some (String.ofList (Text.trim ([' '].intercalate defaults))) }
    else none

def default? (p : Placeholder) : Option String :=
  p.default.filter (· ≠ "")

end Placeholder

end Playscript.Script
