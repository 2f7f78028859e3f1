import Playscript.Text.Blank

/-!
# Blocks

A script is a sequence of blocks separated by blank lines. Carriage returns do not count, and every
line is trimmed. A block has a head, its first line, and a body, the lines after it.
-/
namespace Playscript.Script

abbrev Line := List Char

structure Block where
  head : Line
  body : List Line
  deriving DecidableEq, Repr

namespace Block

def lines (block : Block) : List Line :=
  block.head :: block.body

def ofLines? : List Line → Option Block
  | [] => none
  | head :: body => some ⟨head, body⟩

def runsFrom (pending : List Line) : List Line → List Block
  | [] => (ofLines? pending.reverse).toList
  | line :: rest =>
    if line = [] then (ofLines? pending.reverse).toList ++ runsFrom [] rest
    else runsFrom (line :: pending) rest

def runs (lines : List Line) : List Block :=
  runsFrom [] lines

end Block

def normalize (text : List Char) : List Char :=
  Text.trim (text.filter (· ≠ '\r'))

def blocks (text : List Char) : List Block :=
  Block.runs (((normalize text).splitOn '\n').map Text.trim)

/-! ## Heads -/

def actInner? (head : Line) : Option (List Char) :=
  match Text.dropLineEnd head with
  | '[' :: rest =>
    if rest.getLast? = some ']' ∧ '\n' ∉ rest then some rest.dropLast else none
  | _ => none

def isActHead (head : Line) : Bool :=
  (actInner? head).isSome

def actName (head : Line) (default : String) : String :=
  match Text.trim ((actInner? head).getD []) with
  | [] => default
  | name => String.ofList name

/-- The role that a head names: the head without one colon at its end. -/
def roleName (head : Line) : List Char :=
  let line := Text.trimRight head
  if line.getLast? = some ':' then Text.trim line.dropLast else Text.trim line

end Playscript.Script
