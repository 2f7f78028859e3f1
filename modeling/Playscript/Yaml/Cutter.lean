import Playscript.Yaml.Token
import Playscript.Yaml.Writer

/-!
# Cutting a document

A cutter goes through a document and cuts tokens off. It knows the blocks that indentation has
opened. A key is known as one only at the colon after it, so the cutter notes where one may have
begun; its mark is put in front of tokens that are already cut.
-/
namespace Playscript.Yaml

structure KeyStart where
  depth : Nat
  token : Nat
  required : Bool
  index : Nat
  line : Nat
  column : Nat

structure Cutter where
  rest : List Char
  index : Nat
  line : Nat
  column : Nat
  tokens : List Token
  depth : Nat
  indent : Int
  indents : List Int
  mayStartKey : Bool
  keyStarts : List KeyStart

namespace Cutter

def start (s : List Char) : Cutter := ⟨s, 0, 0, 0, [], 0, -1, [], true, []⟩

abbrev Cut := Except Fault Cutter

/-! ## Moving on -/

def forward (c : Cutter) : Cutter :=
  match c.rest with
  | [] => c
  | ch :: rest =>
    let moved := { c with rest := rest, index := c.index + 1 }
    if isLineBreak ch || (ch == '\r' && rest.head? != some '\n') then
      { moved with line := c.line + 1, column := 0 }
    else if ch == '\uFEFF' then moved
    else { moved with column := c.column + 1 }

def forwardBy (c : Cutter) : Nat → Cutter
  | 0 => c
  | n + 1 => forwardBy c.forward n

def skip (c : Cutter) (p : Char → Bool) : Cutter :=
  c.forwardBy (c.rest.takeWhile p).length

def endsLine (ch : Char) : Bool :=
  isLineBreak ch || ch == '\r'

def takeLineEnd (c : Cutter) : Option (Char × Cutter) :=
  match c.rest with
  | '\r' :: '\n' :: _ => some ('\n', c.forwardBy 2)
  | ch :: _ =>
    if ch == '\r' || ch == '\n' || ch == '\x85' then some ('\n', c.forward)
    else if isLineBreak ch then some (ch, c.forward)
    else none
  | [] => none

def separatedAt (c : Cutter) (n : Nat) : Bool :=
  match c.rest[n]? with
  | none => true
  | some ch => isSeparator ch

def atMarker (c : Cutter) : Bool :=
  let mark := c.rest.take 3
  (mark == ['-', '-', '-'] || mark == ['.', '.', '.']) && c.separatedAt 3

def skipBlank : Nat → Cutter → Cutter
  | 0, c => c
  | fuel + 1, c =>
    let c := c.skip (· == ' ')
    let c := if c.rest.head? == some '#' then c.skip fun ch => !endsLine ch else c
    match c.takeLineEnd with
    -- Outside brackets a new line may start with a key.
    | some (_, c) => skipBlank fuel { c with mayStartKey := c.mayStartKey || c.depth == 0 }
    | none => c

/-! ## Keys and indentation -/

def push (c : Cutter) (token : Token) : Cutter :=
  { c with tokens := c.tokens ++ [token] }

def dropStale (c : Cutter) : Cut :=
  let isStale (k : KeyStart) := k.line != c.line || k.index + 1024 < c.index
  if c.keyStarts.any fun k => isStale k && k.required then .error .malformedText
  else .ok { c with keyStarts := c.keyStarts.filter fun k => !isStale k }

def dropKeyStart (c : Cutter) : Cut :=
  if c.keyStarts.any fun k => k.depth == c.depth && k.required then .error .malformedText
  else .ok { c with keyStarts := c.keyStarts.filter (·.depth != c.depth) }

def stop (c : Cutter) (fault : Fault) : Cutter :=
  -- It counts at the first token that could still be a key: none is read before what follows it.
  let count := c.keyStarts.foldl (fun count k => min count k.token) c.tokens.length
  { start [] with tokens := c.tokens.take count ++ [.broken fault] }

def noteKeyStart (c : Cutter) : Cut :=
  if c.mayStartKey then do
    let required := c.depth == 0 && c.indent == c.column
    let k : KeyStart := ⟨c.depth, c.tokens.length, required, c.index, c.line, c.column⟩
    let c ← c.dropKeyStart
    return { c with keyStarts := k :: c.keyStarts }
  else .ok c

def unwind (column : Int) : Nat → Cutter → Cutter
  | 0, c => c
  | fuel + 1, c =>
    if c.depth == 0 && column < c.indent then
      unwind column fuel
        { c.push .blockEnd with indent := c.indents.headD (-1), indents := c.indents.tail }
    else c

def indentAt (c : Cutter) (column : Nat) : Option Cutter :=
  if c.indent < column then
    some { c with indent := column, indents := c.indent :: c.indents }
  else none

def openBlock (c : Cutter) (token : Token) : Cutter :=
  match c.indentAt c.column with
  | some c => c.push token
  | none => c

end Cutter

end Playscript.Yaml
