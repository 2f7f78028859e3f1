import Playscript.Yaml.Cutter.Plain

/-!
# The tokens of a text

At every place the next character says what token is cut. A text that holds a character no document
may contain is refused at once.
-/
namespace Playscript.Yaml

namespace Cutter

def startsPlain (c : Cutter) : Bool :=
  match c.rest with
  | [] => false
  | ch :: _ =>
    !(isSeparator ch || ch ∈ leadingIndicators || ch ∈ ['-', '?', ':']) ||
      (!c.separatedAt 1 && (ch == '-' || (c.depth == 0 && (ch == '?' || ch == ':'))))

def cutMarker (c : Cutter) (token : Token) : Cut := do
  let c ← (unwind (-1) (c.indents.length + 1) c).dropKeyStart
  return ({ c with mayStartKey := false }.forwardBy 3).push token

def cutOpen (c : Cutter) (token : Token) : Cut := do
  let c ← c.noteKeyStart
  return ({ c with depth := c.depth + 1, mayStartKey := true }.push token).forward

def cutClose (c : Cutter) (token : Token) : Cut := do
  if c.depth = 0 then throw .malformedText
  let c ← c.dropKeyStart
  return ({ c with depth := c.depth - 1, mayStartKey := false }.push token).forward

def cutComma (c : Cutter) : Cut := do
  let c ← { c with mayStartKey := true }.dropKeyStart
  return (c.push .comma).forward

def cutItem (c : Cutter) : Cut := do
  if c.depth = 0 ∧ !c.mayStartKey then throw .malformedText
  let c := if c.depth = 0 then c.openBlock .listStart else c
  let c ← { c with mayStartKey := true }.dropKeyStart
  return (c.push .item).forward

def cutKey (c : Cutter) : Cut := do
  if c.depth = 0 ∧ !c.mayStartKey then throw .malformedText
  let c := if c.depth = 0 then c.openBlock .recordStart else c
  let c ← { c with mayStartKey := c.depth == 0 }.dropKeyStart
  return (c.push .key).forward

def cutValue (c : Cutter) : Cut := do
  match c.keyStarts.find? (·.depth == c.depth) with
  | some k =>
    let before := c.tokens.take k.token
    let after := Token.key :: c.tokens.drop k.token
    let c := { c with keyStarts := c.keyStarts.filter (·.depth != c.depth), mayStartKey := false }
    let c := match (if c.depth = 0 then c.indentAt k.column else none) with
      | some c => { c with tokens := before ++ Token.recordStart :: after }
      | none => { c with tokens := before ++ after }
    return (c.push .value).forward
  | none =>
    if c.depth = 0 ∧ !c.mayStartKey then throw .malformedText
    let c := if c.depth = 0 then c.openBlock .recordStart else c
    let c ← { c with mayStartKey := c.depth == 0 }.dropKeyStart
    return (c.push .value).forward

def cutQuoted (c : Cutter) (double : Bool) : Cut := do
  let c ← c.noteKeyStart
  let c := { c with mayStartKey := false }
  match takeQuoted double (c.rest.length + 1) c.forward with
  | .ok (s, c) => return c.push (.scalar s false)
  | .error fault => return c.stop fault

def cutPlain (c : Cutter) : Cut := do
  let c ← c.noteKeyStart
  let c := { c with mayStartKey := false }
  let (s, c) := takePlain (c.indent + 1) (c.rest.length + 1) [] c
  return c.push (.scalar s true)

def cutNext (c : Cutter) (ch : Char) : Cut :=
  if c.column == 0 && c.atMarker then
    c.cutMarker (if ch == '-' then .documentStart else .documentEnd)
  else match ch with
    | '[' => c.cutOpen .openList
    | '\x7b' => c.cutOpen .openRecord
    | ']' => c.cutClose .closeList
    | '\x7d' => c.cutClose .closeRecord
    | ',' => c.cutComma
    | '\'' => c.cutQuoted false
    | '"' => c.cutQuoted true
    | _ =>
      if ch == '-' && c.separatedAt 1 then c.cutItem
      else if ch == '?' && (c.depth != 0 || c.separatedAt 1) then c.cutKey
      else if ch == ':' && (c.depth != 0 || c.separatedAt 1) then c.cutValue
      else if c.startsPlain then c.cutPlain
      else .error .malformedText

def cutAll : Nat → Cutter → Cut
  | 0, _ => .error .malformedText
  | fuel + 1, c => do
    let c ← (skipBlank (c.rest.length + 1) c).dropStale
    let c := unwind c.column (c.indents.length + 1) c
    match c.rest with
    | [] => (unwind (-1) (c.indents.length + 1) c).dropKeyStart
    | ch :: _ => cutAll fuel (← c.cutNext ch)

end Cutter

def isReadable (c : Char) : Bool :=
  let n := c.toNat
  n == 0x09 || n == 0x0A || n == 0x0D || (0x20 ≤ n && n ≤ 0x7E) || n == 0x85 ||
    (0xA0 ≤ n && n ≤ 0xFFFD) || 0x10000 ≤ n

def Token.ofChars (s : List Char) : Except Fault (List Token) := do
  if !s.all isReadable then throw .malformedText
  let start := Cutter.start s
  let start := if s.head? == some '\uFEFF' then start.forward else start
  return (← Cutter.cutAll (s.length + 1) start).tokens

end Playscript.Yaml
