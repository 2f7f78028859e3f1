import Playscript.Value.Literal
import Playscript.Yaml.Scalar

/-!
# Writing a document

A value is written in block style: one entry or item a line, the items of a list under a key as far
in as the key, empty lists and records in brackets. A text is written plain where that reads back as
the same text, else in single quotes, else in double quotes with escapes. Lines longer than 80
columns are broken at spaces inside texts.
-/
namespace Playscript.Yaml

/-- Where the writing stands: the lines so far in reverse, the column, whether the last character
leaves room for the next, and whether only indentation was written on the line. -/
structure Pen where
  written : List Char
  column : Nat
  spaced : Bool
  indenting : Bool

namespace Pen

def start : Pen := ⟨[], 0, true, true⟩

def put (pen : Pen) (s : List Char) : Pen :=
  { pen with written := s.reverse ++ pen.written, column := pen.column + s.length }

def breakWith (pen : Pen) (c : Char) : Pen :=
  ⟨c :: pen.written, 0, true, true⟩

def indentTo (pen : Pen) (indent : Nat) : Pen :=
  let pen :=
    if !pen.indenting || indent < pen.column || (pen.column == indent && !pen.spaced) then
      pen.breakWith '\n'
    else pen
  if pen.column < indent then
    { pen.put (List.replicate (indent - pen.column) ' ') with spaced := true }
  else pen

def indicator (pen : Pen) (s : List Char) (needsSpace spaced indenting : Bool) : Pen :=
  let pen := pen.put (if pen.spaced || !needsSpace then s else ' ' :: s)
  { pen with spaced := spaced, indenting := pen.indenting && indenting }

def wrapTo (pen : Pen) (indent : Nat) : Pen :=
  { pen.indentTo indent with spaced := false, indenting := false }

end Pen

/-! ## Texts -/

def lineWidth : Nat := 80

def isLineBreak (c : Char) : Bool :=
  c == '\n' || c == '\x85' || c == '\u2028' || c == '\u2029'

def isSeparator (c : Char) : Bool :=
  isLineBreak c || c == '\r' || c == ' ' || c == '\t' || c == '\x00'

def isSpecial (c : Char) : Bool :=
  let n := c.toNat
  !(c == '\n' || (0x20 ≤ n && n ≤ 0x7E) ||
    ((n == 0x85 || (0xA0 ≤ n && n ≤ 0xD7FF) || (0xE000 ≤ n && n ≤ 0xFFFD) ||
      (0x10000 ≤ n && n < 0x10FFFF)) && n != 0xFEFF))

def leadingIndicators : List Char :=
  ['#', ',', '[', ']', '\x7b', '\x7d', '&', '*', '!', '|', '>', '\'', '"', '%', '@', '\x60']

def hasPair (p q : Char → Bool) : List Char → Bool
  | a :: b :: rest => (p a && q b) || hasPair p q (b :: rest)
  | _ => false

def hasIndicator (s : List Char) : Bool :=
  let separated (rest : List Char) := match rest with
    | [] => true
    | c :: _ => isSeparator c
  let leading := match s with
    | [] => false
    | c :: rest =>
      c ∈ leadingIndicators || ((c == '?' || c == ':' || c == '-') && separated rest)
  let inside := match s with
    | [] => false
    | _ :: rest => hasPair (· == ':') isSeparator rest || rest.getLast? == some ':'
  "---".toList.isPrefixOf s || "...".toList.isPrefixOf s || leading || inside ||
    hasPair isSeparator (· == '#') s

def allowsSingle (s : List Char) : Bool :=
  !hasPair isLineBreak (· == ' ') s && !hasPair (· == ' ') isLineBreak s && !s.any isSpecial

def allowsPlain (s : List Char) : Bool :=
  let edge (c : Option Char) := match c with
    | some c => c == ' ' || isLineBreak c
    | none => false
  allowsSingle s && !edge s.head? && !edge s.getLast? && !s.any isLineBreak && !hasIndicator s

inductive Style where
  | plain
  | single
  | double
  deriving DecidableEq, Repr

def styleOf (s : List Char) (isKey : Bool) : Style :=
  let multiline := s.any isLineBreak
  if Scalar.kind s = .text && !(isKey && (s == [] || multiline)) && allowsPlain s then .plain
  else if allowsSingle s && !(isKey && multiline) then .single
  else .double

def runs (s : List Char) : List (List Char) :=
  let sort (c : Char) : Nat := if c == ' ' then 0 else if isLineBreak c then 1 else 2
  s.splitBy fun a b => sort a == sort b

def writeGap (indent : Nat) (mayBreak : Bool) (gap : List Char) (pen : Pen) : Pen :=
  if gap.length = 1 ∧ lineWidth < pen.column ∧ mayBreak then pen.wrapTo indent else pen.put gap

def writeBreaks (indent : Nat) (breaks : List Char) (pen : Pen) : Pen :=
  let pen := if breaks.head? = some '\n' then pen.breakWith '\n' else pen
  (breaks.foldl Pen.breakWith pen).indentTo indent

def writeRuns (indent : Nat) (mayBreak doubleQuotes : Bool) :
    (isFirst : Bool) → List (List Char) → Pen → Pen
  | _, [], pen => pen
  | isFirst, run :: rest, pen =>
    let pen := match run with
      | [] => pen
      | c :: _ =>
        if c = ' ' then writeGap indent (mayBreak && !isFirst && !rest.isEmpty) run pen
        else if isLineBreak c then writeBreaks indent run pen
        else pen.put (if doubleQuotes then
          run.flatMap fun c => if c = '\'' then ['\'', '\''] else [c] else run)
    writeRuns indent mayBreak doubleQuotes false rest pen

def writePlain (indent : Nat) (mayBreak : Bool) (s : List Char) (pen : Pen) : Pen :=
  if s = [] then pen
  else
    let pen := if pen.spaced then pen else pen.put [' ']
    writeRuns indent mayBreak false true (runs s) { pen with spaced := false, indenting := false }

def writeSingle (indent : Nat) (mayBreak : Bool) (s : List Char) (pen : Pen) : Pen :=
  (writeRuns indent mayBreak true true (runs s) (pen.indicator ['\''] true false false)).indicator
    ['\''] false false false

def shortEscape? (c : Char) : Option Char :=
  ([('\x00', '0'), ('\x07', 'a'), ('\x08', 'b'), ('\x09', 't'), ('\x0a', 'n'), ('\x0b', 'v'),
    ('\x0c', 'f'), ('\x0d', 'r'), ('\x1b', 'e'), ('"', '"'), ('\\', '\\'), ('\x85', 'N'),
    ('\xa0', '_'), ('\u2028', 'L'), ('\u2029', 'P')] : List (Char × Char)).lookup c

def hexCapitals (width n : Nat) : List Char :=
  (Text.hex width n).map Char.toUpper

def escape (c : Char) : List Char :=
  match shortEscape? c with
  | some e => ['\\', e]
  | none =>
    if c.toNat ≤ 0xFF then '\\' :: 'x' :: hexCapitals 2 c.toNat
    else if c.toNat ≤ 0xFFFF then '\\' :: 'u' :: hexCapitals 4 c.toNat
    else '\\' :: 'U' :: hexCapitals 8 c.toNat

def standsForItself (c : Char) : Bool :=
  let n := c.toNat
  c != '"' && c != '\\' && n != 0x85 && n != 0x2028 && n != 0x2029 && n != 0xFEFF &&
    ((0x20 ≤ n && n ≤ 0x7E) || (0xA0 ≤ n && n ≤ 0xD7FF) || (0xE000 ≤ n && n ≤ 0xFFFD))

def writeDoubleFrom (indent : Nat) (mayBreak : Bool) (isFirst : Bool) (pending : List Char) :
    List Char → Pen → Pen
  | [], pen => pen.put pending.reverse
  | c :: rest, pen =>
    let plain := standsForItself c
    let pen := if plain then pen else (pen.put pending.reverse).put (escape c)
    let pending := if plain then pending else []
    -- Far to the right the line is broken at a space or an escape or right after an escape.
    let mayWrap := mayBreak && !isFirst && !rest.isEmpty && (c == ' ' || pending.isEmpty)
    let reach := if plain then pen.column + pending.length else pen.column - 1
    if mayWrap && lineWidth < reach then
      let pen := ((pen.put pending.reverse).put ['\\']).wrapTo indent
      let next := if plain then some c else rest.head?
      let pen := if next = some ' ' then pen.put ['\\'] else pen
      writeDoubleFrom indent mayBreak false (if plain then [c] else []) rest pen
    else writeDoubleFrom indent mayBreak false (if plain then c :: pending else []) rest pen

def writeDouble (indent : Nat) (mayBreak : Bool) (s : List Char) (pen : Pen) : Pen :=
  (writeDoubleFrom indent mayBreak true [] s (pen.indicator ['"'] true false false)).indicator
    ['"'] false false false

def writeText (indent : Nat) (isKey : Bool) (s : List Char) (pen : Pen) : Pen :=
  match styleOf s isKey with
  | .plain => writePlain indent (!isKey) s pen
  | .single => writeSingle indent (!isKey) s pen
  | .double => writeDouble indent (!isKey) s pen

/-! ## Values -/

def numberText : Binary64 → List Char
  | .nan => ['.', 'n', 'a', 'n']
  | .infinite negative => (if negative then ['-'] else []) ++ ['.', 'i', 'n', 'f']
  | x =>
    let s := x.text
    if '.' ∈ s then s
    else s.takeWhile (· ≠ 'e') ++ ['.', '0'] ++ s.dropWhile (· ≠ 'e')

def deeper (indent : Option Nat) (atTop : Nat) : Nat :=
  match indent with
  | none => atTop
  | some n => n + 2

def isSimpleKey (s : List Char) : Bool :=
  s.length + 5 < 128 && s != [] && !s.any isLineBreak

mutual

def writeValue (indent : Option Nat) (inEntry : Bool) : Value → Pen → Pen
  | .null, pen => writePlain (deeper indent 2) true ['n', 'u', 'l', 'l'] pen
  | .bool true, pen => writePlain (deeper indent 2) true ['t', 'r', 'u', 'e'] pen
  | .bool false, pen => writePlain (deeper indent 2) true ['f', 'a', 'l', 's', 'e'] pen
  | .int n, pen => writePlain (deeper indent 2) true (Text.decimal n) pen
  | .float x, pen => writePlain (deeper indent 2) true (numberText x) pen
  | .str s, pen => writeText (deeper indent 2) false s.toList pen
  | .list [], pen | .tuple [], pen =>
    (pen.indicator ['['] true true false).indicator [']'] false false false
  | .list items, pen | .tuple items, pen =>
    let inner := if inEntry && !pen.indenting then indent.getD 0 else deeper indent 0
    writeItems inner items pen
  | .dict [], pen =>
    (pen.indicator ['\x7b'] true true false).indicator ['\x7d'] false false false
  | .dict entries, pen => writeEntries (deeper indent 0) entries pen

def writeItems (indent : Nat) : List Value → Pen → Pen
  | [], pen => pen
  | v :: rest, pen =>
    let pen := (pen.indentTo indent).indicator ['-'] true false true
    writeItems indent rest (writeValue (some indent) false v pen)

def writeEntries (indent : Nat) : List (String × Value) → Pen → Pen
  | [], pen => pen
  | (key, v) :: rest, pen =>
    let pen := pen.indentTo indent
    let pen :=
      if isSimpleKey key.toList then
        (writeText (indent + 2) true key.toList pen).indicator [':'] false false false
      else
        let pen := writeText (indent + 2) false key.toList (pen.indicator ['?'] true false true)
        (pen.indentTo indent).indicator [':'] true false true
    writeEntries indent rest (writeValue (some indent) true v pen)

end

def write (entries : Record) : String :=
  let pen := (writeValue none false (.dict entries) .start).indentTo 0
  String.ofList pen.written.reverse

end Playscript.Yaml
