import Playscript.Yaml.Cutter

/-!
# Quoted scalars

In single quotes a quote is written twice; in double quotes there are escapes. A line end inside the
quotes reads as a space, and each further one as itself.
-/
namespace Playscript.Yaml.Cutter

def escapes : List (Char × Char) := [
  ('0', '\x00'), ('a', '\x07'), ('b', '\x08'), ('t', '\x09'), ('\t', '\x09'), ('n', '\x0a'),
  ('v', '\x0b'), ('f', '\x0c'), ('r', '\x0d'), ('e', '\x1b'), (' ', ' '), ('"', '"'),
  ('\\', '\\'), ('/', '/'), ('N', '\x85'), ('_', '\xa0'), ('L', '\u2028'), ('P', '\u2029')]

def escapeWidths : List (Char × Nat) := [('x', 2), ('u', 4), ('U', 8)]

def charOf (code : Nat) : Except Fault Char :=
  if code.isValidChar then .ok (.ofNat code)
  else if 0x80000000 ≤ code then .error .overflow
  else if 0x10FFFF < code then .error .unknownCharacter
  else .error .malformedText

def takeBreaks : Nat → Cutter → Except Fault (List Char × Cutter)
  | 0, _ => .error .malformedText
  | fuel + 1, c =>
    if c.atMarker then .error .malformedText
    else
      let c := c.skip Scalar.isGap
      match c.takeLineEnd with
      | some (ch, c) => do
        let (more, c) ← takeBreaks fuel c
        return (ch :: more, c)
      | none => .ok ([], c)

def folded (first : Char) (breaks : List Char) : List Char :=
  if first != '\n' then first :: breaks
  else if breaks.isEmpty then [' ']
  else breaks

def takeQuoted (double : Bool) : Nat → Cutter → Except Fault (List Char × Cutter)
  | 0, _ => .error .malformedText
  | fuel + 1, c =>
    let andThen (s : List Char) (c : Cutter) : Except Fault (List Char × Cutter) := do
      let (more, c) ← takeQuoted double fuel c
      return (s ++ more, c)
    match c.rest with
    | [] => .error .malformedText
    | ch :: rest =>
      if ch == ' ' || ch == '\t' || endsLine ch then
        let gap := c.rest.takeWhile Scalar.isGap
        let after := c.forwardBy gap.length
        match after.takeLineEnd with
        | some (first, after) => do
          let (breaks, after) ← takeBreaks fuel after
          andThen (folded first breaks) after
        | none => andThen gap after
      else if !double && ch == '\'' then
        if rest.head? == some '\'' then andThen ['\''] (c.forwardBy 2) else .ok ([], c.forward)
      else if double && ch == '"' then .ok ([], c.forward)
      else if double && ch == '\\' then
        match rest with
        | [] => .error .malformedText
        | e :: digits =>
          match escapes.lookup e, escapeWidths.lookup e with
          | some ch, _ => andThen [ch] (c.forwardBy 2)
          | none, some width =>
            let digits := digits.take width
            if digits.length = width ∧ digits.all Scalar.isHexDigit then do
              let ch ← charOf (Scalar.ofBase 16 digits)
              andThen [ch] (c.forwardBy (2 + width))
            else .error .malformedText
          | none, none =>
            match c.forward.takeLineEnd with
            | some (_, after) => do
              let (breaks, after) ← takeBreaks fuel after
              andThen breaks after
            | none => .error .malformedText
      else andThen [ch] c.forward

end Playscript.Yaml.Cutter
