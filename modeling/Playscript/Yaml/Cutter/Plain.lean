import Playscript.Yaml.Cutter.Quoted

/-!
# Plain scalars

A scalar without quotes ends before a colon with a gap after it, before a comment, in brackets at a
bracket or comma, and at a line that is not indented far enough.
-/
namespace Playscript.Yaml.Cutter

def plainLength (inBrackets : Bool) : List Char → Nat
  | [] => 0
  | ch :: rest =>
    let ends := match rest with
      | [] => true
      | next :: _ =>
        isSeparator next || (inBrackets && next ∈ [',', '[', ']', '\x7b', '\x7d'])
    if isSeparator ch || (ch == ':' && ends) ||
        (inBrackets && ch ∈ [',', '?', '[', ']', '\x7b', '\x7d']) then 0
    else plainLength inBrackets rest + 1

def takePlainBreaks : Nat → Cutter → Option (List Char) × Cutter
  | 0, c => (none, c)
  | fuel + 1, c =>
    if c.rest.head? == some ' ' then takePlainBreaks fuel c.forward
    else match c.takeLineEnd with
      | some (ch, c) =>
        if c.atMarker then (none, c)
        else
          let (more, c) := takePlainBreaks fuel c
          (more.map (ch :: ·), c)
      | none => (some [], c)

def takePlainGap (c : Cutter) : List Char × Cutter :=
  let gap := c.rest.takeWhile (· == ' ')
  let c := c.forwardBy gap.length
  match c.takeLineEnd with
  | some (first, c) =>
    let c := { c with mayStartKey := true }
    if c.atMarker then ([], c)
    else match takePlainBreaks (c.rest.length + 1) c with
      | (some breaks, c) => (folded first breaks, c)
      | (none, c) => ([], c)
  | none => (gap, c)

def takePlain (indent : Int) : Nat → List Char → Cutter → List Char × Cutter
  | 0, _, c => ([], c)
  | fuel + 1, gap, c =>
    let length := plainLength (c.depth != 0) c.rest
    if c.rest.head? == some '#' || length == 0 then ([], c)
    else
      let word := c.rest.take length
      let c := { c.forwardBy length with mayStartKey := false }
      let (next, c) := c.takePlainGap
      let outside := c.depth == 0 && (c.column : Int) < indent
      if next.isEmpty || c.rest.head? == some '#' || outside then
        (gap ++ word, c)
      else
        let (more, c) := takePlain indent fuel next c
        (gap ++ word ++ more, c)

end Playscript.Yaml.Cutter
