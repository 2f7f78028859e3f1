import Playscript.Text.Blank

/-!
# Variables listed in a file

A file may list variables, one a line: a name, and a value after an equals sign. A value may stand
in quotes, also over several lines, and a comment may follow. A line of another form is passed over.
A value may show the value of a variable, named in braces after a dollar sign.
-/
namespace Playscript.Listing

def isGap (c : Char) : Bool :=
  Text.isBlank c && c != '\n'

def thisLine (s : List Char) : List Char :=
  s.takeWhile (· ≠ '\n')

abbrev Reading (α : Type) := Except (List Char) (α × List Char)

def Reading.andThen {α β : Type} (first : Reading α) (next : α → List Char → Reading β) :
    Reading β :=
  match first with
  | .ok (a, rest) => next a rest
  | .error stopped => .error stopped

/-! ## Quotes -/

/-- The text up to the first quote that no backslash takes along, and what follows that quote. A
backslash takes the character after it along. -/
def untilQuote? (quote : Char) : List Char → Option (List Char × List Char)
  | [] => none
  | '\\' :: c :: rest =>
    (untilQuote? quote rest).map fun (inside, after) => ('\\' :: c :: inside, after)
  | c :: rest =>
    if c = quote then some ([], rest)
    else (untilQuote? quote rest).map fun (inside, after) => (c :: inside, after)

def singleEscapes : List (Char × Char) := [('\\', '\\'), ('\'', '\'')]

def doubleEscapes : List (Char × Char) := [
  ('\\', '\\'), ('\'', '\''), ('"', '"'), ('a', '\x07'), ('b', '\x08'), ('f', '\x0c'),
  ('n', '\n'), ('r', '\r'), ('t', '\t'), ('v', '\x0b')]

def unescape (escapes : List (Char × Char)) : List Char → List Char
  | [] => []
  | '\\' :: c :: rest =>
    match escapes.lookup c with
    | some meant => meant :: unescape escapes rest
    | none => '\\' :: unescape escapes (c :: rest)
  | c :: rest => c :: unescape escapes rest

def takeQuoted (quote : Char) (escapes : List (Char × Char)) (s : List Char) :
    Reading (List Char) :=
  match untilQuote? quote s with
  | some (inside, after) => .ok (unescape escapes inside, after)
  | none => .error s

/-! ## Lines -/

def takeName : List Char → Reading (Option (List Char))
  | '#' :: rest => .ok (none, '#' :: rest)
  | '\'' :: rest =>
    let name := rest.takeWhile (· ≠ '\'')
    match rest.dropWhile (· ≠ '\'') with
    | _ :: after => if name = [] then .error ('\'' :: rest) else .ok (some name, after)
    | [] => .error ('\'' :: rest)
  | s =>
    let name := s.takeWhile fun c => c ≠ '=' ∧ c ≠ '#' ∧ !Text.isBlank c
    if name = [] then .error s else .ok (some name, s.drop name.length)

def beforeComment : List Char → List Char
  | [] => []
  | c :: rest => if Text.isBlank c ∧ rest.head? = some '#' then [] else c :: beforeComment rest

def takeValue (s : List Char) : Reading (List Char) :=
  match s.dropWhile isGap with
  | '\'' :: rest => takeQuoted '\'' singleEscapes rest
  | '"' :: rest => takeQuoted '"' doubleEscapes rest
  | _ =>
    let line := thisLine s
    .ok (Text.trimRight ((beforeComment line).dropWhile isGap), s.drop line.length)

def takeLineEnd (s : List Char) : Reading Unit :=
  let s := match s.dropWhile isGap with
    | '#' :: rest => rest.dropWhile (· ≠ '\n')
    | _ => s
  match s.dropWhile isGap with
  | [] => .ok ((), [])
  | '\n' :: rest => .ok ((), rest)
  | _ => .error s

def skipExport (s : List Char) : List Char :=
  let word := "export".toList
  let rest := s.drop word.length
  if word.isPrefixOf s ∧ (rest.head?.map isGap).getD false then rest.dropWhile isGap else s

def takeBinding (s : List Char) : Reading (Option (List Char × Option (List Char))) :=
  (takeName (skipExport s)).andThen fun name s =>
    (match s.dropWhile isGap with
      | '=' :: rest => (takeValue rest).andThen fun value s => .ok (some value, s)
      | s => .ok (none, s) : Reading (Option (List Char))).andThen fun value s =>
        (takeLineEnd s).andThen fun _ s => .ok (name.map fun name => (name, value), s)

def bindingsFrom : Nat → List Char → List (List Char × Option (List Char))
  | 0, _ => []
  | fuel + 1, s =>
    match s.dropWhile Text.isBlank with
    | [] => []
    | s =>
      match takeBinding s with
      | .ok (found, rest) => found.toList ++ bindingsFrom fuel rest
      | .error stopped => bindingsFrom fuel ((stopped.dropWhile (· ≠ '\n')).drop 1)

def bindings (s : List Char) : List (List Char × Option (List Char)) :=
  let s := if s.head? = some '\uFEFF' then s.drop 1 else s
  bindingsFrom (s.length + 1) s

/-! ## Variables in values -/

def takeReference? (s : List Char) : Option ((List Char × List Char) × List Char) :=
  let name := s.takeWhile fun c => c ≠ '\x7d' ∧ c ≠ ':'
  match s.dropWhile fun c => c ≠ '\x7d' ∧ c ≠ ':' with
  | '\x7d' :: rest => some ((name, []), rest)
  | ':' :: '-' :: rest =>
    match rest.dropWhile (· ≠ '\x7d') with
    | _ :: after => some ((name, rest.takeWhile (· ≠ '\x7d')), after)
    | [] => none
  | _ => none

def expandFrom (value? : List Char → Option (List Char)) : Nat → List Char → List Char
  | 0, s => s
  | fuel + 1, s =>
    match s with
    | [] => []
    | '$' :: '\x7b' :: rest =>
      match takeReference? rest with
      | some ((name, default), after) =>
        (value? name).getD default ++ expandFrom value? fuel after
      | none => '$' :: expandFrom value? fuel ('\x7b' :: rest)
    | c :: rest => c :: expandFrom value? fuel rest

def expand (value? : List Char → Option (List Char)) (s : List Char) : List Char :=
  expandFrom value? s.length s

end Playscript.Listing
