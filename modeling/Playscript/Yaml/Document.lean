import Playscript.Yaml.Lexing

/-!
# Reading a document

The tokens of a document are read as a tree of scalars, lists and records, and the tree as a value.
A text holds one document.
-/
namespace Playscript.Yaml

inductive Node where
  | scalar (text : List Char) (plain : Bool)
  | list (items : List Node)
  | record (entries : List (Node × Node))

def Node.empty : Node := .scalar [] true

namespace Node

def refuse {α : Type} : List Token → Except Fault α
  | .broken fault :: _ => .error fault
  | _ => .error .malformedText

def stopsAt (stops : List Token) : List Token → Bool
  | [] => true
  | token :: _ => token ∈ stops

mutual

def parse (inBlock afterKey : Bool) : Nat → List Token → Except Fault (Node × List Token)
  | 0, _ => .error .malformedText
  | fuel + 1, tokens =>
    match tokens with
    | .scalar s plain :: rest => .ok (.scalar s plain, rest)
    | .openList :: rest => do
      let (items, rest) ← parseBracketItems true fuel rest
      return (.list items, rest)
    | .openRecord :: rest => do
      let (entries, rest) ← parseBracketEntries true fuel rest
      return (.record entries, rest)
    | .listStart :: rest => do
      if !inBlock then throw .malformedText
      let (items, rest) ← parseItems [.item, .blockEnd] fuel rest
      match rest with
      | .blockEnd :: rest => return (.list items, rest)
      | rest => refuse rest
    | .recordStart :: rest => do
      if !inBlock then throw .malformedText
      let (entries, rest) ← parseEntries fuel rest
      match rest with
      | .blockEnd :: rest => return (.record entries, rest)
      | rest => refuse rest
    | .item :: rest => do
      if !afterKey then throw .malformedText
      let (items, rest) ← parseItems [.item, .key, .value, .blockEnd] fuel (.item :: rest)
      return (.list items, rest)
    | tokens => refuse tokens

def parseUnless (stops : List Token) (inBlock afterKey : Bool) :
    Nat → List Token → Except Fault (Node × List Token)
  | 0, _ => .error .malformedText
  | fuel + 1, tokens =>
    if stopsAt stops tokens then .ok (.empty, tokens) else parse inBlock afterKey fuel tokens

def parseItems (stops : List Token) : Nat → List Token → Except Fault (List Node × List Token)
  | 0, _ => .error .malformedText
  | fuel + 1, tokens =>
    match tokens with
    | .item :: rest => do
      let (item, rest) ← parseUnless stops true false fuel rest
      let (more, rest) ← parseItems stops fuel rest
      return (item :: more, rest)
    | _ => .ok ([], tokens)

def parseEntries : Nat → List Token → Except Fault (List (Node × Node) × List Token)
  | 0, _ => .error .malformedText
  | fuel + 1, tokens =>
    match tokens with
    | .key :: rest => do
      let stops := [Token.key, .value, .blockEnd]
      let (key, rest) ← parseUnless stops true true fuel rest
      let (value, rest) ← match rest with
        | .value :: rest => parseUnless stops true true fuel rest
        | _ => pure (.empty, rest)
      let (more, rest) ← parseEntries fuel rest
      return ((key, value) :: more, rest)
    | _ => .ok ([], tokens)

def parseBracketValue (stops : List Token) :
    Nat → List Token → Except Fault (Node × List Token)
  | 0, _ => .error .malformedText
  | fuel + 1, tokens =>
    match tokens with
    | .value :: rest => parseUnless stops false false fuel rest
    | _ => .ok (.empty, tokens)

def parseBracketItems (isFirst : Bool) :
    Nat → List Token → Except Fault (List Node × List Token)
  | 0, _ => .error .malformedText
  | fuel + 1, tokens =>
    match isFirst, tokens with
    | _, .closeList :: rest => .ok ([], rest)
    | false, .comma :: .closeList :: rest => .ok ([], rest)
    | false, .comma :: rest | true, rest => do
      let (item, rest) ← match rest with
        | .key :: rest => do
          let (key, rest) ← parseUnless [.value, .comma, .closeList] false false fuel rest
          let (value, rest) ← parseBracketValue [.comma, .closeList] fuel rest
          pure (.record [(key, value)], rest)
        | rest => parse false false fuel rest
      let (more, rest) ← parseBracketItems false fuel rest
      return (item :: more, rest)
    | false, tokens => refuse tokens

def parseBracketEntries (isFirst : Bool) :
    Nat → List Token → Except Fault (List (Node × Node) × List Token)
  | 0, _ => .error .malformedText
  | fuel + 1, tokens =>
    match isFirst, tokens with
    | _, .closeRecord :: rest => .ok ([], rest)
    | false, .comma :: .closeRecord :: rest => .ok ([], rest)
    | false, .comma :: rest | true, rest => do
      let (entry, rest) ← match rest with
        | .key :: rest => do
          let (key, rest) ← parseUnless [.value, .comma, .closeRecord] false false fuel rest
          let (value, rest) ← parseBracketValue [.comma, .closeRecord] fuel rest
          pure ((key, value), rest)
        | rest => do
          let (key, rest) ← parse false false fuel rest
          pure ((key, .empty), rest)
      let (more, rest) ← parseBracketEntries false fuel rest
      return (entry :: more, rest)
    | false, tokens => refuse tokens

end

/-! ## Merge keys -/

def isMerge : Node → Bool
  | .scalar s true => Scalar.kind s == .merge
  | _ => false

def entries? : Node → Option (List (Node × Node))
  | .record entries => some entries
  | _ => none

def merged? : Node → Option (List (Node × Node))
  | .record entries => some entries
  | .list items => (fun records => records.reverse.flatten) <$> items.mapM entries?
  | .scalar .. => none

mutual

def merge : Node → Node
  | .scalar s plain => .scalar s plain
  | .list items => .list (mergeItems items)
  | .record entries =>
    let (joined, own) := mergeEntries entries
    .record (joined ++ own)

def mergeItems : List Node → List Node
  | [] => []
  | node :: rest => merge node :: mergeItems rest

def mergeEntries : List (Node × Node) → List (Node × Node) × List (Node × Node)
  | [] => ([], [])
  | (key, node) :: rest =>
    let node := merge node
    let (joined, own) := mergeEntries rest
    match (if key.isMerge then node.merged? else none) with
    | some entries => (entries ++ joined, own)
    | none => (joined, (key, node) :: own)

end

/-! ## Values -/

/-- What becomes of a part: a value, or a fault with the number of lists and records around it.
Parts are looked at from the outside in, so of two faults the one further out counts, and of two at
the same depth the first one. -/
abbrev Outcome (α : Type) := Except (Nat × Fault) α

def both {α β : Type} (a : Outcome α) (b : Outcome β) : Outcome (α × β) :=
  match a, b with
  | .ok x, .ok y => .ok (x, y)
  | .ok _, .error e => .error e
  | .error e, .ok _ => .error e
  | .error e, .error f => .error (if f.1 < e.1 then f else e)

def atDepth {α : Type} (depth : Nat) : Except Fault α → Outcome α
  | .ok x => .ok x
  | .error fault => .error (depth, fault)

def name : Node → Except Fault String
  | .scalar s plain =>
    if plain && Scalar.kind s != .default then
      (fun v => String.ofList v.text) <$> Scalar.value s
    else .ok (String.ofList s)
  | _ => .error .malformedText

mutual

def valueAt (depth : Nat) : Node → Outcome Value
  | .scalar s plain => atDepth depth (if plain then Scalar.value s else .ok (.ofChars s))
  | .list items => Value.list <$> itemsAt (depth + 1) items
  | .record entries =>
    if entries.any (·.1.isMerge) then .error (depth + 1, .malformedText)
    else (fun entries => .dict (Table.ofList entries)) <$> entriesAt (depth + 1) entries

def itemsAt (depth : Nat) : List Node → Outcome (List Value)
  | [] => .ok []
  | node :: rest => (fun (v, vs) => v :: vs) <$> both (valueAt depth node) (itemsAt depth rest)

def entriesAt (depth : Nat) : List (Node × Node) → Outcome (List (String × Value))
  | [] => .ok []
  | (key, node) :: rest =>
    (fun ((key, v), entries) => (key, v) :: entries) <$>
      both (both (atDepth depth key.name) (valueAt depth node)) (entriesAt depth rest)

end

def value (node : Node) : Except Fault Value :=
  node.merge.valueAt 0 |>.mapError Prod.snd

end Node

def parseDocument (tokens : List Token) : Except Fault (Option Node) := do
  let fuel := 4 * tokens.length + 8
  let (node, rest) ← match tokens with
    | [] => return none
    | .documentStart :: rest =>
      Node.parseUnless [.documentStart, .documentEnd] true false fuel rest
    | tokens => Node.parse true false fuel tokens
  match rest.dropWhile (· == .documentEnd) with
  | [] => return some node
  | rest => Node.refuse rest

def read (text : String) : Except Fault Record := do
  let tokens ← Token.ofChars text.toList
  match ← parseDocument tokens with
  | none => throw .notMapping
  | some node =>
    match ← node.value with
    | .dict entries => return entries
    | _ => throw .notMapping

end Playscript.Yaml
