import Playscript.Directive
import Playscript.Script.Placeholder

/-!
# Compiling a script

The blocks of a script are read in order. A block with a bracketed head opens an act; any other
block is a message of the current act, once its directives are taken out. Before the first act head
the directives of a block belong to the default act, wherever they stand in it; after it only those
in front of the role are the act's, and those in the body belong to the message. A comment marker
at the head removes a whole block, and in the name of an act everything up to the next act.
-/
namespace Playscript.Compiler

open Script (Line Block Piece Placeholder)

/-- What is being read: the current act, and whether no act head has been read yet. -/
structure Position where
  act : String
  preamble : Bool

def extractPreamble : List Line → Drafting (List Line)
  | [] => pure []
  | line :: rest => do
    -- The line before may have changed the default act.
    let act := Settings.defaultAct (← get).settings
    let kept ← Directive.extract ⟨act, none⟩ [line]
    return kept ++ (← extractPreamble rest)

def extractLeading (act : String) (lines : List Line) : Drafting (List Line) := do
  let marker := Settings.directiveMarker (← get).settings
  let _ ← Directive.extract ⟨act, none⟩ (lines.takeWhile (Directive.marks marker))
  return lines.dropWhile (Directive.marks marker)

def uncommented (lines : List Line) : Drafting (List Line) := do
  let settings := (← get).settings
  return lines.filter fun line => !Settings.isComment settings line

def storeAct (act : String) (block : Block) : Drafting Unit := do
  let lines ← Directive.extract ⟨act, none⟩ (← uncommented block.body)
  -- What is left of the body describes the act.
  let description := String.ofList (Text.trim (['\n'].intercalate lines))
  modify fun draft => { draft with
    scenario := draft.scenario.ensureAct act (if description = "" then none else description) }

/-! ## Content -/

def repeats (unit : List Char) : Nat → List Char → Nat
  | 0, _ => 0
  | limit + 1, s => if unit.isPrefixOf s then repeats unit limit (s.drop unit.length) + 1 else 0

/-- The length of a line break at the start of a text: the continuation marker and the joining
texts after it, of which there is at least one unless it is empty. -/
def breakLength (marker join s : List Char) : Nat :=
  if marker.isPrefixOf s then
    if join = [] then marker.length
    else match repeats join s.length (s.drop marker.length) with
      | 0 => 0
      | n + 1 => marker.length + (n + 1) * join.length
  else 0

def breakLinesFrom (marker join : List Char) : Nat → List Char → List Char
  | _, [] => []
  -- The first characters belong to a line break already replaced.
  | skip + 1, _ :: rest => breakLinesFrom marker join skip rest
  | 0, c :: rest =>
    match breakLength marker join (c :: rest) with
    | 0 => c :: breakLinesFrom marker join 0 rest
    | n + 1 => '\n' :: breakLinesFrom marker join n rest

def breakLines (marker join content : List Char) : List Char :=
  if marker = [] then content else breakLinesFrom marker join 0 content

def joinLines (settings : Record) (lines : List Line) : List Char :=
  let join := Settings.textOf settings "join" [' ']
  let marker := Settings.textOf settings "new_line" ['\\']
  breakLines marker join (join.intercalate lines)

/-- Registers the placeholders of a content with the act and leaves bare names in their place. -/
def storePieces (act : String) : List Piece → Drafting (List Char)
  | [] => pure []
  | .char c :: rest => do return c :: (← storePieces act rest)
  | .token inside :: rest => do
    match Placeholder.ofInside? inside with
    | none => return Piece.source (.token inside) ++ (← storePieces act rest)
    | some placeholder =>
      let default ← match placeholder.default? with
        | some text => ofExcept (Coercion.scalar text.toList)
        | none => pure .null
      modify fun draft => { draft with
        scenario := draft.scenario.modifyAct act (·.storePlaceholder placeholder.name default) }
      return Piece.source (.token placeholder.name.toList) ++ (← storePieces act rest)

def storeMessage (act : String) (block : Block) : Drafting Unit := do
  modify fun draft => { draft with scenario := draft.scenario.ensureAct act none }
  let index := (((← get).scenario.act? act).map (·.messages.length)).getD 0
  let lines ← Directive.extract ⟨act, some index⟩ (← uncommented block.body)
  let settings := (← get).settings
  let content ← storePieces act (Piece.scan (joinLines settings lines))
  let message : Record := Table.ofList [
    (Settings.roleKey settings, .ofChars (Script.roleName block.head)),
    (Settings.contentKey settings, .ofChars content)]
  modify fun draft => { draft with
    scenario := draft.scenario.modifyAct act fun a =>
      { a with messages := a.messages ++ [message] } }

/-! ## Blocks -/

def storeRest (act : String) (lines : List Line) : Drafting Unit := do
  match Block.ofLines? lines with
  | none => pure ()
  | some block =>
    if Settings.isComment (← get).settings block.head then pure () else storeMessage act block

def step (position : Position) (block : Block) : Drafting Position := do
  let settings := (← get).settings
  if Script.isActHead block.head then
    let act := Script.actName block.head (Settings.defaultAct settings)
    if !Settings.isComment settings act.toList then storeAct act block
    return ⟨act, false⟩
  else if Settings.isComment settings block.head || Settings.isComment settings position.act.toList
  then return position
  else if position.preamble then
    let lines ← extractPreamble block.lines
    let act := Settings.defaultAct (← get).settings
    storeRest act lines
    return ⟨act, true⟩
  else
    let lines ← extractLeading position.act block.lines
    storeRest position.act lines
    return position

def steps : Position → List Block → Drafting Unit
  | _, [] => pure ()
  | position, block :: rest => do steps (← step position block) rest

def run (text : String) (settings : Record) : Except Fault Unit × Draft :=
  let start : Position := ⟨Settings.defaultAct settings, true⟩
  match (steps start (Script.blocks text.toList)).run (.start .empty settings) with
  | .ok _ draft => (.ok (), draft)
  | .error fault draft => (.error fault, draft)

/-- Compiles a script under the given settings. The settings afterwards are part of the answer,
also when the script does not compile. -/
def compile (text : String) (settings : Record) : Except Fault Scenario × Record :=
  let (outcome, draft) := run text settings
  ((fun _ => draft.scenario) <$> outcome, draft.settings)

end Playscript.Compiler
