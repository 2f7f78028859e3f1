import Playscript.Fault
import Playscript.Value

/-!
# Scenarios

A scenario is what a script says: acts by name, each with its messages, placeholders and settings,
and settings of the whole. The setting `order` lists the acts in the order they were first named.
-/
namespace Playscript

/-- A stage of a scenario. In the messages every placeholder is a bare name in braces; the defaults
are in the table of placeholders, which holds nothing for a name without one. -/
structure Act where
  messages : List Record
  description : Option String
  hasPlaceholders : Bool
  placeholders : Record
  config : Record
  deriving Repr

namespace Act

def empty : Act := ⟨[], none, false, [], []⟩

instance : Inhabited Act := ⟨empty⟩

def storePlaceholder (act : Act) (name : String) (default : Value) : Act :=
  let known := (Table.get? act.placeholders name).getD .null
  { act with
    placeholders :=
      if known.isNull then Table.set act.placeholders name default else act.placeholders
    hasPlaceholders := true }

def describe (act : Act) (description : Option String) : Act :=
  match description with
  | none => act
  | some text =>
    if text ≠ "" ∧ act.description.getD "" = "" then { act with description := some text }
    else act

end Act

structure Scenario where
  acts : Table Act
  config : Record
  deriving Repr

namespace Scenario

def empty : Scenario := ⟨[], [("order", .list [])]⟩

instance : Inhabited Scenario := ⟨empty⟩

def orderItems (config : Record) : List Value :=
  match Table.get? config "order" with
  | some (.list items) => items
  | _ => []

def nameOf? : Value → Option String
  | .str name => some name
  | _ => none

def order (s : Scenario) : List String :=
  (orderItems s.config).filterMap nameOf?

def act? (s : Scenario) (name : String) : Option Act :=
  Table.get? s.acts name

def unusedName (s : Scenario) : String :=
  String.join s.acts.keys ++ "?"

/-- The name that a value gives for an act. Nothing gives none, what is no text gives one that no
act has, and what is no key cannot be asked for. -/
def nameFrom (s : Scenario) : Value → Except Fault (Option String)
  | .null => .ok none
  | .str name => .ok (some name)
  | v => if v.isKey then .ok (some s.unusedName) else .error .unusableKey

def nameFromGiven (s : Scenario) (v : Value) : Except Fault (Option String) :=
  if v.truthy then s.nameFrom v else .ok none

def overrides (s : Scenario) : Record :=
  ((Table.get? s.config "parser_overrides").map Value.entries).getD []

def ensureAct (s : Scenario) (name : String) (description : Option String) : Scenario :=
  match s.act? name with
  | some act => { s with acts := Table.set s.acts name (act.describe description) }
  | none => {
      acts := Table.set s.acts name (Act.empty.describe description)
      config := Table.set s.config "order" (.list (orderItems s.config ++ [.str name])) }

def modifyAct (s : Scenario) (name : String) (change : Act → Act) : Scenario :=
  match s.act? name with
  | some act => { s with acts := Table.set s.acts name (change act) }
  | none => s

/-! ## Order of given data -/

/-- The entries of an order as given: a text lists its characters and a record its keys, and a
value that does not count as given lists nothing. -/
def givenOrder (v : Value) : Except Fault (List Value) :=
  if v.truthy then
    match v with
    | .list items | .tuple items =>
      if Value.areKeys items then .ok items else .error .orderNotNames
    | .str s => .ok (s.toList.map fun c => .ofChars [c])
    | .dict entries => .ok (entries.map fun entry => .str entry.1)
    | _ => .error .orderNotList
  else .ok []

/-- The order of the given acts: the entries that name acts, once each and as they come, and after
them the remaining acts. -/
def repairOrder (acts : List String) (given : List Value) : List String :=
  let named := (given.filterMap nameOf?).eraseDups.filter (· ∈ acts)
  named ++ acts.filter (· ∉ named)

def ofParts (acts : Table Act) (config : Record) : Except Fault Scenario := do
  let given ← givenOrder ((Table.get? config "order").getD .null)
  let order := repairOrder acts.keys given
  return ⟨acts, Table.set config "order" (.list (order.map .str))⟩

end Scenario

end Playscript
