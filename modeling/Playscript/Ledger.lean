import Playscript.Scenario.Shape
import Playscript.Value.Literal
import Playscript.Value.Pairs

/-!
# Cost ledger

Each request to a language model uses a number of tokens. The ledger keeps the usage of every
request and three running totals. What else a usage record says is kept with it. The answer to a
request is the totals themselves, and they can be booked for a request like any other usage.
-/
namespace Playscript

structure Usage where
  prompt : Int
  completion : Int
  total : Int
  extra : Record
  deriving Repr

namespace Usage

def zero : Usage := ⟨0, 0, 0, []⟩

def names : List String := ["prompt_tokens", "completion_tokens", "total_tokens"]

def plus (u v : Usage) : Usage :=
  ⟨u.prompt + v.prompt, u.completion + v.completion, u.total + v.total, u.extra⟩

def placeOf (key : Value) : Place :=
  match key.integer?.filter Check.isWord with
  | some n => .index n
  | none => .key (String.ofList key.text)

def checkKeys : List Value → Check Unit
  | [] => pure ()
  | key :: rest =>
    let issue : Check Unit := Check.within (placeOf key) (Check.defect .notName)
    (fun _ _ => ()) <$> issue <*> checkKeys rest

variable [DataModel]

def check (v : Value) : Check Usage :=
  (DataModel.fields v).andThen fun r =>
    (Usage.mk <$> DataModel.field "prompt_tokens" 0 DataModel.integer r
      <*> DataModel.field "completion_tokens" 0 DataModel.integer r
      <*> DataModel.field "total_tokens" 0 DataModel.integer r
      <*> pure (DataModel.beside names r) : Check Usage)

def checkPairs (pairs : Pairs) : Check Usage :=
  Function.const Unit <$> check (.dict pairs.named) <*> checkKeys pairs.otherKeys

def toValue (u : Usage) : Value :=
  .dict ([
    ("prompt_tokens", .int u.prompt),
    ("completion_tokens", .int u.completion),
    ("total_tokens", .int u.total)] ++ DataModel.plainEntries u.extra)

end Usage

/-- What a ledger books for a request: a usage of its own, or the running totals of the ledger. What
is booked as the totals grows with them. -/
inductive Ledger.Request where
  | usage (u : Usage)
  | totals
  deriving Repr

structure Ledger where
  booked : List Ledger.Request
  totals : Usage
  deriving Repr

namespace Ledger

def empty : Ledger := ⟨[], .zero⟩

def Request.amount (totals : Usage) : Request → Usage
  | .usage u => u
  | .totals => totals

def requests (ledger : Ledger) : List Usage :=
  ledger.booked.map (·.amount ledger.totals)

/-- The ledger with every request booked as what it amounts to by now. -/
def settled (ledger : Ledger) : Ledger :=
  ⟨ledger.requests.map .usage, ledger.totals⟩

def add (ledger : Ledger) (request : Request) : Ledger :=
  ⟨ledger.booked ++ [request], ledger.totals.plus (request.amount ledger.totals)⟩

variable [DataModel]

def check (v : Value) : Check Ledger :=
  (DataModel.fields v).andThen fun r =>
    ((fun requests totals => Ledger.mk (requests.map .usage) totals)
      <$> DataModel.field "requests" [] (DataModel.list Usage.check) r
      <*> DataModel.field "total_tokens" .zero Usage.check r : Check Ledger)

def toValue (ledger : Ledger) : Value :=
  .dict [
    ("requests", .list (ledger.requests.map Usage.toValue)),
    ("total_tokens", ledger.totals.toValue)]

end Ledger

end Playscript
