import Playscript.Path
import Playscript.Proofs.Numeral

/-!
# Where paths lead

A path leads through records by key and through lists by position. Reading at a path gives what it
leads to and otherwise nothing, unless the way comes to a list with a segment that looks like a
position but forms no number.
-/
namespace Playscript

namespace Path

/-- A segment of digits only that forms no number: a character of it stands for a digit without
being decimal, or there are too many. -/
def Illegible (segment : String) : Prop :=
  (∀ c ∈ segment.toList, Text.isDigit c) ∧
    ((∃ c ∈ segment.toList, ¬ Text.isDecimal c) ∨ digitLimit < segment.toList.length)

def child? : Value → String → Except Fault (Option Value)
  | .dict entries, name => .ok (Table.get? entries name)
  | .list items, segment => (fun position => position.bind (items[·]?)) <$> position? segment
  | _, _ => .ok none

theorem get_cons (v : Value) (segment : String) (rest : Path) :
    get v (segment :: rest) =
      match child? v segment with
      | .error fault => .error fault
      | .ok none => .ok .null
      | .ok (some part) => get part rest := by
  cases v with
  | dict entries =>
    rw [get, child?]
    cases Table.get? entries segment <;> rfl
  | list items =>
    rw [get, child?]
    cases position? segment with
    | error fault => rfl
    | ok position =>
      cases position with
      | none => rfl
      | some n =>
        simp only [Functor.map, Except.map, Option.bind_some]
        cases items[n]? <;> rfl
  | _ => rfl

/-- What a path leads to, part by part. -/
inductive Leads : Value → Path → Value → Prop
  | here (v : Value) : Leads v [] v
  | on {v next part : Value} {segment : String} {rest : Path}
      (hchild : child? v segment = .ok (some next)) (hrest : Leads next rest part) :
      Leads v (segment :: rest) part

def Blocked (v : Value) (path : Path) : Prop :=
  ∃ front segment back items, path = front ++ segment :: back ∧ Leads v front (.list items) ∧
    Illegible segment

variable {v part : Value} {path : Path}

theorem get_append {front : Path} (h : Leads v front part) (back : Path) :
    get v (front ++ back) = get part back := by
  induction h with
  | here v => rfl
  | on hchild hrest ih => simp only [List.cons_append, get_cons, hchild, ih]

theorem get_of_leads (h : Leads v path part) : get v path = .ok part := by
  have hget := get_append h []
  rwa [List.append_nil, get_nil] at hget

end Path

end Playscript
