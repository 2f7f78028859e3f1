/-!
# Sets of characters given by ranges

The tables of the Unicode properties that a script can meet are lists of closed ranges of code
points, in increasing order.
-/
namespace Playscript.Text

def inRanges (table : List (Nat × Nat)) (n : Nat) : Bool :=
  table.any fun range => range.1 ≤ n && n ≤ range.2

theorem inRanges_eq_true_iff {table : List (Nat × Nat)} {n : Nat} :
    inRanges table n = true ↔ ∃ range ∈ table, range.1 ≤ n ∧ n ≤ range.2 := by
  simp [inRanges]

end Playscript.Text
