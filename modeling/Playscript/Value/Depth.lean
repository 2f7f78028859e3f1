import Playscript.Value

/-!
# Depth of values

Lists, tuples and records hold values, which may hold values again. The depth of a value is the
number of its levels, and several values are as deep as the deepest of them.
-/
namespace Playscript

namespace Value

mutual

def depth : Value → Nat
  | .list items | .tuple items => depthOfItems items + 1
  | .dict entries => depthOfEntries entries + 1
  | _ => 1

def depthOfItems : List Value → Nat
  | [] => 0
  | v :: vs => max (depth v) (depthOfItems vs)

def depthOfEntries : List (String × Value) → Nat
  | [] => 0
  | (_, v) :: es => max (depth v) (depthOfEntries es)

end

theorem depthOfItems_le_iff (vs : List Value) (n : Nat) :
    depthOfItems vs ≤ n ↔ ∀ v ∈ vs, depth v ≤ n := by
  induction vs with
  | nil => simp [depthOfItems]
  | cons v vs ih => rw [depthOfItems, Nat.max_le, ih, List.forall_mem_cons]

end Value

end Playscript
