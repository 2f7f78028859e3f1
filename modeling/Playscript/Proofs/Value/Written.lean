import Mathlib.Tactic.SplitIfs
import Playscript.Proofs.Outcome
import Playscript.Value.Written

/-!
# When a value has a text

A value without a text has an integer of too many digits in it, or it is too deep for the stack of
the interpreter.
-/
namespace Playscript.Value

variable [Interpreter] {write : Value → List Char} {v : Value} {s : List Char}

/-- A value to which a way of writing gives no text. -/
def NoText (write : Value → List Char) (v : Value) : Prop :=
  v.oversized = true ∨ v.hasParts = true ∧ Interpreter.isFull write v = true

theorem noText_iff :
    v.NoText write ↔ (v.oversized || (v.hasParts && Interpreter.isFull write v)) = true := by
  rw [Bool.or_eq_true, Bool.and_eq_true, NoText]

theorem written_of_noText (h : v.NoText write) : v.written write = .error .noText :=
  if_pos (noText_iff.1 h)

theorem written_of_not_noText (h : ¬ v.NoText write) : v.written write = .ok (write v) :=
  if_neg (mt noText_iff.2 h)

theorem written_eq_ok_iff : v.written write = .ok s ↔ ¬ v.NoText write ∧ write v = s := by
  by_cases h : v.NoText write
  · rw [written_of_noText h]
    exact iff_of_false (fun hok => nomatch hok) fun hok => hok.1 h
  · rw [written_of_not_noText h, Except.ok.injEq, and_iff_right h]

theorem fails_written : Fails (v.written write) ↔ v.NoText write := by
  by_cases h : v.NoText write
  · rw [written_of_noText h]
    exact iff_of_true (fails_error _) h
  · rw [written_of_not_noText h]
    exact iff_of_false (not_fails_ok _) h

theorem not_noText_str (s : String) : ¬ NoText write (.str s) := by
  rintro (h | ⟨h, -⟩) <;> cases h

end Playscript.Value
