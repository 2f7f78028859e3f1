import Mathlib.Algebra.Group.Nat.Defs
import Mathlib.Data.List.Induction
import Playscript.Coercion
import Playscript.Proofs.Numeral
import Playscript.Proofs.Value.Written

/-!
# Scalars have a text

A scalar that is read of a text can be written again: an integer that is read has no more digits
than one may have that is written.
-/
namespace Playscript

namespace Text

theorem digitValue?_lt {c : Char} {d : Nat} (h : digitValue? c = some d) : d < 10 := by
  rw [digitValue?] at h
  split_ifs at h with hdigit
  · have hd := Option.some.inj h
    have hrange : c.toNat ≤ 57 := by
      rw [Char.isDigit, Bool.and_eq_true] at hdigit
      exact of_decide_eq_true hdigit.2
    omega
  · obtain ⟨first, hfirst, rfl⟩ := Option.map_eq_some_iff.1 h
    have hrange := List.find?_some hfirst
    simp only [Bool.and_eq_true, decide_eq_true_eq] at hrange
    omega

theorem digitsValue?_concat (s : List Char) (c : Char) :
    digitsValue? (s ++ [c]) = do return 10 * (← digitsValue? s) + (← digitValue? c) := by
  rw [digitsValue?, List.foldl_append]
  rfl

theorem digitsValue?_lt {s : List Char} {n : Nat} (h : digitsValue? s = some n) :
    n < 10 ^ s.length := by
  induction s using List.reverseRecOn generalizing n with
  | nil =>
    cases h
    exact Nat.one_pos
  | append_singleton s c ih =>
    rw [digitsValue?_concat] at h
    obtain ⟨m, hm, h⟩ := Option.bind_eq_some_iff.1 h
    obtain ⟨d, hd, h⟩ := Option.bind_eq_some_iff.1 h
    have hn : 10 * m + d = n := Option.some.inj h
    have hfront := ih hm
    have hlast := digitValue?_lt hd
    rw [List.length_append, List.length_singleton, Nat.pow_succ]
    omega

end Text

theorem length_toDigits_of_integerOfDigits {negative : Bool} {digits : List Char} {n : Int}
    (h : integerOfDigits negative digits = .ok n) :
    (Nat.toDigits 10 n.natAbs).length ≤ digitLimit := by
  by_cases hlength : digitLimit < digits.length
  · rw [integerOfDigits, if_pos hlength] at h
    cases h
  rw [integerOfDigits, if_neg hlength] at h
  have hn : n.natAbs = (Text.digitsValue? digits).getD 0 := by
    rw [← Except.ok.inj h]
    cases negative <;> simp
  rw [hn, Nat.length_toDigits_le_iff (by decide) (by decide)]
  cases hvalue : Text.digitsValue? digits with
  | none => exact Nat.pow_pos (by decide)
  | some m =>
    exact Nat.lt_of_lt_of_le (Text.digitsValue?_lt hvalue)
      (Nat.pow_le_pow_right (by decide) (Nat.le_of_not_lt hlength))

namespace Coercion

variable [Interpreter] {write : Value → List Char} {s : List Char} {v : Value}

theorem not_noText_of_number? (h : number? s = .ok (some v)) : ¬ v.NoText write := by
  rw [number?] at h
  split at h
  · cases h
  · next numeral _ =>
    split at h
    · cases h
    · next n hn =>
      cases h
      rw [Numeral.value] at hn
      split at hn
      · obtain ⟨m, hm, hinl⟩ := map_eq_ok.1 hn
        cases hinl
        rintro (hover | ⟨hparts, -⟩)
        · exact Nat.not_lt.2 (length_toDigits_of_integerOfDigits hm) (of_decide_eq_true hover)
        · cases hparts
      · cases hn
    · cases h
      rintro (h | ⟨h, -⟩) <;> cases h

theorem not_noText_of_scalar (h : scalar s = .ok v) : ¬ v.NoText write := by
  rw [scalar] at h
  split at h
  · cases h
    exact Value.not_noText_str _
  split at h
  · cases h
    exact Value.not_noText_str _
  split at h
  · cases h
    rintro (h | ⟨h, -⟩) <;> cases h
  split at h
  · cases h
  · next hv =>
    cases h
    exact not_noText_of_number? hv
  · cases h
    exact Value.not_noText_str _

end Coercion

end Playscript
