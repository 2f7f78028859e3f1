import Playscript.Proofs.Text.Trimming
import Playscript.Text.Quoted

/-!
# Decimals

A whole number in decimals is a text without blanks and points, and different numbers have different
decimals.
-/
namespace Playscript.Text

theorem plain_of_isDigit {c : Char} (h : c.isDigit = true) : isBlank c = false ∧ c ≠ '.' := by
  have hbounds : 48 ≤ c.toNat ∧ c.toNat ≤ 57 := by
    simp only [Char.isDigit, Bool.and_eq_true, decide_eq_true_eq] at h
    exact ⟨UInt32.le_iff_toNat_le.1 h.1, UInt32.le_iff_toNat_le.1 h.2⟩
  constructor
  · simp only [isBlank, Bool.or_eq_false_iff, Bool.and_eq_false_iff, decide_eq_false_iff_not,
      beq_eq_false_iff_ne]
    omega
  · rintro rfl
    exact absurd hbounds.1 (by decide)

theorem plain_of_mem_decimal {n : Int} {c : Char} (h : c ∈ decimal n) :
    isBlank c = false ∧ c ≠ '.' := by
  have hdigit : ∀ {m : Nat}, c ∈ Nat.toDigits 10 m → c.isDigit = true :=
    Nat.isDigit_of_mem_toDigits (by decide) (by decide)
  cases n with
  | ofNat m => exact plain_of_isDigit (hdigit h)
  | negSucc m =>
    obtain rfl | h := List.mem_cons.1 h
    · exact ⟨by decide, by decide⟩
    · exact plain_of_isDigit (hdigit h)

theorem decimal_ne_nil (n : Int) : decimal n ≠ [] := by
  cases n with
  | ofNat m => exact Nat.toDigits_ne_nil
  | negSucc m => exact List.cons_ne_nil _ _

theorem trim_decimal (n : Int) : trim (decimal n) = decimal n :=
  trim_of_forall fun _ hc => (plain_of_mem_decimal hc).1

theorem toDigits_inj {m n : Nat} (h : Nat.toDigits 10 m = Nat.toDigits 10 n) : m = n := by
  have hread := congrArg (fun digits => Nat.ofDigitChars 10 digits 0) h
  simpa using hread

theorem toDigits_ne_cons_minus (m : Nat) (rest : List Char) : Nat.toDigits 10 m ≠ '-' :: rest := by
  intro h
  have hminus : '-' ∈ Nat.toDigits 10 m := h ▸ List.mem_cons_self
  exact absurd (Nat.isDigit_of_mem_toDigits (by decide) (by decide) hminus) (by decide)

theorem decimal_inj {m n : Int} (h : decimal m = decimal n) : m = n := by
  cases m with
  | ofNat m =>
    cases n with
    | ofNat n => exact congrArg Int.ofNat (toDigits_inj h)
    | negSucc n => exact (toDigits_ne_cons_minus m _ h).elim
  | negSucc m =>
    cases n with
    | ofNat n => exact (toDigits_ne_cons_minus n _ h.symm).elim
    | negSucc n => exact congrArg Int.negSucc (Nat.succ.inj (toDigits_inj (List.cons.inj h).2))

end Playscript.Text
