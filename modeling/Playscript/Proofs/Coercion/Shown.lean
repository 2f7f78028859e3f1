import Playscript.Proofs.Coercion.Oversized
import Playscript.Settings

/-!
# What a scalar shows

A text that is read as a scalar and shown again is mostly as it was written. Only a numeral may
differ: it shows the number that it writes, and a number can be spelt in several ways.
-/
namespace Playscript

/-! ## The characters of numbers -/

def isNumberChar (c : Char) : Bool :=
  c.isDigit || ['+', '-', '.', 'e', 'i', 'n', 'f', 'a'].contains c

theorem isNumberChar_of_isDigit {c : Char} (h : c.isDigit = true) : isNumberChar c = true :=
  Bool.or_eq_true_iff.2 (Or.inl h)

theorem Text.all_toDigits (n : Nat) : (Nat.toDigits 10 n).all isNumberChar = true :=
  List.all_eq_true.2 fun _ hc => isNumberChar_of_isDigit (isDigit_of_mem_toDigits hc)

theorem Text.all_decimal (k : Int) : (decimal k).all isNumberChar = true := by
  cases k with
  | ofNat n => exact all_toDigits n
  | negSucc n =>
    rw [decimal, List.all_cons, all_toDigits]
    rfl

theorem Text.not_mem_decimal {c : Char} (h : isNumberChar c = false) (k : Int) :
    c ∉ decimal k := by
  intro hmem
  rw [List.all_eq_true.1 (all_decimal k) c hmem] at h
  cases h

namespace Decimal

theorem all_ofNat (n : Nat) (exponent : Int) :
    (ofNat n exponent).digits.all isNumberChar = true := by
  refine List.all_eq_true.2 fun c hc => List.all_eq_true.1 (Text.all_toDigits n) c ?_
  exact List.mem_reverse.1 ((List.dropWhile_suffix _).subset (List.mem_reverse.1 hc))

variable {d : Decimal}

theorem all_positional (h : d.digits.all isNumberChar = true) :
    d.positional.all isNumberChar = true := by
  have hzeros : ∀ n, (List.replicate n '0').all isNumberChar = true := fun n => by
    simp [isNumberChar]
  have hpart : ∀ part, part <:+: d.digits → part.all isNumberChar = true := fun part hpart =>
    List.all_eq_true.2 fun c hc => List.all_eq_true.1 h c (hpart.subset hc)
  rw [positional]
  split_ifs
  · simp only [List.all_cons, List.all_append, hzeros, h]
    decide
  · simp only [List.all_cons, List.all_append, List.all_nil, hzeros, h]
    decide
  · simp only [List.all_cons, List.all_append, hpart _ (List.take_prefix _ _).isInfix,
      hpart _ (List.drop_suffix _ _).isInfix]
    decide

theorem all_scientific (h : d.digits.all isNumberChar = true) :
    d.scientific.all isNumberChar = true := by
  have hmark : ['e', if d.point - 1 < 0 then '-' else '+'].all isNumberChar = true := by
    split_ifs <;> decide
  have hzeros : ∀ n, (List.replicate n '0').all isNumberChar = true := fun n => by
    simp [isNumberChar]
  rw [scientific]
  simp only [List.all_append, Text.all_toDigits, hzeros, hmark, Bool.and_true]
  -- What is left is the mantissa, which has a point behind its first digit if it has more.
  split
  · next hdigits =>
    rw [hdigits] at h
    simp only [List.all_cons, Bool.and_eq_true] at h ⊢
    exact ⟨h.1, by decide, h.2⟩
  · exact h

theorem all_text (h : d.digits.all isNumberChar = true) : d.text.all isNumberChar = true := by
  rw [text]
  split_ifs
  · exact all_positional h
  · exact all_scientific h

end Decimal

namespace Binary64

theorem all_atPrecision {number : Binary64} {num den precision : Nat} {point : Int} {d : Decimal}
    (h : atPrecision number num den point precision = some d) :
    d.digits.all isNumberChar = true := by
  rw [atPrecision] at h
  dsimp only at h
  split at h <;> cases h <;> exact Decimal.all_ofNat _ _

theorem all_shortest (mantissa : Nat) (exponent : Int) :
    (shortest mantissa exponent).digits.all isNumberChar = true := by
  rw [shortest]
  dsimp only
  cases hfound : (List.range 17).findSome? _ with
  | none => rfl
  | some d =>
    obtain ⟨_, _, hd⟩ := List.exists_of_findSome?_eq_some hfound
    exact all_atPrecision hd

theorem all_text (x : Binary64) : x.text.all isNumberChar = true := by
  have hsign : ∀ negative : Bool, (if negative then ['-'] else []).all isNumberChar = true := by
    decide
  cases x with
  | nan => decide
  | infinite negative =>
    rw [text, List.all_append, hsign]
    decide
  | finite negative mantissa exponent =>
    rw [text, List.all_append, hsign, Bool.true_and]
    split_ifs
    · decide
    · exact Decimal.all_text (all_shortest mantissa exponent)

end Binary64

namespace Coercion

open Numeral (Oversized)

variable {s : List Char} {v : Value}

theorem number?_ok (h : number? s = .ok (some v)) : (∃ k, v = .int k) ∨ ∃ x, v = .float x := by
  rw [number?] at h
  split at h
  · cases h
  · split at h
    · cases h
    · cases h
      exact Or.inl ⟨_, rfl⟩
    · cases h
      exact Or.inr ⟨_, rfl⟩

theorem all_number? (h : number? s = .ok (some v)) : v.text.all isNumberChar = true := by
  obtain ⟨k, rfl⟩ | ⟨x, rfl⟩ := number?_ok h
  · exact Text.all_decimal k
  · exact Binary64.all_text x

/-! ## Shown scalars -/

/-- The text that a scalar shows: a numeral shows its number, any other text shows itself. An
oversized integer shows nothing. -/
def shown? (s : List Char) : Option (List Char) :=
  match number? s with
  | .error _ => none
  | .ok none => some s
  | .ok (some v) => some v.text

def Verbatim (s : List Char) : Prop := shown? s = some s

instance (s : List Char) : Decidable (Verbatim s) := inferInstanceAs (Decidable (_ = _))

theorem shown?_eq_none_iff : shown? s = none ↔ Oversized s := by
  rw [shown?]
  cases hnumber : number? s with
  | error fault => exact iff_of_true rfl (number?_eq_error_iff.1 hnumber).2
  | ok found =>
    refine iff_of_false ?_ fun h => ?_
    · cases found <;> exact fun h => nomatch h
    · rw [number?_eq_error_iff.2 ⟨rfl, h⟩] at hnumber
      cases hnumber

theorem verbatim_of_no_numeral (h : Numeral.ofChars? s = none) : Verbatim s := by
  rw [Verbatim, shown?, number?_eq_none_iff.2 h]

theorem number?_decimal {k : Int} (h : ¬ Oversized (Text.decimal k)) :
    number? (Text.decimal k) = .ok (some (.int k)) := by
  simp only [number?, Numeral.ofChars?_decimal, Numeral.value,
    Numeral.integerOfDigits_toDigits h, Functor.map, Except.map]

theorem verbatim_decimal {k : Int} (h : ¬ Oversized (Text.decimal k)) :
    Verbatim (Text.decimal k) := by
  rw [Verbatim, shown?, number?_decimal h]
  rfl

structure Unescaped (s : List Char) : Prop where
  double : '"' ∉ s
  single : '\'' ∉ s
  escape : '\\' ∉ s

theorem Unescaped.of_subset {t : List Char} (h : Unescaped s) (hst : t ⊆ s) : Unescaped t :=
  ⟨fun hmem => h.double (hst hmem), fun hmem => h.single (hst hmem),
    fun hmem => h.escape (hst hmem)⟩

theorem Unescaped.unquote? (h : Unescaped s) : unquote? s = none := by
  unfold Coercion.unquote?
  split
  · exact (h.double List.mem_cons_self).elim
  · exact (h.single List.mem_cons_self).elim
  · rfl

theorem Unescaped.special? (h : Unescaped s) : special? s = none := by
  unfold Coercion.special?
  split
  · exact (h.escape List.mem_cons_self).elim
  · exact (h.escape List.mem_cons_self).elim
  · exact (h.escape List.mem_cons_self).elim
  · rfl

theorem truth?_eq_some {b : Bool} (h : truth? s = some b) : s = Value.render (.bool b) := by
  unfold truth? at h
  split at h <;> cases h <;> rfl

theorem scalar_ok_cases (h : Unescaped s) (hv : scalar s = .ok v) :
    (∃ b, v = .bool b ∧ s = v.render) ∨ number? s = .ok (some v) ∨
      (number? s = .ok none ∧ v = .ofChars s) := by
  simp only [scalar, h.unquote?, h.special?] at hv
  split at hv
  · next b htruth =>
    cases hv
    exact Or.inl ⟨b, rfl, truth?_eq_some htruth⟩
  · split at hv
    · cases hv
    · next hnumber =>
      cases hv
      exact Or.inr (Or.inl hnumber)
    · next hnumber =>
      cases hv
      exact Or.inr (Or.inr ⟨hnumber, rfl⟩)

theorem shown?_eq (h : Unescaped s) :
    shown? s = (scalar s).toOption.map Value.render ∧
      shown? s = (scalar s).toOption.map Settings.plain := by
  cases hscalar : scalar s with
  | error fault =>
    rw [shown?_eq_none_iff.2 (scalar_eq_error_iff.1 hscalar).2]
    exact ⟨rfl, rfl⟩
  | ok v =>
    obtain ⟨b, rfl, hb⟩ | hnumber | ⟨hnumber, rfl⟩ := scalar_ok_cases h hscalar
    · have hself : Verbatim s := by
        rw [hb]
        cases b <;> decide
      rw [hself, hb]
      cases b <;> exact ⟨rfl, rfl⟩
    · rw [shown?, hnumber]
      obtain ⟨k, rfl⟩ | ⟨x, rfl⟩ := number?_ok hnumber <;> exact ⟨rfl, rfl⟩
    · rw [shown?, hnumber]
      exact ⟨congrArg some String.toList_ofList.symm, congrArg some String.toList_ofList.symm⟩

theorem mem_of_mem_shown? {t : List Char} {c : Char} (h : shown? s = some t) (hc : c ∈ t)
    (hnumber : isNumberChar c = false) : c ∈ s := by
  rw [shown?] at h
  split at h
  · cases h
  · cases h
    exact hc
  · next hvalue =>
    cases h
    rw [List.all_eq_true.1 (all_number? hvalue) c hc] at hnumber
    cases hnumber

end Coercion

end Playscript
