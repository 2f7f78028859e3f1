import Mathlib.Data.List.TakeWhile
import Mathlib.Tactic.SplitIfs
import Playscript.Number.Numeral
import Playscript.Proofs.Outcome
import Playscript.Text.Quoted

/-!
# Values of numerals

A numeral has a value unless it is an integer of more digits than a number may have. The decimal
digits of an integer are a numeral of that integer.
-/
namespace Playscript

namespace Text

theorem foldl_digits (total : Nat) {s : List Char} (hs : ∀ c ∈ s, c.isDigit = true) :
    s.foldl (fun total c => return 10 * (← total) + (← digitValue? c)) (some total) =
      some (Nat.ofDigitChars 10 s total) := by
  induction s generalizing total with
  | nil => rfl
  | cons c rest ih =>
    obtain ⟨hc, hrest⟩ := List.forall_mem_cons.1 hs
    have hvalue : digitValue? c = some (c.toNat - 0x30) := if_pos hc
    rw [List.foldl_cons, Nat.ofDigitChars_cons, hvalue]
    exact ih _ hrest

theorem digitsValue?_eq {s : List Char} (hs : ∀ c ∈ s, c.isDigit = true) :
    digitsValue? s = some (Nat.ofDigitChars 10 s 0) :=
  foldl_digits 0 hs

theorem isDecimal_of_isDigit {c : Char} (h : c.isDigit = true) : isDecimal c = true := by
  rw [isDecimal, digitValue?, if_pos h]
  rfl

theorem isDigit_of_mem_toDigits {n : Nat} {c : Char} (h : c ∈ Nat.toDigits 10 n) :
    c.isDigit = true :=
  Nat.isDigit_of_mem_toDigits (by decide) (by decide) h

theorem digitsValue?_toDigits (n : Nat) : digitsValue? (Nat.toDigits 10 n) = some n := by
  rw [digitsValue?_eq fun _ => isDigit_of_mem_toDigits, Nat.ofDigitChars_ten_toDigits]

end Text

theorem integerOfDigits_eq_error_iff {negative : Bool} {digits : List Char} {fault : Fault} :
    integerOfDigits negative digits = .error fault ↔
      fault = .oversizedNumber ∧ digitLimit < digits.length := by
  rw [integerOfDigits]
  split_ifs with h
  · exact ⟨fun heq => ⟨(Except.error.inj heq).symm, h⟩, fun heq => heq.1 ▸ rfl⟩
  · exact iff_of_false (fun heq => nomatch heq) fun heq => h heq.2

theorem Text.dropLineEnd_prefix (s : List Char) : dropLineEnd s <+: s := by
  rw [dropLineEnd]
  split_ifs
  · exact List.dropLast_prefix s
  · exact List.prefix_rfl

theorem Text.dropLineEnd_of_not_mem {s : List Char} (h : '\n' ∉ s) : dropLineEnd s = s := by
  rw [dropLineEnd, if_neg fun hlast => h (List.mem_of_getLast? hlast)]

namespace Numeral

/-- The text of an integer with too many digits: a sign or none, and more decimal digits than
`digitLimit`. -/
def Oversized (s : List Char) : Prop :=
  let digits := (takeSign (Text.dropLineEnd s)).2
  digits.all Text.isDecimal ∧ digitLimit < digits.length

theorem takeSign_of_head {s : List Char} (hplus : s.head? ≠ some '+')
    (hminus : s.head? ≠ some '-') : takeSign s = (false, s) := by
  unfold takeSign
  split
  · exact (hplus rfl).elim
  · exact (hminus rfl).elim
  · rfl

theorem Oversized.head {s : List Char} (h : Oversized s) :
    ∃ c rest, s = c :: rest ∧ (c = '+' ∨ c = '-' ∨ Text.isDecimal c) := by
  obtain ⟨hall, hlength⟩ := h
  obtain ⟨more, hmore⟩ := Text.dropLineEnd_prefix s
  cases hs : Text.dropLineEnd s with
  | nil =>
    rw [hs] at hlength
    exact absurd hlength (by decide)
  | cons c rest =>
    refine ⟨c, rest ++ more, by rw [← hmore, hs, List.cons_append], ?_⟩
    by_cases hplus : c = '+'
    · exact Or.inl hplus
    by_cases hminus : c = '-'
    · exact Or.inr (Or.inl hminus)
    have hunsigned : takeSign (c :: rest) = (false, c :: rest) :=
      takeSign_of_head (mt Option.some.inj hplus) (mt Option.some.inj hminus)
    rw [hs, hunsigned] at hall
    exact Or.inr (Or.inr (List.all_eq_true.1 hall c List.mem_cons_self))

variable {s : List Char} {n : Numeral} {fault : Fault}

theorem value_eq_error_iff :
    n.value = .error fault ↔ fault = .oversizedNumber ∧
      n.fraction = none ∧ n.exponent = none ∧ digitLimit < n.whole.length := by
  obtain ⟨negative, whole, fraction, exponent⟩ := n
  cases fraction with
  | some digits => exact iff_of_false (fun h => nomatch h) fun h => nomatch h.2.1
  | none =>
    cases exponent with
    | some digits => exact iff_of_false (fun h => nomatch h) fun h => nomatch h.2.2.1
    | none =>
      simp only [value, true_and, ← @integerOfDigits_eq_error_iff negative]
      cases integerOfDigits negative whole with
      | error other => simp [Functor.map, Except.map]
      | ok m => simp [Functor.map, Except.map]

theorem ofChars?_of_digits
    (hall : (takeSign (Text.dropLineEnd s)).2.all Text.isDecimal = true)
    (hne : (takeSign (Text.dropLineEnd s)).2 ≠ []) :
    ofChars? s = some ⟨(takeSign (Text.dropLineEnd s)).1, (takeSign (Text.dropLineEnd s)).2,
      none, none⟩ := by
  have hwhole := List.takeWhile_eq_self_iff.2 (List.all_eq_true.1 hall)
  have hrest := List.dropWhile_eq_nil_iff.2 (List.all_eq_true.1 hall)
  simp only [ofChars?, hwhole, hrest, takeFraction, takeExponent]
  simp [hne]

theorem ofChars?_of_oversized (h : Oversized s) :
    ofChars? s = some ⟨(takeSign (Text.dropLineEnd s)).1, (takeSign (Text.dropLineEnd s)).2,
      none, none⟩ := by
  refine ofChars?_of_digits h.1 fun hnil => ?_
  have hlength := h.2
  rw [hnil] at hlength
  exact absurd hlength (by decide)

theorem eq_nil_of_takeExponent {rest : List Char} (h : takeExponent rest = some none) :
    rest = [] := by
  cases rest with
  | nil => rfl
  | cons mark more =>
    simp only [takeExponent] at h
    split_ifs at h
    cases h

theorem takeFraction_eq_none {rest more : List Char} (h : takeFraction rest = (none, more)) :
    rest = more := by
  unfold takeFraction at h
  split at h
  · cases h
  · exact congrArg Prod.snd h

theorem oversized_of_ofChars? (h : ofChars? s = some n) (hfraction : n.fraction = none)
    (hexponent : n.exponent = none) (hlength : digitLimit < n.whole.length) : Oversized s := by
  rw [Oversized]
  rw [ofChars?] at h
  cases hsign : takeSign (Text.dropLineEnd s) with
  | mk negative digits =>
  rw [hsign] at h
  dsimp only at h ⊢
  cases hpoint : takeFraction (digits.dropWhile Text.isDecimal) with
  | mk fraction rest =>
  rw [hpoint] at h
  dsimp only at h
  split_ifs at h
  · cases h
  cases hmark : takeExponent rest with
  | none =>
    rw [hmark] at h
    cases h
  | some exponent =>
    rw [hmark] at h
    cases h
    obtain rfl : fraction = none := hfraction
    obtain rfl : exponent = none := hexponent
    have hnil : digits.dropWhile Text.isDecimal = [] :=
      (takeFraction_eq_none hpoint).trans (eq_nil_of_takeExponent hmark)
    have hall := List.dropWhile_eq_nil_iff.1 hnil
    rw [List.takeWhile_eq_self_iff.2 hall] at hlength
    exact ⟨List.all_eq_true.2 hall, hlength⟩

theorem exists_value_eq_error_iff :
    (∃ n, ofChars? s = some n ∧ n.value = .error fault) ↔
      fault = .oversizedNumber ∧ Oversized s := by
  constructor
  · rintro ⟨n, hn, hvalue⟩
    obtain ⟨hfault, hfraction, hexponent, hlength⟩ := value_eq_error_iff.1 hvalue
    exact ⟨hfault, oversized_of_ofChars? hn hfraction hexponent hlength⟩
  · rintro ⟨hfault, h⟩
    exact ⟨_, ofChars?_of_oversized h, value_eq_error_iff.2 ⟨hfault, rfl, rfl, h.2⟩⟩

/-! ## Plain decimals -/

theorem takeSign_decimal (k : Int) :
    takeSign (Text.dropLineEnd (Text.decimal k)) = (decide (k < 0), Nat.toDigits 10 k.natAbs) := by
  have hother : ∀ {n c}, c.isDigit = false → c ∉ Nat.toDigits 10 n := fun hc hmem =>
    absurd (Text.isDigit_of_mem_toDigits hmem) (by simp [hc])
  have hline : Text.dropLineEnd (Text.decimal k) = Text.decimal k := by
    apply Text.dropLineEnd_of_not_mem
    cases k with
    | ofNat n => exact hother (by decide)
    | negSucc n =>
      intro hmem
      exact (List.mem_cons.1 hmem).elim (by decide) (hother (by decide))
  rw [hline]
  cases k with
  | ofNat n =>
    exact takeSign_of_head (fun h => hother (by decide) (List.mem_of_head? h))
      (fun h => hother (by decide) (List.mem_of_head? h))
  | negSucc n =>
    rw [Text.decimal, takeSign, decide_eq_true (Int.negSucc_lt_zero n), Int.natAbs_negSucc]

theorem all_toDigits_isDecimal (n : Nat) : (Nat.toDigits 10 n).all Text.isDecimal = true :=
  List.all_eq_true.2 fun _ hc => Text.isDecimal_of_isDigit (Text.isDigit_of_mem_toDigits hc)

theorem ofChars?_decimal (k : Int) :
    ofChars? (Text.decimal k) = some ⟨decide (k < 0), Nat.toDigits 10 k.natAbs, none, none⟩ := by
  have hsign := takeSign_decimal k
  rw [ofChars?_of_digits, hsign]
  · rw [hsign]
    exact all_toDigits_isDecimal k.natAbs
  · rw [hsign]
    exact Nat.toDigits_ne_nil

theorem oversized_decimal_iff {k : Int} :
    Oversized (Text.decimal k) ↔ digitLimit < (Nat.toDigits 10 k.natAbs).length := by
  rw [Oversized, takeSign_decimal]
  exact and_iff_right (all_toDigits_isDecimal k.natAbs)

theorem integerOfDigits_toDigits {k : Int} (h : ¬ Oversized (Text.decimal k)) :
    integerOfDigits (decide (k < 0)) (Nat.toDigits 10 k.natAbs) = .ok k := by
  rw [integerOfDigits, if_neg (mt oversized_decimal_iff.2 h), Text.digitsValue?_toDigits,
    Option.getD_some]
  dsimp only
  split_ifs with hnegative
  · have hk : k < 0 := of_decide_eq_true hnegative
    exact congrArg Except.ok (by omega)
  · have hk : ¬ k < 0 := fun hlt => hnegative (decide_eq_true hlt)
    exact congrArg Except.ok (by omega)

end Numeral

end Playscript
