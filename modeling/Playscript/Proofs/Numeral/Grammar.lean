import Mathlib.Data.List.Basic
import Playscript.Proofs.Numeral

/-!
# The grammar of numerals

A numeral is spelt as a sign or none, digits with at most one point among them, and an exponent or
none. The reader finds a numeral in exactly the texts that are spelt so.
-/
namespace Playscript.Numeral

structure Digits (s : List Char) : Prop where
  nonempty : s ≠ []
  decimal : ∀ c ∈ s, Text.isDecimal c = true

inductive Sign : List Char → Prop
  | absent : Sign []
  | plus : Sign ['+']
  | minus : Sign ['-']

inductive Mantissa : List Char → Prop
  | whole {digits : List Char} (h : Digits digits) : Mantissa digits
  | pointed {digits fraction : List Char} (h : Digits digits)
      (hfraction : ∀ c ∈ fraction, Text.isDecimal c = true) : Mantissa (digits ++ '.' :: fraction)
  | fraction {digits : List Char} (h : Digits digits) : Mantissa ('.' :: digits)

inductive Power : List Char → Prop
  | absent : Power []
  | present {mark : Char} {sign digits : List Char} (hmark : mark = 'e' ∨ mark = 'E')
      (hsign : Sign sign) (h : Digits digits) : Power (mark :: (sign ++ digits))

def Spelt (s : List Char) : Prop :=
  ∃ sign mantissa power ending, s = sign ++ (mantissa ++ power) ++ ending ∧ Sign sign ∧
    Mantissa mantissa ∧ Power power ∧ (ending = [] ∨ ending = ['\n'])

variable {s rest : List Char}

/-! ## Digits -/

theorem takeWhile_append_of_stop (hs : ∀ c ∈ s, Text.isDecimal c = true)
    (hrest : ∀ c ∈ rest.head?, Text.isDecimal c = false) :
    (s ++ rest).takeWhile Text.isDecimal = s ∧ (s ++ rest).dropWhile Text.isDecimal = rest := by
  rw [List.takeWhile_append_of_pos hs, List.dropWhile_append_of_pos hs]
  cases rest with
  | nil => exact ⟨List.append_nil s, rfl⟩
  | cons c rest =>
    have hc : ¬ Text.isDecimal c = true := Bool.eq_false_iff.1 (hrest c rfl)
    rw [List.takeWhile_cons_of_neg hc, List.dropWhile_cons_of_neg hc]
    exact ⟨List.append_nil s, rfl⟩

theorem digits_takeWhile (h : s.takeWhile Text.isDecimal ≠ []) :
    Digits (s.takeWhile Text.isDecimal) :=
  ⟨h, fun _ hc => List.mem_takeWhile_imp hc⟩

/-! ## Signs -/

theorem exists_sign (s : List Char) : ∃ sign, Sign sign ∧ s = sign ++ (takeSign s).2 := by
  unfold takeSign
  split
  · exact ⟨['+'], .plus, rfl⟩
  · exact ⟨['-'], .minus, rfl⟩
  · exact ⟨[], .absent, rfl⟩

theorem takeSign_append {sign : List Char} (hsign : Sign sign)
    (hrest : ∀ c ∈ rest.head?, c ≠ '+' ∧ c ≠ '-') : (takeSign (sign ++ rest)).2 = rest := by
  cases hsign with
  | absent =>
    rw [List.nil_append, takeSign_of_head]
    · exact fun h => (hrest _ h).1 rfl
    · exact fun h => (hrest _ h).2 rfl
  | plus => rfl
  | minus => rfl

theorem ne_sign_of_isDecimal {c : Char} (h : Text.isDecimal c = true) : c ≠ '+' ∧ c ≠ '-' := by
  constructor <;> rintro rfl <;> exact absurd h (by decide)

/-! ## Exponents -/

theorem isSome_takeExponent_iff : (takeExponent s).isSome = true ↔ Power s := by
  constructor
  · intro h
    cases s with
    | nil => exact .absent
    | cons mark rest =>
      simp only [takeExponent] at h
      split_ifs at h with hpower
      · obtain ⟨hmark, hne, hall⟩ := hpower
        obtain ⟨sign, hsign, hrest⟩ := exists_sign rest
        rw [hrest]
        exact .present hmark hsign ⟨hne, List.all_eq_true.1 hall⟩
      · cases h
  · rintro (_ | ⟨hmark, hsign, hdigits⟩)
    · rfl
    · next mark sign digits =>
      have hrest : (takeSign (sign ++ digits)).2 = digits :=
        takeSign_append hsign fun c hc => ne_sign_of_isDecimal
          (hdigits.decimal c (List.mem_of_mem_head? hc))
      simp only [takeExponent, hrest]
      rw [if_pos ⟨hmark, hdigits.nonempty, List.all_eq_true.2 hdigits.decimal⟩]
      rfl

theorem Power.head (h : Power s) : ∀ c ∈ s.head?, Text.isDecimal c = false ∧ c ≠ '.' := by
  intro c hc
  cases h with
  | absent => cases hc
  | present hmark =>
    cases hc
    obtain rfl | rfl := hmark <;> exact ⟨by decide, by decide⟩

/-! ## Mantissas -/

theorem takeFraction_of_head (h : ∀ c ∈ s.head?, c ≠ '.') : takeFraction s = (none, s) := by
  unfold takeFraction
  split
  · exact absurd rfl (h _ rfl)
  · rfl

theorem exists_mantissa
    (h : ¬ (s.takeWhile Text.isDecimal = [] ∧
      (takeFraction (s.dropWhile Text.isDecimal)).1.getD [] = [])) :
    ∃ mantissa, Mantissa mantissa ∧
      s = mantissa ++ (takeFraction (s.dropWhile Text.isDecimal)).2 := by
  have hjoin : s.takeWhile Text.isDecimal ++ s.dropWhile Text.isDecimal = s :=
    List.takeWhile_append_dropWhile
  unfold takeFraction at h ⊢
  split at h
  · next rest hpoint =>
    rw [hpoint] at hjoin
    have hrest : rest.takeWhile Text.isDecimal ++ rest.dropWhile Text.isDecimal = rest :=
      List.takeWhile_append_dropWhile
    -- Digits may be missing before the point or behind it, but not on both sides.
    by_cases hwhole : s.takeWhile Text.isDecimal = []
    · have hfraction : rest.takeWhile Text.isDecimal ≠ [] := fun hnil => h ⟨hwhole, hnil⟩
      refine ⟨_, .fraction (digits_takeWhile hfraction), ?_⟩
      rw [List.cons_append, hrest, ← hjoin, hwhole, List.nil_append]
    · have hfraction : ∀ c ∈ rest.takeWhile Text.isDecimal, Text.isDecimal c = true :=
        fun _ hc => List.mem_takeWhile_imp hc
      refine ⟨_, .pointed (digits_takeWhile hwhole) hfraction, ?_⟩
      rw [List.append_assoc, List.cons_append, hrest, hjoin]
  · have hwhole : s.takeWhile Text.isDecimal ≠ [] := fun hnil => h ⟨hnil, rfl⟩
    exact ⟨_, .whole (digits_takeWhile hwhole), hjoin.symm⟩

theorem takeFraction_mantissa {mantissa : List Char} (h : Mantissa mantissa)
    (hrest : ∀ c ∈ rest.head?, Text.isDecimal c = false ∧ c ≠ '.') :
    ¬ ((mantissa ++ rest).takeWhile Text.isDecimal = [] ∧
      (takeFraction ((mantissa ++ rest).dropWhile Text.isDecimal)).1.getD [] = []) ∧
    (takeFraction ((mantissa ++ rest).dropWhile Text.isDecimal)).2 = rest := by
  have hstop : ∀ c ∈ rest.head?, Text.isDecimal c = false := fun c hc => (hrest c hc).1
  have hpoint : ∀ more : List Char, ∀ c ∈ ('.' :: more).head?, Text.isDecimal c = false := by
    rintro more c ⟨⟩
    decide
  cases h with
  | whole hdigits =>
    obtain ⟨htake, hdrop⟩ := takeWhile_append_of_stop hdigits.decimal hstop
    rw [htake, hdrop, takeFraction_of_head fun c hc => (hrest c hc).2]
    exact ⟨fun hnone => hdigits.nonempty hnone.1, rfl⟩
  | @pointed digits fraction hdigits hfraction =>
    obtain ⟨htake, hdrop⟩ :=
      takeWhile_append_of_stop hdigits.decimal (hpoint (fraction ++ rest))
    rw [List.append_assoc, List.cons_append, htake, hdrop]
    exact ⟨fun hnone => hdigits.nonempty hnone.1, (takeWhile_append_of_stop hfraction hstop).2⟩
  | @fraction digits hdigits =>
    obtain ⟨htake, hdrop⟩ := takeWhile_append_of_stop hdigits.decimal hstop
    have hnone : ¬ Text.isDecimal '.' = true := by decide
    rw [List.cons_append, List.takeWhile_cons_of_neg hnone, List.dropWhile_cons_of_neg hnone]
    exact ⟨fun hempty => hdigits.nonempty (htake.symm.trans hempty.2), hdrop⟩

theorem Mantissa.head {mantissa : List Char} (h : Mantissa mantissa) (rest : List Char) :
    ∀ c ∈ (mantissa ++ rest).head?, c ≠ '+' ∧ c ≠ '-' := by
  have hdigits : ∀ {digits : List Char}, Digits digits → ∀ rest, ∀ c ∈ (digits ++ rest).head?,
      c ≠ '+' ∧ c ≠ '-' := by
    intro digits hdigits rest c hc
    obtain ⟨first, more, rfl⟩ := List.exists_cons_of_ne_nil hdigits.nonempty
    cases hc
    exact ne_sign_of_isDecimal (hdigits.decimal _ List.mem_cons_self)
  cases h with
  | whole h => exact hdigits h rest
  | pointed h hfraction =>
    rw [List.append_assoc]
    exact hdigits h _
  | fraction h =>
    rintro c ⟨⟩
    decide

/-! ## Line feeds -/

theorem exists_ending (s : List Char) :
    ∃ ending, (ending = [] ∨ ending = ['\n']) ∧ s = Text.dropLineEnd s ++ ending := by
  rw [Text.dropLineEnd]
  split_ifs with hlast
  · exact ⟨['\n'], Or.inr rfl, (List.dropLast_append_getLast? _ hlast).symm⟩
  · exact ⟨[], Or.inl rfl, (List.append_nil s).symm⟩

theorem dropLineEnd_append {ending : List Char} (hs : '\n' ∉ s)
    (hending : ending = [] ∨ ending = ['\n']) : Text.dropLineEnd (s ++ ending) = s := by
  obtain rfl | rfl := hending
  · rw [List.append_nil, Text.dropLineEnd_of_not_mem hs]
  · rw [Text.dropLineEnd, List.getLast?_concat, if_pos rfl, List.dropLast_concat]

theorem not_mem_of_decimals (h : ∀ c ∈ s, Text.isDecimal c = true) : '\n' ∉ s :=
  fun hmem => absurd (h _ hmem) (by decide)

theorem Sign.unbroken {sign : List Char} (h : Sign sign) : '\n' ∉ sign := by
  cases h <;> decide

theorem Mantissa.unbroken {mantissa : List Char} (h : Mantissa mantissa) : '\n' ∉ mantissa := by
  cases h with
  | whole h => exact not_mem_of_decimals h.decimal
  | pointed h hfraction =>
    simp [not_mem_of_decimals h.decimal, not_mem_of_decimals hfraction]
  | fraction h => simp [not_mem_of_decimals h.decimal]

theorem Power.unbroken {power : List Char} (h : Power power) : '\n' ∉ power := by
  cases h with
  | absent => exact List.not_mem_nil
  | present hmark hsign h =>
    obtain rfl | rfl := hmark <;> simp [hsign.unbroken, not_mem_of_decimals h.decimal]

/-! ## Numerals -/

theorem isSome_ofChars? (s : List Char) :
    (ofChars? s).isSome = true ↔
      let digits := (takeSign (Text.dropLineEnd s)).2
      ¬ (digits.takeWhile Text.isDecimal = [] ∧
        (takeFraction (digits.dropWhile Text.isDecimal)).1.getD [] = []) ∧
      (takeExponent (takeFraction (digits.dropWhile Text.isDecimal)).2).isSome = true := by
  rw [ofChars?]
  dsimp only
  split_ifs with hempty
  · exact iff_of_false Bool.false_ne_true fun h => h.1 hempty
  · rw [and_iff_right hempty]
    cases takeExponent _ <;> exact Iff.rfl

theorem isSome_ofChars?_iff : (ofChars? s).isSome = true ↔ Spelt s := by
  rw [isSome_ofChars?]
  constructor
  · rintro ⟨hmantissa, hpower⟩
    obtain ⟨ending, hending, hs⟩ := exists_ending s
    obtain ⟨sign, hsign, hunsigned⟩ := exists_sign (Text.dropLineEnd s)
    obtain ⟨mantissa, hmantissa, hdigits⟩ := exists_mantissa hmantissa
    refine ⟨sign, mantissa, _, ending, ?_, hsign, hmantissa, isSome_takeExponent_iff.1 hpower,
      hending⟩
    rw [← hdigits, ← hunsigned, ← hs]
  · rintro ⟨sign, mantissa, power, ending, rfl, hsign, hmantissa, hpower, hending⟩
    have hunbroken : '\n' ∉ sign ++ (mantissa ++ power) := by
      simp [hsign.unbroken, hmantissa.unbroken, hpower.unbroken]
    rw [dropLineEnd_append hunbroken hending, takeSign_append hsign (hmantissa.head power)]
    obtain ⟨hread, hrest⟩ := takeFraction_mantissa hmantissa hpower.head
    refine ⟨hread, ?_⟩
    rw [hrest]
    exact isSome_takeExponent_iff.2 hpower

theorem ofChars?_eq_none_iff : ofChars? s = none ↔ ¬ Spelt s := by
  rw [← isSome_ofChars?_iff, Option.not_isSome_iff_eq_none]

end Playscript.Numeral
