import Mathlib.Tactic.IntervalCases
import Mathlib.Tactic.SplitIfs
import Playscript.Proofs.Numeral
import Playscript.Timestamp
/-!
# Keeping timestamps

What is written of a timestamp is read back as the same timestamp, and whatever is read as one, from
a text or from a number of seconds, is a date and a time of day that exist.
-/
namespace Playscript

namespace Text

theorem ofDigitChars_lt (total : Nat) {s : List Char} (hs : ∀ c ∈ s, c.isDigit = true) :
    Nat.ofDigitChars 10 s total < (total + 1) * 10 ^ s.length := by
  induction s generalizing total with
  | nil => simp
  | cons c rest ih =>
    obtain ⟨hc, hrest⟩ := List.forall_mem_cons.1 hs
    have hdigit : c.toNat ≤ 57 := (Char.isDigit_iff_toNat.1 hc).2
    have hnext : 10 * total + (c.toNat - '0'.toNat) + 1 ≤ (total + 1) * 10 := by
      have hzero : '0'.toNat = 48 := rfl
      omega
    rw [Nat.ofDigitChars_cons, List.length_cons, Nat.pow_succ', ← Nat.mul_assoc]
    exact Nat.lt_of_lt_of_le (ih _ hrest) (Nat.mul_le_mul_right _ hnext)

end Text

namespace Timestamp

theorem length_padded {width n : Nat} (hw : 0 < width) (hn : n < 10 ^ width) :
    (padded width n).length = width := by
  have hlength : (Nat.toDigits 10 n).length ≤ width :=
    (Nat.length_toDigits_le_iff (by decide) hw).2 hn
  simp only [padded, List.length_append, List.length_replicate]
  omega

theorem isDigit_padded (width n : Nat) : ∀ c ∈ padded width n, c.isDigit = true := by
  intro c hc
  rcases List.mem_append.1 hc with hc | hc
  · rw [List.eq_of_mem_replicate hc]
    rfl
  · exact Text.isDigit_of_mem_toDigits hc

theorem ofDigitChars_padded (width n : Nat) : Nat.ofDigitChars 10 (padded width n) 0 = n := by
  rw [padded, Nat.ofDigitChars_append, Nat.ofDigitChars_replicate_zero, Nat.mul_zero,
    Nat.ofDigitChars_ten_toDigits]

theorem takeDigits_padded {width n : Nat} (hw : 0 < width) (hn : n < 10 ^ width)
    (rest : List Char) : takeDigits width (padded width n ++ rest) = some (n, rest) := by
  have hlength := length_padded hw hn
  have hdigits := isDigit_padded width n
  simp only [takeDigits, List.take_left' hlength, List.drop_left' hlength]
  rw [if_pos ⟨hlength, List.all_eq_true.2 hdigits⟩, Text.digitsValue?_eq hdigits,
    ofDigitChars_padded]
  rfl

theorem takeDigits_two {n : Nat} (hn : n < 100) (rest : List Char) :
    takeDigits 2 (padded 2 n ++ rest) = some (n, rest) := takeDigits_padded (by decide) hn rest

theorem takeDigits_two_nil {n : Nat} (hn : n < 100) : takeDigits 2 (padded 2 n) = some (n, []) := by
  simpa using takeDigits_two hn []

theorem takeDigits_four {n : Nat} (hn : n < 10000) (rest : List Char) :
    takeDigits 4 (padded 4 n ++ rest) = some (n, rest) := takeDigits_padded (by decide) hn rest

theorem takeDigits_lt {count n : Nat} {s rest : List Char}
    (h : takeDigits count s = some (n, rest)) : n < 10 ^ count := by
  simp only [takeDigits] at h
  split_ifs at h with hdigits
  obtain ⟨hlength, hdigits⟩ := hdigits
  have hdigits := List.all_eq_true.1 hdigits
  rw [Text.digitsValue?_eq hdigits] at h
  obtain ⟨rfl, -⟩ := Prod.mk.inj (Option.some.inj h)
  have hlt := Text.ofDigitChars_lt 0 hdigits
  rwa [hlength, Nat.zero_add, Nat.one_mul] at hlt

structure Proper (t : Timestamp) : Prop where
  year : t.year < 10000
  day : Calendar.isDay t.year t.month t.day = true
  time : Calendar.isTime t.hour t.minute t.second = true
  micro : t.micro < 1000000
  offset : ∀ minutes ∈ t.offset, minutes.natAbs < 1440

def Valid (t : Timestamp) : Prop := t.Proper ∧ t.year ≠ 0

theorem valid_epoch : Valid ⟨1970, 1, 1, 0, 0, 0, 0, none⟩ :=
  ⟨⟨by decide, by decide, by decide, by decide, fun _ h => absurd h (Option.not_mem_none _)⟩,
    by decide⟩

theorem isDay_bounds {year month day : Nat} (h : Calendar.isDay year month day = true) :
    month < 100 ∧ day < 100 := by
  simp only [Calendar.isDay, Bool.and_eq_true, decide_eq_true_eq] at h
  obtain ⟨⟨⟨-, hmonth⟩, -⟩, hday⟩ := h
  have hdays : Calendar.daysIn year month ≤ 31 := by
    unfold Calendar.daysIn
    split
    · split_ifs <;> decide
    all_goals decide
  omega

theorem isTime_bounds {hour minute second : Nat}
    (h : Calendar.isTime hour minute second = true) : hour ≤ 23 ∧ minute ≤ 59 ∧ second ≤ 59 := by
  simp only [Calendar.isTime, Bool.and_eq_true, decide_eq_true_eq] at h
  exact ⟨h.1.1, h.1.2, h.2⟩

/-! ## Reading back what was written -/

theorem takeDate_text {year month day : Nat} (hyear : year < 10000)
    (h : Calendar.isDay year month day = true) (rest : List Char) :
    takeDate (padded 4 year ++ '-' :: (padded 2 month ++ '-' :: (padded 2 day ++ rest))) =
      some ((year, month, day), rest) := by
  obtain ⟨hmonth, hday⟩ := isDay_bounds h
  simp [takeDate, takeDigits_four, takeDigits_two, takeChar, hyear, hmonth, hday, h]

theorem takeOffset_offsetText {offset : Option Int}
    (h : ∀ minutes ∈ offset, minutes.natAbs < 1440) :
    takeOffset (offsetText offset) = some offset := by
  cases offset with
  | none => rfl
  | some minutes =>
    have hlt := h minutes rfl
    have hhours : minutes.natAbs / 60 < 100 := by omega
    have hminutes : minutes.natAbs % 60 < 100 := by omega
    by_cases hneg : minutes < 0
    · rw [offsetText, if_pos hneg]
      simp [takeOffset, takeDigits_two, takeDigits_two_nil, takeChar, hhours, hminutes,
        -Nat.cast_natAbs]
      omega
    · rw [offsetText, if_neg hneg]
      simp [takeOffset, takeDigits_two, takeDigits_two_nil, takeChar, hhours, hminutes,
        -Nat.cast_natAbs]
      omega

theorem offsetText_cases (offset : Option Int) :
    offsetText offset = [] ∨ ∃ c rest, offsetText offset = c :: rest ∧ (c = '+' ∨ c = '-') := by
  cases offset with
  | none => exact Or.inl rfl
  | some minutes =>
    refine Or.inr ⟨_, _, rfl, ?_⟩
    split_ifs
    · exact Or.inr rfl
    · exact Or.inl rfl

theorem takeSeconds_text {second micro : Nat} (hsecond : second ≤ 59) (hmicro : micro < 1000000)
    (offset : Option Int) :
    takeSeconds (':' :: (padded 2 second ++
      ((if micro = 0 then [] else '.' :: padded 6 micro) ++ offsetText offset))) =
      some ((second, micro), offsetText offset) := by
  have hdigits : second < 100 := by omega
  have hsmall : ¬ 59 < second := by omega
  by_cases hzero : micro = 0
  · subst hzero
    rcases offsetText_cases offset with hnil | ⟨c, rest, hcons, hc⟩
    · simp [takeSeconds, takeDigits_two_nil, hdigits, hsmall, hnil]
    · rcases hc with rfl | rfl
      all_goals simp [takeSeconds, takeDigits_two, hdigits, hsmall, hcons]
  · have hlength : (padded 6 micro).length = 6 := length_padded (by decide) hmicro
    have hall := isDigit_padded 6 micro
    have hne : padded 6 micro ≠ [] := fun h => by simp [h] at hlength
    have hend : (offsetText offset).takeWhile Char.isDigit = [] ∧
        (offsetText offset).dropWhile Char.isDigit = offsetText offset := by
      rcases offsetText_cases offset with hnil | ⟨c, rest, hcons, hc⟩
      · simp [hnil]
      · rcases hc with rfl | rfl
        all_goals simp [hcons, Char.isDigit]
    have htake : (padded 6 micro ++ offsetText offset).takeWhile Char.isDigit = padded 6 micro := by
      rw [List.takeWhile_append_of_pos hall, hend.1, List.append_nil]
    have hdrop : (padded 6 micro ++ offsetText offset).dropWhile Char.isDigit =
        offsetText offset := by
      rw [List.dropWhile_append_of_pos hall, hend.2]
    have hkept : (padded 6 micro).take 6 = padded 6 micro := List.take_of_length_le (by omega)
    -- The digits are rewritten before anything is said about when there are none.
    simp only [takeSeconds, hzero, if_false, List.cons_append, takeDigits_two hdigits,
      Option.bind_eq_bind, Option.bind_some, hsmall, true_or, if_true, htake, hne, hdrop, hkept,
      Text.digitsValue?_eq hall, ofDigitChars_padded, Option.getD_some, hlength, Nat.sub_self]
    simp [tenTo]

theorem ofIso?_text {t : Timestamp} (h : t.Proper) : ofIso? t.text = some t := by
  obtain ⟨hhour, hminute, hsecond⟩ := isTime_bounds h.time
  have hhour' : t.hour < 100 := by omega
  have hminute' : t.minute < 100 := by omega
  have hlate : ¬ (23 < t.hour ∨ 59 < t.minute) := by omega
  have htext : t.text = padded 4 t.year ++ '-' :: (padded 2 t.month ++ '-' :: (padded 2 t.day ++
      'T' :: (padded 2 t.hour ++ ':' :: (padded 2 t.minute ++ ':' :: (padded 2 t.second ++
        ((if t.micro = 0 then [] else '.' :: padded 6 t.micro) ++ offsetText t.offset)))))) := by
    simp [text]
  rw [htext, ofIso?, takeDate_text h.year h.day]
  simp [takeDigits_two, takeChar, hhour', hminute', takeSeconds_text hsecond h.micro, hlate,
    takeOffset_offsetText h.offset]

theorem check_text {t : Timestamp} (h : t.Valid) : check (.ofChars t.text) = .ok t := by
  simp only [check, Value.ofChars, String.toList_ofList, ofIso?_text h.1, Option.some_or]
  exact if_neg h.2

/-! ## What can be read -/

theorem takeDate_spec {s rest : List Char} {year month day : Nat}
    (h : takeDate s = some ((year, month, day), rest)) :
    year < 10000 ∧ Calendar.isDay year month day = true := by
  simp only [takeDate, Option.bind_eq_bind, Option.bind_eq_some_iff, Prod.exists] at h
  obtain ⟨year', s₁, hyear, s₂, -, month', s₃, -, s₄, -, day', s₅, -, h⟩ := h
  split_ifs at h with hday
  · simp at h
  · simp at h
    obtain ⟨⟨rfl, rfl, rfl⟩, -⟩ := h
    exact ⟨takeDigits_lt hyear, by simpa using hday⟩

theorem micro_lt (s : List Char) :
    (Text.digitsValue? ((s.takeWhile Char.isDigit).take 6)).getD 0 *
      tenTo (6 - ((s.takeWhile Char.isDigit).take 6).length) < 1000000 := by
  have hall : ∀ c ∈ (s.takeWhile Char.isDigit).take 6, c.isDigit = true := fun c hc =>
    List.all_eq_true.1 List.all_takeWhile c (List.mem_of_mem_take hc)
  have hlength : ((s.takeWhile Char.isDigit).take 6).length ≤ 6 := List.length_take_le _ _
  have hlt := Text.ofDigitChars_lt 0 hall
  rw [Text.digitsValue?_eq hall, Option.getD_some]
  generalize ((s.takeWhile Char.isDigit).take 6).length = count at hlength hlt ⊢
  rw [Nat.zero_add, Nat.one_mul] at hlt
  calc
    _ < 10 ^ count * 10 ^ (6 - count) :=
      Nat.mul_lt_mul_of_pos_right hlt (Nat.pow_pos (by decide))
    _ = 10 ^ 6 := by rw [← Nat.pow_add, Nat.add_sub_of_le hlength]

theorem takeSeconds_spec {s rest : List Char} {second micro : Nat}
    (h : takeSeconds s = some ((second, micro), rest)) : second ≤ 59 ∧ micro < 1000000 := by
  unfold takeSeconds at h
  split at h
  · next s =>
    simp only [Option.bind_eq_bind, Option.bind_eq_some_iff, Prod.exists] at h
    obtain ⟨second', s₁, -, h⟩ := h
    split_ifs at h with hlate
    · cases h
    split at h
    · split_ifs at h with hpoint hnone
      · cases h
      · cases h
        exact ⟨by omega, micro_lt _⟩
      · cases h
        exact ⟨by omega, by decide⟩
    · cases h
      exact ⟨by omega, by decide⟩
  · cases h
    decide

theorem takeOffset_spec {s : List Char} {offset : Option Int} (h : takeOffset s = some offset) :
    ∀ minutes ∈ offset, minutes.natAbs < 1440 := by
  unfold takeOffset at h
  split at h
  · cases h
    simp
  · cases h
    simp
  · cases h
    simp
  · dsimp only at h
    split_ifs at h
    · cases h
    · cases h
    all_goals
      simp only [Option.bind_eq_bind, Option.bind_eq_some_iff, Prod.exists] at h
      obtain ⟨hours, s₁, -, minutes, s₂, -, h⟩ := h
      split_ifs at h with hlate
      · cases h
      · simp only [not_or] at hlate
        cases h
        rintro total ⟨⟩
        omega

theorem ofIso?_proper {s : List Char} {t : Timestamp} (h : ofIso? s = some t) : t.Proper := by
  simp only [ofIso?, Option.bind_eq_bind, Option.bind_eq_some_iff, Prod.exists] at h
  obtain ⟨year, month, day, s₁, hdate, h⟩ := h
  split at h
  · cases h
  · split_ifs at h with hseparator
    case neg => cases h
    simp only [Option.bind_eq_some_iff, Prod.exists] at h
    obtain ⟨hour, s₂, -, s₃, -, minute, s₄, -, second, micro, s₅, hseconds, h⟩ := h
    split_ifs at h with hlate
    · cases h
    simp only [Option.bind_eq_some_iff] at h
    obtain ⟨offset, hoffset, h⟩ := h
    obtain ⟨hyear, hday⟩ := takeDate_spec hdate
    obtain ⟨hsecond, hmicro⟩ := takeSeconds_spec hseconds
    cases h
    refine ⟨hyear, hday, ?_, hmicro, takeOffset_spec hoffset⟩
    simp only [Calendar.isTime, Bool.and_eq_true, decide_eq_true_eq]
    omega

theorem ofDate?_proper {s : List Char} {t : Timestamp} (h : ofDate? s = some t) : t.Proper := by
  simp only [ofDate?, Option.bind_eq_bind, Option.bind_eq_some_iff, Prod.exists] at h
  obtain ⟨year, month, day, s₁, hdate, h⟩ := h
  split_ifs at h with hrest
  · cases h
  · obtain ⟨hyear, hday⟩ := takeDate_spec hdate
    cases h
    exact ⟨hyear, hday, rfl, Nat.succ_pos _, fun _ hm => absurd hm (Option.not_mem_none _)⟩

/-! ## Days counted from 1970 -/

section

open Calendar

theorem era_split {e : Nat} (he : e < 146097) : ∃ q p s r, e = 36524 * q + 1461 * p + 365 * s + r ∧
    q ≤ 3 ∧ p ≤ 24 ∧ s ≤ 3 ∧ r ≤ 365 ∧ (r = 365 → s = 3 ∧ (p = 24 → q = 3)) := by
  obtain ⟨q, hq⟩ : ∃ q, q = (e - e / 146096) / 36524 := ⟨_, rfl⟩
  obtain ⟨a, ha⟩ : ∃ a, a = e - 36524 * q := ⟨_, rfl⟩
  have hqe : 36524 * q ≤ e ∧ q ≤ 3 ∧ a ≤ 36524 ∧ (a = 36524 → q = 3) := by omega
  obtain ⟨b, hb⟩ : ∃ b, b = a % 1461 := ⟨_, rfl⟩
  have hab : a = 1461 * (a / 1461) + b ∧ b ≤ 1460 := by omega
  refine ⟨q, a / 1461, (b - b / 1460) / 365, b - 365 * ((b - b / 1460) / 365), ?_⟩
  omega

theorem yearOfEra_eq {e q p s r : Nat} (he : e = 36524 * q + 1461 * p + 365 * s + r)
    (hq : q ≤ 3) (hp : p ≤ 24) (hs : s ≤ 3) (hr : r ≤ 365)
    (hlast : r = 365 → s = 3 ∧ (p = 24 → q = 3)) :
    (e - e / 1460 + e / 36524 - e / 146096) / 365 = 100 * q + 4 * p + s := by
  have hfours : e / 1460 = 25 * q + p + (24 * q + p + 365 * s + r) / 1460 := by omega
  have hcenturies : e / 36524 = q + (1461 * p + 365 * s + r) / 36524 := by omega
  have hera : e / 146096 = (1461 * p + 365 * s + r) / 36524 := by omega
  omega
theorem isLeap_of_last {era q p s : Nat} (hp : p ≤ 24) (hs : s = 3) (hlast : p = 24 → q = 3) :
    isLeap (100 * q + 4 * p + s + 400 * era + 1) = true := by
  have hfour : (100 * q + 4 * p + s + 400 * era + 1) % 4 = 0 := by omega
  have hcentury : (100 * q + 4 * p + s + 400 * era + 1) % 100 ≠ 0 ∨
      (100 * q + 4 * p + s + 400 * era + 1) % 400 = 0 := by
    by_cases hp : p = 24
    · have hq := hlast hp
      right
      omega
    · left
      omega
  simp only [isLeap, hfour, beq_self_eq_true, Bool.true_and, Bool.or_eq_true, bne_iff_ne,
    beq_iff_eq]
  exact hcentury

theorem isDay_shifted {year r : Nat} (hr : r ≤ 365) (hleap : r = 365 → isLeap year = true) :
    isDay year (if (5 * r + 2) / 153 < 10 then (5 * r + 2) / 153 + 3 else (5 * r + 2) / 153 - 9)
      (r - (153 * ((5 * r + 2) / 153) + 2) / 5 + 1) = true := by
  obtain ⟨k, hk⟩ : ∃ k, k = (5 * r + 2) / 153 := ⟨_, rfl⟩
  have hk' : k ≤ 11 := by omega
  rw [← hk]
  simp only [isDay, Bool.and_eq_true, decide_eq_true_eq]
  interval_cases k <;> simp [daysIn] <;> try omega
  split_ifs with h
  · omega
  · have := mt hleap h
    omega

theorem year_lt {n e q p s r : Nat} (hn : n ≤ 3652364) (he : e = n % 146097)
    (hsplit : e = 36524 * q + 1461 * p + 365 * s + r) (hq : q ≤ 3) (hp : p ≤ 24) (hs : s ≤ 3) :
    100 * q + 4 * p + s + 400 * (n / 146097) +
      (if (if (5 * r + 2) / 153 < 10 then (5 * r + 2) / 153 + 3 else (5 * r + 2) / 153 - 9) ≤ 2
        then 1 else 0) < 10000 := by
  obtain ⟨k, hk⟩ : ∃ k, k = n / 146097 := ⟨_, rfl⟩
  have hk' : n = 146097 * k + e := by omega
  rw [← hk]
  clear he hk
  have hle : k ≤ 24 := by omega
  by_cases hlast : k = 24 ∧ 100 * q + 4 * p + s = 399
  · have hr : r ≤ 305 := by omega
    have hmonth : (5 * r + 2) / 153 < 10 := by omega
    rw [if_pos hmonth, if_neg (by omega)]
    omega
  · have hyears : 100 * q + 4 * p + s + 400 * k < 9999 := by omega
    split_ifs <;> omega

theorem dateOfDays_spec (days : Int) :
    isDay (dateOfDays days).1 (dateOfDays days).2.1 (dateOfDays days).2.2 = true ∧
      (days ≤ 2932896 → (dateOfDays days).1 < 10000) := by
  obtain ⟨n, hn⟩ : ∃ n, n = (days + 719468).toNat := ⟨_, rfl⟩
  have hnine : days ≤ 2932896 → n ≤ 3652364 := by omega
  obtain ⟨e, he⟩ : ∃ e, e = n % 146097 := ⟨_, rfl⟩
  obtain ⟨q, p, s, r, hsplit, hq, hp, hs, hr, hlast⟩ := era_split (by omega : e < 146097)
  have hyear := yearOfEra_eq hsplit hq hp hs hr hlast
  have hfours : (100 * q + 4 * p + s) / 4 = 25 * q + p := by omega
  have hcenturies : (100 * q + 4 * p + s) / 100 = q := by omega
  have hday : e - (365 * (100 * q + 4 * p + s) + (25 * q + p) - q) = r := by omega
  simp only [dateOfDays, ← hn, ← he, hyear, hfours, hcenturies, hday]
  constructor
  · apply isDay_shifted hr
    intro hlastday
    obtain ⟨hs3, hq3⟩ := hlast hlastday
    have hmonth : (if (5 * r + 2) / 153 < 10 then (5 * r + 2) / 153 + 3
        else (5 * r + 2) / 153 - 9) ≤ 2 := by
      rw [if_neg (by omega)]
      omega
    rw [if_pos hmonth]
    exact isLeap_of_last hp hs3 hq3
  · exact fun hdays => year_lt (hnine hdays) he hsplit hq hp hs

end

theorem ofSeconds?_proper {second : Int} {micro : Nat} {t : Timestamp}
    (h : ofSeconds? second micro = some t) : t.Proper := by
  simp only [ofSeconds?] at h
  split_ifs at h with hrange
  obtain ⟨hday, hyear⟩ := dateOfDays_spec ((second + (micro / 1000000 : Nat)).fdiv 86400)
  have hdays : (second + (micro / 1000000 : Nat)).fdiv 86400 ≤ 2932896 := by
    rw [Int.fdiv_eq_ediv_of_nonneg _ (by decide)]
    omega
  have hinDay : ((second + (micro / 1000000 : Nat)).fmod 86400).toNat < 86400 := by
    rw [Int.fmod_eq_emod_of_nonneg _ (by decide)]
    omega
  cases h
  refine ⟨hyear hdays, hday, ?_, Nat.mod_lt _ (by decide), by simp⟩
  simp only [Calendar.isTime, Bool.and_eq_true, decide_eq_true_eq]
  omega

theorem ofInt?_proper {n : Int} {t : Timestamp} (h : ofInt? n = some t) : t.Proper := by
  rw [ofInt?] at h
  split_ifs at h
  · exact ofSeconds?_proper h
  · exact ofSeconds?_proper h

theorem ofNumber?_proper {x : Binary64} {t : Timestamp} (h : ofNumber? x = some t) : t.Proper := by
  rw [ofNumber?] at h
  split_ifs at h
  · unfold ofMilliseconds? at h
    split at h
    · exact ofSeconds?_proper h
    · cases h
  · unfold ofSecondsWithFraction? at h
    split at h
    · dsimp only at h
      split at h
      · exact ofSeconds?_proper h
      · cases h
    · cases h

theorem ofNumberText?_proper {s : List Char} {t : Timestamp} (h : ofNumberText? s = some t) :
    t.Proper := by
  rw [ofNumberText?] at h
  split at h
  · exact ofInt?_proper h
  · obtain ⟨x, -, h⟩ := Option.bind_eq_some_iff.1 h
    exact ofNumber?_proper h

theorem valid_of_keep {t u : Timestamp} (ht : t.Proper) (h : keep t = .ok u) : u.Valid := by
  by_cases hyear : t.year = 0
  · have hkeep : keep t = Check.defect .outOfRangeTime := if_pos hyear
    cases hkeep.symm.trans h
  · have hkeep : keep t = .ok t := if_neg hyear
    cases hkeep.symm.trans h
    exact ⟨ht, hyear⟩

theorem valid_of_keep? {given : Option Timestamp} {u : Timestamp}
    (hgiven : ∀ t, given = some t → t.Proper) (h : keep? given = .ok u) : u.Valid := by
  cases given with
  | none => cases h
  | some t => exact valid_of_keep (hgiven t rfl) h

theorem valid_of_check {v : Value} {t : Timestamp} (h : check v = .ok t) : t.Valid := by
  cases v with
  | str s =>
    simp only [check] at h
    split at h
    · next u hread =>
      refine valid_of_keep ?_ h
      rcases Option.or_eq_some_iff.1 hread with hread | ⟨-, hread⟩
      · rcases Option.or_eq_some_iff.1 hread with hread | ⟨-, hread⟩
        · exact ofIso?_proper hread
        · exact ofNumberText?_proper hread
      · exact ofDate?_proper hread
    · cases h
  | int n =>
    simp only [check] at h
    split_ifs at h
    · exact valid_of_keep? (fun _ => ofInt?_proper) h
    · split at h
      · exact valid_of_keep? (fun _ => ofNumber?_proper) h
      · cases h
  | float x => exact valid_of_keep? (fun _ => ofNumber?_proper) h
  | null | bool | list | tuple | dict => cases h

end Timestamp

end Playscript
