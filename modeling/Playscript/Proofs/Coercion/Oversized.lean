import Playscript.Coercion
import Playscript.Proofs.Numeral

/-!
# Texts that cannot be coerced

Coercion gives a value for every text but one kind: the integers with more digits than a number may
have. What it does not recognise comes back as it is.
-/
namespace Playscript

namespace Coercion

open Numeral (Oversized)

/-- A text in none of the forms that are read as something else. -/
structure Unrecognised (s : List Char) : Prop where
  unquoted : unquote? s = none
  noEscape : special? s = none
  noTruth : truth? s = none
  noNumeral : Numeral.ofChars? s = none

variable {s : List Char} {fault : Fault}

theorem number?_eq_error_iff :
    number? s = .error fault ↔ fault = .oversizedNumber ∧ Oversized s := by
  rw [← Numeral.exists_value_eq_error_iff, number?]
  cases hn : Numeral.ofChars? s with
  | none => exact iff_of_false (fun h => nomatch h) fun ⟨_, h, _⟩ => nomatch h
  | some n =>
    cases hvalue : n.value with
    | error other => simp [hvalue]
    | ok number => cases number <;> simp [hvalue]

theorem forms_of_oversized (h : Oversized s) :
    unquote? s = none ∧ special? s = none ∧ truth? s = none := by
  obtain ⟨c, rest, rfl, hc⟩ := h.head
  have hother : ∀ x ∈ ['"', '\'', '\\', 't', 'f'], c ≠ x := by
    rintro x hx rfl
    simp only [List.mem_cons, List.not_mem_nil, or_false] at hx
    revert hc
    rcases hx with rfl | rfl | rfl | rfl | rfl <;> decide
  simp only [List.forall_mem_cons, List.not_mem_nil, false_imp_iff, implies_true, and_true]
    at hother
  obtain ⟨hdouble, hsingle, hescape, ht, hf⟩ := hother
  refine ⟨?_, ?_, ?_⟩
  · unfold unquote?
    split
    · next heq => exact (hdouble (List.cons.inj heq).1).elim
    · next heq => exact (hsingle (List.cons.inj heq).1).elim
    · rfl
  · unfold special?
    split
    · next heq => exact (hescape (List.cons.inj heq).1).elim
    · next heq => exact (hescape (List.cons.inj heq).1).elim
    · next heq => exact (hescape (List.cons.inj heq).1).elim
    · rfl
  · unfold truth?
    split
    · next heq => exact (ht (List.cons.inj heq).1).elim
    · next heq => exact (hf (List.cons.inj heq).1).elim
    · rfl

theorem scalar_of_forms (hquoted : unquote? s = none) (hescape : special? s = none)
    (htruth : truth? s = none) :
    scalar s = match number? s with
      | .error fault => .error fault
      | .ok (some v) => .ok v
      | .ok none => .ok (.ofChars s) := by
  cases hnumber : number? s with
  | error fault => simp only [scalar, hquoted, hescape, htruth, hnumber]
  | ok found => cases found <;> simp only [scalar, hquoted, hescape, htruth, hnumber]

theorem scalar_eq_error_iff :
    scalar s = .error fault ↔ fault = .oversizedNumber ∧ Oversized s := by
  constructor
  · intro h
    rw [scalar] at h
    split at h
    · cases h
    split at h
    · cases h
    split at h
    · cases h
    split at h
    · next hnumber =>
      cases h
      exact number?_eq_error_iff.1 hnumber
    · cases h
    · cases h
  · intro h
    obtain ⟨hquoted, hescape, htruth⟩ := forms_of_oversized h.2
    rw [scalar_of_forms hquoted hescape htruth, number?_eq_error_iff.2 h]

theorem ofChars_inj {a b : List Char} : Value.ofChars a = Value.ofChars b ↔ a = b := by
  simp [Value.ofChars, String.ofList_inj]

theorem length_of_unquote? {inner : List Char} (h : unquote? s = some inner) :
    inner.length < s.length := by
  unfold unquote? at h
  split at h
  · split_ifs at h
    cases h
    simp only [List.length_dropLast, List.length_cons]
    omega
  · split_ifs at h
    cases h
    simp only [List.length_dropLast, List.length_cons]
    omega
  · cases h

theorem length_of_special? {c : Char} (h : special? s = some c) : s.length = 2 := by
  unfold special? at h
  split at h
  · rfl
  · rfl
  · rfl
  · cases h

theorem number?_eq_none_iff : number? s = .ok none ↔ Numeral.ofChars? s = none := by
  rw [number?]
  cases Numeral.ofChars? s with
  | none => exact iff_of_true rfl rfl
  | some n =>
    refine iff_of_false (fun h => ?_) fun h => nomatch h
    dsimp only at h
    split at h <;> cases h

theorem number?_ne_text {text : List Char} : number? s ≠ .ok (some (.ofChars text)) := by
  intro h
  rw [number?] at h
  split at h
  · cases h
  · split at h <;> cases h

theorem scalar_eq_self_iff : scalar s = .ok (.ofChars s) ↔ Unrecognised s := by
  constructor
  · intro h
    rw [scalar] at h
    split at h
    · next inner hquoted =>
      have hlength := length_of_unquote? hquoted
      rw [ofChars_inj.1 (Except.ok.inj h)] at hlength
      exact absurd hlength (Nat.lt_irrefl _)
    next hquoted =>
    split at h
    · next c hescape =>
      have hlength := length_of_special? hescape
      rw [← ofChars_inj.1 (Except.ok.inj h)] at hlength
      cases hlength
    next hescape =>
    split at h
    · cases h
    next htruth =>
    split at h
    · cases h
    · next v hnumber =>
      rw [Except.ok.inj h] at hnumber
      exact absurd hnumber number?_ne_text
    · next hnumber => exact ⟨hquoted, hescape, htruth, number?_eq_none_iff.1 hnumber⟩
  · intro h
    rw [scalar_of_forms h.unquoted h.noEscape h.noTruth, number?_eq_none_iff.2 h.noNumeral]

/-! ## Lists -/

/-- The texts of scalars that coercion reads in a text: those between the separating commas, or the
text itself if there is none. -/
def parts (s : List Char) : List (List Char) :=
  match pieces s with
  | [] | [_] => [s]
  | items => items.map Text.trim

theorem restore_eq_error_iff :
    restore s = .error fault ↔
      fault = .oversizedNumber ∧ ∃ part ∈ parts s, Oversized part := by
  have hwhole : scalar s = .error fault ↔
      fault = .oversizedNumber ∧ ∃ part ∈ [s], Oversized part := by
    rw [scalar_eq_error_iff]
    simp only [List.mem_singleton, exists_eq_left]
  rw [restore, array?, parts]
  cases pieces s with
  | nil => exact hwhole
  | cons first rest =>
    cases rest with
    | nil => exact hwhole
    | cons second rest =>
      dsimp only
      cases hitems : (first :: second :: rest).mapM fun item => scalar (Text.trim item) with
      | error other =>
        obtain ⟨item, hitem, hfault⟩ := exists_of_mapM_error hitems
        obtain ⟨rfl, hoversized⟩ := scalar_eq_error_iff.1 hfault
        refine ⟨fun h => ⟨(Except.error.inj h).symm, _, List.mem_map_of_mem hitem, hoversized⟩, ?_⟩
        rintro ⟨rfl, -⟩
        rfl
      | ok values =>
        refine iff_of_false (fun h => nomatch h) ?_
        rintro ⟨-, part, hpart, hoversized⟩
        obtain ⟨item, hitem, rfl⟩ := List.mem_map.1 hpart
        have hfails : Fails ((first :: second :: rest).mapM fun item => scalar (Text.trim item)) :=
          fails_mapM.2 ⟨item, hitem, _, scalar_eq_error_iff.2 ⟨rfl, hoversized⟩⟩
        rw [hitems] at hfails
        exact not_fails_ok values hfails

end Coercion

end Playscript
