import Playscript.Proofs.Coercion.Separators
import Playscript.Proofs.Coercion.Shown
import Playscript.Proofs.Numeral.Grammar
import Playscript.Proofs.Text.Decimal

/-!
# Coercing what was shown

A message shows truth values, integers and texts as a directive would write them. Reading such a
text gives the value back with its type, if a text is not itself in the form of something else, and
the same holds of lists of several such values.
-/
namespace Playscript

namespace Coercion

open Numeral (Oversized Spelt)

structure PlainText (s : List Char) : Prop where
  nonempty : s ≠ []
  trimmed : Text.trim s = s
  unseparated : ',' ∉ s
  unquoted : '"' ∉ s
  unwrapped : ∀ inner, s ≠ '\'' :: (inner ++ ['\''])
  noEscape : s ∉ [['\\', 'n'], ['\\', 't'], ['\\', 's']]
  noTruth : s ∉ ["true".toList, "false".toList]
  noNumeral : ¬ Spelt s

inductive Simple : Value → Prop
  | bool (b : Bool) : Simple (.bool b)
  | int {n : Int} (h : (Nat.toDigits 10 n.natAbs).length ≤ digitLimit) : Simple (.int n)
  | text {s : String} (h : PlainText s.toList) : Simple (.str s)

variable {s : List Char} {v : Value}

theorem PlainText.unrecognised (h : PlainText s) : Unrecognised s where
  unquoted := by
    unfold unquote?
    split
    · exact absurd List.mem_cons_self h.unquoted
    · next rest =>
      refine if_neg fun hlast => h.unwrapped rest.dropLast ?_
      rw [List.dropLast_append_getLast? _ hlast]
    · rfl
  noEscape := by
    unfold special?
    split
    · exact absurd h.noEscape (by decide)
    · exact absurd h.noEscape (by decide)
    · exact absurd h.noEscape (by decide)
    · rfl
  noTruth := by
    unfold truth?
    split
    · exact absurd h.noTruth (by decide)
    · exact absurd h.noTruth (by decide)
    · rfl
  noNumeral := Numeral.ofChars?_eq_none_iff.2 h.noNumeral

/-! ## Integers -/

theorem truth?_decimal (k : Int) : truth? (Text.decimal k) = none := by
  cases htruth : truth? (Text.decimal k) with
  | none => rfl
  | some b =>
    have hshown := truth?_eq_some htruth
    cases b with
    | true =>
      have hmem : 't' ∈ Text.decimal k := hshown ▸ List.mem_cons_self
      exact absurd hmem (Text.not_mem_decimal (by decide) k)
    | false =>
      have hmem : 's' ∈ Text.decimal k := hshown ▸ by decide
      exact absurd hmem (Text.not_mem_decimal (by decide) k)

theorem scalar_decimal {k : Int} (h : (Nat.toDigits 10 k.natAbs).length ≤ digitLimit) :
    scalar (Text.decimal k) = .ok (.int k) := by
  have hplain : Unescaped (Text.decimal k) := {
    double := Text.not_mem_decimal (by decide) k
    single := Text.not_mem_decimal (by decide) k
    escape := Text.not_mem_decimal (by decide) k }
  have hsize : ¬ Oversized (Text.decimal k) := by
    rw [Numeral.oversized_decimal_iff]
    exact Nat.not_lt.2 h
  rw [scalar_of_forms hplain.unquote? hplain.special? (truth?_decimal k), number?_decimal hsize]

/-! ## Scalars -/

theorem Simple.scalar_render (h : Simple v) : scalar v.render = .ok v := by
  cases h with
  | bool b => cases b <;> rfl
  | int h => exact scalar_decimal h
  | @text s h =>
    rw [Value.render_str, scalar_eq_self_iff.2 h.unrecognised, Value.ofChars, String.ofList_toList]

theorem Simple.shows (h : Simple v) :
    ',' ∉ v.render ∧ '"' ∉ v.render ∧ Text.trim v.render = v.render := by
  cases h with
  | bool b => cases b <;> decide
  | @int n h =>
    exact ⟨Text.not_mem_decimal (by decide) n, Text.not_mem_decimal (by decide) n,
      Text.trim_decimal n⟩
  | text h =>
    rw [Value.render_str]
    exact ⟨h.unseparated, h.unquoted, h.trimmed⟩

theorem Simple.isItem (h : Simple v) : isItem v = true := by
  rw [isItem_iff]
  rintro rfl
  cases h with
  | text h => exact h.nonempty rfl

theorem restore_render_scalar (h : Simple v) : restore v.render = .ok v := by
  obtain ⟨hcomma, hquote, -⟩ := h.shows
  rw [restore_of_not_mem hquote hcomma, h.scalar_render]

/-! ## Lists -/

theorem render_list (items : List Value) :
    (Value.list items).render = [','].intercalate (items.map Value.render) := by
  rw [Value.render, Value.renderItems_eq_map]

theorem pieces_render_list {items : List Value} (hne : items ≠ [])
    (h : ∀ v ∈ items, Simple v) : pieces (Value.list items).render = items.map Value.render := by
  have hcomma : ∀ part ∈ items.map Value.render, ',' ∉ part := by
    intro part hpart
    obtain ⟨v, hv, rfl⟩ := List.mem_map.1 hpart
    exact (h v hv).shows.1
  have hquote : '"' ∉ [','].intercalate (items.map Value.render) := by
    intro hmem
    obtain hmem | ⟨part, hpart, hmem⟩ := Text.of_mem_intercalate hmem
    · exact absurd hmem (by decide)
    · obtain ⟨v, hv, rfl⟩ := List.mem_map.1 hpart
      exact (h v hv).shows.2.1 hmem
  rw [render_list, pieces_eq_splitOn hquote,
    List.splitOn_intercalate ',' hcomma (mt List.map_eq_nil_iff.1 hne)]

theorem restore_render_list {items : List Value} (hlength : 2 ≤ items.length)
    (h : ∀ v ∈ items, Simple v) : restore (Value.list items).render = .ok (.list items) := by
  have hne : items ≠ [] := by
    rintro rfl
    cases hlength
  have hpieces := pieces_render_list hne h
  have hread : array? (Value.list items).render =
      .ok (some (.list (items.filter isItem))) := by
    apply array?_of_pieces
    · rwa [hpieces, List.length_map]
    · rw [hpieces, List.map_map]
      refine List.map_congr_left fun v hv => ?_
      rw [Function.comp_apply, (h v hv).shows.2.2, (h v hv).scalar_render]
  rw [restore, hread, List.filter_eq_self.2 fun v hv => (h v hv).isItem]

/-- Coercion gives back what was shown: a list of several truth values, integers within the limit
and plain texts, and each of these alone, whether a list may be read or not. -/
theorem coercion_undoes_rendering :
    (∀ items : List Value, 2 ≤ items.length → (∀ v ∈ items, Simple v) →
      restore (Value.list items).render = .ok (.list items)) ∧
    ∀ v : Value, Simple v → restore v.render = .ok v ∧ scalar v.render = .ok v :=
  ⟨fun _ hlength h => restore_render_list hlength h,
    fun _ h => ⟨restore_render_scalar h, h.scalar_render⟩⟩

theorem coercion_undoes_mixed_list :
    let items : List Value := [.bool false, .int (-70), .str "'tis 5e"]
    2 ≤ items.length ∧ (∀ v ∈ items, Simple v) ∧
      restore (Value.list items).render = .ok (.list items) ∧
      restore (Value.render (.int (-70))) = .ok (.int (-70)) := by
  intro items
  have htext : PlainText "'tis 5e".toList := {
    nonempty := by decide
    trimmed := by decide
    unseparated := by decide
    unquoted := by decide
    unwrapped := fun inner heq => by
      have hlast := congrArg List.getLast? heq
      rw [← List.cons_append, List.getLast?_concat] at hlast
      exact absurd hlast (by decide)
    noEscape := by decide
    noTruth := by decide
    noNumeral := Numeral.ofChars?_eq_none_iff.1 rfl }
  have hint : Simple (.int (-70)) := .int (by decide)
  have hitems : ∀ v ∈ items, Simple v := by
    simp only [items, List.forall_mem_cons]
    exact ⟨.bool false, hint, .text htext, List.forall_mem_nil _⟩
  obtain ⟨hlists, hscalars⟩ := coercion_undoes_rendering
  exact ⟨by decide, hitems, hlists items (by decide) hitems, (hscalars _ hint).1⟩

end Coercion

end Playscript
