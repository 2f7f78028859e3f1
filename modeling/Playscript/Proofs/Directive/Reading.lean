import Playscript.Directive
import Playscript.Proofs.Script.Pieces

/-!
# Reading directives

Whatever follows the marker reads as a directive. A keyword stands at the start of a trimmed text
with a space after it, so that there is always a key behind it.
-/
namespace Playscript

namespace Text

theorem words_ne_nil {s : List Char} {c : Char} (hc : c ∈ s) (hblank : isBlank c = false) :
    words s ≠ [] := by
  intro hnil
  have hpieces : ∀ piece ∈ s.splitOnP isBlank, piece = [] := by
    simpa [words, List.filter_eq_nil_iff] using hnil
  have hall := (forall_splitOnP_iff (P := (· = [])) rfl fun _ _ _ => List.cons_ne_nil _).1 hpieces
  rw [hall c hc] at hblank
  cases hblank

theorem words_append {word : List Char} (hne : word ≠ []) (hword : ∀ c ∈ word, isBlank c = false)
    (rest : List Char) : words (word ++ ' ' :: rest) = word :: words rest := by
  rw [words, List.splitOnP_append_cons_of_forall_mem hword ' ' isBlank_space, List.filter_cons,
    if_pos (decide_eq_true hne), words]

end Text

namespace Directive

theorem exists_keyed (make : List Char → List Char → Directive) {word s : List Char}
    (hne : word ≠ []) (hword : ∀ c ∈ word, Text.isBlank c = false)
    (htrim : Text.trim s = s) (hstart : word ++ [' '] <+: s) :
    ∃ directive, keyed make s = .ok directive := by
  obtain ⟨rest, rfl⟩ := hstart
  rw [List.append_assoc, List.singleton_append] at htrim ⊢
  have hlast : ∃ c ∈ rest, Text.isBlank c = false := by
    have hend := Text.isBlank_getLast_of_trim htrim (by simp)
    rw [List.getLast_append_of_ne_nil _ (List.cons_ne_nil _ _)] at hend
    cases rest with
    | nil => exact absurd hend (by decide)
    | cons c more =>
      rw [List.getLast_cons (List.cons_ne_nil _ _)] at hend
      exact ⟨_, List.getLast_mem _, hend⟩
  obtain ⟨c, hc, hblank⟩ := hlast
  obtain ⟨key, values, hwords⟩ := List.exists_cons_of_ne_nil (Text.words_ne_nil hc hblank)
  rw [keyed, Text.words_append hne hword, hwords]
  exact ⟨_, rfl⟩

theorem exists_setting? {s : List Char} (htrim : Text.trim s = s) :
    ∃ found, setting? s = .ok found := by
  rw [setting?]
  split_ifs with hstart
  · obtain ⟨directive, hkeyed⟩ := exists_keyed .setting (List.cons_ne_nil 'p' ['a', 'r', 's', 'e'])
      (by simp [Text.isBlank]) htrim (List.isPrefixOf_iff_prefix.1 hstart)
    exact ⟨some directive, by rw [hkeyed]; rfl⟩
  · exact ⟨none, rfl⟩

theorem exists_use? {s : List Char} (htrim : Text.trim s = s) : ∃ found, use? s = .ok found := by
  rw [use?]
  split_ifs with hstart
  · obtain ⟨directive, hkeyed⟩ := exists_keyed .use (List.cons_ne_nil 'u' ['s', 'e'])
      (by simp [Text.isBlank]) htrim (List.isPrefixOf_iff_prefix.1 hstart)
    exact ⟨some directive, by rw [hkeyed]; rfl⟩
  · exact ⟨none, rfl⟩

theorem exists_ofChars (s : List Char) : ∃ directive, ofChars s = .ok directive := by
  obtain ⟨setting, hsetting⟩ := exists_setting? (Text.trim_trim s)
  obtain ⟨use, huse⟩ := exists_use? (Text.trim_trim s)
  simp only [ofChars, hsetting, huse, bind, Except.bind]
  cases setting with
  | some directive => exact ⟨directive, rfl⟩
  | none => cases use <;> exact ⟨_, rfl⟩

theorem run_store {s : List Char} {directive : Directive} (h : ofChars s = .ok directive)
    (scope : Scope) (d : Draft) : (store scope s).run d = (perform scope directive).run d := by
  rw [store, h]
  rfl

end Directive

end Playscript
