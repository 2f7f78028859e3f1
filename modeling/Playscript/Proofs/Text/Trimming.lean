import Mathlib.Data.List.DropRight
import Mathlib.Tactic.SplitIfs
import Playscript.Text.Blank

/-!
# Trimmed texts

Trimming drops blanks at the ends of a text and nothing else. A text is trimmed if it neither starts
nor ends with a blank, and then trimming does not find it again in what is put around it.
-/
namespace Playscript.Text

theorem trim_subset (s : List Char) : trim s ⊆ s :=
  List.Subset.trans (List.rdropWhile_prefix isBlank (trimLeft s)).subset
    (List.dropWhile_suffix isBlank).subset

theorem trimLeft_of_head {s : List Char} (h : ∀ c ∈ s.head?, isBlank c = false) :
    trimLeft s = s := by
  cases s with
  | nil => rfl
  | cons c rest => simp only [trimLeft, List.dropWhile_cons, h c rfl, Bool.false_eq_true, if_false]

theorem trimLeft_head (s : List Char) : ∀ c ∈ (trimLeft s).head?, isBlank c = false := by
  intro c hc
  have h := List.head?_dropWhile_not isBlank s
  simp only [trimLeft] at hc
  rw [hc] at h
  simpa using h

theorem trimRight_eq (s : List Char) : trimRight s = s.rdropWhile isBlank := rfl

theorem trim_head (s : List Char) : ∀ c ∈ (trim s).head?, isBlank c = false := by
  obtain ⟨rest, hrest⟩ : trim s <+: trimLeft s := List.rdropWhile_prefix isBlank (trimLeft s)
  intro c hc
  refine trimLeft_head s c ?_
  rw [← hrest]
  exact List.mem_head?_append_of_mem_head? hc

theorem trim_trim (s : List Char) : trim (trim s) = trim s := by
  rw [trim, trimLeft_of_head (trim_head s), trim, trimRight_eq, trimRight_eq,
    List.rdropWhile_idempotent]

theorem isBlank_getLast_of_trim {s : List Char} (h : trim s = s) (hne : s ≠ []) :
    isBlank (s.getLast hne) = false := by
  have hright : s.rdropWhile isBlank = s := by
    rw [← h, trim, trimRight_eq, List.rdropWhile_idempotent]
  exact Bool.eq_false_iff.2 (List.rdropWhile_eq_self_iff.1 hright hne)

theorem trim_of_prefix {s t : List Char} (ht : trim t = t) (hs : s <+: t) : trim s <+: t := by
  have hhead : ∀ c ∈ s.head?, isBlank c = false := by
    obtain ⟨rest, rfl⟩ := hs
    intro c hc
    refine trim_head (s ++ rest) c ?_
    rw [ht]
    exact List.mem_head?_append_of_mem_head? hc
  rw [trim, trimLeft_of_head hhead]
  exact (List.rdropWhile_prefix isBlank s).trans hs

theorem trim_of_ends {s : List Char} (hhead : ∀ c ∈ s.head?, isBlank c = false)
    (hlast : ∀ c ∈ s.getLast?, isBlank c = false) : trim s = s := by
  rw [trim, trimLeft_of_head hhead, trimRight_eq, List.rdropWhile_eq_self_iff]
  exact fun hne => Bool.eq_false_iff.1 (hlast _ (List.getLast_mem_getLast? hne))

theorem trim_of_forall {s : List Char} (h : ∀ c ∈ s, isBlank c = false) : trim s = s := by
  rw [trim, trimLeft_of_head fun c hc => h c (List.mem_of_mem_head? hc), trimRight_eq,
    List.rdropWhile_eq_self_iff]
  exact fun hne => Bool.eq_false_iff.1 (h _ (List.getLast_mem hne))

theorem trim_append {s : List Char} (hs : trim s = s) (hne : s ≠ []) (t : List Char) :
    trim (s ++ t) = s ++ trimRight t := by
  have hhead : ∀ c ∈ (s ++ t).head?, isBlank c = false := by
    intro c hc
    rw [List.head?_append_of_ne_nil _ hne] at hc
    exact trim_head s c (by rwa [hs])
  rw [trim, trimLeft_of_head hhead]
  clear hhead
  induction t using List.reverseRecOn with
  | nil =>
    have hright : s.rdropWhile isBlank = s := by
      rw [List.rdropWhile_eq_self_iff]
      exact fun hne => Bool.eq_false_iff.1 (isBlank_getLast_of_trim hs hne)
    rw [List.append_nil, trimRight_eq, hright]
    exact (List.append_nil s).symm
  | append_singleton rest c ih =>
    rw [← List.append_assoc, trimRight_eq, trimRight_eq, List.rdropWhile_concat,
      List.rdropWhile_concat]
    split_ifs
    · exact ih
    · exact List.append_assoc _ _ _

theorem isBlank_getLast?_of_trim {s : List Char} (h : trim s = s) :
    ∀ c ∈ s.getLast?, isBlank c = false := by
  intro c hc
  obtain ⟨hne, rfl⟩ := List.mem_getLast?_eq_getLast hc
  exact isBlank_getLast_of_trim h hne

theorem trim_cons_blank {c : Char} (hc : isBlank c = true) (s : List Char) :
    trim (c :: s) = trim s := by
  rw [trim, trimLeft, List.dropWhile_cons_of_pos hc]
  rfl

theorem trim_concat_blank {c : Char} (hc : isBlank c = true) (s : List Char) :
    trim (s ++ [c]) = trim s := by
  have hone : [c].dropWhile isBlank = [] := List.dropWhile_cons_of_pos hc
  rw [trim, trim, trimLeft, trimLeft, List.dropWhile_append, hone]
  cases s.dropWhile isBlank with
  | nil => rfl
  | cons first rest => exact List.rdropWhile_concat_pos _ _ _ hc

theorem trim_padded {before after : List Char} (hbefore : ∀ c ∈ before, isBlank c = true)
    (hafter : ∀ c ∈ after, isBlank c = true) (s : List Char) :
    trim (before ++ s ++ after) = trim s := by
  induction after using List.reverseRecOn with
  | nil =>
    rw [List.append_nil]
    induction before with
    | nil => rfl
    | cons c rest ih =>
      obtain ⟨hc, hrest⟩ := List.forall_mem_cons.1 hbefore
      rw [List.cons_append, trim_cons_blank hc, ih hrest]
  | append_singleton rest c ih =>
    obtain ⟨hrest, hc⟩ := List.forall_mem_append.1 hafter
    rw [← List.append_assoc, trim_concat_blank (hc c (List.mem_singleton_self c)), ih hrest]

theorem exists_padded (s : List Char) : ∃ before after, s = before ++ trim s ++ after ∧
    (∀ c ∈ before, isBlank c = true) ∧ ∀ c ∈ after, isBlank c = true := by
  refine ⟨s.takeWhile isBlank, (trimLeft s).rtakeWhile isBlank, ?_, ?_, ?_⟩
  · rw [trim, trimRight_eq, List.append_assoc, List.rdropWhile_append_rtakeWhile, trimLeft,
      List.takeWhile_append_dropWhile]
  · exact fun c hc => List.mem_takeWhile_imp hc
  · exact fun c hc => List.mem_rtakeWhile_imp hc

theorem trim_trimRight (s : List Char) : trim (trimRight s) = trim s := by
  induction s using List.reverseRecOn with
  | nil => rfl
  | append_singleton rest c ih =>
    rw [trimRight_eq, List.rdropWhile_concat]
    split_ifs with hc
    · rw [← trimRight_eq, ih, trim_concat_blank hc]
    · rfl

end Playscript.Text
