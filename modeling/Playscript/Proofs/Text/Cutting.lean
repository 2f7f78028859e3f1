import Mathlib.Tactic.SplitIfs

/-!
# Cut texts

The pieces of a text that is cut have the characters of the text, without those it is cut at. Joined
by what it was cut at, they give the text back.
-/
namespace Playscript.Text

theorem forall_splitOnP_iff {cut : Char → Bool} {P : List Char → Prop} {s : List Char}
    (hnil : P []) (hcons : ∀ c ∈ s, cut c = false → ∀ rest, ¬ P (c :: rest)) :
    (∀ piece ∈ s.splitOnP cut, P piece) ↔ ∀ c ∈ s, cut c = true := by
  induction s with
  | nil => simp [hnil]
  | cons c rest ih =>
    obtain ⟨hc, hrest⟩ := List.forall_mem_cons.1 hcons
    rw [List.splitOnP_cons_eq_if_modifyHead, List.forall_mem_cons, ← ih hrest]
    by_cases hcut : cut c = true
    · rw [if_pos hcut, List.forall_mem_cons]
      exact and_congr_left fun _ => iff_of_true hnil hcut
    · rw [if_neg hcut]
      refine iff_of_false (fun hall => ?_) fun hall => hcut hall.1
      cases hsplit : rest.splitOnP cut with
      | nil => exact List.splitOnP_ne_nil _ _ hsplit
      | cons piece more =>
        rw [hsplit] at hall
        exact hc (Bool.eq_false_iff.2 hcut) piece (hall _ List.mem_cons_self)

theorem of_mem_splitOnP {α : Type} {cut : α → Bool} {s piece : List α} {c : α}
    (h : piece ∈ s.splitOnP cut) (hc : c ∈ piece) : c ∈ s ∧ cut c = false := by
  induction s generalizing piece with
  | nil =>
    rw [List.splitOnP_nil, List.mem_singleton] at h
    rw [h] at hc
    cases hc
  | cons d rest ih =>
    have hmore : ∀ {piece}, piece ∈ rest.splitOnP cut → c ∈ piece → c ∈ d :: rest ∧ cut c = false :=
      fun hpiece hmem => (ih hpiece hmem).imp_left (List.mem_cons_of_mem d)
    rw [List.splitOnP_cons_eq_if_modifyHead] at h
    split_ifs at h with hcut
    · obtain rfl | h := List.mem_cons.1 h
      · cases hc
      · exact hmore h hc
    · obtain ⟨first, more, hsplit⟩ := List.exists_cons_of_ne_nil (List.splitOnP_ne_nil cut rest)
      rw [hsplit] at hmore
      rw [hsplit, List.modifyHead_cons] at h
      obtain rfl | h := List.mem_cons.1 h
      · obtain rfl | hc := List.mem_cons.1 hc
        · exact ⟨List.mem_cons_self, Bool.eq_false_iff.2 hcut⟩
        · exact hmore List.mem_cons_self hc
      · exact hmore (List.mem_cons_of_mem _ h) hc

section

variable {α : Type} [BEq α] [LawfulBEq α] {x : α} {s : List α}

theorem of_mem_splitOn {piece : List α} {c : α} (h : piece ∈ s.splitOn x) (hc : c ∈ piece) :
    c ∈ s ∧ c ≠ x :=
  (of_mem_splitOnP h hc).imp_right fun hcut => by simpa using hcut

theorem exists_splitOn (h : x ∈ s) :
    ∃ first second rest, s.splitOn x = first :: second :: rest := by
  have hjoin : [x].intercalate (s.splitOn x) = s := List.intercalate_splitOn x
  match hpieces : s.splitOn x with
  | [] => exact absurd hpieces (List.splitOn_ne_nil _ _)
  | [piece] =>
    rw [hpieces, List.intercalate_singleton] at hjoin
    rw [← hjoin] at h
    exact absurd rfl (of_mem_splitOn (hpieces ▸ List.mem_singleton_self piece) h).2
  | first :: second :: rest => exact ⟨first, second, rest, rfl⟩

end

theorem of_mem_intercalate {separator : List Char} {parts : List (List Char)} {c : Char}
    (hc : c ∈ separator.intercalate parts) : c ∈ separator ∨ ∃ part ∈ parts, c ∈ part := by
  match parts with
  | [] => cases hc
  | [part] =>
    rw [List.intercalate_singleton] at hc
    exact Or.inr ⟨part, List.mem_singleton_self part, hc⟩
  | part :: next :: rest =>
    rw [List.intercalate_cons_cons, List.append_assoc] at hc
    obtain hc | hc := List.mem_append.1 hc
    · exact Or.inr ⟨part, List.mem_cons_self, hc⟩
    · obtain hc | hc := List.mem_append.1 hc
      · exact Or.inl hc
      · refine (of_mem_intercalate hc).imp_right fun ⟨other, hother, hmem⟩ => ?_
        exact ⟨other, List.mem_cons_of_mem _ hother, hmem⟩

end Playscript.Text
