import Mathlib.Data.List.DropRight
import Mathlib.Data.List.Infix
import Mathlib.Tactic.SplitIfs
import Playscript.Compiler
import Playscript.Proofs.Script.Pieces

/-!
# Continued lines

Line breaks are found in the joined lines of a body, by the continuation marker and the joining
texts after it. If lines are joined by single spaces and the marker has none, a marker stands within
one line, so that each line can be ended on its own: by a line feed in place of a marker at its end,
or by a space.
-/
namespace Playscript.Compiler

open Script (Line)

def ended (marker : List Char) (line : Line) : List Char :=
  if marker <:+ line then line.rdrop marker.length ++ ['\n'] else line ++ [' ']

def continued (marker : List Char) : List Line → List Char
  | [] => []
  | [last] => last
  | line :: next :: rest => ended marker line ++ continued marker (next :: rest)

theorem ended_self (marker : List Char) : ended marker marker = ['\n'] := by
  rw [ended, if_pos List.suffix_rfl, List.rdrop, Nat.sub_self, List.take_zero, List.nil_append]

theorem ended_nil {marker : List Char} (hne : marker ≠ []) : ended marker [] = [' '] :=
  if_neg fun h => hne (List.suffix_nil.1 h)

theorem ended_cons {marker rest : List Char} {c : Char} (h : marker ≠ c :: rest) :
    ended marker (c :: rest) = c :: ended marker rest := by
  rw [ended, ended]
  by_cases hend : marker <:+ rest
  · have hlength := hend.length_le
    rw [if_pos hend, if_pos (hend.trans (List.suffix_cons c rest)), List.rdrop, List.rdrop,
      List.length_cons, Nat.succ_sub hlength, List.take_succ_cons, List.cons_append]
  · rw [if_neg hend, if_neg fun hcons => (List.suffix_cons_iff.1 hcons).elim h hend,
      List.cons_append]

/-! ## Where a line break is -/

variable {marker line rest : List Char}

theorem repeats_eq_zero (h : rest.head? ≠ some ' ') (limit : Nat) :
    repeats [' '] limit rest = 0 := by
  cases limit with
  | zero => rfl
  | succ limit =>
    rw [repeats, if_neg]
    intro hstart
    obtain ⟨more, rfl⟩ := List.isPrefixOf_iff_prefix.1 hstart
    exact h rfl

theorem breakLength_of_no_space (hrest : rest.head? ≠ some ' ') :
    breakLength marker [' '] (marker ++ rest) = 0 := by
  rw [breakLength, if_pos (List.isPrefixOf_iff_prefix.2 (List.prefix_append _ _)),
    if_neg (List.cons_ne_nil _ _), List.drop_left, repeats_eq_zero hrest]

theorem breakLength_of_space (hrest : rest.head? ≠ some ' ') :
    breakLength marker [' '] (marker ++ ' ' :: rest) = marker.length + 1 := by
  have hspaces : repeats [' '] (marker ++ ' ' :: rest).length (' ' :: rest) = 1 := by
    rw [List.length_append, List.length_cons, ← Nat.add_assoc, repeats,
      if_pos (show [' '].isPrefixOf (' ' :: rest) = true from
        List.isPrefixOf_iff_prefix.2 ⟨rest, rfl⟩)]
    exact congrArg (· + 1) (repeats_eq_zero hrest _)
  rw [breakLength, if_pos (List.isPrefixOf_iff_prefix.2 (List.prefix_append _ _)),
    if_neg (List.cons_ne_nil _ _), List.drop_left, hspaces, List.length_singleton]

theorem prefix_of_prefix_append (hspace : ' ' ∉ marker) (h : marker <+: line ++ ' ' :: rest) :
    marker <+: line := by
  obtain hshort | ⟨more, rfl⟩ := List.prefix_or_prefix_of_prefix h (List.prefix_append line _)
  · exact hshort
  · cases more with
    | nil => rw [List.append_nil]
    | cons c more =>
      have hmore := (List.prefix_append_right_inj line).1 h
      obtain ⟨rfl, -⟩ := List.cons_prefix_cons.1 hmore
      exact (hspace (by simp)).elim

theorem breakLength_within (hspace : ' ' ∉ marker) (hline : ¬ marker ++ [' '] <:+: line)
    {tail : List Char} (htail : tail = [] ∨ tail.head? = some ' ' ∧ marker ≠ line) :
    breakLength marker [' '] (line ++ tail) = 0 := by
  by_cases hmarker : marker <+: line ++ tail
  · have hstart : marker <+: line := by
      obtain rfl | ⟨hhead, -⟩ := htail
      · rwa [List.append_nil] at hmarker
      · obtain ⟨rest, rfl⟩ := List.head?_eq_some_iff.1 hhead
        exact prefix_of_prefix_append hspace hmarker
    obtain ⟨after, rfl⟩ := hstart
    have hafter : (after ++ tail).head? ≠ some ' ' := by
      cases after with
      | nil =>
        obtain rfl | ⟨-, hne⟩ := htail
        · exact fun h => nomatch h
        · exact (hne (List.append_nil _).symm).elim
      | cons c more =>
        intro h
        obtain rfl : c = ' ' := Option.some.inj h
        exact hline ⟨[], more, by simp⟩
    rw [List.append_assoc, breakLength_of_no_space hafter]
  · rw [breakLength, if_neg (mt List.isPrefixOf_iff_prefix.1 hmarker)]

/-! ## Line by line -/

theorem breakLinesFrom_skip (marker join skipped rest : List Char) :
    breakLinesFrom marker join skipped.length (skipped ++ rest) =
      breakLinesFrom marker join 0 rest := by
  induction skipped with
  | nil => rfl
  | cons c more ih => exact ih

theorem breakLinesFrom_keep {c : Char} (h : breakLength marker [' '] (c :: rest) = 0) :
    breakLinesFrom marker [' '] 0 (c :: rest) = c :: breakLinesFrom marker [' '] 0 rest := by
  rw [breakLinesFrom, h]

theorem not_infix_tail {c : Char} (h : ¬ marker ++ [' '] <:+: c :: line) :
    ¬ marker ++ [' '] <:+: line := fun hmore => h (hmore.trans (List.suffix_cons c line).isInfix)

theorem breakLinesFrom_line (hne : marker ≠ []) (hspace : ' ' ∉ marker)
    (hline : ¬ marker ++ [' '] <:+: line) (hrest : rest.head? ≠ some ' ') :
    breakLinesFrom marker [' '] 0 (line ++ ' ' :: rest) =
      ended marker line ++ breakLinesFrom marker [' '] 0 rest := by
  induction line with
  | nil =>
    have hnone : breakLength marker [' '] ([] ++ ' ' :: rest) = 0 :=
      breakLength_within hspace hline (Or.inr ⟨rfl, hne⟩)
    rw [ended_nil hne, List.nil_append, breakLinesFrom_keep hnone, List.singleton_append]
  | cons c more ih =>
    by_cases hmarker : marker = c :: more
    · have hbreak : breakLength marker [' '] (c :: (more ++ ' ' :: rest)) = marker.length + 1 := by
        have hspace : breakLength marker [' '] (marker ++ ' ' :: rest) = marker.length + 1 :=
          breakLength_of_space hrest
        rwa [hmarker] at hspace ⊢
      have hlength : marker.length = (more ++ [' ']).length := by
        rw [hmarker, List.length_append, List.length_cons, List.length_singleton]
      rw [List.cons_append, breakLinesFrom, hbreak, hlength, ← hmarker, ended_self]
      exact congrArg ('\n' :: ·) (List.append_cons more ' ' rest ▸ breakLinesFrom_skip ..)
    · have hnone : breakLength marker [' '] (c :: more ++ ' ' :: rest) = 0 :=
        breakLength_within hspace hline (Or.inr ⟨rfl, hmarker⟩)
      rw [List.cons_append] at hnone ⊢
      rw [breakLinesFrom_keep hnone, ih (not_infix_tail hline), ended_cons hmarker,
        List.cons_append]

theorem breakLinesFrom_last (hspace : ' ' ∉ marker) (hline : ¬ marker ++ [' '] <:+: line) :
    breakLinesFrom marker [' '] 0 line = line := by
  induction line with
  | nil => rfl
  | cons c more ih =>
    have hnone := breakLength_within hspace hline (Or.inl rfl)
    rw [List.append_nil] at hnone
    rw [breakLinesFrom_keep hnone, ih (not_infix_tail hline)]

/-- A line of a body: it is not empty, has no blanks at its ends, and no marker in it is followed by
a space. -/
structure Continuable (marker : List Char) (line : Line) : Prop where
  nonempty : line ≠ []
  trimmed : Text.trim line = line
  unbroken : ¬ marker ++ [' '] <:+: line

theorem Continuable.head (h : Continuable marker line) : line.head? ≠ some ' ' := by
  intro hhead
  rw [← h.trimmed] at hhead
  exact absurd (Text.trim_head line ' ' hhead) (by decide)

theorem Continuable.head_intercalate (h : Continuable marker line) (rest : List Line) :
    ([' '].intercalate (line :: rest)).head? ≠ some ' ' := by
  cases rest with
  | nil => rw [List.intercalate_singleton]; exact h.head
  | cons next rest =>
    rw [List.intercalate_cons_cons, List.append_assoc, List.head?_append_of_ne_nil _ h.nonempty]
    exact h.head

theorem breakLinesFrom_lines (hne : marker ≠ []) (hspace : ' ' ∉ marker) {lines : List Line}
    (hlines : ∀ line ∈ lines, Continuable marker line) :
    breakLinesFrom marker [' '] 0 ([' '].intercalate lines) = continued marker lines := by
  match lines with
  | [] => rfl
  | [last] =>
    rw [List.intercalate_singleton, continued,
      breakLinesFrom_last hspace (hlines last (List.mem_singleton_self last)).unbroken]
  | line :: next :: rest =>
    have hrest := List.forall_mem_cons.1 hlines
    have hnext := (hrest.2 next List.mem_cons_self).head_intercalate rest
    rw [List.intercalate_cons_cons, List.append_assoc, List.singleton_append,
      breakLinesFrom_line hne hspace hrest.1.unbroken hnext,
      breakLinesFrom_lines hne hspace hrest.2, continued]

/-- Breaking the joined lines is ending each line on its own. -/
theorem joinLines_eq_continued {settings : Record} {marker : List Char} {lines : List Line}
    (hjoin : Settings.textOf settings "join" [' '] = [' '])
    (hmarker : Settings.textOf settings "new_line" ['\\'] = marker)
    (hne : marker ≠ []) (hspace : ' ' ∉ marker)
    (hlines : ∀ line ∈ lines, Continuable marker line) :
    joinLines settings lines = continued marker lines := by
  rw [joinLines, hjoin, hmarker, breakLines, if_neg hne, breakLinesFrom_lines hne hspace hlines]

/-- A marker that overlaps itself, at the end of a longer line, as a whole line, and at the end of
the last line. -/
theorem overlapping_marker_continued :
    joinLines [("new_line", .str "aa")] ["baaa".toList, "aa".toList, "aab".toList, "c aa".toList] =
      "ba\n\naab c aa".toList := by
  have hlines : ∀ line ∈ ["baaa".toList, "aa".toList, "aab".toList, "c aa".toList],
      Continuable ['a', 'a'] line := by
    simp only [List.forall_mem_cons, List.not_mem_nil, false_implies, implies_true, and_true]
    exact ⟨⟨by decide, by decide, by decide⟩, ⟨by decide, by decide, by decide⟩,
      ⟨by decide, by decide, by decide⟩, ⟨by decide, by decide, by decide⟩⟩
  rw [joinLines_eq_continued rfl rfl (by decide) (by decide) hlines]
  decide

end Playscript.Compiler
