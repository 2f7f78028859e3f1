import Mathlib.Algebra.Group.Nat.Even
import Playscript.Proofs.Coercion.Oversized
import Playscript.Proofs.Text.Cutting

/-!
# Separating commas

A comma separates the items of a list if the quotes after it are balanced. In a text with balanced
quotes these are the commas outside quotes, which a scan from the left finds: it is in quotes after
every other quote. A text of which the quotes are not balanced is cut at other commas.
-/
namespace Playscript

namespace Coercion

variable {s : List Char} {c : Char}

/-! ## Balanced quotes -/

theorem balanced_iff (s : List Char) : balanced s = true ↔ Even (s.count '"') := by
  induction s with
  | nil => simp [balanced]
  | cons c rest ih =>
    by_cases hc : c = '"'
    · rw [balanced, if_pos hc, hc, List.count_cons_self, Nat.even_add_one, ← ih]
      cases balanced rest <;> decide
    · rw [balanced, if_neg hc, List.count_cons_of_ne hc, ih]

theorem balanced_of_not_mem (h : '"' ∉ s) : balanced s = true := by
  rw [balanced_iff, List.count_eq_zero_of_not_mem h]
  exact Even.zero

/-! ## Pieces -/

theorem pieces_ne_nil (s : List Char) : pieces s ≠ [] := by
  cases s with
  | nil => exact List.cons_ne_nil _ _
  | cons c rest =>
    rw [pieces]
    split_ifs
    · exact List.cons_ne_nil _ _
    · split <;> exact List.cons_ne_nil _ _

theorem pieces_cons (c : Char) (rest : List Char) :
    pieces (c :: rest) =
      if c = ',' ∧ balanced rest then [] :: pieces rest
      else (pieces rest).modifyHead (c :: ·) := by
  obtain ⟨first, more, hpieces⟩ := List.exists_cons_of_ne_nil (pieces_ne_nil rest)
  rw [pieces, hpieces, List.modifyHead_cons]

theorem balanced_pieces {first : List Char} {more : List (List Char)}
    (h : pieces s = first :: more) :
    balanced first = balanced s ∧ ∀ piece ∈ more, balanced piece = true := by
  induction s generalizing first more with
  | nil =>
    obtain ⟨rfl, rfl⟩ := List.cons.inj h
    exact ⟨rfl, List.forall_mem_nil _⟩
  | cons c rest ih =>
    obtain ⟨second, others, hrest⟩ := List.exists_cons_of_ne_nil (pieces_ne_nil rest)
    obtain ⟨hsecond, hothers⟩ := ih hrest
    rw [pieces_cons, hrest] at h
    split_ifs at h with hcut
    · obtain ⟨rfl, rfl⟩ := List.cons.inj h
      obtain ⟨rfl, hbalanced⟩ := hcut
      refine ⟨?_, List.forall_mem_cons.2 ⟨hsecond.trans hbalanced, hothers⟩⟩
      exact hbalanced.symm
    · obtain ⟨rfl, rfl⟩ := List.cons.inj h
      refine ⟨?_, hothers⟩
      rw [balanced, balanced, hsecond]

theorem balanced_of_mem_pieces (h : balanced s = true) {piece : List Char}
    (hpiece : piece ∈ pieces s) : balanced piece = true := by
  obtain ⟨first, more, hpieces⟩ := List.exists_cons_of_ne_nil (pieces_ne_nil s)
  obtain ⟨hfirst, hmore⟩ := balanced_pieces hpieces
  rw [hpieces] at hpiece
  obtain rfl | hpiece := List.mem_cons.1 hpiece
  · exact hfirst.trans h
  · exact hmore piece hpiece

theorem intercalate_pieces (s : List Char) : [','].intercalate (pieces s) = s := by
  induction s with
  | nil => rfl
  | cons c rest ih =>
    obtain ⟨first, more, hrest⟩ := List.exists_cons_of_ne_nil (pieces_ne_nil rest)
    rw [hrest] at ih
    rw [pieces_cons, hrest]
    split_ifs with hcut
    · rw [List.intercalate_cons_cons, ih, hcut.1]
      rfl
    · rw [List.modifyHead_cons]
      cases more with
      | nil =>
        rw [List.intercalate_singleton] at ih ⊢
        rw [ih]
      | cons second others =>
        rw [List.intercalate_cons_cons] at ih ⊢
        rw [← ih]
        rfl

theorem pieces_eq_splitOn (h : '"' ∉ s) : pieces s = s.splitOn ',' := by
  induction s with
  | nil => rfl
  | cons c rest ih =>
    have hrest := (List.ne_and_not_mem_of_not_mem_cons h).2
    rw [pieces_cons, ih hrest, balanced_of_not_mem hrest, List.splitOn_cons_eq_if_modifyHead]
    simp only [and_true, beq_iff_eq]

/-! ## Lists -/

theorem isItem_iff {v : Value} : isItem v = true ↔ v ≠ .str "" := by
  cases v with
  | str s => simp [isItem]
  | _ => simp [isItem]

theorem array?_eq_none_iff : array? s = .ok none ↔ ¬ 2 ≤ (pieces s).length := by
  rw [array?]
  cases pieces s with
  | nil => simp
  | cons first rest =>
    cases rest with
    | nil => simp
    | cons second rest =>
      refine iff_of_false (fun hnone => ?_) fun hlength => hlength (Nat.le_add_left 2 rest.length)
      dsimp only at hnone
      split at hnone <;> cases hnone

theorem array?_of_pieces (h : 2 ≤ (pieces s).length) {values : List Value}
    (hvalues : (pieces s).map (fun piece => scalar (Text.trim piece)) = values.map .ok) :
    array? s = .ok (some (.list (values.filter isItem))) := by
  have hread := mapM_eq_ok_iff.2 hvalues
  rw [array?]
  cases hpieces : pieces s with
  | nil => simp [hpieces] at h
  | cons first rest =>
    cases rest with
    | nil => simp [hpieces] at h
    | cons second rest =>
      rw [hpieces] at hread
      dsimp only
      rw [hread]

theorem restore_of_not_mem (hquote : '"' ∉ s) (hcomma : ',' ∉ s) : restore s = scalar s := by
  rw [restore, array?, pieces_eq_splitOn hquote, List.splitOn_eq_singleton hcomma]

/-! ## A scan from the left -/

def turned (quoted : Bool) (c : Char) : Bool :=
  if c = '"' then !quoted else quoted

/-- Each character of a text with whether it stands in quotes. -/
def quoting : Bool → List Char → List (Char × Bool)
  | _, [] => []
  | quoted, c :: rest => (c, quoted) :: quoting (turned quoted c) rest

def fields (quoted : Bool) (s : List Char) : List (List Char) :=
  ((quoting quoted s).splitOn (',', false)).map (List.map Prod.fst)

theorem fields_cons (quoted : Bool) (c : Char) (rest : List Char) :
    fields quoted (c :: rest) =
      if c = ',' ∧ quoted = false then [] :: fields (turned quoted c) rest
      else (fields (turned quoted c) rest).modifyHead (c :: ·) := by
  obtain ⟨first, more, hcut⟩ := List.exists_cons_of_ne_nil
    (List.splitOn_ne_nil (',', false) (quoting (turned quoted c) rest))
  rw [fields, quoting, List.splitOn_cons_eq_if_modifyHead, fields, hcut]
  simp only [beq_iff_eq, Prod.mk.injEq]
  split_ifs <;> rfl

theorem balanced_turned {quoted : Bool} {rest : List Char} (h : balanced (c :: rest) = !quoted) :
    balanced rest = !turned quoted c := by
  rw [balanced] at h
  rw [turned]
  split_ifs at h ⊢
  · rw [← h, Bool.not_not]
  · exact h

/-- The commas with balanced quotes after them are those that the scan meets outside quotes, if it
starts in quotes exactly if the quotes of the text are not balanced. -/
theorem pieces_eq_fields {quoted : Bool} (h : balanced s = !quoted) :
    pieces s = fields quoted s := by
  induction s generalizing quoted with
  | nil => rfl
  | cons c rest ih =>
    have hrest := balanced_turned h
    -- A comma leaves the scan where it is, so that the quotes after it tell where that is.
    have hcut : (c = ',' ∧ balanced rest = true) ↔ (c = ',' ∧ quoted = false) := by
      refine and_congr_right fun hc => ?_
      have hunturned : turned quoted c = quoted := by
        rw [hc]
        rfl
      rw [hrest, hunturned, Bool.not_eq_true']
    rw [pieces_cons, fields_cons, ih hrest]
    simp only [hcut]

example :
    pieces "a,\"b,c".toList = ["a,\"b".toList, "c".toList] ∧
      fields false "a,\"b,c".toList = ["a".toList, "\"b,c".toList] := by
  decide

theorem two_le_length_fields_iff {quoted : Bool} :
    2 ≤ (fields quoted s).length ↔ (',', false) ∈ quoting quoted s := by
  rw [fields, List.length_map]
  constructor
  · intro hlength
    by_contra hcomma
    rw [List.splitOn_eq_singleton hcomma] at hlength
    simp at hlength
  · intro hcomma
    obtain ⟨first, second, rest, hcut⟩ := Text.exists_splitOn hcomma
    rw [hcut]
    exact Nat.le_add_left 2 rest.length

theorem pieces_of_even (heven : Even (s.count '"')) : pieces s = fields false s :=
  pieces_eq_fields ((balanced_iff s).2 heven)

/-- A text with balanced quotes is read as a list if and only if it has a comma outside quotes. The
list has the scalars between these commas, without the empty texts. Cutting there leaves the quotes
of every field balanced, and the commas are all that is lost. -/
theorem array_reads_fields (heven : Even (s.count '"')) :
    (array? s = .ok none ↔ (',', false) ∉ quoting false s) ∧
    (∀ values : List Value, (',', false) ∈ quoting false s →
      (fields false s).map (fun field => scalar (Text.trim field)) = values.map .ok →
      array? s = .ok (some (.list (values.filter isItem)))) ∧
    (∀ field ∈ fields false s, Even (field.count '"')) ∧
    [','].intercalate (fields false s) = s := by
  have hpieces := pieces_of_even heven
  refine ⟨?_, fun values hcomma hvalues => ?_, fun field hfield => ?_, ?_⟩
  · rw [array?_eq_none_iff, hpieces, two_le_length_fields_iff]
  · refine array?_of_pieces ?_ (hpieces ▸ hvalues)
    rw [hpieces]
    exact two_le_length_fields_iff.2 hcomma
  · rw [← hpieces] at hfield
    exact (balanced_iff field).1 (balanced_of_mem_pieces ((balanced_iff s).2 heven) hfield)
  · rw [← hpieces]
    exact intercalate_pieces s

theorem array_reads_quoted_fields :
    let s := "\"a, b\",, -1 ,\"\"".toList
    Even (s.count '"') ∧ (',', false) ∈ quoting false s ∧
      (fields false s).map (fun field => scalar (Text.trim field)) =
        [.str "a, b", .str "", .int (-1), .str ""].map .ok ∧
      array? s = .ok (some (.list [.str "a, b", .int (-1)])) := by
  intro s
  have heven : Even (s.count '"') := by decide
  have hcomma : (',', false) ∈ quoting false s := by decide
  have hvalues : (fields false s).map (fun field => scalar (Text.trim field)) =
      [.str "a, b", .str "", .int (-1), .str ""].map .ok := by rfl
  exact ⟨heven, hcomma, hvalues, (array_reads_fields heven).2.1 _ hcomma hvalues⟩

end Coercion

end Playscript
