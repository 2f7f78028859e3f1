import Playscript.Proofs.Text.Cutting
import Playscript.Proofs.Text.Trimming
import Playscript.Script.Placeholder

/-!
# Pieces of a content

The pieces of a text are its text again, and only the inside of a token can change without moving
the boundaries between pieces: whatever each token is replaced by, if it is not empty and has no
braces, scanning the new text finds the replaced pieces. Bare names are replacements of this kind.
-/
namespace Playscript

namespace Script

def Braceless (s : List Char) : Prop := '\x7b' ∉ s ∧ '\x7d' ∉ s

theorem braceless_nil : Braceless [] := ⟨List.not_mem_nil, List.not_mem_nil⟩

theorem Braceless.cons {c : Char} {s : List Char} (hopen : c ≠ '\x7b') (hclose : c ≠ '\x7d')
    (h : Braceless s) : Braceless (c :: s) :=
  ⟨fun hmem => (List.mem_cons.1 hmem).elim hopen.symm h.1,
    fun hmem => (List.mem_cons.1 hmem).elim hclose.symm h.2⟩

theorem Braceless.reverse {s : List Char} (h : Braceless s) : Braceless s.reverse :=
  ⟨fun hmem => h.1 (List.mem_reverse.1 hmem), fun hmem => h.2 (List.mem_reverse.1 hmem)⟩

theorem Braceless.of_cons {c : Char} {s : List Char} (h : Braceless (c :: s)) :
    c ≠ '\x7b' ∧ c ≠ '\x7d' ∧ Braceless s :=
  ⟨fun he => h.1 (he ▸ List.mem_cons_self), fun he => h.2 (he ▸ List.mem_cons_self),
    fun hmem => h.1 (List.mem_cons_of_mem _ hmem), fun hmem => h.2 (List.mem_cons_of_mem _ hmem)⟩

namespace Piece

def sources (pieces : List Piece) : List Char := pieces.flatMap source

@[simp] theorem sources_cons (piece : Piece) (pieces : List Piece) :
    sources (piece :: pieces) = piece.source ++ sources pieces := List.flatMap_cons

@[simp] theorem sources_append (xs ys : List Piece) :
    sources (xs ++ ys) = sources xs ++ sources ys := List.flatMap_append

@[simp] theorem sources_chars (s : List Char) : sources (s.map .char) = s := by
  induction s with
  | nil => rfl
  | cons c rest ih => rw [List.map_cons, sources_cons, ih]; rfl

/-! ## Scanning across boundaries -/

theorem scanFrom_some_nil (pending : List Char) :
    scanFrom (some pending) [] = .char '\x7b' :: pending.reverse.map .char := rfl

theorem scanFrom_none_cons (c : Char) (rest : List Char) :
    scanFrom none (c :: rest) =
      if c = '\x7b' then scanFrom (some []) rest else .char c :: scanFrom none rest := rfl

theorem scanFrom_some_cons (pending : List Char) (c : Char) (rest : List Char) :
    scanFrom (some pending) (c :: rest) =
      if c = '\x7b' then
        .char '\x7b' :: (pending.reverse.map .char ++ scanFrom (some []) rest)
      else if c = '\x7d' then
        if pending = [] then .char '\x7b' :: .char '\x7d' :: scanFrom none rest
        else .token pending.reverse :: scanFrom none rest
      else scanFrom (some (c :: pending)) rest := rfl

theorem scanFrom_braceless {s : List Char} (h : Braceless s) (pending rest : List Char) :
    scanFrom (some pending) (s ++ rest) = scanFrom (some (s.reverse ++ pending)) rest := by
  induction s generalizing pending with
  | nil => rfl
  | cons c tail ih =>
    obtain ⟨hopen, hclose, htail⟩ := h.of_cons
    simp only [List.cons_append, scanFrom_some_cons, hopen, hclose, if_false, ih htail,
      List.reverse_cons, List.append_assoc, List.nil_append]

theorem scan_token {inside : List Char} (h : Braceless inside) (hne : inside ≠ [])
    (rest : List Char) :
    scan (source (.token inside) ++ rest) = .token inside :: scan rest := by
  have hreverse : inside.reverse ≠ [] := List.reverse_ne_nil_iff.2 hne
  simp [scan, source, scanFrom_none_cons, scanFrom_some_cons, scanFrom_braceless h, hreverse]

theorem scan_open {s : List Char} (h : Braceless s) (rest : List Char) :
    scan ('\x7b' :: (s ++ '\x7b' :: rest)) =
      .char '\x7b' :: (s.map .char ++ scan ('\x7b' :: rest)) := by
  simp [scan, scanFrom_none_cons, scanFrom_some_cons, scanFrom_braceless h]

theorem scan_unclosed {s : List Char} (h : Braceless s) :
    scan ('\x7b' :: s) = .char '\x7b' :: s.map .char := by
  have hs := scanFrom_braceless h [] []
  rw [List.append_nil, List.append_nil] at hs
  simp [scan, scanFrom_none_cons, scanFrom_some_nil, hs]

theorem scan_char {c : Char} (hopen : c ≠ '\x7b') (rest : List Char) :
    scan (c :: rest) = .char c :: scan rest := by
  simp only [scan, scanFrom_none_cons, hopen, if_false]

/-! ## Replacing the insides of tokens -/

def mapInside (f : List Char → List Char) : Piece → Piece
  | .char c => .char c
  | .token inside => .token (f inside)

theorem map_mapInside_chars (f : List Char → List Char) (s : List Char) :
    (s.map Piece.char).map (mapInside f) = s.map .char := by
  rw [List.map_map]
  rfl

theorem sources_scanFrom_some (f : List Char → List Char) (pending s : List Char) :
    ∃ rest, sources ((scanFrom (some pending) s).map (mapInside f)) = '\x7b' :: rest := by
  induction s generalizing pending with
  | nil => exact ⟨_, rfl⟩
  | cons c tail ih =>
    rw [scanFrom_some_cons]
    split_ifs
    · exact ⟨_, rfl⟩
    · exact ⟨_, rfl⟩
    · exact ⟨_, rfl⟩
    · exact ih _

theorem scanFrom_mapInside {f : List Char → List Char}
    (hf : ∀ inside, Braceless inside → inside ≠ [] → Braceless (f inside) ∧ f inside ≠ [])
    (pending : Option (List Char)) (hpending : ∀ s ∈ pending, Braceless s) (s : List Char) :
    scan (sources ((scanFrom pending s).map (mapInside f))) =
      (scanFrom pending s).map (mapInside f) := by
  induction s generalizing pending with
  | nil =>
    cases pending with
    | none => rfl
    | some pending =>
      simp only [scanFrom_some_nil, List.map_cons, map_mapInside_chars, mapInside, sources_cons,
        sources_chars]
      exact scan_unclosed (hpending pending rfl).reverse
  | cons c tail ih =>
    cases pending with
    | none =>
      rw [scanFrom_none_cons]
      split_ifs with hopen
      · exact ih (some []) fun s hs => Option.some.inj hs ▸ braceless_nil
      · simp only [List.map_cons, mapInside, sources_cons, source, List.singleton_append]
        rw [scan_char hopen, ih none fun _ hs => absurd hs (Option.not_mem_none _)]
    | some pending =>
      have hpending := hpending pending rfl
      rw [scanFrom_some_cons]
      split_ifs with hopen hclose hempty
      · have hrest := ih (some []) fun s hs => Option.some.inj hs ▸ braceless_nil
        obtain ⟨rest, heq⟩ := sources_scanFrom_some f [] tail
        simp only [List.map_cons, List.map_append, map_mapInside_chars, mapInside, sources_cons,
          sources_append, sources_chars, source, List.singleton_append]
        rw [heq] at hrest ⊢
        rw [scan_open hpending.reverse, hrest]
      · simp only [List.map_cons, mapInside, sources_cons, source, List.singleton_append]
        have hrest := ih none fun _ hs => absurd hs (Option.not_mem_none _)
        simp only [scan, scanFrom_none_cons, scanFrom_some_cons, if_true] at hrest ⊢
        rw [hrest]
        rfl
      · obtain ⟨hbraceless, hne⟩ := hf _ hpending.reverse (List.reverse_ne_nil_iff.2 hempty)
        simp only [List.map_cons, mapInside, sources_cons]
        rw [scan_token hbraceless hne, ih none fun _ hs => absurd hs (Option.not_mem_none _)]
      · exact ih (some (c :: pending)) fun s hs =>
          Option.some.inj hs ▸ hpending.cons hopen hclose

theorem scan_mapInside {f : List Char → List Char}
    (hf : ∀ inside, Braceless inside → inside ≠ [] → Braceless (f inside) ∧ f inside ≠ [])
    (s : List Char) : scan (sources ((scan s).map (mapInside f))) = (scan s).map (mapInside f) :=
  scanFrom_mapInside hf none (fun _ hs => absurd hs (Option.not_mem_none _)) s

end Piece

/-! ## Bare names -/

namespace Placeholder

theorem isNameChar_eq_false :
    ∀ c ∈ ['\x7b', '\x7d', '|', '\\', '\n', '\r'], isNameChar c = false := by
  simp only [List.forall_mem_cons, List.not_mem_nil, false_imp_iff, implies_true, and_true]
  refine ⟨?_, ?_, ?_, ?_, ?_, ?_⟩
  all_goals decide +kernel

theorem not_mem_name {name : List Char} {c : Char} (hname : name.all isNameChar = true)
    (hc : isNameChar c = false) : c ∉ name := fun hmem =>
  Bool.eq_false_iff.1 hc (List.all_eq_true.1 hname c hmem)

theorem ofInside?_some {inside : List Char} {p : Placeholder} (h : ofInside? inside = some p) :
    p.name.toList ≠ [] ∧ p.name.toList.all isNameChar ∧
      Text.trim p.name.toList = p.name.toList := by
  rw [ofInside?] at h
  split at h
  · cases h
  · next name defaults hsplit =>
    by_cases hname : name ≠ [] ∧ name.all isNameChar
    case neg =>
      rw [if_neg hname] at h
      cases h
    rw [if_pos hname] at h
    obtain rfl := Option.some.inj h
    have hmem : name ∈ (inside.splitOn '|').map Text.trim := hsplit ▸ List.mem_cons_self
    obtain ⟨raw, -, rfl⟩ := List.mem_map.1 hmem
    simp only [String.toList_ofList]
    exact ⟨hname.1, hname.2, Text.trim_trim raw⟩

theorem ofInside?_name {inside : List Char} {p : Placeholder} (h : ofInside? inside = some p) :
    ofInside? p.name.toList = some ⟨p.name, none⟩ := by
  obtain ⟨hne, hchars, htrim⟩ := ofInside?_some h
  have hbar : '|' ∉ p.name.toList := not_mem_name hchars (isNameChar_eq_false _ (by decide))
  simp only [ofInside?, List.splitOn_eq_singleton hbar, List.map_cons, List.map_nil, htrim]
  rw [if_pos ⟨hne, hchars⟩, String.ofList_toList]
  rfl

def bareInside (inside : List Char) : List Char :=
  match ofInside? inside with
  | none => inside
  | some p => p.name.toList

theorem bareInside_braceless (inside : List Char) (h : Braceless inside) (hne : inside ≠ []) :
    Braceless (bareInside inside) ∧ bareInside inside ≠ [] := by
  rw [bareInside]
  split
  · exact ⟨h, hne⟩
  · next p hp =>
    obtain ⟨hname, hchars, -⟩ := ofInside?_some hp
    have hopen := not_mem_name hchars (isNameChar_eq_false '\x7b' (by decide))
    have hclose := not_mem_name hchars (isNameChar_eq_false '\x7d' (by decide))
    exact ⟨⟨hopen, hclose⟩, hname⟩

def ofPiece? : Piece → Option Placeholder
  | .char _ => none
  | .token inside => ofInside? inside

end Placeholder

namespace Piece

def bare : Piece → Piece := mapInside Placeholder.bareInside

theorem scan_bare (content : List Char) :
    scan (sources ((scan content).map bare)) = (scan content).map bare :=
  scan_mapInside Placeholder.bareInside_braceless content

end Piece

end Script

end Playscript
