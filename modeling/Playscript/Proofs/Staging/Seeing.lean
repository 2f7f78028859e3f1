import Mathlib.Algebra.Order.BigOperators.Group.List
import Mathlib.Algebra.Order.Ring.Nat
import Playscript.Proofs.Staging.Filling

/-!
# What a placeholder sees

A placeholder takes its value from two entries of the context: the one under the first segment of
its path and the one under its whole name. A content shows no more of the context, unless the name
of a placeholder is made of points only: its path is empty and leads to the context itself.
-/
namespace Playscript

open Script (Piece Placeholder)

/-! ## Names of points -/

theorem Text.trim_cons_ne_nil {c : Char} (hc : isBlank c = false) (rest : List Char) :
    trim (c :: rest) ≠ [] := by
  have hhead : ∀ x ∈ (c :: rest).head?, isBlank x = false := fun x hx => by
    rwa [← Option.some.inj hx]
  rw [trim, trimLeft_of_head hhead, trimRight_eq]
  intro hnil
  rw [List.rdropWhile_eq_nil_iff.1 hnil c List.mem_cons_self] at hc
  cases hc

theorem Text.isBlank_of_isAlphanum {c : Char} (h : c.isAlphanum = true) : isBlank c = false := by
  have hbetween : ∀ first last : Char, 0x20 < first.toNat → last.toNat < 0x85 →
      first.val ≤ c.val → c.val ≤ last.val → isBlank c = false := by
    intro first last hfirst hlast hlow hhigh
    have hlow : first.toNat ≤ c.toNat := hlow
    have hhigh : c.toNat ≤ last.toNat := hhigh
    simp only [isBlank, Bool.or_eq_false_iff, Bool.and_eq_false_iff, decide_eq_false_iff_not,
      beq_eq_false_iff_ne]
    omega
  have hkinds : ((c.isUpper || c.isLower) || c.isDigit) = true := h
  simp only [Bool.or_eq_true] at hkinds
  obtain (hupper | hlower) | hdigit := hkinds
  · obtain ⟨hlow, hhigh⟩ := of_decide_eq_true hupper
    exact hbetween 'A' 'Z' (by decide) (by decide) hlow hhigh
  · obtain ⟨hlow, hhigh⟩ := (Bool.and_eq_true _ _).mp hlower
    exact hbetween 'a' 'z' (by decide) (by decide) (of_decide_eq_true hlow)
      (of_decide_eq_true hhigh)
  · obtain ⟨hlow, hhigh⟩ := (Bool.and_eq_true _ _).mp hdigit
    exact hbetween '0' '9' (by decide) (by decide) (of_decide_eq_true hlow)
      (of_decide_eq_true hhigh)

theorem Text.isBlank_of_alphanumericRanges {c : Char}
    (h : inRanges alphanumericRanges c.toNat = true) : isBlank c = false := by
  obtain ⟨range, hmem, hfirst, hlast⟩ := inRanges_eq_true_iff.1 h
  -- `Nat.blt` on literals is a single step of the kernel, so the table is run through quickly.
  have hapart : ∀ first last,
      (alphanumericRanges.all fun range => range.2.blt first || last.blt range.1) = true →
      ¬ (first ≤ c.toNat ∧ c.toNat ≤ last) := by
    rintro first last hall ⟨hn, hn'⟩
    have hrange := List.all_eq_true.1 hall range hmem
    simp only [Bool.or_eq_true, Nat.blt_eq] at hrange
    omega
  have hne : ∀ n, (alphanumericRanges.all fun range => range.2.blt n || n.blt range.1) = true →
      c.toNat ≠ n := fun n hall hn => hapart n n hall ⟨hn.ge, hn.le⟩
  rw [← Bool.not_eq_true, isBlank]
  simp only [Bool.or_eq_true, Bool.and_eq_true, decide_eq_true_eq, beq_iff_eq, not_or, and_assoc]
  refine ⟨hapart _ _ ?_, hapart _ _ ?_, hne _ ?_, hne _ ?_, hne _ ?_, hapart _ _ ?_, hne _ ?_,
    hne _ ?_, hne _ ?_, hne _ ?_, hne _ ?_⟩
  all_goals decide +kernel

theorem Script.isBlank_of_isNameChar {c : Char} (h : isNameChar c = true) :
    Text.isBlank c = false := by
  simp only [isNameChar, Text.isWord, Bool.or_eq_true, beq_iff_eq] at h
  obtain ((((halphanum | rfl) | hrange) | rfl) | rfl) | rfl := h
  · exact Text.isBlank_of_isAlphanum halphanum
  · rfl
  · exact Text.isBlank_of_alphanumericRanges hrange
  all_goals rfl

namespace Path

theorem ofChars_eq_nil_iff {s : List Char} (h : ∀ c ∈ s, Text.isBlank c = false) :
    ofChars s = [] ↔ ∀ c ∈ s, c = '.' := by
  have hpieces : ofChars s = [] ↔ ∀ piece ∈ s.splitOn '.', Text.trim piece = [] := by
    simp [ofChars, List.filter_eq_nil_iff]
  rw [hpieces, List.splitOn, Text.forall_splitOnP_iff (P := fun piece => Text.trim piece = [])
    Text.trim_nil fun c hc _ rest => Text.trim_cons_ne_nil (h c hc) rest]
  simp only [beq_iff_eq]

end Path

theorem Script.Placeholder.path_eq_nil_iff {content : List Char} {p : Placeholder}
    (h : p ∈ ofContent content) :
    Path.ofString p.name = [] ↔ ∀ c ∈ p.name.toList, c = '.' := by
  obtain ⟨inside, -, hinside⟩ := mem_ofContent.1 h
  obtain ⟨-, hname, -⟩ := ofInside?_some hinside
  exact Path.ofChars_eq_nil_iff fun c hc =>
    isBlank_of_isNameChar (List.all_eq_true.1 hname c hc)

/-! ## Texts put together -/

section

variable {α β ε : Type}

theorem flatten_map_inj {f g : α → List β} {xs : List α}
    (hlength : ∀ x ∈ xs, (f x).length = (g x).length)
    (h : (xs.map f).flatten = (xs.map g).flatten) : ∀ x ∈ xs, f x = g x := by
  induction xs with
  | nil => exact fun x hx => nomatch hx
  | cons x rest ih =>
    obtain ⟨hx, hrest⟩ := List.forall_mem_cons.1 hlength
    obtain ⟨hfirst, hmore⟩ := List.append_inj h hx
    exact List.forall_mem_cons.2 ⟨hfirst, ih hrest hmore⟩

theorem length_flatten_lt {f g : α → List β} {a b : List β} {xs : List α}
    (h : ∀ x ∈ xs, f x = g x ∨ f x = a ∧ g x = b) (hx : ∃ x ∈ xs, f x = a ∧ g x = b)
    (hlt : a.length < b.length) : (xs.map f).flatten.length < (xs.map g).flatten.length := by
  rw [List.length_flatten, List.length_flatten, List.map_map, List.map_map]
  refine List.sum_lt_sum _ _ (fun x hmem => ?_) ?_
  · obtain heq | ⟨hf, hg⟩ := h x hmem
    · exact (congrArg List.length heq).le
    · simpa only [Function.comp_apply, hf, hg] using hlt.le
  · obtain ⟨x, hmem, hf, hg⟩ := hx
    exact ⟨x, hmem, by simpa only [Function.comp_apply, hf, hg] using hlt⟩

theorem flatten_map_eq_iff {f g : α → List β} {a b : List β} {xs : List α}
    (h : ∀ x ∈ xs, f x = g x ∨ f x = a ∧ g x = b) (hx : ∃ x ∈ xs, f x = a ∧ g x = b) :
    (xs.map f).flatten = (xs.map g).flatten ↔ a = b := by
  refine ⟨fun heq => ?_, ?_⟩
  · have hlength : a.length = b.length := by
      by_contra hne
      obtain hlt | hlt := Nat.lt_or_gt_of_ne hne
      · exact (length_flatten_lt h hx hlt).ne (congrArg List.length heq)
      · refine (length_flatten_lt (fun x hmem => ?_) ?_ hlt).ne (congrArg List.length heq.symm)
        · exact (h x hmem).imp Eq.symm And.symm
        · obtain ⟨x, hmem, hf, hg⟩ := hx
          exact ⟨x, hmem, hg, hf⟩
    have hparts : ∀ x ∈ xs, (f x).length = (g x).length := by
      intro x hmem
      obtain heq | ⟨hf, hg⟩ := h x hmem
      · exact congrArg List.length heq
      · rw [hf, hg, hlength]
    obtain ⟨x, hmem, hf, hg⟩ := hx
    rw [← hf, ← hg]
    exact flatten_map_inj hparts heq x hmem
  · rintro rfl
    refine congrArg List.flatten (List.map_congr_left fun x hmem => ?_)
    obtain heq | ⟨hf, hg⟩ := h x hmem
    · exact heq
    · rw [hf, hg]

theorem mapM_congr {f g : α → Except ε β} {as : List α} (h : ∀ a ∈ as, f a = g a) :
    as.mapM f = as.mapM g := by
  induction as with
  | nil => rfl
  | cons a rest ih =>
    obtain ⟨ha, hrest⟩ := List.forall_mem_cons.1 h
    rw [List.mapM_cons, List.mapM_cons, ha, ih hrest]

end

/-! ## What is seen -/

/-- What a name may see of a context is the same in both: the entry under the first segment of its
path, and the entry under the whole name. -/
def SameFor (name : String) (c d : Record) : Prop :=
  (∀ segment ∈ (Path.ofString name).head?, Table.get? c segment = Table.get? d segment) ∧
    Table.get? c name = Table.get? d name

theorem SameFor.symm {name : String} {c d : Record} (h : SameFor name c d) : SameFor name d c :=
  ⟨fun segment hsegment => (h.1 segment hsegment).symm, h.2.symm⟩

def Script.Piece.ShowsContext (piece : Piece) : Prop :=
  ∃ p, Placeholder.ofPiece? piece = some p ∧ Path.ofString p.name = []

namespace Staging

variable {staging : Staging} {c d : Record} {defaults : Record} {p : Placeholder}

theorem valueOf_of_sameFor (hpath : Path.ofString p.name ≠ []) (h : SameFor p.name c d) :
    staging.valueOf (.dict c) defaults p = staging.valueOf (.dict d) defaults p := by
  have hget : Path.get (.dict c) (Path.ofString p.name) =
      Path.get (.dict d) (Path.ofString p.name) := by
    obtain ⟨segment, rest, hsegments⟩ := List.exists_cons_of_ne_nil hpath
    have hsegment := h.1 segment (by rw [hsegments]; rfl)
    rw [hsegments, Path.get, Path.get, hsegment]
  simp only [valueOf, hget, Value.asRecord, Functor.map, Except.map, h.2]

theorem valueOf_of_points (hpath : Path.ofString p.name = []) (context : Record) :
    staging.valueOf (.dict context) defaults p = .ok (.dict context) := by
  rw [valueOf, hpath]
  rfl

theorem forall_not_showsContext_iff {content : List Char} :
    (∀ piece ∈ Piece.scan content, ¬ piece.ShowsContext) ↔
      ∀ p ∈ Placeholder.ofContent content, ∃ x ∈ p.name.toList, x ≠ '.' := by
  constructor
  · intro hnone p hp
    obtain ⟨piece, hpiece, hofPiece⟩ := List.mem_filterMap.1 hp
    have hpath : ¬ ∀ x ∈ p.name.toList, x = '.' := fun hpoints =>
      hnone piece hpiece ⟨p, hofPiece, (Placeholder.path_eq_nil_iff hp).2 hpoints⟩
    simpa using hpath
  · rintro hnames piece hpiece ⟨p, hofPiece, hpath⟩
    have hp : p ∈ Placeholder.ofContent content := List.mem_filterMap.2 ⟨piece, hpiece, hofPiece⟩
    obtain ⟨x, hx, hpoint⟩ := hnames p hp
    exact hpoint ((Placeholder.path_eq_nil_iff hp).1 hpath x hx)

section

variable [Interpreter]

theorem substitute_eq_written {piece : Piece} (h : piece.ShowsContext) (context : Record) :
    staging.substitute (.dict context) defaults piece =
      (Value.dict context).written Value.render := by
  obtain ⟨p, hp, hpath⟩ := h
  cases piece with
  | char x => cases hp
  | token inside =>
    rw [substitute_of_some hp, valueOf_of_points hpath]
    rfl

theorem substitute_of_sameFor {piece : Piece} (hshows : ¬ piece.ShowsContext)
    (h : ∀ p, Placeholder.ofPiece? piece = some p → SameFor p.name c d) :
    staging.substitute (.dict c) defaults piece = staging.substitute (.dict d) defaults piece := by
  cases piece with
  | char x => rfl
  | token inside =>
    cases hinside : Placeholder.ofInside? inside with
    | none => rw [substitute_of_none hinside, substitute_of_none hinside]
    | some p =>
      have hpath : Path.ofString p.name ≠ [] := fun hpath => hshows ⟨p, hinside, hpath⟩
      rw [substitute_of_some hinside, substitute_of_some hinside,
        valueOf_of_sameFor hpath (h p hinside)]

theorem substitute_of_not_shows {content : List Char}
    (h : ∀ p ∈ Placeholder.ofContent content, SameFor p.name c d) {piece : Piece}
    (hpiece : piece ∈ Piece.scan content) (hshows : ¬ piece.ShowsContext) :
    staging.substitute (.dict c) defaults piece = staging.substitute (.dict d) defaults piece :=
  substitute_of_sameFor hshows fun p hp => h p (List.mem_filterMap.2 ⟨piece, hpiece, hp⟩)

def textOf (staging : Staging) (context defaults : Record) (piece : Piece) : List Char :=
  (staging.substitute (.dict context) defaults piece).toOption.getD []

theorem texts_of_replace {content filled : List Char} {context : Record}
    (h : staging.replace (.dict context) defaults content = .ok filled) :
    (∀ piece ∈ Piece.scan content, staging.substitute (.dict context) defaults piece =
        .ok (staging.textOf context defaults piece)) ∧
      ((Piece.scan content).map (staging.textOf context defaults)).flatten = filled := by
  have hpieces : ∀ piece ∈ Piece.scan content, staging.substitute (.dict context) defaults piece =
      .ok (staging.textOf context defaults piece) := by
    intro piece hpiece
    have hread : ¬ Fails (staging.substitute (.dict context) defaults piece) := fun hfails => by
      have hnone : Fails (staging.replace (.dict context) defaults content) :=
        fails_map.2 (fails_mapM.2 ⟨piece, hpiece, hfails⟩)
      rw [h] at hnone
      exact not_fails_ok _ hnone
    obtain ⟨text, htext⟩ := exists_ok_of_not_fails hread
    rw [textOf, htext]
    rfl
  rw [replace, mapM_of_ok hpieces] at h
  exact ⟨hpieces, Except.ok.inj h⟩

theorem written_eq_of_replace {content filled : List Char}
    (h : ∀ p ∈ Placeholder.ofContent content, SameFor p.name c d) {piece : Piece}
    (hpiece : piece ∈ Piece.scan content) (hshows : piece.ShowsContext)
    (hc : staging.replace (.dict c) defaults content = .ok filled)
    (hd : staging.replace (.dict d) defaults content = .ok filled) :
    (Value.dict c).written Value.render = (Value.dict d).written Value.render := by
  obtain ⟨hcs, hfilled⟩ := texts_of_replace hc
  obtain ⟨hds, hfilled'⟩ := texts_of_replace hd
  have htexts : ∀ other ∈ Piece.scan content,
      staging.textOf c defaults other = staging.textOf d defaults other ∨
        staging.textOf c defaults other = staging.textOf c defaults piece ∧
          staging.textOf d defaults other = staging.textOf d defaults piece := by
    intro other _
    by_cases hother : other.ShowsContext
    · refine Or.inr ⟨?_, ?_⟩ <;>
        rw [textOf, textOf, substitute_eq_written hother, substitute_eq_written hshows]
    · refine Or.inl ?_
      rw [textOf, textOf, substitute_of_not_shows h ‹_› hother]
  have halike := (flatten_map_eq_iff htexts ⟨piece, hpiece, rfl, rfl⟩).1
    (hfilled.trans hfilled'.symm)
  rw [← substitute_eq_written hshows c, ← substitute_eq_written hshows d, hcs piece hpiece,
    hds piece hpiece, halike]

theorem replace_eq_iff {content : List Char}
    (h : ∀ p ∈ Placeholder.ofContent content, SameFor p.name c d) :
    staging.replace (.dict c) defaults content = staging.replace (.dict d) defaults content ↔
      (∃ fault, staging.replace (.dict c) defaults content = .error fault ∧
        staging.replace (.dict d) defaults content = .error fault) ∨
      (∀ piece ∈ Piece.scan content, ¬ piece.ShowsContext) ∨
      (Value.dict c).written Value.render = (Value.dict d).written Value.render := by
  constructor
  · intro heq
    cases hc : staging.replace (.dict c) defaults content with
    | error fault => exact Or.inl ⟨fault, rfl, heq ▸ hc⟩
    | ok filled =>
      refine Or.inr ?_
      by_cases hshows : ∃ piece ∈ Piece.scan content, piece.ShowsContext
      · obtain ⟨piece, hpiece, hshows⟩ := hshows
        exact Or.inr (written_eq_of_replace h hpiece hshows hc (heq ▸ hc))
      · exact Or.inl fun piece hpiece hwhole => hshows ⟨piece, hpiece, hwhole⟩
  · rintro (⟨fault, hc, hd⟩ | hnone | halike)
    · rw [hc, hd]
    · exact congrArg (List.flatten <$> ·) (mapM_congr fun piece hpiece =>
        substitute_of_not_shows h hpiece (hnone piece hpiece))
    · refine congrArg (List.flatten <$> ·) (mapM_congr fun piece hpiece => ?_)
      by_cases hshows : piece.ShowsContext
      · rw [substitute_eq_written hshows, substitute_eq_written hshows, halike]
      · exact substitute_of_not_shows h hpiece hshows

/-- Contexts that are the same for all names of a content give the same text if and only if there is
no text for one and the same fault, no name is made of points only, or the contexts are written
alike as a whole. -/
theorem replacePlaceholders_eq_iff (staging : Staging) (content : String) (act : Option String)
    (h : ∀ p ∈ Placeholder.ofContent content.toList, SameFor p.name c d) :
    staging.replacePlaceholders content (.dict c) act =
        staging.replacePlaceholders content (.dict d) act ↔
      (∃ fault, staging.replacePlaceholders content (.dict c) act = .error fault ∧
        staging.replacePlaceholders content (.dict d) act = .error fault) ∨
      (∀ p ∈ Placeholder.ofContent content.toList, ∃ x ∈ p.name.toList, x ≠ '.') ∨
      (Value.dict c).written Value.render = (Value.dict d).written Value.render := by
  cases hact : staging.actNamed act with
  | error fault =>
    have hfault : ∀ context, staging.replacePlaceholders content context act = .error fault :=
      fun _ => by rw [replacePlaceholders, hact]; rfl
    rw [hfault, hfault]
    exact iff_of_true rfl (Or.inl ⟨fault, rfl, rfl⟩)
  | ok name =>
    let defaults := ((staging.scenario.act? name).map (·.placeholders)).getD []
    have hreplace : ∀ context, staging.replacePlaceholders content context act =
        String.ofList <$> staging.replace context defaults content.toList :=
      fun _ => by rw [replacePlaceholders, hact]; rfl
    have hinjective : ∀ x y : Except Fault (List Char),
        String.ofList <$> x = String.ofList <$> y ↔ x = y := by
      intro x y
      cases x <;> cases y <;> simp [Functor.map, Except.map, String.ofList_inj]
    have herror : ∀ (x : Except Fault (List Char)) fault,
        String.ofList <$> x = .error fault ↔ x = .error fault := by
      intro x fault
      cases x <;> simp [Functor.map, Except.map]
    simp only [hreplace, hinjective, herror]
    rw [replace_eq_iff h, forall_not_showsContext_iff]

end

/-- The name of one point shows an entry that it does not name. -/
theorem point_shows_entry :
    let staging : Staging := ⟨.empty, Settings.defaults, "???"⟩
    (∀ p ∈ Placeholder.ofContent "\x7b.\x7d".toList, SameFor p.name [] [("secret", .str "s")]) ∧
      staging.replacePlaceholders "\x7b.\x7d" (.dict []) none ≠
        staging.replacePlaceholders "\x7b.\x7d" (.dict [("secret", .str "s")]) none := by
  intro staging
  have hcontent : Placeholder.ofContent "\x7b.\x7d".toList = [⟨".", none⟩] := by decide +kernel
  have hpath : Path.ofString "." = [] := rfl
  have hsame : ∀ p ∈ Placeholder.ofContent "\x7b.\x7d".toList,
      SameFor p.name [] [("secret", .str "s")] := by
    intro p hp
    rw [hcontent, List.mem_singleton] at hp
    subst hp
    refine ⟨fun segment hsegment => ?_, rfl⟩
    rw [hpath] at hsegment
    cases hsegment
  refine ⟨hsame, fun heq => ?_⟩
  obtain ⟨fault, hfault, -⟩ | hnames | halike :=
    (replacePlaceholders_eq_iff staging _ none hsame).1 heq
  · have hrun :
        (staging.replacePlaceholders "\x7b.\x7d" (.dict []) none).toOption.isSome = true := by
      decide +kernel
    rw [hfault] at hrun
    cases hrun
  · obtain ⟨x, hx, hpoint⟩ := hnames ⟨".", none⟩ (hcontent ▸ List.mem_cons_self)
    exact hpoint (List.mem_singleton.1 hx)
  · exact absurd (Except.ok.inj halike) (by decide)

end Staging

end Playscript
