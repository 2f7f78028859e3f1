import Mathlib.Data.List.Forall2
import Playscript.Proofs.Script.Pieces
import Playscript.Script.Block

/-!
# Layouts of a script

The blocks of a script are the runs of its lines between blank ones. Every text is a layout of its
blocks, and a layout of some blocks has these blocks and no others, however its lines are padded,
however many blank lines there are, and wherever carriage returns stand.
-/
namespace Playscript.Script

/-- A line as the compiler reads it: not empty, trimmed, and without line ends in it. -/
structure Written (line : Line) : Prop where
  nonempty : line ≠ []
  trimmed : Text.trim line = line
  unbroken : '\n' ∉ line
  unreturned : '\r' ∉ line

def trimmedLines (text : List Char) : List Line :=
  ((text.filter (· ≠ '\r')).splitOn '\n').map Text.trim

def Padded (text raw : Line) : Prop :=
  ∃ before after, raw = before ++ text ++ after ∧
    ∀ c ∈ before ++ after, Text.isBlank c = true ∧ c ≠ '\n'

/-- Lines that are blocks: each block stands in padded lines, with a blank line between it and the
next one. There may be more blank lines, also at both ends. -/
inductive Layout : List Block → List Line → Prop
  | blank {gap : List Line} (hgap : ∀ raw ∈ gap, Padded [] raw) : Layout [] gap
  | block {gap raws rest : List Line} {block : Block} {blocks : List Block}
      (hgap : ∀ raw ∈ gap, Padded [] raw) (hraws : List.Forall₂ Padded block.lines raws)
      (hend : ∀ raw ∈ rest.head?, Padded [] raw) (hrest : Layout blocks rest) :
      Layout (block :: blocks) (gap ++ raws ++ rest)

def LaidOut (blocks : List Block) (text : List Char) : Prop :=
  ∃ raws, Layout blocks raws ∧
    text.filter (· ≠ '\r') = (['\n'].intercalate raws).filter (· ≠ '\r')

/-! ## Runs of lines -/

namespace Block

theorem map_lines_ofLines? (lines : List Line) :
    (ofLines? lines).toList.map Block.lines = [lines].filter (· ≠ []) := by
  cases lines <;> rfl

theorem runs_nil_cons (lines : List Line) : runs ([] :: lines) = runs lines := rfl

theorem runs_concat_nil (lines : List Line) : runs (lines ++ [[]]) = runs lines := by
  suffices h : ∀ pending, runsFrom pending (lines ++ [[]]) = runsFrom pending lines from h []
  induction lines with
  | nil =>
    intro pending
    exact List.append_nil _
  | cons line rest ih =>
    intro pending
    simp only [List.cons_append, runsFrom, ih]

theorem map_lines_runs (lines : List Line) :
    (runs lines).map Block.lines = (lines.splitOn []).filter (· ≠ []) := by
  have hfrom : ∀ pending, (runsFrom pending lines).map Block.lines =
      ((lines.splitOn []).modifyHead (pending.reverse ++ ·)).filter (· ≠ []) := by
    induction lines with
    | nil =>
      intro pending
      rw [runsFrom, map_lines_ofLines?, List.splitOn_nil, List.modifyHead_cons, List.append_nil]
    | cons line rest ih =>
      intro pending
      rw [runsFrom, List.splitOn_cons_eq_if_modifyHead]
      by_cases hline : line = []
      · rw [if_pos hline, if_pos (beq_iff_eq.2 hline), List.map_append, map_lines_ofLines?, ih,
          List.modifyHead_cons, List.append_nil, ← List.filter_append]
        exact congrArg (fun runs => List.filter _ ([pending.reverse] ++ runs))
          (congrFun List.modifyHead_id _)
      · rw [if_neg hline, if_neg (mt beq_iff_eq.1 hline), ih, List.modifyHead_modifyHead,
          List.reverse_cons]
        simp only [Function.comp_def, List.append_assoc, List.singleton_append]
  exact (hfrom []).trans (congrArg _ (congrFun List.modifyHead_id _))

theorem runsFrom_append {pending run : List Line} (h : ∀ line ∈ run, line ≠ []) (rest : List Line) :
    runsFrom pending (run ++ rest) = runsFrom (run.reverse ++ pending) rest := by
  induction run generalizing pending with
  | nil => rfl
  | cons line run ih =>
    obtain ⟨hline, hrun⟩ := List.forall_mem_cons.1 h
    rw [List.cons_append, runsFrom, if_neg hline, ih hrun, List.reverse_cons, List.append_assoc,
      List.singleton_append]

theorem runs_lines_append {block : Block} (h : ∀ line ∈ block.lines, line ≠ []) {rest : List Line}
    (hrest : ∀ line ∈ rest.head?, line = []) :
    runs (block.lines ++ rest) = block :: runs rest := by
  rw [runs, runsFrom_append h, List.append_nil]
  cases rest with
  | nil => rw [runsFrom, List.reverse_reverse]; rfl
  | cons line more =>
    obtain rfl := hrest line rfl
    rw [runsFrom, if_pos rfl, List.reverse_reverse]
    rfl

end Block

/-! ## Trimming the text -/

theorem splitOn_concat {c : Char} (hc : c ≠ '\n') (s : List Char) :
    ∃ front last, s.splitOn '\n' = front ++ [last] ∧
      (s ++ [c]).splitOn '\n' = front ++ [last ++ [c]] := by
  induction s with
  | nil => exact ⟨[], [], rfl, List.splitOn_eq_singleton (by simpa using hc.symm)⟩
  | cons d rest ih =>
    obtain ⟨front, last, hrest, hmore⟩ := ih
    rw [List.cons_append, List.splitOn_cons_eq_if_modifyHead, List.splitOn_cons_eq_if_modifyHead,
      hrest, hmore]
    split_ifs
    · exact ⟨[] :: front, last, rfl, rfl⟩
    · cases front with
      | nil => exact ⟨[], d :: last, rfl, rfl⟩
      | cons line front => exact ⟨(d :: line) :: front, last, rfl, rfl⟩

theorem runs_cons_blank {c : Char} (hc : Text.isBlank c = true) (s : List Char) :
    Block.runs (((c :: s).splitOn '\n').map Text.trim) =
      Block.runs ((s.splitOn '\n').map Text.trim) := by
  rw [List.splitOn_cons_eq_if_modifyHead]
  split_ifs
  · exact Block.runs_nil_cons _
  · cases s.splitOn '\n' with
    | nil => rfl
    | cons line rest =>
      rw [List.modifyHead_cons, List.map_cons, Text.trim_cons_blank hc, List.map_cons]

theorem runs_concat_blank {c : Char} (hc : Text.isBlank c = true) (s : List Char) :
    Block.runs (((s ++ [c]).splitOn '\n').map Text.trim) =
      Block.runs ((s.splitOn '\n').map Text.trim) := by
  by_cases hbreak : c = '\n'
  · have hsplit : (s ++ [c]).splitOn '\n' = s.splitOn '\n' ++ [[]] :=
      List.splitOnP_append_cons s [] (beq_iff_eq.2 hbreak)
    rw [hsplit, List.map_append]
    exact Block.runs_concat_nil _
  · obtain ⟨front, last, hs, hmore⟩ := splitOn_concat hbreak s
    rw [hs, hmore, List.map_append, List.map_append, List.map_singleton, List.map_singleton,
      Text.trim_concat_blank hc]

theorem runs_padded {before after : List Char} (hbefore : ∀ c ∈ before, Text.isBlank c = true)
    (hafter : ∀ c ∈ after, Text.isBlank c = true) (s : List Char) :
    Block.runs (((before ++ s ++ after).splitOn '\n').map Text.trim) =
      Block.runs ((s.splitOn '\n').map Text.trim) := by
  induction after using List.reverseRecOn with
  | nil =>
    rw [List.append_nil]
    induction before with
    | nil => rfl
    | cons c rest ih =>
      obtain ⟨hc, hrest⟩ := List.forall_mem_cons.1 hbefore
      rw [List.cons_append, runs_cons_blank hc, ih hrest]
  | append_singleton rest c ih =>
    obtain ⟨hrest, hc⟩ := List.forall_mem_append.1 hafter
    rw [← List.append_assoc, runs_concat_blank (hc c (List.mem_singleton_self c)), ih hrest]

theorem blocks_eq_runs (text : List Char) : blocks text = Block.runs (trimmedLines text) := by
  rw [trimmedLines]
  obtain ⟨before, after, htext, hbefore, hafter⟩ :=
    Text.exists_padded (text.filter (· ≠ '\r'))
  conv_rhs => rw [htext]
  rw [runs_padded hbefore hafter]
  rfl

/-! ## Layouts -/

theorem padded_trim {raw : Line} (h : '\n' ∉ raw) : Padded (Text.trim raw) raw := by
  obtain ⟨before, after, hraw, hbefore, hafter⟩ := Text.exists_padded raw
  refine ⟨before, after, hraw, fun c hc => ⟨?_, ?_⟩⟩
  · exact (List.mem_append.1 hc).elim (hbefore c) (hafter c)
  · rintro rfl
    apply h
    rw [hraw, List.append_assoc]
    exact (List.mem_append.1 hc).elim (List.mem_append_left _) fun hc =>
      List.mem_append_right _ (List.mem_append_right _ hc)

theorem forall_head?_map {α β : Type} {P : β → Prop} {f : α → β} {as : List α} :
    (∀ b ∈ (as.map f).head?, P b) ↔ ∀ a ∈ as.head?, P (f a) := by
  cases as <;> simp

def stripped (raw : Line) : Line :=
  Text.trim (raw.filter (· ≠ '\r'))

theorem Padded.stripped {line raw : Line} (h : Padded line raw) (htrim : Text.trim line = line)
    (hreturn : '\r' ∉ line) : stripped raw = line := by
  obtain ⟨before, after, rfl, hblank⟩ := h
  obtain ⟨hbefore, hafter⟩ := List.forall_mem_append.1 hblank
  have hline : line.filter (· ≠ '\r') = line :=
    List.filter_eq_self.2 fun c hc => decide_eq_true fun heq => hreturn (heq ▸ hc)
  rw [Script.stripped, List.filter_append, List.filter_append, hline, Text.trim_padded, htrim]
  · exact fun c hc => (hbefore c (List.mem_filter.1 hc).1).1
  · exact fun c hc => (hafter c (List.mem_filter.1 hc).1).1

theorem Padded.unbroken {line raw : Line} (h : Padded line raw) (hline : '\n' ∉ line) :
    '\n' ∉ raw := by
  obtain ⟨before, after, rfl, hblank⟩ := h
  obtain ⟨hbefore, hafter⟩ := List.forall_mem_append.1 hblank
  simp only [List.mem_append, not_or]
  exact ⟨⟨fun hc => (hbefore _ hc).2 rfl, hline⟩, fun hc => (hafter _ hc).2 rfl⟩

theorem Layout.cons_blank {blocks : List Block} {raws : List Line} (h : Layout blocks raws)
    {raw : Line} (hraw : Padded [] raw) : Layout blocks (raw :: raws) := by
  cases h with
  | blank hgap => exact .blank (List.forall_mem_cons.2 ⟨hraw, hgap⟩)
  | block hgap hraws hend hrest =>
    exact .block (List.forall_mem_cons.2 ⟨hraw, hgap⟩) hraws hend hrest

theorem exists_run (raws : List Line) : ∃ run rest, raws = run ++ rest ∧
    (∀ raw ∈ run, Text.trim raw ≠ []) ∧ ∀ raw ∈ rest.head?, Text.trim raw = [] := by
  induction raws with
  | nil => exact ⟨[], [], rfl, fun _ hmem => (nomatch hmem), fun _ hmem => nomatch hmem⟩
  | cons raw raws ih =>
    by_cases hblank : Text.trim raw = []
    · refine ⟨[], raw :: raws, rfl, fun _ hmem => (nomatch hmem), ?_⟩
      rintro _ ⟨⟩
      exact hblank
    · obtain ⟨run, rest, rfl, hrun, hrest⟩ := ih
      exact ⟨raw :: run, rest, rfl, List.forall_mem_cons.2 ⟨hblank, hrun⟩, hrest⟩

theorem Layout.of_run {raw : Line} {run rest : List Line}
    (hunbroken : ∀ line ∈ raw :: run ++ rest, '\n' ∉ line)
    (hrun : ∀ line ∈ raw :: run, Text.trim line ≠ [])
    (hend : ∀ line ∈ rest.head?, Text.trim line = [])
    (h : Layout (Block.runs (rest.map Text.trim)) rest) :
    Layout (Block.runs ((raw :: run ++ rest).map Text.trim)) (raw :: run ++ rest) := by
  obtain ⟨hleft, hright⟩ := List.forall_mem_append.1 hunbroken
  have hruns : Block.runs ((raw :: run ++ rest).map Text.trim) =
      ⟨Text.trim raw, run.map Text.trim⟩ :: Block.runs (rest.map Text.trim) := by
    rw [List.map_append]
    have hlines : ∀ line ∈ (raw :: run).map Text.trim, line ≠ [] := List.forall_mem_map.2 hrun
    have hblock : ∀ line ∈ Block.lines ⟨Text.trim raw, run.map Text.trim⟩, line ≠ [] := hlines
    exact Block.runs_lines_append hblock (forall_head?_map.2 hend)
  have hpadded : List.Forall₂ Padded ((raw :: run).map Text.trim) (raw :: run) := by
    rw [List.forall₂_map_left_iff, List.forall₂_same]
    exact fun line hline => padded_trim (hleft line hline)
  have hgap : ∀ line ∈ ([] : List Line), Padded [] line := fun _ hmem => nomatch hmem
  rw [hruns]
  refine .block hgap hpadded (fun line hline => ?_) h
  have hblank := padded_trim (hright line (List.mem_of_mem_head? hline))
  rwa [hend line hline] at hblank

theorem layout_runs {raws : List Line} (h : ∀ raw ∈ raws, '\n' ∉ raw) :
    Layout (Block.runs (raws.map Text.trim)) raws := by
  -- A step goes past one blank line or past a whole run, so the induction is on the length.
  induction hlength : raws.length using Nat.strong_induction_on generalizing raws with
  | _ n ih =>
    obtain ⟨run, rest, rfl, hrun, hend⟩ := exists_run raws
    cases run with
    | cons raw run =>
      have hshorter : rest.length < n := by
        rw [← hlength, List.cons_append, List.length_cons, List.length_append]
        omega
      exact .of_run h hrun hend
        (ih rest.length hshorter (List.forall_mem_append.1 h).2 rfl)
    | nil =>
      cases rest with
      | nil => exact .blank fun _ hmem => nomatch hmem
      | cons raw rest =>
        obtain ⟨hraw, hrest⟩ := List.forall_mem_cons.1 h
        have hblank : Text.trim raw = [] := hend raw rfl
        have hpadded := padded_trim hraw
        rw [hblank] at hpadded
        rw [List.nil_append, List.map_cons, hblank, Block.runs_nil_cons]
        exact (ih rest.length (hlength ▸ Nat.lt_succ_self _) hrest rfl).cons_blank hpadded

theorem stripped_of_padded {lines raws : List Line} (h : List.Forall₂ Padded lines raws)
    (hwritten : ∀ line ∈ lines, Written line) : raws.map stripped = lines := by
  induction h with
  | nil => rfl
  | cons hraw _ ih =>
    obtain ⟨hline, hmore⟩ := List.forall_mem_cons.1 hwritten
    rw [List.map_cons, hraw.stripped hline.trimmed hline.unreturned, ih hmore]

theorem runs_gap {gap : List Line} (h : ∀ raw ∈ gap, Padded [] raw) (rest : List Line) :
    Block.runs ((gap ++ rest).map stripped) = Block.runs (rest.map stripped) := by
  induction gap with
  | nil => rfl
  | cons raw gap ih =>
    obtain ⟨hraw, hgap⟩ := List.forall_mem_cons.1 h
    rw [List.cons_append, List.map_cons, hraw.stripped rfl List.not_mem_nil, Block.runs_nil_cons,
      ih hgap]

theorem Layout.runs_eq {blocks : List Block} {raws : List Line} (h : Layout blocks raws)
    (hwritten : ∀ block ∈ blocks, ∀ line ∈ block.lines, Written line) :
    Block.runs (raws.map stripped) = blocks := by
  induction h with
  | @blank gap hgap =>
    have hruns := runs_gap hgap []
    rwa [List.append_nil] at hruns
  | block hgap hraws hend hrest ih =>
    obtain ⟨hblock, hblocks⟩ := List.forall_mem_cons.1 hwritten
    have hseparated := forall_head?_map (P := (· = [])) |>.2 fun raw hraw =>
      (hend raw hraw).stripped rfl List.not_mem_nil
    rw [List.append_assoc, runs_gap hgap, List.map_append, stripped_of_padded hraws hblock,
      Block.runs_lines_append (fun line hline => (hblock line hline).nonempty) hseparated,
      ih hblocks]

theorem unbroken_of_padded {lines raws : List Line} (h : List.Forall₂ Padded lines raws)
    (hlines : ∀ line ∈ lines, '\n' ∉ line) : ∀ raw ∈ raws, '\n' ∉ raw := by
  induction h with
  | nil => exact hlines
  | cons hraw _ ih =>
    obtain ⟨hline, hmore⟩ := List.forall_mem_cons.1 hlines
    exact List.forall_mem_cons.2 ⟨hraw.unbroken hline, ih hmore⟩

theorem Layout.unbroken {blocks : List Block} {raws : List Line} (h : Layout blocks raws)
    (hwritten : ∀ block ∈ blocks, ∀ line ∈ block.lines, Written line) :
    ∀ raw ∈ raws, '\n' ∉ raw := by
  have hgaps : ∀ {gap : List Line}, (∀ raw ∈ gap, Padded [] raw) → ∀ raw ∈ gap, '\n' ∉ raw :=
    fun hgap raw hraw => (hgap raw hraw).unbroken List.not_mem_nil
  induction h with
  | blank hgap => exact hgaps hgap
  | block hgap hraws hend hrest ih =>
    obtain ⟨hblock, hblocks⟩ := List.forall_mem_cons.1 hwritten
    have hlines := unbroken_of_padded hraws fun line hline => (hblock line hline).unbroken
    exact List.forall_mem_append.2
      ⟨List.forall_mem_append.2 ⟨hgaps hgap, hlines⟩, ih hblocks⟩

theorem filter_intercalate (raws : List Line) :
    (['\n'].intercalate raws).filter (· ≠ '\r') =
      ['\n'].intercalate (raws.map fun raw => raw.filter (· ≠ '\r')) := by
  induction raws with
  | nil => rfl
  | cons raw rest ih =>
    cases rest with
    | nil => simp only [List.intercalate_singleton, List.map_cons, List.map_nil]
    | cons next rest =>
      rw [List.intercalate_cons_cons, List.filter_append, List.filter_append, ih]
      simp only [List.map_cons, List.intercalate_cons_cons]
      rfl

theorem trimmedLines_of_laidOut {text : List Char} {raws : List Line} (hne : raws ≠ [])
    (hunbroken : ∀ raw ∈ raws, '\n' ∉ raw)
    (htext : text.filter (· ≠ '\r') = (['\n'].intercalate raws).filter (· ≠ '\r')) :
    trimmedLines text = raws.map stripped := by
  have hlines : ∀ line ∈ raws.map fun raw => raw.filter (· ≠ '\r'), '\n' ∉ line :=
    List.forall_mem_map.2 fun raw hraw hmem => hunbroken raw hraw (List.mem_filter.1 hmem).1
  rw [trimmedLines, htext, filter_intercalate, List.splitOn_intercalate '\n' hlines
    (by simpa using hne), List.map_map]
  rfl

theorem LaidOut.blocks_eq {blocks : List Block} {text : List Char} (h : LaidOut blocks text)
    (hwritten : ∀ block ∈ blocks, ∀ line ∈ block.lines, Written line) :
    Script.blocks text = blocks := by
  obtain ⟨raws, hlayout, htext⟩ := h
  -- No lines at all make the same text as a single empty one.
  obtain ⟨lines, hne, hlayout, htext⟩ : ∃ lines, lines ≠ [] ∧ Layout blocks lines ∧
      text.filter (· ≠ '\r') = (['\n'].intercalate lines).filter (· ≠ '\r') := by
    cases raws with
    | nil => exact ⟨[[]], List.cons_ne_nil _ _,
        hlayout.cons_blank ⟨[], [], rfl, fun _ hmem => nomatch hmem⟩, htext⟩
    | cons raw rest => exact ⟨_, List.cons_ne_nil _ _, hlayout, htext⟩
  rw [blocks_eq_runs, trimmedLines_of_laidOut hne (hlayout.unbroken hwritten) htext,
    hlayout.runs_eq hwritten]

theorem blocks_of_lines {block : Block} (h : ∀ line ∈ block.lines, Written line) :
    blocks (['\n'].intercalate block.lines) = [block] := by
  have hpadded : List.Forall₂ Padded block.lines block.lines :=
    List.forall₂_same.2 fun line _ =>
      ⟨[], [], (List.append_nil line).symm, fun _ hmem => nomatch hmem⟩
  have hlayout : Layout [block] ([] ++ block.lines ++ []) :=
    .block (fun _ hmem => nomatch hmem) hpadded (fun _ hmem => nomatch hmem)
      (.blank fun _ hmem => nomatch hmem)
  rw [List.nil_append, List.append_nil] at hlayout
  exact LaidOut.blocks_eq ⟨block.lines, hlayout, rfl⟩ (List.forall_mem_singleton.2 h)

theorem unbroken_of_mem_splitOn {s raw : List Char} (h : raw ∈ s.splitOn '\n') : '\n' ∉ raw :=
  fun hmem => Bool.false_ne_true ((Text.of_mem_splitOnP h hmem).2.symm.trans (beq_self_eq_true _))

theorem laidOut_blocks (text : List Char) : LaidOut (blocks text) text := by
  refine ⟨(text.filter (· ≠ '\r')).splitOn '\n', ?_, ?_⟩
  · rw [blocks_eq_runs]
    exact layout_runs fun raw hraw => unbroken_of_mem_splitOn hraw
  · rw [List.intercalate_splitOn, List.filter_filter]
    simp only [Bool.and_self]

theorem written_of_mem_blocks {text : List Char} {block : Block} (hblock : block ∈ blocks text)
    {line : Line} (hline : line ∈ block.lines) : Written line := by
  have hrun : block.lines ∈ (Block.runs (trimmedLines text)).map Block.lines :=
    List.mem_map_of_mem (blocks_eq_runs text ▸ hblock)
  rw [Block.map_lines_runs] at hrun
  obtain ⟨hmem, hne⟩ := Text.of_mem_splitOnP (List.mem_filter.1 hrun).1 hline
  obtain ⟨raw, hraw, rfl⟩ := List.mem_map.1 hmem
  have hkept : ∀ c ∈ Text.trim raw, c ∈ text.filter (· ≠ '\r') := fun c hc =>
    (Text.of_mem_splitOnP hraw (Text.trim_subset raw hc)).1
  exact {
    nonempty := fun heq => by simp [heq] at hne
    trimmed := Text.trim_trim raw
    unbroken := fun hc => unbroken_of_mem_splitOn hraw (Text.trim_subset raw hc)
    unreturned := fun hc => of_decide_eq_true (List.mem_filter.1 (hkept _ hc)).2 rfl }

/-- The blocks of a text are the runs of its trimmed lines between the empty ones, and a text has
some blocks if and only if it is a layout of them and their lines are as the compiler reads them. -/
theorem blocks_eq_iff_laidOut (text : List Char) :
    (blocks text).map Block.lines = ((trimmedLines text).splitOn []).filter (· ≠ []) ∧
      ∀ found, blocks text = found ↔
        (∀ block ∈ found, ∀ line ∈ block.lines, Written line) ∧ LaidOut found text := by
  refine ⟨?_, fun found => ⟨?_, fun ⟨hwritten, hlaid⟩ => hlaid.blocks_eq hwritten⟩⟩
  · rw [blocks_eq_runs, Block.map_lines_runs]
  · rintro rfl
    exact ⟨fun _ hblock _ hline => written_of_mem_blocks hblock hline, laidOut_blocks text⟩

example : blocks " \n\t a\rb \r\nc\n \n\r\n d\n\n".toList =
    [⟨['a', 'b'], [['c']]⟩, ⟨['d'], []⟩] := by
  decide +kernel

end Playscript.Script
