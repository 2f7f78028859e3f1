import Playscript.Proofs.Coercion.Shown
import Playscript.Proofs.Coercion.Written
import Playscript.Proofs.Compiler.Continued
import Playscript.Proofs.Staging.Interpretation
import Playscript.Proofs.Staging.OneMessage
import Playscript.Proofs.Staging.Seeing
import Playscript.Proofs.Staging.Whole

/-!
# What defaults show

A default that is written beside a name goes through four hands until it is shown: it is cut at
bars, coerced, stored with the act, and rendered when the context has no value for the name. What
comes out is what went in, except that bars leave spaces and that a numeral shows its number.
-/
namespace Playscript

open Script (Line Block Piece Placeholder)
open Compiler (Spoken)

namespace Script.Placeholder

/-! ## Defaults as they are written -/

/-- The default that is written behind the first bar: what further bars separate is trimmed and
joined by spaces. -/
def joined (written : List Char) : List Char :=
  Text.trim ([' '].intercalate ((written.splitOn '|').map Text.trim))

def withDefault (name : String) (written : List Char) : Placeholder :=
  ⟨name, some (String.ofList (joined written))⟩

variable {name written : List Char}

theorem trim_name (hname : name.all isNameChar = true) : Text.trim name = name :=
  Text.trim_of_forall fun c hc => isBlank_of_isNameChar (List.all_eq_true.1 hname c hc)

theorem ofInside?_of_bar (hne : name ≠ []) (hname : name.all isNameChar = true) :
    ofInside? (name ++ '|' :: written) = some (withDefault (String.ofList name) written) := by
  have hbar : '|' ∉ name := not_mem_name hname (isNameChar_eq_false _ (by decide))
  have hsplit : (name ++ '|' :: written).splitOn '|' = name :: written.splitOn '|' :=
    List.splitOn_append_cons_self_of_not_mem hbar written
  have hparts : (written.splitOn '|').map Text.trim ≠ [] :=
    mt List.map_eq_nil_iff.1 (List.splitOn_ne_nil _ _)
  simp only [ofInside?, hsplit, List.map_cons, trim_name hname]
  rw [if_pos ⟨hne, hname⟩, if_neg hparts, withDefault, joined]

theorem default?_withDefault (name : String) (written : List Char) :
    (withDefault name written).default? =
      if joined written = [] then none else some (String.ofList (joined written)) := by
  rw [default?, withDefault]
  split_ifs with hempty
  · rw [hempty]
    rfl
  · have hgiven : String.ofList (joined written) ≠ "" := fun h =>
      hempty (String.toList_ofList.symm.trans (congrArg String.toList h))
    exact Option.filter_some_pos (decide_eq_true hgiven)

theorem eq_joined_of_mem_scalars {name : String} {s : List Char}
    (hs : s ∈ (withDefault name written).scalars) : s = joined written := by
  rw [scalars, default?_withDefault] at hs
  split_ifs at hs
  · cases hs
  · exact (List.mem_singleton.1 hs).trans String.toList_ofList

theorem joined_of_no_bar (htrim : Text.trim written = written) (hbar : '|' ∉ written) :
    joined written = written := by
  rw [joined, List.splitOn_eq_singleton hbar, List.map_singleton, List.intercalate_singleton,
    htrim, htrim]

theorem of_mem_joined {c : Char} (hc : c ∈ joined written) : c = ' ' ∨ (c ∈ written ∧ c ≠ '|') := by
  obtain hc | ⟨part, hpart, hc⟩ := Text.of_mem_intercalate (Text.trim_subset _ hc)
  · exact Or.inl (List.mem_singleton.1 hc)
  · obtain ⟨raw, hraw, rfl⟩ := List.mem_map.1 hpart
    obtain ⟨hmem, hcut⟩ := Text.of_mem_splitOnP hraw (Text.trim_subset _ hc)
    exact Or.inr ⟨hmem, by simpa using hcut⟩

theorem unescaped_joined (h : Coercion.Unescaped written) :
    Coercion.Unescaped (joined written) := by
  have hkept : ∀ c, c ≠ ' ' → c ∉ written → c ∉ joined written := fun c hspace hc hmem =>
    (of_mem_joined hmem).elim hspace fun hin => hc hin.1
  exact ⟨hkept _ (by decide) h.double, hkept _ (by decide) h.single, hkept _ (by decide) h.escape⟩

def shownDefault (written : List Char) : List Char :=
  if joined written = [] then "???".toList else (Coercion.shown? (joined written)).getD []

theorem bar_not_mem_shownDefault : '|' ∉ shownDefault written := by
  rw [shownDefault]
  split_ifs
  · decide
  · cases hshown : Coercion.shown? (joined written) with
    | none => exact List.not_mem_nil
    | some text =>
      exact fun hmem => (of_mem_joined (Coercion.mem_of_mem_shown? hshown hmem (by decide))).elim
        (by decide) fun hin => hin.2 rfl

theorem written_withDefault (name : String) (h : Coercion.Unescaped written)
    (hlegible : ¬ Numeral.Oversized (joined written)) (hne : joined written ≠ []) :
    ∃ v, (withDefault name written).written = .ok v ∧ v.isNull = false ∧
      v.written Value.render = .ok (shownDefault written) := by
  have hdefault := default?_withDefault name written
  rw [if_neg hne] at hdefault
  have hread : (withDefault name written).written = Coercion.scalar (joined written) := by
    rw [Placeholder.written, hdefault]
    exact congrArg Coercion.scalar String.toList_ofList
  have hscalar := (Coercion.shown?_eq (unescaped_joined h)).1
  cases hvalue : Coercion.scalar (joined written) with
  | error fault => exact (hlegible (Coercion.scalar_eq_error_iff.1 hvalue).2).elim
  | ok v =>
    rw [hvalue] at hread hscalar
    refine ⟨v, hread, ?_, ?_⟩
    · rw [isNull_written hread, hdefault]
      rfl
    · rw [Value.written_of_not_noText (Coercion.not_noText_of_scalar hvalue), shownDefault,
        if_neg hne, hscalar]
      rfl

theorem shownDefault_eq_iff (hne : written ≠ []) (htrim : Text.trim written = written)
    (hlegible : ¬ Numeral.Oversized (joined written)) :
    shownDefault written = written ↔ '|' ∉ written ∧ Coercion.Verbatim written := by
  by_cases hbar : '|' ∈ written
  · refine iff_of_false (fun hself => ?_) fun h => h.1 hbar
    exact bar_not_mem_shownDefault (hself ▸ hbar)
  · rw [joined_of_no_bar htrim hbar] at hlegible
    rw [shownDefault, joined_of_no_bar htrim hbar, if_neg hne, and_iff_right hbar,
      Coercion.Verbatim]
    cases hshown : Coercion.shown? written with
    | none => exact (hlegible (Coercion.shown?_eq_none_iff.1 hshown)).elim
    | some text => rw [Option.getD_some, Option.some.injEq]

theorem bar_not_mem_decimal (k : Int) : '|' ∉ Text.decimal k := Text.not_mem_decimal (by decide) k

end Script.Placeholder

namespace Staging

variable {head : Line} {context : Record} {name written : List Char}

/-! ## What a default stands for -/

def sayLine (name written : List Char) : Line :=
  "say ".toList ++ Piece.source (.token (name ++ '|' :: written))

theorem scan_sayLine (hname : name.all Script.isNameChar = true)
    (hwritten : Script.Braceless written) :
    Piece.scan (sayLine name written) =
      "say ".toList.map .char ++ [.token (name ++ '|' :: written)] := by
  have hopen : '\x7b' ∉ name :=
    Placeholder.not_mem_name hname (Placeholder.isNameChar_eq_false _ (by decide))
  have hclose : '\x7d' ∉ name :=
    Placeholder.not_mem_name hname (Placeholder.isNameChar_eq_false _ (by decide))
  have hbar := hwritten.cons (c := '|') (by decide) (by decide)
  have hinside : Script.Braceless (name ++ '|' :: written) :=
    ⟨fun hmem => (List.mem_append.1 hmem).elim hopen hbar.1,
      fun hmem => (List.mem_append.1 hmem).elim hclose hbar.2⟩
  have hne : name ++ '|' :: written ≠ [] :=
    List.append_ne_nil_of_right_ne_nil _ (List.cons_ne_nil _ _)
  have htoken := Piece.scan_token hinside hne []
  rw [List.append_nil] at htoken
  have hsay : sayLine name written =
      's' :: 'a' :: 'y' :: ' ' :: Piece.source (.token (name ++ '|' :: written)) := rfl
  rw [hsay, Piece.scan_char (by decide), Piece.scan_char (by decide), Piece.scan_char (by decide),
    Piece.scan_char (by decide), htoken]
  rfl

theorem ofContent_sayLine (hne : name ≠ []) (hname : name.all Script.isNameChar = true)
    (hwritten : Script.Braceless written) :
    Placeholder.ofContent (sayLine name written) =
      [Placeholder.withDefault (String.ofList name) written] := by
  have htoken : Placeholder.ofPiece? (.token (name ++ '|' :: written)) =
      some (Placeholder.withDefault (String.ofList name) written) :=
    Placeholder.ofInside?_of_bar hne hname
  rw [Placeholder.ofContent, scan_sayLine hname hwritten, List.filterMap_append,
    List.filterMap_cons_some htoken]
  rfl

theorem valueOf_default {name : String} {contents : List (List Char)}
    (hlookup : Interpretation.lookup context name = .ok .null)
    (hcontents : contents.flatMap Placeholder.ofContent = [Placeholder.withDefault name written])
    (h : Coercion.Unescaped written)
    (hlegible : ¬ Numeral.Oversized (Placeholder.joined written)) :
    (Interpretation.valueOf context "???" contents name >>= (·.written Value.render)) =
      .ok (Placeholder.shownDefault written) := by
  have hvalueOf : Interpretation.valueOf context "???" contents name = do
      let value ← Interpretation.defaultFor [Placeholder.withDefault name written] name
      if !value.isNull then return value else return .str "???" := by
    rw [Interpretation.valueOf, hlookup, hcontents]
    rfl
  have hdefault := Placeholder.default?_withDefault name written
  have hname : (Placeholder.withDefault name written).name = name := rfl
  rw [hvalueOf, Interpretation.defaultFor]
  by_cases hempty : Placeholder.joined written = []
  · rw [if_pos hempty] at hdefault
    rw [List.find?_cons_of_neg (by simp [hdefault]), Placeholder.shownDefault, if_pos hempty]
    rfl
  · rw [if_neg hempty] at hdefault
    rw [List.find?_cons_of_pos (by simp [hdefault, hname])]
    obtain ⟨v, hwritten, hnull, hrender⟩ :=
      Placeholder.written_withDefault name h hlegible hempty
    simp only [hwritten, bind, Except.bind, hnull, Bool.not_false, if_true]
    exact hrender

theorem content_sayLine (hne : name ≠ []) (hname : name.all Script.isNameChar = true)
    (hwritten : Script.Braceless written)
    (hlookup : Interpretation.lookup context (String.ofList name) = .ok .null)
    (h : Coercion.Unescaped written) (hlegible : ¬ Numeral.Oversized (Placeholder.joined written)) :
    Interpretation.content context "???" [sayLine name written] (sayLine name written) =
      .ok ("say ".toList ++ Placeholder.shownDefault written) := by
  have hcontents : [sayLine name written].flatMap Placeholder.ofContent =
      [Placeholder.withDefault (String.ofList name) written] := by
    rw [List.flatMap_singleton, ofContent_sayLine hne hname hwritten]
  have htoken : Interpretation.piece context "???" [sayLine name written]
      (.token (name ++ '|' :: written)) = .ok (Placeholder.shownDefault written) := by
    rw [Interpretation.piece, Placeholder.ofInside?_of_bar hne hname]
    exact valueOf_default hlookup hcontents h hlegible
  have hpieces : (Piece.scan (sayLine name written)).mapM
      (Interpretation.piece context "???" [sayLine name written]) =
        .ok ("say ".toList.map ([·]) ++ [Placeholder.shownDefault written]) := by
    rw [mapM_eq_ok_iff, scan_sayLine hname hwritten, List.map_append, List.map_append,
      List.map_singleton, List.map_singleton, htoken]
    rfl
  have hflatten : (("say ".toList.map ([·])) ++ [Placeholder.shownDefault written]).flatten =
      "say ".toList ++ Placeholder.shownDefault written := by
    rw [List.flatten_append, List.flatten_singleton]
    rfl
  rw [Interpretation.content, hpieces, ← hflatten]
  rfl

theorem joinLines_sayLine (hname : name.all Script.isNameChar = true) (hescape : '\\' ∉ written) :
    Compiler.joinLines Settings.defaults [sayLine name written] = sayLine name written := by
  have hjoin : Settings.textOf Settings.defaults "join" [' '] = [' '] := rfl
  have hmarker : Settings.textOf Settings.defaults "new_line" ['\\'] = ['\\'] := rfl
  have hchars : '\\' ∉ name :=
    Placeholder.not_mem_name hname (Placeholder.isNameChar_eq_false _ (by decide))
  have hline : '\\' ∉ sayLine name written := by
    simp [sayLine, Piece.source, hchars, hescape]
  have hnone : ¬ ['\\'] ++ [' '] <:+: sayLine name written := fun hbreak =>
    hline (hbreak.subset List.mem_cons_self)
  rw [Compiler.joinLines, hjoin, hmarker, List.intercalate_singleton, Compiler.breakLines,
    if_neg (List.cons_ne_nil _ _), Compiler.breakLinesFrom_last (by decide) hnone]

/-! ## Scripts that say a default -/

theorem written_sayLine (hname : name.all Script.isNameChar = true) (hfeed : '\n' ∉ written)
    (hreturn : '\r' ∉ written) : Script.Written (sayLine name written) := by
  have hnl : '\n' ∉ name :=
    Placeholder.not_mem_name hname (Placeholder.isNameChar_eq_false _ (by decide))
  have hcr : '\r' ∉ name :=
    Placeholder.not_mem_name hname (Placeholder.isNameChar_eq_false _ (by decide))
  refine ⟨List.cons_ne_nil _ _, Text.trim_of_ends (fun c hc => ?_) fun c hc => ?_, ?_, ?_⟩
  · obtain rfl : 's' = c := Option.some.inj hc
    rfl
  · have hlast : (sayLine name written).getLast? = some '\x7d' := by
      rw [sayLine, Piece.source, ← List.cons_append, ← List.append_assoc, List.getLast?_concat]
    obtain rfl : '\x7d' = c := Option.some.inj (hlast.symm.trans hc)
    rfl
  · simp [sayLine, Piece.source, hnl, hfeed]
  · simp [sayLine, Piece.source, hcr, hreturn]

structure Heading (head : Line) : Prop extends Script.Written head where
  message : Script.isActHead head = false
  uncommented : ¬ ['#'] <+: head
  unmarked : ¬ ['%'] <+: head

structure Literal (written : List Char) : Prop extends Script.Written written,
    Coercion.Unescaped written where
  braceless : Script.Braceless written

theorem Heading.hidden (h : Heading head) : ¬ ['#'] <+: Script.roleName head := fun hrole =>
  h.uncommented (hrole.trans (Script.roleName_prefix h.trimmed))

def sayBlock (head : Line) (name written : List Char) : Block := ⟨head, [sayLine name written]⟩

theorem spoken_sayBlock (h : Heading head) :
    Spoken Settings.defaults (sayBlock head name written) := by
  have hmarker : Settings.directiveMarker Settings.defaults = ['%'] := rfl
  have hcomment : Settings.commentMarker Settings.defaults = ['#'] := rfl
  have hmarks : ∀ line, ¬ ['%'] <+: Text.trimLeft line →
      Directive.marks (Settings.directiveMarker Settings.defaults) line = false := by
    intro line hline
    rw [Directive.marks, hmarker, Bool.eq_false_iff]
    exact fun hmarked => hline (List.isPrefixOf_iff_prefix.1 hmarked)
  have hcomments : ∀ line, ¬ ['#'] <+: line →
      Settings.isComment Settings.defaults line = false := by
    intro line hline
    rw [Settings.isComment, hcomment, Bool.eq_false_iff]
    exact fun hmarked => hline (List.isPrefixOf_iff_prefix.1 hmarked)
  have hsay : ∀ c, c ≠ 's' → ¬ [c] <+: sayLine name written := fun c hc hprefix =>
    hc (List.cons_prefix_cons.1 hprefix).1
  have hstart := Text.trim_head head
  rw [h.trimmed] at hstart
  refine ⟨h.message, List.forall_mem_cons.2 ⟨?_, List.forall_mem_singleton.2 ?_⟩,
    List.forall_mem_cons.2 ⟨?_, List.forall_mem_singleton.2 ?_⟩⟩
  · refine hmarks head ?_
    rw [Text.trimLeft_of_head hstart]
    exact h.unmarked
  · exact hmarks _ (hsay '%' (by decide))
  · exact hcomments head h.uncommented
  · exact hcomments _ (hsay '#' (by decide))

theorem build_sayLine (hhead : Heading head) (hne : name ≠ [])
    (hname : name.all Script.isNameChar = true) (hwritten : Literal written)
    (hlookup : Interpretation.lookup context (String.ofList name) = .ok .null)
    (hlegible : ¬ Numeral.Oversized (Placeholder.joined written)) :
    ∃ staging, ofText (String.ofList (head ++ '\n' :: sayLine name written)) [] = .ok staging ∧
      staging.build (.dict context) none =
        .ok [[("role", .ofChars (Script.roleName head)),
          ("content", .ofChars ("say ".toList ++ Placeholder.shownDefault written))]] := by
  have hblocks : Script.blocks (String.ofList (head ++ '\n' :: sayLine name written)).toList =
      [sayBlock head name written] := by
    have hlines : ∀ line ∈ (sayBlock head name written).lines, Script.Written line :=
      List.forall_mem_cons.2 ⟨hhead.toWritten, List.forall_mem_singleton.2
        (written_sayLine hname hwritten.unbroken hwritten.unreturned)⟩
    rw [String.toList_ofList, ← Script.blocks_of_lines hlines, sayBlock, Block.lines,
      List.intercalate_cons_cons, List.intercalate_singleton, List.append_assoc]
    rfl
  have hspoken : Spoken Settings.defaults (sayBlock head name written) := spoken_sayBlock hhead
  have hact : Settings.isComment Settings.defaults (Settings.defaultAct Settings.defaults).toList =
    false := rfl
  have hjoin := joinLines_sayLine hname hwritten.escape
  have hstaging : ofText (String.ofList (head ++ '\n' :: sayLine name written)) [] =
      .ok (ofEntry head [sayLine name written]) := by
    refine ofText_of_spoken hblocks hspoken fun p hp s hs => ?_
    rw [sayBlock, hjoin, ofContent_sayLine hne hname hwritten.braceless, List.mem_singleton] at hp
    subst hp
    exact Placeholder.eq_joined_of_mem_scalars hs ▸ hlegible
  refine ⟨_, hstaging, build_ofEntry hhead.hidden ?_⟩
  have hreads : (ofEntry head [sayLine name written]).Reads Settings.defaults
      (String.ofList (head ++ '\n' :: sayLine name written)) :=
    reads_of_ofText rfl (Compiler.plainScript_of_spoken hblocks hspoken) hstaging
  have hcontents : contents Settings.defaults
      (String.ofList (head ++ '\n' :: sayLine name written)) "default" =
        [sayLine name written] := by
    rw [contents, Compiler.entries_of_spoken hblocks hspoken hact]
    exact congrArg ([·]) hjoin
  have hreplace := hreads.replace (act?_ofEntry head [sayLine name written]) context
    (sayLine name written)
  rw [hcontents] at hreplace
  rw [hjoin, hreplace]
  exact content_sayLine hne hname hwritten.braceless hlookup hwritten.toUnescaped hlegible

theorem heading_user : Heading "user:".toList :=
  ⟨⟨by decide, by decide, by decide, by decide⟩, by decide, by decide, by decide⟩

/-- A default is built as what it shows, where a placeholder has no value. That is the default as it
is written if and only if it has no bar and shows itself, as the integers in plain decimals do and
all that is no numeral. -/
theorem default_shown (hhead : Heading head) (hne : name ≠ [])
    (hname : name.all Script.isNameChar = true) (hwritten : Literal written)
    (hlookup : Interpretation.lookup context (String.ofList name) = .ok .null)
    (hlegible : ¬ Numeral.Oversized (Placeholder.joined written)) :
    (∃ staging, ofText (String.ofList (head ++ '\n' :: sayLine name written)) [] = .ok staging ∧
      staging.build (.dict context) none =
        .ok [[("role", .ofChars (Script.roleName head)),
          ("content", .ofChars ("say ".toList ++ Placeholder.shownDefault written))]]) ∧
    (Placeholder.shownDefault written = written ↔ '|' ∉ written ∧ Coercion.Verbatim written) ∧
    (∀ k : Int, Text.decimal k = written → Placeholder.shownDefault written = written) ∧
    ('|' ∉ written → Numeral.ofChars? written = none →
      Placeholder.shownDefault written = written) := by
  have hself := Placeholder.shownDefault_eq_iff hwritten.nonempty hwritten.trimmed hlegible
  refine ⟨build_sayLine hhead hne hname hwritten hlookup hlegible, hself, ?_, fun hbar hnumeral =>
    hself.2 ⟨hbar, Coercion.verbatim_of_no_numeral hnumeral⟩⟩
  rintro k rfl
  have hbar := Placeholder.bar_not_mem_decimal k
  rw [Placeholder.joined_of_no_bar hwritten.trimmed hbar] at hlegible
  exact hself.2 ⟨hbar, Coercion.verbatim_decimal hlegible⟩

/-- A text with a comma is shown as it is written. -/
theorem separated_default_shown :
    ∃ staging, ofText "user:\nsay \x7bx|red, green\x7d" [] = .ok staging ∧
      staging.build (.dict []) none =
        .ok [[("role", .str "user"), ("content", .str "say red, green")]] := by
  have hwritten : Literal "red, green".toList :=
    ⟨⟨by decide, by decide, by decide, by decide⟩, ⟨by decide, by decide, by decide⟩,
      by decide, by decide⟩
  have hlookup : Interpretation.lookup [] (String.ofList "x".toList) = .ok .null := rfl
  obtain ⟨⟨staging, hstaging, hbuild⟩, -, -, htext⟩ := default_shown heading_user (by decide)
    (by decide) hwritten hlookup fun h => absurd h.1 (by decide)
  rw [htext (by decide) (by decide)] at hbuild
  exact ⟨staging, hstaging, hbuild⟩

/-- Not every default is shown as it is written: of a numeral the number is shown. -/
theorem not_every_default_shown :
    ¬ ∀ (name written : List Char) (context : Record), name ≠ [] →
      name.all Script.isNameChar = true → Literal written →
      Interpretation.lookup context (String.ofList name) = .ok .null →
      ∃ staging, ofText (String.ofList ("user:".toList ++ '\n' :: sayLine name written)) [] =
        .ok staging ∧ staging.build (.dict context) none =
          .ok [[("role", .ofChars "user".toList),
            ("content", .ofChars ("say ".toList ++ written))]] := by
  intro hshown
  have hwritten : Literal "007".toList :=
    ⟨⟨by decide, by decide, by decide, by decide⟩, ⟨by decide, by decide, by decide⟩,
      by decide, by decide⟩
  have hlookup : Interpretation.lookup [] (String.ofList "x".toList) = .ok .null := rfl
  obtain ⟨staging, hstaging, hbuild⟩ := hshown "x".toList "007".toList [] (by decide) (by decide)
    hwritten hlookup
  obtain ⟨other, hother, hbuilt⟩ := build_sayLine heading_user (by decide) (by decide) hwritten
    hlookup fun h => absurd h.2 (by decide)
  obtain rfl : staging = other := Except.ok.inj (hstaging.symm.trans hother)
  have hseven : Placeholder.shownDefault "007".toList = "7".toList := rfl
  have hcontent := hbuild.symm.trans hbuilt
  rw [hseven] at hcontent
  simp [Value.ofChars] at hcontent

end Staging

end Playscript
