import Playscript.Proofs.Compiler.Scalars
import Playscript.Proofs.Directive.Reading
import Playscript.Proofs.Path.Under

/-!
# Spellings of directives

A key and a value can be written in several ways: behind a keyword, as an assignment with a prefix,
and, if the value is true, as the key alone. The text of each spelling is read as the same directive
or as one that does the same, so that they leave the same draft. The value is the same text in all
of them because joining the words of a singly spaced text gives the text back.
-/
namespace Playscript

namespace Text

/-! ## Spaced texts -/

theorem words_break {c : Char} (hc : isBlank c = true) (s t : List Char) :
    words (s ++ c :: t) = words s ++ words t := by
  rw [words, List.splitOnP_append_cons _ _ hc, List.filter_append]
  rfl

theorem words_singleton {word : List Char} (hne : word ≠ [])
    (hword : ∀ c ∈ word, isBlank c = false) : words word = [word] := by
  rw [words, List.splitOnP_eq_singleton hword, List.filter_singleton, decide_eq_true hne]
  rfl

theorem words_trim (s : List Char) : words (trim s) = words s := by
  have hleft : ∀ s, words (trimLeft s) = words s := by
    intro s
    induction s with
    | nil => rfl
    | cons c rest ih =>
      rw [trimLeft, List.dropWhile_cons]
      split_ifs with hc
      · exact ih.trans (words_break hc [] rest).symm
      · rfl
  have hright : ∀ s, words (trimRight s) = words s := by
    intro s
    induction s using List.reverseRecOn with
    | nil => rfl
    | append_singleton rest c ih =>
      rw [trimRight_eq, List.rdropWhile_concat]
      split_ifs with hc
      · rw [words_break hc, ← ih]
        exact (List.append_nil _).symm
      · rfl
  rw [trim, hright, hleft]

structure SinglySpaced (s : List Char) : Prop where
  trimmed : trim s = s
  spaces : ∀ c ∈ s, isBlank c = true → c = ' '
  apart : ¬ [' ', ' '] <:+: s

theorem unblank_of_all {s : List Char} (h : s.all (!isBlank ·) = true) :
    ∀ c ∈ s, isBlank c = false := by
  simpa using h

theorem spaces_of_all {s : List Char} (h : s.all (fun c => !isBlank c || c == ' ') = true) :
    ∀ c ∈ s, isBlank c = true → c = ' ' := by
  intro c hc hblank
  simpa [hblank] using List.all_eq_true.1 h c hc

theorem SinglySpaced.rest {word rest : List Char} (h : SinglySpaced (word ++ ' ' :: rest)) :
    rest ≠ [] ∧ SinglySpaced rest := by
  have hlast := isBlank_getLast?_of_trim h.trimmed
  have hne : rest ≠ [] := by
    rintro rfl
    exact absurd (hlast ' ' (by simp)) (by decide)
  have hsuffix : rest <:+ word ++ ' ' :: rest := ⟨word ++ [' '], by simp⟩
  refine ⟨hne, trim_of_ends (fun c hc => ?_) fun c hc => hlast c ?_, fun c hc => ?_,
    fun htwo => ?_⟩
  · -- A blank at the start would be a second space.
    by_contra hblank
    obtain ⟨more, rfl⟩ : ∃ more, rest = c :: more := by
      cases rest with
      | nil => cases hc
      | cons d more => exact ⟨more, by rw [Option.some.inj hc]⟩
    have hspace := h.spaces c (by simp) (by simpa using hblank)
    exact h.apart ⟨word, more, by rw [hspace]; simp⟩
  · rw [List.getLast?_append, List.getLast?_cons]
    obtain ⟨rfl⟩ : rest.getLast?.getD ' ' = c := by rw [hc]; rfl
    rfl
  · exact h.spaces c (hsuffix.subset hc)
  · exact h.apart (htwo.trans hsuffix.isInfix)

theorem SinglySpaced.split {s : List Char} (h : SinglySpaced s) :
    (∀ c ∈ s, isBlank c = false) ∨ ∃ word rest, s = word ++ ' ' :: rest ∧ word ≠ [] ∧
      (∀ c ∈ word, isBlank c = false) ∧ rest ≠ [] ∧ SinglySpaced rest := by
  obtain ⟨word, hword⟩ : ∃ word, s.takeWhile (fun c => !isBlank c) = word := ⟨_, rfl⟩
  have hplain : ∀ c ∈ word, isBlank c = false := by
    intro c hc
    have hnot := List.mem_takeWhile_imp (hword ▸ hc)
    simpa using hnot
  have hsplit := List.takeWhile_append_dropWhile (p := fun c => !isBlank c) (l := s)
  have hhead := List.head?_dropWhile_not (fun c => !isBlank c) s
  rw [hword] at hsplit
  cases hrest : s.dropWhile fun c => !isBlank c with
  | nil =>
    rw [hrest, List.append_nil] at hsplit
    exact Or.inl (hsplit ▸ hplain)
  | cons c rest =>
    rw [hrest] at hhead hsplit
    obtain rfl : c = ' ' := h.spaces c (by simp [← hsplit]) (by simpa using hhead)
    subst hsplit
    refine Or.inr ⟨word, rest, rfl, ?_, hplain, h.rest⟩
    rintro rfl
    have hfirst := trim_head (' ' :: rest) ' '
    rw [← List.nil_append (' ' :: rest), h.trimmed] at hfirst
    exact absurd (hfirst rfl) (by decide)

theorem SinglySpaced.join_words {s : List Char} (h : SinglySpaced s) :
    [' '].intercalate (words s) = s := by
  induction hn : s.length using Nat.strong_induction_on generalizing s with
  | _ n ih =>
    obtain hplain | ⟨word, rest, rfl, hword, hplain, hne, hrest⟩ := h.split
    · by_cases hs : s = []
      · rw [hs]
        rfl
      · rw [words_singleton hs hplain, List.intercalate_singleton]
    · have hjoin := ih rest.length (by rw [← hn]; simp; omega) hrest rfl
      rw [words_append hword hplain]
      cases hwords : words rest with
      | nil =>
        rw [hwords] at hjoin
        exact absurd hjoin.symm hne
      | cons first more =>
        rw [List.intercalate_cons_cons, ← hwords, hjoin, List.append_assoc]
        rfl

end Text

namespace Directive

open Numeral (Oversized)

/-! ## Reading the spellings -/

/-- A key that names the same setting in every spelling. -/
structure IsKey (key : List Char) : Prop where
  nonempty : key ≠ []
  unblank : ∀ c ∈ key, Text.isBlank c = false
  unassigned : '=' ∉ key
  unprefixed : ∀ start ∈ ["scenario.", "parser.", "act."], ¬ start.toList <+: key

variable {key value : List Char}

theorem keyed_trim (make : List Char → List Char → Directive) {word : List Char} (hne : word ≠ [])
    (hword : ∀ c ∈ word, Text.isBlank c = false) (hkey : IsKey key)
    (hvalue : Text.SinglySpaced value) :
    keyed make (Text.trim (word ++ ' ' :: (key ++ ' ' :: value))) = .ok (make key value) := by
  rw [keyed, Text.words_trim, Text.words_append hne hword,
    Text.words_append hkey.nonempty hkey.unblank]
  dsimp only
  rw [hvalue.join_words]

theorem IsKey.trim (hkey : IsKey key) : Text.trim key = key :=
  Text.trim_of_forall hkey.unblank

theorem IsKey.getLast? (hkey : IsKey key) : ∀ c ∈ key.getLast?, Text.isBlank c = false :=
  fun _ hc => hkey.unblank _ (List.mem_of_getLast? hc)

theorem keyword_prefix_trim {word : List Char} (hne : word ≠ [])
    (hword : ∀ c ∈ word, Text.isBlank c = false) (hkey : IsKey key) (value : List Char) :
    word ++ [' '] <+: Text.trim (word ++ ' ' :: (key ++ ' ' :: value)) := by
  have hstart : Text.trim (word ++ ' ' :: key) = word ++ ' ' :: key := by
    refine Text.trim_of_ends (fun c hc => ?_) fun c hc => ?_
    · rw [List.head?_append_of_ne_nil _ hne] at hc
      exact hword c (List.mem_of_mem_head? hc)
    · rw [List.getLast?_append_of_ne_nil _ (List.cons_ne_nil _ _),
        List.getLast?_cons_of_ne_nil hkey.nonempty] at hc
      exact hkey.getLast? c hc
  have hsplit : word ++ ' ' :: (key ++ ' ' :: value) = (word ++ ' ' :: key) ++ ' ' :: value := by
    simp
  rw [hsplit, Text.trim_append hstart (by simp), List.append_assoc]
  exact (List.prefix_append_right_inj _).2 ⟨key ++ Text.trimRight (' ' :: value), rfl⟩

theorem eq_of_delimited {a b rest : List Char} {x y : Char} (ha : y ∉ a) (hb : x ∉ b)
    (h : a ++ [x] <+: b ++ y :: rest) : a = b ∧ x = y := by
  induction a generalizing b with
  | nil =>
    cases b with
    | nil => exact ⟨rfl, (List.cons_prefix_cons.1 h).1⟩
    | cons c more =>
      obtain ⟨rfl, -⟩ := List.cons_prefix_cons.1 h
      exact (hb List.mem_cons_self).elim
  | cons d front ih =>
    cases b with
    | nil =>
      obtain ⟨rfl, -⟩ := List.cons_prefix_cons.1 h
      exact (ha List.mem_cons_self).elim
    | cons c more =>
      obtain ⟨rfl, hmore⟩ := List.cons_prefix_cons.1 h
      obtain ⟨rfl, hxy⟩ := ih (fun hmem => ha (List.mem_cons_of_mem _ hmem))
        (fun hmem => hb (List.mem_cons_of_mem _ hmem)) hmore
      exact ⟨rfl, hxy⟩

theorem ofChars_parse (hkey : IsKey key) (hvalue : Text.SinglySpaced value) :
    ofChars ("parse ".toList ++ key ++ ' ' :: value) = .ok (.setting key value) := by
  have hword := Text.unblank_of_all (by decide : "parse".toList.all (!Text.isBlank ·) = true)
  have hstart : "parse ".toList <+: Text.trim ("parse".toList ++ ' ' :: (key ++ ' ' :: value)) :=
    keyword_prefix_trim (by decide) hword hkey value
  have hkeyed := keyed_trim .setting (by decide) hword hkey hvalue
  have htext : "parse ".toList ++ key ++ ' ' :: value =
      "parse".toList ++ ' ' :: (key ++ ' ' :: value) := rfl
  have hparse : setting? (Text.trim ("parse".toList ++ ' ' :: (key ++ ' ' :: value))) =
      .ok (some (.setting key value)) := by
    rw [setting?, if_pos (List.isPrefixOf_iff_prefix.2 hstart), hkeyed]
    rfl
  simp only [ofChars, htext, hparse]
  rfl

theorem ofChars_use (hkey : IsKey key) (hvalue : Text.SinglySpaced value) :
    ofChars ("use ".toList ++ key ++ ' ' :: value) = .ok (.use key value) := by
  have hword := Text.unblank_of_all (by decide : "use".toList.all (!Text.isBlank ·) = true)
  have hstart : "use ".toList <+: Text.trim ("use".toList ++ ' ' :: (key ++ ' ' :: value)) :=
    keyword_prefix_trim (by decide) hword hkey value
  have hkeyed := keyed_trim .use (by decide) hword hkey hvalue
  have htext : "use ".toList ++ key ++ ' ' :: value =
      "use".toList ++ ' ' :: (key ++ ' ' :: value) := rfl
  have hparse : setting? (Text.trim ("use".toList ++ ' ' :: (key ++ ' ' :: value))) =
      .ok none := by
    obtain ⟨rest, hrest⟩ := hstart
    rw [← hrest]
    rfl
  have huse : use? (Text.trim ("use".toList ++ ' ' :: (key ++ ' ' :: value))) =
      .ok (some (.use key value)) := by
    rw [use?, if_pos (List.isPrefixOf_iff_prefix.2 hstart), hkeyed]
    rfl
  simp only [ofChars, htext, hparse, huse]
  rfl

theorem ofChars_without_keyword {s : List Char} (hparse : ¬ "parse ".toList <+: Text.trim s)
    (huse : ¬ "use ".toList <+: Text.trim s) :
    ofChars s =
      .ok (((assignment? (Text.trim s)).or (flag? (Text.trim s))).getD .ignored) := by
  simp only [ofChars, setting?, use?, if_neg (mt List.isPrefixOf_iff_prefix.1 hparse),
    if_neg (mt List.isPrefixOf_iff_prefix.1 huse)]
  rfl

theorem assignment?_of_eq {left right : List Char} (hleft : '=' ∉ left)
    (hkey : Text.trim left = key) (hne : key ≠ []) (hvalue : Text.trim right = value)
    (hline : '\n' ∉ value) :
    assignment? (left ++ '=' :: right) = some (assigned key value) := by
  have hneq : ∀ c ∈ left, decide (c ≠ '=') = true := fun c hc =>
    decide_eq_true fun heq => hleft (heq ▸ hc)
  have htake : (left ++ '=' :: right).takeWhile (· ≠ '=') = left := by
    rw [List.takeWhile_append_of_pos hneq]
    simp
  have hdrop : ((left ++ '=' :: right).dropWhile (· ≠ '=')).drop 1 = right := by
    rw [List.dropWhile_append_of_pos hneq]
    simp
  rw [assignment?, if_pos (by simp), htake, hdrop, hkey, hvalue]
  exact congrArg some (if_neg fun h => h.elim hne hline)

theorem line_of_singlySpaced (hvalue : Text.SinglySpaced value) : '\n' ∉ value :=
  fun hmem => absurd (hvalue.spaces _ hmem Text.isBlank_newline) (by decide)

theorem ofChars_assignment {left : List Char} (hne : left ≠ [])
    (hblank : ∀ c ∈ left, Text.isBlank c = false) (hleft : '=' ∉ left)
    (hvalue : Text.SinglySpaced value) :
    ofChars (left ++ '=' :: value) = .ok (assigned left value) := by
  have htrim : Text.trim (left ++ '=' :: value) = left ++ '=' :: value := by
    refine Text.trim_of_ends (fun c hc => ?_) fun c hc => ?_
    · rw [List.head?_append_of_ne_nil _ hne] at hc
      exact hblank c (List.mem_of_mem_head? hc)
    · rw [List.getLast?_append_of_ne_nil _ (List.cons_ne_nil _ _)] at hc
      cases value with
      | nil =>
        cases hc
        decide
      | cons first rest =>
        rw [List.getLast?_cons_of_ne_nil (List.cons_ne_nil _ _)] at hc
        exact Text.isBlank_getLast?_of_trim hvalue.trimmed c hc
  have hspace : ' ' ∉ left := fun hmem => absurd (hblank _ hmem) (by decide)
  have hkeyword : ∀ word : List Char, '=' ∉ word →
      ¬ word ++ [' '] <+: Text.trim (left ++ '=' :: value) := by
    intro word hword h
    rw [htrim] at h
    exact absurd (eq_of_delimited hword hspace h).2 (by decide)
  have hread := assignment?_of_eq hleft (Text.trim_of_forall hblank) hne hvalue.trimmed
    (line_of_singlySpaced hvalue)
  rw [ofChars_without_keyword (hkeyword "parse".toList (by decide))
    (hkeyword "use".toList (by decide)), htrim, hread]
  rfl

theorem ofChars_spaced_assignment (hkey : IsKey key) (hvalue : Text.SinglySpaced value)
    (hparse : key ≠ "parse".toList) (huse : key ≠ "use".toList) :
    ofChars (' ' :: (key ++ ' ' :: '=' :: ' ' :: (value ++ [' ']))) =
      .ok (assigned key value) := by
  have hstart : Text.trim (key ++ [' ', '=']) = key ++ [' ', '='] := by
    refine Text.trim_of_ends (fun c hc => ?_) fun c hc => ?_
    · rw [List.head?_append_of_ne_nil _ hkey.nonempty] at hc
      exact hkey.unblank c (List.mem_of_mem_head? hc)
    · rw [List.getLast?_append_of_ne_nil _ (List.cons_ne_nil _ _)] at hc
      cases hc
      decide
  have hsplit : key ++ ' ' :: '=' :: ' ' :: (value ++ [' ']) =
      (key ++ [' ', '=']) ++ ' ' :: (value ++ [' ']) := by simp
  have htrim : Text.trim (' ' :: (key ++ ' ' :: '=' :: ' ' :: (value ++ [' ']))) =
      (key ++ [' ']) ++ '=' :: Text.trimRight (' ' :: (value ++ [' '])) := by
    rw [Text.trim_cons_blank Text.isBlank_space, hsplit, Text.trim_append hstart (by simp)]
    simp
  have hspace : ' ' ∉ key := fun hmem => absurd (hkey.unblank _ hmem) (by decide)
  have hkeyword : ∀ word : List Char, ' ' ∉ word → key ≠ word →
      ¬ word ++ [' '] <+: Text.trim (' ' :: (key ++ ' ' :: '=' :: ' ' :: (value ++ [' ']))) := by
    intro word hword hother h
    rw [htrim, List.append_assoc] at h
    exact hother (eq_of_delimited hword hspace h).1.symm
  have hright : Text.trim (Text.trimRight (' ' :: (value ++ [' ']))) = value := by
    rw [Text.trim_trimRight, Text.trim_cons_blank Text.isBlank_space,
      Text.trim_concat_blank Text.isBlank_space, hvalue.trimmed]
  have hleft : Text.trim (key ++ [' ']) = key := by
    rw [Text.trim_concat_blank Text.isBlank_space, hkey.trim]
  have hassigned : '=' ∉ key ++ [' '] := by simpa using hkey.unassigned
  rw [ofChars_without_keyword (hkeyword "parse".toList (by decide) hparse)
    (hkeyword "use".toList (by decide) huse), htrim,
    assignment?_of_eq hassigned hleft hkey.nonempty hright (line_of_singlySpaced hvalue)]
  rfl

theorem ofChars_flag (hkey : IsKey key) (hchars : key.all isFlagChar = true) :
    ofChars key = .ok (.flag key) := by
  have hspace : ' ' ∉ key := fun hmem => absurd (hkey.unblank _ hmem) (by decide)
  have hkeyword : ∀ word : List Char, ¬ word ++ [' '] <+: Text.trim key := by
    intro word h
    rw [hkey.trim] at h
    exact hspace (h.subset (by simp))
  have hline : Text.dropLineEnd key = key := by
    rw [Text.dropLineEnd, if_neg]
    intro hlast
    exact absurd (hkey.getLast? '\n' hlast) (by decide)
  rw [ofChars_without_keyword (hkeyword "parse".toList) (hkeyword "use".toList), hkey.trim,
    assignment?, if_neg hkey.unassigned, flag?, hline]
  simp only [hkey.nonempty, hchars, ne_eq, not_false_eq_true, and_self, if_true, Option.none_or,
    Option.getD_some]

/-! ## The layer of a key -/

theorem after?_append (start rest : List Char) : after? start (start ++ rest) = some rest := by
  rw [after?, if_pos (List.isPrefixOf_iff_prefix.2 (List.prefix_append _ _)), List.drop_left]

theorem assigned_scenario_key (key value : List Char) :
    assigned ("scenario.".toList ++ key) value = .use key value := by
  rw [assigned, after?_append]

theorem assigned_parser_key (key value : List Char) :
    assigned ("parser.".toList ++ key) value = .setting key value := by
  have hother : after? "scenario.".toList ("parser.".toList ++ key) = none := rfl
  rw [assigned, hother, after?_append]

theorem assigned_act_key (key value : List Char) :
    assigned ("act.".toList ++ key) value = .assign key value := by
  have hscenario : after? "scenario.".toList ("act.".toList ++ key) = none := rfl
  have hparser : after? "parser.".toList ("act.".toList ++ key) = none := rfl
  rw [assigned, hscenario, hparser, after?_append]
  rfl

theorem assigned_of_isKey (hkey : IsKey key) (value : List Char) :
    assigned key value = .assign key value := by
  have hnone : ∀ start ∈ ["scenario.", "parser.", "act."], after? start.toList key = none := by
    intro start hstart
    rw [after?, if_neg (mt List.isPrefixOf_iff_prefix.1 (hkey.unprefixed start hstart))]
  rw [assigned, hnone "scenario." (by simp), hnone "parser." (by simp), hnone "act." (by simp)]
  rfl

theorem ofChars_prefixed (start : String) (hblank : start.toList.all (!Text.isBlank ·) = true)
    (hstart : '=' ∉ start.toList) (hkey : IsKey key) (hvalue : Text.SinglySpaced value) :
    ofChars (start.toList ++ key ++ '=' :: value) =
      .ok (assigned (start.toList ++ key) value) := by
  refine ofChars_assignment (fun h => hkey.nonempty (List.append_eq_nil_iff.1 h).2)
    (fun c hc => ?_) (fun hmem => ?_) hvalue
  · exact (List.mem_append.1 hc).elim (Text.unblank_of_all hblank c) (hkey.unblank c)
  · exact (List.mem_append.1 hmem).elim hstart hkey.unassigned

/-! ## What the spellings do -/

theorem run_flag (scope : Scope) (key : List Char) (d : Draft) :
    (perform scope (.flag key)).run d = (perform scope (.assign key "true".toList)).run d := rfl

theorem exists_performed_iff (scope : Scope) (directive : Directive) (d : Draft) :
    (∃ t, (perform scope directive).run d = .ok () t) ↔
      ∀ part ∈ directive.scalars, ¬ Oversized part := by
  have hreads := Compiler.reads_perform scope directive d
  cases hrun : (perform scope directive).run d with
  | ok _ t => exact iff_of_true ⟨t, rfl⟩ (hreads.of_ok hrun)
  | error fault t =>
    obtain ⟨-, part, hpart, hoversized⟩ := hreads.of_error hrun
    exact iff_of_false (fun ⟨_, h⟩ => nomatch h) fun hall => hall part hpart hoversized

/-- The spellings of a directive do the same, and each of them returns unless it reads an oversized
scalar in the value. -/
theorem spellings_agree (hkey : IsKey key) (hvalue : Text.SinglySpaced value) (scope : Scope)
    (d : Draft) :
    let does (s : List Char) := (store scope s).run d
    let returns (s : List Char) := ∃ t, does s = .ok () t
    let sound (directive : Directive) := ∀ part ∈ directive.scalars, ¬ Oversized part
    (does ("use ".toList ++ key ++ ' ' :: value) =
        does ("scenario.".toList ++ key ++ '=' :: value) ∧
      (returns ("use ".toList ++ key ++ ' ' :: value) ↔ sound (.use key value))) ∧
    (does ("parse ".toList ++ key ++ ' ' :: value) =
        does ("parser.".toList ++ key ++ '=' :: value) ∧
      (returns ("parse ".toList ++ key ++ ' ' :: value) ↔ sound (.setting key value))) ∧
    (does (key ++ '=' :: value) = does ("act.".toList ++ key ++ '=' :: value) ∧
      (key ≠ "parse".toList → key ≠ "use".toList →
        does (key ++ '=' :: value) =
          does (' ' :: (key ++ ' ' :: '=' :: ' ' :: (value ++ [' '])))) ∧
      (returns (key ++ '=' :: value) ↔ sound (.assign key value))) ∧
    (key.all isFlagChar = true →
      does key = does (key ++ "=true".toList) ∧ returns key) := by
  intro does returns sound
  have hreturns : ∀ {s directive}, ofChars s = .ok directive → (returns s ↔ sound directive) := by
    intro s directive hread
    have hiff := exists_performed_iff scope directive d
    rwa [← run_store hread] at hiff
  have hplain := ofChars_assignment hkey.nonempty hkey.unblank hkey.unassigned hvalue
  rw [assigned_of_isKey hkey] at hplain
  have huse := ofChars_use hkey hvalue
  have hparse := ofChars_parse hkey hvalue
  refine ⟨⟨?_, hreturns huse⟩, ⟨?_, hreturns hparse⟩, ⟨?_, fun hnoparse hnouse => ?_,
    hreturns hplain⟩, fun hchars => ⟨?_, ?_⟩⟩
  · have hother := ofChars_prefixed "scenario." (by decide) (by decide) hkey hvalue
    rw [assigned_scenario_key] at hother
    exact (run_store huse scope d).trans (run_store hother scope d).symm
  · have hother := ofChars_prefixed "parser." (by decide) (by decide) hkey hvalue
    rw [assigned_parser_key] at hother
    exact (run_store hparse scope d).trans (run_store hother scope d).symm
  · have hother := ofChars_prefixed "act." (by decide) (by decide) hkey hvalue
    rw [assigned_act_key] at hother
    exact (run_store hplain scope d).trans (run_store hother scope d).symm
  · have hother := ofChars_spaced_assignment hkey hvalue hnoparse hnouse
    rw [assigned_of_isKey hkey] at hother
    exact (run_store hplain scope d).trans (run_store hother scope d).symm
  · have htrue : Text.SinglySpaced "true".toList :=
      ⟨by decide, Text.spaces_of_all (by decide), by decide⟩
    have hother := ofChars_assignment hkey.nonempty hkey.unblank hkey.unassigned htrue
    rw [assigned_of_isKey hkey] at hother
    have hflag := (run_store (ofChars_flag hkey hchars) scope d).trans (run_flag scope key d)
    exact hflag.trans (run_store hother scope d).symm
  · exact (hreturns (ofChars_flag hkey hchars)).2 fun part hpart => nomatch hpart

/-- A value of two words, and the key as a flag. -/
theorem size_spellings_agree :
    let key := "size".toList
    let value := "very big".toList
    let does (s : List Char) := (store ⟨"A", some 0⟩ s).run (.start .empty Settings.defaults)
    does ("use ".toList ++ key ++ ' ' :: value) =
        does ("scenario.".toList ++ key ++ '=' :: value) ∧
      does ("parse ".toList ++ key ++ ' ' :: value) =
        does ("parser.".toList ++ key ++ '=' :: value) ∧
      does (key ++ '=' :: value) = does ("act.".toList ++ key ++ '=' :: value) ∧
      does (key ++ '=' :: value) =
        does (' ' :: (key ++ ' ' :: '=' :: ' ' :: (value ++ [' ']))) ∧
      does key = does (key ++ "=true".toList) := by
  have hkey : IsKey "size".toList :=
    ⟨by decide, Text.unblank_of_all (by decide), by decide, by decide⟩
  have hvalue : Text.SinglySpaced "very big".toList :=
    ⟨by decide, Text.spaces_of_all (by decide), by decide +kernel⟩
  obtain ⟨⟨huse, -⟩, ⟨hparse, -⟩, ⟨hact, hspaced, -⟩, hflag⟩ :=
    spellings_agree hkey hvalue ⟨"A", some 0⟩ (.start .empty Settings.defaults)
  exact ⟨huse, hparse, hact, hspaced (by decide) (by decide), (hflag (by decide +kernel)).1⟩

end Directive

end Playscript
