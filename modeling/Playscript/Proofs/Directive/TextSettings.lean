import Playscript.Compiler
import Playscript.Proofs.Coercion.Separators
import Playscript.Proofs.Coercion.Shown
import Playscript.Proofs.Directive.Spellings
import Playscript.Proofs.Settings

/-!
# Settings that are texts

The text that joins lines and the markers of comments, of continued lines and of directives are
texts, but a directive that gives one has its value coerced like any other. In force is what the
coerced value shows. A list shows its items with commas between them, so that only empty items and
numerals that are spelt otherwise are lost; the marker of directives shows lists and truth values as
literals, and takes nothing from a zero.
-/
namespace Playscript

namespace Coercion

variable {s m : List Char} {v : Value}

/-! ## Texts with commas -/

theorem restore_of_mem (hquote : '"' ∉ s) (hblank : ∀ c ∈ s, Text.isBlank c = false)
    (hcomma : ',' ∈ s) :
    restore s = .ok v ↔ ∃ values : List Value, (s.splitOn ',').map scalar = values.map .ok ∧
      v = .list (values.filter isItem) := by
  have htrim : (s.splitOn ',').map Text.trim = s.splitOn ',' := by
    refine (List.map_congr_left fun piece hpiece => ?_).trans (List.map_id _)
    exact Text.trim_of_forall fun c hc => hblank c (Text.of_mem_splitOn hpiece hc).1
  have hitems : (s.splitOn ',').mapM (fun item => scalar (Text.trim item)) =
      (s.splitOn ',').mapM scalar :=
    calc _ = ((s.splitOn ',').map Text.trim).mapM scalar := List.mapM_map.symm
      _ = _ := by rw [htrim]
  obtain ⟨first, second, rest, hparts⟩ := Text.exists_splitOn hcomma
  simp only [← mapM_eq_ok_iff, ← hitems]
  rw [restore, array?, pieces_eq_splitOn hquote, hparts]
  dsimp only
  cases (first :: second :: rest).mapM fun item => scalar (Text.trim item) with
  | error fault => simp
  | ok values => simp [eq_comm]

/-! ## Texts that stand for themselves -/

theorem isItem_of_plain (h : Settings.plain v ≠ []) : isItem v = true := by
  cases v with
  | str s =>
    rw [isItem, bne_iff_ne]
    rintro rfl
    exact h rfl
  | _ => rfl

theorem map_shown?_splitOn {values : List Value} (hm : Unescaped m)
    (hvalues : (m.splitOn ',').map scalar = values.map .ok) :
    (m.splitOn ',').map shown? = values.map fun v => some (Settings.plain v) := by
  calc (m.splitOn ',').map shown?
      = ((m.splitOn ',').map scalar).map fun r => r.toOption.map Settings.plain := by
        rw [List.map_map]
        exact List.map_congr_left fun piece hpiece =>
          (shown?_eq (hm.of_subset fun c hc => (Text.of_mem_splitOn hpiece hc).1)).2
    _ = values.map fun v => some (Settings.plain v) := by
        rw [hvalues, List.map_map]
        rfl

theorem verbatim_pieces_iff {values : List Value} (hm : Unescaped m)
    (hvalues : (m.splitOn ',').map scalar = values.map .ok) :
    (∀ piece ∈ m.splitOn ',', Verbatim piece) ↔ values.map Settings.plain = m.splitOn ',' := by
  have hsome : Function.Injective (List.map (some : List Char → Option (List Char))) :=
    List.map_injective_iff.2 fun _ _ => Option.some.inj
  calc (∀ piece ∈ m.splitOn ',', Verbatim piece)
      ↔ (m.splitOn ',').map shown? = (m.splitOn ',').map some := List.map_inj_left.symm
    _ ↔ (values.map Settings.plain).map some = (m.splitOn ',').map some := by
        rw [map_shown?_splitOn hm hvalues, List.map_map]
        rfl
    _ ↔ values.map Settings.plain = m.splitOn ',' := hsome.eq_iff

theorem comma_not_mem_plain {values : List Value} (hm : Unescaped m)
    (hvalues : (m.splitOn ',').map scalar = values.map .ok) (hv : v ∈ values) :
    ',' ∉ Settings.plain v := by
  intro hcomma
  have hmem : some (Settings.plain v) ∈ (m.splitOn ',').map shown? :=
    map_shown?_splitOn hm hvalues ▸ List.mem_map_of_mem hv
  obtain ⟨piece, hpiece, hshows⟩ := List.mem_map.1 hmem
  have hinside := mem_of_mem_shown? hshows hcomma (by decide)
  exact (Text.of_mem_splitOn hpiece hinside).2 rfl

theorem list_shows_iff {values : List Value} (hm : Unescaped m) (hne : m ≠ [])
    (hvalues : (m.splitOn ',').map scalar = values.map .ok) :
    Settings.plain (.list (values.filter isItem)) = m ↔
      ∀ piece ∈ m.splitOn ',', piece ≠ [] ∧ Verbatim piece := by
  have hverbatim := verbatim_pieces_iff hm hvalues
  rw [Settings.plain, Settings.plainItems_eq_map]
  constructor
  · intro hjoin
    have hcommas : ∀ text ∈ (values.filter isItem).map Settings.plain, ',' ∉ text := by
      refine List.forall_mem_map.2 fun v hv => ?_
      exact comma_not_mem_plain hm hvalues (List.mem_of_mem_filter hv)
    have hnonempty : (values.filter isItem).map Settings.plain ≠ [] := by
      intro hnil
      rw [hnil] at hjoin
      exact hne hjoin.symm
    have htexts : (values.filter isItem).map Settings.plain = m.splitOn ',' := by
      rw [← hjoin, List.splitOn_intercalate ',' hcommas hnonempty]
    -- As many items are shown as there are pieces, so that none was left out.
    have hall : values.filter isItem = values := by
      refine List.filter_eq_self.2 (List.length_filter_eq_length_iff.1 ?_)
      have hlength : values.length = (m.splitOn ',').length := by
        simpa using (congrArg List.length hvalues).symm
      rw [hlength, ← htexts, List.length_map]
    rw [hall] at htexts
    refine fun piece hpiece => ⟨?_, hverbatim.2 htexts piece hpiece⟩
    rintro rfl
    have hscalar : scalar [] ∈ values.map .ok := hvalues ▸ List.mem_map_of_mem hpiece
    obtain ⟨v, hv, hnil⟩ := List.mem_map.1 hscalar
    have hitem := List.filter_eq_self.1 hall v hv
    rw [Except.ok.inj hnil] at hitem
    exact absurd hitem (by decide)
  · intro hpieces
    have htexts := hverbatim.1 fun piece hpiece => (hpieces piece hpiece).2
    have hall : values.filter isItem = values :=
      List.filter_eq_self.2 fun v hv => isItem_of_plain <|
        (hpieces _ (htexts ▸ List.mem_map_of_mem hv)).1
    rw [hall, htexts, List.intercalate_splitOn]

theorem restore_shows_iff (hm : Unescaped m) (hblank : ∀ c ∈ m, Text.isBlank c = false)
    (hne : m ≠ []) :
    (∃ v, restore m = .ok v ∧ Settings.plain v = m) ↔
      ∀ piece ∈ m.splitOn ',', piece ≠ [] ∧ Verbatim piece := by
  by_cases hcomma : ',' ∈ m
  · constructor
    · rintro ⟨v, hv, hshows⟩
      obtain ⟨values, hvalues, rfl⟩ := (restore_of_mem hm.double hblank hcomma).1 hv
      exact (list_shows_iff hm hne hvalues).1 hshows
    · intro hpieces
      obtain ⟨values, hvalues⟩ : ∃ values, (m.splitOn ',').mapM scalar = .ok values :=
        exists_ok_of_not_fails fun hfails => by
          obtain ⟨piece, hpiece, fault, hfault⟩ := fails_mapM.1 hfails
          have hself : shown? piece = some piece := (hpieces piece hpiece).2
          rw [shown?_eq_none_iff.2 (scalar_eq_error_iff.1 hfault).2] at hself
          cases hself
      have hvalues := mapM_eq_ok_iff.1 hvalues
      exact ⟨_, (restore_of_mem hm.double hblank hcomma).2 ⟨values, hvalues, rfl⟩,
        (list_shows_iff hm hne hvalues).2 hpieces⟩
  · rw [restore_of_not_mem hm.double hcomma, List.splitOn_eq_singleton hcomma,
      List.forall_mem_singleton, Verbatim, (shown?_eq hm).2]
    simp only [Option.map_eq_some_iff, toOption_eq_some, hne, ne_eq, not_false_eq_true, true_and]

/-! ## Literals in place of texts -/

/-- The texts that the marker of directives cannot be: the truth values, which are shown as
literals, and the zeros, which do not count as given. -/
def unmarked : List (List Char) :=
  ["true".toList, "false".toList, "0".toList, "0.0".toList, "-0.0".toList]

def markerOf (v : Value) : List Char :=
  if v.truthy then v.text else ['%']

theorem quote_mem_literal (s : String) :
    '"' ∈ Value.literal (.str s) ∨ '\'' ∈ Value.literal (.str s) := by
  rw [Value.literal, Text.quoted]
  split_ifs
  · exact Or.inl List.mem_cons_self
  · exact Or.inr List.mem_cons_self

theorem quote_mem_of_comma (hs : Unescaped s) (hv : scalar s = .ok v) (hcomma : ',' ∈ v.literal) :
    '"' ∈ v.literal ∨ '\'' ∈ v.literal := by
  obtain ⟨b, rfl, -⟩ | hnumber | ⟨-, rfl⟩ := scalar_ok_cases hs hv
  · cases b <;> exact absurd hcomma (by decide)
  · have htext : v.literal = v.text := by
      obtain ⟨k, rfl⟩ | ⟨x, rfl⟩ := number?_ok hnumber <;> rfl
    rw [htext] at hcomma
    exact absurd (List.all_eq_true.1 (all_number? hnumber) _ hcomma) (by decide)
  · exact quote_mem_literal _

theorem literal_list_ne {values : List Value} (hm : Unescaped m)
    (hblank : ∀ c ∈ m, Text.isBlank c = false) (hcomma : ',' ∈ m)
    (hvalues : ∀ v ∈ values, ∃ piece, Unescaped piece ∧ scalar piece = .ok v) :
    Value.literal (.list values) ≠ m := by
  rintro rfl
  match values with
  | [] => exact absurd hcomma (by decide)
  | [v] =>
    obtain ⟨piece, hpiece, hscalar⟩ := hvalues v (List.mem_singleton_self v)
    simp only [Value.literal, Value.literalItems, List.intercalate_singleton] at hm hcomma
    have hinside : ∀ c, c ≠ '[' → c ≠ ']' → (c ∈ '[' :: (v.literal ++ [']']) ↔ c ∈ v.literal) := by
      intro c hopen hclose
      simp [hopen, hclose]
    rw [hinside ',' (by decide) (by decide)] at hcomma
    obtain hquote | hquote := quote_mem_of_comma hpiece hscalar hcomma
    · exact hm.double ((hinside _ (by decide) (by decide)).2 hquote)
    · exact hm.single ((hinside _ (by decide) (by decide)).2 hquote)
  | v :: w :: rest =>
    have hspace : ' ' ∈ Value.literal (.list (v :: w :: rest)) := by
      simp [Value.literal, Value.literalItems, List.intercalate_cons_cons]
    exact absurd (hblank _ hspace) (by decide)

theorem not_truthy_of_unmarked (hnumber : number? m = .ok (some v)) (hm : m ∈ unmarked) :
    v.truthy = false := by
  simp only [unmarked, List.mem_cons, List.not_mem_nil, or_false] at hm
  rcases hm with rfl | rfl | rfl | rfl | rfl
  · cases hnumber
  · cases hnumber
  · obtain rfl : Value.int 0 = v := Option.some.inj (Except.ok.inj hnumber)
    rfl
  · obtain rfl : Value.float (.finite false 0 (-1074)) = v :=
      Option.some.inj (Except.ok.inj hnumber)
    rfl
  · obtain rfl : Value.float (.finite true 0 (-1074)) = v :=
      Option.some.inj (Except.ok.inj hnumber)
    rfl

theorem unmarked_of_not_truthy (hnumber : number? m = .ok (some v)) (hv : v.truthy = false) :
    v.text ∈ unmarked := by
  obtain ⟨k, rfl⟩ | ⟨x, rfl⟩ := number?_ok hnumber
  · obtain rfl : k = 0 := by simpa [Value.truthy] using hv
    decide
  · cases x with
    | nan => cases hv
    | infinite negative => cases hv
    | finite negative mantissa exponent =>
      obtain rfl : mantissa = 0 := by simpa [Value.truthy, Binary64.isZero] using hv
      cases negative with
      | false => exact (by decide : "0.0".toList ∈ unmarked)
      | true => exact (by decide : "-0.0".toList ∈ unmarked)

theorem number_marks_iff (hnumber : number? m = .ok (some v)) :
    markerOf v = m ↔ v.text = m ∧ m ∉ unmarked := by
  rw [markerOf]
  cases htruthy : v.truthy with
  | true =>
    have hother : m ∉ unmarked := fun hm => by
      rw [not_truthy_of_unmarked hnumber hm] at htruthy
      cases htruthy
    exact (and_iff_left hother).symm
  | false =>
    have htext := unmarked_of_not_truthy hnumber htruthy
    refine iff_of_false ?_ fun ⟨hself, hm⟩ => hm (hself ▸ htext)
    rintro rfl
    cases hnumber

theorem restore_marks_iff (hm : Unescaped m) (hblank : ∀ c ∈ m, Text.isBlank c = false)
    (hne : m ≠ []) :
    (∃ v, restore m = .ok v ∧ markerOf v = m) ↔ ',' ∉ m ∧ Verbatim m ∧ m ∉ unmarked := by
  by_cases hcomma : ',' ∈ m
  · refine iff_of_false ?_ fun h => h.1 hcomma
    rintro ⟨v, hv, hmarker⟩
    obtain ⟨values, hvalues, rfl⟩ := (restore_of_mem hm.double hblank hcomma).1 hv
    rw [markerOf] at hmarker
    split_ifs at hmarker with htruthy
    · refine literal_list_ne hm hblank hcomma (fun v hv => ?_) hmarker
      have hmem : .ok v ∈ (m.splitOn ',').map scalar :=
        hvalues ▸ List.mem_map_of_mem (List.mem_of_mem_filter hv)
      obtain ⟨piece, hpiece, hscalar⟩ := List.mem_map.1 hmem
      exact ⟨piece, hm.of_subset fun c hc => (Text.of_mem_splitOn hpiece hc).1, hscalar⟩
    · rw [← hmarker] at hcomma
      exact absurd hcomma (by decide)
  · rw [restore_of_not_mem hm.double hcomma, and_iff_right hcomma, Verbatim]
    cases hscalar : scalar m with
    | error fault =>
      rw [shown?_eq_none_iff.2 (scalar_eq_error_iff.1 hscalar).2]
      refine iff_of_false ?_ fun h => absurd h.1.symm (Option.some_ne_none m)
      rintro ⟨v, hv, -⟩
      cases hv
    | ok v =>
      simp only [Except.ok.injEq, exists_eq_left']
      obtain ⟨b, rfl, hb⟩ | hnumber | ⟨hnumber, rfl⟩ := scalar_ok_cases hm hscalar
      · rw [hb]
        cases b <;> decide
      · rw [number_marks_iff hnumber, shown?, hnumber, Option.some.injEq]
      · have hother : m ∉ unmarked := fun hmem => by
          simp only [unmarked, List.mem_cons, List.not_mem_nil, or_false] at hmem
          rcases hmem with rfl | rfl | rfl | rfl | rfl
          · cases hscalar
          · cases hscalar
          · cases hnumber
          · cases hnumber
          · cases hnumber
        refine iff_of_true ?_ ⟨by rw [shown?, hnumber], hother⟩
        have hgiven : (Value.ofChars m).truthy = true := by
          rw [Value.ofChars, Value.truthy, bne_iff_ne]
          exact fun hnil => hne (String.ofList_eq_empty_iff.1 hnil)
        rw [markerOf, if_pos hgiven]
        exact String.toList_ofList

end Coercion

/-! ## What is in force -/

inductive TextSetting where
  | join
  | comment
  | newLine
  | directive
  deriving DecidableEq, Repr

namespace TextSetting

def key : TextSetting → String
  | join => "join"
  | comment => "comment"
  | newLine => "new_line"
  | directive => "directive"

def inForce (settings : Record) : TextSetting → List Char
  | join => Settings.textOf settings "join" [' ']
  | comment => Settings.commentMarker settings
  | newLine => Settings.textOf settings "new_line" ['\\']
  | directive => Settings.directiveMarker settings

/-- The texts that are in force once a directive has given them. -/
def Keeps : TextSetting → List Char → Prop
  | directive, m => ',' ∉ m ∧ Coercion.Verbatim m ∧ m ∉ Coercion.unmarked
  | _, m => ∀ piece ∈ m.splitOn ',', piece ≠ [] ∧ Coercion.Verbatim piece

instance : (setting : TextSetting) → (m : List Char) → Decidable (setting.Keeps m)
  | directive, _ => inferInstanceAs (Decidable (_ ∧ _))
  | join, m | comment, m | newLine, m =>
    inferInstanceAs (Decidable (∀ piece ∈ m.splitOn ',', piece ≠ [] ∧ Coercion.Verbatim piece))

variable {m : List Char}

theorem isKey_key (setting : TextSetting) : Directive.IsKey setting.key.toList := by
  cases setting <;>
    exact ⟨by decide, Text.unblank_of_all (by decide), by decide, by decide⟩

theorem ofChars_key (setting : TextSetting) : Path.ofChars setting.key.toList = [setting.key] := by
  cases setting <;> rfl

def shows : TextSetting → Value → List Char
  | directive, v => Coercion.markerOf v
  | _, v => Settings.plain v

theorem inForce_of_get? {settings : Record} {setting : TextSetting} {v : Value}
    (h : Table.get? settings setting.key = some v) (hv : v.Writable) :
    setting.inForce settings = setting.shows v := by
  have htext : ∀ {name default}, Table.get? settings name = some v →
      Settings.textOf settings name default = Settings.plain v := fun hname => by
    rw [Settings.textOf, hname, Option.getD_some, Settings.textOr_of_not_null hv.isNull]
  cases setting with
  | join => exact htext h
  | comment => exact htext h
  | newLine => exact htext h
  | directive =>
    have hmarker : Table.get? settings "directive" = some v := h
    simp only [inForce, shows, Settings.directiveMarker, hmarker, Coercion.markerOf]

theorem restore_keeps_iff (setting : TextSetting) (hm : Coercion.Unescaped m)
    (hblank : ∀ c ∈ m, Text.isBlank c = false) (hne : m ≠ []) :
    (∃ v, Coercion.restore m = .ok v ∧ setting.shows v = m) ↔ setting.Keeps m := by
  cases setting with
  | directive => exact Coercion.restore_marks_iff hm hblank hne
  | _ => exact Coercion.restore_shows_iff hm hblank hne

/-- A text without blanks, quotes and backslashes that a directive gives is in force afterwards if
and only if the setting keeps it. -/
theorem parsed_in_force_iff (setting : TextSetting) (hne : m ≠ [])
    (hblank : ∀ c ∈ m, Text.isBlank c = false) (hdouble : '"' ∉ m) (hsingle : '\'' ∉ m)
    (hescape : '\\' ∉ m) (scope : Scope) (d : Draft) :
    (∃ t, (Directive.store scope ("parse ".toList ++ setting.key.toList ++ ' ' :: m)).run d =
        .ok () t ∧ setting.inForce t.settings = m) ↔ setting.Keeps m := by
  have hvalue : Text.SinglySpaced m := by
    refine ⟨Text.trim_of_forall hblank, fun c hc hblanked => ?_, fun hspaces => ?_⟩
    · rw [hblank c hc] at hblanked
      cases hblanked
    · exact absurd (hblank ' ' (hspaces.subset List.mem_cons_self)) (by decide)
  rw [← restore_keeps_iff setting ⟨hdouble, hsingle, hescape⟩ hblank hne,
    Directive.run_store (Directive.ofChars_parse setting.isKey_key hvalue)]
  have hforce : ∀ {v}, Coercion.restore m = .ok v →
      setting.inForce (d.override [setting.key] v).settings = setting.shows v := fun hv =>
    inForce_of_get? (Draft.get?_settings_override _ _ _) (Coercion.writable_restore hv)
  constructor
  · rintro ⟨t, hrun, ht⟩
    obtain ⟨v, hv, rfl⟩ := Directive.effect_of_perform hrun
    rw [setting.ofChars_key, hforce hv] at ht
    exact ⟨v, hv, ht⟩
  · rintro ⟨v, hv, hshows⟩
    refine ⟨d.override [setting.key] v, ?_, (hforce hv).trans hshows⟩
    have hstored : Directive.stored (.ofChars m) = .ok v := (Directive.stored_ofChars m).trans hv
    rw [Directive.perform, Directive.writeSetting, hstored, setting.ofChars_key]
    rfl

/-- Several texts with commas between them join lines, and an integer marks directives. -/
theorem listed_join_in_force :
    let does (s : String) := (Directive.store ⟨"A", none⟩ s.toList).run
      (.start .empty Settings.defaults)
    (∃ t, does "parse join --,1,true" = .ok () t ∧
      join.inForce t.settings = "--,1,true".toList) ∧
    ∃ t, does "parse directive 10" = .ok () t ∧ directive.inForce t.settings = "10".toList :=
  ⟨(join.parsed_in_force_iff (by decide) (Text.unblank_of_all (by decide)) (by decide) (by decide)
      (by decide) ⟨"A", none⟩ (.start .empty Settings.defaults)).2 (by decide +kernel),
    (directive.parsed_in_force_iff (by decide) (Text.unblank_of_all (by decide)) (by decide)
      (by decide) (by decide) ⟨"A", none⟩ (.start .empty Settings.defaults)).2 (by decide +kernel)⟩

example : ¬ join.Keeps "a,".toList ∧ ¬ comment.Keeps "007".toList ∧ comment.Keeps "true".toList ∧
    ¬ directive.Keeps "true".toList := by
  decide +kernel

end TextSetting

end Playscript
