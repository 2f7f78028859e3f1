import Playscript.Proofs.Compiler.Entries
import Playscript.Proofs.Settings
import Playscript.Proofs.Staging.Building
import Playscript.Staging

/-!
# Interpreting contents directly

Compiling takes the defaults out of the contents of an act and puts them into its table of
placeholders; building looks the bare names up again. The two steps together are a direct reading
of the contents as they are written: a placeholder stands for what the context holds for its name,
else for the first default written for the name in the act, else for the sentinel.
-/
namespace Playscript

open Script (Piece Placeholder)

namespace Interpretation

def lookup (context : Record) (name : String) : Except Fault Value := do
  let value ← Path.get (.dict context) (Path.ofString name)
  if value.isNull ∧ '.' ∈ name.toList then return (Table.get? context name).getD .null
  else return value

def defaultFor (placeholders : List Placeholder) (name : String) : Except Fault Value :=
  match placeholders.find? fun p => p.name = name ∧ p.default?.isSome with
  | some p => p.written
  | none => .ok .null

def valueOf (context : Record) (sentinel : String) (contents : List (List Char))
    (name : String) : Except Fault Value := do
  let value ← lookup context name
  if !value.isNull then return value
  else
    let value ← defaultFor (contents.flatMap Placeholder.ofContent) name
    if !value.isNull then return value else return .str sentinel

variable [Interpreter]

def piece (context : Record) (sentinel : String) (contents : List (List Char)) :
    Piece → Except Fault (List Char)
  | .char c => .ok [c]
  | .token inside =>
    match Placeholder.ofInside? inside with
    | none => .ok (Piece.source (.token inside))
    | some p => do
      (← valueOf context sentinel contents p.name).written Value.render

def content (context : Record) (sentinel : String) (contents : List (List Char))
    (written : List Char) : Except Fault (List Char) :=
  List.flatten <$> (Piece.scan written).mapM (piece context sentinel contents)

end Interpretation

/-! ## The table of placeholders -/

theorem Script.Placeholder.isNull_written {p : Placeholder} {v : Value} (h : p.written = .ok v) :
    v.isNull = !p.default?.isSome := by
  rw [written] at h
  split at h
  · next text htext =>
    rw [htext]
    cases v with
    | null => cases (Coercion.writable_scalar h).isNull
    | _ => rfl
  · next hnone =>
    cases h
    rw [hnone]
    rfl

namespace Act

theorem foldl_say (settings : Record) (act : Act) (entries : List Entry) :
    entries.foldl (Act.say settings) act =
      { act.register ((entries.map (Entry.content settings)).flatMap Placeholder.ofContent) with
        messages := act.messages ++ entries.map (Entry.message settings) } := by
  have hheard := foldl_hear settings act (entries.map (Entry.told settings))
  rw [List.foldl_map, List.map_map, List.map_map] at hheard
  exact hheard

def held (act : Act) (name : String) : Value := (Table.get? act.placeholders name).getD .null

theorem held_storePlaceholder (act : Act) (name other : String) (default : Value) :
    (act.storePlaceholder name default).held other =
      if name = other ∧ (act.held other).isNull then default else act.held other := by
  simp only [held, storePlaceholder]
  by_cases hname : name = other
  · subst hname
    by_cases hnull : ((Table.get? act.placeholders name).getD .null).isNull
    · simp only [hnull, and_self, if_true, Table.get?_set, Option.getD_some]
    · simp only [hnull, and_false, Bool.false_eq_true, if_false]
  · simp only [hname, false_and, if_false]
    split_ifs
    · rw [Table.get?_set, if_neg hname]
    · rfl

theorem held_register (act : Act) {placeholders : List Placeholder}
    (hwritten : ∀ p ∈ placeholders, ∃ v, p.written = .ok v) (name : String) :
    (if (act.held name).isNull then Interpretation.defaultFor placeholders name
      else .ok (act.held name)) = .ok ((act.register placeholders).held name) := by
  induction placeholders generalizing act with
  | nil =>
    split_ifs with hnull
    · cases hheld : act.held name with
      | null => exact congrArg Except.ok hheld.symm
      | _ => rw [hheld] at hnull; cases hnull
    · rfl
  | cons p rest ih =>
    obtain ⟨⟨v, hv⟩, hrest⟩ := List.forall_mem_cons.1 hwritten
    have hnull := Placeholder.isNull_written hv
    have hvalue : p.written.toOption.getD .null = v := by rw [hv]; rfl
    rw [register_cons, ← ih _ hrest, hvalue, held_storePlaceholder]
    simp only [Interpretation.defaultFor, List.find?_cons]
    cases hheld : (act.held name).isNull with
    | false => simp [hheld]
    | true =>
      by_cases hname : p.name = name
      · cases hdefault : p.default?.isSome with
        | true =>
          rw [hdefault] at hnull
          simp [hname, hnull, hv]
        | false =>
          rw [hdefault] at hnull
          simp [hname, hnull]
      · simp [hname, hheld]

end Act

/-! ## Staged scripts -/

namespace Staging

/-- A staging of a script under settings that the script leaves alone: in each act is said what the
entries of the script say. -/
structure Reads (settings : Record) (text : String) (staging : Staging) : Prop where
  opened : staging.settings = settings
  keys : Table.get? settings "keys" = some (.dict (Settings.keys settings))
  overrides : staging.scenario.overrides = []
  written : ∀ entry ∈ Entry.ofText settings text,
    ∀ p ∈ Placeholder.ofContent (entry.content settings), ∃ v, p.written = .ok v
  spoken : ∀ act, ((staging.scenario.act? act).getD .empty).spoken =
    ((Entry.ofText settings text).filter (·.act = act)).foldl (Act.say settings) .empty

theorem reads_of_ofText {settings given : Record} {text : String} {staging : Staging}
    (hsettings : Settings.overlay Settings.defaults given = .ok settings)
    (hplain : Compiler.PlainScript settings text) (h : ofText text given = .ok staging) :
    staging.Reads settings text := by
  obtain ⟨d, hrun, rfl⟩ := (ofText_eq_ok hsettings).1 h
  have htrace := Compiler.trace_run hrun
  obtain ⟨hquiet, hopen⟩ := hplain.quiet_open hrun
  refine ⟨?_, Settings.keys_overlay hsettings, ?_, fun entry hentry => ?_, fun act => ?_⟩
  · simp only [htrace.changed.2.1, hquiet.changes_eq, Sharing.follow]
  · rw [htrace.overrides_eq hopen, hquiet.changes_eq]
    rfl
  · have htold := List.mem_map_of_mem (f := Entry.told settings) hentry
    rw [← Compiler.message?_events hrun hquiet] at htold
    exact (htrace.heard (Compiler.mem_of_message? htold)).written
  · have hspoken := htrace.spoken_eq hquiet.namedBy act
    rw [Compiler.toldIn_eq hrun hquiet, List.foldl_map] at hspoken
    exact hspoken

variable {settings : Record} {text : String} {staging : Staging}

theorem Reads.setting (h : staging.Reads settings text) (key fallback : String) :
    staging.setting ["keys", key] fallback = Settings.nameOf settings key fallback := by
  have hfind : Path.find (.dict settings) ["keys", key] =
      (Table.get? (Settings.keys settings) key).getD .null := by
    simp only [Path.find, Path.get, h.keys]
    cases Table.get? (Settings.keys settings) key with
    | none => rfl
    | some v => simp only [Option.getD_some]
  have hnull : (Path.find (.dict []) ["keys", key]).isNull = true := rfl
  simp only [Staging.setting, settingValue, h.overrides, h.opened, hnull, if_true, hfind,
    Settings.nameOf, Settings.textOf]
  cases (Table.get? (Settings.keys settings) key).getD .null <;> rfl

def contents (settings : Record) (text : String) (act : String) : List (List Char) :=
  ((Entry.ofText settings text).filter (·.act = act)).map (Entry.content settings)

theorem Reads.messages (h : staging.Reads settings text) {name : String} {act : Act}
    (hact : staging.scenario.act? name = some act) :
    act.messages =
      ((Entry.ofText settings text).filter (·.act = name)).map (Entry.message settings) := by
  have hspoken := h.spoken name
  rw [hact, Act.foldl_say] at hspoken
  have hact' : act.messages = ((some act).getD .empty).spoken.messages := rfl
  rw [hact', hspoken]
  exact List.nil_append _

theorem Reads.placeholders (h : staging.Reads settings text) {name : String} {act : Act}
    (hact : staging.scenario.act? name = some act) :
    act.placeholders = (Act.register .empty
      ((contents settings text name).flatMap Placeholder.ofContent)).placeholders := by
  have hspoken := h.spoken name
  rw [hact, Act.foldl_say, ← contents] at hspoken
  have hact' : act.placeholders = ((some act).getD .empty).spoken.placeholders := rfl
  rw [hact', hspoken]

theorem Reads.held (h : staging.Reads settings text) {name : String} {act : Act}
    (hact : staging.scenario.act? name = some act) (key : String) :
    Interpretation.defaultFor ((contents settings text name).flatMap Placeholder.ofContent) key =
      .ok (act.held key) := by
  have hall : ∀ p ∈ (contents settings text name).flatMap Placeholder.ofContent,
      ∃ v, p.written = .ok v := by
    intro p hp
    obtain ⟨content, hcontent, hp⟩ := List.mem_flatMap.1 hp
    obtain ⟨entry, hentry, rfl⟩ := List.mem_map.1 hcontent
    exact h.written entry (List.mem_of_mem_filter hentry) p hp
  have hregister := Act.held_register .empty hall key
  have hnull : (Act.empty.held key).isNull = true := rfl
  rw [if_pos hnull] at hregister
  rw [hregister, Act.held, Act.held, h.placeholders hact]

theorem Reads.valueOf (h : staging.Reads settings text) {name : String} {act : Act}
    (hact : staging.scenario.act? name = some act) (context : Record) (key : String) :
    staging.valueOf (.dict context) act.placeholders ⟨key, none⟩ =
      Interpretation.valueOf context staging.sentinel (contents settings text name) key := by
  have hheld : (Table.get? act.placeholders key).getD .null = act.held key := rfl
  simp only [Staging.valueOf, Interpretation.valueOf, Interpretation.lookup, h.held hact, hheld]
  cases hget : Path.get (.dict context) (Path.ofString key) with
  | error fault => rfl
  | ok value =>
    simp only [bind, Except.bind, pure, Except.pure]
    by_cases hdotted : value.isNull ∧ '.' ∈ key.toList
    · simp only [if_pos hdotted, Value.asRecord, Functor.map, Except.map]
      cases (Table.get? context key).getD .null with
      | null => cases act.held key <;> rfl
      | _ => rfl
    · simp only [if_neg hdotted]
      cases value with
      | null => cases act.held key <;> rfl
      | _ => rfl

section

variable [Interpreter]

theorem Reads.substitute (h : staging.Reads settings text) {name : String} {act : Act}
    (hact : staging.scenario.act? name = some act) (context : Record) (piece : Piece) :
    staging.substitute (.dict context) act.placeholders piece.bare =
      Interpretation.piece context staging.sentinel (contents settings text name) piece := by
  cases piece with
  | char c => rfl
  | token inside =>
    cases hinside : Placeholder.ofInside? inside with
    | none =>
      simp only [Piece.bare, Piece.mapInside, Placeholder.bareInside, hinside,
        Staging.substitute_of_none hinside, Interpretation.piece]
    | some p =>
      simp only [Piece.bare, Piece.mapInside, Placeholder.bareInside, hinside,
        Staging.substitute_of_some (Placeholder.ofInside?_name hinside), Interpretation.piece,
        h.valueOf hact]

theorem Reads.replace (h : staging.Reads settings text) {name : String} {act : Act}
    (hact : staging.scenario.act? name = some act) (context : Record) (written : List Char) :
    staging.replace (.dict context) act.placeholders
        (Piece.sources ((Piece.scan written).map Piece.bare)) =
      Interpretation.content context staging.sentinel (contents settings text name) written := by
  simp only [Staging.replace, Piece.scan_bare, List.mapM_map, Interpretation.content]
  exact congrArg (List.flatten <$> (Piece.scan written).mapM ·)
    (funext fun piece => h.substitute hact context piece)

/-! ## Building -/

/-- Building a staged script whose directives leave the settings alone reads its contents directly:
the content of every built message is what the content of that number in its act stands for. -/
theorem build_reads_contents {given : Record}
    (hsettings : Settings.overlay Settings.defaults given = .ok settings)
    (hplain : Compiler.PlainScript settings text) (hstaging : ofText text given = .ok staging)
    (hkeys : staging.roleKey ≠ staging.contentKey) {context : Record} {act : Option String}
    {built : List (Nat × Record)} (hbuilt : staging.buildIndexed (.dict context) act = .ok built)
    {i : Nat} {m : Record} (him : (i, m) ∈ built) :
    let contents := contents settings text (staging.actOrDefault act)
    ∃ written content, contents[i]? = some written ∧
      Interpretation.content context staging.sentinel contents written = .ok content ∧
      Table.get? m staging.contentKey = some (.ofChars content) := by
  intro contents
  have hreads := reads_of_ofText hsettings hplain hstaging
  have hcontext : (if (Value.dict context).truthy then Value.dict context else .dict []) =
      .dict context := by cases context <;> rfl
  simp only [buildIndexed, hcontext] at hbuilt
  cases hact : staging.scenario.act? (staging.actOrDefault act) with
  | none =>
    rw [hact] at hbuilt
    cases hbuilt
    cases him
  | some found =>
    simp only [hact] at hbuilt
    obtain ⟨message, -, hmessage, hm⟩ := getElem?_of_mem_buildFrom hbuilt him
    obtain ⟨content, hcontent, hget⟩ := get?_of_buildMessage hkeys hm
    rw [Nat.sub_zero, hreads.messages hact, List.getElem?_map] at hmessage
    obtain ⟨entry, hentry, rfl⟩ := Option.map_eq_some_iff.1 hmessage
    have htext : textAt (entry.message settings) staging.format.contentKey =
        Piece.sources ((Piece.scan (entry.content settings)).map Piece.bare) := by
      have hkey : staging.format.contentKey = Settings.contentKey settings := hreads.setting _ _
      have hmessage : entry.message settings = Table.set
          [(Settings.roleKey settings, .ofChars (Script.roleName entry.head))]
          (Settings.contentKey settings) (.ofChars
            (Piece.sources ((Piece.scan (entry.content settings)).map Piece.bare))) := rfl
      rw [textAt, hkey, hmessage, Table.get?_set, if_pos rfl, Option.map_some, Option.getD_some,
        Value.ofChars, Value.text_str, String.toList_ofList]
    rw [htext] at hcontent
    refine ⟨entry.content settings, content, ?_, ?_, hget⟩
    · simp only [contents, Staging.contents, List.getElem?_map, hentry, Option.map_some]
    · exact (hreads.replace hact context _).symm.trans hcontent

end

/-- Two messages of which the second one gives the default of the name in the first. -/
theorem two_messages_read_contents :
    let text := "user:\nhi \x7bx\x7d\n\nuser:\nbye \x7bx|you\x7d"
    let contents := contents Settings.defaults text "default"
    ∃ staging built m, ofText text [] = .ok staging ∧
      staging.buildIndexed (.dict []) none = .ok built ∧ (0, m) ∈ built ∧
      contents[0]? = some "hi \x7bx\x7d".toList ∧
      Interpretation.content [] "???" contents "hi \x7bx\x7d".toList = .ok "hi you".toList ∧
      textAt m "role" = "user".toList ∧ Table.get? m "content" = some (.str "hi you") := by
  intro text contents
  have hsettings : Settings.overlay Settings.defaults [] = .ok Settings.defaults := rfl
  have hplain : Compiler.PlainScript Settings.defaults text := by
    have hmarks : ∀ block ∈ Script.blocks text.toList, ∀ line ∈ block.lines,
        Directive.marks (Settings.directiveMarker Settings.defaults) line = false := by decide
    intro block hblock line hline hmarked
    rw [hmarks block hblock line hline] at hmarked
    cases hmarked
  have hcontents : contents[0]? = some "hi \x7bx\x7d".toList := by decide +kernel
  have hcontent : (Interpretation.content [] "???" contents "hi \x7bx\x7d".toList).toOption =
      some "hi you".toList := by decide +kernel
  have hrun : (ofText text []).toOption.any (fun staging =>
      decide (staging.roleKey = "role" ∧ staging.contentKey = "content" ∧
        staging.sentinel = "???" ∧ staging.actOrDefault none = "default") &&
        (staging.buildIndexed (.dict []) none).toOption.any fun rows => rows.head?.any fun row =>
          row.1 == 0 && textAt row.2 "role" == "user".toList) = true := by decide +kernel
  cases hstaging : ofText text [] with
  | error fault => rw [hstaging] at hrun; cases hrun
  | ok staging =>
    rw [hstaging] at hrun
    obtain ⟨hnames, hbuilt⟩ := Bool.and_eq_true_iff.1 hrun
    obtain ⟨hrole, hkey, hsentinel, hact⟩ := of_decide_eq_true hnames
    cases hrows : staging.buildIndexed (.dict []) none with
    | error fault => rw [hrows] at hbuilt; cases hbuilt
    | ok rows =>
      rw [hrows] at hbuilt
      cases rows with
      | nil => cases hbuilt
      | cons row rest =>
        obtain ⟨first, m⟩ := row
        obtain ⟨hfirst, hspoken⟩ := Bool.and_eq_true_iff.1 hbuilt
        obtain rfl : first = 0 := beq_iff_eq.1 hfirst
        have hkeys : staging.roleKey ≠ staging.contentKey := by
          rw [hrole, hkey]
          decide
        obtain ⟨written, content, hwritten, hread, hget⟩ :=
          build_reads_contents hsettings hplain hstaging hkeys hrows List.mem_cons_self
        rw [hact] at hwritten hread
        obtain rfl := Option.some.inj (hcontents.symm.trans hwritten)
        rw [hsentinel] at hread
        rw [hread] at hcontent
        obtain rfl : content = "hi you".toList := Option.some.inj hcontent
        rw [hkey, Value.ofChars, String.ofList_toList] at hget
        exact ⟨staging, _, m, rfl, hrows, List.mem_cons_self, hcontents, hread,
          beq_iff_eq.1 hspoken, hget⟩

end Staging

end Playscript
