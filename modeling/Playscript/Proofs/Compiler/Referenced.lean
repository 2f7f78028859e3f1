import Playscript.Proofs.Compiler.Scalars
import Playscript.Proofs.Staging.Interpretation

/-!
# What the contents of an act refer to

The table of placeholders of a compiled act lists the names that its stored contents refer to, in
the order in which they are first met, each with the first default that was written for it. What is
stored refers to names by bare tokens, so reading it once more stores the same content and leaves
the table as it is. Both come from what one message does to an act: it registers the placeholders of
its content and is stored with their bare names.
-/
namespace Playscript

open Script (Piece Placeholder)

/-! ## Bare contents -/

namespace Script

def Piece.rewritten (content : List Char) : List Char :=
  Piece.sources ((Piece.scan content).map Piece.bare)

def Placeholder.withoutDefault (p : Placeholder) : Placeholder := { p with default := none }

theorem Placeholder.ofPiece?_bare (piece : Piece) :
    ofPiece? piece.bare = (ofPiece? piece).map withoutDefault := by
  cases piece with
  | char c => rfl
  | token inside =>
    have hpiece : ofPiece? (.token inside) = ofInside? inside := rfl
    have hbare : ofPiece? (Piece.token inside).bare = ofInside? (bareInside inside) := rfl
    rw [hpiece, hbare, bareInside]
    cases hinside : ofInside? inside with
    | none => exact hinside
    | some p => exact ofInside?_name hinside

theorem Placeholder.ofContent_rewritten (content : List Char) :
    ofContent (Piece.rewritten content) = (ofContent content).map withoutDefault := by
  rw [ofContent, Piece.rewritten, Piece.scan_bare, List.filterMap_map, ofContent,
    List.map_filterMap]
  exact congrArg (fun f => List.filterMap f _) (funext ofPiece?_bare)

theorem Piece.bare_bare (piece : Piece) : piece.bare.bare = piece.bare := by
  cases piece with
  | char c => rfl
  | token inside =>
    refine congrArg Piece.token ?_
    cases hinside : Placeholder.ofInside? inside with
    | none => simp only [Placeholder.bareInside, hinside]
    | some p => simp only [Placeholder.bareInside, hinside, Placeholder.ofInside?_name hinside]

theorem Piece.rewritten_rewritten (content : List Char) :
    rewritten (rewritten content) = rewritten content := by
  have hbare : bare ∘ bare = bare := funext bare_bare
  rw [rewritten, rewritten, scan_bare, List.map_map, hbare]

theorem Placeholder.default_of_rewritten {content : List Char} {p : Placeholder}
    (hp : p ∈ ofContent (Piece.rewritten content)) : p.default = none := by
  rw [ofContent_rewritten] at hp
  obtain ⟨q, -, rfl⟩ := List.mem_map.1 hp
  rfl

theorem Placeholder.inside_of_rewritten {content inside : List Char} {p : Placeholder}
    (hmem : .token inside ∈ Piece.scan (Piece.rewritten content))
    (hinside : ofInside? inside = some p) : inside = p.name.toList ∧ p.default = none := by
  rw [Piece.rewritten, Piece.scan_bare] at hmem
  obtain ⟨piece, -, hpiece⟩ := List.mem_map.1 hmem
  cases piece with
  | char c => cases hpiece
  | token raw =>
    obtain rfl : bareInside raw = inside := Piece.token.inj hpiece
    rw [bareInside] at hinside ⊢
    cases hraw : ofInside? raw with
    | none =>
      rw [hraw] at hinside
      exact absurd (hraw.symm.trans hinside) (by simp)
    | some q =>
      simp only [hraw, ofInside?_name hraw, Option.some.injEq] at hinside
      subst hinside
      exact ⟨rfl, rfl⟩

end Script

/-! ## The table of an act -/

namespace Act

def contents (act : Act) : List (List Char) :=
  act.messages.map fun message => (message.getLast?.map fun entry => entry.2.text).getD []

theorem contents_hear (settings : Record) (act : Act) (told : Told) :
    (act.hear settings told).contents = act.contents ++ [Piece.rewritten told.content] := by
  have hlast : ((told.record settings).getLast?.map fun entry => entry.2.text) =
      some (Piece.rewritten told.content) := by
    rw [Told.record_eq, ← Piece.rewritten]
    by_cases hnames : Settings.roleKey settings = Settings.contentKey settings
    · simp [Table.set, hnames, Value.ofChars]
    · simp [Table.set, hnames, Value.ofChars]
  have hmessages : (act.hear settings told).messages =
      act.messages ++ [told.record settings] := by
    rw [hear]
    exact congrArg (· ++ _) (messages_register act _)
  rw [contents, hmessages, List.map_append, List.map_singleton, hlast]
  rfl

theorem withoutMessages_hear (settings : Record) (act : Act) (told : Told) :
    { act.hear settings told with messages := [] } =
      register { act with messages := [] } (Placeholder.ofContent told.content) := by
  rw [register_withMessages]
  rfl

theorem keys_storePlaceholder (act : Act) (name : String) (default : Value) :
    (act.storePlaceholder name default).placeholders.keys =
      if name ∈ act.placeholders.keys then act.placeholders.keys
      else act.placeholders.keys ++ [name] := by
  simp only [storePlaceholder]
  by_cases hname : name ∈ act.placeholders.keys
  · split_ifs
    · rw [Table.keys_set, if_pos hname]
    · rfl
  · have hnone := (Table.get?_eq_none_iff act.placeholders name).2 hname
    have hnull : ((none : Option Value).getD .null).isNull = true := rfl
    rw [hnone, if_pos hnull, Table.keys_set]

theorem keys_register (act : Act) (placeholders : List Placeholder) :
    (act.register placeholders).placeholders.keys = act.placeholders.keys ++
      ((placeholders.map (·.name)).filter (· ∉ act.placeholders.keys)).eraseDups := by
  induction placeholders generalizing act with
  | nil => exact (List.append_nil _).symm
  | cons p rest ih =>
    rw [register_cons, ih, keys_storePlaceholder, List.map_cons, List.filter_cons]
    by_cases hname : p.name ∈ act.placeholders.keys
    · simp only [hname, if_true, not_true_eq_false, decide_false, Bool.false_eq_true, if_false]
    · simp only [hname, if_false, not_false_eq_true, decide_true, if_true, List.eraseDups_cons,
        List.append_assoc, List.singleton_append, List.filter_filter, List.mem_append,
        List.mem_singleton, not_or]
      congr 4
      funext other
      by_cases hother : other = p.name
      · simp [hother]
      · simp [hother]

theorem hasPlaceholders_register (act : Act) (placeholders : List Placeholder) :
    (act.register placeholders).hasPlaceholders =
      (act.hasPlaceholders || !placeholders.isEmpty) := by
  induction placeholders generalizing act with
  | nil => exact (Bool.or_false _).symm
  | cons p rest ih =>
    rw [register_cons, ih]
    exact (Bool.true_or _).trans (Bool.or_true _).symm

theorem storePlaceholder_null {act : Act} {name : String} (hknown : name ∈ act.placeholders.keys)
    (hflag : act.hasPlaceholders = true) : act.storePlaceholder name .null = act := by
  obtain ⟨v, hv⟩ := Option.ne_none_iff_exists'.1
    fun hnone => (Table.get?_eq_none_iff act.placeholders name).1 hnone hknown
  have htable : (act.storePlaceholder name .null).placeholders = act.placeholders := by
    simp only [storePlaceholder, hv, Option.getD_some]
    cases v with
    | null => exact Table.set_of_get? hv
    | _ => rfl
  have hact : act.storePlaceholder name .null =
      { act with
        placeholders := (act.storePlaceholder name .null).placeholders
        hasPlaceholders := true } := rfl
  rw [hact, htable, ← hflag]

theorem register_of_known {act : Act} {placeholders : List Placeholder}
    (hbare : ∀ p ∈ placeholders, p.default = none)
    (hknown : ∀ p ∈ placeholders, p.name ∈ act.placeholders.keys)
    (hflag : placeholders ≠ [] → act.hasPlaceholders = true) :
    act.register placeholders = act := by
  induction placeholders with
  | nil => rfl
  | cons p rest ih =>
    obtain ⟨hp, hrest⟩ := List.forall_mem_cons.1 hbare
    obtain ⟨hname, hnames⟩ := List.forall_mem_cons.1 hknown
    have hflag := hflag (List.cons_ne_nil _ _)
    have hnull : p.written.toOption.getD .null = .null := by
      rw [Placeholder.written, Placeholder.default?, hp]
      rfl
    rw [register_cons, hnull, storePlaceholder_null hname hflag]
    exact ih hrest hnames fun _ => hflag

end Act

namespace Compiler

variable {settings : Record} {source : List Script.Line} {past : List Event} {d : Draft}

theorem Trace.seen_eq {β : Type} (h : Trace settings source past d) (view : Act → β)
    (change : β → Told → β)
    (hview : ∀ settings act told, view (act.hear settings told) = change (view act) told)
    (name : String) :
    view (d.spoken name) = (toldIn name past).foldl change (view .empty) := by
  induction h with
  | start => rfl
  | @register past d h other description ih =>
    rw [← ih, (d.calm_ensureAct other description).same]
  | directive h hline hmarks hread hrun ih =>
    rw [toldIn_append, List.foldl_append, ← ih,
      (Draft.calm_of_effect (Directive.effect_of_perform hrun)).same]
    rfl
  | @message past before d e h told hknown hwritten hbefore hearlier hhead hcomment ih =>
    rw [toldIn_append, List.foldl_append, ← ih,
      Draft.spoken_modifyAct hknown (·.hear d.settings told) (·.hear d.settings told)
        fun act => Act.spoken_hear d.settings act told]
    by_cases hact : told.act = name
    · simp [toldIn, Event.message?, hact, hview]
    · simp [toldIn, Event.message?, hact]

theorem Trace.contents_eq (h : Trace settings source past d) (name : String) :
    (d.spoken name).contents =
      ((toldIn name past).map Told.content).map Piece.rewritten := by
  have hseen := h.seen_eq Act.contents (fun contents told =>
    contents ++ [Piece.rewritten told.content]) Act.contents_hear name
  rw [hseen, List.map_map, List.foldl_append_eq_append]
  exact List.map_eq_flatMap.symm

theorem Trace.table_eq (h : Trace settings source past d) (name : String) :
    { d.spoken name with messages := [] } =
      Act.register .empty
        (((toldIn name past).map Told.content).flatMap Placeholder.ofContent) := by
  have hseen := h.seen_eq (fun act => { act with messages := [] })
    (fun act told => act.register (Placeholder.ofContent told.content))
    Act.withoutMessages_hear name
  rw [hseen, List.flatMap_map, Act.register, List.foldl_flatMap]
  rfl

/-- The contents of an act as they are written in a script, without comments and directives. -/
def writtenIn (text : String) (settings : Record) (name : String) : List (List Char) :=
  (toldIn name (events text settings)).map Told.content

end Compiler

/-! ## The table as a reading of the contents -/

/-- The table of an act whose contents are the given ones as they are written: what is stored of
them refers to the names of the table, bare and first met in its order, and each name has the first
default written for it. -/
structure Act.Tabulates (act : Act) (written : List (List Char)) : Prop where
  contents : act.contents = written.map Piece.rewritten
  keys : act.placeholders.keys =
    ((act.contents.flatMap Placeholder.ofContent).map (·.name)).eraseDups
  bare : ∀ content ∈ act.contents, ∀ inside p, .token inside ∈ Piece.scan content →
    Placeholder.ofInside? inside = some p → inside = p.name.toList ∧ p.default = none
  value : ∀ key v, Table.get? act.placeholders key = some v →
    Interpretation.defaultFor (written.flatMap Placeholder.ofContent) key = .ok v
  flag : act.hasPlaceholders = true ↔ act.placeholders ≠ []

namespace Script

theorem Placeholder.names_rewritten (written : List (List Char)) :
    ((written.map Piece.rewritten).flatMap ofContent).map (·.name) =
      (written.flatMap ofContent).map (·.name) := by
  rw [List.flatMap_map, List.map_flatMap, List.map_flatMap]
  refine congrArg (fun f => List.flatMap f written) (funext fun content => ?_)
  rw [ofContent_rewritten, List.map_map]
  rfl

end Script

theorem Act.tabulates_of_register {act : Act} {written : List (List Char)}
    (hcontents : act.contents = written.map Piece.rewritten)
    (htable : { act.spoken with messages := [] } =
      Act.register .empty (written.flatMap Placeholder.ofContent))
    (hwritten : ∀ p ∈ written.flatMap Placeholder.ofContent, ∃ v, p.written = .ok v) :
    act.Tabulates written := by
  have hplaceholders : act.placeholders =
      (Act.register .empty (written.flatMap Placeholder.ofContent)).placeholders := by
    rw [← htable]
    rfl
  have hflag : act.hasPlaceholders =
      (Act.register .empty (written.flatMap Placeholder.ofContent)).hasPlaceholders := by
    rw [← htable]
    rfl
  have hkeys : act.placeholders.keys =
      ((written.flatMap Placeholder.ofContent).map (·.name)).eraseDups := by
    rw [hplaceholders, keys_register]
    simp [Act.empty, Table.keys]
  refine ⟨hcontents, ?_, fun content hcontent inside p hmem hinside => ?_, fun key v hv => ?_,
    ?_⟩
  · rw [hkeys, hcontents, Placeholder.names_rewritten]
  · rw [hcontents] at hcontent
    obtain ⟨raw, -, rfl⟩ := List.mem_map.1 hcontent
    exact Placeholder.inside_of_rewritten hmem hinside
  · have hheld := held_register .empty hwritten key
    have hnull : (Act.empty.held key).isNull = true := rfl
    rw [if_pos hnull] at hheld
    rw [hheld, held, ← hplaceholders, hv, Option.getD_some]
  · rw [hflag, hasPlaceholders_register]
    rw [Table.keys] at hkeys
    cases hall : written.flatMap Placeholder.ofContent with
    | nil =>
      rw [hall] at hkeys
      have hnil : act.placeholders = [] := List.map_eq_nil_iff.1 hkeys
      simp [hnil, Act.empty]
    | cons p rest =>
      rw [hall, List.map_cons, List.eraseDups_cons] at hkeys
      have hne : act.placeholders ≠ [] := fun hnil => by simp [hnil] at hkeys
      simp [hne]

theorem Act.Tabulates.exists_rewritten {act : Act} {written : List (List Char)}
    (h : act.Tabulates written) {content : List Char} (hcontent : content ∈ act.contents) :
    ∃ raw, content = Piece.rewritten raw := by
  rw [h.contents] at hcontent
  obtain ⟨raw, -, rfl⟩ := List.mem_map.1 hcontent
  exact ⟨raw, rfl⟩

theorem Act.Tabulates.register {act : Act} {written : List (List Char)} (h : act.Tabulates written)
    {content : List Char} (hcontent : content ∈ act.contents) :
    act.register (Placeholder.ofContent content) = act := by
  have hknown : ∀ p ∈ Placeholder.ofContent content, p.name ∈ act.placeholders.keys := by
    intro p hp
    rw [h.keys]
    exact List.mem_eraseDups.2
      (List.mem_map_of_mem (List.mem_flatMap.2 ⟨content, hcontent, hp⟩))
  refine register_of_known (fun p hp => ?_) hknown fun hne => h.flag.2 fun hnil => ?_
  · obtain ⟨raw, rfl⟩ := h.exists_rewritten hcontent
    exact Placeholder.default_of_rewritten hp
  · obtain ⟨p, hp⟩ := List.exists_mem_of_ne_nil _ hne
    have hname := hknown p hp
    rw [hnil] at hname
    cases hname

namespace Compiler

theorem storePieces_without_defaults {name : String} {content : List Char} (d : Draft)
    (hbare : ∀ p ∈ Placeholder.ofContent content, p.default = none) :
    (storePieces name (Piece.scan content)).run d = .ok (Piece.rewritten content) { d with
      scenario := d.scenario.modifyAct name (·.register (Placeholder.ofContent content)) } := by
  have hscalars : (Placeholder.ofContent content).flatMap Placeholder.scalars = [] := by
    refine List.flatMap_eq_nil_iff.2 fun p hp => ?_
    rw [Placeholder.scalars, Placeholder.default?, hbare p hp]
    rfl
  have hreads := reads_storePieces name (Piece.scan content) d
  rw [← Placeholder.ofContent, hscalars] at hreads
  obtain ⟨stored, t, hrun, -⟩ := hreads.exists_ok fun _ _ hfails => by
    obtain ⟨-, part, hpart, -⟩ := hfails
    cases hpart
  obtain ⟨rfl, -, rfl⟩ := storePieces_ok hrun
  exact hrun

/-- The table of every act of a compiled script is a reading of its contents, and reading what is
stored of them once more changes nothing: the content is stored as it is, in the same scenario. -/
theorem tabulates_of_compile {text : String} {scenario : Scenario} {after : Record}
    (h : compile text settings = (.ok scenario, after)) {name : String} {act : Act}
    (hact : scenario.act? name = some act) :
    act.Tabulates (writtenIn text settings name) ∧
      ∀ content ∈ act.contents, ∀ d : Draft, d.scenario = scenario →
        (storePieces name (Piece.scan content)).run d = .ok content d := by
  obtain ⟨d, hrun, rfl, -⟩ := run_of_compile h
  have htrace := trace_run hrun
  have hspoken : d.spoken name = act.spoken := by rw [Draft.spoken, hact, Option.getD_some]
  have htabulates : act.Tabulates (writtenIn text settings name) := by
    refine Act.tabulates_of_register ?_ ?_ fun p hp => ?_
    · have hcontents := htrace.contents_eq name
      rwa [hspoken] at hcontents
    · rw [← hspoken]
      exact htrace.table_eq name
    · obtain ⟨content, hcontent, hp⟩ := List.mem_flatMap.1 hp
      obtain ⟨told, htold, rfl⟩ := List.mem_map.1 hcontent
      exact (htrace.heard (mem_of_message? (List.mem_of_mem_filter htold))).written p hp
  refine ⟨htabulates, fun content hcontent other hother => ?_⟩
  have hregister := htabulates.register hcontent
  obtain ⟨raw, rfl⟩ := htabulates.exists_rewritten hcontent
  have hsame : d.scenario.modifyAct name
      (·.register (Placeholder.ofContent (Piece.rewritten raw))) = d.scenario := by
    rw [Scenario.modifyAct]
    simp only [hact, hregister]
    exact congrArg (Scenario.mk · d.scenario.config) (Table.set_of_get? hact)
  have hbare : ∀ p ∈ Placeholder.ofContent (Piece.rewritten raw), p.default = none :=
    fun _ => Placeholder.default_of_rewritten
  rw [storePieces_without_defaults other hbare, Piece.rewritten_rewritten, hother, hsame, ← hother]

/-- An act that is opened twice, with the defaults of its names in different messages: one of them
is read as a truth value and one as a number. -/
theorem reopened_act_tabulates :
    let text := "[A]\n\nuser:\nhi \x7bx|\x7d \x7b y |007\x7d\n\n[B]\n\nuser:\n\x7bz\x7d\n\n" ++
      "[A]\n\nuser:\nbye \x7bx|true\x7d\x7by|2\x7d\x7b?\x7d"
    ∃ scenario after act, compile text Settings.defaults = (.ok scenario, after) ∧
      scenario.act? "A" = some act ∧
      act.placeholders.map (fun entry => (entry.1, String.ofList entry.2.text)) =
        [("x", "True"), ("y", "7")] ∧
      act.Tabulates (writtenIn text Settings.defaults "A") ∧
      ∀ content ∈ act.contents, ∀ d : Draft, d.scenario = scenario →
        (storePieces "A" (Piece.scan content)).run d = .ok content d := by
  intro text
  let shown (act : Act) : List (String × String) :=
    act.placeholders.map fun entry => (entry.1, String.ofList entry.2.text)
  have hcheck : (compile text Settings.defaults).1.toOption.any (fun scenario =>
      (scenario.act? "A").any fun act => shown act == [("x", "True"), ("y", "7")]) = true := by
    decide +kernel
  cases hcompile : compile text Settings.defaults with
  | mk outcome after =>
    rw [hcompile] at hcheck
    cases outcome with
    | error fault => cases hcheck
    | ok scenario =>
      have hany : (scenario.act? "A").any (fun act => shown act == [("x", "True"), ("y", "7")]) =
          true := hcheck
      obtain ⟨act, hact, hshown⟩ := (Option.any_eq_true _ _).1 hany
      exact ⟨scenario, after, act, rfl, hact, beq_iff_eq.1 hshown,
        tabulates_of_compile hcompile hact⟩

end Compiler

end Playscript
