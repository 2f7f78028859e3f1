import Playscript.Proofs.Compiler.Changes

/-!
# The messages of acts

Every act says the messages that are told in it, in order, and holds the defaults of their
placeholders. Directives add nothing to what an act says and take nothing away. A message is stored
under the names that are in force when it is told.
-/
namespace Playscript

open Script (Line Placeholder)

/-! ## Hearing several messages -/

namespace Act

theorem register_cons (act : Act) (p : Placeholder) (rest : List Placeholder) :
    act.register (p :: rest) =
      (act.storePlaceholder p.name (p.written.toOption.getD .null)).register rest := rfl

theorem register_append (act : Act) (xs ys : List Placeholder) :
    act.register (xs ++ ys) = (act.register xs).register ys := List.foldl_append

theorem messages_register (act : Act) (placeholders : List Placeholder) :
    (act.register placeholders).messages = act.messages := by
  induction placeholders generalizing act with
  | nil => rfl
  | cons p rest ih => rw [register_cons, ih]; rfl

theorem register_withMessages (act : Act) (messages : List Record)
    (placeholders : List Placeholder) :
    register { act with messages := messages } placeholders =
      { act.register placeholders with messages := messages } := by
  induction placeholders generalizing act with
  | nil => rfl
  | cons p rest ih =>
    exact ih (act.storePlaceholder p.name (p.written.toOption.getD .null))

theorem foldl_hear (settings : Record) (act : Act) (heard : List Told) :
    heard.foldl (Act.hear settings) act =
      { act.register ((heard.map Told.content).flatMap Placeholder.ofContent) with
        messages := act.messages ++ heard.map (Told.record settings) } := by
  induction heard generalizing act with
  | nil => simp only [List.map_nil, List.append_nil]; rfl
  | cons told rest ih =>
    rw [List.foldl_cons, ih, List.map_cons, List.flatMap_cons, register_append, List.map_cons]
    simp only [hear, register_withMessages, messages_register, List.append_assoc,
      List.singleton_append]

theorem spoken_hear (settings : Record) (act : Act) (told : Told) :
    (act.hear settings told).spoken = act.spoken.hear settings told := by
  rw [hear, hear, ← spoken_register]
  rfl

end Act

def Scenario.messagesOf (s : Scenario) (act : String) : List Record :=
  ((s.act? act).map Act.messages).getD []

theorem Draft.messages_spoken (d : Draft) (act : String) :
    (d.spoken act).messages = d.scenario.messagesOf act := by
  rw [spoken, Scenario.messagesOf]
  cases d.scenario.act? act <;> rfl

/-! ## Names in messages -/

/-- Settings under which messages have the same names. -/
structure SameNames (a b : Record) : Prop where
  role : Settings.roleKey a = Settings.roleKey b
  content : Settings.contentKey a = Settings.contentKey b

theorem SameNames.refl (a : Record) : SameNames a a := ⟨rfl, rfl⟩

theorem Act.hear_congr {a b : Record} (h : SameNames a b) (act : Act) (told : Told) :
    act.hear a told = act.hear b told := by
  simp only [hear, Told.record, h.role, h.content]

namespace Told

variable (told : Told) (settings : Record)

theorem record_eq : told.record settings = Table.set
    [(Settings.roleKey settings, .ofChars (Script.roleName told.head))]
    (Settings.contentKey settings)
    (.ofChars (Script.Piece.sources ((Script.Piece.scan told.content).map Script.Piece.bare))) :=
  rfl

theorem get?_record_role (h : Settings.roleKey settings ≠ Settings.contentKey settings) :
    Table.get? (told.record settings) (Settings.roleKey settings) =
      some (.ofChars (Script.roleName told.head)) := by
  rw [record_eq, Table.get?_set, if_neg h.symm, Table.get?_cons, if_pos rfl]

end Told

namespace Compiler

def toldIn (act : String) (past : List Event) : List Told :=
  (past.filterMap Event.message?).filter (·.act = act)

theorem toldIn_append (act : String) (past more : List Event) :
    toldIn act (past ++ more) = toldIn act past ++ toldIn act more := by
  simp only [toldIn, List.filterMap_append, List.filter_append]

theorem mem_of_message? {past : List Event} {told : Told}
    (h : told ∈ past.filterMap Event.message?) : .message told ∈ past := by
  obtain ⟨e, he, htold⟩ := List.mem_filterMap.1 h
  cases e with
  | directive scope directive => cases htold
  | message told' =>
    cases htold
    exact he

def NamedBy (settings names : Record) (past : List Event) : Prop :=
  ∀ before told after, past = before ++ .message told :: after →
    SameNames (Path.setAll settings (changes before)) names

variable {settings names : Record} {source : List Line} {past : List Event} {d : Draft}

theorem NamedBy.of_append {more : List Event} (h : NamedBy settings names (past ++ more)) :
    NamedBy settings names past := fun before told after hpast =>
  h before told (after ++ more) (by rw [hpast, List.append_assoc, List.cons_append])

theorem Quiet.namedBy (h : Quiet past) : NamedBy settings settings past := by
  rintro before told after rfl
  rw [(Quiet.append_iff.1 h).1.changes_eq]
  exact SameNames.refl settings

theorem Trace.spoken_eq (h : Trace settings source past d) (hnames : NamedBy settings names past)
    (act : String) : d.spoken act = (toldIn act past).foldl (Act.hear names) .empty := by
  induction h with
  | start => rfl
  | @register past d h name description ih =>
    rw [← ih hnames]
    exact (d.calm_ensureAct name description).same act
  | directive h hline hmarks hread hrun ih =>
    rw [toldIn_append, List.foldl_append, ← ih hnames.of_append]
    exact (Draft.calm_of_effect (Directive.effect_of_perform hrun)).same act
  | @message past before d e h told hknown hwritten hbefore hearlier hhead hcomment ih =>
    -- The message is stored under the names in force here, which are those of `names`.
    have hsame := hnames _ told [] rfl
    rw [← h.changed.1] at hsame
    have hear := Act.spoken_hear d.settings
    rw [toldIn_append, List.foldl_append, ← ih hnames.of_append,
      Draft.spoken_modifyAct hknown (·.hear d.settings told) (·.hear d.settings told)
        fun act => hear act told]
    by_cases hact : told.act = act
    · simp [toldIn, Event.message?, hact, Act.hear_congr hsame]
    · simp [toldIn, Event.message?, hact]

theorem Trace.messages_eq (h : Trace settings source past d) (hnames : NamedBy settings names past)
    (act : String) :
    d.scenario.messagesOf act = (toldIn act past).map (Told.record names) := by
  rw [← d.messages_spoken, h.spoken_eq hnames, Act.foldl_hear]
  exact List.nil_append _

structure Heard (settings : Record) (source : List Line) (past : List Event) (told : Told) :
    Prop where
  written : ∀ p ∈ Placeholder.ofContent told.content, ∃ v, p.written = .ok v
  head : told.head ∈ source
  uncommented : ∃ before e, Trace settings source before e ∧ before <+: past ∧
    Settings.isComment e.settings told.head = false

theorem Heard.append {told : Told} (h : Heard settings source past told) (more : List Event) :
    Heard settings source (past ++ more) told := by
  obtain ⟨before, e, he, hearlier, hcomment⟩ := h.uncommented
  exact ⟨h.written, h.head, before, e, he, hearlier.trans (List.prefix_append _ _), hcomment⟩

theorem Trace.heard (h : Trace settings source past d) {told : Told}
    (htold : .message told ∈ past) :
    Heard settings source past told := by
  induction h with
  | start => cases htold
  | register h act description ih => exact ih htold
  | directive h hline hmarks hread hrun ih =>
    obtain htold | htold := List.mem_append.1 htold
    · exact (ih htold).append _
    · cases List.mem_singleton.1 htold
  | message h told hknown hwritten hbefore hearlier hhead hcomment ih =>
    obtain htold | htold := List.mem_append.1 htold
    · exact (ih htold).append _
    · cases List.mem_singleton.1 htold
      exact Heard.append ⟨hwritten, hhead, _, _, hbefore, hearlier, hcomment⟩ _

end Compiler
end Playscript
