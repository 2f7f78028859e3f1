import Playscript.Parser
import Playscript.Proofs.Compiler.Messages
import Playscript.Proofs.Settings
import Playscript.Proofs.Staging.Building

/-!
# The names that a staging reads

A staging reads the names of messages from the record of the changes and, where none is recorded,
from the settings that the script was compiled under. As long as the changes go to single names,
the two layers together hold what the settings hold once the script is compiled.
-/
namespace Playscript

open Settings (keys)

structure Mirrored (given settings recorded : Record) : Prop where
  layered : ∀ name, Table.get? (keys settings) name =
    (Table.get? (keys recorded) name).or (Table.get? (keys given) name)
  notNull : ∀ name, Table.get? (keys recorded) name ≠ some .null

namespace Mirrored

variable {given settings recorded : Record}

theorem of_unrecorded (h : Table.get? recorded "keys" = none) : Mirrored given given recorded := by
  have hnone : keys recorded = [] := by rw [keys, h]; rfl
  exact ⟨fun name => by rw [hnone]; rfl, fun name hget => by rw [hnone] at hget; cases hget⟩

theorem set (h : Mirrored given settings recorded)
    (hgiven : ∀ entry ∈ keys given, ∃ s, entry.2 = .str s) {path : Path} (hpath : path ≠ ["keys"])
    {v : Value} (hv : v.Writable) :
    Mirrored given (Path.set settings path v) (Path.set recorded path v) := by
  refine ⟨fun name => ?_, fun name => ?_⟩
  · rw [Settings.get?_keys_set _ hpath, Settings.get?_keys_set _ hpath, h.layered]
    split_ifs
    · cases hrecorded : Table.get? (keys recorded) name with
      | some old => rfl
      | none =>
        cases hget : Table.get? (keys given) name with
        | none => rfl
        | some old =>
          -- The layers store below different values: one below the given name, one below nothing.
          -- A text has no entries, so both start anew.
          obtain ⟨s, rfl⟩ := hgiven _ (Table.mem_of_get? hget)
          cases path.drop 2 <;> rfl
    · rfl
  · rw [Settings.get?_keys_set _ hpath]
    split_ifs
    · cases path.drop 2 with
      | nil =>
        rintro ⟨⟩
        exact hv
      | cons key rest => exact fun h => nomatch h
    · exact h.notNull name

theorem setAll (h : Mirrored given settings recorded)
    (hgiven : ∀ entry ∈ keys given, ∃ s, entry.2 = .str s) {writes : List (Path × Value)}
    (hwrites : ∀ write ∈ writes, write.1 ≠ [] ∧ write.1 ≠ ["keys"] ∧ write.2.Writable) :
    Mirrored given (Path.setAll settings writes) (writes.foldl Compiler.recordChange recorded) := by
  induction writes generalizing settings recorded with
  | nil => exact h
  | cons write rest ih =>
    obtain ⟨⟨hpath, hkeys, hv⟩, hrest⟩ := List.forall_mem_cons.1 hwrites
    rw [List.foldl_cons, Compiler.recordChange_eq recorded hpath write.2]
    exact ih (h.set hgiven hkeys hv) hrest

end Mirrored

/-! ## Names that stay -/

theorem sameNames_of_keys {a b : Record}
    (hrole : Table.get? (keys a) "role" = Table.get? (keys b) "role")
    (hcontent : Table.get? (keys a) "content" = Table.get? (keys b) "content") :
    SameNames a b := by
  constructor
  · rw [Settings.roleKey, Settings.nameOf, Settings.textOf, hrole]
    rfl
  · rw [Settings.contentKey, Settings.nameOf, Settings.textOf, hcontent]
    rfl

theorem sameNames_setAll (settings : Record) {writes : List (Path × Value)}
    (hwrites : ∀ write ∈ writes, write.1 ≠ ["keys"] ∧ ¬ ["keys", "role"] <+: write.1 ∧
      ¬ ["keys", "content"] <+: write.1) :
    SameNames settings (Path.setAll settings writes) := by
  induction writes generalizing settings with
  | nil => exact SameNames.refl settings
  | cons write rest ih =>
    obtain ⟨⟨hkeys, hrole, hcontent⟩, hrest⟩ := List.forall_mem_cons.1 hwrites
    have hfirst : SameNames settings (Path.set settings write.1 write.2) := by
      apply sameNames_of_keys
      · rw [Settings.get?_keys_set _ hkeys, if_neg hrole]
      · rw [Settings.get?_keys_set _ hkeys, if_neg hcontent]
    have hlast := ih (Path.set settings write.1 write.2) hrest
    exact ⟨hfirst.role.trans hlast.role, hfirst.content.trans hlast.content⟩

namespace Compiler

def Named (past : List Event) : Prop :=
  past.Pairwise fun earlier later => earlier.message?.isSome → ∀ path ∈ later.changed?,
    ¬ ["keys", "role"] <+: path ∧ ¬ ["keys", "content"] <+: path

instance (past : List Event) : Decidable (Named past) :=
  inferInstanceAs (Decidable (past.Pairwise _))

theorem Named.namedBy {settings : Record} {past : List Event} (h : Named past)
    (hkeys : ∀ e ∈ past, e.changed? ≠ some ["keys"]) :
    NamedBy settings (Path.setAll settings (changes past)) past := by
  rintro before told after rfl
  have hafter := (List.pairwise_cons.1 (List.pairwise_append.1 h).2.1).1
  rw [changes_append, Path.setAll_append]
  refine sameNames_setAll _ fun write hwrite => ?_
  have hlater : write ∈ changes after := hwrite
  obtain ⟨-, e, he, hchanged⟩ := mem_changes hlater
  refine ⟨fun heq => ?_, hafter e he rfl _ hchanged⟩
  exact hkeys e (List.mem_append_right _ (List.mem_cons_of_mem _ he)) (heq ▸ hchanged)

end Compiler

/-! ## Stagings -/

theorem Parser.run_of_create {text : String} {given settings : Record} {parser : Parser}
    (hsettings : Settings.overlay Settings.defaults given = .ok settings)
    (h : Parser.create (some text) (.dict given) = .ok parser) :
    ∃ d, Compiler.run text settings = (.ok (), d) ∧ parser.settings = d.settings := by
  simp only [create, Settings.overlayGiven_dict, hsettings, bind, Except.bind, parseOwn] at h
  by_cases hempty : text = ""
  · subst hempty
    cases h
    exact ⟨.start .empty settings, rfl, rfl⟩
  · simp only [Option.filter_some, ne_eq, hempty, not_false_eq_true, decide_true, if_true] at h
    cases hrun : Compiler.run text settings with
    | mk outcome d =>
      rw [Compiler.compile, hrun] at h
      cases outcome with
      | error fault => cases h
      | ok _ =>
        cases h
        exact ⟨d, rfl, rfl⟩

namespace Staging

theorem setting_eq {staging : Staging} {settings : Record}
    (h : Mirrored staging.settings settings staging.scenario.overrides) {name : String}
    (hname : Path.position? name = .ok none) (fallback : String) :
    staging.setting ["keys", name] fallback = Settings.nameOf settings name fallback := by
  rw [setting, settingValue, Settings.find_keys _ hname, Settings.find_keys _ hname,
    Settings.nameOf,
    Settings.textOf, Settings.textOr_nil, h.layered]
  have hnull := h.notNull name
  cases hrecorded : Table.get? (keys staging.scenario.overrides) name with
  | none =>
    rw [Option.none_or]
    rfl
  | some v =>
    cases v with
    | null => exact (hnull hrecorded).elim
    | _ => rfl

/-- A staging of a script reads the names that the script left in force, unless one of its
directives stores something in place of all names or of the record of the changes. If no name of
messages changes once a message is told, every message is stored under the names that are read. -/
theorem names_in_force {text : String} {given settings : Record} {parser : Parser}
    (hsettings : Settings.overlay Settings.defaults given = .ok settings)
    (hgiven : ∀ entry ∈ keys given, ∃ s, entry.2 = .str s)
    (hchanged : ∀ e ∈ Compiler.events text settings, ∀ path ∈ e.changed?,
      path ≠ [] ∧ path ≠ ["keys"])
    (hconfigured : ∀ e ∈ Compiler.events text settings, ∀ path ∈ e.configured?,
      path.head? ≠ some "parser_overrides")
    (hparser : Parser.create (some text) (.dict given) = .ok parser) :
    ∃ staging, ofText text given = .ok staging ∧
      staging.defaultAct = Settings.defaultAct parser.settings ∧
      staging.roleKey = Settings.roleKey parser.settings ∧
      staging.contentKey = Settings.contentKey parser.settings ∧
      (Compiler.Named (Compiler.events text settings) → ∀ act,
        staging.scenario.messagesOf act =
          (Compiler.toldIn act (Compiler.events text settings)).map fun told => Table.ofList [
            (staging.roleKey, .ofChars (Script.roleName told.head)),
            (staging.contentKey, .ofChars (Script.Piece.sources
              ((Script.Piece.scan told.content).map Script.Piece.bare)))]) := by
  obtain ⟨d, hrun, hfinal⟩ := Parser.run_of_create hsettings hparser
  have htrace := Compiler.trace_run hrun
  have hstrings := Settings.str_of_keys_overlay hsettings hgiven
  have hshared : sharedParts settings = [] := by
    refine List.filterMap_eq_nil_iff.2 fun entry hentry => ?_
    obtain ⟨s, hs⟩ := hstrings entry hentry
    simp only [hs]
  have hmirrored : Mirrored settings d.settings d.scenario.overrides := by
    rw [htrace.changed.1, htrace.overrides_eq hconfigured]
    refine (Mirrored.of_unrecorded rfl).setAll hstrings fun write hwrite => ?_
    obtain ⟨hv, e, he, hpath⟩ := mem_changes hwrite
    obtain ⟨hnil, hkeys⟩ := hchanged e he _ hpath
    exact ⟨hnil, hkeys, hv⟩
  let staging : Staging :=
    ⟨d.scenario, settings, sentinelOf given d.scenario.overrides⟩
  have hstaging : ofText text given = .ok staging := by
    refine (ofText_eq_ok hsettings).2 ⟨d, hrun, ?_⟩
    rw [hshared, Sharing.follow_nil]
  have hact : staging.defaultAct = Settings.defaultAct d.settings := setting_eq hmirrored rfl _
  have hrole : staging.roleKey = Settings.roleKey d.settings := setting_eq hmirrored rfl _
  have hcontent : staging.contentKey = Settings.contentKey d.settings := setting_eq hmirrored rfl _
  rw [hfinal]
  refine ⟨staging, hstaging, hact, hrole, hcontent, fun hnamed act => ?_⟩
  have hkeys : ∀ e ∈ Compiler.events text settings, e.changed? ≠ some ["keys"] :=
    fun e he heq => (hchanged e he _ heq).2 rfl
  have hmessages := htrace.messages_eq (hnamed.namedBy hkeys) act
  rw [← htrace.changed.1] at hmessages
  rw [hrole, hcontent]
  exact hmessages

/-- A role key that the script sets and a content key that is given with it. -/
theorem names_in_force_who_text :
    let text := "% parse keys.role who\nuser:\nhi"
    let given : Record := [("keys", .dict [("content", .str "text")])]
    ∃ parser staging, Parser.create (some text) (.dict given) = .ok parser ∧
      ofText text given = .ok staging ∧
      staging.roleKey = Settings.roleKey parser.settings ∧ staging.roleKey = "who" ∧
      staging.contentKey = Settings.contentKey parser.settings ∧ staging.contentKey = "text" ∧
      staging.scenario.messagesOf "default" = [[("who", .str "user"), ("text", .str "hi")]] := by
  intro text given
  obtain ⟨settings, hsettings⟩ : ∃ settings,
    Settings.overlay Settings.defaults given = .ok settings := ⟨_, rfl⟩
  have hgiven : ∀ entry ∈ keys given, ∃ s, entry.2 = .str s := by
    simp [keys, given, Table.get?, Value.entries]
  have hevents : (∀ e ∈ Compiler.events text settings, ∀ path ∈ e.changed?,
        path ≠ [] ∧ path ≠ ["keys"]) ∧
      (∀ e ∈ Compiler.events text settings, ∀ path ∈ e.configured?,
        path.head? ≠ some "parser_overrides") ∧
      Compiler.Named (Compiler.events text settings) ∧
      Compiler.toldIn "default" (Compiler.events text settings) =
        [⟨"default", "user:".toList, "hi".toList⟩] := by
    cases hsettings
    decide +kernel
  have hparser : (Parser.create (some text) (.dict given)).toOption.any (fun parser =>
      decide (Settings.roleKey parser.settings = "who") &&
        decide (Settings.contentKey parser.settings = "text")) = true := by decide +kernel
  cases hcreate : Parser.create (some text) (.dict given) with
  | error fault => rw [hcreate] at hparser; cases hparser
  | ok parser =>
    rw [hcreate] at hparser
    obtain ⟨hrole, hcontent⟩ := Bool.and_eq_true_iff.1 hparser
    obtain ⟨hchanged, hconfigured, hnamed, htold⟩ := hevents
    obtain ⟨staging, hstaging, -, hrole', hcontent', hmessages⟩ :=
      names_in_force hsettings hgiven hchanged hconfigured hcreate
    have hwho := hrole'.trans (of_decide_eq_true hrole)
    have htext := hcontent'.trans (of_decide_eq_true hcontent)
    refine ⟨parser, staging, rfl, hstaging, hrole', hwho, hcontent', htext, ?_⟩
    rw [hmessages hnamed, htold, hwho, htext]
    rfl

end Staging

end Playscript
