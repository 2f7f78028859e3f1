import Playscript.Proofs.Staging.Building
import Playscript.Proofs.Staging.Names
import Playscript.Proofs.Scenario.Texts

/-!
# Building the whole of an act

The compiler leaves out what a comment marker leads, and building looks at the roles once more. The
two tests agree where comments are switched on: a role is the start of its head. Where comments are
switched off, building still takes the default marker for one, and it looks at the content where
the content is stored in place of the role.
-/
namespace Playscript

/-! ## Roles -/

theorem Script.roleName_prefix {head : Line} (h : Text.trim head = head) :
    roleName head <+: head := by
  have hright : Text.trimRight head <+: head := List.rdropWhile_prefix Text.isBlank head
  rw [roleName]
  split_ifs
  · exact Text.trim_of_prefix h ((List.dropLast_prefix _).trans hright)
  · exact Text.trim_of_prefix h hright

/-! ## Shared parts that are not written -/

theorem Sharing.follow_apart {parts : List Path} {writes : List (Path × Value)}
    (h : ∀ write ∈ writes, ∀ part ∈ parts, ¬ part <+: write.1) (entries : Record) :
    follow parts entries writes = entries := by
  induction writes generalizing parts with
  | nil => rfl
  | cons write rest ih =>
    obtain ⟨hwrite, hrest⟩ := List.forall_mem_cons.1 h
    obtain ⟨path, v⟩ := write
    have hreaches : reaches parts path = false := by
      refine List.any_eq_false.2 fun part hpart hreached => ?_
      exact hwrite part hpart (List.isPrefixOf_iff_prefix.1 (Bool.and_eq_true_iff.1 hreached).1)
    rw [follow, hreaches]
    exact ih fun other hother part hpart =>
      hrest other hother part (List.mem_of_mem_filter hpart)

theorem Staging.head?_of_sharedParts {settings : Record} {part path : Path}
    (hpart : part ∈ sharedParts settings) (h : part <+: path) : path.head? = some "keys" := by
  obtain ⟨entry, -, hentry⟩ := List.mem_filterMap.1 hpart
  split at hentry
  · cases hentry
    obtain ⟨rest, rfl⟩ := h
    rfl
  · cases hentry

/-! ## Building -/

namespace Compiler

theorem Trace.isComment_eq {settings : Record} {source : List Script.Line} {past : List Event}
    {d : Draft} (h : Trace settings source past d)
    (hchanged : ∀ e ∈ past, ∀ path ∈ e.changed?, path.head? ≠ some "comment")
    (line : Script.Line) :
    Settings.isComment d.settings line = Settings.isComment settings line := by
  have hcomment : Table.get? d.settings "comment" = Table.get? settings "comment" := by
    rw [h.changed.1]
    refine Path.get?_setAll (fun write hwrite => ?_) settings
    obtain ⟨-, e, he, hpath⟩ := mem_changes hwrite
    exact hchanged e he _ hpath
  rw [Settings.isComment, Settings.commentMarker, Settings.textOf, hcomment]
  rfl

end Compiler

namespace Staging

theorem commentMarker_eq {staging : Staging}
    (h : Table.get? staging.scenario.overrides "comment" = none) :
    staging.commentMarker.toList = if Settings.commentMarker staging.settings = [] then ['#']
      else Settings.commentMarker staging.settings := by
  have hrecorded : Path.find (.dict staging.scenario.overrides) ["comment"] = .null := by
    simp only [Path.find, Path.get, h]
  have hgiven : Path.find (.dict staging.settings) ["comment"] =
      (Table.get? staging.settings "comment").getD .null := by
    simp only [Path.find, Path.get]
    cases Table.get? staging.settings "comment" with
    | none => rfl
    | some v => simp only [Option.getD_some]
  have hmarker : Settings.commentMarker staging.settings = Settings.plain
      ((Table.get? staging.settings "comment").getD .null) := Settings.textOr_nil _
  rw [commentMarker, setting, settingValue, hrecorded, hgiven, hmarker]
  simp only [Value.isNull, if_true]
  split
  · next hoff =>
    rw [if_pos hoff]
    rfl
  · next hon => rw [if_neg hon, String.toList_ofList]

structure Steady (settings : Record) (text : String) (staging : Staging) : Prop where
  opened : staging.settings = settings
  unmarked : Table.get? staging.scenario.overrides "comment" = none
  mirrored : Mirrored staging.settings settings staging.scenario.overrides
  messages : ∀ act, staging.scenario.messagesOf act =
    (Compiler.toldIn act (Compiler.events text settings)).map (Told.record settings)
  heads : ∀ told, .message told ∈ Compiler.events text settings →
    Text.trim told.head = told.head ∧ Settings.isComment settings told.head = false

theorem steady_of_ofText {text : String} {given settings : Record} {staging : Staging}
    (hsettings : Settings.overlay Settings.defaults given = .ok settings)
    (hchanged : ∀ e ∈ Compiler.events text settings, ∀ path ∈ e.changed?,
      path.head? ≠ some "comment" ∧ path.head? ≠ some "keys")
    (hconfigured : Compiler.Open (Compiler.events text settings))
    (hstaging : ofText text given = .ok staging) : staging.Steady settings text := by
  obtain ⟨d, hrun, rfl⟩ := (ofText_eq_ok hsettings).1 hstaging
  have htrace := Compiler.trace_run hrun
  have hwrites : ∀ write ∈ changes (Compiler.events text settings),
      write.1.head? ≠ some "comment" ∧ write.1.head? ≠ some "keys" ∧ write.2.Writable := by
    intro write hwrite
    obtain ⟨hv, e, he, hpath⟩ := mem_changes hwrite
    exact ⟨(hchanged e he _ hpath).1, (hchanged e he _ hpath).2, hv⟩
  have hopened : Sharing.follow (sharedParts settings) settings d.written = settings := by
    rw [htrace.changed.2.1]
    refine Sharing.follow_apart (fun write hwrite part hpart hbelow => ?_) settings
    exact (hwrites write hwrite).2.1 (head?_of_sharedParts hpart hbelow)
  have hrecorded := htrace.overrides_eq hconfigured
  refine ⟨hopened, ?_, ?_, fun act => ?_, fun told htold => ?_⟩
  · rw [hrecorded]
    exact Compiler.get?_recorded
      (fun write hwrite => ⟨(hwrites write hwrite).1, (hwrites write hwrite).2.2⟩) rfl
  · rw [hopened, hrecorded]
    exact Mirrored.of_unrecorded (Compiler.get?_recorded
      (fun write hwrite => (hwrites write hwrite).2) rfl)
  · refine htrace.messages_eq ?_ act
    rintro before told after hevents
    have hkeys : ∀ write ∈ changes before, write.1.head? ≠ some "keys" := by
      intro write hwrite
      refine (hwrites write ?_).2.1
      rw [hevents, changes_append]
      exact List.mem_append_left _ hwrite
    have hsection := Path.get?_setAll hkeys settings
    exact sameNames_of_keys (by rw [Settings.keys, hsection, ← Settings.keys])
      (by rw [Settings.keys, hsection, ← Settings.keys])
  · obtain ⟨-, hhead, before, e, he, hearlier, hcomment⟩ := htrace.heard htold
    have hbefore : ∀ e ∈ before, ∀ path ∈ e.changed?, path.head? ≠ some "comment" :=
      fun e he path hpath => (hchanged e (hearlier.subset he) path hpath).1
    exact ⟨Script.trim_of_mem_source hhead, he.isComment_eq hbefore _ ▸ hcomment⟩

variable {settings : Record} {text : String} {staging : Staging}

theorem Steady.roleKey (h : staging.Steady settings text) :
    staging.roleKey = Settings.roleKey settings := setting_eq h.mirrored rfl _

theorem Steady.contentKey (h : staging.Steady settings text) :
    staging.contentKey = Settings.contentKey settings := setting_eq h.mirrored rfl _

theorem Steady.not_marked (h : staging.Steady settings text) {name : String} {act : Act}
    (hact : staging.scenario.act? name = some act) {m : Record} (hm : m ∈ act.messages)
    (hon : Settings.commentMarker settings ≠ []) (hkeys : staging.roleKey ≠ staging.contentKey) :
    ¬ Settings.commentMarker settings <+: textAt m staging.roleKey := by
  have hmessages := h.messages name
  simp only [Scenario.messagesOf, hact, Option.map_some, Option.getD_some] at hmessages
  rw [hmessages] at hm
  obtain ⟨told, htold, rfl⟩ := List.mem_map.1 hm
  have hevent := Compiler.mem_of_message? (List.mem_of_mem_filter htold)
  obtain ⟨htrim, hcomment⟩ := h.heads told hevent
  rw [h.roleKey, h.contentKey] at hkeys
  have htext : textAt (told.record settings) staging.roleKey = Script.roleName told.head := by
    rw [textAt, h.roleKey, told.get?_record_role settings hkeys, Option.map_some,
      Option.getD_some, Value.ofChars, Value.text_str, String.toList_ofList]
  rw [htext]
  intro hmarked
  -- The head would start with the marker as well, and it was no comment when it was read.
  have hprefixed := List.isPrefixOf_iff_prefix.2 (hmarked.trans (Script.roleName_prefix htrim))
  rw [Settings.isComment] at hcomment
  simp [hon, hprefixed] at hcomment

/-- All messages of an act are built unless comments are switched off or roles and contents are
stored under one name. Where they are, those messages are missing whose text under the role key
starts with the marker. -/
theorem builds_all_iff {given : Record}
    (hsettings : Settings.overlay Settings.defaults given = .ok settings)
    (hchanged : ∀ e ∈ Compiler.events text settings, ∀ path ∈ e.changed?,
      path.head? ≠ some "comment" ∧ path.head? ≠ some "keys")
    (hconfigured : ∀ e ∈ Compiler.events text settings, ∀ path ∈ e.configured?,
      path.head? ≠ some "parser_overrides")
    (hstaging : ofText text given = .ok staging) {name : String} {act : Act}
    (hact : staging.scenario.act? name = some act) {context : Record}
    {built : List (Nat × Record)} (hbuilt : staging.buildIndexed (.dict context) name = .ok built) :
    built.map Prod.fst = List.range act.messages.length ↔ ∀ m ∈ act.messages,
      Settings.commentMarker settings = [] ∨ staging.roleKey = staging.contentKey →
        ¬ staging.commentMarker.toList <+: textAt m staging.roleKey := by
  have hsteady := steady_of_ofText hsettings hchanged hconfigured hstaging
  have hname : staging.actOrDefault name = name := by
    have hne := ((textual_of_ofText hstaging).act hact).1
    simp [actOrDefault, Option.filter, hne]
  have hmarker := commentMarker_eq hsteady.unmarked
  rw [hsteady.opened] at hmarker
  have hne : staging.commentMarker.toList ≠ [] := by
    rw [hmarker]
    split_ifs with hoff
    · exact List.cons_ne_nil _ _
    · exact hoff
  rw [buildIndexed_of_act? (by rw [hname]; exact hact)] at hbuilt
  rw [List.range_eq_range', indices_buildFrom hbuilt]
  refine forall₂_congr fun m hm => ?_
  have hhides : staging.format.Hides m ↔
      staging.commentMarker.toList <+: textAt m staging.roleKey := and_iff_right hne
  rw [hhides]
  refine ⟨fun hshown _ => hshown, fun hshown => ?_⟩
  by_cases hcase : Settings.commentMarker settings = [] ∨ staging.roleKey = staging.contentKey
  · exact hshown hcase
  · obtain ⟨hon, hkeys⟩ := not_or.1 hcase
    rw [hmarker, if_neg hon]
    exact hsteady.not_marked hact hm hon hkeys

/-- With comments switched off, a message is compiled and not built. -/
theorem switched_off_marker_hides :
    let text := "#user:\nhi"
    let given : Record := [("comment", .str "")]
    ∃ staging act built, ofText text given = .ok staging ∧
      staging.scenario.act? "default" = some act ∧
      staging.buildIndexed (.dict []) "default" = .ok built ∧
      act.messages.length = 1 ∧ built.map Prod.fst ≠ List.range act.messages.length := by
  intro text given
  obtain ⟨settings, hsettings⟩ : ∃ settings,
    Settings.overlay Settings.defaults given = .ok settings := ⟨_, rfl⟩
  have hevents : (∀ e ∈ Compiler.events text settings, ∀ path ∈ e.changed?,
        path.head? ≠ some "comment" ∧ path.head? ≠ some "keys") ∧
      (∀ e ∈ Compiler.events text settings, ∀ path ∈ e.configured?,
        path.head? ≠ some "parser_overrides") ∧
      Settings.commentMarker settings = [] := by
    cases hsettings
    decide
  have hrun : (ofText text given).toOption.any (fun staging =>
      (staging.buildIndexed (.dict []) "default").toOption.isSome &&
        (staging.scenario.act? "default").any fun act => act.messages.length == 1 &&
          act.messages.any fun m =>
            staging.commentMarker.toList.isPrefixOf (textAt m staging.roleKey)) = true := by
    decide +kernel
  cases hstaging : ofText text given with
  | error fault => rw [hstaging] at hrun; cases hrun
  | ok staging =>
    rw [hstaging] at hrun
    obtain ⟨hbuilds, hmarked⟩ := Bool.and_eq_true_iff.1 hrun
    cases hact : staging.scenario.act? "default" with
    | none => rw [hact] at hmarked; cases hmarked
    | some act =>
      rw [hact] at hmarked
      obtain ⟨hlength, hmarked⟩ := Bool.and_eq_true_iff.1 hmarked
      obtain ⟨m, hm, hprefixed⟩ := List.any_eq_true.1 hmarked
      cases hbuilt : staging.buildIndexed (.dict []) "default" with
      | error fault => rw [hbuilt] at hbuilds; cases hbuilds
      | ok built =>
        obtain ⟨hchanged, hconfigured, hoff⟩ := hevents
        refine ⟨staging, act, built, rfl, hact, hbuilt, beq_iff_eq.1 hlength, fun hwhole => ?_⟩
        have hshown := (builds_all_iff hsettings hchanged hconfigured hstaging hact hbuilt).1
          hwhole m hm (Or.inl hoff)
        exact hshown (List.isPrefixOf_iff_prefix.1 hprefixed)

end Staging
end Playscript
