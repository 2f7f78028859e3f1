import Mathlib.Data.List.Basic
import Mathlib.Tactic.SplitIfs
import Playscript.Proofs.Value.Written
import Playscript.Staging

/-!
# How messages are built

A staged script is a script that compiles. A message of it is left out or built, and a built one
keeps its place: the number it has in its act.
-/
namespace Playscript.Staging

theorem ofText_eq_ok {text : String} {given settings : Record} {staging : Staging}
    (hsettings : Settings.overlay Settings.defaults given = .ok settings) :
    ofText text given = .ok staging ↔ ∃ d, Compiler.run text settings = (.ok (), d) ∧
      staging = ⟨d.scenario, Sharing.follow (sharedParts settings) settings d.written,
        sentinelOf given d.scenario.overrides⟩ := by
  simp only [ofText, hsettings, bind, Except.bind]
  cases hrun : Compiler.run text settings with
  | mk outcome d =>
    cases outcome with
    | error fault => exact iff_of_false (fun h => nomatch h) fun ⟨_, h, _⟩ => nomatch h
    | ok _ =>
      refine ⟨fun h => ⟨d, rfl, (Except.ok.inj h).symm⟩, ?_⟩
      rintro ⟨d', hd, rfl⟩
      cases hd
      rfl

variable [Interpreter] {staging : Staging} {format : Format} {context : Value} {defaults : Record}

theorem substitute_of_none {inside : List Char} (h : Script.Placeholder.ofInside? inside = none) :
    staging.substitute context defaults (.token inside) =
      .ok (Script.Piece.source (.token inside)) := by
  rw [substitute, h]

theorem substitute_of_some {inside : List Char} {p : Script.Placeholder}
    (h : Script.Placeholder.ofInside? inside = some p) :
    staging.substitute context defaults (.token inside) =
      staging.valueOf context defaults p >>= (·.written Value.render) := by
  rw [substitute, h]

theorem readText_eq_ok {message : Record} {key : String} {s : List Char}
    (h : readText message key = .ok s) : s = textAt message key := by
  rw [readText] at h
  rw [textAt]
  split at h
  · next hget =>
    rw [hget]
    exact (Except.ok.inj h).symm
  · next v hget =>
    rw [hget]
    exact (Value.written_eq_ok_iff.1 h).2.symm

theorem fails_readText {message : Record} {key : String} :
    Fails (readText message key) ↔ ∃ v, Table.get? message key = some v ∧ v.NoText Value.text := by
  rw [readText]
  cases Table.get? message key with
  | none => simp
  | some v => simp [Value.fails_written]

def Format.Hides (format : Format) (message : Record) : Prop :=
  format.comment ≠ [] ∧ format.comment <+: textAt message format.roleKey

theorem buildMessage_eq_ok {message : Record} {result : Option Record}
    (h : staging.buildMessage format context defaults message = .ok result) :
    (format.Hides message ∧ result = none) ∨ ∃ shown content,
      ¬ format.Hides message ∧
      (shown = message ∨ ∃ role,
        staging.replace context defaults (textAt message format.roleKey) = .ok role ∧
          shown = Table.set message format.roleKey (.ofChars role)) ∧
      staging.replace context defaults (textAt shown format.contentKey) = .ok content ∧
      result = some (Table.set shown format.contentKey (.ofChars content)) := by
  have hcontent : ∀ shown, (do
      let content ← staging.replace context defaults (← readText shown format.contentKey)
      return some (Table.set shown format.contentKey (.ofChars content)) :
        Except Fault (Option Record)) = .ok result → ∃ content,
      staging.replace context defaults (textAt shown format.contentKey) = .ok content ∧
        result = some (Table.set shown format.contentKey (.ofChars content)) := by
    intro shown hshown
    obtain ⟨text, htext, hshown⟩ := bind_eq_ok.1 hshown
    obtain ⟨content, hreplace, hresult⟩ := bind_eq_ok.1 hshown
    exact ⟨content, readText_eq_ok htext ▸ hreplace, (Except.ok.inj hresult).symm⟩
  have hhides : (format.comment ≠ [] ∧
      format.comment.isPrefixOf (textAt message format.roleKey) = true) ↔
        format.Hides message := by rw [List.isPrefixOf_iff_prefix, Format.Hides]
  rw [buildMessage] at h
  obtain ⟨written, hwritten, h⟩ := bind_eq_ok.1 h
  obtain rfl := readText_eq_ok hwritten
  split_ifs at h with hhidden hroles
  · exact Or.inl ⟨hhides.1 hhidden, (Except.ok.inj h).symm⟩
  · obtain ⟨role, hrole, h⟩ := bind_eq_ok.1 h
    obtain ⟨content, hreplace, hresult⟩ := hcontent _ h
    exact Or.inr ⟨_, content, mt hhides.2 hhidden, Or.inr ⟨role, hrole, rfl⟩, hreplace, hresult⟩
  · obtain ⟨content, hreplace, hresult⟩ := hcontent _ h
    exact Or.inr ⟨message, content, mt hhides.2 hhidden, Or.inl rfl, hreplace, hresult⟩

theorem buildMessage_eq_none {message : Record} {result : Option Record}
    (h : staging.buildMessage format context defaults message = .ok result) :
    result = none ↔ format.Hides message := by
  obtain ⟨hhidden, rfl⟩ | ⟨shown, content, hhidden, -, -, rfl⟩ := buildMessage_eq_ok h
  · exact iff_of_true rfl hhidden
  · exact iff_of_false (fun hnone => nomatch hnone) hhidden

theorem get?_of_buildMessage {message m : Record} (hkeys : format.roleKey ≠ format.contentKey)
    (h : staging.buildMessage format context defaults message = .ok (some m)) :
    ∃ content, staging.replace context defaults (textAt message format.contentKey) = .ok content ∧
      Table.get? m format.contentKey = some (.ofChars content) := by
  obtain ⟨-, hnone⟩ | ⟨shown, content, -, hshown, hreplace, hresult⟩ := buildMessage_eq_ok h
  · cases hnone
  · have htext : textAt shown format.contentKey = textAt message format.contentKey := by
      obtain rfl | ⟨role, -, rfl⟩ := hshown
      · rfl
      · simp only [textAt, Table.get?_set, if_neg hkeys]
    rw [htext] at hreplace
    refine ⟨content, hreplace, ?_⟩
    rw [Option.some.inj hresult, Table.get?_set, if_pos rfl]

theorem buildFrom_cons_iff {message : Record} {rest : List Record} {start : Nat}
    {built : List (Nat × Record)} :
    staging.buildFrom format context defaults start (message :: rest) = .ok built ↔
      ∃ result more, staging.buildMessage format context defaults message = .ok result ∧
        staging.buildFrom format context defaults (start + 1) rest = .ok more ∧
        built = (result.map fun m => (start, m)).toList ++ more := by
  simp only [buildFrom, bind_eq_ok]
  refine exists_congr fun result => ⟨?_, ?_⟩
  · rintro ⟨hmessage, more, hmore, hbuilt⟩
    refine ⟨more, hmessage, hmore, ?_⟩
    cases result <;> exact (Except.ok.inj hbuilt).symm
  · rintro ⟨more, hmessage, hmore, rfl⟩
    refine ⟨hmessage, more, hmore, ?_⟩
    cases result <;> rfl

theorem buildFrom_cons {message : Record} {rest : List Record} {start : Nat}
    {built : List (Nat × Record)}
    (h : staging.buildFrom format context defaults start (message :: rest) = .ok built) :
    ∃ result more, staging.buildMessage format context defaults message = .ok result ∧
      staging.buildFrom format context defaults (start + 1) rest = .ok more ∧
      built = (result.map fun m => (start, m)).toList ++ more :=
  buildFrom_cons_iff.1 h

theorem getElem?_of_mem_buildFrom {messages : List Record} {start : Nat}
    {built : List (Nat × Record)}
    (h : staging.buildFrom format context defaults start messages = .ok built)
    {i : Nat} {m : Record} (him : (i, m) ∈ built) :
    ∃ message, start ≤ i ∧ messages[i - start]? = some message ∧
      staging.buildMessage format context defaults message = .ok (some m) := by
  induction messages generalizing start built with
  | nil =>
    cases h
    cases him
  | cons message rest ih =>
    obtain ⟨result, more, hmessage, hrest, rfl⟩ := buildFrom_cons h
    obtain hfirst | hmem := List.mem_append.1 him
    · obtain ⟨m', rfl, heq⟩ := Option.map_eq_some_iff.1 (Option.mem_toList.1 hfirst)
      cases heq
      exact ⟨message, Nat.le_refl _, by rw [Nat.sub_self]; rfl, hmessage⟩
    · obtain ⟨message', hle, hget, hbuilt⟩ := ih hrest hmem
      refine ⟨message', by omega, ?_, hbuilt⟩
      obtain ⟨k, rfl⟩ : ∃ k, i = start + 1 + k := ⟨i - (start + 1), by omega⟩
      rw [show start + 1 + k - start = k + 1 by omega, List.getElem?_cons_succ]
      rwa [show start + 1 + k - (start + 1) = k by omega] at hget

theorem length_buildFrom {messages : List Record} {start : Nat} {built : List (Nat × Record)}
    (h : staging.buildFrom format context defaults start messages = .ok built) :
    built.length ≤ messages.length := by
  induction messages generalizing start built with
  | nil =>
    cases h
    exact Nat.le_refl _
  | cons message rest ih =>
    obtain ⟨result, more, -, hrest, rfl⟩ := buildFrom_cons h
    have hmore := ih hrest
    cases result with
    | none => exact Nat.le_succ_of_le hmore
    | some m => exact Nat.succ_le_succ hmore

theorem indices_buildFrom {messages : List Record} {start : Nat} {built : List (Nat × Record)}
    (h : staging.buildFrom format context defaults start messages = .ok built) :
    built.map Prod.fst = List.range' start messages.length ↔
      ∀ m ∈ messages, ¬ format.Hides m := by
  induction messages generalizing start built with
  | nil =>
    cases h
    exact iff_of_true rfl fun _ hm => nomatch hm
  | cons message rest ih =>
    obtain ⟨result, more, hmessage, hrest, rfl⟩ := buildFrom_cons h
    have hnone := buildMessage_eq_none hmessage
    rw [List.length_cons, List.range'_succ, List.forall_mem_cons]
    cases result with
    | none =>
      refine iff_of_false (fun heq => ?_) fun hall => hall.1 (hnone.1 rfl)
      -- The message is missing, and those after it are too few to make up for it.
      have hlength := congrArg List.length heq
      have hshort := length_buildFrom hrest
      simp only [Option.map_none, Option.toList_none, List.nil_append, List.length_map,
        List.length_cons, List.length_range'] at hlength
      omega
    | some m =>
      have hshown : ¬ format.Hides message := fun hhidden => nomatch hnone.2 hhidden
      rw [← ih hrest]
      simp [hshown]

theorem buildIndexed_of_act? {act : Option String} {found : Act}
    (hact : staging.scenario.act? (staging.actOrDefault act) = some found) (context : Record) :
    staging.buildIndexed (.dict context) act =
      staging.buildFrom staging.format (.dict context) found.placeholders 0 found.messages := by
  have hcontext : (if (Value.dict context).truthy then Value.dict context else .dict []) =
      .dict context := by cases context <;> rfl
  simp only [buildIndexed, hcontext, hact]

end Playscript.Staging
