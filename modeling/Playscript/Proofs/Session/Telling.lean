import Playscript.Proofs.Merge
import Playscript.Proofs.Scenario.Texts
import Playscript.Proofs.Session.Replies

/-!
# Telling stagings apart

What a session shows of its staging is shown by its replies: a printed message tells the keys, and
an act that is played tells the messages that are built and, with an action that looks at it, what
is shown beside them. Sessions at their start that answer alike are in stagings that look alike.
-/
namespace Playscript

namespace Session

def opened (config : Config) (staging : Staging) (scenario : Scenario) : Session :=
  ⟨config, some staging, some (Progress.initial scenario), []⟩

/-! ## Printed messages -/

def printed (staging : Staging) (message : Record) : List Char :=
  (staging.roleOf message).text ++
    ':' :: '\n' :: '\t' :: indent (Staging.textAt message staging.contentKey)

variable {config : Config} {staging : Staging} {scenario : Scenario}

theorem step_pushMessages (h : config.Hookless) (now : Timestamp) (messages : List Value) :
    step now (opened config staging scenario) (.pushMessages (.list messages)) =
      (.ok .nothing, ⟨config, some staging,
        some { Progress.initial scenario with history := .list messages }, []⟩) := by
  have hpush : (pushMessages (.list messages)).run (opened config staging scenario) =
      .ok () ⟨config, some staging,
        some { Progress.initial scenario with history := .list messages }, []⟩ := by
    simp only [pushMessages, run_get_bind, opened]
    refine (run_bind_ok (run_ofExcept_ok [] _)).trans ?_
    rw [run_bind_ok (run_runHooks h _ _)]
    rfl
  have hrun : (perform now (.pushMessages (.list messages))).run (opened config staging scenario) =
      .ok .nothing _ := run_bind_ok hpush
  simp only [step, hrun]

theorem printMessages_singleton (staging : Staging) (message : Record) :
    printMessages staging.roleKey staging.contentKey (.list []) [.dict message] =
      .ok (printed staging message) := by
  have hmessage : printMessage staging.roleKey staging.contentKey (.list []) (.dict message) =
      .ok (some (printed staging message)) := rfl
  simp [printMessages, hmessage, bind, Except.bind, pure, Except.pure]

theorem step_printHistory (h : config.Hookless) (now : Timestamp) {progress : Progress}
    {message : Record} (hhistory : progress.history = .list [.dict message]) (calls : List Call) :
    (step now ⟨config, some staging, some progress, calls⟩ (.printHistory (.list []))).1 =
      .ok (.value (.ofChars (printed staging message))) := by
  have hprint : (printHistory (.list [])).run ⟨config, some staging, some progress, calls⟩ =
      .ok (some (String.ofList (printed staging message)))
        ⟨config, some staging, some progress, calls⟩ := by
    simp only [printHistory, run_get_bind, current?, hhistory]
    rw [run_bind_ok (run_runHooks h _ _)]
    refine (run_bind_ok (run_ofExcept_ok [Value.dict message] _)).trans ?_
    rw [printMessages_singleton]
    rfl
  have hrun : (perform now (.printHistory (.list []))).run
      ⟨config, some staging, some progress, calls⟩ = .ok _ _ := run_bind_ok hprint
  simp only [step, hrun]
  rfl

variable {a b : Staging} {now : Timestamp}

theorem SameReplies.printed (h : config.Hookless)
    (hsame : SameReplies (opened config a scenario) (opened config b scenario))
    (message : Record) : printed a message = printed b message := by
  have hpushed := hsame.step default (.pushMessages (.list [.dict message])) trivial
  rw [step_pushMessages h, step_pushMessages h] at hpushed
  have hreply := hpushed.reply default (.printHistory (.list [])) trivial
  rw [step_printHistory h default rfl, step_printHistory h default rfl] at hreply
  have htext : String.ofList (Session.printed a message) =
      String.ofList (Session.printed b message) := by
    simpa [Value.ofChars] using hreply
  exact String.ofList_injective htext

theorem roleKey_of_printed (h : ∀ message, printed a message = printed b message) :
    a.roleKey = b.roleKey := by
  by_contra hne
  have hprinted := h [(a.roleKey, .str "a"), (b.roleKey, .str "b")]
  have ha : a.roleOf [(a.roleKey, .str "a"), (b.roleKey, .str "b")] = .str "a" := by
    simp [Staging.roleOf, Table.get?_cons]
  have hb : b.roleOf [(a.roleKey, .str "a"), (b.roleKey, .str "b")] = .str "b" := by
    simp [Staging.roleOf, Table.get?_cons, hne]
  unfold printed at hprinted
  rw [ha, hb] at hprinted
  exact absurd (List.head_eq_of_cons_eq hprinted) (by decide)

theorem contentKey_of_printed (hrole : a.roleKey = b.roleKey)
    (h : ∀ message, printed a message = printed b message) : a.contentKey = b.contentKey := by
  by_contra hne
  have hprinted := h [(a.contentKey, .str "a"), (b.contentKey, .str "b")]
  rw [printed, Staging.roleOf] at hprinted
  rw [hrole] at hprinted
  have hcontent := List.append_cancel_left hprinted
  simp [Staging.textAt, Table.get?_cons, hne, indent, Value.text] at hcontent

/-! ## Settings -/

theorem reply_map_injective {x y : Except Fault Value}
    (h : Reply.value <$> x = Reply.value <$> y) : x = y := by
  cases x with
  | error fault =>
    cases y with
    | error fault' => exact congrArg Except.error (Except.error.inj h)
    | ok w => cases h
  | ok v =>
    cases y with
    | error fault' => cases h
    | ok w => exact congrArg Except.ok (Reply.value.inj (Except.ok.inj h))

theorem configValue_opened {act : String} (hact : act ≠ "") (path : Path) :
    (opened config staging scenario).configValue path (.str act) = staging.shown path act := by
  have hgiven : (Value.str act).truthy = true := by simp [Value.truthy, hact]
  have hat : (opened config staging scenario).actAt (.str act) = .str act := if_pos hgiven
  rw [configValue_eq rfl (by rw [hat]; rfl), hat]
  rfl

theorem step_currentAct (s : Session) (now : Timestamp) :
    (step now s .currentAct).1 = .ok (.text? s.currentAct) := rfl

/-! ## Messages -/

open Classical in
noncomputable def verdict (expected config : Option Record) : Value :=
  .dict [("same", .bool (config = expected))]

theorem eq_of_verdict {expected config : Option Record}
    (h : verdict expected expected = verdict expected config) : config = expected := by
  simpa [verdict] using h

noncomputable def telling (expected : Option Record) : Action :=
  .call "telling" fun view => .ok (verdict expected view.config)

noncomputable def tellingConfig (placeholder : Value) (expected : Table (Option Record)) : Config :=
  { Config.default with
    defaultPlaceholder := placeholder
    actions := .proper (expected.map fun entry => (entry.1, telling entry.2)) }

theorem tellingConfig_plain (placeholder : Value) (expected : Table (Option Record)) :
    (tellingConfig placeholder expected).Plain where
  hookless := ⟨[], rfl, fun _ h => absurd h List.not_mem_nil⟩
  obliging := by
    intro actions hactions entry hentry
    cases hactions
    obtain ⟨⟨role, settings⟩, -, rfl⟩ := List.mem_map.1 hentry
    intro view v hv
    cases hv
    exact speaks_dict ⟨trivial, trivial⟩

noncomputable def told (staging : Staging) (act : String) (expected : Table (Option Record))
    (entry : Nat × Record) : Value :=
  match staging.roleOf entry.2 with
  | .str role =>
    match Table.get? expected role with
    | some settings => verdict settings (staging.messageConfig act (.int entry.1))
    | none => .dict entry.2
  | _ => .dict entry.2

theorem messagesOf_told (act : String) (expected : Table (Option Record)) {entry : Nat × Record}
    (hentry : entry.2 ≠ []) :
    messagesOf (told staging act expected entry) = [told staging act expected entry] := by
  have hdict : ∀ message : Record, message ≠ [] → messagesOf (.dict message) = [.dict message] := by
    intro message hmessage
    simp [messagesOf, Value.truthy, hmessage]
  rw [told]
  split
  · split
    · exact hdict _ (List.cons_ne_nil _ _)
    · exact hdict _ hentry
  · exact hdict _ hentry

theorem ensures_applyAction_told {placeholder : Value} {expected : Table (Option Record)}
    {s : Session} (hconfig : s.config = tellingConfig placeholder expected) {progress : Progress}
    (hprogress : s.progress = some progress) (act : String) {entry : Nat × Record}
    (hentry : ∀ field ∈ entry.2, ∃ t, field.2 = Value.str t) :
    Ensures (applyAction staging act entry) s
      (fun v t => v = told staging act expected entry ∧ Noted s t) (fun _ _ => False) := by
  obtain ⟨index, message⟩ := entry
  have hactions : s.config.actionTable =
      .ok (expected.map fun entry => (entry.1, telling entry.2)) := by
    rw [hconfig]
    rfl
  have hkey : ((Table.get? message staging.roleKey).getD .null).isKey = true := by
    cases hrole : Table.get? message staging.roleKey with
    | none => rfl
    | some role =>
      obtain ⟨t, ht⟩ := hentry _ (Table.mem_of_get? hrole)
      obtain rfl : role = .str t := ht
      rfl
  rw [ensures_congr (applyAction_eq staging act index message), hactions, hkey]
  simp only [ensures_bind, ensures_ofExcept_ok, Bool.not_true, Bool.false_eq_true, if_false]
  rw [told, Staging.roleOf]
  dsimp only
  generalize (Table.get? message staging.roleKey).getD .null = role
  cases role with
  | str name =>
    simp only [actionOf, Table.get?_map]
    cases Table.get? expected name with
    | none => exact ⟨rfl, Noted.refl s⟩
    | some settings =>
      simp only [Option.map_some, Option.getD_some, telling, replacement, ensures_bind,
        ensures_get, hprogress]
      exact ⟨rfl, _, rfl⟩
  | _ => exact ⟨rfl, Noted.refl s⟩

theorem ensures_applyActions_told {placeholder : Value} {expected : Table (Option Record)}
    {s : Session} (hconfig : s.config = tellingConfig placeholder expected) {progress : Progress}
    (hprogress : s.progress = some progress) (act : String)
    {built : List (Nat × Record)}
    (hbuilt : ∀ entry ∈ built, entry.2 ≠ [] ∧ ∀ field ∈ entry.2, ∃ t, field.2 = Value.str t) :
    Ensures (applyActions staging act built) s
      (fun messages t => messages = built.map (told staging act expected) ∧ Noted s t)
      (fun _ _ => False) := by
  induction built generalizing s with
  | nil => exact ⟨rfl, Noted.refl s⟩
  | cons entry rest ih =>
    obtain ⟨⟨hne, htexts⟩, hrest⟩ := List.forall_mem_cons.1 hbuilt
    simp only [applyActions, ensures_bind]
    refine (ensures_applyAction_told hconfig hprogress act htexts).mono
      (fun v t ht => ?_) fun _ _ hfalse => hfalse
    obtain ⟨rfl, hst⟩ := ht
    obtain ⟨calls, rfl⟩ := id hst
    have hmore := ih (s := { s with calls := calls }) hconfig hprogress hrest
    refine hmore.mono (fun more u hu => ?_) fun _ _ hfalse => hfalse
    obtain ⟨rfl, htu⟩ := hu
    refine ⟨?_, hst.trans htu⟩
    rw [messagesOf_told act expected hne]
    rfl

theorem reply_of_ensures {s : Session} {command : Command} {reply : Except Fault Reply}
    (h : Ensures (perform now command) s (fun r _ => reply = .ok r)
      fun fault _ => reply = .error fault) : (step now s command).1 = reply := by
  rw [step]
  cases hrun : (perform now command).run s with
  | ok r t => exact (h.of_ok hrun).symm
  | error fault t => exact (h.of_error hrun).symm

theorem step_execute_told (htextual : staging.scenario.Textual) (placeholder : Value)
    (expected : Table (Option Record)) (now : Timestamp) (context : Record) {act : String}
    {found : Act} (hact : staging.scenario.act? act = some found) :
    (step now (opened (tellingConfig placeholder expected) staging scenario)
        (.execute (.dict context) (.str act))).1 =
      (fun built => Reply.value (.list (built.map (told staging act expected)))) <$>
        staging.buildIndexed (.dict context) (some act) := by
  have hgiven : (Value.str act).truthy = true := by simp [Value.truthy, (htextual.act hact).1]
  have hat : (opened (tellingConfig placeholder expected) staging scenario).actAt (.str act) =
      .str act := if_pos hgiven
  have hcurrent : (opened (tellingConfig placeholder expected) staging scenario).current? =
      some (staging, Progress.initial scenario) := rfl
  have hhookless := (tellingConfig_plain placeholder expected).hookless
  refine reply_of_ensures (ensures_bind.2 ?_)
  rw [execute]
  simp only [ensures_bind, ensures_get, hcurrent, request, Value.toRecordIfGiven_dict,
    ensures_ofExcept_ok, hat, Scenario.nameFrom, hact, Option.isNone_some, Bool.false_eq_true,
    if_false, ensures_advance, buildMessages]
  have hmerge : Context.merge (Progress.initial scenario).context context = context :=
    Context.nil_merge context
  rw [hmerge]
  dsimp only [opened]
  refine ensures_ofExcept.2 ⟨fun built hbuilt => ?_, fun fault hfault => by rw [hfault]; rfl⟩
  have htexts := Staging.fields_of_buildIndexed (P := fun v => ∃ s, v = .str s)
    (fun _ => ⟨_, rfl⟩) (fun entry he => (htextual entry he).2) hbuilt
  refine (ensures_applyActions_told rfl rfl act htexts).mono
    (fun messages t ht => ?_) fun _ _ hfalse => hfalse.elim
  obtain ⟨rfl, calls, rfl⟩ := ht
  apply (ensures_runHooks hhookless).2
  rw [hbuilt]
  rfl

theorem seen_of_told (hrole : a.roleKey = b.roleKey) (act : String) {entry entry' : Nat × Record}
    (h : ∀ expected, told a act expected entry = told b act expected entry') :
    (entry.2, a.seenConfig act entry) = (entry'.2, b.seenConfig act entry') := by
  have hmessage : entry.2 = entry'.2 := by
    have hnone : ∀ (staging : Staging) (e : Nat × Record), told staging act [] e = .dict e.2 := by
      intro staging e
      unfold told
      split <;> rfl
    have hplain := h []
    rw [hnone, hnone] at hplain
    exact Value.dict.inj hplain
  have hroleOf : a.roleOf entry.2 = b.roleOf entry'.2 := by
    unfold Staging.roleOf
    rw [hrole, hmessage]
  apply Prod.ext hmessage
  cases hsame : a.roleOf entry.2 with
  | str role =>
    have hverdict := h [(role, a.messageConfig act (.int entry.1))]
    unfold told at hverdict
    rw [← hroleOf, hsame] at hverdict
    simp only [Table.get?_cons, if_true] at hverdict
    simp only [Staging.seenConfig, ← hroleOf, hsame]
    exact (eq_of_verdict hverdict).symm
  | _ => simp only [Staging.seenConfig, ← hroleOf, hsame]

theorem offers_of_told (hrole : a.roleKey = b.roleKey) (act : String)
    {built built' : List (Nat × Record)}
    (h : ∀ expected, built.map (told a act expected) = built'.map (told b act expected)) :
    built.map (fun entry => (entry.2, a.seenConfig act entry)) =
      built'.map fun entry => (entry.2, b.seenConfig act entry) := by
  induction built generalizing built' with
  | nil =>
    cases built' with
    | nil => rfl
    | cons entry rest => cases h []
  | cons entry rest ih =>
    cases built' with
    | nil => cases h []
    | cons entry' rest' =>
      have hhead := seen_of_told hrole act fun expected => List.head_eq_of_cons_eq (h expected)
      have htail := ih fun expected => List.tail_eq_of_cons_eq (h expected)
      exact congrArg₂ List.cons hhead htail

theorem offered_of_told (hrole : a.roleKey = b.roleKey) (act : String) (context : Record)
    (h : ∀ expected,
      (fun built => Reply.value (.list (built.map (told a act expected)))) <$>
          a.buildIndexed (.dict context) (some act) =
        (fun built => Reply.value (.list (built.map (told b act expected)))) <$>
          b.buildIndexed (.dict context) (some act)) :
    a.offered context act = b.offered context act := by
  unfold Staging.offered
  cases ha : a.buildIndexed (.dict context) (some act) with
  | error fault =>
    cases hb : b.buildIndexed (.dict context) (some act) with
    | error fault' =>
      have hfault := h []
      rw [ha, hb] at hfault
      exact congrArg Except.error (Except.error.inj hfault)
    | ok built' =>
      have hfault := h []
      rw [ha, hb] at hfault
      cases hfault
  | ok built =>
    cases hb : b.buildIndexed (.dict context) (some act) with
    | error fault' =>
      have hfault := h []
      rw [ha, hb] at hfault
      cases hfault
    | ok built' =>
      refine congrArg Except.ok (offers_of_told hrole act fun expected => ?_)
      have hlist := h expected
      rw [ha, hb] at hlist
      exact Value.list.inj (Reply.value.inj (Except.ok.inj hlist))

theorem looksAlike_of_sameReplies (placeholder : Value) (hordered : a.scenario.Ordered)
    (ha : a.scenario.Textual) (hb : b.scenario.Textual)
    (horder : b.scenario.order = a.scenario.order)
    (hkeys : b.scenario.acts.keys = a.scenario.acts.keys)
    (h : ∀ expected, SameReplies (opened (tellingConfig placeholder expected) a a.scenario)
      (opened (tellingConfig placeholder expected) b a.scenario)) : a.LooksAlike b := by
  have hprinted := (h []).printed (tellingConfig_plain placeholder []).hookless
  have hrole := roleKey_of_printed hprinted
  have hfound : ∀ act ∈ a.scenario.order, (∃ found, a.scenario.act? act = some found) ∧
      ∃ found, b.scenario.act? act = some found := by
    intro act hact
    have hmem := (hordered.mem_order act).1 hact
    have hget : ∀ {s : Scenario}, act ∈ s.acts.keys → ∃ found, s.act? act = some found := by
      intro s hs
      apply Option.ne_none_iff_exists'.1
      intro hnone
      exact (Table.get?_eq_none_iff _ _).1 hnone hs
    exact ⟨hget hmem, hget (hkeys ▸ hmem)⟩
  refine ⟨hrole, contentKey_of_printed hrole hprinted, fun hnil => ?_, fun context act hact => ?_,
    fun key act hact => ?_⟩
  · have hreply := (h []).reply default .currentAct trivial
    rw [step_currentAct, step_currentAct] at hreply
    have hcurrent : Reply.text? (some a.defaultAct) = Reply.text? (some b.defaultAct) := by
      simpa [currentAct, opened, Progress.initial, hnil, horder] using hreply
    exact Value.str.inj (Reply.value.inj hcurrent)
  · obtain ⟨⟨found, hfa⟩, found', hfb⟩ := hfound act hact
    apply offered_of_told hrole act context
    intro expected
    have hreply := (h expected).reply default (.execute (.dict context) (.str act)) trivial
    rwa [step_execute_told ha placeholder expected default context hfa,
      step_execute_told hb placeholder expected default context hfb] at hreply
  · obtain ⟨⟨found, hfa⟩, -⟩ := hfound act hact
    have hne := (ha.act hfa).1
    have hreply := (h []).reply default (.configValue key (.str act)) trivial
    rw [step_configValue, step_configValue, configValue_opened hne, configValue_opened hne]
      at hreply
    exact reply_map_injective hreply

end Session

end Playscript
