import Playscript.Proofs.Compiler.Stanzas
import Playscript.Proofs.Path.Under
import Playscript.Staging

/-!
# Settings of messages

A directive in the body of a message is stored in the settings of the act, under the number that the
message will have there. The number is that of the messages told in the act so far. If nothing else
is stored under the numbers, what stands under the number of a message is what the directives in its
own body write.
-/
namespace Playscript

/-! ## Writes -/

def Directive.write? : Directive → Option (Path × Value)
  | .assign key value => (Coercion.restore value).toOption.map fun v => (Path.ofChars key, v)
  | .flag key => some (Path.ofChars key, .bool true)
  | _ => none

def Speech.settings (speech : Speech) : Option Record :=
  Path.record? (speech.directives.filterMap Directive.write?)

namespace Scope

def place (scope : Scope) (path : Path) : Path :=
  match scope.index with
  | none => path
  | some index => "messages" :: Path.segment index :: path

theorem ofChars_scopedKey (scope : Scope) (key : List Char) :
    Path.ofChars (Directive.scopedKey scope key) = scope.place (Path.ofChars key) := by
  rw [Directive.scopedKey, place]
  cases scope.index with
  | none => rfl
  | some index =>
    have hword : "messages.".toList ++ Text.decimal index ++ '.' :: key =
        "messages".toList ++ '.' :: (Text.decimal index ++ '.' :: key) := by
      simp
    dsimp only
    rw [hword, Path.ofChars_append_point (by decide) (by decide) (by decide),
      Path.ofChars_decimal_point]
    rfl

end Scope

namespace Event

def write? (act : String) : Event → Option (Path × Value)
  | .directive scope written =>
    if scope.act = act then written.write?.map fun write => (scope.place write.1, write.2)
    else none
  | .message _ => none

def own? (act : String) (index : Int) : Event → Option (Path × Value)
  | .directive scope written =>
    if scope.act = act ∧ scope.index = some index then written.write? else none
  | .message _ => none

end Event

theorem Act.config_register (act : Act) (placeholders : List Script.Placeholder) :
    (act.register placeholders).config = act.config := by
  induction placeholders generalizing act with
  | nil => rfl
  | cons p rest ih => rw [register_cons, ih]; rfl

theorem Act.config_hear (settings : Record) (act : Act) (told : Told) :
    (act.hear settings told).config = act.config :=
  config_register act (Script.Placeholder.ofContent told.content)

def Scenario.configOf (s : Scenario) (act : String) : Record :=
  ((s.act? act).map Act.config).getD []

namespace Compiler

open Script (Line)

variable {settings : Record} {source : List Line} {past : List Event} {d t : Draft}

theorem configOf_ensureAct (s : Scenario) (name act : String) (description : Option String) :
    (s.ensureAct name description).configOf act = s.configOf act := by
  have hdescribe : ∀ a : Act, (a.describe description).config = a.config := fun a => by
    unfold Act.describe
    split
    · rfl
    · split_ifs <;> rfl
  rw [Scenario.configOf, Scenario.configOf, Scenario.act?_ensureAct]
  split_ifs with hname
  · rw [hname, Option.map_some, Option.getD_some, hdescribe]
    cases s.act? act <;> rfl
  · rfl

theorem configOf_configure (d : Draft) (scope : Scope) (key : List Char) (v : Value)
    (act : String) :
    (d.configure scope key v).scenario.configOf act =
      if scope.act = act then
        Path.set (d.scenario.configOf act) (scope.place (Path.ofChars key)) v
      else d.scenario.configOf act := by
  rw [← configOf_ensureAct d.scenario scope.act act none, ← Scope.ofChars_scopedKey,
    Draft.configure, Scenario.configOf, Scenario.configOf, Scenario.act?_modifyAct]
  split_ifs with hact
  · rw [← hact, Scenario.act?_ensureAct, if_pos rfl]
    rfl
  · rfl

theorem configOf_of_effect {scope : Scope} {directive : Directive} (h : directive.Effect scope d t)
    (act : String) :
    t.scenario.configOf act = Path.setAll (d.scenario.configOf act)
      ([Event.directive scope directive].filterMap (Event.write? act)) := by
  have hacts : ∀ {u : Draft}, u.scenario.acts = d.scenario.acts →
      u.scenario.configOf act = d.scenario.configOf act := fun hu => by
    rw [Scenario.configOf, Scenario.act?, hu]
    rfl
  have hconfigure : ∀ key v, directive.write? = some (Path.ofChars key, v) →
      t = d.configure scope key v →
      t.scenario.configOf act = Path.setAll (d.scenario.configOf act)
        ([Event.directive scope directive].filterMap (Event.write? act)) := by
    rintro key v hwrite rfl
    rw [configOf_configure, List.filterMap_cons, Event.write?, hwrite]
    split_ifs <;> rfl
  have hsilent : directive.write? = none →
      [Event.directive scope directive].filterMap (Event.write? act) = [] := fun hnone => by
    rw [List.filterMap_cons, Event.write?, hnone]
    split_ifs <;> rfl
  cases directive with
  | setting key value =>
    obtain ⟨v, -, rfl⟩ := h
    rw [hsilent rfl]
    exact hacts (Draft.acts_override _ _ _)
  | use key value =>
    rw [hsilent rfl]
    obtain ⟨-, rfl⟩ | ⟨first, rest, v, -, -, -, rfl⟩ := h
    · rfl
    · exact hacts (Draft.acts_setConfig _ _ _)
  | assign key value =>
    obtain ⟨v, hv, hconfigured⟩ := h
    exact hconfigure key v (by rw [Directive.write?, hv]; rfl) hconfigured
  | flag key => exact hconfigure key _ rfl h
  | ignored =>
    rw [hsilent rfl]
    obtain rfl : t = _ := h
    rfl

theorem Trace.configOf_eq (h : Trace settings source past d) (act : String) :
    d.scenario.configOf act = Path.setAll [] (past.filterMap (Event.write? act)) := by
  induction h with
  | start => rfl
  | register h name description ih =>
    rw [← ih]
    exact configOf_ensureAct _ _ _ _
  | directive h hline hmarks hread hrun ih =>
    rw [List.filterMap_append, Path.setAll_append, ← ih]
    exact configOf_of_effect (Directive.effect_of_perform hrun) act
  | @message past before d e h told hknown hwritten hbefore hearlier hhead hcomment ih =>
    rw [List.filterMap_append, Path.setAll_append, ← ih, Scenario.configOf,
      Scenario.act?_modifyAct]
    split_ifs with hact
    · rw [hact, Option.map_map]
      exact congrArg (Option.getD · []) (Option.map_congr fun a _ => Act.config_hear _ a told)
    · rfl

/-! ## Settings under numbers -/

def NumbersFree (act : String) (past : List Event) : Prop :=
  ∀ scope directive, .directive scope directive ∈ past → scope.act = act → scope.index = none →
    ∀ write ∈ directive.write?, write.1.head? ≠ some "messages"

theorem write?_strip {act : String} {scope : Scope} {directive : Directive} (index : Int)
    (hfree : scope.act = act → scope.index = none →
      ∀ write ∈ directive.write?, write.1.head? ≠ some "messages") :
    ((Event.write? act (.directive scope directive)).bind (Path.strip "messages")).bind
        (Path.strip (Path.segment index)) =
      Event.own? act index (.directive scope directive) := by
  rw [Event.write?, Event.own?]
  by_cases hact : scope.act = act
  case neg => rw [if_neg hact, if_neg fun h => hact h.1]; rfl
  rw [if_pos hact]
  cases hwrite : directive.write? with
  | none => exact (ite_self _).symm
  | some write =>
    obtain ⟨path, v⟩ := write
    rw [Option.map_some, Option.bind_some, Scope.place]
    cases hindex : scope.index with
    | none =>
      rw [Path.strip_of_head (hfree hact hindex _ hwrite), if_neg fun h => nomatch h.2]
      rfl
    | some other =>
      dsimp only
      rw [Path.strip_cons, Option.bind_some, Path.strip]
      have hsegment : Path.segment other = Path.segment index ↔ some other = some index :=
        ⟨fun h => congrArg some (Path.segment_inj h), fun h => by rw [Option.some.inj h]⟩
      simp only [hsegment, hact, true_and]

theorem under_write? {act : String} (hfree : NumbersFree act past) (index : Int) :
    Path.under (Path.segment index)
        (Path.under "messages" (past.filterMap (Event.write? act))) =
      past.filterMap (Event.own? act index) := by
  rw [Path.under, Path.under, List.filterMap_filterMap, List.filterMap_filterMap]
  refine List.filterMap_congr fun e he => ?_
  cases e with
  | message told => rfl
  | directive scope directive =>
    exact (Option.bind_assoc _ _ _).symm.trans
      (write?_strip index fun hact hindex => hfree scope directive he hact hindex)

theorem NumbersFree.ne_messages {act : String} (hfree : NumbersFree act past) {write : Path × Value}
    (h : write ∈ past.filterMap (Event.write? act)) : write.1 ≠ ["messages"] := by
  obtain ⟨e, he, hwrite⟩ := List.mem_filterMap.1 h
  cases e with
  | message told => cases hwrite
  | directive scope directive =>
    rw [Event.write?] at hwrite
    split_ifs at hwrite with hact
    obtain ⟨inner, hinner, rfl⟩ := Option.map_eq_some_iff.1 hwrite
    dsimp only
    rw [Scope.place]
    cases hindex : scope.index with
    | none =>
      intro heq
      exact hfree scope directive he hact hindex inner hinner (congrArg List.head? heq)
    | some index => exact fun heq => nomatch (List.cons.inj heq).2

theorem messageConfig_of_get? {staging : Staging} {act : String} {index : Int}
    {messages own : Option Record}
    (hmessages : Table.get? (staging.scenario.configOf act) "messages" = messages.map .dict)
    (hown : Table.get? (messages.getD []) (Path.segment index) = own.map .dict) :
    staging.messageConfig act (.int index) = own := by
  have hnumber : String.ofList (Value.int index).text = Path.segment index := rfl
  rw [Staging.messageConfig, hnumber]
  cases hact : staging.scenario.act? act with
  | none =>
    rw [Scenario.configOf, hact] at hmessages
    cases messages with
    | none =>
      cases own with
      | none => rfl
      | some record => cases hown
    | some record => cases hmessages
  | some found =>
    rw [Scenario.configOf, hact] at hmessages
    change Table.get? found.config "messages" = _ at hmessages
    simp only [bind, Option.bind_some, hmessages]
    cases messages with
    | none =>
      cases own with
      | none => rfl
      | some record => cases hown
    | some record =>
      change Table.get? record (Path.segment index) = _ at hown
      simp only [Option.map_some, Option.bind_some, hown]
      cases own <;> rfl

theorem Trace.messageConfig_eq (h : Trace settings source past d) {act : String}
    (hfree : NumbersFree act past) {index : Int}
    (hkeys : ∀ write ∈ past.filterMap (Event.own? act index), write.1 ≠ []) {staging : Staging}
    (hstaging : staging.scenario = d.scenario) :
    staging.messageConfig act (.int index) =
      Path.record? (past.filterMap (Event.own? act index)) := by
  have hunder := under_write? hfree index
  apply messageConfig_of_get?
  · rw [hstaging, h.configOf_eq]
    exact Path.get?_setAll_nil fun write hwrite => hfree.ne_messages hwrite
  · rw [Path.getD_record?, ← hunder]
    refine Path.get?_setAll_nil fun write hwrite heq => ?_
    obtain ⟨path, v⟩ := write
    obtain rfl : path = [Path.segment index] := heq
    exact hkeys ([], v) (hunder ▸ Path.mem_under hwrite) rfl

/-! ## Numbers of messages -/

theorem speeches_append_singleton (act : String) (stanzas : List Stanza) (stanza : Stanza) :
    Stanza.speeches act (stanzas ++ [stanza]) =
      Stanza.speeches act stanzas ++ (stanza.speechIn? act).toList := by
  rw [Stanza.speeches, Stanza.speeches, List.filterMap_append, List.filterMap_cons]
  cases stanza.speechIn? act <;> rfl

theorem toldIn_events {stanza : Stanza}
    (h : ∀ speech ∈ stanza.speech, speech.entry.act = stanza.act) (act : String) (told : Nat) :
    toldIn act (stanza.events settings told) =
      ((stanza.speechIn? act).map fun speech => speech.entry.told settings).toList := by
  rw [Stanza.events, toldIn_append, toldIn_directives, List.nil_append, Stanza.speechIn?]
  cases hsaid : stanza.speech with
  | none => rw [ite_self]; rfl
  | some speech =>
    have hact : (speech.entry.told settings).act = stanza.act := h speech hsaid
    rw [Option.elim_some, toldIn_append, toldIn_directives, List.nil_append, ← hact]
    by_cases hin : (speech.entry.told settings).act = act
    · simp [toldIn, Event.message?, hin]
    · simp [toldIn, Event.message?, hin]

theorem toldIn_follow {stanzas : List Stanza}
    (h : ∀ stanza ∈ stanzas, ∀ speech ∈ stanza.speech, speech.entry.act = stanza.act)
    (act : String) :
    toldIn act (stanzas.foldl (Stanza.follow settings) []) =
      (Stanza.speeches act stanzas).map fun speech => speech.entry.told settings := by
  induction stanzas using List.reverseRecOn with
  | nil => rfl
  | append_singleton stanzas stanza ih =>
    obtain ⟨hearlier, hlast⟩ := List.forall_mem_append.1 h
    have hspeech := hlast stanza (List.mem_singleton_self _)
    rw [List.foldl_append, List.foldl_cons, List.foldl_nil, Stanza.follow, toldIn_append,
      ih hearlier, speeches_append_singleton, List.map_append, toldIn_events hspeech]
    cases stanza.speechIn? act <;> rfl

theorem own?_directives (act : String) (index : Int) (here : Scope)
    (directives : List Directive) :
    (directives.map (.directive here)).filterMap (Event.own? act index) =
      if here.act = act ∧ here.index = some index then directives.filterMap Directive.write?
      else [] := by
  rw [List.filterMap_map]
  split_ifs with hhere
  · exact List.filterMap_congr fun directive _ => if_pos hhere
  · exact List.filterMap_eq_nil_iff.2 fun directive _ => if_neg hhere

theorem own?_events (stanza : Stanza) (act : String) (told : Nat) (index : Nat) :
    (stanza.events settings told).filterMap (Event.own? act index) =
      if told = index then
        (stanza.speechIn? act).elim [] fun speech => speech.directives.filterMap Directive.write?
      else [] := by
  have hfront : ¬ (stanza.act = act ∧ (none : Option Int) = some (index : Int)) :=
    fun h => nomatch h.2
  rw [Stanza.events, List.filterMap_append, own?_directives, if_neg hfront, List.nil_append,
    Stanza.speechIn?]
  cases stanza.speech with
  | none => rw [ite_self, Option.elim_none, Option.elim_none, ite_self]; rfl
  | some speech =>
    rw [Option.elim_some, List.filterMap_append, own?_directives]
    simp only [Option.some.injEq, Int.ofNat_inj, List.filterMap_cons, Event.own?,
      List.filterMap_nil, List.append_nil]
    split_ifs <;> simp_all

theorem own?_follow {stanzas : List Stanza}
    (h : ∀ stanza ∈ stanzas, ∀ speech ∈ stanza.speech, speech.entry.act = stanza.act)
    (act : String) (index : Nat) :
    (stanzas.foldl (Stanza.follow settings) []).filterMap (Event.own? act index) =
      ((Stanza.speeches act stanzas)[index]?).elim [] fun speech =>
        speech.directives.filterMap Directive.write? := by
  induction stanzas using List.reverseRecOn with
  | nil => rfl
  | append_singleton stanzas stanza ih =>
    obtain ⟨hearlier, hlast⟩ := List.forall_mem_append.1 h
    rw [List.foldl_append, List.foldl_cons, List.foldl_nil, Stanza.follow, List.filterMap_append,
      ih hearlier, own?_events, speeches_append_singleton, toldIn_follow hearlier, List.length_map]
    cases hsaid : stanza.speechIn? act with
    | none =>
      rw [Option.elim_none, ite_self, List.append_nil]
      exact congrArg (fun speeches : List Speech => (speeches[index]?).elim [] _)
        (List.append_nil _).symm
    | some speech =>
      obtain rfl : stanza.act = act := by
        by_contra hact
        rw [Stanza.speechIn?, if_neg hact] at hsaid
        cases hsaid
      generalize Stanza.speeches stanza.act stanzas = earlier
      rw [Option.elim_some, Option.toList_some, List.getElem?_append]
      -- The number is that of an earlier message, that of the last one, or not yet given.
      obtain hlt | rfl | hgt := Nat.lt_trichotomy index earlier.length
      · rw [if_neg (Nat.ne_of_gt hlt), if_pos hlt, List.append_nil]
      · rw [if_pos rfl, if_neg (Nat.lt_irrefl _), Nat.sub_self, List.getElem?_eq_none le_rfl]
        rfl
      · have hbeyond : [speech][index - earlier.length]? = none :=
          List.getElem?_eq_none (by rw [List.length_singleton]; omega)
        rw [if_neg (Nat.ne_of_lt hgt), if_neg (Nat.not_lt_of_gt hgt), hbeyond,
          List.getElem?_eq_none (Nat.le_of_lt hgt)]
        rfl

theorem mem_of_mem_follow {stanzas : List Stanza} {scope : Scope} {directive : Directive}
    (h : .directive scope directive ∈ stanzas.foldl (Stanza.follow settings) []) :
    ∃ stanza ∈ stanzas, scope.act = stanza.act ∧
      (scope.index = none → directive ∈ stanza.directives) := by
  induction stanzas using List.reverseRecOn with
  | nil => cases h
  | append_singleton stanzas stanza ih =>
    rw [List.foldl_append, List.foldl_cons, List.foldl_nil, Stanza.follow, Stanza.events] at h
    obtain hearlier | hlast := List.mem_append.1 h
    · obtain ⟨found, hfound, hmem⟩ := ih hearlier
      exact ⟨found, List.mem_append_left _ hfound, hmem⟩
    refine ⟨stanza, List.mem_append_right _ (List.mem_singleton_self _), ?_⟩
    obtain hfront | hbody := List.mem_append.1 hlast
    · obtain ⟨found, hfound, heq⟩ := List.mem_map.1 hfront
      cases heq
      exact ⟨rfl, fun _ => hfound⟩
    · cases hsaid : stanza.speech with
      | none =>
        rw [hsaid] at hbody
        cases hbody
      | some speech =>
        rw [hsaid, Option.elim_some] at hbody
        obtain hbody | hmessage := List.mem_append.1 hbody
        · obtain ⟨found, hfound, heq⟩ := List.mem_map.1 hbody
          cases heq
          exact ⟨rfl, fun hindex => by cases hindex⟩
        · cases List.mem_singleton.1 hmessage

/-! ## Scripts -/

def ApartFromMessages (act : String) (stanzas : List Stanza) : Prop :=
  ∀ stanza ∈ stanzas, stanza.act = act → ∀ directive ∈ stanza.directives,
    ∀ write ∈ directive.write?, write.1.head? ≠ some "messages"

def KeyedBodies (act : String) (stanzas : List Stanza) : Prop :=
  ∀ speech ∈ Stanza.speeches act stanzas, ∀ directive ∈ speech.directives,
    ∀ write ∈ directive.write?, write.1 ≠ []

variable {text : String} {scenario : Scenario} {after : Record}

theorem messagesOf_eq_speeches (h : compile text settings = (.ok scenario, after))
    (hquiet : Quiet (events text settings)) (act : String) :
    scenario.messagesOf act = (Stanza.speeches act (Stanza.ofText settings text)).map
      fun speech => speech.entry.message settings := by
  obtain ⟨d, hrun, rfl, -⟩ := run_of_compile h
  rw [(trace_run hrun).messages_eq hquiet.namedBy, events_eq_follow hrun hquiet,
    toldIn_follow (act_of_ofText settings text), List.map_map]
  rfl

/-- The settings of a message are those that the directives in its own body write. -/
theorem messageConfig_eq_settings (h : compile text settings = (.ok scenario, after))
    (hquiet : Quiet (events text settings)) {act : String}
    (hapart : ApartFromMessages act (Stanza.ofText settings text))
    (hkeyed : KeyedBodies act (Stanza.ofText settings text)) {staging : Staging}
    (hstaging : staging.scenario = scenario) (index : Nat) :
    staging.messageConfig act (.int index) =
      ((Stanza.speeches act (Stanza.ofText settings text))[index]?).bind Speech.settings := by
  obtain ⟨d, hrun, rfl, -⟩ := run_of_compile h
  have hevents := events_eq_follow hrun hquiet
  have hown : (events text settings).filterMap (Event.own? act index) =
      ((Stanza.speeches act (Stanza.ofText settings text))[index]?).elim [] fun speech =>
        speech.directives.filterMap Directive.write? := by
    rw [hevents, own?_follow (act_of_ofText settings text)]
  have hfree : NumbersFree act (events text settings) := by
    intro scope directive hmem hact hindex
    rw [hevents] at hmem
    obtain ⟨stanza, hstanza, hscope, hfront⟩ := mem_of_mem_follow hmem
    exact hapart stanza hstanza (hscope.symm.trans hact) directive (hfront hindex)
  cases hspeech : (Stanza.speeches act (Stanza.ofText settings text))[index]? with
  | none =>
    rw [hspeech, Option.elim_none] at hown
    rw [(trace_run hrun).messageConfig_eq hfree (by simp [hown]) hstaging, hown]
    rfl
  | some speech =>
    rw [hspeech, Option.elim_some] at hown
    have hkeys : ∀ write ∈ speech.directives.filterMap Directive.write?, write.1 ≠ [] := by
      intro write hwrite
      obtain ⟨directive, hdirective, hwritten⟩ := List.mem_filterMap.1 hwrite
      exact hkeyed speech (List.mem_of_getElem? hspeech) directive hdirective write hwritten
    rw [(trace_run hrun).messageConfig_eq hfree (hown ▸ hkeys) hstaging, hown]
    rfl

end Compiler

end Playscript
