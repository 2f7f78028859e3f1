import Playscript.Proofs.Compiler.OwnSettings
import Playscript.Proofs.Scenario.Texts
import Playscript.Proofs.Session.Hookless
import Playscript.Proofs.Staging.Building

/-!
# What actions are asked

When an act is executed, the action of a role is asked about every message of the role that is
built, in order, with the settings that stand under the number of the message. In a script that
leaves the settings of the language alone these are the settings that the directives in the body of
the message write, whatever becomes of the messages before it.
-/
namespace Playscript

def Call.question? : Call → Option (String × ActionView)
  | .action label view => some (label, view)
  | .hook .. => none

namespace Session

def questions (s : Session) : List (String × ActionView) := s.calls.filterMap Call.question?

def playing (progress : Progress) (act : String) (context : Record) : Progress :=
  { progress with
    act := some act
    context := Context.merge progress.context context
    contexts := progress.contexts ++ [.dict context] }

section

variable (staging : Staging) (actions : Table Action) (act : String) (progress : Progress)
variable (settingsOf : Nat → Option Record)

/-- What the action of its role is asked about a built message with a number, if it is called. -/
def questionAbout? (entry : Nat × Record) : Option (String × ActionView) :=
  match actionOf actions ((Table.get? entry.2 staging.roleKey).getD .null) with
  | .fixed _ => none
  | .call label _ =>
    let content := String.ofList (Staging.textAt entry.2 staging.contentKey)
    some (label, ⟨content, settingsOf entry.1, progress.context, act, progress.settled⟩)

def questionsAbout (built : List (Nat × Record)) : List (String × ActionView) :=
  built.filterMap (questionAbout? staging actions act progress settingsOf)

def isAskedAbout (entry : Nat × Record) : Bool :=
  match actionOf actions ((Table.get? entry.2 staging.roleKey).getD .null) with
  | .fixed _ => false
  | .call .. => true

theorem configs_questionsAbout (built : List (Nat × Record)) :
    (questionsAbout staging actions act progress settingsOf built).map (·.2.config) =
      ((built.filter (isAskedAbout staging actions)).map Prod.fst).map settingsOf := by
  induction built with
  | nil => rfl
  | cons entry rest ih =>
    rw [questionsAbout, List.filterMap_cons, List.filter_cons, questionAbout?, isAskedAbout]
    cases actionOf actions ((Table.get? entry.2 staging.roleKey).getD .null) with
    | fixed v => exact ih
    | call label run => exact congrArg (settingsOf entry.1 :: ·) ih

end

variable {s : Session} {staging : Staging} {actions : Table Action} {act : String}
variable {progress : Progress}

theorem questions_note (s : Session) (label : String) (view : ActionView) :
    questions { s with calls := s.calls ++ [.action label view] } =
      s.questions ++ [(label, view)] :=
  List.filterMap_append

theorem hooksKeep_questions (asked : List (String × ActionView)) (stage : Stage) :
    HooksKeep (fun t => t.questions = asked) stage := by
  refine keeps_runHooks fun _ _ _ _ => keeps_runAll (fun s label view hs => ?_)
    fun _ _ _ _ _ _ _ _ hs => hs
  exact (List.filterMap_append.trans (List.append_nil _)).trans hs

theorem applyAction_asks (hactions : s.config.actionTable = .ok actions)
    (hprogress : s.progress = some progress) (entry : Nat × Record) :
    let asked := (questionAbout? staging actions act progress
      (fun index => staging.messageConfig act (.int index)) entry).toList
    Ensures (applyAction staging act entry) s
      (fun _ t => Noted s t ∧ t.questions = s.questions ++ asked)
      (fun _ t => ∃ first, first <+: asked ∧ t.questions = s.questions ++ first) := by
  intro asked
  obtain ⟨index, message⟩ := entry
  have hnothing : ∃ first, first <+: asked ∧ s.questions = s.questions ++ first :=
    ⟨[], List.nil_prefix, (List.append_nil _).symm⟩
  rw [ensures_congr (applyAction_eq staging act index message), hactions, ensures_bind,
    ensures_ofExcept_ok]
  split_ifs
  · exact hnothing
  · cases haction : actionOf actions ((Table.get? message staging.roleKey).getD .null) with
    | fixed v =>
      have hasked : asked = [] := by
        simp only [asked, questionAbout?, haction, Option.toList_none]
      rw [hasked]
      cases v <;> exact ⟨Noted.refl s, (List.append_nil _).symm⟩
    | call label run =>
      simp only [replacement, ensures_bind, ensures_get, hprogress]
      have hasked : asked = [(label, ⟨String.ofList (Staging.textAt message staging.contentKey),
          staging.messageConfig act (.int index), progress.context, act, progress.settled⟩)] := by
        simp only [asked, questionAbout?, haction, Option.toList_some]
      simp only [ensures_note]
      -- The call is noted, whether it answers or fails.
      refine ensures_ofExcept.2 ⟨fun v _ => ⟨⟨_, rfl⟩, ?_⟩, fun _ _ => ⟨asked, List.prefix_rfl, ?_⟩⟩
      · rw [hasked, questions_note]
      · rw [hasked, questions_note]

theorem applyActions_asks (hactions : s.config.actionTable = .ok actions)
    (hprogress : s.progress = some progress) (built : List (Nat × Record)) :
    let asked := questionsAbout staging actions act progress
      (fun index => staging.messageConfig act (.int index)) built
    Ensures (applyActions staging act built) s
      (fun _ t => t.questions = s.questions ++ asked)
      (fun _ t => ∃ first, first <+: asked ∧ t.questions = s.questions ++ first) := by
  induction built generalizing s with
  | nil => exact (List.append_nil _).symm
  | cons entry rest ih =>
    intro asked
    have hasked : asked = (questionAbout? staging actions act progress
        (fun index => staging.messageConfig act (.int index)) entry).toList ++
      questionsAbout staging actions act progress
        (fun index => staging.messageConfig act (.int index)) rest := by
      simp only [asked, questionsAbout, List.filterMap_cons]
      cases questionAbout? staging actions act progress _ entry <;> rfl
    simp only [applyActions, ensures_bind, hasked]
    refine (applyAction_asks hactions hprogress entry).mono (fun v t ht => ?_) fun _ t ht => ?_
    · obtain ⟨⟨calls, rfl⟩, hfirst⟩ := ht
      refine (ih (s := { s with calls := calls }) hactions hprogress).mono (fun _ u hu => ?_)
        fun _ u hu => ?_
      · exact hu.trans (by rw [hfirst, List.append_assoc])
      · obtain ⟨more, hmore, hu⟩ := hu
        refine ⟨_, List.prefix_append_right_inj _ |>.2 hmore, hu.trans ?_⟩
        rw [hfirst, List.append_assoc]
    · obtain ⟨first, hfirst, ht⟩ := ht
      exact ⟨first, hfirst.trans (List.prefix_append _ _), ht⟩

theorem buildMessages_asks (hactions : s.config.actionTable = .ok actions)
    (hprogress : s.progress = some progress) {context : Record} {built : List (Nat × Record)}
    (hbuilt : staging.buildIndexed (.dict context) (some act) = .ok built) :
    let asked := questionsAbout staging actions act progress
      (fun index => staging.messageConfig act (.int index)) built
    Ensures (buildMessages staging act context) s
      (fun _ t => t.questions = s.questions ++ asked)
      (fun _ t => ∃ first, first <+: asked ∧ t.questions = s.questions ++ first) := by
  intro asked
  rw [buildMessages, hbuilt, ensures_bind, ensures_ofExcept_ok, ensures_bind]
  refine (applyActions_asks hactions hprogress built).mono (fun messages t ht => ?_)
    fun _ _ ht => ht
  refine Ensures.mono (hooksKeep_questions _ _ _ t ht) (fun _ u hu => hu) fun _ u hu => ?_
  exact ⟨asked, List.prefix_rfl, hu⟩

theorem keeps_record_questions (asked : List (String × ActionView)) (messages : Value) :
    Keeps (fun t : Session => t.questions = asked) (record messages) :=
  HistoryFree.record (fun _ _ _ hs _ => hs) messages

theorem execute_asks {context named : Value} {given : Record} {built : List (Nat × Record)}
    (hcurrent : s.current? = some (staging, progress))
    (hgiven : (request context named).1.toRecordIfGiven = .ok given)
    (hnamed : staging.scenario.nameFrom (s.actAt (request context named).2) = .ok (some act))
    (hknown : (staging.scenario.act? act).isSome)
    (hactions : s.config.actionTable = .ok actions)
    (hbuilt : staging.buildIndexed (.dict (playing progress act given).context) (some act) =
      .ok built) :
    let asked := questionsAbout staging actions act (playing progress act given)
      (fun index => staging.messageConfig act (.int index)) built
    Ensures (execute context named) s
      (fun _ t => t.questions = s.questions ++ asked)
      (fun _ t => ∃ first, first <+: asked ∧ t.questions = s.questions ++ first) := by
  intro asked
  have hprogress := (eq_of_current? hcurrent).2
  have hunknown : ¬ (staging.scenario.act? act).isNone = true := by
    simp [Option.isSome_iff_ne_none.1 hknown]
  simp only [execute, ensures_bind, ensures_get, hcurrent, hgiven, hnamed, ensures_ofExcept_ok,
    if_neg hunknown]
  apply ensures_advance.2
  rw [hprogress]
  let begun : Session := { s with progress := some (playing progress act given) }
  refine (buildMessages_asks (s := begun) hactions rfl hbuilt).mono (fun messages t ht => ?_)
    fun _ _ ht => ht
  refine Ensures.mono (keeps_record_questions _ messages t ht) (fun _ u hu => hu) fun _ u hu => ?_
  exact ⟨asked, List.prefix_rfl, hu⟩

/-! ## Compiled scripts -/

open Compiler (ApartFromMessages KeyedBodies)

variable {settings : Record} {text : String} {scenario : Scenario} {after : Record} {found : Act}

theorem speech_of_mem_built (hcompile : Compiler.compile text settings = (.ok scenario, after))
    (hquiet : ∀ e ∈ Compiler.events text settings, e.changed? = none)
    (hfound : scenario.act? act = some found) (hstaging : staging.scenario = scenario)
    {context : Record} {built : List (Nat × Record)}
    (hbuilt : staging.buildIndexed (.dict context) (some act) = .ok built)
    {entry : Nat × Record} (hentry : entry ∈ built) :
    ∃ speech, (Stanza.speeches act (Stanza.ofText settings text))[entry.1]? = some speech ∧
      staging.buildMessage staging.format (.dict context) found.placeholders
        (speech.entry.message settings) = .ok (some entry.2) := by
  have hname : act ≠ "" := by
    obtain ⟨d, hrun, rfl, -⟩ := Compiler.run_of_compile hcompile
    have htextual := Compiler.run_textual text settings
    rw [hrun] at htextual
    exact (htextual.act hfound).1
  have hact : staging.scenario.act? (staging.actOrDefault (some act)) = some found := by
    have hgiven : staging.actOrDefault (some act) = act := by
      rw [Staging.actOrDefault, Option.filter_some, if_pos (decide_eq_true hname)]
      rfl
    rw [hgiven, hstaging, hfound]
  have hmessages : found.messages = (Stanza.speeches act (Stanza.ofText settings text)).map
      fun speech => speech.entry.message settings := by
    rw [← Compiler.messagesOf_eq_speeches hcompile hquiet, Scenario.messagesOf, hfound]
    rfl
  rw [Staging.buildIndexed_of_act? hact] at hbuilt
  obtain ⟨message, -, hget, hmessage⟩ := Staging.getElem?_of_mem_buildFrom hbuilt hentry
  rw [Nat.sub_zero, hmessages, List.getElem?_map] at hget
  obtain ⟨speech, hspeech, rfl⟩ := Option.map_eq_some_iff.1 hget
  exact ⟨speech, hspeech, hmessage⟩

/-- When an act of a script is executed, the action of a role is asked about the messages of it that
are built, each with the settings that the directives in its own body write, and with none if there
are no such directives. -/
theorem asked_with_own_settings
    (hcompile : Compiler.compile text settings = (.ok scenario, after))
    (hquiet : ∀ e ∈ Compiler.events text settings, e.changed? = none)
    (hfound : scenario.act? act = some found)
    (hapart : ApartFromMessages act (Stanza.ofText settings text))
    (hkeyed : KeyedBodies act (Stanza.ofText settings text))
    (hstaging : staging.scenario = scenario) (hcurrent : s.current? = some (staging, progress))
    {context named : Value} {given : Record}
    (hgiven : (request context named).1.toRecordIfGiven = .ok given)
    (hnamed : scenario.nameFrom (s.actAt (request context named).2) = .ok (some act))
    (hactions : s.config.actionTable = .ok actions) {built : List (Nat × Record)}
    (hbuilt : staging.buildIndexed (.dict (playing progress act given).context) (some act) =
      .ok built) :
    let speeches := Stanza.speeches act (Stanza.ofText settings text)
    let asked := questionsAbout staging actions act (playing progress act given)
      (fun index => speeches[index]?.bind Speech.settings) built
    (∀ entry ∈ built, ∃ speech, speeches[entry.1]? = some speech ∧
      staging.buildMessage staging.format (.dict (playing progress act given).context)
        found.placeholders (speech.entry.message settings) = .ok (some entry.2)) ∧
    Ensures (execute context named) s
      (fun _ t => t.questions = s.questions ++ asked)
      (fun _ t => ∃ first, first <+: asked ∧ t.questions = s.questions ++ first) := by
  intro speeches asked
  refine ⟨fun entry hentry =>
    speech_of_mem_built hcompile hquiet hfound hstaging hbuilt hentry, ?_⟩
  have hsettings : (fun index : Nat => staging.messageConfig act (.int index)) =
      fun index => speeches[index]?.bind Speech.settings := funext fun index =>
    Compiler.messageConfig_eq_settings hcompile hquiet hapart hkeyed hstaging index
  have hasks := execute_asks hcurrent hgiven (by rwa [hstaging]) (by rw [hstaging, hfound]; rfl)
    hactions hbuilt
  rw [hsettings] at hasks
  exact hasks

/-- The first message of an act is dropped by its action, and the action of the second one is still
asked with the settings in the body of the second one. -/
theorem asked_about_second_message :
    let text := "[end]\n\nnarrator:\nhm\n% loud\n\nuser:\nhi\n% mood=7"
    let actions : Table Action := [
      ("narrator", .fixed (.bool false)),
      ("user", .call "ask" fun view => .ok (.str view.content))]
    let config : Config := { Config.default with actions := .proper actions }
    ∃ (s t : Session) (v : Option Value), s.config = config ∧
      (∃ scenario after, Compiler.compile text Settings.defaults = (.ok scenario, after) ∧
        s.staging = some ⟨scenario, Settings.defaults, "?"⟩) ∧
      (execute .null (.str "end")).run s = .ok v t ∧
      t.questions.map (fun question => question.2.config) = [some [("mood", .int 7)]] := by
  intro text actions config
  let settings := Settings.defaults
  let opened := fun scenario : Scenario =>
    (⟨config, some ⟨scenario, settings, "?"⟩, some (Progress.initial scenario), []⟩ : Session)
  have hspeeches : Stanza.speeches "end" (Stanza.ofText settings text) = [
      ⟨⟨"end", "narrator:".toList, ["hm".toList]⟩, [.flag "loud".toList]⟩,
      ⟨⟨"end", "user:".toList, ["hi".toList]⟩, [.assign "mood".toList "7".toList]⟩] := by
    decide +kernel
  have hquiet : ∀ e ∈ Compiler.events text settings, e.changed? = none := by decide +kernel
  have hcompiles : (Compiler.compile text settings).1.toOption.isSome = true := by decide +kernel
  have hplays : ∀ scenario ∈ (Compiler.compile text settings).1.toOption,
      let staging : Staging := ⟨scenario, settings, "?"⟩
      (scenario.act? "end").isSome ∧
        ((staging.buildIndexed (.dict []) (some "end")).toOption.map fun built =>
          (built.filter (isAskedAbout staging actions)).map Prod.fst) = some [1] ∧
        (match (execute .null (.str "end")).run (opened scenario) with
          | .ok .. => true
          | .error .. => false) = true := by decide +kernel
  have hapart : ApartFromMessages "end" (Stanza.ofText settings text) := by
    unfold ApartFromMessages
    decide +kernel
  have hkeyed : KeyedBodies "end" (Stanza.ofText settings text) := by
    unfold KeyedBodies
    decide +kernel
  obtain ⟨scenario, hscenario⟩ := Option.isSome_iff_exists.1 hcompiles
  obtain ⟨hknown, hbuilds, hruns⟩ := hplays scenario hscenario
  obtain ⟨found, hfound⟩ := Option.isSome_iff_exists.1 hknown
  obtain ⟨built, hbuilt, hnumbers⟩ := Option.map_eq_some_iff.1 hbuilds
  have hcompile : Compiler.compile text settings = (.ok scenario, _) :=
    Prod.ext (toOption_eq_some.1 hscenario) rfl
  cases hrun : (execute .null (.str "end")).run (opened scenario) with
  | error fault t => rw [hrun] at hruns; cases hruns
  | ok v t =>
    have hgiven : (request .null (.str "end")).1.toRecordIfGiven = .ok [] := rfl
    have hasked := (asked_with_own_settings (s := opened scenario) hcompile hquiet hfound hapart
      hkeyed rfl rfl hgiven rfl rfl (toOption_eq_some.1 hbuilt)).2.of_ok hrun
    refine ⟨opened scenario, t, v, rfl, ⟨scenario, _, hcompile, rfl⟩, hrun, ?_⟩
    rw [hasked, List.map_append, configs_questionsAbout, hnumbers, hspeeches]
    rfl

end Session

end Playscript
