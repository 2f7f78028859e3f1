import Playscript.Proofs.Session.Reading
import Playscript.Proofs.Session.Writes

/-!
# The contexts of a session

A session keeps the contexts under which acts were entered twice: joined to one, which can be
cleared, and in a list, to which contexts from outside are added as well. What the two hold is read
off the commands of a run: which act each of them reached, and with which context.
-/
namespace Playscript.Session

/-- The context under which an act would be entered; none if no session is under way, the context
or the name of the act cannot be read, or there is no such act. -/
def enters? (s : Session) (context act : Value) : Option Record := do
  let (staging, _) ← s.current?
  let (context, act) := request context act
  let given ← context.toRecordIfGiven.toOption
  let name ← (staging.scenario.nameFrom (s.actAt act)).toOption.join
  let _ ← staging.scenario.act? name
  return given

/-- The next act of the queue with the session that has gone on to it. There is none if the queue is
empty or the hooks before it do not let the session go on. -/
def goesOn? (s : Session) : Option (String × Session) := do
  let (_, progress) ← s.current?
  match (runHooks .beforeNext progress.history).run s with
  | .error _ _ => none
  | .ok history t =>
    let progress ← t.progress
    let act ← progress.queue.head?
    let arrived : Progress :=
      { progress with history := history, act := some act, queue := progress.queue.tail }
    return (act, { t with progress := some arrived })

def Command.passes? (s : Session) : Command → Option Record
  | .execute context act => s.enters? context act
  | .next context _ => do
    let (act, arrived) ← s.goesOn?
    arrived.enters? (if context.truthy then context else .dict []) (.str act)
  | _ => none

def admitted (s : Session) (contexts : Value) : List Value :=
  match contexts.oneOrSeveral.mapM Value.toRecord with
  | .error _ => []
  | .ok records =>
    match (runHooks .beforePushContext (.list (records.map .dict))).run s with
    | .error _ _ => []
    | .ok made _ => made.several.toOption.getD []

def Command.adds (s : Session) : Command → List Value
  | .pushContexts contexts => s.admitted contexts
  | command => (command.passes? s).toList.map .dict

def Command.clears (now : Timestamp) (s : Session) (command : Command) : Bool :=
  match command, (step now s command).1 with
  | .clearContext, .ok _ => true
  | _, _ => false

/-- The contexts that the commands of a run pass to acts, after earlier ones, since the merged
context was last cleared. -/
def passedSince : List Record → Session → List (Timestamp × Command) → List Record
  | passed, _, [] => passed
  | passed, s, (now, command) :: rest =>
    let passed := if command.clears now s then [] else passed ++ (command.passes? s).toList
    passedSince passed (step now s command).2 rest

def gathered : Session → List (Timestamp × Command) → List Value
  | _, [] => []
  | s, (now, command) :: rest => command.adds s ++ gathered (step now s command).2 rest

def Remembers (merged : Record) (all : List Value) (s : Session) : Prop :=
  ∀ p, s.progress = some p → p.context = merged ∧ p.contexts = all

variable {merged : Record} {all : List Value} {s : Session}

theorem Remembers.of_none (h : s.progress = none) : Remembers merged all s :=
  fun p hp => by simp [h] at hp

theorem Remembers.advanced {p : Progress} (hcontext : p.context = merged)
    (hcontexts : p.contexts = all) : Remembers merged all { s with progress := some p } := by
  rintro q ⟨⟩
  exact ⟨hcontext, hcontexts⟩

/-! ## Commands that have nothing to do with contexts -/

theorem callFree_remembers : CallFree (Remembers merged all) := fun _ _ h => h

theorem overlooks_remembers {parts : List Progress.Part} (hcontext : .context ∉ parts)
    (hcontexts : .contexts ∉ parts) : Overlooks parts (Remembers merged all) where
  ended := fun _ => .of_none
  noted := callFree_remembers
  configured := fun _ _ h => h
  written := fun _ p _ hs hp =>
    .advanced ((if_neg hcontext).trans (hs p hp).1) ((if_neg hcontexts).trans (hs p hp).2)

theorem historyFree_remembers : HistoryFree (Remembers merged all) :=
  have hoverlooks : Overlooks [.history] (Remembers merged all) :=
    overlooks_remembers (by decide) (by decide)
  hoverlooks.historyFree (by decide)

theorem hooksKeep_remembers (stage : Stage) : HooksKeep (Remembers merged all) stage :=
  have hoverlooks : Overlooks [.history] (Remembers merged all) :=
    overlooks_remembers (by decide) (by decide)
  hoverlooks.hooksKeep stage

def Command.Contextual : Command → Prop
  | .execute .. | .next .. | .pushContexts _ | .clearContext => True
  | _ => False

theorem keeps_perform_remembers (now : Timestamp) {command : Command} (h : ¬ command.Restarts)
    (hcontextual : ¬ command.Contextual) : Keeps (Remembers merged all) (perform now command) := by
  have hwrites : .context ∉ command.writes ∧ .contexts ∉ command.writes := by
    cases command <;> simp_all [Command.Restarts, Command.Contextual, Command.writes]
  exact (overlooks_remembers hwrites.1 hwrites.2).keeps_perform now h

/-! ## Commands that pass contexts on -/

theorem execute_remembers (h : Remembers merged all s) (context act : Value) :
    Leaves (execute context act) s
      (Remembers ((s.enters? context act).toList.foldl Context.merge merged)
        (all ++ (s.enters? context act).toList.map .dict)) := by
  have hstays : Remembers merged (all ++ []) s := by rwa [List.append_nil]
  rw [Leaves, execute, ensures_bind, ensures_get, enters?]
  cases hcurrent : s.current? with
  | none => exact hstays
  | some here =>
    obtain ⟨staging, progress⟩ := here
    simp only [Option.bind_eq_bind, Option.bind_some]
    generalize request context act = asked
    obtain ⟨context, act⟩ := asked
    rw [ensures_bind]
    cases hgiven : context.toRecordIfGiven with
    | error fault => exact hstays
    | ok given =>
      rw [ensures_ofExcept_ok, ensures_bind]
      cases hname : staging.scenario.nameFrom (s.actAt act) with
      | error fault => exact hstays
      | ok found =>
        cases found with
        | none => exact hstays
        | some name =>
          rw [ensures_ofExcept_ok]
          cases hact : staging.scenario.act? name with
          | none => simpa [Except.toOption, hact] using hstays
          | some found =>
            have hp := (eq_of_current? hcurrent).2
            simp only [hact, Option.isNone_some, Bool.false_eq_true, if_false, Except.toOption,
              Option.join_some, Option.bind_some]
            refine ensures_bind.2 (ensures_advance.2 ?_)
            rw [hp]
            -- The context is in before a message is built, so building may as well fail.
            refine Keeps.bind (callFree_remembers.buildMessages (hooksKeep_remembers _) _ _ _)
              (fun _ => (historyFree_remembers.record _).bind fun _ => keeps_pure _) _ ?_
            refine .advanced ?_ ?_
            · rw [(h progress hp).1]
              rfl
            · rw [(h progress hp).2]
              rfl

theorem keeps_next_end (messages : Value) (wholeHistory : Bool) :
    Keeps (Remembers merged all) (do
      if wholeHistory then return some (.list (← said))
      else return some (← runHooks .nextReturns messages) : Play (Option Value)) := by
  split_ifs
  · exact keeps_said.bind fun _ => keeps_pure _
  · exact (hooksKeep_remembers _ _).bind fun _ => keeps_pure _

theorem next_remembers (h : Remembers merged all s) (context : Value) (wholeHistory : Bool) :
    Leaves (next context wholeHistory) s
      (Remembers (((Command.next context wholeHistory).passes? s).toList.foldl Context.merge merged)
        (all ++ ((Command.next context wholeHistory).passes? s).toList.map .dict)) := by
  have hstays : ∀ {t}, Remembers merged all t → Remembers merged (all ++ []) t := by
    simp only [List.append_nil, imp_self, implies_true]
  rw [Leaves, next, ensures_bind, ensures_get, Command.passes?, goesOn?]
  cases hcurrent : s.current? with
  | none => exact hstays h
  | some here =>
    obtain ⟨staging, progress⟩ := here
    simp only [Option.bind_eq_bind, Option.bind_some]
    have hhooks := hooksKeep_remembers .beforeNext progress.history s h
    rw [ensures_bind, Ensures]
    cases hrun : (runHooks .beforeNext progress.history).run s with
    | error fault t => exact hstays (hhooks.of_error hrun)
    | ok history t =>
      have ht : Remembers merged all t := hhooks.of_ok hrun
      dsimp only
      refine ensures_bind.2 (ensures_advance.2 ?_)
      -- The hooks may have ended the session.
      cases hp : t.progress with
      | none => exact hstays ht
      | some p =>
        simp only [ensures_bind, ensures_get, Option.bind_some]
        cases hqueue : p.queue with
        | nil => exact hstays (.advanced (ht p hp).1 (ht p hp).2)
        | cons act rest =>
          simp only [List.head?_cons, Option.bind_some, ensures_bind]
          refine Ensures.mono (execute_remembers ?_ _ _) (fun messages u hu => ?_) fun _ _ hu => hu
          · exact .advanced (ht p hp).1 (ht p hp).2
          · cases messages with
            | none => exact hu
            | some messages => exact keeps_next_end messages wholeHistory u hu

theorem clearContext_remembers (h : Remembers merged all s) :
    Ensures clearContext s (fun _ => Remembers [] all) (fun _ => Remembers merged all) := by
  rw [clearContext, ensures_bind, ensures_get]
  cases hp : s.progress with
  | none => exact .of_none hp
  | some progress =>
    refine ensures_bind.2 (Ensures.mono (hooksKeep_remembers .beforeClearContext _ s h)
      (fun _ t ht => ensures_advance.2 ?_) fun _ _ ht => ht)
    cases hp' : t.progress with
    | none => exact .of_none hp'
    | some p => exact .advanced rfl (ht p hp').2

theorem pushContexts_remembers (h : Remembers merged all s) (contexts : Value) :
    Leaves (pushContexts contexts) s (Remembers merged (all ++ s.admitted contexts)) := by
  rw [Leaves, pushContexts, ensures_bind, ensures_get]
  cases hp : s.progress with
  | none => exact .of_none hp
  | some progress =>
    rw [admitted, if_pos (by rfl), ensures_bind]
    cases contexts.oneOrSeveral.mapM Value.toRecord with
    | error fault => simpa using h
    | ok records =>
      have hhooks := hooksKeep_remembers .beforePushContext (.list (records.map .dict)) s h
      rw [ensures_ofExcept_ok, ensures_bind, Ensures]
      dsimp only
      cases hrun : (runHooks .beforePushContext (.list (records.map .dict))).run s with
      | error fault t => simpa using hhooks.of_error hrun
      | ok made t =>
        have ht : Remembers merged all t := hhooks.of_ok hrun
        dsimp only
        rw [ensures_bind]
        cases made.several with
        | error fault => simpa [Except.toOption] using ht
        | ok added =>
          simp only [ensures_ofExcept_ok, extend, ensures_modify]
          intro p hp
          obtain ⟨q, hq, rfl⟩ := Option.map_eq_some_iff.1 hp
          exact ⟨(ht q hq).1, congrArg (· ++ added) (ht q hq).2⟩

/-! ## Runs -/

variable {now : Timestamp}

theorem step_remembers (now : Timestamp) (h : Remembers merged all s) {command : Command}
    (hcommand : ¬ command.Restarts) :
    Remembers (if command.clears now s then []
        else (command.passes? s).toList.foldl Context.merge merged)
      (all ++ command.adds s) (step now s command).2 := by
  by_cases hcontextual : command.Contextual
  · cases command with
    | execute context act =>
      exact step_leaves (ensures_bind.2 (execute_remembers h context act))
    | next context wholeHistory =>
      exact step_leaves (ensures_bind.2 (next_remembers h context wholeHistory))
    | pushContexts contexts =>
      exact step_leaves (ensures_bind.2 (pushContexts_remembers h contexts))
    -- What clearing does depends on whether its hooks let it happen.
    | clearContext =>
      have hcleared : Ensures (perform now .clearContext) s (fun _ => Remembers [] all)
          (fun _ => Remembers merged all) := ensures_bind.2 (clearContext_remembers h)
      have hadds : all ++ Command.clearContext.adds s = all := List.append_nil _
      rw [hadds]
      cases hrun : (perform now .clearContext).run s with
      | ok reply t => simpa [Command.clears, step, hrun] using hcleared.of_ok hrun
      | error fault t =>
        simpa [Command.clears, step, hrun, Command.passes?] using hcleared.of_error hrun
    | _ => exact hcontextual.elim
  · have hkept := step_leaves (keeps_perform_remembers now hcommand hcontextual s h)
    have hsame : command.clears now s = false ∧ command.passes? s = none ∧ command.adds s = [] := by
      cases command <;> first | exact ⟨rfl, rfl, rfl⟩ | exact (hcontextual trivial).elim
    rw [hsame.1, hsame.2.1, hsame.2.2, List.append_nil]
    exact hkept

theorem run_remembers (passed : List Record)
    (h : Remembers (passed.foldl Context.merge []) all s) {commands : List (Timestamp × Command)}
    (hcommands : ∀ c ∈ commands, ¬ c.2.Restarts) :
    Remembers ((passedSince passed s commands).foldl Context.merge [])
      (all ++ gathered s commands) (run s commands).2 := by
  induction commands generalizing passed all s with
  | nil => simpa [passedSince, gathered, run] using h
  | cons command rest ih =>
    obtain ⟨hcommand, hrest⟩ := List.forall_mem_cons.1 hcommands
    have hstep := step_remembers command.1 h hcommand
    rw [passedSince, gathered, ← List.append_assoc]
    refine ih _ ?_ hrest
    split_ifs with hclears
    · rwa [if_pos hclears] at hstep
    · rwa [if_neg hclears, ← List.foldl_append] at hstep

theorem init_remembers (source : Source) (settings : Value) :
    Ensures (init source settings) s (fun _ => Remembers [] []) (fun _ _ => True) := by
  rw [init, ensures_bind, ensures_get, ensures_bind]
  refine ensures_ofExcept.2 ⟨fun staging _ => ?_, fun _ _ => trivial⟩
  refine ensures_bind.2 (ensures_modify.2 ?_)
  have hkept : ∀ history,
      Keeps (Remembers [] []) (advance fun p => { p with history := history }) := fun _ =>
    keeps_advancing fun _ p hs hp => .advanced (hs p hp).1 (hs p hp).2
  refine Ensures.mono ((hooksKeep_remembers _ _).bind hkept _ ?_) (fun _ _ ht => ht)
    fun _ _ _ => trivial
  rintro p ⟨⟩
  exact ⟨rfl, rfl⟩

/-- While a session that was started goes on, its merged context is the join of the contexts passed
to acts since it was last cleared, in their order, and its list of contexts holds all that were
passed or added from outside. -/
theorem contexts_of_run {source : Source} {settings : Value} {reply : Reply} {started : Session}
    (hinit : step now s (.init source settings) = (.ok reply, started))
    {commands : List (Timestamp × Command)} (hcommands : ∀ c ∈ commands, ¬ c.2.Restarts)
    {p : Progress} (hp : (run started commands).2.progress = some p) :
    p.context = (passedSince [] started commands).foldl Context.merge [] ∧
      p.contexts = gathered started commands := by
  have hstart : Ensures (perform now (.init source settings)) s (fun _ => Remembers [] [])
      (fun _ _ => True) := ensures_bind.2 (init_remembers source settings)
  exact run_remembers [] (hstart.of_ok (perform_of_step hinit)) hcommands p hp

/-- A context is passed before the merged one is cleared and two after it, another one comes from
outside, and a last one goes with the name of no act. -/
theorem contexts_of_cleared_run :
    let acts : Scenario := ⟨[("A", Act.empty)], [("order", .list [.str "A"])]⟩
    let started := (step default (new .default) (.init (.compiled acts) .null)).2
    let x : Record := [("x", .int 1)]
    let y : Record := [("y", .list [.int 2]), ("z", .int 3)]
    let z : Record := [("z", .int 4), ("y", .list [.int 5])]
    let w : Record := [("w", .int 6)]
    let commands : List (Timestamp × Command) := [(default, .next (.dict x) false),
      (default, .clearContext), (default, .execute (.dict y) (.str "A")),
      (default, .pushContexts (.dict w)), (default, .execute (.dict z) (.str "A")),
      (default, .execute (.dict x) (.str "B"))]
    let shown (r : Record) := r.map fun entry => (entry.1, String.ofList entry.2.text)
    ∃ p, (run started commands).2.progress = some p ∧
      shown p.context = [("y", "[2, 5]"), ("z", "4")] ∧
      p.contexts.map (fun context => shown context.entries) =
        [[("x", "1")], [("y", "[2]"), ("z", "3")], [("w", "6")], [("z", "4"), ("y", "[5]")]] := by
  intro acts started x y z w commands shown
  have hinit : step default (new .default) (.init (.compiled acts) .null) = (.ok .done, started) :=
    rfl
  have hcommands : ∀ c ∈ commands, ¬ c.2.Restarts := by simp [commands, Command.Restarts]
  have hgoes : (run started commands).2.progress.isSome = true := by decide +kernel
  obtain ⟨p, hp⟩ := Option.isSome_iff_exists.1 hgoes
  obtain ⟨hcontext, hcontexts⟩ := contexts_of_run hinit hcommands hp
  refine ⟨p, hp, ?_, ?_⟩
  · rw [hcontext]
    decide +kernel
  · rw [hcontexts]
    decide +kernel

end Playscript.Session
