import Playscript.Proofs.Session.Queue
import Playscript.Proofs.Session.Sound

/-!
# What a failed command leaves

A command that fails may have written before. Starting, resuming, saving and adding messages or
contexts write at their end and leave the session as it was. Playing an act enters it before its
messages are built, playing on takes it from the queue before that, and the ledger and the log are
opened before what goes into them is read.
-/
namespace Playscript.Session

def Unmoved (s t : Session) : Prop := t.staging = s.staging ∧ t.progress = s.progress

/-- The commands that start, resume and save a session, play an act, and record what comes from
outside, other than replies. -/
def Command.Operates : Command → Prop
  | .init .. | .load _ | .resume _ | .save | .execute .. | .next .. | .pushMessages _
  | .pushContexts _ | .addCost _ | .addUsage _ | .log .. => True
  | _ => False

def Misread (s : Session) (staging : Staging) (context act : Value) : Prop :=
  let asked := request context act
  Fails asked.1.toRecordIfGiven ∨ Fails (staging.scenario.nameFrom (s.actAt asked.2))

/-- A command that writes nothing before it fails, in a session that plays a staging and has come to
a progress. -/
def Command.WritesLast (s : Session) (staging : Staging) (progress : Progress) : Command → Prop
  | .execute context act => Misread s staging context act
  | .next .. => False
  | .addCost _ | .addUsage _ => progress.cost.isSome
  | .log _ _ rest => (exchangeNames.find? (Table.contains rest)).isSome ∨ progress.log.isSome
  | _ => True

variable {s : Session} {staging : Staging} {progress : Progress}

def OnFailure {α : Type} (x : Play α) (s : Session) (P : Session → Prop) : Prop :=
  Ensures x s (fun _ _ => True) (fun _ => P)

theorem OnFailure.reply {α β : Type} {x : Play α} {P Q : Session → Prop} (h : OnFailure x s P)
    (hPQ : ∀ t, P t → Q t) (g : α → β) : OnFailure (x >>= fun a => pure (g a)) s Q :=
  ensures_bind.2 (h.mono (fun _ _ _ => trivial) fun _ => hPQ)

theorem Unmoved.refl (s : Session) : Unmoved s s := ⟨rfl, rfl⟩

theorem unmoved_advanced_iff (hp : s.progress = some progress) (p : Progress) :
    Unmoved s { s with progress := some p } ↔ p = progress := by
  rw [Unmoved, hp, Option.some.injEq]
  exact and_iff_right rfl

theorem not_unmoved_of_progress {t : Session} {p : Progress} (hp : s.progress = some progress)
    (ht : t.progress = some p) (hne : p ≠ progress) : ¬ Unmoved s t := fun h =>
  hne (Option.some.inj (ht.symm.trans (h.2.trans hp)))

/-! ## Starting and saving -/

theorem init_failed (h : s.config.Hookless) (source : Source) (given : Value) :
    OnFailure (init source given) s (Unmoved s) := by
  simp only [OnFailure, init, ensures_bind, ensures_get]
  refine ensures_ofExcept.2 ⟨fun staging _ => ?_, fun _ _ => Unmoved.refl s⟩
  refine ensures_modify.2 ((ensures_runHooks (by exact h)).2 ?_)
  exact ensures_advance.2 trivial

theorem load_failed (h : s.config.Hookless) (snapshot : Snapshot) :
    OnFailure (load snapshot) s (Unmoved s) := by
  simp only [OnFailure, load, ensures_bind, ensures_get]
  refine ensures_ofExcept.2 ⟨fun staging _ => ?_, fun _ _ => Unmoved.refl s⟩
  refine ensures_modify.2 ((ensures_runHooks (by exact h)).2 ?_)
  exact ensures_advance.2 trivial

theorem save_failed (h : s.config.Hookless) (hs : s.staging = some staging)
    (hp : s.progress = some progress) :
    OnFailure save s (Unmoved s) := by
  rw [OnFailure, Ensures, run_save h (current?_eq hs hp)]
  split_ifs
  · trivial
  · exact Unmoved.refl s

/-! ## Recording -/

theorem pushMessages_failed (h : s.config.Hookless) (messages : Value) :
    OnFailure (pushMessages messages) s (Unmoved s) := by
  simp only [OnFailure, pushMessages, ensures_bind, ensures_get]
  cases s.progress with
  | none => trivial
  | some progress =>
    rw [ensures_bind]
    refine ensures_ofExcept.2 ⟨fun earlier _ => ?_, fun _ _ => Unmoved.refl s⟩
    exact ensures_bind.2 ((ensures_runHooks h).2 trivial)

theorem pushContexts_failed (h : s.config.Hookless) (contexts : Value) :
    OnFailure (pushContexts contexts) s (Unmoved s) := by
  simp only [OnFailure, pushContexts, ensures_bind, ensures_get]
  split_ifs
  · rw [ensures_bind]
    refine ensures_ofExcept.2 ⟨fun records _ => ?_, fun _ _ => Unmoved.refl s⟩
    exact ensures_bind.2 ((ensures_runHooks h).2 trivial)
  · trivial

theorem ledger_opened_iff (progress : Progress) :
    { progress with cost := some (progress.cost.getD .empty) } = progress ↔
      progress.cost.isSome := by
  obtain ⟨act, queue, history, contexts, context, log, cost⟩ := progress
  cases cost <;> simp

theorem log_opened_iff (progress : Progress) :
    { progress with log := some (progress.log.getD []) } = progress ↔ progress.log.isSome := by
  obtain ⟨act, queue, history, contexts, context, log, cost⟩ := progress
  cases log <;> simp

theorem addRead_failed (hp : s.progress = some progress)
    (request : Except Fault Ledger.Request) :
    OnFailure (addRead request) s fun t => Unmoved s t ↔ progress.cost.isSome := by
  simp only [OnFailure, addRead, ensures_bind, ensures_get, hp]
  split_ifs
  · trivial
  · rw [ensures_bind]
    refine ensures_advance.2 ?_
    rw [hp]
    dsimp only
    rw [ensures_bind]
    refine ensures_ofExcept.2 ⟨fun read _ => ?_, fun _ _ => ?_⟩
    · exact ensures_bind.2 (ensures_advance.2 trivial)
    · exact (unmoved_advanced_iff hp _).trans (ledger_opened_iff progress)

theorem log_failed (hp : s.progress = some progress) (now : Timestamp) (request response : Value)
    (rest : Record) :
    OnFailure (log now request response rest) s fun t => Unmoved s t ↔
      (exchangeNames.find? (Table.contains rest)).isSome ∨ progress.log.isSome := by
  rw [OnFailure, log]
  cases exchangeNames.find? (Table.contains rest) with
  | some name => exact iff_of_true (Unmoved.refl s) (Or.inl rfl)
  | none =>
    dsimp only
    rw [ensures_bind, ensures_get, hp]
    split_ifs
    · trivial
    · rw [ensures_bind]
      refine ensures_advance.2 ?_
      rw [hp]
      dsimp only
      rw [ensures_bind]
      refine ensures_ofExcept.2 ⟨fun entry _ => ensures_advance.2 trivial, fun _ _ => ?_⟩
      simp only [Option.isSome_none, Bool.false_eq_true, false_or]
      exact (unmoved_advanced_iff hp _).trans (log_opened_iff progress)

/-! ## Playing -/

def Queued (config : Config) (queue : List String) (t : Session) : Prop :=
  t.config = config ∧ ∃ p, t.progress = some p ∧ p.queue = queue

theorem Queued.noted {config : Config} {queue : List String} {t u : Session}
    (h : Queued config queue t) (htu : Noted t u) : Queued config queue u := by
  obtain ⟨calls, rfl⟩ := htu
  exact h

theorem Queued.onFailure {config : Config} {queue : List String} {t : Session}
    (ht : Queued config queue t) (h : config.Hookless) {α : Type} {x : Play α} (hx : Quiet x) :
    OnFailure x t (Queued config queue) :=
  Ensures.mono (hx.leaves (ht.1 ▸ h.steady)) (fun _ _ _ => trivial) fun _ _ hu => ht.noted hu

theorem not_unmoved_of_taken (hp : s.progress = some progress) {act : String} {rest : List String}
    (hqueue : progress.queue = act :: rest) {t : Session} {p : Progress}
    (ht : t.progress = some p) (hrest : p.queue = rest) : ¬ Unmoved s t := by
  refine not_unmoved_of_progress hp ht ?_
  rintro rfl
  exact List.cons_ne_self act rest (hqueue.symm.trans hrest)

theorem record_spec {u : Session} {q : Progress} (hq : u.progress = some q) (messages : Value) :
    Ensures (record messages) u (fun _ => Queued u.config q.queue)
      (fun _ t => t.progress = some q) := by
  simp only [record, ensures_bind, ensures_get, hq]
  refine ensures_ofExcept.2 ⟨fun earlier _ => ?_, fun _ _ => hq⟩
  refine ensures_ofExcept.2 ⟨fun added _ => ?_, fun _ _ => hq⟩
  refine ensures_advance.2 ?_
  rw [hq]
  exact ⟨rfl, _, rfl, rfl⟩

theorem execute_failed (h : s.config.Hookless) (hs : s.staging = some staging)
    (hp : s.progress = some progress) (context act : Value) :
    Ensures (execute context act) s (fun _ => Queued s.config progress.queue)
      (fun _ t => Misread s staging context act ∧ t = s ∨
        ¬ Misread s staging context act ∧ ∃ name given,
          t.progress = some (entered name given progress)) := by
  simp only [execute, ensures_bind, ensures_get, current?_eq hs hp]
  refine ensures_ofExcept.2 ⟨fun given hgiven => ?_,
    fun fault hfault => Or.inl ⟨Or.inl ⟨fault, hfault⟩, rfl⟩⟩
  refine ensures_ofExcept.2 ⟨fun found hfound => ?_,
    fun fault hfault => Or.inl ⟨Or.inr ⟨fault, hfault⟩, rfl⟩⟩
  cases found with
  | none => exact ⟨rfl, progress, hp, rfl⟩
  | some name =>
    dsimp only
    split_ifs
    · exact ⟨rfl, progress, hp, rfl⟩
    · have hread : ¬ Misread s staging context act := by
        rintro (⟨fault, hfault⟩ | ⟨fault, hfault⟩)
        · cases hgiven.symm.trans hfault
        · cases hfound.symm.trans hfault
      rw [ensures_bind]
      refine ensures_advance.2 ?_
      rw [hp]
      have hquiet := (quiet_buildMessages staging name
        (Context.merge progress.context given)).leaves (s := { s with
          progress := some (entered name given progress) }) h.steady
      refine ensures_bind.2 (Ensures.mono hquiet (fun messages u hu => ?_) fun fault u hu => ?_)
      · obtain ⟨calls, rfl⟩ := hu
        have hrecord := @record_spec { s with
          progress := some (entered name given progress), calls := calls } _ rfl messages
        exact ensures_bind.2 (hrecord.mono (fun _ t ht => ht) fun _ t ht =>
          Or.inr ⟨hread, name, given, ht⟩)
      · obtain ⟨calls, rfl⟩ := hu
        exact Or.inr ⟨hread, name, given, rfl⟩

theorem entered_ne (act : String) (given : Record) (progress : Progress) :
    entered act given progress ≠ progress := by
  intro h
  have hlength := congrArg (fun p => p.contexts.length) h
  simp [entered] at hlength

theorem next_failed (h : s.config.Hookless) (hs : s.staging = some staging)
    (hp : s.progress = some progress) (context : Value) (wholeHistory : Bool) :
    OnFailure (next context wholeHistory) s fun t => ¬ Unmoved s t := by
  simp only [OnFailure, next, ensures_bind, ensures_get, current?_eq hs hp]
  refine (ensures_runHooks h).2 (ensures_advance.2 ?_)
  rw [hp]
  dsimp only
  cases hqueue : progress.queue with
  | nil => trivial
  | cons act rest =>
    have hqueued : ∀ t, Queued s.config rest t → ¬ Unmoved s t := by
      rintro t ⟨-, p, ht, hrest⟩
      exact not_unmoved_of_taken hp hqueue ht hrest
    let onward : Progress := { progress with act := some act, queue := rest }
    have hexecute := @execute_failed { s with progress := some onward } staging onward h hs rfl
      (if context.truthy then context else .dict []) (.str act)
    simp only [ensures_bind, Option.bind_some, List.head?_cons]
    refine Ensures.mono hexecute (fun messages t ht => ?_) ?_
    · split
      · trivial
      · split_ifs
        · exact (ht.onFailure h quiet_said).reply hqueued _
        · exact (ht.onFailure h (quiet_runHooks _ _)).reply hqueued _
    · rintro fault t (⟨-, rfl⟩ | ⟨-, name, given, ht⟩)
      · exact not_unmoved_of_taken hp hqueue rfl rfl
      · exact not_unmoved_of_taken hp hqueue ht rfl

/-! ## Commands -/

/-- An operation that fails leaves the session as it was if and only if it writes last. -/
theorem failed_unmoved_iff {now : Timestamp} {command : Command} {fault : Fault} {t : Session}
    (hconfig : s.config.Hookless) (hs : s.staging = some staging) (hp : s.progress = some progress)
    (hcommand : command.Operates) (hstep : step now s command = (.error fault, t)) :
    Unmoved s t ↔ command.WritesLast s staging progress := by
  have hperform : OnFailure (perform now command) s fun t =>
      Unmoved s t ↔ command.WritesLast s staging progress := by
    cases command with
    | init source given =>
      exact (init_failed hconfig source given).reply (fun _ ht => iff_of_true ht trivial) _
    | load v =>
      refine ensures_bind.2 (ensures_ofExcept.2 ⟨fun snapshot _ => ?_,
        fun _ _ => iff_of_true (Unmoved.refl s) trivial⟩)
      exact (load_failed hconfig snapshot).reply (fun _ ht => iff_of_true ht trivial) _
    | resume snapshot =>
      exact (load_failed hconfig snapshot).reply (fun _ ht => iff_of_true ht trivial) _
    | save => exact (save_failed hconfig hs hp).reply (fun _ ht => iff_of_true ht trivial) _
    | execute context act =>
      refine ensures_bind.2 ((execute_failed hconfig hs hp context act).mono
        (fun _ _ _ => trivial) ?_)
      rintro fault t (⟨hmisread, rfl⟩ | ⟨hread, name, given, ht⟩)
      · exact iff_of_true (Unmoved.refl t) hmisread
      · exact iff_of_false (not_unmoved_of_progress hp ht (entered_ne name given progress)) hread
    | next context wholeHistory =>
      exact (next_failed hconfig hs hp context wholeHistory).reply
        (fun _ ht => iff_of_false ht id) _
    | pushMessages messages =>
      exact (pushMessages_failed hconfig messages).reply (fun _ ht => iff_of_true ht trivial) _
    | pushContexts contexts =>
      exact (pushContexts_failed hconfig contexts).reply (fun _ ht => iff_of_true ht trivial) _
    | addCost cost => exact (addRead_failed hp _).reply (fun _ => id) _
    | addUsage usage => exact (addRead_failed hp _).reply (fun _ => id) _
    | log request response rest =>
      exact (log_failed hp now request response rest).reply (fun _ => id) _
    | _ => exact hcommand.elim
  rw [step] at hstep
  split at hstep
  · cases hstep
  · next hrun =>
    cases hstep
    exact hperform.of_error hrun

/-- An act whose only message has a role that is no name is skipped by the `next` that fails. -/
theorem failed_next_skips_act :
    let message : Record := [("role", .list []), ("content", .str "hi")]
    let acts : Scenario :=
      ⟨[("A", { Act.empty with messages := [message] })], [("order", .list [.str "A"])]⟩
    let session := (step default (new .default) (.init (.compiled acts) .null)).2
    ∃ fault after, step default session (.next .null false) = (.error fault, after) ∧
      ¬ Unmoved session after := by
  intro message acts session
  have hconfig : session.config.Hookless := ⟨[], rfl, fun _ hentry => nomatch hentry⟩
  have hoperates : Command.Operates (.next .null false) := trivial
  have hfails : (step default session (.next .null false)).1.toOption.isNone = true := by
    decide +kernel
  cases hstep : step default session (.next .null false) with
  | mk reply after =>
    rw [hstep] at hfails
    cases reply with
    | ok reply => cases hfails
    | error fault =>
      exact ⟨fault, after, rfl, (failed_unmoved_iff hconfig rfl rfl hoperates hstep).not.2 id⟩

end Playscript.Session
