import Playscript.Proofs.Session.Frame

/-!
# What commands write

While a session goes on, a command writes to some parts of what the session has come to. Whether it
succeeds or fails, it leaves the other parts alone.
-/
namespace Playscript

inductive Progress.Part where
  | act
  | queue
  | history
  | contexts
  | context
  | log
  | cost
  deriving DecidableEq

def Progress.overwrite (parts : List Part) (new old : Progress) : Progress where
  act := if .act ∈ parts then new.act else old.act
  queue := if .queue ∈ parts then new.queue else old.queue
  history := if .history ∈ parts then new.history else old.history
  contexts := if .contexts ∈ parts then new.contexts else old.contexts
  context := if .context ∈ parts then new.context else old.context
  log := if .log ∈ parts then new.log else old.log
  cost := if .cost ∈ parts then new.cost else old.cost

namespace Session

def Command.Restarts : Command → Prop
  | .init .. | .load _ | .resume _ | .reload .. => True
  | _ => False

/-- The parts that a command writes to while a session goes on. -/
def Command.writes : Command → List Progress.Part
  | .execute .. => [.act, .history, .contexts, .context]
  | .next .. => [.act, .queue, .history, .contexts, .context]
  | .finish => [.act, .queue]
  | .save | .answer _ | .pushMessages _ => [.history]
  | .pushContexts _ => [.contexts]
  | .clearContext => [.context]
  | .log .. => [.log]
  | .addCost _ | .addUsage _ => [.cost]
  | _ => []

/-- A property of sessions that looks neither at some parts nor at the settings and the calls. It
holds of every session that has ended. -/
structure Overlooks (parts : List Progress.Part) (P : Session → Prop) : Prop where
  ended : ∀ s, s.progress = none → P s
  noted : CallFree P
  configured : ∀ s config, P s → P { s with config := config }
  written : ∀ s p q, P s → s.progress = some p →
    P { s with progress := some (Progress.overwrite parts q p) }

namespace Overlooks

variable {parts : List Progress.Part} {P : Session → Prop}

theorem hooksKeep (h : Overlooks parts P) (stage : Stage) : HooksKeep P stage :=
  keeps_runHooks fun _ _ _ _ => keeps_runAll (fun s _ _ => h.noted s _)
    fun _ _ _ _ _ _ _ _ _ => h.ended _ rfl

theorem keeps_advance (h : Overlooks parts P) {change : Progress → Progress}
    (hchange : ∀ p, change p = Progress.overwrite parts (change p) p) : Keeps P (advance change) :=
  keeps_advancing fun s p hs hp => hchange p ▸ h.written s p (change p) hs hp

theorem keeps_extend (h : Overlooks parts P) {change : Progress → Progress}
    (hchange : ∀ p, change p = Progress.overwrite parts (change p) p) : Keeps P (extend change) :=
  keeps_extending fun s p hs hp => hchange p ▸ h.written s p (change p) hs hp

theorem historyFree (h : Overlooks parts P) (hhistory : .history ∈ parts) : HistoryFree P := by
  intro s p items hs hp
  have hsame : Progress.overwrite parts { p with history := .list items } p =
      { p with history := .list items } := by
    simp only [Progress.overwrite, hhistory, if_true, ite_self]
  exact hsame ▸ h.written s p _ hs hp

theorem keeps_configuring (h : Overlooks parts P) (change : Config → Except Fault Config)
    (reply : Reply) : Keeps P (do configure (← ofExcept (change (← get).config)); return reply) :=
  keeps_get.bind fun _ => (keeps_ofExcept _).bind fun _ =>
    (keeps_modify fun s hs => by exact h.configured s _ hs).bind fun _ => keeps_pure _

theorem keeps_perform [DataModel] (now : Timestamp) {command : Command}
    (h : Overlooks command.writes P)
    (hrestarts : ¬ command.Restarts) : Keeps P (perform now command) := by
  by_cases hasks : command.Asks
  · exact keeps_asks (fun stage _ => h.hooksKeep stage) now hasks
  cases command with
  | init | load | resume | reload => exact (hrestarts trivial).elim
  | save =>
    exact ((h.hooksKeep _).save fun _ => h.keeps_advance fun _ => rfl).bind fun _ => keeps_pure _
  | clearContext =>
    exact ((h.hooksKeep _).clearContext (h.keeps_advance fun _ => rfl)).bind fun _ => keeps_pure _
  | finish =>
    exact (keeps_finishing (h.keeps_advance fun _ => rfl)).bind fun _ => keeps_pure _
  | pushContexts contexts =>
    exact ((h.hooksKeep _).pushContexts (fun _ => h.keeps_extend fun _ => rfl) _).bind fun _ =>
      keeps_pure _
  | addAction role action => exact h.keeps_configuring (·.addAction role action) _
  | addHook stage hook =>
    exact (keeps_ofExcept _).bind fun stage => h.keeps_configuring (·.addHook stage hook) _
  | update values => exact h.keeps_configuring (·.update values) _
  | execute context act =>
    have hhistory := h.historyFree (by simp [Command.writes])
    exact (h.noted.execute (h.hooksKeep _) hhistory
      (fun _ _ _ => h.keeps_advance fun _ => rfl) _ _).bind fun _ => keeps_pure _
  | next context wholeHistory =>
    have hhistory := h.historyFree (by simp [Command.writes])
    have hexecute := h.noted.execute (h.hooksKeep _) hhistory fun _ _ _ =>
      h.keeps_advance fun _ => rfl
    exact (keeps_playing_on (h.hooksKeep _) (h.hooksKeep _)
      (fun _ => h.keeps_advance fun _ => rfl) hexecute _ _).bind fun _ => keeps_pure _
  | answer message =>
    exact ((h.historyFree (by simp [Command.writes])).answer _).bind fun _ => keeps_pure _
  | pushMessages messages =>
    have hhistory := h.historyFree (by simp [Command.writes])
    exact (hhistory.pushMessages (h.hooksKeep _) _).bind fun _ => keeps_pure _
  | runHooks stage value => exact (keeps_runHooksAt h.hooksKeep _ _).bind fun _ => keeps_pure _
  | addCost cost =>
    exact (keeps_addRead (fun s p cost hs hp => h.written s p { p with cost := cost } hs hp)
      _).bind fun _ => keeps_pure _
  | addUsage usage =>
    exact (keeps_addRead (fun s p cost hs hp => h.written s p { p with cost := cost } hs hp)
      _).bind fun _ => keeps_pure _
  | log request response rest =>
    exact (keeps_log (fun s p log hs hp => h.written s p { p with log := log } hs hp)
      _ _ _ _).bind fun _ => keeps_pure _
  | _ => exact (hasks trivial).elim

end Overlooks

end Session

end Playscript
