import Playscript.Fault

/-!
# Stages

A stage is a point in a session at which hooks run. Hooks are registered under its name.
-/
namespace Playscript

inductive Stage where
  | afterInit
  | afterLoad
  | beforeSave
  | beforeClearContext
  | afterBuild
  | beforeNext
  | nextReturns
  | beforePrintHistory
  | beforePushMessage
  | beforePushContext
  | beforeGetMessages
  | beforeGetContexts
  | getActQueue
  deriving DecidableEq, Repr

namespace Stage

def all : List Stage := [
  afterInit, afterLoad, beforeSave, beforeClearContext, afterBuild, beforeNext, nextReturns,
  beforePrintHistory, beforePushMessage, beforePushContext, beforeGetMessages, beforeGetContexts,
  getActQueue]

def name : Stage → String
  | afterInit => "after_init"
  | afterLoad => "after_load"
  | beforeSave => "before_save"
  | beforeClearContext => "before_clear_context"
  | afterBuild => "after_build"
  | beforeNext => "before_next"
  | nextReturns => "next_returns"
  | beforePrintHistory => "before_print_history"
  | beforePushMessage => "before_push_message"
  | beforePushContext => "before_push_context"
  | beforeGetMessages => "before_get_messages"
  | beforeGetContexts => "before_get_contexts"
  | getActQueue => "get_act_queue"

def ofName (name : String) : Except Fault Stage :=
  match all.find? (·.name = name) with
  | some stage => .ok stage
  | none => .error (.unknownStage name)

theorem ofName_name (stage : Stage) : ofName stage.name = .ok stage := by
  cases stage <;> rfl

end Stage

end Playscript
