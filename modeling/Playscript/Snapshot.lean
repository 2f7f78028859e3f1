import Playscript.Ledger

/-!
# Snapshots

A snapshot is a scenario with how far a session has come in it. It can be written as a record and
read back; in a later session the play goes on from there.
-/
namespace Playscript

structure LogEntry where
  timestamp : Timestamp
  request : Value
  response : Value
  extra : Record
  deriving Repr

namespace LogEntry

variable [DataModel]

def names : List String := ["timestamp", "request", "response"]

def checkAt (now : Timestamp) (v : Value) : Check LogEntry :=
  (DataModel.fields v).andThen fun r =>
    (LogEntry.mk <$> DataModel.field "timestamp" now DataModel.time r
      <*> DataModel.field "request" .null DataModel.any r
      <*> DataModel.field "response" .null DataModel.any r
      <*> pure (DataModel.beside names r) : Check LogEntry)

def toValue (entry : LogEntry) : Value :=
  .dict ([
    ("timestamp", .ofChars entry.timestamp.text),
    ("request", DataModel.plain entry.request),
    ("response", DataModel.plain entry.response)] ++ DataModel.plainEntries entry.extra)

end LogEntry

/-- How far a session has come: the current act, the acts to come, all messages, all contexts and
their merger, and the log and the ledger if they are kept. The history is a list of messages unless
a hook has made it something else. -/
structure Progress where
  act : Option String
  queue : List String
  history : Value
  contexts : List Value
  context : Record
  log : Option (List LogEntry)
  cost : Option Ledger
  deriving Repr

namespace Progress

def initial (scenario : Scenario) : Progress :=
  ⟨none, scenario.order, .list [], [], [], none, none⟩

instance : Inhabited Progress := ⟨⟨none, [], .list [], [], [], none, none⟩⟩

def settled (p : Progress) : Progress :=
  { p with cost := p.cost.map Ledger.settled }

end Progress

structure Snapshot where
  scenario : Scenario
  progress : Progress
  deriving Repr

namespace Snapshot

variable [DataModel]

def checkEntry (v : Value) : Check Value :=
  (Value.dict <$> DataModel.record v : Check Value)

def checkHistory (v : Value) : Check Value :=
  (Value.list <$> DataModel.list checkEntry v : Check Value)

def checkProgress (now : Timestamp) (r : Record) : Check Progress :=
  (Progress.mk <$> DataModel.field "act" none (DataModel.optional DataModel.text) r
    <*> DataModel.field "queue" [] (DataModel.list DataModel.text) r
    <*> DataModel.field "history" (.list []) checkHistory r
    <*> DataModel.field "contexts" [] (DataModel.list checkEntry) r
    <*> DataModel.field "context" [] DataModel.record r
    <*> DataModel.field "log" none (DataModel.optional (DataModel.list (LogEntry.checkAt now))) r
    <*> DataModel.field "cost" none (DataModel.optional Ledger.check) r : Check Progress)

def check (now : Timestamp) (v : Value) : Check Snapshot :=
  (DataModel.fields v).andThen fun r =>
    (Snapshot.mk <$> DataModel.required "scenario" Scenario.check r
      <*> checkProgress now r : Check Snapshot)

def ofValue (now : Timestamp) (v : Value) : Except Fault Snapshot :=
  (check now v).outcome

def toValue (s : Snapshot) : Value :=
  .dict [
    ("scenario", s.scenario.toValue),
    ("act", .ofText? s.progress.act),
    ("queue", .list (s.progress.queue.map .str)),
    ("history", DataModel.plain s.progress.history),
    ("contexts", .list (s.progress.contexts.map DataModel.plain)),
    ("context", DataModel.plain (.dict s.progress.context)),
    ("log", match s.progress.log with
      | none => .null
      | some entries => .list (entries.map LogEntry.toValue)),
    ("cost", match s.progress.cost with
      | none => .null
      | some ledger => ledger.toValue)]

end Snapshot

end Playscript
