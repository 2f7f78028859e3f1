import Playscript.Snapshot
import Playscript.Value.Depth

/-!
# Depth of snapshots

A snapshot has a fixed shape with free values in it: what messages, settings, placeholders and
contexts say, what is logged, and what usage records say beyond their counts. These values may have
any depth while the play goes on, but only up to `DataModel.maxDepth` can a snapshot be taken.
-/
namespace Playscript

def Act.values (act : Act) : List Value :=
  act.messages.flatMap Table.values ++ Table.values act.placeholders ++ Table.values act.config

def Scenario.values (s : Scenario) : List Value :=
  (Table.values s.acts).flatMap Act.values ++ Table.values s.config

def LogEntry.values (entry : LogEntry) : List Value :=
  entry.request :: entry.response :: Table.values entry.extra

def Ledger.values (ledger : Ledger) : List Value :=
  (ledger.requests ++ [ledger.totals]).map fun usage => .dict usage.extra

def Value.contents : Value → List Value
  | .dict entries => Table.values entries
  | v => [v]

namespace Progress

def logged (p : Progress) : List Value :=
  (p.log.getD []).flatMap LogEntry.values

def values (p : Progress) : List Value :=
  (match p.history with
    | .list messages => messages.flatMap Value.contents
    | v => [v])
  ++ p.contexts.flatMap Value.contents
  ++ Table.values p.context
  ++ p.logged
  ++ (p.cost.elim [] Ledger.values)

end Progress

namespace Snapshot

def values (s : Snapshot) : List Value :=
  s.scenario.values ++ s.progress.values

end Snapshot

theorem DataModel.holds_iff (values : List Value) :
    holds values = true ↔ ∀ v ∈ values, v.depth ≤ maxDepth := by
  simp [holds, Value.depthOfItems_le_iff]

end Playscript
