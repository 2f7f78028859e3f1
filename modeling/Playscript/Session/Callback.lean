import Playscript.Snapshot

/-!
# Actions and hooks

An action says what becomes of the messages of a role, and a hook may replace a value, which is a
list unless another hook has made it something else, and end the session. Both are functions given
by the caller. Their calls are noted under labels. A plain value in place of an action stands for
itself; in place of a hook it cannot be called.

Both act by what they return only. They are shown values, with what was booked as the totals as what
it amounts to by now, and neither change what they are shown nor ask the session for more.
-/
namespace Playscript

structure ActionView where
  content : String
  config : Option Record
  context : Record
  act : String
  progress : Progress

/-- What becomes of the messages of a role: a fixed value in place of each, or what a function
makes of each. A fixed nothing leaves them as they are. -/
inductive Action where
  | fixed (value : Value)
  | call (label : String) (run : ActionView → Except Fault Value)

structure HookView where
  value : Value
  scenario : Scenario
  progress : Progress

structure HookEffect where
  value : Option Value
  endsSession : Bool

/-- A hook under the label by which its calls are noted, or a value that is none. -/
inductive Hook where
  | call (label : String) (run : HookView → Except Fault HookEffect)
  | inert (value : Value)

inductive Call where
  | action (label : String) (view : ActionView)
  | hook (label : String) (view : HookView)

namespace Action

def ofRecord (entries : Record) : Table Action :=
  entries.map fun entry => (entry.1, .fixed entry.2)

end Action

end Playscript
