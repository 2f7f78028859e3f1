import Playscript.Path

/-!
# Shared parts

Two records may hold parts in common. A write strictly below a shared part of the one is a write to
the other too; a write to the part itself, or above it, gives the one a part of its own.
-/
namespace Playscript.Sharing

def reaches (parts : List Path) (path : Path) : Bool :=
  parts.any fun part => part.isPrefixOf path && part != path

def keep (parts : List Path) (path : Path) : List Path :=
  parts.filter fun part => path = [] || !path.isPrefixOf part

/-- What becomes of a record that shares parts with another one while the other is written to. -/
def follow : List Path → Record → List (Path × Value) → Record
  | _, entries, [] => entries
  | parts, entries, (path, value) :: rest =>
    follow (keep parts path) (if reaches parts path then Path.set entries path value else entries)
      rest

@[simp] theorem reaches_nil (path : Path) : reaches [] path = false := rfl

@[simp] theorem keep_nil (path : Path) : keep [] path = [] := rfl

@[simp] theorem follow_nil (entries : Record) (writes : List (Path × Value)) :
    follow [] entries writes = entries := by
  induction writes with
  | nil => rfl
  | cons write rest ih => simpa [follow] using ih

end Playscript.Sharing
