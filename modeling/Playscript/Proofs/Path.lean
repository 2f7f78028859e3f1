import Playscript.Path

/-!
# Storing at paths

Storing at a path changes what stands under its first segment and nothing else.
-/
namespace Playscript.Path

def placed (old : Option Value) : Path → Value → Value
  | [], v => v
  | key :: rest, v => .dict (set ((old.map Value.entries).getD []) (key :: rest) v)

theorem set_cons (entries : Record) (key : String) (rest : Path) (v : Value) :
    set entries (key :: rest) v =
      Table.set entries key (placed (Table.get? entries key) rest v) := by
  cases rest <;> rfl

theorem get?_set_cons (entries : Record) (key : String) (rest : Path) (v : Value) (other : String) :
    Table.get? (set entries (key :: rest) v) other =
      if key = other then some (placed (Table.get? entries key) rest v)
      else Table.get? entries other := by
  rw [set_cons, Table.get?_set]

theorem get?_set_of_head {path : Path} {key : String} (h : path.head? ≠ some key)
    (entries : Record) (v : Value) :
    Table.get? (set entries path v) key = Table.get? entries key := by
  cases path with
  | nil => rfl
  | cons first rest =>
    have hfirst : first ≠ key := fun heq => h (congrArg some heq)
    rw [get?_set_cons, if_neg hfirst]

theorem entries_placed (old : Option Value) {rest : Path} (h : rest ≠ []) (v : Value) :
    (placed old rest v).entries = set ((old.map Value.entries).getD []) rest v := by
  cases rest with
  | nil => exact (h rfl).elim
  | cons key rest => rfl

def recordAt (entries : Record) (key : String) : Record :=
  ((Table.get? entries key).map Value.entries).getD []

theorem set_beyond {rest : Path} (h : rest ≠ []) (entries : Record) (key : String) (v : Value) :
    set entries (key :: rest) v =
      Table.set entries key (.dict (set (recordAt entries key) rest v)) := by
  cases rest with
  | nil => exact (h rfl).elim
  | cons next rest => rfl

theorem get?_set_beyond {rest : Path} (h : rest ≠ []) (entries : Record) (key : String)
    (v : Value) :
    Table.get? (set entries (key :: rest) v) key =
      some (.dict (set (recordAt entries key) rest v)) := by
  rw [set_beyond h, Table.get?_set, if_pos rfl]

theorem recordAt_set_beyond {rest : Path} (h : rest ≠ []) (entries : Record) (key : String)
    (v : Value) :
    recordAt (set entries (key :: rest) v) key = set (recordAt entries key) rest v := by
  rw [recordAt, get?_set_beyond h]
  rfl

def setAll (entries : Record) (writes : List (Path × Value)) : Record :=
  writes.foldl (fun entries write => set entries write.1 write.2) entries

theorem setAll_append (entries : Record) (xs ys : List (Path × Value)) :
    setAll entries (xs ++ ys) = setAll (setAll entries xs) ys := List.foldl_append

theorem get?_setAll {writes : List (Path × Value)} {key : String}
    (h : ∀ write ∈ writes, write.1.head? ≠ some key) (entries : Record) :
    Table.get? (setAll entries writes) key = Table.get? entries key := by
  induction writes generalizing entries with
  | nil => rfl
  | cons write rest ih =>
    obtain ⟨hwrite, hrest⟩ := List.forall_mem_cons.1 h
    exact (ih hrest _).trans (get?_set_of_head hwrite _ _)

end Playscript.Path
