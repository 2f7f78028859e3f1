/-!
# Tables in order of insertion

A table maps names to entries and remembers the order in which the names were first stored. Storing
under a known name replaces the entry in its place; a new name goes to the end.
-/
namespace Playscript

abbrev Table (α : Type) := List (String × α)

namespace Table

variable {α : Type}

def get? : Table α → String → Option α
  | [], _ => none
  | (k, v) :: rest, key => if k = key then some v else get? rest key

def set : Table α → String → α → Table α
  | [], key, value => [(key, value)]
  | (k, v) :: rest, key, value =>
    if k = key then (k, value) :: rest else (k, v) :: set rest key value

def keys (t : Table α) : List String :=
  t.map Prod.fst

def values (t : Table α) : List α :=
  t.map Prod.snd

def contains (t : Table α) (key : String) : Bool :=
  (get? t key).isSome

def update (t entries : Table α) : Table α :=
  entries.foldl (fun t entry => set t entry.1 entry.2) t

def ofList (entries : List (String × α)) : Table α :=
  update [] entries

@[simp] theorem get?_nil (key : String) : get? ([] : Table α) key = none := rfl

theorem get?_cons (k : String) (v : α) (rest : Table α) (key : String) :
    get? ((k, v) :: rest) key = if k = key then some v else get? rest key := rfl

theorem get?_set (t : Table α) (key other : String) (value : α) :
    get? (set t key value) other = if key = other then some value else get? t other := by
  induction t with
  | nil => simp [set, get?]
  | cons entry rest ih =>
    obtain ⟨k, v⟩ := entry
    by_cases hk : k = key
    · by_cases ho : k = other <;> simp_all [set, get?]
    · by_cases ho : k = other
      · subst ho
        simp [set, get?, hk, Ne.symm hk]
      · simp [set, get?, hk, ho, ih]

theorem get?_eq_none_iff (t : Table α) (key : String) : get? t key = none ↔ key ∉ t.keys := by
  induction t with
  | nil => simp [keys]
  | cons entry rest ih =>
    obtain ⟨k, v⟩ := entry
    by_cases hk : k = key
    · simp [get?, keys, hk]
    · simp only [get?, hk, if_false, ih, keys, List.map_cons, List.mem_cons, not_or]
      exact ⟨fun h => ⟨Ne.symm hk, h⟩, fun h => h.2⟩

theorem keys_set (t : Table α) (key : String) (value : α) :
    (set t key value).keys = if key ∈ t.keys then t.keys else t.keys ++ [key] := by
  induction t with
  | nil => simp [set, keys]
  | cons entry rest ih =>
    obtain ⟨k, v⟩ := entry
    by_cases hk : k = key
    · simp [set, keys, hk]
    · have hk' : key ≠ k := Ne.symm hk
      simp only [keys] at ih
      simp only [set, hk, if_false, keys, List.map_cons, ih, List.mem_cons, hk', false_or]
      split <;> simp_all

end Table

end Playscript
