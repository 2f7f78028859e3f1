import Mathlib.Data.List.Nodup
import Mathlib.Tactic.SplitIfs
import Playscript.Table

/-!
# Entries of tables

What is found under a name is an entry of the table, and storing adds no entry but the stored one.
-/
namespace Playscript.Table

variable {α β : Type}

theorem mem_of_get? {t : Table α} {key : String} {a : α}
    (h : Table.get? t key = some a) : (key, a) ∈ t := by
  induction t with
  | nil => cases h
  | cons entry rest ih =>
    obtain ⟨k, v⟩ := entry
    rw [Table.get?_cons] at h
    split_ifs at h with hk
    · rw [← hk, ← Option.some.inj h]
      exact List.mem_cons_self
    · exact List.mem_cons_of_mem _ (ih h)

theorem mem_set {t : Table α} {key : String} {a : α} {entry : String × α}
    (h : entry ∈ Table.set t key a) : entry ∈ t ∨ entry = (key, a) := by
  induction t with
  | nil => exact Or.inr (List.mem_singleton.1 h)
  | cons first rest ih =>
    obtain ⟨k, v⟩ := first
    rw [Table.set] at h
    split_ifs at h with hk
    · rcases List.mem_cons.1 h with rfl | h
      · exact Or.inr (by rw [hk])
      · exact Or.inl (List.mem_cons_of_mem _ h)
    · rcases List.mem_cons.1 h with rfl | h
      · exact Or.inl List.mem_cons_self
      · exact (ih h).imp_left (List.mem_cons_of_mem _)

theorem mem_update {t entries : Table α} {entry : String × α}
    (h : entry ∈ Table.update t entries) : entry ∈ t ∨ entry ∈ entries := by
  induction entries generalizing t with
  | nil => exact Or.inl h
  | cons first rest ih =>
    obtain hmem | hmem := ih h
    · exact (mem_set hmem).imp_right fun heq => List.mem_cons.2 (Or.inl heq)
    · exact Or.inr (List.mem_cons_of_mem _ hmem)

theorem isSome_get?_set (t : Table α) (key : String) (a : α) :
    (Table.get? (Table.set t key a) key).isSome = true := by
  rw [get?_set, if_pos rfl]
  rfl

theorem set_of_get? {t : Table α} {key : String} {a : α}
    (h : Table.get? t key = some a) : Table.set t key a = t := by
  induction t with
  | nil => cases h
  | cons entry rest ih =>
    obtain ⟨k, v⟩ := entry
    rw [Table.get?_cons] at h
    rw [Table.set]
    split_ifs at h ⊢ with hk
    · rw [Option.some.inj h, hk]
    · rw [ih h]

theorem set_set (t : Table α) (key : String) (a b : α) :
    Table.set (Table.set t key a) key b = Table.set t key b := by
  induction t with
  | nil => simp only [Table.set, if_true]
  | cons entry rest ih =>
    obtain ⟨k, v⟩ := entry
    by_cases hk : k = key
    · simp only [Table.set, hk, if_true]
    · simp only [Table.set, hk, if_false, ih]

theorem set_ne_nil (t : Table α) (key : String) (a : α) : Table.set t key a ≠ [] := by
  cases t with
  | nil => exact List.cons_ne_nil _ _
  | cons entry rest =>
    obtain ⟨k, v⟩ := entry
    rw [Table.set]
    split_ifs <;> exact List.cons_ne_nil _ _

theorem get?_map (f : α → β) (t : Table α) (key : String) :
    Table.get? (t.map fun entry => (entry.1, f entry.2)) key = (Table.get? t key).map f := by
  induction t with
  | nil => rfl
  | cons entry rest ih =>
    obtain ⟨k, v⟩ := entry
    rw [List.map_cons, Table.get?_cons, Table.get?_cons]
    split_ifs
    · rfl
    · exact ih

theorem get?_append (t u : Table α) (key : String) :
    Table.get? (t ++ u) key = (Table.get? t key).or (Table.get? u key) := by
  induction t with
  | nil => rfl
  | cons entry rest ih =>
    obtain ⟨k, v⟩ := entry
    rw [List.cons_append, get?_cons, get?_cons, ih]
    split_ifs <;> rfl

theorem get?_filter (p : String → Bool) (t : Table α) (key : String) :
    Table.get? (t.filter fun entry => p entry.1) key =
      if p key then Table.get? t key else none := by
  induction t with
  | nil => simp
  | cons entry rest ih =>
    obtain ⟨k, v⟩ := entry
    by_cases hk : k = key
    · subst hk
      cases hp : p k <;> simp_all [get?_cons]
    · cases hp : p k <;> simp_all [get?_cons]

theorem set_of_not_mem {t : Table α} {key : String} (h : key ∉ t.keys) (a : α) :
    Table.set t key a = t ++ [(key, a)] := by
  induction t with
  | nil => rfl
  | cons entry rest ih =>
    obtain ⟨k, v⟩ := entry
    obtain ⟨hk, hrest⟩ := not_or.1 (mt List.mem_cons.2 h)
    rw [Table.set, if_neg (Ne.symm hk), ih hrest, List.cons_append]

theorem update_of_nodup {t entries : Table α} (h : (t ++ entries).keys.Nodup) :
    Table.update t entries = t ++ entries := by
  induction entries generalizing t with
  | nil => exact (List.append_nil t).symm
  | cons entry rest ih =>
    obtain ⟨k, v⟩ := entry
    have hk : k ∉ t.keys := by
      rw [Table.keys, List.map_append, List.map_cons] at h
      exact fun hmem => (List.nodup_append.1 h).2.2 k hmem k List.mem_cons_self rfl
    have hupdate : Table.update t ((k, v) :: rest) = Table.update (Table.set t k v) rest := rfl
    rw [hupdate, set_of_not_mem hk, ih] <;> rw [List.append_assoc, List.singleton_append]
    exact h

theorem get?_update {entries : Table α} (h : entries.keys.Nodup) (t : Table α) (name : String) :
    get? (update t entries) name = (get? entries name).or (get? t name) := by
  induction entries generalizing t with
  | nil => rfl
  | cons entry rest ih =>
    obtain ⟨k, v⟩ := entry
    obtain ⟨hk, hrest⟩ := List.nodup_cons.1 h
    have hupdate : update t ((k, v) :: rest) = update (set t k v) rest := rfl
    rw [hupdate, ih hrest, get?_set, get?_cons]
    split_ifs with hname
    · subst hname
      rw [(get?_eq_none_iff rest k).2 hk]
      rfl
    · rfl

theorem get?_map_names (f : String → α) (names : List String) (name : String) :
    Table.get? (names.map fun other => (other, f other)) name =
      if name ∈ names then some (f name) else none := by
  induction names with
  | nil => rfl
  | cons other rest ih =>
    rw [List.map_cons, Table.get?_cons, ih]
    by_cases hother : other = name
    · simp [hother]
    · simp [hother, Ne.symm hother]

theorem get?_of_mem {t : Table α} (h : t.keys.Nodup) {name : String} {a : α} (ha : (name, a) ∈ t) :
    get? t name = some a := by
  induction t with
  | nil => cases ha
  | cons entry rest ih =>
    obtain ⟨k, v⟩ := entry
    obtain ⟨hk, hrest⟩ := List.nodup_cons.1 h
    rw [get?_cons]
    obtain heq | hmem := List.mem_cons.1 ha
    · cases heq
      rw [if_pos rfl]
    · have hne : k ≠ name := fun heq => hk (List.mem_map.2 ⟨_, hmem, heq.symm⟩)
      rw [if_neg hne, ih hrest hmem]

theorem perm_of_get? {t u : Table α} (ht : t.keys.Nodup) (hu : u.keys.Nodup)
    (h : ∀ name, get? t name = get? u name) : t.Perm u := by
  refine (List.perm_ext_iff_of_nodup ht.of_map hu.of_map).2 fun ⟨name, a⟩ => ?_
  constructor
  · intro hmem
    exact mem_of_get? ((h name).symm.trans (get?_of_mem ht hmem))
  · intro hmem
    exact mem_of_get? ((h name).trans (get?_of_mem hu hmem))

theorem set_comm {t : Table α} {name other : String} (hne : name ≠ other)
    (h : (get? t name).isSome) (a b : α) :
    set (set t name a) other b = set (set t other b) name a := by
  induction t with
  | nil => cases h
  | cons entry rest ih =>
    obtain ⟨k, v⟩ := entry
    rw [get?_cons] at h
    by_cases hk : k = name
    · subst hk
      simp only [set, if_true, if_neg hne]
    · rw [if_neg hk] at h
      by_cases ho : k = other
      · subst ho
        simp only [set, if_true, if_neg hk]
      · simp only [set, if_neg hk, if_neg ho, ih h]

end Playscript.Table
