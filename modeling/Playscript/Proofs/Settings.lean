import Playscript.Proofs.Path
import Playscript.Proofs.Table
import Playscript.Settings

/-!
# The names among the settings

Settings laid over others have a section of names that joins the two. Storing a value at a path
changes one name at most, unless it is stored in place of the whole section.
-/
namespace Playscript.Settings

theorem keySection_eq {settings entries : Record} (h : keySection settings = .ok entries) :
    entries = keys settings := by
  rw [keySection] at h
  rw [keys]
  split at h
  · next hget =>
    cases h
    rw [hget]
    rfl
  · next hget =>
    cases h
    rw [hget]
    rfl
  · cases h

variable {base extension settings : Record}

theorem get?_keys_overlay (h : overlay base extension = .ok settings) :
    Table.get? settings "keys" =
      some (.dict (Table.update (keys base) (keys extension))) := by
  rw [overlay] at h
  cases hlower : keySection base with
  | error fault => simp [hlower, bind, Except.bind] at h
  | ok lower =>
    cases hupper : keySection extension with
    | error fault => simp [hlower, hupper, bind, Except.bind] at h
    | ok upper =>
      simp only [hlower, hupper, bind, Except.bind, pure, Except.pure, Except.ok.injEq] at h
      rw [← h, Table.get?_set, if_pos rfl, keySection_eq hlower, keySection_eq hupper]

theorem keys_eq_update (h : overlay base extension = .ok settings) :
    keys settings = Table.update (keys base) (keys extension) := by
  rw [keys, get?_keys_overlay h]
  rfl

theorem keys_overlay (h : overlay base extension = .ok settings) :
    Table.get? settings "keys" = some (.dict (keys settings)) := by
  rw [get?_keys_overlay h, keys_eq_update h]

theorem str_of_keys_overlay (h : overlay defaults extension = .ok settings)
    (hgiven : ∀ entry ∈ keys extension, ∃ s, entry.2 = .str s) :
    ∀ entry ∈ keys settings, ∃ s, entry.2 = .str s := by
  have hdefaults : ∀ entry ∈ keys defaults, ∃ s, entry.2 = .str s := by
    simp [keys, defaults, Table.get?, Value.entries]
  intro entry hentry
  rw [keys_eq_update h] at hentry
  obtain hmem | hmem := Table.mem_update hentry
  · exact hdefaults _ hmem
  · exact hgiven _ hmem

theorem get?_keys_set (settings : Record) {path : Path} (hpath : path ≠ ["keys"]) (v : Value)
    (name : String) :
    Table.get? (keys (Path.set settings path v)) name =
      if ["keys", name] <+: path then
        some (Path.placed (Table.get? (keys settings) name) (path.drop 2) v)
      else Table.get? (keys settings) name := by
  match path with
  | [] =>
    have hshort : ¬ ["keys", name] <+: [] := fun h => absurd (List.prefix_nil.1 h) (by simp)
    rw [Path.set_nil, if_neg hshort]
  | [first] =>
    have hfirst : first ≠ "keys" := fun h => hpath (h ▸ rfl)
    have hshort : ¬ ["keys", name] <+: [first] := fun h => absurd h.length_le (by simp)
    rw [keys, Path.get?_set_cons, if_neg hfirst, if_neg hshort, keys]
  | first :: next :: rest =>
    rw [keys, Path.get?_set_cons]
    by_cases hfirst : first = "keys"
    · have hsection := Path.entries_placed (Table.get? settings first)
        (List.cons_ne_nil next rest) v
      rw [if_pos hfirst, Option.map_some, Option.getD_some, hsection, Path.get?_set_cons, hfirst]
      simp only [List.cons_prefix_cons, List.nil_prefix, true_and, and_true, eq_comm (a := name),
        keys]
      split_ifs with hnext
      · rw [hnext]
        rfl
      · rfl
    · have hapart : ¬ ["keys", name] <+: first :: next :: rest := fun h =>
        hfirst (List.cons_prefix_cons.1 h).1.symm
      rw [if_neg hfirst, if_neg hapart, keys]

theorem plainItems_eq_map (items : List Value) : plainItems items = items.map plain := by
  induction items with
  | nil => rfl
  | cons v rest ih => rw [plainItems, ih, List.map_cons]

theorem textOr_of_not_null {v : Value} (h : v.isNull = false) (default : List Char) :
    textOr default v = plain v := by
  cases v with
  | null => cases h
  | _ => rfl

theorem textOr_nil (v : Value) : textOr [] v = plain v := by
  cases v <;> rfl

theorem find_keys (settings : Record) {name : String} (hname : Path.position? name = .ok none) :
    Path.find (.dict settings) ["keys", name] =
      (Table.get? (keys settings) name).getD .null := by
  simp only [Path.find, Path.get, keys]
  cases Table.get? settings "keys" with
  | none => rfl
  | some v =>
    cases v with
    | dict entries =>
      simp only [Path.get, Option.map_some, Option.getD_some, Value.entries]
      cases Table.get? entries name with
      | none => rfl
      | some part => simp only [Option.getD_some]
    | list items => simp only [Path.get, hname]; rfl
    | _ => rfl

end Playscript.Settings
