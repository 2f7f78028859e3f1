import Playscript.DataModel
import Playscript.Proofs.Check
import Playscript.Proofs.Timestamp

/-!
# What a library of data models says of itself

A library says which data its kinds read, and that data made of lists, records, texts and finite
numbers are written down as they are. That is all that is used of it: not the issues it finds, nor
what else it reads.
-/
namespace Playscript

/-- A library that keeps to its documentation. -/
class DataModel.Documented [DataModel] : Prop where
  /-- Models are read from records. -/
  fields_eq_ok {v : Value} {r : Record} : fields v = .ok r ↔ v = .dict r
  /-- A field is read from the entry of its name, and is the default if there is none. -/
  field_eq_ok {α : Type} {name : String} {default : α} {check : Value → Check α} {r : Record}
    {a : α} : field name default check r = .ok a ↔
      (∃ v, Table.get? r name = some v ∧ check v = .ok a) ∨
        (Table.get? r name = none ∧ default = a)
  required_eq_ok {α : Type} {name : String} {check : Value → Check α} {r : Record} {a : α} :
    required name check r = .ok a ↔ ∃ v, Table.get? r name = some v ∧ check v = .ok a
  /-- Further entries are kept as they are. -/
  beside_eq (names : List String) (r : Record) :
    beside names r = r.filter fun entry => entry.1 ∉ names
  any_eq (v : Value) : any v = .ok v
  text_eq_ok {v : Value} {s : String} : text v = .ok s ↔ v = .str s
  truth_bool (b : Bool) : truth (.bool b) = .ok b
  integer_int (n : Int) : integer (.int n) = .ok n
  /-- The ISO text of a time is read as that time. -/
  time_text {t : Timestamp} (h : t.Valid) : time (.ofChars t.text) = .ok t
  /-- No time is read that cannot be kept. -/
  time_valid {v : Value} {t : Timestamp} (h : time v = .ok t) : t.Valid
  record_eq_ok {v : Value} {r : Record} : record v = .ok r ↔ v = .dict r
  /-- A list is read item by item, also from a tuple. -/
  list_eq_ok {α : Type} {item : Value → Check α} {v : Value} {as : List α} :
    list item v = .ok as ↔ ∃ vs, (v = .list vs ∨ v = .tuple vs) ∧
      List.Forall₂ (fun v a => item v = .ok a) vs as
  /-- A table is read entry by entry. -/
  table_eq_ok {α : Type} {entry : Value → Check α} {v : Value} {t : Table α} :
    table entry v = .ok t ↔ ∃ es, v = .dict es ∧
      List.Forall₂ (fun e a => e.1 = a.1 ∧ entry e.2 = .ok a.2) es t
  optional_eq_ok {α : Type} {check : Value → Check α} {v : Value} {a : Option α} :
    optional check v = .ok a ↔
      (v = .null ∧ a = none) ∨ (v ≠ .null ∧ ∃ b, check v = .ok b ∧ some b = a)
  plain_null : plain .null = .null
  plain_bool (b : Bool) : plain (.bool b) = .bool b
  plain_int (n : Int) : plain (.int n) = .int n
  plain_float {x : Binary64} (h : x.isFinite = true) : plain (.float x) = .float x
  plain_str (s : String) : plain (.str s) = .str s
  plain_list (vs : List Value) : plain (.list vs) = .list (vs.map plain)
  plain_dict (es : Record) : plain (.dict es) = .dict (plainEntries es)

namespace Value

theorem storableItems_eq_map (vs : List Value) : storableItems vs = vs.map storable := by
  induction vs with
  | nil => rfl
  | cons v rest ih => rw [storableItems, ih, List.map_cons]

theorem storableEntries_eq_map (es : Record) :
    storableEntries es = es.map fun e => (e.1, e.2.storable) := by
  induction es with
  | nil => rfl
  | cons e rest ih =>
    obtain ⟨key, v⟩ := e
    rw [storableEntries, ih, List.map_cons]

end Value

namespace DataModel

instance : Documented where
  fields_eq_ok := Check.fields_eq_ok
  field_eq_ok := Check.field_eq_ok
  required_eq_ok := Check.required_eq_ok
  beside_eq _ _ := rfl
  any_eq _ := rfl
  text_eq_ok := Check.text_eq_ok
  truth_bool _ := rfl
  integer_int _ := rfl
  time_text h := Timestamp.check_text h
  time_valid h := Timestamp.valid_of_check h
  record_eq_ok := Check.record_eq_ok
  list_eq_ok := Check.list_eq_ok
  table_eq_ok := Check.table_eq_ok
  optional_eq_ok := Check.optional_eq_ok
  plain_null := rfl
  plain_bool _ := rfl
  plain_int _ := rfl
  plain_float h := if_pos h
  plain_str _ := rfl
  plain_list vs := congrArg Value.list (Value.storableItems_eq_map vs)
  plain_dict es := congrArg Value.dict (Value.storableEntries_eq_map es)

variable [DataModel] [Documented] {α β : Type}

open Documented

theorem list_map {item : Value → Check α} {f : β → Value} {g : β → α} {bs : List β}
    (h : ∀ b ∈ bs, item (f b) = .ok (g b)) : list item (.list (bs.map f)) = .ok (bs.map g) := by
  refine list_eq_ok.2 ⟨_, Or.inl rfl, ?_⟩
  rw [List.forall₂_map_left_iff, List.forall₂_map_right_iff, List.forall₂_same]
  exact h

theorem list_map_self {item : Value → Check α} {f : α → Value} {as : List α}
    (h : ∀ a ∈ as, item (f a) = .ok a) : list item (.list (as.map f)) = .ok as := by
  have hmap := list_map h
  rwa [List.map_id'] at hmap

theorem list_self {item : Value → Check Value} {vs : List Value} (h : ∀ v ∈ vs, item v = .ok v) :
    list item (.list vs) = .ok vs := by
  have hmap := list_map_self (f := id) h
  rwa [List.map_id] at hmap

theorem table_map {entry : Value → Check α} {f : β → Value} {g : β → α} {es : Table β}
    (h : ∀ e ∈ es, entry (f e.2) = .ok (g e.2)) :
    table entry (.dict (es.map fun e => (e.1, f e.2))) = .ok (es.map fun e => (e.1, g e.2)) := by
  refine table_eq_ok.2 ⟨_, rfl, ?_⟩
  rw [List.forall₂_map_left_iff, List.forall₂_map_right_iff, List.forall₂_same]
  exact fun e he => ⟨rfl, h e he⟩

theorem keys_of_table {entry : Value → Check α} {es : List (String × Value)} {t : Table α}
    (h : table entry (.dict es) = .ok t) : t.keys = es.map Prod.fst := by
  obtain ⟨_, ⟨⟩, hall⟩ := table_eq_ok.1 h
  clear h
  induction hall with
  | nil => rfl
  | cons he _ ih => exact congrArg₂ List.cons he.1.symm ih

theorem optional_of_ok {check : Value → Check α} {v : Value} {a : α} (hv : v.isNull = false)
    (h : check v = .ok a) : optional check v = .ok (some a) := by
  refine optional_eq_ok.2 (Or.inr ⟨?_, a, h, rfl⟩)
  rintro rfl
  cases hv

theorem optional_ofText? (s : Option String) : optional text (.ofText? s) = .ok s := by
  cases s with
  | none => exact optional_eq_ok.2 (Or.inl ⟨rfl, rfl⟩)
  | some s => exact optional_of_ok rfl (text_eq_ok.2 rfl)

theorem required_of_get {name : String} {check : Value → Check α} {r : Record} {v : Value} {a : α}
    (hget : Table.get? r name = some v) (h : check v = .ok a) : required name check r = .ok a :=
  required_eq_ok.2 ⟨v, hget, h⟩

theorem field_of_get {name : String} {default : α} {check : Value → Check α} {r : Record}
    {v : Value} {a : α} (hget : Table.get? r name = some v) (h : check v = .ok a) :
    field name default check r = .ok a := field_eq_ok.2 (Or.inl ⟨v, hget, h⟩)

end DataModel

end Playscript
