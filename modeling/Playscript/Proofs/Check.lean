import Mathlib.Data.List.Forall2
import Playscript.Check

/-!
# Results of checks

A check of a whole succeeds exactly if the checks of its parts do, and then it is made of what they
gave.
-/
namespace Playscript.Check

variable {α β : Type}

theorem map_eq_ok {f : α → β} {x : Check α} {b : β} :
    (f <$> x : Check β) = .ok b ↔ ∃ a, x = .ok a ∧ f a = b := by
  cases x with
  | ok a =>
    refine ⟨fun h => ⟨a, rfl, Except.ok.inj h⟩, fun ⟨_, h, hb⟩ => ?_⟩
    cases h
    exact congrArg _ hb
  | error fault => exact ⟨fun h => (nomatch h), fun ⟨_, h, _⟩ => (nomatch h)⟩

theorem seq_eq_ok {f : Check (α → β)} {x : Check α} {b : β} :
    (f <*> x : Check β) = .ok b ↔ ∃ g a, f = .ok g ∧ x = .ok a ∧ g a = b := by
  cases f with
  | ok g =>
    cases x with
    | ok a =>
      exact ⟨fun h => ⟨g, a, rfl, rfl, Except.ok.inj h⟩,
        fun ⟨_, _, hg, ha, hb⟩ => by cases hg; cases ha; exact congrArg _ hb⟩
    | error fault => exact ⟨fun h => (nomatch h), fun ⟨_, _, _, h, _⟩ => (nomatch h)⟩
  | error fault =>
    refine ⟨fun h => ?_, fun ⟨_, _, h, _⟩ => (nomatch h)⟩
    cases fault <;> cases x <;> try cases h
    next more => cases more <;> cases h

theorem within_eq_ok {place : Place} {x : Check α} {a : α} :
    within place x = .ok a ↔ x = .ok a := by
  cases x with
  | ok a' => rfl
  | error fault => cases fault <;> exact ⟨fun h => (nomatch h), fun h => (nomatch h)⟩

theorem andThen_eq_ok {x : Check α} {next : α → Except Fault β} {b : β} :
    x.andThen next = .ok b ↔ ∃ a, x = .ok a ∧ next a = .ok b := by
  cases x with
  | ok a => exact ⟨fun h => ⟨a, rfl, h⟩, fun ⟨_, h, hb⟩ => by cases h; exact hb⟩
  | error fault => exact ⟨fun h => (nomatch h), fun ⟨_, h, _⟩ => (nomatch h)⟩

theorem field_eq_ok {name : String} {default : α} {check : Value → Check α} {r : Record} {a : α} :
    field name default check r = .ok a ↔
      (∃ v, Table.get? r name = some v ∧ check v = .ok a) ∨
        (Table.get? r name = none ∧ default = a) := by
  rw [field]
  cases Table.get? r name with
  | none => simpa using ⟨fun h => Except.ok.inj h, fun h => congrArg Except.ok h⟩
  | some v => simp [within_eq_ok]

theorem fields_eq_ok {v : Value} {r : Record} : fields v = .ok r ↔ v = .dict r := by
  cases v with
  | dict es => exact ⟨fun h => congrArg Value.dict (Except.ok.inj h), fun h => by cases h; rfl⟩
  | _ => exact iff_of_false (fun h => nomatch h) fun h => nomatch h

theorem record_eq_ok {v : Value} {r : Record} : record v = .ok r ↔ v = .dict r := by
  cases v with
  | dict es => exact ⟨fun h => congrArg Value.dict (Except.ok.inj h), fun h => by cases h; rfl⟩
  | _ => exact iff_of_false (fun h => nomatch h) fun h => nomatch h

theorem text_eq_ok {v : Value} {s : String} : text v = .ok s ↔ v = .str s := by
  cases v with
  | str t => exact ⟨fun h => congrArg Value.str (Except.ok.inj h), fun h => by cases h; rfl⟩
  | _ => exact iff_of_false (fun h => nomatch h) fun h => nomatch h

theorem required_eq_ok {name : String} {check : Value → Check α} {r : Record} {a : α} :
    required name check r = .ok a ↔ ∃ v, Table.get? r name = some v ∧ check v = .ok a := by
  rw [required]
  cases Table.get? r name with
  | none => exact iff_of_false (fun h => nomatch h) fun ⟨_, h, _⟩ => nomatch h
  | some v => simp [within_eq_ok]

theorem itemsFrom_eq_ok {item : Value → Check α} {position : Nat} {vs : List Value} {as : List α} :
    itemsFrom item position vs = .ok as ↔ List.Forall₂ (fun v a => item v = .ok a) vs as := by
  induction vs generalizing position as with
  | nil =>
    rw [List.forall₂_nil_left_iff]
    exact ⟨fun h => (Except.ok.inj h).symm, fun h => congrArg Except.ok h.symm⟩
  | cons v rest ih =>
    simp only [itemsFrom, seq_eq_ok, map_eq_ok, within_eq_ok, ih, List.forall₂_cons_left_iff]
    constructor
    · rintro ⟨_, more, ⟨a, ha, rfl⟩, hmore, rfl⟩
      exact ⟨a, more, ha, hmore, rfl⟩
    · rintro ⟨a, more, ha, hmore, rfl⟩
      exact ⟨_, more, ⟨a, ha, rfl⟩, hmore, rfl⟩

theorem list_eq_ok {item : Value → Check α} {v : Value} {as : List α} :
    list item v = .ok as ↔ ∃ vs, (v = .list vs ∨ v = .tuple vs) ∧
      List.Forall₂ (fun v a => item v = .ok a) vs as := by
  cases v with
  | list vs | tuple vs =>
    rw [list, itemsFrom_eq_ok]
    simp
  | _ => exact iff_of_false (fun h => nomatch h) (by simp)

theorem entries_eq_ok {entry : Value → Check α} {es : List (String × Value)} {t : Table α} :
    entries entry es = .ok t ↔
      List.Forall₂ (fun e a => e.1 = a.1 ∧ entry e.2 = .ok a.2) es t := by
  induction es generalizing t with
  | nil =>
    rw [List.forall₂_nil_left_iff]
    exact ⟨fun h => (Except.ok.inj h).symm, fun h => congrArg Except.ok h.symm⟩
  | cons e rest ih =>
    obtain ⟨key, v⟩ := e
    simp only [entries, seq_eq_ok, map_eq_ok, within_eq_ok, ih, List.forall₂_cons_left_iff]
    constructor
    · rintro ⟨_, more, ⟨a, ha, rfl⟩, hmore, rfl⟩
      exact ⟨(key, a), more, ⟨rfl, ha⟩, hmore, rfl⟩
    · rintro ⟨⟨_, a⟩, more, ⟨rfl, ha⟩, hmore, rfl⟩
      exact ⟨_, more, ⟨a, ha, rfl⟩, hmore, rfl⟩

theorem table_eq_ok {entry : Value → Check α} {v : Value} {t : Table α} :
    table entry v = .ok t ↔ ∃ es, v = .dict es ∧
      List.Forall₂ (fun e a => e.1 = a.1 ∧ entry e.2 = .ok a.2) es t := by
  cases v with
  | dict es =>
    rw [table, entries_eq_ok]
    simp
  | _ => exact iff_of_false (fun h => nomatch h) (by simp)

theorem optional_eq_ok {check : Value → Check α} {v : Value} {a : Option α} :
    optional check v = .ok a ↔
      (v = .null ∧ a = none) ∨ (v ≠ .null ∧ ∃ b, check v = .ok b ∧ some b = a) := by
  by_cases hnull : v = .null
  · subst hnull
    simp only [ne_eq, not_true_eq_false, false_and, or_false, true_and]
    exact ⟨fun h => (Except.ok.inj h).symm, fun h => congrArg Except.ok h.symm⟩
  · have hcheck : optional check v = (some <$> check v : Check (Option α)) := by
      cases v <;> first | rfl | exact absurd rfl hnull
    rw [hcheck, map_eq_ok]
    simp [hnull]

end Playscript.Check
