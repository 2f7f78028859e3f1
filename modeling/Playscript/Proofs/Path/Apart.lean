import Playscript.Proofs.Path
import Playscript.Proofs.Path.Leading

/-!
# Paths apart

Storing at a path leaves alone what stands at the paths apart from it, those of which neither starts
with the other. There is one exception: a list on the common part of the two ways gives place to a
record, so that the positions in it lead nowhere any more.
-/
namespace Playscript.Path

/-- Neither path leads on from where the other one ends. -/
def Apart (p q : Path) : Prop := ¬ p <+: q ∧ ¬ q <+: p

/-- There is a list on the common part of the ways of two paths. -/
def Listed (v : Value) (p q : Path) : Prop :=
  ∃ front items, front <+: p ∧ front <+: q ∧ Leads v front (.list items)

variable {key other : String} {p q : Path} {v w : Value}

theorem not_apart_nil : ¬ Apart [] q := fun h => h.1 List.nil_prefix

theorem not_apart_nil_right : ¬ Apart p [] := fun h => h.2 List.nil_prefix

theorem Apart.ne_nil (h : Apart p q) : p ≠ [] ∧ q ≠ [] :=
  ⟨fun hp => not_apart_nil (hp ▸ h), fun hq => not_apart_nil_right (hq ▸ h)⟩

theorem apart_cons_self : Apart (key :: p) (key :: q) ↔ Apart p q := by
  simp [Apart, List.cons_prefix_cons]

@[elab_as_elim]
theorem Apart.induction {motive : ∀ p q : Path, Apart p q → Prop}
    (parted : ∀ {key other : String} {p q : Path} (_ : key ≠ other)
      (h : Apart (key :: p) (other :: q)), motive (key :: p) (other :: q) h)
    (along : ∀ {key : String} {p q : Path} (h : Apart p q),
      motive p q h → motive (key :: p) (key :: q) (apart_cons_self.2 h))
    (h : Apart p q) : motive p q h := by
  induction p generalizing q with
  | nil => exact (not_apart_nil h).elim
  | cons key rest ih =>
    cases q with
    | nil => exact (not_apart_nil_right h).elim
    | cons other more =>
      by_cases hkey : key = other
      · subst hkey
        exact along (apart_cons_self.1 h) (ih _)
      · exact parted hkey h

theorem leads_cons_iff {segment : String} :
    Leads v (segment :: p) w ↔ ∃ next, child? v segment = .ok (some next) ∧ Leads next p w := by
  refine ⟨fun h => ?_, fun ⟨next, hchild, hrest⟩ => .on hchild hrest⟩
  cases h with
  | on hchild hrest => exact ⟨_, hchild, hrest⟩

theorem leads_dict_cons_iff {entries : Record} :
    Leads (.dict entries) (key :: p) w ↔
      ∃ next, Table.get? entries key = some next ∧ Leads next p w := by
  simp only [leads_cons_iff, child?, Except.ok.injEq]

theorem not_leads_dict_list {entries : Record} {items : List Value} :
    ¬ Leads (.dict entries) [] (.list items) := fun h => nomatch h

theorem not_listed_of_ne {entries : Record} (h : key ≠ other) :
    ¬ Listed (.dict entries) (key :: p) (other :: q) := by
  rintro ⟨front, items, hp, hq, hleads⟩
  cases front with
  | nil => exact not_leads_dict_list hleads
  | cons first rest =>
    obtain ⟨rfl, -⟩ := List.cons_prefix_cons.1 hp
    exact h (List.cons_prefix_cons.1 hq).1

theorem listed_cons_self_iff {entries : Record} :
    Listed (.dict entries) (key :: p) (key :: q) ↔
      ∃ next, Table.get? entries key = some next ∧ Listed next p q := by
  constructor
  · rintro ⟨front, items, hp, hq, hleads⟩
    cases front with
    | nil => exact (not_leads_dict_list hleads).elim
    | cons first rest =>
      obtain ⟨rfl, hrest⟩ := List.cons_prefix_cons.1 hp
      obtain ⟨next, hnext, hleads⟩ := leads_dict_cons_iff.1 hleads
      exact ⟨next, hnext, rest, items, hrest, (List.cons_prefix_cons.1 hq).2, hleads⟩
  · rintro ⟨next, hnext, front, items, hp, hq, hleads⟩
    exact ⟨key :: front, items, List.cons_prefix_cons.2 ⟨rfl, hp⟩,
      List.cons_prefix_cons.2 ⟨rfl, hq⟩, leads_dict_cons_iff.2 ⟨next, hnext, hleads⟩⟩

theorem not_leads_empty (hq : q ≠ []) : ¬ Leads (.dict []) q w := by
  obtain ⟨segment, rest, rfl⟩ := List.exists_cons_of_ne_nil hq
  intro hleads
  obtain ⟨_, hnone, -⟩ := leads_dict_cons_iff.1 hleads
  cases hnone

theorem not_listed_empty : ¬ Listed (.dict []) p q := by
  rintro ⟨front, items, -, -, hleads⟩
  by_cases hfront : front = []
  · subst hfront
    exact not_leads_dict_list hleads
  · exact not_leads_empty hfront hleads

/-! ## Beyond a key

Storing beyond a key turns what stands there into a record, if it is none. Only where it was a list
does a way end that led on before. -/

section

variable {entries : Record}

theorem leads_beyond (hq : q ≠ [])
    (hlist : ¬ ∃ items, Table.get? entries key = some (.list items)) :
    Leads (.dict entries) (key :: q) w ↔ Leads (.dict (recordAt entries key)) q w := by
  rw [leads_dict_cons_iff, recordAt]
  cases hget : Table.get? entries key with
  | none =>
    refine iff_of_false ?_ (not_leads_empty hq)
    rintro ⟨_, ⟨⟩, -⟩
  | some next =>
    simp only [Option.some.injEq, exists_eq_left']
    cases next with
    | dict es => exact Iff.rfl
    | list items => exact (hlist ⟨items, hget⟩).elim
    | _ =>
      obtain ⟨segment, rest, rfl⟩ := List.exists_cons_of_ne_nil hq
      refine iff_of_false (fun hleads => ?_) (not_leads_empty hq)
      obtain ⟨_, hchild, -⟩ := leads_cons_iff.1 hleads
      cases hchild

theorem listed_beyond_iff :
    Listed (.dict entries) (key :: p) (key :: q) ↔
      (∃ items, Table.get? entries key = some (.list items)) ∨
        Listed (.dict (recordAt entries key)) p q := by
  rw [listed_cons_self_iff, recordAt]
  cases hget : Table.get? entries key with
  | none => simp [not_listed_empty]
  | some next =>
    simp only [Option.some.injEq, exists_eq_left', Option.map_some, Option.getD_some]
    cases next with
    | dict es => simp [Value.entries]
    | list items =>
      exact iff_of_true ⟨[], items, List.nil_prefix, List.nil_prefix, .here _⟩ (Or.inl ⟨_, rfl⟩)
    | _ =>
      refine iff_of_false ?_ ?_
      · rintro ⟨front, items, -, -, hleads⟩
        cases hleads with
        | on hchild _ => cases hchild
      · rintro (⟨_, ⟨⟩⟩ | hlisted)
        exact not_listed_empty hlisted

end

theorem leads_set_iff (h : Apart p q) (entries : Record) (v : Value) :
    Leads (.dict (set entries p v)) q w ↔
      Leads (.dict entries) q w ∧ ¬ Listed (.dict entries) p q := by
  induction h using Apart.induction generalizing entries with
  | parted hkey =>
    rw [leads_dict_cons_iff, leads_dict_cons_iff, get?_set_cons, if_neg hkey]
    exact (and_iff_left (not_listed_of_ne hkey)).symm
  | @along key rest more hrest ih =>
    obtain ⟨hp, hq⟩ := hrest.ne_nil
    rw [leads_dict_cons_iff, get?_set_beyond hp, listed_beyond_iff]
    simp only [Option.some.injEq, exists_eq_left', ih, not_or]
    by_cases hlist : ∃ items, Table.get? entries key = some (.list items)
    · obtain ⟨items, hget⟩ := hlist
      have hempty : recordAt entries key = [] := by rw [recordAt, hget]; rfl
      rw [hempty]
      exact iff_of_false (fun hleads => not_leads_empty hq hleads.1)
        fun hleads => hleads.2.1 ⟨items, hget⟩
    · rw [leads_beyond hq hlist, and_iff_right hlist]

end Playscript.Path
