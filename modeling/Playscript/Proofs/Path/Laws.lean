import Mathlib.Data.Option.Defs
import Playscript.Proofs.Path.Apart
import Playscript.Proofs.Table

/-!
# Laws of reading and storing at paths

Reading and storing at paths obey the laws of a lens. What is stored can be read, a second value at
the same path replaces the first one without a trace, and values stored apart do not see each other:
they can be stored in either order, and reading at one path does not notice the other, unless a list
on their common way gave place to a record.
-/
namespace Playscript

inductive Value.Reordered : Value → Value → Prop
  | refl (v : Value) : Reordered v v
  | list {vs ws : List Value} (h : List.Forall₂ Reordered vs ws) : Reordered (.list vs) (.list ws)
  | dict {es fs : Record}
      (h : ∀ key, Option.Rel Reordered (Table.get? es key) (Table.get? fs key)) :
      Reordered (.dict es) (.dict fs)

theorem Value.Reordered.option (x : Option Value) : Option.Rel Reordered x x := by
  cases x with
  | none => exact .none
  | some v => exact .some (.refl v)

namespace Path

variable {p q rest : Path} {key : String} {entries : Record} {v w : Value}

/-! ## One path -/

theorem leads_set (hp : p ≠ []) (entries : Record) (v : Value) :
    Leads (.dict (set entries p v)) p v := by
  induction p generalizing entries with
  | nil => exact (hp rfl).elim
  | cons key rest ih =>
    rw [leads_dict_cons_iff]
    by_cases hrest : rest = []
    · subst hrest
      refine ⟨v, ?_, .here v⟩
      rw [set_singleton, Table.get?_set, if_pos rfl]
    · exact ⟨_, get?_set_beyond hrest entries key v, ih hrest _⟩

theorem set_twice (entries : Record) (p : Path) (v w : Value) :
    set (set entries p v) p w = set entries p w := by
  induction p generalizing entries with
  | nil => rfl
  | cons key rest ih =>
    by_cases hrest : rest = []
    · subst hrest
      exact Table.set_set entries key v w
    · calc set (set entries (key :: rest) v) (key :: rest) w
          = Table.set (set entries (key :: rest) v) key
              (.dict (set (set (recordAt entries key) rest v) rest w)) := by
            rw [set_beyond hrest, recordAt_set_beyond hrest]
        _ = Table.set entries key (.dict (set (recordAt entries key) rest w)) := by
            rw [ih, set_beyond hrest, Table.set_set]
        _ = set entries (key :: rest) w := (set_beyond hrest entries key w).symm

/-! ## Paths apart -/

theorem get?_set_beyond_twice (hp : p ≠ []) (hq : q ≠ []) (name : String) :
    Table.get? (set (set entries (key :: p) v) (key :: q) w) name =
      if key = name then some (.dict (set (set (recordAt entries key) p v) q w))
      else Table.get? entries name := by
  rw [set_beyond hq, recordAt_set_beyond hp, Table.get?_set, set_beyond hp, Table.get?_set]
  split_ifs <;> rfl

theorem reordered_set_set (h : Apart p q) (entries : Record) (v w : Value) :
    Value.Reordered (.dict (set (set entries p v) q w)) (.dict (set (set entries q w) p v)) := by
  induction h using Apart.induction generalizing entries with
  | @parted key other rest more hkey =>
    have hother : other ≠ key := Ne.symm hkey
    refine .dict fun name => ?_
    have hsame : Table.get? (set (set entries (key :: rest) v) (other :: more) w) name =
        Table.get? (set (set entries (other :: more) w) (key :: rest) v) name := by
      simp only [get?_set_cons, if_neg hkey, if_neg hother]
      split_ifs with hname hname'
      · exact absurd (hname'.trans hname.symm) hkey
      · rfl
      · rfl
      · rfl
    rw [hsame]
    exact Value.Reordered.option _
  | along hrest ih =>
    obtain ⟨hp, hq⟩ := hrest.ne_nil
    refine .dict fun name => ?_
    rw [get?_set_beyond_twice hp hq, get?_set_beyond_twice hq hp]
    split_ifs
    · exact .some (ih _)
    · exact Value.Reordered.option _

theorem get_beyond (hq : q ≠ [])
    (hlist : ¬ ∃ items, Table.get? entries key = some (.list items)) :
    get (.dict entries) (key :: q) = get (.dict (recordAt entries key)) q := by
  obtain ⟨segment, more, rfl⟩ := List.exists_cons_of_ne_nil hq
  rw [get_cons, child?, recordAt]
  cases hget : Table.get? entries key with
  | none => rfl
  | some next =>
    cases next with
    | list items => exact (hlist ⟨items, hget⟩).elim
    | _ => rfl

theorem get_set_of_apart (h : Apart p q) (entries : Record) (v : Value)
    (hlisted : ¬ Listed (.dict entries) p q) :
    get (.dict (set entries p v)) q = get (.dict entries) q := by
  induction h using Apart.induction generalizing entries with
  | parted hkey => rw [get_cons, get_cons, child?, child?, get?_set_cons, if_neg hkey]
  | @along key rest more hrest ih =>
    obtain ⟨hp, hq⟩ := hrest.ne_nil
    rw [listed_beyond_iff, not_or] at hlisted
    obtain ⟨hlist, hlisted⟩ := hlisted
    have hread : get (.dict (set entries (key :: rest) v)) (key :: more) =
        get (.dict (set (recordAt entries key) rest v)) more := by
      rw [get_beyond hq, recordAt_set_beyond hp]
      rintro ⟨items, hget⟩
      rw [get?_set_beyond hp] at hget
      cases hget
    calc get (.dict (set entries (key :: rest) v)) (key :: more)
        = get (.dict (set (recordAt entries key) rest v)) more := hread
      _ = get (.dict (recordAt entries key)) more := ih _ hlisted
      _ = get (.dict entries) (key :: more) := (get_beyond hq hlist).symm

/-! ## Paths as texts -/

def Named (text : String) : Prop :=
  ∃ segment ∈ text.toList.splitOn '.', Text.trim segment ≠ []

theorem ofString_ne_nil {text : String} (h : Named text) : ofString text ≠ [] := by
  obtain ⟨segment, hmem, hne⟩ := h
  have hkept : Text.trim segment ∈
      ((text.toList.splitOn '.').map Text.trim).filter (· ≠ []) :=
    List.mem_filter.2 ⟨List.mem_map_of_mem hmem, by simpa using hne⟩
  exact List.ne_nil_of_mem (List.mem_map_of_mem hkept)

/-- What is stored at a path can be read there, and a second value replaces it altogether. Values at
paths apart can be stored in either order, and neither is noticed where the other one is, unless on
their common way there is a list, which storing replaces by a record. -/
theorem reading_and_storing (t : Record) {p q : String} (hp : Named p) (v w : Value) :
    get (.dict (set t (ofString p) v)) (ofString p) = .ok v ∧
    set (set t (ofString p) v) (ofString p) w = set t (ofString p) w ∧
    (Apart (ofString p) (ofString q) →
      Value.Reordered (.dict (set (set t (ofString p) v) (ofString q) w))
        (.dict (set (set t (ofString q) w) (ofString p) v)) ∧
      ((∀ front items, front ≠ [] → front <+: ofString p → front <+: ofString q →
          get (.dict t) front ≠ .ok (.list items)) →
        get (.dict (set t (ofString p) v)) (ofString q) = get (.dict t) (ofString q))) := by
  refine ⟨get_of_leads (leads_set (ofString_ne_nil hp) t v), set_twice t _ v w, fun hapart =>
    ⟨reordered_set_set hapart t v w, fun hlists => get_set_of_apart hapart t v ?_⟩⟩
  rintro ⟨front, items, hfront, hfront', hleads⟩
  refine hlists front items ?_ hfront hfront' (get_of_leads hleads)
  rintro rfl
  exact not_leads_dict_list hleads

theorem reading_and_storing_beside :
    let t : Record := [("a", .dict [("c", .int 7)]), ("b", .list [])]
    Named "a . b" ∧ Apart (ofString "a . b") (ofString "a..c") ∧
      get (.dict (set t (ofString "a . b") .null)) (ofString "a . b") = .ok .null ∧
      set (set t (ofString "a . b") .null) (ofString "a . b") (.bool true) =
        set t (ofString "a . b") (.bool true) ∧
      Value.Reordered (.dict (set (set t (ofString "a . b") .null) (ofString "a..c") (.bool true)))
        (.dict (set (set t (ofString "a..c") (.bool true)) (ofString "a . b") .null)) ∧
      get (.dict (set t (ofString "a . b") .null)) (ofString "a..c") = .ok (.int 7) := by
  intro t
  have hnamed : Named "a . b" := ⟨['a', ' '], by decide, by decide⟩
  have hp : ofString "a . b" = ["a", "b"] := by decide
  have hq : ofString "a..c" = ["a", "c"] := by decide
  have hapart : Apart (ofString "a . b") (ofString "a..c") := by
    rw [hp, hq]
    exact ⟨by decide, by decide⟩
  obtain ⟨hread, htwice, hbeside⟩ := reading_and_storing t (q := "a..c") hnamed .null (.bool true)
  obtain ⟨hreorder, hunread⟩ := hbeside hapart
  refine ⟨hnamed, hapart, hread, htwice, hreorder, (hunread ?_).trans rfl⟩
  intro front items hne hfront hfront' hget
  rw [hp] at hfront
  rw [hq] at hfront'
  obtain ⟨first, rest, rfl⟩ := List.exists_cons_of_ne_nil hne
  obtain ⟨rfl, hrest⟩ := List.cons_prefix_cons.1 hfront
  obtain ⟨-, hrest'⟩ := List.cons_prefix_cons.1 hfront'
  cases rest with
  | nil => cases hget
  | cons second rest =>
    obtain ⟨rfl, -⟩ := List.cons_prefix_cons.1 hrest
    exact absurd (List.cons_prefix_cons.1 hrest').1 (by decide)

example :
    let t : Record := [("a", .list [.int 7])]
    get (.dict t) ["a", "0"] = .ok (.int 7) ∧
      get (.dict (set t ["a", "b"] .null)) ["a", "0"] = .ok .null :=
  ⟨rfl, rfl⟩

end Path

end Playscript
