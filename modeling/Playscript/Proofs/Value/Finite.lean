import Mathlib.Logic.Basic
import Playscript.Merge
import Playscript.Proofs.DataModel
import Playscript.Proofs.Table

/-!
# Finite values

A value is finite if all numbers in it are and no tuple is among its parts. Writing a finite value
down loses nothing, and merging finite contexts gives a finite context.
-/
namespace Playscript

namespace Value

mutual

def Finite : Value → Prop
  | .float x => x.isFinite = true
  | .list items => FiniteItems items
  | .dict entries => FiniteEntries entries
  | .tuple _ => False
  | _ => True

def FiniteItems : List Value → Prop
  | [] => True
  | v :: vs => Finite v ∧ FiniteItems vs

def FiniteEntries : List (String × Value) → Prop
  | [] => True
  | (_, v) :: es => Finite v ∧ FiniteEntries es

end

mutual

def decideFinite : (v : Value) → Decidable v.Finite
  | .float x => inferInstanceAs (Decidable (x.isFinite = true))
  | .list items => decideFiniteItems items
  | .dict entries => decideFiniteEntries entries
  | .tuple _ => isFalse id
  | .null | .bool _ | .int _ | .str _ => isTrue trivial

def decideFiniteItems : (vs : List Value) → Decidable (FiniteItems vs)
  | [] => isTrue trivial
  | v :: vs => @instDecidableAnd _ _ (decideFinite v) (decideFiniteItems vs)

def decideFiniteEntries : (es : List (String × Value)) → Decidable (FiniteEntries es)
  | [] => isTrue trivial
  | (_, v) :: es => @instDecidableAnd _ _ (decideFinite v) (decideFiniteEntries es)

end

instance : DecidablePred Finite := decideFinite

theorem finiteEntries_nil : FiniteEntries [] := trivial

theorem finite_ofChars (s : List Char) : (ofChars s).Finite := trivial

theorem finiteItems_iff {vs : List Value} : FiniteItems vs ↔ ∀ v ∈ vs, Finite v := by
  induction vs with
  | nil => simp [FiniteItems]
  | cons v vs ih => simp [FiniteItems, ih]

theorem finiteEntries_iff {es : List (String × Value)} :
    FiniteEntries es ↔ ∀ e ∈ es, Finite e.2 := by
  induction es with
  | nil => simp [FiniteEntries]
  | cons e es ih =>
    obtain ⟨key, v⟩ := e
    simp [FiniteEntries, ih]

theorem FiniteEntries.filter {es : List (String × Value)} (h : FiniteEntries es)
    (p : String × Value → Bool) : FiniteEntries (es.filter p) :=
  finiteEntries_iff.2 fun e he => finiteEntries_iff.1 h e (List.mem_filter.1 he).1

theorem FiniteEntries.get {es : Record} (h : FiniteEntries es) {key : String} {v : Value}
    (hv : Table.get? es key = some v) : Finite v :=
  finiteEntries_iff.1 h _ (Table.mem_of_get? hv)

theorem FiniteEntries.set {es : Record} (h : FiniteEntries es) (key : String) {v : Value}
    (hv : Finite v) : FiniteEntries (Table.set es key v) := by
  apply finiteEntries_iff.2
  intro e he
  rcases Table.mem_set he with he | rfl
  · exact finiteEntries_iff.1 h e he
  · exact hv

end Value

/-! ## Writing down -/

namespace DataModel

variable [DataModel]

theorem get?_plainEntries (es : Record) (key : String) :
    Table.get? (plainEntries es) key = (Table.get? es key).map plain := by
  induction es with
  | nil => rfl
  | cons e rest ih =>
    rw [plainEntries, List.map_cons, Table.get?_cons, Table.get?_cons]
    split_ifs
    · rfl
    · exact ih

open Value (Finite FiniteItems FiniteEntries)

mutual

theorem plain_eq_self [Documented] : {v : Value} → v.Finite → plain v = v
  | .null, _ => Documented.plain_null
  | .bool _, _ => Documented.plain_bool _
  | .int _, _ => Documented.plain_int _
  | .float _, h => Documented.plain_float h
  | .str _, _ => Documented.plain_str _
  | .list _, h => (Documented.plain_list _).trans (congrArg Value.list (plainItems_eq_self h))
  | .dict _, h => (Documented.plain_dict _).trans (congrArg Value.dict (plainEntries_eq_self h))

theorem plainItems_eq_self [Documented] : {vs : List Value} → FiniteItems vs → vs.map plain = vs
  | [], _ => rfl
  | _ :: _, h => congrArg₂ List.cons (plain_eq_self h.1) (plainItems_eq_self h.2)

theorem plainEntries_eq_self [Documented] : {es : List (String × Value)} → FiniteEntries es →
    plainEntries es = es
  | [], _ => rfl
  | (key, _) :: _, h =>
    congrArg₂ (fun v es => (key, v) :: es) (plain_eq_self h.1) (plainEntries_eq_self h.2)

end

theorem plain_texts [Documented] (names : List String) :
    plain (.list (names.map .str)) = .list (names.map .str) :=
  plain_eq_self (Value.finiteItems_iff.2 fun _ hv => by
    obtain ⟨name, -, rfl⟩ := List.mem_map.1 hv
    trivial)

end DataModel

namespace Value

/-- A property of values that a list or a record has exactly if everything in it has it, and a tuple
only then. Texts and nothing have it. -/
structure Hereditary (F : Value → Prop) : Prop where
  null : F .null
  text (s : String) : F (.str s)
  items {vs : List Value} : F (.list vs) ↔ ∀ v ∈ vs, F v
  entries {es : List (String × Value)} : F (.dict es) ↔ ∀ e ∈ es, F e.2
  tuple {vs : List Value} : F (.tuple vs) → ∀ v ∈ vs, F v

theorem hereditary_finite : Hereditary Finite :=
  ⟨trivial, fun _ => trivial, finiteItems_iff, finiteEntries_iff, False.elim⟩

theorem hereditary_any : Hereditary fun _ => True :=
  ⟨trivial, fun _ => trivial, by simp, by simp, fun _ _ _ => trivial⟩

namespace Hereditary

open Context (mergeValue mergeEntries merge)

variable {F : Value → Prop}

mutual

theorem mergeValue (h : Hereditary F) : {a b : Value} → F a → F b → F (mergeValue a b)
  | .list _, .list _, ha, hb => h.items.2 (List.forall_mem_append.2 ⟨h.items.1 ha, h.items.1 hb⟩)
  | .dict _, .dict _, ha, hb =>
    h.entries.2 (List.forall_mem_append.2 ⟨h.mergeEntries (h.entries.1 ha) (h.entries.1 hb),
      fun e he => h.entries.1 hb e (List.mem_filter.1 he).1⟩)
  | .list _, .null, _, hb | .list _, .bool _, _, hb | .list _, .int _, _, hb
  | .list _, .float _, _, hb | .list _, .str _, _, hb | .list _, .tuple _, _, hb
  | .list _, .dict _, _, hb => hb
  | .dict _, .null, _, hb | .dict _, .bool _, _, hb | .dict _, .int _, _, hb
  | .dict _, .float _, _, hb | .dict _, .str _, _, hb | .dict _, .list _, _, hb
  | .dict _, .tuple _, _, hb => hb
  | .null, _, _, hb | .bool _, _, _, hb | .int _, _, _, hb | .float _, _, _, hb
  | .str _, _, _, hb | .tuple _, _, _, hb => hb

theorem mergeEntries (h : Hereditary F) : {es : List (String × Value)} → {fs : Record} →
    (∀ e ∈ es, F e.2) → (∀ e ∈ fs, F e.2) → ∀ e ∈ mergeEntries es fs, F e.2
  | [], _, _, _ => fun _ hmem => absurd hmem List.not_mem_nil
  | (key, a) :: es, fs, he, hf => by
    obtain ⟨ha, hes⟩ := List.forall_mem_cons.1 he
    refine List.forall_mem_cons.2 ⟨?_, h.mergeEntries hes hf⟩
    cases hget : Table.get? fs key with
    | none => exact ha
    | some b => exact h.mergeValue ha (hf _ (Table.mem_of_get? hget))

end

theorem merge (h : Hereditary F) {a b : Record} (ha : ∀ e ∈ a, F e.2) (hb : ∀ e ∈ b, F e.2) :
    ∀ e ∈ merge a b, F e.2 :=
  List.forall_mem_append.2 ⟨h.mergeEntries ha hb, fun e he => hb e (List.mem_filter.1 he).1⟩

end Hereditary

end Value

end Playscript
