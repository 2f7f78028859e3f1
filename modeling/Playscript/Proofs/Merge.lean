import Mathlib.Tactic.SplitIfs
import Playscript.Merge
import Playscript.Path
import Playscript.Proofs.Table

/-!
# Grouping of merges

Two values are joined if both are lists or both are records; of two others the later one wins. A
merged value is joined with what its later part is joined with, so the grouping of merges shows only
where a value that joins neither stands between two that would be joined.
-/
namespace Playscript

namespace Value

def joins : Value → Value → Bool
  | .list _, .list _ => true
  | .dict _, .dict _ => true
  | _, _ => false

theorem joins_iff {a b : Value} : a.joins b = true ↔
    (∃ xs ys, a = .list xs ∧ b = .list ys) ∨ ∃ es fs, a = .dict es ∧ b = .dict fs := by
  cases a <;> cases b <;> simp [joins]

theorem joins_congr {a b : Value} (h : a.joins b = true) (c : Value) : b.joins c = a.joins c := by
  obtain ⟨xs, ys, rfl, rfl⟩ | ⟨es, fs, rfl, rfl⟩ := joins_iff.1 h
  · cases c <;> rfl
  · cases c <;> rfl

/-- What a value holds at a path of keys. Only records are gone into. -/
inductive Holds : Value → Path → Value → Prop
  | here (v : Value) : Holds v [] v
  | under {entries : Record} {key : String} {v part : Value} {rest : Path}
      (hmem : (key, v) ∈ entries) (h : Holds v rest part) :
      Holds (.dict entries) (key :: rest) part

theorem holds_dict_iff {entries : Record} {key : String} {rest : Path} {part : Value} :
    Holds (.dict entries) (key :: rest) part ↔ ∃ v, (key, v) ∈ entries ∧ Holds v rest part := by
  constructor
  · rintro ⟨⟩
    exact ⟨_, ‹_›, ‹_›⟩
  · rintro ⟨v, hmem, h⟩
    exact .under hmem h

/-- Whatever stands between two values that would be joined is joined with them, at every path of
keys. -/
def Groups (a b c : Value) : Prop :=
  ∀ path x y z, Holds a path x → Holds b path y → Holds c path z → x.joins z → x.joins y

theorem Groups.joins {a b c : Value} (h : Groups a b c) (hac : a.joins c = true) :
    a.joins b = true :=
  h [] a b c (.here a) (.here b) (.here c) hac

theorem Groups.under {as bs cs : Record} (h : Groups (.dict as) (.dict bs) (.dict cs))
    {key : String} {a b c : Value} (ha : (key, a) ∈ as) (hb : (key, b) ∈ bs)
    (hc : (key, c) ∈ cs) : Groups a b c := fun path x y z hx hy hz =>
  h (key :: path) x y z (.under ha hx) (.under hb hy) (.under hc hz)

end Value

namespace Context

open Value (Groups)

/-! ## The entries of a merged context -/

def mergedWith (v : Value) : Option Value → Value
  | some w => mergeValue v w
  | none => v

theorem mergeEntries_cons (key : String) (v : Value) (es : List (String × Value)) (fs : Record) :
    mergeEntries ((key, v) :: es) fs =
      (key, mergedWith v (Table.get? fs key)) :: mergeEntries es fs := by
  rw [mergeEntries]
  cases Table.get? fs key <;> rfl

theorem mergeEntries_eq_map (es : List (String × Value)) (fs : Record) :
    mergeEntries es fs = es.map fun e => (e.1, mergedWith e.2 (Table.get? fs e.1)) := by
  induction es with
  | nil => rfl
  | cons e rest ih =>
    obtain ⟨key, v⟩ := e
    rw [mergeEntries_cons, ih, List.map_cons]

theorem get?_mergeEntries (es fs : Record) (key : String) :
    Table.get? (mergeEntries es fs) key =
      (Table.get? es key).map fun v => mergedWith v (Table.get? fs key) := by
  induction es with
  | nil => rfl
  | cons e rest ih =>
    obtain ⟨k, v⟩ := e
    rw [mergeEntries_cons, Table.get?_cons, Table.get?_cons, ih]
    split_ifs with hkey
    · rw [hkey]
      rfl
    · rfl

theorem get?_merge (a b : Record) (key : String) :
    Table.get? (merge a b) key =
      ((Table.get? a key).map fun v => mergedWith v (Table.get? b key)).or (Table.get? b key) := by
  rw [merge, Table.get?_append, get?_mergeEntries,
    Table.get?_filter fun key => !Table.contains a key, Table.contains]
  cases Table.get? a key <;> simp

theorem contains_merge (a b : Record) (key : String) :
    Table.contains (merge a b) key = (Table.contains a key || Table.contains b key) := by
  simp only [Table.contains, get?_merge]
  cases Table.get? a key <;> simp

theorem filter_mergeEntries (p : String → Bool) (es fs : Record) :
    (mergeEntries es fs).filter (fun e => p e.1) =
      mergeEntries (es.filter fun e => p e.1) fs := by
  rw [mergeEntries_eq_map, mergeEntries_eq_map, List.filter_map]
  rfl

theorem merge_merge_of_entries {a b c : Record}
    (h : mergeEntries (mergeEntries a b) c = mergeEntries a (merge b c)) :
    merge (merge a b) c = merge a (merge b c) := by
  have hnew : c.filter (fun e => !Table.contains (merge a b) e.1) =
      (c.filter fun e => !Table.contains b e.1).filter fun e => !Table.contains a e.1 := by
    simp only [contains_merge, List.filter_filter, Bool.not_or]
  have hmiddle := filter_mergeEntries (fun key => !Table.contains a key) b c
  calc merge (merge a b) c
      = mergeEntries (merge a b) c ++ c.filter fun e => !Table.contains (merge a b) e.1 := rfl
    _ = mergeEntries (mergeEntries a b) c ++
          mergeEntries (b.filter fun e => !Table.contains a e.1) c ++
            c.filter fun e => !Table.contains (merge a b) e.1 := by
        rw [merge, mergeEntries_eq_map, List.map_append, ← mergeEntries_eq_map,
          ← mergeEntries_eq_map]
    _ = mergeEntries a (merge b c) ++
          (mergeEntries b c ++ c.filter fun e => !Table.contains b e.1).filter
            fun e => !Table.contains a e.1 := by
        rw [h, hnew, ← hmiddle, List.append_assoc, List.filter_append]
    _ = merge a (merge b c) := rfl

/-! ## Grouping -/

theorem mergeValue_of_not_joins {a b : Value} (h : a.joins b = false) : mergeValue a b = b := by
  cases a <;> cases b <;> first | rfl | cases h

theorem joins_mergeValue_left (a b c : Value) : (mergeValue a b).joins c = b.joins c := by
  cases hab : a.joins b with
  | false => rw [mergeValue_of_not_joins hab]
  | true =>
    obtain ⟨xs, ys, rfl, rfl⟩ | ⟨es, fs, rfl, rfl⟩ := Value.joins_iff.1 hab
    · cases c <;> rfl
    · cases c <;> rfl

theorem joins_mergeValue_right (a b c : Value) : a.joins (mergeValue b c) = a.joins c := by
  cases hbc : b.joins c with
  | false => rw [mergeValue_of_not_joins hbc]
  | true =>
    obtain ⟨xs, ys, rfl, rfl⟩ | ⟨es, fs, rfl, rfl⟩ := Value.joins_iff.1 hbc
    · cases a <;> rfl
    · cases a <;> rfl

theorem mergeValue_assoc_of_dicts {a b c : Value} (h : Groups a b c)
    (hdicts : ∀ es fs gs, a = .dict es → b = .dict fs → c = .dict gs →
      merge (merge es fs) gs = merge es (merge fs gs)) :
    mergeValue (mergeValue a b) c = mergeValue a (mergeValue b c) := by
  cases hbc : b.joins c with
  | false =>
    have hac : a.joins c = false := Bool.eq_false_iff.2 fun hac =>
      Bool.eq_false_iff.1 hbc ((Value.joins_congr (h.joins hac) c).trans hac)
    rw [mergeValue_of_not_joins hbc, mergeValue_of_not_joins hac,
      mergeValue_of_not_joins ((joins_mergeValue_left a b c).trans hbc)]
  | true =>
    cases hab : a.joins b with
    | false =>
      have hac : a.joins c = false := Bool.eq_false_iff.2 fun hac =>
        Bool.eq_false_iff.1 hab (h.joins hac)
      rw [mergeValue_of_not_joins hab,
        mergeValue_of_not_joins ((joins_mergeValue_right a b c).trans hac)]
    | true =>
      obtain ⟨xs, ys, rfl, rfl⟩ | ⟨es, fs, rfl, rfl⟩ := Value.joins_iff.1 hab
      · obtain ⟨ys', zs, hys, rfl⟩ | ⟨_, _, hys, -⟩ := Value.joins_iff.1 hbc
        · cases hys
          simp only [mergeValue, List.append_assoc]
        · cases hys
      · obtain ⟨_, _, hfs, -⟩ | ⟨fs', gs, hfs, rfl⟩ := Value.joins_iff.1 hbc
        · cases hfs
        · cases hfs
          simp only [mergeValue_dict, hdicts es fs gs rfl rfl rfl]

mutual

theorem mergeValue_assoc : (a : Value) → {b c : Value} → Groups a b c →
    mergeValue (mergeValue a b) c = mergeValue a (mergeValue b c)
  | .dict es, b, c, h => mergeValue_assoc_of_dicts h fun es' fs gs hes hfs hgs => by
    obtain rfl := Value.dict.inj hes
    subst hfs hgs
    exact merge_merge_of_entries (mergeEntries_assoc es fun e he v w hv hw =>
      h.under he (Table.mem_of_get? hv) (Table.mem_of_get? hw))
  | .null, _, _, h | .bool _, _, _, h | .int _, _, _, h | .float _, _, _, h | .str _, _, _, h
  | .list _, _, _, h | .tuple _, _, _, h => mergeValue_assoc_of_dicts h fun _ _ _ ha => nomatch ha

theorem mergeEntries_assoc : (es : List (String × Value)) → {fs gs : Record} →
    (∀ e ∈ es, ∀ v w, Table.get? fs e.1 = some v → Table.get? gs e.1 = some w →
      Groups e.2 v w) →
    mergeEntries (mergeEntries es fs) gs = mergeEntries es (merge fs gs)
  | [], _, _, _ => rfl
  | (key, v) :: es, fs, gs, h => by
    obtain ⟨hfirst, hrest⟩ := List.forall_mem_cons.1 h
    rw [mergeEntries_cons, mergeEntries_cons, mergeEntries_cons, mergeEntries_assoc es hrest,
      get?_merge]
    cases hb : Table.get? fs key with
    | none => rfl
    | some w =>
      cases hc : Table.get? gs key with
      | none => rfl
      | some u =>
        have hv : mergeValue (mergeValue v w) u = mergeValue v (mergeValue w u) :=
          mergeValue_assoc v (hfirst w u hb hc)
        exact congrArg (fun value => (key, value) :: mergeEntries es (merge fs gs)) hv

end

theorem nil_merge (context : Record) : merge [] context = context := by
  simp [merge, mergeEntries, Table.contains]

theorem merge_nil (context : Record) : merge context [] = context := by
  simp [merge, mergeEntries_eq_map, mergedWith]

/-- Merging contexts does not depend on grouping unless, at some path of keys, a value of another
kind stands between two lists or two records; and the empty context changes nothing. -/
theorem merge_grouping (a b c : Record) :
    (Groups (.dict a) (.dict b) (.dict c) → merge (merge a b) c = merge a (merge b c)) ∧
      merge [] a = a ∧ merge a [] = a := by
  refine ⟨fun h => ?_, nil_merge a, merge_nil a⟩
  have hassoc := mergeValue_assoc (.dict a) h
  simp only [mergeValue_dict] at hassoc
  exact Value.dict.inj hassoc

/-- Lists join lists and records join records, and the second context lacks one of them. -/
theorem three_contexts_grouped :
    let a : Record := [("names", .list [.str "x"]), ("user", .dict [("age", .int 1)])]
    let b : Record := [("extra", .bool true), ("names", .list [.str "y"])]
    let c : Record := [("user", .dict [("mood", .str "calm")]), ("names", .list [.str "z"])]
    let merged : Record := [
      ("names", .list [.str "x", .str "y", .str "z"]),
      ("user", .dict [("age", .int 1), ("mood", .str "calm")]),
      ("extra", .bool true)]
    Groups (.dict a) (.dict b) (.dict c) ∧ merge (merge a b) c = merged ∧
      merge a (merge b c) = merged := by
  intro a b c merged
  have hgroups : Groups (.dict a) (.dict b) (.dict c) := by
    intro path x y z hx hy hz hxz
    cases hy with
    | here => cases hx; rfl
    | under hmem hy =>
      simp only [b, List.mem_cons, Prod.mk.injEq, List.not_mem_nil, or_false] at hmem
      obtain ⟨rfl, rfl⟩ | ⟨rfl, rfl⟩ := hmem
      · obtain ⟨v, hv, -⟩ := Value.holds_dict_iff.1 hx
        simp [a] at hv
      · cases hy
        obtain ⟨v, hv, hx⟩ := Value.holds_dict_iff.1 hx
        obtain rfl : v = .list [.str "x"] := by simpa [a] using hv
        cases hx
        rfl
  have hleft : merge (merge a b) c = merged := by
    simp [a, b, c, merged, merge, mergeEntries, mergeValue, Table.get?, Table.contains]
  exact ⟨hgroups, hleft, ((merge_grouping a b c).1 hgroups).symm.trans hleft⟩

example :
    let a : Record := [("names", .list [.str "x"])]
    let b : Record := [("names", .str "y")]
    merge (merge a b) a = [("names", .list [.str "x"])] ∧
      merge a (merge b a) = [("names", .list [.str "x", .str "x"])] := by
  simp [merge, mergeEntries, mergeValue, Table.get?, Table.contains]

end Context

end Playscript
