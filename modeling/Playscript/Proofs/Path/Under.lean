import Playscript.Proofs.Path
import Playscript.Proofs.Text.Decimal

/-!
# Storing under a segment

What is stored under a segment of a record, by many writes in order, is a record of its own: that of
the same writes without the segment. A number is a segment, and different numbers are different
segments.
-/
namespace Playscript

namespace Path

theorem ofChars_append_point {word : List Char} (hpoint : '.' ∉ word)
    (htrim : Text.trim word = word) (hne : word ≠ []) (rest : List Char) :
    ofChars (word ++ '.' :: rest) = String.ofList word :: ofChars rest := by
  have hwhole : ∀ c ∈ word, (c == '.') = false := fun c hc =>
    beq_eq_false_iff_ne.2 fun heq => hpoint (heq ▸ hc)
  rw [ofChars, List.splitOn,
    List.splitOnP_append_cons_of_forall_mem hwhole '.' (beq_self_eq_true _),
    List.map_cons, htrim, List.filter_cons, if_pos (decide_eq_true hne), List.map_cons]
  rfl

def segment (n : Int) : String := String.ofList (Text.decimal n)

theorem segment_inj {m n : Int} (h : segment m = segment n) : m = n :=
  Text.decimal_inj (String.ofList_injective h)

theorem ofChars_decimal_point (n : Int) (rest : List Char) :
    ofChars (Text.decimal n ++ '.' :: rest) = segment n :: ofChars rest :=
  ofChars_append_point (fun hpoint => (Text.plain_of_mem_decimal hpoint).2 rfl)
    (Text.trim_decimal n) (Text.decimal_ne_nil n) rest

def strip (key : String) : Path × Value → Option (Path × Value)
  | ([], _) => none
  | (first :: rest, v) => if first = key then some (rest, v) else none

theorem strip_of_head {key : String} {write : Path × Value} (h : write.1.head? ≠ some key) :
    strip key write = none := by
  obtain ⟨path, v⟩ := write
  cases path with
  | nil => rfl
  | cons first rest => exact if_neg fun heq => h (congrArg some heq)

theorem strip_cons (key : String) (rest : Path) (v : Value) :
    strip key (key :: rest, v) = some (rest, v) := if_pos rfl

def under (key : String) (writes : List (Path × Value)) : List (Path × Value) :=
  writes.filterMap (strip key)

theorem get?_setAll_under {writes : List (Path × Value)} {key : String}
    (h : ∀ write ∈ writes, write.1 ≠ [key]) (entries : Record) :
    Table.get? (setAll entries writes) key =
      if under key writes = [] then Table.get? entries key
      else some (.dict (setAll (recordAt entries key) (under key writes))) := by
  induction writes generalizing entries with
  | nil => rfl
  | cons write rest ih =>
    obtain ⟨hwrite, hrest⟩ := List.forall_mem_cons.1 h
    obtain ⟨path, v⟩ := write
    have hstep : setAll entries ((path, v) :: rest) = setAll (set entries path v) rest := rfl
    rw [hstep, ih hrest]
    by_cases hkey : path.head? = some key
    · obtain ⟨inner, rfl⟩ : ∃ inner, path = key :: inner := by
        cases path with
        | nil => cases hkey
        | cons first inner => exact ⟨inner, by rw [Option.some.inj hkey]⟩
      have hinner : inner ≠ [] := fun hnil => hwrite (by rw [hnil])
      have hunder : under key ((key :: inner, v) :: rest) = (inner, v) :: under key rest :=
        List.filterMap_cons_some (strip_cons key inner v)
      rw [hunder, get?_set_beyond hinner, recordAt_set_beyond hinner,
        if_neg (List.cons_ne_nil _ _)]
      split_ifs with hnone
      · rw [hnone]
        rfl
      · rfl
    · have hunder : under key ((path, v) :: rest) = under key rest :=
        List.filterMap_cons_none (strip_of_head hkey)
      rw [hunder, recordAt, get?_set_of_head hkey, recordAt]

theorem mem_under {writes : List (Path × Value)} {key : String} {rest : Path} {v : Value}
    (h : (key :: rest, v) ∈ writes) : (rest, v) ∈ under key writes :=
  List.mem_filterMap.2 ⟨_, h, strip_cons key rest v⟩

def record? (writes : List (Path × Value)) : Option Record :=
  if writes = [] then none else some (setAll [] writes)

theorem getD_record? (writes : List (Path × Value)) :
    (record? writes).getD [] = setAll [] writes := by
  rw [record?]
  split_ifs with hnone
  · rw [hnone]
    rfl
  · rfl

theorem get?_setAll_nil {writes : List (Path × Value)} {key : String}
    (h : ∀ write ∈ writes, write.1 ≠ [key]) :
    Table.get? (setAll [] writes) key = (record? (under key writes)).map .dict := by
  rw [get?_setAll_under h, record?]
  split_ifs <;> rfl

end Path

end Playscript
