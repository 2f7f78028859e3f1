import Mathlib.Data.List.Nodup
import Playscript.Proofs.DataModel
import Playscript.Proofs.Compiler.Writes
import Playscript.Proofs.Draft
import Playscript.Proofs.Scenario.Acts
import Playscript.Staging
import Playscript.Scenario.Shape

/-!
# The order of acts

A scenario lists its acts in the setting `order`. The list and the table of acts have the same
names, each once; compiling keeps this and only appends to the list, and reading plain data
establishes it.
-/
namespace Playscript

/-- The setting `order` is a list of names, and it names every act exactly once. -/
structure Scenario.Ordered (s : Scenario) : Prop where
  listed : Table.get? s.config "order" = some (.list (s.order.map .str))
  nodup : s.order.Nodup
  keys_nodup : s.acts.keys.Nodup
  mem_order : ∀ name, name ∈ s.order ↔ name ∈ s.acts.keys

namespace Scenario

theorem filterMap_nameOf?_map_str (names : List String) :
    (names.map Value.str).filterMap nameOf? = names := by
  induction names with
  | nil => rfl
  | cons name rest ih => simpa [nameOf?] using ih

theorem order_set (acts : Table Act) (config : Record) (names : List String) :
    order ⟨acts, Table.set config "order" (.list (names.map .str))⟩ = names := by
  simp only [order, orderItems, Table.get?_set, if_true, filterMap_nameOf?_map_str]

theorem orderItems_eq {s : Scenario} (h : s.Ordered) :
    orderItems s.config = s.order.map .str := by
  simp only [orderItems, h.listed]

theorem isSome_act?_iff (s : Scenario) (name : String) :
    (s.act? name).isSome ↔ name ∈ s.acts.keys := by
  rw [act?, ← not_iff_not, ← Table.get?_eq_none_iff]
  simp

theorem ordered_empty : Scenario.empty.Ordered where
  listed := rfl
  nodup := List.nodup_nil
  keys_nodup := List.nodup_nil
  mem_order _ := Iff.rfl

theorem keys_set_of_act? {s : Scenario} {name : String} {act : Act} (h : s.act? name = some act)
    (act' : Act) : (Table.set s.acts name act').keys = s.acts.keys := by
  have hmem : name ∈ s.acts.keys := (s.isSome_act?_iff name).1 (by simp [h])
  rw [Table.keys_set, if_pos hmem]

structure Grown (s t : Scenario) : Prop where
  ordered : t.Ordered
  appended : s.order <+: t.order

theorem Grown.trans {s t u : Scenario} (h : Grown s t) (h' : Grown t u) : Grown s u :=
  ⟨h'.ordered, h.appended.trans h'.appended⟩

theorem Ordered.grown {s : Scenario} (h : s.Ordered) : Grown s s := ⟨h, List.prefix_rfl⟩

theorem Ordered.grown_of_keys {s t : Scenario} (h : s.Ordered)
    (hlist : Table.get? t.config "order" = Table.get? s.config "order")
    (hkeys : t.acts.keys = s.acts.keys) : Grown s t := by
  have horder : t.order = s.order := by simp only [order, orderItems, hlist]
  refine ⟨⟨?_, ?_, ?_, fun name => ?_⟩, horder ▸ List.prefix_rfl⟩
  · rw [hlist, horder]
    exact h.listed
  · rw [horder]
    exact h.nodup
  · rw [hkeys]
    exact h.keys_nodup
  · rw [horder, hkeys]
    exact h.mem_order name

theorem Ordered.grown_modifyAct {s : Scenario} (h : s.Ordered) (name : String)
    (change : Act → Act) : Grown s (s.modifyAct name change) := by
  refine h.grown_of_keys (by rw [config_modifyAct]) ?_
  rw [Scenario.modifyAct]
  split
  · next act hact => exact keys_set_of_act? hact _
  · rfl

theorem order_ensureAct {s : Scenario} (h : s.Ordered) (name : String)
    (description : Option String) :
    (s.ensureAct name description).order =
      if name ∈ s.order then s.order else s.order ++ [name] := by
  rw [ensureAct]
  split
  · next act hact =>
    have hmem : name ∈ s.order := (h.mem_order name).2 ((s.isSome_act?_iff name).1 (by simp [hact]))
    rw [if_pos hmem]
    rfl
  · next hact =>
    have hmem : name ∉ s.order := fun hname => by
      have := (s.isSome_act?_iff name).2 ((h.mem_order name).1 hname)
      simp [hact] at this
    rw [if_neg hmem, orderItems_eq h]
    simpa only [List.map_append, List.map_cons, List.map_nil] using
      order_set _ s.config (s.order ++ [name])

theorem Ordered.grown_ensureAct {s : Scenario} (h : s.Ordered) (name : String)
    (description : Option String) : Grown s (s.ensureAct name description) := by
  have horder := order_ensureAct h name description
  rw [Scenario.ensureAct] at horder ⊢
  split at horder
  · next act hact => exact h.grown_of_keys rfl (keys_set_of_act? hact _)
  · next hact =>
    have hkeys : name ∉ s.acts.keys := (Table.get?_eq_none_iff _ _).1 hact
    have hmem : name ∉ s.order := fun hname => hkeys ((h.mem_order name).1 hname)
    rw [if_neg hmem] at horder
    refine ⟨⟨?_, ?_, ?_, fun other => ?_⟩, by rw [horder]; exact List.prefix_append _ _⟩
    · rw [horder, Table.get?_set, if_pos rfl, orderItems_eq h]
      simp
    · rw [horder]
      exact List.nodup_append_comm.1 (List.nodup_cons.2 ⟨hmem, h.nodup⟩)
    · rw [Table.keys_set, if_neg hkeys]
      exact List.nodup_append_comm.1 (List.nodup_cons.2 ⟨hkeys, h.keys_nodup⟩)
    · rw [horder, Table.keys_set, if_neg hkeys]
      simp [h.mem_order]

end Scenario

/-! ## Compiling -/

namespace Draft

open Scenario (Grown)

variable {named : String → Prop} {a b : Draft}

theorem Write.grown (h : Write named a b) (ha : a.scenario.Ordered) :
    Grown a.scenario b.scenario := by
  cases h with
  | setting path value =>
    refine ha.grown_of_keys (get?_config_override (by decide) path value) ?_
    rw [acts_override]
  | scenario first rest value hfirst =>
    refine ha.grown_of_keys (get?_config_setConfig hfirst rest value) ?_
    rw [acts_setConfig]
  | register act description => exact ha.grown_ensureAct act description
  | config act path value => exact ha.grown_modifyAct act _
  | placeholder act name default => exact ha.grown_modifyAct act _
  | message act message => exact ha.grown_modifyAct act _

theorem Writes.grown (h : Writes named a b) (ha : a.scenario.Ordered) :
    Grown a.scenario b.scenario :=
  h.keeps (P := fun d => Grown a.scenario d.scenario)
    (fun _ _ hwrite hgrown => hgrown.trans (hwrite.grown hgrown.ordered)) ha.grown

end Draft

theorem Compiler.run_ordered (text : String) (settings : Record) :
    (Compiler.run text settings).2.scenario.Ordered :=
  ((Compiler.run_writes text settings).grown Scenario.ordered_empty).ordered

/-! ## Reading -/

namespace Scenario

theorem idxOf_lt_of_filter {p : String → Bool} {l : List String} {x y : String} (hx : p x)
    (hy : p y) (h : (l.filter p).idxOf x < (l.filter p).idxOf y) : l.idxOf x < l.idxOf y := by
  induction l with
  | nil => exact h
  | cons a rest ih =>
    cases hp : p a with
    | true =>
      rw [List.filter_cons_of_pos hp] at h
      by_cases hax : a = x
      · by_cases hay : a = y
        · rw [← hax, ← hay] at h
          exact (Nat.lt_irrefl _ h).elim
        · rw [hax, List.idxOf_cons_self, List.idxOf_cons_ne _ (hax ▸ hay)]
          exact Nat.succ_pos _
      · by_cases hay : a = y
        · rw [hay, List.idxOf_cons_self] at h
          exact (Nat.not_lt_zero _ h).elim
        · rw [List.idxOf_cons_ne _ hax, List.idxOf_cons_ne _ hay] at h ⊢
          exact Nat.succ_lt_succ (ih (Nat.lt_of_succ_lt_succ h))
    | false =>
      have hne : ∀ z, p z → a ≠ z := fun z hz heq => by rw [heq, hz] at hp; cases hp
      rw [List.filter_cons_of_neg (by rw [hp]; decide)] at h
      rw [List.idxOf_cons_ne _ (hne x hx), List.idxOf_cons_ne _ (hne y hy)]
      exact Nat.succ_lt_succ (ih h)

theorem idxOf_eraseDups (names : List String) :
    names.eraseDups.Pairwise fun x y => names.idxOf x < names.idxOf y := by
  induction hn : names.length using Nat.strongRecOn generalizing names with
  | _ n ih =>
    cases names with
    | nil => exact List.Pairwise.nil
    | cons name rest =>
      have hne : ∀ x ∈ (rest.filter fun other => !other == name).eraseDups,
          (!x == name) = true := fun x hx =>
        (List.mem_filter.1 (List.mem_eraseDups.1 hx)).2
      have hidx : ∀ x, (!x == name) = true → (name :: rest).idxOf x = rest.idxOf x + 1 := by
        intro x hx
        exact List.idxOf_cons_ne _ fun heq => by simp [heq] at hx
      rw [List.eraseDups_cons, List.pairwise_cons]
      refine ⟨fun x hx => ?_, ?_⟩
      · rw [List.idxOf_cons_self, hidx x (hne x hx)]
        exact Nat.succ_pos _
      · have hshort : (rest.filter fun other => !other == name).length < n := by
          rw [← hn]
          exact Nat.lt_succ_of_le (List.length_filter_le _ _)
        refine (ih _ hshort _ rfl).imp_of_mem fun {x y} hx hy hlt => ?_
        rw [hidx x (hne x hx), hidx y (hne y hy)]
        exact Nat.succ_lt_succ (idxOf_lt_of_filter (hne x hx) (hne y hy) hlt)

theorem nodup_eraseDups (names : List String) : names.eraseDups.Nodup := by
  refine (idxOf_eraseDups names).imp ?_
  rintro x _ hlt rfl
  exact Nat.lt_irrefl _ hlt

theorem nodup_repairOrder {acts : List String} (h : acts.Nodup) (given : List Value) :
    (repairOrder acts given).Nodup := by
  rw [repairOrder]
  refine List.nodup_append.2 ⟨(nodup_eraseDups _).filter _, h.filter _, fun a ha b hb hab => ?_⟩
  simp only [List.mem_filter, decide_eq_true_eq] at ha hb
  subst hab
  exact hb.2 (by simpa using ha)

theorem mem_repairOrder (acts : List String) (given : List Value) (name : String) :
    name ∈ repairOrder acts given ↔ name ∈ acts := by
  simp only [repairOrder, List.mem_append, List.mem_filter, decide_eq_true_eq]
  tauto

theorem ofParts_eq_ok {acts : Table Act} {config : Record} {s : Scenario} :
    ofParts acts config = .ok s ↔
      ∃ given, givenOrder ((Table.get? config "order").getD .null) = .ok given ∧
        s = ⟨acts, Table.set config "order"
          (.list ((repairOrder acts.keys given).map .str))⟩ := by
  rw [ofParts]
  cases givenOrder ((Table.get? config "order").getD .null) with
  | error fault => exact iff_of_false (fun h => nomatch h) fun ⟨_, h, _⟩ => nomatch h
  | ok given =>
    refine ⟨fun h => ⟨given, rfl, (Except.ok.inj h).symm⟩, ?_⟩
    rintro ⟨_, hgiven, rfl⟩
    cases hgiven
    rfl

theorem ordered_of_ofParts {acts : Table Act} {config : Record} {s : Scenario}
    (hacts : acts.keys.Nodup) (h : ofParts acts config = .ok s) : s.Ordered := by
  obtain ⟨given, -, rfl⟩ := ofParts_eq_ok.1 h
  have horder := order_set acts config (repairOrder acts.keys given)
  refine ⟨?_, ?_, hacts, fun name => ?_⟩
  · rw [horder, Table.get?_set, if_pos rfl]
  · rw [horder]
    exact nodup_repairOrder hacts given
  · rw [horder]
    exact mem_repairOrder _ _ name

end Scenario

namespace Value

mutual

def Distinct : Value → Prop
  | .list items => DistinctItems items
  | .dict entries => (entries.map Prod.fst).Nodup ∧ DistinctEntries entries
  | _ => True

def DistinctItems : List Value → Prop
  | [] => True
  | v :: vs => Distinct v ∧ DistinctItems vs

def DistinctEntries : List (String × Value) → Prop
  | [] => True
  | (_, v) :: es => Distinct v ∧ DistinctEntries es

end

theorem DistinctEntries.get {es : List (String × Value)} (h : DistinctEntries es) {key : String}
    {v : Value} (hv : Table.get? es key = some v) : Distinct v := by
  induction es with
  | nil => cases hv
  | cons e rest ih =>
    obtain ⟨k, w⟩ := e
    rw [Table.get?_cons] at hv
    split_ifs at hv
    · exact Option.some.inj hv ▸ h.1
    · exact ih h.2 hv

end Value

namespace Scenario

variable [DataModel] [DataModel.Documented]

theorem check_eq_ok {v : Value} {s : Scenario} (h : check v = .ok s) :
    ∃ r acts config, v = .dict r ∧
      DataModel.field "acts" [] (DataModel.table Act.check) r = .ok acts ∧
      DataModel.field "config" [] DataModel.record r = .ok config ∧
      ofParts acts config = .ok s := by
  obtain ⟨r, hr, hread⟩ := Check.andThen_eq_ok.1 h
  obtain ⟨⟨acts, config⟩, hpair, hparts⟩ := Check.andThen_eq_ok.1 hread
  obtain ⟨g, _, hg, hconfig, heq⟩ := Check.seq_eq_ok.1 hpair
  obtain ⟨acts', hacts, rfl⟩ := Check.map_eq_ok.1 hg
  cases heq
  exact ⟨_, _, _, DataModel.Documented.fields_eq_ok.1 hr, hacts, hconfig, hparts⟩

theorem ordered_of_check {v : Value} (hv : v.Distinct) {s : Scenario} (h : check v = .ok s) :
    s.Ordered := by
  obtain ⟨r, acts, config, rfl, hacts, -, hparts⟩ := check_eq_ok h
  refine ordered_of_ofParts ?_ hparts
  obtain ⟨w, hw, hacts⟩ | ⟨-, rfl⟩ := DataModel.Documented.field_eq_ok.1 hacts
  · obtain ⟨es, rfl, -⟩ := DataModel.Documented.table_eq_ok.1 hacts
    rw [DataModel.keys_of_table hacts]
    exact (hv.2.get hw).1
  · exact List.nodup_nil

end Scenario

namespace Staging

theorem scenario_of_ofScenario {s : Scenario} {given : Record} {staging : Staging}
    (h : ofScenario s given = .ok staging) : staging.scenario = s := by
  rw [ofScenario] at h
  cases hs : Settings.overlay Settings.defaults given with
  | error fault => simp [hs, bind, Except.bind] at h
  | ok settings =>
    simp only [hs, bind, Except.bind, pure, Except.pure, Except.ok.injEq] at h
    rw [← h]

theorem exists_run_of_ofText {text : String} {given : Record} {staging : Staging}
    (h : ofText text given = .ok staging) :
    ∃ settings, Settings.overlay Settings.defaults given = .ok settings ∧
      staging = ⟨(Compiler.run text settings).2.scenario,
        Sharing.follow (sharedParts settings) settings (Compiler.run text settings).2.written,
        sentinelOf given (Compiler.run text settings).2.scenario.overrides⟩ := by
  rw [ofText] at h
  cases hs : Settings.overlay Settings.defaults given with
  | error fault => simp [hs, bind, Except.bind] at h
  | ok settings =>
    cases hrun : (Compiler.run text settings).1 with
    | error fault => simp [hs, hrun, bind, Except.bind] at h
    | ok _ =>
      simp only [hs, hrun, bind, Except.bind, pure, Except.pure, Except.ok.injEq] at h
      exact ⟨settings, rfl, h.symm⟩

theorem ordered_of_ofText {text : String} {given : Record} {staging : Staging}
    (h : ofText text given = .ok staging) : staging.scenario.Ordered := by
  obtain ⟨settings, -, rfl⟩ := exists_run_of_ofText h
  exact Compiler.run_ordered text settings

end Staging
end Playscript
