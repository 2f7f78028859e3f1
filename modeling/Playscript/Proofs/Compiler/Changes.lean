import Playscript.Proofs.Compiler.Events
import Playscript.Proofs.Draft
import Playscript.Proofs.Path

/-!
# What directives change

A directive that is carried out makes one change: of the settings of the language, of those of the
scenario, or of those of an act. The settings of the language are the given ones with the changes so
far, and the record of the changes is made by the same writes, as long as no directive writes into
it by another way.
-/
namespace Playscript

/-! ## Changes of the settings of the language -/

def Event.change? : Event → Option (Path × Value)
  | .directive _ (.setting key value) =>
    (Coercion.restore value).toOption.map fun v => (Path.ofChars key, v)
  | _ => none

def changes (past : List Event) : List (Path × Value) := past.filterMap Event.change?

theorem changes_append (past more : List Event) :
    changes (past ++ more) = changes past ++ changes more := List.filterMap_append

theorem changes_setting {value : List Char} {v : Value} (h : Coercion.restore value = .ok v)
    (scope : Scope) (key : List Char) :
    changes [.directive scope (.setting key value)] = [(Path.ofChars key, v)] := by
  simp only [changes, List.filterMap_cons, Event.change?, h, Except.toOption, Option.map_some,
    List.filterMap_nil]

theorem mem_changes {past : List Event} {write : Path × Value} (h : write ∈ changes past) :
    write.2.Writable ∧ ∃ e ∈ past, e.changed? = some write.1 := by
  obtain ⟨e, he, hchange⟩ := List.mem_filterMap.1 h
  cases e with
  | message told => cases hchange
  | directive scope directive =>
    cases directive with
    | setting key value =>
      obtain ⟨v, hv, rfl⟩ := Option.map_eq_some_iff.1 hchange
      cases hrestore : Coercion.restore value with
      | error fault => rw [hrestore] at hv; cases hv
      | ok stored =>
        rw [hrestore] at hv
        cases hv
        exact ⟨Coercion.writable_restore hrestore, _, he, rfl⟩
    | _ => cases hchange

namespace Compiler

open Directive (effect_of_perform)

variable {settings : Record} {source : List Script.Line} {past : List Event} {d t : Draft}

theorem changed_of_effect {scope : Scope} {directive : Directive} (hshared : d.shared = [])
    (h : directive.Effect scope d t) :
    let writes := changes [.directive scope directive]
    t.settings = Path.setAll d.settings writes ∧ t.written = d.written ++ writes ∧
      t.shared = [] := by
  cases directive with
  | setting key value =>
    obtain ⟨v, hv, rfl⟩ := h
    rw [Draft.override_eq hshared _ (Coercion.writable_restore hv), changes_setting hv]
    exact ⟨rfl, rfl, hshared⟩
  | use key value =>
    obtain ⟨-, rfl⟩ | ⟨first, rest, v, -, -, -, rfl⟩ := h
    · exact ⟨rfl, (List.append_nil _).symm, hshared⟩
    · rw [Draft.setConfig_eq hshared]
      exact ⟨rfl, (List.append_nil _).symm, hshared⟩
  | assign key value =>
    obtain ⟨v, -, rfl⟩ := h
    exact ⟨rfl, (List.append_nil _).symm, hshared⟩
  | flag key =>
    obtain rfl : t = _ := h
    exact ⟨rfl, (List.append_nil _).symm, hshared⟩
  | ignored =>
    obtain rfl : t = _ := h
    exact ⟨rfl, (List.append_nil _).symm, hshared⟩

theorem Trace.changed (h : Trace settings source past d) :
    d.settings = Path.setAll settings (changes past) ∧ d.written = changes past ∧
      d.shared = [] := by
  induction h with
  | start => exact ⟨rfl, rfl, rfl⟩
  | register h act description ih => exact ih
  | directive h hline hmarks hread hrun ih =>
    obtain ⟨hsettings, hwritten, hshared⟩ := ih
    have heffect := changed_of_effect hshared (effect_of_perform hrun)
    rw [changes_append, Path.setAll_append, ← hsettings, ← hwritten]
    exact heffect
  | message h told hknown hwritten hbefore hearlier hhead hcomment ih =>
    rw [changes_append]
    exact (List.append_nil (changes _)).symm ▸ ih

/-- Events among which no directive writes in the settings of the language. -/
def Quiet (past : List Event) : Prop := ∀ e ∈ past, e.changed? = none

theorem Quiet.changes_eq (h : Quiet past) : changes past = [] := by
  refine List.filterMap_eq_nil_iff.2 fun e he => ?_
  have hquiet := h e he
  cases e with
  | message told => rfl
  | directive scope directive =>
    cases directive with
    | setting key value => cases hquiet
    | _ => rfl

theorem Quiet.append_iff {more : List Event} :
    Quiet (past ++ more) ↔ Quiet past ∧ Quiet more := List.forall_mem_append

theorem Trace.settings_of_quiet (h : Trace settings source past d) (hquiet : Quiet past) :
    d.settings = settings := by
  rw [h.changed.1, hquiet.changes_eq]
  rfl

/-! ## The record of the changes -/

def recordChange (recorded : Record) : Path × Value → Record
  | ([], v) => v.entries
  | (path, v) => Path.set recorded path v

theorem recordChange_eq (recorded : Record) {path : Path} (hpath : path ≠ []) (v : Value) :
    recordChange recorded (path, v) = Path.set recorded path v := by
  cases path with
  | nil => exact (hpath rfl).elim
  | cons first rest => rfl

theorem get?_recorded {writes : List (Path × Value)} {key : String}
    (h : ∀ write ∈ writes, write.1.head? ≠ some key ∧ write.2.Writable) {recorded : Record}
    (hnone : Table.get? recorded key = none) :
    Table.get? (writes.foldl recordChange recorded) key = none := by
  induction writes generalizing recorded with
  | nil => exact hnone
  | cons write rest ih =>
    obtain ⟨⟨hwrite, hv⟩, hrest⟩ := List.forall_mem_cons.1 h
    obtain ⟨path, v⟩ := write
    refine ih hrest ?_
    cases path with
    | nil =>
      change Table.get? v.entries key = none
      rw [hv.entries]
      rfl
    | cons first rest => exact (Path.get?_set_of_head hwrite recorded v).trans hnone

theorem overrides_storeConfig (path : Path) (v : Value) :
    (d.storeConfig (Draft.overridesKey :: path) v).scenario.overrides =
      recordChange d.scenario.overrides (path, v) := by
  have hget : Table.get? (d.storeConfig (Draft.overridesKey :: path) v).scenario.config
      Draft.overridesKey =
        some (Path.placed (Table.get? d.scenario.config Draft.overridesKey) path v) := by
    rw [Draft.storeConfig, Path.get?_set_cons, if_pos rfl]
  change ((Table.get? _ Draft.overridesKey).map Value.entries).getD [] = _
  rw [hget]
  cases path with
  | nil => rfl
  | cons key rest => rfl

theorem overrides_of_get? {s s' : Scenario}
    (h : Table.get? s'.config Draft.overridesKey = Table.get? s.config Draft.overridesKey) :
    s'.overrides = s.overrides := by
  change ((Table.get? s'.config Draft.overridesKey).map Value.entries).getD [] = _
  rw [h]
  rfl

def Open (past : List Event) : Prop :=
  ∀ e ∈ past, ∀ path ∈ e.configured?, path.head? ≠ some Draft.overridesKey

theorem overrides_of_effect {scope : Scope} {directive : Directive} (hshared : d.shared = [])
    (hopen : Open [.directive scope directive]) (h : directive.Effect scope d t) :
    t.scenario.overrides =
      (changes [.directive scope directive]).foldl recordChange d.scenario.overrides := by
  have hconfigure : ∀ key v, (d.configure scope key v).scenario.overrides =
      d.scenario.overrides := by
    intro key v
    refine overrides_of_get? ?_
    rw [Draft.configure, Scenario.config_modifyAct, Scenario.get?_config_ensureAct]
    decide
  cases directive with
  | setting key value =>
    obtain ⟨v, hv, rfl⟩ := h
    rw [Draft.override_eq hshared _ (Coercion.writable_restore hv), changes_setting hv]
    exact overrides_storeConfig _ v
  | use key value =>
    obtain ⟨-, rfl⟩ | ⟨first, rest, v, hpath, -, -, rfl⟩ := h
    · rfl
    · have hfirst : first ≠ Draft.overridesKey := by
        intro heq
        have hne := hopen _ List.mem_cons_self _ rfl
        rw [hpath, heq] at hne
        exact hne rfl
      rw [Draft.setConfig_eq hshared]
      refine overrides_of_get? ?_
      rw [Draft.storeConfig, Path.get?_set_cons, if_neg hfirst]
  | assign key value =>
    obtain ⟨v, -, rfl⟩ := h
    exact hconfigure key v
  | flag key =>
    obtain rfl : t = _ := h
    exact hconfigure key _
  | ignored =>
    obtain rfl : t = _ := h
    rfl

theorem Trace.overrides_eq (h : Trace settings source past d) (hopen : Open past) :
    d.scenario.overrides = (changes past).foldl recordChange [] := by
  induction h with
  | start => rfl
  | register h act description ih =>
    rw [← ih hopen]
    exact overrides_of_get? (Scenario.get?_config_ensureAct _ _ _ (by decide))
  | directive h hline hmarks hread hrun ih =>
    obtain ⟨hpast, hlast⟩ := List.forall_mem_append.1 hopen
    rw [changes_append, List.foldl_append, ← ih hpast]
    exact overrides_of_effect h.changed.2.2 hlast (effect_of_perform hrun)
  | message h told hknown hwritten hbefore hearlier hhead hcomment ih =>
    obtain ⟨hpast, -⟩ := List.forall_mem_append.1 hopen
    rw [changes_append, List.foldl_append, ← ih hpast]
    exact overrides_of_get? (by rw [Scenario.config_modifyAct])

end Compiler
end Playscript
