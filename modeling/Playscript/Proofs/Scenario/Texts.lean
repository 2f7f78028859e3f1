import Playscript.Proofs.Draft
import Playscript.Proofs.Scenario.Order

/-!
# Names and texts of compiled scenarios

No act of a compiled scenario is without a name, and its messages are made of texts. The settings of
the acts and the defaults of the placeholders may be any values.
-/
namespace Playscript

def Act.Textual (act : Act) : Prop :=
  ∀ message ∈ act.messages, ∀ field ∈ message, ∃ s, field.2 = .str s

theorem Act.textual_empty : Act.empty.Textual := fun _ h => absurd h List.not_mem_nil

theorem Act.Textual.of_messages {act act' : Act} (h : act.Textual)
    (hmessages : act'.messages = act.messages) : act'.Textual := by
  rw [Act.Textual]
  rwa [hmessages]

theorem Act.Textual.describe {act : Act} (h : act.Textual) (description : Option String) :
    (act.describe description).Textual := by
  unfold Act.describe
  split
  · exact h
  · split_ifs
    · exact h.of_messages rfl
    · exact h

def Scenario.Textual (s : Scenario) : Prop :=
  ∀ entry ∈ s.acts, entry.1 ≠ "" ∧ entry.2.Textual

namespace Scenario

theorem textual_empty : Scenario.empty.Textual := fun _ h => absurd h List.not_mem_nil

theorem Textual.of_acts {s t : Scenario} (h : s.Textual) (hacts : t.acts = s.acts) :
    t.Textual := by
  rw [Textual]
  rwa [hacts]

theorem Textual.set {s : Scenario} (h : s.Textual) {name : String} (hname : name ≠ "") {act : Act}
    (hact : act.Textual) (config : Record) : Textual ⟨Table.set s.acts name act, config⟩ := by
  intro entry hentry
  rcases Table.mem_set hentry with hentry | rfl
  · exact h entry hentry
  · exact ⟨hname, hact⟩

theorem Textual.act {s : Scenario} (h : s.Textual) {name : String} {act : Act}
    (hact : s.act? name = some act) : name ≠ "" ∧ act.Textual :=
  h _ (Table.mem_of_get? hact)

theorem Textual.ensureAct {s : Scenario} (h : s.Textual) {name : String} (hname : name ≠ "")
    (description : Option String) : (s.ensureAct name description).Textual := by
  rw [Scenario.ensureAct]
  split
  · next act hact => exact h.set hname ((h.act hact).2.describe _) _
  · exact h.set hname (Act.textual_empty.describe _) _

theorem Textual.modifyAct {s : Scenario} (h : s.Textual) (name : String) {change : Act → Act}
    (hchange : ∀ act, act.Textual → (change act).Textual) : (s.modifyAct name change).Textual := by
  rw [Scenario.modifyAct]
  split
  · next act hact => exact h.set (h.act hact).1 (hchange _ (h.act hact).2) _
  · exact h

end Scenario

namespace Draft

theorem Write.textual {a b : Draft} (h : Write (· ≠ "") a b) (ha : a.scenario.Textual) :
    b.scenario.Textual := by
  cases h with
  | setting path value => exact ha.of_acts (acts_override _ _ _)
  | scenario first rest value => exact ha.of_acts (acts_setConfig _ _ _)
  | register act description hact => exact ha.ensureAct hact description
  | config act path value => exact ha.modifyAct act fun _ h => h.of_messages rfl
  | placeholder act name default => exact ha.modifyAct act fun _ h => h.of_messages rfl
  | message act message hmessage =>
    apply ha.modifyAct act
    intro _ h
    exact List.forall_mem_append.2 ⟨h, List.forall_mem_singleton.2 hmessage⟩

end Draft

theorem Compiler.run_textual (text : String) (settings : Record) :
    (Compiler.run text settings).2.scenario.Textual :=
  (Compiler.run_writes text settings).keeps (fun _ _ h => h.textual) Scenario.textual_empty

theorem Staging.textual_of_ofText {text : String} {given : Record} {staging : Staging}
    (h : ofText text given = .ok staging) : staging.scenario.Textual := by
  obtain ⟨settings, -, rfl⟩ := exists_run_of_ofText h
  exact Compiler.run_textual text settings

end Playscript
