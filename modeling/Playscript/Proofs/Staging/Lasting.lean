import Playscript.Proofs.Snapshot.Finite
import Playscript.Proofs.Staging.Interpretation
import Playscript.Proofs.Staging.LooksAlike
import Playscript.Snapshot.Depth

/-!
# Lasting stagings

A staging lasts if its scenario, staged anew from what a snapshot holds of it, looks as it did. One
that was staged from a scenario of finite values lasts under the settings it was staged with.
-/
namespace Playscript.Staging

open Value (FiniteEntries)

variable {staging : Staging} {P : Value → Prop}

/-! ## What is built -/

theorem fields_of_buildMessage (hP : ∀ text, P (.ofChars text)) {format : Format} {context : Value}
    {defaults message m : Record} (hmessage : ∀ field ∈ message, P field.2)
    (h : staging.buildMessage format context defaults message = .ok (some m)) :
    m ≠ [] ∧ ∀ field ∈ m, P field.2 := by
  have hset : ∀ (message : Record) (key : String) (text : List Char),
      (∀ field ∈ message, P field.2) →
      ∀ field ∈ Table.set message key (.ofChars text), P field.2 := by
    intro message key text hfields field hfield
    rcases Table.mem_set hfield with hfield | rfl
    · exact hfields field hfield
    · exact hP text
  obtain ⟨-, hnone⟩ | ⟨shown, content, -, hshown, -, hm⟩ := buildMessage_eq_ok h
  · cases hnone
  · have hfields : ∀ field ∈ shown, P field.2 := by
      obtain rfl | ⟨role, -, rfl⟩ := hshown
      · exact hmessage
      · exact hset message _ role hmessage
    rw [Option.some.inj hm]
    exact ⟨Table.set_ne_nil _ _ _, hset shown _ content hfields⟩

theorem fields_of_buildIndexed (hP : ∀ text, P (.ofChars text))
    (hmessages : ∀ entry ∈ staging.scenario.acts, ∀ message ∈ entry.2.messages,
      ∀ field ∈ message, P field.2)
    {context : Value} {act : Option String} {built : List (Nat × Record)}
    (h : staging.buildIndexed context act = .ok built) :
    ∀ entry ∈ built, entry.2 ≠ [] ∧ ∀ field ∈ entry.2, P field.2 := by
  rintro ⟨i, m⟩ him
  rw [buildIndexed] at h
  split at h
  · cases h
    cases him
  · next found hfound =>
    obtain ⟨message, -, hmessage, hm⟩ := getElem?_of_mem_buildFrom h him
    have hfields := hmessages _ (Table.mem_of_get? hfound) message (List.mem_of_getElem? hmessage)
    exact fields_of_buildMessage hP hfields hm

/-! ## Staging anew -/

structure Lasting (settings : Record) (staging : Staging) : Prop where
  finite : ∀ entry ∈ staging.scenario.acts, ∀ message ∈ entry.2.messages, FiniteEntries message
  ordered : staging.scenario.Ordered
  again : DataModel.holds staging.scenario.values = true →
    ∃ other, ofScenario staging.scenario.stored settings = .ok other ∧ staging.LooksAlike other

theorem Lasting.finite_built {settings : Record} (h : Lasting settings staging) {context : Value}
    {act : Option String} {built : List (Nat × Record)}
    (hbuilt : staging.buildIndexed context act = .ok built) :
    ∀ entry ∈ built, FiniteEntries entry.2 := by
  intro entry hentry
  have hfields := fields_of_buildIndexed Value.finite_ofChars (fun entry he message hm field hf =>
    Value.finiteEntries_iff.1 (h.finite entry he message hm) field hf) hbuilt entry hentry
  exact Value.finiteEntries_iff.2 hfields.2

theorem looksAlike_refl (staging : Staging) : staging.LooksAlike staging :=
  ⟨rfl, rfl, fun _ => rfl, fun _ _ _ => rfl, fun _ _ _ => rfl⟩

theorem lasting_of_ofScenario {settings : Record} {scenario : Scenario}
    (hfinite : scenario.Finite) (hordered : scenario.Ordered)
    (h : ofScenario scenario settings = .ok staging) : Lasting settings staging := by
  obtain rfl := scenario_of_ofScenario h
  refine ⟨fun entry he => (hfinite.acts entry he).messages, hordered, fun _ => ⟨staging, ?_, ?_⟩⟩
  · rw [Scenario.stored_eq_self hfinite]
    exact h
  · exact looksAlike_refl staging

end Playscript.Staging
