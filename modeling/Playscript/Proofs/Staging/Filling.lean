import Mathlib.Data.List.Forall2
import Playscript.Proofs.Compiler.Placeholders
import Playscript.Proofs.Path.Leading
import Playscript.Proofs.Scenario.Texts
import Playscript.Proofs.Staging.Building

/-!
# Filling texts

Building fills the texts of a message. Whatever the context is, a placeholder gets a value, and
with it the text and the message, unless its path is blocked or the value has no text: nothing else
stops a building.
-/
namespace Playscript

open Script (Piece Placeholder)

theorem Script.Placeholder.mem_ofContent {content : List Char} {p : Placeholder} :
    p ∈ ofContent content ↔ ∃ inside, .token inside ∈ Piece.scan content ∧
      ofInside? inside = some p := by
  rw [ofContent, List.mem_filterMap]
  refine ⟨?_, fun ⟨inside, hmem, hp⟩ => ⟨_, hmem, hp⟩⟩
  rintro ⟨piece, hmem, hp⟩
  cases piece with
  | char c => cases hp
  | token inside => exact ⟨inside, hmem, hp⟩

def Value.firstGiven (values : List Value) : Value :=
  (values.find? (!·.isNull)).getD .null

namespace Staging

variable {staging : Staging} {context defaults : Record}

/-! ## Placeholders -/

/-- What a placeholder can show where its path leads to no value, the first that is given before
the others: the entry of the context under the whole name if it is dotted, the default of the act,
the default beside the name, the sentinel. -/
def standIns (staging : Staging) (context defaults : Record) (p : Placeholder) : List Value :=
  [((if '.' ∈ p.name.toList then Table.get? context p.name else none)).getD .null,
    (Table.get? defaults p.name).getD .null,
    (p.default?.map Value.str).getD .null,
    .str staging.sentinel]

/-- What a placeholder shows: the value that its path leads to, if it is one, and what stands in
for it if there is none and the path is not blocked. -/
def Shows (staging : Staging) (context defaults : Record) (p : Placeholder) (shown : Value) :
    Prop :=
  (Path.Leads (.dict context) (Path.ofString p.name) shown ∧ ¬ shown.isNull) ∨
  (¬ Path.Blocked (.dict context) (Path.ofString p.name) ∧
    (∀ v, Path.Leads (.dict context) (Path.ofString p.name) v → v.isNull) ∧
    shown = Value.firstGiven (staging.standIns context defaults p))

variable {format : Format} {message : Record}

/-- A record whose values are texts. -/
def Texts (message : Record) : Prop := ∀ field ∈ message, ∃ s, field.2 = .str s

theorem Texts.set (h : Texts message) (key : String) (s : List Char) :
    Texts (Table.set message key (.ofChars s)) := by
  intro field hfield
  obtain hfield | rfl := Table.mem_set hfield
  · exact h field hfield
  · exact ⟨_, rfl⟩

section

variable [Interpreter]

theorem Texts.readText (h : Texts message) (key : String) :
    readText message key = .ok (textAt message key) := by
  have hreads : ¬ Fails (Staging.readText message key) := by
    rw [fails_readText]
    rintro ⟨v, hget, hnone⟩
    obtain ⟨s, hs⟩ := h _ (Table.mem_of_get? hget)
    cases hs
    exact Value.not_noText_str s hnone
  obtain ⟨text, htext⟩ := exists_ok_of_not_fails hreads
  rw [htext, readText_eq_ok htext]

instance (format : Format) : DecidablePred format.Hides :=
  fun _ => inferInstanceAs (Decidable (_ ∧ _))

variable {messages : List Record}

end

end Staging

end Playscript
