import Playscript.Proofs.Compiler.Spoken
import Playscript.Proofs.Staging.Building

/-!
# One message, staged

A script of one message under the default settings is staged as its entry. What is built of it is
its role and what its content stands for, under the default names.
-/
namespace Playscript

open Script (Line Block Piece Placeholder)
open Compiler (Spoken scenarioOf)

namespace Staging

def ofEntry (head : Line) (body : List Line) : Staging where
  scenario := scenarioOf Settings.defaults ⟨"default", head, body⟩
  settings := Settings.defaults
  sentinel := "???"

variable {text : String} {block : Block} {head : Line} {body : List Line} {context : Record}

theorem ofText_of_spoken (hblocks : Script.blocks text.toList = [block])
    (h : Spoken Settings.defaults block)
    (hlegible : ∀ p ∈ Placeholder.ofContent (Compiler.joinLines Settings.defaults block.body),
      ∀ s ∈ p.scalars, ¬ Numeral.Oversized s) :
    ofText text [] = .ok (ofEntry block.head block.body) :=
  (ofText_eq_ok rfl).2 ⟨_, Compiler.run_of_spoken hblocks h rfl hlegible, rfl⟩

theorem format_ofEntry (head : Line) (body : List Line) :
    (ofEntry head body).format = ⟨"role", "content", ['#'], false⟩ := by
  -- The names do not hang on what the acts say.
  have hnames : (ofEntry [] []).format.roleKey = "role" ∧
      (ofEntry [] []).format.contentKey = "content" ∧
      (ofEntry [] []).format.comment = ['#'] ∧ (ofEntry [] []).format.fillRoles = false := by
    decide
  obtain ⟨hrole, hcontent, hcomment, hroles⟩ := hnames
  calc (ofEntry head body).format = (ofEntry [] []).format := rfl
    _ = ⟨"role", "content", ['#'], false⟩ := by rw [← hrole, ← hcontent, ← hcomment, ← hroles]

theorem actOrDefault_ofEntry (head : Line) (body : List Line) :
    (ofEntry head body).actOrDefault none = "default" := by
  have hdefault : (ofEntry [] []).actOrDefault none = "default" := rfl
  exact hdefault

theorem act?_ofEntry (head : Line) (body : List Line) :
    (ofEntry head body).scenario.act? "default" =
      some (Act.say Settings.defaults .empty ⟨"default", head, body⟩) := by
  simp only [Scenario.act?, ofEntry, scenarioOf, Table.get?_cons, if_true]

theorem message_ofEntry (head : Line) (body : List Line) :
    Entry.message Settings.defaults ⟨"default", head, body⟩ = [
      ("role", .ofChars (Script.roleName head)),
      ("content", .ofChars (Piece.sources
        ((Piece.scan (Compiler.joinLines Settings.defaults body)).map Piece.bare)))] := by
  have hkeys : Settings.roleKey Settings.defaults = "role" ∧
      Settings.contentKey Settings.defaults = "content" := ⟨rfl, rfl⟩
  rw [Entry.message, hkeys.1, hkeys.2]
  rfl

theorem build_ofEntry {content : List Char} (hrole : ¬ ['#'] <+: Script.roleName head)
    (hcontent : (ofEntry head body).replace (.dict context)
      (Act.say Settings.defaults .empty ⟨"default", head, body⟩).placeholders
      (Piece.sources ((Piece.scan (Compiler.joinLines Settings.defaults body)).map Piece.bare)) =
        .ok content) :
    (ofEntry head body).build (.dict context) none =
      .ok [[("role", .ofChars (Script.roleName head)), ("content", .ofChars content)]] := by
  have hmessages : (Act.say Settings.defaults .empty ⟨"default", head, body⟩).messages =
      [Entry.message Settings.defaults ⟨"default", head, body⟩] := by
    rw [Act.say, Act.messages_register]
    rfl
  have hhidden : ¬ (['#'] ≠ [] ∧ ['#'].isPrefixOf (Script.roleName head) = true) := fun h =>
    hrole (List.isPrefixOf_iff_prefix.1 h.2)
  have hmessage : (ofEntry head body).buildMessage ⟨"role", "content", ['#'], false⟩
      (.dict context) (Act.say Settings.defaults .empty ⟨"default", head, body⟩).placeholders
      (Entry.message Settings.defaults ⟨"default", head, body⟩) =
      .ok (some [("role", .ofChars (Script.roleName head)), ("content", .ofChars content)]) := by
    have hrole : readText (Entry.message Settings.defaults ⟨"default", head, body⟩) "role" =
        .ok (Script.roleName head) := by
      rw [message_ofEntry]
      exact congrArg Except.ok String.toList_ofList
    have htext : readText (Entry.message Settings.defaults ⟨"default", head, body⟩) "content" =
        .ok (Piece.sources ((Piece.scan (Compiler.joinLines Settings.defaults body)).map
          Piece.bare)) := by
      rw [message_ofEntry]
      exact congrArg Except.ok String.toList_ofList
    refine bind_eq_ok.2 ⟨_, hrole, ?_⟩
    rw [if_neg hhidden, if_neg Bool.false_ne_true, pure_bind]
    refine bind_eq_ok.2 ⟨_, htext, bind_eq_ok.2 ⟨content, hcontent, ?_⟩⟩
    rw [message_ofEntry]
    rfl
  have hact : (ofEntry head body).scenario.act? ((ofEntry head body).actOrDefault none) =
      some (Act.say Settings.defaults .empty ⟨"default", head, body⟩) := by
    rw [actOrDefault_ofEntry, act?_ofEntry]
  rw [build, buildIndexed_of_act? hact, format_ofEntry, hmessages, buildFrom, hmessage]
  rfl

end Staging

end Playscript
