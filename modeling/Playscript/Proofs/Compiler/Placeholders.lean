import Playscript.Compiler
import Playscript.Proofs.Directive
import Playscript.Proofs.Script.Pieces

/-!
# Storing a content

A content is stored piece by piece. What is left of it has bare names in place of its placeholders,
and the act has registered them in order.
-/
namespace Playscript

open Script (Piece Placeholder)

def Script.Placeholder.ofContent (content : List Char) : List Placeholder :=
  (Piece.scan content).filterMap ofPiece?

def Script.Placeholder.written (p : Placeholder) : Except Fault Value :=
  match p.default? with
  | some text => Coercion.scalar text.toList
  | none => .ok .null

def Act.register (act : Act) (placeholders : List Placeholder) : Act :=
  placeholders.foldl
    (fun act p => act.storePlaceholder p.name (p.written.toOption.getD .null)) act

theorem Act.spoken_register (act : Act) (placeholders : List Placeholder) :
    (act.register placeholders).spoken = act.spoken.register placeholders := by
  induction placeholders generalizing act with
  | nil => rfl
  | cons p rest ih => exact ih (act.storePlaceholder p.name (p.written.toOption.getD .null))

namespace Compiler

variable {act : String} {piece : Piece} {rest : List Piece}

theorem storePieces_of_none (h : Placeholder.ofPiece? piece = none) :
    storePieces act (piece :: rest) = do return piece.bare.source ++ (← storePieces act rest) := by
  cases piece with
  | char c => rfl
  | token inside =>
    have hinside : Placeholder.ofInside? inside = none := h
    have hbare : Piece.bare (.token inside) = .token inside := by
      simp only [Piece.bare, Piece.mapInside, Placeholder.bareInside, hinside]
    rw [storePieces, hinside, hbare]

theorem storePieces_of_some {p : Placeholder} (h : Placeholder.ofPiece? piece = some p) :
    storePieces act (piece :: rest) = do
      let value ← ofExcept p.written
      modify fun draft => { draft with
        scenario := draft.scenario.modifyAct act (·.storePlaceholder p.name value) }
      return piece.bare.source ++ (← storePieces act rest) := by
  cases piece with
  | char c => cases h
  | token inside =>
    have hinside : Placeholder.ofInside? inside = some p := h
    have hbare : Piece.bare (.token inside) = .token p.name.toList := by
      simp only [Piece.bare, Piece.mapInside, Placeholder.bareInside, hinside]
    rw [storePieces, hinside, hbare, Placeholder.written]
    dsimp only
    cases p.default? with
    | none => rfl
    | some text => rfl

theorem storePieces_induction {P : Drafting (List Char) → Prop}
    (hpure : P (pure []))
    (hsource : ∀ x (f : List Char → List Char), P x → P (do return f (← x)))
    (hstore : ∀ x name (default : Except Fault Value), P x → P (do
      let value ← ofExcept default
      modify fun draft => { draft with
        scenario := draft.scenario.modifyAct act (·.storePlaceholder name value) }
      x)) (pieces : List Piece) : P (storePieces act pieces) := by
  induction pieces with
  | nil => exact hpure
  | cons piece rest ih =>
    have hrest := hsource _ (piece.bare.source ++ ·) ih
    cases hpiece : Placeholder.ofPiece? piece with
    | none =>
      rw [storePieces_of_none hpiece]
      exact hrest
    | some p =>
      rw [storePieces_of_some hpiece]
      exact hstore _ _ _ hrest

theorem storePieces_ok {pieces : List Piece} {d t : Draft} {content : List Char}
    (h : (storePieces act pieces).run d = .ok content t) :
    content = Piece.sources (pieces.map Piece.bare) ∧
      (∀ p ∈ pieces.filterMap Placeholder.ofPiece?, ∃ v, p.written = .ok v) ∧
      t = { d with scenario :=
        d.scenario.modifyAct act (·.register (pieces.filterMap Placeholder.ofPiece?)) } := by
  induction pieces generalizing d content with
  | nil =>
    cases h
    refine ⟨rfl, fun _ hmem => (nomatch hmem), ?_⟩
    have hid := t.scenario.modifyAct_id act
    exact congrArg (fun scenario => { t with scenario := scenario }) hid.symm
  | cons piece rest ih =>
    cases hpiece : Placeholder.ofPiece? piece with
    | none =>
      rw [storePieces_of_none hpiece] at h
      obtain ⟨tail, u, htail, h⟩ := run_bind_eq_ok.1 h
      obtain ⟨rfl, rfl⟩ := run_pure_eq_ok.1 h
      obtain ⟨rfl, hrest⟩ := ih htail
      rw [List.filterMap_cons_none hpiece]
      exact ⟨rfl, hrest⟩
    | some p =>
      rw [storePieces_of_some hpiece] at h
      obtain ⟨value, u, hread, hstore⟩ := run_bind_eq_ok.1 h
      obtain ⟨hvalue, rfl⟩ := run_ofExcept_eq_ok.1 hread
      obtain ⟨_, v, hmodify, hstore⟩ := run_bind_eq_ok.1 hstore
      cases hmodify
      obtain ⟨tail, w, htail, hpure⟩ := run_bind_eq_ok.1 hstore
      obtain ⟨rfl, rfl⟩ := run_pure_eq_ok.1 hpure
      obtain ⟨rfl, hrest, rfl⟩ := ih htail
      have hregister : (fun a : Act => a.register (p :: rest.filterMap Placeholder.ofPiece?)) =
          (fun a => a.register (rest.filterMap Placeholder.ofPiece?)) ∘
            (fun a => a.storePlaceholder p.name value) := by
        funext a
        simp only [Act.register, List.foldl_cons, hvalue, Except.toOption, Option.getD_some,
          Function.comp_apply]
      rw [List.filterMap_cons_some hpiece]
      refine ⟨rfl, List.forall_mem_cons.2 ⟨⟨value, hvalue⟩, hrest⟩, ?_⟩
      rw [hregister, ← Scenario.modifyAct_modifyAct]

end Compiler

end Playscript
