import Playscript.Proofs.Coercion.Oversized
import Playscript.Proofs.Compiler.Events
import Playscript.Proofs.Directive.Reading
import Playscript.Parser

/-!
# The scalars of a script

Compiling coerces the values of directives and the defaults of placeholders, and nothing else in it
can fail. Which texts are values hangs on the settings in force, so they are listed along the drafts
that compiling goes through: a script compiles unless one of its scalars is oversized.
-/
namespace Playscript

open Script (Line Block Piece Placeholder)
open Numeral (Oversized)

def Directive.scalars : Directive → List (List Char)
  | .setting _ value | .assign _ value => Coercion.parts value
  | .use key value =>
    match Path.ofChars key with
    | [] => []
    | first :: _ => if first = "order" then [] else Coercion.parts value
  | .flag _ | .ignored => []

def Script.Placeholder.scalars (p : Placeholder) : List (List Char) :=
  (p.default?.map String.toList).toList

namespace Compiler

open Directive (marks)

/-! ## Scalars of blocks -/

def Reading.scalars (settings : Record) (reading : Reading) : List (List Char) :=
  (reading.told? settings).toList.flatMap fun told =>
    (Placeholder.ofContent told.content).flatMap Placeholder.scalars

/-- The computation fails if and only if one of the scalars is oversized, and for that reason. -/
def Reads {α : Type} (x : Drafting α) (d : Draft) (scalars : List (List Char)) : Prop :=
  Ensures x d (fun _ _ => ∀ s ∈ scalars, ¬ Oversized s)
    (fun fault _ => fault = .oversizedNumber ∧ ∃ s ∈ scalars, Oversized s)

variable {α β : Type} {x : Drafting α} {f : α → Drafting β} {d : Draft}
variable {xs ys : List (List Char)}

theorem reads_pure (a : α) (d : Draft) : Reads (pure a) d [] := fun _ hs => nomatch hs

theorem reads_modify (change : Draft → Draft) (d : Draft) : Reads (modify change) d [] :=
  fun _ hs => nomatch hs

theorem Reads.bind (hx : Reads x d xs) (hf : ∀ a t, x.run d = .ok a t → Reads (f a) t ys) :
    Reads (x >>= f) d (xs ++ ys) := by
  rw [Reads, ensures_bind]
  cases hrun : x.run d with
  | error fault t =>
    obtain ⟨hfault, s, hs, hoversized⟩ := hx.of_error hrun
    rw [Ensures, hrun]
    exact ⟨hfault, s, List.mem_append_left _ hs, hoversized⟩
  | ok a t =>
    have hfirst := hx.of_ok hrun
    rw [Ensures, hrun]
    refine (hf a t hrun).mono (fun b u hall => ?_) fun fault u hfails => ?_
    · exact fun s hs => (List.mem_append.1 hs).elim (hfirst s) (hall s)
    · obtain ⟨hfault, s, hs, hoversized⟩ := hfails
      exact ⟨hfault, s, List.mem_append_right _ hs, hoversized⟩

theorem Reads.map {g : α → β} (hx : Reads x d xs) : Reads (g <$> x) d xs :=
  ensures_map.2 hx

theorem Reads.bind_nil (hx : Reads x d xs) (hf : ∀ a t, Reads (f a) t []) :
    Reads (x >>= f) d xs := by
  have hbind : Reads (x >>= f) d (xs ++ []) := hx.bind fun a t _ => hf a t
  rwa [List.append_nil] at hbind

theorem reads_modify_bind {change : Draft → Draft} {f : Unit → Drafting β}
    (hf : Reads (f ()) (change d) xs) : Reads (modify change >>= f) d xs :=
  ensures_bind.2 (ensures_modify.2 hf)

theorem reads_ofExcept {y : Except Fault α} (h : ∀ fault, y = .error fault ↔
      fault = .oversizedNumber ∧ ∃ s ∈ xs, Oversized s) (d : Draft) :
    Reads (ofExcept y) d xs := by
  refine ensures_ofExcept.2 ⟨fun a ha s hs hoversized => ?_, fun fault => (h fault).1⟩
  have herror := (h _).2 ⟨rfl, s, hs, hoversized⟩
  cases ha.symm.trans herror

/-! ## What each step reads -/

theorem reads_stored (value : List Char) (d : Draft) :
    Reads (ofExcept (Directive.stored (.ofChars value))) d (Coercion.parts value) :=
  reads_ofExcept (fun _ => Directive.stored_ofChars value ▸ Coercion.restore_eq_error_iff) d

theorem reads_perform (scope : Scope) (directive : Directive) (d : Draft) :
    Reads (Directive.perform scope directive) d directive.scalars := by
  cases directive with
  | setting key value => exact (reads_stored value d).bind_nil fun _ t => reads_modify _ t
  | use key value =>
    rw [Directive.perform, Directive.writeScenario, Directive.scalars]
    cases Path.ofChars key with
    | nil => exact reads_pure () d
    | cons first rest =>
      dsimp only
      split_ifs
      · exact reads_pure () d
      · exact (reads_stored value d).bind_nil fun _ t => reads_modify _ t
  | assign key value =>
    exact reads_modify_bind ((reads_stored value _).bind_nil fun _ t => reads_modify _ t)
  | flag key => exact reads_modify _ d
  | ignored => exact reads_pure () d

theorem reads_written (p : Placeholder) (d : Draft) : Reads (ofExcept p.written) d p.scalars := by
  rw [Placeholder.written, Placeholder.scalars]
  cases p.default? with
  | none => exact reads_pure Value.null d
  | some text =>
    refine reads_ofExcept (fun fault => ?_) d
    simp only [Coercion.scalar_eq_error_iff, Option.map_some, Option.toList_some,
      List.mem_singleton, exists_eq_left]

theorem reads_storePieces (act : String) (pieces : List Piece) (d : Draft) :
    Reads (storePieces act pieces) d
      ((pieces.filterMap Placeholder.ofPiece?).flatMap Placeholder.scalars) := by
  induction pieces generalizing d with
  | nil => exact reads_pure [] d
  | cons piece rest ih =>
    cases hpiece : Placeholder.ofPiece? piece with
    | none =>
      rw [storePieces_of_none hpiece, List.filterMap_cons_none hpiece]
      exact (ih d).bind_nil fun _ t => reads_pure _ t
    | some p =>
      rw [storePieces_of_some hpiece, List.filterMap_cons_some hpiece, List.flatMap_cons]
      refine (reads_written p d).bind fun value t _ => ?_
      exact reads_modify_bind ((ih _).bind_nil fun _ u => reads_pure _ u)

end Compiler

end Playscript
