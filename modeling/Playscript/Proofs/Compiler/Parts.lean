import Playscript.Proofs.Compiler.Entries
import Playscript.Proofs.Compiler.Writes

/-!
# Parts of a script

The blocks of a script are compiled one after another, so a script is compiled in parts, each from
the position and the draft that the part before it leaves. A part that starts with an act head does
not look at the position: all that it takes over is the draft.
-/
namespace Playscript

namespace Script

def Opens (blocks : List Block) : Prop := ∀ block ∈ blocks.head?, isActHead block.head = true

instance (blocks : List Block) : Decidable (Opens blocks) :=
  inferInstanceAs (Decidable (∀ block ∈ blocks.head?, isActHead block.head = true))

/-- An act head with the blocks after it, none of which opens another act. -/
structure Section where
  opening : Block
  messages : List Block
  opens : isActHead opening.head = true
  within : ∀ block ∈ messages, isActHead block.head = false

namespace Section

def blocks (part : Section) : List Block := part.opening :: part.messages

def act (part : Section) (settings : Record) : String :=
  actName part.opening.head (Settings.defaultAct settings)

theorem opens_append (part : Section) (rest : List Block) : Opens (part.blocks ++ rest) := by
  intro block hblock
  cases hblock
  exact part.opens

theorem opens_blocks (part : Section) : Opens part.blocks := by
  have hopens := part.opens_append []
  rwa [List.append_nil] at hopens

end Section

end Script

namespace Compiler

open Script (Block Section Opens)

def draftAfter (settings : Record) (blocks : List Block) : Draft :=
  match (steps (.first settings) blocks).run (.start .empty settings) with
  | .ok _ draft => draft
  | .error _ draft => draft

variable {settings : Record} {text text' : String} {d t : Draft}

/-! ## Scripts as lists of blocks -/

theorem compile_of_run (h : run text settings = (.ok (), d)) :
    compile text settings = (.ok d.scenario, d.settings) := by
  rw [compile, h]
  rfl

theorem compile_of_error {fault : Fault}
    (h : (steps (.first settings) (Script.blocks text.toList)).run (.start .empty settings) =
      .error fault d) : compile text settings = (.error fault, d.settings) := by
  rw [Position.first] at h
  simp only [compile, run, h]
  rfl

theorem compile_congr
    (h : (steps (.first settings) (Script.blocks text.toList)).run (.start .empty settings) =
      (steps (.first settings) (Script.blocks text'.toList)).run (.start .empty settings)) :
    compile text settings = compile text' settings := by
  rw [Position.first] at h
  simp only [compile, run, h]

/-! ## One part after another -/

theorem steps_append (position : Position) (before part : List Block) :
    steps position (before ++ part) = before.foldlM step position >>= (steps · part) := by
  induction before generalizing position with
  | nil => simp only [List.nil_append, List.foldlM_nil, pure_bind]
  | cons block rest ih => simp only [List.cons_append, steps, List.foldlM_cons, bind_assoc, ih]

theorem steps_eq (position : Position) (blocks : List Block) :
    steps position blocks = (do let _ ← blocks.foldlM step position) := by
  have happend := steps_append position blocks []
  rwa [List.append_nil] at happend

theorem foldlM_writes (position : Position) (blocks : List Block) :
    WritesOnly (fun _ => True) (blocks.foldlM step position) := by
  induction blocks generalizing position with
  | nil => exact writesOnly_pure _
  | cons block rest ih =>
    rw [List.foldlM_cons]
    exact (step_writes (fun _ _ => trivial) trivial block).bind ih

theorem step_of_isActHead {block : Block} (h : Script.isActHead block.head = true)
    (position other : Position) : step position block = step other block := by
  simp only [step, h, if_true]

theorem steps_of_opens {part : List Block} (h : Opens part) (position other : Position) :
    steps position part = steps other part := by
  cases part with
  | nil => rfl
  | cons block rest => rw [steps, step_of_isActHead (h block rfl) position other, steps]

theorem steps_append_of_opens {part : List Block} (h : Opens part) (position other : Position)
    (before : List Block) :
    steps position (before ++ part) = (do steps position before; steps other part) := by
  rw [steps_append, steps_eq position before, bind_assoc]
  refine bind_congr fun next => ?_
  rw [pure_bind, steps_of_opens h]

theorem draftAfter_of_run {before : List Block}
    (h : (steps (.first settings) before).run (.start .empty settings) = .ok () d) :
    draftAfter settings before = d := by
  rw [draftAfter, h]

theorem foldlM_of_steps_append {before part : List Block}
    (h : (steps (.first settings) (before ++ part)).run (.start .empty settings) = .ok () t) :
    ∃ position, (before.foldlM step (.first settings)).run (.start .empty settings) =
        .ok position (draftAfter settings before) ∧
      (steps position part).run (draftAfter settings before) = .ok () t := by
  rw [steps_append] at h
  obtain ⟨position, d, hbefore, hpart⟩ := run_bind_eq_ok.1 h
  have hsteps : (steps (.first settings) before).run (.start .empty settings) = .ok () d := by
    rw [steps_eq, run_bind_ok hbefore]
    rfl
  rw [draftAfter_of_run hsteps]
  exact ⟨position, hbefore, hpart⟩

end Compiler

end Playscript
