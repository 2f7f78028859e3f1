import Mathlib.Logic.Relation
import Mathlib.Tactic.SplitIfs
import Playscript.Proofs.Compiler.Placeholders
import Playscript.Proofs.Table

/-!
# What compiling writes

Whatever a script says, the compiler changes the draft by six kinds of writes only, and a fault
stops it between two of them. The acts it registers have names, and the messages it adds are made of
texts. What every write keeps is kept by the compilation of every script, and by the compilation of
a single block in an act of any name.
-/
namespace Playscript

namespace Draft

inductive Write (named : String → Prop) : Draft → Draft → Prop
  | setting (d : Draft) (path : Path) (value : Value) : Write named d (d.override path value)
  | scenario (d : Draft) (first : String) (rest : Path) (value : Value) (h : first ≠ "order") :
      Write named d (d.setConfig (first :: rest) value)
  | register (d : Draft) (act : String) (description : Option String) (h : named act) :
      Write named d { d with scenario := d.scenario.ensureAct act description }
  | config (d : Draft) (act : String) (path : Path) (value : Value) :
      Write named d { d with
        scenario := d.scenario.modifyAct act fun a =>
          { a with config := Path.set a.config path value } }
  | placeholder (d : Draft) (act name : String) (default : Value) :
      Write named d { d with
        scenario := d.scenario.modifyAct act (·.storePlaceholder name default) }
  | message (d : Draft) (act : String) (message : Record)
      (h : ∀ entry ∈ message, ∃ s, entry.2 = .str s) :
      Write named d { d with
        scenario := d.scenario.modifyAct act fun a =>
          { a with messages := a.messages ++ [message] } }

def Writes (named : String → Prop) : Draft → Draft → Prop := Relation.ReflTransGen (Write named)

variable {named : String → Prop}

theorem Writes.refl (d : Draft) : Writes named d d := Relation.ReflTransGen.refl

theorem Writes.trans {a b c : Draft} (hab : Writes named a b) (hbc : Writes named b c) :
    Writes named a c := Relation.ReflTransGen.trans hab hbc

theorem Write.writes {a b : Draft} (h : Write named a b) : Writes named a b :=
  Relation.ReflTransGen.single h

theorem Writes.keeps {P : Draft → Prop} (hstep : ∀ a b, Write named a b → P a → P b)
    {a b : Draft} (h : Writes named a b) (ha : P a) : P b := by
  induction h with
  | refl => exact ha
  | tail _ hbc ih => exact hstep _ _ hbc ih

end Draft

open Draft (Write Writes)

def WritesOnly {α : Type} (named : String → Prop) (x : Drafting α) : Prop :=
  ∀ d, Keeps (Writes named d) x

variable {named : String → Prop}

section

variable {α β : Type} {x : Drafting α} {f : α → Drafting β}

theorem writesOnly_pure (a : α) : WritesOnly named (pure a : Drafting α) := fun _ => keeps_pure a

theorem writesOnly_get : WritesOnly named (get : Drafting Draft) := fun _ => keeps_get

theorem writesOnly_ofExcept (y : Except Fault α) : WritesOnly named (ofExcept y : Drafting α) :=
  fun _ => keeps_ofExcept y

theorem writesOnly_modify {g : Draft → Draft} (h : ∀ d, Write named d (g d)) :
    WritesOnly named (modify g : Drafting Unit) :=
  fun _ => keeps_modify fun d hd => hd.trans (h d).writes

theorem WritesOnly.bind (hx : WritesOnly named x) (hf : ∀ a, WritesOnly named (f a)) :
    WritesOnly named (x >>= f) := fun d => (hx d).bind fun a => hf a d

end

/-! ## Directives -/

theorem writeSetting_writes (key : List Char) (value : Value) :
    WritesOnly named (Directive.writeSetting key value) :=
  (writesOnly_ofExcept _).bind fun _ => writesOnly_modify fun d => .setting d _ _

theorem writeScenario_writes (key : List Char) (value : Value) :
    WritesOnly named (Directive.writeScenario key value) := by
  rw [Directive.writeScenario]
  split
  · exact writesOnly_pure _
  · split_ifs with h
    · exact writesOnly_pure _
    · exact (writesOnly_ofExcept _).bind fun _ => writesOnly_modify fun d => .scenario d _ _ _ h

theorem writeAct_writes {scope : Scope} (hact : named scope.act) (key : List Char) (value : Value) :
    WritesOnly named (Directive.writeAct scope key value) :=
  (writesOnly_modify fun d => .register d _ _ hact).bind fun _ =>
    (writesOnly_ofExcept _).bind fun _ => writesOnly_modify fun d => .config d _ _ _

theorem perform_writes {scope : Scope} (hact : named scope.act) (directive : Directive) :
    WritesOnly named (Directive.perform scope directive) := by
  cases directive with
  | setting key value => exact writeSetting_writes _ _
  | use key value => exact writeScenario_writes _ _
  | assign key value => exact writeAct_writes hact _ _
  | flag key => exact writeAct_writes hact _ _
  | ignored => exact writesOnly_pure _

theorem store_writes {scope : Scope} (hact : named scope.act) (s : List Char) :
    WritesOnly named (Directive.store scope s) :=
  (writesOnly_ofExcept _).bind fun _ => perform_writes hact _

theorem extract_writes {scope : Scope} (hact : named scope.act) (lines : List Script.Line) :
    WritesOnly named (Directive.extract scope lines) := by
  induction lines with
  | nil => exact writesOnly_pure _
  | cons line rest ih =>
    apply writesOnly_get.bind
    intro d
    dsimp only
    split_ifs
    · exact (store_writes hact _).bind fun _ => ih
    · exact ih.bind fun _ => writesOnly_pure _

/-! ## Names of acts -/

theorem Settings.defaultAct_ne (settings : Record) : Settings.defaultAct settings ≠ "" := by
  rw [Settings.defaultAct, Settings.nameOf]
  split
  · decide
  · next hne =>
    intro h
    rw [← String.toList_inj, String.toList_ofList] at h
    exact hne h

theorem Script.actName_ne (head : Script.Line) {default : String} (h : default ≠ "") :
    Script.actName head default ≠ "" := by
  rw [Script.actName]
  split
  · exact h
  · next hne =>
    intro h
    rw [← String.toList_inj, String.toList_ofList] at h
    exact hne h

/-! ## Blocks -/

namespace Compiler

open Script (Line Block Piece)

theorem extractPreamble_writes (hnamed : ∀ act, act ≠ "" → named act) (lines : List Line) :
    WritesOnly named (extractPreamble lines) := by
  induction lines with
  | nil => exact writesOnly_pure _
  | cons line rest ih =>
    exact writesOnly_get.bind fun _ =>
      (extract_writes (by exact hnamed _ (Settings.defaultAct_ne _)) _).bind fun _ =>
        ih.bind fun _ => writesOnly_pure _

theorem extractLeading_writes {act : String} (hact : named act) (lines : List Line) :
    WritesOnly named (extractLeading act lines) :=
  writesOnly_get.bind fun _ => (extract_writes hact _).bind fun _ => writesOnly_pure _

theorem uncommented_writes (lines : List Line) : WritesOnly named (uncommented lines) :=
  writesOnly_get.bind fun _ => writesOnly_pure _

theorem storeAct_writes {act : String} (hact : named act) (block : Block) :
    WritesOnly named (storeAct act block) :=
  (uncommented_writes _).bind fun _ => (extract_writes hact _).bind fun _ =>
    writesOnly_modify fun d => .register d _ _ hact

theorem storePieces_writes (act : String) (pieces : List Piece) :
    WritesOnly named (storePieces act pieces) :=
  storePieces_induction (writesOnly_pure _) (fun _ _ hx => hx.bind fun _ => writesOnly_pure _)
    (fun _ _ _ hx => (writesOnly_ofExcept _).bind fun _ =>
      (writesOnly_modify fun d => .placeholder d _ _ _).bind fun _ => hx) pieces

theorem storeMessage_writes {act : String} (hact : named act) (block : Block) :
    WritesOnly named (storeMessage act block) := by
  have htexts : ∀ (k l : String) (a b : List Char),
      ∀ entry ∈ Table.ofList [(k, Value.ofChars a), (l, Value.ofChars b)],
        ∃ s, entry.2 = Value.str s := by
    intro k l a b entry hentry
    rcases Table.mem_set hentry with hentry | rfl
    · rcases Table.mem_set hentry with hentry | rfl
      · cases hentry
      · exact ⟨_, rfl⟩
    · exact ⟨_, rfl⟩
  exact (writesOnly_modify fun d => .register d _ _ hact).bind fun _ => writesOnly_get.bind fun _ =>
    (uncommented_writes _).bind fun _ => (extract_writes hact _).bind fun _ =>
      writesOnly_get.bind fun _ => (storePieces_writes _ _).bind fun _ =>
        writesOnly_modify fun d => .message d _ _ (htexts _ _ _ _)

theorem storeRest_writes {act : String} (hact : named act) (lines : List Line) :
    WritesOnly named (storeRest act lines) := by
  rw [storeRest]
  split
  · exact writesOnly_pure _
  · apply writesOnly_get.bind
    intro d
    split_ifs
    · exact writesOnly_pure _
    · exact storeMessage_writes hact _

theorem step_writes (hnamed : ∀ act, act ≠ "" → named act) {position : Position}
    (hact : named position.act) (block : Block) : WritesOnly named (step position block) := by
  have hdefault : ∀ settings, named (Settings.defaultAct settings) := fun settings =>
    hnamed _ (Settings.defaultAct_ne settings)
  apply writesOnly_get.bind
  intro d
  dsimp only
  split_ifs
  · exact (storeAct_writes (hnamed _ (Script.actName_ne _ (Settings.defaultAct_ne _))) _).bind
      fun _ => writesOnly_pure _
  · exact writesOnly_pure _
  · exact writesOnly_pure _
  · exact (extractPreamble_writes hnamed _).bind fun _ => writesOnly_get.bind fun _ =>
      (storeRest_writes (hdefault _) _).bind fun _ => writesOnly_pure _
  · exact (extractLeading_writes hact _).bind fun _ =>
      (storeRest_writes hact _).bind fun _ => writesOnly_pure _

theorem step_act_ne {position : Position} (hact : position.act ≠ "") (block : Block) (d : Draft) :
    Ensures (step position block) d (fun next _ => next.act ≠ "") (fun _ _ => True) := by
  have hname : ∀ settings, Script.actName block.head (Settings.defaultAct settings) ≠ "" :=
    fun _ => Script.actName_ne _ (Settings.defaultAct_ne _)
  simp only [step, ensures_bind, ensures_get]
  split_ifs
  · exact ensures_bind_of (fun _ _ => hname _) fun _ _ => trivial
  · exact hname _
  · exact hact
  · exact ensures_bind_of (fun _ _ => ensures_bind_of (fun _ _ =>
      ensures_bind_of (fun _ _ => Settings.defaultAct_ne _) fun _ _ => trivial)
        fun _ _ => trivial) fun _ _ => trivial
  · exact ensures_bind_of (fun _ _ => ensures_bind_of (fun _ _ => hact) fun _ _ => trivial)
      fun _ _ => trivial

theorem steps_writes {position : Position} (hact : position.act ≠ "") (blocks : List Block) :
    WritesOnly (· ≠ "") (steps position blocks) := by
  induction blocks generalizing position with
  | nil => exact writesOnly_pure _
  | cons block rest ih =>
    intro d e hde
    have hstep := Ensures.and (step_writes (fun _ => id) hact block d e hde)
      (step_act_ne hact block e)
    exact ensures_bind.2 (hstep.mono (fun next t ht => ih ht.2 d t ht.1) fun _ _ ht => ht.1)

theorem run_writes (text : String) (settings : Record) :
    Writes (· ≠ "") (.start .empty settings) (run text settings).2 := by
  have hstart : (Position.mk (Settings.defaultAct settings) true).act ≠ "" :=
    Settings.defaultAct_ne settings
  have h := steps_writes hstart (Script.blocks text.toList) (.start .empty settings) _
    (Writes.refl _)
  simp only [run]
  split
  · next h' => exact h.of_ok h'
  · next h' => exact h.of_error h'

end Compiler

end Playscript
