import Playscript.Proofs.Compiler.Comments
import Playscript.Proofs.Compiler.Entries
import Playscript.Proofs.Directive.Spellings

/-!
# Scripts of one message

A script of one block that opens no act and has no comment and no directive in it is one message of
the default act. It compiles unless a default in it is oversized.
-/
namespace Playscript

open Script (Line Block Piece Placeholder)

namespace Compiler

open Directive (marks)

variable {settings : Record} {d : Draft}

theorem readInOrder_of_unmarked {lines : List Line} (scope : Draft → Scope)
    (h : ∀ line ∈ lines, marks (Settings.directiveMarker d.settings) line = false) :
    (readInOrder scope lines).run d = .ok lines d := by
  induction lines with
  | nil => rfl
  | cons line rest ih =>
    obtain ⟨hline, hrest⟩ := List.forall_mem_cons.1 h
    rw [readInOrder_cons_of_plain hline, run_map_eq_ok]
    exact ⟨rest, ih hrest, rfl⟩

theorem run_storePieces {act : String} {pieces : List Piece}
    (h : ∀ p ∈ pieces.filterMap Placeholder.ofPiece?, ∀ s ∈ p.scalars, ¬ Numeral.Oversized s) :
    (storePieces act pieces).run d = .ok (Piece.sources (pieces.map Piece.bare)) { d with
      scenario :=
        d.scenario.modifyAct act (·.register (pieces.filterMap Placeholder.ofPiece?)) } := by
  have hreads := reads_storePieces act pieces d
  cases hrun : (storePieces act pieces).run d with
  | error fault t =>
    obtain ⟨-, s, hs, hoversized⟩ := hreads.of_error hrun
    obtain ⟨p, hp, hps⟩ := List.mem_flatMap.1 hs
    exact (h p hp s hps hoversized).elim
  | ok content t =>
    obtain ⟨rfl, -, rfl⟩ := storePieces_ok hrun
    rfl

structure Spoken (settings : Record) (block : Block) : Prop where
  message : Script.isActHead block.head = false
  unmarked : ∀ line ∈ block.lines, marks (Settings.directiveMarker settings) line = false
  uncommented : ∀ line ∈ block.lines, Settings.isComment settings line = false

def scenarioOf (settings : Record) (entry : Entry) : Scenario where
  acts := [(entry.act, Act.say settings .empty entry)]
  config := [("order", .list [.str entry.act])]

theorem scenario_of_entry (settings : Record) (entry : Entry) :
    ((Scenario.empty.ensureAct entry.act none).modifyAct entry.act
        (·.register (Placeholder.ofContent (entry.content settings)))).modifyAct entry.act
      (fun act => { act with messages := act.messages ++ [entry.message settings] }) =
    scenarioOf settings entry := by
  have hregistered : Scenario.empty.ensureAct entry.act none =
      ⟨[(entry.act, .empty)], [("order", .list [.str entry.act])]⟩ := rfl
  have hmodify : ∀ (act : Act) config (change : Act → Act),
      (Scenario.mk [(entry.act, act)] config).modifyAct entry.act change =
        ⟨[(entry.act, change act)], config⟩ := by
    intro act config change
    simp only [Scenario.modifyAct, Scenario.act?, Table.get?_cons, if_true, Table.set]
  rw [hregistered, hmodify, hmodify]
  rfl

variable {block : Block}

theorem run_readBlock_of_spoken (h : Spoken settings block)
    (hact : Settings.isComment settings (Settings.defaultAct settings).toList = false) :
    (readBlock (.first settings) block).run (.start .empty settings) =
      .ok (.first settings, .message (Settings.defaultAct settings) block block.body)
        (.start (Scenario.empty.ensureAct (Settings.defaultAct settings) none) settings) := by
  obtain ⟨head, body⟩ := block
  obtain ⟨hhead, hbody⟩ := List.forall_mem_cons.1 h.uncommented
  obtain ⟨-, hunmarked⟩ := List.forall_mem_cons.1 h.unmarked
  have hmessage : Script.isActHead head = false := h.message
  have hpreamble : (extractPreamble (head :: body)).run (.start .empty settings) =
      .ok (head :: body) (.start .empty settings) := by
    rw [extractPreamble_eq]
    exact readInOrder_of_unmarked _ h.unmarked
  have hfilter : (body.filter fun line =>
      !Settings.isComment (Draft.start .empty settings).settings line) = body :=
    List.filter_eq_self.2 fun line hline => congrArg (!·) (hbody line hline)
  have hrest : (readRest Directive.extract (Settings.defaultAct settings) (head :: body)).run
      (.start .empty settings) = .ok (.message (Settings.defaultAct settings) ⟨head, body⟩ body)
        (.start (Scenario.empty.ensureAct (Settings.defaultAct settings) none) settings) := by
    rw [readRest_message _ _ _ hhead, hfilter, extract_eq, run_map_eq_ok]
    exact ⟨body, readInOrder_of_unmarked _ hunmarked, rfl⟩
  have hcomment : (Settings.isComment (Draft.start .empty settings).settings head ||
      Settings.isComment (Draft.start .empty settings).settings
        (Position.first settings).act.toList) = false :=
    Bool.or_eq_false_iff.2 ⟨hhead, hact⟩
  rw [readBlock, run_get_bind]
  dsimp only
  rw [if_neg (Bool.eq_false_iff.1 hmessage), if_neg (Bool.eq_false_iff.1 hcomment),
    if_pos (show (Position.first settings).preamble = true from rfl)]
  exact (run_bind_ok hpreamble).trans (run_bind_ok hrest)

theorem run_of_spoken {text : String} (hblocks : Script.blocks text.toList = [block])
    (h : Spoken settings block)
    (hact : Settings.isComment settings (Settings.defaultAct settings).toList = false)
    (hlegible : ∀ p ∈ Placeholder.ofContent (joinLines settings block.body), ∀ s ∈ p.scalars,
      ¬ Numeral.Oversized s) :
    run text settings = (.ok (), .start (scenarioOf settings
      ⟨Settings.defaultAct settings, block.head, block.body⟩) settings) := by
  have hstore : (storeReading (.message (Settings.defaultAct settings) block block.body)).run
      (.start (Scenario.empty.ensureAct (Settings.defaultAct settings) none) settings) =
      .ok () (.start (scenarioOf settings
        ⟨Settings.defaultAct settings, block.head, block.body⟩) settings) := by
    rw [storeReading, run_get_bind]
    refine (run_bind_ok (run_storePieces hlegible)).trans ?_
    exact congrArg (fun scenario => EStateM.Result.ok () (Draft.start scenario settings))
      (scenario_of_entry settings ⟨Settings.defaultAct settings, block.head, block.body⟩)
  rw [run_eq_ok, hblocks, steps, step_eq, bind_assoc,
    run_bind_ok (run_readBlock_of_spoken h hact), bind_assoc, run_bind_ok hstore]
  rfl

theorem plainScript_of_spoken {text : String} (hblocks : Script.blocks text.toList = [block])
    (h : Spoken settings block) : PlainScript settings text := by
  intro found hfound line hline hmarked
  rw [hblocks, List.mem_singleton] at hfound
  subst hfound
  rw [h.unmarked line hline] at hmarked
  cases hmarked

theorem entries_of_spoken {text : String} (hblocks : Script.blocks text.toList = [block])
    (h : Spoken settings block)
    (hact : Settings.isComment settings (Settings.defaultAct settings).toList = false) :
    Entry.ofText settings text = [⟨Settings.defaultAct settings, block.head, block.body⟩] := by
  obtain ⟨head, body⟩ := block
  obtain ⟨hhead, hbody⟩ := List.forall_mem_cons.1 h.uncommented
  obtain ⟨hplain, hunmarked⟩ := List.forall_mem_cons.1 h.unmarked
  have hmessage : Script.isActHead head = false := h.message
  have hcomment : (Settings.isComment settings (Settings.defaultAct settings).toList ||
      Settings.isComment settings head) = false := Bool.or_eq_false_iff.2 ⟨hact, hhead⟩
  have hlines : (Block.lines ⟨head, body⟩).dropWhile
      (marks (Settings.directiveMarker settings)) = head :: body :=
    List.dropWhile_cons_of_neg (Bool.eq_false_iff.1 hplain)
  have hfilter : (body.filter fun line =>
      !marks (Settings.directiveMarker settings) line && !Settings.isComment settings line) =
        body :=
    List.filter_eq_self.2 fun line hline => by rw [hunmarked line hline, hbody line hline]; rfl
  rw [Entry.ofText, hblocks, Entry.ofBlocks]
  dsimp only
  rw [if_neg (Bool.eq_false_iff.1 hmessage), Entry.ofBlock?, if_neg (Bool.eq_false_iff.1 hcomment),
    hlines, Entry.ofLines?, if_neg (Bool.eq_false_iff.1 hhead), hfilter]
  rfl

end Compiler

end Playscript
