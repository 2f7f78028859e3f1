import Mathlib.Tactic.SplitIfs
import Playscript.Proofs.Outcome
import Playscript.Compiler

/-!
# Reading the lines of a block in order

A directive may change the marker of the directives after it. Read in order, a line is a directive
if it starts with the marker that all directives before it have left in force, and every other line
is kept. The compiler reads act descriptions and bodies of messages this way. Two of its passes
differ: in front of a role the directives are looked up by the marker that was in force before the
first of them, and the lines kept before the first act head are read a second time.
-/
namespace Playscript.Compiler

open Script (Line Block)
open Directive (marks)

/-! ## The two readings of a block -/

/-- What is left of a block. A message keeps its lines from the role on as they are written, and the
lines of its content. -/
inductive Reading where
  | comment
  | directives
  | act (name : String) (lines : List Line)
  | message (act : String) (written : Block) (lines : List Line)

def readInOrder (scope : Draft → Scope) : List Line → Drafting (List Line)
  | [] => pure []
  | line :: rest => do
    let draft ← get
    let marker := Settings.directiveMarker draft.settings
    if marks marker line then
      Directive.store (scope draft) ((Text.trimLeft line).drop marker.length)
      readInOrder scope rest
    else return line :: (← readInOrder scope rest)

def readFront (act : String) : List Line → Drafting (List Line)
  | [] => pure []
  | line :: rest => do
    let settings := (← get).settings
    let marker := Settings.directiveMarker settings
    if marks marker line then
      Directive.store ⟨act, none⟩ ((Text.trimLeft line).drop marker.length)
      readFront act rest
    else if Settings.isComment settings line then readFront act rest
    else return line :: rest

def readAct (act : String) (block : Block) : Drafting Reading := do
  return .act act (← Directive.extract ⟨act, none⟩ (← uncommented block.body))

def openMessage (act : String) : Drafting Scope := do
  modify fun draft => { draft with scenario := draft.scenario.ensureAct act none }
  let index := (((← get).scenario.act? act).map (·.messages.length)).getD 0
  return ⟨act, some index⟩

def readRest (body : Scope → List Line → Drafting (List Line)) (act : String)
    (lines : List Line) : Drafting Reading := do
  match Block.ofLines? lines with
  | none => return .directives
  | some block =>
    if Settings.isComment (← get).settings block.head then return .comment
    else
      let scope ← openMessage act
      return .message act block (← body scope (← uncommented block.body))

def readBlock (position : Position) (block : Block) : Drafting (Position × Reading) := do
  let settings := (← get).settings
  if Script.isActHead block.head then
    let act := Script.actName block.head (Settings.defaultAct settings)
    if Settings.isComment settings act.toList then return (⟨act, false⟩, .comment)
    else return (⟨act, false⟩, ← readAct act block)
  else if Settings.isComment settings block.head || Settings.isComment settings position.act.toList
  then return (position, .comment)
  else if position.preamble then
    let lines ← extractPreamble block.lines
    let act := Settings.defaultAct (← get).settings
    return (⟨act, true⟩, ← readRest Directive.extract act lines)
  else
    let lines ← extractLeading position.act block.lines
    return (position, ← readRest Directive.extract position.act lines)

def readBlockInOrder (position : Position) (block : Block) : Drafting (Position × Reading) := do
  let settings := (← get).settings
  if Script.isActHead block.head then
    let act := Script.actName block.head (Settings.defaultAct settings)
    if Settings.isComment settings act.toList then return (⟨act, false⟩, .comment)
    else
      let lines ← readInOrder (fun _ => ⟨act, none⟩) (← uncommented block.body)
      return (⟨act, false⟩, .act act lines)
  else if Settings.isComment settings block.head || Settings.isComment settings position.act.toList
  then return (position, .comment)
  else if position.preamble then
    let lines ← readInOrder (fun draft => ⟨Settings.defaultAct draft.settings, none⟩) block.lines
    let act := Settings.defaultAct (← get).settings
    return (⟨act, true⟩, ← readRest (fun _ => pure) act lines)
  else
    let lines ← readFront position.act block.lines
    let body := fun scope => readInOrder fun _ => scope
    return (position, ← readRest body position.act lines)

def storeReading : Reading → Drafting Unit
  | .comment => pure ()
  | .directives => pure ()
  | .act name lines => do
    let description := String.ofList (Text.trim (['\n'].intercalate lines))
    modify fun draft => { draft with
      scenario := draft.scenario.ensureAct name (if description = "" then none else description) }
  | .message act written lines => do
    let settings := (← get).settings
    let content ← storePieces act (Script.Piece.scan (joinLines settings lines))
    let message : Record := Table.ofList [
      (Settings.roleKey settings, .ofChars (Script.roleName written.head)),
      (Settings.contentKey settings, .ofChars content)]
    modify fun draft => { draft with
      scenario := draft.scenario.modifyAct act fun a =>
        { a with messages := a.messages ++ [message] } }

theorem storeMessage_eq (act : String) (block : Block) :
    storeMessage act block = (do
      let scope ← openMessage act
      let lines ← Directive.extract scope (← uncommented block.body)
      storeReading (.message act block lines)) := by
  simp only [storeMessage, openMessage, storeReading, bind_assoc, pure_bind]

theorem storeRest_eq (act : String) (lines : List Line) :
    storeRest act lines = readRest Directive.extract act lines >>= storeReading := by
  cases lines with
  | nil => rfl
  | cons head body =>
    simp only [storeRest, readRest, Block.ofLines?, bind_assoc]
    apply bind_congr
    intro draft
    split_ifs
    · simp only [pure_bind, storeReading]
    · simp only [storeMessage_eq, bind_assoc, pure_bind]

theorem step_eq (position : Position) (block : Block) :
    step position block = (do
      let result ← readBlock position block
      storeReading result.2
      return result.1) := by
  rw [step, readBlock]
  rw [bind_assoc]
  apply bind_congr
  intro draft
  dsimp only
  split_ifs with hact hname hcomment hpreamble
  · simp_all
  · simp only [storeAct, readAct, bind_assoc, pure_bind, storeReading]
  · simp only [pure_bind, storeReading]
  · simp_all
  · simp only [pure_bind, storeReading]
  · simp only [storeRest_eq, bind_assoc, pure_bind]
  · simp only [storeRest_eq, bind_assoc, pure_bind]

/-! ## Passes that read in order -/

theorem extract_eq (scope : Scope) (lines : List Line) :
    Directive.extract scope lines = readInOrder (fun _ => scope) lines := by
  induction lines with
  | nil => rfl
  | cons line rest ih => simp only [Directive.extract, readInOrder, ih]

theorem get_bind_get {α : Type} (f : Draft → Draft → Drafting α) :
    (get >>= fun d => get >>= f d) = get >>= fun d => f d d := rfl

theorem extractPreamble_eq (lines : List Line) :
    extractPreamble lines =
      readInOrder (fun draft => ⟨Settings.defaultAct draft.settings, none⟩) lines := by
  induction lines with
  | nil => rfl
  | cons line rest ih =>
    simp only [extractPreamble, readInOrder, Directive.extract, bind_assoc, get_bind_get, ih]
    apply bind_congr
    intro draft
    split_ifs
    · simp only [bind_assoc, pure_bind, List.nil_append, bind_pure]
    · simp only [pure_bind, List.singleton_append]

/-! ## Where the passes agree -/

/-- The marker is settled over the lines in front of a role: each line that starts with the old
marker starts with the one in force too or is a comment, and the line after them does not. -/
def FrontSettled (act : String) (old : List Char) : List Line → Draft → Prop
  | [], _ => True
  | line :: rest, draft =>
    let marker := Settings.directiveMarker draft.settings
    if marks old line then
      if marks marker line then
        match (Directive.store ⟨act, none⟩ ((Text.trimLeft line).drop marker.length)).run draft with
        | .ok _ draft => FrontSettled act old rest draft
        | .error _ _ => True
      else Settings.isComment draft.settings line = true ∧ FrontSettled act old rest draft
    else marks marker line = false

/-- The marker is settled over kept lines: none of them after the first, comments apart, starts with
the one in force. -/
def KeptSettled (lines : List Line) (draft : Draft) : Prop :=
  ∀ line ∈ lines.tail, Settings.isComment draft.settings line = false →
    marks (Settings.directiveMarker draft.settings) line = false

theorem readInOrder_length (scope : Draft → Scope) (lines : List Line) (d : Draft) :
    Ensures (readInOrder scope lines) d (fun kept _ => kept.length ≤ lines.length)
      (fun _ _ => True) := by
  induction lines generalizing d with
  | nil => exact Nat.le_refl _
  | cons line rest ih =>
    simp only [readInOrder, ensures_bind, ensures_get]
    split_ifs
    · exact ensures_bind_of (fun _ t => (ih t).mono (fun _ _ h => Nat.le_succ_of_le h)
        fun _ _ => id) fun _ _ => trivial
    · exact ensures_bind.2 ((ih d).mono (fun _ _ h => Nat.succ_le_succ h) fun _ _ => id)

theorem readFront_length (act : String) (lines : List Line) (d : Draft) :
    Ensures (readFront act lines) d (fun kept _ => kept.length ≤ lines.length)
      (fun _ _ => True) := by
  induction lines generalizing d with
  | nil => exact Nat.le_refl _
  | cons line rest ih =>
    have hrest : ∀ t, Ensures (readFront act rest) t
        (fun kept _ => kept.length ≤ (line :: rest).length) (fun _ _ => True) := fun t =>
      (ih t).mono (fun _ _ h => Nat.le_succ_of_le h) fun _ _ => id
    simp only [readFront, ensures_bind, ensures_get]
    split_ifs
    · exact ensures_bind_of (fun _ t => hrest t) fun _ _ => trivial
    · exact hrest d
    · exact Nat.le_refl _

theorem readInOrder_all_iff (scope : Draft → Scope) (lines : List Line) (d d' : Draft) :
    (readInOrder scope lines).run d = .ok lines d' ↔
      (∀ line ∈ lines, marks (Settings.directiveMarker d.settings) line = false) ∧ d' = d := by
  induction lines with
  | nil =>
    simp only [readInOrder, List.not_mem_nil, false_imp_iff, implies_true, true_and]
    exact ⟨fun h => by cases h; rfl, fun h => by rw [h]; rfl⟩
  | cons line rest ih =>
    simp only [readInOrder, run_get_bind, List.forall_mem_cons]
    cases hmarks : marks (Settings.directiveMarker d.settings) line with
    | true =>
      simp only [if_true, Bool.true_eq_false, false_and, iff_false]
      intro h
      have hshort := (ensures_bind_of (fun _ t => readInOrder_length scope rest t)
        fun _ _ => trivial).of_ok h
      exact absurd hshort (Nat.not_succ_le_self _)
    | false =>
      simp only [Bool.false_eq_true, if_false, true_and, ← ih]
      cases hrest : (readInOrder scope rest).run d with
      | error fault t =>
        rw [run_bind_error hrest]
        exact iff_of_false (fun h => nomatch h) fun h => nomatch h
      | ok kept t =>
        rw [run_bind_ok hrest]
        simp [pure, EStateM.pure, EStateM.run]

theorem extractLeading_ok {act : String} {lines kept : List Line} {d d' : Draft}
    (h : (extractLeading act lines).run d = .ok kept d') :
    let old := Settings.directiveMarker d.settings
    kept = lines.dropWhile (marks old) ∧ ∃ dropped,
      (readInOrder (fun _ => ⟨act, none⟩) (lines.takeWhile (marks old))).run d =
        .ok dropped d' := by
  intro old
  simp only [extractLeading, run_get_bind, extract_eq] at h
  cases hread : (readInOrder (fun _ => ⟨act, none⟩) (lines.takeWhile (marks old))).run d with
  | error fault t =>
    rw [run_bind_error hread] at h
    cases h
  | ok dropped t =>
    rw [run_bind_ok hread] at h
    cases h
    exact ⟨rfl, dropped, rfl⟩

theorem readFront_self_iff {act : String} {line : Line} {rest : List Line} {d t : Draft}
    (hcomment : Settings.isComment d.settings line = false) :
    (readFront act (line :: rest)).run d = .ok (line :: rest) t ↔
      marks (Settings.directiveMarker d.settings) line = false ∧ d = t := by
  simp only [readFront, run_get_bind]
  cases hmarks : marks (Settings.directiveMarker d.settings) line with
  | true =>
    refine iff_of_false (fun heq => ?_) fun h => nomatch h.1
    have hshort := (ensures_bind_of (fun _ t => readFront_length act rest t)
      fun _ _ => trivial).of_ok heq
    exact absurd hshort (Nat.not_succ_le_self _)
  | false =>
    simp only [Bool.false_eq_true, if_false, hcomment, true_and]
    exact run_pure_eq_ok.trans (and_iff_right rfl)

theorem readFront_iff {act : String} {old : List Char} {lines dropped : List Line} {d d' t : Draft}
    (h : (readInOrder (fun _ => ⟨act, none⟩) (lines.takeWhile (marks old))).run d =
      .ok dropped d')
    (hhead : ∀ head ∈ (lines.dropWhile (marks old)).head?,
      Settings.isComment d'.settings head = false) :
    (readFront act lines).run d = .ok (lines.dropWhile (marks old)) t ↔
      FrontSettled act old lines d ∧ d' = t := by
  induction lines generalizing d dropped with
  | nil =>
    cases h
    exact ⟨fun heq => ⟨trivial, by cases heq; rfl⟩, fun heq => by rw [heq.2]; rfl⟩
  | cons line rest ih =>
    rw [FrontSettled]
    cases hold : marks old line with
    | true =>
      simp only [List.takeWhile_cons, List.dropWhile_cons, hold, if_true] at h hhead ⊢
      simp only [readInOrder, run_get_bind] at h
      simp only [readFront, run_get_bind]
      cases hmarks : marks (Settings.directiveMarker d.settings) line with
      | true =>
        simp only [hmarks, if_true] at h ⊢
        cases hstore : (Directive.store ⟨act, none⟩ ((Text.trimLeft line).drop
            (Settings.directiveMarker d.settings).length)).run d with
        | error fault u =>
          rw [run_bind_error hstore] at h
          cases h
        | ok _ u =>
          rw [run_bind_ok hstore] at h ⊢
          exact ih h hhead
      | false =>
        simp only [hmarks, Bool.false_eq_true, if_false] at h ⊢
        cases hread : (readInOrder (fun _ => ⟨act, none⟩) (rest.takeWhile (marks old))).run d with
        | error fault u =>
          rw [run_bind_error hread] at h
          cases h
        | ok kept u =>
          rw [run_bind_ok hread] at h
          cases h
          cases hcomment : Settings.isComment d.settings line with
          | true =>
            simp only [if_true, true_and]
            exact ih hread hhead
          | false =>
            -- The line is kept in order but was dropped by the look-ahead.
            refine iff_of_false (fun heq => ?_) fun hsettled => nomatch hsettled.1.1
            have hlength := congrArg List.length (EStateM.Result.ok.inj heq).1
            have hle := (rest.dropWhile_sublist (marks old)).length_le
            rw [← hlength] at hle
            exact absurd hle (Nat.not_succ_le_self _)
    | false =>
      simp only [List.takeWhile_cons, List.dropWhile_cons, hold, Bool.false_eq_true, if_false]
        at h hhead ⊢
      obtain rfl : d = d' := by cases h; rfl
      exact readFront_self_iff (hhead line rfl)

/-! ## Blocks -/

def BlockSettled (position : Position) (block : Block) (draft : Draft) : Prop :=
  if Script.isActHead block.head then True
  else if position.preamble then
    ∀ lines after, (extractPreamble block.lines).run draft = .ok lines after →
      KeptSettled lines after
  else FrontSettled position.act (Settings.directiveMarker draft.settings) block.lines draft

def nextMessage (act : String) (d : Draft) : Scope :=
  let index := (((d.scenario.ensureAct act none).act? act).map (·.messages.length)).getD 0
  ⟨act, some index⟩

theorem readRest_message (body : Scope → List Line → Drafting (List Line)) (act : String)
    {head : Line} (rest : List Line) {d : Draft}
    (hcomment : Settings.isComment d.settings head = false) :
    (readRest body act (head :: rest)).run d =
      (Reading.message act ⟨head, rest⟩ <$>
        body (nextMessage act d) (rest.filter fun line => !Settings.isComment d.settings line)).run
          { d with scenario := d.scenario.ensureAct act none } := by
  simp only [readRest, Block.ofLines?, run_get_bind, hcomment, Bool.false_eq_true, if_false]
  rfl

theorem readRest_ok {body : Scope → List Line → Drafting (List Line)} {act : String}
    {lines : List Line} {d d' : Draft} {reading : Reading}
    (h : (readRest body act lines).run d = .ok reading d') (hne : reading ≠ .comment) :
    (∀ head ∈ lines.head?, Settings.isComment d.settings head = false) ∧
      (reading = .directives ∧ lines = [] ∨
        ∃ written kept, reading = .message act written kept ∧ lines = written.lines) := by
  cases lines with
  | nil =>
    cases h
    exact ⟨fun _ hmem => (nomatch hmem), Or.inl ⟨rfl, rfl⟩⟩
  | cons head rest =>
    cases hcomment : Settings.isComment d.settings head with
    | true =>
      simp only [readRest, Block.ofLines?, run_get_bind, hcomment, if_true] at h
      cases h
      exact (hne rfl).elim
    | false =>
      rw [readRest_message _ _ _ hcomment, run_map_eq_ok] at h
      obtain ⟨kept, -, rfl⟩ := h
      exact ⟨fun line hline => Option.some.inj hline ▸ hcomment, Or.inr ⟨_, kept, rfl, rfl⟩⟩

theorem readRest_lines {body body' : Scope → List Line → Drafting (List Line)} {act act' : String}
    {lines lines' : List Line} {d d' t t' : Draft} {reading : Reading}
    (h : (readRest body act lines).run d = .ok reading t)
    (h' : (readRest body' act' lines').run d' = .ok reading t') (hne : reading ≠ .comment) :
    lines = lines' := by
  obtain ⟨-, ⟨rfl, rfl⟩ | ⟨written, kept, rfl, rfl⟩⟩ := readRest_ok h hne
  · obtain ⟨-, ⟨-, rfl⟩ | ⟨_, _, heq, -⟩⟩ := readRest_ok h' hne
    · rfl
    · cases heq
  · obtain ⟨-, ⟨heq, -⟩ | ⟨_, _, heq, rfl⟩⟩ := readRest_ok h' hne
    · cases heq
    · cases heq
      rfl

theorem readRest_kept_iff {act : String} {lines : List Line} {d d' : Draft} {reading : Reading}
    (h : (readRest Directive.extract act lines).run d = .ok reading d')
    (hne : reading ≠ .comment) :
    (readRest (fun _ => pure) act lines).run d = .ok reading d' ↔ KeptSettled lines d := by
  cases lines with
  | nil => exact iff_of_true h fun _ hmem => nomatch hmem
  | cons head rest =>
    have hcomment := (readRest_ok h hne).1 head rfl
    rw [readRest_message _ _ _ hcomment, run_map_eq_ok] at h ⊢
    obtain ⟨kept, hkept, rfl⟩ := h
    rw [extract_eq] at hkept
    have hsettled : KeptSettled (head :: rest) d ↔
        ∀ line ∈ rest.filter fun line => !Settings.isComment d.settings line,
          marks (Settings.directiveMarker d.settings) line = false := by
      simp only [KeptSettled, List.tail_cons, List.mem_filter, Bool.not_eq_true', and_imp]
    rw [hsettled]
    constructor
    · rintro ⟨_, hpure, heq⟩
      obtain ⟨rfl, rfl⟩ := run_pure_eq_ok.1 hpure
      cases heq
      exact ((readInOrder_all_iff _ _ _ _).1 hkept).1
    · intro hall
      have hsame := (readInOrder_all_iff (fun _ => nextMessage act d) _
        { d with scenario := d.scenario.ensureAct act none } _).2 ⟨hall, rfl⟩
      cases hkept.symm.trans hsame
      exact ⟨_, run_pure_eq_ok.2 ⟨rfl, rfl⟩, rfl⟩

/-- The lines of a block are read in order unless the block stops the compiler or is dropped as a
comment. -/
def InOrder (position : Position) (block : Block) (draft : Draft) : Prop :=
  ∀ result after, (readBlock position block).run draft = .ok result after → result.2 ≠ .comment →
    (readBlockInOrder position block).run draft = .ok result after

/-- The marker is settled over a block unless the block stops the compiler or is dropped as a
comment. -/
def Settled (position : Position) (block : Block) (draft : Draft) : Prop :=
  ∀ result after, (readBlock position block).run draft = .ok result after → result.2 ≠ .comment →
    BlockSettled position block draft

theorem run_pair_eq_ok {x : Drafting Reading} {position : Position} {reading : Reading}
    {d d' : Draft} :
    (x >>= fun reading => pure (position, reading)).run d = .ok (position, reading) d' ↔
      x.run d = .ok reading d' := by
  simp only [run_bind_eq_ok, run_pure_eq_ok, Prod.mk.injEq, true_and]
  exact ⟨fun ⟨_, _, h, hr, ht⟩ => hr ▸ ht ▸ h, fun h => ⟨_, _, h, rfl, rfl⟩⟩

theorem readBlockInOrder_iff {position : Position} {block : Block} {d d' : Draft}
    {result : Position × Reading} (h : (readBlock position block).run d = .ok result d')
    (hne : result.2 ≠ .comment) :
    (readBlockInOrder position block).run d = .ok result d' ↔ BlockSettled position block d := by
  simp only [readBlock, readBlockInOrder, run_get_bind, BlockSettled] at h ⊢
  by_cases hact : Script.isActHead block.head
  · simp only [hact, if_true, iff_true] at h ⊢
    simpa only [readAct, extract_eq, bind_assoc, pure_bind] using h
  simp only [hact, Bool.false_eq_true, if_false] at h ⊢
  by_cases hcomment : Settings.isComment d.settings block.head ||
      Settings.isComment d.settings position.act.toList
  · rw [if_pos hcomment] at h
    cases h
    exact (hne rfl).elim
  rw [if_neg hcomment] at h ⊢
  by_cases hpreamble : position.preamble
  · rw [if_pos hpreamble] at h ⊢
    obtain ⟨kept, t, hkept, h⟩ := run_bind_eq_ok.1 h
    rw [run_get_bind] at h
    obtain ⟨reading, u, hrest, h⟩ := run_bind_eq_ok.1 h
    obtain ⟨rfl, rfl⟩ := run_pure_eq_ok.1 h
    rw [← extractPreamble_eq, run_bind_ok hkept, run_get_bind, run_pair_eq_ok,
      readRest_kept_iff hrest hne, if_pos hpreamble]
    exact ⟨fun hs lines after heq => by cases hkept.symm.trans heq; exact hs,
      fun hs => hs kept t hkept⟩
  · rw [if_neg hpreamble] at h ⊢
    obtain ⟨kept, t, hkept, h⟩ := run_bind_eq_ok.1 h
    obtain ⟨reading, u, hrest, h⟩ := run_bind_eq_ok.1 h
    obtain ⟨rfl, rfl⟩ := run_pure_eq_ok.1 h
    obtain ⟨rfl, dropped, hdropped⟩ := extractLeading_ok hkept
    have hfront := fun t => readFront_iff (t := t) hdropped (readRest_ok hrest hne).1
    have hbodies : (fun scope => readInOrder fun _ => scope) = Directive.extract :=
      funext fun scope => funext fun lines => (extract_eq scope lines).symm
    rw [if_neg hpreamble, hbodies]
    constructor
    · intro heq
      obtain ⟨front, v, hread, heq⟩ := run_bind_eq_ok.1 heq
      have heq := run_pair_eq_ok.1 heq
      obtain rfl := readRest_lines heq hrest hne
      exact ((hfront v).1 hread).1
    · intro hsettled
      rw [run_bind_ok ((hfront t).2 ⟨hsettled, rfl⟩)]
      exact run_pair_eq_ok.2 hrest

theorem inOrder_iff (position : Position) (block : Block) (draft : Draft) :
    InOrder position block draft ↔ Settled position block draft :=
  ⟨fun h result after hread hne => (readBlockInOrder_iff hread hne).1 (h result after hread hne),
    fun h result after hread hne => (readBlockInOrder_iff hread hne).2 (h result after hread hne)⟩

/-! ## Scripts -/

def Along (P : Position → Block → Draft → Prop) : Position → List Block → Draft → Prop
  | _, [], _ => True
  | position, block :: rest, draft =>
    P position block draft ∧
      match (step position block).run draft with
      | .ok position draft => Along P position rest draft
      | .error _ _ => True

theorem Along.of_forall {P : Position → Block → Draft → Prop} (h : ∀ p b d, P p b d)
    (position : Position) (blocks : List Block) (draft : Draft) :
    Along P position blocks draft := by
  induction blocks generalizing position draft with
  | nil => trivial
  | cons block rest ih =>
    refine ⟨h _ _ _, ?_⟩
    split
    · exact ih _ _
    · trivial

def Throughout (text : String) (settings : Record)
    (P : Position → Block → Draft → Prop) : Prop :=
  Along P ⟨Settings.defaultAct settings, true⟩ (Script.blocks text.toList) (.start .empty settings)

/-- At every block of every script: its lines are read in order if and only if the marker is settled
over it. -/
theorem inOrder_iff_settled (text : String) (settings : Record) :
    Throughout text settings fun position block draft =>
      (InOrder position block draft ↔ Settled position block draft) :=
  Along.of_forall inOrder_iff _ _ _

end Playscript.Compiler
