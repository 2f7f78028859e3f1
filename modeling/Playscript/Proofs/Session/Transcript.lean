import Mathlib.Data.List.Forall2
import Playscript.Proofs.Session.Hooks
import Playscript.Session.Command

/-!
# Reading transcripts

A line feed in a content is printed with a tab after it, so a blank line stands between two blocks
of a transcript and nowhere else. The role of a block is its first line, if roles have no line
feeds. So two histories are printed alike only if the same is said in them.
-/
namespace Playscript.Session

/-! ## Blocks -/

theorem indent_newline (s : List Char) : indent ('\n' :: s) = '\n' :: '\t' :: indent s := rfl

theorem indent_cons {c : Char} (hc : c ≠ '\n') (s : List Char) :
    indent (c :: s) = c :: indent s := by
  rw [indent, List.flatMap_cons, if_neg hc]
  rfl

def block (line : String × String) : List Char :=
  line.1.toList ++ ':' :: '\n' :: '\t' :: indent line.2.toList

def Follows (rest : List Char) : Prop :=
  rest = [] ∨ ∃ more, rest = '\n' :: '\n' :: more

variable {x y : List Char}

theorem Follows.ne_indent (hx : Follows x) (c : Char) (s : List Char) :
    x ≠ indent (c :: s) ++ y := by
  rintro rfl
  by_cases hc : c = '\n'
  · subst hc
    obtain h | ⟨more, h⟩ := hx <;> simp [indent_newline] at h
  · obtain h | ⟨more, h⟩ := hx <;> simp [indent_cons hc, hc] at h

theorem indent_append_inj {a b : List Char} (hx : Follows x) (hy : Follows y)
    (h : indent a ++ x = indent b ++ y) : a = b ∧ x = y := by
  induction a generalizing b with
  | nil =>
    cases b with
    | nil => exact ⟨rfl, h⟩
    | cons d b => exact (hx.ne_indent d b h).elim
  | cons c a ih =>
    cases b with
    | nil => exact (hy.ne_indent c a h.symm).elim
    | cons d b =>
      by_cases hc : c = '\n' <;> by_cases hd : d = '\n'
      · subst hc hd
        simp only [indent_newline, List.cons_append, List.cons.injEq, true_and] at h
        exact (ih h).imp_left (congrArg _)
      · subst hc
        simp only [indent_newline, indent_cons hd, List.cons_append, List.cons.injEq] at h
        exact (hd h.1.symm).elim
      · subst hd
        simp only [indent_newline, indent_cons hc, List.cons_append, List.cons.injEq] at h
        exact (hc h.1).elim
      · simp only [indent_cons hc, indent_cons hd, List.cons_append, List.cons.injEq] at h
        obtain ⟨rfl, h⟩ := h
        exact (ih h).imp_left (congrArg _)

theorem first_line_inj {a b : List Char} (ha : '\n' ∉ a) (hb : '\n' ∉ b)
    (h : a ++ '\n' :: x = b ++ '\n' :: y) : a = b ∧ x = y := by
  induction a generalizing b with
  | nil =>
    cases b with
    | nil => exact ⟨rfl, (List.cons.inj h).2⟩
    | cons d b => exact (hb (List.mem_cons.2 (Or.inl (List.cons.inj h).1))).elim
  | cons c a ih =>
    obtain ⟨hc, ha⟩ := not_or.1 (mt List.mem_cons.2 ha)
    cases b with
    | nil => exact (hc (List.cons.inj h).1.symm).elim
    | cons d b =>
      obtain ⟨rfl, hrest⟩ := List.cons.inj h
      exact (ih ha (not_or.1 (mt List.mem_cons.2 hb)).2 hrest).imp_left (congrArg _)

theorem block_append_inj {line line' : String × String} (hline : '\n' ∉ line.1.toList)
    (hline' : '\n' ∉ line'.1.toList) (hx : Follows x) (hy : Follows y)
    (h : block line ++ x = block line' ++ y) : line = line' ∧ x = y := by
  have hhead : ∀ {role : String}, '\n' ∉ role.toList → '\n' ∉ role.toList ++ [':'] := by
    intro role hrole
    simpa using hrole
  have hlines : (line.1.toList ++ [':']) ++ '\n' :: '\t' :: (indent line.2.toList ++ x) =
      (line'.1.toList ++ [':']) ++ '\n' :: '\t' :: (indent line'.2.toList ++ y) := by
    simpa [block] using h
  obtain ⟨hrole, hcontent⟩ := first_line_inj (hhead hline) (hhead hline') hlines
  obtain ⟨hcontent, hrest⟩ := indent_append_inj hx hy (List.cons.inj hcontent).2
  exact ⟨Prod.ext (String.toList_injective (List.append_cancel_right hrole))
    (String.toList_injective hcontent), hrest⟩

/-! ## Transcripts -/

def transcript (told : List (String × String)) : List Char :=
  ['\n', '\n'].intercalate (told.map block)

def following : List (String × String) → List Char
  | [] => []
  | line :: rest => '\n' :: '\n' :: transcript (line :: rest)

theorem transcript_cons (line : String × String) (rest : List (String × String)) :
    transcript (line :: rest) = block line ++ following rest := by
  cases rest with
  | nil => simp [transcript, following]
  | cons next rest => simp [transcript, following, List.intercalate_cons_cons]

theorem follows_following (rest : List (String × String)) : Follows (following rest) := by
  cases rest with
  | nil => exact Or.inl rfl
  | cons next rest => exact Or.inr ⟨_, rfl⟩

theorem transcript_injective {a b : List (String × String)}
    (ha : ∀ line ∈ a, '\n' ∉ line.1.toList) (hb : ∀ line ∈ b, '\n' ∉ line.1.toList)
    (h : transcript a = transcript b) : a = b := by
  have hne : ∀ line rest, transcript (line :: rest) ≠ [] := by
    intro line rest
    simp [transcript_cons, block]
  induction a generalizing b with
  | nil =>
    cases b with
    | nil => rfl
    | cons line rest => exact (hne line rest h.symm).elim
  | cons line a ih =>
    cases b with
    | nil => exact (hne line a h).elim
    | cons line' b =>
      obtain ⟨hline, hlines⟩ := List.forall_mem_cons.1 ha
      obtain ⟨hline', hlines'⟩ := List.forall_mem_cons.1 hb
      rw [transcript_cons, transcript_cons] at h
      obtain ⟨rfl, hrest⟩ :=
        block_append_inj hline hline' (follows_following a) (follows_following b) h
      have hsame : transcript a = transcript b := by
        cases a with
        | nil => cases b with
          | nil => rfl
          | cons next b => cases hrest
        | cons next a => cases b with
          | nil => cases hrest
          | cons next' b => exact (List.cons.inj (List.cons.inj hrest).2).2
      rw [ih hlines hlines' hsame]

/-! ## Printing -/

inductive Skips : Value → List String → Prop
  | one (role : String) : Skips (.str role) [role]
  | several (roles : List String) : Skips (.list (roles.map .str)) roles

def Says (staging : Staging) (message : Value) (line : String × String) : Prop :=
  ∃ entries, message = .dict entries ∧
    Table.get? entries staging.roleKey = some (.str line.1) ∧
    Table.get? entries staging.contentKey = some (.str line.2)

structure Tells (s : Session) (told : List (String × String)) : Prop where
  hookless : s.config.hooksAt .beforePrintHistory = .ok []
  said : ∃ staging progress messages, s.current? = some (staging, progress) ∧
    progress.history = .list messages ∧ List.Forall₂ (Says staging) messages told
  oneLine : ∀ line ∈ told, '\n' ∉ line.1.toList

variable {skipped : Value} {roles : List String}

theorem Skips.isSkipped (h : Skips skipped roles) (role : String) :
    isSkipped skipped (.str role) = .ok (decide (role ∈ roles)) := by
  have hequal : ∀ name : String, Value.equal (.str role) (.str name) = decide (role = name) :=
    fun _ => rfl
  cases h with
  | one name => simp [Session.isSkipped, hequal]
  | several =>
    simp only [Session.isSkipped, List.any_map, Function.comp_def, hequal]
    congr 1
    apply Bool.eq_iff_iff.2
    simp

theorem printMessage_eq {staging : Staging} {message : Value} {line : String × String}
    (hsaid : Says staging message line) (hskips : Skips skipped roles) :
    printMessage staging.roleKey staging.contentKey skipped message =
      .ok (if line.1 ∈ roles then none else some (block line)) := by
  obtain ⟨entries, rfl, hrole, hcontent⟩ := hsaid
  simp only [printMessage, hrole, Option.getD_some, hskips.isSkipped, Staging.textAt, hcontent]
  by_cases hmem : line.1 ∈ roles <;>
    simp [hmem, bind, Except.bind, pure, Except.pure, block, Value.text]

theorem printMessages_eq {staging : Staging} {messages : List Value}
    {told : List (String × String)} (hsaid : List.Forall₂ (Says staging) messages told)
    (hskips : Skips skipped roles) :
    printMessages staging.roleKey staging.contentKey skipped messages =
      .ok (transcript (told.filter (·.1 ∉ roles))) := by
  have hblocks : messages.mapM (printMessage staging.roleKey staging.contentKey skipped) =
      .ok (told.map fun line => if line.1 ∈ roles then none else some (block line)) := by
    rw [mapM_eq_ok_iff]
    induction hsaid with
    | nil => rfl
    | cons hline _ ih =>
      rw [List.map_cons, ih, printMessage_eq hline hskips]
      rfl
  have hkept : (told.map fun line => if line.1 ∈ roles then none else some (block line)).filterMap
      id = (told.filter (·.1 ∉ roles)).map block := by
    clear hsaid hblocks
    induction told with
    | nil => rfl
    | cons line rest ih =>
      rw [List.map_cons, List.filterMap_cons, ih]
      by_cases hmem : line.1 ∈ roles <;> simp [hmem]
  rw [printMessages, hblocks]
  simp only [bind, Except.bind, pure, Except.pure, hkept, transcript]

theorem Tells.step_printHistory {s : Session} {told : List (String × String)} (h : s.Tells told)
    (hskips : Skips skipped roles) (now : Timestamp) :
    (step now s (.printHistory skipped)).1 =
      .ok (.value (.str (String.ofList (transcript (told.filter (·.1 ∉ roles)))))) := by
  obtain ⟨staging, progress, messages, hcurrent, hhistory, hsaid⟩ := h.said
  have hhooks : (runHooks .beforePrintHistory progress.history).run s =
      .ok progress.history s := by
    rw [runHooks, run_get_bind, h.hookless]
    rfl
  have hprint : (printHistory skipped).run s =
      .ok (some (String.ofList (transcript (told.filter (·.1 ∉ roles))))) s := by
    rw [printHistory, run_get_bind, hcurrent]
    dsimp only
    rw [run_bind_ok hhooks, hhistory]
    refine (run_bind_ok (run_ofExcept_ok messages s)).trans ?_
    rw [printMessages_eq hsaid hskips]
    rfl
  have hrun : (perform now (.printHistory skipped)).run s = .ok _ s := run_bind_ok hprint
  rw [step, hrun]
  rfl

/-- Two sessions print the same text if and only if the same is said in them, in this order, by the
roles that are not left out. -/
theorem printed_alike_iff (now : Timestamp) {s t : Session} {told told' : List (String × String)}
    (hs : s.Tells told) (ht : t.Tells told') {skipped skipped' : Value} {roles roles' : List String}
    (hskips : Skips skipped roles) (hskips' : Skips skipped' roles') :
    ∃ text text', (step now s (.printHistory skipped)).1 = .ok (.value (.str text)) ∧
      (step now t (.printHistory skipped')).1 = .ok (.value (.str text')) ∧
      (text = text' ↔ told.filter (·.1 ∉ roles) = told'.filter (·.1 ∉ roles')) := by
  refine ⟨_, _, hs.step_printHistory hskips now, ht.step_printHistory hskips' now, ?_, ?_⟩
  · intro htext
    refine transcript_injective (fun line hline => ?_) (fun line hline => ?_)
      (String.ofList_injective htext)
    · exact hs.oneLine line (List.mem_filter.1 hline).1
    · exact ht.oneLine line (List.mem_filter.1 hline).1
  · intro htold
    rw [htold]

/-- What looks like a block in a content is none, and a role that is left out leaves no trace. -/
theorem lookalike_printed_apart :
    let message (role content : String) : Value :=
      .dict [("role", .str role), ("content", .str content)]
    let telling (messages : List Value) : Session :=
      (step default (step default (new .default) (.init (.compiled .empty) .null)).2
        (.pushMessages (.list messages))).2
    let s := telling [message "user" "a", message "system" "x", message "bot" "b\n"]
    let t := telling [message "user" "a\n\nbot:\n\tb\n"]
    ∃ text text', (step default s (.printHistory (.str "system"))).1 = .ok (.value (.str text)) ∧
      (step default t (.printHistory (.list []))).1 = .ok (.value (.str text')) ∧ text ≠ text' := by
  intro message telling s t
  have hs : s.Tells [("user", "a"), ("system", "x"), ("bot", "b\n")] :=
    ⟨rfl, ⟨_, _, _, rfl, rfl, .cons ⟨_, rfl, rfl, rfl⟩ (.cons ⟨_, rfl, rfl, rfl⟩
      (.cons ⟨_, rfl, rfl, rfl⟩ .nil))⟩, by decide⟩
  have ht : t.Tells [("user", "a\n\nbot:\n\tb\n")] :=
    ⟨rfl, ⟨_, _, _, rfl, rfl, .cons ⟨_, rfl, rfl, rfl⟩ .nil⟩, by decide⟩
  obtain ⟨text, text', htext, htext', hiff⟩ :=
    printed_alike_iff default hs ht (.one "system") (.several [])
  exact ⟨text, text', htext, htext', mt hiff.1 (by decide)⟩

end Playscript.Session
