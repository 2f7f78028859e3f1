import Playscript.Proofs.Compiler.Parts

/-!
# Comments

As long as no directive changes the two markers, what is commented out may as well not be written:
a block that is led by a comment, all blocks of an act whose name is a comment, and comments in the
description of an act or after the role of a message. Without them the script compiles to the same
scenario and leaves the same settings.
-/
namespace Playscript

open Script (Line Block Section Opens)

/-! ## Settings in the course of compiling -/

namespace Draft

def Since (a b : Draft) : Prop :=
  ∃ more, b.written = a.written ++ more ∧ b.settings = Path.setAll a.settings more

variable {a b c : Draft}

theorem Since.refl (d : Draft) : Since d d := ⟨[], (List.append_nil _).symm, rfl⟩

theorem Since.trans (hab : Since a b) (hbc : Since b c) : Since a c := by
  obtain ⟨more, hwritten, hsettings⟩ := hab
  obtain ⟨later, hwritten', hsettings'⟩ := hbc
  refine ⟨more ++ later, ?_, ?_⟩
  · rw [hwritten', hwritten, List.append_assoc]
  · rw [hsettings', hsettings, Path.setAll_append]

theorem since_storeSetting (d : Draft) (path : Path) (value : Value) :
    Since d (d.storeSetting path value) := ⟨[(path, value)], rfl, rfl⟩

theorem since_of_eq (hsettings : b.settings = a.settings) (hwritten : b.written = a.written) :
    Since a b := ⟨[], hwritten.trans (List.append_nil _).symm, hsettings⟩

theorem since_setConfig (d : Draft) (path : Path) (value : Value) :
    Since d (d.setConfig path value) := by
  unfold setConfig
  dsimp only
  split
  · exact since_of_eq rfl rfl
  · split_ifs
    · exact since_storeSetting d _ value
    · exact since_storeSetting d _ value
    · exact since_of_eq rfl rfl
    · exact since_of_eq rfl rfl
    · exact since_of_eq rfl rfl

theorem since_override (d : Draft) (path : Path) (value : Value) :
    Since d (d.override path value) := by
  have hsetting : Since d (d.setSetting path value) := by
    rw [setSetting]
    split_ifs
    · exact since_storeSetting d path value
    · exact since_storeSetting d path value
  have hboth := hsetting.trans (since_setConfig _ (overridesKey :: path) value)
  unfold override
  dsimp only
  split
  · exact hboth
  · exact hboth

theorem Write.since {named : String → Prop} (h : Write named a b) : Since a b := by
  cases h with
  | setting path value => exact since_override a path value
  | scenario first rest value hfirst => exact since_setConfig a _ value
  | register act description => exact since_of_eq rfl rfl
  | config act path value => exact since_of_eq rfl rfl
  | placeholder act name default => exact since_of_eq rfl rfl
  | message act message => exact since_of_eq rfl rfl

theorem Writes.since {named : String → Prop} (h : Writes named a b) : Since a b :=
  h.keeps (P := Since a) (fun _ _ hwrite ha => ha.trans hwrite.since) (Since.refl a)

def MarkersKept (d : Draft) : Prop :=
  ∀ write ∈ d.written, write.1.head? ≠ some "comment" ∧ write.1.head? ≠ some "directive"

theorem Since.markersKept (h : Since a b) (hb : MarkersKept b) : MarkersKept a := by
  obtain ⟨more, hwritten, -⟩ := h
  exact fun write hwrite => hb write (hwritten ▸ List.mem_append_left more hwrite)

theorem Since.markers_eq (h : Since a b) (hb : MarkersKept b) :
    Settings.isComment b.settings = Settings.isComment a.settings ∧
      Settings.directiveMarker b.settings = Settings.directiveMarker a.settings := by
  obtain ⟨more, hwritten, hsettings⟩ := h
  have hmore : ∀ write ∈ more, write.1.head? ≠ some "comment" ∧ write.1.head? ≠ some "directive" :=
    fun write hwrite => hb write (hwritten ▸ List.mem_append_right a.written hwrite)
  have hcomment : Table.get? b.settings "comment" = Table.get? a.settings "comment" :=
    hsettings ▸ Path.get?_setAll (fun write hwrite => (hmore write hwrite).1) a.settings
  have hdirective : Table.get? b.settings "directive" = Table.get? a.settings "directive" :=
    hsettings ▸ Path.get?_setAll (fun write hwrite => (hmore write hwrite).2) a.settings
  constructor
  · funext line
    simp only [Settings.isComment, Settings.commentMarker, Settings.textOf, hcomment]
  · simp only [Settings.directiveMarker, hdirective]

end Draft

namespace Compiler

open Directive (marks)

variable {settings : Record} {d e t : Draft}

theorem since_of_run {α : Type} {x : Drafting α} {a : α} (hx : WritesOnly (fun _ => True) x)
    (h : x.run d = .ok a t) : Draft.Since d t :=
  Draft.Writes.since ((hx d d (Draft.Writes.refl d)).of_ok h)

theorem steps_since {position : Position} {blocks : List Block}
    (h : (steps position blocks).run d = .ok () t) : Draft.Since d t := by
  rw [steps_eq] at h
  exact since_of_run ((foldlM_writes position blocks).bind fun _ => writesOnly_pure _) h

/-! ## Lines -/

theorem filter_of_comment {line : Line} (h : Settings.isComment settings line = true)
    (front back : List Line) :
    (front ++ line :: back).filter (fun line => !Settings.isComment settings line) =
      (front ++ back).filter fun line => !Settings.isComment settings line := by
  simp only [List.filter_append, List.filter_cons, h, Bool.not_true, Bool.false_eq_true, if_false]

theorem storeAct_of_comment {line : Line} (h : Settings.isComment d.settings line = true)
    (act : String) (head : Line) (front back : List Line) :
    (storeAct act ⟨head, front ++ line :: back⟩).run d =
      (storeAct act ⟨head, front ++ back⟩).run d := by
  simp only [storeAct, uncommented, bind_assoc, run_get_bind, pure_bind, filter_of_comment h]

theorem storeRest_of_comment {line : Line} (h : Settings.isComment d.settings line = true)
    (act : String) {front : List Line} (hfront : front ≠ []) (back : List Line) :
    (storeRest act (front ++ line :: back)).run d = (storeRest act (front ++ back)).run d := by
  obtain ⟨role, rest, rfl⟩ := List.exists_cons_of_ne_nil hfront
  have hmessage : ∀ body, (storeMessage act ⟨role, body⟩).run d = (do
      let lines ← Directive.extract (nextMessage act d)
        (body.filter fun line => !Settings.isComment d.settings line)
      storeReading (.message act ⟨role, []⟩ lines)).run
        { d with scenario := d.scenario.ensureAct act none } := fun _ => rfl
  simp only [List.cons_append, storeRest, Block.ofLines?, run_get_bind]
  split_ifs
  · rfl
  · rw [hmessage, hmessage, filter_of_comment h]

theorem readInOrder_append (scope : Draft → Scope) (front back : List Line) :
    readInOrder scope (front ++ back) = (do
      let kept ← readInOrder scope front
      return kept ++ (← readInOrder scope back)) := by
  induction front with
  | nil => simp only [List.nil_append, readInOrder, pure_bind, bind_pure]
  | cons line rest ih =>
    simp only [List.cons_append, readInOrder, bind_assoc, ih]
    refine bind_congr fun draft => ?_
    split_ifs
    · simp only [bind_assoc]
    · simp only [bind_assoc, pure_bind, List.cons_append]

theorem readInOrder_append_ok {scope : Draft → Scope} {front back before after : List Line}
    (hfront : (readInOrder scope front).run d = .ok before e)
    (hback : (readInOrder scope back).run e = .ok after t) :
    (readInOrder scope (front ++ back)).run d = .ok (before ++ after) t := by
  rw [readInOrder_append, run_bind_ok hfront, run_bind_ok hback]
  rfl

theorem readInOrder_cons_of_plain {scope : Draft → Scope} {line : Line} {back : List Line}
    (h : marks (Settings.directiveMarker d.settings) line = false) :
    (readInOrder scope (line :: back)).run d =
      ((line :: ·) <$> readInOrder scope back).run d := by
  simp only [readInOrder, run_get_bind, h, Bool.false_eq_true, if_false, map_eq_pure_bind]

theorem readInOrder_of_plain {scope : Draft → Scope} {front back before after : List Line}
    {line : Line} (hfront : (readInOrder scope front).run d = .ok before e)
    (hplain : marks (Settings.directiveMarker e.settings) line = false)
    (hback : (readInOrder scope back).run e = .ok after t) :
    (readInOrder scope (front ++ line :: back)).run d = .ok (before ++ line :: after) t := by
  refine readInOrder_append_ok hfront ?_
  rw [readInOrder_cons_of_plain hplain, run_map_eq_ok]
  exact ⟨after, hback, rfl⟩

theorem readInOrder_since {scope : Draft → Scope} {lines kept : List Line}
    (h : (readInOrder scope lines).run d = .ok kept t) : Draft.Since d t := by
  induction lines generalizing d kept with
  | nil =>
    obtain ⟨-, rfl⟩ := run_pure_eq_ok.1 h
    exact Draft.Since.refl _
  | cons line rest ih =>
    rw [readInOrder, run_get_bind] at h
    dsimp only at h
    split_ifs at h
    · obtain ⟨_, u, hstore, hrest⟩ := run_bind_eq_ok.1 h
      exact (since_of_run (store_writes trivial _) hstore).trans (ih hrest)
    · obtain ⟨tail, u, hrest, hpure⟩ := run_bind_eq_ok.1 h
      obtain ⟨-, rfl⟩ := run_pure_eq_ok.1 hpure
      exact ih hrest

theorem readInOrder_plain_ok {scope : Draft → Scope} {front back kept : List Line} {line : Line}
    (hplain : marks (Settings.directiveMarker d.settings) line = false)
    (hkept : Draft.MarkersKept t)
    (h : (readInOrder scope (front ++ line :: back)).run d = .ok kept t) :
    ∃ before after u, (readInOrder scope front).run d = .ok before u ∧
      (readInOrder scope back).run u = .ok after t ∧ kept = before ++ line :: after := by
  rw [readInOrder_append] at h
  obtain ⟨before, u, hfront, h⟩ := run_bind_eq_ok.1 h
  obtain ⟨rest, v, hrest, h⟩ := run_bind_eq_ok.1 h
  obtain ⟨rfl, rfl⟩ := run_pure_eq_ok.1 h
  have hmarker := ((readInOrder_since hfront).markers_eq
    ((readInOrder_since hrest).markersKept hkept)).2
  rw [readInOrder_cons_of_plain (hmarker ▸ hplain), run_map_eq_ok] at hrest
  obtain ⟨after, hback, rfl⟩ := hrest
  exact ⟨before, after, u, hfront, hback, rfl⟩

/-! ## Blocks -/

theorem step_of_comment {block : Block} (hhead : Script.isActHead block.head = false)
    {position : Position} (h : Settings.isComment d.settings block.head = true ∨
      Settings.isComment d.settings position.act.toList = true) :
    (step position block).run d = .ok position d := by
  have hcomment : (Settings.isComment d.settings block.head ||
      Settings.isComment d.settings position.act.toList) = true := by simpa using h
  simp only [step, run_get_bind, hhead, Bool.false_eq_true, if_false, hcomment, if_true]
  rfl

theorem steps_of_comment {blocks : List Block}
    (hheads : ∀ block ∈ blocks, Script.isActHead block.head = false) (position : Position)
    (h : Settings.isComment d.settings position.act.toList = true) (rest : List Block) :
    (steps position (blocks ++ rest)).run d = (steps position rest).run d := by
  induction blocks with
  | nil => rfl
  | cons block blocks ih =>
    obtain ⟨hhead, hheads⟩ := List.forall_mem_cons.1 hheads
    rw [List.cons_append, steps, run_bind_ok (step_of_comment hhead (Or.inr h))]
    exact ih hheads

theorem steps_of_commented_act {part : Section}
    (h : Settings.isComment d.settings (part.act d.settings).toList = true) {rest : List Block}
    (hrest : Opens rest) (position : Position) :
    (steps position (part.blocks ++ rest)).run d = (steps position rest).run d := by
  have hopening : (step position part.opening).run d = .ok ⟨part.act d.settings, false⟩ d := by
    rw [Section.act] at h
    simp only [step, run_get_bind, part.opens, if_true, h, Bool.not_true, Bool.false_eq_true,
      if_false, Section.act]
    rfl
  rw [Section.blocks, List.cons_append, steps, run_bind_ok hopening,
    steps_of_comment part.within ⟨part.act d.settings, false⟩ h, steps_of_opens hrest]

theorem step_of_described {line : Line} (h : Settings.isComment d.settings line = true)
    {head : Line} (hhead : Script.isActHead head = true) (front back : List Line)
    (position : Position) :
    (step position ⟨head, front ++ line :: back⟩).run d =
      (step position ⟨head, front ++ back⟩).run d := by
  simp only [step, run_get_bind, hhead, if_true]
  split_ifs
  · exact run_bind_congr (storeAct_of_comment h _ head front back) _
  · rfl

theorem extractLeading_of_front {front : List Line} {role : Line}
    (hfront : ∀ line ∈ front, marks (Settings.directiveMarker d.settings) line = true)
    (hrole : marks (Settings.directiveMarker d.settings) role = false) (act : String)
    (rest : List Line) :
    (extractLeading act (front ++ role :: rest)).run d =
      ((fun _ => role :: rest) <$> Directive.extract ⟨act, none⟩ front).run d := by
  have htake : (front ++ role :: rest).takeWhile
      (marks (Settings.directiveMarker d.settings)) = front := by
    rw [List.takeWhile_append_of_pos hfront, List.takeWhile_cons_of_neg (by simp [hrole]),
      List.append_nil]
  have hdrop : (front ++ role :: rest).dropWhile
      (marks (Settings.directiveMarker d.settings)) = role :: rest := by
    rw [List.dropWhile_append_of_pos hfront, List.dropWhile_cons_of_neg (by simp [hrole])]
  simp only [extractLeading, run_get_bind, htake, hdrop, map_eq_pure_bind]

theorem storeRest_since {act : String} {lines : List Line}
    (h : (storeRest act lines).run d = .ok () t) : Draft.Since d t :=
  since_of_run (storeRest_writes trivial lines) h

theorem extractPreamble_of_spoken {front body back kept : List Line} {role line : Line}
    (hrole : marks (Settings.directiveMarker d.settings) role = false)
    (hline : marks (Settings.directiveMarker d.settings) line = false) (ht : Draft.MarkersKept t)
    (h : (extractPreamble (front ++ role :: (body ++ line :: back))).run d = .ok kept t) :
    ∃ before after, before ≠ [] ∧ kept = before ++ line :: after ∧
      (extractPreamble (front ++ role :: (body ++ back))).run d = .ok (before ++ after) t := by
  rw [extractPreamble_eq] at h ⊢
  obtain ⟨before, told, u, hbefore, htold, rfl⟩ := readInOrder_plain_ok hrole ht h
  have hmarker := ((readInOrder_since hbefore).markers_eq
    ((readInOrder_since htold).markersKept ht)).2
  obtain ⟨middle, after, v, hmiddle, hafter, rfl⟩ :=
    readInOrder_plain_ok (hmarker ▸ hline) ht htold
  refine ⟨before ++ role :: middle, after,
    List.append_ne_nil_of_right_ne_nil before (List.cons_ne_nil role middle), ?_, ?_⟩
  · rw [List.append_assoc, List.cons_append]
  · rw [List.append_assoc, List.cons_append]
    exact readInOrder_of_plain hbefore (hmarker ▸ hrole) (readInOrder_append_ok hmiddle hafter)

theorem step_of_spoken {block left : Block} {front body back : List Line} {role line : Line}
    {position next : Position} (hmessage : Script.isActHead block.head = false)
    (hblock : block.lines = front ++ role :: (body ++ line :: back))
    (hleft : left.lines = front ++ role :: (body ++ back))
    (hfront : ∀ line ∈ front, marks (Settings.directiveMarker d.settings) line = true)
    (hrole : marks (Settings.directiveMarker d.settings) role = false)
    (hline : marks (Settings.directiveMarker d.settings) line = false)
    (hcomment : Settings.isComment d.settings line = true)
    (h : (step position block).run d = .ok next t) (ht : Draft.MarkersKept t) :
    (step position left).run d = .ok next t := by
  have hhead : left.head = block.head := by
    have hsame : block.lines.head? = left.lines.head? := by
      rw [hblock, hleft]
      cases front <;> rfl
    exact (Option.some.inj hsame).symm
  simp only [step, run_get_bind, hhead, hmessage, Bool.false_eq_true, if_false] at h ⊢
  split_ifs at h ⊢ with hskip hpreamble
  · exact h
  -- Before the first act head, directives are looked for in all lines.
  · obtain ⟨kept, u, hkept, h⟩ := run_bind_eq_ok.1 h
    rw [run_get_bind] at h
    obtain ⟨_, v, hrest, hpure⟩ := run_bind_eq_ok.1 h
    obtain ⟨rfl, rfl⟩ := run_pure_eq_ok.1 hpure
    have hu := (storeRest_since hrest).markersKept ht
    rw [hblock] at hkept
    obtain ⟨before, after, hne, rfl, hleft'⟩ := extractPreamble_of_spoken hrole hline hu hkept
    have hsince := since_of_run (extractPreamble_writes (fun _ _ => trivial) _) hkept
    have hcomment' : Settings.isComment u.settings line = true := by
      rw [(hsince.markers_eq hu).1, hcomment]
    rw [storeRest_of_comment hcomment' _ hne] at hrest
    rw [hleft, run_bind_ok hleft', run_get_bind, run_bind_ok hrest]
    rfl
  -- After it, they are looked for in front of the role first.
  · obtain ⟨kept, u, hkept, h⟩ := run_bind_eq_ok.1 h
    obtain ⟨_, v, hrest, hpure⟩ := run_bind_eq_ok.1 h
    obtain ⟨rfl, rfl⟩ := run_pure_eq_ok.1 hpure
    have hu := (storeRest_since hrest).markersKept ht
    rw [hblock, extractLeading_of_front hfront hrole, run_map_eq_ok] at hkept
    obtain ⟨dropped, hdropped, rfl⟩ := hkept
    have hsince := since_of_run (extract_writes trivial front) hdropped
    have hcomment' : Settings.isComment u.settings line = true := by
      rw [(hsince.markers_eq hu).1, hcomment]
    have hleading : (extractLeading position.act left.lines).run d =
        .ok (role :: (body ++ back)) u := by
      rw [hleft, extractLeading_of_front hfront hrole, run_map_eq_ok]
      exact ⟨dropped, hdropped, rfl⟩
    rw [← List.cons_append, storeRest_of_comment hcomment' _ (List.cons_ne_nil role body)] at hrest
    rw [run_bind_ok hleading, ← List.cons_append, run_bind_ok hrest]
    rfl

/-! ## Scripts -/

/-- Blocks of a script, and the same blocks without something that is commented out: a block that a
comment leads, an act with the name of a comment, or a comment in a description or after a role. -/
inductive Uncomments (settings : Record) : List Block → List Block → Prop
  | block (before rest : List Block) {block : Block}
      (hmessage : Script.isActHead block.head = false)
      (hcomment : Settings.isComment settings block.head = true) :
      Uncomments settings (before ++ block :: rest) (before ++ rest)
  | act (before rest : List Block) (part : Section) (hrest : Opens rest)
      (hcomment : Settings.isComment settings
        (part.act (draftAfter settings before).settings).toList = true) :
      Uncomments settings (before ++ (part.blocks ++ rest)) (before ++ rest)
  | described (before rest : List Block) {head line : Line} (front back : List Line)
      (hact : Script.isActHead head = true) (hcomment : Settings.isComment settings line = true) :
      Uncomments settings (before ++ ⟨head, front ++ line :: back⟩ :: rest)
        (before ++ ⟨head, front ++ back⟩ :: rest)
  | spoken (before rest : List Block) {block left : Block} (front : List Line) (role : Line)
      (body : List Line) (line : Line) (back : List Line)
      (hmessage : Script.isActHead block.head = false)
      (hblock : block.lines = front ++ role :: (body ++ line :: back))
      (hleft : left.lines = front ++ role :: (body ++ back))
      (hfront : ∀ line ∈ front, marks (Settings.directiveMarker settings) line = true)
      (hrole : marks (Settings.directiveMarker settings) role = false)
      (hline : marks (Settings.directiveMarker settings) line = false)
      (hcomment : Settings.isComment settings line = true) :
      Uncomments settings (before ++ block :: rest) (before ++ left :: rest)

theorem markersKept_of_events {text : String} (h : run text settings = (.ok (), d))
    (hevents : ∀ e ∈ events text settings, ∀ path ∈ e.changed?,
      path.head? ≠ some "comment" ∧ path.head? ≠ some "directive") : d.MarkersKept := by
  intro write hwrite
  rw [(trace_run h).changed.2.1] at hwrite
  obtain ⟨-, e, he, hpath⟩ := mem_changes hwrite
  exact hevents e he write.1 hpath

theorem steps_of_part {before part part' : List Block}
    (h : (steps (.first settings) (before ++ part)).run (.start .empty settings) = .ok () t)
    (ht : t.MarkersKept)
    (hpart : ∀ position,
      Settings.isComment (draftAfter settings before).settings = Settings.isComment settings →
      Settings.directiveMarker (draftAfter settings before).settings =
        Settings.directiveMarker settings →
      (steps position part).run (draftAfter settings before) = .ok () t →
      (steps position part').run (draftAfter settings before) = .ok () t) :
    (steps (.first settings) (before ++ part')).run (.start .empty settings) = .ok () t := by
  obtain ⟨position, hbefore, hrun⟩ := foldlM_of_steps_append h
  obtain ⟨hcomment, hmarker⟩ := (since_of_run (foldlM_writes _ before) hbefore).markers_eq
    ((steps_since hrun).markersKept ht)
  rw [steps_append, run_bind_ok hbefore]
  exact hpart position hcomment hmarker hrun

theorem Uncomments.steps_eq_ok {blocks left : List Block} (hleft : Uncomments settings blocks left)
    (h : (steps (.first settings) blocks).run (.start .empty settings) = .ok () t)
    (ht : t.MarkersKept) :
    (steps (.first settings) left).run (.start .empty settings) = .ok () t := by
  cases hleft with
  | block before rest hmessage hcomment =>
    refine steps_of_part h ht fun position hsame _ hrun => ?_
    rwa [steps, run_bind_ok (step_of_comment hmessage (Or.inl (hsame ▸ hcomment)))] at hrun
  | act before rest part hrest hcomment =>
    refine steps_of_part h ht fun position hsame _ hrun => ?_
    rwa [steps_of_commented_act (hsame ▸ hcomment) hrest] at hrun
  | described before rest front back hact hcomment =>
    refine steps_of_part h ht fun position hsame _ hrun => ?_
    rw [steps] at hrun ⊢
    rwa [run_bind_congr (step_of_described (hsame ▸ hcomment) hact front back position)] at hrun
  | spoken before rest front role body line back hmessage hblock hleft hfront hrole hline
      hcomment =>
    refine steps_of_part h ht fun position hsame hmarker hrun => ?_
    rw [steps] at hrun ⊢
    obtain ⟨next, u, hstep, hrun⟩ := run_bind_eq_ok.1 hrun
    rw [← hmarker] at hfront hrole hline
    rw [← hsame] at hcomment
    rwa [run_bind_ok (step_of_spoken hmessage hblock hleft hfront hrole hline hcomment hstep
      ((steps_since hrun).markersKept ht))]

/-- What is commented out does not count: a script that compiles without a change of the comment and
directive markers compiles to the same without any part of it, and leaves the same settings. -/
theorem compile_uncommented {text text' : String} {scenario : Scenario} {after : Record}
    (hevents : ∀ e ∈ events text settings, ∀ path ∈ e.changed?,
      path.head? ≠ some "comment" ∧ path.head? ≠ some "directive")
    (hblocks : Relation.ReflTransGen (Uncomments settings) (Script.blocks text.toList)
      (Script.blocks text'.toList))
    (h : compile text settings = (.ok scenario, after)) :
    compile text' settings = (.ok scenario, after) := by
  obtain ⟨d, hrun, rfl, rfl⟩ := run_of_compile h
  have hkept := markersKept_of_events hrun hevents
  refine compile_of_run (run_eq_ok.2 ?_)
  generalize Script.blocks text'.toList = left at hblocks
  induction hblocks with
  | refl => exact run_eq_ok.1 hrun
  | tail _ hleft ih => exact hleft.steps_eq_ok ih hkept

/-- A script with a comment after a role and an act that has the name of a comment, and the same
script without them. -/
theorem compile_without_aside_and_draft :
    let text := "% parse join -\nuser:\n# aside\nhi\n\n[#draft]\n\nuser:\nlost\n\n[end]\nthe end"
    let text' := "% parse join -\nuser:\nhi\n\n[end]\nthe end"
    let settings := Settings.defaults
    ∃ scenario after, compile text settings = (.ok scenario, after) ∧
      (∀ e ∈ events text settings, ∀ path ∈ e.changed?,
        path.head? ≠ some "comment" ∧ path.head? ≠ some "directive") ∧
      Relation.ReflTransGen (Uncomments settings) (Script.blocks text.toList)
        (Script.blocks text'.toList) ∧
      compile text' settings = (.ok scenario, after) := by
  intro text text' settings
  have hevents : ∀ e ∈ events text settings, ∀ path ∈ e.changed?,
      path.head? ≠ some "comment" ∧ path.head? ≠ some "directive" := by decide +kernel
  have hcompiles : (compile text settings).1.toOption.isSome = true := by decide +kernel
  let opening : Block := ⟨"% parse join -".toList, ["user:".toList, "hi".toList]⟩
  let draft : Section := ⟨⟨"[#draft]".toList, []⟩, [⟨"user:".toList, ["lost".toList]⟩],
    by decide, by decide⟩
  let ending : Block := ⟨"[end]".toList, ["the end".toList]⟩
  have haside : Uncomments settings (Script.blocks text.toList)
      ([opening] ++ (draft.blocks ++ [ending])) := by
    have hblocks : Script.blocks text.toList = ⟨"% parse join -".toList,
        ["user:".toList, "# aside".toList, "hi".toList]⟩ :: (draft.blocks ++ [ending]) := by
      decide +kernel
    rw [hblocks]
    exact .spoken [] _ ["% parse join -".toList] "user:".toList [] "# aside".toList ["hi".toList]
      (by decide) rfl rfl (by decide) (by decide) (by decide) (by decide)
  have hdraft : Uncomments settings ([opening] ++ (draft.blocks ++ [ending]))
      (Script.blocks text'.toList) := by
    have hblocks : Script.blocks text'.toList = [opening] ++ [ending] := by decide +kernel
    rw [hblocks]
    exact .act [opening] [ending] draft (by decide) (by decide +kernel)
  have hsteps := (Relation.ReflTransGen.single haside).tail hdraft
  cases hcompile : compile text settings with
  | mk outcome after =>
    rw [hcompile] at hcompiles
    cases outcome with
    | error fault => cases hcompiles
    | ok scenario =>
      exact ⟨scenario, after, rfl, hevents, hsteps, compile_uncommented hevents hsteps hcompile⟩

end Compiler

end Playscript
