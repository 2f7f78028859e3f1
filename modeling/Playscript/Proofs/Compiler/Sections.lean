import Playscript.Proofs.Compiler.Confined

/-!
# Sections in another order

Two sections of different acts whose directives stay in their acts may change places. The compiled
scenario lists its acts in another order then, and is the same otherwise; so are the settings that
compiling leaves. What comes after the two sections does not look at the order of the acts.
-/
namespace Playscript

open Script (Line Block Section Opens)

namespace Draft

structure Alike (d e : Draft) : Prop where
  settings : e.settings = d.settings
  shared : e.shared = d.shared
  written : e.written = d.written
  acts : ∀ name, e.scenario.act? name = d.scenario.act? name
  listed : (Table.get? d.scenario.config "order").isSome
  config : ∃ order, e.scenario.config = Table.set d.scenario.config "order" order

variable {d e : Draft}

namespace Alike

theorem storeSetting (h : Alike d e) (path : Path) (value : Value) :
    Alike (d.storeSetting path value) (e.storeSetting path value) where
  settings := by rw [Draft.storeSetting, Draft.storeSetting, h.settings]
  shared := h.shared
  written := by rw [Draft.storeSetting, Draft.storeSetting, h.written]
  acts := h.acts
  listed := h.listed
  config := h.config

theorem storeConfig (h : Alike d e) {first : String} (hfirst : first ≠ "order") (rest : Path)
    (value : Value) :
    Alike (d.storeConfig (first :: rest) value) (e.storeConfig (first :: rest) value) where
  settings := h.settings
  shared := h.shared
  written := h.written
  acts := h.acts
  listed := by
    rw [Draft.storeConfig, Path.get?_set_cons, if_neg hfirst]
    exact h.listed
  config := by
    obtain ⟨order, horder⟩ := h.config
    refine ⟨order, ?_⟩
    simp only [Draft.storeConfig, horder, Path.set_setOrder h.listed hfirst]

theorem withShared (h : Alike d e) (shared : List Path) :
    Alike { d with shared } { e with shared } where
  settings := h.settings
  shared := rfl
  written := h.written
  acts := h.acts
  listed := h.listed
  config := h.config

theorem setConfig (h : Alike d e) {first : String} (hfirst : first ≠ "order") (rest : Path)
    (value : Value) :
    Alike (d.setConfig (first :: rest) value) (e.setConfig (first :: rest) value) := by
  have hstored := h.storeConfig hfirst rest value
  have hshared : (e.storeConfig (first :: rest) value).shared =
      (d.storeConfig (first :: rest) value).shared := h.shared
  simp only [Draft.setConfig, hshared]
  split_ifs
  · exact (hstored.storeSetting rest value).withShared _
  · exact (hstored.storeSetting rest value).withShared _
  · exact hstored.withShared _
  · exact hstored.withShared _
  · exact hstored

theorem setSetting (h : Alike d e) (path : Path) (value : Value) :
    Alike (d.setSetting path value) (e.setSetting path value) := by
  have hstored := h.storeSetting path value
  simp only [Draft.setSetting, h.shared]
  split_ifs
  · exact (hstored.storeConfig (by decide) path value).withShared _
  · exact hstored.withShared _

theorem override (h : Alike d e) (path : Path) (value : Value) :
    Alike (d.override path value) (e.override path value) := by
  have hkey : overridesKey ≠ "order" := by decide
  have hboth := (h.setSetting path value).setConfig hkey path value
  unfold Draft.override
  dsimp only
  split
  · rw [hboth.shared]
    exact hboth.withShared _
  · exact hboth

theorem ensureAct (h : Alike d e) (name : String) (description : Option String) :
    Alike { d with scenario := d.scenario.ensureAct name description }
      { e with scenario := e.scenario.ensureAct name description } where
  settings := h.settings
  shared := h.shared
  written := h.written
  acts other := by rw [Scenario.act?_ensureAct, Scenario.act?_ensureAct, h.acts, h.acts]
  listed := by
    obtain ⟨order, horder⟩ := Scenario.config_ensureAct h.listed name description
    rw [horder]
    exact Table.isSome_get?_set _ _ _
  config := by
    obtain ⟨order, horder⟩ := Scenario.config_ensureAct h.listed name description
    obtain ⟨before, hbefore⟩ := h.config
    have hlisted : (Table.get? e.scenario.config "order").isSome := by
      rw [hbefore]
      exact Table.isSome_get?_set _ _ _
    obtain ⟨after, hafter⟩ := Scenario.config_ensureAct hlisted name description
    exact ⟨after, by rw [hafter, hbefore, horder, Table.set_set, Table.set_set]⟩

theorem modifyAct (h : Alike d e) (name : String) (change : Act → Act) :
    Alike { d with scenario := d.scenario.modifyAct name change }
      { e with scenario := e.scenario.modifyAct name change } where
  settings := h.settings
  shared := h.shared
  written := h.written
  acts other := by rw [Scenario.act?_modifyAct, Scenario.act?_modifyAct, h.acts, h.acts]
  listed := by
    rw [Scenario.config_modifyAct]
    exact h.listed
  config := by
    rw [Scenario.config_modifyAct, Scenario.config_modifyAct]
    exact h.config

end Alike

theorem config_put (hlisted : (Table.get? d.scenario.config "order").isSome) (name : String)
    (act? : Option Act) :
    ∃ order, (d.put name act?).scenario.config = Table.set d.scenario.config "order" order := by
  cases act? with
  | none => exact Scenario.set_order_of_isSome hlisted
  | some act => exact Scenario.config_putAct hlisted name act

theorem config_put_put (hlisted : (Table.get? d.scenario.config "order").isSome)
    (one two : String) (one? two? : Option Act) :
    ∃ order, ((d.put one one?).put two two?).scenario.config =
      Table.set d.scenario.config "order" order := by
  obtain ⟨first, hfirst⟩ := config_put hlisted one one?
  have hnext : (Table.get? (d.put one one?).scenario.config "order").isSome := by
    rw [hfirst]
    exact Table.isSome_get?_set _ _ _
  obtain ⟨second, hsecond⟩ := config_put hnext two two?
  exact ⟨second, by rw [hsecond, hfirst, Table.set_set]⟩

theorem alike_put (hlisted : (Table.get? d.scenario.config "order").isSome) {one two : String}
    (hne : one ≠ two) (one? two? : Option Act) :
    Alike ((d.put one one?).put two two?) ((d.put two two?).put one one?) := by
  obtain ⟨order, horder⟩ := config_put_put hlisted one two one? two?
  obtain ⟨order', horder'⟩ := config_put_put hlisted two one two? one?
  refine ⟨by simp, by simp, by simp, fun name => ?_, ?_, order', ?_⟩
  · simp only [act?_put]
    by_cases hone : one = name
    · rw [if_pos hone, if_neg (hone ▸ hne.symm), if_neg (hone ▸ hne.symm), if_pos hone]
    · rw [if_neg hone, if_neg hone]
  · rw [horder]
    exact Table.isSome_get?_set _ _ _
  · rw [horder', horder, Table.set_set]

end Draft

/-! ## Compiling from drafts that are alike -/

open Draft (Alike)

theorem Directive.coupled_writeAct (scope : Scope) (key : List Char) (value : Value) :
    Coupled Alike (writeAct scope key value) (writeAct scope key value) :=
  (coupled_modify fun _ _ h => h.ensureAct _ _).bind fun _ =>
    (coupled_ofExcept _).bind fun _ => coupled_modify fun _ _ h => h.modifyAct _ _

theorem Directive.coupled_perform (scope : Scope) (directive : Directive) :
    Coupled Alike (perform scope directive) (perform scope directive) := by
  cases directive with
  | setting key value =>
    exact (coupled_ofExcept _).bind fun _ => coupled_modify fun _ _ h => h.override _ _
  | use key value =>
    rw [perform, writeScenario]
    split
    · exact coupled_pure _
    · split_ifs with hfirst
      · exact coupled_pure _
      · exact (coupled_ofExcept _).bind fun _ =>
          coupled_modify fun _ _ h => h.setConfig hfirst _ _
  | assign key value => exact coupled_writeAct scope key _
  | flag key => exact coupled_writeAct scope key _
  | ignored => exact coupled_pure _

theorem Directive.coupled_store (scope : Scope) (s : List Char) :
    Coupled Alike (store scope s) (store scope s) :=
  (coupled_ofExcept _).bind fun _ => coupled_perform scope _

namespace Compiler

theorem coupled_alike_get {α : Type} {f : Draft → Drafting α}
    (hsame : ∀ d e, Alike d e → f e = f d) (hf : ∀ d, Coupled Alike (f d) (f d)) :
    Coupled Alike (get >>= f) (get >>= f) :=
  coupled_get_bind fun d e h => by
    rw [hsame d e h]
    exact hf d d e h

theorem coupled_extract (scope : Scope) (lines : List Line) :
    Coupled Alike (Directive.extract scope lines) (Directive.extract scope lines) := by
  induction lines with
  | nil => exact coupled_pure _
  | cons line rest ih =>
    refine coupled_alike_get (fun d e h => by simp only [h.settings]) fun d => ?_
    dsimp only
    split_ifs
    · exact (Directive.coupled_store scope _).bind fun _ => ih
    · exact ih.bind fun _ => coupled_pure _

theorem coupled_extractPreamble (lines : List Line) :
    Coupled Alike (extractPreamble lines) (extractPreamble lines) := by
  induction lines with
  | nil => exact coupled_pure _
  | cons line rest ih =>
    exact coupled_alike_get (fun d e h => by simp only [h.settings]) fun d =>
      (coupled_extract _ _).bind fun _ => ih.bind fun _ => coupled_pure _

theorem coupled_extractLeading (act : String) (lines : List Line) :
    Coupled Alike (extractLeading act lines) (extractLeading act lines) :=
  coupled_alike_get (fun d e h => by simp only [h.settings]) fun d =>
    (coupled_extract _ _).bind fun _ => coupled_pure _

theorem coupled_uncommented (lines : List Line) :
    Coupled Alike (uncommented lines) (uncommented lines) :=
  coupled_alike_get (fun d e h => by simp only [h.settings]) fun _ => coupled_pure _

theorem coupled_storeAct (act : String) (block : Block) :
    Coupled Alike (storeAct act block) (storeAct act block) :=
  (coupled_uncommented _).bind fun _ => (coupled_extract _ _).bind fun _ =>
    coupled_modify fun _ _ h => h.ensureAct _ _

theorem coupled_storePieces (act : String) (pieces : List Script.Piece) :
    Coupled Alike (storePieces act pieces) (storePieces act pieces) :=
  storePieces_induction (P := fun x => Coupled Alike x x) (coupled_pure _)
    (fun _ _ hx => hx.bind fun _ => coupled_pure _)
    (fun _ _ _ hx => (coupled_ofExcept _).bind fun _ =>
      (coupled_modify fun _ _ h => h.modifyAct _ _).bind fun _ => hx) pieces

theorem coupled_storeMessage (act : String) (block : Block) :
    Coupled Alike (storeMessage act block) (storeMessage act block) :=
  (coupled_modify fun _ _ h => h.ensureAct _ _).bind fun _ =>
    coupled_alike_get (fun d e h => by simp only [h.acts]) fun _ =>
      (coupled_uncommented _).bind fun _ => (coupled_extract _ _).bind fun _ =>
        coupled_alike_get (fun d e h => by simp only [h.settings]) fun _ =>
          (coupled_storePieces _ _).bind fun _ => coupled_modify fun _ _ h => h.modifyAct _ _

theorem coupled_storeRest (act : String) (lines : List Line) :
    Coupled Alike (storeRest act lines) (storeRest act lines) := by
  rw [storeRest]
  split
  · exact coupled_pure _
  · refine coupled_alike_get (fun d e h => by simp only [h.settings]) fun d => ?_
    split_ifs
    · exact coupled_pure _
    · exact coupled_storeMessage act _

theorem coupled_step (position : Position) (block : Block) :
    Coupled Alike (step position block) (step position block) := by
  refine coupled_alike_get (fun d e h => by simp only [h.settings]) fun d => ?_
  dsimp only
  split_ifs
  · exact (coupled_storeAct _ _).bind fun _ => coupled_pure _
  · exact coupled_pure _
  · exact coupled_pure _
  · exact (coupled_extractPreamble _).bind fun _ =>
      coupled_alike_get (fun d e h => by simp only [h.settings]) fun _ =>
        (coupled_storeRest _ _).bind fun _ => coupled_pure _
  · exact (coupled_extractLeading _ _).bind fun _ =>
      (coupled_storeRest _ _).bind fun _ => coupled_pure _

theorem coupled_steps (position : Position) (blocks : List Block) :
    Coupled Alike (steps position blocks) (steps position blocks) := by
  induction blocks generalizing position with
  | nil => exact coupled_pure _
  | cons block rest ih => exact (coupled_step position block).bind ih

/-! ## Scripts -/

variable {settings : Record} {before rest : List Block} {first second : Section}

/-- Two sections of different acts, whose directives write in the settings of their acts if
anywhere, may change places: the script compiles to the same scenario but for the order of the acts,
and leaves the same settings. -/
theorem compile_swapped {text text' : String} {scenario : Scenario} {after : Record}
    (hblocks : Script.blocks text.toList =
      before ++ (first.blocks ++ second.blocks ++ rest))
    (hswapped : Script.blocks text'.toList =
      before ++ (second.blocks ++ first.blocks ++ rest))
    (hrest : Opens rest)
    (hacts : first.act (draftAfter settings before).settings ≠
      second.act (draftAfter settings before).settings)
    (hfirst : ∀ stanza ∈ first.stanzas (draftAfter settings before).settings, stanza.Inner)
    (hsecond : ∀ stanza ∈ second.stanzas (draftAfter settings before).settings, stanza.Inner)
    (h : compile text settings = (.ok scenario, after)) :
    ∃ scenario', compile text' settings = (.ok scenario', after) ∧
      scenario.Reordered scenario' := by
  obtain ⟨d, hrun, rfl, rfl⟩ := run_of_compile h
  have hsteps := run_eq_ok.1 hrun
  rw [hblocks] at hsteps
  obtain ⟨position, hbefore, hsteps⟩ := foldlM_of_steps_append hsteps
  rw [steps_append_of_opens hrest position position] at hsteps
  obtain ⟨_, u, hsections, hsteps⟩ := run_bind_eq_ok.1 hsteps
  obtain ⟨one?, two?, rfl, hother⟩ := steps_swapped hacts hfirst hsecond hsections
  have hlisted : (Table.get? (draftAfter settings before).scenario.config "order").isSome := by
    have hwrites := (foldlM_writes _ before _ _ (Draft.Writes.refl _)).of_ok hbefore
    rw [(hwrites.grown Scenario.ordered_empty).ordered.listed]
    rfl
  have halike := Draft.alike_put hlisted hacts one? two?
  obtain ⟨_, e, hend, -, hsame⟩ :=
    ((coupled_steps position rest _ _ halike).of_ok hsteps).exists_ok fun _ _ => id
  have hrun' : run text' settings = (.ok (), e) := by
    rw [run_eq_ok, hswapped, steps_append, run_bind_ok hbefore,
      steps_append_of_opens hrest position position, run_bind_ok hother]
    exact hend
  have hordered := run_ordered text settings
  have hordered' := run_ordered text' settings
  rw [hrun] at hordered
  rw [hrun'] at hordered'
  exact ⟨e.scenario, hsame.settings ▸ compile_of_run hrun',
    Scenario.reordered_of_act? hordered hordered' hsame.acts hsame.config⟩

/-- A section with a directive in its description and one with directives before a role and in the
body of a message, between a preamble and a second section of the first act. -/
theorem compile_swapped_a_b :
    let preamble := "% parse join -\n\n"
    let a := "[a]\nfirst\n% mood=calm\n\nuser:\nhi {x|2}\n\n"
    let b := "[b]\n\n% note\nbot:\nbye\n% tone=dry\n\n"
    let again := "[a]\n\nuser:\nmore"
    let text := preamble ++ a ++ b ++ again
    let text' := preamble ++ b ++ a ++ again
    let settings := Settings.defaults
    ∃ scenario scenario' after, compile text settings = (.ok scenario, after) ∧
      compile text' settings = (.ok scenario', after) ∧ scenario.Reordered scenario' ∧
      scenario.order = ["a", "b"] ∧ scenario'.order = ["b", "a"] := by
  intro preamble a b again text text' settings
  let before : List Block := [⟨"% parse join -".toList, []⟩]
  let first : Section :=
    ⟨⟨"[a]".toList, ["first".toList, "% mood=calm".toList]⟩,
      [⟨"user:".toList, ["hi {x|2}".toList]⟩], by decide, by decide⟩
  let second : Section :=
    ⟨⟨"[b]".toList, []⟩,
      [⟨"% note".toList, ["bot:".toList, "bye".toList, "% tone=dry".toList]⟩],
      by decide, by decide⟩
  let rest : List Block := [⟨"[a]".toList, []⟩, ⟨"user:".toList, ["more".toList]⟩]
  have hblocks : Script.blocks text.toList =
      before ++ (first.blocks ++ second.blocks ++ rest) := by decide +kernel
  have hswapped : Script.blocks text'.toList =
      before ++ (second.blocks ++ first.blocks ++ rest) := by decide +kernel
  have hacts : first.act (draftAfter settings before).settings ≠
      second.act (draftAfter settings before).settings := by decide +kernel
  have hfirst : ∀ stanza ∈ first.stanzas (draftAfter settings before).settings, stanza.Inner := by
    decide +kernel
  have hsecond : ∀ stanza ∈ second.stanzas (draftAfter settings before).settings, stanza.Inner := by
    decide +kernel
  have horders : (compile text settings).1.toOption.map Scenario.order = some ["a", "b"] ∧
      (compile text' settings).1.toOption.map Scenario.order = some ["b", "a"] := by
    decide +kernel
  cases hcompile : compile text settings with
  | mk outcome after =>
    rw [hcompile] at horders
    cases outcome with
    | error fault => cases horders.1
    | ok scenario =>
      obtain ⟨scenario', hcompile', hreordered⟩ :=
        compile_swapped hblocks hswapped (by decide) hacts hfirst hsecond hcompile
      rw [hcompile'] at horders
      exact ⟨scenario, scenario', after, rfl, hcompile', hreordered,
        Option.some.inj horders.1, Option.some.inj horders.2⟩

end Compiler

end Playscript
