import Mathlib.Tactic.SplitIfs
import Playscript.Sharing
import Playscript.Staging

/-!
# Stagings that look alike

A session shows little of its staging: the keys by which messages are printed, the act to open with
where there is no order, the messages that are built with the settings their actions see, and the
settings that are asked for by name. Stagings of the same acts that agree in this cannot be told
apart in a session.
-/
namespace Playscript.Staging

def roleOf (staging : Staging) (message : Record) : Value :=
  (Table.get? message staging.roleKey).getD .null

def seenConfig (staging : Staging) (act : String) (entry : Nat × Record) : Option Record :=
  match staging.roleOf entry.2 with
  | .str _ => staging.messageConfig act (.int entry.1)
  | _ => none

def offered (staging : Staging) (context : Record) (act : String) :
    Except Fault (List (Record × Option Record)) :=
  List.map (fun entry => (entry.2, staging.seenConfig act entry)) <$>
    staging.buildIndexed (.dict context) (some act)

def shown (staging : Staging) (path : Path) (act : String) : Except Fault Value := do
  match ← staging.actConfig (some act) with
  | none => return .null
  | some layers =>
    match ← Path.get (.dict layers.flatten) path with
    | .str s => return if s = "" then .bool true else .str s
    | v => return v

/-- Nothing that a session shows tells the two stagings apart. -/
structure LooksAlike (a b : Staging) : Prop where
  roleKey : a.roleKey = b.roleKey
  contentKey : a.contentKey = b.contentKey
  opening : a.scenario.order = [] → a.defaultAct = b.defaultAct
  offered : ∀ context, ∀ act ∈ a.scenario.order, a.offered context act = b.offered context act
  shown : ∀ key, ∀ act ∈ a.scenario.order,
    a.shown (Path.ofString key) act = b.shown (Path.ofString key) act

/-! ## Stagings of one scenario -/

structure SameTexts (a b : Staging) : Prop where
  scenario : a.scenario = b.scenario
  roleKey : a.roleKey = b.roleKey
  contentKey : a.contentKey = b.contentKey
  defaultAct : a.defaultAct = b.defaultAct
  commentMarker : a.commentMarker = b.commentMarker
  sentinel : a.sentinel = b.sentinel

variable {a b : Staging}

theorem valueOf_congr (h : a.sentinel = b.sentinel) : a.valueOf = b.valueOf := by
  funext context defaults placeholder
  simp only [valueOf, h]

theorem replace_congr (h : a.sentinel = b.sentinel) : a.replace = b.replace := by
  have hsubstitute : a.substitute = b.substitute := by
    funext context defaults piece
    cases piece with
    | char c => rfl
    | token inside => simp only [substitute, valueOf_congr h]
  funext context defaults content
  simp only [replace, hsubstitute]

theorem buildFrom_congr (h : a.sentinel = b.sentinel) (format : Format) (context : Value)
    (defaults : Record) (index : Nat) (messages : List Record) :
    a.buildFrom format context defaults index messages =
      b.buildFrom format context defaults index messages := by
  induction messages generalizing index with
  | nil => rfl
  | cons message rest ih => simp only [buildFrom, buildMessage, replace_congr h, ih]

namespace SameTexts

theorem buildIndexed (h : SameTexts a b) (context : Value) (act : Option String) :
    a.buildIndexed context act = b.buildIndexed context act := by
  have hact : a.actOrDefault act = b.actOrDefault act := by
    simp only [actOrDefault, h.defaultAct]
  have hformat : a.format = b.format := by
    simp only [format, h.roleKey, h.contentKey, h.commentMarker, h.scenario]
  simp only [Staging.buildIndexed, hact, hformat, h.scenario, buildFrom_congr h.sentinel]

theorem actConfig (h : SameTexts a b) (act : Option String) :
    a.actConfig act = b.actConfig act := by
  have hunknown : a.isUnknown act = b.isUnknown act := by
    simp only [isUnknown, h.scenario]
  have hlayers : a.configLayers act = b.configLayers act := by
    unfold configLayers scenarioLayer
    rw [h.scenario, h.defaultAct]
  simp only [Staging.actConfig, hunknown, hlayers]

theorem looksAlike (h : SameTexts a b) : LooksAlike a b where
  roleKey := h.roleKey
  contentKey := h.contentKey
  opening := fun _ => h.defaultAct
  offered := fun context act _ => by
    have hseen : a.seenConfig act = b.seenConfig act := by
      funext entry
      simp only [seenConfig, roleOf, messageConfig, h.roleKey, h.scenario]
    simp only [Staging.offered, h.buildIndexed, hseen]
  shown := fun key act _ => by simp only [Staging.shown, h.actConfig]

end SameTexts

end Playscript.Staging
