import Playscript.Proofs.Session.Kept
import Playscript.Proofs.Staging.Lasting

/-!
# Sound sessions

In a session without hooks whose actions give messages of finite values, and to which only such
messages, contexts and snapshots are handed, everything it has come to can be written down without
loss, and the staging that it plays lasts.
-/
namespace Playscript

open Value (FiniteEntries)

def Value.Speaks (v : Value) : Prop := ∀ m ∈ Session.messagesOf v, m.IsFiniteRecord

def Action.Obliging : Action → Prop
  | .fixed v => v.Speaks
  | .call _ run => ∀ view v, run view = .ok v → v.Speaks

structure Config.Plain (config : Config) : Prop where
  hookless : config.Hookless
  obliging : ∀ actions, config.actions = .proper actions → ∀ entry ∈ actions, entry.2.Obliging

def Value.IsContext (v : Value) : Prop :=
  v = .null ∨ (∃ name, v = .str name) ∨ v.IsFiniteRecord

namespace Session

/-- A command that goes on with a session, or goes back to a snapshot in it, and hands over finite
values only. It neither starts from another source nor changes the settings but for the actions. -/
def Command.Plain : Command → Prop
  | .init .. | .reload .. | .addHook .. | .update _ => False
  | .load v => v.Finite ∧ v.Distinct
  | .resume snapshot =>
    snapshot.scenario.Finite ∧ snapshot.scenario.Ordered ∧ snapshot.progress.Sound
  | .addAction _ action => action.Obliging
  | .execute context _ | .next context _ => context.IsContext
  | .answer message => message.IsFiniteRecord
  | .pushMessages messages => ∀ m ∈ messages.oneOrSeveral, m.IsFiniteRecord
  | .pushContexts contexts => ∀ c ∈ contexts.oneOrSeveral, c.IsFiniteRecord
  | .addCost cost => cost.IsFiniteRecord
  | .addUsage request => request.MadeOf Value.Finite
  | .log request response rest => request.Finite ∧ response.Finite ∧ FiniteEntries rest
  | _ => True

/-- A session with plain settings that plays a lasting staging or none, and has come to nothing that
cannot be written down. -/
structure Sound (settings : Record) (s : Session) : Prop where
  config : s.config.Plain
  given : stagingSettings s.config [] = settings
  staging : ∀ staging, s.staging = some staging → staging.Lasting settings
  progress : ∀ p, s.progress = some p → p.Sound

variable {settings : Record} {s : Session}

theorem Sound.of_current (h : Sound settings s) {staging : Staging}
    {progress : Progress} (hs : s.current? = some (staging, progress)) :
    staging.Lasting settings ∧ progress.Sound :=
  ⟨h.staging _ (eq_of_current? hs).1, h.progress _ (eq_of_current? hs).2⟩

theorem speaks_dict {message : Record} (h : FiniteEntries message) :
    (Value.dict message).Speaks := by
  intro m hm
  unfold messagesOf at hm
  split_ifs at hm
  · rw [List.mem_singleton.1 hm]
    exact ⟨message, rfl, h⟩
  · cases hm

def PlainUnder (settings : Record) (config : Config) : Prop :=
  config.Plain ∧ stagingSettings config [] = settings

theorem sound_iff : Sound settings s ↔
    Kept (PlainUnder settings) (Staging.Lasting settings) Value.Finite s :=
  ⟨fun h => ⟨⟨h.config, h.given⟩, h.staging, fun p hp => Progress.sound_iff.1 (h.progress p hp)⟩,
    fun h => ⟨h.config.1, h.config.2, h.staging,
      fun p hp => Progress.sound_iff.2 (h.progress p hp)⟩⟩

theorem speaksOf_of_obliging {action : Action} (h : action.Obliging) :
    action.SpeaksOf Value.Finite := by
  cases action with
  | fixed v => exact fun m hm => isFiniteRecord_iff.1 (h m hm)
  | call label run => exact fun view v hv m hm => isFiniteRecord_iff.1 (h view v hv m hm)

theorem keeping_finite (settings : Record) :
    Keeping (PlainUnder settings) (Staging.Lasting settings) Value.Finite where
  values := Value.hereditary_finite
  hookless := fun _ h => h.1.hookless
  actions := fun _ h actions hactions entry hentry =>
    speaksOf_of_obliging (h.1.obliging actions hactions entry hentry)
  built := fun _ h _ _ _ hbuilt entry hentry =>
    Value.finiteEntries_iff.1 (h.finite_built hbuilt entry hentry)

/-! ## What is handed over -/

theorem finite_of_request {context act : Value} (h : context.IsContext) {entries : Record}
    (hentries : (request context act).1.toRecordIfGiven = .ok entries) : FiniteEntries entries := by
  rcases h with rfl | ⟨name, rfl⟩ | ⟨entries', rfl, hfinite⟩
  · cases hentries
    trivial
  · cases hentries
    trivial
  · have heq : entries' = entries := by
      simpa [request] using hentries
    exact heq ▸ hfinite

theorem handsOver_of_isContext {context : Value} (h : context.IsContext) :
    HandsOver Value.Finite context :=
  fun _ _ hentries => Value.finiteEntries_iff.1 (finite_of_request h hentries)

theorem mapM_toRecord {contexts : List Value} (h : ∀ c ∈ contexts, c.IsFiniteRecord)
    {records : List Record} (hrecords : contexts.mapM Value.toRecord = .ok records) :
    records.map .dict = contexts := by
  have hread : ∀ c ∈ contexts, c.toRecord = .ok c.entries := by
    intro c hc
    obtain ⟨entries, rfl, -⟩ := h c hc
    exact Value.toRecord_dict entries
  rw [mapM_of_ok hread] at hrecords
  cases hrecords
  rw [List.map_map]
  conv_rhs => rw [← List.map_id contexts]
  refine List.map_congr_left fun c hc => ?_
  obtain ⟨entries, rfl, -⟩ := h c hc
  rfl

theorem finite_of_pushContexts {contexts : Value}
    (h : ∀ c ∈ contexts.oneOrSeveral, c.IsFiniteRecord) {records : List Record}
    (hrecords : contexts.oneOrSeveral.mapM Value.toRecord = .ok records) :
    ∀ record ∈ records, ∀ e ∈ record, e.2.Finite := by
  intro record hrecord
  have hmem : Value.dict record ∈ contexts.oneOrSeveral := by
    rw [← mapM_toRecord h hrecords]
    exact List.mem_map_of_mem hrecord
  exact Value.finiteEntries_iff.1 (h _ hmem).finite

theorem finite_of_addCost {cost : Value} (h : cost.IsFiniteRecord) {pairs : Pairs}
    (hpairs : cost.toPairs = .ok pairs) : ∀ e ∈ pairs.named, e.2.Finite := by
  obtain ⟨entries, rfl, hentries⟩ := h
  cases hpairs
  rw [Pairs.named_ofRecord]
  exact Value.finiteEntries_iff.1 hentries

theorem plainUnder_addAction {role : String} {action : Action} (haction : action.Obliging)
    {config config' : Config} (h : PlainUnder settings config)
    (h' : config.addAction role action = .ok config') : PlainUnder settings config' := by
  obtain ⟨actions, hactions, rfl⟩ := Config.addAction_eq_ok h'
  refine ⟨⟨h.1.hookless, fun table htable entry hentry => ?_⟩, h.2⟩
  cases htable
  rcases Table.mem_set hentry with hentry | rfl
  · exact h.1.obliging actions hactions entry hentry
  · exact haction

theorem load_sound (hs : Kept (PlainUnder settings) (Staging.Lasting settings) Value.Finite s)
    {snapshot : Snapshot} (hfinite : snapshot.scenario.Finite)
    (hordered : snapshot.scenario.Ordered) (hprogress : snapshot.progress.Sound) :
    Leaves (load snapshot) s
      (Kept (PlainUnder settings) (Staging.Lasting settings) Value.Finite) := by
  refine (keeping_finite settings).load_kept hs (fun staging hstaging => ?_)
    (Progress.sound_iff.1 hprogress)
  rw [hs.config.2] at hstaging
  exact Staging.lasting_of_ofScenario hfinite hordered hstaging

/-! ## Runs -/

theorem perform_sound {now : Timestamp} (hnow : now.Valid) {command : Command}
    (h : command.Plain) :
    Keeps (Kept (PlainUnder settings) (Staging.Lasting settings) Value.Finite)
      (perform now command) := by
  have hkeeping := keeping_finite settings
  cases command with
  | init | reload | addHook | update => exact h.elim
  | load v =>
    intro s hs
    refine ensures_bind.2 (ensures_ofExcept.2 ⟨fun snapshot hread => ?_, fun _ _ => hs⟩)
    obtain ⟨hfinite, hprogress⟩ := Snapshot.sound_of_ofValue hnow h.1 hread
    exact (load_sound hs hfinite (Snapshot.ordered_of_ofValue h.2 hread) hprogress).bind_pure _
  | resume snapshot => exact fun s hs => (load_sound hs h.1 h.2.1 h.2.2).bind_pure _
  | addAction role action =>
    exact Keeping.configure_kept (fun _ _ hc hc' => plainUnder_addAction h hc hc') _
  | execute | next => exact hkeeping.perform_kept hnow (handsOver_of_isContext h)
  | answer message => exact hkeeping.perform_kept hnow (isFiniteRecord_iff.1 h)
  | pushMessages messages =>
    exact hkeeping.perform_kept hnow fun m hm => isFiniteRecord_iff.1 (h m hm)
  | pushContexts contexts => exact hkeeping.perform_kept hnow fun _ => finite_of_pushContexts h
  | addCost cost => exact hkeeping.perform_kept hnow fun _ => finite_of_addCost h
  | addUsage request => exact hkeeping.perform_kept hnow h
  | log request response rest =>
    exact hkeeping.perform_kept hnow ⟨h.1, h.2.1, Value.finiteEntries_iff.1 h.2.2⟩
  | _ => exact hkeeping.perform_kept hnow trivial

theorem run_sound (h : Sound settings s) {commands : List (Timestamp × Command)}
    (hcommands : ∀ c ∈ commands, c.1.Valid ∧ c.2.Plain) :
    Sound settings (run s commands).2 := by
  rw [sound_iff] at h ⊢
  exact run_leaves (fun c hc => perform_sound (hcommands c hc).1 (hcommands c hc).2) h

end Session

end Playscript
