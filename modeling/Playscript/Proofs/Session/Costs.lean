import Mathlib.Algebra.Ring.Int.Defs
import Mathlib.Tactic.Ring
import Playscript.Proofs.DataModel
import Playscript.Proofs.Session.Reading
import Playscript.Proofs.Session.Writes
import Playscript.Proofs.Snapshot.Made

/-!
# The ledger of a session

While costs are tracked, a session books the usage of every request that can be read. A total grows
by what is booked, so by how much it is off from the sum over all requests never changes, unless the
totals themselves are booked for a request: they grow with every booking after that.
-/
namespace Playscript

namespace Usage

def counts : List (Usage → Int) := [prompt, completion, total]

theorem count_plus {count : Usage → Int} (h : count ∈ counts) (u v : Usage) :
    count (u.plus v) = count u + count v := by
  simp only [counts, List.mem_cons, List.not_mem_nil, or_false] at h
  obtain rfl | rfl | rfl := h <;> rfl

theorem plus_eq_self {u v : Usage} : u.plus v = u ↔ ∀ count ∈ counts, count v = 0 := by
  obtain ⟨prompt, completion, total, extra⟩ := u
  simp [plus, counts]

/-! ## Reading usage -/

variable [DataModel]

/-- A count as a record gives it: in a form that is read as an integer, or not at all. -/
def Gives (r : Record) (name : String) (n : Int) : Prop :=
  (∃ v, Table.get? r name = some v ∧ DataModel.integer v = .ok n) ∨
    (Table.get? r name = none ∧ 0 = n)

def GivenBy (u : Usage) (cost : Value) : Prop :=
  ∃ pairs, cost.toPairs = .ok pairs ∧ pairs.otherKeys = [] ∧
    Gives pairs.named "prompt_tokens" u.prompt ∧
    Gives pairs.named "completion_tokens" u.completion ∧
    Gives pairs.named "total_tokens" u.total ∧
    u.extra = pairs.named.filter fun entry => entry.1 ∉ names

def read (cost : Value) : Except Fault Usage :=
  cost.toPairs >>= fun pairs => (checkPairs pairs).outcome

open DataModel.Documented

theorem check_dict_eq_ok [DataModel.Documented] {r : Record} {u : Usage} :
    check (.dict r) = .ok u ↔ Gives r "prompt_tokens" u.prompt ∧
      Gives r "completion_tokens" u.completion ∧ Gives r "total_tokens" u.total ∧
      u.extra = r.filter fun entry => entry.1 ∉ names := by
  constructor
  · intro h
    obtain ⟨_, hr, hread⟩ := Check.andThen_eq_ok.1 h
    obtain rfl := Value.dict.inj (fields_eq_ok.1 hr)
    obtain ⟨_, extra, hcounts, hextra, heq⟩ := Check.seq_eq_ok.1 hread
    obtain ⟨_, total, hfirst, htotal, rfl⟩ := Check.seq_eq_ok.1 hcounts
    obtain ⟨_, completion, hmap, hcompletion, rfl⟩ := Check.seq_eq_ok.1 hfirst
    obtain ⟨prompt, hprompt, rfl⟩ := Check.map_eq_ok.1 hmap
    subst heq
    exact ⟨field_eq_ok.1 hprompt, field_eq_ok.1 hcompletion, field_eq_ok.1 htotal,
      (Except.ok.inj hextra).symm.trans (beside_eq _ _)⟩
  · rintro ⟨hprompt, hcompletion, htotal, hextra⟩
    refine Check.andThen_eq_ok.2 ⟨r, fields_eq_ok.2 rfl, Check.seq_eq_ok.2 ⟨_, _, Check.seq_eq_ok.2
      ⟨_, _, Check.seq_eq_ok.2 ⟨_, _, Check.map_eq_ok.2 ⟨_, field_eq_ok.2 hprompt, rfl⟩,
        field_eq_ok.2 hcompletion, rfl⟩, field_eq_ok.2 htotal, rfl⟩, rfl, ?_⟩⟩
    rw [beside_eq, ← hextra]

omit [DataModel] in
theorem checkKeys_eq_ok {keys : List Value} {x : Unit} : checkKeys keys = .ok x ↔ keys = [] := by
  cases keys with
  | nil => exact iff_of_true rfl rfl
  | cons key rest =>
    refine iff_of_false (fun h => ?_) (List.cons_ne_nil _ _)
    obtain ⟨_, _, h, -⟩ := Check.seq_eq_ok.1 h
    obtain ⟨_, h, -⟩ := Check.map_eq_ok.1 h
    cases h

theorem read_eq_ok [DataModel.Documented] {cost : Value} {u : Usage} :
    read cost = .ok u ↔ GivenBy u cost := by
  have hcheck : ∀ pairs, checkPairs pairs = .ok u ↔
      check (.dict pairs.named) = .ok u ∧ pairs.otherKeys = [] := by
    intro pairs
    constructor
    · intro h
      obtain ⟨_, _, hmap, hkeys, heq⟩ := Check.seq_eq_ok.1 h
      obtain ⟨_, hcheck, rfl⟩ := Check.map_eq_ok.1 hmap
      subst heq
      exact ⟨hcheck, checkKeys_eq_ok.1 hkeys⟩
    · rintro ⟨hcheck, hkeys⟩
      exact Check.seq_eq_ok.2 ⟨_, (), Check.map_eq_ok.2 ⟨u, hcheck, rfl⟩,
        checkKeys_eq_ok.2 hkeys, rfl⟩
  refine bind_eq_ok.trans (exists_congr fun pairs => and_congr_right fun _ => ?_)
  exact (hcheck pairs).trans (and_comm.trans (and_congr_right fun _ => check_dict_eq_ok))

end Usage

namespace Ledger

def Request.own? : Request → Option Usage
  | .usage u => some u
  | .totals => none

def shared (ledger : Ledger) : Nat :=
  ledger.booked.countP fun request => request.own?.isNone

/-- By how much a total is off from the sum over all requests. -/
def surplus (ledger : Ledger) (count : Usage → Int) : Int :=
  count ledger.totals - (ledger.requests.map count).sum

variable {ledger : Ledger} {count : Usage → Int}

theorem surplus_empty (h : count ∈ Usage.counts) : empty.surplus count = 0 := by
  simp only [Usage.counts, List.mem_cons, List.not_mem_nil, or_false] at h
  obtain rfl | rfl | rfl := h <;> rfl

theorem sum_amounts_plus (h : count ∈ Usage.counts) (totals more : Usage)
    (booked : List Request) :
    (booked.map fun request => count (request.amount (totals.plus more))).sum =
      (booked.map fun request => count (request.amount totals)).sum +
        (booked.countP fun request => request.own?.isNone) * count more := by
  induction booked with
  | nil => simp
  | cons request rest ih =>
    rw [List.map_cons, List.sum_cons, ih, List.map_cons, List.sum_cons, List.countP_cons]
    cases request with
    | usage u =>
      simp only [Request.amount, Request.own?, Option.isNone_some, Bool.false_eq_true, if_false]
      push_cast
      ring
    | totals =>
      simp only [Request.amount, Request.own?, Option.isNone_none, if_true, Usage.count_plus h]
      push_cast
      ring

theorem map_requests (ledger : Ledger) (count : Usage → Int) :
    ledger.requests.map count =
      ledger.booked.map fun request => count (request.amount ledger.totals) :=
  List.map_map

theorem surplus_add (h : count ∈ Usage.counts) (ledger : Ledger) (request : Request) :
    (ledger.add request).surplus count = ledger.surplus count -
      (ledger.add request).shared * count (request.amount ledger.totals) := by
  have hsum := sum_amounts_plus h ledger.totals (request.amount ledger.totals)
    (ledger.add request).booked
  rw [surplus, surplus, map_requests, map_requests]
  simp only [add, shared, Usage.count_plus h] at hsum ⊢
  rw [hsum, List.map_append, List.sum_append, List.map_singleton, List.sum_singleton]
  ring

theorem requests_add_iff (ledger : Ledger) (request : Request) :
    (ledger.add request).requests = ledger.requests ++ [request.amount ledger.totals] ↔
      (ledger.add request).shared = 0 ∨
        ∀ count ∈ Usage.counts, count (request.amount ledger.totals) = 0 := by
  have hrequests : ledger.requests ++ [request.amount ledger.totals] =
      (ledger.add request).booked.map (·.amount ledger.totals) := by
    rw [requests, add, List.map_append, List.map_singleton]
  rw [hrequests, requests, List.map_inj_left, ← Usage.plus_eq_self, shared, List.countP_eq_zero]
  constructor
  · intro h
    refine or_iff_not_imp_right.2 fun hgrows other hmem hother => ?_
    cases other with
    | usage u => cases hother
    | totals => exact hgrows (h _ hmem)
  · rintro (h | h) other hmem
    · cases other with
      | usage u => rfl
      | totals => exact absurd rfl (h _ hmem)
    · rw [add, h]

theorem foldl_add_own (hshared : ledger.shared = 0) {requests : List Request}
    (hown : ∀ request ∈ requests, request ≠ .totals) :
    (requests.foldl add ledger).requests = ledger.requests ++ requests.filterMap Request.own? ∧
      ∀ count ∈ Usage.counts, (requests.foldl add ledger).surplus count = ledger.surplus count := by
  induction requests generalizing ledger with
  | nil => exact ⟨(List.append_nil _).symm, fun _ _ => rfl⟩
  | cons request rest ih =>
    obtain ⟨hrequest, hrest⟩ := List.forall_mem_cons.1 hown
    cases request with
    | totals => exact absurd rfl hrequest
    | usage u =>
      have hstill : (ledger.add (.usage u)).shared = 0 := by
        rw [shared, add, List.countP_append]
        exact Nat.add_eq_zero_iff.2 ⟨hshared, rfl⟩
      obtain ⟨hrequests, hsurplus⟩ := ih hstill hrest
      refine ⟨?_, fun count hcount => (hsurplus count hcount).trans ?_⟩
      · rw [List.foldl_cons, hrequests, (requests_add_iff ledger (.usage u)).2 (Or.inl hstill),
          List.append_assoc]
        rfl
      · rw [surplus_add hcount, hstill, Nat.cast_zero, zero_mul, sub_zero]

end Ledger

def Progress.ledger (p : Progress) : Ledger := p.cost.getD .empty

namespace Snapshot

open DataModel.Documented

theorem shared_of_check [DataModel] [DataModel.Documented] {v : Value} {ledger : Ledger}
    (h : Ledger.check v = .ok ledger) : ledger.shared = 0 := by
  obtain ⟨_, -, h⟩ := Check.andThen_eq_ok.1 h
  obtain ⟨_, totals, h, -, hledger⟩ := Check.seq_eq_ok.1 h
  obtain ⟨requests, -, hfirst⟩ := Check.map_eq_ok.1 h
  subst hfirst hledger
  refine List.countP_eq_zero.2 fun request hmem => ?_
  obtain ⟨u, -, rfl⟩ := List.mem_map.1 hmem
  exact Bool.false_ne_true

theorem shared_of_ofValue [DataModel] [DataModel.Documented] {now : Timestamp} {v : Value}
    {snapshot : Snapshot} (h : ofValue now v = .ok snapshot) :
    snapshot.progress.ledger.shared = 0 := by
  obtain ⟨r, -, hprogress⟩ := checkProgress_of_ofValue h
  obtain ⟨-, -, -, -, hcost⟩ := parts_of_checkProgress hprogress
  have hgives : DataModel.Gives (fun _ => True) Ledger.check fun ledger => ledger.shared = 0 :=
    fun _ _ _ => shared_of_check
  rw [Progress.ledger]
  cases hledger : snapshot.progress.cost with
  | none => rfl
  | some ledger =>
    exact hgives.optional.field (fun _ _ => trivial) (fun _ hmem => absurd hmem (by simp)) hcost
      ledger hledger

end Snapshot

namespace Session

def tracks (s : Session) : Bool :=
  s.progress.isSome && s.config.costOnly.truthy

section

variable [DataModel]

def Command.request? : Command → Option (Except Fault Ledger.Request)
  | .addCost cost => some (.usage <$> Usage.read cost)
  | .addUsage request => some (.ok request)
  | _ => none

def Command.books (s : Session) (command : Command) : List Ledger.Request :=
  if s.tracks then (command.request?.bind Except.toOption).toList else []

def booked : Session → List (Timestamp × Command) → List Ledger.Request
  | _, [] => []
  | s, (now, command) :: rest => command.books s ++ booked (step now s command).2 rest

end

def HasLedger (ledger : Ledger) (s : Session) : Prop :=
  ∀ p, s.progress = some p → p.ledger = ledger

variable {ledger : Ledger} {s t : Session} {p : Progress} {now : Timestamp} {command : Command}

theorem HasLedger.advanced (h : p.ledger = ledger) :
    HasLedger ledger { s with progress := some p } := by
  rintro q ⟨⟩
  exact h

theorem overlooks_hasLedger {parts : List Progress.Part} (h : .cost ∉ parts) :
    Overlooks parts (HasLedger ledger) where
  ended := fun s hs p hp => by simp [hs] at hp
  noted := fun _ _ hs => hs
  configured := fun _ _ hs => hs
  written := fun s p q hs hp => by
    have hsame : (Progress.overwrite parts q p).cost = p.cost := if_neg h
    exact .advanced (by rw [Progress.ledger, hsame]; exact hs p hp)

/-! ## Commands that report requests -/

theorem run_addRead_untracked (h : s.tracks = false) (read : Except Fault Ledger.Request) :
    (addRead read).run s = .ok none s := by
  have hoff : (s.progress.isNone || !s.config.costOnly.truthy) = true := by
    rw [← Option.not_isSome, ← Bool.not_and, Bool.not_eq_true']
    exact h
  rw [addRead, run_get_bind, if_pos hoff]
  rfl

theorem run_addRead (h : s.tracks = true) (hp : s.progress = some p)
    (read : Except Fault Ledger.Request) :
    (addRead read).run s = (do
      let request ← ofExcept read
      advance fun p => { p with cost := p.cost.map (·.add request) }
      return ((← get).progress.bind (·.cost)).map (·.totals) : Play (Option Usage)).run
        { s with progress := some { p with cost := some p.ledger } } := by
  have hon : (s.progress.isNone || !s.config.costOnly.truthy) = false := by
    rw [← Option.not_isSome, ← Bool.not_and, Bool.not_eq_false']
    exact h
  rw [addRead, run_get_bind, if_neg (by simp [hon]), run_bind_ok (run_advance hp)]
  rfl

section Library

variable [DataModel]

theorem perform_of_request? {read : Except Fault Ledger.Request}
    (h : command.request? = some read) :
    perform now command = do return .usage? (← addRead read) := by
  cases command <;> cases h <;> rfl

theorem step_request_ok {request : Ledger.Request} (hread : command.request? = some (.ok request))
    (h : s.tracks = true) (hp : s.progress = some p) :
    step now s command = (.ok (.usage (p.ledger.add request).totals),
      { s with progress := some { p with cost := some (p.ledger.add request) } }) := by
  have hrun := run_addRead h hp (.ok request)
  rw [step, perform_of_request? hread, run_bind_ok hrun]
  rfl

theorem step_request_error {fault : Fault} (hread : command.request? = some (.error fault))
    (h : s.tracks = true) (hp : s.progress = some p) :
    step now s command =
      (.error fault, { s with progress := some { p with cost := some p.ledger } }) := by
  have hrun := run_addRead h hp (.error fault)
  rw [step, perform_of_request? hread, run_bind_error hrun]

theorem step_untracked {read : Except Fault Ledger.Request} (hread : command.request? = some read)
    (h : s.tracks = false) : step now s command = (.ok .nothing, s) := by
  rw [step, perform_of_request? hread, run_bind_ok (run_addRead_untracked h read)]
  rfl

/-! ## Runs -/

theorem step_hasLedger (now : Timestamp) (h : HasLedger ledger s) (hcommand : ¬ command.Restarts) :
    HasLedger ((command.books s).foldl Ledger.add ledger) (step now s command).2 := by
  cases hread : command.request? with
  | none =>
    have hwrites : .cost ∉ command.writes := by
      cases command <;> simp_all [Command.Restarts, Command.request?, Command.writes]
    have hbooks : command.books s = [] := by simp [Command.books, hread]
    rw [hbooks]
    exact step_leaves ((overlooks_hasLedger hwrites).keeps_perform now hcommand s h)
  | some read =>
    cases htracks : s.tracks with
    | false =>
      rw [step_untracked hread htracks, Command.books, htracks]
      exact h
    | true =>
      obtain ⟨p, hp⟩ := Option.isSome_iff_exists.1 (Bool.and_eq_true_iff.1 htracks).1
      rw [Command.books, if_pos htracks, hread]
      cases read with
      | error fault =>
        rw [step_request_error hread htracks hp]
        exact .advanced (h p hp)
      | ok request =>
        rw [step_request_ok hread htracks hp]
        exact .advanced (congrArg (Ledger.add · request) (h p hp))

theorem run_hasLedger (h : HasLedger ledger s) {commands : List (Timestamp × Command)}
    (hcommands : ∀ c ∈ commands, ¬ c.2.Restarts) :
    HasLedger ((booked s commands).foldl Ledger.add ledger) (run s commands).2 := by
  induction commands generalizing ledger s with
  | nil => exact h
  | cons command rest ih =>
    obtain ⟨hcommand, hrest⟩ := List.forall_mem_cons.1 hcommands
    rw [booked, List.foldl_append]
    exact ih (step_hasLedger command.1 h hcommand) hrest

theorem books_own (h : command ≠ .addUsage .totals) :
    ∀ request ∈ command.books s, request ≠ .totals := by
  intro request hmem
  rw [Command.books] at hmem
  split_ifs at hmem
  · cases command with
    | addCost cost =>
      cases hread : Usage.read cost with
      | error fault =>
        rw [Command.request?, hread] at hmem
        cases hmem
      | ok u =>
        simp only [Command.request?, hread] at hmem
        rw [List.mem_singleton.1 hmem]
        exact nofun
    | addUsage given =>
      rw [List.mem_singleton.1 hmem]
      exact fun heq => h (congrArg _ heq)
    | _ => cases hmem
  · cases hmem

theorem booked_own {commands : List (Timestamp × Command)}
    (h : ∀ c ∈ commands, c.2 ≠ .addUsage .totals) :
    ∀ request ∈ booked s commands, request ≠ .totals := by
  induction commands generalizing s with
  | nil => exact fun _ hmem => absurd hmem List.not_mem_nil
  | cons command rest ih =>
    obtain ⟨hcommand, hrest⟩ := List.forall_mem_cons.1 h
    exact List.forall_mem_append.2 ⟨books_own hcommand, ih hrest⟩

/-! ## Starts -/

omit [DataModel] in
theorem starting_hasLedger (hp : t.progress = some p) (hledger : p.ledger = ledger) (stage : Stage)
    (value : Value) :
    Ensures (do
      let history ← runHooks stage value
      advance fun p => { p with history := history } : Play Unit) t
      (fun _ => HasLedger ledger) (fun _ _ => True) := by
  have hoverlooks : Overlooks [.history] (HasLedger ledger) := overlooks_hasLedger (by decide)
  have ht : HasLedger ledger t := fun q hq => by
    cases hp.symm.trans hq
    exact hledger
  exact Ensures.mono ((hoverlooks.hooksKeep stage value).bind
    (fun _ => hoverlooks.keeps_advance fun _ => rfl) t ht) (fun _ _ hu => hu) fun _ _ _ => trivial

theorem init_hasLedger (source : Source) (settings : Value) :
    Ensures (init source settings) s (fun _ => HasLedger .empty) (fun _ _ => True) := by
  rw [init, ensures_bind, ensures_get, ensures_bind]
  refine ensures_ofExcept.2 ⟨fun staging _ => ensures_bind.2 (ensures_modify.2
    (starting_hasLedger rfl ?_ _ _)), fun _ _ => trivial⟩
  rw [Progress.ledger]
  dsimp only
  split_ifs <;> rfl

omit [DataModel] in
theorem load_hasLedger (snapshot : Snapshot) :
    Ensures (load snapshot) s (fun _ => HasLedger snapshot.progress.ledger) (fun _ _ => True) := by
  rw [load, ensures_bind, ensures_get, ensures_bind]
  exact ensures_ofExcept.2 ⟨fun staging _ => ensures_bind.2
    (ensures_modify.2 (starting_hasLedger rfl rfl _ _)), fun _ _ => trivial⟩

theorem hasLedger_of_init {source : Source} {settings : Value} {reply : Reply}
    (h : (perform now (.init source settings)).run s = .ok reply t) : HasLedger .empty t := by
  have hstart : Ensures (perform now (.init source settings)) s (fun _ => HasLedger .empty)
      (fun _ _ => True) := ensures_bind.2 (init_hasLedger source settings)
  exact hstart.of_ok h

theorem hasLedger_of_resume {snapshot : Snapshot} {reply : Reply}
    (h : (perform now (.resume snapshot)).run s = .ok reply t) :
    HasLedger snapshot.progress.ledger t := by
  have hstart : Ensures (perform now (.resume snapshot)) s
      (fun _ => HasLedger snapshot.progress.ledger) (fun _ _ => True) :=
    ensures_bind.2 (load_hasLedger snapshot)
  exact hstart.of_ok h

theorem hasLedger_of_load {v : Value} {reply : Reply}
    (h : (perform now (.load v)).run s = .ok reply t) :
    ∃ snapshot, Snapshot.ofValue now v = .ok snapshot ∧ HasLedger snapshot.progress.ledger t := by
  obtain ⟨snapshot, u, hrun, hload⟩ := run_bind_eq_ok.1 h
  obtain ⟨hread, rfl⟩ := run_ofExcept_eq_ok.1 hrun
  have hresume : (perform now (.resume snapshot)).run u = .ok reply t := hload
  exact ⟨snapshot, hread, hasLedger_of_resume hresume⟩

/-- While a session goes on and its totals are not handed back to it, its ledger grows by the usage
of every request that is booked, and no total changes by how much it is off from the sum over all
requests. That is nothing after a start, and whatever it was in the snapshot after going on from
one. Once totals are booked for a request, this request amounts to whatever the totals come to be,
and every further booking changes by how much they are off. -/
theorem ledger_balances [DataModel.Documented] {before after : Progress}
    {commands : List (Timestamp × Command)} (hbefore : s.progress = some before)
    (hcommands : ∀ c ∈ commands, ¬ c.2.Restarts)
    (hafter : (run s commands).2.progress = some after) :
    (before.ledger.shared = 0 → (∀ c ∈ commands, c.2 ≠ .addUsage .totals) →
      after.ledger.requests =
        before.ledger.requests ++ (booked s commands).filterMap Ledger.Request.own? ∧
      ∀ count ∈ Usage.counts, after.ledger.surplus count = before.ledger.surplus count) ∧
    (∀ now command request, command.request? = some (.ok request) →
      (run s commands).2.tracks = true →
      let ledger := after.ledger.add request
      let amount := request.amount after.ledger.totals
      step now (run s commands).2 command = (.ok (.usage ledger.totals),
        { (run s commands).2 with progress := some { after with cost := some ledger } }) ∧
      (ledger.requests = after.ledger.requests ++ [amount] ↔
        ledger.shared = 0 ∨ ∀ count ∈ Usage.counts, count amount = 0) ∧
      ∀ count ∈ Usage.counts,
        ledger.surplus count = after.ledger.surplus count - ledger.shared * count amount) ∧
    (∀ now command fault, command.request? = some (.error fault) →
      (run s commands).2.tracks = true → step now (run s commands).2 command =
        (.error fault, { (run s commands).2 with
          progress := some { after with cost := some after.ledger } })) ∧
    (∀ cost u, Usage.read cost = .ok u ↔ u.GivenBy cost) ∧
    (∀ now r source settings reply, step now r (.init source settings) = (.ok reply, s) →
      before.ledger.shared = 0 ∧ ∀ count ∈ Usage.counts, before.ledger.surplus count = 0) ∧
    (∀ now r snapshot reply, step now r (.resume snapshot) = (.ok reply, s) →
      before.ledger = snapshot.progress.ledger) ∧
    ∀ now r v reply, step now r (.load v) = (.ok reply, s) →
      ∃ snapshot, Snapshot.ofValue now v = .ok snapshot ∧
        before.ledger = snapshot.progress.ledger ∧ before.ledger.shared = 0 := by
  have hkept : HasLedger before.ledger s := fun p hp => by
    cases hbefore.symm.trans hp
    rfl
  have hledger := run_hasLedger hkept hcommands after hafter
  refine ⟨fun hshared hown => ?_, ?_, ?_, fun cost u => Usage.read_eq_ok, ?_, ?_, ?_⟩
  · rw [hledger]
    exact Ledger.foldl_add_own hshared (booked_own hown)
  · intro now command request hread htracks
    exact ⟨step_request_ok hread htracks hafter, Ledger.requests_add_iff _ _,
      fun count hcount => Ledger.surplus_add hcount _ _⟩
  · intro now command fault hread htracks
    exact step_request_error hread htracks hafter
  · intro now r source settings reply hinit
    rw [hasLedger_of_init (perform_of_step hinit) before hbefore]
    exact ⟨rfl, fun count hcount => Ledger.surplus_empty hcount⟩
  · intro now r snapshot reply hresume
    exact hasLedger_of_resume (perform_of_step hresume) before hbefore
  · intro now r v reply hload
    obtain ⟨snapshot, hread, hkept⟩ := hasLedger_of_load (perform_of_step hload)
    have hsame := hkept before hbefore
    exact ⟨snapshot, hread, hsame, hsame ▸ Snapshot.shared_of_ofValue hread⟩

end Library

/-- Totals that a snapshot gives without any request stay apart from the sum over the requests,
until the totals that the last request was answered with are handed back. A record without a
readable count is not booked, and pairs are. -/
theorem ledger_of_resumed_run :
    let config : Config := { Config.default with costOnly := .bool true }
    let progress : Progress :=
      { Progress.initial .empty with cost := some ⟨[], ⟨5, 0, 7, []⟩⟩ }
    let s := (step default (new config) (.resume ⟨.empty, progress⟩)).2
    let commands : List (Timestamp × Command) := [
      (default, .addCost (.dict [("prompt_tokens", .int 3), ("model", .str "m")])),
      (default, .addCost (.dict [("prompt_tokens", .str "many")])),
      (default, .next .null false),
      (default, .addCost (.list [.list [.str "total_tokens", .str " 4 "]]))]
    ∃ after, (run s commands).2.progress = some after ∧
      after.ledger.requests = [⟨3, 0, 0, [("model", .str "m")]⟩, ⟨0, 0, 4, []⟩] ∧
      after.ledger.surplus Usage.prompt = 5 ∧ after.ledger.surplus Usage.completion = 0 ∧
      after.ledger.surplus Usage.total = 7 ∧
      (after.ledger.add .totals).surplus Usage.total = -4 := by
  intro config progress s commands
  have hbefore : s.progress = some progress := rfl
  have hcommands : ∀ c ∈ commands, ¬ c.2.Restarts := by simp [commands, Command.Restarts]
  have hgoes : (run s commands).2.progress.isSome = true := by decide +kernel
  have htracks : (run s commands).2.tracks = true := by decide +kernel
  have hback : (run s commands).2.progress.map (fun p =>
      ((p.ledger.add .totals).shared, p.ledger.totals.total)) = some (1, 11) := by decide +kernel
  obtain ⟨after, hafter⟩ := Option.isSome_iff_exists.1 hgoes
  obtain ⟨hruns, hbooks, -⟩ := ledger_balances hbefore hcommands hafter
  obtain ⟨hrequests, hsurplus⟩ := hruns rfl (by simp [commands])
  have htotal : Usage.total ∈ Usage.counts := by simp [Usage.counts]
  obtain ⟨-, -, hchange⟩ := hbooks default (.addUsage .totals) .totals rfl htracks
  rw [hafter] at hback
  obtain ⟨hshared, hgrown⟩ := Prod.mk.inj (Option.some.inj hback)
  refine ⟨after, hafter, hrequests.trans ?_, hsurplus _ ?_, hsurplus _ ?_, hsurplus _ htotal, ?_⟩
  · rfl
  · simp [Usage.counts]
  · simp [Usage.counts]
  · rw [hchange _ htotal, hsurplus _ htotal, hshared]
    exact congrArg (7 - 1 * ·) hgrown

end Session

end Playscript
