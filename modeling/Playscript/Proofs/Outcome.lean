import Playscript.Fault

/-!
# Outcomes of computations

A computation on a state gives a value or fails, and leaves a state either way. `Ensures` says what
holds in the two cases; the lemmas below take a computation apart from its end to its start.
-/
namespace Playscript

variable {ε σ α β : Type}

/-- What holds of the value or of the fault, and of the state that is left. -/
def Ensures (x : EStateM ε σ α) (s : σ) (ok : α → σ → Prop) (failed : ε → σ → Prop) : Prop :=
  match x.run s with
  | .ok a t => ok a t
  | .error e t => failed e t

def Leaves (x : EStateM ε σ α) (s : σ) (P : σ → Prop) : Prop :=
  Ensures x s (fun _ => P) (fun _ => P)

section

variable {x : EStateM ε σ α} {f : α → EStateM ε σ β} {s : σ}
variable {ok ok' : α → σ → Prop} {failed failed' : ε → σ → Prop} {P Q : σ → Prop}

theorem Ensures.mono (h : Ensures x s ok failed) (hok : ∀ a t, ok a t → ok' a t)
    (hfailed : ∀ e t, failed e t → failed' e t) : Ensures x s ok' failed' := by
  rw [Ensures] at h ⊢
  split at h
  · exact hok _ _ h
  · exact hfailed _ _ h

theorem Ensures.and (h : Ensures x s ok failed) (h' : Ensures x s ok' failed') :
    Ensures x s (fun a t => ok a t ∧ ok' a t) (fun e t => failed e t ∧ failed' e t) := by
  rw [Ensures] at h h' ⊢
  split at h
  · simp_all
  · simp_all

theorem Ensures.of_ok {a : α} {t : σ} (h : Ensures x s ok failed) (hx : x.run s = .ok a t) :
    ok a t := by
  rwa [Ensures, hx] at h

theorem Ensures.of_error {e : ε} {t : σ} (h : Ensures x s ok failed)
    (hx : x.run s = .error e t) : failed e t := by
  rwa [Ensures, hx] at h

theorem Leaves.mono (h : Leaves x s P) (hPQ : ∀ t, P t → Q t) : Leaves x s Q :=
  Ensures.mono h (fun _ => hPQ) (fun _ => hPQ)

@[simp] theorem ensures_pure {a : α} : Ensures (pure a) s ok failed ↔ ok a s := Iff.rfl

@[simp] theorem ensures_throw {e : ε} : Ensures (throw e) s ok failed ↔ failed e s := Iff.rfl

@[simp] theorem ensures_get {ok : σ → σ → Prop} : Ensures get s ok failed ↔ ok s s := Iff.rfl

@[simp] theorem ensures_set {t : σ} {ok : PUnit → σ → Prop} :
    Ensures (set t) s ok failed ↔ ok ⟨⟩ t := Iff.rfl

@[simp] theorem ensures_modify {g : σ → σ} {ok : PUnit → σ → Prop} :
    Ensures (modify g) s ok failed ↔ ok ⟨⟩ (g s) := Iff.rfl

@[simp] theorem ensures_bind {ok : β → σ → Prop} :
    Ensures (x >>= f) s ok failed ↔ Ensures x s (fun a t => Ensures (f a) t ok failed) failed := by
  simp only [Ensures, EStateM.run, bind, EStateM.bind]
  cases x s <;> rfl

@[simp] theorem ensures_map {g : α → β} {ok : β → σ → Prop} :
    Ensures (g <$> x) s ok failed ↔ Ensures x s (fun a => ok (g a)) failed := by
  simp only [Ensures, EStateM.run, Functor.map, EStateM.map]
  cases x s <;> rfl

theorem ensures_ofExcept {y : Except ε α} :
    Ensures (ofExcept y) s ok failed ↔
      (∀ a, y = .ok a → ok a s) ∧ (∀ e, y = .error e → failed e s) := by
  cases y with
  | error e => simp [ofExcept]
  | ok a => simp [ofExcept]

@[simp] theorem ensures_ofExcept_ok {a : α} :
    Ensures (ofExcept (.ok a : Except ε α)) s ok failed ↔ ok a s := Iff.rfl

@[simp] theorem ensures_ofExcept_error {e : ε} :
    Ensures (ofExcept (.error e : Except ε α)) s ok failed ↔ failed e s := Iff.rfl

end

theorem ensures_congr {x y : EStateM ε σ α} {s t : σ} {ok : α → σ → Prop}
    {failed : ε → σ → Prop} (h : x.run s = y.run t) :
    Ensures x s ok failed ↔ Ensures y t ok failed := by
  simp only [Ensures, h]

/-! ## Runs -/

theorem run_bind_ok {x : EStateM ε σ α} {f : α → EStateM ε σ β} {s t : σ} {a : α}
    (h : x.run s = .ok a t) : (x >>= f).run s = (f a).run t := by
  have h : x s = .ok a t := h
  simp only [EStateM.run, bind, EStateM.bind, h]

theorem run_bind_error {x : EStateM ε σ α} {f : α → EStateM ε σ β} {s t : σ} {e : ε}
    (h : x.run s = .error e t) : (x >>= f).run s = .error e t := by
  have h : x s = .error e t := h
  simp only [EStateM.run, bind, EStateM.bind, h]

theorem run_bind_congr {x y : EStateM ε σ α} {s : σ} (h : x.run s = y.run s)
    (f : α → EStateM ε σ β) : (x >>= f).run s = (y >>= f).run s := by
  cases hx : x.run s with
  | error e t => rw [run_bind_error hx, run_bind_error (h ▸ hx)]
  | ok a t => rw [run_bind_ok hx, run_bind_ok (h ▸ hx)]

theorem run_get_bind {f : σ → EStateM ε σ β} {s : σ} : (get >>= f).run s = (f s).run s := rfl

theorem run_ofExcept_ok (a : α) (s : σ) :
    (ofExcept (.ok a : Except ε α) : EStateM ε σ α).run s = .ok a s := rfl

theorem run_ofExcept_eq_ok {y : Except ε α} {a : α} {s t : σ} :
    (ofExcept y : EStateM ε σ α).run s = .ok a t ↔ y = .ok a ∧ t = s := by
  cases y with
  | error e => exact ⟨fun h => (nomatch h), fun h => (nomatch h.1)⟩
  | ok b =>
    rw [run_ofExcept_ok]
    exact ⟨fun h => by cases h; exact ⟨rfl, rfl⟩, fun ⟨hb, ht⟩ => by cases hb; rw [ht]⟩

theorem run_bind_eq_ok {x : EStateM ε σ α} {f : α → EStateM ε σ β} {s t : σ} {b : β} :
    (x >>= f).run s = .ok b t ↔ ∃ a u, x.run s = .ok a u ∧ (f a).run u = .ok b t := by
  cases hx : x.run s with
  | error e u => simp [run_bind_error hx]
  | ok a u =>
    rw [run_bind_ok hx]
    refine ⟨fun h => ⟨a, u, rfl, h⟩, ?_⟩
    rintro ⟨_, _, ⟨⟩, h⟩
    exact h

theorem run_map_eq_ok {g : α → β} {x : EStateM ε σ α} {s t : σ} {b : β} :
    (g <$> x).run s = .ok b t ↔ ∃ a, x.run s = .ok a t ∧ g a = b := by
  simp only [EStateM.run, Functor.map, EStateM.map]
  cases x s with
  | error e u => simp
  | ok a u =>
    simp only [EStateM.Result.ok.injEq]
    exact ⟨fun h => ⟨a, ⟨rfl, h.2⟩, h.1⟩, fun ⟨_, ⟨ha, ht⟩, hb⟩ => ⟨ha ▸ hb, ht⟩⟩

theorem run_pure_eq_ok {a b : α} {s t : σ} :
    (pure a : EStateM ε σ α).run s = .ok b t ↔ a = b ∧ s = t := by
  simp [pure, EStateM.pure, EStateM.run]

theorem ensures_bind_of {x : EStateM ε σ α} {f : α → EStateM ε σ β} {s : σ}
    {ok : β → σ → Prop} {failed : ε → σ → Prop} (hf : ∀ a t, Ensures (f a) t ok failed)
    (hfailed : ∀ e t, failed e t) : Ensures (x >>= f) s ok failed := by
  rw [ensures_bind, Ensures]
  split
  · exact hf _ _
  · exact hfailed _ _

theorem Ensures.exists_ok {x : EStateM ε σ α} {s : σ} {ok : α → σ → Prop}
    {failed : ε → σ → Prop} (h : Ensures x s ok failed) (hfailed : ∀ e t, ¬ failed e t) :
    ∃ a t, x.run s = .ok a t ∧ ok a t := by
  rw [Ensures] at h
  split at h
  · next a t hx => exact ⟨a, t, hx, h⟩
  · exact (hfailed _ _ h).elim

/-! ## Results -/

section

variable {x : Except ε α} {f : α → Except ε β} {as : List α}

def Fails (x : Except ε α) : Prop := ∃ e, x = .error e

@[simp] theorem fails_error (e : ε) : Fails (.error e : Except ε α) := ⟨e, rfl⟩

@[simp] theorem not_fails_ok (a : α) : ¬ Fails (.ok a : Except ε α) := fun ⟨_, h⟩ => nomatch h

@[simp] theorem not_fails_pure (a : α) : ¬ Fails (pure a : Except ε α) := not_fails_ok a

theorem toOption_eq_some {a : α} : x.toOption = some a ↔ x = .ok a := by
  cases x with
  | error e => simp [Except.toOption]
  | ok b => simp [Except.toOption]

theorem exists_ok_of_not_fails (h : ¬ Fails x) : ∃ a, x = .ok a := by
  cases x with
  | error e => exact (h (fails_error e)).elim
  | ok a => exact ⟨a, rfl⟩

@[simp] theorem fails_map {g : α → β} : Fails (g <$> x) ↔ Fails x := by
  cases x with
  | error e => exact iff_of_true (fails_error e) (fails_error e)
  | ok a => exact iff_of_false (not_fails_ok _) (not_fails_ok a)

theorem map_eq_ok {g : α → β} {b : β} : g <$> x = .ok b ↔ ∃ a, x = .ok a ∧ g a = b := by
  cases x with
  | error e => exact iff_of_false (fun h => nomatch h) fun ⟨_, h, _⟩ => nomatch h
  | ok a =>
    refine ⟨fun h => ⟨a, rfl, Except.ok.inj h⟩, ?_⟩
    rintro ⟨_, ⟨⟩, rfl⟩
    rfl

theorem bind_eq_ok {b : β} : x >>= f = .ok b ↔ ∃ a, x = .ok a ∧ f a = .ok b := by
  cases x with
  | error e => exact iff_of_false (fun h => nomatch h) fun ⟨_, h, _⟩ => nomatch h
  | ok a =>
    refine ⟨fun h => ⟨a, rfl, h⟩, ?_⟩
    rintro ⟨_, ⟨⟩, h⟩
    exact h

theorem fails_bind : Fails (x >>= f) ↔ Fails x ∨ ∃ a, x = .ok a ∧ Fails (f a) := by
  cases x with
  | error e => exact iff_of_true (fails_error e) (Or.inl (fails_error e))
  | ok a =>
    refine ⟨fun h => Or.inr ⟨a, rfl, h⟩, fun h => ?_⟩
    obtain hx | ⟨b, hb, hf⟩ := h
    · exact (not_fails_ok a hx).elim
    · rwa [Except.ok.inj hb]

theorem fails_mapM : Fails (as.mapM f) ↔ ∃ a ∈ as, Fails (f a) := by
  induction as with
  | nil => exact iff_of_false (not_fails_ok _) fun ⟨_, h, _⟩ => nomatch h
  | cons a rest ih =>
    simp only [List.mapM_cons, List.mem_cons, exists_eq_or_imp, fails_bind]
    cases hfirst : f a with
    | error e => exact iff_of_true (Or.inl (fails_error e)) (Or.inl (fails_error e))
    | ok b =>
      simp only [ih, not_fails_ok, not_fails_pure, false_or, and_false, exists_false, or_false,
        Except.ok.injEq, exists_eq_left']

theorem exists_of_mapM_error {e : ε} (h : as.mapM f = .error e) : ∃ a ∈ as, f a = .error e := by
  induction as with
  | nil => cases h
  | cons a rest ih =>
    rw [List.mapM_cons] at h
    cases hfirst : f a with
    | error other =>
      rw [hfirst] at h
      cases h
      exact ⟨a, List.mem_cons_self, hfirst⟩
    | ok b =>
      cases hmore : rest.mapM f with
      | error other =>
        rw [hfirst, hmore] at h
        cases h
        obtain ⟨c, hc, hfault⟩ := ih hmore
        exact ⟨c, List.mem_cons_of_mem _ hc, hfault⟩
      | ok bs =>
        rw [hfirst, hmore] at h
        cases h

theorem mapM_of_ok {g : α → β} (h : ∀ a ∈ as, f a = .ok (g a)) :
    as.mapM f = .ok (as.map g) := by
  induction as with
  | nil => rfl
  | cons a rest ih =>
    obtain ⟨ha, hrest⟩ := List.forall_mem_cons.1 h
    rw [List.mapM_cons, ha, ih hrest]
    rfl

theorem mapM_eq_ok_iff {bs : List β} : as.mapM f = .ok bs ↔ as.map f = bs.map .ok := by
  induction as generalizing bs with
  | nil => cases bs <;> simp [pure, Except.pure]
  | cons a rest ih =>
    rw [List.mapM_cons, List.map_cons]
    cases bs with
    | nil =>
      refine iff_of_false (fun h => ?_) fun h => nomatch h
      cases hfirst : f a <;> cases hmore : rest.mapM f <;> simp [hfirst, hmore, bind, Except.bind,
        pure, Except.pure] at h
    | cons b bs =>
      rw [List.map_cons, List.cons.injEq, ← ih]
      cases f a <;> cases rest.mapM f <;> simp [bind, Except.bind, pure, Except.pure]

end

/-! ## Invariants -/

def Keeps (P : σ → Prop) (x : EStateM ε σ α) : Prop :=
  ∀ s, P s → Leaves x s P

section

variable {x : EStateM ε σ α} {f : α → EStateM ε σ β} {P : σ → Prop}

theorem keeps_pure (a : α) : Keeps P (pure a : EStateM ε σ α) := fun _ => id

theorem keeps_throw (e : ε) : Keeps P (throw e : EStateM ε σ α) := fun _ => id

theorem keeps_get : Keeps P (get : EStateM ε σ σ) := fun _ => id

theorem keeps_ofExcept (y : Except ε α) : Keeps P (ofExcept y : EStateM ε σ α) := by
  intro s hs
  cases y <;> exact hs

theorem keeps_modify {g : σ → σ} (h : ∀ s, P s → P (g s)) :
    Keeps P (modify g : EStateM ε σ PUnit) := h

theorem Keeps.bind (hx : Keeps P x) (hf : ∀ a, Keeps P (f a)) : Keeps P (x >>= f) := by
  intro s hs
  exact ensures_bind.2 (Ensures.mono (hx s hs) (fun a t ht => hf a t ht) fun _ _ => id)

theorem keeps_get_bind {f : σ → EStateM ε σ β} (h : ∀ s, P s → Leaves (f s) s P) :
    Keeps P (get >>= f) := fun s hs => ensures_bind.2 (h s hs)

end

/-! ## Two computations -/

/-- From two states, two computations give the same value or fail for the same reason, and leave
related states. -/
def Agree (R : σ → σ → Prop) (x y : EStateM ε σ α) (s t : σ) : Prop :=
  Ensures x s (fun a s' => Ensures y t (fun b t' => a = b ∧ R s' t') (fun _ _ => False))
    (fun e s' => Ensures y t (fun _ _ => False) (fun f t' => e = f ∧ R s' t'))

def Coupled (R : σ → σ → Prop) (x y : EStateM ε σ α) : Prop :=
  ∀ s t, R s t → Agree R x y s t

section

variable {R : σ → σ → Prop} {x y : EStateM ε σ α} {f g : α → EStateM ε σ β}

theorem agree_congr {x' y' : EStateM ε σ α} {s t : σ} (hx : x.run s = x'.run s)
    (hy : y.run t = y'.run t) : Agree R x y s t ↔ Agree R x' y' s t := by
  simp only [Agree, ensures_congr hx, ensures_congr hy]

theorem agree_of_run {z : EStateM ε σ α} {s t u : σ} (hx : x.run s = z.run u)
    (hy : y.run t = z.run u) (hz : Leaves z u fun v => R v v) : Agree R x y s t := by
  rw [Agree, ensures_congr hx, Ensures]
  cases hrun : z.run u with
  | ok a v => exact (ensures_congr hy).2 (by rw [Ensures, hrun]; exact ⟨rfl, hz.of_ok hrun⟩)
  | error e v => exact (ensures_congr hy).2 (by rw [Ensures, hrun]; exact ⟨rfl, hz.of_error hrun⟩)

theorem Agree.bind {s t : σ} (hxy : Agree R x y s t) (hfg : ∀ a, Coupled R (f a) (g a)) :
    Agree R (x >>= f) (y >>= g) s t := by
  refine ensures_bind.2 (Ensures.mono hxy (fun a s' h => ?_) fun e s' h => ?_)
  · cases hy : y.run t with
    | error e t' => exact (h.of_error hy).elim
    | ok b t' =>
      obtain ⟨rfl, hR⟩ := h.of_ok hy
      have hrun : (y >>= g).run t = (g a).run t' := run_bind_ok hy
      refine (hfg a s' t' hR).mono (fun _ _ h => ?_) fun _ _ h => ?_
      · exact (ensures_congr hrun).2 h
      · exact (ensures_congr hrun).2 h
  · exact ensures_bind.2 (h.mono (fun _ _ hfalse => hfalse.elim) fun _ _ => id)

theorem Coupled.bind (hxy : Coupled R x y) (hfg : ∀ a, Coupled R (f a) (g a)) :
    Coupled R (x >>= f) (y >>= g) := fun s t h => (hxy s t h).bind hfg

theorem coupled_pure (a : α) : Coupled R (pure a : EStateM ε σ α) (pure a) :=
  fun _ _ h => ⟨rfl, h⟩

theorem coupled_throw (e : ε) : Coupled R (throw e : EStateM ε σ α) (throw e) :=
  fun _ _ h => ⟨rfl, h⟩

theorem coupled_ofExcept (z : Except ε α) :
    Coupled R (ofExcept z : EStateM ε σ α) (ofExcept z) := by
  intro s t h
  cases z <;> exact ⟨rfl, h⟩

theorem coupled_modify {g h : σ → σ} (hgh : ∀ s t, R s t → R (g s) (h t)) :
    Coupled R (modify g : EStateM ε σ PUnit) (modify h) := fun s t hst => ⟨rfl, hgh s t hst⟩

theorem coupled_get_bind {f g : σ → EStateM ε σ β}
    (h : ∀ s t, R s t → Agree R (f s) (g t) s t) : Coupled R (get >>= f) (get >>= g) := h

end

def Linked (R : σ → σ → Prop) (x : EStateM ε σ α) (y : EStateM ε σ β) (s t : σ) : Prop :=
  Leaves x s fun s' => Leaves y t fun t' => R s' t'

section

variable {R : σ → σ → Prop} {P Q : σ → Prop} {s t : σ}

theorem Leaves.linked {x : EStateM ε σ α} {y : EStateM ε σ β} (hx : Leaves x s P)
    (hy : Leaves y t Q) (h : ∀ s' t', P s' → Q t' → R s' t') : Linked R x y s t :=
  hx.mono fun s' hs' => hy.mono fun t' ht' => h s' t' hs' ht'

theorem Agree.linked {x y : EStateM ε σ α} (h : Agree R x y s t) : Linked R x y s t :=
  h.mono (fun _ _ h => h.mono (fun _ _ h => h.2) fun _ _ h => h.elim)
    fun _ _ h => h.mono (fun _ _ h => h.elim) fun _ _ h => h.2

theorem linked_congr {x x' : EStateM ε σ α} {y y' : EStateM ε σ β} {s' t' : σ}
    (hx : x.run s = x'.run s') (hy : y.run t = y'.run t') (h : Linked R x' y' s' t') :
    Linked R x y s t :=
  (ensures_congr hx).2 (h.mono fun _ h => (ensures_congr hy).2 h)

theorem linked_get_bind {f : σ → EStateM ε σ α} {g : σ → EStateM ε σ β}
    (h : Linked R (f s) (g t) s t) : Linked R (get >>= f) (get >>= g) s t := h

theorem Leaves.bind_pure {x : EStateM ε σ α} (h : Leaves x s P) (g : α → β) :
    Leaves (x >>= fun a => pure (g a)) s P := ensures_bind.2 h

theorem Linked.bind_pure {x y : EStateM ε σ α} (h : Linked R x y s t) (g : α → β) :
    Linked R (x >>= fun a => pure (g a)) (y >>= fun a => pure (g a)) s t :=
  (h.mono fun _ h => h.bind_pure g).bind_pure g

theorem Agree.linked_bind {x y : EStateM ε σ α} {f g : α → EStateM ε σ β} (hxy : Agree R x y s t)
    (hfg : ∀ a s t, R s t → Linked R (f a) (g a) s t) : Linked R (x >>= f) (y >>= g) s t := by
  refine ensures_bind.2 (hxy.mono (fun a s' h => ?_) fun e s' h => ?_)
  · cases hy : y.run t with
    | error e t' => exact (h.of_error hy).elim
    | ok b t' =>
      obtain ⟨rfl, hR⟩ := h.of_ok hy
      exact (hfg a s' t' hR).mono fun _ h => (ensures_congr (run_bind_ok hy)).2 h
  · exact ensures_bind.2 (h.mono (fun _ _ h => h.elim) fun _ _ h => h.2)

end

end Playscript
