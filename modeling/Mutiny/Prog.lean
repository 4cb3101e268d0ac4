import Mathlib.Order.Defs.Unbundled

/-!
# State-and-exception programs

A program reads and writes a state and ends with a value or an exception; what it wrote before the exception stays.
`exec` runs it. `Within R x` bounds what a run can do to the state by a preorder `R`, however the run ends, so it is
kept by sequencing, by loops and by catching exceptions. `Succeeds Q P x` says that from a state in `Q` the run ends
with a value in `P` and stays in `Q`, `Yields r x` that the run ends with `r` from every state, and `Fails R x` bounds
only the runs that end with an exception.
-/

abbrev Prog (σ ε : Type) := ExceptT ε (StateM σ)

namespace Prog

variable {σ ε ε' α β : Type}

def exec (x : Prog σ ε α) (s : σ) : Except ε α × σ := x.run.run s

/-- Run a program and hand its exception on as a value. -/
def attempt (x : Prog σ ε α) : Prog σ ε' (Except ε α) := ExceptT.mk do return .ok (← x.run)

def map_error (f : ε → ε') (x : Prog σ ε α) : Prog σ ε' α := ExceptT.mk do return (← x.run).mapError f

@[simp] theorem mapError_ok (f : ε → ε') (a : α) : (.ok a : Except ε α).mapError f = .ok a := rfl

@[simp] theorem mapError_error (f : ε → ε') (e : ε) : (.error e : Except ε α).mapError f = .error (f e) := rfl

@[simp] theorem exec_pure (a : α) (s : σ) : exec (pure a : Prog σ ε α) s = (.ok a, s) := rfl

@[simp] theorem exec_throw (e : ε) (s : σ) : exec (throw e : Prog σ ε α) s = (.error e, s) := rfl

@[simp] theorem exec_get (s : σ) : exec (get : Prog σ ε σ) s = (.ok s, s) := rfl

@[simp] theorem exec_modify (f : σ → σ) (s : σ) : exec (modify f : Prog σ ε Unit) s = (.ok (), f s) := rfl

@[simp] theorem exec_attempt (x : Prog σ ε α) (s : σ) :
    exec (attempt x : Prog σ ε' _) s = (.ok (exec x s).1, (exec x s).2) := rfl

@[simp] theorem exec_map_error (f : ε → ε') (x : Prog σ ε α) (s : σ) :
    exec (map_error f x) s = ((exec x s).1.mapError f, (exec x s).2) := rfl

theorem exec_bind_ok {x : Prog σ ε α} {f : α → Prog σ ε β} {s t : σ} {a : α} (h : exec x s = (.ok a, t)) :
    exec (x >>= f) s = exec (f a) t := by
  have e : exec (x >>= f) s = exec (ExceptT.mk (ExceptT.bindCont f (exec x s).1)) (exec x s).2 := rfl
  rw [e, h]
  rfl

theorem exec_bind_error {x : Prog σ ε α} {f : α → Prog σ ε β} {s t : σ} {e : ε} (h : exec x s = (.error e, t)) :
    exec (x >>= f) s = (.error e, t) := by
  have e' : exec (x >>= f) s = exec (ExceptT.mk (ExceptT.bindCont f (exec x s).1)) (exec x s).2 := rfl
  rw [e', h]
  rfl

theorem exec_bind_eq_ok {x : Prog σ ε α} {f : α → Prog σ ε β} {s u : σ} {b : β}
    (h : exec (x >>= f) s = (.ok b, u)) : ∃ a t, exec x s = (.ok a, t) ∧ exec (f a) t = (.ok b, u) := by
  rcases hx : exec x s with ⟨e | a, t⟩
  · rw [exec_bind_error hx] at h; cases h
  · rw [exec_bind_ok hx] at h; exact ⟨a, t, rfl, h⟩

@[simp] theorem exec_pure_bind (a : α) (f : α → Prog σ ε β) (s : σ) : exec (pure a >>= f) s = exec (f a) s :=
  exec_bind_ok rfl

@[simp] theorem exec_get_bind (f : σ → Prog σ ε β) (s : σ) : exec (get >>= f) s = exec (f s) s :=
  exec_bind_ok rfl

@[simp] theorem exec_modify_bind (g : σ → σ) (f : Unit → Prog σ ε β) (s : σ) :
    exec (modify g >>= f) s = exec (f ()) (g s) :=
  exec_bind_ok rfl

@[simp] theorem exec_throw_bind (e : ε) (f : α → Prog σ ε β) (s : σ) :
    exec ((throw e : Prog σ ε α) >>= f) s = (.error e, s) :=
  exec_bind_error rfl

@[simp] theorem exec_attempt_bind (x : Prog σ ε α) (f : Except ε α → Prog σ ε' β) (s : σ) :
    exec (attempt x >>= f) s = exec (f (exec x s).1) (exec x s).2 :=
  exec_bind_ok rfl

theorem exec_mapM {l : List α} {f : α → Prog σ ε β} {g : α → β} {s : σ} (h : ∀ a ∈ l, exec (f a) s = (.ok (g a), s)) :
    exec (l.mapM f) s = (.ok (l.map g), s) := by
  induction l with
  | nil => rfl
  | cons a l ih =>
    rw [List.mapM_cons, exec_bind_ok (h a (by simp)), exec_bind_ok (ih fun b hb => h b (by simp [hb]))]
    rfl

/-! ## Bounds on the state -/

/-- However `x` ends, the state it leaves is related to the one it found. -/
def Within (R : σ → σ → Prop) (x : Prog σ ε α) : Prop := ∀ s, R s (exec x s).2

section
variable {R : σ → σ → Prop} [IsPreorder σ R]

theorem within_pure (a : α) : Within R (pure a : Prog σ ε α) := fun s => refl_of R s

theorem within_throw (e : ε) : Within R (throw e : Prog σ ε α) := fun s => refl_of R s

theorem within_throw_bind (e : ε) (f : α → Prog σ ε β) : Within R ((throw e : Prog σ ε α) >>= f) := by
  intro s
  rw [exec_throw_bind]
  exact refl_of R s

theorem within_get : Within R (get : Prog σ ε σ) := fun s => refl_of R s

omit [IsPreorder σ R] in
theorem within_modify {f : σ → σ} (h : ∀ s, R s (f s)) : Within R (modify f : Prog σ ε Unit) := h

omit [IsPreorder σ R] in
theorem Within.bind_trans {S : σ → σ → Prop} [IsPreorder σ S] (hRS : ∀ s t u, R s t → S t u → R s u)
    {x : Prog σ ε α} {f : α → Prog σ ε β} (hx : Within R x) (hf : ∀ a, Within S (f a)) : Within R (x >>= f) := by
  intro s
  have h₁ := hx s
  rcases hs : exec x s with ⟨e | a, t⟩ <;> rw [hs] at h₁
  · rw [exec_bind_error hs]; exact h₁
  · rw [exec_bind_ok hs]; exact hRS s t _ h₁ (hf a t)

theorem Within.bind {x : Prog σ ε α} {f : α → Prog σ ε β} (hx : Within R x) (hf : ∀ a, Within R (f a)) :
    Within R (x >>= f) :=
  Within.bind_trans (R := R) (S := R) (fun _ _ _ => trans_of R) hx hf

omit [IsPreorder σ R] in
theorem Within.attempt {x : Prog σ ε α} (hx : Within R x) : Within R (attempt x : Prog σ ε' _) := fun s => hx s

omit [IsPreorder σ R] in
theorem Within.map_error {x : Prog σ ε α} (hx : Within R x) (f : ε → ε') : Within R (map_error f x) := fun s => hx s

theorem Within.forM {l : List α} {f : α → Prog σ ε PUnit} (h : ∀ a ∈ l, Within R (f a)) :
    Within R (l.forM f) := by
  induction l with
  | nil => exact within_pure _
  | cons a l ih =>
    rw [List.forM_eq_forM, List.forM_cons]
    exact (h a (by simp)).bind fun _ => ih fun b hb => h b (by simp [hb])

theorem Within.foldlM {l : List α} {f : β → α → Prog σ ε β} (h : ∀ b, ∀ a ∈ l, Within R (f b a)) (b : β) :
    Within R (l.foldlM f b) := by
  induction l generalizing b with
  | nil => exact within_pure _
  | cons a l ih =>
    rw [List.foldlM_cons]
    exact (h b a (by simp)).bind fun b' => ih (fun b a ha => h b a (by simp [ha])) b'

end

/-! ## Runs that end with a value -/

/-- From `s` the program ends with a value. -/
def Returns (x : Prog σ ε α) (s : σ) : Prop := ∃ a t, exec x s = (.ok a, t)

theorem Returns.of_ok {x : Prog σ ε α} {s t : σ} {a : α} (h : exec x s = (.ok a, t)) : Returns x s := ⟨a, t, h⟩

theorem not_returns {x : Prog σ ε α} {s t : σ} {e : ε} (h : exec x s = (.error e, t)) : ¬ Returns x s := by
  intro ⟨a, u, hr⟩
  rw [h] at hr
  cases hr

@[simp] theorem returns_pure (a : α) (s : σ) : Returns (pure a : Prog σ ε α) s := ⟨a, s, rfl⟩

@[simp] theorem not_returns_throw (e : ε) (s : σ) : ¬ Returns (throw e : Prog σ ε α) s := not_returns rfl

theorem returns_bind {x : Prog σ ε α} {f : α → Prog σ ε β} {s : σ} :
    Returns (x >>= f) s ↔ ∃ a t, exec x s = (.ok a, t) ∧ Returns (f a) t := by
  constructor
  · intro ⟨b, u, h⟩
    obtain ⟨a, t, hx, hf⟩ := exec_bind_eq_ok h
    exact ⟨a, t, hx, b, u, hf⟩
  · intro ⟨a, t, hx, b, u, hf⟩
    exact ⟨b, u, (exec_bind_ok hx).trans hf⟩

theorem returns_bind_of_ok {x : Prog σ ε α} {f : α → Prog σ ε β} {s t : σ} {a : α} (h : exec x s = (.ok a, t)) :
    Returns (x >>= f) s ↔ Returns (f a) t := by
  unfold Returns
  rw [exec_bind_ok h]

theorem not_returns_bind {x : Prog σ ε α} {f : α → Prog σ ε β} {s : σ} (h : ¬ Returns x s) :
    ¬ Returns (x >>= f) s := by
  intro hb
  obtain ⟨a, t, hx, -⟩ := returns_bind.mp hb
  exact h ⟨a, t, hx⟩

theorem returns_map_error (f : ε → ε') (x : Prog σ ε α) (s : σ) : Returns (map_error f x) s ↔ Returns x s := by
  unfold Returns
  rw [exec_map_error]
  rcases exec x s with ⟨e | a, t⟩ <;> simp

/-! ## What is seen of a run from outside -/

/-- Whether the program ends with a value, and the state it leaves. -/
def outcome (x : Prog σ ε α) (s : σ) : Bool × σ := ((exec x s).1.isOk, (exec x s).2)

theorem outcome_of_ok {x : Prog σ ε α} {s t : σ} {a : α} (h : exec x s = (.ok a, t)) : outcome x s = (true, t) := by
  unfold outcome
  rw [h]
  rfl

theorem outcome_of_error {x : Prog σ ε α} {s t : σ} {e : ε} (h : exec x s = (.error e, t)) :
    outcome x s = (false, t) := by
  unfold outcome
  rw [h]
  rfl

theorem outcome_seq (x : Prog σ ε α) (y : Prog σ ε β) (s : σ) : outcome (x >>= fun _ => y) s =
    if (outcome x s).1 then outcome y (outcome x s).2 else outcome x s := by
  rcases hx : exec x s with ⟨e | a, t⟩
  · rw [outcome_of_error (exec_bind_error hx), outcome_of_error hx]
    rfl
  · rw [outcome_of_ok hx]
    unfold outcome
    rw [exec_bind_ok hx]
    rfl

theorem outcome_map (x : Prog σ ε α) (f : α → β) (s : σ) : outcome (x >>= fun a => pure (f a)) s = outcome x s := by
  rcases hx : exec x s with ⟨e | a, t⟩
  · rw [outcome_of_error (exec_bind_error hx), outcome_of_error hx]
  · rw [outcome_of_ok hx, outcome_of_ok ((exec_bind_ok hx).trans (exec_pure (f a) t))]

theorem outcome_bind_congr {x : Prog σ ε α} {x' : Prog σ ε β} {γ δ : Type} {f : α → Prog σ ε γ} {y : Prog σ ε δ} {s : σ}
    (hx : outcome x s = outcome x' s) (hf : ∀ a t, outcome (f a) t = outcome y t) :
    outcome (x >>= f) s = outcome (x' >>= fun _ => y) s := by
  rw [outcome_seq, ← hx]
  rcases hs : exec x s with ⟨e | a, t⟩
  · rw [outcome_of_error (exec_bind_error hs), outcome_of_error hs]
    rfl
  · rw [outcome_of_ok hs]
    unfold outcome at hf ⊢
    rw [exec_bind_ok hs]
    exact hf a t

/-! ## Loops that end with a value -/

theorem foldlM_ok_append {P : List α → β → σ → Prop} {f : β → α → Prog σ ε β}
    (step : ∀ done b s a b' t, P done b s → exec (f b a) s = (.ok b', t) → P (done ++ [a]) b' t) :
    ∀ {l done : List α} {b b' : β} {s t : σ}, P done b s → exec (l.foldlM f b) s = (.ok b', t) →
      P (done ++ l) b' t
  | [], done, b, b', s, t, h, hx => by cases hx; simpa using h
  | a :: l, done, b, b', s, t, h, hx => by
    rw [List.foldlM_cons] at hx
    obtain ⟨b₁, s₁, h₁, h₂⟩ := exec_bind_eq_ok hx
    simpa using foldlM_ok_append step (step done b s a b₁ s₁ h h₁) h₂

theorem foldlM_ok {P : List α → β → σ → Prop} {f : β → α → Prog σ ε β}
    (step : ∀ done b s a b' t, P done b s → exec (f b a) s = (.ok b', t) → P (done ++ [a]) b' t)
    {l : List α} {b b' : β} {s t : σ} (h : P [] b s) (hx : exec (l.foldlM f b) s = (.ok b', t)) : P l b' t :=
  foldlM_ok_append step h hx

/-! ## Programs that succeed -/

/-- From every state in `Q` the program ends with a value in `P`, in a state in `Q`. -/
def Succeeds (Q : σ → Prop) (P : α → Prop) (x : Prog σ ε α) : Prop :=
  ∀ s, Q s → ∃ a t, exec x s = (.ok a, t) ∧ P a ∧ Q t

section
variable {Q : σ → Prop}

theorem succeeds_pure {P : α → Prop} {a : α} (h : P a) : Succeeds Q P (pure a : Prog σ ε α) :=
  fun s hs => ⟨a, s, rfl, h, hs⟩

theorem succeeds_get : Succeeds Q Q (get : Prog σ ε σ) := fun s hs => ⟨s, s, rfl, hs, hs⟩

theorem succeeds_modify {f : σ → σ} (h : ∀ s, Q s → Q (f s)) :
    Succeeds Q (fun _ => True) (modify f : Prog σ ε Unit) :=
  fun s hs => ⟨(), f s, rfl, trivial, h s hs⟩

theorem Succeeds.bind {P : α → Prop} {P' : β → Prop} {x : Prog σ ε α} {f : α → Prog σ ε β} (hx : Succeeds Q P x)
    (hf : ∀ a, P a → Succeeds Q P' (f a)) : Succeeds Q P' (x >>= f) := by
  intro s hs
  obtain ⟨a, t, h, hp, ht⟩ := hx s hs
  rw [exec_bind_ok h]
  exact hf a hp t ht

theorem Succeeds.foldlM {P : β → Prop} {f : β → α → Prog σ ε β} (h : ∀ b a, P b → Succeeds Q P (f b a)) :
    ∀ (l : List α) (b : β), P b → Succeeds Q P (l.foldlM f b)
  | [], _, hb => succeeds_pure hb
  | a :: l, b, hb => by
    rw [List.foldlM_cons]
    exact (h b a hb).bind fun b' hb' => Succeeds.foldlM h l b' hb'

theorem Succeeds.forM {f : α → Prog σ ε PUnit} (h : ∀ a, Succeeds Q (fun _ => True) (f a)) :
    ∀ l : List α, Succeeds Q (fun _ => True) (l.forM f)
  | [] => succeeds_pure trivial
  | a :: l => by
    rw [List.forM_eq_forM, List.forM_cons]
    exact (h a).bind fun _ _ => Succeeds.forM h l

end

/-! ## Runs whose value does not depend on the state -/

/-- From every state the run ends with `r`. -/
def Yields (r : Except ε α) (x : Prog σ ε α) : Prop := ∀ s, (exec x s).1 = r

theorem yields_pure (a : α) : Yields (.ok a) (pure a : Prog σ ε α) := fun _ => rfl

theorem yields_modify (f : σ → σ) : Yields (.ok ()) (modify f : Prog σ ε Unit) := fun _ => rfl

theorem Yields.exec {r : Except ε α} {x : Prog σ ε α} (h : Yields r x) (s : σ) : ∃ t, exec x s = (r, t) :=
  ⟨(Prog.exec x s).2, Prod.ext (h s) rfl⟩

theorem Yields.bind {r : Except ε α} {g : α → Except ε β} {x : Prog σ ε α} {f : α → Prog σ ε β} (hx : Yields r x)
    (hf : ∀ a, Yields (g a) (f a)) : Yields (r >>= g) (x >>= f) := by
  intro s
  obtain ⟨t, ht⟩ := hx.exec s
  cases r with
  | error e =>
    rw [exec_bind_error ht]
    rfl
  | ok a =>
    rw [exec_bind_ok ht]
    exact hf a t

theorem Yields.foldlM {g : β → α → Except ε β} {f : β → α → Prog σ ε β} (h : ∀ b a, Yields (g b a) (f b a)) :
    ∀ (l : List α) (b : β), Yields (l.foldlM g b) (l.foldlM f b)
  | [], b => yields_pure b
  | a :: l, b => by
    rw [List.foldlM_cons, List.foldlM_cons]
    exact (h b a).bind fun b' => Yields.foldlM h l b'

/-! ## Programs that fail -/

/-- A run that ends with an exception relates the state it leaves to the one it found by `R`. -/
def Fails (R : σ → σ → Prop) (x : Prog σ ε α) : Prop := ∀ s e t, exec x s = (.error e, t) → R s t

section
variable {R S : σ → σ → Prop}

theorem Within.fails {x : Prog σ ε α} (h : Within R x) : Fails R x := by
  intro s e t hx
  have := h s
  rwa [hx] at this

theorem fails_pure (a : α) : Fails R (pure a : Prog σ ε α) := fun _ _ _ h => by cases h

theorem fails_get : Fails R (get : Prog σ ε σ) := fun _ _ _ h => by cases h

theorem fails_modify (f : σ → σ) : Fails R (modify f : Prog σ ε Unit) := fun _ _ _ h => by cases h

theorem Fails.bind (hSR : ∀ s t u, S s t → R t u → R s u) {x : Prog σ ε α} {f : α → Prog σ ε β} (hx : Fails R x)
    (hw : Within S x) (hf : ∀ a, Fails R (f a)) : Fails R (x >>= f) := by
  intro s e t h
  rcases hs : exec x s with ⟨e' | a, u⟩
  · rw [exec_bind_error hs] at h
    cases h
    exact hx s e t hs
  · rw [exec_bind_ok hs] at h
    have hu := hw s
    rw [hs] at hu
    exact hSR s u t hu (hf a u e t h)

theorem Fails.foldlM (hSR : ∀ s t u, S s t → R t u → R s u) {f : β → α → Prog σ ε β} (h : ∀ b a, Fails R (f b a))
    (hw : ∀ b a, Within S (f b a)) : ∀ (l : List α) (b : β), Fails R (l.foldlM f b)
  | [], b => fails_pure b
  | a :: l, b => by
    rw [List.foldlM_cons]
    exact (h b a).bind hSR (hw b a) fun b' => Fails.foldlM hSR h hw l b'

end

end Prog
