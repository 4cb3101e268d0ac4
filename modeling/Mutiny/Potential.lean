import Mathlib.Algebra.BigOperators.Group.Finset.Piecewise
import Mathlib.Order.WellFounded
import Mutiny.Machine

/-!
# Potentials

A potential is a number that every step of a run lowers by what the step emits, so that a run emits at most the
potential that it began with. A step may also take in something that raises the potential again, and this is added to
the bound. Where no step does, an infinite run emits nothing from some point on.
-/

namespace Machine

variable {σ α ε δ : Type*} {M : Machine σ α} {I : σ → Prop} {G : σ → α → Prop} (potential : σ → Nat)
  (emits : σ → α → List ε)

/-- What a run emits is paid for out of the potential, and of `c` for everything that the run takes in. -/
theorem trace_length_le (takes : σ → α → List δ) (c : Nat) (hI : ∀ s a t, I s → M.step s a = some t → I t)
    (hstep : ∀ s a t, I s → G s a → M.step s a = some t →
      potential t + (emits s a).length ≤ potential s + c * (takes s a).length)
    {s t : σ} {as : List α} (h₀ : I s) (hG : M.Along G s as) (h : M.run s as = some t) :
    potential t + (M.trace emits s as).length ≤ potential s + c * (M.trace takes s as).length := by
  induction as generalizing s with
  | nil =>
    cases h
    exact Nat.le_refl _
  | cons a as ih =>
    obtain ⟨u, hu, hrest⟩ := run_cons_some h
    have hfirst := hstep s a u h₀ hG.1 hu
    have hlast := ih (hI s a u h₀ hu) (hG.2 u hu) hrest
    simp only [trace, hu, Option.elim_some, List.length_append, Nat.mul_add]
    omega

/-- Where every step lowers the potential, a run is no longer than the potential that it began with. -/
theorem length_le_potential (hI : ∀ s a t, I s → G s a → M.step s a = some t → I t)
    (hlowers : ∀ s a t, I s → G s a → M.step s a = some t → potential t < potential s) {s t : σ} {as : List α}
    (h₀ : I s) (hG : M.Along G s as) (h : M.run s as = some t) :
    potential t + as.length ≤ potential s := by
  induction as generalizing s with
  | nil =>
    cases h
    exact Nat.le_refl _
  | cons a as ih =>
    obtain ⟨u, hu, hrest⟩ := run_cons_some h
    have hfirst := hlowers s a u h₀ hG.1 hu
    have hlast := ih (hI s a u h₀ hG.1 hu) (hG.2 u hu) hrest
    rw [List.length_cons]
    omega

/-- Such steps can be taken until none of them is left. -/
theorem exists_settled (hI : ∀ s a t, I s → G s a → M.step s a = some t → I t)
    (hlowers : ∀ s a t, I s → G s a → M.step s a = some t → potential t < potential s) (s : σ) (h₀ : I s) :
    ∃ as t, M.Along G s as ∧ M.run s as = some t ∧ ∀ a, G t a → M.step t a = none := by
  induction hp : potential s using Nat.strong_induction_on generalizing s with
  | h p ih =>
    by_cases hs : ∃ a t, G s a ∧ M.step s a = some t
    · obtain ⟨a, t, ha, ht⟩ := hs
      obtain ⟨as, u, hal, hu, hnone⟩ := ih (potential t) (hp ▸ hlowers s a t h₀ ha ht) t (hI s a t h₀ ha ht) rfl
      exact ⟨a :: as, u, .cons ha ht hal, (run_of_step ht as).trans hu, hnone⟩
    · refine ⟨[], s, trivial, rfl, fun a ha => ?_⟩
      cases ht : M.step s a with
      | none => rfl
      | some t => exact absurd ⟨a, t, ha, ht⟩ hs

/-- The states and the actions of a run that does not end. -/
structure Endless (M : Machine σ α) (G : σ → α → Prop) (state : Nat → σ) (act : Nat → α) : Prop where
  step : ∀ n, M.step (state n) (act n) = some (state (n + 1))
  guard : ∀ n, G (state n) (act n)

theorem eventually_silent (hI : ∀ s a t, I s → M.step s a = some t → I t)
    (hstep : ∀ s a t, I s → G s a → M.step s a = some t → potential t + (emits s a).length ≤ potential s)
    {state : Nat → σ} {act : Nat → α} (h₀ : I (state 0)) (h : M.Endless G state act) :
    ∃ n, ∀ m, n ≤ m → emits (state m) (act m) = [] := by
  have hall : ∀ n, I (state n) := by
    intro n
    induction n with
    | zero => exact h₀
    | succ n ih => exact hI _ _ _ ih (h.step n)
  have hlowers : ∀ n, potential (state (n + 1)) + (emits (state n) (act n)).length ≤ potential (state n) :=
    fun n => hstep _ _ _ (hall n) (h.guard n) (h.step n)
  have hanti : Antitone fun n => potential (state n) :=
    antitone_nat_of_succ_le fun n => Nat.le_of_add_right_le (hlowers n)
  obtain ⟨n, hn⟩ : ∃ n, ∀ m, potential (state n) ≤ potential (state m) :=
    ⟨Function.argmin fun n => potential (state n), fun m => Function.argmin_le (fun n => potential (state n)) m⟩
  -- where the potential is lowest there is nothing left to pay with
  refine ⟨n, ?_⟩
  intro m hm
  have hle : potential (state m) ≤ potential (state n) := hanti hm
  have hnext := hn (m + 1)
  have hone := hlowers m
  exact List.length_eq_zero_iff.mp (by omega)

end Machine

/-! ## Potentials that are sums -/

namespace Potential

variable {β : Type*} (w : β → Nat) (f : Nat → β) {n i : Nat} (x : β)

theorem sum_update (hi : i < n) :
    ∑ j ∈ Finset.range n, w (Function.update f i x j) + w (f i) = ∑ j ∈ Finset.range n, w (f j) + w x := by
  have hmem := Finset.mem_range.mpr hi
  have hw : (fun j => w (Function.update f i x j)) = Function.update (fun j => w (f j)) i (w x) :=
    funext fun j => Function.apply_update (fun _ => w) f i x j
  rw [hw, Finset.sum_update_of_mem hmem, ← Finset.add_sum_erase _ _ hmem, Finset.sdiff_singleton_eq_erase]
  omega

theorem sum_update_of_le (hi : n ≤ i) :
    ∑ j ∈ Finset.range n, w (Function.update f i x j) = ∑ j ∈ Finset.range n, w (f j) := by
  apply Finset.sum_congr rfl
  intro j hj
  rw [Function.update_of_ne (Nat.ne_of_lt (Nat.lt_of_lt_of_le (Finset.mem_range.mp hj) hi))]

/-! ## Potentials that count -/

variable {γ : Type*} (p : γ → Bool) (l : List γ) (a : γ)

theorem countP_cons : (a :: l).countP p = l.countP p + (p a).toNat := by
  rw [List.countP_cons]
  cases p a <;> rfl

theorem countP_snoc : (l ++ [a]).countP p = l.countP p + (p a).toNat := by
  rw [List.countP_append, countP_cons, List.countP_nil, Nat.zero_add]

end Potential
