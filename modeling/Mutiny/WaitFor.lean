import Mathlib.Data.Set.Insert
import Mutiny.Machine

/-!
# Processes that wait for each other

`waits c` is the process that a blocked `c` waits for, `none` when `c` is not blocked. A set is deadlocked when every
member waits for a member. If what a process waits for cannot change while both are blocked, a deadlocked set never
gets out of it again.
-/

namespace WaitFor

variable {P : Type*}

structure Deadlocked (waits : P → Option P) (D : Set P) : Prop where
  nonempty : D.Nonempty
  within : ∀ c ∈ D, ∃ d ∈ D, waits c = some d

variable {waits : P → Option P}

theorem deadlocked_pair {c d : P} (hc : waits c = some d) (hd : d = c ∨ waits d = some c) :
    Deadlocked waits {c, d} := by
  refine ⟨⟨c, by simp⟩, ?_⟩
  intro e he
  rcases he with rfl | rfl
  · exact ⟨d, by simp, hc⟩
  · rcases hd with rfl | hd
    · exact ⟨_, by simp, hc⟩
    · exact ⟨c, by simp, hd⟩

/-- When everyone waits for someone of lower rank, the member of lowest rank waits for nobody. -/
theorem not_deadlocked_of_rank (rank : P → Nat) (h : ∀ c d, waits c = some d → rank d < rank c) (D : Set P) :
    ¬ Deadlocked waits D := by
  intro hD
  have hall : ∀ n, ∀ c ∈ D, rank c ≤ n → False := by
    intro n
    induction n with
    | zero =>
      intro c hc hn
      obtain ⟨d, -, hw⟩ := hD.within c hc
      have := h c d hw
      omega
    | succ n ih =>
      intro c hc hn
      obtain ⟨d, hd, hw⟩ := hD.within c hc
      have := h c d hw
      exact ih d hd (by omega)
  obtain ⟨c, hc⟩ := hD.nonempty
  exact hall (rank c) c hc (Nat.le_refl _)

theorem Deadlocked.run {σ α : Type*} {M : Machine σ α} {I : σ → Prop} {w : σ → P → Option P}
    (hI : ∀ s a t, I s → M.step s a = some t → I t)
    (hstep : ∀ s a t, I s → M.step s a = some t →
      ∀ c d, w s c = some d → w s d ≠ none → w t c = some d)
    {s t : σ} {as : List α} {D : Set P} (h₀ : I s) (hD : Deadlocked (w s) D) (h : M.run s as = some t) :
    Deadlocked (w t) D := by
  refine (Machine.invariant (I := fun s => I s ∧ Deadlocked (w s) D) ?_ ⟨h₀, hD⟩ h).2
  intro s a t hs hst
  refine ⟨hI s a t hs.1 hst, hs.2.nonempty, fun c hmem => ?_⟩
  obtain ⟨d, hd, hc⟩ := hs.2.within c hmem
  obtain ⟨e, -, hd'⟩ := hs.2.within d hd
  exact ⟨d, hd, hstep s a t hs.1 hst c d hc (by simp [hd'])⟩

end WaitFor
