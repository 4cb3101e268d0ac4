import Mathlib.Data.List.Induction
import Mathlib.Logic.Function.Basic

/-!
# Machines, runs and guarded invariants

A machine is a partial step function: `step s a` is the state an action `a` leads to, `none` when `a` is not
enabled in `s`. A run is a list of actions, so a run is a value that can be evaluated. `Along G` says that every
step of a run meets the guard `G` in the state it is taken from; an invariant that guarded steps keep holds after
every guarded run.
-/

structure Machine (σ α : Type*) where
  step : σ → α → Option σ

namespace Machine

variable {σ α : Type*} (M : Machine σ α)

/-- The state after a list of actions, if each of them is enabled in turn. -/
def run : σ → List α → Option σ
  | s, [] => some s
  | s, a :: as => (M.step s a).bind fun t => run t as

/-- Each action of the list meets `G` in the state it is taken from. -/
def Along (G : σ → α → Prop) : σ → List α → Prop
  | _, [] => True
  | s, a :: as => G s a ∧ ∀ t, M.step s a = some t → Along G t as

def Enabled (s : σ) (a : α) : Prop := ∃ t, M.step s a = some t

/-- What the actions of a list emit, each in the state it is taken from. -/
def trace {ε : Type*} (ev : σ → α → List ε) : σ → List α → List ε
  | _, [] => []
  | s, a :: as => ev s a ++ (M.step s a).elim [] fun t => trace ev t as

@[simp] theorem run_nil (s : σ) : M.run s [] = some s := rfl

theorem run_cons (s : σ) (a : α) (as : List α) : M.run s (a :: as) = (M.step s a).bind fun t => M.run t as := rfl

@[simp] theorem along_nil (G : σ → α → Prop) (s : σ) : M.Along G s [] := trivial

variable {M}

theorem run_cons_some {s u : σ} {a : α} {as : List α} (h : M.run s (a :: as) = some u) :
    ∃ t, M.step s a = some t ∧ M.run t as = some u :=
  Option.bind_eq_some_iff.mp h

theorem run_of_step {s t : σ} {a : α} (h : M.step s a = some t) (as : List α) : M.run s (a :: as) = M.run t as := by
  rw [run_cons, h]
  rfl

theorem run_singleton {s t : σ} {a : α} (h : M.step s a = some t) : M.run s [a] = some t := run_of_step h []

theorem run_append (s : σ) (as bs : List α) : M.run s (as ++ bs) = (M.run s as).bind fun t => M.run t bs := by
  induction as generalizing s with
  | nil => rfl
  | cons a as ih =>
    rw [List.cons_append, run_cons, run_cons, Option.bind_assoc]
    exact congrArg _ (funext fun t => ih t)

theorem run_snoc_some {s u : σ} {as : List α} {a : α} (h : M.run s (as ++ [a]) = some u) :
    ∃ t, M.run s as = some t ∧ M.step t a = some u := by
  rw [run_append] at h
  obtain ⟨t, ht, hs⟩ := Option.bind_eq_some_iff.mp h
  obtain ⟨v, hv, hrest⟩ := run_cons_some hs
  cases hrest
  exact ⟨t, ht, hv⟩

/-- A fold over moves of any number of steps is a run. -/
theorem run_foldl {β : Type*} {f : σ → β → σ} (hf : ∀ s b, ∃ as, M.run s as = some (f s b)) (bs : List β) (s : σ) :
    ∃ as, M.run s as = some (bs.foldl f s) := by
  induction bs generalizing s with
  | nil => exact ⟨[], rfl⟩
  | cons b bs ih =>
    obtain ⟨as, has⟩ := hf s b
    obtain ⟨as', has'⟩ := ih (f s b)
    refine ⟨as ++ as', ?_⟩
    rw [run_append, has]
    exact has'

theorem trace_snoc {ε : Type*} (ev : σ → α → List ε) {s t : σ} {as : List α} (a : α) (h : M.run s as = some t) :
    M.trace ev s (as ++ [a]) = M.trace ev s as ++ ev t a := by
  induction as generalizing s with
  | nil =>
    cases h
    cases hs : M.step t a <;> simp [trace, hs]
  | cons b as ih =>
    obtain ⟨u, hu, hrest⟩ := run_cons_some h
    simp [trace, hu, ih hrest]

/-- What every step keeps, as a statement about the run so far, holds of every run. -/
theorem history_invariant {I : List α → σ → Prop} {s : σ} (h₀ : I [] s)
    (hstep : ∀ as t a u, M.run s as = some t → I as t → M.step t a = some u → I (as ++ [a]) u) {t : σ} {as : List α}
    (h : M.run s as = some t) : I as t := by
  induction as using List.reverseRecOn generalizing t with
  | nil => cases h; exact h₀
  | append_singleton as a ih =>
    obtain ⟨u, hu, hs⟩ := run_snoc_some h
    exact hstep as u a t hu (ih hu) hs

theorem Along.cons {G : σ → α → Prop} {s t : σ} {a : α} {as : List α} (hG : G s a) (hs : M.step s a = some t)
    (h : M.Along G t as) : M.Along G s (a :: as) := by
  refine ⟨hG, fun u hu => ?_⟩
  rw [hs] at hu
  cases hu
  exact h

instance decAlong {G : σ → α → Prop} [∀ s a, Decidable (G s a)] : ∀ s as, Decidable (M.Along G s as)
  | _, [] => .isTrue trivial
  | s, a :: as =>
    match hs : M.step s a with
    | none => decidable_of_iff (G s a) ⟨fun h => ⟨h, fun t ht => by simp [hs] at ht⟩, fun h => h.1⟩
    | some t =>
      have : Decidable (M.Along G t as) := decAlong t as
      decidable_of_iff (G s a ∧ M.Along G t as) ⟨fun h => .cons h.1 hs h.2, fun h => ⟨h.1, h.2 t hs⟩⟩

theorem Along.append_left {G : σ → α → Prop} {s : σ} {as bs : List α} (h : M.Along G s (as ++ bs)) :
    M.Along G s as := by
  induction as generalizing s with
  | nil => trivial
  | cons a as ih => exact ⟨h.1, fun t ht => ih (h.2 t ht)⟩

theorem along_iff_steps {G : σ → α → Prop} {s : σ} {as : List α} :
    M.Along G s as ↔ ∀ bs a u, bs ++ [a] <+: as → M.run s bs = some u → G u a := by
  induction as generalizing s with
  | nil => exact ⟨fun _ bs a u hb _ => absurd (List.prefix_nil.mp hb) (by simp), fun _ => trivial⟩
  | cons a as ih =>
    constructor
    · intro hal bs b u hb hu
      cases bs with
      | nil =>
        cases hu
        obtain ⟨rfl, -⟩ := List.cons_prefix_cons.mp hb
        exact hal.1
      | cons c bs =>
        obtain ⟨rfl, hbs⟩ := List.cons_prefix_cons.mp hb
        obtain ⟨t, ht, hrest⟩ := run_cons_some hu
        exact ih.mp (hal.2 t ht) bs b u hbs hrest
    · intro hall
      refine ⟨hall [] a s (by simp) rfl, fun t ht => ih.mpr fun bs b u hb hu => ?_⟩
      exact hall (a :: bs) b u (List.cons_prefix_cons.mpr ⟨rfl, hb⟩) (by rw [run_cons, ht]; exact hu)

theorem Along.of_prefix {G : σ → α → Prop} {s : σ} {as bs : List α} (h : M.Along G s as) (hb : bs <+: as) :
    M.Along G s bs := by
  obtain ⟨cs, rfl⟩ := hb
  exact h.append_left

theorem run_invariant {G : σ → α → Prop} {I : σ → Prop}
    (hstep : ∀ s a t, I s → G s a → M.step s a = some t → I t) {s t : σ} {as : List α}
    (h₀ : I s) (hG : M.Along G s as) (h : M.run s as = some t) : I t := by
  induction as generalizing s with
  | nil => cases h; exact h₀
  | cons a as ih =>
    obtain ⟨u, hu, hrest⟩ := run_cons_some h
    exact ih (hstep s a u h₀ hG.1 hu) (hG.2 u hu) hrest

theorem invariant {I : σ → Prop} (hstep : ∀ s a t, I s → M.step s a = some t → I t) {s t : σ} {as : List α}
    (h₀ : I s) (h : M.run s as = some t) : I t := by
  induction as generalizing s with
  | nil => cases h; exact h₀
  | cons a as ih =>
    obtain ⟨u, hu, hrest⟩ := run_cons_some h
    exact ih (hstep s a u h₀ hu) hrest

/-- When each step keeps `P` exactly if it meets `G`, then `P` holds all along a run exactly if each of its steps meets
`G`. -/
theorem along_iff {I P : σ → Prop} {G : σ → α → Prop} (hI : ∀ s a t, I s → M.step s a = some t → I t)
    (hG : ∀ s a t, I s → P s → M.step s a = some t → (P t ↔ G s a)) {s t : σ} {as : List α} (h₀ : I s) (hP : P s)
    (h : M.run s as = some t) : (∀ bs u, bs <+: as → M.run s bs = some u → P u) ↔ M.Along G s as := by
  induction as generalizing s with
  | nil =>
    refine ⟨fun _ => trivial, fun _ bs u hb hu => ?_⟩
    rw [List.prefix_nil.mp hb] at hu
    cases hu
    exact hP
  | cons a as ih =>
    obtain ⟨v, hv, hrest⟩ := run_cons_some h
    have hstep := hG s a v h₀ hP hv
    constructor
    · intro hall
      have hPv : P v := hall [a] v (by simp) (by simp [run_cons, hv])
      refine .cons (hstep.mp hPv) hv ((ih (hI s a v h₀ hv) hPv hrest).mp fun bs u hb hu => ?_)
      exact hall (a :: bs) u (List.cons_prefix_cons.mpr ⟨rfl, hb⟩) (by rw [run_cons, hv]; exact hu)
    · intro hal bs u hb hu
      cases bs with
      | nil =>
        cases hu
        exact hP
      | cons b bs =>
        obtain ⟨rfl, hbs⟩ := List.cons_prefix_cons.mp hb
        rw [run_cons, hv] at hu
        exact (ih (hI s b v h₀ hv) (hstep.mpr hal.1) hrest).mpr (hal.2 v hv) bs u hbs hu

end Machine
