import Mathlib.Algebra.Order.Group.Defs
import Mathlib.Algebra.Order.Group.Unbundled.Basic
import Mathlib.Data.List.Chain

/-!
# Timers that are polled

A timer leaves a mark whenever it is started, set or fired, and the last mark says since when it runs. A poll compares a
reading of the clock with the last mark: when the period is over the timer fires, and its mark carries a later reading.
So firings are a period apart, and where no mark is more than `slack` after the poll before it, no mark is more than the
period and `slack` after the mark before it.
-/

namespace Ticker

inductive Kind where
  | start
  | set
  | fired
  deriving DecidableEq, Repr

structure Mark (T : Type*) where
  kind : Kind
  time : T
  deriving DecidableEq

variable {T : Type*} [AddCommGroup T] [LinearOrder T] [IsOrderedAddMonoid T] (period : Mark T → T)

/-- Every firing is more than the period after the mark before it. -/
def Spaced (marks : List (Mark T)) : Prop :=
  marks.IsChain fun a b => b.kind = .fired → period a < b.time - a.time

/-- Every mark but a start is at most the period and `slack` after the mark before it. -/
def Prompt (slack : T) (marks : List (Mark T)) : Prop :=
  marks.IsChain fun a b => b.kind ≠ .start → b.time - a.time ≤ period a + slack

/-- The timer is spaced, runs since `last` and is due when `wait` is over. -/
structure Runs (last wait : T) (marks : List (Mark T)) : Prop where
  spaced : Spaced period marks
  since : ∃ m ∈ marks.getLast?, m.time = last ∧ period m = wait

/-- The timer is prompt, and at the reading `seen` it was not overdue. -/
structure Steady (slack seen : T) (marks : List (Mark T)) : Prop where
  prompt : Prompt period slack marks
  fresh : ∀ m ∈ marks.getLast?, seen - m.time ≤ period m

variable {period} {last wait seen slack check now : T} {marks : List (Mark T)} {m : Mark T}

omit [AddCommGroup T] [LinearOrder T] [IsOrderedAddMonoid T] in
theorem isChain_snoc {R : Mark T → Mark T → Prop} (h : marks.IsChain R) (hm : ∀ a ∈ marks.getLast?, R a m) :
    (marks ++ [m]).IsChain R := by
  refine h.append (List.isChain_singleton m) ?_
  intro a ha b hb
  cases hb
  exact hm a ha

omit [IsOrderedAddMonoid T] in
/-- A start or a setting of the timer. -/
theorem Spaced.mark (h : Spaced period marks) (hm : m.kind ≠ .fired) : Runs period m.time (period m) (marks ++ [m]) :=
  ⟨isChain_snoc h fun _ _ hk => absurd hk hm, m, by simp, rfl, rfl⟩

/-- A firing at a reading that is not earlier than the poll. -/
theorem Runs.fire (h : Runs period last wait marks) (hdue : wait < check - last) (hnow : check ≤ now) :
    Runs period now (period ⟨.fired, now⟩) (marks ++ [⟨.fired, now⟩]) := by
  obtain ⟨m, hm, rfl, rfl⟩ := h.since
  refine ⟨isChain_snoc h.spaced fun a ha _ => ?_, ⟨.fired, now⟩, by simp, rfl, rfl⟩
  obtain rfl := Option.mem_unique hm ha
  exact lt_of_lt_of_le hdue (sub_le_sub_right hnow m.time)

/-- A mark at most `slack` after the reading at which the timer was not overdue. -/
theorem Steady.mark (h : Steady period slack seen marks) (hnow : m.time - seen ≤ slack) {seen' : T} (hle : seen' ≤ m.time)
    (hp : 0 ≤ period m) : Steady period slack seen' (marks ++ [m]) := by
  refine ⟨isChain_snoc h.prompt fun a ha _ => ?_, fun b hb => ?_⟩
  · calc m.time - a.time = (seen - a.time) + (m.time - seen) := (sub_add_sub_cancel' ..).symm
      _ ≤ period a + slack := add_le_add (h.fresh a ha) hnow
  · rw [List.getLast?_concat, Option.mem_some_iff] at hb
    subst hb
    exact le_trans (sub_nonpos.mpr hle) hp

theorem Steady.start (h : Prompt period slack marks) (hm : m.kind = .start) (hle : seen ≤ m.time) (hp : 0 ≤ period m) :
    Steady period slack seen (marks ++ [m]) := by
  refine ⟨isChain_snoc h fun a _ hne => absurd hm hne, fun b hb => ?_⟩
  rw [List.getLast?_concat, Option.mem_some_iff] at hb
  subst hb
  exact le_trans (sub_nonpos.mpr hle) hp

/-- A poll that finds the timer not due. -/
theorem Steady.pass (h : Steady period slack seen marks) (hruns : Runs period last wait marks) (hdue : check - last ≤ wait)
    (hle : now ≤ check) : Steady period slack now marks := by
  obtain ⟨a, ha, rfl, rfl⟩ := hruns.since
  refine ⟨h.prompt, fun m hm => ?_⟩
  obtain rfl := Option.mem_unique ha hm
  exact le_trans (sub_le_sub_right hle a.time) hdue

end Ticker
