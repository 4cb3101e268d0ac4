import Mathlib.Tactic.Linarith
import Mutiny.BackgroundRuns
import Mutiny.Ticker

/-!
# The timers of the background processor

The four timers of `process_events_async` are tickers: their marks are read off the log of the calls. In a run a call of
a timer comes only after its period, counted from the call before it or from the start; and where the passes over the
timers are at most `slack` apart, it comes at most `slack` after its period.
-/

namespace Mutiny

namespace Background

open Ticker

inductive Timer where
  | freshness
  | ping
  | prune
  | scorer
  deriving DecidableEq, Repr

namespace Timer

def mark : Timer → Call → Option (Mark ℚ)
  | freshness, .started time _ _ _ | ping, .started _ time _ _ | prune, .started _ _ time _
  | scorer, .started _ _ _ time => some ⟨.start, time⟩
  | freshness, .manager_tick time | ping, .peer_tick time | prune, .remove_stale_channels time
  | scorer, .scorer_due time => some ⟨.fired, time⟩
  | ping, .disconnect_all_peers time => some ⟨.set, time⟩
  | _, _ => none

def marks (timer : Timer) (log : List Call) : List (Mark ℚ) := log.filterMap timer.mark

/-- The network graph is pruned for the first time soon after the start, and then hourly. -/
def period : Timer → Mark ℚ → ℚ
  | freshness, _ => millis FRESHNESS_TIMER
  | ping, _ => millis PING_TIMER
  | prune, m => millis (if m.kind = .start then FIRST_NETWORK_PRUNE_TIMER else NETWORK_PRUNE_TIMER)
  | scorer, _ => millis SCORER_PERSIST_TIMER

variable {M : Type}

def last (s : Processor M) : Timer → ℚ
  | freshness => s.last_freshness_call
  | ping => s.last_ping_call
  | prune => s.last_prune_call
  | scorer => s.last_scorer_persist_call

/-- How long the code waits, given what it has done so far. -/
def wait (s : Processor M) : Timer → ℚ
  | freshness => millis FRESHNESS_TIMER
  | ping => millis PING_TIMER
  | prune => millis s.prune_timer
  | scorer => millis SCORER_PERSIST_TIMER

/-- The reading that the timer is compared with, and the one that it is set to. -/
def check (r : Readings) : Timer → ℚ
  | freshness => r.freshness
  | ping => r.ping
  | prune => r.prune
  | scorer => r.scorer

def call (r : Readings) : Timer → ℚ
  | freshness => r.freshness_call
  | ping => r.ping_call
  | prune => r.prune_call
  | scorer => r.scorer_call

theorem period_nonneg (timer : Timer) (m : Mark ℚ) : 0 ≤ timer.period m := by
  cases timer <;> exact Nat.cast_nonneg _

theorem check_le_call {r : Readings} (h : r.Sorted) (timer : Timer) : timer.check r ≤ timer.call r := by
  cases timer with
  | freshness => exact h.freshness
  | ping => exact h.ping_call
  | prune => exact h.prune_call
  | scorer => exact h.scorer_call

theorem first_le_check {r : Readings} (h : r.Sorted) (timer : Timer) : r.freshness ≤ timer.check r := by
  obtain ⟨h₁, h₂, h₃, h₄, h₅, h₆, -⟩ := h
  cases timer <;> simp only [check] <;> linarith

theorem call_le_last {r : Readings} (h : r.Sorted) (timer : Timer) : timer.call r ≤ r.scorer_call := by
  obtain ⟨-, h₂, h₃, h₄, h₅, h₆, h₇⟩ := h
  cases timer <;> simp only [call] <;> linarith

theorem marks_append (timer : Timer) (log calls : List Call) :
    timer.marks (log ++ calls) = timer.marks log ++ timer.marks calls := List.filterMap_append

end Timer

/-! ## One look at a timer -/

section
variable {M : Type}

/-- The timer is as it was, and nothing of it is added to the log. -/
structure Timer.Same (timer : Timer) (s t : Processor M) : Prop where
  marks : timer.marks t.log = timer.marks s.log
  last : timer.last t = timer.last s
  wait : timer.wait t = timer.wait s

/-- The timer has a new mark. -/
structure Timer.Marked (timer : Timer) (s t : Processor M) (m : Mark ℚ) : Prop where
  marks : timer.marks t.log = timer.marks s.log ++ [m]
  last : timer.last t = m.time
  wait : timer.wait t = timer.period m

/-- What a pass does to a timer: it is not due, it fires, or the peers are disconnected, which sets it. A due prune waits
for a graph that can be pruned. -/
inductive Timer.Looked (timer : Timer) (r : Readings) (prunable : Bool) (s t : Processor M) : Prop where
  | rests (h : timer.Same s t) (hdue : timer.check r - timer.last s ≤ timer.wait s ∨ timer = .prune ∧ prunable = false)
  | fires (h : timer.Marked s t ⟨.fired, timer.call r⟩) (hdue : timer.wait s < timer.check r - timer.last s)
  | sets (h : timer.Marked s t ⟨.set, timer.call r⟩)

theorem Timer.Same.refl (timer : Timer) (s : Processor M) : timer.Same s s := ⟨rfl, rfl, rfl⟩

theorem Timer.Same.trans {timer : Timer} {s t u : Processor M} (h : timer.Same s t) (h' : timer.Same t u) :
    timer.Same s u :=
  ⟨h'.marks.trans h.marks, h'.last.trans h.last, h'.wait.trans h.wait⟩

theorem Timer.Looked.of_same {timer : Timer} {r : Readings} {prunable : Bool} {s s' t t' : Processor M}
    (h : timer.Looked r prunable s' t) (hs : timer.Same s s') (ht : timer.Same t t') : timer.Looked r prunable s t' := by
  have hmarked : ∀ m, timer.Marked s' t m → timer.Marked s t' m := fun m hm =>
    ⟨by rw [ht.marks, hm.marks, hs.marks], by rw [ht.last, hm.last], by rw [ht.wait, hm.wait]⟩
  cases h with
  | rests h hdue => exact .rests ((hs.trans h).trans ht) (by rw [← hs.last, ← hs.wait]; exact hdue)
  | fires h hdue => exact .fires (hmarked _ h) (by rw [← hs.last, ← hs.wait]; exact hdue)
  | sets h => exact .sets (hmarked _ h)

variable {key : String}

theorem same_check_freshness {timer : Timer} (hne : timer ≠ .freshness) (s : Processor M) (r : Readings)
    (tick : Effect M key) : timer.Same s (s.check_freshness r tick) := by
  unfold Processor.check_freshness
  split
  · cases timer with
    | freshness => exact absurd rfl hne
    | ping | prune | scorer => exact ⟨by simp [Processor.note, Processor.apply, Timer.marks, Timer.mark], rfl, rfl⟩
  · exact .refl timer s

theorem looked_check_freshness (s : Processor M) (r : Readings) (tick : Effect M key) (prunable : Bool) :
    Timer.freshness.Looked r prunable s (s.check_freshness r tick) := by
  unfold Processor.check_freshness
  split
  · rename_i hdue
    exact .fires ⟨by simp [Processor.note, Processor.apply, Timer.marks, Timer.mark, Timer.call], rfl, rfl⟩ hdue
  · rename_i hdue
    exact .rests (.refl _ s) (.inl (not_lt.mp hdue))

theorem same_check_ping {timer : Timer} (hne : timer ≠ .ping) (s : Processor M) (waited : ℚ) (r : Readings)
    (peers : Effect M key) : timer.Same s (s.check_ping waited r peers) := by
  unfold Processor.check_ping
  split_ifs
  · cases timer with
    | ping => exact absurd rfl hne
    | freshness | prune | scorer => exact ⟨by simp [Processor.note, Processor.apply, Timer.marks, Timer.mark], rfl, rfl⟩
  · cases timer with
    | ping => exact absurd rfl hne
    | freshness | prune | scorer => exact ⟨by simp [Processor.note, Processor.apply, Timer.marks, Timer.mark], rfl, rfl⟩
  · exact .refl timer s

theorem looked_check_ping (s : Processor M) (waited : ℚ) (r : Readings) (peers : Effect M key) (prunable : Bool) :
    Timer.ping.Looked r prunable s (s.check_ping waited r peers) := by
  unfold Processor.check_ping
  split
  · exact .sets ⟨by simp [Processor.note, Processor.apply, Timer.marks, Timer.mark, Timer.call], rfl, rfl⟩
  · split
    · rename_i hdue
      exact .fires ⟨by simp [Processor.note, Processor.apply, Timer.marks, Timer.mark, Timer.call], rfl, rfl⟩ hdue
    · rename_i hdue
      exact .rests (.refl _ s) (.inl (not_lt.mp hdue))

variable [Serde String] [Serde (List UInt8)] (cfg : Config M)

theorem same_check_prune {timer : Timer} (hne : timer ≠ .prune) (s : Processor M) (r : Readings) (objects : Objects)
    (complete : Bool) : timer.Same s (s.check_prune cfg r objects complete) := by
  unfold Processor.check_prune
  split_ifs
  · cases timer with
    | prune => exact absurd rfl hne
    | freshness | ping | scorer =>
      exact ⟨by simp [Processor.persist_graph, Processor.persist, Processor.note, Timer.marks, Timer.mark], rfl, rfl⟩
  · exact .refl timer s
  · exact .refl timer s

theorem looked_check_prune (s : Processor M) (r : Readings) (objects : Objects) (complete : Bool) :
    Timer.prune.Looked r (cfg.gossip_sync.prunable_network_graph complete) s (s.check_prune cfg r objects complete) := by
  unfold Processor.check_prune
  split
  · rename_i hdue
    split
    · exact .fires ⟨by
        simp [Processor.persist_graph, Processor.persist, Processor.note, Timer.marks, Timer.mark, Timer.call], rfl, rfl⟩ hdue
    · rename_i hnot
      exact .rests (.refl _ s) (.inr ⟨rfl, by simpa using hnot⟩)
  · rename_i hdue
    exact .rests (.refl _ s) (.inl (not_lt.mp hdue))

theorem same_check_scorer {timer : Timer} (hne : timer ≠ .scorer) (s : Processor M) (r : Readings) (objects : Objects) :
    timer.Same s (s.check_scorer cfg r objects) := by
  unfold Processor.check_scorer Processor.persist_scorer
  split_ifs
  · cases timer with
    | scorer => exact absurd rfl hne
    | freshness | ping | prune => exact ⟨by simp [Processor.persist, Processor.note, Timer.marks, Timer.mark], rfl, rfl⟩
  · cases timer with
    | scorer => exact absurd rfl hne
    | freshness | ping | prune => exact ⟨by simp [Processor.note, Timer.marks, Timer.mark], rfl, rfl⟩
  · exact .refl timer s

theorem looked_check_scorer (s : Processor M) (r : Readings) (objects : Objects) (prunable : Bool) :
    Timer.scorer.Looked r prunable s (s.check_scorer cfg r objects) := by
  unfold Processor.check_scorer Processor.persist_scorer
  split
  · rename_i hdue
    split
    · refine .fires ⟨?_, rfl, rfl⟩ hdue
      simp only [Processor.persist, Processor.note, List.append_assoc, Timer.marks_append]
      rfl
    · exact .fires ⟨by simp [Processor.note, Timer.marks, Timer.mark, Timer.call], rfl, rfl⟩ hdue
  · rename_i hdue
    exact .rests (.refl _ s) (.inl (not_lt.mp hdue))

/-- Each timer is looked at once in a pass. -/
theorem looked_check_timers (timer : Timer) (s : Processor M) (waited : ℚ) (r : Readings) (tick peers : Effect M key)
    (objects : Objects) (complete : Bool) : timer.Looked r (cfg.gossip_sync.prunable_network_graph complete) s
      (s.check_timers cfg waited r tick peers objects complete) := by
  have hpassed : ∀ t : Processor M, timer.Same t
      { t.note (.passed r.freshness r.scorer_call) with pc := .processing, now := r.scorer_call } := fun t =>
    ⟨by cases timer <;> simp [Processor.note, Timer.marks, Timer.mark], by cases timer <;> rfl, by cases timer <;> rfl⟩
  have hf : timer ≠ .freshness → timer.Same s (s.check_freshness r tick) := fun hne => same_check_freshness hne s r tick
  have hp : ∀ t : Processor M, timer ≠ .ping → timer.Same t (t.check_ping waited r peers) := fun t hne =>
    same_check_ping hne t waited r peers
  have hg : ∀ t : Processor M, timer ≠ .prune → timer.Same t (t.check_prune cfg r objects complete) := fun t hne =>
    same_check_prune cfg hne t r objects complete
  have hc : ∀ t : Processor M, timer ≠ .scorer → timer.Same t (t.check_scorer cfg r objects) := fun t hne =>
    same_check_scorer cfg hne t r objects
  unfold Processor.check_timers Processor.look
  cases timer with
  | freshness =>
    refine (looked_check_freshness s r tick _).of_same (.refl _ s) ?_
    exact (((hp _ (by decide)).trans (hg _ (by decide))).trans (hc _ (by decide))).trans (hpassed _)
  | ping =>
    refine (looked_check_ping _ waited r peers _).of_same (hf (by decide)) ?_
    exact ((hg _ (by decide)).trans (hc _ (by decide))).trans (hpassed _)
  | prune =>
    refine (looked_check_prune cfg _ r objects complete).of_same ((hf (by decide)).trans (hp _ (by decide))) ?_
    exact (hc _ (by decide)).trans (hpassed _)
  | scorer =>
    have hsame := ((hf (by decide)).trans (hp _ (by decide))).trans (hg _ (by decide))
    refine (looked_check_scorer cfg _ r objects _).of_same hsame ?_
    exact hpassed _

/-! ## The timers over a run -/

variable {cfg} {s : Processor M}

/-- Persisting and returning adds nothing that `f` looks at. -/
theorem filterMap_exit_check {β : Type} {f : Call → Option β} (hm : ∀ accepted, f (.persist_manager accepted) = none)
    (hg : f .persist_graph = none) (hs : f .persist_scorer = none) (hr : f .returned = none) (s : Processor M)
    (waited : ℚ) (objects : Objects) : (s.exit_check cfg waited objects).log.filterMap f = s.log.filterMap f := by
  unfold Processor.exit_check Processor.finish Processor.persist_manager Processor.persist_scorer
    Processor.persist_graph Processor.persist Processor.note
  split_ifs <;> simp [hm, hg, hs, hr]

theorem same_exit_check (timer : Timer) (s : Processor M) (waited : ℚ) (objects : Objects) :
    timer.Same s (s.exit_check cfg waited objects) := by
  have hmarks : timer.marks (s.exit_check cfg waited objects).log = timer.marks s.log := by
    apply filterMap_exit_check <;> cases timer <;> simp [Timer.mark]
  have hlast : timer.last (s.exit_check cfg waited objects) = timer.last s ∧
      timer.wait (s.exit_check cfg waited objects) = timer.wait s := by
    unfold Processor.exit_check Processor.finish Processor.persist_manager Processor.persist_scorer
      Processor.persist_graph Processor.persist Processor.note
    split_ifs <;> cases timer <;> exact ⟨rfl, rfl⟩
  exact ⟨hmarks, hlast.1, hlast.2⟩

theorem same_woken (timer : Timer) (s : Processor M) (now : ℚ) :
    timer.Same s ({ s with now := now }.woken_by_update cfg) := by
  refine ⟨?_, by cases timer <;> rfl, by cases timer <;> rfl⟩
  cases timer <;>
    simp [Processor.woken_by_update, Processor.persist_manager, Processor.persist, Processor.note, Timer.marks, Timer.mark]

omit [Serde String] [Serde (List UInt8)] in
theorem same_slept (timer : Timer) (s : Processor M) (now : ℚ) (should_break : Bool) :
    timer.Same s ({ s with now := now, should_break := should_break }.note .slept) := by
  refine ⟨?_, by cases timer <;> rfl, by cases timer <;> rfl⟩
  cases timer <;> simp [Processor.note, Timer.marks, Timer.mark]

omit [Serde String] [Serde (List UInt8)] in
theorem marked_started (timer : Timer) (s : Processor M) (tick : Effect M key) (freshness ping prune scorer : ℚ) :
    ∃ time, timer.Marked s (s.started tick freshness ping prune scorer) ⟨.start, time⟩ ∧
      (timer.mark (.started freshness ping prune scorer) = some ⟨.start, time⟩) := by
  have hmarks : ∀ time, timer.mark (.started freshness ping prune scorer) = some ⟨.start, time⟩ →
      timer.marks (s.started tick freshness ping prune scorer).log = timer.marks s.log ++ [⟨.start, time⟩] := by
    intro time hmark
    simp [Processor.started, Processor.note, Processor.apply, Timer.marks, hmark]
  cases timer with
  | freshness => exact ⟨freshness, ⟨hmarks _ rfl, rfl, rfl⟩, rfl⟩
  | ping => exact ⟨ping, ⟨hmarks _ rfl, rfl, rfl⟩, rfl⟩
  | prune => exact ⟨prune, ⟨hmarks _ rfl, rfl, rfl⟩, rfl⟩
  | scorer => exact ⟨scorer, ⟨hmarks _ rfl, rfl, rfl⟩, rfl⟩

/-- What an action does to a timer. -/
inductive Timer.Moved (timer : Timer) (s t : Processor M) : Prop where
  | same (h : timer.Same s t) (hpc : s.pc = .returned → t.pc = .returned)
  | started (time : ℚ) (h : timer.Marked s t ⟨.start, time⟩)
  | looked (r : Readings) (prunable : Bool) (hr : r.Sorted) (hpc : s.pc ≠ .returned) (h : timer.Looked r prunable s t)

theorem moved_of_stepped (timer : Timer) {a : Act M cfg.key} {t : Processor M} (h : Stepped s a t) :
    timer.Moved s t := by
  cases h with
  | start tick freshness ping prune scorer =>
    obtain ⟨time, hm, -⟩ := marked_started timer s tick freshness ping prune scorer
    exact .started time hm
  | other task => exact .same ⟨rfl, by cases timer <;> rfl, by cases timer <;> rfl⟩ id
  | process events await_start hpc =>
    exact .same ⟨rfl, by cases timer <;> rfl, by cases timer <;> rfl⟩ fun hr => by simp [hpc] at hr
  | update await_start await_time objects hpc =>
    exact .same ((same_woken timer s await_time).trans (same_exit_check timer _ _ objects)) fun hr => by simp [hpc] at hr
  | sleep await_start await_time objects hpc =>
    exact .same ((same_slept timer s await_time cfg.exit).trans (same_exit_check timer _ _ objects)) fun hr => by
      simp [hpc] at hr
  | timers waited r tick peers objects complete hpc hr =>
    exact .looked r _ hr (by simp [hpc]) (looked_check_timers cfg timer s waited r tick peers objects complete)

structure Timer.Timely (timer : Timer) (s : Processor M) : Prop where
  spaced : Spaced timer.period (timer.marks s.log)
  runs : s.pc ≠ .returned → Runs timer.period (timer.last s) (timer.wait s) (timer.marks s.log)

omit [Serde String] [Serde (List UInt8)] in
theorem Timer.Timely.marked {timer : Timer} {t : Processor M} {m : Mark ℚ} (hm : timer.Marked s t m)
    (hr : Runs timer.period m.time (timer.period m) (timer.marks s.log ++ [m])) : timer.Timely t := by
  rw [← hm.marks] at hr
  exact ⟨hr.spaced, fun _ => by rw [hm.last, hm.wait]; exact hr⟩

omit [Serde String] [Serde (List UInt8)] in
theorem Timer.Timely.step {timer : Timer} {t : Processor M} (h : timer.Timely s) (hst : timer.Moved s t) :
    timer.Timely t := by
  cases hst with
  | same hs hpc =>
    refine ⟨by rw [hs.marks]; exact h.spaced, fun hne => ?_⟩
    rw [hs.marks, hs.last, hs.wait]
    exact h.runs fun he => hne (hpc he)
  | started time hm => exact .marked hm (h.spaced.mark fun he => by cases he)
  | looked r prunable hr hpc hl =>
    cases hl with
    | rests hs =>
      refine ⟨by rw [hs.marks]; exact h.spaced, fun _ => ?_⟩
      rw [hs.marks, hs.last, hs.wait]
      exact h.runs hpc
    | fires hm hdue => exact .marked hm ((h.runs hpc).fire hdue (timer.check_le_call hr))
    | sets hm => exact .marked hm (h.spaced.mark fun he => by cases he)

/-- In every run, with whatever restarts, the manager is ticked, the peers are pinged, the graph is pruned and the scorer
is persisted no sooner than the timer's period after the last time, or after the start; a disconnection of all peers
counts for the pings, and the first prune of a start comes after a minute and the others hourly. -/
theorem timers_spaced {manager : M} {update : Bool} {store : Store} {now : ℚ} {acts : List (Act M cfg.key)}
    {t : Processor M} (h : (machine cfg).run (.new manager update store now) acts = some t) (timer : Timer) :
    Spaced timer.period (timer.marks t.log) := by
  have ht : timer.Timely t := Machine.invariant
    (fun s a t hI hst => hI.step (moved_of_stepped timer (stepped_of_step hst)))
    ⟨by simp [Processor.new, Timer.marks, Spaced], fun hne => absurd rfl hne⟩ h
  exact ht.spaced

/-! ## No timer is late -/

/-- A pass over the timers, or a start, with its first and its last reading. -/
structure Pass where
  started : Bool
  first : ℚ
  last : ℚ
  deriving DecidableEq

def Call.pass : Call → Option Pass
  | .started freshness _ _ scorer => some ⟨true, freshness, scorer⟩
  | .passed first last => some ⟨false, first, last⟩
  | _ => none

def passes (log : List Call) : List Pass := log.filterMap Call.pass

/-- From the beginning of a pass to the end of the next one no more than `slack` goes by. -/
def Brisk (slack : ℚ) (log : List Call) : Prop :=
  (passes log).IsChain fun a b => b.started = false → b.last - a.first ≤ slack

theorem passes_check_timers (waited : ℚ) (r : Readings) (tick peers : Effect M cfg.key) (objects : Objects)
    (complete : Bool) : passes (s.check_timers cfg waited r tick peers objects complete).log =
      passes s.log ++ [⟨false, r.freshness, r.scorer_call⟩] := by
  obtain ⟨calls, hl, hall⟩ : Adds (fun c => c.pass = none) s (s.look cfg waited r tick peers objects complete) := by
    apply adds_look <;> simp [Call.pass]
  have hnone : passes calls = [] := List.filterMap_eq_nil_iff.mpr hall
  unfold passes at hnone ⊢
  simp only [Processor.check_timers, Processor.note, hl, List.filterMap_append, hnone, List.append_nil]
  rfl

/-- A timer with what the log says of the passes. -/
structure Timer.OnTime (timer : Timer) (slack : ℚ) (s : Processor M) : Prop where
  timely : timer.Timely s
  prompt : Brisk slack s.log → Prompt timer.period slack (timer.marks s.log)
  kept : Brisk slack s.log → s.pc ≠ .returned →
    ∃ p ∈ (passes s.log).getLast?, Steady timer.period slack p.first (timer.marks s.log)

omit [Serde String] [Serde (List UInt8)] in
theorem Timer.OnTime.same {timer : Timer} {slack : ℚ} {t : Processor M} (h : timer.OnTime slack s)
    (hs : timer.Same s t) (hl : passes t.log = passes s.log) (hpc : s.pc = .returned → t.pc = .returned) :
    timer.OnTime slack t := by
  have hbrisk : Brisk slack t.log → Brisk slack s.log := fun hb => by rwa [Brisk, hl] at hb
  refine ⟨h.timely.step (.same hs hpc), fun hb => ?_, fun hb hne => ?_⟩
  · rw [hs.marks]
    exact h.prompt (hbrisk hb)
  · rw [hs.marks, hl]
    exact h.kept (hbrisk hb) fun he => hne (hpc he)

omit [Serde String] [Serde (List UInt8)] in
/-- The first reading of a start is the earliest. -/
theorem Timer.OnTime.started {timer : Timer} {slack : ℚ} (h : timer.OnTime slack s) (tick : Effect M key)
    {freshness ping prune scorer : ℚ} (hnow : freshness ≤ ping ∧ ping ≤ prune ∧ prune ≤ scorer) :
    timer.OnTime slack (s.started tick freshness ping prune scorer) := by
  obtain ⟨time, hm, hmark⟩ := marked_started timer s tick freshness ping prune scorer
  have hpasses : passes (s.started tick freshness ping prune scorer).log = passes s.log ++ [⟨true, freshness, scorer⟩] := by
    simp [Processor.started, Processor.note, Processor.apply, passes, Call.pass]
  have hle : freshness ≤ time := by
    obtain ⟨h₁, h₂, h₃⟩ := hnow
    cases timer <;> simp only [Timer.mark, Option.some.injEq, Mark.mk.injEq, true_and] at hmark <;> linarith
  have hprompt : Brisk slack (s.started tick freshness ping prune scorer).log →
      Steady timer.period slack freshness (timer.marks s.log ++ [⟨.start, time⟩]) := by
    intro hb
    rw [Brisk, hpasses] at hb
    exact .start (h.prompt hb.left_of_append) rfl hle (timer.period_nonneg _)
  refine ⟨h.timely.step (.started time hm), fun hb => ?_, fun hb _ => ⟨⟨true, freshness, scorer⟩, by simp [hpasses], ?_⟩⟩
  · rw [hm.marks]
    exact (hprompt hb).prompt
  · rw [hm.marks]
    exact hprompt hb

theorem Timer.OnTime.timers {timer : Timer} {slack : ℚ} (h : timer.OnTime slack s) (hpc : s.pc ≠ .returned)
    (hprune : timer ≠ .prune ∨ cfg.gossip_sync = .P2P) (waited : ℚ) {r : Readings} (hr : r.Sorted)
    (tick peers : Effect M cfg.key) (objects : Objects) (complete : Bool) :
    timer.OnTime slack (s.check_timers cfg waited r tick peers objects complete) := by
  have hl := looked_check_timers cfg timer s waited r tick peers objects complete
  have hpasses := passes_check_timers (s := s) waited r tick peers objects complete
  generalize s.check_timers cfg waited r tick peers objects complete = t at hl hpasses
  have hruns := h.timely.runs hpc
  have hkept : Brisk slack t.log → Steady timer.period slack r.freshness (timer.marks t.log) := by
    intro hb
    rw [Brisk, hpasses] at hb
    obtain ⟨p, hp, hk⟩ := h.kept hb.left_of_append hpc
    have hslack : r.scorer_call - p.first ≤ slack := (List.isChain_append.mp hb).2.2 p hp _ rfl rfl
    have hcall : timer.call r - p.first ≤ slack := le_trans (sub_le_sub_right (timer.call_le_last hr) _) hslack
    have hfirst := timer.first_le_check hr
    have hcheck := timer.check_le_call hr
    cases hl with
    | rests hs hdue =>
      rw [hs.marks]
      refine hk.pass hruns (hdue.resolve_right fun hnot => ?_) hfirst
      rcases hprune with hne | hp2p
      · exact hne hnot.1
      · simp [hp2p, GossipSync.prunable_network_graph] at hnot
    | fires hm hdue =>
      rw [hm.marks]
      exact hk.mark hcall (hfirst.trans hcheck) (timer.period_nonneg _)
    | sets hm =>
      rw [hm.marks]
      exact hk.mark hcall (hfirst.trans hcheck) (timer.period_nonneg _)
  exact ⟨h.timely.step (.looked r _ hr hpc hl), fun hb => (hkept hb).prompt,
    fun hb _ => ⟨⟨false, r.freshness, r.scorer_call⟩, by simp [hpasses], hkept hb⟩⟩

theorem Timer.OnTime.step {timer : Timer} {slack : ℚ} (hprune : timer ≠ .prune ∨ cfg.gossip_sync = .P2P)
    (h : timer.OnTime slack s) {a : Act M cfg.key} {t : Processor M} (hst : Stepped s a t) : timer.OnTime slack t := by
  cases hst with
  | start tick freshness ping prune scorer hpc hnow => exact h.started tick hnow.2
  | other task => exact h.same ⟨rfl, by cases timer <;> rfl, by cases timer <;> rfl⟩ rfl id
  | process events await_start hpc =>
    exact h.same ⟨rfl, by cases timer <;> rfl, by cases timer <;> rfl⟩ rfl fun hr => by simp [hpc] at hr
  | update await_start await_time objects hpc =>
    refine h.same ((same_woken timer s await_time).trans (same_exit_check timer _ _ objects)) ?_ fun hr => by
      simp [hpc] at hr
    refine (filterMap_exit_check (fun _ => rfl) rfl rfl rfl _ _ objects).trans ?_
    simp [Processor.woken_by_update, Processor.persist_manager, Processor.persist, Processor.note, passes, Call.pass]
  | sleep await_start await_time objects hpc =>
    refine h.same ((same_slept timer s await_time cfg.exit).trans (same_exit_check timer _ _ objects)) ?_ fun hr => by
      simp [hpc] at hr
    refine (filterMap_exit_check (fun _ => rfl) rfl rfl rfl _ _ objects).trans ?_
    simp [Processor.note, passes, Call.pass]
  | timers waited r tick peers objects complete hpc hr =>
    exact h.timers (by simp [hpc]) hprune waited hr tick peers objects complete

/-- Where the passes over the timers are brisk, no timer is late: the manager, the peers and the scorer, and over the peer
to peer gossip the graph, get their turn at most `slack` after the period, and none was overdue when the last pass
began. -/
theorem timers_prompt {manager : M} {update : Bool} {store : Store} {now : ℚ} {acts : List (Act M cfg.key)}
    {t : Processor M} (h : (machine cfg).run (.new manager update store now) acts = some t) (timer : Timer)
    (hprune : timer ≠ .prune ∨ cfg.gossip_sync = .P2P) {slack : ℚ} (hb : Brisk slack t.log) :
    Prompt timer.period slack (timer.marks t.log) ∧ (t.pc ≠ .returned →
      ∃ p ∈ (passes t.log).getLast?, ∀ m ∈ (timer.marks t.log).getLast?, p.first - m.time ≤ timer.period m) := by
  have ht : timer.OnTime slack t := Machine.invariant (fun s a t hI hst => hI.step hprune (stepped_of_step hst))
    ⟨⟨by simp [Processor.new, Timer.marks, Spaced], fun hne => absurd rfl hne⟩,
      fun _ => by simp [Processor.new, Timer.marks, Prompt], fun _ hne => absurd rfl hne⟩ h
  refine ⟨ht.prompt hb, fun hne => ?_⟩
  obtain ⟨p, hp, hk⟩ := ht.kept hb hne
  exact ⟨p, hp, hk.fresh⟩

end

section
attribute [local instance] string_serde bytes_serde

/-- The page is put to sleep in the second wait. -/
def asleep : List (Act (List UInt8) sample_config.key) :=
  [.start (.idle _ _) 1 1 1 1, .process (.idle _ _) 2, .sleep 102 ⟨[], []⟩,
    .timers (.at 102) (.idle _ _) (.idle _ _) ⟨[], []⟩ false, .process (.idle _ _) 103, .sleep 70000 ⟨[], []⟩,
    .timers (.at 70001) (.idle _ _) (.idle _ _) ⟨[], []⟩ false]

/-- What the processor did. -/
def asleep_log : List Call :=
  [.started 1 1 1 1, .slept, .passed 102 102, .slept, .manager_tick 70001, .disconnect_all_peers 70001, .persist_scorer,
    .scorer_due 70001, .passed 70001 70001]

theorem run_asleep : ∃ t, (machine sample_config).run (.new [] false ⟨∅, 0⟩ 0) asleep = some t ∧ t.log = asleep_log := by
  have hlog : ((machine sample_config).run (.new [] false ⟨∅, 0⟩ 0) asleep).map Processor.log = some asleep_log := by
    decide +kernel
  exact Option.map_eq_some_iff.mp hlog

theorem asleep_spaced : ∃ t, (machine sample_config).run (.new [] false ⟨∅, 0⟩ 0) asleep = some t ∧
    Timer.ping.marks t.log = [⟨.start, 1⟩, ⟨.set, 70001⟩] ∧
    Spaced Timer.freshness.period (Timer.freshness.marks t.log) := by
  obtain ⟨t, hrun, hlog⟩ := run_asleep
  exact ⟨t, hrun, by rw [hlog]; rfl, timers_spaced hrun .freshness⟩

/-- The events of each turn take twelve seconds. -/
def busy : List (Act (List UInt8) sample_config.key) :=
  [.start (.idle _ _) 1 1 1 1, .process (.idle _ _) 11900, .sleep 12000 ⟨[], []⟩,
    .timers (.at 12000) (.idle _ _) (.idle _ _) ⟨[], []⟩ false, .process (.idle _ _) 23900, .sleep 24000 ⟨[], []⟩,
    .timers (.at 24000) (.idle _ _) (.idle _ _) ⟨[], []⟩ false, .process (.idle _ _) 35900, .sleep 36000 ⟨[], []⟩,
    .timers (.at 36000) (.idle _ _) (.idle _ _) ⟨[], []⟩ false]

/-- The peers are ticked six seconds after the half minute, and nothing could have kept them waiting for more than
twelve. -/
theorem busy_prompt : ∃ t, (machine sample_config).run (.new [] false ⟨∅, 0⟩ 0) busy = some t ∧
    Timer.ping.marks t.log = [⟨.start, 1⟩, ⟨.fired, 36000⟩] ∧ Prompt Timer.ping.period 12000 (Timer.ping.marks t.log) ∧
    ∃ p ∈ (passes t.log).getLast?, ∀ m ∈ (Timer.ping.marks t.log).getLast?, p.first - m.time ≤ Timer.ping.period m := by
  have hlog : ((machine sample_config).run (.new [] false ⟨∅, 0⟩ 0) busy).map (fun t => (t.log, t.pc)) =
      some ([.started 1 1 1 1, .slept, .passed 12000 12000, .slept, .passed 24000 24000, .slept, .peer_tick 36000,
        .persist_scorer, .scorer_due 36000, .passed 36000 36000], .processing) := by
    decide +kernel
  obtain ⟨t, hrun, ht⟩ := Option.map_eq_some_iff.mp hlog
  obtain ⟨hl, hpc⟩ := Prod.mk.inj ht
  have hbrisk : Brisk 12000 t.log := by
    rw [hl]
    unfold Brisk
    decide +kernel
  obtain ⟨hprompt, hfresh⟩ := timers_prompt hrun .ping (.inl (by decide)) hbrisk
  exact ⟨t, hrun, by rw [hl]; rfl, hprompt, hfresh (by simp [hpc])⟩

end

end Background

end Mutiny
