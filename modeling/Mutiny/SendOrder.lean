import Mutiny.Socket

/-!
# The order of the messages on one websocket (`proxy.rs`)

`WsProxy::send` spawns a task for every message. The task locks the writing half of the websocket, writes the message
and unlocks it, and the mutex hands itself to any of the tasks that wait for it. So the messages reach the websocket in
the order of the calls as long as the mutex is taken in that order.
-/

namespace Mutiny

namespace WsProxy

/-- What a spawned task does with the mutex locked. -/
inductive Work where
  | send (data : Gloo.Message)
  | close
  deriving DecidableEq

/-- A task waits for the mutex, or has it while its write is pending. A write that fails panics, and nothing unlocks the
mutex after that. -/
inductive Stage where
  | waiting
  | writing
  | done
  | panicked
  deriving DecidableEq, Repr

structure Task where
  work : Work
  stage : Stage
  deriving DecidableEq

/-- `tasks` are in the order of the calls, and `written` is what has reached the websocket. -/
structure Writer where
  tasks : List Task
  locked : Bool
  written : List Gloo.Message
  deriving DecidableEq

/-- What a task finds of its write when it is polled. It is pending while the websocket is still connecting. -/
inductive Answer where
  | pending
  | ok
  | error
  deriving DecidableEq, Repr

inductive Act where
  | send (data : Gloo.Message)
  | close
  | poll (i : Nat) (answer : Answer)
  deriving DecidableEq

namespace Writer

def new : Writer := ⟨[], false, []⟩

/-- The task at the index goes on with the mutex locked. -/
def resume (s : Writer) (i : Nat) (work : Work) : Answer → Writer
  | .pending => { s with tasks := s.tasks.set i ⟨work, .writing⟩, locked := true }
  | .ok =>
    match work with
    | .send data =>
      { tasks := s.tasks.set i ⟨work, .done⟩, locked := false, written := s.written ++ [data] }
    | .close => { s with tasks := s.tasks.set i ⟨work, .done⟩, locked := false }
  | .error =>
    match work with
    | .send _ => { s with tasks := s.tasks.set i ⟨work, .panicked⟩, locked := true }
    | .close => { s with tasks := s.tasks.set i ⟨work, .done⟩, locked := false }

def poll (s : Writer) (i : Nat) (answer : Answer) : Option Writer :=
  match s.tasks[i]? with
  | none => none
  | some task =>
    match task.stage with
    | .waiting => if s.locked then some s else some (s.resume i task.work answer)
    | .writing => some (s.resume i task.work answer)
    | .done | .panicked => none

def step (s : Writer) : Act → Option Writer
  | .send data => some { s with tasks := s.tasks ++ [⟨.send data, .waiting⟩] }
  | .close => some { s with tasks := s.tasks ++ [⟨.close, .waiting⟩] }
  | .poll i answer => s.poll i answer

end Writer

def writer_machine : Machine Writer Act := ⟨Writer.step⟩

/-! ## What is sent and what is written -/

namespace Task

def message (t : Task) : Option Gloo.Message :=
  match t.work with
  | .send data => some data
  | .close => none

def written (t : Task) : Option Gloo.Message := if t.stage = .done then t.message else none

/-- The task has the mutex. -/
def Holds (t : Task) : Prop := t.stage = .writing ∨ t.stage = .panicked

def Awaits (t : Task) : Prop := t.message.isSome ∧ t.stage = .waiting

instance : DecidablePred Awaits := fun _ => inferInstanceAs (Decidable (_ ∧ _))

/-- A later message gets its turn when this one is written. -/
def Before (t u : Task) : Prop := t.message.isSome → u.message.isSome → u.stage ≠ .waiting → t.stage = .done

end Task

/-- The messages of the calls, in their order. -/
def Writer.sent (s : Writer) : List Gloo.Message := s.tasks.filterMap Task.message

/-- A message takes the mutex only when no earlier one waits for it. -/
def InTurn (s : Writer) : Act → Prop
  | .send _ | .close => True
  | .poll i _ =>
    s.locked = false → ∀ t ∈ s.tasks[i]?, t.Awaits → ∀ u ∈ s.tasks.take i, ¬ u.Awaits

instance (s : Writer) : DecidablePred (InTurn s)
  | .send _ | .close => .isTrue trivial
  | .poll _ _ => inferInstanceAs (Decidable (_ → _))

structure Inv (s : Writer) : Prop where
  ordered : s.tasks.Pairwise Task.Before
  exclusive : s.tasks.Pairwise fun t u => ¬ (t.Holds ∧ u.Holds)
  free : s.locked = false → ∀ t ∈ s.tasks, ¬ t.Holds
  written : s.written = s.tasks.filterMap Task.written

/-! ## One task changes its stage -/

theorem split_at {tasks : List Task} {i : Nat} {t : Task} (h : tasks[i]? = some t) :
    ∃ l r, l = tasks.take i ∧ tasks = l ++ t :: r ∧ ∀ u, tasks.set i u = l ++ u :: r := by
  obtain ⟨hi, rfl⟩ := List.getElem?_eq_some_iff.mp h
  refine ⟨tasks.take i, tasks.drop (i + 1), rfl, ?_, ?_⟩
  · simp
  · intro u
    exact List.set_eq_take_append_cons_drop.trans (if_pos hi)

/-- The task at the place may have the mutex: no other task has it, and of the messages the earlier ones are written
and the later ones wait. -/
structure Ready (l : List Task) (t : Task) (r : List Task) : Prop where
  alone : ∀ v ∈ l ++ r, ¬ v.Holds
  earlier : t.message.isSome → ∀ v ∈ l, v.message.isSome → v.stage = .done
  later : t.message.isSome → ∀ v ∈ r, v.message.isSome → v.stage = .waiting

theorem Inv.ready_writing {s : Writer} (h : Inv s) {l r : List Task} {t : Task} (ht : s.tasks = l ++ t :: r)
    (hs : t.stage = .writing) : Ready l t r := by
  have hholds : t.Holds := .inl hs
  have hord := h.ordered
  have hexcl := h.exclusive
  rw [ht, List.pairwise_append, List.pairwise_cons] at hord hexcl
  refine ⟨?_, ?_, ?_⟩
  · intro v hv hvh
    rcases List.mem_append.mp hv with hl | hr
    · exact hexcl.2.2 v hl t List.mem_cons_self ⟨hvh, hholds⟩
    · exact hexcl.2.1.1 v hr ⟨hholds, hvh⟩
  · intro hm v hv hvm
    exact hord.2.2 v hv t List.mem_cons_self hvm hm (by simp [hs])
  · intro hm v hv hvm
    by_contra hne
    have hdone := hord.2.1.1 v hv hm hvm hne
    rw [hs] at hdone
    cases hdone

theorem Inv.ready_waiting {s : Writer} (h : Inv s) {l r : List Task} {t : Task} (ht : s.tasks = l ++ t :: r)
    (hs : t.stage = .waiting) (hfree : s.locked = false)
    (hturn : t.Awaits → ∀ v ∈ l, ¬ v.Awaits) : Ready l t r := by
  have hnone := h.free hfree
  have hord := h.ordered
  rw [ht, List.pairwise_append, List.pairwise_cons] at hord
  have hmem : ∀ v ∈ l ++ r, v ∈ s.tasks := by
    intro v hv
    rw [ht]
    rcases List.mem_append.mp hv with hl | hr
    · simp [hl]
    · simp [hr]
  refine ⟨fun v hv => hnone v (hmem v hv), ?_, ?_⟩
  · intro hm v hv hvm
    have hnot := hnone v (hmem v (by simp [hv]))
    have hwait := hturn ⟨hm, hs⟩ v hv
    unfold Task.Holds at hnot
    cases hstage : v.stage with
    | done => rfl
    | waiting => exact absurd ⟨hvm, hstage⟩ hwait
    | writing => exact absurd (.inl hstage) hnot
    | panicked => exact absurd (.inr hstage) hnot
  · intro hm v hv hvm
    by_contra hne
    have hdone := hord.2.1.1 v hv hm hvm hne
    rw [hs] at hdone
    cases hdone

theorem Ready.unwritten {l r : List Task} {t : Task} (h : Ready l t r) (hm : t.message.isSome) :
    r.filterMap Task.written = [] := by
  apply List.filterMap_eq_nil_iff.mpr
  intro v hv
  unfold Task.written
  cases hvm : v.message with
  | none => simp
  | some data =>
    have hwait := h.later hm v hv (by simp [hvm])
    simp [hwait]

/-- Whatever becomes of the write, the tasks stay in order. -/
theorem Ready.pairwise {l r : List Task} {t u : Task} (h : Ready l t r) (hm : u.message = t.message)
    (hp : (l ++ t :: r).Pairwise Task.Before) : (l ++ u :: r).Pairwise Task.Before := by
  rw [List.pairwise_append, List.pairwise_cons] at hp ⊢
  refine ⟨hp.1, ⟨?_, hp.2.1.2⟩, ?_⟩
  · intro v hv hum hvm hne
    exact absurd (h.later (hm ▸ hum) v hv hvm) hne
  · intro v hv w hw hvm hwm hne
    rcases List.mem_cons.mp hw with rfl | hr
    · exact h.earlier (hm ▸ hwm) v hv hvm
    · exact hp.2.2 v hv w (List.mem_cons_of_mem _ hr) hvm hwm hne

theorem Ready.exclusive {l r : List Task} {t u : Task} (h : Ready l t r) :
    (l ++ u :: r).Pairwise fun v w => ¬ (v.Holds ∧ w.Holds) := by
  have hall : ∀ v ∈ l ++ r, ¬ v.Holds := h.alone
  rw [List.pairwise_append, List.pairwise_cons]
  refine ⟨?_, ⟨?_, ?_⟩, ?_⟩
  · exact List.pairwise_of_forall_mem_list fun v hv _ _ hb => hall v (by simp [hv]) hb.1
  · exact fun v hv hb => hall v (by simp [hv]) hb.2
  · exact List.pairwise_of_forall_mem_list fun v hv _ _ hb => hall v (by simp [hv]) hb.1
  · exact fun v hv _ _ hb => hall v (by simp [hv]) hb.1

/-- The task at the place changes its stage, and what it writes is written last. -/
theorem Inv.change {s s' : Writer} (h : Inv s) {l r : List Task} {t u : Task} (ht : s.tasks = l ++ t :: r)
    (hr : Ready l t r) (hs : t.stage ≠ .done) (hm : u.message = t.message) (hu : s'.tasks = l ++ u :: r)
    (hfree : s'.locked = false → ¬ u.Holds) (hw : s'.written = s.written ++ u.written.toList) : Inv s' := by
  refine ⟨?_, ?_, ?_, ?_⟩
  · rw [hu]
    exact hr.pairwise hm (ht ▸ h.ordered)
  · rw [hu]
    exact hr.exclusive
  · intro hl v hv
    rw [hu, List.mem_append, List.mem_cons] at hv
    rcases hv with hv | rfl | hv
    · exact hr.alone v (List.mem_append_left _ hv)
    · exact hfree hl
    · exact hr.alone v (List.mem_append_right _ hv)
  · have htw : t.written = none := if_neg hs
    rw [hw, h.written, ht, hu, List.filterMap_append, List.filterMap_append, List.filterMap_cons, List.filterMap_cons,
      htw]
    cases huw : u.written with
    | none => simp
    | some data =>
      have hsome : u.message.isSome := by
        unfold Task.written at huw
        rw [(Option.ite_none_right_eq_some.mp huw).2]
        rfl
      rw [hr.unwritten (hm ▸ hsome)]
      simp

theorem Inv.resume {s : Writer} (h : Inv s) {i : Nat} {t : Task} {l r : List Task} (ht : s.tasks = l ++ t :: r)
    (hset : ∀ u, s.tasks.set i u = l ++ u :: r) (hr : Ready l t r) (hs : t.stage ≠ .done) (answer : Answer) :
    Inv (s.resume i t.work answer) := by
  obtain ⟨work, stage⟩ := t
  have hkeeps : ∀ stage' : Stage, stage' ≠ .done → s.written = s.written ++ (Task.written ⟨work, stage'⟩).toList := by
    intro stage' hne
    simp [Task.written, hne]
  have hdone : ¬ Task.Holds ⟨work, .done⟩ := by simp [Task.Holds]
  cases answer with
  | pending => exact h.change ht hr hs (u := ⟨work, .writing⟩) rfl (hset _) nofun (hkeeps .writing nofun)
  | ok =>
    cases work with
    | send data => exact h.change ht hr hs (u := ⟨.send data, .done⟩) rfl (hset _) (fun _ => hdone) rfl
    | close =>
      apply h.change ht hr hs (u := ⟨.close, .done⟩) rfl (hset _) (fun _ => hdone)
      simp [Writer.resume, Task.written, Task.message]
  | error =>
    cases work with
    | send data => exact h.change ht hr hs (u := ⟨.send data, .panicked⟩) rfl (hset _) nofun (hkeeps .panicked nofun)
    | close =>
      apply h.change ht hr hs (u := ⟨.close, .done⟩) rfl (hset _) (fun _ => hdone)
      simp [Writer.resume, Task.written, Task.message]

theorem Inv.spawn {s : Writer} (h : Inv s) (work : Work) : Inv { s with tasks := s.tasks ++ [⟨work, .waiting⟩] } := by
  have hholds : ¬ Task.Holds ⟨work, .waiting⟩ := by simp [Task.Holds]
  refine ⟨?_, ?_, ?_, ?_⟩
  · apply List.pairwise_append.mpr
    refine ⟨h.ordered, List.pairwise_singleton _ _, ?_⟩
    intro v hv w hw _ _ hne
    cases List.mem_singleton.mp hw
    exact absurd rfl hne
  · apply List.pairwise_append.mpr
    refine ⟨h.exclusive, List.pairwise_singleton _ _, ?_⟩
    intro v hv w hw hb
    cases List.mem_singleton.mp hw
    exact hholds hb.2
  · intro hl v hv
    rcases List.mem_append.mp hv with hv | hv
    · exact h.free hl v hv
    · cases List.mem_singleton.mp hv
      exact hholds
  · show s.written = (s.tasks ++ [_]).filterMap Task.written
    rw [List.filterMap_append, ← h.written]
    simp [Task.written]

/-! ## Runs -/

theorem Inv.step {s s' : Writer} {a : Act} (h : Inv s) (hG : InTurn s a) (hstep : s.step a = some s') : Inv s' := by
  cases a with
  | send data =>
    cases hstep
    exact h.spawn (.send data)
  | close =>
    cases hstep
    exact h.spawn .close
  | poll i answer =>
    have hstep : s.poll i answer = some s' := hstep
    unfold Writer.poll at hstep
    cases hi : s.tasks[i]? with
    | none => simp [hi] at hstep
    | some t =>
      obtain ⟨l, r, hl, ht, hset⟩ := split_at hi
      simp only [hi] at hstep
      cases hs : t.stage with
      | waiting =>
        simp only [hs] at hstep
        cases hlocked : s.locked with
        | true =>
          simp only [hlocked, if_true, Option.some.injEq] at hstep
          subst hstep
          exact h
        | false =>
          simp only [hlocked, Bool.false_eq_true, if_false, Option.some.injEq] at hstep
          subst hstep
          have hr : Ready l t r := by
            apply h.ready_waiting ht hs hlocked
            rw [hl]
            exact hG hlocked t hi
          exact h.resume ht hset hr (by simp [hs]) answer
      | writing =>
        simp only [hs, Option.some.injEq] at hstep
        subst hstep
        exact h.resume ht hset (h.ready_writing ht hs) (by simp [hs]) answer
      | done => simp [hs] at hstep
      | panicked => simp [hs] at hstep

/-- The written messages come first. -/
theorem written_isPrefix : ∀ {tasks : List Task}, tasks.Pairwise Task.Before →
    tasks.filterMap Task.written <+: tasks.filterMap Task.message
  | [], _ => List.prefix_rfl
  | t :: tasks, h => by
    obtain ⟨ht, htasks⟩ := List.pairwise_cons.mp h
    have ih := written_isPrefix htasks
    rw [List.filterMap_cons, List.filterMap_cons]
    cases hm : t.message with
    | none =>
      have hw : t.written = none := by simp [Task.written, hm]
      rw [hw]
      exact ih
    | some data =>
      by_cases hs : t.stage = .done
      · have hw : t.written = some data := (if_pos hs).trans hm
        rw [hw]
        exact List.cons_prefix_cons.mpr ⟨rfl, ih⟩
      · have hw : t.written = none := if_neg hs
        have hnone : tasks.filterMap Task.written = [] := by
          apply List.filterMap_eq_nil_iff.mpr
          intro v hv
          by_cases hvm : v.message.isSome ∧ v.stage ≠ .waiting
          · exact absurd (ht v hv (by simp [hm]) hvm.1 hvm.2) hs
          · unfold Task.written
            rw [not_and_or, not_not, Option.not_isSome_iff_eq_none] at hvm
            rcases hvm with hvm | hvm
            · simp [hvm]
            · simp [hvm]
        rw [hw, hnone]
        exact List.nil_prefix

/-- In every run in which the mutex is taken in turn, the messages reach the websocket in the order of the calls. -/
theorem written_in_order {s : Writer} {as : List Act} (hG : writer_machine.Along InTurn .new as)
    (h : writer_machine.run .new as = some s) : s.written <+: s.sent := by
  have hnew : Inv .new := ⟨.nil, .nil, fun _ t ht => absurd ht List.not_mem_nil, rfl⟩
  have hinv : Inv s := Machine.run_invariant (fun _ _ _ hi hg hs => hi.step hg hs) hnew hG h
  rw [hinv.written]
  exact written_isPrefix hinv.ordered

/-! ## Three messages while the websocket is connecting -/

def first : Gloo.Message := .Bytes [0]
def second : Gloo.Message := .Bytes [1]
def third : Gloo.Message := .Bytes [2]

/-- The first task has the mutex when the two others come to it. -/
def connecting : List Act :=
  [.send first, .send second, .send third, .poll 0 .pending, .poll 1 .pending, .poll 2 .pending, .poll 0 .ok]

theorem connecting_in_turn : writer_machine.Along InTurn .new (connecting ++ [.poll 1 .ok, .poll 2 .ok]) := by decide

theorem written_in_turn : ∃ s, writer_machine.run .new (connecting ++ [.poll 1 .ok, .poll 2 .ok]) = some s ∧
    s.written = [first, second, third] ∧ s.written <+: s.sent :=
  ⟨_, rfl, rfl, written_in_order connecting_in_turn rfl⟩

/-- The mutex goes to the third task before the second. -/
theorem written_out_of_order : ∃ s, writer_machine.run .new (connecting ++ [.poll 2 .ok, .poll 1 .ok]) = some s ∧
    s.sent = [first, second, third] ∧ s.written = [first, third, second] ∧ ¬ s.written <+: s.sent :=
  ⟨_, rfl, rfl, rfl, by decide⟩

end WsProxy

end Mutiny
