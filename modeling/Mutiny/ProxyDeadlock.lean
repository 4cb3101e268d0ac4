import Mutiny.ProxyRelay
import Mutiny.WaitFor

/-!
# When the proxy is stuck

A loop waits for the holder of the mutex, or for room in the channel of the loop it sends to. The only way to a
deadlock is a `Clash`: the holder of the mutex waits for room in a full channel, and the loop that would have to empty
it is itself, or waits for the mutex (`proxy_deadlock_free`).
-/

namespace Mutiny

namespace Proxy

/-! ## Waiting -/

def target (c : ConnId) : Pc → Option ConnId
  | .send_disconnect _ p | .send_message _ _ p => some p
  | .send_self _ => some c
  | .absent | .registering | .select | .lock_disconnect _ | .lock_send _ _ | .drop_peer _ | .subscribe _ _
  | .listen _ _ _ | .teardown | .done => none

/-- The loop that a loop waits for: the holder of the mutex, or the reader of a full channel. -/
def waits (s : Proxy) (c : ConnId) : Option ConnId :=
  if (s.handlers c).pc.wants_lock then s.lock
  else
    match target c (s.handlers c).pc with
    | some p => if (s.handlers p).pc = .done ∨ s.Room p then none else some p
    | none => none

/-- A step of a loop or of a listener task, not of a client. -/
def Internal : ProxyAct → Prop
  | .read _ | .receive _ _ | .resume _ | .listener _ => True
  | .connect _ | .client_send _ _ | .client_close _ => False

/-- The loop is in the middle of an operation, or has a message, a close or a command to process. -/
def Busy (s : Proxy) (c : ConnId) : Prop :=
  match (s.handlers c).pc with
  | .absent | .done => False
  | .select => (s.handlers c).inbox ≠ [] ∨ (s.handlers c).gone ∨ (s.handlers c).queue ≠ []
  | _ => True

/-- Some loop or task can take a step, if some loop has anything to do. -/
def Progress (s : Proxy) : Prop := (∃ c, s.Busy c) → ∃ a, Internal a ∧ machine.Enabled s a

def Clash (s : Proxy) : Prop :=
  ∃ h p, s.lock = some h ∧ target h (s.handlers h).pc = some p ∧ ¬ s.Room p ∧
    (p = h ∨ (s.handlers p).pc.wants_lock)

variable {s t : Proxy} {c d : ConnId}

theorem holds_of_target {pc : Pc} {p : ConnId} (h : target c pc = some p) : pc.holds := by
  cases pc <;> simp_all [target, Pc.holds]

theorem not_wants_of_target {pc : Pc} {p : ConnId} (h : target c pc = some p) : pc.wants_lock = false := by
  cases pc <;> simp_all [target, Pc.wants_lock]

theorem waits_cases (h : s.waits c = some d) :
    ((s.handlers c).pc.wants_lock ∧ s.lock = some d) ∨
      (target c (s.handlers c).pc = some d ∧ (s.handlers d).pc ≠ .done ∧ ¬ s.Room d) := by
  unfold waits at h
  split at h
  · exact .inl ⟨‹_›, h⟩
  · split at h
    · split at h
      · cases h
      · cases h
        exact .inr ⟨‹_›, by simp_all⟩
    · cases h

theorem waits_lock (hc : (s.handlers c).pc.wants_lock) (hl : s.lock = some d) : s.waits c = some d := by
  simp [waits, hc, hl]

theorem waits_room (hc : target c (s.handlers c).pc = some d) (hd : (s.handlers d).pc ≠ .done) (hr : ¬ s.Room d) :
    s.waits c = some d := by
  simp [waits, hc, not_wants_of_target hc, hd, hr]

/-- `waits` is exact: between its awaits a loop that waits for nobody goes on, and one that waits does not. -/
theorem resume_of_not_waits (hc : (s.handlers c).pc.holds ∨ (s.handlers c).pc.wants_lock)
    (hw : s.waits c = none) : ∃ t, s.resume c = some t := by
  have hfree : (s.handlers c).pc.wants_lock → s.lock = none := by
    intro h
    simpa [waits, h] using hw
  have hroom : ∀ p, target c (s.handlers c).pc = some p → (s.handlers p).pc = .done ∨ s.Room p := by
    intro p hp
    by_contra hno
    simp [waits, not_wants_of_target hp, hp, hno] at hw
  unfold resume
  cases hpc : (s.handlers c).pc with
  | absent => simp [hpc, Pc.holds, Pc.wants_lock] at hc
  | select => simp [hpc, Pc.holds, Pc.wants_lock] at hc
  | done => simp [hpc, Pc.holds, Pc.wants_lock] at hc
  | registering => simp [hpc, hfree (by rw [hpc]; rfl)]
  | lock_disconnect peer_id =>
    simp only [hpc, hfree (by rw [hpc]; rfl), if_true]
    cases s.producers peer_id <;> simp
  | lock_send peer_id val =>
    simp only [hpc, hfree (by rw [hpc]; rfl), if_true]
    cases s.producers peer_id <;> simp
  | send_disconnect peer_id p =>
    rcases hroom p (by rw [hpc]; rfl) with hd | hr
    · simp [hpc, hd]
    · by_cases hd : (s.handlers p).pc = .done <;> simp [hpc, hd, hr]
  | send_message peer_id val p =>
    rcases hroom p (by rw [hpc]; rfl) with hd | hr
    · simp [hpc, hd]
    · by_cases hd : (s.handlers p).pc = .done <;> simp [hpc, hd, hr]
  | send_self peer_id =>
    rcases hroom c (by rw [hpc]; rfl) with hd | hr
    · rw [hpc] at hd
      cases hd
    · simp [hpc, hr]
  | drop_peer peer_id => simp [hpc]
  | subscribe peer_id p => simp [hpc]
  | listen peer_id p late =>
    simp only [hpc]
    split <;> exact ⟨_, rfl⟩
  | teardown => simp [hpc, hfree (by rw [hpc]; rfl)]

theorem resume_of_waits (h : s.waits c = some d) : s.resume c = none := by
  rcases waits_cases h with ⟨hw, hl⟩ | ⟨ht, hd, hr⟩
  · unfold resume
    cases hpc : (s.handlers c).pc <;> simp_all [Pc.wants_lock]
  · unfold resume
    cases hpc : (s.handlers c).pc <;> simp_all [target]

/-! ## Deadlock is for ever -/

theorem actor_of_waits {a : ProxyAct} (h : step s a = some t) (hc : s.waits c = some d) : actor a ≠ some c := by
  have hsel : (s.handlers c).pc ≠ .select := by
    intro hpc
    simp [waits, hpc, Pc.wants_lock, target] at hc
  intro ha
  cases a with
  | read e =>
    cases ha
    simp [step, read, hsel] at h
  | receive e ok =>
    cases ha
    simp [step, receive, hsel] at h
  | resume e =>
    cases ha
    rw [step, resume_of_waits hc] at h
    cases h
  | connect _ => cases ha
  | client_send _ _ => cases ha
  | client_close _ => cases ha
  | listener _ => cases ha

theorem lt_conns_of_waits (inv : Locked s) (hc : s.waits c = some d) : c < s.conns := by
  apply inv.lt_conns
  intro hpc
  simp [waits, hpc, Pc.wants_lock, target] at hc

theorem waits_step {a : ProxyAct} (inv : Locked s) (h : step s a = some t) (hc : s.waits c = some d)
    (hd : s.waits d ≠ none) : t.waits c = some d := by
  obtain ⟨e, he⟩ := Option.ne_none_iff_exists'.mp hd
  have htr := trans_of_step h
  have hpc := htr.pc_of_ne (actor_of_waits h hc) (lt_conns_of_waits inv hc)
  have hpd := htr.pc_of_ne (actor_of_waits h he) (lt_conns_of_waits inv he)
  rcases waits_cases hc with ⟨hw, hl⟩ | ⟨ht, hdone, hr⟩
  · apply waits_lock
    · rwa [hpc]
    · rw [(inv.trans htr).holder, hpd, ← inv.holder]
      exact hl
  · apply waits_room
    · rwa [hpc]
    · rwa [hpd]
    · have hq := (queue_of_ne h (actor_of_waits h he) (lt_conns_of_waits inv he)).length_le
      unfold Room at hr ⊢
      omega

theorem deadlocked_forever {as : List ProxyAct} {D : Set ConnId} (inv : Locked s)
    (hD : WaitFor.Deadlocked s.waits D) (h : machine.run s as = some t) : WaitFor.Deadlocked t.waits D :=
  hD.run (I := Locked) (w := waits) (fun _ _ _ inv hs => inv.trans (trans_of_step hs))
    (fun _ _ _ inv hs _ _ hc hd => waits_step inv hs hc hd) inv h

/-! ## Clashes -/

theorem deadlocked_of_clash (h : Clash s) : ∃ D, WaitFor.Deadlocked s.waits D := by
  obtain ⟨c, p, hl, ht, hr, hp⟩ := h
  have hdone : (s.handlers p).pc ≠ .done := by
    intro hpc
    rcases hp with rfl | hp
    · rw [hpc] at ht
      cases ht
    · rw [hpc] at hp
      cases hp
  refine ⟨{c, p}, WaitFor.deadlocked_pair (waits_room ht hdone hr) ?_⟩
  rcases hp with hp | hp
  · exact .inl hp
  · exact .inr (waits_lock hp hl)

section
variable (inv : Locked s) (hno : ¬ Clash s)
include inv hno

/-- Without a clash, the reader of a full channel that the holder of the mutex sends into is at its `select`. -/
theorem select_of_full (hc : target c (s.handlers c).pc = some d) (hd : (s.handlers d).pc ≠ .done) (hr : ¬ s.Room d) :
    (s.handlers d).pc = .select := by
  have hholds : (s.handlers c).pc.holds := holds_of_target hc
  have hl := (inv.holder c).mpr hholds
  have hne : d ≠ c := fun hdc => hno ⟨c, d, hl, hc, hr, .inl hdc⟩
  have hw : ¬ (s.handlers d).pc.wants_lock := fun hw => hno ⟨c, d, hl, hc, hr, .inr hw⟩
  have hnot : ¬ (s.handlers d).pc.holds := fun hh => hne (inv.holds_unique hh hholds)
  have hlive : (s.handlers d).pc.live := by
    apply inv.peer c
    cases hpc : (s.handlers c).pc <;> simp_all [target, Pc.peer]
  cases hpc : (s.handlers d).pc <;> simp_all [Pc.wants_lock, Pc.holds, Pc.live]

theorem not_deadlocked (D : Set ConnId) : ¬ WaitFor.Deadlocked s.waits D := by
  classical
  -- those who wait for the mutex, its holder, and the rest
  let rank : ConnId → Nat := fun c => if s.waits c = none then 0 else if s.lock = some c then 1 else 2
  refine WaitFor.not_deadlocked_of_rank rank (fun c d hc => ?_) D
  rcases waits_cases hc with ⟨hw, hl⟩ | ⟨ht, hd, hr⟩
  · have hne : s.lock ≠ some c := by
      intro h
      have hh := (inv.holder c).mp h
      rw [Pc.not_holds_of_wants hw] at hh
      cases hh
    have hc2 : rank c = 2 := by simp [rank, hc, hne]
    have hd1 : rank d ≤ 1 := by
      by_cases hwd : s.waits d = none <;> simp [rank, hwd, hl]
    omega
  · have hl : s.lock = some c := (inv.holder c).mpr (holds_of_target ht)
    have hsel := select_of_full inv hno ht hd hr
    have hwd : s.waits d = none := by simp [waits, hsel, Pc.wants_lock, target]
    simp [rank, hc, hl, hwd]

theorem progress_of_not_clash : Progress s := by
  intro ⟨c, hb⟩
  have hresume : ∀ d, (s.handlers d).pc.holds ∨ (s.handlers d).pc.wants_lock → s.waits d = none →
      ∃ a, Internal a ∧ machine.Enabled s a := by
    intro d hd hw
    obtain ⟨u, hu⟩ := resume_of_not_waits hd hw
    exact ⟨.resume d, trivial, u, hu⟩
  cases hl : s.lock with
  | some h =>
    have hh := (inv.holder h).mp hl
    cases hw : s.waits h with
    | none => exact hresume h (.inl hh) hw
    | some p =>
      rcases waits_cases hw with ⟨hwl, -⟩ | ⟨ht, hd, hr⟩
      · rw [Pc.not_holds_of_wants hwl] at hh
        cases hh
      · have hsel := select_of_full inv hno ht hd hr
        cases hq : (s.handlers p).queue with
        | nil => simp [Room, hq, CHANNEL_LEN] at hr
        | cons command rest =>
          exact ⟨.receive p true, trivial, by simp [Machine.Enabled, machine, step, receive, hsel, hq]⟩
  | none =>
    have hnot := inv.not_holds_of_free hl c
    by_cases hw : (s.handlers c).pc.wants_lock = true
    · exact hresume c (.inr hw) (by simp [waits, hw, hl])
    · have hsel : (s.handlers c).pc = .select := by
        unfold Busy at hb
        cases hpc : (s.handlers c).pc <;> simp_all [Pc.wants_lock, Pc.holds]
      simp only [Busy, hsel] at hb
      cases hq : (s.handlers c).queue with
      | cons command rest =>
        exact ⟨.receive c true, trivial, by simp [Machine.Enabled, machine, step, receive, hsel, hq]⟩
      | nil =>
        refine ⟨.read c, trivial, ?_⟩
        simp only [Machine.Enabled, machine, step, read, hsel, ne_eq, not_true, if_false]
        cases hi : (s.handlers c).inbox with
        | cons msg rest => exact ⟨_, rfl⟩
        | nil =>
          have hg : (s.handlers c).gone = true := by simpa [hi, hq] using hb
          simp [hg]

end

/-- In every reachable state: something can move if there is anything to do and no set of loops is deadlocked, exactly
when the state is not a clash. -/
theorem proxy_deadlock_free (as : List ProxyAct) (s : Proxy) (hr : machine.run new as = some s) :
    (Progress s ∧ ∀ D, ¬ WaitFor.Deadlocked s.waits D) ↔ ¬ Clash s := by
  have inv := locked_of_run hr
  constructor
  · intro ⟨_, hD⟩ hc
    obtain ⟨D, h⟩ := deadlocked_of_clash hc
    exact hD D h
  · intro hno
    exact ⟨progress_of_not_clash inv hno, not_deadlocked inv hno⟩

/-- Two clients send to each other: the loop of the first has the mutex, for which the second waits. -/
def crossing : List ProxyAct := hello.take 7 ++ [.client_send 1 (.Binary (.replicate 33 2 ++ [9])), .read 1]

theorem proxy_deadlock_free_registering : ∃ s, machine.run new crossing = some s ∧ s.lock = some 0 ∧
    s.waits 1 = some 0 ∧ Progress s ∧ ∀ D, ¬ WaitFor.Deadlocked s.waits D := by
  refine ⟨_, rfl, rfl, rfl, (proxy_deadlock_free crossing _ rfl).mpr ?_⟩
  rintro ⟨h, p, hl, hp, hr, -⟩
  cases hl
  cases hp
  exact hr (by decide)

/-! ## A client that floods its own channel -/

def nobody : Bytes := .replicate PUBKEY_BYTES_LEN 0

/-- One client with `n` commands in its channel; its loop is at `pc`, with the mutex if it holds it there. -/
def flooded (n : Nat) (pc : Pc) (lock : Option ConnId) : Proxy :=
  ⟨1, Function.update (fun _ => .none) 0 ⟨[0xab], pc, [], false, .replicate n (.Disconnect nobody), [], false, []⟩,
    Function.update (fun _ => none) [0xab] (some 0), lock, []⟩

def shout : List ProxyAct := [.client_send 0 (.Binary nobody), .read 0, .resume 0]

theorem run_shout (n : Nat) :
    machine.run (flooded n .select none) shout = some (flooded n (.send_self nobody) (some 0)) := by
  simp [shout, Machine.run_cons, machine, step, read, resume, flooded, set, goto, on_message, nobody, PUBKEY_BYTES_LEN]

theorem run_answer {n : Nat} (hn : n < CHANNEL_LEN) :
    machine.run (flooded n (.send_self nobody) (some 0)) [.resume 0] = some (flooded (n + 1) .select none) := by
  have hroom : Room (flooded n (.send_self nobody) (some 0)) 0 := by simpa [Room, flooded] using hn
  simp [Machine.run_cons, machine, step, resume, hroom]
  simp [flooded, push, goto, set, List.replicate_succ']

def flood : Nat → List ProxyAct
  | 0 => [.connect "ab", .resume 0]
  | n + 1 => flood n ++ shout ++ [.resume 0]

theorem run_flood : ∀ n, n ≤ CHANNEL_LEN → machine.run new (flood n) = some (flooded n .select none)
  | 0, _ => by
    have hid : owner_id_bytes "ab" = [0xab] := by decide
    simp [flood, Machine.run_cons, machine, step, connect, resume, new, flooded, set, goto, Handler.none, hid]
  | n + 1, hn => by
    rw [flood, Machine.run_append, Machine.run_append, run_flood n (by omega), Option.bind_some, run_shout,
      Option.bind_some, run_answer (by omega)]

/-- After 32 messages to nobody that were read before any answer was taken, the thirty-third leaves the loop with the
mutex, waiting for room in its own channel, and there it stays whatever the clients do. -/
theorem proxy_deadlock : ∃ as s, machine.run new as = some s ∧ s.Busy 0 ∧
    (∀ a, Internal a → ¬ machine.Enabled s a) ∧
    ∀ bs t, machine.run s bs = some t → WaitFor.Deadlocked t.waits {0} := by
  have hrun : machine.run new (flood 32 ++ shout) = some (flooded 32 (.send_self nobody) (some 0)) := by
    rw [Machine.run_append, run_flood 32 (Nat.le_refl _), Option.bind_some, run_shout]
  refine ⟨flood 32 ++ shout, flooded 32 (.send_self nobody) (some 0), hrun, trivial, ?_, fun bs t hbs =>
    deadlocked_forever (locked_of_run hrun) ⟨⟨0, rfl⟩, ?_⟩ hbs⟩
  · have hwaits : (flooded 32 (.send_self nobody) (some 0)).waits 0 = some 0 := rfl
    rintro a ha ⟨t, ht⟩
    have hother : ∀ c, c ≠ 0 → ((flooded 32 (.send_self nobody) (some 0)).handlers c) = .none := by
      intro c hc
      simp [flooded, hc]
    cases a with
    | read c =>
      by_cases hc : c = 0
      · subst hc
        cases ht
      · simp [machine, step, read, hother c hc, Handler.none] at ht
    | receive c ok =>
      by_cases hc : c = 0
      · subst hc
        cases ht
      · simp [machine, step, receive, hother c hc, Handler.none] at ht
    | resume c =>
      by_cases hc : c = 0
      · subst hc
        have hst : step (flooded 32 (.send_self nobody) (some 0)) (.resume 0) = some t := ht
        exact actor_of_waits hst hwaits rfl
      · simp [machine, step, resume, hother c hc, Handler.none] at ht
    | listener i => cases ht
    | connect _ => exact ha
    | client_send _ _ => exact ha
    | client_close _ => exact ha
  · intro c hc
    cases hc
    exact ⟨0, rfl, rfl⟩

end Proxy

end Mutiny
