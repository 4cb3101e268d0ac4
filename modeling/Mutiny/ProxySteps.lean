import Mathlib.Logic.Function.Basic
import Mutiny.Proxy

/-!
# What a step of the proxy does

`Trans` says what a step does to the places of the loops, to the map and to its mutex, with the contents of the
channels left out. `Locked` is the invariant of these: the holder of the mutex is the loop that is between taking and
releasing it, and the map and the targets of sends are loops that have registered and not ended.
-/

namespace Mutiny

namespace Pc

/-- Between taking the mutex and releasing it. -/
def holds : Pc → Bool
  | send_disconnect _ _ | drop_peer _ | send_message _ _ _ | subscribe _ _ | listen _ _ _ | send_self _ => true
  | absent | registering | select | lock_disconnect _ | lock_send _ _ | teardown | done => false

/-- At an await of the mutex. -/
def wants_lock : Pc → Bool
  | registering | lock_disconnect _ | lock_send _ _ | teardown => true
  | absent | select | send_disconnect _ _ | drop_peer _ | send_message _ _ _ | subscribe _ _ | listen _ _ _
  | send_self _ | done => false

/-- Registered and not ended. -/
def live : Pc → Bool
  | absent | registering | done => false
  | select | lock_disconnect _ | lock_send _ _ | send_disconnect _ _ | drop_peer _ | send_message _ _ _ | subscribe _ _
  | listen _ _ _ | send_self _ | teardown => true

/-- The connection whose map entry the loop has in hand. -/
def peer : Pc → Option ConnId
  | send_disconnect _ p | send_message _ _ p | subscribe _ p | listen _ p _ => some p
  | absent | registering | select | lock_disconnect _ | lock_send _ _ | drop_peer _ | send_self _ | teardown
  | done => none

theorem live_of_holds {pc : Pc} (h : pc.holds) : pc.live := by
  cases pc <;> simp_all [holds, live]

theorem not_holds_of_wants {pc : Pc} (h : pc.wants_lock) : pc.holds = false := by
  cases pc <;> simp_all [holds, wants_lock]

end Pc

namespace Proxy

variable {s t : Proxy}

/-! ## The parts of a changed state -/

section
variable (s : Proxy) (c d : ConnId)

@[simp] theorem set_handlers (h : Handler) : (s.set c h).handlers d = if d = c then h else s.handlers d := by
  simp [set, Function.update_apply]

@[simp] theorem goto_pc (pc : Pc) : ((s.goto c pc).handlers d).pc = if d = c then pc else (s.handlers d).pc := by
  unfold goto
  by_cases h : d = c <;> simp [h]

@[simp] theorem goto_owner_id (pc : Pc) : ((s.goto c pc).handlers d).owner_id = (s.handlers d).owner_id := by
  unfold goto
  by_cases h : d = c <;> simp [h]

@[simp] theorem goto_queue (pc : Pc) : ((s.goto c pc).handlers d).queue = (s.handlers d).queue := by
  unfold goto
  by_cases h : d = c <;> simp [h]

@[simp] theorem push_pc (command : MutinyWSCommand) : ((s.push c command).handlers d).pc = (s.handlers d).pc := by
  unfold push
  by_cases h : d = c <;> simp [h]

@[simp] theorem push_owner_id (command : MutinyWSCommand) :
    ((s.push c command).handlers d).owner_id = (s.handlers d).owner_id := by
  unfold push
  by_cases h : d = c <;> simp [h]

@[simp] theorem push_queue (command : MutinyWSCommand) : ((s.push c command).handlers d).queue =
    (s.handlers d).queue ++ if d = c then [command] else [] := by
  unfold push
  by_cases h : d = c <;> simp [h]

@[simp] theorem set_producers (h : Handler) : (s.set c h).producers = s.producers := rfl

@[simp] theorem set_lock (h : Handler) : (s.set c h).lock = s.lock := rfl

@[simp] theorem set_conns (h : Handler) : (s.set c h).conns = s.conns := rfl

@[simp] theorem goto_producers (pc : Pc) : (s.goto c pc).producers = s.producers := rfl

@[simp] theorem goto_lock (pc : Pc) : (s.goto c pc).lock = s.lock := rfl

@[simp] theorem goto_conns (pc : Pc) : (s.goto c pc).conns = s.conns := rfl

@[simp] theorem push_producers (command : MutinyWSCommand) : (s.push c command).producers = s.producers := rfl

@[simp] theorem push_lock (command : MutinyWSCommand) : (s.push c command).lock = s.lock := rfl

@[simp] theorem push_conns (command : MutinyWSCommand) : (s.push c command).conns = s.conns := rfl

end

/-! ## What a step is -/

/-- The ways a loop goes on from an await. -/
inductive Resumed (s : Proxy) (c : ConnId) : Proxy → Prop where
  | register (hpc : (s.handlers c).pc = .registering) (hfree : s.lock = none) :
      Resumed s c { s.goto c .select with producers := Function.update s.producers (s.handlers c).owner_id (some c) }
  | no_peer {peer_id : Bytes} (hpc : (s.handlers c).pc = .lock_disconnect peer_id) (hfree : s.lock = none)
      (hm : s.producers peer_id = none) : Resumed s c (s.goto c .select)
  | find_peer {peer_id : Bytes} {peer : ConnId} (hpc : (s.handlers c).pc = .lock_disconnect peer_id)
      (hfree : s.lock = none) (hm : s.producers peer_id = some peer) :
      Resumed s c { s.goto c (.send_disconnect peer_id peer) with lock := some c }
  | no_recipient {peer_id val : Bytes} (hpc : (s.handlers c).pc = .lock_send peer_id val) (hfree : s.lock = none)
      (hm : s.producers peer_id = none) : Resumed s c { s.goto c (.send_self peer_id) with lock := some c }
  | find_recipient {peer_id val : Bytes} {peer : ConnId} (hpc : (s.handlers c).pc = .lock_send peer_id val)
      (hfree : s.lock = none) (hm : s.producers peer_id = some peer) :
      Resumed s c { s.goto c (.send_message peer_id val peer) with lock := some c }
  | peer_ended {peer_id : Bytes} {peer : ConnId} (hpc : (s.handlers c).pc = .send_disconnect peer_id peer)
      (hdone : (s.handlers peer).pc = .done) : Resumed s c (s.goto c (.drop_peer peer_id))
  | disconnect {peer_id : Bytes} {peer : ConnId} (hpc : (s.handlers c).pc = .send_disconnect peer_id peer)
      (hdone : (s.handlers peer).pc ≠ .done) (hroom : s.Room peer) :
      Resumed s c ((s.push peer (.Disconnect (s.handlers c).owner_id)).goto c (.drop_peer peer_id))
  | drop_peer {peer_id : Bytes} (hpc : (s.handlers c).pc = .drop_peer peer_id) :
      Resumed s c { s.set c { s.handlers c with
        pc := .select, connected_peers := (s.handlers c).connected_peers.filter (· ≠ peer_id) } with lock := none }
  | recipient_ended {peer_id val : Bytes} {peer : ConnId} (hpc : (s.handlers c).pc = .send_message peer_id val peer)
      (hdone : (s.handlers peer).pc = .done) : Resumed s c (s.goto c (.send_self peer_id))
  | send {peer_id val : Bytes} {peer : ConnId} (hpc : (s.handlers c).pc = .send_message peer_id val peer)
      (hdone : (s.handlers peer).pc ≠ .done) (hroom : s.Room peer) :
      Resumed s c ((s.push peer (.Send (s.handlers c).owner_id val)).goto c (.subscribe peer_id peer))
  | subscribe {peer_id : Bytes} {peer : ConnId} (hpc : (s.handlers c).pc = .subscribe peer_id peer) :
      Resumed s c (s.goto c (.listen peer_id peer (s.handlers peer).broadcast))
  | connected {peer_id : Bytes} {peer : ConnId} {late : Bool} (hpc : (s.handlers c).pc = .listen peer_id peer late)
      (hin : peer_id ∈ (s.handlers c).connected_peers) :
      Resumed s c { s.goto c .select with lock := none }
  | listen {peer_id : Bytes} {peer : ConnId} {late : Bool} (hpc : (s.handlers c).pc = .listen peer_id peer late)
      (hout : peer_id ∉ (s.handlers c).connected_peers) :
      Resumed s c { s.set c { s.handlers c with
          pc := .select, connected_peers := peer_id :: (s.handlers c).connected_peers } with
        lock := none, listeners := s.listeners ++ [⟨c, peer_id, peer, late, .waiting⟩] }
  | send_self {peer_id : Bytes} (hpc : (s.handlers c).pc = .send_self peer_id) (hroom : s.Room c) :
      Resumed s c { (s.push c (.Disconnect peer_id)).goto c .select with lock := none }
  | finish (hpc : (s.handlers c).pc = .teardown) (hfree : s.lock = none) :
      Resumed s c { s.goto c .done with producers := Function.update s.producers (s.handlers c).owner_id none }

theorem resumed_of_resume {c : ConnId} (h : s.resume c = some t) : Resumed s c t := by
  unfold resume at h
  cases hpc : (s.handlers c).pc with
  | absent | select | done => simp [hpc] at h
  | registering =>
    simp only [hpc, Option.ite_none_right_eq_some, Option.some.injEq] at h
    obtain ⟨hfree, rfl⟩ := h
    exact .register hpc hfree
  | lock_disconnect peer_id =>
    simp only [hpc, Option.ite_none_right_eq_some] at h
    obtain ⟨hfree, h⟩ := h
    cases hm : s.producers peer_id <;> simp only [hm, Option.some.injEq] at h <;> subst h
    · exact .no_peer hpc hfree hm
    · exact .find_peer hpc hfree hm
  | lock_send peer_id val =>
    simp only [hpc, Option.ite_none_right_eq_some] at h
    obtain ⟨hfree, h⟩ := h
    cases hm : s.producers peer_id <;> simp only [hm, Option.some.injEq] at h <;> subst h
    · exact .no_recipient hpc hfree hm
    · exact .find_recipient hpc hfree hm
  | send_disconnect peer_id peer =>
    simp only [hpc] at h
    split at h
    · next hdone =>
      cases h
      exact .peer_ended hpc hdone
    · next hdone =>
      simp only [Option.ite_none_right_eq_some, Option.some.injEq] at h
      obtain ⟨hroom, rfl⟩ := h
      exact .disconnect hpc hdone hroom
  | drop_peer peer_id =>
    simp only [hpc, Option.some.injEq] at h
    subst h
    exact .drop_peer hpc
  | send_message peer_id val peer =>
    simp only [hpc] at h
    split at h
    · next hdone =>
      cases h
      exact .recipient_ended hpc hdone
    · next hdone =>
      simp only [Option.ite_none_right_eq_some, Option.some.injEq] at h
      obtain ⟨hroom, rfl⟩ := h
      exact .send hpc hdone hroom
  | subscribe peer_id peer =>
    simp only [hpc, Option.some.injEq] at h
    subst h
    exact .subscribe hpc
  | listen peer_id peer late =>
    simp only [hpc] at h
    split at h
    · next hin =>
      cases h
      exact .connected hpc hin
    · next hout =>
      cases h
      exact .listen hpc hout
  | send_self peer_id =>
    simp only [hpc, Option.ite_none_right_eq_some, Option.some.injEq] at h
    obtain ⟨hroom, rfl⟩ := h
    exact .send_self hpc hroom
  | teardown =>
    simp only [hpc, Option.ite_none_right_eq_some, Option.some.injEq] at h
    obtain ⟨hfree, rfl⟩ := h
    exact .finish hpc hfree

/-- The ways a listener task goes on. -/
inductive Woken (s : Proxy) (i : TaskId) : Proxy → Prop where
  | wake {task : Listener} (ht : s.listeners[i]? = some task) (hpc : task.pc = .waiting) (hwakes : s.wakes task) :
      Woken s i (s.set_listener i task .sending)
  | owner_ended {task : Listener} (ht : s.listeners[i]? = some task) (hpc : task.pc = .sending)
      (hdone : (s.handlers task.owner).pc = .done) : Woken s i (s.set_listener i task .clearing)
  | tell {task : Listener} (ht : s.listeners[i]? = some task) (hpc : task.pc = .sending)
      (hdone : (s.handlers task.owner).pc ≠ .done) (hroom : s.Room task.owner) :
      Woken s i ((s.push task.owner (.Disconnect task.other_peer)).set_listener i task .clearing)
  | clear {task : Listener} (ht : s.listeners[i]? = some task) (hpc : task.pc = .clearing) :
      Woken s i ((s.set task.owner { s.handlers task.owner with
        connected_peers := (s.handlers task.owner).connected_peers.filter (· ≠ task.other_peer) }).set_listener
          i task .done)

theorem woken_of_listener {i : TaskId} (h : s.listener i = some t) : Woken s i t := by
  unfold listener at h
  cases ht : s.listeners[i]? with
  | none => simp [ht] at h
  | some task =>
    simp only [ht] at h
    cases hpc : task.pc with
    | waiting =>
      simp only [hpc, Option.ite_none_right_eq_some, Option.some.injEq] at h
      obtain ⟨hwakes, rfl⟩ := h
      exact .wake ht hpc hwakes
    | sending =>
      simp only [hpc] at h
      split at h
      · next hdone =>
        cases h
        exact .owner_ended ht hpc hdone
      · next hdone =>
        simp only [Option.ite_none_right_eq_some, Option.some.injEq] at h
        obtain ⟨hroom, rfl⟩ := h
        exact .tell ht hpc hdone hroom
    | clearing =>
      simp only [hpc, Option.some.injEq] at h
      subst h
      exact .clear ht hpc
    | done => simp [hpc] at h

/-- What each step of the machine is, and when it can be taken. -/
inductive Stepped (s : Proxy) : ProxyAct → Proxy → Prop where
  | connect (identifier : String) : Stepped s (.connect identifier) (s.connect identifier)
  | client_send {c : ConnId} (msg : Message) (hlt : c < s.conns) (hopen : (s.handlers c).gone = false) :
      Stepped s (.client_send c msg) (s.set c { s.handlers c with inbox := (s.handlers c).inbox ++ [msg] })
  | client_close {c : ConnId} (hlt : c < s.conns) :
      Stepped s (.client_close c) (s.set c { s.handlers c with gone := true })
  | read {c : ConnId} {msg : Message} {rest : List Message} (hpc : (s.handlers c).pc = .select)
      (hi : (s.handlers c).inbox = msg :: rest) :
      Stepped s (.read c) (s.set c { s.handlers c with inbox := rest, pc := on_message msg })
  | gone {c : ConnId} (hpc : (s.handlers c).pc = .select) (hi : (s.handlers c).inbox = [])
      (hgone : (s.handlers c).gone = true) :
      Stepped s (.read c) (s.set c { s.handlers c with broadcast := true, pc := .teardown })
  | write {c : ConnId} {command : MutinyWSCommand} {rest : List MutinyWSCommand} (hpc : (s.handlers c).pc = .select)
      (hq : (s.handlers c).queue = command :: rest) :
      Stepped s (.receive c true) (s.set c { s.handlers c with
        queue := rest, written := (s.handlers c).written ++ [to_message (s.handlers c).owner_id command] })
  | write_error {c : ConnId} {command : MutinyWSCommand} {rest : List MutinyWSCommand}
      (hpc : (s.handlers c).pc = .select) (hq : (s.handlers c).queue = command :: rest) :
      Stepped s (.receive c false) (s.set c { s.handlers c with queue := rest, broadcast := true, pc := .teardown })
  | resume {c : ConnId} {t : Proxy} (h : s.resume c = some t) (k : Resumed s c t) : Stepped s (.resume c) t
  | listener {i : TaskId} {t : Proxy} (h : s.listener i = some t) (k : Woken s i t) : Stepped s (.listener i) t

theorem stepped_of_read {c : ConnId} (h : s.read c = some t) : Stepped s (.read c) t := by
  unfold read at h
  dsimp only at h
  split at h
  · cases h
  · next hpc =>
    have hpc := not_not.mp hpc
    split at h
    · next msg rest hi =>
      cases h
      exact .read hpc hi
    · next hi =>
      simp only [Option.ite_none_right_eq_some, Option.some.injEq] at h
      obtain ⟨hgone, rfl⟩ := h
      exact .gone hpc hi hgone

theorem stepped_of_receive {c : ConnId} {ok : Bool} (h : s.receive c ok = some t) : Stepped s (.receive c ok) t := by
  unfold receive at h
  dsimp only at h
  split at h
  · cases h
  · next hpc =>
    have hpc := not_not.mp hpc
    split at h
    · cases h
    · next command rest hq =>
      cases ok with
      | true =>
        cases h
        exact .write hpc hq
      | false =>
        cases h
        exact .write_error hpc hq

theorem stepped_of_step {a : ProxyAct} (h : step s a = some t) : Stepped s a t := by
  cases a with
  | connect identifier =>
    cases h
    exact .connect identifier
  | client_send c msg =>
    simp only [step, Option.ite_none_right_eq_some, Option.some.injEq] at h
    obtain ⟨⟨hlt, hopen⟩, rfl⟩ := h
    exact .client_send msg hlt hopen
  | client_close c =>
    simp only [step, Option.ite_none_right_eq_some, Option.some.injEq] at h
    obtain ⟨hlt, rfl⟩ := h
    exact .client_close hlt
  | read c => exact stepped_of_read h
  | receive c ok => exact stepped_of_receive h
  | resume c => exact .resume h (resumed_of_resume h)
  | listener i => exact .listener h (woken_of_listener h)

/-! ## The kinds of steps -/

structure Moves (c : ConnId) (pc : Pc) (s t : Proxy) : Prop where
  conns : t.conns = s.conns
  pc : ∀ d, (t.handlers d).pc = if d = c then pc else (s.handlers d).pc
  owner_id : ∀ d, (t.handlers d).owner_id = (s.handlers d).owner_id

def actor : ProxyAct → Option ConnId
  | .read c | .receive c _ | .resume c => some c
  | .connect _ | .client_send _ _ | .client_close _ | .listener _ => none

/-- What a step does, apart from the contents of the channels and of the websockets. -/
inductive Trans (s : Proxy) (a : ProxyAct) (t : Proxy) : Prop where
  | connect (pc : Pc) (hpc : pc = .registering ∨ pc = .done) (hconns : t.conns = s.conns + 1)
      (hpcs : ∀ d, (t.handlers d).pc = if d = s.conns then pc else (s.handlers d).pc)
      (hids : ∀ d, d ≠ s.conns → (t.handlers d).owner_id = (s.handlers d).owner_id)
      (hm : t.producers = s.producers) (hl : t.lock = s.lock)
  /-- No loop moves. -/
  | stay (hconns : t.conns = s.conns) (hpcs : ∀ d, (t.handlers d).pc = (s.handlers d).pc)
      (hids : ∀ d, (t.handlers d).owner_id = (s.handlers d).owner_id)
      (hm : t.producers = s.producers) (hl : t.lock = s.lock)
  | register (c : ConnId) (ha : actor a = some c) (hc : (s.handlers c).pc = .registering) (hfree : s.lock = none)
      (k : Moves c .select s t) (hm : t.producers = Function.update s.producers (s.handlers c).owner_id (some c))
      (hl : t.lock = s.lock)
  /-- A loop leaves the `select`, for an await of the mutex or for the next turn. -/
  | leave (c : ConnId) (pc : Pc) (ha : actor a = some c) (hc : (s.handlers c).pc = .select) (hlive : pc.live)
      (hholds : pc.holds = false) (k : Moves c pc s t) (hm : t.producers = s.producers) (hl : t.lock = s.lock)
  | give_up (c : ConnId) (ha : actor a = some c) (hc : (s.handlers c).pc.wants_lock) (hlive : (s.handlers c).pc.live)
      (hfree : s.lock = none) (k : Moves c .select s t) (hm : t.producers = s.producers) (hl : t.lock = s.lock)
  | acquire (c : ConnId) (pc : Pc) (ha : actor a = some c) (hc : (s.handlers c).pc.wants_lock)
      (hlive : (s.handlers c).pc.live) (hfree : s.lock = none) (hholds : pc.holds)
      (hpeer : ∀ p, pc.peer = some p → ∃ id, s.producers id = some p)
      (k : Moves c pc s t) (hm : t.producers = s.producers) (hl : t.lock = some c)
  | hold (c : ConnId) (pc : Pc) (ha : actor a = some c) (hc : (s.handlers c).pc.holds) (hholds : pc.holds)
      (hpeer : ∀ p, pc.peer = some p → (s.handlers c).pc.peer = some p)
      (k : Moves c pc s t) (hm : t.producers = s.producers) (hl : t.lock = s.lock)
  | release (c : ConnId) (ha : actor a = some c) (hc : (s.handlers c).pc.holds) (k : Moves c .select s t)
      (hm : t.producers = s.producers) (hl : t.lock = none)
  | finish (c : ConnId) (ha : actor a = some c) (hc : (s.handlers c).pc = .teardown) (hfree : s.lock = none)
      (k : Moves c .done s t) (hm : t.producers = Function.update s.producers (s.handlers c).owner_id none)
      (hl : t.lock = s.lock)

theorem set_moves {c : ConnId} {pc : Pc} {h : Handler} (hh : t.handlers = Function.update s.handlers c h)
    (hconns : t.conns = s.conns) (hpc : h.pc = pc) (hid : h.owner_id = (s.handlers c).owner_id) : Moves c pc s t := by
  refine ⟨hconns, fun d => ?_, fun d => ?_⟩
  · by_cases hd : d = c <;> simp [hh, hd, hpc]
  · by_cases hd : d = c <;> simp [hh, hd, hid]

theorem push_moves {p c : ConnId} {command : MutinyWSCommand} {pc : Pc}
    (hh : t.handlers = ((s.push p command).goto c pc).handlers) (hconns : t.conns = s.conns) : Moves c pc s t := by
  refine ⟨hconns, fun d => ?_, fun d => ?_⟩
  · simp [hh]
  · simp [hh]

theorem set_stay {a : ProxyAct} {c : ConnId} {h : Handler} (hh : t.handlers = Function.update s.handlers c h)
    (hconns : t.conns = s.conns) (hm : t.producers = s.producers) (hl : t.lock = s.lock)
    (hpc : h.pc = (s.handlers c).pc) (hid : h.owner_id = (s.handlers c).owner_id) : Trans s a t := by
  refine .stay hconns (fun d => ?_) (fun d => ?_) hm hl
  · by_cases hd : d = c <;> simp [hh, hd, hpc]
  · by_cases hd : d = c <;> simp [hh, hd, hid]

theorem on_message_live (msg : Message) : (on_message msg).live ∧ (on_message msg).holds = false := by
  unfold on_message
  split
  · exact ⟨rfl, rfl⟩
  · exact ⟨rfl, rfl⟩
  · split
    · exact ⟨rfl, rfl⟩
    · exact ⟨rfl, rfl⟩
  · exact ⟨rfl, rfl⟩

theorem trans_connect (s : Proxy) (identifier : String) : Trans s (.connect identifier) (s.connect identifier) := by
  refine .connect (if owner_id_bytes identifier = [] then .done else .registering) ?_ rfl (fun d => ?_)
    (fun d hd => ?_) rfl rfl
  · by_cases h : owner_id_bytes identifier = [] <;> simp [h]
  · by_cases hd : d = s.conns <;> simp [connect, hd]
  · simp [connect, hd]

theorem trans_resume {c : ConnId} (k : Resumed s c t) : Trans s (.resume c) t := by
  cases k with
  | register hpc hfree => exact .register c rfl hpc hfree (set_moves rfl rfl rfl rfl) rfl rfl
  | no_peer hpc hfree hm =>
    exact .give_up c rfl (by rw [hpc]; rfl) (by rw [hpc]; rfl) hfree (set_moves rfl rfl rfl rfl) rfl rfl
  | @find_peer peer_id p hpc hfree hm =>
    have hpeer : ∀ q, some p = some q → ∃ id, s.producers id = some q := fun q hq => ⟨peer_id, hm.trans hq⟩
    exact .acquire c (.send_disconnect peer_id p) rfl (by rw [hpc]; rfl) (by rw [hpc]; rfl) hfree rfl hpeer
      (set_moves rfl rfl rfl rfl) rfl rfl
  | no_recipient hpc hfree hm =>
    exact .acquire c (.send_self _) rfl (by rw [hpc]; rfl) (by rw [hpc]; rfl) hfree rfl (fun _ hq => by cases hq)
      (set_moves rfl rfl rfl rfl) rfl rfl
  | @find_recipient peer_id val p hpc hfree hm =>
    have hpeer : ∀ q, some p = some q → ∃ id, s.producers id = some q := fun q hq => ⟨peer_id, hm.trans hq⟩
    exact .acquire c (.send_message peer_id val p) rfl (by rw [hpc]; rfl) (by rw [hpc]; rfl) hfree rfl hpeer
      (set_moves rfl rfl rfl rfl) rfl rfl
  | peer_ended hpc hdone =>
    exact .hold c _ rfl (by rw [hpc]; rfl) (by rfl) (by rintro _ ⟨⟩) (set_moves rfl rfl rfl rfl) rfl rfl
  | disconnect hpc hdone hroom =>
    exact .hold c _ rfl (by rw [hpc]; rfl) (by rfl) (by rintro _ ⟨⟩) (push_moves rfl rfl) rfl rfl
  | drop_peer hpc => exact .release c rfl (by rw [hpc]; rfl) (set_moves rfl rfl rfl rfl) rfl rfl
  | recipient_ended hpc hdone =>
    exact .hold c _ rfl (by rw [hpc]; rfl) (by rfl) (by rintro _ ⟨⟩) (set_moves rfl rfl rfl rfl) rfl rfl
  | send hpc hdone hroom =>
    exact .hold c _ rfl (by rw [hpc]; rfl) rfl (fun q hq => by rw [hpc]; exact hq) (push_moves rfl rfl) rfl rfl
  | subscribe hpc =>
    exact .hold c _ rfl (by rw [hpc]; rfl) rfl (fun q hq => by rw [hpc]; exact hq) (set_moves rfl rfl rfl rfl) rfl rfl
  | connected hpc hin => exact .release c rfl (by rw [hpc]; rfl) (set_moves rfl rfl rfl rfl) rfl rfl
  | listen hpc hout => exact .release c rfl (by rw [hpc]; rfl) (set_moves rfl rfl rfl rfl) rfl rfl
  | send_self hpc hroom => exact .release c rfl (by rw [hpc]; rfl) (push_moves rfl rfl) rfl rfl
  | finish hpc hfree => exact .finish c rfl hpc hfree (set_moves rfl rfl rfl rfl) rfl rfl

theorem trans_listener {i : TaskId} (k : Woken s i t) : Trans s (.listener i) t := by
  cases k with
  | wake ht hpc hwakes => exact .stay rfl (fun _ => rfl) (fun _ => rfl) rfl rfl
  | owner_ended ht hpc hdone => exact .stay rfl (fun _ => rfl) (fun _ => rfl) rfl rfl
  | tell ht hpc hdone hroom => exact .stay rfl (fun d => push_pc s _ d _) (fun d => push_owner_id s _ d _) rfl rfl
  | clear ht hpc => exact set_stay rfl rfl rfl rfl rfl rfl

theorem trans_of_step {a : ProxyAct} (h : step s a = some t) : Trans s a t := by
  cases stepped_of_step h with
  | connect identifier => exact trans_connect s identifier
  | client_send msg hlt hopen => exact set_stay rfl rfl rfl rfl rfl rfl
  | client_close hlt => exact set_stay rfl rfl rfl rfl rfl rfl
  | @read c msg rest hpc hi =>
    obtain ⟨hlive, hholds⟩ := on_message_live msg
    exact .leave c (on_message msg) rfl hpc hlive hholds (set_moves rfl rfl rfl rfl) rfl rfl
  | @gone c hpc hi hgone => exact .leave c .teardown rfl hpc rfl rfl (set_moves rfl rfl rfl rfl) rfl rfl
  | write hpc hq => exact set_stay rfl rfl rfl rfl (by rw [hpc]) rfl
  | @write_error c command rest hpc hq =>
    exact .leave c .teardown rfl hpc rfl rfl (set_moves rfl rfl rfl rfl) rfl rfl
  | resume h k => exact trans_resume k
  | listener h k => exact trans_listener k

theorem Trans.pc_of_ne {a : ProxyAct} {c : ConnId} (h : Trans s a t) (hne : actor a ≠ some c) (hlt : c < s.conns) :
    (t.handlers c).pc = (s.handlers c).pc := by
  have hother : ∀ {d pc}, actor a = some d → Moves d pc s t → (t.handlers c).pc = (s.handlers c).pc := by
    intro d pc ha k
    rw [k.pc, if_neg]
    rintro rfl
    exact hne ha
  cases h with
  | connect pc hpc hconns hpcs hids hm hl => rw [hpcs, if_neg (Nat.ne_of_lt hlt)]
  | stay hconns hpcs hids hm hl => exact hpcs c
  | register d ha hd hfree k hm hl => exact hother ha k
  | leave d pc ha hd hlive hholds k hm hl => exact hother ha k
  | give_up d ha hd hlive hfree k hm hl => exact hother ha k
  | acquire d pc ha hd hlive hfree hholds hpeer k hm hl => exact hother ha k
  | hold d pc ha hd hholds hpeer k hm hl => exact hother ha k
  | release d ha hd k hm hl => exact hother ha k
  | finish d ha hd hfree k hm hl => exact hother ha k

theorem owner_id_step {a : ProxyAct} {d : ConnId} (h : step s a = some t) (hd : d < s.conns) :
    (t.handlers d).owner_id = (s.handlers d).owner_id := by
  cases trans_of_step h with
  | connect pc hpc hconns hpcs hids hm hl => exact hids d (Nat.ne_of_lt hd)
  | stay hconns hpcs hids hm hl => exact hids d
  | register c ha hc hfree k hm hl => exact k.owner_id d
  | leave c pc ha hc hlive hholds k hm hl => exact k.owner_id d
  | give_up c ha hc hlive hfree k hm hl => exact k.owner_id d
  | acquire c pc ha hc hlive hfree hholds hpeer k hm hl => exact k.owner_id d
  | hold c pc ha hc hholds hpeer k hm hl => exact k.owner_id d
  | release c ha hc k hm hl => exact k.owner_id d
  | finish c ha hc hfree k hm hl => exact k.owner_id d

/-! ## The mutex and the map -/

structure Locked (s : Proxy) : Prop where
  fresh : ∀ c, s.conns ≤ c → (s.handlers c).pc = .absent
  holder : ∀ c, s.lock = some c ↔ (s.handlers c).pc.holds
  registered : ∀ id c, s.producers id = some c → (s.handlers c).pc.live ∧ (s.handlers c).owner_id = id
  peer : ∀ c p, (s.handlers c).pc.peer = some p → (s.handlers p).pc.live

theorem locked_new : Locked new :=
  ⟨fun _ _ => rfl, fun _ => by simp [new, Handler.none, Pc.holds], nofun, nofun⟩

namespace Locked

variable (inv : Locked s) {c : ConnId} {pc : Pc}
include inv

theorem lt_conns (h : (s.handlers c).pc ≠ .absent) : c < s.conns := by
  by_contra hc
  exact h (inv.fresh c (Nat.le_of_not_lt hc))

theorem lt_of_live (h : (s.handlers c).pc.live) : c < s.conns := by
  apply inv.lt_conns
  intro hpc
  rw [hpc] at h
  cases h

omit inv in
theorem live_moves (k : Moves c pc s t) (hlive : (s.handlers c).pc.live → pc.live) {d : ConnId}
    (h : (s.handlers d).pc.live) : (t.handlers d).pc.live := by
  rw [k.pc]
  by_cases hd : d = c
  · rw [if_pos hd]
    exact hlive (hd ▸ h)
  · rwa [if_neg hd]

theorem fresh_moves (k : Moves c pc s t) (hc : (s.handlers c).pc ≠ .absent) :
    ∀ d, t.conns ≤ d → (t.handlers d).pc = .absent := by
  intro d hd
  have hlt := inv.lt_conns hc
  rw [k.conns] at hd
  rw [k.pc, if_neg (Nat.ne_of_gt (Nat.lt_of_lt_of_le hlt hd))]
  exact inv.fresh d hd

theorem registered_moves (k : Moves c pc s t) (hlive : (s.handlers c).pc.live → pc.live)
    (hm : t.producers = s.producers) :
    ∀ id d, t.producers id = some d → (t.handlers d).pc.live ∧ (t.handlers d).owner_id = id := by
  intro id d hd
  rw [hm] at hd
  obtain ⟨hl, hid⟩ := inv.registered id d hd
  exact ⟨live_moves k hlive hl, (k.owner_id d).trans hid⟩

theorem peer_moves (k : Moves c pc s t) (hlive : (s.handlers c).pc.live → pc.live)
    (hpeer : ∀ p, pc.peer = some p → (s.handlers p).pc.live) :
    ∀ d p, (t.handlers d).pc.peer = some p → (t.handlers p).pc.live := by
  intro d p hp
  rw [k.pc] at hp
  by_cases hd : d = c
  · rw [if_pos hd] at hp
    exact live_moves k hlive (hpeer p hp)
  · rw [if_neg hd] at hp
    exact live_moves k hlive (inv.peer d p hp)

theorem holder_moves (k : Moves c pc s t) (hc : (s.handlers c).pc.holds = false) (hpc : pc.holds = false)
    (hl : t.lock = s.lock) : ∀ d, t.lock = some d ↔ (t.handlers d).pc.holds := by
  intro d
  rw [hl, k.pc, inv.holder]
  by_cases hd : d = c
  · simp [hd, hc, hpc]
  · simp [hd]

theorem not_holds_of_free (h : s.lock = none) (d : ConnId) : (s.handlers d).pc.holds = false := by
  have hd := inv.holder d
  rw [h] at hd
  simpa using hd

theorem holds_unique {d : ConnId} (hc : (s.handlers c).pc.holds) (hd : (s.handlers d).pc.holds) : c = d := by
  have h := (inv.holder c).mpr hc
  rw [(inv.holder d).mpr hd] at h
  exact (Option.some.inj h).symm

theorem trans {a : ProxyAct} (h : Trans s a t) : Locked t := by
  cases h with
  | connect pc hpc hconns hpcs hids hm hl =>
    have hn := inv.fresh s.conns (Nat.le_refl _)
    have hne : ∀ d, (s.handlers d).pc.live → d ≠ s.conns := by
      rintro d hd rfl
      rw [hn] at hd
      cases hd
    have hlive : ∀ d, (s.handlers d).pc.live → (t.handlers d).pc.live := by
      intro d hd
      rwa [hpcs, if_neg (hne d hd)]
    refine ⟨fun d hd => ?_, fun d => ?_, fun id d hd => ?_, fun d p hp => ?_⟩
    · rw [hconns] at hd
      rw [hpcs, if_neg (Nat.ne_of_gt hd)]
      exact inv.fresh d (Nat.le_of_succ_le hd)
    · rw [hl, hpcs, inv.holder]
      by_cases hd : d = s.conns
      · rcases hpc with rfl | rfl <;> simp [hd, hn, Pc.holds]
      · simp [hd]
    · rw [hm] at hd
      obtain ⟨hl, hid⟩ := inv.registered id d hd
      exact ⟨hlive d hl, (hids d (hne d hl)).trans hid⟩
    · rw [hpcs] at hp
      by_cases hd : d = s.conns
      · rcases hpc with rfl | rfl <;> simp [hd, Pc.peer] at hp
      · rw [if_neg hd] at hp
        exact hlive p (inv.peer d p hp)
  | stay hconns hpcs hids hm hl =>
    refine ⟨fun d hd => ?_, fun d => ?_, fun id d hd => ?_, fun d p hp => ?_⟩
    · rw [hpcs]
      exact inv.fresh d (hconns ▸ hd)
    · rw [hl, hpcs, inv.holder]
    · rw [hpcs, hids]
      exact inv.registered id d (hm ▸ hd)
    · rw [hpcs] at hp ⊢
      exact inv.peer d p hp
  | register c _ hc hfree k hm hl =>
    have hlive : (s.handlers c).pc.live → Pc.select.live := fun _ => rfl
    refine ⟨inv.fresh_moves k (by simp [hc]), inv.holder_moves k (by simp [hc, Pc.holds]) rfl hl, fun id d hd => ?_,
      inv.peer_moves k hlive nofun⟩
    rw [hm, Function.update_apply] at hd
    by_cases hid : id = (s.handlers c).owner_id
    · rw [if_pos hid] at hd
      cases hd
      exact ⟨by simp [k.pc, Pc.live], (k.owner_id c).trans hid.symm⟩
    · rw [if_neg hid] at hd
      obtain ⟨hl, hid⟩ := inv.registered id d hd
      exact ⟨live_moves k hlive hl, (k.owner_id d).trans hid⟩
  | leave c pc _ hc hlive hholds k hm hl =>
    have hnone : ∀ p, pc.peer = some p → False := by
      intro p hp
      cases pc <;> simp_all [Pc.peer, Pc.holds]
    exact ⟨inv.fresh_moves k (by simp [hc]), inv.holder_moves k (by simp [hc, Pc.holds]) hholds hl,
      inv.registered_moves k (fun _ => hlive) hm, inv.peer_moves k (fun _ => hlive) fun p hp => (hnone p hp).elim⟩
  | give_up c _ hc hlive hfree k hm hl =>
    have hne : (s.handlers c).pc ≠ .absent := by
      intro h
      simp [h, Pc.wants_lock] at hc
    exact ⟨inv.fresh_moves k hne, inv.holder_moves k (Pc.not_holds_of_wants hc) rfl hl,
      inv.registered_moves k (fun _ => rfl) hm, inv.peer_moves k (fun _ => rfl) nofun⟩
  | acquire c pc _ hc hlive hfree hholds hpeer k hm hl =>
    have hpc : pc.live := Pc.live_of_holds hholds
    have hne : (s.handlers c).pc ≠ .absent := by
      intro h
      simp [h, Pc.wants_lock] at hc
    refine ⟨inv.fresh_moves k hne, fun d => ?_, inv.registered_moves k (fun _ => hpc) hm,
      inv.peer_moves k (fun _ => hpc) fun p hp => ?_⟩
    · rw [hl, k.pc]
      by_cases hd : d = c
      · simp [hd, hholds]
      · simp [hd, Ne.symm hd, inv.not_holds_of_free hfree d]
    · obtain ⟨id, hid⟩ := hpeer p hp
      exact (inv.registered id p hid).1
  | hold c pc _ hc hholds hpeer k hm hl =>
    have hpc : pc.live := Pc.live_of_holds hholds
    have hne : (s.handlers c).pc ≠ .absent := by
      intro h
      simp [h, Pc.holds] at hc
    refine ⟨inv.fresh_moves k hne, fun d => ?_, inv.registered_moves k (fun _ => hpc) hm,
      inv.peer_moves k (fun _ => hpc) fun p hp => inv.peer c p (hpeer p hp)⟩
    rw [hl, k.pc, inv.holder]
    by_cases hd : d = c
    · simp [hd, hc, hholds]
    · simp [hd]
  | release c _ hc k hm hl =>
    have hne : (s.handlers c).pc ≠ .absent := by
      intro h
      simp [h, Pc.holds] at hc
    refine ⟨inv.fresh_moves k hne, fun d => ?_, inv.registered_moves k (fun _ => rfl) hm,
      inv.peer_moves k (fun _ => rfl) nofun⟩
    rw [hl, k.pc]
    by_cases hd : d = c
    · simp [hd, Pc.holds]
    · have hd' : ¬ (s.handlers d).pc.holds = true := fun h => hd (inv.holds_unique h hc)
      simp [hd, hd']
  | finish c _ hc hfree k hm hl =>
    -- nobody has the loop in hand while the mutex is free
    have hother : ∀ d, (s.handlers d).pc.live → d ≠ c → (t.handlers d).pc.live := by
      intro d hd hne
      rwa [k.pc, if_neg hne]
    refine ⟨inv.fresh_moves k (by simp [hc]), inv.holder_moves k (by simp [hc, Pc.holds]) rfl hl, fun id d hd => ?_,
      fun d p hp => ?_⟩
    · rw [hm, Function.update_apply] at hd
      by_cases hid : id = (s.handlers c).owner_id
      · simp [hid] at hd
      · rw [if_neg hid] at hd
        obtain ⟨hl, hid'⟩ := inv.registered id d hd
        have hne : d ≠ c := by
          rintro rfl
          exact hid hid'.symm
        exact ⟨hother d hl hne, (k.owner_id d).trans hid'⟩
    · rw [k.pc] at hp
      by_cases hd : d = c
      · simp [hd, Pc.peer] at hp
      · rw [if_neg hd] at hp
        have hh := inv.not_holds_of_free hfree d
        cases hpc : (s.handlers d).pc <;> simp_all [Pc.peer, Pc.holds]

end Locked

theorem locked_of_run {as : List ProxyAct} (h : machine.run new as = some s) : Locked s :=
  Machine.invariant (I := Locked) (fun _ _ _ inv hs => inv.trans (trans_of_step hs)) locked_new h

end Proxy

end Mutiny
