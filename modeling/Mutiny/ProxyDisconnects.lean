import Mathlib.Logic.Relation
import Mutiny.ProxyDeadlock
import Mutiny.ProxyRelay

/-!
# Disconnects that are told

A loop that has sent a message to a peer subscribes to the end of the peer, unless `connected_peers` says that it has
done so before. The entry of an earlier session is taken out only some time after its listener task has told of the end
of that session. A message that is sent in between is not followed by a disconnect when the new session ends; in all
other runs it is.
-/

namespace Mutiny

/-- What is put on a channel and what is written down a websocket, in one order. -/
inductive ProxyEvent where
  | push (p : Push)
  | write (c : ConnId) (command : MutinyWSCommand)
  deriving DecidableEq, Repr

def ProxyEvent.tells (c : ConnId) (peer_id : Bytes) : ProxyEvent → Prop
  | .push p => p.peer = c ∧ p.command = .Disconnect peer_id
  | .write d command => d = c ∧ command = .Disconnect peer_id

def Pc.found : Pc → Option (Bytes × ConnId)
  | .send_disconnect id p | .send_message id _ p | .subscribe id p | .listen id p _ => some (id, p)
  | .absent | .registering | .select | .lock_disconnect _ | .lock_send _ _ | .drop_peer _ | .send_self _ | .teardown
  | .done => none

namespace Proxy

variable {s t : Proxy}

def events (s : Proxy) : ProxyAct → List ProxyEvent
  | .receive c true => (s.handlers c).queue.head?.toList.map (.write c)
  | a => (s.pushes a).map .push

/-- A listener task of `c` for `peer_id` that has not told of the end yet, and that waits for the end of `peer` or of a
loop that is ending. -/
def Pending (s : Proxy) (c : ConnId) (peer_id : Bytes) (peer : ConnId) : Prop :=
  ∃ task ∈ s.listeners, task.owner = c ∧ task.other_peer = peer_id ∧
    (task.pc = .sending ∨ task.pc = .waiting ∧ (task.peer = peer ∨ (s.handlers task.peer).broadcast = true))

/-- The end of `peer` will be told, or what was told before is still in the channel. -/
def Covered (s : Proxy) (c : ConnId) (peer_id : Bytes) (peer : ConnId) : Prop :=
  s.Pending c peer_id peer ∨ .Disconnect peer_id ∈ (s.handlers c).queue

/-- A loop that finds a peer among its connected peers is still to be told of the end of it. -/
def NotStale (s : Proxy) : ProxyAct → Prop
  | .resume c =>
    match (s.handlers c).pc with
    | .listen peer_id peer _ => peer_id ∈ (s.handlers c).connected_peers → s.Covered c peer_id peer
    | _ => True
  | _ => True

instance (c : ConnId) (peer_id : Bytes) (peer : ConnId) : Decidable (s.Pending c peer_id peer) :=
  inferInstanceAs (Decidable (∃ task ∈ s.listeners, _))

instance (c : ConnId) (peer_id : Bytes) (peer : ConnId) : Decidable (s.Covered c peer_id peer) :=
  inferInstanceAs (Decidable (_ ∨ _))

instance : ∀ a, Decidable (s.NotStale a)
  | .resume c =>
    match hpc : (s.handlers c).pc with
    | .listen peer_id peer _ =>
      decidable_of_iff (peer_id ∈ (s.handlers c).connected_peers → s.Covered c peer_id peer) (by simp [NotStale, hpc])
    | .absent | .registering | .select | .lock_disconnect _ | .lock_send _ _ | .send_disconnect _ _ | .drop_peer _
    | .send_message _ _ _ | .subscribe _ _ | .send_self _ | .teardown | .done => .isTrue (by simp [NotStale, hpc])
  | .connect _ | .client_send _ _ | .client_close _ | .read _ | .receive _ _ | .listener _ => .isTrue trivial

/-! ## Loops that end -/

def next_pc (s : Proxy) (c : ConnId) : Pc :=
  match (s.handlers c).pc with
  | .lock_disconnect id =>
    match s.producers id with
    | some p => .send_disconnect id p
    | none => .select
  | .lock_send id val =>
    match s.producers id with
    | some p => .send_message id val p
    | none => .send_self id
  | .send_disconnect id _ => .drop_peer id
  | .send_message id _ p => if (s.handlers p).pc = .done then .send_self id else .subscribe id p
  | .subscribe id p => .listen id p (s.handlers p).broadcast
  | .registering | .drop_peer _ | .listen _ _ _ | .send_self _ => .select
  | .teardown => .done
  | .absent => .absent
  | .select => .select
  | .done => .done

theorem resume_pc {c : ConnId} (h : s.resume c = some t) : (t.handlers c).pc = s.next_pc c := by
  unfold next_pc
  cases resumed_of_resume h with
  | no_peer hpc hfree hm | find_peer hpc hfree hm | no_recipient hpc hfree hm | find_recipient hpc hfree hm =>
    simp [hpc, hm]
  | peer_ended hpc hdone | recipient_ended hpc hdone => simp [hpc, hdone]
  | disconnect hpc hdone hroom | send hpc hdone hroom => simp [hpc, hdone]
  | register hpc hl | finish hpc hl | connected hpc hl | listen hpc hl | send_self hpc hl | drop_peer hpc
  | subscribe hpc => simp [hpc]

theorem resume_ends {c : ConnId} (h : s.resume c = some t) : (t.handlers c).pc ≠ .teardown ∧
    ((t.handlers c).pc = .done → (s.handlers c).pc = .teardown) := by
  have hlive : (s.handlers c).pc ≠ .done := by
    intro hpc
    simp [resume, hpc] at h
  rw [resume_pc h]
  unfold next_pc
  grind

theorem resume_found {c : ConnId} (h : s.resume c = some t) {id : Bytes} {p : ConnId}
    (hf : (t.handlers c).pc.found = some (id, p)) :
    (s.handlers c).pc.found = some (id, p) ∨ s.producers id = some p := by
  rw [resume_pc h] at hf
  unfold next_pc at hf
  grind [Pc.found]

theorem end_step {a : ProxyAct} {d : ConnId} (h : step s a = some t) (hd : d < s.conns) :
    ((t.handlers d).pc = (s.handlers d).pc ∧ (t.handlers d).broadcast = (s.handlers d).broadcast) ∨
    ((s.handlers d).pc = .select ∧ (t.handlers d).pc = .teardown ∧ (t.handlers d).broadcast = true) ∨
    ((s.handlers d).pc = .select ∧ (t.handlers d).broadcast = (s.handlers d).broadcast ∧
      ∃ msg, (t.handlers d).pc = on_message msg) ∨
    (s.resume d = some t ∧ a = .resume d ∧ (t.handlers d).broadcast = (s.handlers d).broadcast) := by
  cases stepped_of_step h with
  | connect identifier => simp [connect, Nat.ne_of_lt hd]
  | @client_send c msg hlt hopen => by_cases hc : d = c <;> simp [hc]
  | @client_close c hlt => by_cases hc : d = c <;> simp [hc]
  | @read c msg rest hpc hi =>
    by_cases hc : d = c
    · exact .inr (.inr (.inl ⟨by rw [hc, hpc], by simp [hc], msg, by simp [hc]⟩))
    · simp [hc]
  | @gone c hpc hi hgone => by_cases hc : d = c <;> simp [hc, hpc]
  | @write c command rest hpc hq => by_cases hc : d = c <;> simp [hc, hpc]
  | @write_error c command rest hpc hq => by_cases hc : d = c <;> simp [hc, hpc]
  | @resume c _ h k =>
    by_cases hc : d = c
    · subst hc
      exact .inr (.inr (.inr ⟨h, rfl, (flows_resume k).broadcast d⟩))
    · have hne : actor (.resume c) ≠ some d := fun ha => hc (Option.some.inj ha).symm
      exact .inl ⟨(trans_resume k).pc_of_ne hne hd, (flows_resume k).broadcast d⟩
  | listener h k =>
    exact .inl ⟨(trans_listener k).pc_of_ne (fun he => by cases he) hd, (flows_listener k).broadcast d⟩

theorem broadcast_step {a : ProxyAct} {d : ConnId} (h : step s a = some t)
    (hd : ∀ identifier, a = .connect identifier → d ≠ s.conns) :
    (t.handlers d).broadcast = (s.handlers d).broadcast ∨ (s.handlers d).pc = .select := by
  cases stepped_of_step h with
  | connect identifier => simp [connect, hd identifier rfl]
  | @client_send c msg hlt hopen => by_cases hc : d = c <;> simp [hc]
  | @client_close c hlt => by_cases hc : d = c <;> simp [hc]
  | @read c msg rest hpc hi => by_cases hc : d = c <;> simp [hc]
  | @gone c hpc hi hgone => by_cases hc : d = c <;> simp [hc, hpc]
  | @write c command rest hpc hq => by_cases hc : d = c <;> simp [hc]
  | @write_error c command rest hpc hq => by_cases hc : d = c <;> simp [hc, hpc]
  | resume h k => exact .inl ((flows_resume k).broadcast d)
  | listener h k => exact .inl ((flows_listener k).broadcast d)

theorem on_message_goes_on (msg : Message) : on_message msg ≠ .absent ∧ on_message msg ≠ .teardown ∧
    on_message msg ≠ .done ∧ (on_message msg).found = none := by
  rcases msg with (_ | ⟨to_, from_⟩) | msg | _
  · exact ⟨(fun he => by cases he), (fun he => by cases he), (fun he => by cases he), rfl⟩
  · exact ⟨(fun he => by cases he), (fun he => by cases he), (fun he => by cases he), rfl⟩
  · by_cases hlt : msg.length < PUBKEY_BYTES_LEN <;> simp [on_message, hlt, Pc.found]
  · exact ⟨(fun he => by cases he), (fun he => by cases he), (fun he => by cases he), rfl⟩

structure Ends (s : Proxy) : Prop where
  broadcast : ∀ c, (s.handlers c).broadcast = true → (s.handlers c).pc = .teardown ∨ (s.handlers c).pc = .done
  teardown : ∀ c, (s.handlers c).pc = .teardown → (s.handlers c).broadcast = true
  done : ∀ c, (s.handlers c).pc = .done → (s.handlers c).broadcast = true ∨ (s.handlers c).owner_id = []
  owner : ∀ c, (s.handlers c).pc ≠ .absent → (s.handlers c).pc ≠ .done → (s.handlers c).owner_id ≠ []
  found : ∀ c id p, (s.handlers c).pc.found = some (id, p) → (s.handlers p).owner_id = id
  listener : ∀ task ∈ s.listeners, (s.handlers task.peer).owner_id = task.other_peer ∧ task.peer < s.conns

theorem ends_new : Ends new :=
  ⟨nofun, nofun, nofun, fun _ h => (h rfl).elim, nofun, nofun⟩

theorem lt_of_found (inv : Locked s) {c p : ConnId} {id : Bytes} (h : (s.handlers c).pc.found = some (id, p)) :
    p < s.conns := by
  have hlive : (s.handlers p).pc.live := by
    apply inv.peer c
    cases hpc : (s.handlers c).pc <;> simp_all [Pc.found, Pc.peer]
  exact inv.lt_of_live hlive

theorem Ends.trans (ends : Ends s) (inv : Locked s) {a : ProxyAct} (h : step s a = some t) : Ends t := by
  have inv' := inv.trans (trans_of_step h)
  have hle : s.conns ≤ t.conns := conns_le h
  -- a connection that was not there before the step has not begun, or its identifier did not parse
  have hborn : ∀ c, s.conns ≤ c → (t.handlers c).broadcast = false ∧ ((t.handlers c).pc = .absent ∨
      (t.handlers c).pc = .registering ∧ (t.handlers c).owner_id ≠ [] ∨
      (t.handlers c).pc = .done ∧ (t.handlers c).owner_id = []) := by
    intro c hc
    have hsb : (s.handlers c).broadcast = false := by
      by_contra hb
      rcases ends.broadcast c (by simpa using hb) with hpc | hpc <;> simp [inv.fresh c hc] at hpc
    by_cases hnew : ∃ identifier, a = .connect identifier ∧ c = s.conns
    · obtain ⟨identifier, rfl, rfl⟩ := hnew
      cases h
      by_cases hid : owner_id_bytes identifier = [] <;> simp [connect, Handler.none, hid]
    · have hne : ∀ identifier, a = .connect identifier → c ≠ s.conns := fun identifier ha hs => hnew ⟨identifier, ha, hs⟩
      refine ⟨?_, .inl (inv'.fresh c ?_)⟩
      · rcases broadcast_step h hne with hb | hpc
        · rw [hb, hsb]
        · simp [inv.fresh c hc] at hpc
      · rcases conns_step h with ⟨identifier, ha, hn⟩ | ⟨-, hn⟩
        · rw [hn]
          exact Nat.lt_of_le_of_ne hc (Ne.symm (hne identifier ha))
        · exact hn ▸ hc
  refine ⟨fun c hb => ?_, fun c hpc => ?_, fun c hpc => ?_, fun c ha hd => ?_, fun c id p hf => ?_, fun task ht => ?_⟩
  · rcases Nat.lt_or_ge c s.conns with hc | hc
    · rcases end_step h hc with ⟨hpc, hb'⟩ | ⟨-, hpc, -⟩ | ⟨hpc, hb', -⟩ | ⟨hres, -, hb'⟩
      · rw [hpc]
        exact ends.broadcast c (hb' ▸ hb)
      · exact .inl hpc
      · rcases ends.broadcast c (hb' ▸ hb) with hpc' | hpc' <;> simp [hpc] at hpc'
      · right
        rcases ends.broadcast c (hb' ▸ hb) with hpc' | hpc'
        · rw [resume_pc hres]
          simp [next_pc, hpc']
        · simp [resume, hpc'] at hres
    · rw [(hborn c hc).1] at hb
      cases hb
  · rcases Nat.lt_or_ge c s.conns with hc | hc
    · rcases end_step h hc with ⟨hpc', hb⟩ | ⟨-, -, hb⟩ | ⟨-, -, msg, hpc'⟩ | ⟨hres, -, -⟩
      · rw [hb]
        exact ends.teardown c (hpc' ▸ hpc)
      · exact hb
      · exact ((on_message_goes_on msg).2.1 (hpc'.symm.trans hpc)).elim
      · exact ((resume_ends hres).1 hpc).elim
    · rcases (hborn c hc).2 with hpc' | ⟨hpc', -⟩ | ⟨hpc', -⟩ <;> simp [hpc] at hpc'
  · rcases Nat.lt_or_ge c s.conns with hc | hc
    · rw [owner_id_step h hc]
      rcases end_step h hc with ⟨hpc', hb⟩ | ⟨-, hpc', -⟩ | ⟨-, -, msg, hpc'⟩ | ⟨hres, -, hb⟩
      · rw [hb]
        exact ends.done c (hpc' ▸ hpc)
      · simp [hpc] at hpc'
      · exact ((on_message_goes_on msg).2.2.1 (hpc'.symm.trans hpc)).elim
      · exact .inl (hb ▸ ends.teardown c ((resume_ends hres).2 hpc))
    · rcases (hborn c hc).2 with hpc' | ⟨hpc', -⟩ | ⟨-, hid⟩
      · simp [hpc] at hpc'
      · simp [hpc] at hpc'
      · exact .inr hid
  · rcases Nat.lt_or_ge c s.conns with hc | hc
    · rw [owner_id_step h hc]
      rcases end_step h hc with ⟨hpc, -⟩ | ⟨hpc, -⟩ | ⟨hpc, -⟩ | ⟨hres, -⟩
      · exact ends.owner c (hpc ▸ ha) (hpc ▸ hd)
      · exact ends.owner c (by simp [hpc]) (by simp [hpc])
      · exact ends.owner c (by simp [hpc]) (by simp [hpc])
      · refine ends.owner c (fun hpc => ?_) fun hpc => ?_
        · simp [resume, hpc] at hres
        · simp [resume, hpc] at hres
    · rcases (hborn c hc).2 with hpc' | ⟨-, hid⟩ | ⟨hpc', -⟩
      · exact (ha hpc').elim
      · exact hid
      · exact (hd hpc').elim
  · rcases Nat.lt_or_ge c s.conns with hc | hc
    · rcases end_step h hc with ⟨hpc, -⟩ | ⟨-, hpc, -⟩ | ⟨-, -, msg, hpc⟩ | ⟨hres, -, -⟩
      · rw [hpc] at hf
        rw [owner_id_step h (lt_of_found inv hf)]
        exact ends.found c id p hf
      · rw [hpc] at hf
        cases hf
      · rw [hpc, (on_message_goes_on msg).2.2.2] at hf
        cases hf
      · rcases resume_found hres hf with hf | hm
        · rw [owner_id_step h (lt_of_found inv hf)]
          exact ends.found c id p hf
        · obtain ⟨hlive, hid⟩ := inv.registered id p hm
          rw [owner_id_step h (inv.lt_of_live hlive)]
          exact hid
    · rcases (hborn c hc).2 with hpc | ⟨hpc, -⟩ | ⟨hpc, -⟩ <;> rw [hpc] at hf <;> cases hf
  · have hkeep : (s.handlers task.peer).owner_id = task.other_peer → task.peer < s.conns →
        (t.handlers task.peer).owner_id = task.other_peer ∧ task.peer < t.conns := fun hid hp =>
      ⟨(owner_id_step h hp).trans hid, Nat.lt_of_lt_of_le hp hle⟩
    rcases listeners_step h task ht with ⟨task', ht', -, hother, hpeer⟩ | ⟨-, late, hpc⟩
    · obtain ⟨hid, hp⟩ := ends.listener task' ht'
      rw [hother, hpeer] at hid
      exact hkeep hid (hpeer ▸ hp)
    · have hf : (s.handlers task.owner).pc.found = some (task.other_peer, task.peer) := by rw [hpc]; rfl
      exact hkeep (ends.found _ _ _ hf) (lt_of_found inv hf)

theorem ends_of_run {as : List ProxyAct} (h : machine.run new as = some s) : Ends s :=
  Machine.history_invariant (I := fun _ s => Ends s) ends_new
    (fun _ _ _ _ hrun ends hs => ends.trans (locked_of_run hrun) hs) h

theorem present_of_run {as : List ProxyAct} (h : machine.run new as = some s) {c : ConnId} (hc : c < s.conns) :
    (s.handlers c).pc ≠ .absent := by
  refine Machine.history_invariant (M := machine) (I := fun _ s => ∀ c < s.conns, (s.handlers c).pc ≠ .absent)
    (fun _ h => (Nat.not_lt_zero _ h).elim) ?_ h c hc
  intro as s a t hrun ih hs c hc
  rcases Nat.lt_or_ge c s.conns with hlt | hge
  · have hpc := ih c hlt
    rcases end_step hs hlt with ⟨hpc', -⟩ | ⟨-, hpc', -⟩ | ⟨-, -, msg, hpc'⟩ | ⟨hres, -⟩
    · rw [hpc']
      exact hpc
    · simp [hpc']
    · rw [hpc']
      exact (on_message_goes_on msg).1
    · rw [resume_pc hres]
      unfold next_pc
      grind
  · rcases conns_step hs with ⟨identifier, rfl, hn⟩ | ⟨-, hn⟩
    · have hcs : c = s.conns := by
        rw [hn] at hc
        exact Nat.le_antisymm (Nat.le_of_lt_succ hc) hge
      cases hs
      by_cases hid : owner_id_bytes identifier = [] <;> simp [connect, hcs, hid]
    · exact (Nat.not_lt.mpr hge (hn ▸ hc)).elim

/-! ## After a message -/

/-- What a run has come to after a message of the client of `c` was put on the channel of `peer`. -/
def Followed (s : Proxy) (c : ConnId) (peer_id : Bytes) (peer : ConnId) (after : List ProxyEvent) : Prop :=
  ((s.handlers c).pc = .teardown ∨ (s.handlers c).pc = .done) ∨ (s.handlers c).pc = .subscribe peer_id peer ∨
    (∃ late, (s.handlers c).pc = .listen peer_id peer late) ∨ s.Covered c peer_id peer ∨
    ∃ e ∈ after, e.tells c peer_id

theorem listeners_keep {a : ProxyAct} {i : TaskId} {task : Listener} (h : step s a = some t)
    (hi : s.listeners[i]? = some task) (ha : a ≠ .listener i) : t.listeners[i]? = some task := by
  cases stepped_of_step h with
  | resume h k =>
    cases k with
    | listen hpc hout => exact (List.getElem?_append_left (List.getElem?_eq_some_iff.mp hi).1).trans hi
    | _ => exact hi
  | @listener j _ h k =>
    have hne : j ≠ i := by
      rintro rfl
      exact ha rfl
    cases k <;> exact (List.getElem?_set_ne hne).trans hi
  | _ => exact hi

theorem covered_of_eq {c : ConnId} {peer_id : Bytes} {peer : ConnId} (hl : ∀ task ∈ s.listeners, task ∈ t.listeners)
    (hb : ∀ d, (t.handlers d).broadcast = (s.handlers d).broadcast)
    (hq : (t.handlers c).queue = (s.handlers c).queue) (h : s.Covered c peer_id peer) : t.Covered c peer_id peer := by
  rcases h with ⟨task, hmem, ho, hp, hpc⟩ | hmem
  · exact .inl ⟨task, hl task hmem, ho, hp, by rw [hb]; exact hpc⟩
  · exact .inr (hq ▸ hmem)

theorem covered_step (ends : Ends s) {a : ProxyAct} {c : ConnId} {peer_id : Bytes} {peer : ConnId}
    (h : step s a = some t) (hc : c < s.conns) (hcov : s.Covered c peer_id peer) :
    ((t.handlers c).pc = .teardown ∨ (t.handlers c).pc = .done) ∨ t.Covered c peer_id peer ∨
      ∃ e ∈ s.events a, e.tells c peer_id := by
  rcases hcov with ⟨task, hmem, rfl, rfl, hpc⟩ | hmem
  · obtain ⟨i, hi⟩ := List.getElem?_of_mem hmem
    by_cases ha : a = .listener i
    · subst ha
      simp only [step, listener, hi] at h
      rcases hpc with hpc | ⟨hpc, -⟩
      · simp only [hpc] at h
        split at h
        · next hdone =>
          cases h
          exact .inl (.inr hdone)
        · next hdone =>
          right
          right
          refine ⟨.push ⟨task.owner, .listener i, .Disconnect task.other_peer⟩, ?_, rfl, rfl⟩
          simp [events, pushes, hi, hpc, hdone]
      · simp only [hpc, Option.ite_none_right_eq_some, Option.some.injEq] at h
        obtain ⟨-, rfl⟩ := h
        have hlt : i < s.listeners.length := (List.getElem?_eq_some_iff.mp hi).1
        exact .inr (.inl (.inl ⟨{ task with pc := .sending }, List.mem_set hlt _, rfl, rfl, .inl rfl⟩))
    · right
      left
      left
      refine ⟨task, List.mem_of_getElem? (listeners_keep h hi ha), rfl, rfl, ?_⟩
      rcases hpc with hpc | ⟨hpc, hpeer | hb⟩
      · exact .inl hpc
      · exact .inr ⟨hpc, .inl hpeer⟩
      · refine .inr ⟨hpc, .inr ?_⟩
        -- a loop that has said that it ends is not at its `select` again
        have hlt := (ends.listener task hmem).2
        rcases broadcast_step h (fun _ _ => Nat.ne_of_lt hlt) with hb' | hsel
        · rw [hb', hb]
        · rcases ends.broadcast task.peer hb with hpc' | hpc' <;> simp [hsel] at hpc'
  · rcases queue_step h (fun _ _ => Nat.ne_of_lt hc) with ⟨ok, command, rfl, hq, -, hw⟩ | ⟨hq, -⟩
    · rw [hq] at hmem
      rcases List.mem_cons.mp hmem with rfl | hmem
      · cases ok with
        | true => exact .inr (.inr ⟨.write c (.Disconnect peer_id), by simp [events, hq], rfl, rfl⟩)
        | false => exact .inl (.inl hw.2)
      · exact .inr (.inl (.inr hmem))
    · exact .inr (.inl (.inr (hq ▸ List.mem_append_left _ hmem)))

theorem followed_step (ends : Ends s) {a : ProxyAct} {c : ConnId} {peer_id : Bytes} {peer : ConnId}
    {after : List ProxyEvent} (hG : NotStale s a) (h : step s a = some t) (hc : c < s.conns)
    (hf : s.Followed c peer_id peer after) : t.Followed c peer_id peer (after ++ s.events a) := by
  rcases hf with hend | hpc | ⟨late, hpc⟩ | hcov | ⟨e, he, htells⟩
  · exact .inl (ended_step h hc hend)
  · rcases end_step h hc with ⟨hpc', -⟩ | ⟨hsel, -⟩ | ⟨hsel, -⟩ | ⟨hres, -, -⟩
    · exact .inr (.inl (hpc'.trans hpc))
    · simp [hpc] at hsel
    · simp [hpc] at hsel
    · refine .inr (.inr (.inl ⟨(s.handlers peer).broadcast, ?_⟩))
      rw [resume_pc hres]
      simp [next_pc, hpc]
  · rcases end_step h hc with ⟨hpc', -⟩ | ⟨hsel, -⟩ | ⟨hsel, -⟩ | ⟨hres, rfl, -⟩
    · exact .inr (.inr (.inl ⟨late, hpc'.trans hpc⟩))
    · simp [hpc] at hsel
    · simp [hpc] at hsel
    · refine .inr (.inr (.inr (.inl ?_)))
      simp only [resume, hpc] at hres
      split at hres
      · next hmem =>
        cases hres
        have hcov : s.Covered c peer_id peer := by
          simp only [NotStale, hpc] at hG
          exact hG hmem
        exact covered_of_eq (s := s) (fun _ h => h) (fun d => goto_broadcast s c d _) (goto_queue s c c _) hcov
      · cases hres
        exact .inl ⟨⟨c, peer_id, peer, late, .waiting⟩, by simp, rfl, rfl, .inr ⟨rfl, .inl rfl⟩⟩
  · rcases covered_step ends h hc hcov with hend | hcov | ⟨e, he, htells⟩
    · exact .inl hend
    · exact .inr (.inr (.inr (.inl hcov)))
    · exact .inr (.inr (.inr (.inr ⟨e, List.mem_append_right _ he, htells⟩)))
  · exact .inr (.inr (.inr (.inr ⟨e, List.mem_append_left _ he, htells⟩)))

theorem push_message {a : ProxyAct} {c peer : ConnId} {peer_id id val : Bytes} (h : step s a = some t)
    (hm : .push ⟨peer, .frame c peer_id, .Send id val⟩ ∈ s.events a) :
    a = .resume c ∧ (t.handlers c).pc = .subscribe peer_id peer := by
  have hp : ⟨peer, .frame c peer_id, .Send id val⟩ ∈ s.pushes a := by
    unfold events at hm
    split at hm
    · next d =>
      cases hq : (s.handlers d).queue <;> simp [hq] at hm
    · simpa using hm
  unfold pushes at hp
  split at hp
  · next d =>
    split at hp
    · split at hp <;> simp at hp
    · next dest v p hpc =>
      split at hp
      · simp at hp
      · next hdone =>
        obtain ⟨rfl, ⟨rfl, rfl⟩, rfl, rfl⟩ := by simpa using hp
        refine ⟨rfl, ?_⟩
        rw [resume_pc h]
        simp [next_pc, hpc, hdone]
    · simp at hp
    · simp at hp
  · split at hp
    · split at hp <;> simp at hp
    · simp at hp
  all_goals cases hp

theorem named_of_push {a : ProxyAct} {c peer : ConnId} {peer_id id val : Bytes} (inv : Locked t) (ends : Ends t)
    (h : step s a = some t) (hm : .push ⟨peer, .frame c peer_id, .Send id val⟩ ∈ s.events a) : peer_id ≠ [] := by
  obtain ⟨-, hpc⟩ := push_message h hm
  have hlive : (t.handlers peer).pc.live := inv.peer c peer (by rw [hpc]; rfl)
  have hid : (t.handlers peer).owner_id = peer_id := ends.found c peer_id peer (by rw [hpc]; rfl)
  rw [← hid]
  refine ends.owner peer (fun hpc => ?_) fun hpc => ?_ <;> simp [hpc, Pc.live] at hlive

theorem followed_of_run {as : List ProxyAct} (h : machine.run new as = some s) (hG : machine.Along NotStale new as)
    {c peer : ConnId} {peer_id id val : Bytes} {before after : List ProxyEvent}
    (hm : machine.trace events new as = before ++ .push ⟨peer, .frame c peer_id, .Send id val⟩ :: after) :
    c < s.conns ∧ peer_id ≠ [] ∧ s.Followed c peer_id peer after := by
  refine Machine.history_invariant (M := machine) (I := fun as s => machine.Along NotStale new as →
    ∀ before after, machine.trace events new as = before ++ .push ⟨peer, .frame c peer_id, .Send id val⟩ :: after →
      c < s.conns ∧ peer_id ≠ [] ∧ s.Followed c peer_id peer after) ?_ ?_ h hG before after hm
  · intro _ before after h₀
    exact absurd h₀ (by simp [Machine.trace])
  intro as s a t hrun ih hs hG before after hm
  have inv := locked_of_run hrun
  have hle : s.conns ≤ t.conns := conns_le hs
  have hnew : .push ⟨peer, .frame c peer_id, .Send id val⟩ ∈ s.events a →
      c < t.conns ∧ peer_id ≠ [] ∧ t.Followed c peer_id peer after := by
    intro hmem
    have hid : peer_id ≠ [] :=
      named_of_push (inv.trans (trans_of_step hs)) ((ends_of_run hrun).trans inv hs) hs hmem
    obtain ⟨rfl, hpc⟩ := push_message hs hmem
    exact ⟨Nat.lt_of_lt_of_le (resume_lt inv hs) hle, hid, .inr (.inl hpc)⟩
  rw [Machine.trace_snoc _ _ hrun] at hm
  rcases List.append_eq_append_iff.mp hm with ⟨new, -, hev⟩ | ⟨old, hold, hrest⟩
  · exact hnew (hev ▸ by simp)
  · cases old with
    | nil =>
      rw [List.nil_append] at hrest
      exact hnew (by simp [← hrest])
    | cons e old =>
      obtain ⟨rfl, rfl⟩ := List.cons_eq_cons.mp hrest
      obtain ⟨hc, hid, hf⟩ := ih hG.append_left before old hold
      have hguard := Machine.along_iff_steps.mp hG as a s List.prefix_rfl hrun
      exact ⟨Nat.lt_of_lt_of_le hc hle, hid, followed_step (ends_of_run hrun) hguard hs hc hf⟩

/-! ## When nothing moves any more -/

def Awaits (s : Proxy) : ConnId → ConnId → Prop := Relation.ReflTransGen fun c d => s.waits c = some d

/-- The loop waits for nobody, or in the end for a loop that waits for nobody. -/
def Free (s : Proxy) (c : ConnId) : Prop := ∃ d, s.Awaits c d ∧ s.waits d = none

/-- The steps that concern the client of `c` and its peer `peer_id`: those of the loop of `c`, of the loops of the peer
and of the loops that these wait for, and of the listener tasks of `c` for the peer. -/
def Concerned (s : Proxy) (c : ConnId) (peer_id : Bytes) : ProxyAct → Prop
  | .read d | .receive d _ | .resume d => ∃ e, (e = c ∨ (s.handlers e).owner_id = peer_id) ∧ s.Awaits e d
  | .listener i => ∃ task, s.listeners[i]? = some task ∧ task.owner = c ∧ task.other_peer = peer_id
  | .connect _ | .client_send _ _ | .client_close _ => False

theorem live_of_target (inv : Locked s) {c d : ConnId} (h : target c (s.handlers c).pc = some d) (hne : d ≠ c) :
    (s.handlers d).pc.live := by
  apply inv.peer c
  cases hpc : (s.handlers c).pc <;> simp_all [target, Pc.peer]

/-- Where no step is left, a loop that is not in a deadlock is between two messages, or has ended. -/
theorem idle_of_stuck (inv : Locked s) {c : ConnId} (hfree : Free s c)
    (hstuck : ∀ d, s.Awaits c d → s.resume d = none ∧ ∀ ok, s.receive d ok = none) :
    (s.handlers c).pc.holds = false ∧ (s.handlers c).pc.wants_lock = false := by
  have hgoes : ∀ d, s.Awaits c d → s.waits d = none →
      (s.handlers d).pc.holds = false ∧ (s.handlers d).pc.wants_lock = false := by
    intro d hd hw
    by_contra hno
    have hpc : (s.handlers d).pc.holds ∨ (s.handlers d).pc.wants_lock := by
      by_contra hnot
      rw [not_or] at hnot
      exact hno ⟨by simpa using hnot.1, by simpa using hnot.2⟩
    obtain ⟨u, hu⟩ := resume_of_not_waits hpc hw
    rw [(hstuck d hd).1] at hu
    cases hu
  obtain ⟨d, hd, hw⟩ := hfree
  rcases Relation.ReflTransGen.cases_tail hd with rfl | ⟨e, he, hed⟩
  · exact hgoes d hd hw
  · obtain ⟨hh, hwl⟩ := hgoes d hd hw
    exfalso
    rcases waits_cases hed with ⟨-, hl⟩ | ⟨ht, hdone, hroom⟩
    · have hholds := (inv.holder d).mp hl
      rw [hh] at hholds
      cases hholds
    · -- a loop with a full channel that is at its `select` takes a command out of it
      have hne : d ≠ e := by
        rintro rfl
        rw [hed] at hw
        cases hw
      have hlive := live_of_target inv ht hne
      have hsel : (s.handlers d).pc = .select := by
        cases hpc : (s.handlers d).pc <;> simp_all [Pc.holds, Pc.wants_lock, Pc.live]
      cases hq : (s.handlers d).queue with
      | nil => exact hroom (by simp [Room, hq, CHANNEL_LEN])
      | cons command rest =>
        have hrec := (hstuck d hd).2 true
        simp [receive, hsel, hq] at hrec

/-- A run in which no loop finds a stale entry among its connected peers, and a message of the client of `a` that was put
on the channel of a loop that has ended since: where no step that concerns the client and the peer is left, the loop of
`a` has not ended and neither it nor a loop of the peer is in a deadlock, the client was told after the message that the
peer is gone. -/
theorem disconnect_told {as : List ProxyAct} (h : machine.run new as = some s) (hG : machine.Along NotStale new as)
    {a peer : ConnId} {peer_id id val : Bytes} {before after : List ProxyEvent}
    (hm : machine.trace events new as = before ++ .push ⟨peer, .frame a peer_id, .Send id val⟩ :: after)
    (hpeer : (s.handlers peer).pc = .done) (hdone : (s.handlers a).pc ≠ .done)
    (hfree : ∀ c, c = a ∨ (s.handlers c).owner_id = peer_id → s.Free c)
    (hstuck : ∀ act, s.Concerned a peer_id act → ¬ machine.Enabled s act) : ∃ e ∈ after, e.tells a peer_id := by
  have inv := locked_of_run h
  have ends := ends_of_run h
  have hloop : ∀ c, c = a ∨ (s.handlers c).owner_id = peer_id →
      (s.handlers c).pc.holds = false ∧ (s.handlers c).pc.wants_lock = false := by
    intro c hc
    refine idle_of_stuck inv (hfree c hc) fun d hd => ⟨?_, fun ok => ?_⟩
    · by_contra hne
      obtain ⟨u, hu⟩ := Option.ne_none_iff_exists'.mp hne
      exact hstuck (.resume d) ⟨c, hc, hd⟩ ⟨u, hu⟩
    · by_contra hne
      obtain ⟨u, hu⟩ := Option.ne_none_iff_exists'.mp hne
      exact hstuck (.receive d ok) ⟨c, hc, hd⟩ ⟨u, hu⟩
  have hempty : (s.handlers a).pc ≠ .absent → (s.handlers a).queue = [] := by
    intro hne
    obtain ⟨hh, hw⟩ := hloop a (.inl rfl)
    have hsel : (s.handlers a).pc = .select := by
      cases hpc : (s.handlers a).pc <;> simp_all [Pc.holds, Pc.wants_lock]
    cases hq : (s.handlers a).queue with
    | nil => rfl
    | cons command rest =>
      refine (hstuck (.receive a true) ⟨a, .inl rfl, .refl⟩ ?_).elim
      simp [Machine.Enabled, machine, step, receive, hsel, hq]
  obtain ⟨hlt, hid, hf⟩ := followed_of_run h hG hm
  obtain ⟨hholds, hwants⟩ := hloop a (.inl rfl)
  rcases hf with (hpc | hpc) | hpc | ⟨late, hpc⟩ | (hcov | hcov) | hcov
  · simp [hpc, Pc.wants_lock] at hwants
  · exact (hdone hpc).elim
  · simp [hpc, Pc.holds] at hholds
  · simp [hpc, Pc.holds] at hholds
  · obtain ⟨task, hmem, rfl, rfl, hpc⟩ := hcov
    obtain ⟨i, hi⟩ := List.getElem?_of_mem hmem
    refine (hstuck (.listener i) ⟨task, hi, rfl, rfl⟩ ?_).elim
    rcases hpc with hpc | ⟨hpc, hwait⟩
    · have hroom : s.Room task.owner := by simp [Room, hempty (present_of_run h hlt), CHANNEL_LEN]
      simp [Machine.Enabled, machine, step, listener, hi, hpc, hdone, hroom]
    · obtain ⟨howner, -⟩ := ends.listener task hmem
      -- the loop it waits for has ended: a loop of the peer does not stay on its way to the end
      have hend : (s.handlers task.peer).pc = .done := by
        rcases hwait with rfl | hb
        · exact hpeer
        · rcases ends.broadcast task.peer hb with hpc' | hpc'
          · have hwants := (hloop task.peer (.inr howner)).2
            simp [hpc', Pc.wants_lock] at hwants
          · exact hpc'
      have hb : (s.handlers task.peer).broadcast = true := by
        rcases ends.done task.peer hend with hb | hnil
        · exact hb
        · exact (hid (howner.symm.trans hnil)).elim
      have hgone : s.producers (s.handlers task.peer).owner_id ≠ some task.peer := by
        intro hm
        have hlive := (inv.registered _ _ hm).1
        rw [hend] at hlive
        cases hlive
      simp [Machine.Enabled, machine, step, listener, hi, hpc, wakes, hb, hgone]
  · rw [hempty (present_of_run h hlt)] at hcov
    cases hcov
  · exact hcov

/-- Two clients `02…` and `03…`; the second closes its connection after a message of the first, which is told. -/
def session : List ProxyAct :=
  [.connect "020202020202020202020202020202020202020202020202020202020202020202",
    .connect "030303030303030303030303030303030303030303030303030303030303030303", .resume 0, .resume 1,
    .client_send 0 (.Binary (.replicate 33 3 ++ [1])), .read 0, .resume 0, .resume 0, .resume 0, .resume 0,
    .receive 1 true, .client_close 1, .read 1, .resume 1, .listener 0, .listener 0, .receive 0 true]

/-- The second client comes back, and gets a message of the first, before the listener task of the first session clears
the entry. -/
def next_session : List ProxyAct :=
  [.connect "030303030303030303030303030303030303030303030303030303030303030303", .resume 2,
    .client_send 0 (.Binary (.replicate 33 3 ++ [2])), .read 0, .resume 0, .resume 0, .resume 0, .resume 0, .listener 0,
    .receive 2 true, .client_close 2, .read 2, .resume 2]

theorem not_enabled_of_idle (hloops : ∀ c, ¬ s.Busy c) (hl : ∀ task ∈ s.listeners, task.pc = .done) {a : ProxyAct}
    (ha : Internal a) : ¬ machine.Enabled s a := by
  intro ⟨t, ht⟩
  cases a with
  | connect identifier => exact ha
  | client_send c msg => exact ha
  | client_close c => exact ha
  | read c =>
    have hc := hloops c
    simp only [machine, step, read] at ht
    by_cases hpc : (s.handlers c).pc = .select
    · simp only [Busy, hpc, not_or, not_not] at hc
      simp [hpc, hc.1, hc.2.1] at ht
    · simp [hpc] at ht
  | receive c ok =>
    have hc := hloops c
    simp only [machine, step, receive] at ht
    by_cases hpc : (s.handlers c).pc = .select
    · simp only [Busy, hpc, not_or, not_not] at hc
      simp [hpc, hc.2.2] at ht
    · simp [hpc] at ht
  | resume c =>
    have hc := hloops c
    unfold Busy at hc
    cases hpc : (s.handlers c).pc <;> simp [hpc] at hc <;> simp [machine, step, resume, hpc] at ht
  | listener i =>
    cases hi : s.listeners[i]? with
    | none => simp [machine, step, listener, hi] at ht
    | some task => simp [machine, step, listener, hi, hl task (List.mem_of_getElem? hi)] at ht

theorem free_of_idle {c : ConnId} (hc : ¬ s.Busy c) : s.Free c := by
  refine ⟨c, .refl, ?_⟩
  unfold Busy at hc
  cases hpc : (s.handlers c).pc <;> simp [hpc] at hc <;> simp [waits, target, hpc, Pc.wants_lock]

theorem disconnect_told_session : ∃ s, machine.run new (session ++ [.listener 0]) = some s ∧
    ∃ e ∈ (machine.trace events new (session ++ [.listener 0])).drop 1, e.tells 0 (.replicate 33 3) := by
  obtain ⟨s, h, hloops, hl, hpeer, hdone⟩ : ∃ s, machine.run new (session ++ [.listener 0]) = some s ∧
      (∀ c, ¬ s.Busy c) ∧ (∀ task ∈ s.listeners, task.pc = .done) ∧ (s.handlers 1).pc = .done ∧
      (s.handlers 0).pc ≠ .done := by
    refine ⟨_, rfl, fun c => ?_, fun task hmem => ?_, rfl, nofun⟩
    · match c with
      | 0 => exact nofun
      | 1 => exact nofun
      | n + 2 => exact nofun
    · rcases List.mem_singleton.mp hmem with rfl
      rfl
  have hG : machine.Along NotStale new (session ++ [.listener 0]) := by decide +kernel
  have hm : machine.trace events new (session ++ [.listener 0]) = [] ++
      .push ⟨1, .frame 0 (.replicate 33 3), .Send (.replicate 33 2) [1]⟩ ::
        (machine.trace events new (session ++ [.listener 0])).drop 1 := rfl
  refine ⟨s, h, disconnect_told h hG hm hpeer hdone (fun c _ => free_of_idle (hloops c)) fun act hact => ?_⟩
  apply not_enabled_of_idle hloops hl
  cases act <;> first | exact hact | trivial

theorem disconnect_lost : ∃ s t, machine.run new session = some s ∧ machine.run s next_session = some t ∧
    machine.trace events s next_session =
      [.push ⟨2, .frame 0 (.replicate 33 3), .Send (.replicate 33 2) [2]⟩, .write 2 (.Send (.replicate 33 2) [2])] ∧
    sent (session ++ next_session) 0 = [.Binary (.replicate 33 3 ++ [1]), .Binary (.replicate 33 3 ++ [2])] ∧
    (t.handlers 2).pc = .done ∧ (t.handlers 0).pc = .select ∧ ∀ a, Internal a → ¬ machine.Enabled t a := by
  refine ⟨_, _, rfl, rfl, rfl, rfl, rfl, rfl, fun a ha => not_enabled_of_idle (fun c => ?_) ?_ ha⟩
  · match c with
    | 0 => exact nofun
    | 1 => exact nofun
    | 2 => exact nofun
    | n + 3 => exact nofun
  · intro task hmem
    rcases List.mem_singleton.mp hmem with rfl
    rfl

end Proxy

end Mutiny
