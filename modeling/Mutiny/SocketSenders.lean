import Mathlib.Data.Fintype.EquivFin
import Mutiny.SocketSteps

/-!
# Which websocket a message of a subsocket goes to

The sending task of a connection ends when it sees that the multi socket is not connected. A reconnect sets the flag
again, and after it all messages go to the new websocket exactly when no sending task was left at that time.
-/

namespace Mutiny

namespace Client

variable {s t : Client}

def links (s : Client) : Nat × ConnId × (ConnId → Bool) := (s.conns, s.conn, s.senders)

section
variable (s : Client) (d : DescId)

@[simp] theorem links_disconnect_socket : (s.disconnect_socket d).links = s.links := by
  unfold disconnect_socket
  dsimp only
  split <;> rfl

@[simp] theorem links_send_data (data : Bytes) : (s.send_data d data).links = s.links := by
  unfold send_data
  dsimp only
  split
  · rfl
  · split <;> rfl

@[simp] theorem links_set (x : Descriptor) : (s.set d x).links = s.links := rfl

@[simp] theorem links_socket_disconnected : (s.socket_disconnected d).links = s.links := rfl

@[simp] theorem links_new_connection : (s.new_connection d).links = s.links := rfl

@[simp] theorem links_schedule_descriptor_read : (s.schedule_descriptor_read d).links = s.links := rfl

@[simp] theorem links_queue (message : Bytes) : (s.queue d message).links = s.links := rfl

@[simp] theorem links_create (kind : DescriptorKind) : (s.create kind).links = s.links := rfl

@[simp] theorem links_create_new_subsocket (peer : Bytes) : (s.create_new_subsocket peer).links = s.links := rfl

@[simp] theorem links_drop_subsocket (peer : Bytes) : (s.drop_subsocket peer).links = s.links := by
  unfold drop_subsocket
  split <;> simp

@[simp] theorem links_foldl_drop (order : List Bytes) : (order.foldl drop_subsocket s).links = s.links := by
  induction order generalizing s with
  | nil => rfl
  | cons p order ih => rw [List.foldl_cons, ih, links_drop_subsocket]

@[simp] theorem links_on_command (command : Option MutinyProxyCommand) : (s.on_command command).links = s.links := by
  unfold on_command
  split
  · rfl
  · split
    · exact links_disconnect_socket _ _
    · rfl

@[simp] theorem links_on_bytes (k : ConnId) (msg : Bytes) : (s.on_bytes k msg).links = s.links := by
  unfold on_bytes
  split
  · rfl
  · split <;> rfl

@[simp] theorem links_create_inbound (id message : Bytes) (ok : Bool) :
    (s.create_inbound id message ok).links = s.links := by
  unfold create_inbound
  cases ok
  · exact links_disconnect_socket _ _
  · rfl

end

theorem links_connect_peer {peer : Bytes} {connection_type : ConnectionType} {answer : OutboundAnswer}
    (h : s.connect_peer_if_necessary peer connection_type answer = some t) : t.links = s.links := by
  unfold connect_peer_if_necessary at h
  split at h
  · cases h
    rfl
  · cases connection_type <;> cases answer <;> cases h <;> simp

theorem links_read {d : DescId} {event : ReadEvent} {ok : Bool} (h : s.read d event ok = some t) : t.links = s.links := by
  unfold read at h
  split at h
  · cases h
  · obtain ⟨u, hu, h⟩ := Option.bind_eq_some_iff.mp h
    have hread : u.links = s.links := by
      unfold read_descriptor at hu
      grind [links_set]
    cases event with
    | Text =>
      cases h
      exact hread
    | Bytes b =>
      simp only [read_event] at h
      grind [links_set]
    | Err =>
      cases h
      exact hread
    | End =>
      cases h
      exact hread

theorem links_reader {k : ConnId} (h : s.reader k = some t) : t.links = s.links := by
  unfold reader at h
  split at h
  · cases h
  · split at h
    · simp only [Option.ite_none_right_eq_some, Option.some.injEq] at h
      obtain ⟨-, rfl⟩ := h
      rfl
    · dsimp only at h
      split at h <;> simp only [Option.some.injEq] at h <;> subst h
      · rfl
      · exact links_on_command _ _
      · exact links_on_bytes _ _ _

theorem links_go_on {k : ConnId} {ok : Bool} (h : s.go_on k ok = some t) : t.links = s.links := by
  unfold go_on at h
  split at h
  · cases h
    exact links_create_inbound _ _ _ _
  all_goals cases h

theorem senders_step {a : ClientAct} (h : step s a = some t) :
    (∃ order, a = .reconnect order ∧ t.conn = s.conns ∧ t.conns = s.conns + 1 ∧
      t.senders = Function.update s.senders s.conns true) ∨
    ((∀ order, a ≠ .reconnect order) ∧ t.conns = s.conns ∧ ∀ k, t.senders k = true → s.senders k = true) := by
  have hkeep : t.links = s.links → t.conns = s.conns ∧ ∀ k, t.senders k = true → s.senders k = true := by
    intro hl
    obtain ⟨hn, -, hs⟩ := by simpa [links] using hl
    exact ⟨hn, fun k hk => by rwa [← hs]⟩
  cases a with
  | connect_peer peer connection_type answer => exact .inr ⟨(fun _ he => by cases he), hkeep (links_connect_peer h)⟩
  | handshake d node_id =>
    simp only [step, Option.ite_none_right_eq_some, Option.some.injEq] at h
    obtain ⟨-, rfl⟩ := h
    exact .inr ⟨(fun _ he => by cases he), hkeep rfl⟩
  | ldk_send d data =>
    simp only [step, Option.ite_none_right_eq_some, Option.some.injEq] at h
    obtain ⟨-, rfl⟩ := h
    exact .inr ⟨(fun _ he => by cases he), hkeep (links_send_data _ _ _)⟩
  | ldk_disconnect d =>
    simp only [step, Option.ite_none_right_eq_some, Option.some.injEq] at h
    obtain ⟨-, rfl⟩ := h
    exact .inr ⟨(fun _ he => by cases he), hkeep (links_disconnect_socket _ _)⟩
  | proxy_send k msg =>
    simp only [step, Option.ite_none_right_eq_some, Option.some.injEq] at h
    obtain ⟨-, rfl⟩ := h
    exact .inr ⟨(fun _ he => by cases he), hkeep rfl⟩
  | proxy_close k =>
    simp only [step, Option.ite_none_right_eq_some, Option.some.injEq] at h
    obtain ⟨-, rfl⟩ := h
    exact .inr ⟨(fun _ he => by cases he), hkeep rfl⟩
  | reader k => exact .inr ⟨(fun _ he => by cases he), hkeep (links_reader h)⟩
  | create k ok => exact .inr ⟨(fun _ he => by cases he), hkeep (links_go_on h)⟩
  | sender k =>
    right
    refine ⟨(fun _ he => by cases he), ?_⟩
    simp only [step, sender] at h
    split at h
    · cases hc : s.channel <;> cases hk : s.connected <;> simp [hc, hk] at h <;> subst h
      all_goals
        refine ⟨rfl, fun j hj => ?_⟩
        by_cases hjk : j = k <;> simp_all
    · cases h
  | reconnect order =>
    left
    simp only [step, reconnect, Option.ite_none_right_eq_some, Option.some.injEq] at h
    obtain ⟨-, rfl⟩ := h
    have hl := links_foldl_drop s order
    obtain ⟨-, -, hs⟩ := by simpa [links] using hl
    exact ⟨order, rfl, rfl, rfl, by simp [listen, hs]⟩
  | read d event ok => exact .inr ⟨(fun _ he => by cases he), hkeep (links_read h)⟩

def Takes (s : Client) (k : ConnId) (msg : Gloo.Message) (t : Client) : Prop :=
  step s (.sender k) = some t ∧ s.channel = msg :: t.channel

theorem takes_sent {k : ConnId} {msg : Gloo.Message} (h : s.Takes k msg t) :
    s.senders k = true ∧ t.sent k = s.sent k ++ [msg] := by
  obtain ⟨h, hc⟩ := h
  simp only [step, sender] at h
  split at h
  · next hk =>
    refine ⟨hk, ?_⟩
    simp only [hc] at h
    split at h
    · simpa using (congrArg (·.sent k) (Option.some.inj h)).symm
    · simpa using (congrArg (·.sent k) (Option.some.inj h)).symm
  · cases h

theorem takes_of_sender {k : ConnId} {msg : Gloo.Message} {rest : List Gloo.Message} (hk : s.senders k = true)
    (hc : s.channel = msg :: rest) : ∃ t, s.Takes k msg t := by
  unfold Takes
  simp only [step, sender, hk, if_true, hc]
  split
  · exact ⟨_, rfl, rfl⟩
  · exact ⟨_, rfl, rfl⟩

theorem senders_lt {our_peer_pubkey : Bytes} {as : List ClientAct} (h : machine.run (new our_peer_pubkey) as = some s) :
    ∀ k, s.senders k = true → k < s.conns := by
  refine Machine.invariant (I := fun s => ∀ k, s.senders k = true → k < s.conns) (fun s a t inv hs k hk => ?_) ?_ h
  · rcases senders_step hs with ⟨order, -, -, hn, hsend⟩ | ⟨-, hn, hsend⟩
    · rw [hn]
      by_cases hks : k = s.conns
      · exact hks ▸ Nat.lt_succ_self _
      · rw [hsend, Function.update_of_ne hks] at hk
        exact Nat.lt_succ_of_lt (inv k hk)
    · rw [hn]
      exact inv k (hsend k hk)
  · intro k hk
    by_cases h0 : k = 0
    · subst h0
      exact Nat.one_pos
    · simp [new, h0] at hk

theorem fill_channel (s : Client) : ∃ as u msg rest, machine.run s as = some u ∧ u.senders = s.senders ∧
    u.channel = msg :: rest := by
  obtain ⟨peer, hpeer⟩ := Infinite.exists_notMem_finset s.get_peer_node_ids.toFinset
  have hnew : peer ∉ s.get_peer_node_ids := by simpa using hpeer
  have hstep : ∃ u, step s (.connect_peer peer .Mutiny (.initial_bytes [])) = some u ∧
      u.channel = s.channel ++ [.Bytes peer] := by
    refine ⟨_, by simp only [step, connect_peer_if_necessary, if_neg hnew]; rfl, ?_⟩
    simp [send_data, schedule_descriptor_read, new_connection, set, create_new_subsocket, create, Descriptor.new, send]
  obtain ⟨u, hu, hc⟩ := hstep
  have hl : u.links = s.links := links_connect_peer hu
  obtain ⟨-, -, hs⟩ := by simpa [links] using hl
  have hrun : machine.run s [.connect_peer peer .Mutiny (.initial_bytes [])] = some u := Machine.run_singleton hu
  cases hsc : s.channel with
  | nil => exact ⟨_, u, _, [], hrun, hs, by rw [hc, hsc]; rfl⟩
  | cons msg rest => exact ⟨[], s, msg, rest, rfl, rfl, hsc⟩

theorem senders_after {as : List ClientAct} {u : Client} (hnew : ∀ k, s.senders k = true → k = s.conn)
    (hlt : s.conn < s.conns) (h : machine.run s as = some u) :
    s.conn < u.conns ∧ (∀ k, u.senders k = true → s.conn ≤ k) ∧
      ((∀ order, .reconnect order ∉ as) → ∀ k, u.senders k = true → k = s.conn) := by
  refine Machine.history_invariant (M := machine) (I := fun as u => s.conn < u.conns ∧
    (∀ k, u.senders k = true → s.conn ≤ k) ∧
      ((∀ order, .reconnect order ∉ as) → ∀ k, u.senders k = true → k = s.conn))
    ⟨hlt, fun k hk => Nat.le_of_eq (hnew k hk).symm, fun _ => hnew⟩ ?_ h
  rintro as u a v - ⟨hu, hle, heq⟩ hs
  rcases senders_step hs with ⟨order, rfl, -, hn, hsend⟩ | ⟨-, hn, hsend⟩
  · refine ⟨hn ▸ Nat.lt_succ_of_lt hu, fun k hk => ?_, fun hno => (hno order (by simp)).elim⟩
    by_cases hku : k = u.conns
    · exact hku ▸ Nat.le_of_lt hu
    · rw [hsend, Function.update_of_ne hku] at hk
      exact hle k hk
  · refine ⟨hn ▸ hu, fun k hk => hle k (hsend k hk), fun hno k hk => ?_⟩
    exact heq (fun order hmem => hno order (List.mem_append_left _ hmem)) k (hsend k hk)

/-- After a reconnect every message that is taken from the channel is sent on the new connection until the next
reconnect, and no sending task of an earlier connection takes one, exactly when no sending task was left when the
reconnect came. -/
theorem reconnect_sends {our_peer_pubkey : Bytes} {as : List ClientAct} {order : List Bytes}
    (h : machine.run (new our_peer_pubkey) as = some s) (hr : step s (.reconnect order) = some t) :
    (∀ bs u k msg v, machine.run t bs = some u → u.Takes k msg v →
      t.conn ≤ k ∧ ((∀ order, .reconnect order ∉ bs) → v.sent t.conn = u.sent t.conn ++ [msg])) ↔
    ∀ k, s.senders k = false := by
  rcases senders_step hr with ⟨-, -, hconn, hn, hsend⟩ | ⟨hno, -⟩
  · constructor
    · intro hall k
      by_contra hk
      have hk : s.senders k = true := by simpa using hk
      have hlt := senders_lt h k hk
      -- the task that was left takes what comes next
      have hkt : t.senders k = true := by rw [hsend, Function.update_of_ne (Nat.ne_of_lt hlt), hk]
      obtain ⟨bs, u, msg, rest, hu, hsu, hc⟩ := fill_channel t
      obtain ⟨v, hv⟩ := takes_of_sender (by rw [hsu, hkt]) hc
      have hle := (hall bs u k msg v hu hv).1
      rw [hconn] at hle
      exact Nat.lt_irrefl _ (Nat.lt_of_lt_of_le hlt hle)
    · intro hnone bs u k msg v hu hv
      have honly : ∀ k, t.senders k = true → k = t.conn := by
        intro k hk
        by_contra hne
        rw [hsend, Function.update_of_ne (hconn ▸ hne), hnone k] at hk
        cases hk
      obtain ⟨-, hle, heq⟩ := senders_after honly (by rw [hconn, hn]; exact Nat.lt_succ_self _) hu
      obtain ⟨hk, hsent⟩ := takes_sent hv
      refine ⟨hle k hk, fun hno => ?_⟩
      rw [← heq hno k hk]
      exact hsent
  · exact (hno order rfl).elim

/-- The websocket closes, its reader ends, and the sending task sees it too. -/
def closed_run : List ClientAct := [.proxy_close 0, .reader 0, .sender 0]

theorem reconnect_sends_closed : ∃ s t, machine.run (new sample_key) closed_run = some s ∧
    step s (.reconnect []) = some t ∧ t.conn = 1 ∧
    ∀ bs u k msg v, machine.run t bs = some u → u.Takes k msg v →
      1 ≤ k ∧ ((∀ order, .reconnect order ∉ bs) → v.sent 1 = u.sent 1 ++ [msg]) := by
  refine ⟨_, _, rfl, rfl, rfl, (@reconnect_sends _ _ sample_key closed_run [] rfl rfl).mpr fun k => ?_⟩
  by_cases hk : k = 0
  · subst hk
    rfl
  · simp [new, hk]

/-- The reconnect comes before the first sending task has looked at the flag: that task goes on, and sends a message on
the websocket that was closed. -/
theorem old_sender_sends : ∃ s t u v, machine.run (new sample_key) [.proxy_close 0, .reader 0] = some s ∧
    step s (.reconnect []) = some t ∧
    machine.run t [.connect_peer sample_peer .Mutiny (.initial_bytes [1])] = some u ∧
    u.Takes 0 (.Bytes (sample_peer ++ [1])) v ∧ t.conn = 1 ∧ v.sent 0 = [.Bytes (sample_peer ++ [1])] ∧ v.sent 1 = [] ∧
    v.senders 0 = true :=
  ⟨_, _, _, _, rfl, rfl, rfl, ⟨rfl, rfl⟩, rfl, rfl, rfl, rfl⟩

end Client

end Mutiny
