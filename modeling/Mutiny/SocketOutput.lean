import Mutiny.SocketPair

/-!
# What a node sends

What each step of a node puts into the channel of its subsockets, and what its listener makes of a message.
-/

namespace Mutiny

namespace Client

variable {s t : Client}

def line (s : Client) : (ConnId → List (Option Gloo.Message)) × (ConnId → ReaderPc) × Bytes :=
  (s.incoming, s.readers, s.our_peer_pubkey)

/-- What a step of the node sends. -/
def output (s : Client) : ClientAct → List Gloo.Message
  | .connect_peer peer .Mutiny (.initial_bytes bytes) =>
    if peer ∈ s.get_peer_node_ids then [] else [.Bytes (peer ++ bytes)]
  | .ldk_send d data =>
    match (s.core d).kind with
    | .Tcp => []
    | .Mutiny peer => if (s.core d).stop then [] else [.Bytes (peer ++ data)]
  | .ldk_disconnect d =>
    match (s.core d).kind with
    | .Tcp => []
    | .Mutiny peer => [.Text (some (.Disconnect peer s.our_peer_pubkey))]
  | _ => []

section
variable (s : Client) (d : DescId)

@[simp] theorem line_disconnect_socket : (s.disconnect_socket d).line = s.line := by
  unfold disconnect_socket
  dsimp only
  split <;> rfl

@[simp] theorem line_send_data (data : Bytes) : (s.send_data d data).line = s.line := by
  unfold send_data
  dsimp only
  split
  · rfl
  · split <;> rfl

@[simp] theorem line_set (x : Descriptor) : (s.set d x).line = s.line := rfl

@[simp] theorem line_socket_disconnected : (s.socket_disconnected d).line = s.line := rfl

@[simp] theorem line_new_connection : (s.new_connection d).line = s.line := rfl

@[simp] theorem line_schedule_descriptor_read : (s.schedule_descriptor_read d).line = s.line := rfl

@[simp] theorem line_create (kind : DescriptorKind) : (s.create kind).line = s.line := rfl

@[simp] theorem line_create_new_subsocket (peer : Bytes) : (s.create_new_subsocket peer).line = s.line := rfl

theorem channel_disconnect_socket : (s.disconnect_socket d).channel = s.channel ++
    match (s.core d).kind with
    | .Tcp => []
    | .Mutiny peer => [.Text (some (.Disconnect peer s.our_peer_pubkey))] := by
  unfold disconnect_socket core Descriptor.core
  cases hk : (s.descriptors d).kind <;> simp [hk, set, send]

theorem channel_send_data (data : Bytes) : (s.send_data d data).channel = s.channel ++
    match (s.core d).kind with
    | .Tcp => []
    | .Mutiny peer => if (s.core d).stop then [] else [.Bytes (peer ++ data)] := by
  unfold send_data core Descriptor.core
  cases hk : (s.descriptors d).kind with
  | Tcp => simp [hk]
  | Mutiny peer =>
    cases hs : (s.descriptors d).stop <;> simp [hk, hs, send]

@[simp] theorem channel_set (x : Descriptor) : (s.set d x).channel = s.channel := rfl

@[simp] theorem channel_socket_disconnected : (s.socket_disconnected d).channel = s.channel := rfl

@[simp] theorem channel_new_connection : (s.new_connection d).channel = s.channel := rfl

@[simp] theorem channel_schedule_descriptor_read : (s.schedule_descriptor_read d).channel = s.channel := rfl

@[simp] theorem channel_queue (message : Bytes) : (s.queue d message).channel = s.channel := rfl

@[simp] theorem channel_create (kind : DescriptorKind) : (s.create kind).channel = s.channel := rfl

@[simp] theorem channel_create_new_subsocket (peer : Bytes) : (s.create_new_subsocket peer).channel = s.channel := rfl

end

theorem output_connect_peer {peer : Bytes} {connection_type : ConnectionType} {answer : OutboundAnswer}
    (h : s.connect_peer_if_necessary peer connection_type answer = some t) :
    t.line = s.line ∧ t.channel = s.channel ++ s.output (.connect_peer peer connection_type answer) := by
  unfold connect_peer_if_necessary at h
  split at h
  · next hlisted =>
    cases h
    cases connection_type <;> cases answer <;> simp [output, hlisted]
  · next hnew =>
    cases connection_type <;> cases answer <;> cases h <;>
      simp [output, hnew, channel_send_data, Descriptor.new, Descriptor.core]

theorem output_read {d : DescId} {event : ReadEvent} {ok : Bool} (h : s.read d event ok = some t) :
    t.line = s.line ∧ t.channel = s.channel := by
  unfold read at h
  split at h
  · cases h
  · obtain ⟨u, hu, h⟩ := Option.bind_eq_some_iff.mp h
    have hread : u.line = s.line ∧ u.channel = s.channel := by
      unfold read_descriptor at hu
      grind [line_set, channel_set]
    cases event with
    | Text =>
      cases h
      exact hread
    | Bytes b =>
      simp only [read_event] at h
      grind [line_set, channel_set]
    | Err =>
      cases h
      exact hread
    | End =>
      cases h
      exact hread

theorem output_own {a : ClientAct} (ha : a.is_own) (h : step s a = some t) :
    t.line = s.line ∧ t.channel = s.channel ++ s.output a := by
  cases a with
  | connect_peer peer connection_type answer => exact output_connect_peer h
  | handshake d node_id =>
    simp only [step, Option.ite_none_right_eq_some, Option.some.injEq] at h
    rw [← h.2]
    simp [output]
  | ldk_send d data =>
    simp only [step, Option.ite_none_right_eq_some, Option.some.injEq] at h
    rw [← h.2]
    exact ⟨line_send_data s d data, channel_send_data s d data⟩
  | ldk_disconnect d =>
    simp only [step, Option.ite_none_right_eq_some, Option.some.injEq] at h
    rw [← h.2]
    refine ⟨by simp, (channel_disconnect_socket (s.socket_disconnected d) d).trans ?_⟩
    simp [output]
    rfl
  | read d event ok => simpa [output] using output_read h
  | proxy_send k msg => cases ha
  | proxy_close k => cases ha
  | reader k => cases ha
  | create k ok => cases ha
  | sender k => cases ha
  | reconnect order => cases ha

theorem reader_of_proxy_send {u : Client} {msg : Gloo.Message} (hin : s.incoming 0 = [])
    (hu : step s (.proxy_send 0 (some msg)) = some u) (h : step u (.reader 0) = some t) :
    s.readers 0 = .reading ∧ (∀ command, msg = .Text command → t = s.on_command command) ∧
      ∀ m, msg = .Bytes m → t = s.on_bytes 0 m := by
  simp only [step, Option.ite_none_right_eq_some, Option.some.injEq] at hu
  obtain ⟨-, rfl⟩ := hu
  simp only [step, reader, Function.update_self, hin, List.nil_append, Function.update_idem] at h
  rw [← hin, Function.update_eq_self] at h
  split at h
  · cases h
  · next hpc =>
    refine ⟨by simpa using hpc, fun command hm => ?_, fun m hm => ?_⟩
    · subst hm
      exact (Option.some.inj h).symm
    · subst hm
      exact (Option.some.inj h).symm

theorem line_create_inbound (s : Client) (id message : Bytes) (ok : Bool) :
    (s.create_inbound id message ok).line = s.line := by
  unfold create_inbound
  cases ok with
  | true => rfl
  | false => exact line_disconnect_socket _ _

theorem channel_create_inbound (s : Client) (id message : Bytes) (ok : Bool) :
    (s.create_inbound id message ok).channel =
      s.channel ++ if ok then [] else [.Text (some (.Disconnect id s.our_peer_pubkey))] := by
  unfold create_inbound
  cases ok with
  | true => simp
  | false =>
    have hk : ((s.create_new_subsocket id).core s.next_id).kind = .Mutiny id := by
      rw [core_create_new_subsocket, if_pos rfl]
      rfl
    apply (channel_disconnect_socket (s.create_new_subsocket id) s.next_id).trans
    rw [hk]
    rfl

theorem output_go_on {k : ConnId} {ok : Bool} (h : step s (.create k ok) = some t) : ∃ id message,
    s.readers k = .creating id message ∧
      t.line = (s.incoming, Function.update s.readers k .reading, s.our_peer_pubkey) ∧
      t.channel = s.channel ++ if ok then [] else [.Text (some (.Disconnect id s.our_peer_pubkey))] := by
  simp only [step, go_on] at h
  split at h
  · next id message hpc =>
    cases h
    exact ⟨id, message, hpc, line_create_inbound _ id message ok, channel_create_inbound _ id message ok⟩
  all_goals cases h

theorem kind_change {a : ClientAct} (h : Change s a t) {d : DescId} {p : Bytes} (hk : (t.core d).kind = .Mutiny p) :
    (s.core d).kind = .Mutiny p ∨ (∃ answer, a = .connect_peer p .Mutiny answer) ∨
      ∃ k ok message, a = .create k ok ∧ s.readers k = .creating p message := by
  have hset : ∀ {d' : DescId} {x : Core}, (∀ e, t.core e = if e = d' then x else s.core e) →
      (s.core d).kind = .Mutiny p ∨ d = d' ∧ x.kind = .Mutiny p := by
    intro d' x hcore
    rw [hcore] at hk
    split at hk
    · next hd => exact .inr ⟨hd, hk⟩
    · exact .inl hk
  -- a change of a descriptor keeps its kind
  have hkeep : ∀ {d' : DescId} {x : Core}, (∀ e, t.core e = if e = d' then x else s.core e) →
      x.kind = (s.core d').kind → (s.core d).kind = .Mutiny p := by
    intro d' x hcore hx
    rcases hset hcore with hs | ⟨rfl, hx'⟩
    · exact hs
    · exact hx.symm.trans hx'
  cases h with
  | quiet ha hcore hmap hn => exact .inl (hcore d ▸ hk)
  | @tcp peer answer _ hans hcore hmap hn =>
    rcases hset hcore with hs | ⟨-, hx⟩
    · exact .inl hs
    · split at hx <;> cases hx
  | @outbound peer answer _ hl hcore hmap hn =>
    rcases hset hcore with hs | ⟨-, hx⟩
    · exact .inl hs
    · have hp : peer = p := by split at hx <;> cases hx <;> rfl
      exact .inr (.inl ⟨answer, by rw [hp]⟩)
  | @inbound k id message _ hpc hcore hmap hn =>
    rcases hset hcore with hs | ⟨-, hx⟩
    · exact .inl hs
    · cases hx
      exact .inr (.inr ⟨k, true, message, rfl, hpc⟩)
  | @inbound_refused k id message _ hpc hcore hmap hn =>
    rcases hset hcore with hs | ⟨-, hx⟩
    · exact .inl hs
    · cases hx
      exact .inr (.inr ⟨k, false, message, rfl, hpc⟩)
  | ldk_drop ht hcore hmap hn => exact .inl (hkeep hcore rfl)
  | command hl hcore hmap hn => exact .inl (hkeep hcore rfl)
  | answered hloop hstop hok hcore hmap hn => exact .inl (hkeep hcore rfl)
  | ended hev hloop hstop hcore hmap hn => exact .inl (hkeep hcore rfl)
  | reconnect hin hout hmap hn =>
    left
    by_cases hd : ∃ p, s.socket_map.lookup p = some d
    · obtain ⟨q, hl⟩ := hd
      rw [hin q d hl] at hk
      exact hk
    · rw [hout d fun q hl => hd ⟨q, hl⟩] at hk
      exact hk

theorem sane_flush (inv : Sane s) : Sane { s with channel := [] } :=
  ⟨inv.fresh, inv.known, inv.stopped, inv.idle, inv.ended⟩

end Client

end Mutiny
