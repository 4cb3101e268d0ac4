import Mutiny.Socket

/-!
# What a step of a node does to its descriptors

`Change` says what a step does to the descriptors, to what LDK knows of them and to the socket map. What is queued and
what goes through the channel is left out.
-/

namespace Mutiny

/-- A descriptor without what is queued for it. -/
structure Core where
  kind : DescriptorKind
  stop : Bool
  tracked : Bool
  loop : ReadLoop
  answers : List Bool
  deriving DecidableEq, Repr

def Descriptor.core (x : Descriptor) : Core := ⟨x.kind, x.stop, x.tracked, x.loop, x.answers⟩

def Core.dropped (x : Core) : Core := { x with stop := true, tracked := false }

theorem Core.dropped_sane (x : Core) : (x.dropped.stop → x.dropped.tracked = false) ∧
    (x.dropped.loop = .idle → x.dropped.tracked = false) ∧
      ∀ p, x.dropped.kind = .Mutiny p → x.dropped.loop = .ended → x.dropped.stop :=
  ⟨fun _ => rfl, fun _ => rfl, fun _ _ _ => rfl⟩

namespace Client

variable {s t : Client}

def core (s : Client) (d : DescId) : Core := (s.descriptors d).core

/-! ## The parts of a changed state -/

section
variable (s : Client) (d e : DescId)

@[simp] theorem core_set (x : Descriptor) : (s.set d x).core e = if e = d then x.core else s.core e := by
  unfold core set
  by_cases h : e = d <;> simp [h]

@[simp] theorem core_send (msg : Gloo.Message) : (s.send msg).core e = s.core e := rfl

@[simp] theorem core_disconnect_socket :
    (s.disconnect_socket d).core e = if e = d then { s.core d with stop := true } else s.core e := by
  unfold disconnect_socket
  dsimp only
  split
  · rw [core_set]
    rfl
  · rw [core_set]
    rfl

@[simp] theorem core_send_data (data : Bytes) : (s.send_data d data).core e = s.core e := by
  unfold send_data
  dsimp only
  split
  · rfl
  · split
    · rfl
    · simp

@[simp] theorem core_socket_disconnected :
    (s.socket_disconnected d).core e = if e = d then { s.core d with tracked := false } else s.core e :=
  core_set ..

@[simp] theorem core_new_connection :
    (s.new_connection d).core e = if e = d then { s.core d with tracked := true } else s.core e :=
  core_set ..

@[simp] theorem core_schedule_descriptor_read :
    (s.schedule_descriptor_read d).core e = if e = d then { s.core d with loop := .running } else s.core e :=
  core_set ..

@[simp] theorem core_queue (message : Bytes) : (s.queue d message).core e = s.core e := by
  unfold queue
  rw [core_set]
  split
  · next h =>
    subst h
    rfl
  · rfl

@[simp] theorem core_create (kind : DescriptorKind) :
    (s.create kind).core e = if e = s.next_id then (Descriptor.new kind).core else s.core e :=
  core_set ..

@[simp] theorem core_create_new_subsocket (peer : Bytes) : (s.create_new_subsocket peer).core e =
    if e = s.next_id then (Descriptor.new (.Mutiny peer)).core else s.core e :=
  core_create ..

@[simp] theorem socket_map_disconnect_socket : (s.disconnect_socket d).socket_map = s.socket_map := by
  unfold disconnect_socket
  dsimp only
  split <;> rfl

@[simp] theorem socket_map_send_data (data : Bytes) : (s.send_data d data).socket_map = s.socket_map := by
  unfold send_data
  dsimp only
  split
  · rfl
  · split <;> rfl

@[simp] theorem socket_map_set (x : Descriptor) : (s.set d x).socket_map = s.socket_map := rfl

@[simp] theorem socket_map_socket_disconnected : (s.socket_disconnected d).socket_map = s.socket_map := rfl

@[simp] theorem socket_map_new_connection : (s.new_connection d).socket_map = s.socket_map := rfl

@[simp] theorem socket_map_schedule_descriptor_read : (s.schedule_descriptor_read d).socket_map = s.socket_map := rfl

@[simp] theorem socket_map_queue (message : Bytes) : (s.queue d message).socket_map = s.socket_map := rfl

@[simp] theorem socket_map_create (kind : DescriptorKind) : (s.create kind).socket_map = s.socket_map := rfl

@[simp] theorem socket_map_create_new_subsocket (peer : Bytes) :
    (s.create_new_subsocket peer).socket_map = s.socket_map.insert peer s.next_id := rfl

@[simp] theorem next_id_disconnect_socket : (s.disconnect_socket d).next_id = s.next_id := by
  unfold disconnect_socket
  dsimp only
  split <;> rfl

@[simp] theorem next_id_send_data (data : Bytes) : (s.send_data d data).next_id = s.next_id := by
  unfold send_data
  dsimp only
  split
  · rfl
  · split <;> rfl

@[simp] theorem next_id_set (x : Descriptor) : (s.set d x).next_id = s.next_id := rfl

@[simp] theorem next_id_socket_disconnected : (s.socket_disconnected d).next_id = s.next_id := rfl

@[simp] theorem next_id_new_connection : (s.new_connection d).next_id = s.next_id := rfl

@[simp] theorem next_id_schedule_descriptor_read : (s.schedule_descriptor_read d).next_id = s.next_id := rfl

@[simp] theorem next_id_queue (message : Bytes) : (s.queue d message).next_id = s.next_id := rfl

@[simp] theorem next_id_create (kind : DescriptorKind) : (s.create kind).next_id = s.next_id + 1 := rfl

@[simp] theorem next_id_create_new_subsocket (peer : Bytes) :
    (s.create_new_subsocket peer).next_id = s.next_id + 1 := rfl

end

/-! ## The kinds of steps -/

/-- Steps that leave the descriptors and the map as they are. -/
def Quiet (s : Client) : ClientAct → Prop
  | .connect_peer peer _ answer => peer ∈ s.get_peer_node_ids ∨ answer = .no_proxy
  | .handshake _ _ | .ldk_send _ _ | .proxy_send _ _ | .proxy_close _ | .reader _ | .sender _ => True
  | .read _ event _ => event = .Text
  | .ldk_disconnect _ | .create _ _ | .reconnect _ => False

/-- The descriptor of a peer that LDK has accepted. -/
def accepted (kind : DescriptorKind) : Core := ⟨kind, false, true, .running, []⟩

/-- What a step does to the descriptors and to the map. -/
inductive Change (s : Client) : ClientAct → Client → Prop where
  | quiet {a : ClientAct} {t : Client} (ha : Quiet s a) (hcore : ∀ d, t.core d = s.core d)
      (hmap : t.socket_map = s.socket_map) (hn : t.next_id = s.next_id) : Change s a t
  | tcp {peer : Bytes} {answer : OutboundAnswer} {t : Client} (hans : answer ≠ .no_proxy)
      (hcore : ∀ d, t.core d = if d = s.next_id then
        (if answer = .refused then (Descriptor.new .Tcp).core else accepted .Tcp) else s.core d)
      (hmap : t.socket_map = s.socket_map) (hn : t.next_id = s.next_id + 1) : Change s (.connect_peer peer .Tcp answer) t
  | outbound {peer : Bytes} {answer : OutboundAnswer} {t : Client} (hnew : peer ∉ s.get_peer_node_ids)
      (hcore : ∀ d, t.core d = if d = s.next_id then
        (if answer = .refused then (Descriptor.new (.Mutiny peer)).core else accepted (.Mutiny peer)) else s.core d)
      (hmap : t.socket_map = s.socket_map.insert peer s.next_id) (hn : t.next_id = s.next_id + 1) :
      Change s (.connect_peer peer .Mutiny answer) t
  | inbound {k : ConnId} {id message : Bytes} {t : Client} (hpc : s.readers k = .creating id message)
      (hcore : ∀ d, t.core d = if d = s.next_id then accepted (.Mutiny id) else s.core d)
      (hmap : t.socket_map = s.socket_map.insert id s.next_id) (hn : t.next_id = s.next_id + 1) :
      Change s (.create k true) t
  | inbound_refused {k : ConnId} {id message : Bytes} {t : Client} (hpc : s.readers k = .creating id message)
      (hcore : ∀ d, t.core d = if d = s.next_id then (Descriptor.new (.Mutiny id)).core.dropped else s.core d)
      (hmap : t.socket_map = (s.socket_map.insert id s.next_id).erase id) (hn : t.next_id = s.next_id + 1) :
      Change s (.create k false) t
  | ldk_drop {d : DescId} {t : Client} (htracked : (s.core d).tracked)
      (hcore : ∀ e, t.core e = if e = d then (s.core d).dropped else s.core e)
      (hmap : t.socket_map = s.socket_map) (hn : t.next_id = s.next_id) : Change s (.ldk_disconnect d) t
  | command {k : ConnId} {from_ : Bytes} {d : DescId} {t : Client} (hl : s.socket_map.lookup from_ = some d)
      (hcore : ∀ e, t.core e = if e = d then (s.core d).dropped else s.core e)
      (hmap : t.socket_map = s.socket_map.erase from_) (hn : t.next_id = s.next_id) : Change s (.reader k) t
  | reconnect {order : List Bytes} {t : Client} (hin : ∀ p d, s.socket_map.lookup p = some d → t.core d = (s.core d).dropped)
      (hout : ∀ d, (∀ p, s.socket_map.lookup p ≠ some d) → t.core d = s.core d)
      (hmap : t.socket_map = ∅) (hn : t.next_id = s.next_id) : Change s (.reconnect order) t
  | answered {d : DescId} {b : Bytes} {ok : Bool} {t : Client} (hloop : (s.core d).loop = .running)
      (hstop : ∀ p, (s.core d).kind = .Mutiny p → (s.core d).stop = false) (hok : ok → (s.core d).tracked)
      (hcore : ∀ e, t.core e = if e = d then
        { s.core d with tracked := ok, answers := (s.core d).answers ++ [ok] } else s.core e)
      (hmap : t.socket_map = s.socket_map) (hn : t.next_id = s.next_id) : Change s (.read d (.Bytes b) ok) t
  | ended {d : DescId} {event : ReadEvent} {ok : Bool} {t : Client} (hevent : event = .Err ∨ event = .End)
      (hloop : (s.core d).loop = .running) (hstop : ∀ p, (s.core d).kind = .Mutiny p → (s.core d).stop)
      (hcore : ∀ e, t.core e = if e = d then { s.core d with loop := .ended } else s.core e)
      (hmap : t.socket_map = s.socket_map) (hn : t.next_id = s.next_id) : Change s (.read d event ok) t

theorem change_connect_peer {peer : Bytes} {connection_type : ConnectionType} {answer : OutboundAnswer}
    (h : s.connect_peer_if_necessary peer connection_type answer = some t) :
    Change s (.connect_peer peer connection_type answer) t := by
  unfold connect_peer_if_necessary at h
  split at h
  · next hlisted =>
    cases h
    exact .quiet (.inl hlisted) (fun _ => rfl) rfl rfl
  · next hnew =>
    cases connection_type with
    | Tcp =>
      cases answer with
      | no_proxy =>
        cases h
        exact .quiet (.inr rfl) (fun _ => rfl) rfl rfl
      | refused =>
        cases h
        exact .tcp nofun (fun d => by simp) rfl rfl
      | initial_bytes bytes =>
        cases h
        refine .tcp nofun (fun d => ?_) (by simp) (by simp)
        by_cases hd : d = s.next_id <;> simp [hd, accepted, Descriptor.core, Descriptor.new]
    | Mutiny =>
      cases answer with
      | no_proxy => cases h
      | refused =>
        cases h
        exact .outbound hnew (fun d => by simp) rfl rfl
      | initial_bytes bytes =>
        cases h
        refine .outbound hnew (fun d => ?_) (by simp) (by simp)
        by_cases hd : d = s.next_id <;> simp [hd, accepted, Descriptor.core, Descriptor.new]

theorem core_drop (s : Client) (d e : DescId) : ((s.disconnect_socket d).socket_disconnected d).core e =
    if e = d then (s.core d).dropped else s.core e := by
  by_cases he : e = d <;> simp [he, Core.dropped]

theorem change_reader {k : ConnId} (h : s.reader k = some t) : Change s (.reader k) t := by
  unfold reader at h
  split at h
  · cases h
  · split at h
    · simp only [Option.ite_none_right_eq_some, Option.some.injEq] at h
      obtain ⟨-, rfl⟩ := h
      exact .quiet trivial (fun _ => rfl) rfl rfl
    · next msg rest _ =>
      rcases msg with _ | (_ | ⟨to_, from_⟩) | msg <;> simp only [Option.some.injEq] at h <;> subst h
      · exact .quiet trivial (fun _ => rfl) rfl rfl
      · exact .quiet trivial (fun _ => rfl) rfl rfl
      · unfold on_command
        dsimp only
        split
        · next d hd => exact .command hd (core_drop { s with incoming := _ } d) (by simp) (by simp)
        · exact .quiet trivial (fun _ => rfl) rfl rfl
      · unfold on_bytes
        split
        · exact .quiet trivial (fun _ => rfl) rfl rfl
        · split
          · next d hd => exact .quiet trivial (core_queue { s with incoming := _ } d · _) rfl rfl
          · exact .quiet trivial (fun _ => rfl) rfl rfl

theorem change_go_on {k : ConnId} {ok : Bool} (h : s.go_on k ok = some t) : Change s (.create k ok) t := by
  unfold go_on at h
  cases hpc : s.readers k with
  | creating id message =>
    simp only [hpc, Option.some.injEq] at h
    subst h
    unfold create_inbound
    cases ok with
    | true =>
      refine .inbound hpc (fun d => ?_) rfl rfl
      simp only [if_true, core_queue, core_schedule_descriptor_read, core_new_connection, core_create_new_subsocket]
      by_cases hd : d = s.next_id
      · simp [hd, accepted, Descriptor.core, Descriptor.new]
      · simp only [if_neg hd]
        rfl
    | false =>
      refine .inbound_refused hpc (fun d => ?_) rfl (by simp)
      apply (core_drop (create_new_subsocket { s with readers := _ } id) s.next_id d).trans
      rw [core_create_new_subsocket, core_create_new_subsocket]
      by_cases hd : d = s.next_id
      · simp [hd]
      · simp only [if_neg hd]
        rfl
  | absent => simp [hpc] at h
  | reading => simp [hpc] at h
  | done => simp [hpc] at h

theorem change_sender {k : ConnId} (h : s.sender k = some t) : Change s (.sender k) t := by
  unfold sender at h
  refine .quiet trivial (fun d => ?_) ?_ ?_
  all_goals
    split at h
    · dsimp only at h
      cases hc : s.channel <;> cases hk : s.connected <;> simp [hc, hk] at h <;> subst h <;> rfl
    · cases h

theorem drop_subsocket_some {peer : Bytes} {d : DescId} (h : s.socket_map.lookup peer = some d) :
    s.drop_subsocket peer = (s.disconnect_socket d).socket_disconnected d := by
  unfold drop_subsocket
  rw [h]

theorem drop_subsocket_none {peer : Bytes} (h : s.socket_map.lookup peer = none) : s.drop_subsocket peer = s := by
  unfold drop_subsocket
  rw [h]

@[simp] theorem socket_map_drop_subsocket (s : Client) (peer : Bytes) :
    (s.drop_subsocket peer).socket_map = s.socket_map := by
  unfold drop_subsocket
  split <;> simp

@[simp] theorem next_id_drop_subsocket (s : Client) (peer : Bytes) : (s.drop_subsocket peer).next_id = s.next_id := by
  unfold drop_subsocket
  split <;> simp

@[simp] theorem next_id_foldl_drop (order : List Bytes) (s : Client) :
    (order.foldl drop_subsocket s).next_id = s.next_id := by
  induction order generalizing s with
  | nil => rfl
  | cons p order ih => rw [List.foldl_cons, ih, next_id_drop_subsocket]

theorem core_foldl_out (order : List Bytes) (s : Client) {d : DescId} (h : ∀ p, s.socket_map.lookup p ≠ some d) :
    (order.foldl drop_subsocket s).core d = s.core d := by
  induction order generalizing s with
  | nil => rfl
  | cons p order ih =>
    rw [List.foldl_cons, ih _ (by simpa using h)]
    cases hl : s.socket_map.lookup p with
    | none => rw [drop_subsocket_none hl]
    | some e =>
      have hne : d ≠ e := by
        rintro rfl
        exact h p hl
      rw [drop_subsocket_some hl, core_drop, if_neg hne]

/-- Walking the map stops what is stored there, however often it is stored. -/
theorem core_foldl_in (order : List Bytes) (s : Client) {d : DescId}
    (h : (s.core d) = (s.core d).dropped ∨ ∃ p ∈ order, s.socket_map.lookup p = some d) :
    (order.foldl drop_subsocket s).core d = (s.core d).dropped := by
  induction order generalizing s with
  | nil => simpa using h
  | cons p order ih =>
    have hstep : (s.drop_subsocket p).core d = (s.core d).dropped ∨ (s.drop_subsocket p).core d = s.core d ∧
        s.socket_map.lookup p ≠ some d := by
      cases hl : s.socket_map.lookup p with
      | none => exact .inr ⟨by rw [drop_subsocket_none hl], nofun⟩
      | some e =>
        rw [drop_subsocket_some hl, core_drop]
        by_cases hd : d = e
        · exact .inl (by rw [if_pos hd, hd])
        · exact .inr ⟨if_neg hd, fun he => hd (Option.some.inj he).symm⟩
    rw [List.foldl_cons]
    rcases hstep with hd | ⟨hd, hne⟩
    · rw [ih _ (.inl (by rw [hd]; rfl)), hd]
      rfl
    · rw [← hd]
      apply ih _
      rw [hd, socket_map_drop_subsocket]
      rcases h with h | ⟨q, hq, hl⟩
      · exact .inl h
      · rcases List.mem_cons.mp hq with rfl | hq
        · exact (hne hl).elim
        · exact .inr ⟨q, hq, hl⟩

theorem change_reconnect {order : List Bytes} (h : s.reconnect order = some t) : Change s (.reconnect order) t := by
  unfold reconnect at h
  simp only [Option.ite_none_right_eq_some, Option.some.injEq] at h
  obtain ⟨⟨-, hperm⟩, rfl⟩ := h
  refine .reconnect (fun p d hl => ?_) (fun d hd => core_foldl_out order s hd) rfl (next_id_foldl_drop order s)
  have hp : p ∈ order := hperm.mem_iff.mpr (AList.mem_keys.mp (AList.lookup_isSome.mp (by rw [hl]; rfl)))
  exact core_foldl_in order s (.inr ⟨p, hp, hl⟩)

theorem change_read {d : DescId} {event : ReadEvent} {ok : Bool} (h : s.read d event ok = some t) :
    Change s (.read d event ok) t := by
  unfold read at h
  split at h
  · cases h
  · next hloop =>
    have hloop : (s.core d).loop = .running := by simpa [core, Descriptor.core] using hloop
    obtain ⟨u, hu, h⟩ := Option.bind_eq_some_iff.mp h
    -- taking a message out of the queue leaves the descriptors as they are
    have hread : (∀ e, u.core e = s.core e) ∧ u.socket_map = s.socket_map ∧ u.next_id = s.next_id ∧
        ∀ p, (s.core d).kind = .Mutiny p →
          ((s.core d).stop = true ∧ event = .Err) ∨ ((s.core d).stop = false ∧ ∃ b, event = .Bytes b) := by
      unfold read_descriptor at hu
      dsimp only at hu
      split at hu
      · next hkind =>
        cases hu
        refine ⟨fun _ => rfl, rfl, rfl, fun p hp => ?_⟩
        rw [core, Descriptor.core, hkind] at hp
        cases hp
      · split at hu
        · next hstop =>
          simp only [Option.ite_none_right_eq_some, Option.some.injEq] at hu
          obtain ⟨hev, rfl⟩ := hu
          exact ⟨fun _ => rfl, rfl, rfl, fun p _ => .inl ⟨hstop, hev⟩⟩
        · next hstop =>
          split at hu
          · next b rest hq =>
            simp only [Option.ite_none_right_eq_some, Option.some.injEq] at hu
            obtain ⟨hev, rfl⟩ := hu
            refine ⟨fun e => ?_, rfl, rfl, fun p _ => .inr ⟨by simpa [core, Descriptor.core] using hstop, b, hev⟩⟩
            rw [core_set]
            split
            · next he =>
              subst he
              rfl
            · rfl
          · cases hu
    obtain ⟨hcore, hmap, hn, hkind⟩ := hread
    have hcored : (u.descriptors d).core = s.core d := hcore d
    cases event with
    | Text =>
      cases h
      exact .quiet rfl hcore hmap hn
    | Bytes b =>
      have hstop : ∀ p, (s.core d).kind = .Mutiny p → (s.core d).stop = false := by
        intro p hp
        rcases hkind p hp with ⟨-, hev⟩ | ⟨hs, -⟩
        · cases hev
        · exact hs
      simp only [read_event] at h
      split at h
      · next hok =>
        simp only [Option.ite_none_right_eq_some, Option.some.injEq] at h
        obtain ⟨htracked, rfl⟩ := h
        have htracked : (s.core d).tracked = true := by rw [← hcored]; exact htracked
        refine .answered hloop hstop (fun _ => htracked) (fun e => ?_) hmap hn
        rw [core_set]
        split
        · rw [hok, ← hcored]
          rw [← hcored] at htracked
          simp only [Descriptor.core] at htracked ⊢
          rw [htracked]
        · exact hcore e
      · next hok =>
        cases h
        refine .answered hloop hstop (fun h => (hok h).elim) (fun e => ?_) hmap hn
        rw [core_set]
        split
        · rw [Bool.eq_false_iff.mpr hok, ← hcored]
          rfl
        · exact hcore e
    | Err =>
      have hstop : ∀ p, (s.core d).kind = .Mutiny p → (s.core d).stop := by
        intro p hp
        rcases hkind p hp with ⟨hs, -⟩ | ⟨-, b, hev⟩
        · exact hs
        · cases hev
      cases h
      refine .ended (.inl rfl) hloop hstop (fun e => ?_) hmap hn
      rw [core_set]
      split
      · rw [← hcored]
        rfl
      · exact hcore e
    | End =>
      have hstop : ∀ p, (s.core d).kind = .Mutiny p → (s.core d).stop := by
        intro p hp
        rcases hkind p hp with ⟨-, hev⟩ | ⟨-, b, hev⟩
        · cases hev
        · cases hev
      cases h
      refine .ended (.inr rfl) hloop hstop (fun e => ?_) hmap hn
      rw [core_set]
      split
      · rw [← hcored]
        rfl
      · exact hcore e

theorem change_of_step {a : ClientAct} (h : step s a = some t) : Change s a t := by
  cases a with
  | connect_peer peer connection_type answer => exact change_connect_peer h
  | handshake d node_id =>
    simp only [step, Option.ite_none_right_eq_some, Option.some.injEq] at h
    obtain ⟨-, rfl⟩ := h
    refine .quiet trivial (fun e => ?_) rfl rfl
    rw [core_set]
    split
    · next he =>
      subst he
      rfl
    · rfl
  | ldk_send d data =>
    simp only [step, Option.ite_none_right_eq_some, Option.some.injEq] at h
    obtain ⟨-, rfl⟩ := h
    exact .quiet trivial (core_send_data s d · data) (by simp) (by simp)
  | ldk_disconnect d =>
    simp only [step, Option.ite_none_right_eq_some, Option.some.injEq] at h
    obtain ⟨htracked, rfl⟩ := h
    refine .ldk_drop htracked (fun e => ?_) (by simp) (by simp)
    by_cases he : e = d <;> simp [he, Core.dropped]
  | proxy_send k msg =>
    simp only [step, Option.ite_none_right_eq_some, Option.some.injEq] at h
    obtain ⟨-, rfl⟩ := h
    exact .quiet trivial (fun _ => rfl) rfl rfl
  | proxy_close k =>
    simp only [step, Option.ite_none_right_eq_some, Option.some.injEq] at h
    obtain ⟨-, rfl⟩ := h
    exact .quiet trivial (fun _ => rfl) rfl rfl
  | reader k => exact change_reader h
  | create k ok => exact change_go_on h
  | sender k => exact change_sender h
  | reconnect order => exact change_reconnect h
  | read d event ok => exact change_read h

/-! ## The descriptors of a node -/

theorem lookup_of_erase {m : AList fun _ : Bytes => DescId} {p id : Bytes} {d : DescId}
    (h : (m.erase id).lookup p = some d) : p ≠ id ∧ m.lookup p = some d := by
  by_cases hp : p = id
  · subst hp
    rw [AList.lookup_erase] at h
    cases h
  · exact ⟨hp, (AList.lookup_erase_ne hp).symm.trans h⟩

structure Sane (s : Client) : Prop where
  fresh : ∀ d, s.next_id ≤ d → s.core d = (Descriptor.new .Tcp).core
  known : ∀ p d, s.socket_map.lookup p = some d → d < s.next_id ∧ (s.core d).kind = .Mutiny p
  /-- Whoever stops a descriptor tells LDK, or is LDK. -/
  stopped : ∀ d, (s.core d).stop → (s.core d).tracked = false
  idle : ∀ d, (s.core d).loop = .idle → (s.core d).tracked = false
  /-- The reader of a subsocket ends when it is stopped. -/
  ended : ∀ d p, (s.core d).kind = .Mutiny p → (s.core d).loop = .ended → (s.core d).stop

theorem sane_new (our_peer_pubkey : Bytes) : Sane (new our_peer_pubkey) :=
  ⟨fun _ _ => rfl, nofun, nofun, fun _ _ => rfl, nofun⟩

namespace Sane

variable (inv : Sane s)
include inv

theorem lookup_inj {p q : Bytes} {d : DescId} (hp : s.socket_map.lookup p = some d)
    (hq : s.socket_map.lookup q = some d) : p = q := by
  have hk := (inv.known p d hp).2
  rw [(inv.known q d hq).2] at hk
  exact (DescriptorKind.Mutiny.inj hk).symm

theorem of_core (hfresh : ∀ d, t.next_id ≤ d → t.core d = (Descriptor.new .Tcp).core)
    (hknown : ∀ p d, t.socket_map.lookup p = some d → d < t.next_id ∧ (t.core d).kind = .Mutiny p)
    (hcore : ∀ d, t.core d = s.core d ∨ ((t.core d).stop → (t.core d).tracked = false) ∧
      ((t.core d).loop = .idle → (t.core d).tracked = false) ∧
      ∀ p, (t.core d).kind = .Mutiny p → (t.core d).loop = .ended → (t.core d).stop) : Sane t := by
  refine ⟨hfresh, hknown, fun d => ?_, fun d => ?_, fun d => ?_⟩
  · rcases hcore d with h | h
    · rw [h]
      exact inv.stopped d
    · exact h.1
  · rcases hcore d with h | h
    · rw [h]
      exact inv.idle d
    · exact h.2.1
  · rcases hcore d with h | h
    · rw [h]
      exact inv.ended d
    · exact h.2.2

theorem of_set {d : DescId} {x : Core} (hlt : d < s.next_id) (hcore : ∀ e, t.core e = if e = d then x else s.core e)
    (hn : t.next_id = s.next_id) (hkind : x.kind = (s.core d).kind)
    (hmap : ∀ p e, t.socket_map.lookup p = some e → s.socket_map.lookup p = some e)
    (hx : (x.stop → x.tracked = false) ∧ (x.loop = .idle → x.tracked = false) ∧
      ∀ p, x.kind = .Mutiny p → x.loop = .ended → x.stop) : Sane t := by
  refine inv.of_core (fun e he => ?_) (fun p e hl => ?_) fun e => ?_
  · rw [hn] at he
    rw [hcore, if_neg (Nat.ne_of_gt (Nat.lt_of_lt_of_le hlt he))]
    exact inv.fresh e he
  · obtain ⟨hle, hk⟩ := inv.known p e (hmap p e hl)
    refine ⟨hn ▸ hle, ?_⟩
    rw [hcore]
    split
    · next he =>
      rw [hkind, ← he, hk]
    · exact hk
  · rw [hcore]
    split
    · exact .inr hx
    · exact .inl rfl

theorem of_new {x : Core} (hcore : ∀ d, t.core d = if d = s.next_id then x else s.core d)
    (hn : t.next_id = s.next_id + 1)
    (hmap : ∀ p d, t.socket_map.lookup p = some d → d = s.next_id ∧ x.kind = .Mutiny p ∨ s.socket_map.lookup p = some d)
    (hx : (x.stop → x.tracked = false) ∧ (x.loop = .idle → x.tracked = false) ∧
      ∀ p, x.kind = .Mutiny p → x.loop = .ended → x.stop) : Sane t := by
  refine inv.of_core (fun d hd => ?_) (fun p d hl => ?_) fun d => ?_
  · rw [hn] at hd
    rw [hcore, if_neg (Nat.ne_of_gt hd)]
    exact inv.fresh d (Nat.le_of_succ_le hd)
  · rw [hn, hcore]
    rcases hmap p d hl with ⟨rfl, hk⟩ | hl
    · exact ⟨Nat.lt_succ_self _, by rw [if_pos rfl, hk]⟩
    · obtain ⟨hlt, hk⟩ := inv.known p d hl
      exact ⟨Nat.lt_succ_of_lt hlt, by rw [if_neg (Nat.ne_of_lt hlt), hk]⟩
  · rw [hcore]
    split
    · exact .inr hx
    · exact .inl rfl

theorem lt_of_tracked {d : DescId} (h : (s.core d).tracked) : d < s.next_id := by
  by_contra hd
  rw [inv.fresh d (Nat.le_of_not_lt hd)] at h
  cases h

theorem lt_of_running {d : DescId} (h : (s.core d).loop = .running) : d < s.next_id := by
  by_contra hd
  rw [inv.fresh d (Nat.le_of_not_lt hd)] at h
  cases h

theorem change {a : ClientAct} (h : Change s a t) : Sane t := by
  cases h with
  | quiet ha hcore hmap hn =>
    refine inv.of_core (fun d hd => ?_) (fun p d hl => ?_) fun d => .inl (hcore d)
    · rw [hcore]
      exact inv.fresh d (hn ▸ hd)
    · rw [hmap] at hl
      rw [hn, hcore]
      exact inv.known p d hl
  | @tcp peer answer _ hans hcore hmap hn =>
    apply inv.of_new hcore hn (fun p d hl => .inr (hmap ▸ hl))
    split
    · exact ⟨nofun, fun _ => rfl, nofun⟩
    · exact ⟨nofun, nofun, nofun⟩
  | @outbound peer answer _ hnew hcore hmap hn =>
    refine inv.of_new hcore hn (fun p d hl => ?_) ?_
    · rw [hmap] at hl
      by_cases hp : p = peer
      · subst hp
        rw [AList.lookup_insert] at hl
        cases hl
        left
        refine ⟨rfl, ?_⟩
        split <;> rfl
      · rw [AList.lookup_insert_ne hp] at hl
        exact .inr hl
    · split
      · exact ⟨nofun, fun _ => rfl, nofun⟩
      · exact ⟨nofun, nofun, nofun⟩
  | @inbound k id message _ hpc hcore hmap hn =>
    refine inv.of_new hcore hn (fun p d hl => ?_) ⟨nofun, nofun, nofun⟩
    rw [hmap] at hl
    by_cases hp : p = id
    · subst hp
      rw [AList.lookup_insert] at hl
      cases hl
      exact .inl ⟨rfl, rfl⟩
    · rw [AList.lookup_insert_ne hp] at hl
      exact .inr hl
  | @inbound_refused k id message _ hpc hcore hmap hn =>
    refine inv.of_new hcore hn (fun p d hl => ?_) ⟨fun _ => rfl, fun _ => rfl, fun _ _ _ => rfl⟩
    obtain ⟨hp, hl⟩ := lookup_of_erase (hmap ▸ hl)
    rw [AList.lookup_insert_ne hp] at hl
    exact .inr hl
  | @ldk_drop d _ htracked hcore hmap hn =>
    exact inv.of_set (inv.lt_of_tracked htracked) hcore hn rfl (fun p e hl => hmap ▸ hl) (s.core d).dropped_sane
  | @command k from_ d _ hl hcore hmap hn =>
    refine inv.of_set (inv.known from_ d hl).1 hcore hn rfl (fun p e hl => ?_) (s.core d).dropped_sane
    exact (lookup_of_erase (hmap ▸ hl)).2
  | reconnect hin hout hmap hn =>
    refine inv.of_core (fun d hd => ?_) (fun p d hl => ?_) fun d => ?_
    · rw [hn] at hd
      rw [hout d fun p hl => Nat.lt_irrefl d (Nat.lt_of_lt_of_le (inv.known p d hl).1 hd)]
      exact inv.fresh d hd
    · rw [hmap] at hl
      cases hl
    · by_cases hd : ∃ p, s.socket_map.lookup p = some d
      · obtain ⟨p, hl⟩ := hd
        rw [hin p d hl]
        exact .inr (s.core d).dropped_sane
      · exact .inl (hout d fun p hl => hd ⟨p, hl⟩)
  | @answered d b ok _ hloop hstop hok hcore hmap hn =>
    refine inv.of_set (inv.lt_of_running hloop) hcore hn rfl (fun p e hl => hmap ▸ hl) ⟨fun hs => ?_, fun hi => ?_, ?_⟩
    · by_contra ht
      have ht : ok = true := by simpa using ht
      have hf := inv.stopped d hs
      rw [hok ht] at hf
      cases hf
    · exact ReadLoop.noConfusion (hloop.symm.trans hi)
    · intro p _ he
      exact ReadLoop.noConfusion (hloop.symm.trans he)
  | @ended d event ok _ hevent hloop hstop hcore hmap hn =>
    exact inv.of_set (inv.lt_of_running hloop) hcore hn rfl (fun p e hl => hmap ▸ hl)
      ⟨inv.stopped d, nofun, fun p hp _ => hstop p hp⟩

end Sane

theorem sane_of_run {our_peer_pubkey : Bytes} {as : List ClientAct} (h : machine.run (new our_peer_pubkey) as = some s) :
    Sane s :=
  Machine.invariant (I := Sane) (fun _ _ _ inv hs => inv.change (change_of_step hs)) (sane_new _) h

def sample_peer : Bytes := .replicate PUBKEY_BYTES_LEN 2

/-- The key of the node itself. -/
def sample_key : Bytes := .replicate PUBKEY_BYTES_LEN 3

end Client

end Mutiny
