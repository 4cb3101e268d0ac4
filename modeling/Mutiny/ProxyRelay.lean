import Mutiny.ProxySteps

/-!
# What the proxy relays

A command in a channel does not say why it was put there. `pushes` and `accepts` are read off the state that a step is
taken from: the commands that the step puts on a channel, with the frame that caused them, and the frames for which
the step finds the loop of the addressee. `Relay` relates what a run pushed and accepted to the channels, to what was
written and to what the clients sent.
-/

namespace Mutiny

/-- Why a command was put on a channel: for a frame of the client of `owner`, to tell the own client that a peer is not
there, or by a listener task. -/
inductive Origin where
  | frame (owner : ConnId) (dest : Bytes)
  | reply
  | listener (t : TaskId)
  deriving DecidableEq, Repr

structure Push where
  peer : ConnId
  origin : Origin
  command : MutinyWSCommand
  deriving DecidableEq, Repr

/-- The loop `owner` has found the loop `peer` that is registered as `dest`. -/
structure Accept where
  owner : ConnId
  dest : Bytes
  peer : ConnId
  command : MutinyWSCommand
  deriving DecidableEq, Repr

/-- The addressee of a frame of a client, and the command that it becomes. -/
def relayed (owner_id : Bytes) : Message → Option (Bytes × MutinyWSCommand)
  | .Text (some (.Disconnect to_ _)) => some (to_, .Disconnect owner_id)
  | .Binary msg =>
    if msg.length < PUBKEY_BYTES_LEN then none
    else some (msg.take PUBKEY_BYTES_LEN, .Send owner_id (msg.drop PUBKEY_BYTES_LEN))
  | .Text none | .Other => none

/-- The frame of the client of `c` that caused the command, if it was one. -/
def Push.accept (c : ConnId) (p : Push) : Option Accept :=
  match p.origin with
  | .frame owner dest => if owner = c then some ⟨owner, dest, p.peer, p.command⟩ else none
  | .reply | .listener _ => none

namespace Proxy

variable {s t : Proxy}

/-- The commands that a step puts on a channel. -/
def pushes (s : Proxy) : ProxyAct → List Push
  | .resume c =>
    match (s.handlers c).pc with
    | .send_disconnect dest peer =>
      if (s.handlers peer).pc = .done then [] else [⟨peer, .frame c dest, .Disconnect (s.handlers c).owner_id⟩]
    | .send_message dest val peer =>
      if (s.handlers peer).pc = .done then [] else [⟨peer, .frame c dest, .Send (s.handlers c).owner_id val⟩]
    | .send_self dest => [⟨c, .reply, .Disconnect dest⟩]
    | _ => []
  | .listener i =>
    match s.listeners[i]? with
    | some task =>
      if task.pc = .sending ∧ (s.handlers task.owner).pc ≠ .done then
        [⟨task.owner, .listener i, .Disconnect task.other_peer⟩]
      else []
    | none => []
  | .connect _ | .client_send _ _ | .client_close _ | .read _ | .receive _ _ => []

/-- The frame for which a step finds the loop of the addressee. -/
def accepts (s : Proxy) : ProxyAct → List Accept
  | .resume c =>
    match (s.handlers c).pc with
    | .lock_disconnect dest =>
      (s.producers dest).toList.map fun peer => ⟨c, dest, peer, .Disconnect (s.handlers c).owner_id⟩
    | .lock_send dest val =>
      (s.producers dest).toList.map fun peer => ⟨c, dest, peer, .Send (s.handlers c).owner_id val⟩
    | _ => []
  | .connect _ | .client_send _ _ | .client_close _ | .read _ | .receive _ _ | .listener _ => []

def pushed (as : List ProxyAct) (b : ConnId) : List Push := (machine.trace pushes new as).filter (·.peer = b)

def accepted (as : List ProxyAct) (a b : ConnId) : List MutinyWSCommand :=
  ((machine.trace accepts new as).filter fun x => x.owner = a ∧ x.peer = b).map (·.command)

def sent (as : List ProxyAct) (c : ConnId) : List Message :=
  as.filterMap fun
    | .client_send d msg => if d = c then some msg else none
    | _ => none

/-! ## The channels after a step -/

section
variable (s : Proxy) (c d : ConnId)

@[simp] theorem goto_written (pc : Pc) : ((s.goto c pc).handlers d).written = (s.handlers d).written := by
  unfold goto
  by_cases h : d = c <;> simp [h]

@[simp] theorem goto_inbox (pc : Pc) : ((s.goto c pc).handlers d).inbox = (s.handlers d).inbox := by
  unfold goto
  by_cases h : d = c <;> simp [h]

@[simp] theorem goto_broadcast (pc : Pc) : ((s.goto c pc).handlers d).broadcast = (s.handlers d).broadcast := by
  unfold goto
  by_cases h : d = c <;> simp [h]

@[simp] theorem push_broadcast (command : MutinyWSCommand) :
    ((s.push c command).handlers d).broadcast = (s.handlers d).broadcast := by
  unfold push
  by_cases h : d = c <;> simp [h]

@[simp] theorem push_written (command : MutinyWSCommand) :
    ((s.push c command).handlers d).written = (s.handlers d).written := by
  unfold push
  by_cases h : d = c <;> simp [h]

@[simp] theorem push_inbox (command : MutinyWSCommand) :
    ((s.push c command).handlers d).inbox = (s.handlers d).inbox := by
  unfold push
  by_cases h : d = c <;> simp [h]

end

def to_channel (ps : List Push) (d : ConnId) : List MutinyWSCommand := (ps.filter (·.peer = d)).map (·.command)

/-- A step of a loop from an await, or of a listener task: channels get the commands it pushes, and nothing is read or
written. -/
structure Flows (a : ProxyAct) (s t : Proxy) : Prop where
  queue : ∀ d, (t.handlers d).queue = (s.handlers d).queue ++ to_channel (s.pushes a) d
  written : ∀ d, (t.handlers d).written = (s.handlers d).written
  inbox : ∀ d, (t.handlers d).inbox = (s.handlers d).inbox
  broadcast : ∀ d, (t.handlers d).broadcast = (s.handlers d).broadcast

theorem flows_goto {a : ProxyAct} {c : ConnId} {pc : Pc} (hp : s.pushes a = [])
    (hh : t.handlers = (s.goto c pc).handlers) : Flows a s t :=
  ⟨fun d => by simp [hh, hp, to_channel], fun d => by simp [hh], fun d => by simp [hh], fun d => by simp [hh]⟩

theorem flows_set {a : ProxyAct} {c : ConnId} {h : Handler} (hp : s.pushes a = [])
    (hh : t.handlers = Function.update s.handlers c h) (hq : h.queue = (s.handlers c).queue)
    (hw : h.written = (s.handlers c).written) (hi : h.inbox = (s.handlers c).inbox)
    (hb : h.broadcast = (s.handlers c).broadcast) : Flows a s t := by
  refine ⟨fun d => ?_, fun d => ?_, fun d => ?_, fun d => ?_⟩
  · by_cases hd : d = c <;> simp [hh, hp, to_channel, hd, hq]
  · by_cases hd : d = c <;> simp [hh, hd, hw]
  · by_cases hd : d = c <;> simp [hh, hd, hi]
  · by_cases hd : d = c <;> simp [hh, hd, hb]

theorem flows_push {a : ProxyAct} {c p : ConnId} {pc : Pc} {origin : Origin} {command : MutinyWSCommand}
    (hp : s.pushes a = [⟨p, origin, command⟩]) (hh : t.handlers = ((s.push p command).goto c pc).handlers) :
    Flows a s t := by
  refine ⟨fun d => ?_, fun d => by simp [hh], fun d => by simp [hh], fun d => by simp [hh]⟩
  by_cases hd : d = p
  · simp [hh, hp, to_channel, hd]
  · simp [hh, hp, to_channel, hd, Ne.symm hd]

theorem flows_resume {c : ConnId} (k : Resumed s c t) : Flows (.resume c) s t := by
  cases k with
  | register hpc hfree => exact flows_goto (by simp [pushes, hpc]) rfl
  | no_peer hpc hfree hm => exact flows_goto (by simp [pushes, hpc]) rfl
  | find_peer hpc hfree hm => exact flows_goto (by simp [pushes, hpc]) rfl
  | no_recipient hpc hfree hm => exact flows_goto (by simp [pushes, hpc]) rfl
  | find_recipient hpc hfree hm => exact flows_goto (by simp [pushes, hpc]) rfl
  | peer_ended hpc hdone => exact flows_goto (by simp [pushes, hpc, hdone]) rfl
  | disconnect hpc hdone hroom => exact flows_push (by simp [pushes, hpc, hdone]; rfl) rfl
  | drop_peer hpc => exact flows_set (by simp [pushes, hpc]) rfl rfl rfl rfl rfl
  | recipient_ended hpc hdone => exact flows_goto (by simp [pushes, hpc, hdone]) rfl
  | send hpc hdone hroom => exact flows_push (by simp [pushes, hpc, hdone]; rfl) rfl
  | subscribe hpc => exact flows_goto (by simp [pushes, hpc]) rfl
  | connected hpc hin => exact flows_goto (by simp [pushes, hpc]) rfl
  | listen hpc hout => exact flows_set (by simp [pushes, hpc]) rfl rfl rfl rfl rfl
  | send_self hpc hroom => exact flows_push (by simp [pushes, hpc]; rfl) rfl
  | finish hpc hfree => exact flows_goto (by simp [pushes, hpc]) rfl

theorem flows_listener {i : TaskId} (k : Woken s i t) : Flows (.listener i) s t := by
  cases k with
  | wake ht hpc hwakes =>
    exact ⟨fun d => by simp [pushes, ht, hpc, to_channel, set_listener], fun d => rfl, fun d => rfl, fun d => rfl⟩
  | owner_ended ht hpc hdone =>
    exact ⟨fun d => by simp [pushes, ht, hdone, to_channel, set_listener], fun d => rfl, fun d => rfl, fun d => rfl⟩
  | @tell task ht hpc hdone hroom =>
    have hp : s.pushes (.listener i) = [⟨task.owner, .listener i, .Disconnect task.other_peer⟩] := by
      simp [pushes, ht, hpc, hdone]
    refine ⟨fun d => ?_, fun d => push_written s _ d _, fun d => push_inbox s _ d _, fun d => push_broadcast s _ d _⟩
    by_cases hd : d = task.owner
    · simp [set_listener, hp, to_channel, hd]
    · simp [set_listener, hp, to_channel, hd, Ne.symm hd]
  | clear ht hpc => exact flows_set (by simp [pushes, ht, hpc]) rfl rfl rfl rfl rfl

/-- A channel gives its first command away, or it gets what the step pushes. -/
theorem queue_step {a : ProxyAct} {d : ConnId} (h : step s a = some t)
    (hd : ∀ identifier, a = .connect identifier → d ≠ s.conns) :
    (∃ ok command, a = .receive d ok ∧ (s.handlers d).queue = command :: (t.handlers d).queue ∧ s.pushes a = [] ∧
      if ok then (t.handlers d).written = (s.handlers d).written ++ [to_message (s.handlers d).owner_id command]
      else (t.handlers d).written = (s.handlers d).written ∧ (t.handlers d).pc = .teardown) ∨
    ((t.handlers d).queue = (s.handlers d).queue ++ to_channel (s.pushes a) d ∧
      (t.handlers d).written = (s.handlers d).written) := by
  cases stepped_of_step h with
  | connect identifier => simp [connect, hd identifier rfl, pushes, to_channel]
  | @client_send c msg hlt hopen => by_cases hc : d = c <;> simp [hc, pushes, to_channel]
  | @client_close c hlt => by_cases hc : d = c <;> simp [hc, pushes, to_channel]
  | @read c msg rest hpc hi => by_cases hc : d = c <;> simp [hc, pushes, to_channel]
  | @gone c hpc hi hgone => by_cases hc : d = c <;> simp [hc, pushes, to_channel]
  | @write c command rest hpc hq =>
    by_cases hc : d = c
    · exact .inl ⟨true, command, by simp [hc, hq, pushes]⟩
    · simp [hc, pushes, to_channel]
  | @write_error c command rest hpc hq =>
    by_cases hc : d = c
    · exact .inl ⟨false, command, by simp [hc, hq, pushes]⟩
    · simp [hc, pushes, to_channel]
  | resume h k => exact .inr ⟨(flows_resume k).queue d, (flows_resume k).written d⟩
  | listener h k => exact .inr ⟨(flows_listener k).queue d, (flows_listener k).written d⟩

theorem queue_of_ne {a : ProxyAct} {c : ConnId} (h : step s a = some t) (hne : actor a ≠ some c) (hlt : c < s.conns) :
    (s.handlers c).queue <+: (t.handlers c).queue := by
  rcases queue_step (d := c) h (fun _ _ => Nat.ne_of_lt hlt) with ⟨ok, command, rfl, -⟩ | ⟨hq, -⟩
  · exact (hne rfl).elim
  · exact ⟨_, hq.symm⟩

/-- A loop reads the first message of its client, or it leaves what the client sends unread. -/
theorem inbox_step {a : ProxyAct} {d : ConnId} (h : step s a = some t)
    (hd : ∀ identifier, a = .connect identifier → d ≠ s.conns) :
    (∃ msg, a = .read d ∧ (s.handlers d).pc = .select ∧ (s.handlers d).inbox = msg :: (t.handlers d).inbox ∧
      (t.handlers d).pc = on_message msg) ∨
    ((t.handlers d).inbox = (s.handlers d).inbox ++ sent [a] d ∧
      (a = .read d → (s.handlers d).pc = .select ∧ (t.handlers d).pc = .teardown)) := by
  cases stepped_of_step h with
  | connect identifier => simp [connect, hd identifier rfl, sent]
  | @client_send c msg hlt hopen =>
    by_cases hc : d = c
    · simp [hc, sent]
    · simp [hc, Ne.symm hc, sent]
  | @client_close c hlt => by_cases hc : d = c <;> simp [hc, sent]
  | @read c msg rest hpc hi =>
    by_cases hc : d = c
    · exact .inl ⟨msg, by simp [hc, hpc, hi]⟩
    · right
      simp [hc, Ne.symm hc, sent]
  | @gone c hpc hi hgone =>
    right
    by_cases hc : d = c
    · simp [hc, sent, hpc]
    · simp [hc, Ne.symm hc, sent]
  | @write c command rest hpc hq =>
    right
    by_cases hc : d = c <;> simp [hc, sent]
  | @write_error c command rest hpc hq =>
    right
    by_cases hc : d = c <;> simp [hc, sent]
  | resume h k => exact .inr ⟨by simp [(flows_resume k).inbox d, sent], fun he => by cases he⟩
  | listener h k => exact .inr ⟨by simp [(flows_listener k).inbox d, sent], fun he => by cases he⟩

/-! ## Frames in hand -/

/-- The frame that a loop has found the addressee of. -/
def in_hand (s : Proxy) (c : ConnId) : Option Accept :=
  match (s.handlers c).pc with
  | .send_disconnect dest peer => some ⟨c, dest, peer, .Disconnect (s.handlers c).owner_id⟩
  | .send_message dest val peer => some ⟨c, dest, peer, .Send (s.handlers c).owner_id val⟩
  | _ => none

/-- The frame whose addressee a loop is about to look up. -/
def at_lock (s : Proxy) (c : ConnId) : Option (Bytes × MutinyWSCommand) :=
  match (s.handlers c).pc with
  | .lock_disconnect dest => some (dest, .Disconnect (s.handlers c).owner_id)
  | .lock_send dest val => some (dest, .Send (s.handlers c).owner_id val)
  | _ => none

/-- What a loop does with a frame when it goes on from an await. -/
inductive Turn (s : Proxy) (c : ConnId) (t : Proxy) : Prop where
  | accept (x : Accept) (hx : x.owner = c) (hm : s.producers x.dest = some x.peer) (ha : s.accepts (.resume c) = [x])
      (hp : s.pushes (.resume c) = []) (hlock : s.at_lock c = some (x.dest, x.command)) (hhand : s.in_hand c = none)
      (hlock' : t.at_lock c = none) (hhand' : t.in_hand c = some x)
  | push (x : Accept) (hx : x.owner = c) (ha : s.accepts (.resume c) = [])
      (hp : s.pushes (.resume c) = [⟨x.peer, .frame c x.dest, x.command⟩]) (hhand : s.in_hand c = some x)
      (hlock' : t.at_lock c = none) (hhand' : t.in_hand c = none)
  | other (ha : s.accepts (.resume c) = []) (hp : ∀ p ∈ s.pushes (.resume c), p.origin = .reply)
      (hhand : s.in_hand c = none) (hlock' : t.at_lock c = none) (hhand' : t.in_hand c = none)

theorem turn_of_resume (inv : Locked s) {c : ConnId} (h : s.resume c = some t) : Turn s c t := by
  cases resumed_of_resume h with
  | @find_peer dest peer hpc hfree hm =>
    exact .accept ⟨c, dest, peer, .Disconnect (s.handlers c).owner_id⟩ rfl hm (by simp [accepts, hpc, hm])
      (by simp [pushes, hpc]) (by simp [at_lock, hpc]) (by simp [in_hand, hpc]) (by simp [at_lock]) (by simp [in_hand])
  | @find_recipient dest val peer hpc hfree hm =>
    exact .accept ⟨c, dest, peer, .Send (s.handlers c).owner_id val⟩ rfl hm (by simp [accepts, hpc, hm])
      (by simp [pushes, hpc]) (by simp [at_lock, hpc]) (by simp [in_hand, hpc]) (by simp [at_lock]) (by simp [in_hand])
  | @peer_ended dest peer hpc hdone | @recipient_ended dest val peer hpc hdone =>
    -- the loop that was found has not ended, since it takes the mutex to end
    have hlive := inv.peer c peer (by rw [hpc]; rfl)
    rw [hdone] at hlive
    cases hlive
  | @disconnect dest peer hpc hdone hroom =>
    exact .push ⟨c, dest, peer, .Disconnect (s.handlers c).owner_id⟩ rfl (by simp [accepts, hpc])
      (by simp [pushes, hpc, hdone]) (by simp [in_hand, hpc]) (by simp [at_lock]) (by simp [in_hand])
  | @send dest val peer hpc hdone hroom =>
    exact .push ⟨c, dest, peer, .Send (s.handlers c).owner_id val⟩ rfl (by simp [accepts, hpc])
      (by simp [pushes, hpc, hdone]) (by simp [in_hand, hpc]) (by simp [at_lock]) (by simp [in_hand])
  | no_peer hpc hfree hm | no_recipient hpc hfree hm =>
    exact .other (by simp [accepts, hpc, hm]) (by simp [pushes, hpc]) (by simp [in_hand, hpc]) (by simp [at_lock])
      (by simp [in_hand])
  | register hpc hl | finish hpc hl | connected hpc hl | listen hpc hl | send_self hpc hl | drop_peer hpc
  | subscribe hpc =>
    exact .other (by simp [accepts, hpc]) (by simp [pushes, hpc]) (by simp [in_hand, hpc]) (by simp [at_lock])
      (by simp [in_hand])

/-! ## The steps that concern one loop -/

theorem accept_of_ne (s : Proxy) {a : ProxyAct} {c : ConnId} (ha : a ≠ .resume c) :
    (s.pushes a).filterMap (Push.accept c) = [] := by
  unfold pushes
  split
  · next d =>
    have hd : d ≠ c := by
      rintro rfl
      exact ha rfl
    split
    · split <;> simp [Push.accept, hd]
    · split <;> simp [Push.accept, hd]
    · simp [Push.accept]
    · rfl
  · split
    · split <;> simp [Push.accept]
    · rfl
  all_goals rfl

theorem accepts_of_ne (s : Proxy) {a : ProxyAct} {c : ConnId} (ha : a ≠ .resume c) :
    (s.accepts a).filter (·.owner = c) = [] := by
  unfold accepts
  split
  · next d =>
    have hd : d ≠ c := by
      rintro rfl
      exact ha rfl
    split
    · cases s.producers _ <;> simp [hd]
    · cases s.producers _ <;> simp [hd]
    · rfl
  all_goals rfl

theorem receive_pc {c : ConnId} {ok : Bool} (h : s.receive c ok = some t) :
    (s.handlers c).pc = .select ∧ ((t.handlers c).pc = .select ∨ (t.handlers c).pc = .teardown) := by
  cases stepped_of_receive h with
  | write hpc hq => exact ⟨hpc, .inl (by simp [hpc])⟩
  | write_error hpc hq => exact ⟨hpc, .inr (by simp)⟩

theorem in_hand_congr {c : ConnId} (hpc : (t.handlers c).pc = (s.handlers c).pc)
    (hid : (t.handlers c).owner_id = (s.handlers c).owner_id) : t.in_hand c = s.in_hand c := by
  unfold in_hand
  rw [hpc, hid]

theorem at_lock_congr {c : ConnId} (hpc : (t.handlers c).pc = (s.handlers c).pc)
    (hid : (t.handlers c).owner_id = (s.handlers c).owner_id) : t.at_lock c = s.at_lock c := by
  unfold at_lock
  rw [hpc, hid]

theorem in_hand_on_message {c : ConnId} {msg : Message} (h : (t.handlers c).pc = on_message msg) :
    t.in_hand c = none := by
  unfold in_hand
  rw [h]
  rcases msg with (_ | ⟨to_, from_⟩) | msg | _
  · rfl
  · rfl
  · by_cases hlt : msg.length < PUBKEY_BYTES_LEN <;> simp [on_message, hlt]
  · rfl

theorem at_lock_on_message {c : ConnId} {msg : Message} (h : (t.handlers c).pc = on_message msg) :
    t.at_lock c = relayed (t.handlers c).owner_id msg := by
  unfold at_lock
  rw [h]
  rcases msg with (_ | ⟨to_, from_⟩) | msg | _
  · rfl
  · rfl
  · by_cases hlt : msg.length < PUBKEY_BYTES_LEN <;> simp [on_message, relayed, hlt]
  · rfl

theorem in_hand_of_ne {a : ProxyAct} {c : ConnId} (h : step s a = some t) (hc : c < s.conns) (ha : a ≠ .resume c) :
    t.in_hand c = s.in_hand c := by
  have hid := owner_id_step h hc
  by_cases hact : actor a = some c
  · cases a with
    | read d =>
      cases hact
      rcases inbox_step h (fun _ h => nomatch h) with ⟨msg, -, hpc, -, hpc'⟩ | ⟨-, hpcs⟩
      · rw [in_hand_on_message hpc']
        simp [in_hand, hpc]
      · obtain ⟨hpc, hpc'⟩ := hpcs rfl
        simp [in_hand, hpc, hpc']
    | receive d ok =>
      cases hact
      obtain ⟨hpc, hpc' | hpc'⟩ := receive_pc h
      · simp [in_hand, hpc, hpc']
      · simp [in_hand, hpc, hpc']
    | resume d =>
      cases hact
      exact (ha rfl).elim
    | connect identifier => cases hact
    | client_send d msg => cases hact
    | client_close d => cases hact
    | listener i => cases hact
  · exact in_hand_congr ((trans_of_step h).pc_of_ne hact hc) hid

theorem at_lock_of_ne {a : ProxyAct} {c : ConnId} (h : step s a = some t) (hc : c < s.conns) (ha : a ≠ .resume c)
    (hr : a ≠ .read c) : t.at_lock c = s.at_lock c := by
  have hid := owner_id_step h hc
  by_cases hact : actor a = some c
  · cases a with
    | read d =>
      cases hact
      exact (hr rfl).elim
    | receive d ok =>
      cases hact
      obtain ⟨hpc, hpc' | hpc'⟩ := receive_pc h
      · simp [at_lock, hpc, hpc']
      · simp [at_lock, hpc, hpc']
    | resume d =>
      cases hact
      exact (ha rfl).elim
    | connect identifier => cases hact
    | client_send d msg => cases hact
    | client_close d => cases hact
    | listener i => cases hact
  · exact at_lock_congr ((trans_of_step h).pc_of_ne hact hc) hid

theorem in_hand_step {a : ProxyAct} {c : ConnId} (inv : Locked s) (h : step s a = some t) (hc : c < s.conns) :
    (s.pushes a).filterMap (Push.accept c) ++ (t.in_hand c).toList =
      (s.in_hand c).toList ++ (s.accepts a).filter (·.owner = c) := by
  by_cases ha : a = .resume c
  · subst ha
    cases turn_of_resume inv h with
    | accept x hx hm ha hp hlock hhand hlock' hhand' => simp [ha, hp, hhand, hhand', hx]
    | push x hx ha hp hhand hlock' hhand' =>
      subst hx
      simp [ha, hp, hhand, hhand', Push.accept]
    | other ha hp hhand hlock' hhand' =>
      rw [ha, hhand, hhand']
      simpa [List.filterMap_eq_nil_iff] using fun p hp' => by simp [Push.accept, hp p hp']
  · rw [accept_of_ne s ha, accepts_of_ne s ha, in_hand_of_ne h hc ha]
    simp

theorem at_lock_step {a : ProxyAct} {c : ConnId} (inv : Locked s) (h : step s a = some t) (hc : c < s.conns)
    (hr : a ≠ .read c) : (((s.accepts a).filter (·.owner = c)).map (fun x => (x.dest, x.command)) ++
      (t.at_lock c).toList).Sublist (s.at_lock c).toList := by
  by_cases ha : a = .resume c
  · subst ha
    cases turn_of_resume inv h with
    | accept x hx hm ha hp hlock hhand hlock' hhand' => simp [ha, hlock, hlock', hx]
    | push x hx ha hp hhand hlock' hhand' => simp [ha, hlock']
    | other ha hp hhand hlock' hhand' => simp [ha, hlock']
  · rw [accepts_of_ne s ha, at_lock_of_ne h hc ha hr]
    simp

/-! ## Numbers that no connection has yet -/

structure Housed (s : Proxy) : Prop where
  queue : ∀ c, s.conns ≤ c → (s.handlers c).queue = []
  written : ∀ c, s.conns ≤ c → (s.handlers c).written = []
  inbox : ∀ c, s.conns ≤ c → (s.handlers c).inbox = []
  owners : ∀ task ∈ s.listeners, task.owner < s.conns

theorem housed_new : Housed new := ⟨fun _ _ => rfl, fun _ _ => rfl, fun _ _ => rfl, nofun⟩

theorem conns_step {a : ProxyAct} (h : step s a = some t) :
    (∃ identifier, a = .connect identifier ∧ t.conns = s.conns + 1) ∨
      ((∀ identifier, a ≠ .connect identifier) ∧ t.conns = s.conns) := by
  cases stepped_of_step h with
  | connect identifier => exact .inl ⟨identifier, rfl, rfl⟩
  | resume h k =>
    refine .inr ⟨(fun _ he => by cases he), ?_⟩
    cases k <;> rfl
  | listener h k =>
    refine .inr ⟨(fun _ he => by cases he), ?_⟩
    cases k <;> rfl
  | _ => exact .inr ⟨(fun _ he => by cases he), rfl⟩

theorem conns_le {a : ProxyAct} (h : step s a = some t) : s.conns ≤ t.conns := by
  rcases conns_step h with ⟨-, -, hn⟩ | ⟨-, hn⟩
  · rw [hn]
    exact Nat.le_succ _
  · exact Nat.le_of_eq hn.symm

theorem listeners_step {a : ProxyAct} (h : step s a = some t) : ∀ task ∈ t.listeners,
    (∃ task' ∈ s.listeners, task'.owner = task.owner ∧ task'.other_peer = task.other_peer ∧ task'.peer = task.peer) ∨
      a = .resume task.owner ∧ ∃ late, (s.handlers task.owner).pc = .listen task.other_peer task.peer late := by
  have hsame : ∀ task ∈ s.listeners, (∃ task' ∈ s.listeners, task'.owner = task.owner ∧
      task'.other_peer = task.other_peer ∧ task'.peer = task.peer) ∨
        a = .resume task.owner ∧ ∃ late, (s.handlers task.owner).pc = .listen task.other_peer task.peer late :=
    fun task ht => .inl ⟨task, ht, rfl, rfl, rfl⟩
  cases stepped_of_step h with
  | resume h k =>
    cases k with
    | @listen peer_id peer late hpc hout =>
      intro task ht
      rcases List.mem_append.mp ht with ht | ht
      · exact hsame task ht
      · cases List.mem_singleton.mp ht
        exact .inr ⟨rfl, late, hpc⟩
    | _ => exact hsame
  | @listener i _ h k =>
    have hset : ∀ (task : Listener) (pc : TaskPc) (u : Proxy), s.listeners[i]? = some task →
        u.listeners = s.listeners → ∀ task' ∈ (u.set_listener i task pc).listeners,
          ∃ task'' ∈ s.listeners, task''.owner = task'.owner ∧ task''.other_peer = task'.other_peer ∧
            task''.peer = task'.peer := by
      intro task pc u ht hu task' hmem
      rcases List.mem_or_eq_of_mem_set hmem with hmem | rfl
      · exact ⟨task', hu ▸ hmem, rfl, rfl, rfl⟩
      · exact ⟨task, List.mem_of_getElem? ht, rfl, rfl, rfl⟩
    intro task' hmem
    left
    cases k with
    | wake ht hpc hwakes => exact hset _ _ s ht rfl task' hmem
    | owner_ended ht hpc hdone => exact hset _ _ s ht rfl task' hmem
    | tell ht hpc hdone hroom => exact hset _ _ (s.push _ _) ht rfl task' hmem
    | clear ht hpc => exact hset _ _ (s.set _ _) ht rfl task' hmem
  | _ => exact hsame

theorem resume_lt (inv : Locked s) {c : ConnId} (h : s.resume c = some t) : c < s.conns := by
  apply inv.lt_conns
  intro hpc
  unfold resume at h
  simp [hpc] at h

theorem Housed.pushes_lt (hh : Housed s) (inv : Locked s) {a : ProxyAct} (h : step s a = some t) :
    ∀ p ∈ s.pushes a, p.peer < s.conns := by
  have hpeer : ∀ c peer, (s.handlers c).pc.peer = some peer → peer < s.conns := fun c peer hp =>
    inv.lt_of_live (inv.peer c peer hp)
  cases a with
  | resume c =>
    have hc : c < s.conns := resume_lt inv h
    intro p hp
    unfold pushes at hp
    dsimp only at hp
    split at hp
    · next dest peer hpc =>
      split at hp
      · cases hp
      · cases List.mem_singleton.mp hp
        exact hpeer c peer (by rw [hpc]; rfl)
    · next dest val peer hpc =>
      split at hp
      · cases hp
      · cases List.mem_singleton.mp hp
        exact hpeer c peer (by rw [hpc]; rfl)
    · cases List.mem_singleton.mp hp
      exact hc
    · cases hp
  | listener i =>
    intro p hp
    unfold pushes at hp
    dsimp only at hp
    split at hp
    · next task ht =>
      split at hp
      · cases List.mem_singleton.mp hp
        exact hh.owners task (List.mem_of_getElem? ht)
      · cases hp
    · cases hp
  | connect identifier => nofun
  | client_send c msg => nofun
  | client_close c => nofun
  | read c => nofun
  | receive c ok => nofun

theorem to_channel_of_lt {ps : List Push} {n d : ConnId} (h : ∀ p ∈ ps, p.peer < n) (hd : n ≤ d) :
    to_channel ps d = [] := by
  have hnil : ps.filter (·.peer = d) = [] := by
    refine List.filter_eq_nil_iff.mpr fun p hp => ?_
    simpa using Nat.ne_of_lt (Nat.lt_of_lt_of_le (h p hp) hd)
  rw [to_channel, hnil]
  rfl

theorem sent_of_le {a : ProxyAct} (h : step s a = some t) {c : ConnId} (hc : s.conns ≤ c) : sent [a] c = [] := by
  cases a with
  | client_send d msg =>
    simp only [step, Option.ite_none_right_eq_some] at h
    have hd : d ≠ c := Nat.ne_of_lt (Nat.lt_of_lt_of_le h.1.1 hc)
    simp [sent, hd]
  | connect identifier => rfl
  | client_close d => rfl
  | read d => rfl
  | receive d ok => rfl
  | resume d => rfl
  | listener i => rfl

theorem Housed.trans (hh : Housed s) (inv : Locked s) {a : ProxyAct} (h : step s a = some t) : Housed t := by
  have hle : s.conns ≤ t.conns := conns_le h
  have hborn : ∀ c, t.conns ≤ c → ∀ identifier, a = .connect identifier → c ≠ s.conns := by
    rintro c hc identifier rfl rfl
    cases h
    exact Nat.lt_irrefl _ hc
  have hqueue : ∀ c, t.conns ≤ c → (t.handlers c).queue = [] ∧ (t.handlers c).written = [] := by
    intro c hc
    have hsc := Nat.le_trans hle hc
    rcases queue_step h (hborn c hc) with ⟨ok, command, -, hq, -, -⟩ | ⟨hq, hw⟩
    · rw [hh.queue c hsc] at hq
      cases hq
    · rw [hq, hw, hh.queue c hsc, hh.written c hsc, to_channel_of_lt (hh.pushes_lt inv h) hsc]
      exact ⟨rfl, rfl⟩
  refine ⟨fun c hc => (hqueue c hc).1, fun c hc => (hqueue c hc).2, fun c hc => ?_, fun task ht => ?_⟩
  · have hsc := Nat.le_trans hle hc
    rcases inbox_step h (hborn c hc) with ⟨msg, -, -, hi, -⟩ | ⟨hi, -⟩
    · rw [hh.inbox c hsc] at hi
      cases hi
    · rw [hi, hh.inbox c hsc, sent_of_le h hsc]
      rfl
  · rcases listeners_step h task ht with ⟨task', ht', ho, -⟩ | ⟨ha, -⟩
    · rw [← ho]
      exact Nat.lt_of_lt_of_le (hh.owners task' ht') hle
    · subst ha
      exact Nat.lt_of_lt_of_le (resume_lt inv h) hle

theorem housed_of_run {as : List ProxyAct} (h : machine.run new as = some s) : Housed s :=
  Machine.history_invariant (I := fun _ s => Housed s) housed_new
    (fun _ _ _ _ hrun hh hs => hh.trans (locked_of_run hrun) hs) h

theorem newborn (hh : Housed s) (inv : Locked s) {a : ProxyAct} (h : step s a = some t) {c : ConnId}
    (hc : s.conns ≤ c) : (t.handlers c).queue = [] ∧ (t.handlers c).written = [] ∧ (t.handlers c).inbox = [] ∧
      t.in_hand c = none ∧ t.at_lock c = none := by
  have hpcs : (t.handlers c).pc = .absent ∨ (t.handlers c).pc = .registering ∨ (t.handlers c).pc = .done := by
    have inv' := inv.trans (trans_of_step h)
    rcases conns_step h with ⟨identifier, rfl, hn⟩ | ⟨-, hn⟩
    · cases h
      by_cases hd : c = s.conns
      · by_cases hid : owner_id_bytes identifier = [] <;> simp [connect, hd, hid]
      · exact .inl (inv'.fresh c (by rw [hn]; exact Nat.lt_of_le_of_ne hc (Ne.symm hd)))
    · exact .inl (inv'.fresh c (hn ▸ hc))
  have hnone : t.in_hand c = none ∧ t.at_lock c = none := by
    rcases hpcs with h | h | h <;> simp [in_hand, at_lock, h]
  by_cases hd : t.conns ≤ c
  · have hh' := hh.trans inv h
    exact ⟨hh'.queue c hd, hh'.written c hd, hh'.inbox c hd, hnone⟩
  · rcases conns_step h with ⟨identifier, rfl, hn⟩ | ⟨-, hn⟩
    · cases h
      have hd : c = s.conns := by
        rw [hn] at hd
        exact Nat.le_antisymm (Nat.lt_succ_iff.mp (Nat.lt_of_not_le hd)) hc
      subst hd
      exact ⟨by simp [connect, Handler.none], by simp [connect, Handler.none], by simp [connect, Handler.none], hnone⟩
    · exact (hd (hn ▸ hc)).elim

theorem ended_step {a : ProxyAct} {c : ConnId} (h : step s a = some t) (hlt : c < s.conns)
    (hc : (s.handlers c).pc = .teardown ∨ (s.handlers c).pc = .done) :
    (t.handlers c).pc = .teardown ∨ (t.handlers c).pc = .done := by
  by_cases ha : actor a = some c
  · cases a with
    | read d =>
      cases ha
      simp only [step, read] at h
      rcases hc with hc | hc <;> simp [hc] at h
    | receive d ok =>
      cases ha
      have hpc := (receive_pc h).1
      rcases hc with hc | hc <;> simp [hc] at hpc
    | resume d =>
      cases ha
      simp only [step, resume] at h
      rcases hc with hc | hc
      · simp only [hc, Option.ite_none_right_eq_some, Option.some.injEq] at h
        obtain ⟨-, rfl⟩ := h
        simp
      · simp [hc] at h
    | connect identifier => cases ha
    | client_send d msg => cases ha
    | client_close d => cases ha
    | listener i => cases ha
  · rwa [(trans_of_step h).pc_of_ne ha hlt]

/-! ## What a run has pushed, accepted and read -/

theorem pushed_snoc {as : List ProxyAct} (h : machine.run new as = some s) (a : ProxyAct) (b : ConnId) :
    pushed (as ++ [a]) b = pushed as b ++ (s.pushes a).filter (·.peer = b) := by
  rw [pushed, Machine.trace_snoc _ _ h, List.filter_append]
  rfl

theorem sent_snoc (as : List ProxyAct) (a : ProxyAct) (c : ConnId) : sent (as ++ [a]) c = sent as c ++ sent [a] c :=
  List.filterMap_append

/-- What was put on a channel is what was written, then what was lost when the websocket broke, then what is still in
the channel. -/
def Channel (as : List ProxyAct) (s : Proxy) (b : ConnId) : Prop :=
  ∃ down lost up, pushed as b = down ++ lost ++ up ∧ up.map (·.command) = (s.handlers b).queue ∧
    (s.handlers b).written = down.map (fun p => to_message (s.handlers b).owner_id p.command) ∧
    (lost ≠ [] → (s.handlers b).pc = .teardown ∨ (s.handlers b).pc = .done)

theorem channel_step {as : List ProxyAct} {a : ProxyAct} {b : ConnId} (hrun : machine.run new as = some s)
    (hch : Channel as s b) (h : step s a = some t) : Channel (as ++ [a]) t b := by
  have inv := locked_of_run hrun
  have hh := housed_of_run hrun
  obtain ⟨down, lost, up, hp, hq, hw, hl⟩ := hch
  rcases Nat.lt_or_ge b s.conns with hb | hb
  · have hid := owner_id_step h hb
    rw [← hid] at hw
    rcases queue_step h (fun _ _ => Nat.ne_of_lt hb) with ⟨ok, command, rfl, hq', hnil, hwr⟩ | ⟨hq', hwr⟩
    · obtain ⟨p, up, rfl, rfl, hup⟩ := List.map_eq_cons_iff.mp (hq.trans hq')
      have hnl : lost = [] := by
        by_contra hne
        have hpc := (receive_pc h).1
        rcases hl hne with hc | hc <;> simp [hc] at hpc
      subst hnl
      have hp' : pushed (as ++ [ProxyAct.receive b ok]) b = down ++ [] ++ p :: up := by
        rw [pushed_snoc hrun, hnil, hp]
        simp
      cases ok with
      | true => exact ⟨down ++ [p], [], up, by simp [hp'], hup, by simpa [hw, hid] using hwr, fun h => (h rfl).elim⟩
      | false => exact ⟨down, [p], up, by simp [hp'], hup, hwr.1.trans hw, fun _ => .inl hwr.2⟩
    · refine ⟨down, lost, up ++ (s.pushes a).filter (·.peer = b), ?_, ?_, hwr.trans hw, fun hne => ended_step h hb (hl hne)⟩
      · rw [pushed_snoc hrun, hp, List.append_assoc _ up]
      · rw [hq', List.map_append, hq]
        rfl
  · -- nothing was ever sent to a connection that is not there
    have hnil := hh.queue b hb
    have hdown : down = [] := by simpa [hh.written b hb] using hw
    have hup : up = [] := by simpa [hnil] using hq
    have hlost : lost = [] := by
      by_contra hne
      rcases hl hne with hc | hc <;> simp [inv.fresh b hb] at hc
    subst hdown hup hlost
    obtain ⟨hq', hw', -⟩ := newborn hh inv h hb
    refine ⟨[], [], [], ?_, hq'.symm, hw', fun h => (h rfl).elim⟩
    have hnone := to_channel_of_lt (hh.pushes_lt inv h) hb
    rw [pushed_snoc hrun, hp, List.map_eq_nil_iff.mp hnone]
    rfl

theorem channel_of_run {as : List ProxyAct} (h : machine.run new as = some s) (b : ConnId) : Channel as s b :=
  Machine.history_invariant (I := fun as s => Channel as s b) ⟨[], [], [], rfl, rfl, rfl, fun h => (h rfl).elim⟩
    (fun _ _ _ _ hrun hch hs => channel_step hrun hch hs) h

/-- Every frame that was accepted is addressed to the loop that was found. -/
def Located (as : List ProxyAct) (s : Proxy) : Prop := ∀ x ∈ machine.trace accepts new as,
  x.owner < s.conns ∧ x.peer < s.conns ∧ (s.handlers x.peer).owner_id = x.dest

theorem located_step {as : List ProxyAct} {a : ProxyAct} (hrun : machine.run new as = some s) (hx : Located as s)
    (h : step s a = some t) : Located (as ++ [a]) t := by
  have inv := locked_of_run hrun
  have hle : s.conns ≤ t.conns := conns_le h
  have hkeep : ∀ x : Accept, x.owner < s.conns → x.peer < s.conns → (s.handlers x.peer).owner_id = x.dest →
      x.owner < t.conns ∧ x.peer < t.conns ∧ (t.handlers x.peer).owner_id = x.dest := fun x ho hp hid =>
    ⟨Nat.lt_of_lt_of_le ho hle, Nat.lt_of_lt_of_le hp hle, (owner_id_step h hp).trans hid⟩
  intro x hmem
  rw [Machine.trace_snoc _ _ hrun, List.mem_append] at hmem
  rcases hmem with hmem | hmem
  · obtain ⟨ho, hp, hid⟩ := hx x hmem
    exact hkeep x ho hp hid
  · cases a with
    | resume c =>
      cases turn_of_resume inv h with
      | accept y hy hm ha hp hlock hhand hlock' hhand' =>
        rw [ha] at hmem
        cases List.mem_singleton.mp hmem
        obtain ⟨hlive, hid⟩ := inv.registered _ _ hm
        exact hkeep x (hy ▸ resume_lt inv h) (inv.lt_of_live hlive) hid
      | push y hy ha hp hhand hlock' hhand' =>
        rw [ha] at hmem
        cases hmem
      | other ha hp hhand hlock' hhand' =>
        rw [ha] at hmem
        cases hmem
    | connect identifier => cases hmem
    | client_send d msg => cases hmem
    | client_close d => cases hmem
    | read d => cases hmem
    | receive d ok => cases hmem
    | listener i => cases hmem

theorem located_of_run {as : List ProxyAct} (h : machine.run new as = some s) : Located as s :=
  Machine.history_invariant (I := Located) nofun (fun _ _ _ _ hrun hx hs => located_step hrun hx hs) h

def accepts_of (as : List ProxyAct) (c : ConnId) : List Accept := (machine.trace accepts new as).filter (·.owner = c)

theorem accepts_of_snoc {as : List ProxyAct} (h : machine.run new as = some s) (a : ProxyAct) (c : ConnId) :
    accepts_of (as ++ [a]) c = accepts_of as c ++ (s.accepts a).filter (·.owner = c) := by
  rw [accepts_of, Machine.trace_snoc _ _ h, List.filter_append]
  rfl

theorem accepts_of_of_le {as : List ProxyAct} (h : machine.run new as = some s) {c : ConnId} (hc : s.conns ≤ c) :
    accepts_of as c = [] := by
  refine List.filter_eq_nil_iff.mpr fun x hx => ?_
  simpa using Nat.ne_of_lt (Nat.lt_of_lt_of_le (located_of_run h x hx).1 hc)

theorem resume_ne (inv : Locked s) {a : ProxyAct} {c : ConnId} (h : step s a = some t) (hc : s.conns ≤ c) :
    a ≠ .resume c := by
  rintro rfl
  exact Nat.lt_irrefl _ (Nat.lt_of_lt_of_le (resume_lt inv h) hc)

/-- What a loop has accepted is what it has put on the channels, in that order, and what it has in hand. -/
theorem accepts_of_run {as : List ProxyAct} (h : machine.run new as = some s) (c : ConnId) :
    (machine.trace pushes new as).filterMap (Push.accept c) ++ (s.in_hand c).toList = accepts_of as c := by
  refine Machine.history_invariant (M := machine)
    (I := fun as s => (machine.trace pushes new as).filterMap (Push.accept c) ++ (s.in_hand c).toList = accepts_of as c)
    rfl ?_ h
  intro as s a t hrun ih hs
  have inv := locked_of_run hrun
  rw [Machine.trace_snoc _ _ hrun, List.filterMap_append, List.append_assoc, accepts_of_snoc hrun]
  rcases Nat.lt_or_ge c s.conns with hc | hc
  · rw [in_hand_step inv hs hc, ← List.append_assoc, ih]
  · have ha := resume_ne inv hs hc
    have hnone : s.in_hand c = none := by simp [in_hand, inv.fresh c hc]
    obtain ⟨-, -, -, hnone', -⟩ := newborn (housed_of_run hrun) inv hs hc
    rw [accept_of_ne s ha, accepts_of_ne s ha, ← ih, hnone, hnone']
    simp

/-- What a loop has read of what its client sent, and what it has accepted of that. -/
def Reads (as : List ProxyAct) (s : Proxy) (c : ConnId) : Prop :=
  ∃ seen, sent as c = seen ++ (s.handlers c).inbox ∧
    ((accepts_of as c).map (fun x => (x.dest, x.command)) ++ (s.at_lock c).toList).Sublist
      (seen.filterMap (relayed (s.handlers c).owner_id))

theorem reads_step {as : List ProxyAct} {a : ProxyAct} {c : ConnId} (hrun : machine.run new as = some s)
    (hr : Reads as s c) (h : step s a = some t) : Reads (as ++ [a]) t c := by
  have inv := locked_of_run hrun
  obtain ⟨seen, hsent, hsub⟩ := hr
  rcases Nat.lt_or_ge c s.conns with hc | hc
  · have hid := owner_id_step h hc
    rw [← hid] at hsub
    have hne : ProxyAct.read c ≠ .resume c := nofun
    rcases inbox_step h (fun _ _ => Nat.ne_of_lt hc) with ⟨msg, rfl, hpc, hi, hpc'⟩ | ⟨hi, hend⟩
    · refine ⟨seen ++ [msg], by rw [sent_snoc, hsent, hi]; simp [sent], ?_⟩
      have hlock : s.at_lock c = none := by simp [at_lock, hpc]
      rw [hlock, Option.toList_none, List.append_nil] at hsub
      rw [accepts_of_snoc hrun, accepts_of_ne s hne, List.append_nil, at_lock_on_message hpc', List.filterMap_append]
      apply hsub.append
      cases hm : relayed (t.handlers c).owner_id msg <;> simp [hm]
    · refine ⟨seen, by rw [sent_snoc, hsent, hi, List.append_assoc], ?_⟩
      by_cases hread : a = .read c
      · have hlock' : t.at_lock c = none := by simp [at_lock, (hend hread).2]
        rw [accepts_of_snoc hrun, hread, accepts_of_ne s hne, List.append_nil, hlock', Option.toList_none,
          List.append_nil]
        exact (List.sublist_append_left _ _).trans hsub
      · rw [accepts_of_snoc hrun, List.map_append, List.append_assoc]
        exact ((List.Sublist.refl _).append (at_lock_step inv h hc hread)).trans hsub
  · have hh := housed_of_run hrun
    obtain ⟨-, -, hi', -, hlock'⟩ := newborn hh inv h hc
    refine ⟨seen, by rw [sent_snoc, hsent, hh.inbox c hc, hi', sent_of_le h hc, List.append_nil], ?_⟩
    rw [accepts_of_snoc hrun, accepts_of_of_le hrun hc, accepts_of_ne s (resume_ne inv h hc), hlock']
    exact List.nil_sublist _

theorem reads_of_run {as : List ProxyAct} (h : machine.run new as = some s) (c : ConnId) : Reads as s c := by
  have h₀ : Reads [] new c := ⟨[], rfl, .slnil⟩
  exact Machine.history_invariant (I := fun as s => Reads as s c) h₀ (fun _ _ _ _ hrun hr hs => reads_step hrun hr hs) h

/-! ## The relay -/

theorem accepted_eq (as : List ProxyAct) (a b : ConnId) :
    accepted as a b = ((accepts_of as a).filter (·.peer = b)).map (·.command) := by
  unfold accepted accepts_of
  rw [List.filter_filter]
  congr 2
  funext x
  simp [Bool.and_comm]

theorem Push.accept_eq_some {c : ConnId} {p : Push} {x : Accept} (h : p.accept c = some x) :
    p.origin = .frame c x.dest ∧ x = ⟨c, x.dest, p.peer, p.command⟩ := by
  unfold Push.accept at h
  split at h
  · next owner dest ho =>
    by_cases hc : owner = c
    · subst hc
      cases (if_pos rfl).symm.trans h
      exact ⟨ho, rfl⟩
    · rw [if_neg hc] at h
      cases h
  · cases h
  · cases h

theorem filter_accept (ps : List Push) (a b : ConnId) :
    (ps.filterMap (Push.accept a)).filter (·.peer = b) = (ps.filter (·.peer = b)).filterMap (Push.accept a) := by
  induction ps with
  | nil => rfl
  | cons p ps ih =>
    cases hp : p.accept a with
    | none =>
      rw [List.filterMap_cons_none hp, ih]
      by_cases hb : p.peer = b <;> simp [hb, hp]
    | some x =>
      obtain ⟨-, hx⟩ := Push.accept_eq_some hp
      have hpeer : x.peer = p.peer := by rw [hx]
      rw [List.filterMap_cons_some hp]
      by_cases hb : p.peer = b <;> simp [hb, hpeer, hp, ih]

section
variable {as : List ProxyAct} (h : machine.run new as = some s)
include h

/-- The frames that caused what went down a channel were accepted in that order, and none that was accepted before them
is missing. -/
theorem caused_isPrefix {a b : ConnId} {down rest : List Push} (hp : pushed as b = down ++ rest) :
    (down.filterMap (Push.accept a)).map (·.command) <+: accepted as a b := by
  have hall := accepts_of_run h a
  rw [accepted_eq, ← hall, List.filter_append, filter_accept, ← pushed, hp, List.filterMap_append, List.append_assoc,
    List.map_append]
  exact List.prefix_append _ _

/-- What was accepted for `b` is among what the client of `a` addressed to `b`, in the order it was sent. -/
theorem accepted_sublist (a b : ConnId) : (accepted as a b).Sublist
    ((((sent as a).filterMap (relayed (s.handlers a).owner_id)).filter (·.1 = (s.handlers b).owner_id)).map (·.2)) := by
  obtain ⟨seen, hsent, hsub⟩ := reads_of_run h a
  have hfound : (accepts_of as a).filter (·.peer = b) =
      ((accepts_of as a).filter (·.dest = (s.handlers b).owner_id)).filter (·.peer = b) := by
    rw [List.filter_filter]
    apply List.filter_congr
    intro x hx
    obtain ⟨-, -, hid⟩ := located_of_run h x (List.mem_filter.mp hx).1
    by_cases hb : x.peer = b
    · simp [hb, ← hid]
    · simp [hb]
  have hseen : ((accepts_of as a).map fun x => (x.dest, x.command)).Sublist
      ((sent as a).filterMap (relayed (s.handlers a).owner_id)) := by
    rw [hsent, List.filterMap_append]
    exact ((List.sublist_append_left _ _).trans hsub).trans (List.sublist_append_left _ _)
  have hdest : (((accepts_of as a).map fun x => (x.dest, x.command)).filter (·.1 = (s.handlers b).owner_id)).map (·.2) =
      ((accepts_of as a).filter (·.dest = (s.handlers b).owner_id)).map (·.command) := by
    rw [List.filter_map, List.map_map]
    rfl
  rw [accepted_eq, hfound]
  apply (List.filter_sublist.map _).trans
  rw [← hdest]
  exact (hseen.filter _).map _

theorem pushed_dest {b c : ConnId} {dest : Bytes} {p : Push} (hp : p ∈ pushed as b) (ho : p.origin = .frame c dest) :
    dest = (s.handlers b).owner_id := by
  obtain ⟨hp, hb⟩ := List.mem_filter.mp hp
  have hacc : p.accept c = some ⟨c, dest, p.peer, p.command⟩ := by simp [Push.accept, ho]
  have hmem : (⟨c, dest, p.peer, p.command⟩ : Accept) ∈ accepts_of as c := by
    rw [← accepts_of_run h c]
    exact List.mem_append_left _ (List.mem_filterMap.mpr ⟨p, hp, hacc⟩)
  obtain ⟨-, -, hid⟩ := located_of_run h _ (List.mem_filter.mp hmem).1
  have hb : p.peer = b := by simpa using hb
  rw [← hb]
  exact hid.symm

omit h in
theorem written_for_eq (a_id b_id : Bytes) (msgs : List Message) :
    (((msgs.filterMap (relayed a_id)).filter (·.1 = b_id)).map (·.2)).map (to_message b_id) =
      msgs.filterMap fun
        | .Binary msg =>
          if msg.take PUBKEY_BYTES_LEN = b_id ∧ PUBKEY_BYTES_LEN ≤ msg.length then
            some (.Binary (a_id ++ msg.drop PUBKEY_BYTES_LEN))
          else none
        | .Text (some (.Disconnect to_ _)) => if to_ = b_id then some (.Text (some (.Disconnect b_id a_id))) else none
        | .Text none | .Other => none := by
  rw [List.map_map]
  induction msgs with
  | nil => rfl
  | cons msg msgs ih =>
    rw [List.filterMap_cons, List.filterMap_cons, ← ih]
    cases msg with
    | Text text =>
      rcases text with _ | ⟨to_, from_⟩
      · rfl
      · by_cases hto : to_ = b_id
        · simp [relayed, hto, to_message]
        · simp [relayed, hto]
    | Binary msg =>
      by_cases hl : msg.length < PUBKEY_BYTES_LEN
      · simp [relayed, hl, Nat.not_le.mpr hl]
      · have hle := Nat.not_lt.mp hl
        by_cases hto : msg.take PUBKEY_BYTES_LEN = b_id
        · simp [relayed, hl, hle, hto, to_message]
        · simp [relayed, hl, hto]
    | Other => rfl

/-- What was written to the websocket of `b` is, in order, a first part of what was put on its channel. Of that, what the
frames of `a` caused is a first part of what the loop of `a` accepted for `b`, and that is taken in order from what the
client of `a` addressed to `b`. So a message that a frame of `a` caused is the identifier of `a` with what follows the
first 33 bytes of the frame, or tells of a disconnect; and it is written only to a connection with the identifier that the
frame is addressed to. -/
theorem relay_correct (a b : ConnId) : ∃ down rest, pushed as b = down ++ rest ∧
    (s.handlers b).written = down.map (fun p => to_message (s.handlers b).owner_id p.command) ∧
    (down.filterMap (Push.accept a)).map (·.command) <+: accepted as a b ∧
    (accepted as a b).Sublist ((((sent as a).filterMap (relayed (s.handlers a).owner_id)).filter
      (·.1 = (s.handlers b).owner_id)).map (·.2)) ∧
    ((down.filterMap (Push.accept a)).map fun x => to_message (s.handlers b).owner_id x.command).Sublist
      ((sent as a).filterMap fun
        | .Binary msg =>
          if msg.take PUBKEY_BYTES_LEN = (s.handlers b).owner_id ∧ PUBKEY_BYTES_LEN ≤ msg.length then
            some (.Binary ((s.handlers a).owner_id ++ msg.drop PUBKEY_BYTES_LEN))
          else none
        | .Text (some (.Disconnect to_ _)) =>
          if to_ = (s.handlers b).owner_id then
            some (.Text (some (.Disconnect (s.handlers b).owner_id (s.handlers a).owner_id)))
          else none
        | .Text none | .Other => none) ∧
    ∀ p ∈ down, ∀ c dest, p.origin = .frame c dest → dest = (s.handlers b).owner_id := by
  obtain ⟨down, lost, up, hp, -, hw, -⟩ := channel_of_run h b
  rw [List.append_assoc] at hp
  have hcaused := caused_isPrefix h (a := a) hp
  have hframes := accepted_sublist h a b
  refine ⟨down, lost ++ up, hp, hw, hcaused, hframes, ?_, fun p hmem c dest ho =>
    pushed_dest h (hp ▸ List.mem_append_left _ hmem) ho⟩
  have hwritten := (hcaused.sublist.trans hframes).map (to_message (s.handlers b).owner_id)
  rw [written_for_eq, List.map_map] at hwritten
  exact hwritten

end

def hello : List ProxyAct :=
  [.connect "020202020202020202020202020202020202020202020202020202020202020202",
    .connect "030303030303030303030303030303030303030303030303030303030303030303", .resume 0, .resume 1,
    .client_send 0 (.Binary (.replicate 33 3 ++ [7])), .read 0, .resume 0, .resume 0, .receive 1 true]

theorem relay_correct_hello : ∃ s, machine.run new hello = some s ∧
    (s.handlers 1).written = [.Binary (.replicate 33 2 ++ [7])] ∧
    ∃ down rest, pushed hello 1 = down ++ rest ∧
      (s.handlers 1).written = down.map (fun p => to_message (s.handlers 1).owner_id p.command) ∧
      (down.filterMap (Push.accept 0)).map (·.command) <+: accepted hello 0 1 ∧
      (accepted hello 0 1).Sublist [.Send (.replicate 33 2) [7]] ∧
      ((down.filterMap (Push.accept 0)).map fun x => to_message (s.handlers 1).owner_id x.command).Sublist
        [.Binary (.replicate 33 2 ++ [7])] ∧
      ∀ p ∈ down, ∀ c dest, p.origin = .frame c dest → dest = .replicate 33 3 := by
  refine ⟨_, rfl, rfl, ?_⟩
  exact relay_correct rfl 0 1

end Proxy

end Mutiny
