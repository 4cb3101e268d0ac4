import Mathlib.Algebra.BigOperators.Intervals
import Mutiny.Mesh
import Mutiny.Potential

/-!
# Disconnects and their echoes

A listener that handles a `Disconnect` sends one back, and takes the subsocket out of its map. So the entries of all
maps pay for what the listeners send. What is on its way is carried on step by step, and the number of steps that it and the
answers to it can still take is a potential of the whole mesh.
-/

namespace Mutiny

def Gloo.Message.is_disconnect : Gloo.Message → Bool
  | .Text (some (.Disconnect _ _)) => true
  | .Text none | .Bytes _ => false

def Message.is_disconnect : Message → Bool
  | .Text (some (.Disconnect _ _)) => true
  | .Text none | .Binary _ | .Other => false

def MutinyWSCommand.is_disconnect : MutinyWSCommand → Bool
  | .Disconnect _ => true
  | .Send _ _ => false

namespace Client

/-- What the listener puts into the channel of the subsockets in a step. -/
def listener_output (s : Client) (a : ClientAct) : List Gloo.Message :=
  match a with
  | .reader _ | .create _ _ => (s.step a).elim [] fun t => t.channel.drop s.channel.length
  | _ => []

/-- The step makes no subsocket, and neither the node nor LDK begins to disconnect one. -/
def Calm (s : Client) : ClientAct → Prop
  | .connect_peer peer .Mutiny _ => peer ∈ s.get_peer_node_ids
  | .create _ _ => False
  | .ldk_disconnect d => (s.descriptors d).kind = .Tcp
  | .reconnect _ => s.socket_map = ∅
  | .connect_peer _ .Tcp _ | .handshake _ _ | .ldk_send _ _ | .proxy_send _ _ | .proxy_close _ | .reader _ | .sender _
  | .read _ _ _ => True

/-- The step takes a disconnect that is on its way. -/
def Carries (s : Client) : ClientAct → Bool
  | .reader k => (s.incoming k).head?.any fun msg => msg.any (·.is_disconnect)
  | .sender _ => s.channel.head?.any (·.is_disconnect)
  | _ => false

/-- The disconnects that the websockets have brought and no reader has read. -/
def unread (s : Client) : Nat :=
  ∑ k ∈ Finset.range s.conns, (s.incoming k).countP fun msg => msg.any (·.is_disconnect)

/-- An entry can still be answered for, with a disconnect that goes the whole way. -/
def steps_left (s : Client) : Nat :=
  6 * s.socket_map.keys.length + 6 * s.channel.countP (·.is_disconnect) + s.unread

end Client

/-- A loop that looks for the addressee of a disconnect, or has found it. -/
def Pc.steps_left : Pc → Nat
  | .lock_disconnect _ => 4
  | .send_disconnect _ _ => 3
  | .absent | .registering | .select | .lock_send _ _ | .drop_peer _ | .send_message _ _ _ | .subscribe _ _
  | .listen _ _ _ | .send_self _ | .teardown | .done => 0

def Handler.steps_left (h : Handler) : Nat :=
  5 * h.inbox.countP (·.is_disconnect) + h.pc.steps_left + 2 * h.queue.countP (·.is_disconnect)

namespace Proxy

def Carries (s : Proxy) : ProxyAct → Bool
  | .read c => (s.handlers c).inbox.head?.any (·.is_disconnect)
  | .receive c _ => (s.handlers c).queue.head?.any (·.is_disconnect)
  | .resume c => (s.handlers c).pc.steps_left ≠ 0
  | _ => false

/-- The disconnects that the proxy sends of its own: for a peer that is not there, or has gone. -/
def begun (s : Proxy) (a : ProxyAct) : List Push :=
  (s.pushes a).filter fun p =>
    match p.origin with
    | .frame _ _ => false
    | .reply | .listener _ => true

def steps_left (s : Proxy) : Nat := ∑ c ∈ Finset.range s.conns, (s.handlers c).steps_left

end Proxy

namespace Mesh

def entries (s : Mesh) : Nat := ∑ i ∈ Finset.range s.nodes, (s.clients i).socket_map.keys.length

/-- The disconnects that a listener sends. -/
def echoes (s : Mesh) : MeshAct → List Gloo.Message
  | .client i a => ((s.clients i).listener_output a).filter (·.is_disconnect)
  | _ => []

def Calm (s : Mesh) : MeshAct → Prop
  | .client i a => (s.clients i).Calm a
  | .reconnect i order => (s.clients i).Calm (.reconnect order)
  | .start _ | .sender _ _ | .proxy _ | .write _ _ _ | .close _ _ => True

/-- How many steps the disconnects on their way and the answers to them can take. -/
def steps_left (s : Mesh) : Nat := ∑ i ∈ Finset.range s.nodes, (s.clients i).steps_left + s.proxy.steps_left

def Carries (s : Mesh) : MeshAct → Bool
  | .client i a => (s.clients i).Carries a
  | .sender i k => (s.clients i).Carries (.sender k)
  | .proxy a => s.proxy.Carries a
  | .write i k ok => s.proxy.Carries (.receive (s.link i k) ok)
  | .start _ | .reconnect _ _ | .close _ _ => false

def carried (s : Mesh) (a : MeshAct) : List MeshAct := if s.Carries a then [a] else []

def begun (s : Mesh) : MeshAct → List Push
  | .proxy a => s.proxy.begun a
  | _ => []

end Mesh

/-! ## What a listener answers -/

namespace Client

variable {s t : Client}

inductive Heard (s : Client) (k : ConnId) (t : Client) : Prop where
  | ended (hi : s.incoming k = []) (hin : t.incoming = s.incoming) (hc : t.channel = s.channel)
      (hm : t.socket_map = s.socket_map)
  | quiet {msg : Option Gloo.Message} {rest : List (Option Gloo.Message)} (hi : s.incoming k = msg :: rest)
      (hin : t.incoming = Function.update s.incoming k rest) (hc : t.channel = s.channel)
      (hm : t.socket_map = s.socket_map)
  | echo {to_ from_ : Bytes} {d : DescId} {rest : List (Option Gloo.Message)} {l : List Gloo.Message}
      (hi : s.incoming k = some (.Text (some (.Disconnect to_ from_))) :: rest)
      (hin : t.incoming = Function.update s.incoming k rest) (hl : s.socket_map.lookup from_ = some d)
      (hc : t.channel = s.channel ++ l) (hlen : l.length ≤ 1) (hm : t.socket_map = s.socket_map.erase from_) :
      Heard s k t

theorem heard_of_reader {k : ConnId} (h : s.reader k = some t) : Heard s k t := by
  unfold reader at h
  split at h
  · cases h
  · split at h
    · next hi =>
      simp only [Option.ite_none_right_eq_some, Option.some.injEq] at h
      obtain ⟨-, rfl⟩ := h
      exact .ended hi rfl rfl rfl
    · next msg rest hi =>
      rcases msg with _ | (_ | ⟨to_, from_⟩) | msg <;> simp only [Option.some.injEq] at h <;> subst h
      · exact .quiet hi rfl rfl rfl
      · exact .quiet hi rfl rfl rfl
      · unfold on_command
        dsimp only
        split
        · next d hd =>
          refine .echo hi ?_ hd (channel_disconnect_socket { s with incoming := _ } d) ?_ rfl
          · exact congrArg (·.1) (line_disconnect_socket { s with incoming := _ } d)
          · split <;> simp
        · exact .quiet hi rfl rfl rfl
      · unfold on_bytes
        split
        · exact .quiet hi rfl rfl rfl
        · split
          · exact .quiet hi rfl rfl rfl
          · exact .quiet hi rfl rfl rfl

/-- What is on its way to a node comes by a websocket that it has opened. -/
def Opened (s : Client) : Prop := ∀ k, s.conns ≤ k → s.incoming k = []

theorem line_foldl_drop (order : List Bytes) (s : Client) : (order.foldl drop_subsocket s).line = s.line := by
  induction order generalizing s with
  | nil => rfl
  | cons p order ih =>
    rw [List.foldl_cons, ih]
    unfold drop_subsocket
    split
    · exact line_disconnect_socket _ _
    · rfl

theorem sender_cases {k : ConnId} (h : s.sender k = some t) : t.incoming = s.incoming ∧ t.socket_map = s.socket_map ∧
    t.conns = s.conns ∧ (s.channel = [] ∧ t.channel = [] ∧ t.sent k = s.sent k ∨
      ∃ msg, s.channel = msg :: t.channel ∧ t.sent k = s.sent k ++ [msg]) := by
  unfold sender at h
  split at h
  · cases hc : s.channel with
    | nil =>
      simp only [hc] at h
      split at h
      · cases h
        exact ⟨rfl, rfl, rfl, .inl ⟨rfl, hc, rfl⟩⟩
      · cases h
        exact ⟨rfl, rfl, rfl, .inl ⟨rfl, rfl, rfl⟩⟩
    | cons msg rest =>
      simp only [hc] at h
      split at h
      · cases h
        exact ⟨rfl, rfl, rfl, .inr ⟨msg, rfl, by simp⟩⟩
      · cases h
        exact ⟨rfl, rfl, rfl, .inr ⟨msg, rfl, by simp⟩⟩
  · cases h

theorem opened_step {a : ClientAct} (inv : Opened s) (h : step s a = some t) : Opened t := by
  have hle : s.conns ≤ t.conns := by
    rcases senders_step h with ⟨-, -, -, hn, -⟩ | ⟨-, hn, -⟩
    · omega
    · omega
  have hkeep : t.incoming = s.incoming → Opened t := by
    intro hin k hk
    rw [hin]
    exact inv k (Nat.le_trans hle hk)
  have hline : t.line = s.line → Opened t := fun hl => hkeep (congrArg (·.1) hl)
  cases a with
  | connect_peer peer connection_type answer => exact hline (output_connect_peer h).1
  | handshake d node_id => exact hline (output_own rfl h).1
  | ldk_send d data => exact hline (output_own rfl h).1
  | ldk_disconnect d => exact hline (output_own rfl h).1
  | read d event ok => exact hline (output_read h).1
  | proxy_send k msg =>
    simp only [step, Option.ite_none_right_eq_some, Option.some.injEq] at h
    obtain ⟨⟨hk, -⟩, rfl⟩ := h
    intro j hj
    have hne : j ≠ k := Nat.ne_of_gt (Nat.lt_of_lt_of_le hk hj)
    simpa [hne] using inv j hj
  | proxy_close k =>
    simp only [step, Option.ite_none_right_eq_some, Option.some.injEq] at h
    obtain ⟨-, rfl⟩ := h
    exact hkeep rfl
  | reader k =>
    have hpop : ∀ {msg rest}, s.incoming k = msg :: rest → t.incoming = Function.update s.incoming k rest →
        Opened t := by
      intro msg rest hi hin j hj
      have hsj := inv j (Nat.le_trans hle hj)
      have hne : j ≠ k := by
        rintro rfl
        rw [hi] at hsj
        cases hsj
      rw [hin, Function.update_of_ne hne]
      exact hsj
    cases heard_of_reader h with
    | ended hi hin hc hm => exact hkeep hin
    | quiet hi hin hc hm => exact hpop hi hin
    | echo hi hin hl hc hlen hm => exact hpop hi hin
  | create k ok =>
    obtain ⟨id, message, -, hl, -⟩ := output_go_on h
    exact hkeep (congrArg (·.1) hl)
  | sender k => exact hkeep (sender_cases h).1
  | reconnect order =>
    simp only [step, reconnect, Option.ite_none_right_eq_some, Option.some.injEq] at h
    obtain ⟨-, rfl⟩ := h
    exact hkeep (congrArg (·.1) (line_foldl_drop order s))

theorem opened_of_run {our_peer_pubkey : Bytes} {as : List ClientAct}
    (h : machine.run (new our_peer_pubkey) as = some s) : Opened s :=
  Machine.invariant (I := Opened) (fun _ _ _ inv hs => opened_step inv hs) (fun _ _ => rfl) h

/-! ## The steps of a node -/

theorem keys_erase_length {α β : Type} [DecidableEq α] {m : AList fun _ : α => β} {p : α} {d : β}
    (h : m.lookup p = some d) : (m.erase p).keys.length + 1 = m.keys.length := by
  have hmem : p ∈ m.keys := AList.mem_keys.mp (AList.lookup_isSome.mp (by rw [h]; rfl))
  rw [AList.keys_erase]
  exact List.length_erase_add_one hmem

/-- Without a disconnect of its own, a step of the user or of LDK leaves the map and what is on its way as they are. -/
theorem own_calm {a : ClientAct} (ha : a.is_own) (hcalm : s.Calm a) (h : step s a = some t) :
    t.socket_map = s.socket_map ∧ t.incoming = s.incoming ∧ t.conns = s.conns ∧
      t.channel.countP (·.is_disconnect) = s.channel.countP (·.is_disconnect) := by
  obtain ⟨hline, hchannel⟩ := output_own ha h
  have hout : (s.output a).countP (·.is_disconnect) = 0 := by
    apply List.countP_eq_zero.mpr
    intro msg hmsg
    unfold output at hmsg
    split at hmsg
    · split at hmsg
      · cases hmsg
      · cases List.mem_singleton.mp hmsg
        simp [Gloo.Message.is_disconnect]
    · split at hmsg
      · cases hmsg
      · split at hmsg
        · cases hmsg
        · cases List.mem_singleton.mp hmsg
          simp [Gloo.Message.is_disconnect]
    · next d =>
      have hkind : (s.core d).kind = .Tcp := hcalm
      rw [hkind] at hmsg
      cases hmsg
    · cases hmsg
  have hconns : t.conns = s.conns := by
    rcases senders_step h with ⟨order, rfl, -⟩ | ⟨-, hn, -⟩
    · cases ha
    · exact hn
  have hmap : t.socket_map = s.socket_map := by
    cases change_of_step h with
    | outbound hnew hcore hm hn => exact absurd hcalm hnew
    | quiet ha hcore hm hn => exact hm
    | tcp hans hcore hm hn => exact hm
    | ldk_drop ht hcore hm hn => exact hm
    | answered hloop hstop hok hcore hm hn => exact hm
    | ended hev hloop hstop hcore hm hn => exact hm
    | inbound hpc hcore hm hn => cases ha
    | inbound_refused hpc hcore hm hn => cases ha
    | command hl hcore hm hn => cases ha
    | reconnect hin hout hm hn => cases ha
  refine ⟨hmap, congrArg (·.1) hline, hconns, ?_⟩
  rw [hchannel, List.countP_append, hout, Nat.add_zero]

theorem reconnect_calm {order : List Bytes} (hcalm : s.socket_map = ∅) (h : step s (.reconnect order) = some t) :
    t.socket_map = s.socket_map ∧ t.incoming = s.incoming ∧ t.conns = s.conns + 1 ∧ t.channel = s.channel := by
  simp only [step, reconnect, Option.ite_none_right_eq_some, Option.some.injEq] at h
  obtain ⟨⟨-, hperm⟩, rfl⟩ := h
  rw [hcalm] at hperm
  rw [List.perm_nil.mp hperm]
  exact ⟨hcalm.symm, rfl, rfl, rfl⟩

theorem is_local_cases {a : ClientAct} (h : a.is_local) : a.is_own = true ∨ (∃ k, a = .reader k) ∨
    (∃ k ok, a = .create k ok) ∨ (∃ k, a = .proxy_close k) ∨ ∃ k, a = .proxy_send k none := by
  unfold ClientAct.is_local at h
  rcases Bool.or_eq_true_iff.mp h with h | h
  · exact .inl h
  · split at h
    · exact .inr (.inl ⟨_, rfl⟩)
    · exact .inr (.inr (.inl ⟨_, _, rfl⟩))
    · exact .inr (.inr (.inr (.inl ⟨_, rfl⟩)))
    · exact .inr (.inr (.inr (.inr ⟨_, rfl⟩)))
    · cases h

/-- What a listener sends it pays for with an entry. -/
theorem entries_calm {a : ClientAct} (ha : a.is_local) (hcalm : s.Calm a) (h : step s a = some t) :
    t.socket_map.keys.length + ((s.listener_output a).filter (·.is_disconnect)).length ≤ s.socket_map.keys.length := by
  rcases is_local_cases ha with hown | ⟨k, rfl⟩ | ⟨k, ok, rfl⟩ | ⟨k, rfl⟩ | ⟨k, rfl⟩
  · have hnone : s.listener_output a = [] := by
      cases a with
      | reader k => cases hown
      | create k ok => cases hown
      | _ => rfl
    rw [hnone, (own_calm hown hcalm h).1]
    exact Nat.le_refl _
  · have hout : s.listener_output (.reader k) = t.channel.drop s.channel.length := by
      unfold listener_output
      simp only [h, Option.elim_some]
    rw [hout]
    cases heard_of_reader h with
    | ended hi hin hc hm => simp [hc, hm]
    | quiet hi hin hc hm => simp [hc, hm]
    | @echo to_ from_ d rest l hi hin hl hc hlen hm =>
      have hpaid := keys_erase_length hl
      have hsent : (l.filter (·.is_disconnect)).length ≤ l.length := List.length_filter_le _ _
      rw [hm, hc, List.drop_left]
      omega
  · cases hcalm
  · simp only [step, Option.ite_none_right_eq_some, Option.some.injEq] at h
    obtain ⟨-, rfl⟩ := h
    exact Nat.le_refl _
  · simp only [step, Option.ite_none_right_eq_some, Option.some.injEq] at h
    obtain ⟨-, rfl⟩ := h
    exact Nat.le_refl _

theorem unread_update {k : ConnId} (hk : k < s.conns) {l : List (Option Gloo.Message)}
    (hin : t.incoming = Function.update s.incoming k l) (hn : t.conns = s.conns) :
    t.unread + (s.incoming k).countP (fun msg => msg.any (·.is_disconnect)) =
      s.unread + l.countP fun msg => msg.any (·.is_disconnect) := by
  unfold unread
  rw [hin, hn]
  exact Potential.sum_update (List.countP fun msg : Option Gloo.Message => msg.any (·.is_disconnect)) s.incoming l hk

theorem unread_pop (inv : Opened s) {k : ConnId} {msg : Option Gloo.Message} {rest : List (Option Gloo.Message)}
    (hi : s.incoming k = msg :: rest) (hin : t.incoming = Function.update s.incoming k rest) (hn : t.conns = s.conns) :
    t.unread + (s.Carries (.reader k)).toNat = s.unread := by
  have hk : k < s.conns := by
    by_contra hk
    rw [inv k (Nat.le_of_not_lt hk)] at hi
    cases hi
  have hsum := unread_update hk hin hn
  have hcarries : s.Carries (.reader k) = msg.any (·.is_disconnect) := by simp [Carries, hi]
  rw [hi, Potential.countP_cons] at hsum
  rw [hcarries]
  omega

theorem unread_congr (hin : t.incoming = s.incoming) (hn : t.conns = s.conns) : t.unread = s.unread := by
  unfold unread
  rw [hin, hn]

theorem steps_left_proxy_send {k : ConnId} {msg : Option Gloo.Message} (h : step s (.proxy_send k msg) = some t) :
    t.steps_left = s.steps_left + (msg.any (·.is_disconnect)).toNat ∧ t.socket_map = s.socket_map := by
  simp only [step, Option.ite_none_right_eq_some, Option.some.injEq] at h
  obtain ⟨⟨hk, -⟩, ht⟩ := h
  have hin : t.incoming = Function.update s.incoming k (s.incoming k ++ [msg]) := by rw [← ht]
  have hn : t.conns = s.conns := by rw [← ht]
  have hm : t.socket_map = s.socket_map := by rw [← ht]
  have hc : t.channel = s.channel := by rw [← ht]
  have hsum := unread_update hk hin hn
  rw [Potential.countP_snoc] at hsum
  refine ⟨?_, hm⟩
  unfold steps_left
  rw [hm, hc]
  omega

theorem steps_left_calm (inv : Opened s) {a : ClientAct} (ha : a.is_local) (hcalm : s.Calm a) (h : step s a = some t) :
    t.steps_left + (s.Carries a).toNat ≤ s.steps_left := by
  rcases is_local_cases ha with hown | ⟨k, rfl⟩ | ⟨k, ok, rfl⟩ | ⟨k, rfl⟩ | ⟨k, rfl⟩
  · obtain ⟨hm, hin, hn, hc⟩ := own_calm hown hcalm h
    have hnone : s.Carries a = false := by
      cases a with
      | reader k => cases hown
      | sender k => cases hown
      | _ => rfl
    unfold steps_left
    rw [hnone, hm, hc, unread_congr hin hn]
    exact Nat.le_refl _
  · have hn : t.conns = s.conns := congrArg (·.1) (links_reader h)
    unfold steps_left
    cases heard_of_reader h with
    | ended hi hin hc hm =>
      have hnone : s.Carries (.reader k) = false := by simp [Carries, hi]
      rw [hnone, hm, hc, unread_congr hin hn]
      exact Nat.le_refl _
    | quiet hi hin hc hm =>
      have hpop := unread_pop inv hi hin hn
      rw [hm, hc]
      omega
    | @echo to_ from_ d rest l hi hin hl hc hlen hm =>
      have hpop := unread_pop inv hi hin hn
      have hpaid := keys_erase_length hl
      have hsent : l.countP (·.is_disconnect) ≤ l.length := List.countP_le_length
      rw [hm, hc, List.countP_append]
      omega
  · cases hcalm
  · simp only [step, Option.ite_none_right_eq_some, Option.some.injEq] at h
    obtain ⟨-, rfl⟩ := h
    exact Nat.le_refl _
  · exact Nat.le_of_eq (steps_left_proxy_send h).1

theorem steps_left_reconnect (inv : Opened s) {order : List Bytes} (hcalm : s.Calm (.reconnect order))
    (h : step s (.reconnect order) = some t) : t.steps_left = s.steps_left := by
  obtain ⟨hm, hin, hn, hc⟩ := reconnect_calm hcalm h
  unfold steps_left unread
  rw [hm, hc, hn, hin, Finset.sum_range_succ, inv s.conns (Nat.le_refl _)]
  rfl

theorem steps_left_sender {k : ConnId} (h : s.sender k = some t) :
    t.steps_left + 6 * (s.Carries (.sender k)).toNat = s.steps_left ∧ t.socket_map = s.socket_map ∧
      (s.Carries (.sender k) = false ∧ (t.sent k).drop (s.sent k).length = [] ∨
        ∃ msg, (t.sent k).drop (s.sent k).length = [msg] ∧ s.Carries (.sender k) = msg.is_disconnect) := by
  obtain ⟨hin, hm, hn, hc⟩ := sender_cases h
  have hunread := unread_congr hin hn
  unfold steps_left
  rcases hc with ⟨hs, ht, hsent⟩ | ⟨msg, hs, hsent⟩
  · have hcarries : s.Carries (.sender k) = false := by simp [Carries, hs]
    rw [hm, hunread, hcarries, hs, ht, hsent]
    exact ⟨rfl, rfl, .inl ⟨rfl, List.drop_length⟩⟩
  · have hcarries : s.Carries (.sender k) = msg.is_disconnect := by simp [Carries, hs]
    rw [hm, hunread, hcarries, hs, hsent, Potential.countP_cons]
    exact ⟨by omega, rfl, .inr ⟨msg, List.drop_left, rfl⟩⟩

theorem arrive_spec (s : Client) (k : ConnId) (msg : Message) :
    (s.arrive k msg).steps_left ≤ s.steps_left + msg.is_disconnect.toNat ∧
      (s.arrive k msg).socket_map = s.socket_map := by
  unfold arrive
  cases hm : of_proxy msg with
  | none => exact ⟨Nat.le_add_right _ _, rfl⟩
  | some m =>
    have hsame : m.is_disconnect = msg.is_disconnect := by
      unfold of_proxy at hm
      split at hm
      · next command =>
        cases hm
        cases command <;> rfl
      · cases hm
        rfl
      · cases hm
    cases hs : s.step (.proxy_send k (some m)) with
    | none => simp [hs]
    | some t =>
      obtain ⟨hleft, hmap⟩ := steps_left_proxy_send hs
      simp only [hs, Option.getD_some]
      rw [hleft, ← hsame]
      exact ⟨Nat.le_refl _, hmap⟩

end Client

/-! ## The steps of the proxy -/

namespace Proxy

variable {s t : Proxy} {c : ConnId}

theorem steps_left_set (hc : c < s.conns) (h : Handler) :
    (s.set c h).steps_left + (5 * (s.handlers c).inbox.countP (·.is_disconnect) + (s.handlers c).pc.steps_left +
        2 * (s.handlers c).queue.countP (·.is_disconnect)) =
      s.steps_left + (5 * h.inbox.countP (·.is_disconnect) + h.pc.steps_left +
        2 * h.queue.countP (·.is_disconnect)) :=
  Potential.sum_update Handler.steps_left s.handlers h hc

theorem steps_left_goto (hc : c < s.conns) (pc : Pc) :
    (s.goto c pc).steps_left + (s.handlers c).pc.steps_left = s.steps_left + pc.steps_left := by
  have hset : (s.goto c pc).steps_left + _ = _ := steps_left_set hc { s.handlers c with pc }
  dsimp only at hset
  omega

theorem steps_left_push (hc : c < s.conns) (command : MutinyWSCommand) :
    (s.push c command).steps_left = s.steps_left + 2 * command.is_disconnect.toNat := by
  have hset : (s.push c command).steps_left + _ = _ :=
    steps_left_set hc { s.handlers c with queue := (s.handlers c).queue ++ [command] }
  dsimp only at hset
  rw [Potential.countP_snoc] at hset
  omega

theorem steps_left_connect (s : Proxy) (identifier : String) : (s.connect identifier).steps_left = s.steps_left := by
  have hlast : ((s.connect identifier).handlers s.conns).steps_left = 0 := by
    unfold connect Handler.steps_left
    by_cases hid : owner_id_bytes identifier = []
    · simp [hid, Handler.none, Pc.steps_left]
    · simp [hid, Handler.none, Pc.steps_left]
  have hsame : ∑ c ∈ Finset.range s.conns, ((s.connect identifier).handlers c).steps_left = s.steps_left :=
    Potential.sum_update_of_le Handler.steps_left s.handlers _ (Nat.le_refl _)
  show ∑ c ∈ Finset.range (s.conns + 1), ((s.connect identifier).handlers c).steps_left = s.steps_left
  rw [Finset.sum_range_succ, hlast, hsame, Nat.add_zero]

theorem steps_left_take (s : Proxy) (c : ConnId) (msg : Message) :
    (s.take c msg).steps_left ≤ s.steps_left + 5 * msg.is_disconnect.toNat := by
  unfold take
  cases hs : s.step (.client_send c msg) with
  | none => exact Nat.le_add_right _ _
  | some t =>
    simp only [step, Option.ite_none_right_eq_some, Option.some.injEq] at hs
    obtain ⟨⟨hc, -⟩, ht⟩ := hs
    have hset := steps_left_set hc { s.handlers c with inbox := (s.handlers c).inbox ++ [msg] }
    rw [ht] at hset
    dsimp only at hset
    rw [Potential.countP_snoc] at hset
    rw [Option.getD_some]
    omega

theorem steps_left_resume (inv : Locked s) (k : Resumed s c t) :
    t.steps_left + (s.Carries (.resume c)).toNat ≤ s.steps_left + 2 * (s.begun (.resume c)).length := by
  have hc : ∀ {pc : Pc}, (s.handlers c).pc = pc → pc ≠ .absent → c < s.conns := by
    intro pc hpc hne
    apply inv.lt_conns
    rwa [hpc]
  have hcarries : ∀ {pc : Pc}, (s.handlers c).pc = pc → s.Carries (.resume c) = decide (pc.steps_left ≠ 0) := by
    intro pc hpc
    simp only [Carries, hpc]
  have hgoto : ∀ {pc pc' : Pc}, (s.handlers c).pc = pc → pc ≠ .absent → t.steps_left = (s.goto c pc').steps_left →
      pc'.steps_left + (decide (pc.steps_left ≠ 0)).toNat ≤ pc.steps_left →
      t.steps_left + (s.Carries (.resume c)).toNat ≤ s.steps_left + 2 * (s.begun (.resume c)).length := by
    intro pc pc' hpc hne ht hle
    have hstep := steps_left_goto (hc hpc hne) pc'
    rw [ht, hcarries hpc]
    rw [hpc] at hstep
    omega
  have hpush : ∀ {pc pc' : Pc} {p : ConnId} {command : MutinyWSCommand}, (s.handlers c).pc = pc → pc ≠ .absent →
      p < s.conns → t.steps_left = ((s.push p command).goto c pc').steps_left →
      pc'.steps_left + 2 * command.is_disconnect.toNat + (decide (pc.steps_left ≠ 0)).toNat ≤
        pc.steps_left + 2 * (s.begun (.resume c)).length →
      t.steps_left + (s.Carries (.resume c)).toNat ≤ s.steps_left + 2 * (s.begun (.resume c)).length := by
    intro pc pc' p command hpc hne hp ht hle
    have hstep := steps_left_goto (s := s.push p command) (hc hpc hne) pc'
    rw [push_pc, hpc, steps_left_push hp] at hstep
    rw [ht, hcarries hpc]
    omega
  -- the list of the peers does not count
  have hset : ∀ {pc : Pc} {peers : List Bytes}, (s.handlers c).pc = pc → pc ≠ .absent → pc.steps_left = 0 →
      t.steps_left = (s.set c { s.handlers c with pc := .select, connected_peers := peers }).steps_left →
      t.steps_left + (s.Carries (.resume c)).toNat ≤ s.steps_left + 2 * (s.begun (.resume c)).length := by
    intro pc peers hpc hne hzero ht
    have hstep := steps_left_set (hc hpc hne) { s.handlers c with pc := .select, connected_peers := peers }
    rw [← ht] at hstep
    dsimp only at hstep
    rw [hpc, hzero] at hstep
    have hselect : Pc.select.steps_left = 0 := rfl
    rw [hcarries hpc, hzero]
    simp only [ne_eq, not_true_eq_false, decide_false, Bool.toNat_false]
    omega
  have hpeer : ∀ {p : ConnId}, (s.handlers c).pc.peer = some p → p < s.conns :=
    fun hp => inv.lt_of_live (inv.peer c _ hp)
  cases k with
  | register hpc hfree => exact hgoto hpc (by simp) rfl (by simp [Pc.steps_left])
  | no_peer hpc hfree hm => exact hgoto hpc (by simp) rfl (by simp [Pc.steps_left])
  | find_peer hpc hfree hm => exact hgoto hpc (by simp) rfl (by simp [Pc.steps_left])
  | no_recipient hpc hfree hm => exact hgoto hpc (by simp) rfl (by simp [Pc.steps_left])
  | find_recipient hpc hfree hm => exact hgoto hpc (by simp) rfl (by simp [Pc.steps_left])
  | peer_ended hpc hdone => exact hgoto hpc (by simp) rfl (by simp [Pc.steps_left])
  | recipient_ended hpc hdone => exact hgoto hpc (by simp) rfl (by simp [Pc.steps_left])
  | subscribe hpc => exact hgoto hpc (by simp) rfl (by simp [Pc.steps_left])
  | connected hpc hin => exact hgoto hpc (by simp) rfl (by simp [Pc.steps_left])
  | finish hpc hfree => exact hgoto hpc (by simp) rfl (by simp [Pc.steps_left])
  | disconnect hpc hdone hroom =>
    exact hpush hpc (by simp) (hpeer (by rw [hpc]; rfl)) rfl (by simp [Pc.steps_left, MutinyWSCommand.is_disconnect])
  | send hpc hdone hroom =>
    exact hpush hpc (by simp) (hpeer (by rw [hpc]; rfl)) rfl (by simp [Pc.steps_left, MutinyWSCommand.is_disconnect])
  | send_self hpc hroom =>
    have hbegun : (s.begun (.resume c)).length = 1 := by simp [begun, pushes, hpc]
    exact hpush hpc (by simp) (hc hpc (by simp)) rfl (by simp [hbegun, Pc.steps_left, MutinyWSCommand.is_disconnect])
  | drop_peer hpc => exact hset hpc (by simp) rfl rfl
  | listen hpc hout => exact hset hpc (by simp) rfl rfl

theorem steps_left_listener (hh : Housed s) {i : TaskId} (k : Woken s i t) :
    t.steps_left ≤ s.steps_left + 2 * (s.begun (.listener i)).length := by
  cases k with
  | wake ht hpc hwakes => exact Nat.le_add_right s.steps_left _
  | owner_ended ht hpc hdone => exact Nat.le_add_right s.steps_left _
  | @tell task ht hpc hdone hroom =>
    have howner := hh.owners task (List.mem_of_getElem? ht)
    have hbegun : (s.begun (.listener i)).length = 1 := by simp [begun, pushes, ht, hpc, hdone]
    rw [hbegun]
    exact Nat.le_of_eq (steps_left_push howner (.Disconnect task.other_peer))
  | @clear task ht hpc =>
    have howner := hh.owners task (List.mem_of_getElem? ht)
    have hset := steps_left_set howner { s.handlers task.owner with
      connected_peers := (s.handlers task.owner).connected_peers.filter (· ≠ task.other_peer) }
    exact Nat.le_trans (Nat.le_of_eq (Nat.add_right_cancel hset)) (Nat.le_add_right _ _)

theorem steps_left_inner (inv : Locked s) (hh : Housed s) {a : ProxyAct} (ha : a.is_inner) (h : s.step a = some t) :
    t.steps_left + (s.Carries a).toNat ≤ s.steps_left + 2 * (s.begun a).length := by
  cases stepped_of_step h with
  | resume h k => exact steps_left_resume inv k
  | listener h k => exact steps_left_listener hh k
  | @read c msg rest hpc hi =>
    have hc : c < s.conns := inv.lt_conns (by simp [hpc])
    have hset := steps_left_set hc { s.handlers c with inbox := rest, pc := on_message msg }
    have hcarries : s.Carries (.read c) = msg.is_disconnect := by simp [Carries, hi]
    have hle : (on_message msg).steps_left + msg.is_disconnect.toNat ≤ 5 * msg.is_disconnect.toNat := by
      unfold on_message
      split
      · decide
      · exact Nat.le_refl 5
      · split <;> exact Nat.le_refl 0
      · decide
    have hselect : Pc.select.steps_left = 0 := rfl
    generalize s.set c { s.handlers c with inbox := rest, pc := on_message msg } = u at hset ⊢
    dsimp only at hset
    rw [hi, hpc, Potential.countP_cons] at hset
    rw [hcarries]
    omega
  | @gone c hpc hi hgone =>
    have hc : c < s.conns := inv.lt_conns (by simp [hpc])
    have hset := steps_left_set hc { s.handlers c with broadcast := true, pc := .teardown }
    have hcarries : s.Carries (.read c) = false := by simp [Carries, hi]
    have hends : Pc.teardown.steps_left = 0 := rfl
    generalize s.set c { s.handlers c with broadcast := true, pc := .teardown } = u at hset ⊢
    dsimp only at hset
    rw [hcarries, Bool.toNat_false]
    omega
  | connect identifier => cases ha
  | client_send msg hlt hopen => cases ha
  | client_close hlt => cases ha
  | write hpc hq => cases ha
  | write_error hpc hq => cases ha

theorem steps_left_receive (inv : Locked s) {ok : Bool} (h : s.step (.receive c ok) = some t) :
    t.steps_left + 2 * (s.Carries (.receive c ok)).toNat = s.steps_left ∧
      ((t.handlers c).written.drop (s.handlers c).written.length = [] ∨
        ∃ msg, (t.handlers c).written.drop (s.handlers c).written.length = [msg] ∧
          msg.is_disconnect = s.Carries (.receive c ok)) := by
  have hpop : ∀ {command : MutinyWSCommand} {rest : List MutinyWSCommand} (pc : Pc) (b : Bool) (w : List Message),
      (s.handlers c).pc = .select → pc.steps_left = 0 → (s.handlers c).queue = command :: rest →
      (s.set c { s.handlers c with queue := rest, pc, broadcast := b, written := w }).steps_left +
        2 * (s.Carries (.receive c ok)).toNat = s.steps_left := by
    intro command rest pc b w hpc hzero hq
    have hc : c < s.conns := inv.lt_conns (by simp [hpc])
    have hset := steps_left_set hc { s.handlers c with queue := rest, pc, broadcast := b, written := w }
    have hcarries : s.Carries (.receive c ok) = command.is_disconnect := by simp [Carries, hq]
    have hselect : Pc.select.steps_left = 0 := rfl
    rw [hcarries]
    generalize s.set c { s.handlers c with queue := rest, pc, broadcast := b, written := w } = u at hset ⊢
    dsimp only at hset
    rw [hq, hpc, Potential.countP_cons] at hset
    omega
  cases stepped_of_step h with
  | @write _ command rest hpc hq =>
    have hcarries : s.Carries (.receive c true) = command.is_disconnect := by simp [Carries, hq]
    have hpopped := hpop (s.handlers c).pc (s.handlers c).broadcast
      ((s.handlers c).written ++ [to_message (s.handlers c).owner_id command]) hpc (by rw [hpc]; rfl) hq
    refine ⟨hpopped, .inr ⟨to_message (s.handlers c).owner_id command, by simp, ?_⟩⟩
    rw [hcarries]
    cases command <;> rfl
  | @write_error _ command rest hpc hq => exact ⟨hpop _ true _ hpc rfl hq, .inl (by simp)⟩

end Proxy

/-! ## The steps of the mesh -/

namespace Mesh

variable {s t : Mesh} {as : List MeshAct}

theorem entries_set {i : NodeId} (hi : i < s.nodes) (x : Client) :
    (s.set i x).entries + (s.clients i).socket_map.keys.length = s.entries + x.socket_map.keys.length :=
  Potential.sum_update (fun x : Client => x.socket_map.keys.length) s.clients x hi

theorem steps_left_set {i : NodeId} (hi : i < s.nodes) (x : Client) (p : Proxy) :
    steps_left { s.set i x with proxy := p } + (s.clients i).steps_left + s.proxy.steps_left =
      s.steps_left + x.steps_left + p.steps_left := by
  have hsum := Potential.sum_update Client.steps_left s.clients x hi
  unfold steps_left
  simp only [set]
  omega

theorem carried_length (s : Mesh) (a : MeshAct) : (s.carried a).length = (s.Carries a).toNat := by
  unfold carried
  cases s.Carries a <;> rfl

theorem arrive_written (inv : Proxy.Locked s.proxy) {c : ConnId} {ok : Bool} {p : Proxy} {k : ConnId} (x : Client)
    (hp : s.proxy.step (.receive c ok) = some p) :
    let x' := ((p.handlers c).written.drop (s.proxy.handlers c).written.length).foldl (Client.arrive k) x
    x'.socket_map = x.socket_map ∧ x'.steps_left ≤ x.steps_left + (s.proxy.Carries (.receive c ok)).toNat := by
  rcases (Proxy.steps_left_receive inv hp).2 with hnone | ⟨msg, hmsg, hcarries⟩
  · rw [hnone]
    exact ⟨rfl, Nat.le_add_right _ _⟩
  · obtain ⟨hleft, hmap⟩ := Client.arrive_spec x k msg
    rw [hmsg, ← hcarries]
    exact ⟨hmap, hleft⟩

theorem entries_step (inv : Proxy.Locked s.proxy) {a : MeshAct} (hcalm : Calm s a) (h : step s a = some t) :
    t.entries + (s.echoes a).length ≤ s.entries := by
  have hsame : ∀ {i : NodeId} {x : Client}, i < s.nodes → x.socket_map = (s.clients i).socket_map →
      (s.set i x).entries = s.entries := by
    intro i x hi hm
    have hset := entries_set hi x
    rw [hm] at hset
    exact Nat.add_right_cancel hset
  cases stepped_of_step h with
  | start our_peer_pubkey =>
    have hold : ∑ i ∈ Finset.range s.nodes, ((s.start our_peer_pubkey).clients i).socket_map.keys.length = s.entries :=
      Potential.sum_update_of_le (fun x : Client => x.socket_map.keys.length) s.clients _ (Nat.le_refl _)
    have hnew : (s.start our_peer_pubkey).clients s.nodes = .new our_peer_pubkey := by simp [start, dial, set]
    show ∑ i ∈ Finset.range (s.nodes + 1), ((s.start our_peer_pubkey).clients i).socket_map.keys.length ≤ s.entries
    rw [Finset.sum_range_succ, hold, hnew]
    exact Nat.le_refl _
  | @client i a x hi ha hx =>
    have hset := entries_set hi x
    have hpaid := Client.entries_calm ha hcalm hx
    have hechoes : s.echoes (.client i a) = ((s.clients i).listener_output a).filter (·.is_disconnect) := rfl
    rw [hechoes]
    omega
  | @sender i k x hi hx => exact Nat.le_of_eq (hsame hi (Client.steps_left_sender hx).2.1)
  | @reconnect i order x hi hx => exact Nat.le_of_eq (hsame hi (Client.reconnect_calm hcalm hx).1)
  | proxy ha hp => exact Nat.le_refl _
  | @write i k ok p hi hk hp => exact Nat.le_of_eq (hsame hi (arrive_written inv (s.clients i) hp).1)
  | close hi hk hp => exact Nat.le_refl _

theorem steps_left_step (h : machine.run new as = some s) {a : MeshAct} (hcalm : Calm s a) (hs : step s a = some t) :
    t.steps_left + (s.carried a).length ≤ s.steps_left + 2 * (s.begun a).length := by
  obtain ⟨ps, hps⟩ := proxy_of_run h
  have hlocked := Proxy.locked_of_run hps
  have hopened : ∀ {i : NodeId}, i < s.nodes → (s.clients i).Opened := by
    intro i hi
    obtain ⟨our_peer_pubkey, cs, hcs⟩ := client_of_run h i hi
    exact Client.opened_of_run hcs
  rw [carried_length]
  cases stepped_of_step hs with
  | start our_peer_pubkey =>
    have hold : ∑ i ∈ Finset.range s.nodes, ((s.start our_peer_pubkey).clients i).steps_left =
        ∑ i ∈ Finset.range s.nodes, (s.clients i).steps_left :=
      Potential.sum_update_of_le Client.steps_left s.clients _ (Nat.le_refl _)
    have hnew : (s.start our_peer_pubkey).clients s.nodes = .new our_peer_pubkey := by simp [start, dial, set]
    have hzero : (Client.new our_peer_pubkey).steps_left = 0 := rfl
    have hproxy : (s.start our_peer_pubkey).proxy.steps_left = s.proxy.steps_left := Proxy.steps_left_connect _ _
    have hnodes : (s.start our_peer_pubkey).nodes = s.nodes + 1 := rfl
    unfold steps_left
    rw [hnodes, Finset.sum_range_succ, hold, hnew, hzero, hproxy]
    exact Nat.le_add_right _ _
  | @client i a x hi ha hx =>
    have hset := steps_left_set hi x s.proxy
    have hpaid := Client.steps_left_calm (hopened hi) ha hcalm hx
    have hcarries : s.Carries (.client i a) = (s.clients i).Carries a := rfl
    have hx : s.set i x = { s.set i x with proxy := s.proxy } := rfl
    rw [hcarries, hx]
    omega
  | @sender i k x hi hx =>
    obtain ⟨hpaid, -, hsent⟩ := Client.steps_left_sender hx
    have hcarries : s.Carries (.sender i k) = (s.clients i).Carries (.sender k) := rfl
    have htaken : ((((x.sent k).drop ((s.clients i).sent k).length).map to_proxy).foldl (Proxy.take (s.link i k))
        s.proxy).steps_left ≤ s.proxy.steps_left + 5 * ((s.clients i).Carries (.sender k)).toNat := by
      rcases hsent with ⟨-, hnone⟩ | ⟨msg, hmsg, hmsg'⟩
      · rw [hnone]
        exact Nat.le_add_right _ _
      · have htake := Proxy.steps_left_take s.proxy (s.link i k) (to_proxy msg)
        have hsame : (to_proxy msg).is_disconnect = msg.is_disconnect := by
          rcases msg with (_ | command) | msg <;> rfl
        rw [hmsg, hmsg', ← hsame]
        exact htake
    have hset := steps_left_set hi x
      ((((x.sent k).drop ((s.clients i).sent k).length).map to_proxy).foldl (Proxy.take (s.link i k)) s.proxy)
    rw [hcarries]
    omega
  | @reconnect i order x hi hx =>
    have hset := steps_left_set hi x (((s.set i x).dial i (s.clients i).conns).proxy)
    have hsame := Client.steps_left_reconnect (hopened hi) hcalm hx
    have hproxy : ((s.set i x).dial i (s.clients i).conns).proxy.steps_left = s.proxy.steps_left :=
      Proxy.steps_left_connect _ _
    have hcarries : s.Carries (.reconnect i order) = false := rfl
    have hdial : steps_left ((s.set i x).dial i (s.clients i).conns) =
      steps_left { s.set i x with proxy := ((s.set i x).dial i (s.clients i).conns).proxy } := rfl
    rw [hcarries, hdial, Bool.toNat_false]
    omega
  | @proxy a p ha hp =>
    have hpaid := Proxy.steps_left_inner hlocked (Proxy.housed_of_run hps) ha hp
    have hcarries : s.Carries (.proxy a) = s.proxy.Carries a := rfl
    have hbegun : s.begun (.proxy a) = s.proxy.begun a := rfl
    rw [hcarries, hbegun]
    unfold steps_left
    dsimp only
    omega
  | @write i k ok p hi hk hp =>
    have hset := steps_left_set hi (((p.handlers (s.link i k)).written.drop
      (s.proxy.handlers (s.link i k)).written.length).foldl (Client.arrive k) (s.clients i)) p
    obtain ⟨hpaid, -⟩ := Proxy.steps_left_receive hlocked hp
    obtain ⟨-, harrive⟩ := arrive_written (k := k) hlocked (s.clients i) hp
    have hcarries : s.Carries (.write i k ok) = s.proxy.Carries (.receive (s.link i k) ok) := rfl
    rw [hcarries]
    omega
  | @close i k p hi hk hp =>
    have hsame : p.steps_left = s.proxy.steps_left := by
      simp only [Proxy.step, Option.ite_none_right_eq_some, Option.some.injEq] at hp
      obtain ⟨hc, rfl⟩ := hp
      exact Nat.add_right_cancel (Proxy.steps_left_set hc _)
    have hcarries : s.Carries (.close i k) = false := rfl
    rw [hcarries, Bool.toNat_false]
    unfold steps_left
    dsimp only
    omega

/-! ## Runs -/

/-- From here on the echoes of disconnects end: in a run without a new subsocket or a disconnect of a node or of LDK the
listeners send at most as many disconnects as there are entries, disconnects are carried on only as often as there are
steps left for those on their way and for those that the proxy begins, and in a run without end the listeners send no
more disconnects from some point on. -/
structure DiesOut (s : Mesh) : Prop where
  echoes : ∀ as t, machine.run s as = some t → machine.Along Calm s as → (machine.trace echoes s as).length ≤ s.entries
  carried : ∀ as t, machine.run s as = some t → machine.Along Calm s as →
    (machine.trace carried s as).length ≤ s.steps_left + 2 * (machine.trace begun s as).length
  ends : ∀ state act, state 0 = s → machine.Endless Calm state act →
    ∃ n, ∀ m, n ≤ m → (state m).echoes (act m) = []

theorem echoes_die_out (h : machine.run new as = some s) : DiesOut s := by
  have hreach : ∀ (s : Mesh) (a : MeshAct) (t : Mesh), (∃ as, machine.run new as = some s) →
      machine.step s a = some t → ∃ as, machine.run new as = some t := by
    intro s a t ⟨as, has⟩ hs
    refine ⟨as ++ [a], ?_⟩
    rw [Machine.run_append, has]
    exact Machine.run_singleton hs
  have hentries : ∀ (s : Mesh) (a : MeshAct) (t : Mesh), (∃ as, machine.run new as = some s) → Calm s a →
      machine.step s a = some t → t.entries + (s.echoes a).length ≤ s.entries := by
    intro s a t ⟨as, has⟩ hcalm hs
    obtain ⟨ps, hps⟩ := proxy_of_run has
    exact entries_step (Proxy.locked_of_run hps) hcalm hs
  refine ⟨?_, ?_, ?_⟩
  · intro bs t hrun hcalm
    have hpaid := Machine.trace_length_le entries echoes begun 0 hreach
      (fun s a t hs hc ht => by simpa using hentries s a t hs hc ht) ⟨as, h⟩ hcalm hrun
    omega
  · intro bs t hrun hcalm
    have hpaid := Machine.trace_length_le steps_left carried begun 2 hreach
      (fun s a t ⟨as, has⟩ hc ht => steps_left_step has hc ht) ⟨as, h⟩ hcalm hrun
    omega
  · intro state act h0 hendless
    exact Machine.eventually_silent entries echoes hreach hentries ⟨as, h0 ▸ h⟩ hendless

/-- Both nodes have a subsocket to the other, and the first ends its own: the disconnect waits for the sending task. -/
def echo_session : List MeshAct :=
  [.start (.replicate 33 2), .start (.replicate 33 3), .proxy (.resume 0), .proxy (.resume 1),
    .client 0 (.connect_peer (.replicate 33 3) .Mutiny (.initial_bytes [])), .sender 0 0, .proxy (.read 0),
    .proxy (.resume 0), .proxy (.resume 0), .proxy (.resume 0), .proxy (.resume 0), .write 1 0 true,
    .client 1 (.reader 0), .client 1 (.create 0 true), .client 0 (.ldk_disconnect 0)]

theorem echoes_die_out_session : ∃ s, machine.run new echo_session = some s ∧ s.entries = 2 ∧
    (s.clients 0).channel = [.Text (some (.Disconnect (.replicate 33 3) (.replicate 33 2)))] ∧ DiesOut s :=
  ⟨_, rfl, by decide +kernel, by decide +kernel, @echoes_die_out _ echo_session rfl⟩

end Mesh

end Mutiny
