import Mutiny.Session
import Mutiny.SocketOutput

/-!
# Two nodes as two ends

The two nodes are the two ends of `Session`: a subsocket is live until it is stopped, and the entry of the socket map
takes what comes in. Every step of a node is a move of its end.
-/

namespace Mutiny

/-- A subsocket for `peer` that can still send. -/
def Core.Live (peer : Bytes) (x : Core) : Prop := x.kind = .Mutiny peer ∧ x.stop = false

/-- A subsocket for `peer` that LDK has. -/
def Core.Tracked (peer : Bytes) (x : Core) : Prop := x.kind = .Mutiny peer ∧ x.tracked = true

theorem not_live_tcp (peer : Bytes) : ¬ (Descriptor.new .Tcp).core.Live peer := fun h => by cases h.1

theorem not_tracked_tcp (peer : Bytes) : ¬ (Descriptor.new .Tcp).core.Tracked peer := fun h => by cases h.1

theorem not_live_dropped (x : Core) (peer : Bytes) : ¬ x.dropped.Live peer := fun h => by cases h.2

theorem not_tracked_dropped (x : Core) (peer : Bytes) : ¬ x.dropped.Tracked peer := fun h => by cases h.2

namespace Client

variable {s t : Client}

theorem cores_eq {P : Core → Prop} {d : DescId} {x : Core} (h : ∀ e, t.core e = if e = d then x else s.core e)
    (hx : P x ↔ P (s.core d)) : {e | P (t.core e)} = {e | P (s.core e)} := by
  ext e
  by_cases he : e = d <;> simp [h, he, hx]

theorem cores_insert {P : Core → Prop} {d : DescId} {x : Core} (h : ∀ e, t.core e = if e = d then x else s.core e)
    (hx : P x) : {e | P (t.core e)} = insert d {e | P (s.core e)} := by
  ext e
  by_cases he : e = d <;> simp [h, he, hx]

theorem cores_diff {P : Core → Prop} {d : DescId} {x : Core} (h : ∀ e, t.core e = if e = d then x else s.core e)
    (hx : ¬ P x) : {e | P (t.core e)} = {e | P (s.core e)} \ {d} := by
  ext e
  by_cases he : e = d <;> simp [h, he, hx]

end Client

def Parcel.session (p : Parcel) : Session.Parcel DescId :=
  if p.is_frame then .frame p.source else .disconnect p.source {d | d ∈ p.received}

/-- A node as an end of its session with `peer`. -/
def Party.toEnd (peer : Bytes) (x : Party) : Session.End DescId where
  entry := x.client.socket_map.lookup peer
  live := {d | (x.client.core d).Live peer}
  tracked := {d | (x.client.core d).Tracked peer}
  received := {d | d ∈ x.received}
  heard d := {e | e ∈ x.heard d}
  flight := x.flight.map Parcel.session

namespace Pair

variable {key : Bool → Bytes} {s t : Pair} {i : Bool}

/-! ## What the proxy relays -/

theorem wire_frame {peer data : Bytes} (hlen : peer.length = PUBKEY_BYTES_LEN) :
    wire key i (.Bytes (peer ++ data)) = if peer = key (!i) then some (.Bytes (key i ++ data)) else none := by
  have hlt : ¬ (peer ++ data).length < PUBKEY_BYTES_LEN := by simp [← hlen]
  simp only [wire, to_proxy, relayed, if_neg hlt]
  simp [of_proxy, Proxy.to_message, ← hlen]

theorem wire_disconnect {peer own : Bytes} : wire key i (.Text (some (.Disconnect peer own))) =
    if peer = key (!i) then some (.Text (some (.Disconnect (key (!i)) (key i)))) else none := by
  simp [wire, relayed, to_proxy, of_proxy, Proxy.to_message]

theorem wires_frame {peer data : Bytes} (hlen : peer.length = PUBKEY_BYTES_LEN) :
    [Gloo.Message.Bytes (peer ++ data)].filterMap (wire key i) =
      if peer = key (!i) then [.Bytes (key i ++ data)] else [] := by
  rw [List.filterMap_cons, wire_frame hlen]
  split <;> simp_all

theorem wires_disconnect {peer own : Bytes} :
    [Gloo.Message.Text (some (.Disconnect peer own))].filterMap (wire key i) =
      if peer = key (!i) then [.Text (some (.Disconnect (key (!i)) (key i)))] else [] := by
  rw [List.filterMap_cons, wire_disconnect]
  split <;> simp_all

theorem split_frame_append {peer data : Bytes} (hlen : peer.length = PUBKEY_BYTES_LEN) :
    split_frame (peer ++ data) = some (peer, data) := by
  simp [split_frame, ← hlen]

/-! ## The nodes -/

structure Plain (key : Bool → Bytes) (s : Pair) (i : Bool) : Prop where
  sane : Client.Sane (s i).client
  channel : (s i).client.channel = []
  incoming : (s i).client.incoming 0 = []
  pubkey : (s i).client.our_peer_pubkey = key i
  keyed : ∀ d p, ((s i).client.core d).kind = .Mutiny p → p.length = PUBKEY_BYTES_LEN
  reader : (s i).client.readers 0 = .reading ∨ ∃ message p rest,
    (s i).client.readers 0 = .creating (key (!i)) message ∧ (s !i).flight = p :: rest ∧ p.is_frame ∧
      p.source ∈ (s i).received ∧ entry key s i = none
  formed : ∀ p ∈ (s i).flight, (∃ data, p.msg = .Bytes (key i ++ data)) ∨
    p.msg = .Text (some (.Disconnect (key (!i)) (key i)))

def toEnd (key : Bool → Bytes) (s : Pair) (i : Bool) : Session.End DescId := (s i).toEnd (key (!i))

/-! ## A step of a node is a move of its end -/

theorem toEnd_sends (peer : Bytes) (x : Party) (d : DescId) (c : Client) : (sends key i x d c).toEnd peer =
    { entry := c.socket_map.lookup peer
      live := {d | (c.core d).Live peer}
      tracked := {d | (c.core d).Tracked peer}
      received := {d | d ∈ x.received}
      heard := fun d => {e | e ∈ x.heard d}
      flight := x.flight.map Parcel.session ++
        (c.channel.filterMap (wire key i)).map fun msg => Parcel.session ⟨d, msg, x.received⟩ } := by
  simp only [Party.toEnd, sends, List.map_append, List.map_map]
  rfl

theorem toEnd_heard (peer : Bytes) (x : Party) (heard : DescId → List DescId) :
    ({ x with heard := heard } : Party).toEnd peer = { x.toEnd peer with heard := fun d => {e | e ∈ heard d} } := rfl

theorem move_quiet {y : Session.End DescId} {c : Client} (d : DescId)
    (hentry : c.socket_map.lookup (key (!i)) = entry key s i)
    (hlive : {d | (c.core d).Live (key (!i))} = {d | ((s i).client.core d).Live (key (!i))})
    (htracked : {d | (c.core d).Tracked (key (!i))} ⊆ {d | ((s i).client.core d).Tracked (key (!i))})
    (hout : c.channel.filterMap (wire key i) = []) :
    Session.Move (toEnd key s i) y ((sends key i (s i) d c).toEnd (key (!i))) y := by
  rw [toEnd_sends, hentry, hlive, hout, List.map_nil, List.append_nil]
  exact .quiet htracked subset_rfl

theorem fresh_core (inv : Client.Sane (s i).client) {P : Core → Prop} {c : Client} {x : Core}
    (h : ∀ e, c.core e = if e = (s i).client.next_id then x else (s i).client.core e) (hx : ¬ P x)
    (hn : ¬ P (Descriptor.new .Tcp).core) : {d | P (c.core d)} = {d | P ((s i).client.core d)} :=
  Client.cores_eq h (by simp [hx, inv.fresh _ (Nat.le_refl _), hn])

theorem session_clear (hc : Clear key s i) : Session.Clear (toEnd key s i) (toEnd key s (!i)) := by
  obtain ⟨hentry, -, hin, hout⟩ := hc
  refine ⟨hentry, ?_, ?_⟩
  · change Session.first ((s !i).flight.map Parcel.session) = none
    revert hin
    induction (s !i).flight with
    | nil => exact fun _ => rfl
    | cons p l ih =>
      intro hin
      rw [List.map_cons, Parcel.session, if_pos (hin p (by simp))]
      exact ih fun q hq => hin q (List.mem_cons_of_mem _ hq)
  · rcases hout with hout | ⟨hother, hout⟩
    · exact .inl (by simp [toEnd, Party.toEnd, hout])
    · refine .inr ⟨hother, fun d hd => ?_⟩
      obtain ⟨p, hp, he⟩ := List.mem_map.mp hd
      simp [Parcel.session, hout p hp] at he

theorem move_own {a : ClientAct} {c : Client} (hx : Plain key s i) (hG : Guard key s (.own i a)) (ha : a.is_own)
    (h : (s i).client.step a = some c) : Session.Move (toEnd key s i) (toEnd key s (!i))
      ((sends key i (s i) ((s i).client.author a) c).toEnd (key (!i))) (toEnd key s (!i)) := by
  obtain ⟨-, hch⟩ := Client.output_own ha h
  rw [hx.channel, List.nil_append] at hch
  have hfresh := not_live_tcp (key (!i))
  have hfresh' := not_tracked_tcp (key (!i))
  cases Client.change_of_step h with
  | quiet hq hcore hmap hn =>
    have hlive : {d | (c.core d).Live (key (!i))} = {d | ((s i).client.core d).Live (key (!i))} := by simp [hcore]
    have htracked : {d | (c.core d).Tracked (key (!i))} = {d | ((s i).client.core d).Tracked (key (!i))} := by
      simp [hcore]
    have hentry : c.socket_map.lookup (key (!i)) = entry key s i := by
      rw [hmap]
      rfl
    have hsilent : c.channel = [] → Session.Move (toEnd key s i) (toEnd key s (!i))
        ((sends key i (s i) ((s i).client.author a) c).toEnd (key (!i))) (toEnd key s (!i)) := fun hnil =>
      move_quiet _ hentry hlive htracked.subset (by rw [hnil]; rfl)
    cases a with
    | ldk_send d data =>
      simp only [Client.output] at hch
      cases hk : ((s i).client.core d).kind with
      | Tcp => exact hsilent (by rw [hch, hk])
      | Mutiny peer =>
        cases hs : ((s i).client.core d).stop with
        | true => exact hsilent (by simp [hch, hk, hs])
        | false =>
          have hout : c.channel.filterMap (wire key i) =
              if peer = key (!i) then [.Bytes (key i ++ data)] else [] := by
            rw [hch, hk, hs]
            exact wires_frame (hx.keyed d peer hk)
          by_cases hp : peer = key (!i)
          · rw [toEnd_sends, hentry, hlive, htracked, hout, if_pos hp]
            exact .send ⟨hp ▸ hk, hs⟩
          · exact move_quiet _ hentry hlive htracked.subset (by rw [hout, if_neg hp])
    | connect_peer peer connection_type answer =>
      apply hsilent
      rw [hch]
      rcases hq with hq | rfl
      · cases connection_type <;> cases answer <;> simp [Client.output, hq]
      · cases connection_type <;> rfl
    | handshake d node_id => exact hsilent hch
    | read d event ok => exact hsilent hch
    | ldk_disconnect d => cases hq
    | proxy_send k msg => cases ha
    | proxy_close k => cases ha
    | reader k => cases ha
    | create k ok => cases ha
    | sender k => cases ha
    | reconnect order => cases ha
  | @tcp peer answer _ hans hcore hmap hn =>
    refine move_quiet _ (by rw [hmap]; rfl) (fresh_core hx.sane hcore ?_ hfresh)
      (fresh_core hx.sane hcore ?_ hfresh').subset ?_
    · split <;> exact fun hl => by cases hl.1
    · split <;> exact fun ht => by cases ht.1
    · rw [hch]
      cases answer <;> rfl
  | @outbound peer answer _ hnew hcore hmap hn =>
    have hlen : peer.length = PUBKEY_BYTES_LEN := by simpa [ClientAct.is_own] using ha
    by_cases hp : peer = key (!i)
    · subst hp
      have hclear := session_clear (hG rfl hnew)
      have hentry : c.socket_map.lookup (key (!i)) = some (s i).client.next_id := by
        rw [hmap, AList.lookup_insert]
      cases answer with
      | no_proxy => simp [Client.step, Client.connect_peer_if_necessary, hnew, Client.connect_peer] at h
      | refused =>
        rw [if_pos rfl] at hcore
        have hlive := Client.cores_insert (P := Core.Live (key (!i))) hcore ⟨rfl, rfl⟩
        have htracked := fresh_core hx.sane (P := Core.Tracked (key (!i))) hcore (fun ht => by cases ht.2) hfresh'
        rw [toEnd_sends, hentry, hlive, htracked, hch]
        simp only [Client.output, List.filterMap_nil, List.map_nil, List.append_nil]
        exact .refused hclear
      | initial_bytes bytes =>
        rw [if_neg (fun he => by cases he)] at hcore
        have hlive := Client.cores_insert (P := Core.Live (key (!i))) hcore ⟨rfl, rfl⟩
        have htracked := Client.cores_insert (P := Core.Tracked (key (!i))) hcore ⟨rfl, rfl⟩
        rw [toEnd_sends, hentry, hlive, htracked, hch]
        simp only [Client.output, if_neg hnew, wires_frame hlen, if_true]
        exact .connect hclear
    · refine move_quiet _ ?_ (fresh_core hx.sane hcore ?_ hfresh) (fresh_core hx.sane hcore ?_ hfresh').subset ?_
      · rw [hmap, AList.lookup_insert_ne (Ne.symm hp)]
        rfl
      · split <;> exact fun hl => hp (DescriptorKind.Mutiny.inj hl.1)
      · split <;> exact fun hl => hp (DescriptorKind.Mutiny.inj hl.1)
      · rw [hch]
        cases answer <;> simp [Client.output, hnew, wires_frame hlen, hp]
  | @ldk_drop d _ htr hcore hmap hn =>
    have hentry : c.socket_map.lookup (key (!i)) = entry key s i := by
      rw [hmap]
      rfl
    simp only [Client.output] at hch
    by_cases hk : ((s i).client.core d).kind = .Mutiny (key (!i))
    · have hlive := Client.cores_diff (P := Core.Live (key (!i))) hcore (not_live_dropped _ _)
      have htracked := Client.cores_diff (P := Core.Tracked (key (!i))) hcore (not_tracked_dropped _ _)
      have hout : c.channel.filterMap (wire key i) = [.Text (some (.Disconnect (key (!i)) (key i)))] := by
        rw [hch, hk]
        exact wires_disconnect.trans (if_pos rfl)
      rw [toEnd_sends, hentry, hlive, htracked, hout]
      exact .hang_up ⟨hk, htr⟩
    · refine move_quiet _ hentry (Client.cores_eq hcore ?_) (Client.cores_eq hcore ?_).subset ?_
      · exact ⟨fun h => (hk h.1).elim, fun h => (hk h.1).elim⟩
      · exact ⟨fun h => (hk h.1).elim, fun h => (hk h.1).elim⟩
      · rw [hch]
        cases hd : ((s i).client.core d).kind with
        | Tcp => rfl
        | Mutiny peer =>
          exact wires_disconnect.trans (if_neg fun hp => hk (by rw [hd, hp]))
  | @answered d b ok _ hloop hstop hok hcore hmap hn =>
    refine move_quiet _ (by rw [hmap]; rfl) (Client.cores_eq hcore Iff.rfl) (fun e he => ?_) (by rw [hch]; rfl)
    have he : (c.core e).Tracked (key (!i)) := he
    rw [hcore] at he
    split at he
    · next hd =>
      subst hd
      exact ⟨he.1, hok he.2⟩
    · exact he
  | @ended d event ok _ hev hloop hstop hcore hmap hn =>
    exact move_quiet _ (by rw [hmap]; rfl) (Client.cores_eq hcore Iff.rfl) (Client.cores_eq hcore Iff.rfl).subset
      (by rw [hch]; rfl)
  | inbound hpc hcore hmap hn => cases ha
  | inbound_refused hpc hcore hmap hn => cases ha
  | command hl hcore hmap hn => cases ha
  | reconnect hin hout hmap hn => cases ha

theorem deliver_cases (hx : Plain key s i) (hy : Plain key s (!i)) (hlen : ∀ i, (key i).length = PUBKEY_BYTES_LEN)
    (h : deliver key s i = some t) : ∃ p rest c, (s !i).flight = p :: rest ∧ (s i).client.readers 0 = .reading ∧
      (Client.Sane c ∧ ∀ d q, (c.core d).kind = .Mutiny q → q.length = PUBKEY_BYTES_LEN) ∧
      t i = sends key i (receives key i (s i) p) ((entry key s i).getD (s i).client.next_id) c ∧
      ((∃ data d, p.msg = .Bytes (key (!i) ++ data) ∧ entry key s i = some d ∧ c = (s i).client.queue d data ∧
          t (!i) = { s !i with flight := rest }) ∨
        (∃ data, p.msg = .Bytes (key (!i) ++ data) ∧ entry key s i = none ∧ t (!i) = s !i ∧
          c = { (s i).client with readers := Function.update (s i).client.readers 0 (.creating (key (!i)) data) }) ∨
        p.msg = .Text (some (.Disconnect (key i) (key (!i)))) ∧ t (!i) = { s !i with flight := rest } ∧
          c = (s i).client.on_command (some (.Disconnect (key i) (key (!i))))) := by
  unfold deliver at h
  cases hf : (s !i).flight with
  | nil => simp [hf] at h
  | cons p rest =>
    simp only [hf] at h
    obtain ⟨u, hu, h⟩ := Option.bind_eq_some_iff.mp h
    obtain ⟨c, hc, h⟩ := Option.map_eq_some_iff.mp h
    have hcu := Client.change_of_step hu
    have hcc := Client.change_of_step hc
    obtain ⟨hpc, htext, hbytes⟩ := Client.reader_of_proxy_send hx.incoming hu hc
    have hkeyed : ∀ d q, (c.core d).kind = .Mutiny q → q.length = PUBKEY_BYTES_LEN := by
      intro d q hk
      rcases Client.kind_change hcc hk with hk | ⟨answer, ha⟩ | ⟨k, ok, message, ha, -⟩
      · rcases Client.kind_change hcu hk with hk | ⟨answer, ha⟩ | ⟨k, ok, message, ha, -⟩
        · exact hx.keyed d q hk
        · cases ha
        · cases ha
      · cases ha
      · cases ha
    have hti : t i = sends key i (receives key i (s i) p) ((entry key s i).getD (s i).client.next_id) c := by
      subst h
      split <;> simp [entry]
    have hty : t (!i) = if c.readers 0 = .reading then { s !i with flight := rest } else s !i := by
      subst h
      split <;> simp
    refine ⟨p, rest, c, rfl, hpc, ⟨(hx.sane.change hcu).change hcc, hkeyed⟩, hti, ?_⟩
    rcases hy.formed p (by simp [hf]) with ⟨data, hm⟩ | hm
    · have hmsg := hbytes _ hm
      simp only [Client.on_bytes, split_frame_append (hlen _)] at hmsg
      cases hentry : entry key s i with
      | some d =>
        have hl : (s i).client.socket_map.lookup (key (!i)) = some d := hentry
        simp only [hl] at hmsg
        have hr : c.readers 0 = .reading := by
          rw [hmsg]
          exact hpc
        exact .inl ⟨data, d, hm, rfl, hmsg, by rw [hty, if_pos hr]⟩
      | none =>
        have hl : (s i).client.socket_map.lookup (key (!i)) = none := hentry
        simp only [hl] at hmsg
        have hr : c.readers 0 ≠ .reading := by simp [hmsg]
        exact .inr (.inl ⟨data, hm, rfl, by rw [hty, if_neg hr], hmsg⟩)
    · rw [Bool.not_not] at hm
      have hmsg := htext _ hm
      have hr : c.readers 0 = .reading := by
        have hline : c.line = (s i).client.line := by
          rw [hmsg]
          simp only [Client.on_command]
          split
          · exact Client.line_disconnect_socket _ _
          · rfl
        exact (congrFun (congrArg (·.2.1) hline) 0).trans hpc
      exact .inr (.inr ⟨hm, by rw [hty, if_pos hr], hmsg⟩)

theorem mem_cons_set (d : DescId) (l : List DescId) : {e | e ∈ d :: l} = insert d {e | e ∈ l} := by
  ext e
  simp

theorem heard_set (heard : DescId → List DescId) (d u : DescId) :
    (fun e => {f | f ∈ Function.update heard d (u :: heard d) e}) =
      Function.update (fun e => {f | f ∈ heard e}) d (insert u {f | f ∈ heard d}) := by
  funext e
  by_cases he : e = d
  · subst he
    simp only [Function.update_self]
    exact mem_cons_set u (heard e)
  · simp [he]

theorem session_frame {p : Parcel} {m : Bytes} (hm : p.msg = .Bytes m) : p.is_frame ∧ p.session = .frame p.source := by
  have hf : p.is_frame := by simp [Parcel.is_frame, hm]
  exact ⟨hf, if_pos hf⟩

theorem session_disconnect {p : Parcel} {m : Option MutinyProxyCommand} (hm : p.msg = .Text m) :
    p.is_frame = false ∧ p.session = .disconnect p.source {d | d ∈ p.received} := by
  have hf : p.is_frame = false := by simp [Parcel.is_frame, hm]
  exact ⟨hf, if_neg (by simp [hf])⟩

theorem move_deliver (hx : Plain key s i) (hy : Plain key s (!i)) (hlen : ∀ i, (key i).length = PUBKEY_BYTES_LEN)
    (h : deliver key s i = some t) : Session.Move (toEnd key s i) (toEnd key s (!i)) (toEnd key t i) (toEnd key t (!i)) := by
  obtain ⟨p, rest, c, hf, -, -, hti, hcase⟩ := deliver_cases hx hy hlen h
  have hflight : (toEnd key s (!i)).flight = p.session :: rest.map Parcel.session := by simp [toEnd, Party.toEnd, hf]
  rcases hcase with ⟨data, d, hm, hentry, hc, hty⟩ | ⟨data, hm, hentry, hty, hc⟩ | ⟨hm, hty, hc⟩
  · obtain ⟨hframe, hs⟩ := session_frame hm
    have hentry' : (s i).client.socket_map.lookup (key (!i)) = some d := hentry
    have hti' : toEnd key t i = { toEnd key s i with
        received := insert p.source (toEnd key s i).received
        heard := Function.update (toEnd key s i).heard d (insert p.source ((toEnd key s i).heard d)) } := by
      rw [toEnd, hti, toEnd_sends, hc]
      simp only [receives, hframe, if_true, hentry', Client.core_queue, Client.channel_queue, hx.channel, List.filterMap_nil,
        List.map_nil, List.append_nil, Client.socket_map_queue, heard_set, mem_cons_set]
      rw [← hentry']
      rfl
    have hty' : toEnd key t (!i) = { toEnd key s (!i) with flight := rest.map Parcel.session } := by
      rw [toEnd, hty]
      rfl
    rw [hti', hty']
    exact .take (hs ▸ hflight) hentry
  · obtain ⟨hframe, hs⟩ := session_frame hm
    have hentry' : (s i).client.socket_map.lookup (key (!i)) = none := hentry
    have hti' : toEnd key t i = { toEnd key s i with
        tracked := (toEnd key s i).tracked
        received := insert p.source (toEnd key s i).received } := by
      rw [toEnd, hti, toEnd_sends, hc]
      simp only [receives, hframe, if_true, hentry', hx.channel, List.filterMap_nil, List.map_nil, List.append_nil,
        mem_cons_set]
      rw [← hentry']
      rfl
    have hty' : toEnd key t (!i) = toEnd key s (!i) := by rw [toEnd, hty, toEnd]
    rw [hti', hty']
    exact .quiet subset_rfl (Set.subset_insert _ _)
  · obtain ⟨hframe, hs⟩ := session_disconnect hm
    have hty' : toEnd key t (!i) = { toEnd key s (!i) with flight := rest.map Parcel.session } := by
      rw [toEnd, hty]
      rfl
    cases hentry : entry key s i with
    | none =>
      have hentry' : (s i).client.socket_map.lookup (key (!i)) = none := hentry
      have hti' : toEnd key t i = toEnd key s i := by
        rw [toEnd, hti, toEnd_sends, hc]
        simp only [Client.on_command, hentry', receives, hframe, hx.channel, List.filterMap_nil, List.map_nil,
          List.append_nil]
        rw [← hentry']
        rfl
      rw [hti', hty']
      exact .ignored (hs ▸ hflight) hentry
    | some d =>
      have hentry' : (s i).client.socket_map.lookup (key (!i)) = some d := hentry
      simp only [Client.on_command, hentry'] at hc
      have hkind : ((s i).client.core d).kind = .Mutiny (key (!i)) := (hx.sane.known _ d hentry').2
      have hcore : ∀ e, c.core e = if e = d then ((s i).client.core d).dropped else (s i).client.core e := by
        rw [hc]
        exact Client.core_drop (s i).client d
      have hlive := Client.cores_diff (P := Core.Live (key (!i))) hcore (not_live_dropped _ _)
      have htracked := Client.cores_diff (P := Core.Tracked (key (!i))) hcore (not_tracked_dropped _ _)
      have hout : c.channel.filterMap (wire key i) = [.Text (some (.Disconnect (key (!i)) (key i)))] := by
        rw [hc]
        simp only [Client.channel_socket_disconnected, Client.channel_disconnect_socket, hx.channel, hkind, List.nil_append]
        exact wires_disconnect.trans (if_pos rfl)
      have hl : c.socket_map.lookup (key (!i)) = none := by
        rw [hc]
        exact AList.lookup_erase _ _
      have hti' : toEnd key t i = { toEnd key s i with
          entry := none
          live := (toEnd key s i).live \ {d}
          tracked := (toEnd key s i).tracked \ {d}
          flight := (toEnd key s i).flight ++ [.disconnect d (toEnd key s i).received] } := by
        rw [toEnd, hti, toEnd_sends, hl, hlive, htracked, hout, hentry]
        simp only [receives, hframe]
        rfl
      rw [hti', hty']
      exact .told (hs ▸ hflight) hentry

theorem create_cases {ok : Bool} (hx : Plain key s i) (h : create key s i ok = some t) : ∃ p rest c,
    (s !i).flight = p :: rest ∧ p.is_frame ∧ p.source ∈ (s i).received ∧ entry key s i = none ∧
      Client.Change (s i).client (.create 0 ok) c ∧
      (∃ message, (s i).client.readers 0 = .creating (key (!i)) message) ∧
      c.line = ((s i).client.incoming, Function.update (s i).client.readers 0 .reading, key i) ∧
      c.channel = (if ok then [] else [.Text (some (.Disconnect (key (!i)) (key i)))]) ∧
      t (!i) = { s !i with flight := rest } ∧
      t i = { sends key i (s i) (s i).client.next_id c with
        heard := if ok then Function.update (s i).heard (s i).client.next_id
          (p.source :: (s i).heard (s i).client.next_id) else (s i).heard } := by
  unfold create at h
  cases hf : (s !i).flight with
  | nil => simp [hf] at h
  | cons p rest =>
    simp only [hf] at h
    obtain ⟨c, hc, h⟩ := Option.map_eq_some_iff.mp h
    obtain ⟨id, message, hpc, hline, hch⟩ := Client.output_go_on hc
    rw [hx.channel, hx.pubkey, List.nil_append] at hch
    rcases hx.reader with hr | ⟨message', q, rest', hr, hf', hframe, hsource, hentry⟩
    · rw [hr] at hpc
      cases hpc
    · rw [hr] at hpc
      cases hpc
      rw [hf] at hf'
      cases hf'
      refine ⟨p, rest, c, rfl, hframe, hsource, hentry, Client.change_of_step hc, ⟨message, hr⟩, hx.pubkey ▸ hline, hch,
        ?_, ?_⟩
      · subst h
        simp
      · subst h
        cases ok <;> simp [sends]

theorem move_create {ok : Bool} (hx : Plain key s i) (h : create key s i ok = some t) :
    Session.Move (toEnd key s i) (toEnd key s (!i)) (toEnd key t i) (toEnd key t (!i)) := by
  obtain ⟨p, rest, c, hf, hframe, hsource, hentry, hcc, ⟨message, hpc⟩, -, hch, hty, hti⟩ := create_cases hx h
  have hs : p.session = .frame p.source := if_pos hframe
  have hflight : (toEnd key s (!i)).flight = .frame p.source :: rest.map Parcel.session := by
    simp [toEnd, Party.toEnd, hf, hs]
  have hty' : toEnd key t (!i) = { toEnd key s (!i) with flight := rest.map Parcel.session } := by
    rw [toEnd, hty]
    rfl
  cases hcc with
  | quiet hq hcore hmap hn => cases hq
  | @inbound k id m _ hpc' hcore hmap hn =>
    rw [hpc] at hpc'
    cases hpc'
    have hlive := Client.cores_insert (P := Core.Live (key (!i))) hcore ⟨rfl, rfl⟩
    have htracked := Client.cores_insert (P := Core.Tracked (key (!i))) hcore ⟨rfl, rfl⟩
    have hl : c.socket_map.lookup (key (!i)) = some (s i).client.next_id := by
      rw [hmap]
      exact AList.lookup_insert _
    have hti' : toEnd key t i = { toEnd key s i with
        entry := some (s i).client.next_id
        live := insert (s i).client.next_id (toEnd key s i).live
        tracked := insert (s i).client.next_id (toEnd key s i).tracked
        heard := Function.update (toEnd key s i).heard (s i).client.next_id
          (insert p.source ((toEnd key s i).heard (s i).client.next_id)) } := by
      rw [toEnd, hti, toEnd_heard, toEnd_sends, hl, hlive, htracked, hch]
      simp only [if_true, List.filterMap_nil, List.map_nil, List.append_nil, heard_set]
      rfl
    rw [hti', hty']
    exact .accept hflight hentry hsource
  | @inbound_refused k id m _ hpc' hcore hmap hn =>
    rw [hpc] at hpc'
    cases hpc'
    have hlive := fresh_core hx.sane (P := Core.Live (key (!i))) hcore nofun nofun
    have htracked := fresh_core hx.sane (P := Core.Tracked (key (!i))) hcore nofun nofun
    have hl : c.socket_map.lookup (key (!i)) = (s i).client.socket_map.lookup (key (!i)) := by
      rw [hmap, AList.lookup_erase]
      exact hentry.symm
    have hti' : toEnd key t i = { toEnd key s i with
        flight := (toEnd key s i).flight ++ [.disconnect (s i).client.next_id (toEnd key s i).received] } := by
      rw [toEnd, hti, toEnd_heard, toEnd_sends, hl, hlive, htracked, hch]
      simp only [Bool.false_eq_true, if_false, wires_disconnect, if_true]
      rfl
    rw [hti', hty']
    exact .reject hflight hentry hsource

end Pair

end Mutiny
