import Mutiny.SocketMoves

/-!
# Sessions of two nodes

Neither a frame nor a disconnect carries the number of a session. When a node connects again while a disconnect of an
earlier session is on its way, the new session can be ended by it, or by the answer to it. In runs in which the nodes
connect only when they are clear to do so a disconnect ends only the session that it is meant for.
-/

namespace Mutiny

namespace Pair

variable {key : Bool → Bytes} {s t : Pair} {i : Bool}

theorem wire_formed {msg m : Gloo.Message} (h : wire key i msg = some m) :
    (∃ data, m = .Bytes (key i ++ data)) ∨ m = .Text (some (.Disconnect (key (!i)) (key i))) := by
  unfold wire at h
  split at h
  · next dest command hrel =>
    simp only [Option.ite_none_right_eq_some] at h
    obtain ⟨-, h⟩ := h
    rcases msg with (_ | ⟨to_, from_⟩) | msg
    · cases hrel
    · cases hrel
      cases h
      exact .inr rfl
    · simp only [to_proxy, relayed] at hrel
      split at hrel
      · cases hrel
      · cases hrel
        cases h
        exact .inl ⟨_, rfl⟩
  · cases h

theorem plain_acting (hx : Plain key s i) {c : Client} {d : DescId} {r : List DescId} (hsane : Client.Sane c)
    (hline : c.incoming 0 = [] ∧ c.our_peer_pubkey = key i)
    (hkeyed : ∀ d q, (c.core d).kind = .Mutiny q → q.length = PUBKEY_BYTES_LEN)
    (hclient : (t i).client = { c with channel := [] })
    (hflight : (t i).flight = (s i).flight ++ (c.channel.filterMap (wire key i)).map fun msg => ⟨d, msg, r⟩)
    (hreader : c.readers 0 = .reading ∨ ∃ message p rest, c.readers 0 = .creating (key (!i)) message ∧
      (t !i).flight = p :: rest ∧ p.is_frame ∧ p.source ∈ (t i).received ∧ c.socket_map.lookup (key (!i)) = none) :
    Plain key t i := by
  refine ⟨?_, ?_, ?_, ?_, ?_, ?_, fun p hp => ?_⟩
  · rw [hclient]
    exact Client.sane_flush hsane
  · rw [hclient]
  · rw [hclient]
    exact hline.1
  · rw [hclient]
    exact hline.2
  · rw [hclient]
    exact hkeyed
  · rw [entry, hclient]
    exact hreader
  · rw [hflight] at hp
    rcases List.mem_append.mp hp with hp | hp
    · exact hx.formed p hp
    · obtain ⟨m, hm, rfl⟩ := List.mem_map.mp hp
      obtain ⟨msg, -, hw⟩ := List.mem_filterMap.mp hm
      exact wire_formed hw

theorem plain_facing (hy : Plain key s (!i)) (hclient : (t !i).client = (s !i).client)
    (hr : (t !i).received = (s !i).received) (hsub : ∀ p ∈ (t !i).flight, p ∈ (s !i).flight) {l : List Parcel}
    (hflight : (t i).flight = (s i).flight ++ l) : Plain key t (!i) := by
  refine ⟨?_, ?_, ?_, ?_, ?_, ?_, fun p hp => hy.formed p (hsub p hp)⟩
  · rw [hclient]
    exact hy.sane
  · rw [hclient]
    exact hy.channel
  · rw [hclient]
    exact hy.incoming
  · rw [hclient]
    exact hy.pubkey
  · rw [hclient]
    exact hy.keyed
  · rw [entry, hclient, hr]
    rcases hy.reader with h | ⟨message, p, rest, h, hf, hrest⟩
    · exact .inl h
    · refine .inr ⟨message, p, rest ++ l, h, ?_, hrest⟩
      rw [Bool.not_not] at hf ⊢
      rw [hflight, hf]
      rfl

/-- While the listener is about to make a subsocket nobody else makes one. -/
theorem entry_kept {a : ClientAct} {c : Client} (hG : Guard key s (.own i a)) (ha : a.is_own)
    (h : Client.Change (s i).client a c) (hr : (s i).client.readers 0 ≠ .reading) :
    c.socket_map.lookup (key (!i)) = entry key s i := by
  cases h with
  | quiet hq hcore hmap hn => rw [hmap]; rfl
  | tcp hans hcore hmap hn => rw [hmap]; rfl
  | @outbound peer answer _ hnew hcore hmap hn =>
    have hp : key (!i) ≠ peer := fun hp => hr (hG hp.symm hnew).2.1
    rw [hmap, AList.lookup_insert_ne hp]
    rfl
  | ldk_drop ht hcore hmap hn => rw [hmap]; rfl
  | answered hloop hstop hok hcore hmap hn => rw [hmap]; rfl
  | ended hev hloop hstop hcore hmap hn => rw [hmap]; rfl
  | inbound hpc hcore hmap hn => cases ha
  | inbound_refused hpc hcore hmap hn => cases ha
  | command hl hcore hmap hn => cases ha
  | reconnect hin hout hmap hn => cases ha

theorem plain_own {a : ClientAct} (hx : Plain key s i) (hy : Plain key s (!i)) (hG : Guard key s (.own i a))
    (h : own key s i a = some t) : Plain key t i ∧ Plain key t (!i) ∧
      Session.Move (toEnd key s i) (toEnd key s (!i)) (toEnd key t i) (toEnd key t (!i)) := by
  unfold own at h
  split at h
  · next ha =>
    obtain ⟨c, hc, h⟩ := Option.map_eq_some_iff.mp h
    have hti : t i = sends key i (s i) ((s i).client.author a) c := by simp [← h]
    have hty : t (!i) = s (!i) := by simp [← h]
    have hcc := Client.change_of_step hc
    obtain ⟨hline, -⟩ := Client.output_own ha hc
    have hin : c.incoming = (s i).client.incoming := congrArg (·.1) hline
    have hreaders : c.readers = (s i).client.readers := congrArg (·.2.1) hline
    have hpub : c.our_peer_pubkey = (s i).client.our_peer_pubkey := congrArg (·.2.2) hline
    refine ⟨?_, ?_, ?_⟩
    · refine plain_acting hx (hx.sane.change hcc) ⟨by rw [hin, hx.incoming], hpub.trans hx.pubkey⟩ (fun d q hk => ?_)
        (by rw [hti]; rfl) (by rw [hti]; rfl) ?_
      · rcases Client.kind_change hcc hk with hk | ⟨answer, rfl⟩ | ⟨k, ok, message, rfl, -⟩
        · exact hx.keyed d q hk
        · simpa [ClientAct.is_own] using ha
        · cases ha
      · rw [hreaders, hty, hti]
        rcases hx.reader with hr | ⟨message, p, rest, hr, hf, hframe, hsource, hentry⟩
        · exact .inl hr
        · exact .inr ⟨message, p, rest, hr, hf, hframe, hsource,
            (entry_kept hG ha hcc (fun he => by cases hr.symm.trans he)).trans hentry⟩
    · exact plain_facing hy (by rw [hty]) (by rw [hty]) (by rw [hty]; exact fun _ h => h) (by rw [hti]; rfl)
    · have hmove := move_own hx hG ha hc
      simpa only [toEnd, hti, hty] using hmove
  · cases h

theorem plain_deliver (hx : Plain key s i) (hy : Plain key s (!i)) (hlen : ∀ i, (key i).length = PUBKEY_BYTES_LEN)
    (h : deliver key s i = some t) : Plain key t i ∧ Plain key t (!i) := by
  obtain ⟨p, rest, c, hf, hpc, ⟨hsane, hkeyed⟩, hti, hcase⟩ := deliver_cases hx hy hlen h
  have hfl : (receives key i (s i) p).flight = (s i).flight := by
    unfold receives
    split
    · dsimp only
      split <;> rfl
    · rfl
  have hflight : (t i).flight = (s i).flight ++ (c.channel.filterMap (wire key i)).map
      fun msg => ⟨(entry key s i).getD (s i).client.next_id, msg, (receives key i (s i) p).received⟩ := by
    rw [hti, sends, hfl]
  have hsub : ∀ q ∈ rest, q ∈ (s !i).flight := fun q hq => by
    rw [hf]
    exact List.mem_cons_of_mem _ hq
  rcases hcase with ⟨data, d, hm, hentry, hc, hty⟩ | ⟨data, hm, hentry, hty, hc⟩ | ⟨hm, hty, hc⟩
  · refine ⟨plain_acting hx hsane ?_ hkeyed (by rw [hti]; rfl) hflight ?_, ?_⟩
    · rw [hc]
      exact ⟨hx.incoming, hx.pubkey⟩
    · rw [hc]
      exact .inl hpc
    · exact plain_facing hy (by rw [hty]) (by rw [hty]) (by rw [hty]; exact hsub) hflight
  · obtain ⟨hframe, -⟩ := session_frame hm
    have hentry' : (s i).client.socket_map.lookup (key (!i)) = none := hentry
    refine ⟨plain_acting hx hsane ?_ hkeyed (by rw [hti]; rfl) hflight (.inr ⟨data, p, rest, ?_, ?_, hframe, ?_, ?_⟩), ?_⟩
    · rw [hc]
      exact ⟨hx.incoming, hx.pubkey⟩
    · simp [hc]
    · rw [hty, hf]
    · rw [hti]
      simp [sends, receives, hframe, hentry']
    · rw [hc]
      exact hentry
    · exact plain_facing hy (by rw [hty]) (by rw [hty]) (by rw [hty]; exact fun _ h => h) hflight
  · have hline : c.line = (s i).client.line := by
      rw [hc]
      simp only [Client.on_command]
      split
      · exact Client.line_disconnect_socket _ _
      · rfl
    refine ⟨plain_acting hx hsane ?_ hkeyed (by rw [hti]; rfl) hflight ?_, ?_⟩
    · exact ⟨(congrFun (congrArg (·.1) hline) 0).trans hx.incoming, (congrArg (·.2.2) hline).trans hx.pubkey⟩
    · exact .inl ((congrFun (congrArg (·.2.1) hline) 0).trans hpc)
    · exact plain_facing hy (by rw [hty]) (by rw [hty]) (by rw [hty]; exact hsub) hflight

theorem plain_create {ok : Bool} (hx : Plain key s i) (hy : Plain key s (!i))
    (hlen : ∀ i, (key i).length = PUBKEY_BYTES_LEN) (h : create key s i ok = some t) :
    Plain key t i ∧ Plain key t (!i) := by
  obtain ⟨p, rest, c, hf, -, -, -, hcc, ⟨message, hpc⟩, hline, -, hty, hti⟩ := create_cases hx h
  have hin : c.incoming = (s i).client.incoming := congrArg (·.1) hline
  have hreaders : c.readers = Function.update (s i).client.readers 0 .reading := congrArg (·.2.1) hline
  have hpub : c.our_peer_pubkey = key i := congrArg (·.2.2) hline
  have hflight : (t i).flight = (s i).flight ++ (c.channel.filterMap (wire key i)).map
      fun msg => ⟨(s i).client.next_id, msg, (s i).received⟩ := by
    rw [hti, sends]
  refine ⟨plain_acting hx (hx.sane.change hcc) ⟨by rw [hin, hx.incoming], hpub⟩ (fun d q hk => ?_) (by rw [hti]; rfl)
    hflight (.inl (by rw [hreaders, Function.update_self])), ?_⟩
  · rcases Client.kind_change hcc hk with hk | ⟨answer, ha⟩ | ⟨k, ok', message', ha, hpc'⟩
    · exact hx.keyed d q hk
    · cases ha
    · cases ha
      rw [hpc] at hpc'
      cases hpc'
      exact hlen _
  · exact plain_facing hy (by rw [hty]) (by rw [hty])
      (by rw [hty, hf]; exact fun q hq => List.mem_cons_of_mem _ hq) hflight

theorem move_of_step {a : PairAct} (hlen : ∀ i, (key i).length = PUBKEY_BYTES_LEN) (hP : ∀ i, Plain key s i)
    (hG : Guard key s a) (h : step key s a = some t) : (∀ i, Plain key t i) ∧
      ∃ i, Session.Move (toEnd key s i) (toEnd key s (!i)) (toEnd key t i) (toEnd key t (!i)) := by
  have hall : ∀ i, Plain key t i ∧ Plain key t (!i) → ∀ j, Plain key t j := by
    intro i ⟨hi, hn⟩ j
    rcases Bool.eq_or_eq_not j i with rfl | rfl
    · exact hi
    · exact hn
  cases a with
  | own i a =>
    obtain ⟨hi, hn, hmove⟩ := plain_own (hP i) (hP !i) hG h
    exact ⟨hall i ⟨hi, hn⟩, i, hmove⟩
  | deliver i => exact ⟨hall i (plain_deliver (hP i) (hP !i) hlen h), i, move_deliver (hP i) (hP !i) hlen h⟩
  | create i ok => exact ⟨hall i (plain_create (hP i) (hP !i) hlen h), i, move_create (hP i) h⟩

def Sound (key : Bool → Bytes) (s : Pair) : Prop :=
  (∀ i, Plain key s i) ∧ ∀ i, Session.Inv (toEnd key s i) (toEnd key s (!i))

theorem sound_new : Sound key (new key) := by
  refine ⟨fun i => ⟨Client.sane_new _, rfl, rfl, rfl, nofun, .inl rfl, nofun⟩, fun i => ?_⟩
  exact Session.inv_of_not_live (fun d hd => nomatch hd.1) (fun d hd => nomatch hd.1) trivial nofun

theorem sound_step {a : PairAct} (hlen : ∀ i, (key i).length = PUBKEY_BYTES_LEN) (hS : Sound key s)
    (hG : Guard key s a) (h : step key s a = some t) : Sound key t := by
  obtain ⟨hP, i, hmove⟩ := move_of_step hlen hS.1 hG h
  refine ⟨hP, fun j => ?_⟩
  have hy := hS.2 (!i)
  rw [Bool.not_not] at hy
  rcases Bool.eq_or_eq_not j i with rfl | rfl
  · exact (hS.2 j).acting hy hmove
  · rw [Bool.not_not]
    exact (hS.2 i).facing hy hmove

theorem sound_of_run {as : List PairAct} (hlen : ∀ i, (key i).length = PUBKEY_BYTES_LEN)
    (h : (machine key).run (new key) as = some s) (hG : (machine key).Along (Guard key) (new key) as) : Sound key s :=
  Machine.run_invariant (I := Sound key) (fun _ _ _ hS hG hs => sound_step hlen hS hG hs) sound_new hG h

/-- In a run in which the nodes connect only when they are clear to do so, what the listener stops is stopped for a
disconnect of a subsocket of the same session: when the disconnect was sent, a frame of what is stopped had come to the
sender, or a frame of the subsocket that sent it had come to what is stopped. -/
theorem session_isolated {as : List PairAct} (hlen : ∀ i, (key i).length = PUBKEY_BYTES_LEN)
    (h : (machine key).run (new key) as = some s) (hG : (machine key).Along (Guard key) (new key) as)
    (hs : step key s (.deliver i) = some t) {d : DescId} (hlive : ((s i).client.descriptors d).stop = false)
    (hstop : ((t i).client.descriptors d).stop = true) : ∃ p rest, (s !i).flight = p :: rest ∧
      p.msg = .Text (some (.Disconnect (key i) (key (!i)))) ∧ (d ∈ p.received ∨ p.source ∈ (s i).heard d) := by
  obtain ⟨hP, hI⟩ := sound_of_run hlen h hG
  obtain ⟨p, rest, c, hf, -, -, hti, hcase⟩ := deliver_cases (hP i) (hP !i) hlen hs
  have hlive : ((s i).client.core d).stop = false := hlive
  have hstop : (c.core d).stop = true := by
    rw [hti] at hstop
    exact hstop
  rcases hcase with ⟨data, e, -, -, rfl, -⟩ | ⟨data, -, -, -, rfl⟩ | ⟨hm, -, hc⟩
  · rw [Client.core_queue, hlive] at hstop
    cases hstop
  · have hstop : ((s i).client.core d).stop = true := hstop
    rw [hlive] at hstop
    cases hstop
  · refine ⟨p, rest, hf, hm, ?_⟩
    cases hl : (s i).client.socket_map.lookup (key (!i)) with
    | none =>
      simp only [Client.on_command, hl] at hc
      rw [hc, hlive] at hstop
      cases hstop
    | some e =>
      simp only [Client.on_command, hl] at hc
      have hcore : (c.core d) = if d = e then ((s i).client.core e).dropped else (s i).client.core d := by
        rw [hc]
        exact Client.core_drop (s i).client e d
      by_cases hd : d = e
      · subst hd
        have hmem : d ∈ (toEnd key s i).live := ⟨((hP i).sane.known _ d hl).2, hlive⟩
        have hflight : (toEnd key s (!i)).flight =
            .disconnect p.source {e | e ∈ p.received} :: rest.map Parcel.session := by
          simp [toEnd, Party.toEnd, hf, (session_disconnect hm).2]
        exact (hI i).meant _ _ _ hflight d hmem
      · rw [hcore, if_neg hd, hlive] at hstop
        cases hstop

def sample_keys (i : Bool) : Bytes := .replicate PUBKEY_BYTES_LEN (if i then 3 else 2)

def short_session : List PairAct :=
  [.own false (.connect_peer (sample_keys true) .Mutiny (.initial_bytes [])), .deliver true, .create true true,
    .own false (.ldk_disconnect 0)]

theorem session_isolated_short : ∃ s t, (machine sample_keys).run (new sample_keys) short_session = some s ∧
    step sample_keys s (.deliver true) = some t ∧ ∃ p rest, (s false).flight = p :: rest ∧
      p.msg = .Text (some (.Disconnect (sample_keys true) (sample_keys false))) ∧
      (0 ∈ p.received ∨ p.source ∈ (s true).heard 0) := by
  obtain ⟨s, t, h, hs, hlive, hstop⟩ : ∃ s t, (machine sample_keys).run (new sample_keys) short_session = some s ∧
      step sample_keys s (.deliver true) = some t ∧ ((s true).client.descriptors 0).stop = false ∧
      ((t true).client.descriptors 0).stop = true := ⟨_, _, rfl, rfl, rfl, rfl⟩
  have hG : (machine sample_keys).Along (Guard sample_keys) (new sample_keys) short_session := by decide +kernel
  exact ⟨s, t, h, hs, session_isolated (fun i => by cases i <;> rfl) h hG hs hlive hstop⟩

/-- The first node connects again before the second has taken the disconnect, and the second takes that and answers the
new connection. -/
def quick_reconnect : List PairAct :=
  short_session ++ [.own false (.connect_peer (sample_keys true) .Mutiny (.initial_bytes [])), .deliver true,
    .deliver true, .create true true]

/-- A disconnect stops a subsocket that its sender has never heard of: in the short session the one that the second node
has just made, and after the quick reconnect one of a newer session. -/
theorem newer_session_ended :
    (∃ s t p, (machine sample_keys).run (new sample_keys) short_session = some s ∧
      step sample_keys s (.deliver true) = some t ∧ (s false).flight = [p] ∧ p.source = 0 ∧ 0 ∉ p.received ∧
      ((s true).client.descriptors 0).stop = false ∧ ((t true).client.descriptors 0).stop = true) ∧
    ∃ s t p, (machine sample_keys).run (new sample_keys) quick_reconnect = some s ∧
      step sample_keys s (.deliver false) = some t ∧ (s true).flight = [p] ∧ p.source = 0 ∧ 1 ∉ p.received ∧
      p.source ∉ (s false).heard 1 ∧ ((s false).client.descriptors 1).stop = false ∧
      ((t false).client.descriptors 1).stop = true :=
  ⟨⟨_, _, _, rfl, rfl, rfl, rfl, nofun, rfl, rfl⟩, _, _, _, rfl, rfl, rfl, rfl, by decide, nofun, rfl, rfl⟩

end Pair

end Mutiny
