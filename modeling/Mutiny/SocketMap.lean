import Mutiny.SocketSteps

/-!
# What the socket map holds

An entry of the socket map is fit to take a frame when LDK has its subsocket and a reader runs for it. The entries are
fit all along a run exactly when none of three things happens to a stored subsocket: LDK drops the peer, `read_event`
fails, or LDK refuses the outbound connection. Each subsocket that is in use is the stored one all along a run exactly
when no new subsocket is stored over one that was not stopped.
-/

namespace Mutiny

namespace Client

variable {s t : Client}

/-! ## Entries that can take a frame -/

/-- LDK has the descriptor, it is not stopped and its reader runs. -/
def Live (s : Client) (d : DescId) : Prop :=
  (s.core d).tracked = true ∧ (s.core d).stop = false ∧ (s.core d).loop = .running

def MapLive (s : Client) : Prop := ∀ p d, s.socket_map.lookup p = some d → s.Live d

/-- Nothing takes a stored subsocket from LDK. -/
def KeepsStored (s : Client) : ClientAct → Prop
  | .ldk_disconnect d => ∀ p, s.socket_map.lookup p ≠ some d
  | .connect_peer peer .Mutiny .refused => peer ∈ s.get_peer_node_ids
  | .read d (.Bytes _) false => ∀ p, s.socket_map.lookup p ≠ some d
  | _ => True

/-- The next frame is queued for a subsocket that is read, or the listener goes on to make a new one. -/
def TakesFrame (s : Client) : Prop := ∀ k msg rest id message, s.readers k = .reading →
  s.incoming k = some (.Bytes msg) :: rest → split_frame msg = some (id, message) → ∃ t, step s (.reader k) = some t ∧
    ((∃ d, s.Live d ∧ (s.core d).kind = .Mutiny id ∧
        (t.descriptors d).read_channel = (s.descriptors d).read_channel ++ [message]) ∨
      t.readers k = .creating id message)

theorem live_of_tracked (inv : Sane s) {p : Bytes} {d : DescId} (hl : s.socket_map.lookup p = some d)
    (h : (s.core d).tracked = true) : s.Live d := by
  have hstop : (s.core d).stop = false := by
    by_contra hs
    have hf := inv.stopped d (by simpa using hs)
    rw [h] at hf
    cases hf
  refine ⟨h, hstop, ?_⟩
  cases hloop : (s.core d).loop with
  | running => rfl
  | idle =>
    have hf := inv.idle d hloop
    rw [h] at hf
    cases hf
  | ended =>
    have hs := inv.ended d p (inv.known p d hl).2 hloop
    rw [hstop] at hs
    cases hs

theorem takes_frame (inv : Sane s) (h : MapLive s) : TakesFrame s := by
  intro k msg rest id message hpc hin hsplit
  have hread : s.reader k = some (on_bytes { s with incoming := Function.update s.incoming k rest } k msg) := by
    simp [reader, hpc, hin]
  refine ⟨_, hread, ?_⟩
  unfold on_bytes
  rw [hsplit]
  dsimp only
  cases hl : s.socket_map.lookup id with
  | some d => exact .inl ⟨d, h id d hl, (inv.known id d hl).2, by simp [queue, set]⟩
  | none => exact .inr (by simp)

theorem map_live_step (inv : Sane s) (hP : MapLive s) {a : ClientAct} (h : step s a = some t) :
    MapLive t ↔ KeepsStored s a := by
  have inv' := inv.change (change_of_step h)
  have hlt : ∀ {p d}, s.socket_map.lookup p = some d → d ≠ s.next_id := fun hl => Nat.ne_of_lt (inv.known _ _ hl).1
  have hkeep : ∀ {p d}, s.socket_map.lookup p = some d → t.core d = s.core d → t.Live d := by
    intro p d hl hc
    unfold Live
    rw [hc]
    exact hP p d hl
  cases change_of_step h with
  | quiet ha hcore hmap hn =>
    have hG : KeepsStored s a := by
      unfold KeepsStored
      split
      · cases ha
      · rcases ha with ha | ha
        · exact ha
        · cases ha
      · cases ha
      · trivial
    refine iff_of_true (fun p d hl => ?_) hG
    rw [hmap] at hl
    exact hkeep hl (hcore d)
  | tcp hans hcore hmap hn =>
    refine iff_of_true (fun p d hl => ?_) trivial
    rw [hmap] at hl
    exact hkeep hl ((hcore d).trans (if_neg (hlt hl)))
  | @outbound peer answer _ hnew hcore hmap hn =>
    have hother : ∀ p d, p ≠ peer → t.socket_map.lookup p = some d → t.Live d := by
      intro p d hp hl
      rw [hmap, AList.lookup_insert_ne hp] at hl
      exact hkeep hl ((hcore d).trans (if_neg (hlt hl)))
    have hentry : t.socket_map.lookup peer = some s.next_id := by rw [hmap, AList.lookup_insert]
    cases answer with
    | refused =>
      -- the entry is stored before LDK is asked
      refine iff_of_false (fun hlive => ?_) hnew
      have htracked := (hlive peer _ hentry).1
      rw [hcore, if_pos rfl, if_pos rfl] at htracked
      cases htracked
    | no_proxy | initial_bytes bytes =>
      refine iff_of_true (fun p d hl => ?_) trivial
      by_cases hp : p = peer
      · rw [hp, hentry] at hl
        cases hl
        apply live_of_tracked inv' hentry
        rw [hcore, if_pos rfl, if_neg nofun]
        rfl
      · exact hother p d hp hl
  | @inbound k id message _ hpc hcore hmap hn =>
    refine iff_of_true (fun p d hl => ?_) trivial
    have hl' := hl
    rw [hmap] at hl
    by_cases hp : p = id
    · subst hp
      rw [AList.lookup_insert] at hl
      cases hl
      apply live_of_tracked inv' hl'
      rw [hcore, if_pos rfl]
      rfl
    · rw [AList.lookup_insert_ne hp] at hl
      exact hkeep hl ((hcore d).trans (if_neg (hlt hl)))
  | @inbound_refused k id message _ hpc hcore hmap hn =>
    refine iff_of_true (fun p d hl => ?_) trivial
    obtain ⟨hp, hl⟩ := lookup_of_erase (hmap ▸ hl)
    rw [AList.lookup_insert_ne hp] at hl
    exact hkeep hl ((hcore d).trans (if_neg (hlt hl)))
  | @ldk_drop d _ htracked hcore hmap hn =>
    constructor
    · intro hlive p hl
      have ht := (hlive p d (hmap ▸ hl)).1
      rw [hcore, if_pos rfl] at ht
      cases ht
    · intro hout p e hl
      rw [hmap] at hl
      have hne : e ≠ d := by
        rintro rfl
        exact hout p hl
      exact hkeep hl ((hcore e).trans (if_neg hne))
  | @command k from_ d _ hfrom hcore hmap hn =>
    refine iff_of_true (fun p e hl => ?_) trivial
    obtain ⟨hp, hl⟩ := lookup_of_erase (hmap ▸ hl)
    have hne : e ≠ d := by
      rintro rfl
      exact hp (inv.lookup_inj hl hfrom)
    exact hkeep hl ((hcore e).trans (if_neg hne))
  | reconnect hin hout hmap hn =>
    refine iff_of_true (fun p d hl => ?_) trivial
    rw [hmap] at hl
    cases hl
  | @answered d b ok _ hloop hstop hok hcore hmap hn =>
    cases ok with
    | true =>
      refine iff_of_true (fun p e hl => ?_) trivial
      have hl' := hl
      rw [hmap] at hl
      by_cases he : e = d
      · subst he
        apply live_of_tracked inv' hl'
        rw [hcore, if_pos rfl]
      · exact hkeep hl ((hcore e).trans (if_neg he))
    | false =>
      constructor
      · intro hlive p hl
        have ht := (hlive p d (hmap ▸ hl)).1
        rw [hcore, if_pos rfl] at ht
        cases ht
      · intro hout p e hl
        rw [hmap] at hl
        have hne : e ≠ d := by
          rintro rfl
          exact hout p hl
        exact hkeep hl ((hcore e).trans (if_neg hne))
  | @ended d event ok _ hevent hloop hstop hcore hmap hn =>
    have hG : KeepsStored s (.read d event ok) := by
      rcases hevent with rfl | rfl <;> trivial
    refine iff_of_true (fun p e hl => ?_) hG
    rw [hmap] at hl
    have hne : e ≠ d := by
      rintro rfl
      -- the reader of a stored subsocket ends only when it is stopped
      have hs := hstop p (inv.known p e hl).2
      rw [(hP p e hl).2.1] at hs
      cases hs
    exact hkeep hl ((hcore e).trans (if_neg hne))

/-- All along a run the stored subsockets are live exactly when no step takes one of them from LDK, and whenever they are
live the next frame of a peer is queued for a live subsocket or opens a new one. -/
theorem socket_map_live {our_peer_pubkey : Bytes} {as : List ClientAct}
    (h : machine.run (new our_peer_pubkey) as = some s) :
    ((∀ bs u, bs <+: as → machine.run (new our_peer_pubkey) bs = some u → MapLive u) ↔
      machine.Along KeepsStored (new our_peer_pubkey) as) ∧
    ∀ bs u, bs <+: as → machine.run (new our_peer_pubkey) bs = some u → MapLive u → TakesFrame u := by
  refine ⟨Machine.along_iff (I := Sane) (fun _ _ _ inv hs => inv.change (change_of_step hs))
    (fun _ _ _ inv hP hs => map_live_step inv hP hs) (sane_new _) nofun h, fun bs u _ hu hlive => ?_⟩
  exact takes_frame (sane_of_run hu) hlive

/-- A peer is connected to, and a frame of it comes. -/
def first_frame : List ClientAct :=
  [.connect_peer sample_peer .Mutiny (.initial_bytes [1]), .proxy_send 0 (some (.Bytes (sample_peer ++ [7]))), .reader 0,
    .read 0 (.Bytes [7]) true]

theorem socket_map_live_connected : ∃ s, machine.run (new sample_key) first_frame = some s ∧
    s.socket_map.lookup sample_peer = some 0 ∧ (s.core 0).answers = [true] ∧
    ∀ bs u, bs <+: first_frame → machine.run (new sample_key) bs = some u → MapLive u ∧ TakesFrame u := by
  obtain ⟨hlive, htakes⟩ := @socket_map_live _ sample_key first_frame rfl
  have hkeeps : machine.Along KeepsStored (new sample_key) first_frame :=
    .cons trivial rfl <| .cons trivial rfl <| .cons trivial rfl <| .cons trivial rfl trivial
  refine ⟨_, rfl, rfl, rfl, fun bs u hb hu => ?_⟩
  have h := hlive.mpr hkeeps bs u hb hu
  exact ⟨h, htakes bs u hb hu h⟩

/-- LDK drops a peer, and the next frame of that peer is queued for the stopped subsocket. -/
theorem frame_queued_for_dead : ∃ s, machine.run (new sample_key)
      [.connect_peer sample_peer .Mutiny (.initial_bytes [1]), .ldk_disconnect 0,
        .proxy_send 0 (some (.Bytes (sample_peer ++ [7]))), .reader 0] = some s ∧
    s.socket_map.lookup sample_peer = some 0 ∧ (s.descriptors 0).tracked = false ∧ (s.descriptors 0).stop = true ∧
    (s.descriptors 0).read_channel = [[7]] ∧ ¬ MapLive s := by
  refine ⟨_, rfl, rfl, rfl, rfl, rfl, fun h => ?_⟩
  have htracked := (h sample_peer 0 rfl).1
  cases htracked

/-! ## Subsockets in use -/

/-- The subsocket that `create_new_subsocket` stores another one over. -/
def replaced (s : Client) : ClientAct → Option DescId
  | .connect_peer peer .Mutiny _ => if peer ∈ s.get_peer_node_ids then none else s.socket_map.lookup peer
  | .create k _ =>
    match s.readers k with
    | .creating id _ => s.socket_map.lookup id
    | .absent | .reading | .done => none
  | _ => none

/-- Only a stopped subsocket is replaced. -/
def ReplacesStopped (s : Client) (a : ClientAct) : Prop := ∀ d, s.replaced a = some d → (s.core d).stop = true

/-- Only a subsocket is replaced that is stopped and that LDK does not have. -/
def ReplacesDropped (s : Client) (a : ClientAct) : Prop :=
  ∀ d, s.replaced a = some d → (s.core d).stop = true ∧ (s.core d).tracked = false

/-- The subsocket of `peer` was given to LDK and is not stopped. -/
def InUse (s : Client) (d : DescId) (peer : Bytes) : Prop :=
  (s.core d).kind = .Mutiny peer ∧ (s.core d).loop ≠ .idle ∧ (s.core d).stop = false

structure Orderly (s : Client) : Prop where
  stored : ∀ d p, s.InUse d p → s.socket_map.lookup p = some d
  unique : ∀ d e p, s.InUse d p → s.InUse e p → d = e

theorem in_use_congr {d : DescId} {p : Bytes} (hc : t.core d = s.core d) (h : t.InUse d p) : s.InUse d p := by
  unfold InUse at h
  rw [hc] at h
  exact h

theorem not_in_use_of_stop {d : DescId} {p : Bytes} (hs : (s.core d).stop = true) : ¬ s.InUse d p := by
  rintro ⟨-, -, h⟩
  rw [hs] at h
  cases h

theorem stored_of_insert (hP : ∀ d p, s.InUse d p → s.socket_map.lookup p = some d) {peer : Bytes} {x : Core}
    (hover : ∀ d, s.socket_map.lookup peer = some d → (s.core d).stop = true) (hx : x.kind = .Mutiny peer)
    (hcore : ∀ d, t.core d = if d = s.next_id then x else s.core d)
    (hmap : t.socket_map = s.socket_map.insert peer s.next_id) :
    ∀ d p, t.InUse d p → t.socket_map.lookup p = some d := by
  intro d p hu
  rw [hmap]
  by_cases hd : d = s.next_id
  · have hk := hu.1
    rw [hcore, if_pos hd, hx] at hk
    cases hk
    rw [AList.lookup_insert, hd]
  · have hu := in_use_congr ((hcore d).trans (if_neg hd)) hu
    have hl := hP d p hu
    by_cases hp : p = peer
    · rw [hp] at hl
      exact (not_in_use_of_stop (hover d hl) hu).elim
    · rwa [AList.lookup_insert_ne hp]

theorem stored_step (hP : ∀ d p, s.InUse d p → s.socket_map.lookup p = some d) {a : ClientAct}
    (hG : ReplacesStopped s a) (h : step s a = some t) : ∀ d p, t.InUse d p → t.socket_map.lookup p = some d := by
  cases change_of_step h with
  | quiet ha hcore hmap hn =>
    intro d p hu
    rw [hmap]
    exact hP d p (in_use_congr (hcore d) hu)
  | @tcp peer answer _ hans hcore hmap hn =>
    intro d p hu
    rw [hmap]
    by_cases hd : d = s.next_id
    · have hk := hu.1
      rw [hcore, if_pos hd] at hk
      split at hk <;> cases hk
    · exact hP d p (in_use_congr ((hcore d).trans (if_neg hd)) hu)
  | @outbound peer answer _ hnew hcore hmap hn =>
    refine stored_of_insert hP (fun d hl => hG d ?_) ?_ hcore hmap
    · simp only [replaced, if_neg hnew]
      exact hl
    · split <;> rfl
  | @inbound k id message _ hpc hcore hmap hn =>
    refine stored_of_insert hP (fun d hl => hG d ?_) rfl hcore hmap
    simp only [replaced, hpc]
    exact hl
  | @inbound_refused k id message _ hpc hcore hmap hn =>
    intro d p hu
    rw [hmap]
    by_cases hd : d = s.next_id
    · exact (not_in_use_of_stop (by rw [hcore, if_pos hd]; rfl) hu).elim
    · have hu := in_use_congr ((hcore d).trans (if_neg hd)) hu
      have hl := hP d p hu
      by_cases hp : p = id
      · have hs := hG d (by simp only [replaced, hpc]; rw [← hp, hl])
        exact (not_in_use_of_stop hs hu).elim
      · rwa [AList.lookup_erase_ne hp, AList.lookup_insert_ne hp]
  | @ldk_drop d _ htracked hcore hmap hn =>
    intro e p hu
    rw [hmap]
    by_cases he : e = d
    · exact (not_in_use_of_stop (by rw [hcore, if_pos he]; rfl) hu).elim
    · exact hP e p (in_use_congr ((hcore e).trans (if_neg he)) hu)
  | @command k from_ d _ hfrom hcore hmap hn =>
    intro e p hu
    rw [hmap]
    by_cases he : e = d
    · exact (not_in_use_of_stop (by rw [hcore, if_pos he]; rfl) hu).elim
    · have hl := hP e p (in_use_congr ((hcore e).trans (if_neg he)) hu)
      by_cases hp : p = from_
      · rw [hp, hfrom] at hl
        exact (he (Option.some.inj hl).symm).elim
      · rwa [AList.lookup_erase_ne hp]
  | reconnect hin hout hmap hn =>
    intro d p hu
    by_cases hd : ∃ q, s.socket_map.lookup q = some d
    · obtain ⟨q, hl⟩ := hd
      exact (not_in_use_of_stop (by rw [hin q d hl]; rfl) hu).elim
    · have hl := hP d p (in_use_congr (hout d fun q hq => hd ⟨q, hq⟩) hu)
      exact (hd ⟨p, hl⟩).elim
  | @answered d b ok _ hloop hstop hok hcore hmap hn =>
    intro e p hu
    rw [hmap]
    by_cases he : e = d
    · obtain ⟨hk, hl, hs⟩ := hu
      rw [hcore, if_pos he] at hk hl hs
      subst he
      exact hP e p ⟨hk, hl, hs⟩
    · exact hP e p (in_use_congr ((hcore e).trans (if_neg he)) hu)
  | @ended d event ok _ hevent hloop hstop hcore hmap hn =>
    intro e p hu
    rw [hmap]
    by_cases he : e = d
    · -- the reader of a subsocket ends when it is stopped
      obtain ⟨hk, -, hs⟩ := hu
      rw [hcore, if_pos he] at hk hs
      have hs' := hstop p hk
      rw [hs] at hs'
      cases hs'
    · exact hP e p (in_use_congr ((hcore e).trans (if_neg he)) hu)

/-- All along a run what is replaced in the map was stopped and dropped by LDK, and each subsocket in use is the stored
one and the only one of its peer, exactly when no step stores a subsocket over one that is not stopped. -/
theorem subsockets_orderly (our_peer_pubkey : Bytes) (as : List ClientAct) :
    ((∀ bs a u, bs ++ [a] <+: as → machine.run (new our_peer_pubkey) bs = some u → ReplacesDropped u a) ∧
      ∀ bs u, bs <+: as → machine.run (new our_peer_pubkey) bs = some u → Orderly u) ↔
    machine.Along ReplacesStopped (new our_peer_pubkey) as := by
  constructor
  · rintro ⟨hsteps, -⟩
    exact Machine.along_iff_steps.mpr fun bs a u hb hu d hd => (hsteps bs a u hb hu d hd).1
  · intro hal
    refine ⟨fun bs a u hb hu d hd => ?_, fun bs u hb hu => ?_⟩
    · have hs := Machine.along_iff_steps.mp hal bs a u hb hu d hd
      exact ⟨hs, (sane_of_run hu).stopped d hs⟩
    · have hstored : ∀ d p, u.InUse d p → u.socket_map.lookup p = some d :=
        Machine.run_invariant (G := ReplacesStopped) (I := fun u => ∀ d p, u.InUse d p → u.socket_map.lookup p = some d)
          (fun _ _ _ hP hG hs => stored_step hP hG hs) (fun _ _ h => (h.2.1 rfl).elim) (hal.of_prefix hb) hu
      refine ⟨hstored, fun d e p hd he => ?_⟩
      have hl := hstored d p hd
      rw [hstored e p he] at hl
      exact (Option.some.inj hl).symm

/-- A peer is connected twice before its handshake: the first subsocket is replaced while LDK has it, and both are in
use. -/
theorem subsocket_orphaned : ∃ s t,
    machine.run (new sample_key) [.connect_peer sample_peer .Mutiny (.initial_bytes [1])] = some s ∧
    step s (.connect_peer sample_peer .Mutiny (.initial_bytes [1])) = some t ∧
    s.replaced (.connect_peer sample_peer .Mutiny (.initial_bytes [1])) = some 0 ∧ (s.core 0).stop = false ∧
    (s.core 0).tracked = true ∧ t.InUse 0 sample_peer ∧ t.InUse 1 sample_peer ∧
    t.socket_map.lookup sample_peer = some 1 :=
  ⟨_, _, rfl, rfl, rfl, rfl, rfl, ⟨rfl, nofun, rfl⟩, ⟨rfl, nofun, rfl⟩, rfl⟩

end Client

end Mutiny
