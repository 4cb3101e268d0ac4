import Mathlib.Data.List.Nodup
import Mutiny.ProxyDisconnects

/-!
# The listener tasks of a loop

`listen_for_disconnections` adds a peer to `connected_peers` and spawns a task that takes it out at its end. A
`Disconnect` of the client takes it out too, and leaves the task. So the connected peers are those with a live task as
long as no loop drops a peer whose task lives, and a peer is told of once if no second task is spawned for its session.
-/

namespace Mutiny

namespace Proxy

variable {s t : Proxy}

/-- The tasks of the loop that have not ended. -/
def live_listeners (s : Proxy) (c : ConnId) : List Listener :=
  s.listeners.filter fun task => task.owner = c ∧ task.pc ≠ .done

/-- A peer has at most one live task, and is connected exactly while it has one. -/
structure Matched (s : Proxy) : Prop where
  distinct : ∀ c, (s.handlers c).connected_peers.Nodup
  one : ∀ c, ((s.live_listeners c).map Listener.other_peer).Nodup
  listed : ∀ c id, id ∈ (s.handlers c).connected_peers ↔ ∃ task ∈ s.live_listeners c, task.other_peer = id
  bounded : ∀ c, (s.live_listeners c).length ≤ (s.handlers c).connected_peers.length

/-- The session that a task waits for the end of, with the loop that it tells. -/
def session_of (task : Listener) : ConnId × ConnId := (task.owner, task.peer)

/-- The loop that goes on from a `Disconnect` of its client, and the peer that it drops. -/
def drops (s : Proxy) : ProxyAct → Option (ConnId × Bytes)
  | .resume c =>
    match (s.handlers c).pc with
    | .drop_peer peer_id => some (c, peer_id)
    | _ => none
  | _ => none

/-- The session for which a task is spawned. -/
def spawns (s : Proxy) : ProxyAct → Option (ConnId × ConnId)
  | .resume c =>
    match (s.handlers c).pc with
    | .listen peer_id peer _ => if peer_id ∈ (s.handlers c).connected_peers then none else some (c, peer)
    | _ => none
  | _ => none

/-- A loop does not drop a peer whose task lives. -/
def NoLiveDrop (s : Proxy) (a : ProxyAct) : Prop :=
  ∀ x ∈ s.drops a, ∀ task ∈ s.live_listeners x.1, task.other_peer ≠ x.2

/-- A session gets no second task. -/
def NoSecond (s : Proxy) (a : ProxyAct) : Prop := ∀ x ∈ s.spawns a, ∀ task ∈ s.listeners, session_of task ≠ x

instance (s : Proxy) (a : ProxyAct) : Decidable (s.NoLiveDrop a) := inferInstanceAs (Decidable (∀ x ∈ s.drops a, _))

instance (s : Proxy) (a : ProxyAct) : Decidable (s.NoSecond a) := inferInstanceAs (Decidable (∀ x ∈ s.spawns a, _))

/-- The loop that a listener task tells of an end, and the loop that has ended. -/
def told (s : Proxy) : ProxyAct → List (ConnId × ConnId)
  | .listener i => (s.pushes (.listener i)).flatMap fun p => s.listeners[i]?.toList.map fun task => (p.peer, task.peer)
  | _ => []

/-! ## Peers and live tasks -/

def live_peer (c : ConnId) (task : Listener) : List Bytes :=
  if task.owner = c ∧ task.pc ≠ .done then [task.other_peer] else []

def live_peers (s : Proxy) (c : ConnId) : List Bytes := s.listeners.flatMap (live_peer c)

theorem map_live_listeners (s : Proxy) (c : ConnId) : (s.live_listeners c).map Listener.other_peer = s.live_peers c := by
  unfold live_listeners live_peers
  induction s.listeners with
  | nil => rfl
  | cons task tasks ih =>
    rw [List.flatMap_cons, ← ih]
    by_cases h : task.owner = c ∧ task.pc ≠ .done <;> simp [live_peer, h]

/-- Two lists without repetitions that have the same members. -/
structure Same (peers ids : List Bytes) : Prop where
  distinct : peers.Nodup
  one : ids.Nodup
  mem : ∀ id, id ∈ peers ↔ id ∈ ids

theorem matched_iff : Matched s ↔ ∀ c, Same (s.handlers c).connected_peers (s.live_peers c) := by
  have hmem : ∀ c id, id ∈ s.live_peers c ↔ ∃ task ∈ s.live_listeners c, task.other_peer = id := by
    intro c id
    rw [← map_live_listeners]
    exact List.mem_map
  constructor
  · intro h c
    exact ⟨h.distinct c, map_live_listeners s c ▸ h.one c, fun id => (h.listed c id).trans (hmem c id).symm⟩
  · intro h
    refine ⟨fun c => (h c).distinct, ?_, fun c id => ((h c).mem id).trans (hmem c id), ?_⟩
    · intro c
      rw [map_live_listeners]
      exact (h c).one
    · intro c
      have hperm : (s.handlers c).connected_peers.Perm (s.live_peers c) :=
        (List.perm_ext_iff_of_nodup (h c).distinct (h c).one).mpr (h c).mem
      rw [hperm.length_eq, ← map_live_listeners, List.length_map]

theorem Same.drop {peers ids : List Bytes} (h : Same peers ids) (id : Bytes) :
    Same (peers.filter (· ≠ id)) ids ↔ id ∉ ids := by
  constructor
  · intro h' hid
    have hmem := (h'.mem id).mpr hid
    simp at hmem
  · intro hid
    refine ⟨h.distinct.filter _, h.one, ?_⟩
    intro id'
    rw [List.mem_filter, h.mem]
    constructor
    · exact fun hmem => hmem.1
    · intro hmem
      refine ⟨hmem, ?_⟩
      have hne : id' ≠ id := fun he => hid (he ▸ hmem)
      simpa using hne

theorem Same.listen {peers ids : List Bytes} (h : Same peers ids) {id : Bytes} (hout : id ∉ peers) :
    Same (id :: peers) (ids ++ [id]) := by
  have hids : id ∉ ids := fun hmem => hout ((h.mem id).mpr hmem)
  refine ⟨List.nodup_cons.mpr ⟨hout, h.distinct⟩, ?_, ?_⟩
  · apply List.nodup_append.mpr
    refine ⟨h.one, by simp, ?_⟩
    intro a ha b hb
    cases List.mem_singleton.mp hb
    exact fun he => hids (he ▸ ha)
  · intro id'
    simp [h.mem, or_comm]

theorem Same.clear {peers l r : List Bytes} {id : Bytes} (h : Same peers (l ++ id :: r)) :
    Same (peers.filter (· ≠ id)) (l ++ r) := by
  obtain ⟨hnot, hone⟩ := List.nodup_cons.mp (List.perm_middle.nodup_iff.mp h.one)
  refine ⟨h.distinct.filter _, hone, ?_⟩
  intro id'
  rw [List.mem_filter, h.mem]
  by_cases hid : id' = id
  · subst hid
    simpa using hnot
  · simp [hid]

/-! ## What a step does to them -/

@[simp] theorem set_listeners (s : Proxy) (c : ConnId) (h : Handler) : (s.set c h).listeners = s.listeners := rfl

@[simp] theorem set_listener_handlers (s : Proxy) (i : TaskId) (task : Listener) (pc : TaskPc) :
    (s.set_listener i task pc).handlers = s.handlers := rfl

@[simp] theorem goto_connected_peers (s : Proxy) (c d : ConnId) (pc : Pc) :
    ((s.goto c pc).handlers d).connected_peers = (s.handlers d).connected_peers := by
  unfold goto
  by_cases h : d = c <;> simp [h]

@[simp] theorem push_connected_peers (s : Proxy) (c d : ConnId) (command : MutinyWSCommand) :
    ((s.push c command).handlers d).connected_peers = (s.handlers d).connected_peers := by
  unfold push
  by_cases h : d = c <;> simp [h]

/-- One task goes on, and only its own peer can leave the list. -/
theorem live_peers_set {i : TaskId} {task : Listener} (ht : s.listeners[i]? = some task) {u : Proxy}
    (hu : u.listeners = s.listeners) (pc : TaskPc) (c : ConnId) : ∃ l r,
      s.live_peers c = l ++ live_peer c task ++ r ∧
      (u.set_listener i task pc).live_peers c = l ++ live_peer c { task with pc } ++ r := by
  obtain ⟨hi, rfl⟩ := List.getElem?_eq_some_iff.mp ht
  obtain ⟨l, r, hsplit, -, hset⟩ := @List.exists_of_set _ i { s.listeners[i] with pc } s.listeners hi
  refine ⟨l.flatMap (live_peer c), r.flatMap (live_peer c), ?_, ?_⟩
  · have hs : s.live_peers c = _ := congrArg (List.flatMap (live_peer c)) hsplit
    rw [hs]
    simp
  · have hs : (u.set_listener i s.listeners[i] pc).live_peers c = _ :=
      congrArg (List.flatMap (live_peer c)) ((congrArg (List.set · i _) hu).trans hset)
    rw [hs]
    simp

theorem live_peers_moved {i : TaskId} {task : Listener} (ht : s.listeners[i]? = some task) {u : Proxy}
    (hu : u.listeners = s.listeners) {pc : TaskPc} (hlive : task.pc ≠ .done) (hpc : pc ≠ .done) (c : ConnId) :
    (u.set_listener i task pc).live_peers c = s.live_peers c := by
  obtain ⟨l, r, hs, hset⟩ := live_peers_set ht hu pc c
  rw [hs, hset]
  simp [live_peer, hlive, hpc]

/-- Where the peers and the live tasks stay what they are, they match as before. -/
theorem Matched.congr (h : Matched s) (hp : ∀ c, (t.handlers c).connected_peers = (s.handlers c).connected_peers)
    (hl : ∀ c, t.live_peers c = s.live_peers c) : Matched t := by
  apply matched_iff.mpr
  intro c
  rw [hp, hl]
  exact matched_iff.mp h c

/-- A loop goes on with the same peers. -/
theorem Matched.set (h : Matched s) {c : ConnId} {handler : Handler}
    (hp : handler.connected_peers = (s.handlers c).connected_peers) : Matched (s.set c handler) := by
  apply h.congr
  · intro d
    by_cases hd : d = c
    · subst hd
      simp [hp]
    · simp [hd]
  · exact fun _ => rfl

theorem matched_connect (hh : Housed s) (h : Matched s) (identifier : String) : Matched (s.connect identifier) := by
  apply h.congr
  · intro c
    by_cases hc : c = s.conns
    · subst hc
      -- a number that is new has no tasks, so it had no peers
      have hnone : (s.handlers s.conns).connected_peers = [] := by
        apply List.eq_nil_iff_forall_not_mem.mpr
        intro id hid
        obtain ⟨task, htask, -⟩ := (h.listed _ id).mp hid
        obtain ⟨hmem, howner⟩ := List.mem_filter.mp htask
        have hlt := hh.owners task hmem
        simp only [decide_eq_true_eq] at howner
        exact absurd howner.1 (Nat.ne_of_lt hlt)
      rw [hnone]
      simp [connect, Handler.none]
    · simp [connect, hc]
  · exact fun _ => rfl

theorem matched_resume (h : Matched s) {c : ConnId} (k : Resumed s c t) : Matched t ↔ NoLiveDrop s (.resume c) := by
  have hall := matched_iff.mp h
  cases k with
  | @drop_peer peer_id hpc =>
    have hguard : NoLiveDrop s (.resume c) ↔ peer_id ∉ s.live_peers c := by
      rw [← map_live_listeners]
      simp [NoLiveDrop, drops, hpc]
    rw [hguard, ← (hall c).drop peer_id]
    constructor
    · intro ht
      simpa [live_peers] using matched_iff.mp ht c
    · intro hc
      apply matched_iff.mpr
      intro d
      by_cases hd : d = c
      · subst hd
        simpa [live_peers] using hc
      · simpa [live_peers, hd] using hall d
  | @listen peer_id peer late hpc hout =>
    apply iff_of_true
    · apply matched_iff.mpr
      intro d
      by_cases hd : d = c
      · subst hd
        simpa [live_peers, live_peer] using (hall d).listen hout
      · simpa [live_peers, live_peer, hd, Ne.symm hd] using hall d
    · simp [NoLiveDrop, drops, hpc]
  | register hpc hfree | no_peer hpc hfree hm | find_peer hpc hfree hm | no_recipient hpc hfree hm
  | find_recipient hpc hfree hm | peer_ended hpc hdone | disconnect hpc hdone hroom | recipient_ended hpc hdone
  | send hpc hdone hroom | subscribe hpc | connected hpc hin | send_self hpc hroom | finish hpc hfree =>
    exact iff_of_true (h.congr (fun d => by simp) fun _ => rfl) (by simp [NoLiveDrop, drops, hpc])

theorem matched_listener (h : Matched s) {i : TaskId} (k : Woken s i t) : Matched t := by
  cases k with
  | wake ht hpc hwakes => exact h.congr (fun _ => rfl) (live_peers_moved ht rfl (by simp [hpc]) (by simp))
  | owner_ended ht hpc hdone => exact h.congr (fun _ => rfl) (live_peers_moved ht rfl (by simp [hpc]) (by simp))
  | tell ht hpc hdone hroom =>
    apply h.congr
    · intro c
      exact push_connected_peers s _ c _
    · exact live_peers_moved ht rfl (by simp [hpc]) (by simp)
  | @clear task ht hpc =>
    apply matched_iff.mpr
    intro c
    have hsame := matched_iff.mp h c
    obtain ⟨l, r, hs, hset⟩ := live_peers_set (u := s.set task.owner { s.handlers task.owner with
      connected_peers := (s.handlers task.owner).connected_peers.filter (· ≠ task.other_peer) }) ht rfl .done c
    rw [hset]
    rw [hs] at hsame
    by_cases hc : c = task.owner
    · subst hc
      have hlive : live_peer task.owner task = [task.other_peer] := by simp [live_peer, hpc]
      have hdone : live_peer task.owner { task with pc := .done } = [] := by simp [live_peer]
      rw [hlive, List.append_assoc, List.singleton_append] at hsame
      rw [hdone, List.append_nil, set_listener_handlers, set_handlers, if_pos rfl]
      exact hsame.clear
    · have hother : ∀ pc, live_peer c { task with pc } = [] := by
        intro pc
        simp [live_peer, Ne.symm hc]
      rw [hother, set_listener_handlers, set_handlers, if_neg hc]
      rwa [hother task.pc] at hsame

theorem matched_step (hh : Housed s) (h : Matched s) {a : ProxyAct} (hs : step s a = some t) :
    Matched t ↔ NoLiveDrop s a := by
  cases stepped_of_step hs with
  | connect identifier => exact iff_of_true (matched_connect hh h identifier) nofun
  | resume _ k => exact matched_resume h k
  | listener _ k => exact iff_of_true (matched_listener h k) nofun
  | client_send | client_close | read | gone | write | write_error => exact iff_of_true (h.set rfl) nofun

/-! ## What the tasks tell -/

/-- No session has two tasks, and what was told was told once, by a task that has told since. -/
structure Once (s : Proxy) (log : List (ConnId × ConnId)) : Prop where
  single : (s.listeners.map session_of).Nodup
  by_task : ∀ x ∈ log, ∃ (i : TaskId) (task : Listener),
    s.listeners[i]? = some task ∧ session_of task = x ∧ (task.pc = .clearing ∨ task.pc = .done)
  once : log.Nodup

theorem once_new : Once new [] := ⟨.nil, fun _ h => absurd h List.not_mem_nil, .nil⟩

variable {log : List (ConnId × ConnId)}

theorem Once.keep (h : Once s log) (hl : t.listeners = s.listeners) : Once t log := by
  refine ⟨?_, ?_, h.once⟩
  · rw [hl]
    exact h.single
  · rw [hl]
    exact h.by_task

theorem Once.spawn (h : Once s log) {task : Listener} (hl : t.listeners = s.listeners ++ [task])
    (hnew : ∀ task' ∈ s.listeners, session_of task' ≠ session_of task) : Once t log := by
  refine ⟨?_, ?_, h.once⟩
  · rw [hl, List.map_append]
    apply List.nodup_append.mpr
    refine ⟨h.single, by simp, ?_⟩
    intro x hx y hy
    obtain ⟨task', hmem, rfl⟩ := List.mem_map.mp hx
    cases List.mem_singleton.mp hy
    exact hnew task' hmem
  · intro x hx
    obtain ⟨i, task', hi, hsession, hpc⟩ := h.by_task x hx
    refine ⟨i, task', ?_, hsession, hpc⟩
    rw [hl]
    exact (List.getElem?_append_left (List.getElem?_eq_some_iff.mp hi).1).trans hi

theorem Once.move (h : Once s log) {i : TaskId} {task : Listener} (ht : s.listeners[i]? = some task) {pc : TaskPc}
    (hl : t.listeners = s.listeners.set i { task with pc })
    (hpc : task.pc = .clearing ∨ task.pc = .done → pc = .clearing ∨ pc = .done) : Once t log := by
  obtain ⟨hi, rfl⟩ := List.getElem?_eq_some_iff.mp ht
  refine ⟨?_, ?_, h.once⟩
  · have hmap : t.listeners.map session_of = s.listeners.map session_of := by
      obtain ⟨l, r, hsplit, -, hset⟩ := @List.exists_of_set _ i { s.listeners[i] with pc } s.listeners hi
      have hs : s.listeners.map session_of = _ := congrArg (List.map session_of) hsplit
      rw [hl, hset, hs]
      simp [session_of]
    rw [hmap]
    exact h.single
  · intro x hx
    obtain ⟨j, task', hj, hsession, hpc'⟩ := h.by_task x hx
    by_cases hij : i = j
    · subst hij
      cases ht.symm.trans hj
      have hset : t.listeners[i]? = some { s.listeners[i] with pc } := by
        rw [hl]
        exact List.getElem?_set_self hi
      exact ⟨i, _, hset, hsession, hpc hpc'⟩
    · exact ⟨j, task', by rw [hl]; exact (List.getElem?_set_ne hij).trans hj, hsession, hpc'⟩

theorem Once.tell (h : Once s log) {i : TaskId} {task : Listener} (ht : s.listeners[i]? = some task)
    (hpc : task.pc = .sending) (hl : t.listeners = s.listeners.set i { task with pc := .clearing }) :
    Once t (log ++ [session_of task]) := by
  have hmove := h.move ht hl fun _ => .inl rfl
  -- whoever told of the session before is the task itself
  have hnew : session_of task ∉ log := by
    intro hmem
    obtain ⟨j, task', hj, hsession, hpc'⟩ := h.by_task _ hmem
    have heq : task' = task :=
      List.inj_on_of_nodup_map h.single (List.mem_of_getElem? hj) (List.mem_of_getElem? ht) hsession
    rw [heq, hpc] at hpc'
    rcases hpc' with hc | hc <;> cases hc
  refine ⟨hmove.single, ?_, ?_⟩
  · intro x hx
    rcases List.mem_append.mp hx with hx | hx
    · exact hmove.by_task x hx
    · cases List.mem_singleton.mp hx
      have hi := (List.getElem?_eq_some_iff.mp ht).1
      exact ⟨i, { task with pc := .clearing }, by rw [hl]; exact List.getElem?_set_self hi, rfl, .inl rfl⟩
  · apply List.nodup_append.mpr
    refine ⟨h.once, by simp, ?_⟩
    intro x hx y hy he
    cases List.mem_singleton.mp hy
    exact hnew (he ▸ hx)

theorem once_step (h : Once s log) {a : ProxyAct} (hG : NoSecond s a) (hs : step s a = some t) :
    Once t (log ++ s.told a) := by
  cases stepped_of_step hs with
  | @resume c _ _ k =>
    show Once t (log ++ [])
    rw [List.append_nil]
    cases k with
    | @listen peer_id peer late hpc hout =>
      have hspawns : s.spawns (.resume c) = some (c, peer) := by simp [spawns, hpc, hout]
      exact h.spawn rfl (hG _ hspawns)
    | _ => exact h.keep rfl
  | @listener i _ _ k =>
    cases k with
    | wake ht hpc hwakes =>
      have hnone : s.told (.listener i) = [] := by simp [told, pushes, ht, hpc]
      rw [hnone, List.append_nil]
      exact h.move ht rfl (by simp [hpc])
    | owner_ended ht hpc hdone =>
      have hnone : s.told (.listener i) = [] := by simp [told, pushes, ht, hdone]
      rw [hnone, List.append_nil]
      exact h.move ht rfl (by simp [hpc])
    | @tell task ht hpc hdone hroom =>
      have hone : s.told (.listener i) = [session_of task] := by simp [told, pushes, ht, hpc, hdone, session_of]
      rw [hone]
      exact h.tell ht hpc rfl
    | clear ht hpc =>
      have hnone : s.told (.listener i) = [] := by simp [told, pushes, ht, hpc]
      rw [hnone, List.append_nil]
      exact h.move ht rfl fun _ => .inr rfl
  | _ =>
    show Once _ (log ++ [])
    rw [List.append_nil]
    exact h.keep rfl

/-! ## Runs -/

theorem matched_new : Matched new := ⟨fun _ => .nil, fun _ => .nil, fun _ _ => ⟨nofun, nofun⟩, fun _ => Nat.le_refl _⟩

/-- All along a run the connected peers are those with a live task, each with one, exactly when no loop drops a peer
whose task lives; and where no second task is spawned for a session, the end of a session is told at most once. -/
theorem one_listener_each {as : List ProxyAct} (h : machine.run new as = some s) :
    ((∀ bs u, bs <+: as → machine.run new bs = some u → Matched u) ↔ machine.Along NoLiveDrop new as) ∧
      (machine.Along NoSecond new as → (machine.trace told new as).Nodup) := by
  constructor
  · exact Machine.along_iff (I := fun s => Locked s ∧ Housed s)
      (fun _ _ _ inv hs => ⟨inv.1.trans (trans_of_step hs), inv.2.trans inv.1 hs⟩)
      (fun _ _ _ inv hP hs => matched_step inv.2 hP hs) ⟨locked_new, housed_new⟩ matched_new h
  · have honce : machine.Along NoSecond new as → Once s (machine.trace told new as) := by
      refine Machine.history_invariant (M := machine)
        (I := fun as s => machine.Along NoSecond new as → Once s (machine.trace told new as)) (fun _ => once_new) ?_ h
      intro as s a t hrun ih hs hG
      have hguard := Machine.along_iff_steps.mp hG as a s List.prefix_rfl hrun
      rw [Machine.trace_snoc _ _ hrun]
      exact once_step (ih hG.append_left) hguard hs
    exact fun hG => (honce hG).once

theorem session_listeners : ∃ s, machine.run new (session ++ [.listener 0]) = some s ∧
    (∀ bs u, bs <+: session ++ [.listener 0] → machine.run new bs = some u → Matched u) ∧
      (machine.trace told new (session ++ [.listener 0])).Nodup := by
  obtain ⟨s, h⟩ : ∃ s, machine.run new (session ++ [.listener 0]) = some s := ⟨_, rfl⟩
  exact ⟨s, h, (one_listener_each h).1.mpr (by decide +kernel), (one_listener_each h).2 (by decide +kernel)⟩

/-- The first client sends to the second, disconnects from it and sends to it again; then the second goes away. -/
def dropped_session : List ProxyAct :=
  [.connect "020202020202020202020202020202020202020202020202020202020202020202",
    .connect "030303030303030303030303030303030303030303030303030303030303030303", .resume 0, .resume 1,
    .client_send 0 (.Binary (.replicate 33 3 ++ [1])), .read 0, .resume 0, .resume 0, .resume 0, .resume 0,
    .client_send 0 (.Text (some (.Disconnect (.replicate 33 3) (.replicate 33 2)))), .read 0, .resume 0, .resume 0,
    .resume 0, .client_send 0 (.Binary (.replicate 33 3 ++ [2])), .read 0, .resume 0, .resume 0, .resume 0, .resume 0,
    .client_close 1, .read 1, .listener 0, .listener 1, .listener 0, .listener 1]

/-- Two tasks live for the one connected peer, and both have told of its end. -/
theorem dropped_peer_told_twice : ∃ s, machine.run new dropped_session = some s ∧
    (s.live_listeners 0).map Listener.other_peer = [.replicate 33 3, .replicate 33 3] ∧
    (s.handlers 0).connected_peers = [.replicate 33 3] ∧ ¬ Matched s ∧
    machine.trace told new dropped_session = [(0, 1), (0, 1)] := by
  refine ⟨_, rfl, rfl, rfl, ?_, rfl⟩
  intro h
  exact absurd (h.one 0) (by decide)

end Proxy

end Mutiny
