import Mutiny.NewNode

/-!
# When a new node fails

The list of nodes is stored, and copied into memory, before the new node is opened, and nothing takes the entry back when
that fails. So a call that returns an error leaves everything as it was exactly when it could not store the list, or the
node did not fail with an error (`new_node_atomic`).
-/

namespace Mutiny

open Prog

section
variable [Serde String] [Serde (List UInt8)] (host : Host) (storage : MutinyBrowserStorage)
  {Mnemonic Keys Monitor Manager : Type} (ldk : Ldk Mnemonic Keys Monitor Manager)

/-! ## How opening a node ends -/

/-- Opening a node panics: its keys cannot be derived, or a record it reads on the way cannot be decrypted. -/
def Node.Panics (node_index : NodeIndex) (mnemonic : Mnemonic) (net : Net) (store : Store) : Prop :=
  let persister : MutinyNodePersister := ⟨node_index.uuid, storage⟩
  match ldk.derive mnemonic node_index.child_index with
  | none => True
  | some keys =>
    storage.scanned (α := List UInt8) host "monitors/" (some node_index.uuid) store = none ∨
      ∃ monitors, stored_monitors host ldk persister keys store = some monitors ∧
        match found host storage (List UInt8) (persister.get_key "manager") store with
        | some (.ok bytes) => (ldk.read_manager keys monitors bytes).isSome ∧ ¬ GraphReadable host persister store
        | some (.error .panic) => True
        | _ => net.tip.isSome ∧ ¬ GraphReadable host persister
            (exec (persister.run_background host net.background : StorageM MutinyError Unit) store).2

def Panicked {ε α : Type} (x : StorageM ε α) (store : Store) : Prop := (exec x store).1 = .error .panic

omit [Serde String] [Serde (List UInt8)] in
theorem panicked_iff {ε α : Type} {x : StorageM ε α} {s t : Store} {r : Except (Fault ε) α} (h : exec x s = (r, t)) :
    Panicked x s ↔ r = .error .panic := by
  unfold Panicked
  rw [h]

omit [Serde String] [Serde (List UInt8)] in
theorem panicked_of_ok {ε α β : Type} {x : StorageM ε α} {f : α → StorageM ε β} {s t : Store} {a : α}
    (h : exec x s = (.ok a, t)) : Panicked (x >>= f) s ↔ Panicked (f a) t := by
  unfold Panicked
  rw [exec_bind_ok h]

omit [Serde String] [Serde (List UInt8)] in
theorem panicked_of_error {ε α β : Type} {x : StorageM ε α} {f : α → StorageM ε β} {s t : Store} {e : Fault ε}
    (h : exec x s = (.error e, t)) : Panicked (x >>= f) s ↔ e = .panic := by
  rw [panicked_iff (exec_bind_error h)]
  simp

theorem panicked_node_rest (persister : MutinyNodePersister) (read : ReadChannelManager Monitor Manager) (net : Net)
    (addr pubkey : String) (node : List Monitor → Node Keys Monitor Manager) (store : Store) :
    Panicked (do
        let chain_monitor ← Node.watch_channels host ldk persister read
        let _ ← persister.read_network_graph host
        WsProxy.new net addr pubkey
        return node chain_monitor : StorageM MutinyError (Node Keys Monitor Manager)) store ↔
      ¬ GraphReadable host persister store := by
  obtain ⟨watched, t, ht⟩ := exec_watch_channels host ldk persister read store
  rw [panicked_of_ok ht, ← graph_readable_watched host ldk persister read store ht]
  rcases exec_read_network_graph (ε := MutinyError) host persister t with ⟨hr, graph, hg⟩ | ⟨hr, hg⟩
  · rw [panicked_of_ok hg]
    refine iff_of_false (fun hp => ?_) (fun hn => hn hr)
    unfold WsProxy.new at hp
    by_cases ho : net.opens (mutiny_conn_proxy_to_url addr pubkey) = true
    · rw [if_pos ho, panicked_of_ok (exec_pure _ _)] at hp
      cases hp
    · rw [if_neg ho, panicked_of_error (exec_throw _ _)] at hp
      cases hp
  · rw [panicked_of_error hg]
    exact iff_of_true rfl hr

theorem panicked_node_managed (uuid : String) (network : Network) (keys : Keys) (monitors : List Monitor) (net : Net)
    (addr : String) (node : ReadChannelManager Monitor Manager → List Monitor → Node Keys Monitor Manager)
    (store : Store) :
    let persister : MutinyNodePersister := ⟨uuid, storage⟩
    Panicked (do
        let read ← persister.read_channel_manager host ldk network keys monitors net
        let chain_monitor ← Node.watch_channels host ldk persister read
        let _ ← persister.read_network_graph host
        WsProxy.new net addr (ldk.node_id keys)
        return node read chain_monitor : StorageM MutinyError (Node Keys Monitor Manager)) store ↔
      match found host storage (List UInt8) (persister.get_key "manager") store with
      | some (.ok bytes) => (ldk.read_manager keys monitors bytes).isSome ∧ ¬ GraphReadable host persister store
      | some (.error .panic) => True
      | _ => net.tip.isSome ∧ ¬ GraphReadable host persister
          (exec (persister.run_background host net.background : StorageM MutinyError Unit) store).2 := by
  intro persister
  have hv := exec_read_value host persister "manager" store
  have hfresh : ∀ e, exec (persister.read_value host "manager") store = (.error (.err e), store) →
      (Panicked (do
          let read ← persister.read_channel_manager host ldk network keys monitors net
          let chain_monitor ← Node.watch_channels host ldk persister read
          let _ ← persister.read_network_graph host
          WsProxy.new net addr (ldk.node_id keys)
          return node read chain_monitor : StorageM MutinyError (Node Keys Monitor Manager)) store ↔
        net.tip.isSome ∧ ¬ GraphReadable host persister
          (exec (persister.run_background host net.background : StorageM MutinyError Unit) store).2) := by
    intro e he
    have hx := exec_read_channel_manager_fresh host ldk he network keys monitors net
    cases ht : net.tip with
    | none =>
      rw [ht] at hx
      rw [panicked_of_error hx]
      exact iff_of_false nofun (by simp)
    | some tip =>
      rw [ht] at hx
      rw [panicked_of_ok hx, panicked_node_rest host ldk persister _ net addr (ldk.node_id keys) (node _)]
      simp
  match hf : found host storage (List UInt8) (persister.get_key "manager") store with
  | none =>
    rw [hf] at hv
    exact hfresh _ hv
  | some (.error (.err e)) =>
    rw [hf] at hv
    exact hfresh _ hv
  | some (.error .panic) =>
    rw [hf] at hv
    rw [panicked_of_error (exec_read_channel_manager_panic host ldk hv network keys monitors net)]
    exact iff_of_true rfl trivial
  | some (.ok bytes) =>
    rw [hf] at hv
    have hx := exec_read_channel_manager_stored host ldk hv network keys monitors net
    cases hr : ldk.read_manager keys monitors bytes with
    | none =>
      rw [hr] at hx
      rw [panicked_of_error hx]
      exact iff_of_false nofun (by simp [hr])
    | some manager =>
      rw [hr] at hx
      rw [panicked_of_ok hx, panicked_node_rest host ldk persister _ net addr (ldk.node_id keys) (node _)]
      simp [hr]

theorem panicked_node_new (node_index : NodeIndex) (mnemonic : Mnemonic) (network : Network) (addr : String) (net : Net)
    (store : Store) : Panicked (Node.new host ldk node_index mnemonic storage network addr net) store ↔
      Node.Panics host storage ldk node_index mnemonic net store := by
  unfold Node.new Node.Panics create_keys_manager
  dsimp only
  cases hk : ldk.derive mnemonic node_index.child_index with
  | none => exact iff_of_true ((panicked_of_error (exec_throw _ _)).mpr rfl) trivial
  | some keys =>
    dsimp only
    rw [panicked_of_ok (exec_pure keys store)]
    have hread := exec_read_channel_monitors host ldk ⟨node_index.uuid, storage⟩ keys store
    cases hs : storage.scanned (α := List UInt8) host "monitors/" (some node_index.uuid) store with
    | none =>
      rw [hs] at hread
      rw [panicked_of_error (convert_error _ hread)]
      exact iff_of_true rfl (.inl rfl)
    | some map =>
      simp only [hs] at hread
      simp only [reduceCtorEq, false_or]
      cases hm : (host.order map.entries).mapM fun entry => ldk.read_monitor keys entry.2 with
      | none =>
        have hstored : stored_monitors host ldk ⟨node_index.uuid, storage⟩ keys store = none := by
          simp [stored_monitors, hs, hm]
        rw [hm] at hread
        rw [panicked_of_error (convert_error _ hread), hstored]
        exact iff_of_false nofun nofun
      | some monitors =>
        have hstored : stored_monitors host ldk ⟨node_index.uuid, storage⟩ keys store = some monitors := by
          simp [stored_monitors, hs, hm]
        rw [hm] at hread
        rw [panicked_of_ok (convert_ok _ hread), hstored]
        simp only [Option.some.injEq, exists_eq_left']
        exact panicked_node_managed host storage ldk node_index.uuid network keys monitors net addr _ store

end

/-! ## The call as a whole -/

section
variable [Serde String] [Serde (List UInt8)] [Serde NodeStorage] (host : Host)
  {Mnemonic Keys Monitor Manager : Type} (ldk : Ldk Mnemonic Keys Monitor Manager)
  (node_manager : NodeManager Mnemonic Keys Monitor Manager) (next_node_uuid : String) (net : Net) (store : Store)

/-- A call that returns an error leaves the stored list, the list in memory and the nodes as they were. -/
def NewNodeAtomic : Prop :=
  let r := node_manager.create_new_node host ldk next_node_uuid net store
  ∀ e, r.1 = .error (.err e) →
    stored_nodes r.2.2 = stored_nodes store ∧ r.2.1.node_storage = node_manager.node_storage ∧
      r.2.1.nodes = node_manager.nodes

def next_node (nodes : NodeStorage) : NodeIndex := ⟨next_node_uuid, next_node_index host nodes⟩

def with_next_node (nodes : NodeStorage) : Store :=
  ⟨store.items.insert nodes_key
    (Serde.to_string (⟨nodes.nodes.insert next_node_uuid (next_node host next_node_uuid nodes)⟩ : NodeStorage)),
    store.writes + 1⟩

theorem create_new_node_saved {nodes : NodeStorage} (hn : stored_nodes store = some nodes)
    (hr : host.refuses store.writes = false) :
    node_manager.create_new_node host ldk next_node_uuid net store =
      { node_manager with
          node_storage := ⟨nodes.nodes.insert next_node_uuid (next_node host next_node_uuid nodes)⟩ }.start_node host ldk
        (next_node host next_node_uuid nodes) net (with_next_node host next_node_uuid store nodes) := by
  have hget := exec_get_nodes store
  rw [hn] at hget
  have hset := exec_local_set host nodes_key
    (⟨nodes.nodes.insert next_node_uuid (next_node host next_node_uuid nodes)⟩ : NodeStorage) store
  rw [hr] at hset
  have hsave : exec (save_next_node host next_node_uuid) store =
      (.ok (next_node host next_node_uuid nodes,
        ⟨nodes.nodes.insert next_node_uuid (next_node host next_node_uuid nodes)⟩),
        with_next_node host next_node_uuid store nodes) :=
    (exec_bind_ok (convert_ok _ hget)).trans (exec_bind_ok (convert_ok _ (convert_ok _ hset)))
  unfold NodeManager.create_new_node NodeManager.save_node
  rw [hsave]

theorem create_new_node_unsaved (h : ∀ nodes, stored_nodes store = some nodes → host.refuses store.writes = true) :
    ∃ e t, node_manager.create_new_node host ldk next_node_uuid net store = (.error e, node_manager, t) ∧
      stored_nodes t = stored_nodes store := by
  have hcreate : ∀ {e t}, exec (save_next_node host next_node_uuid) store = (.error e, t) →
      node_manager.create_new_node host ldk next_node_uuid net store = (.error e, node_manager, t) := by
    intro e t hsave
    unfold NodeManager.create_new_node NodeManager.save_node
    rw [hsave]
  have hget := exec_get_nodes store
  cases hn : stored_nodes store with
  | none =>
    rw [hn] at hget
    exact ⟨_, store, hcreate (exec_bind_error (convert_error _ hget)), hn⟩
  | some nodes =>
    rw [hn] at hget
    have hset := exec_local_set host nodes_key
      (⟨nodes.nodes.insert next_node_uuid (next_node host next_node_uuid nodes)⟩ : NodeStorage) store
    rw [if_pos (h nodes hn)] at hset
    have hsave : exec (save_next_node host next_node_uuid) store =
        (.error (.err (MutinyError.PersistenceFailed (.StorageError .JsError))), { store with writes := store.writes + 1 }) :=
      (exec_bind_ok (convert_ok _ hget)).trans (exec_bind_error (convert_error _ (convert_error _ hset)))
    exact ⟨_, _, hcreate hsave, hn⟩

omit [Serde NodeStorage] in
theorem start_node_ends (next_node : NodeIndex) :
    let x := Node.new host ldk next_node node_manager.mnemonic node_manager.storage node_manager.network
      node_manager.websocket_proxy_addr net
    let r := node_manager.start_node host ldk next_node net store
    (Returns x store → ∃ identity, r.1 = .ok identity) ∧ (Panicked x store → r.1 = .error .panic) ∧
      (¬ Returns x store → ¬ Panicked x store → ∃ e, r.1 = .error (.err e)) := by
  intro x r
  rcases hx : exec x store with ⟨(e | _) | node, t⟩
  · have hr : r = (.error (.err e), node_manager, t) := by
      show node_manager.start_node host ldk next_node net store = _
      unfold NodeManager.start_node
      rw [hx]
    rw [hr]
    refine ⟨fun hret => (not_returns hx hret).elim, fun hp => ?_, fun _ _ => ⟨e, rfl⟩⟩
    cases (panicked_iff hx).mp hp
  · have hr : r = (.error .panic, node_manager, t) := by
      show node_manager.start_node host ldk next_node net store = _
      unfold NodeManager.start_node
      rw [hx]
    rw [hr]
    exact ⟨fun hret => (not_returns hx hret).elim, fun _ => rfl, fun _ hp => (hp ((panicked_iff hx).mpr rfl)).elim⟩
  · have hr : r.1 = .ok ⟨next_node.uuid, node.pubkey⟩ := by
      show (node_manager.start_node host ldk next_node net store).1 = _
      unfold NodeManager.start_node
      rw [hx]
    rw [hr]
    refine ⟨fun _ => ⟨_, rfl⟩, fun hp => ?_, fun hn => (hn (.of_ok hx)).elim⟩
    cases (panicked_iff hx).mp hp

omit [Serde String] [Serde (List UInt8)] in
theorem stored_with_next_node (nodes : NodeStorage) : stored_nodes (with_next_node host next_node_uuid store nodes) =
    some ⟨nodes.nodes.insert next_node_uuid (next_node host next_node_uuid nodes)⟩ := by
  unfold stored_nodes with_next_node
  rw [AList.lookup_insert]
  exact Serde.from_to _

/-- A failed call leaves everything as it was exactly when the list could not be read or stored, or the node opens from
the store with the new list, or panics there. -/
theorem new_node_atomic (hfresh : ∀ nodes, stored_nodes store = some nodes → next_node_uuid ∉ nodes.nodes) :
    NewNodeAtomic host ldk node_manager next_node_uuid net store ↔
      ∀ nodes, stored_nodes store = some nodes → host.refuses store.writes = false →
        let next_node := next_node host next_node_uuid nodes
        let saved := with_next_node host next_node_uuid store nodes
        Node.Opens host node_manager.storage ldk next_node node_manager.mnemonic node_manager.websocket_proxy_addr net
            saved ∨
          Node.Panics host node_manager.storage ldk next_node node_manager.mnemonic net saved := by
  unfold NewNodeAtomic
  constructor
  · intro h nodes hn hr
    dsimp only
    rw [create_new_node_saved host ldk node_manager next_node_uuid net store hn hr] at h
    generalize hsaved : { node_manager with
      node_storage := ⟨nodes.nodes.insert next_node_uuid (next_node host next_node_uuid nodes)⟩ } = saved at h
    obtain ⟨-, -, hfails⟩ := start_node_ends host ldk saved net (with_next_node host next_node_uuid store nodes)
      (next_node host next_node_uuid nodes)
    rw [returns_node_new, panicked_node_new] at hfails
    subst hsaved
    by_contra hends
    obtain ⟨hopens, hpanics⟩ := not_or.mp hends
    obtain ⟨e, he⟩ := hfails hopens hpanics
    obtain ⟨hstored, -, -⟩ := h e he
    -- the start of the node leaves the list as it was stored for it
    obtain ⟨-, hkept⟩ := start_node_spec host ldk { node_manager with
      node_storage := ⟨nodes.nodes.insert next_node_uuid (next_node host next_node_uuid nodes)⟩ }
      (next_node host next_node_uuid nodes) net (with_next_node host next_node_uuid store nodes)
    rw [hkept, stored_with_next_node, hn] at hstored
    apply hfresh nodes hn
    rw [← Option.some.inj hstored]
    exact (AList.mem_insert _).mpr (.inl rfl)
  · intro h
    by_cases hsaved : ∃ nodes, stored_nodes store = some nodes ∧ host.refuses store.writes = false
    · obtain ⟨nodes, hn, hr⟩ := hsaved
      rw [create_new_node_saved host ldk node_manager next_node_uuid net store hn hr]
      have hends := h nodes hn hr
      dsimp only at hends
      generalize hsaved : { node_manager with
        node_storage := ⟨nodes.nodes.insert next_node_uuid (next_node host next_node_uuid nodes)⟩ } = saved
      obtain ⟨hok, hpanic, -⟩ := start_node_ends host ldk saved net (with_next_node host next_node_uuid store nodes)
        (next_node host next_node_uuid nodes)
      rw [returns_node_new] at hok
      rw [panicked_node_new] at hpanic
      subst hsaved
      intro r e he
      rcases hends with hopens | hpanics
      · obtain ⟨identity, hi⟩ := hok hopens
        cases hi.symm.trans he
      · cases (hpanic hpanics).symm.trans he
    · obtain ⟨e, t, hcreate, hstored⟩ := create_new_node_unsaved host ldk node_manager next_node_uuid net store
        fun nodes hn => by simpa using fun hr => hsaved ⟨nodes, hn, hr⟩
      rw [hcreate]
      exact fun _ _ => ⟨hstored, rfl, rfl⟩

end

attribute [local instance] string_serde bytes_serde node_storage_serde

def empty_wallet : NodeManager Bool Unit Unit Unit := ⟨true, .Testnet, "", ⟨""⟩, ⟨∅⟩, ∅⟩

theorem new_node_atomic_opens : NewNodeAtomic open_host sample_opening.ldk empty_wallet "n"
    ⟨some (7, ""), [], fun _ => true⟩ ⟨∅, 0⟩ := by
  rw [new_node_atomic open_host sample_opening.ldk empty_wallet "n" ⟨some (7, ""), [], fun _ => true⟩ ⟨∅, 0⟩]
  · intro nodes hn _
    left
    cases hn
    exact ⟨(), [], rfl, by decide +kernel, ⟨rfl, nofun⟩, rfl⟩
  · intro nodes hn
    cases hn
    exact AList.notMem_empty _

/-- Without the tip of the chain the node is not opened, and its entry stays. -/
theorem unopened_node_listed : ¬ NewNodeAtomic open_host sample_opening.ldk empty_wallet "n"
    ⟨none, [], fun _ => true⟩ ⟨∅, 0⟩ := by
  intro h
  obtain ⟨-, hmem, -⟩ := h .ChainAccessFailed (by decide +kernel)
  have hlen := congrArg (fun nodes : NodeStorage => nodes.nodes.entries.length) hmem
  revert hlen
  decide +kernel

end Mutiny
