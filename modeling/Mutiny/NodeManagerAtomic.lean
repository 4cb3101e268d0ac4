import Mutiny.NodeManagerSound

/-!
# When an opening fails after the seed was written

`Accepts` says of the store that the write of the seed leaves, and of what the network does, that every later step of
`NodeManager.new` goes through. The steps do not undo the write, so a failed opening leaves the stored seed as it was
exactly when no other seed was written, or `Accepts` holds and nothing failed (`new_keeps_seed`).
-/

namespace Mutiny

open Prog

section
variable [Serde String] [Serde (List UInt8)] (host : Host) (storage : MutinyBrowserStorage)

/-! ## The checksums -/

/-- One of the checksums is the recorded one, or none can be read and one of the attempts to record one is not
refused. -/
def Fits (keychain : KeychainKind) (offers : List (List UInt8)) (store : Store) : Prop :=
  match found host storage (List UInt8) (MapKey.DescriptorChecksum keychain).as_map_key store with
  | some (.ok val) => val ∈ offers
  | some (.error .panic) => False
  | _ => ∃ i < offers.length, host.refuses (store.writes + i) = false

theorem exec_check_descriptor_checksum (keychain : KeychainKind) (bytes : List UInt8) (store : Store) :
    exec (check_descriptor_checksum host storage keychain bytes) store =
      match found host storage (List UInt8) (MapKey.DescriptorChecksum keychain).as_map_key store with
      | some (.ok val) => (if val = bytes then .ok () else .error (.err .ChecksumMismatch), store)
      | some (.error .panic) => (.error .panic, store)
      | _ =>
        if host.refuses store.writes then (.error (.err .Generic), { store with writes := store.writes + 1 })
        else (.ok (), ⟨store.items.insert (MapKey.DescriptorChecksum keychain).as_map_key
          (storage.encode host store.writes bytes), store.writes + 1⟩) := by
  have hg := exec_get_found (α := List UInt8) host storage (MapKey.DescriptorChecksum keychain).as_map_key store
  have hnone : ∀ e, exec (storage.get host (MapKey.DescriptorChecksum keychain).as_map_key :
        StorageM MutinyStorageError (List UInt8)) store = (.error (.err e), store) →
      exec (check_descriptor_checksum host storage keychain bytes) store =
        exec (convert BdkError.from_storage
          (storage.set host (MapKey.DescriptorChecksum keychain).as_map_key bytes)) store :=
    fun e he => exec_bind_ok (exec_result_err he)
  have hset := exec_convert_set host storage (MapKey.DescriptorChecksum keychain).as_map_key BdkError.from_storage bytes store
  match hf : found host storage (List UInt8) (MapKey.DescriptorChecksum keychain).as_map_key store with
  | none =>
    rw [hf] at hg
    exact (hnone _ hg).trans hset
  | some (.error (.err e)) =>
    rw [hf] at hg
    exact (hnone _ hg).trans hset
  | some (.error .panic) =>
    rw [hf] at hg
    exact exec_bind_error (exec_result_panic hg)
  | some (.ok val) =>
    rw [hf] at hg
    apply (exec_bind_ok (exec_result_ok hg)).trans
    by_cases hv : val = bytes
    · simp [hv, Except.toOption]
    · simp [hv, Except.toOption]

/-- With nothing recorded that can be read, each checksum that is offered is one attempt to record it. -/
theorem returns_db_checksum_fresh {keychain : KeychainKind} {bytes : List UInt8} {rest : List (List UInt8)}
    {store : Store}
    (hc : exec (check_descriptor_checksum host storage keychain bytes) store =
      if host.refuses store.writes then (.error (.err .Generic), { store with writes := store.writes + 1 })
      else (.ok (), ⟨store.items.insert (MapKey.DescriptorChecksum keychain).as_map_key
        (storage.encode host store.writes bytes), store.writes + 1⟩))
    (ih : Returns (db_checksum host storage keychain rest) { store with writes := store.writes + 1 } ↔
      ∃ i < rest.length, host.refuses (store.writes + 1 + i) = false) :
    Returns (db_checksum host storage keychain (bytes :: rest)) store ↔
      ∃ i < (bytes :: rest).length, host.refuses (store.writes + i) = false := by
  by_cases hr : host.refuses store.writes = true
  · rw [if_pos hr] at hc
    have hstep : Returns (db_checksum host storage keychain (bytes :: rest)) store ↔
        Returns (db_checksum host storage keychain rest) { store with writes := store.writes + 1 } :=
      returns_bind_of_ok (exec_result_err hc)
    rw [hstep, ih]
    constructor
    · intro ⟨i, hi, hw⟩
      exact ⟨i + 1, by simpa using hi, by rwa [Nat.add_comm i 1, ← Nat.add_assoc]⟩
    · intro ⟨i, hi, hw⟩
      match i with
      | 0 => simp [hr] at hw
      | i + 1 => exact ⟨i, by simpa using hi, by rwa [Nat.add_comm i 1, ← Nat.add_assoc] at hw⟩
  · rw [if_neg hr] at hc
    have hret : Returns (db_checksum host storage keychain (bytes :: rest)) store :=
      (returns_bind_of_ok (exec_result_ok hc)).mpr (returns_pure _ _)
    exact iff_of_true hret ⟨0, by simp, by simpa using hr⟩

theorem returns_db_checksum (keychain : KeychainKind) (offers : List (List UInt8)) (store : Store) :
    Returns (db_checksum host storage keychain offers) store ↔ Fits host storage keychain offers store := by
  induction offers generalizing store with
  | nil =>
    have hf : ¬ Fits host storage keychain [] store := by
      unfold Fits
      split <;> simp
    exact iff_of_false (not_returns_throw _ _) hf
  | cons bytes rest ih =>
    have hc := exec_check_descriptor_checksum host storage keychain bytes store
    have ih' := ih { store with writes := store.writes + 1 }
    match hf : found host storage (List UInt8) (MapKey.DescriptorChecksum keychain).as_map_key store with
    | none =>
      have hf' : found host storage (List UInt8) (MapKey.DescriptorChecksum keychain).as_map_key
          { store with writes := store.writes + 1 } = none := hf
      simp only [Fits, hf'] at ih'
      simp only [hf] at hc
      simpa only [Fits, hf] using returns_db_checksum_fresh host storage hc ih'
    | some (.error (.err e)) =>
      have hf' : found host storage (List UInt8) (MapKey.DescriptorChecksum keychain).as_map_key
          { store with writes := store.writes + 1 } = some (.error (.err e)) := hf
      simp only [Fits, hf'] at ih'
      simp only [hf] at hc
      simpa only [Fits, hf] using returns_db_checksum_fresh host storage hc ih'
    | some (.error .panic) =>
      simp only [hf] at hc
      have hn : ¬ Returns (db_checksum host storage keychain (bytes :: rest)) store :=
        not_returns_bind (not_returns (exec_result_panic hc))
      exact iff_of_false hn (by simp [Fits, hf])
    | some (.ok val) =>
      simp only [hf] at hc
      by_cases hv : val = bytes
      · rw [if_pos hv] at hc
        have hret : Returns (db_checksum host storage keychain (bytes :: rest)) store :=
          (returns_bind_of_ok (exec_result_ok hc)).mpr (returns_pure _ _)
        exact iff_of_true hret (by simp [Fits, hf, hv])
      · rw [if_neg hv] at hc
        have hstep : Returns (db_checksum host storage keychain (bytes :: rest)) store ↔
            Returns (db_checksum host storage keychain rest) store :=
          returns_bind_of_ok (exec_result_err hc)
        rw [hstep, ih]
        simp [Fits, hf, hv]

/-! ## A node -/

variable {Mnemonic Keys Monitor Manager : Type} (ldk : Ldk Mnemonic Keys Monitor Manager)

def stored_monitors (persister : MutinyNodePersister) (keys : Keys) (store : Store) : Option (List Monitor) :=
  (persister.storage.scanned host "monitors/" (some persister.node_id) store).bind fun map =>
    (host.order map.entries).mapM fun entry => ldk.read_monitor keys entry.2

def GraphReadable (persister : MutinyNodePersister) (store : Store) : Prop :=
  found host persister.storage (List UInt8) (persister.get_key "network") store ≠ some (.error .panic)

/-- A node opens from the store: its keys can be derived, its monitors read, its channel manager read or begun at the
tip of the chain, its network graph decrypted, and the proxy reached. -/
def Node.Opens (node_index : NodeIndex) (mnemonic : Mnemonic) (addr : String) (net : Net) (store : Store) : Prop :=
  let persister : MutinyNodePersister := ⟨node_index.uuid, storage⟩
  ∃ keys monitors, ldk.derive mnemonic node_index.child_index = some keys ∧
    stored_monitors host ldk persister keys store = some monitors ∧
    (match found host storage (List UInt8) (persister.get_key "manager") store with
      | some (.ok bytes) => (ldk.read_manager keys monitors bytes).isSome ∧ GraphReadable host persister store
      | some (.error .panic) => False
      | _ => net.tip.isSome ∧ GraphReadable host persister
          (exec (persister.run_background host net.background : StorageM MutinyError Unit) store).2) ∧
    net.opens (mutiny_conn_proxy_to_url addr (ldk.node_id keys)) = true

theorem exec_read_value (persister : MutinyNodePersister) (key : String) (store : Store) :
    exec (persister.read_value host key) store =
      (match found host persister.storage (List UInt8) (persister.get_key key) store with
        | none => .error (.err (.ReadError (.StorageError (.KeyNotFound (persister.get_key key)))))
        | some r => r.mapError (Fault.map MutinyError.read_err), store) := by
  have hg := exec_get_found (α := List UInt8) host persister.storage (persister.get_key key) store
  unfold MutinyNodePersister.read_value
  match hf : found host persister.storage (List UInt8) (persister.get_key key) store with
  | none =>
    rw [hf] at hg
    exact convert_error _ hg
  | some (.error e) =>
    rw [hf] at hg
    exact convert_error _ hg
  | some (.ok bytes) =>
    rw [hf] at hg
    exact convert_ok _ hg

/-- Without a graph that can be read, a node starts with an empty one; only a graph that cannot be decrypted panics. -/
theorem exec_read_network_graph {ε : Type} (persister : MutinyNodePersister) (store : Store) :
    (GraphReadable host persister store ∧
        ∃ graph, exec (persister.read_network_graph host : StorageM ε _) store = (.ok graph, store)) ∨
      (¬ GraphReadable host persister store ∧
        exec (persister.read_network_graph host : StorageM ε _) store = (.error .panic, store)) := by
  have hg := exec_read_value host persister "network" store
  unfold GraphReadable
  match hf : found host persister.storage (List UInt8) (persister.get_key "network") store with
  | none =>
    rw [hf] at hg
    exact .inl ⟨by simp, _, exec_bind_ok (exec_result_err hg)⟩
  | some (.error (.err e)) =>
    rw [hf] at hg
    exact .inl ⟨by simp, _, exec_bind_ok (exec_result_err hg)⟩
  | some (.error .panic) =>
    rw [hf] at hg
    exact .inr ⟨by simp, exec_bind_error (exec_result_panic hg)⟩
  | some (.ok bytes) =>
    rw [hf] at hg
    exact .inl ⟨by simp, _, exec_bind_ok (exec_result_ok hg)⟩

theorem returns_read_network_graph {ε : Type} (persister : MutinyNodePersister) (store : Store) :
    Returns (persister.read_network_graph host : StorageM ε _) store ↔ GraphReadable host persister store := by
  rcases exec_read_network_graph (ε := ε) host persister store with ⟨hr, graph, hg⟩ | ⟨hr, hg⟩
  · exact iff_of_true (.of_ok hg) hr
  · exact iff_of_false (not_returns hg) hr

omit [Serde String] [Serde (List UInt8)] in
theorem exec_fold_monitors (keys : Keys) (store : Store) (l : List (Sigma fun _ : String => List UInt8))
    (accum : List Monitor) : exec (l.foldlM (fun accum entry =>
      match ldk.read_monitor keys entry.2 with
      | some channel_monitor => return accum ++ [channel_monitor]
      | none => throw (.err .InvalidData) : List Monitor → _ → StorageM IoError (List Monitor)) accum) store =
    (match l.mapM fun entry => ldk.read_monitor keys entry.2 with
      | none => .error (.err .InvalidData)
      | some monitors => .ok (accum ++ monitors), store) := by
  induction l generalizing accum with
  | nil => simp
  | cons entry l ih =>
    rw [List.mapM_cons, List.foldlM_cons]
    cases hr : ldk.read_monitor keys entry.2 with
    | none => exact exec_throw_bind _ _ _
    | some monitor =>
      rw [exec_pure_bind, ih]
      cases l.mapM fun entry => ldk.read_monitor keys entry.2 with
      | none => rfl
      | some monitors => simp

theorem exec_read_channel_monitors (persister : MutinyNodePersister) (keys : Keys) (store : Store) :
    exec (persister.read_channel_monitors host ldk keys) store =
      (match persister.storage.scanned (α := List UInt8) host "monitors/" (some persister.node_id) store with
        | none => .error .panic
        | some map =>
          match (host.order map.entries).mapM fun entry => ldk.read_monitor keys entry.2 with
          | none => .error (.err .InvalidData)
          | some monitors => .ok monitors, store) := by
  have hs := exec_scan (α := List UInt8) (ε := IoError) host persister.storage "monitors/" (some persister.node_id) store
  unfold MutinyNodePersister.read_channel_monitors
  cases hm : persister.storage.scanned (α := List UInt8) host "monitors/" (some persister.node_id) store with
  | none =>
    rw [hm] at hs
    exact exec_bind_error hs
  | some map =>
    rw [hm] at hs
    rw [exec_bind_ok hs]
    exact exec_fold_monitors ldk keys store (host.order map.entries) []

theorem exec_stored_monitors {persister : MutinyNodePersister} {keys : Keys} {store : Store} {monitors : List Monitor}
    (h : stored_monitors host ldk persister keys store = some monitors) :
    exec (persister.read_channel_monitors host ldk keys) store = (.ok monitors, store) := by
  obtain ⟨map, hm, hl⟩ := Option.bind_eq_some_iff.mp h
  rw [exec_read_channel_monitors, hm]
  dsimp only
  rw [hl]

theorem not_returns_read_channel_monitors {persister : MutinyNodePersister} {keys : Keys} {store : Store}
    (h : stored_monitors host ldk persister keys store = none) :
    ¬ Returns (persister.read_channel_monitors host ldk keys) store := by
  have hx := exec_read_channel_monitors host ldk persister keys store
  unfold stored_monitors at h
  cases hm : persister.storage.scanned (α := List UInt8) host "monitors/" (some persister.node_id) store with
  | none =>
    rw [hm] at hx
    exact not_returns hx
  | some map =>
    rw [hm, Option.bind_some] at h
    rw [hm] at hx
    dsimp only at hx
    rw [h] at hx
    exact not_returns hx

theorem exec_run_background (persister : MutinyNodePersister) (writes : List (String × String × List UInt8))
    (store : Store) : exec (persister.run_background host writes : StorageM MutinyError Unit) store =
      (.ok (), (exec (persister.run_background host writes : StorageM MutinyError Unit) store).2) := by
  have hall : Succeeds (fun _ => True) (fun _ => True)
      (persister.run_background host writes : StorageM MutinyError Unit) := by
    apply Succeeds.forM
    intro w s _
    have hs := exec_set host persister.storage (MutinyNodePersister.get_key ⟨w.1, persister.storage⟩ w.2.1) w.2.2 s
    by_cases hr : host.refuses s.writes = true
    · rw [if_pos hr] at hs
      exact ⟨(), _, exec_bind_ok (exec_result_err (convert_error IoError.other hs)), trivial, trivial⟩
    · rw [if_neg hr] at hs
      exact ⟨(), _, exec_bind_ok (exec_result_ok (convert_ok IoError.other hs)), trivial, trivial⟩
  obtain ⟨_, t, ht, -, -⟩ := hall store trivial
  rw [ht]

theorem exec_watch_channels (persister : MutinyNodePersister) (read : ReadChannelManager Monitor Manager)
    (store : Store) : ∃ watched t, exec (Node.watch_channels host ldk persister read : StorageM MutinyError _) store =
      (.ok watched, t) := by
  have hstep : ∀ watched monitor, True → Succeeds (fun _ => True) (fun _ => True)
      (persister.watch_channel host ldk watched monitor : StorageM MutinyError (List Monitor)) := by
    intro watched monitor _ s _
    unfold MutinyNodePersister.watch_channel
    by_cases hm : ldk.funding_txo monitor ∈ watched.map ldk.funding_txo
    · simp only [hm, if_true]
      exact ⟨_, _, rfl, trivial, trivial⟩
    · simp only [hm, if_false]
      have hs := exec_set host persister.storage (persister.get_key ("monitors/" ++ ldk.funding_txo monitor))
        (ldk.write_monitor monitor) s
      by_cases hr : host.refuses s.writes = true
      · rw [if_pos hr] at hs
        exact ⟨_, _, exec_bind_ok (exec_result_err (convert_error IoError.other hs)), trivial, trivial⟩
      · rw [if_neg hr] at hs
        exact ⟨_, _, exec_bind_ok (exec_result_ok (convert_ok IoError.other hs)), trivial, trivial⟩
  unfold Node.watch_channels
  by_cases hr : read.is_restarting = true
  · rw [if_pos hr]
    obtain ⟨watched, t, ht, -, -⟩ := Succeeds.foldlM hstep read.channel_monitors [] trivial store trivial
    exact ⟨watched, t, ht⟩
  · rw [if_neg hr]
    exact ⟨[], store, rfl⟩

omit [Serde String] [Serde (List UInt8)] in
theorem monitor_key_ne_network (persister : MutinyNodePersister) (id : String) :
    persister.get_key ("monitors/" ++ id) ≠ persister.get_key "network" := by
  intro h
  have hl := congrArg (fun s : String => s.toList.head?) (get_key_injective persister h)
  simp at hl

theorem graph_readable_watched (persister : MutinyNodePersister) (read : ReadChannelManager Monitor Manager)
    (store : Store) {watched : List Monitor} {t : Store}
    (ht : exec (Node.watch_channels host ldk persister read : StorageM MutinyError _) store = (.ok watched, t)) :
    GraphReadable host persister t ↔ GraphReadable host persister store := by
  have h := same_watch_channels (ε := MutinyError) host ldk persister (monitor_key_ne_network persister) read store
  rw [ht] at h
  unfold GraphReadable found
  rw [show t.items.lookup (persister.get_key "network") = store.items.lookup (persister.get_key "network") from h]

theorem returns_node_rest (persister : MutinyNodePersister) (read : ReadChannelManager Monitor Manager) (net : Net)
    (addr pubkey : String) (node : List Monitor → Node Keys Monitor Manager) (store : Store) :
    Returns (do
        let chain_monitor ← Node.watch_channels host ldk persister read
        let _ ← persister.read_network_graph host
        WsProxy.new net addr pubkey
        return node chain_monitor : StorageM MutinyError (Node Keys Monitor Manager)) store ↔
      GraphReadable host persister store ∧ net.opens (mutiny_conn_proxy_to_url addr pubkey) = true := by
  obtain ⟨watched, t, ht⟩ := exec_watch_channels host ldk persister read store
  rw [returns_bind_of_ok ht, ← graph_readable_watched host ldk persister read store ht,
    ← returns_read_network_graph (ε := MutinyError)]
  constructor
  · intro h
    obtain ⟨_, u, hu, hrest⟩ := returns_bind.mp h
    obtain ⟨_, v, hv, -⟩ := returns_bind.mp hrest
    refine ⟨.of_ok hu, ?_⟩
    unfold WsProxy.new at hv
    by_contra ho
    rw [if_neg ho] at hv
    cases hv
  · intro ⟨⟨_, u, hu⟩, ho⟩
    rw [returns_bind_of_ok hu]
    unfold WsProxy.new
    rw [if_pos ho]
    exact returns_pure _ _

theorem exec_read_channel_manager_fresh {persister : MutinyNodePersister} {store : Store} {e : MutinyError}
    (hv : exec (persister.read_value host "manager") store = (.error (.err e), store)) (network : Network) (keys : Keys)
    (monitors : List Monitor) (net : Net) :
    exec (persister.read_channel_manager host ldk network keys monitors net) store =
      (match net.tip with
        | none => .error (.err .ChainAccessFailed)
        | some tip => .ok ⟨ldk.new_manager keys network tip, false, monitors⟩,
      (exec (persister.run_background host net.background : StorageM MutinyError Unit) store).2) := by
  apply (exec_bind_ok (exec_result_err hv)).trans
  apply (exec_bind_ok (exec_run_background host persister net.background store)).trans
  cases net.tip <;> rfl

theorem exec_read_channel_manager_stored {persister : MutinyNodePersister} {store : Store} {bytes : List UInt8}
    (hv : exec (persister.read_value host "manager") store = (.ok bytes, store)) (network : Network) (keys : Keys)
    (monitors : List Monitor) (net : Net) :
    exec (persister.read_channel_manager host ldk network keys monitors net) store =
      (match ldk.read_manager keys monitors bytes with
        | none => .error (.err (.ReadError .Other))
        | some manager => .ok ⟨manager, true, monitors⟩, store) := by
  apply (exec_bind_ok (exec_result_ok hv)).trans
  dsimp only
  cases ldk.read_manager keys monitors bytes <;> rfl

theorem exec_read_channel_manager_panic {persister : MutinyNodePersister} {store : Store}
    (hv : exec (persister.read_value host "manager") store = (.error .panic, store)) (network : Network) (keys : Keys)
    (monitors : List Monitor) (net : Net) :
    exec (persister.read_channel_manager host ldk network keys monitors net) store = (.error .panic, store) :=
  exec_bind_error (exec_result_panic hv)

theorem returns_node_new (node_index : NodeIndex) (mnemonic : Mnemonic) (network : Network) (addr : String) (net : Net)
    (store : Store) : Returns (Node.new host ldk node_index mnemonic storage network addr net) store ↔
      Node.Opens host storage ldk node_index mnemonic addr net store := by
  unfold Node.new Node.Opens create_keys_manager
  dsimp only
  generalize hp : (⟨node_index.uuid, storage⟩ : MutinyNodePersister) = persister
  have hstorage : storage = persister.storage := by rw [← hp]
  cases hk : ldk.derive mnemonic node_index.child_index with
  | none => exact iff_of_false (not_returns_bind (not_returns_throw _ _)) (by simp)
  | some keys =>
    dsimp only
    rw [returns_bind_of_ok (exec_pure keys store)]
    cases hm : stored_monitors host ldk persister keys store with
    | none =>
      refine iff_of_false (not_returns_bind fun h => ?_) (by simp [hm])
      exact not_returns_read_channel_monitors host ldk hm ((returns_map_error _ _ _).mp h)
    | some monitors =>
      rw [returns_bind_of_ok (convert_ok _ (exec_stored_monitors host ldk hm))]
      have hv := exec_read_value host persister "manager" store
      have hrest := fun read store => returns_node_rest host ldk persister read net addr (ldk.node_id keys)
        (fun chain_monitor => ⟨node_index.uuid, ldk.node_id keys, keys, read.channel_manager, chain_monitor⟩) store
      have hfresh : ∀ e, exec (persister.read_value host "manager") store = (.error (.err e), store) →
          (Returns (persister.read_channel_manager host ldk network keys monitors net >>= fun read => do
            let chain_monitor ← Node.watch_channels host ldk persister read
            let _ ← persister.read_network_graph host
            WsProxy.new net addr (ldk.node_id keys)
            return (⟨node_index.uuid, ldk.node_id keys, keys, read.channel_manager, chain_monitor⟩ :
              Node Keys Monitor Manager)) store ↔
          (net.tip.isSome ∧ GraphReadable host persister
            (exec (persister.run_background host net.background : StorageM MutinyError Unit) store).2) ∧
            net.opens (mutiny_conn_proxy_to_url addr (ldk.node_id keys)) = true) := by
        intro e he
        have hx := exec_read_channel_manager_fresh host ldk he network keys monitors net
        cases ht : net.tip with
        | none =>
          rw [ht] at hx
          exact iff_of_false (not_returns_bind (not_returns hx)) (by simp)
        | some tip =>
          rw [ht] at hx
          rw [returns_bind_of_ok hx, hrest]
          simp
      match hf : found host persister.storage (List UInt8) (persister.get_key "manager") store with
      | none =>
        rw [hf] at hv
        rw [hfresh _ hv]
        simp [hstorage, hm, hf]
      | some (.error (.err e)) =>
        rw [hf] at hv
        rw [hfresh _ hv]
        simp [hstorage, hm, hf]
      | some (.error .panic) =>
        rw [hf] at hv
        have hx := exec_read_channel_manager_panic host ldk hv network keys monitors net
        exact iff_of_false (not_returns_bind (not_returns hx)) (by simp [hstorage, hf])
      | some (.ok bytes) =>
        rw [hf] at hv
        have hx := exec_read_channel_manager_stored host ldk hv network keys monitors net
        cases hr : ldk.read_manager keys monitors bytes with
        | none =>
          simp only [hr] at hx
          exact iff_of_false (not_returns_bind (not_returns hx)) (by simp [hstorage, hm, hf, hr])
        | some manager =>
          simp only [hr] at hx
          rw [returns_bind_of_ok hx, hrest]
          simp [hstorage, hm, hf, hr]

/-! ## The wallet as a whole -/

def NodesOpen (mnemonic : Mnemonic) (network : Network) (addr : String) : List (NodeIndex × Net) → Store → Prop
  | [], _ => True
  | item :: items, store =>
    Node.Opens host storage ldk item.1 mnemonic addr item.2 store ∧
      NodesOpen mnemonic network addr items
        (exec (Node.new host ldk item.1 mnemonic storage network addr item.2) store).2

variable [Serde NodeStorage] (opening : Opening Mnemonic Keys Monitor Manager)

/-- The list of nodes, which is empty when none is stored. -/
def stored_nodes (store : Store) : Option NodeStorage :=
  match store.items.lookup nodes_key with
  | none => some ⟨∅⟩
  | some item => Serde.from_str item

/-- What follows the seed goes through: both descriptors fit the checksums on record, the node list can be read, and
every node opens. -/
def Accepts (seed : Mnemonic) (network : Network) (addr : String) (store : Store) : Prop :=
  ∃ checksums, opening.bdk.checksums seed network = some checksums ∧
    Fits host storage .External (checksums .External) store ∧
    let receive := (exec (db_checksum host storage .External (checksums .External)) store).2
    Fits host storage .Internal (checksums .Internal) receive ∧
    let change := (exec (db_checksum host storage .Internal (checksums .Internal)) receive).2
    ∃ node_storage, stored_nodes store = some node_storage ∧
      NodesOpen host storage opening.ldk seed network addr (NodeManager.node_items host opening node_storage) change

omit [Serde NodeStorage] in
theorem returns_open_nodes (mnemonic : Mnemonic) (network : Network) (addr : String) (items : List (NodeIndex × Net))
    (store : Store) : Returns (NodeManager.open_nodes host opening mnemonic storage network addr items) store ↔
      NodesOpen host storage opening.ldk mnemonic network addr items store := by
  unfold NodeManager.open_nodes
  generalize (∅ : AList fun _ : String => Node Keys Monitor Manager) = map
  induction items generalizing map store with
  | nil => exact iff_of_true (returns_pure _ _) trivial
  | cons item items ih =>
    rw [List.foldlM_cons, NodesOpen, ← returns_node_new host storage opening.ldk item.1 mnemonic network addr item.2]
    rcases hx : exec (Node.new host opening.ldk item.1 mnemonic storage network addr item.2) store with ⟨e | node, t⟩
    · exact iff_of_false (not_returns_bind (not_returns_bind (not_returns hx))) fun h => not_returns hx h.1
    · rw [returns_bind_of_ok ((exec_bind_ok hx).trans rfl), ih]
      exact ⟨fun h => ⟨.of_ok hx, h⟩, fun h => h.2⟩

omit [Serde String] [Serde (List UInt8)] in
theorem exec_get_nodes (store : Store) :
    exec MutinyBrowserStorage.get_nodes store =
      (match stored_nodes store with
        | none => .error (.err (.StorageError .SerdeError))
        | some node_storage => .ok node_storage, store) := by
  have hl : exec (LocalStorage.get nodes_key : StorageM StorageError NodeStorage) store =
      (match store.items.lookup nodes_key with
        | none => .error (.err (.KeyNotFound nodes_key))
        | some item => (match Serde.from_str item with
          | none => .error (.err .SerdeError)
          | some node_storage => .ok node_storage), store) := by
    unfold LocalStorage.get
    rw [exec_get_bind]
    cases store.items.lookup nodes_key with
    | none => rfl
    | some item =>
      dsimp only
      cases (Serde.from_str item : Option NodeStorage) <;> rfl
  unfold MutinyBrowserStorage.get_nodes stored_nodes
  cases hi : store.items.lookup nodes_key with
  | none =>
    simp only [hi] at hl
    exact exec_bind_ok (exec_result_err hl)
  | some item =>
    simp only [hi] at hl ⊢
    cases hn : (Serde.from_str item : Option NodeStorage) with
    | none =>
      simp only [hn] at hl
      exact exec_bind_ok (exec_result_err hl)
    | some node_storage =>
      simp only [hn] at hl
      exact exec_bind_ok (exec_result_ok hl)

omit [Serde String] [Serde (List UInt8)] [Serde NodeStorage] in
theorem map_key_ne_nodes (map_key : MapKey) : map_key.as_map_key ≠ nodes_key :=
  map_key.as_map_key_ne (by decide)

theorem returns_open_wallet (seed : Mnemonic) (network : Network) (addr : String) (store : Store) :
    Returns (NodeManager.open_wallet host opening seed storage network addr) store ↔
      Accepts host storage opening seed network addr store := by
  unfold NodeManager.open_wallet Accepts MutinyWallet.new
  cases hc : opening.bdk.checksums seed network with
  | none => exact iff_of_false (not_returns_bind (not_returns_throw _ _)) (by simp)
  | some checksums =>
    have hext := returns_db_checksum host storage .External (checksums .External) store
    have hsame := same_db_checksum host storage map_key_ne_nodes .External (checksums .External) store
    simp only [Option.some.injEq, exists_eq_left', ← hext]
    rcases he : exec (db_checksum host storage .External (checksums .External)) store with ⟨e | u, receive⟩
    · refine iff_of_false (not_returns_bind ?_) fun h => not_returns he h.1
      exact fun h => not_returns_bind (not_returns he) ((returns_map_error _ _ _).mp h)
    · rw [he] at hsame
      have hint := returns_db_checksum host storage .Internal (checksums .Internal) receive
      have hsame' := same_db_checksum host storage map_key_ne_nodes .Internal (checksums .Internal) receive
      simp only [← hint]
      rcases hi : exec (db_checksum host storage .Internal (checksums .Internal)) receive with ⟨e | u, change⟩
      · refine iff_of_false (not_returns_bind ?_) fun h => not_returns hi h.2.1
        intro h
        have h := (returns_map_error _ _ _).mp h
        rw [returns_bind_of_ok he] at h
        exact not_returns hi h
      · rw [hi] at hsame'
        have hboth : exec (expect (db_checksum host storage .External (checksums .External) >>= fun _ =>
            db_checksum host storage .Internal (checksums .Internal)) : StorageM MutinyError Unit) store = (.ok u, change) :=
          exec_expect_ok ((exec_bind_ok he).trans hi)
        have hn : stored_nodes store = stored_nodes change := by
          unfold stored_nodes
          rw [show change.items.lookup nodes_key = receive.items.lookup nodes_key from hsame',
            show receive.items.lookup nodes_key = store.items.lookup nodes_key from hsame]
        have hget := exec_get_nodes change
        rw [returns_bind_of_ok hboth, hn]
        cases hs : stored_nodes change with
        | none =>
          rw [hs] at hget
          exact iff_of_false (not_returns_bind (not_returns (convert_error _ hget))) (by simp)
        | some node_storage =>
          rw [hs] at hget
          rw [returns_bind_of_ok (convert_ok _ hget)]
          have hopen := returns_open_nodes host storage opening seed network addr
            (NodeManager.node_items host opening node_storage) change
          simp only [Option.some.injEq, exists_eq_left', ← hopen]
          constructor
          · intro h
            obtain ⟨map, t, ht, -⟩ := returns_bind.mp h
            exact ⟨.of_ok he, .of_ok hi, .of_ok ht⟩
          · intro ⟨_, _, map, t, ht⟩
            rw [returns_bind_of_ok ht]
            exact returns_pure _ _

def stored_seed (store : Store) : Option (Except (Fault MutinyStorageError) String) :=
  found host storage String mnemonic_key store

end

/-- A failed opening leaves the stored seed as it was, unless a different one was written and something that follows
does not go through with it. -/
theorem new_keeps_seed [Serde String] [Serde (List UInt8)] [Serde NodeStorage] (host : Host)
    {Mnemonic Keys Monitor Manager : Type} (opening : Opening Mnemonic Keys Monitor Manager)
    (password : String) (mnemonic addr network_str : Option String) (store : Store) :
    (∀ e, (exec (NodeManager.new host opening password mnemonic addr network_str) store).1 = .error e →
        stored_seed host ⟨password⟩ (exec (NodeManager.new host opening password mnemonic addr network_str) store).2 =
          stored_seed host ⟨password⟩ store) ↔
      ∀ network seed, Network.parse (network_str.getD "testnet") = some network →
        new_seed host opening ⟨password⟩ mnemonic store = some seed → host.refuses store.writes = false →
        stored_seed host ⟨password⟩ store ≠ some (.ok (opening.bip39.to_string seed)) →
        Accepts host ⟨password⟩ opening seed network (addr.getD "wss://p.mutinywallet.com")
          (with_seed host opening ⟨password⟩ seed store) := by
  have hm := new_mnemonic host opening password mnemonic addr network_str store
  constructor
  · intro hk network seed hn hs hr hne
    rw [← returns_open_wallet]
    have hx := exec_seed_written host opening hs
    rw [hr] at hx
    have hnew : exec (NodeManager.new host opening password mnemonic addr network_str) store =
        exec (NodeManager.open_wallet host opening seed ⟨password⟩ network (addr.getD "wss://p.mutinywallet.com"))
          (with_seed host opening ⟨password⟩ seed store) := by
      unfold NodeManager.new
      simp only [hn]
      exact exec_bind_ok hx
    have hstored : stored_seed host ⟨password⟩
        (exec (NodeManager.new host opening password mnemonic addr network_str) store).2 =
          some (.ok (opening.bip39.to_string seed)) := by
      simp only [hn, hs, hr, Bool.false_eq_true, if_false] at hm
      simp only [stored_seed, found, hm, Option.map_some, decode_encode]
    rcases ho : exec (NodeManager.open_wallet host opening seed ⟨password⟩ network
        (addr.getD "wss://p.mutinywallet.com")) (with_seed host opening ⟨password⟩ seed store) with ⟨e | manager, t⟩
    · have he := hk e (by rw [hnew, ho])
      exact absurd (he.symm.trans hstored) hne
    · exact .of_ok ho
  · intro hc e he
    have hkeep : ∀ h : (exec (NodeManager.new host opening password mnemonic addr network_str) store).2.items.lookup
        mnemonic_key = store.items.lookup mnemonic_key, stored_seed host ⟨password⟩
          (exec (NodeManager.new host opening password mnemonic addr network_str) store).2 =
          stored_seed host ⟨password⟩ store := by
      intro h
      simp only [stored_seed, found, h]
    cases hn : Network.parse (network_str.getD "testnet") with
    | none =>
      simp only [hn] at hm
      exact hkeep hm
    | some network =>
      cases hs : new_seed host opening ⟨password⟩ mnemonic store with
      | none =>
        simp only [hn, hs] at hm
        exact hkeep hm
      | some seed =>
        cases hr : host.refuses store.writes with
        | true =>
          simp only [hn, hs, hr, if_true] at hm
          exact hkeep hm
        | false =>
          simp only [hn, hs, hr, Bool.false_eq_true, if_false] at hm
          have hstored : stored_seed host ⟨password⟩
              (exec (NodeManager.new host opening password mnemonic addr network_str) store).2 =
                some (.ok (opening.bip39.to_string seed)) := by
            simp only [stored_seed, found, hm, Option.map_some, decode_encode]
          rw [hstored]
          by_contra hne
          have ha := hc network seed hn hs hr (Ne.symm hne)
          rw [← returns_open_wallet] at ha
          obtain ⟨manager, t, ho⟩ := ha
          have hx := exec_seed_written host opening hs
          rw [hr] at hx
          have hnew : exec (NodeManager.new host opening password mnemonic addr network_str) store = (.ok manager, t) := by
            unfold NodeManager.new
            simp only [hn]
            exact (exec_bind_ok hx).trans ho
          rw [hnew] at he
          cases he

attribute [local instance] string_serde bytes_serde node_storage_serde

/-- A store with a seed and a node list that cannot be read. -/
def broken_store : Store :=
  ⟨(seed_store (MutinyBrowserStorage.encode open_host ⟨""⟩ 0 abandon)).items.insert nodes_key "x", 2⟩

theorem failed_opening_replaces_seed : ∃ e,
    (exec (NodeManager.new open_host sample_opening "" (some legal) none none) broken_store).1 = .error e ∧
      stored_seed open_host ⟨""⟩ broken_store = some (.ok abandon) ∧
      stored_seed open_host ⟨""⟩
        (exec (NodeManager.new open_host sample_opening "" (some legal) none none) broken_store).2 =
          some (.ok legal) := by
  have hs : new_seed open_host sample_opening ⟨""⟩ (some legal) broken_store = some true := by decide
  have hx := exec_seed_written open_host sample_opening hs
  have hnew : exec (NodeManager.new open_host sample_opening "" (some legal) none none) broken_store =
      exec (NodeManager.open_wallet open_host sample_opening true ⟨""⟩ .Testnet "wss://p.mutinywallet.com")
        (with_seed open_host sample_opening ⟨""⟩ true broken_store) := exec_bind_ok hx
  have hnodes : stored_nodes (with_seed open_host sample_opening ⟨""⟩ true broken_store) = none := by
    have hl : (with_seed open_host sample_opening ⟨""⟩ true broken_store).items.lookup nodes_key = some "x" :=
      (AList.lookup_insert_ne (by decide)).trans (AList.lookup_insert _)
    unfold stored_nodes
    rw [hl]
    rfl
  have hfail : ¬ Returns (NodeManager.open_wallet open_host sample_opening true ⟨""⟩ .Testnet
      "wss://p.mutinywallet.com") (with_seed open_host sample_opening ⟨""⟩ true broken_store) := by
    rw [returns_open_wallet]
    rintro ⟨_, -, -, -, node_storage, hn, -⟩
    rw [hnodes] at hn
    cases hn
  have hbefore : stored_seed open_host ⟨""⟩ broken_store = some (.ok abandon) := by
    have hl : broken_store.items.lookup mnemonic_key = some (MutinyBrowserStorage.encode open_host ⟨""⟩ 0 abandon) :=
      (AList.lookup_insert_ne (by decide)).trans (seed_store_lookup _)
    simp only [stored_seed, found, hl, Option.map_some, decode_encode]
  have hafter := new_mnemonic open_host sample_opening "" (some legal) none none broken_store
  rw [hs] at hafter
  rcases ho : exec (NodeManager.open_wallet open_host sample_opening true ⟨""⟩ .Testnet "wss://p.mutinywallet.com")
      (with_seed open_host sample_opening ⟨""⟩ true broken_store) with ⟨e | manager, t⟩
  · refine ⟨e, by rw [hnew, ho], hbefore, ?_⟩
    unfold stored_seed found
    rw [hafter]
    exact congrArg some (decode_encode open_host ⟨""⟩ _ legal)
  · exact absurd (.of_ok ho) hfail

end Mutiny
