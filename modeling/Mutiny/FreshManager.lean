import Mutiny.NodeManagerAtomic

/-!
# The channel manager of a node that opens (`ldkstorage.rs`)

`read_channel_manager` begins a new channel manager whenever `read_value` gives an error. A node opens with a new manager
only when none is stored for it, and does not open when the stored one cannot be read, except where the stored item does
not decode (`manager_respected`).
-/

namespace Mutiny

open Prog

section
variable [Serde String] [Serde (List UInt8)] (host : Host) (storage : MutinyBrowserStorage)
  {Mnemonic Keys Monitor Manager : Type} (ldk : Ldk Mnemonic Keys Monitor Manager) (node_index : NodeIndex)
  (mnemonic : Mnemonic) (network : Network) (addr : String) (net : Net) (store : Store)

/-! ## How a node opens -/

/-- The node was opened with a manager that was begun, and its monitors were not given to the chain monitor. -/
def Node.StartedFresh (node : Node Keys Monitor Manager) : Prop :=
  let persister : MutinyNodePersister := ⟨node_index.uuid, storage⟩
  ∃ monitors t, stored_monitors host ldk persister node.keys_manager store = some monitors ∧
    exec (persister.read_channel_manager host ldk network node.keys_manager monitors net) store =
      (.ok ⟨node.channel_manager, false, monitors⟩, t) ∧ node.chain_monitor = []

def ManagerUnreadable (item : String) : Prop :=
  match (storage.decode host.crypto item : Except (Fault MutinyStorageError) (List UInt8)) with
  | .error _ => True
  | .ok bytes => ∀ keys monitors, ldk.derive mnemonic node_index.child_index = some keys →
    stored_monitors host ldk ⟨node_index.uuid, storage⟩ keys store = some monitors →
      ldk.read_manager keys monitors bytes = none

structure ManagerRespected : Prop where
  fresh : ∀ node t, exec (Node.new host ldk node_index mnemonic storage network addr net) store = (.ok node, t) →
    node.StartedFresh host storage ldk node_index network net store →
      store.items.lookup (MutinyNodePersister.get_key ⟨node_index.uuid, storage⟩ "manager") = none
  unreadable : ∀ item,
    store.items.lookup (MutinyNodePersister.get_key ⟨node_index.uuid, storage⟩ "manager") = some item →
      ManagerUnreadable host storage ldk node_index mnemonic store item →
        ¬ Returns (Node.new host ldk node_index mnemonic storage network addr net) store ∧
          (exec (Node.new host ldk node_index mnemonic storage network addr net) store).2.items.lookup
            (MutinyNodePersister.get_key ⟨node_index.uuid, storage⟩ "manager") = some item

variable {host storage ldk node_index mnemonic network addr net store}

theorem exec_node_new_ok {node : Node Keys Monitor Manager} {t : Store}
    (h : exec (Node.new host ldk node_index mnemonic storage network addr net) store = (.ok node, t)) :
    let persister : MutinyNodePersister := ⟨node_index.uuid, storage⟩
    ldk.derive mnemonic node_index.child_index = some node.keys_manager ∧
      ∃ monitors read t₁ t₂, stored_monitors host ldk persister node.keys_manager store = some monitors ∧
        exec (persister.read_channel_manager host ldk network node.keys_manager monitors net) store = (.ok read, t₁) ∧
        exec (Node.watch_channels host ldk persister read : StorageM MutinyError _) t₁ = (.ok node.chain_monitor, t₂) ∧
        node.channel_manager = read.channel_manager := by
  intro persister
  unfold Node.new create_keys_manager at h
  cases hk : ldk.derive mnemonic node_index.child_index with
  | none =>
    rw [hk] at h
    rw [exec_bind_error (exec_throw _ _)] at h
    cases h
  | some keys =>
    rw [hk] at h
    rw [exec_bind_ok (exec_pure keys store)] at h
    dsimp only at h
    cases hm : stored_monitors host ldk persister keys store with
    | none =>
      obtain ⟨_, _, hread, -⟩ := exec_bind_eq_ok h
      exact absurd ((returns_map_error _ _ _).mp (.of_ok hread)) (not_returns_read_channel_monitors host ldk hm)
    | some monitors =>
      rw [exec_bind_ok (convert_ok _ (exec_stored_monitors host ldk hm))] at h
      obtain ⟨read, t₁, hread, h⟩ := exec_bind_eq_ok h
      obtain ⟨watched, t₂, hwatch, h⟩ := exec_bind_eq_ok h
      obtain ⟨_, t₃, -, h⟩ := exec_bind_eq_ok h
      obtain ⟨_, t₄, -, h⟩ := exec_bind_eq_ok h
      cases h
      exact ⟨rfl, monitors, read, t₁, t₂, hm, hread, hwatch, rfl⟩

/-- What `read_channel_manager` returned says which manager is stored: a new manager is begun where none is, or where the
item under its key does not decode. -/
theorem found_of_fresh {persister : MutinyNodePersister} {keys : Keys} {monitors monitors' : List Monitor} {manager : Manager}
    {t : Store}
    (h : exec (persister.read_channel_manager host ldk network keys monitors net) store =
      (.ok ⟨manager, false, monitors'⟩, t)) :
    found host persister.storage (List UInt8) (persister.get_key "manager") store = none ∨
      ∃ e, found host persister.storage (List UInt8) (persister.get_key "manager") store = some (.error (.err e)) := by
  have hv := exec_read_value host persister "manager" store
  match hf : found host persister.storage (List UInt8) (persister.get_key "manager") store with
  | none => exact .inl rfl
  | some (.error (.err e)) => exact .inr ⟨e, rfl⟩
  | some (.error .panic) =>
    rw [hf] at hv
    cases h.symm.trans (exec_read_channel_manager_panic host ldk hv network keys monitors net)
  | some (.ok bytes) =>
    rw [hf] at hv
    have hx := h.symm.trans (exec_read_channel_manager_stored host ldk hv network keys monitors net)
    cases hr : ldk.read_manager keys monitors bytes with
    | none =>
      rw [hr] at hx
      cases hx
    | some manager =>
      rw [hr] at hx
      cases hx

theorem found_none {key : String} (h : found host storage (List UInt8) key store = none) : store.items.lookup key = none :=
  Option.map_eq_none_iff.mp h

theorem started_fresh {e : MutinyStorageError} {node : Node Keys Monitor Manager} {t : Store}
    (hf : found host storage (List UInt8) (MutinyNodePersister.get_key ⟨node_index.uuid, storage⟩ "manager") store =
      some (.error (.err e)))
    (h : exec (Node.new host ldk node_index mnemonic storage network addr net) store = (.ok node, t)) :
    node.StartedFresh host storage ldk node_index network net store := by
  obtain ⟨-, monitors, read, t₁, t₂, hm, hread, hwatch, hmanager⟩ := exec_node_new_ok h
  have hv := exec_read_value host ⟨node_index.uuid, storage⟩ "manager" store
  rw [hf] at hv
  have hx := hread.symm.trans (exec_read_channel_manager_fresh host ldk hv network node.keys_manager monitors net)
  cases ht : net.tip with
  | none =>
    rw [ht] at hx
    cases hx
  | some tip =>
    rw [ht] at hx
    cases hx
    dsimp only at hmanager
    rw [← hmanager] at hread
    have hwatched : ([] : List Monitor) = node.chain_monitor := Except.ok.inj (congrArg Prod.fst hwatch)
    exact ⟨monitors, _, hm, hread, hwatched.symm⟩

omit [Serde String] [Serde (List UInt8)] in
theorem monitor_key_ne_manager (persister : MutinyNodePersister) (id : String) :
    persister.get_key ("monitors/" ++ id) ≠ persister.get_key "manager" := by
  intro h
  have hl := congrArg (fun s : String => s.toList[1]?) (get_key_injective persister h)
  simp at hl

variable (host storage ldk node_index mnemonic network addr net store) in
/-- The stored manager is respected exactly when the node does not open while the item stored for its manager does not
decode. -/
theorem manager_respected
    (hb : ∀ w ∈ net.background, MutinyNodePersister.get_key ⟨w.1, storage⟩ w.2.1 ≠
      MutinyNodePersister.get_key ⟨node_index.uuid, storage⟩ "manager") :
    ManagerRespected host storage ldk node_index mnemonic network addr net store ↔
      ∀ item e, store.items.lookup (MutinyNodePersister.get_key ⟨node_index.uuid, storage⟩ "manager") = some item →
        (storage.decode host.crypto item : Except (Fault MutinyStorageError) (List UInt8)) = .error (.err e) →
          ¬ Node.Opens host storage ldk node_index mnemonic addr net store := by
  generalize hkey : MutinyNodePersister.get_key ⟨node_index.uuid, storage⟩ "manager" = key at hb
  have hfound : ∀ {item}, store.items.lookup key = some item →
      found host storage (List UInt8) key store = some (storage.decode host.crypto item) := by
    intro item hi
    unfold found
    rw [hi]
    rfl
  constructor
  · intro ⟨hfresh, _⟩ item e hi hd hopens
    obtain ⟨node, t, hx⟩ := (returns_node_new host storage ldk node_index mnemonic network addr net store).mpr hopens
    have hf := hfound hi
    rw [hd] at hf
    subst hkey
    cases hi.symm.trans (hfresh node t hx (started_fresh hf hx))
  · intro h
    refine ⟨?_, ?_⟩
    · intro node t hx ⟨monitors, t', _, hread, _⟩
      rw [hkey]
      rcases found_of_fresh hread with hf | ⟨e, hf⟩
      · rw [hkey] at hf
        exact found_none hf
      · rw [hkey] at hf
        cases hi : store.items.lookup key with
        | none => rfl
        | some item =>
          rw [hfound hi] at hf
          have hopens := (returns_node_new host storage ldk node_index mnemonic network addr net store).mp (.of_ok hx)
          exact absurd hopens (h item e hi (Option.some.inj hf))
    · intro item hi hu
      rw [hkey] at hi ⊢
      have hsame := same_node_new host storage ldk node_index net hb (hkey ▸ monitor_key_ne_manager _) mnemonic network addr
        store
      refine ⟨?_, hsame.trans hi⟩
      rw [returns_node_new]
      intro hopens
      obtain ⟨keys, monitors, hk, hm, hread, -⟩ := id hopens
      rw [hkey, hfound hi] at hread
      unfold ManagerUnreadable at hu
      match hd : (storage.decode host.crypto item : Except (Fault MutinyStorageError) (List UInt8)) with
      | .error (.err e) => exact h item e hi hd hopens
      | .error .panic =>
        rw [hd] at hread
        exact hread
      | .ok bytes =>
        rw [hd] at hread hu
        obtain ⟨hsome, -⟩ := hread
        rw [hu keys monitors hk hm] at hsome
        cases hsome

end

attribute [local instance] string_serde bytes_serde

/-- A store with the manager of a node, which is not the JSON of bytes. -/
def broken_manager : Store := ⟨(∅ : AList _).insert "manager_n" "x", 1⟩

theorem manager_respected_offline : ManagerRespected open_host ⟨""⟩ sample_opening.ldk ⟨"n", 0⟩ true .Testnet ""
    ⟨none, [("other", "manager", [1])], fun _ => true⟩ broken_manager := by
  apply (manager_respected open_host ⟨""⟩ sample_opening.ldk ⟨"n", 0⟩ true .Testnet ""
    ⟨none, [("other", "manager", [1])], fun _ => true⟩ broken_manager ?_).mpr
  · intro item e _ _ ⟨_, _, _, _, hread, _⟩
    cases hread.1
  · decide

/-- With it the node opens with a new manager, over the item that is stored. -/
theorem manager_passed_over : ¬ ManagerRespected open_host ⟨""⟩ sample_opening.ldk ⟨"n", 0⟩ true .Testnet ""
    ⟨some (7, ""), [], fun _ => true⟩ broken_manager := by
  intro ⟨hfresh, _⟩
  have hnone := hfresh ⟨"n", "", (), (), []⟩ broken_manager rfl ⟨[], broken_manager, rfl, rfl, rfl⟩
  exact absurd hnone (by decide)

end Mutiny
