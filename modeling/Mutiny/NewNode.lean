import Mutiny.Machine
import Mutiny.NodeManagerAtomic
import Mutiny.StorageKeys

/-!
# New nodes (`nodemanager.rs`)

A call of `new_node` takes the mutex of the node list, computes the next child index from the stored list, stores the
list with the new entry and then opens the node, which can fail. The machine interleaves any number of calls with the
writes of other tasks and with restarts. No two entries of the list ever have the same child index
(`node_indices`).
-/

namespace Mutiny

open Prog

/-! ## `create_new_node_from_node_manager` -/

/-- `Iterator::max_by_key`: the last of the greatest items. -/
def max_by_key {α : Type} (key : α → Nat) : List α → Option α
  | [] => none
  | a :: l => some (l.foldl (fun m b => if key m ≤ key b then b else m) a)

structure NodeIdentity where
  uuid : String
  pubkey : String
  deriving DecidableEq, Repr

section
variable [Serde NodeStorage] (host : Host)

def MutinyBrowserStorage.insert_nodes (nodes : NodeStorage) : StorageM MutinyStorageError Unit :=
  convert .StorageError (LocalStorage.set host nodes_key nodes)

def next_node_index (nodes : NodeStorage) : UInt32 :=
  match max_by_key (fun e : Sigma fun _ : String => NodeIndex => e.2.child_index.toNat) (host.order nodes.nodes.entries) with
  | none => 0
  | some e => e.2.child_index + 1

/-- What a call does under the mutex before it opens the node. -/
def save_next_node (next_node_uuid : String) : StorageM MutinyError (NodeIndex × NodeStorage) := do
  let existing_nodes ← convert .read_err MutinyBrowserStorage.get_nodes
  let next_node : NodeIndex := { uuid := next_node_uuid, child_index := next_node_index host existing_nodes }
  let existing_nodes : NodeStorage := ⟨existing_nodes.nodes.insert next_node_uuid next_node⟩
  convert .PersistenceFailed (MutinyBrowserStorage.insert_nodes host existing_nodes)
  return (next_node, existing_nodes)

variable [Serde String] [Serde (List UInt8)] {Mnemonic Keys Monitor Manager : Type}
  (ldk : Ldk Mnemonic Keys Monitor Manager)

namespace NodeManager

variable (node_manager : NodeManager Mnemonic Keys Monitor Manager)

def save_node (next_node_uuid : String) (store : Store) :
    Except (Fault MutinyError) NodeIndex × NodeManager Mnemonic Keys Monitor Manager × Store :=
  match exec (save_next_node host next_node_uuid) store with
  | (.error e, store) => (.error e, node_manager, store)
  | (.ok (next_node, nodes), store) => (.ok next_node, { node_manager with node_storage := nodes }, store)

def start_node (next_node : NodeIndex) (net : Net) (store : Store) :
    Except (Fault MutinyError) NodeIdentity × NodeManager Mnemonic Keys Monitor Manager × Store :=
  match exec (Node.new host ldk next_node node_manager.mnemonic node_manager.storage node_manager.network
      node_manager.websocket_proxy_addr net) store with
  | (.error e, store) => (.error e, node_manager, store)
  | (.ok new_node, store) =>
    (.ok ⟨next_node.uuid, new_node.pubkey⟩,
      { node_manager with nodes := node_manager.nodes.insert new_node.pubkey new_node }, store)

def create_new_node (next_node_uuid : String) (net : Net) (store : Store) :
    Except (Fault MutinyError) NodeIdentity × NodeManager Mnemonic Keys Monitor Manager × Store :=
  match node_manager.save_node host next_node_uuid store with
  | (.error e, node_manager, store) => (.error e, node_manager, store)
  | (.ok next_node, node_manager, store) => node_manager.start_node host ldk next_node net store

end NodeManager

/-! ## Calls, other tasks and restarts -/

inductive CallPc where
  | absent
  | waiting
  | starting (next_node : NodeIndex)
  | done
  /-- The call panicked and never gives the mutex back. -/
  | panicked
  deriving DecidableEq, Repr

/-- The browser store and the page: the wallet it has open, the call that has the mutex of the node list, and where
every call of `new_node` is. -/
structure Page (Mnemonic Keys Monitor Manager : Type) where
  store : Store
  node_manager : Option (NodeManager Mnemonic Keys Monitor Manager)
  lock : Option Nat
  calls : Nat → CallPc

def Page.closed (store : Store) : Page Mnemonic Keys Monitor Manager := ⟨store, none, none, fun _ => .absent⟩

inductive PageAct where
  /-- The page is loaded anew and opens the wallet; whatever ran in the old page is gone. -/
  | restart (getrandom : Nat → Option (List UInt8)) (net : Nat → Net) (password : String)
      (mnemonic addr network_str : Option String)
  | new_node (call : Nat)
  | save (call : Nat) (next_node_uuid : Uuid)
  | start (call : Nat) (net : Net)
  /-- Another task writes, or deletes, under a key of its own. -/
  | write (key value : String)
  | delete (key : String)

namespace Page

variable (opening : Opening Mnemonic Keys Monitor Manager) (s : Page Mnemonic Keys Monitor Manager)

def goto (call : Nat) (pc : CallPc) : Page Mnemonic Keys Monitor Manager :=
  { s with calls := Function.update s.calls call pc }

def restart (getrandom : Nat → Option (List UInt8)) (net : Nat → Net) (password : String)
    (mnemonic addr network_str : Option String) : Page Mnemonic Keys Monitor Manager :=
  let r := exec (NodeManager.new host { opening with getrandom, net } password mnemonic addr network_str) s.store
  ⟨r.2, r.1.toOption, none, fun _ => .absent⟩

def save (call : Nat) (next_node_uuid : Uuid) : Option (Page Mnemonic Keys Monitor Manager) :=
  match s.calls call, s.lock, s.node_manager with
  | .waiting, none, some node_manager =>
    match node_manager.save_node host next_node_uuid.to_string s.store with
    | (.error _, node_manager, store) => some { s.goto call .done with store, node_manager := some node_manager }
    | (.ok next_node, node_manager, store) =>
      some { s.goto call (.starting next_node) with store, node_manager := some node_manager, lock := some call }
  | _, _, _ => none

def start (call : Nat) (net : Net) : Option (Page Mnemonic Keys Monitor Manager) :=
  match s.calls call, s.node_manager with
  | .starting next_node, some node_manager =>
    match node_manager.start_node host opening.ldk next_node net s.store with
    | (.error .panic, node_manager, store) => some { s.goto call .panicked with store, node_manager := some node_manager }
    | (_, node_manager, store) => some { s.goto call .done with store, node_manager := some node_manager, lock := none }
  | _, _ => none

def step : PageAct → Option (Page Mnemonic Keys Monitor Manager)
  | .restart getrandom net password mnemonic addr network_str =>
    some (s.restart host opening getrandom net password mnemonic addr network_str)
  | .new_node call => if s.calls call = .absent ∧ s.node_manager.isSome then some (s.goto call .waiting) else none
  | .save call next_node_uuid => s.save host call next_node_uuid
  | .start call net => s.start host opening call net
  | .write key value =>
    if key ≠ nodes_key then some { s with store := ⟨s.store.items.insert key value, s.store.writes + 1⟩ } else none
  | .delete key =>
    if key ≠ nodes_key then some { s with store := { s.store with items := s.store.items.erase key } } else none

def machine : Machine (Page Mnemonic Keys Monitor Manager) PageAct := ⟨step host opening⟩

end Page

/-! ## The next child index -/

omit [Serde NodeStorage] [Serde String] [Serde (List UInt8)] in
theorem foldl_max {α : Type} (key : α → Nat) : ∀ (l : List α) (a : α),
    let m := l.foldl (fun m b => if key m ≤ key b then b else m) a
    (m = a ∨ m ∈ l) ∧ key a ≤ key m ∧ ∀ b ∈ l, key b ≤ key m
  | [], a => ⟨.inl rfl, Nat.le_refl _, nofun⟩
  | b :: l, a => by
    obtain ⟨hm, ha, hall⟩ := foldl_max key l (if key a ≤ key b then b else a)
    rw [List.foldl_cons]
    by_cases hb : key a ≤ key b
    · simp only [if_pos hb] at hm ha hall ⊢
      refine ⟨.inr ?_, Nat.le_trans hb ha, fun c hc => ?_⟩
      · rcases hm with hm | hm
        · rw [hm]
          exact List.mem_cons_self ..
        · exact List.mem_cons_of_mem _ hm
      · rcases List.mem_cons.mp hc with rfl | hc
        · exact ha
        · exact hall c hc
    · simp only [if_neg hb] at hm ha hall ⊢
      refine ⟨?_, ha, fun c hc => ?_⟩
      · rcases hm with hm | hm
        · exact .inl hm
        · exact .inr (List.mem_cons_of_mem _ hm)
      · rcases List.mem_cons.mp hc with rfl | hc
        · exact Nat.le_trans (Nat.le_of_not_le hb) ha
        · exact hall c hc

omit [Serde NodeStorage] [Serde String] [Serde (List UInt8)] in
theorem max_by_key_spec {α : Type} (key : α → Nat) (l : List α) :
    (l = [] ∧ max_by_key key l = none) ∨ ∃ m ∈ l, max_by_key key l = some m ∧ ∀ b ∈ l, key b ≤ key m := by
  cases l with
  | nil => exact .inl ⟨rfl, rfl⟩
  | cons a l =>
    obtain ⟨hm, ha, hall⟩ := foldl_max key l a
    refine .inr ⟨_, ?_, rfl, fun b hb => ?_⟩
    · rcases hm with hm | hm
      · rw [hm]
        exact List.mem_cons_self ..
      · exact List.mem_cons_of_mem _ hm
    · rcases List.mem_cons.mp hb with rfl | hb
      · exact ha
      · exact hall b hb

/-- Every entry is stored under its own uuid, no two have one child index, and the indices are below the number of
entries. -/
structure NodeStorage.Sound (nodes : NodeStorage) : Prop where
  own : ∀ uuid e, nodes.nodes.lookup uuid = some e → e.uuid = uuid
  distinct : ∀ u v e e', nodes.nodes.lookup u = some e → nodes.nodes.lookup v = some e' →
    e.child_index = e'.child_index → u = v
  bound : ∀ u e, nodes.nodes.lookup u = some e → e.child_index.toNat < nodes.nodes.entries.length

omit [Serde NodeStorage] [Serde String] [Serde (List UInt8)] in
theorem next_node_index_spec {nodes : NodeStorage} (sound : nodes.Sound) (hlen : nodes.nodes.entries.length < 2 ^ 31) :
    (next_node_index host nodes).toNat ≤ nodes.nodes.entries.length ∧
      ∀ u e, nodes.nodes.lookup u = some e → e.child_index.toNat < (next_node_index host nodes).toNat := by
  have hmem : ∀ e : Sigma fun _ : String => NodeIndex, e ∈ host.order nodes.nodes.entries ↔
      nodes.nodes.lookup e.1 = some e.2 := by
    intro e
    rw [(host.order_perm _).mem_iff]
    exact AList.mem_lookup_iff.symm
  unfold next_node_index
  rcases max_by_key_spec (fun e : Sigma fun _ : String => NodeIndex => e.2.child_index.toNat)
    (host.order nodes.nodes.entries) with ⟨hnil, hmax⟩ | ⟨m, hm, hmax, hall⟩
  · rw [hmax]
    refine ⟨Nat.zero_le _, fun u e he => ?_⟩
    have hin := (hmem ⟨u, e⟩).mpr he
    rw [hnil] at hin
    cases hin
  · rw [hmax]
    have hb := sound.bound m.1 m.2 ((hmem m).mp hm)
    have hadd : (m.2.child_index + 1).toNat = m.2.child_index.toNat + 1 := by
      rw [UInt32.toNat_add]
      exact Nat.mod_eq_of_lt (by simp; omega)
    dsimp only
    rw [hadd]
    refine ⟨hb, fun u e he => ?_⟩
    exact Nat.lt_succ_of_le (hall ⟨u, e⟩ ((hmem ⟨u, e⟩).mpr he))

omit [Serde NodeStorage] [Serde String] [Serde (List UInt8)] in
theorem sound_empty : (⟨∅⟩ : NodeStorage).Sound := ⟨nofun, nofun, nofun⟩

omit [Serde NodeStorage] [Serde String] [Serde (List UInt8)] in
theorem sound_insert {nodes : NodeStorage} (sound : nodes.Sound) (hlen : nodes.nodes.entries.length < 2 ^ 31)
    {uuid : String} (hfresh : uuid ∉ nodes.nodes) :
    (⟨nodes.nodes.insert uuid ⟨uuid, next_node_index host nodes⟩⟩ : NodeStorage).Sound := by
  obtain ⟨hle, hlt⟩ := next_node_index_spec host sound hlen
  have hcases : ∀ {v e}, (nodes.nodes.insert uuid ⟨uuid, next_node_index host nodes⟩).lookup v = some e →
      (v = uuid ∧ e = ⟨uuid, next_node_index host nodes⟩) ∨ nodes.nodes.lookup v = some e := by
    intro v e h
    by_cases hv : v = uuid
    · subst hv
      rw [AList.lookup_insert] at h
      exact .inl ⟨rfl, (Option.some.inj h).symm⟩
    · rw [AList.lookup_insert_ne hv] at h
      exact .inr h
  have hentries : (nodes.nodes.insert uuid ⟨uuid, next_node_index host nodes⟩).entries.length =
      nodes.nodes.entries.length + 1 := by
    rw [AList.entries_insert_of_notMem hfresh, List.length_cons]
  refine ⟨fun v e h => ?_, fun u v e e' h h' hidx => ?_, fun v e h => ?_⟩
  · rcases hcases h with ⟨rfl, rfl⟩ | h
    · rfl
    · exact sound.own v e h
  · rcases hcases h with ⟨rfl, rfl⟩ | hu <;> rcases hcases h' with ⟨rfl, rfl⟩ | hv
    · rfl
    · have hlt' := hlt v e' hv
      rw [← hidx] at hlt'
      exact absurd hlt' (Nat.lt_irrefl _)
    · have hlt' := hlt u e hu
      rw [hidx] at hlt'
      exact absurd hlt' (Nat.lt_irrefl _)
    · exact sound.distinct u v e e' hu hv hidx
  · show e.child_index.toNat < (nodes.nodes.insert uuid ⟨uuid, next_node_index host nodes⟩).entries.length
    rw [hentries]
    rcases hcases h with ⟨rfl, rfl⟩ | h
    · exact Nat.lt_succ_of_le hle
    · exact Nat.lt_succ_of_lt (sound.bound v e h)

/-! ## Who writes the list -/

omit [Serde NodeStorage] [Serde String] [Serde (List UInt8)] in
theorem node_key_ne_nodes (persister : MutinyNodePersister) (key : String) : persister.get_key key ≠ nodes_key := by
  intro h
  have hm : '_' ∈ (persister.get_key key).toList := by simp [MutinyNodePersister.get_key]
  rw [h] at hm
  exact absurd hm (by decide)

omit [Serde NodeStorage] [Serde (List UInt8)] in
theorem same_seed (opening : Opening Mnemonic Keys Monitor Manager) (storage : MutinyBrowserStorage)
    (mnemonic : Option String) : Within (Same nodes_key) (NodeManager.seed host opening storage mnemonic) := by
  intro store
  cases hs : new_seed host opening storage mnemonic store with
  | none =>
    rw [exec_seed_kept host opening hs]
    exact refl_of _ _
  | some seed =>
    rw [exec_seed_written host opening hs]
    by_cases hr : host.refuses store.writes = true
    · rw [if_pos hr]
      exact refl_of (Same nodes_key) store
    · rw [if_neg hr]
      exact AList.lookup_insert_ne (by decide)

omit [Serde String] [Serde (List UInt8)] in
theorem stored_nodes_of_same {s t : Store} (h : Same nodes_key s t) : stored_nodes t = stored_nodes s := by
  unfold stored_nodes
  rw [show t.items.lookup nodes_key = s.items.lookup nodes_key from h]

theorem open_wallet_nodes {opening : Opening Mnemonic Keys Monitor Manager} {storage : MutinyBrowserStorage}
    {mnemonic : Mnemonic} {network : Network} {addr : String} {store store' : Store}
    {node_manager : NodeManager Mnemonic Keys Monitor Manager}
    (h : exec (NodeManager.open_wallet host opening mnemonic storage network addr) store = (.ok node_manager, store')) :
    stored_nodes store = some node_manager.node_storage := by
  unfold NodeManager.open_wallet at h
  obtain ⟨_, t, hw, h⟩ := exec_bind_eq_ok h
  obtain ⟨node_storage, t', hg, h⟩ := exec_bind_eq_ok h
  obtain ⟨nodes_map, t'', _, h⟩ := exec_bind_eq_ok h
  cases h
  have hsame := same_wallet_new (ε := MutinyError) host storage opening.bdk map_key_ne_nodes mnemonic network store
  rw [hw] at hsame
  rw [← stored_nodes_of_same hsame]
  have hget := exec_get_nodes t
  cases hs : stored_nodes t with
  | none =>
    rw [hs] at hget
    rw [convert_error _ hget] at hg
    cases hg
  | some nodes =>
    rw [hs] at hget
    rw [convert_ok _ hget] at hg
    cases hg
    rfl

theorem exec_node_manager_new (opening : Opening Mnemonic Keys Monitor Manager) (password : String)
    (mnemonic addr network_str : Option String) (store : Store) :
    let r := exec (NodeManager.new host opening password mnemonic addr network_str) store
    stored_nodes r.2 = stored_nodes store ∧
      ∀ node_manager, r.1 = .ok node_manager → stored_nodes store = some node_manager.node_storage := by
  unfold NodeManager.new
  dsimp only
  cases Network.parse (network_str.getD "testnet") with
  | none => exact ⟨rfl, nofun⟩
  | some network =>
    dsimp only
    have hseed := same_seed host opening ⟨password⟩ mnemonic store
    rcases hs : exec (NodeManager.seed host opening ⟨password⟩ mnemonic) store with ⟨e | seed, t⟩
    · rw [hs] at hseed
      rw [exec_bind_error hs]
      exact ⟨stored_nodes_of_same hseed, nofun⟩
    · rw [hs] at hseed
      rw [exec_bind_ok hs, ← stored_nodes_of_same hseed]
      have hopen := same_open_wallet host ⟨password⟩ opening map_key_ne_nodes node_key_ne_nodes seed network
        (addr.getD "wss://p.mutinywallet.com") t
      refine ⟨stored_nodes_of_same hopen, fun node_manager hr => ?_⟩
      exact open_wallet_nodes host (Prod.ext hr rfl)

omit [Serde String] [Serde (List UInt8)] in
theorem save_node_spec (node_manager : NodeManager Mnemonic Keys Monitor Manager) {store : Store} {nodes : NodeStorage}
    (hnodes : stored_nodes store = some nodes) (uuid : String) :
    (∃ e store', node_manager.save_node host uuid store = (.error (.err e), node_manager, store') ∧
        stored_nodes store' = some nodes) ∨
      ∃ store', let next_node : NodeIndex := ⟨uuid, next_node_index host nodes⟩
        let nodes' : NodeStorage := ⟨nodes.nodes.insert uuid next_node⟩
        node_manager.save_node host uuid store =
          (.ok next_node, { node_manager with node_storage := nodes' }, store') ∧ stored_nodes store' = some nodes' := by
  have hget := exec_get_nodes store
  rw [hnodes] at hget
  have hset := exec_local_set host nodes_key
    (⟨nodes.nodes.insert uuid ⟨uuid, next_node_index host nodes⟩⟩ : NodeStorage) store
  unfold NodeManager.save_node save_next_node MutinyBrowserStorage.insert_nodes
  rw [exec_bind_ok (convert_ok _ hget)]
  by_cases hr : host.refuses store.writes = true
  · rw [if_pos hr] at hset
    rw [exec_bind_error (convert_error _ (convert_error _ hset))]
    exact .inl ⟨_, _, rfl, hnodes⟩
  · rw [if_neg hr] at hset
    rw [exec_bind_ok (convert_ok _ (convert_ok _ hset))]
    refine .inr ⟨_, rfl, ?_⟩
    unfold stored_nodes
    rw [AList.lookup_insert]
    exact Serde.from_to _

theorem start_node_spec (ldk : Ldk Mnemonic Keys Monitor Manager) (node_manager : NodeManager Mnemonic Keys Monitor Manager)
    (next_node : NodeIndex) (net : Net) (store : Store) :
    let r := node_manager.start_node host ldk next_node net store
    r.2.1.node_storage = node_manager.node_storage ∧ stored_nodes r.2.2 = stored_nodes store := by
  have hsame := same_node_new host node_manager.storage ldk next_node net (fun _ _ => node_key_ne_nodes _ _)
    (fun _ => node_key_ne_nodes _ _) node_manager.mnemonic node_manager.network node_manager.websocket_proxy_addr store
  unfold NodeManager.start_node
  rcases hx : exec (Node.new host ldk next_node node_manager.mnemonic node_manager.storage node_manager.network
    node_manager.websocket_proxy_addr net) store with ⟨e | node, t⟩ <;> rw [hx] at hsame
  · exact ⟨rfl, stored_nodes_of_same hsame⟩
  · exact ⟨rfl, stored_nodes_of_same hsame⟩


/-! ## Runs -/

namespace NodeStorage

def Extends (nodes nodes' : NodeStorage) : Prop :=
  ∀ u e, nodes.nodes.lookup u = some e → nodes'.nodes.lookup u = some e

end NodeStorage

namespace Page

/-- A call that stores a new entry has drawn a new uuid, and fewer than `2 ^ 31` nodes are stored. -/
def Fresh (s : Page Mnemonic Keys Monitor Manager) : PageAct → Prop
  | .save _ next_node_uuid => ∀ nodes, stored_nodes s.store = some nodes →
    next_node_uuid.to_string ∉ nodes.nodes ∧ nodes.nodes.entries.length < 2 ^ 31
  | _ => True

structure Lists (s : Page Mnemonic Keys Monitor Manager) (nodes : NodeStorage) : Prop where
  stored : stored_nodes s.store = some nodes
  sound : nodes.Sound
  in_memory : ∀ node_manager, s.node_manager = some node_manager → node_manager.node_storage = nodes

variable {host} {opening : Opening Mnemonic Keys Monitor Manager} {s t : Page Mnemonic Keys Monitor Manager}
  {nodes : NodeStorage}

omit [Serde String] [Serde (List UInt8)] in
theorem lists_save {call : Nat} {next_node_uuid : Uuid} (h : s.Lists nodes) (hfresh : s.Fresh (.save call next_node_uuid))
    (hs : s.save host call next_node_uuid = some t) : ∃ nodes', t.Lists nodes' ∧ nodes.Extends nodes' := by
  obtain ⟨hnew, hlen⟩ := hfresh nodes h.stored
  unfold save at hs
  split at hs
  · next node_manager _ _ hm =>
    rcases save_node_spec host node_manager h.stored next_node_uuid.to_string with
      ⟨e, store', hx, hstored⟩ | ⟨store', hx, hstored⟩
    · rw [hx] at hs
      cases hs
      refine ⟨nodes, ⟨hstored, h.sound, fun m he => ?_⟩, fun _ _ he => he⟩
      cases he
      exact h.in_memory node_manager hm
    · rw [hx] at hs
      cases hs
      refine ⟨_, ⟨hstored, sound_insert host h.sound hlen hnew, fun m he => ?_⟩, fun u e he => ?_⟩
      · cases he
        rfl
      · have hne : u ≠ next_node_uuid.to_string := by
          intro hu
          exact hnew (hu ▸ AList.lookup_isSome.mp (by rw [he]; rfl))
        exact (AList.lookup_insert_ne hne).trans he
  · cases hs

theorem lists_start {call : Nat} {net : Net} (h : s.Lists nodes) (hs : s.start host opening call net = some t) :
    t.Lists nodes := by
  unfold start at hs
  split at hs
  · next next_node node_manager _ hm =>
    obtain ⟨hmem, hstored⟩ := start_node_spec host opening.ldk node_manager next_node net s.store
    have hnodes := h.in_memory node_manager hm
    split at hs <;> next hx =>
      rw [hx] at hmem hstored
      cases hs
      refine ⟨hstored.trans h.stored, h.sound, fun m he => ?_⟩
      cases he
      exact hmem.trans hnodes
  · cases hs

theorem lists_step {a : PageAct} (h : s.Lists nodes) (hfresh : s.Fresh a) (hs : step host opening s a = some t) :
    ∃ nodes', t.Lists nodes' ∧ nodes.Extends nodes' := by
  have hsame : ∀ {nodes' : NodeStorage}, nodes' = nodes → nodes.Extends nodes' := by
    intro nodes' he u e hu
    rwa [he]
  cases a with
  | restart getrandom net password mnemonic addr network_str =>
    cases hs
    obtain ⟨hstored, hmem⟩ := exec_node_manager_new host { opening with getrandom, net } password mnemonic addr
      network_str s.store
    refine ⟨nodes, ⟨hstored.trans h.stored, h.sound, fun m he => ?_⟩, hsame rfl⟩
    have hm := hmem m (toOption_eq_some.mp he)
    rw [h.stored] at hm
    exact (Option.some.inj hm).symm
  | new_node call =>
    unfold step at hs
    obtain ⟨-, hs⟩ := Option.ite_none_right_eq_some.mp hs
    cases hs
    exact ⟨nodes, ⟨h.stored, h.sound, h.in_memory⟩, hsame rfl⟩
  | save call next_node_uuid => exact lists_save h hfresh hs
  | start call net => exact ⟨nodes, lists_start h hs, hsame rfl⟩
  | write key value =>
    unfold step at hs
    obtain ⟨hk, hs⟩ := Option.ite_none_right_eq_some.mp hs
    cases hs
    have hl : Same nodes_key s.store ⟨s.store.items.insert key value, s.store.writes + 1⟩ :=
      AList.lookup_insert_ne (Ne.symm hk)
    exact ⟨nodes, ⟨(stored_nodes_of_same hl).trans h.stored, h.sound, h.in_memory⟩, hsame rfl⟩
  | delete key =>
    unfold step at hs
    obtain ⟨hk, hs⟩ := Option.ite_none_right_eq_some.mp hs
    cases hs
    have hl : Same nodes_key s.store { s.store with items := s.store.items.erase key } :=
      AList.lookup_erase_ne (Ne.symm hk)
    exact ⟨nodes, ⟨(stored_nodes_of_same hl).trans h.stored, h.sound, h.in_memory⟩, hsame rfl⟩

/-- In a run from a store without a list, the list is in order, the open wallet has it, and it extends those of the
states before. -/
theorem lists_run {store : Store} (h₀ : nodes_key ∉ store.items) {as : List PageAct}
    (hr : (machine host opening).run (closed store) as = some s)
    (hG : (machine host opening).Along Fresh (closed store) as) :
    ∃ nodes, s.Lists nodes ∧ ∀ bs t earlier, bs <+: as → (machine host opening).run (closed store) bs = some t →
      stored_nodes t.store = some earlier → earlier.Extends nodes := by
  induction as using List.reverseRecOn generalizing s with
  | nil =>
    cases hr
    have hstored : stored_nodes store = some ⟨∅⟩ := by
      unfold stored_nodes
      rw [AList.lookup_eq_none.mpr h₀]
    refine ⟨⟨∅⟩, ⟨hstored, sound_empty, nofun⟩, fun bs t earlier hb ht he => ?_⟩
    rw [List.prefix_nil.mp hb] at ht
    cases ht
    cases hstored.symm.trans he
    exact fun _ _ hu => hu
  | append_singleton as a ih =>
    obtain ⟨u, hu, hstep⟩ := Machine.run_snoc_some hr
    obtain ⟨nodes, hlists, hext⟩ := ih hu hG.append_left
    have hfresh := Machine.along_iff_steps.mp hG as a u (List.prefix_refl _) hu
    obtain ⟨nodes', hlists', hext'⟩ := lists_step hlists hfresh hstep
    refine ⟨nodes', hlists', fun bs t earlier hb ht he => ?_⟩
    rcases List.prefix_concat_iff.mp hb with rfl | hb
    · rw [hr] at ht
      cases ht
      cases hlists'.stored.symm.trans he
      exact fun _ _ hv => hv
    · exact fun v e hv => hext' v e (hext bs t earlier hb ht he v e hv)

variable (host opening) in
/-- However calls of `new_node` run and fail, and whenever the wallet is opened again, every entry of the stored list is
under its own uuid, no two have one child index, a child index stays with the uuid it was stored for, and the open wallet
has the list that is stored. -/
theorem node_indices (store : Store) (h₀ : nodes_key ∉ store.items) (as : List PageAct)
    (hr : (machine host opening).run (closed store) as = some s)
    (hG : (machine host opening).Along Fresh (closed store) as) :
    ∃ nodes, stored_nodes s.store = some nodes ∧
      (∀ uuid e, nodes.nodes.lookup uuid = some e → e.uuid = uuid) ∧
      (∀ u v e e', nodes.nodes.lookup u = some e → nodes.nodes.lookup v = some e' → e.child_index = e'.child_index →
        u = v) ∧
      (∀ bs t earlier, bs <+: as → (machine host opening).run (closed store) bs = some t →
        stored_nodes t.store = some earlier → ∀ u v e e', earlier.nodes.lookup u = some e →
          nodes.nodes.lookup v = some e' → e'.child_index = e.child_index → v = u) ∧
      ∀ node_manager, s.node_manager = some node_manager → node_manager.node_storage = nodes := by
  obtain ⟨nodes, hlists, hext⟩ := lists_run h₀ hr hG
  refine ⟨nodes, hlists.stored, hlists.sound.own, hlists.sound.distinct, ?_, hlists.in_memory⟩
  intro bs t earlier hb ht he u v e e' hu hv hidx
  exact hlists.sound.distinct v u e' e hv (hext bs t earlier hb ht he u e hu) hidx

end Page

end

attribute [local instance] string_serde bytes_serde node_storage_serde

namespace Page

instance {Mnemonic Keys Monitor Manager : Type} (s : Page Mnemonic Keys Monitor Manager) :
    ∀ a, Decidable (s.Fresh a)
  | .restart _ _ _ _ _ _ | .new_node _ | .start _ _ | .write _ _ | .delete _ => .isTrue trivial
  | .save _ next_node_uuid =>
    match hs : stored_nodes s.store with
    | none => .isTrue fun nodes hn => by rw [hs] at hn; cases hn
    | some nodes => decidable_of_iff (next_node_uuid.to_string ∉ nodes.nodes ∧ nodes.nodes.entries.length < 2 ^ 31) (by
        constructor
        · intro h nodes' hn
          rw [hs] at hn
          cases hn
          exact h
        · intro h
          exact h nodes hs)

/-- Two calls wait for the mutex; the first one stores its entry and fails, the second one opens its node, and the page
is loaded again. -/
def two_calls : List PageAct :=
  let opened : PageAct :=
    .restart (fun n => some (.replicate n 0x7f)) (fun _ => ⟨some (7, ""), [], fun _ => true⟩) "" none none none
  [opened, .new_node 0, .new_node 1, .save 0 ⟨.replicate 16 0⟩, .start 0 ⟨none, [], fun _ => true⟩,
    .save 1 ⟨.replicate 16 1⟩, .start 1 ⟨some (7, ""), [], fun _ => true⟩, opened]

theorem node_indices_two_calls : ∃ s nodes,
    (machine open_host sample_opening).run (closed ⟨∅, 0⟩) two_calls = some s ∧ stored_nodes s.store = some nodes ∧
      ∀ u v e e', nodes.nodes.lookup u = some e → nodes.nodes.lookup v = some e' → e.child_index = e'.child_index →
        u = v := by
  have hrun : ((machine open_host sample_opening).run (closed ⟨∅, 0⟩) two_calls).isSome = true := by decide +kernel
  obtain ⟨s, hs⟩ := Option.isSome_iff_exists.mp hrun
  obtain ⟨nodes, hstored, -, hdistinct, -⟩ := node_indices open_host sample_opening ⟨∅, 0⟩ (AList.notMem_empty _)
    two_calls hs (by decide +kernel)
  exact ⟨s, nodes, hs, hstored, hdistinct⟩

end Page

end Mutiny
