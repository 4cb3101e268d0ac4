import Mathlib.Data.String.Basic
import Mathlib.Order.Compare
import Mutiny.NodeReads

/-!
# The list of peers (`nodemanager.rs`)

`list_peers` joins what the nodes have saved of their peers with the peers LDK is connected to. What is saved is looked
up before a connected peer is added, but neither list is checked against itself, so a peer is listed once exactly when
no two nodes have saved it and, if none has, it is connected once (`list_peers_exact_iff`).
-/

namespace Mutiny

open Prog

structure MutinyPeer (PublicKey : Type) where
  pubkey : PublicKey
  connection_string : String
  is_connected : Bool
  deriving DecidableEq

/-- A node, as far as `list_peers` looks at it; `get_peer_node_ids` is the answer of its `peer_manager`. -/
structure PeerNode (PublicKey : Type) where
  persister : MutinyNodePersister
  get_peer_node_ids : List PublicKey

section
variable {PublicKey : Type} [LinearOrder PublicKey]

def MutinyPeer.cmp (a b : MutinyPeer PublicKey) : Ordering :=
  (compare a.is_connected b.is_connected).then
    ((compare a.pubkey b.pubkey).then (compare a.connection_string b.connection_string))

def MutinyPeer.le (a b : MutinyPeer PublicKey) : Bool := (a.cmp b).isLE

/-- What `list_peers` makes of the saved and the connected peers of all nodes. -/
def merge_peers (storage_peers : List (PublicKey × String)) (connected_peers : List PublicKey) :
    List (MutinyPeer PublicKey) :=
  let storage_peers : List (MutinyPeer PublicKey) := storage_peers.map fun p => ⟨p.1, p.2, false⟩
  let storage_peers := storage_peers.map fun peer =>
    if peer.pubkey ∈ connected_peers then { peer with is_connected := true } else peer
  let missing := (connected_peers.filter fun peer => ¬ storage_peers.any (·.pubkey == peer)).map fun peer =>
    ⟨peer, "unknown", true⟩
  (storage_peers ++ missing).mergeSort MutinyPeer.le

def list_peers {ε : Type} [Serde String] (host : Host) (secp : Secp256k1 PublicKey) (nodes : List (PeerNode PublicKey)) :
    StorageM ε (List (MutinyPeer PublicKey)) := do
  let saved ← nodes.mapM fun n => n.persister.list_peer_connection_info host secp
  return merge_peers saved.flatten (nodes.flatMap PeerNode.get_peer_node_ids)

/-! ## The order -/

instance : Std.TransCmp (MutinyPeer.cmp : MutinyPeer PublicKey → MutinyPeer PublicKey → Ordering) :=
  inferInstanceAs (Std.TransCmp (compareLex (compareOn MutinyPeer.is_connected)
    (compareLex (compareOn MutinyPeer.pubkey) (compareOn MutinyPeer.connection_string))))

theorem merge_peers_sorted (saved : List (PublicKey × String)) (connected : List PublicKey) :
    (merge_peers saved connected).Pairwise fun a b => a.le b = true := by
  apply List.pairwise_mergeSort
  · intro a b c
    exact Std.TransCmp.isLE_trans
  · intro a b
    have hswap : b.cmp a = (a.cmp b).swap := Std.OrientedCmp.eq_swap
    unfold MutinyPeer.le
    rw [hswap]
    cases a.cmp b <;> rfl

/-! ## Who is listed -/

/-- The saved peers, once it is known which of them are connected. -/
def mark_connected (connected_peers : List PublicKey) (p : PublicKey × String) : MutinyPeer PublicKey :=
  ⟨p.1, p.2, p.1 ∈ connected_peers⟩

theorem merge_peers_perm (saved : List (PublicKey × String)) (connected : List PublicKey) :
    (merge_peers saved connected).Perm (saved.map (mark_connected connected) ++
      (connected.filter (· ∉ saved.map Prod.fst)).map fun peer => ⟨peer, "unknown", true⟩) := by
  have hmark : (saved.map fun p => (⟨p.1, p.2, false⟩ : MutinyPeer PublicKey)).map
      (fun peer => if peer.pubkey ∈ connected then { peer with is_connected := true } else peer) =
      saved.map (mark_connected connected) := by
    rw [List.map_map]
    apply List.map_congr_left
    intro p _
    by_cases hp : p.1 ∈ connected <;> simp [mark_connected, hp]
  unfold merge_peers
  simp only [hmark]
  apply (List.mergeSort_perm _ _).trans
  apply List.Perm.of_eq
  congr 3
  funext peer
  have hany : ((saved.map (mark_connected connected)).any fun p => p.pubkey == peer) =
      decide (peer ∈ saved.map Prod.fst) := by
    rw [Bool.eq_iff_iff]
    simp [mark_connected]
  simp only [hany, decide_not, decide_eq_true_eq]

theorem merge_peers_pubkeys (saved : List (PublicKey × String)) (connected : List PublicKey) :
    ((merge_peers saved connected).map MutinyPeer.pubkey).Perm
      (saved.map Prod.fst ++ connected.filter (· ∉ saved.map Prod.fst)) := by
  apply ((merge_peers_perm saved connected).map _).trans
  apply List.Perm.of_eq
  simp [mark_connected, Function.comp_def]

theorem merge_peers_connected {saved : List (PublicKey × String)} {connected : List PublicKey}
    {peer : MutinyPeer PublicKey} (h : peer ∈ merge_peers saved connected) :
    peer.is_connected = true ↔ peer.pubkey ∈ connected := by
  rcases List.mem_append.mp ((merge_peers_perm saved connected).mem_iff.mp h) with h | h
  · obtain ⟨p, -, rfl⟩ := List.mem_map.mp h
    simp [mark_connected]
  · obtain ⟨pubkey, hp, rfl⟩ := List.mem_map.mp h
    simpa using (List.mem_filter.mp hp).1

/-- The peers listed exactly once each: those that are saved or connected, in order. -/
structure ListsExactly (saved connected : PublicKey → Prop) (peers : List (MutinyPeer PublicKey)) : Prop where
  once : (peers.map MutinyPeer.pubkey).Nodup
  all : ∀ pubkey, pubkey ∈ peers.map MutinyPeer.pubkey ↔ saved pubkey ∨ connected pubkey
  connected : ∀ peer ∈ peers, peer.is_connected = true ↔ connected peer.pubkey
  ordered : peers.Pairwise fun a b => a.le b = true

theorem merge_peers_exact_iff (saved : List (PublicKey × String)) (connected : List PublicKey) :
    ListsExactly (· ∈ saved.map Prod.fst) (· ∈ connected) (merge_peers saved connected) ↔
      (saved.map Prod.fst).Nodup ∧ ∀ pubkey, pubkey ∉ saved.map Prod.fst → connected.count pubkey ≤ 1 := by
  have hperm := merge_peers_pubkeys saved connected
  have hcount : (connected.filter (· ∉ saved.map Prod.fst)).Nodup ↔
      ∀ pubkey, pubkey ∉ saved.map Prod.fst → connected.count pubkey ≤ 1 := by
    rw [List.nodup_iff_count_le_one]
    constructor
    · intro h pubkey hp
      have := h pubkey
      rwa [List.count_filter (by simpa using hp)] at this
    · intro h pubkey
      by_cases hp : pubkey ∈ saved.map Prod.fst
      · rw [List.count_eq_zero_of_not_mem (by simp [hp])]
        omega
      · rw [List.count_filter (by simpa using hp)]
        exact h pubkey hp
  have hnodup : ((merge_peers saved connected).map MutinyPeer.pubkey).Nodup ↔
      (saved.map Prod.fst).Nodup ∧ ∀ pubkey, pubkey ∉ saved.map Prod.fst → connected.count pubkey ≤ 1 := by
    rw [hperm.nodup_iff, List.nodup_append', hcount]
    have hdisj : (saved.map Prod.fst).Disjoint (connected.filter (· ∉ saved.map Prod.fst)) := by
      intro pubkey hp hf
      simp [hp] at hf
    tauto
  constructor
  · intro h
    exact hnodup.mp h.once
  · intro h
    refine ⟨hnodup.mpr h, fun pubkey => ?_, fun peer => merge_peers_connected, merge_peers_sorted saved connected⟩
    rw [hperm.mem_iff, List.mem_append, List.mem_filter]
    by_cases hp : pubkey ∈ saved.map Prod.fst <;> simp [hp]

end

/-! ## The peers of all nodes -/

section
variable {PublicKey Mnemonic Keys Monitor Manager : Type} [LinearOrder PublicKey] [Serde String] [Serde (List UInt8)]
  {host : Host} {storage : MutinyBrowserStorage} {secp : Secp256k1 PublicKey} {ldk : Ldk Mnemonic Keys Monitor Manager}

/-- The nodes with their identifiers and the peers LDK is connected to on them. -/
def peer_nodes (storage : MutinyBrowserStorage) (nodes : List (Uuid × List PublicKey)) : List (PeerNode PublicKey) :=
  nodes.map fun n => ⟨⟨n.1.to_string, storage⟩, n.2⟩

def IsSaved (secp : Secp256k1 PublicKey) (done : List (NodeCall PublicKey Monitor)) (nodes : List (Uuid × List PublicKey))
    (pubkey : PublicKey) : Prop :=
  ∃ n ∈ nodes, (last_peer secp done n.1 pubkey).isSome = true

def IsConnected (nodes : List (Uuid × List PublicKey)) (pubkey : PublicKey) : Prop := ∃ n ∈ nodes, pubkey ∈ n.2

/-- No two nodes have saved the same peer, and a peer that none has saved is connected once. -/
structure KnownOnce (secp : Secp256k1 PublicKey) (done : List (NodeCall PublicKey Monitor))
    (nodes : List (Uuid × List PublicKey)) : Prop where
  saved : nodes.Pairwise fun n m => ∀ pubkey, (last_peer secp done n.1 pubkey).isSome = true →
    (last_peer secp done m.1 pubkey).isSome = false
  connected : ∀ pubkey, ¬ IsSaved secp done nodes pubkey → (nodes.flatMap Prod.snd).count pubkey ≤ 1

theorem Kept.exec_list_peers {done : List (NodeCall PublicKey Monitor)} {store : Store}
    (h : Kept host storage secp ldk done store) (nodes : List (Uuid × List PublicKey)) {ε : Type} :
    ∃ saved : List (PublicKey × String),
      Prog.exec (list_peers host secp (peer_nodes storage nodes) : StorageM ε _) store =
        (.ok (merge_peers saved (nodes.flatMap Prod.snd)), store) ∧
      (∀ pubkey, pubkey ∈ saved.map Prod.fst ↔ IsSaved secp done nodes pubkey) ∧
      ((saved.map Prod.fst).Nodup ↔ nodes.Pairwise fun n m => ∀ pubkey,
        (last_peer secp done n.1 pubkey).isSome = true → (last_peer secp done m.1 pubkey).isSome = false) := by
  have hlist := fun uuid => h.exec_list_peer_connection_info (ε := ε) uuid
  choose saved hexec hlisting using hlist
  have hmap : Prog.exec ((peer_nodes storage nodes).mapM fun n =>
      (n.persister.list_peer_connection_info host secp : StorageM ε _)) store =
        (.ok (nodes.map fun n => saved n.1), store) := by
    unfold peer_nodes
    rw [List.mapM_map]
    exact exec_mapM fun n _ => hexec n.1
  have hconn : (peer_nodes storage nodes).flatMap PeerNode.get_peer_node_ids = nodes.flatMap Prod.snd := by
    unfold peer_nodes
    rw [List.flatMap_map]
  have hfst : (nodes.map fun n => saved n.1).flatten.map Prod.fst = nodes.flatMap fun n => (saved n.1).map Prod.fst := by
    rw [List.map_flatten, List.map_map]
    rfl
  refine ⟨(nodes.map fun n => saved n.1).flatten, ?_, ?_, ?_⟩
  · unfold list_peers
    rw [exec_bind_ok hmap, hconn]
    rfl
  · intro pubkey
    rw [hfst, List.mem_flatMap]
    simp only [((hlisting _).keys).2]
    rfl
  · rw [hfst, List.nodup_flatMap]
    constructor
    · intro ⟨_, hd⟩
      apply hd.imp
      intro n m hnm pubkey hn
      by_contra hm
      rw [Bool.not_eq_false] at hm
      exact hnm (((hlisting n.1).keys.2 pubkey).mpr hn) (((hlisting m.1).keys.2 pubkey).mpr hm)
    · intro hp
      refine ⟨fun n _ => (hlisting n.1).keys.1, hp.imp ?_⟩
      intro n m hnm pubkey hn hm
      have := hnm pubkey (((hlisting n.1).keys.2 pubkey).mp hn)
      rw [((hlisting m.1).keys.2 pubkey).mp hm] at this
      cases this

end

theorem list_peers_exact_iff {PublicKey Mnemonic Keys Monitor Manager ε : Type} [LinearOrder PublicKey] [Serde String]
    [Serde (List UInt8)] (host : Host) (storage : MutinyBrowserStorage) (secp : Secp256k1 PublicKey)
    (ldk : Ldk Mnemonic Keys Monitor Manager) (store : Store)
    (hstore : ∀ key ∈ store.items, starts_with key "peer/" = false ∧ starts_with key "monitors/" = false)
    (calls : List (NodeCall PublicKey Monitor)) (nodes : List (Uuid × List PublicKey)) :
    let r := NodeCall.exec_all host storage secp ldk calls store
    ∃ peers, exec (list_peers host secp (peer_nodes storage nodes) : StorageM ε _) r.1 = (.ok peers, r.1) ∧
      (ListsExactly (IsSaved secp r.2 nodes) (IsConnected nodes) peers ↔ KnownOnce secp r.2 nodes) := by
  have hfresh : Kept host storage secp ldk [] store := kept_fresh hstore
  have hkept := hfresh.exec_all calls
  rw [List.nil_append] at hkept
  obtain ⟨saved, hexec, hsaved, hnodup⟩ := hkept.exec_list_peers nodes (ε := ε)
  refine ⟨_, hexec, ?_⟩
  have hiff := merge_peers_exact_iff saved (nodes.flatMap Prod.snd)
  have hconn : (fun pubkey => pubkey ∈ nodes.flatMap Prod.snd) = IsConnected nodes := by
    funext pubkey
    simp [IsConnected, List.mem_flatMap]
  rw [funext fun pubkey => propext (hsaved pubkey), hconn, hnodup] at hiff
  rw [hiff]
  constructor
  · intro ⟨hs, hc⟩
    exact ⟨hs, hc⟩
  · intro ⟨hs, hc⟩
    exact ⟨hs, hc⟩

/-! ## Two nodes with the same peer -/

attribute [local instance] string_serde bytes_serde

/-- Public keys as their texts. -/
def pubkey_text : Secp256k1 String := ⟨some, id, fun _ => rfl⟩

def lsp : String := Hex.to_hex (List.replicate 33 2)

def saved_by_first : List (NodeCall String (List UInt8)) := [.persist_peer_connection_info first_node lsp "lsp:9735"]

theorem saved_by_first_done :
    (NodeCall.exec_all open_host ⟨""⟩ pubkey_text byte_monitors saved_by_first ⟨∅, 0⟩).2 = saved_by_first :=
  exec_all_unrefused (fun _ => rfl) saved_by_first _

theorem last_peer_saved (uuid : Uuid) (pubkey : String) : (last_peer pubkey_text saved_by_first uuid pubkey).isSome = true ↔
    first_node = uuid ∧ lsp = pubkey := by
  simp only [last_peer, saved_by_first, List.foldl_cons, List.foldl_nil, NodeCall.on_peer]
  split
  · next h => simp [h]
  · next h => simp [h]

theorem list_peers_exact_shared :
    let r := NodeCall.exec_all open_host ⟨""⟩ pubkey_text byte_monitors saved_by_first ⟨∅, 0⟩
    let nodes := [(first_node, [lsp]), (second_node, [lsp])]
    ∃ peers, exec (list_peers open_host pubkey_text (peer_nodes ⟨""⟩ nodes) : StorageM MutinyError _) r.1 =
        (.ok peers, r.1) ∧ ListsExactly (IsSaved pubkey_text r.2 nodes) (IsConnected nodes) peers := by
  obtain ⟨peers, hexec, hiff⟩ := list_peers_exact_iff (ε := MutinyError) open_host ⟨""⟩ pubkey_text byte_monitors ⟨∅, 0⟩
    (fun key hk => absurd hk (AList.notMem_empty key)) saved_by_first [(first_node, [lsp]), (second_node, [lsp])]
  refine ⟨peers, hexec, hiff.mpr ?_⟩
  rw [saved_by_first_done]
  have hne : first_node ≠ second_node := by decide
  constructor
  · apply List.pairwise_pair.mpr
    intro pubkey _
    rw [Bool.eq_false_iff]
    intro h
    exact hne ((last_peer_saved second_node pubkey).mp h).1
  · intro pubkey hp
    have hpk : lsp ≠ pubkey := by
      intro h
      exact hp ⟨_, List.mem_cons_self, (last_peer_saved first_node pubkey).mpr ⟨rfl, h⟩⟩
    simp [hpk]

def saved_by_both : List (NodeCall String (List UInt8)) :=
  [.persist_peer_connection_info first_node lsp "lsp:9735", .persist_peer_connection_info second_node lsp "lsp:9735"]

theorem list_peers_twice :
    let r := NodeCall.exec_all open_host ⟨""⟩ pubkey_text byte_monitors saved_by_both ⟨∅, 0⟩
    let nodes : List (Uuid × List String) := [(first_node, []), (second_node, [])]
    ∃ peers, exec (list_peers open_host pubkey_text (peer_nodes ⟨""⟩ nodes) : StorageM MutinyError _) r.1 =
        (.ok peers, r.1) ∧ ¬ ListsExactly (IsSaved pubkey_text r.2 nodes) (IsConnected nodes) peers := by
  have hfresh : Kept open_host ⟨""⟩ pubkey_text byte_monitors [] ⟨∅, 0⟩ :=
    kept_fresh fun key hk => absurd hk (AList.notMem_empty key)
  have hdone : (NodeCall.exec_all open_host ⟨""⟩ pubkey_text byte_monitors saved_by_both ⟨∅, 0⟩).2 = saved_by_both :=
    exec_all_unrefused (fun _ => rfl) saved_by_both _
  have hkept := hfresh.exec_all saved_by_both
  rw [List.nil_append] at hkept
  obtain ⟨saved, hexec, -, hnodup⟩ := hkept.exec_list_peers (ε := MutinyError) [(first_node, []), (second_node, [])]
  refine ⟨_, hexec, fun h => ?_⟩
  have hsaved := ((merge_peers_pubkeys saved _).nodup_iff.mp h.once).of_append_left
  have hpair := List.pairwise_pair.mp (hnodup.mp hsaved)
  rw [hdone] at hpair
  have hfirst : (last_peer pubkey_text saved_by_both first_node lsp).isSome = true := by decide
  have hsecond : (last_peer pubkey_text saved_by_both second_node lsp).isSome = true := by decide
  rw [hpair lsp hfirst] at hsecond
  cases hsecond

end Mutiny
