import Mutiny.NodeManagerAtomic
import Mutiny.StorageKeys

/-!
# What a node reads back (`ldkstorage.rs`)

The nodes keep the connection strings of their peers and their channel monitors in the one browser store. A node's
scans are given its UUID as a suffix, so they list what that node has written last and nothing of another node
(`node_reads`).
-/

namespace Mutiny

open Prog

/-! ## `ldkstorage.rs` -/

structure Secp256k1 (PublicKey : Type) where
  from_str : String → Option PublicKey
  to_string : PublicKey → String
  from_to : ∀ pubkey, from_str (to_string pubkey) = some pubkey

def strip_prefix (s start : String) : Option String := (Codec.strip start.toList s.toList).map String.ofList

def strip_suffix (s suffix : String) : Option String :=
  (Codec.strip suffix.toList.reverse s.toList.reverse).map fun rest => String.ofList rest.reverse

theorem strip_prefix_append (start rest : String) : strip_prefix (start ++ rest) start = some rest := by
  unfold strip_prefix
  simp [Codec.strip_append]

theorem eq_of_strip_prefix {s start rest : String} (h : strip_prefix s start = some rest) : s = start ++ rest := by
  obtain ⟨l, hl, rfl⟩ := Option.map_eq_some_iff.mp h
  apply String.toList_injective
  rw [Codec.eq_of_strip hl, String.toList_append, String.toList_ofList]

theorem strip_suffix_append (s suffix : String) : strip_suffix (s ++ suffix) suffix = some s := by
  unfold strip_suffix
  simp [Codec.strip_append]

namespace MutinyNodePersister

section
variable [Serde String] (host : Host) (persister : MutinyNodePersister) {ε PublicKey : Type}

def persist_peer_connection_info (peer_pubkey connection_string : String) : StorageM IoError Unit :=
  let key := persister.get_key (peer_key peer_pubkey)
  convert .other (persister.storage.set host key connection_string)

def delete_peer_connection_info (peer_pubkey : String) : StorageM ε Unit :=
  let key := persister.get_key (peer_key peer_pubkey)
  LocalStorage.delete key

/-- The public key in a key of `list_peer_connection_info`; `none` where an `unwrap` panics. -/
def peer_of_key (secp : Secp256k1 PublicKey) (suffix k : String) : Option PublicKey := do
  let k ← strip_prefix k "peer/"
  let k ← strip_suffix k suffix
  let k ← strip_suffix k "_"
  secp.from_str k

def list_peer_connection_info (secp : Secp256k1 PublicKey) : StorageM ε (List (PublicKey × String)) := do
  let suffix := persister.node_id
  let map : AList fun _ : String => String ← persister.storage.scan host "peer/" (some suffix)
  match (host.order map.entries).mapM fun e => (peer_of_key secp suffix e.1).map fun pubkey => (pubkey, e.2) with
  | none => throw .panic
  | some list => return list

end

end MutinyNodePersister

/-! ## Writes of all nodes -/

inductive NodeCall (PublicKey Monitor : Type) where
  | persist_peer_connection_info (uuid : Uuid) (peer_pubkey : PublicKey) (connection_string : String)
  | delete_peer_connection_info (uuid : Uuid) (peer_pubkey : String)
  /-- LDK's chain monitor persists a monitor under the name of its funding output. -/
  | persist_monitor (uuid : Uuid) (funding_txo : FundingTxo) (monitor : Monitor)

section
variable [Serde String] [Serde (List UInt8)] (host : Host) (storage : MutinyBrowserStorage)
  {PublicKey Mnemonic Keys Monitor Manager : Type} (secp : Secp256k1 PublicKey) (ldk : Ldk Mnemonic Keys Monitor Manager)

def NodeCall.exec (store : Store) : NodeCall PublicKey Monitor → Except (Fault IoError) Unit × Store
  | persist_peer_connection_info uuid peer_pubkey connection_string =>
    Prog.exec (MutinyNodePersister.persist_peer_connection_info host ⟨uuid.to_string, storage⟩
      (secp.to_string peer_pubkey) connection_string) store
  | delete_peer_connection_info uuid peer_pubkey =>
    Prog.exec (MutinyNodePersister.delete_peer_connection_info ⟨uuid.to_string, storage⟩ peer_pubkey) store
  | persist_monitor uuid funding_txo monitor =>
    Prog.exec (MutinyNodePersister.persist host ⟨uuid.to_string, storage⟩ ("monitors/" ++ funding_txo.to_string)
      (ldk.write_monitor monitor)) store

/-- The store after calls made in turn, and the calls that did not fail. -/
def NodeCall.exec_all : List (NodeCall PublicKey Monitor) → Store → Store × List (NodeCall PublicKey Monitor)
  | [], store => (store, [])
  | c :: calls, store =>
    let r := c.exec host storage secp ldk store
    let rest := NodeCall.exec_all calls r.2
    (rest.1, if r.1.isOk then c :: rest.2 else rest.2)

/-! ## What the last writes leave -/

variable [DecidableEq PublicKey]

def NodeCall.on_peer (uuid : Uuid) (pubkey : PublicKey) (value : Option String) :
    NodeCall PublicKey Monitor → Option String
  | persist_peer_connection_info uuid' pubkey' s => if uuid' = uuid ∧ pubkey' = pubkey then some s else value
  | delete_peer_connection_info uuid' s => if uuid' = uuid ∧ s = secp.to_string pubkey then none else value
  | persist_monitor _ _ _ => value

def NodeCall.on_monitor (uuid : Uuid) (funding_txo : FundingTxo) (value : Option Monitor) :
    NodeCall PublicKey Monitor → Option Monitor
  | persist_monitor uuid' funding_txo' m => if uuid' = uuid ∧ funding_txo' = funding_txo then some m else value
  | _ => value

/-- The string persisted last for a node's peer, unless it was deleted since. -/
def last_peer (done : List (NodeCall PublicKey Monitor)) (uuid : Uuid) (pubkey : PublicKey) : Option String :=
  done.foldl (NodeCall.on_peer secp uuid pubkey) none

def last_monitor (done : List (NodeCall PublicKey Monitor)) (uuid : Uuid) (funding_txo : FundingTxo) : Option Monitor :=
  done.foldl (NodeCall.on_monitor uuid funding_txo) none

/-- The store holds the last writes, and nothing else under the keys of peers and monitors. -/
structure Kept (done : List (NodeCall PublicKey Monitor)) (store : Store) : Prop where
  peers : ∀ uuid pubkey,
    (store.items.lookup ((Entry.node uuid (.peer (secp.to_string pubkey))).key storage)).map
      (storage.decode host.crypto) = (last_peer secp done uuid pubkey).map fun s => .ok s
  monitors : ∀ uuid funding_txo,
    (store.items.lookup ((Entry.node uuid (.monitor funding_txo)).key storage)).map (storage.decode host.crypto) =
      (last_monitor done uuid funding_txo).map fun m => .ok (ldk.write_monitor m)
  keys : ∀ key ∈ store.items, (∃ uuid pubkey, (Entry.node uuid (.peer (secp.to_string pubkey))).key storage = key) ∨
    (∃ uuid funding_txo, (Entry.node uuid (.monitor funding_txo)).key storage = key) ∨
    (starts_with key "peer/" = false ∧ starts_with key "monitors/" = false)

variable {host storage secp ldk}

omit [Serde String] [Serde (List UInt8)] in
theorem lookup_insert_key (items : AList fun _ : String => String) (e e' : Entry) (text : String) :
    (items.insert (e.key storage) text).lookup (e'.key storage) =
      if e' = e then some text else items.lookup (e'.key storage) := by
  by_cases h : e' = e
  · rw [if_pos h, h, AList.lookup_insert]
  · rw [if_neg h, AList.lookup_insert_ne fun hk => h (storage_key_injective storage hk)]

omit [Serde String] [Serde (List UInt8)] in
theorem lookup_erase_key (items : AList fun _ : String => String) (e e' : Entry) :
    (items.erase (e.key storage)).lookup (e'.key storage) =
      if e' = e then none else items.lookup (e'.key storage) := by
  by_cases h : e' = e
  · rw [if_pos h, h, AList.lookup_erase]
  · rw [if_neg h, AList.lookup_erase_ne fun hk => h (storage_key_injective storage hk)]

omit [Serde String] [Serde (List UInt8)] [DecidableEq PublicKey] in
theorem pubkey_inj {p q : PublicKey} : secp.to_string p = secp.to_string q ↔ p = q := by
  refine ⟨fun h => ?_, fun h => by rw [h]⟩
  have hp := secp.from_to p
  rw [h, secp.from_to] at hp
  exact (Option.some.inj hp).symm

theorem kept_fresh {store : Store} (h : ∀ key ∈ store.items,
    starts_with key "peer/" = false ∧ starts_with key "monitors/" = false) : Kept host storage secp ldk [] store := by
  have hnone : ∀ {key start : String}, starts_with key start = true →
      (∀ key ∈ store.items, starts_with key start = false) → store.items.lookup key = none := by
    intro key start hs hall
    refine AList.lookup_eq_none.mpr fun hmem => ?_
    rw [hall _ hmem] at hs
    cases hs
  refine ⟨fun uuid pubkey => ?_, fun uuid funding_txo => ?_, fun key hk => .inr (.inr (h key hk))⟩
  · rw [hnone ((starts_with_peers storage _).mpr ⟨uuid, _, rfl⟩) fun key hk => (h key hk).1]
    rfl
  · rw [hnone ((starts_with_monitors storage _).mpr ⟨uuid, funding_txo, rfl⟩) fun key hk => (h key hk).2]
    rfl

/-! ## What one write changes -/

section
variable {done : List (NodeCall PublicKey Monitor)} {store : Store} (h : Kept host storage secp ldk done store)
include h

theorem Kept.persist_peer (uuid : Uuid) (pubkey : PublicKey) {s text : String} {writes : Nat}
    (htext : storage.decode host.crypto text = .ok s) :
    Kept host storage secp ldk (done ++ [.persist_peer_connection_info uuid pubkey s])
      ⟨store.items.insert ((Entry.node uuid (.peer (secp.to_string pubkey))).key storage) text, writes⟩ := by
  refine ⟨fun uuid' pubkey' => ?_, fun uuid' funding_txo => ?_, fun key hk => ?_⟩
  · have hp := h.peers uuid' pubkey'
    simp only [lookup_insert_key, last_peer, List.foldl_append, List.foldl_cons, List.foldl_nil, NodeCall.on_peer,
      Entry.node.injEq, NodeEntry.peer.injEq, pubkey_inj]
    by_cases hc : uuid' = uuid ∧ pubkey' = pubkey
    · obtain ⟨rfl, rfl⟩ := hc
      simp [htext]
    · rw [if_neg hc, if_neg (by tauto)]
      exact hp
  · rw [lookup_insert_key, if_neg (by simp)]
    simpa [last_monitor, NodeCall.on_monitor] using h.monitors uuid' funding_txo
  · rcases (AList.mem_insert _).mp hk with rfl | hk
    · exact .inl ⟨uuid, pubkey, rfl⟩
    · exact h.keys key hk

theorem Kept.delete_peer (uuid : Uuid) (peer_pubkey : String) (writes : Nat) :
    Kept host storage secp ldk (done ++ [.delete_peer_connection_info uuid peer_pubkey])
      ⟨store.items.erase ((Entry.node uuid (.peer peer_pubkey)).key storage), writes⟩ := by
  refine ⟨fun uuid' pubkey' => ?_, fun uuid' funding_txo => ?_, fun key hk => ?_⟩
  · have hp := h.peers uuid' pubkey'
    simp only [lookup_erase_key, last_peer, List.foldl_append, List.foldl_cons, List.foldl_nil, NodeCall.on_peer,
      Entry.node.injEq, NodeEntry.peer.injEq]
    by_cases hc : uuid' = uuid ∧ secp.to_string pubkey' = peer_pubkey
    · obtain ⟨rfl, rfl⟩ := hc
      simp
    · rw [if_neg hc, if_neg (by tauto)]
      exact hp
  · rw [lookup_erase_key, if_neg (by simp)]
    simpa [last_monitor, NodeCall.on_monitor] using h.monitors uuid' funding_txo
  · exact h.keys key (AList.mem_erase.mp hk).2

theorem Kept.persist_monitor (uuid : Uuid) (funding_txo : FundingTxo) {m : Monitor} {text : String} {writes : Nat}
    (htext : storage.decode host.crypto text = .ok (ldk.write_monitor m)) :
    Kept host storage secp ldk (done ++ [.persist_monitor uuid funding_txo m])
      ⟨store.items.insert ((Entry.node uuid (.monitor funding_txo)).key storage) text, writes⟩ := by
  refine ⟨fun uuid' pubkey' => ?_, fun uuid' funding_txo' => ?_, fun key hk => ?_⟩
  · rw [lookup_insert_key, if_neg (by simp)]
    simpa [last_peer, NodeCall.on_peer] using h.peers uuid' pubkey'
  · have hm := h.monitors uuid' funding_txo'
    simp only [lookup_insert_key, last_monitor, List.foldl_append, List.foldl_cons, List.foldl_nil, NodeCall.on_monitor,
      Entry.node.injEq, NodeEntry.monitor.injEq]
    by_cases hc : uuid' = uuid ∧ funding_txo' = funding_txo
    · obtain ⟨rfl, rfl⟩ := hc
      simp [htext]
    · rw [if_neg hc, if_neg (by tauto)]
      exact hm
  · rcases (AList.mem_insert _).mp hk with rfl | hk
    · exact .inr (.inl ⟨uuid, funding_txo, rfl⟩)
    · exact h.keys key hk

theorem Kept.exec (c : NodeCall PublicKey Monitor) :
    Kept host storage secp ldk (done ++ if (c.exec host storage secp ldk store).1.isOk then [c] else [])
      (c.exec host storage secp ldk store).2 := by
  have hfail : Kept host storage secp ldk (done ++ []) { store with writes := store.writes + 1 } := by
    rw [List.append_nil]
    exact ⟨h.peers, h.monitors, h.keys⟩
  cases c with
  | persist_peer_connection_info uuid pubkey s =>
    have hs : NodeCall.exec host storage secp ldk store (.persist_peer_connection_info uuid pubkey s) = _ :=
      exec_convert_set host storage ((Entry.node uuid (.peer (secp.to_string pubkey))).key storage) IoError.other s store
    rw [hs]
    by_cases hr : host.refuses store.writes = true
    · rw [if_pos hr]
      exact hfail
    · rw [if_neg hr]
      exact h.persist_peer uuid pubkey (decode_encode host storage store.writes s)
  | delete_peer_connection_info uuid peer_pubkey => exact h.delete_peer uuid peer_pubkey store.writes
  | persist_monitor uuid funding_txo m =>
    have hs : NodeCall.exec host storage secp ldk store (.persist_monitor uuid funding_txo m) = _ :=
      exec_convert_set host storage ((Entry.node uuid (.monitor funding_txo)).key storage) IoError.other
        (ldk.write_monitor m) store
    rw [hs]
    by_cases hr : host.refuses store.writes = true
    · rw [if_pos hr]
      exact hfail
    · rw [if_neg hr]
      exact h.persist_monitor uuid funding_txo (decode_encode host storage store.writes (ldk.write_monitor m))

end

theorem Kept.exec_all {done : List (NodeCall PublicKey Monitor)} {store : Store}
    (h : Kept host storage secp ldk done store) (calls : List (NodeCall PublicKey Monitor)) :
    Kept host storage secp ldk (done ++ (NodeCall.exec_all host storage secp ldk calls store).2)
      (NodeCall.exec_all host storage secp ldk calls store).1 := by
  induction calls generalizing done store with
  | nil => simpa [NodeCall.exec_all] using h
  | cons c calls ih =>
    have hrest := ih (h.exec c)
    rw [List.append_assoc] at hrest
    cases hr : (c.exec host storage secp ldk store).1.isOk with
    | false =>
      simp only [hr, Bool.false_eq_true, if_false, List.nil_append] at hrest
      simpa only [NodeCall.exec_all, hr, Bool.false_eq_true, if_false] using hrest
    | true =>
      simp only [hr, if_true, List.singleton_append] at hrest
      simpa only [NodeCall.exec_all, hr, if_true] using hrest

/-! ## What is read back -/

omit [Serde String] [Serde (List UInt8)] [DecidableEq PublicKey] in
theorem peer_of_key_key (uuid : Uuid) (pubkey : PublicKey) : MutinyNodePersister.peer_of_key secp uuid.to_string
    ((Entry.node uuid (.peer (secp.to_string pubkey))).key storage) = some pubkey := by
  have hk : (Entry.node uuid (.peer (secp.to_string pubkey))).key storage =
      "peer/" ++ (secp.to_string pubkey ++ "_" ++ uuid.to_string) := by
    show "peer/" ++ secp.to_string pubkey ++ "_" ++ uuid.to_string = _
    rw [String.append_assoc, String.append_assoc, String.append_assoc]
  unfold MutinyNodePersister.peer_of_key
  rw [hk, strip_prefix_append]
  simp [strip_suffix_append, secp.from_to]

omit [Serde (List UInt8)] in
theorem scanned_listing {α K W : Type} [Serde α] {store : Store} {uuid : Uuid} {start : String} (entry : K → NodeEntry)
    {value : K → Option W} (text : W → α) (hentry : Function.Injective entry)
    (hvalue : ∀ k, (store.items.lookup ((Entry.node uuid (entry k)).key storage)).map (storage.decode host.crypto) =
      (value k).map fun w => .ok (text w))
    (hstart : ∀ k, starts_with ((Entry.node uuid (entry k)).key storage) start = true)
    (hkeys : ∀ key ∈ store.items, (starts_with key start && ends_with key uuid.to_string) = true →
      ∃ k, (Entry.node uuid (entry k)).key storage = key) :
    ∃ map : AList fun _ : String => α, storage.scanned host start (some uuid.to_string) store = some map ∧
      ∀ l, l.Perm map.entries → Listing value (fun k w => ⟨(Entry.node uuid (entry k)).key storage, text w⟩) l := by
  have hread : ∀ k item, store.items.lookup ((Entry.node uuid (entry k)).key storage) = some item →
      ∃ w, value k = some w ∧ storage.decode host.crypto item = .ok (text w) := by
    intro k item hi
    have hv := hvalue k
    rw [hi, Option.map_some] at hv
    obtain ⟨w, hw, hd⟩ := Option.map_eq_some_iff.mp hv.symm
    exact ⟨w, hw, hd.symm⟩
  obtain ⟨map, hm, hl⟩ := scanned_lookup (α := α) host storage start (some uuid.to_string) store fun key item hi hs => by
    rw [Option.all_some] at hs
    obtain ⟨k, rfl⟩ := hkeys key (AList.lookup_isSome.mp (by rw [hi]; rfl)) hs
    obtain ⟨w, -, hd⟩ := hread k item hi
    exact ⟨text w, hd⟩
  refine ⟨map, hm, fun l hperm => .of_lookup (fun k k' hk => ?_) (fun k => ?_) (fun key hk => ?_) hperm⟩
  · have he := storage_key_injective storage hk
    simp only [Entry.node.injEq, true_and] at he
    exact hentry he
  · have hend := (ends_with_node storage uuid uuid (entry k)).mpr rfl
    rw [hl, hstart, Option.all_some, hend, Bool.and_self, if_pos rfl]
    cases hi : store.items.lookup ((Entry.node uuid (entry k)).key storage) with
    | none =>
      have hv := hvalue k
      rw [hi, Option.map_none] at hv
      rw [Option.map_eq_none_iff.mp hv.symm]
      rfl
    | some item =>
      obtain ⟨w, hw, hd⟩ := hread k item hi
      rw [hw, Option.bind_some, hd]
      rfl
  · have hsome := AList.lookup_isSome.mpr hk
    rw [hl] at hsome
    rw [Option.all_some] at hsome
    by_cases hs : (starts_with key start && ends_with key uuid.to_string) = true
    · rw [if_pos hs] at hsome
      cases hi : store.items.lookup key with
      | none => simp [hi] at hsome
      | some item => exact hkeys key (AList.lookup_isSome.mp (by rw [hi]; rfl)) hs
    · rw [if_neg hs] at hsome
      cases hsome

variable {done : List (NodeCall PublicKey Monitor)} {store : Store} (h : Kept host storage secp ldk done store)
include h

theorem Kept.exec_list_peer_connection_info {ε : Type} (uuid : Uuid) : ∃ l,
    Prog.exec (MutinyNodePersister.list_peer_connection_info host ⟨uuid.to_string, storage⟩ secp : StorageM ε _) store =
      (.ok l, store) ∧ Listing (last_peer secp done uuid) (fun pubkey s => (pubkey, s)) l := by
  have hkeys : ∀ key ∈ store.items, (starts_with key "peer/" && ends_with key uuid.to_string) = true →
      ∃ pubkey, (Entry.node uuid (.peer (secp.to_string pubkey))).key storage = key := by
    intro key hk hs
    rcases h.keys key hk with ⟨uuid', pubkey, rfl⟩ | ⟨uuid', funding_txo, rfl⟩ | hn
    · rw [Bool.and_eq_true] at hs
      obtain rfl := (ends_with_node storage uuid' uuid _).mp hs.2
      exact ⟨pubkey, rfl⟩
    · rw [Bool.and_eq_true, starts_with_peers] at hs
      simp at hs
    · simp [hn.1] at hs
  obtain ⟨map, hm, hl⟩ := scanned_listing (fun pubkey => .peer (secp.to_string pubkey)) (fun s : String => s)
    (fun p q hpq => pubkey_inj.mp (NodeEntry.peer.inj hpq)) (h.peers uuid)
    (fun pubkey => (starts_with_peers storage _).mpr ⟨uuid, _, rfl⟩) hkeys
  have hx := exec_scan (α := String) (ε := ε) host storage "peer/" (some uuid.to_string) store
  rw [hm] at hx
  obtain ⟨l, hmap, hlist⟩ := (hl _ (host.order_perm map.entries)).mapM (fun pubkey s => (pubkey, s))
    (f := fun e => (MutinyNodePersister.peer_of_key secp uuid.to_string e.1).map fun pubkey => (pubkey, e.2))
    fun pubkey s _ => by rw [peer_of_key_key]; rfl
  refine ⟨l, (exec_bind_ok hx).trans ?_, hlist⟩
  dsimp only
  rw [hmap]
  rfl

theorem Kept.exec_read_channel_monitors {uuid : Uuid} {keys : Keys}
    (hread : ∀ funding_txo m, last_monitor done uuid funding_txo = some m →
      ldk.read_monitor keys (ldk.write_monitor m) = some m) : ∃ l,
    Prog.exec (MutinyNodePersister.read_channel_monitors host ⟨uuid.to_string, storage⟩ ldk keys) store =
      (.ok l, store) ∧ Listing (last_monitor done uuid) (fun _ m => m) l := by
  have hkeys : ∀ key ∈ store.items, (starts_with key "monitors/" && ends_with key uuid.to_string) = true →
      ∃ funding_txo, (Entry.node uuid (.monitor funding_txo)).key storage = key := by
    intro key hk hs
    rcases h.keys key hk with ⟨uuid', pubkey, rfl⟩ | ⟨uuid', funding_txo, rfl⟩ | hn
    · rw [Bool.and_eq_true, starts_with_monitors] at hs
      simp at hs
    · rw [Bool.and_eq_true] at hs
      obtain rfl := (ends_with_node storage uuid' uuid _).mp hs.2
      exact ⟨funding_txo, rfl⟩
    · simp [hn.2] at hs
  obtain ⟨map, hm, hl⟩ := scanned_listing .monitor ldk.write_monitor
    (fun _ _ hm => NodeEntry.monitor.inj hm) (h.monitors uuid)
    (fun funding_txo => (starts_with_monitors storage _).mpr ⟨uuid, _, rfl⟩) hkeys
  obtain ⟨l, hmap, hlist⟩ := (hl _ (host.order_perm map.entries)).mapM (fun _ m => m)
    (f := fun e => ldk.read_monitor keys e.2) fun funding_txo m hw => hread funding_txo m hw
  have hx := Mutiny.exec_read_channel_monitors host ldk ⟨uuid.to_string, storage⟩ keys store
  simp only [hm, hmap] at hx
  exact ⟨l, hx, hlist⟩

omit h

omit [Serde String] [Serde (List UInt8)] [DecidableEq PublicKey] in
theorem persisted_of_last_monitor {uuid : Uuid} {funding_txo : FundingTxo} {m : Monitor}
    (hm : last_monitor done uuid funding_txo = some m) : .persist_monitor uuid funding_txo m ∈ done := by
  induction done using List.reverseRecOn with
  | nil => cases hm
  | append_singleton done c ih =>
    simp only [last_monitor, List.foldl_append, List.foldl_cons, List.foldl_nil] at hm
    rw [List.mem_append, List.mem_singleton]
    cases c with
    | persist_monitor uuid' funding_txo' m' =>
      simp only [NodeCall.on_monitor] at hm
      by_cases hc : uuid' = uuid ∧ funding_txo' = funding_txo
      · rw [if_pos hc] at hm
        cases hm
        rw [hc.1, hc.2]
        exact .inr rfl
      · rw [if_neg hc] at hm
        exact .inl (ih hm)
    | persist_peer_connection_info _ _ _ => exact .inl (ih hm)
    | delete_peer_connection_info _ _ => exact .inl (ih hm)

omit [DecidableEq PublicKey] in
theorem exec_all_subset (calls : List (NodeCall PublicKey Monitor)) (store : Store) :
    (NodeCall.exec_all host storage secp ldk calls store).2 ⊆ calls := by
  induction calls generalizing store with
  | nil => exact List.Subset.refl _
  | cons c calls ih =>
    have hrest := ih (c.exec host storage secp ldk store).2
    unfold NodeCall.exec_all
    dsimp only
    split
    · exact List.cons_subset_cons c hrest
    · exact List.subset_cons_of_subset c hrest

omit [DecidableEq PublicKey] in
/-- Only a refused write fails, so with none every call counts. -/
theorem exec_all_unrefused (hw : ∀ k, host.refuses k = false) (calls : List (NodeCall PublicKey Monitor))
    (store : Store) : (NodeCall.exec_all host storage secp ldk calls store).2 = calls := by
  have hok : ∀ (c : NodeCall PublicKey Monitor) (store : Store), (c.exec host storage secp ldk store).1 = .ok () := by
    intro c store
    cases c with
    | persist_peer_connection_info uuid pubkey s =>
      have hs : NodeCall.exec host storage secp ldk store (.persist_peer_connection_info uuid pubkey s) = _ :=
        exec_convert_set host storage ((Entry.node uuid (.peer (secp.to_string pubkey))).key storage) IoError.other s store
      rw [hs, hw, if_neg Bool.false_ne_true]
    | delete_peer_connection_info uuid peer_pubkey => rfl
    | persist_monitor uuid funding_txo m =>
      have hs : NodeCall.exec host storage secp ldk store (.persist_monitor uuid funding_txo m) = _ :=
        exec_convert_set host storage ((Entry.node uuid (.monitor funding_txo)).key storage) IoError.other
          (ldk.write_monitor m) store
      rw [hs, hw, if_neg Bool.false_ne_true]
  induction calls generalizing store with
  | nil => rfl
  | cons c calls ih =>
    unfold NodeCall.exec_all
    dsimp only
    rw [hok, ih]
    rfl

end

/-- On a store without peers and monitors, after any calls of any nodes, a node lists its peers that were not deleted,
each with the string persisted last, and reads the monitors that it persisted last. The calls that count are those that
did not fail: all of them, where no write is refused (`exec_all_unrefused`). -/
theorem node_reads {PublicKey Mnemonic Keys Monitor Manager : Type} [DecidableEq PublicKey] [Serde String]
    [Serde (List UInt8)] (host : Host) (storage : MutinyBrowserStorage) (secp : Secp256k1 PublicKey)
    (ldk : Ldk Mnemonic Keys Monitor Manager) (store : Store)
    (hstore : ∀ key ∈ store.items, starts_with key "peer/" = false ∧ starts_with key "monitors/" = false)
    (calls : List (NodeCall PublicKey Monitor)) (uuid : Uuid) (keys_manager : Keys)
    (hldk : ∀ funding_txo m, .persist_monitor uuid funding_txo m ∈ calls →
      ldk.read_monitor keys_manager (ldk.write_monitor m) = some m) :
    let persister : MutinyNodePersister := ⟨uuid.to_string, storage⟩
    let r := NodeCall.exec_all host storage secp ldk calls store
    (∃ peers, exec (persister.list_peer_connection_info host secp : StorageM MutinyError _) r.1 = (.ok peers, r.1) ∧
      Listing (last_peer secp r.2 uuid) (fun pubkey s => (pubkey, s)) peers) ∧
    ∃ monitors, exec (persister.read_channel_monitors host ldk keys_manager) r.1 = (.ok monitors, r.1) ∧
      Listing (last_monitor r.2 uuid) (fun _ m => m) monitors := by
  have hfresh : Kept host storage secp ldk [] store := kept_fresh hstore
  have hkept := hfresh.exec_all calls
  rw [List.nil_append] at hkept
  refine ⟨hkept.exec_list_peer_connection_info uuid, hkept.exec_read_channel_monitors fun funding_txo m hm => ?_⟩
  exact hldk funding_txo m (exec_all_subset calls store (persisted_of_last_monitor hm))

/-! ## Two nodes in a browser -/

attribute [local instance] string_serde bytes_serde

def pubkey_bytes : Secp256k1 (Vector UInt8 33) where
  from_str s := do
    let bytes ← Hex.from_hex s
    if h : bytes.length = 33 then some ⟨bytes.toArray, by simpa using h⟩ else none
  to_string pubkey := Hex.to_hex pubkey.toList
  from_to pubkey := by
    simp [Hex.from_hex, Hex.to_hex, Hex.read_bytes_flatMap, ← Vector.toList_toArray]

def byte_monitors : Ldk Unit Unit (List UInt8) Unit where
  derive _ _ := some ()
  node_id _ := ""
  read_monitor _ bytes := some bytes
  write_monitor monitor := monitor
  funding_txo _ := ""
  read_manager _ _ _ := some ()
  new_manager _ _ _ := ()

def first_node : Uuid := ⟨.replicate 16 1⟩

def second_node : Uuid := ⟨.replicate 16 2⟩

/-- Both nodes know one peer, and the second one forgets it. -/
def two_nodes : List (NodeCall (Vector UInt8 33) (List UInt8)) :=
  [.persist_peer_connection_info first_node (.replicate 33 2) "old", .persist_monitor first_node ⟨.replicate 32 7, 0⟩ [1],
    .persist_peer_connection_info second_node (.replicate 33 2) "other",
    .persist_peer_connection_info first_node (.replicate 33 2) "new",
    .delete_peer_connection_info second_node (Hex.to_hex (List.replicate 33 2)),
    .persist_monitor second_node ⟨.replicate 32 7, 0⟩ [2]]

theorem node_reads_two_nodes :
    let persister : MutinyNodePersister := ⟨first_node.to_string, ⟨""⟩⟩
    let store := (NodeCall.exec_all open_host ⟨""⟩ pubkey_bytes byte_monitors two_nodes ⟨∅, 0⟩).1
    exec (persister.list_peer_connection_info open_host pubkey_bytes : StorageM MutinyError _) store =
        (.ok [(.replicate 33 2, "new")], store) ∧
      exec (persister.read_channel_monitors open_host byte_monitors ()) store = (.ok [[1]], store) := by
  obtain ⟨⟨peers, hpeers, hlisted⟩, monitors, hmonitors, hread⟩ := node_reads open_host ⟨""⟩ pubkey_bytes byte_monitors
    ⟨∅, 0⟩ (fun key hk => absurd hk (AList.notMem_empty key)) two_nodes first_node () fun _ _ _ => rfl
  rw [exec_all_unrefused fun _ => rfl] at hlisted hread
  have hne : second_node ≠ first_node := by decide
  have hpeer : ∀ pubkey s, last_peer pubkey_bytes two_nodes first_node pubkey = some s ↔
      pubkey = .replicate 33 2 ∧ s = "new" := by
    intro pubkey s
    by_cases hp : .replicate 33 2 = pubkey
    · subst hp
      simp [last_peer, two_nodes, NodeCall.on_peer, hne, eq_comm]
    · simp [last_peer, two_nodes, NodeCall.on_peer, hne, hp, Ne.symm hp]
  have hmonitor : ∀ funding_txo m, last_monitor two_nodes first_node funding_txo = some m ↔
      funding_txo = ⟨.replicate 32 7, 0⟩ ∧ m = [1] := by
    intro funding_txo m
    by_cases hf : ⟨.replicate 32 7, 0⟩ = funding_txo
    · subst hf
      simp [last_monitor, two_nodes, NodeCall.on_monitor, hne, eq_comm]
    · simp [last_monitor, two_nodes, NodeCall.on_monitor, hne, hf, Ne.symm hf]
  rw [hlisted.eq_singleton hpeer] at hpeers
  rw [hread.eq_singleton hmonitor] at hmonitors
  exact ⟨hpeers, hmonitors⟩

end Mutiny
