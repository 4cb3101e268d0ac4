import Mutiny.BdkRefines
import Mutiny.InvoicesListed

/-!
# The keys of the browser store (`bdkstorage.rs`, `ldkstorage.rs`, `localstorage.rs`)

Three modules put their keys into one namespace. BDK's keys are hexadecimal digits, a node's keys end in its UUID, and
the keys of the wallet itself are short names. So an entry is determined by its key (`storage_keys`), and a scan finds
the entries of one kind, and those of one node when it is given the node as a suffix.
-/

namespace Mutiny

/-! ## What the keys are made of -/

structure Uuid where
  bytes : Vector UInt8 16
  deriving DecidableEq

/-- Groups of 4, 2, 2, 2 and 6 bytes in hexadecimal digits. -/
def Uuid.to_string (uuid : Uuid) : String :=
  let bytes := uuid.bytes.toList
  Hex.to_hex (bytes.take 4) ++ "-" ++ Hex.to_hex ((bytes.drop 4).take 2) ++ "-" ++ Hex.to_hex ((bytes.drop 6).take 2) ++
    "-" ++ Hex.to_hex ((bytes.drop 8).take 2) ++ "-" ++ Hex.to_hex (bytes.drop 10)

structure FundingTxo where
  txid : Bitcoin.Txid
  index : UInt16
  deriving DecidableEq

/-- `<txid>_<index>`; a txid is shown from its last byte to its first. -/
def FundingTxo.to_string (funding_txo : FundingTxo) : String :=
  Hex.to_hex funding_txo.txid.toList.reverse ++ "_" ++ String.ofList (Nat.toDigits 10 funding_txo.index.toNat)

def fee_estimates_key : String := "fee_estimates"

def peer_key (pubkey : String) : String := "peer/" ++ pubkey

/-- What a node keeps under keys of its own. The background processor of LDK persists `manager`, `network_graph` and
`scorer`, its chain monitor the monitors. -/
inductive NodeEntry where
  | manager
  | network
  | network_graph
  | prob_scorer
  | scorer
  | monitor (funding_txo : FundingTxo)
  | payment (inbound : Bool) (payment_hash : PaymentHash)
  | peer (pubkey : String)
  deriving DecidableEq

def NodeEntry.key : NodeEntry → String
  | manager => "manager"
  | network => "network"
  | network_graph => "network_graph"
  | prob_scorer => "prob_scorer"
  | scorer => "scorer"
  | monitor funding_txo => "monitors/" ++ funding_txo.to_string
  | payment inbound payment_hash => payment_key inbound payment_hash
  | peer pubkey => peer_key pubkey

inductive WalletEntry where
  | mnemonic
  | nodes
  | fee_estimates
  deriving DecidableEq

def WalletEntry.key : WalletEntry → String
  | mnemonic => mnemonic_key
  | nodes => nodes_key
  | fee_estimates => fee_estimates_key

/-- The entries of the browser store, with the records of BDK by their kind. -/
inductive Entry where
  | record (kind : Kind) (k : kind.Key)
  | node (uuid : Uuid) (entry : NodeEntry)
  | wallet (entry : WalletEntry)
  deriving DecidableEq

def Entry.key (storage : MutinyBrowserStorage) : Entry → String
  | record kind k => kind.key k
  | node uuid entry => MutinyNodePersister.get_key ⟨uuid.to_string, storage⟩ entry.key
  | wallet entry => entry.key

/-- The calls of `scan`, each made for the entries of one kind. -/
inductive Scan where
  | iter_script_pubkeys (keychain : Option KeychainKind)
  | iter_utxos
  | iter_raw_txs
  | iter_txs
  | read_channel_monitors (uuid : Uuid)
  | list_payment_info (inbound : Bool)
  | list_peer_connection_info (uuid : Uuid)

namespace Scan

def start : Scan → String
  | iter_script_pubkeys keychain => (MapKey.Path keychain none).as_map_key
  | iter_utxos => (MapKey.Utxo none).as_map_key
  | iter_raw_txs => (MapKey.RawTx none).as_map_key
  | iter_txs => (MapKey.Transaction none).as_map_key
  | read_channel_monitors _ => "monitors/"
  | list_payment_info inbound => payment_prefix_key inbound
  | list_peer_connection_info _ => "peer/"

def suffix : Scan → Option String
  | read_channel_monitors uuid => some uuid.to_string
  | list_peer_connection_info uuid => some uuid.to_string
  | _ => none

def selects (scan : Scan) (key : String) : Bool := starts_with key scan.start && scan.suffix.all (ends_with key)

def Meant : Scan → Entry → Prop
  | iter_script_pubkeys keychain, e => ∃ k : Kind.path.Key, e = .record .path k ∧ keychain.all (· = k.1) = true
  | iter_utxos, e => ∃ k, e = .record .utxo k
  | iter_raw_txs, e => ∃ k, e = .record .raw_tx k
  | iter_txs, e => ∃ k, e = .record .tx k
  | read_channel_monitors uuid, e => ∃ funding_txo, e = .node uuid (.monitor funding_txo)
  | list_payment_info inbound, e => ∃ uuid payment_hash, e = .node uuid (.payment inbound payment_hash)
  | list_peer_connection_info uuid, e => ∃ pubkey, e = .node uuid (.peer pubkey)

end Scan

/-! ## Names determine what they were made of -/

theorem to_hex_length (bytes : List UInt8) : (Hex.to_hex bytes).toList.length = 2 * bytes.length := by
  simp [Hex.to_hex, Hex.byte, List.length_flatMap, Nat.mul_comm]

theorem append_inj_left {a b c d : String} (h : a ++ c = b ++ d) (hl : a.toList.length = b.toList.length) :
    a = b ∧ c = d := by
  have ht := congrArg String.toList h
  rw [String.toList_append, String.toList_append] at ht
  obtain ⟨hab, hcd⟩ := List.append_inj ht hl
  exact ⟨String.toList_inj.mp hab, String.toList_inj.mp hcd⟩

theorem append_inj_right {a b c d : String} (h : a ++ c = b ++ d) (hl : c.toList.length = d.toList.length) :
    a = b ∧ c = d := by
  have ht := congrArg String.toList h
  rw [String.toList_append, String.toList_append] at ht
  obtain ⟨hab, hcd⟩ := List.append_inj' ht hl
  exact ⟨String.toList_inj.mp hab, String.toList_inj.mp hcd⟩

theorem uuid_length (uuid : Uuid) : uuid.to_string.toList.length = 36 := by
  simp [Uuid.to_string, to_hex_length]

theorem uuid_injective {a b : Uuid} (h : a.to_string = b.to_string) : a = b := by
  obtain ⟨h, h₅⟩ := append_inj_right h (by simp [to_hex_length])
  obtain ⟨h, -⟩ := append_inj_right h rfl
  obtain ⟨h, h₄⟩ := append_inj_right h (by simp [to_hex_length])
  obtain ⟨h, -⟩ := append_inj_right h rfl
  obtain ⟨h, h₃⟩ := append_inj_right h (by simp [to_hex_length])
  obtain ⟨h, -⟩ := append_inj_right h rfl
  obtain ⟨h, h₂⟩ := append_inj_right h (by simp [to_hex_length])
  obtain ⟨h₁, -⟩ := append_inj_right h rfl
  have h₁ := Hex.to_hex_injective h₁
  have h₂ := Hex.to_hex_injective h₂
  have h₃ := Hex.to_hex_injective h₃
  have h₄ := Hex.to_hex_injective h₄
  have h₅ := Hex.to_hex_injective h₅
  -- the groups make up the whole list again
  have hsplit : ∀ l : List UInt8, l = l.take 4 ++ ((l.drop 4).take 2 ++ ((l.drop 6).take 2 ++ ((l.drop 8).take 2 ++
      l.drop 10))) := by
    intro l
    conv_lhs => rw [← List.take_append_drop 4 l, ← List.take_append_drop 2 (l.drop 4),
      ← List.take_append_drop 2 ((l.drop 4).drop 2), ← List.take_append_drop 2 (((l.drop 4).drop 2).drop 2)]
    simp only [List.drop_drop]
  have hl : a.bytes.toList = b.bytes.toList := by
    rw [hsplit a.bytes.toList, hsplit b.bytes.toList, h₁, h₂, h₃, h₄, h₅]
  cases a
  cases b
  exact congrArg Uuid.mk (Vector.toList_inj.mp hl)

theorem funding_txo_injective {a b : FundingTxo} (h : a.to_string = b.to_string) : a = b := by
  unfold FundingTxo.to_string at h
  rw [String.append_assoc, String.append_assoc] at h
  obtain ⟨ht, hi⟩ := append_inj_left h (by simp [to_hex_length])
  have ht := Vector.toList_inj.mp (List.reverse_injective (Hex.to_hex_injective ht))
  have hd := String.ofList_injective ((String.append_right_inj _).mp hi)
  have hn : a.index.toNat = b.index.toNat := by
    rw [← Nat.ofDigitChars_toDigits (b := 10) (n := a.index.toNat) (by decide) (by decide), hd,
      Nat.ofDigitChars_toDigits (by decide) (by decide)]
  cases a
  cases b
  exact congrArg₂ FundingTxo.mk ht (UInt16.toNat_inj.mp hn)

theorem node_entry_injective {a b : NodeEntry} (h : a.key = b.key) : a = b := by
  have hl := congrArg String.toList h
  rcases a with _ | _ | _ | _ | _ | a | ⟨_ | _, a⟩ | a <;> rcases b with _ | _ | _ | _ | _ | b | ⟨_ | _, b⟩ | b <;>
    simp [NodeEntry.key, payment_key_eq, payment_prefix_key, peer_key] at hl ⊢
  · exact funding_txo_injective (String.toList_inj.mp hl)
  · exact Vector.toList_inj.mp (Hex.to_hex_injective (String.toList_inj.mp hl))
  · exact Vector.toList_inj.mp (Hex.to_hex_injective (String.toList_inj.mp hl))
  · exact String.toList_inj.mp hl

theorem node_key_injective {storage : MutinyBrowserStorage} {u v : Uuid} {a b : NodeEntry}
    (h : (Entry.node u a).key storage = (Entry.node v b).key storage) : u = v ∧ a = b := by
  obtain ⟨h, huv⟩ := append_inj_right h (by rw [uuid_length, uuid_length])
  obtain ⟨hab, -⟩ := append_inj_right h rfl
  exact ⟨uuid_injective huv, node_entry_injective hab⟩

/-! ## The kinds of keys are apart -/

section
variable (storage : MutinyBrowserStorage)

theorem foreign_node_entry (uuid : Uuid) (entry : NodeEntry) : Foreign ((Entry.node uuid entry).key storage) := by
  have hk : entry.key.toList ≠ [] ∧ Foreign entry.key := by
    rcases entry with _ | _ | _ | _ | _ | _ | ⟨_ | _, _⟩ | _ <;>
      simp [NodeEntry.key, payment_key_eq, payment_prefix_key, peer_key, Foreign]
  exact foreign_get_key _ hk.1 hk.2

theorem node_key_length (uuid : Uuid) (entry : NodeEntry) :
    36 < ((Entry.node uuid entry).key storage).toList.length := by
  simp only [Entry.key, MutinyNodePersister.get_key, String.toList_append, List.length_append, uuid_length]
  have h : "_".toList.length = 1 := rfl
  omega

theorem not_foreign_record (kind : Kind) (k : kind.Key) : ¬ Foreign ((Entry.record kind k).key storage) := by
  intro h
  rcases (kind.map_key k).as_map_key_head with h' | h'
  · exact h.1 h'
  · exact h.2 h'

theorem foreign_wallet_entry (entry : WalletEntry) : Foreign entry.key := by
  cases entry <;> decide

theorem wallet_key_length (entry : WalletEntry) : entry.key.toList.length ≤ 36 := by
  cases entry <;> decide

theorem wallet_entry_injective {a b : WalletEntry} (h : a.key = b.key) : a = b := by
  cases a <;> cases b <;> first | rfl | exact absurd h (by decide)

theorem node_key_ne_wallet_key (uuid : Uuid) (entry : NodeEntry) (name : WalletEntry) :
    (Entry.node uuid entry).key storage ≠ name.key := by
  intro h
  have hn := node_key_length storage uuid entry
  have hw := wallet_key_length name
  rw [h] at hn
  omega

theorem storage_key_injective : Function.Injective (Entry.key storage) := by
  intro a b h
  cases a with
  | record kind k =>
    cases b with
    | record kind' k' =>
      obtain rfl := Kind.key_disjoint kind kind' k k' h
      rw [Kind.key_injective kind h]
    | node uuid entry => exact absurd (h ▸ foreign_node_entry storage uuid entry) (not_foreign_record storage kind k)
    | wallet entry => exact absurd (h ▸ foreign_wallet_entry entry) (not_foreign_record storage kind k)
  | node uuid entry =>
    cases b with
    | record kind k => exact absurd (h ▸ foreign_node_entry storage uuid entry) (not_foreign_record storage kind k)
    | node uuid' entry' =>
      obtain ⟨rfl, rfl⟩ := node_key_injective h
      rfl
    | wallet name => exact absurd h (node_key_ne_wallet_key storage uuid entry name)
  | wallet name =>
    cases b with
    | record kind k => exact absurd (h ▸ foreign_wallet_entry name) (not_foreign_record storage kind k)
    | node uuid entry => exact absurd h.symm (node_key_ne_wallet_key storage uuid entry name)
    | wallet name' => rw [wallet_entry_injective h]

/-! ## What a scan finds -/

theorem starts_with_record {kind : Kind} {start : MapKey} {q : kind.Key → Bool} (hstart : start_key kind start q)
    (e : Entry) : starts_with (e.key storage) start.as_map_key = true ↔ ∃ k, e = .record kind k ∧ q k = true := by
  cases e with
  | record kind' k =>
    unfold Entry.key
    rw [starts_with_key]
    constructor
    · intro h
      obtain ⟨rest, hrest⟩ := hstart.1
      obtain ⟨rest', hrest'⟩ := (kind'.map_key k).bytes_tag
      have ht := h
      rw [hrest, hrest', List.isPrefixOf_cons_cons, Bool.and_eq_true, beq_iff_eq, Kind.map_key_tag] at ht
      obtain rfl := Kind.tag_injective ht.1
      exact ⟨k, rfl, (hstart.2 k).symm.trans h⟩
    · intro ⟨k', he, hq⟩
      cases he
      exact (hstart.2 k').trans hq
  | node uuid entry => simp [not_starts_with_of_foreign (foreign_node_entry storage uuid entry)]
  | wallet name =>
    have h := not_starts_with_of_foreign (foreign_wallet_entry name) start
    simp [Entry.key, h]

/-- `start` is how the keys of some of a node's entries begin, and no other key begins so. -/
theorem starts_with_node {start : String} {P : NodeEntry → Prop} (hne : start.toList ≠ []) (hf : Foreign start)
    (hwallet : ∀ name : WalletEntry, starts_with name.key start = false)
    (hnode : ∀ (entry : NodeEntry) (rest : String), starts_with (entry.key ++ rest) start = true ↔ P entry) (e : Entry) :
    starts_with (e.key storage) start = true ↔ ∃ uuid entry, e = .node uuid entry ∧ P entry := by
  cases e with
  | record kind k =>
    refine iff_of_false (fun h => ?_) (by simp)
    obtain ⟨rest, hrest⟩ := List.isPrefixOf_iff_prefix.mp h
    have hhead : ((Entry.record kind k).key storage).toList.head? = start.toList.head? := by
      rw [← hrest, List.head?_append_of_ne_nil _ hne]
    apply not_foreign_record storage kind k
    unfold Foreign
    rw [hhead]
    exact hf
  | node uuid entry =>
    have hk : (Entry.node uuid entry).key storage = entry.key ++ ("_" ++ uuid.to_string) := String.append_assoc
    rw [hk, hnode]
    simp
  | wallet name =>
    have h := hwallet name
    simp [Entry.key, h]

theorem ends_with_node (uuid uuid' : Uuid) (entry : NodeEntry) :
    ends_with ((Entry.node uuid entry).key storage) uuid'.to_string = true ↔ uuid = uuid' := by
  unfold ends_with
  rw [List.isSuffixOf_iff_suffix]
  constructor
  · intro ⟨rest, h⟩
    have hk : String.ofList rest ++ uuid'.to_string = (entry.key ++ "_") ++ uuid.to_string := by
      rw [← String.toList_inj, String.toList_append, String.toList_ofList, h]
      rfl
    exact (uuid_injective (append_inj_right hk (by rw [uuid_length, uuid_length])).2).symm
  · rintro rfl
    exact ⟨(entry.key ++ "_").toList, (String.toList_append ..).symm⟩

theorem starts_with_monitor (entry : NodeEntry) (rest : String) :
    starts_with (entry.key ++ rest) "monitors/" = true ↔ ∃ funding_txo, entry = .monitor funding_txo := by
  rcases entry with _ | _ | _ | _ | _ | _ | ⟨_ | _, _⟩ | _ <;>
    simp [starts_with, NodeEntry.key, payment_key_eq, payment_prefix_key, peer_key]

theorem starts_with_payment (inbound : Bool) (entry : NodeEntry) (rest : String) :
    starts_with (entry.key ++ rest) (payment_prefix_key inbound) = true ↔
      ∃ payment_hash, entry = .payment inbound payment_hash := by
  cases inbound <;> rcases entry with _ | _ | _ | _ | _ | _ | ⟨_ | _, _⟩ | _ <;>
    simp [starts_with, NodeEntry.key, payment_key_eq, payment_prefix_key, peer_key]

theorem starts_with_peer (entry : NodeEntry) (rest : String) :
    starts_with (entry.key ++ rest) "peer/" = true ↔ ∃ pubkey, entry = .peer pubkey := by
  rcases entry with _ | _ | _ | _ | _ | _ | ⟨_ | _, _⟩ | _ <;>
    simp [starts_with, NodeEntry.key, payment_key_eq, payment_prefix_key, peer_key]

theorem starts_with_monitors (e : Entry) : starts_with (e.key storage) "monitors/" = true ↔
    ∃ uuid funding_txo, e = .node uuid (.monitor funding_txo) := by
  have h := starts_with_node storage (by decide) (by decide) (fun name => by cases name <;> decide) starts_with_monitor e
  rw [h]
  simp

theorem starts_with_peers (e : Entry) : starts_with (e.key storage) "peer/" = true ↔
    ∃ uuid pubkey, e = .node uuid (.peer pubkey) := by
  have h := starts_with_node storage (by decide) (by decide) (fun name => by cases name <;> decide) starts_with_peer e
  rw [h]
  simp

theorem selects_of_node {α : Type} {start : String} {entry : α → NodeEntry} (uuid : Uuid) {e : Entry}
    (h : starts_with (e.key storage) start = true ↔ ∃ uuid a, e = .node uuid (entry a)) :
    (starts_with (e.key storage) start && ends_with (e.key storage) uuid.to_string) = true ↔
      ∃ a, e = .node uuid (entry a) := by
  rw [Bool.and_eq_true, h]
  constructor
  · intro ⟨⟨uuid', a, he⟩, hs⟩
    subst he
    obtain rfl := (ends_with_node storage uuid' uuid (entry a)).mp hs
    exact ⟨a, rfl⟩
  · intro ⟨a, he⟩
    subst he
    exact ⟨⟨uuid, a, rfl⟩, (ends_with_node storage uuid uuid (entry a)).mpr rfl⟩

theorem scan_selects (scan : Scan) (e : Entry) : scan.selects (e.key storage) = true ↔ scan.Meant e := by
  cases scan with
  | iter_script_pubkeys keychain =>
    simpa [Scan.selects, Scan.suffix, Scan.start, Scan.Meant] using starts_with_record storage (start_path keychain) e
  | iter_utxos =>
    simpa [Scan.selects, Scan.suffix, Scan.start, Scan.Meant] using starts_with_record storage start_utxo e
  | iter_raw_txs =>
    simpa [Scan.selects, Scan.suffix, Scan.start, Scan.Meant] using starts_with_record storage start_raw_tx e
  | iter_txs =>
    simpa [Scan.selects, Scan.suffix, Scan.start, Scan.Meant] using starts_with_record storage start_tx e
  | read_channel_monitors uuid =>
    simp only [Scan.selects, Scan.suffix, Scan.start, Scan.Meant, Option.all_some]
    exact selects_of_node storage uuid (starts_with_monitors storage e)
  | list_payment_info inbound =>
    have hne : (payment_prefix_key inbound).toList ≠ [] := by cases inbound <;> decide
    have hf : Foreign (payment_prefix_key inbound) := by cases inbound <;> decide
    have hwallet : ∀ name : WalletEntry, starts_with name.key (payment_prefix_key inbound) = false := by
      intro name
      cases inbound <;> cases name <;> decide
    have h := starts_with_node storage hne hf hwallet (starts_with_payment inbound) e
    simpa [Scan.selects, Scan.suffix, Scan.start, Scan.Meant] using h
  | list_peer_connection_info uuid =>
    simp only [Scan.selects, Scan.suffix, Scan.start, Scan.Meant, Option.all_some]
    exact selects_of_node storage uuid (starts_with_peers storage e)

end

/-- Different entries have different keys, and every scan selects the keys of what it is made for and no other. -/
theorem storage_keys (storage : MutinyBrowserStorage) :
    Function.Injective (Entry.key storage) ∧
      ∀ (scan : Scan) (e : Entry), scan.selects (e.key storage) = true ↔ scan.Meant e :=
  ⟨storage_key_injective storage, scan_selects storage⟩

end Mutiny
