import Mutiny.BdkReference
import Mutiny.Browser
import Mutiny.FlatTable
import Mutiny.Persister

/-!
# The browser store refines the reference database

The keys of one kind of record differ from those of every other kind in their tag, and within a kind they determine
what they were made of, so the records are maps flattened into the browser store next to the keys of the rest of the
wallet. Every call keeps this relation and answers as the reference does (`refines_call`), so every sequence of calls
does (`bdk_refines`).
-/

namespace Mutiny

open Prog

/-! ## Keys determine what they were made of -/

namespace Bitcoin

theorem le_bytes_length : ∀ len n : Nat, (le_bytes len n).length = len
  | 0, _ => rfl
  | len + 1, n => by rw [le_bytes, List.length_cons, le_bytes_length]

theorem le_bytes_injective : ∀ {len m n : Nat}, m < 256 ^ len → n < 256 ^ len → le_bytes len m = le_bytes len n → m = n
  | 0, m, n, hm, hn, _ => by omega
  | len + 1, m, n, hm, hn, h => by
    obtain ⟨hlow, hrest⟩ := List.cons.inj h
    have hlow : m % 256 = n % 256 := by
      have := congrArg UInt8.toNat hlow
      simpa using this
    have hm' : m / 256 < 256 ^ len := Nat.div_lt_of_lt_mul (by rw [Nat.pow_succ] at hm; omega)
    have hn' : n / 256 < 256 ^ len := Nat.div_lt_of_lt_mul (by rw [Nat.pow_succ] at hn; omega)
    have hhigh := le_bytes_injective hm' hn' hrest
    omega

theorem le_bytes_u32_injective {m n : UInt32} (h : le_bytes 4 m.toNat = le_bytes 4 n.toNat) : m = n :=
  UInt32.toNat_inj.mp (le_bytes_injective m.toNat_lt n.toNat_lt h)

theorem to_be_bytes_injective {m n : UInt32} (h : to_be_bytes m = to_be_bytes n) : m = n :=
  le_bytes_u32_injective (List.reverse_injective h)

theorem var_int_length (n : Nat) : (var_int n).length =
    if n < 0xFD then 1 else if n < 0x10000 then 3 else if n < 0x100000000 then 5 else 9 := by
  unfold var_int
  split
  · rw [le_bytes_length]
  · split
    · rw [List.length_cons, le_bytes_length]
    · split
      · rw [List.length_cons, le_bytes_length]
      · rw [List.length_cons, le_bytes_length]

theorem script_serialize_injective {s s' : Script} (h : s.serialize = s'.serialize) : s = s' := by
  have hlen : s.bytes.length = s'.bytes.length := by
    have hl := congrArg List.length h
    simp only [Script.serialize, List.length_append, var_int_length] at hl
    split_ifs at hl <;> omega
  unfold Script.serialize at h
  rw [hlen] at h
  exact congrArg Script.mk (List.append_cancel_left h)

theorem outpoint_serialize_injective {o o' : OutPoint} (h : o.serialize = o'.serialize) : o = o' := by
  obtain ⟨ht, hv⟩ := List.append_inj h (by simp)
  exact congrArg₂ OutPoint.mk (Vector.toList_inj.mp ht) (le_bytes_u32_injective hv)

theorem deserialize_txid_toList (txid : Txid) : deserialize_txid txid.toList = some txid := by
  unfold deserialize_txid
  rw [dif_pos (by simp)]
  simp [← Vector.toList_toArray]

end Bitcoin

open Bitcoin

theorem KeychainKind.as_byte_injective {st st' : KeychainKind} (h : st.as_byte = st'.as_byte) : st = st' := by
  cases st <;> cases st' <;> first | rfl | exact absurd h (by decide)

namespace Kind

def map_key : ∀ kind : Kind, kind.Key → MapKey
  | path, k => .Path (some k.1) (some k.2)
  | script, k => .Script (some k)
  | utxo, k => .Utxo (some k)
  | raw_tx, k => .RawTx (some k)
  | tx, k => .Transaction (some k)
  | last_index, k => .LastIndex k
  | checksum, k => .DescriptorChecksum k
  | sync_time, _ => .SyncTime

def key (kind : Kind) (k : kind.Key) : String := (kind.map_key k).as_map_key

theorem key_injective (kind : Kind) : Function.Injective kind.key := by
  intro k k' h
  have hb := Hex.to_hex_injective h
  cases kind with
  | path =>
    obtain ⟨st, child⟩ := k
    obtain ⟨st', child'⟩ := k'
    obtain ⟨hst, hchild⟩ := List.append_inj hb rfl
    have hst : st.as_byte = st'.as_byte := (List.cons.inj (List.cons.inj hst).2).1
    exact congrArg₂ Prod.mk (KeychainKind.as_byte_injective hst) (to_be_bytes_injective hchild)
  | script => exact script_serialize_injective (List.cons.inj hb).2
  | utxo => exact outpoint_serialize_injective (List.cons.inj hb).2
  | raw_tx => exact Vector.toList_inj.mp (List.cons.inj hb).2
  | tx => exact Vector.toList_inj.mp (List.cons.inj hb).2
  | last_index => exact KeychainKind.as_byte_injective (List.cons.inj (List.cons.inj hb).2).1
  | checksum => exact KeychainKind.as_byte_injective (List.cons.inj (List.cons.inj hb).2).1
  | sync_time => rfl

def tag (kind : Kind) : UInt8 :=
  match kind with
  | path => 0x70
  | script => 0x73
  | utxo => 0x75
  | raw_tx => 0x72
  | tx => 0x74
  | last_index => 0x63
  | checksum => 0x64
  | sync_time => 0x6c

theorem map_key_tag : ∀ (kind : Kind) (k : kind.Key), (kind.map_key k).tag = kind.tag
  | path, _ | script, _ | utxo, _ | raw_tx, _ | tx, _ | last_index, _ | checksum, _ | sync_time, _ => rfl

theorem tag_injective {kind kind' : Kind} (h : kind.tag = kind'.tag) : kind = kind' := by
  cases kind <;> cases kind' <;> first | rfl | exact absurd h (by decide)

theorem key_disjoint (kind kind' : Kind) (k : kind.Key) (k' : kind'.Key) (h : kind.key k = kind'.key k') :
    kind = kind' := by
  have ht := MapKey.tag_of_as_map_key h
  rw [map_key_tag, map_key_tag] at ht
  exact tag_injective ht

end Kind

/-! ## The relation -/

/-- A key of the rest of the wallet: no tag of a record begins with its first character. -/
def Foreign (key : String) : Prop := key.toList.head? ≠ some '6' ∧ key.toList.head? ≠ some '7'

instance (key : String) : Decidable (Foreign key) := inferInstanceAs (Decidable (_ ∧ _))

theorem foreign_mnemonic : Foreign mnemonic_key := by decide

/-- The keys of LDK's records start with their name. -/
theorem foreign_get_key (persister : MutinyNodePersister) {key : String} (hk : key.toList ≠ []) (hf : Foreign key) :
    Foreign (persister.get_key key) := by
  have hh : (persister.get_key key).toList.head? = key.toList.head? := by
    simp [MutinyNodePersister.get_key, List.head?_append_of_ne_nil _ hk]
  unfold Foreign
  rw [hh]
  exact hf

/-- The key under which a scan finds its records. -/
def start_key (kind : Kind) (start : MapKey) (q : kind.Key → Bool) : Prop :=
  (∃ rest, start.bytes = kind.tag :: rest) ∧ ∀ k, start.bytes.isPrefixOf (kind.map_key k).bytes = q k

theorem start_utxo : start_key .utxo (.Utxo none) fun _ => true := ⟨⟨[], rfl⟩, fun _ => rfl⟩

theorem start_raw_tx : start_key .raw_tx (.RawTx none) fun _ => true := ⟨⟨[], rfl⟩, fun _ => rfl⟩

theorem start_tx : start_key .tx (.Transaction none) fun _ => true := ⟨⟨[], rfl⟩, fun _ => rfl⟩

theorem start_path (keychain : Option KeychainKind) :
    start_key .path (.Path keychain none) fun k => keychain.all (· = k.1) := by
  cases keychain with
  | none => exact ⟨⟨[], rfl⟩, fun _ => rfl⟩
  | some st =>
    refine ⟨⟨[st.as_byte], rfl⟩, fun ⟨st', child⟩ => ?_⟩
    cases st <;> cases st' <;> rfl

/-- `iter_txs` reads the txid off the key. -/
theorem txid_of_key_key (txid : Bitcoin.Txid) : txid_of_key (Kind.tx.key txid) = .ok txid := by
  have hk : (Kind.tx.key txid).toList = '7' :: '4' :: txid.toList.flatMap Hex.byte := by
    unfold Kind.key MapKey.as_map_key Hex.to_hex
    rw [String.toList_ofList]
    rfl
  unfold txid_of_key
  simp only [hk, Hex.read_bytes_flatMap, deserialize_txid_toList]

theorem starts_with_key (kind : Kind) (k : kind.Key) (start : MapKey) :
    starts_with (kind.key k) start.as_map_key = start.bytes.isPrefixOf (kind.map_key k).bytes := by
  unfold starts_with Kind.key MapKey.as_map_key Hex.to_hex
  rw [String.toList_ofList, String.toList_ofList, Hex.isPrefixOf_flatMap]

theorem not_starts_with_of_foreign {key : String} (hk : Foreign key) (start : MapKey) :
    starts_with key start.as_map_key = false := by
  by_contra hs
  rw [Bool.not_eq_false] at hs
  obtain ⟨rest, hrest⟩ := List.isPrefixOf_iff_prefix.mp hs
  have hhead : key.toList.head? = start.as_map_key.toList.head? := by
    have hne : start.as_map_key.toList ≠ [] := by
      intro he
      rcases start.as_map_key_head with h | h <;> simp [he] at h
    rw [← hrest, List.head?_append_of_ne_nil _ hne]
  rcases start.as_map_key_head with h | h
  · exact hk.1 (hhead.trans h)
  · exact hk.2 (hhead.trans h)

section
variable {Transaction : Type} [Serde String] [Serde Script] [Serde ScriptPubKeyInfo] [Serde LocalUtxo]
  [Serde Transaction] [Serde (TransactionDetails Transaction)] [Serde UInt32] [Serde (List UInt8)] [Serde SyncTime]

@[reducible] instance kind_serde : ∀ kind : Kind, Serde (kind.Val Transaction)
  | .path => inferInstanceAs (Serde Script)
  | .script => inferInstanceAs (Serde ScriptPubKeyInfo)
  | .utxo => inferInstanceAs (Serde LocalUtxo)
  | .raw_tx => inferInstanceAs (Serde Transaction)
  | .tx => inferInstanceAs (Serde (TransactionDetails Transaction))
  | .last_index => inferInstanceAs (Serde UInt32)
  | .checksum => inferInstanceAs (Serde (List UInt8))
  | .sync_time => inferInstanceAs (Serde SyncTime)

variable (Transaction) (host : Host) (storage : MutinyBrowserStorage)

def records : Flat String String Kind.Key (Kind.Val Transaction) where
  table kind :=
    { key := kind.key
      key_injective := kind.key_injective
      read := fun text => (storage.decode host.crypto text : Except (Fault MutinyStorageError) _).toOption }
  disjoint := Kind.key_disjoint

variable {Transaction}

structure Refines (store : Store) (mem : Memory Transaction) : Prop where
  holds : (records Transaction host storage).Holds store.items mem
  keys : ∀ key ∈ store.items, (∃ (kind : Kind) (k : kind.Key), kind.key k = key) ∨ Foreign key

variable {host storage} {store : Store} {mem : Memory Transaction}

theorem refines_empty (h : ∀ key ∈ store.items, Foreign key) : 
    Refines host storage store (Memory.empty : Memory Transaction) := by
  refine ⟨fun kind => Table.holds_empty fun k hk => ?_, fun key hk => .inr (h key hk)⟩
  exact MapKey.as_map_key_ne _ (h _ hk) rfl

/-! ## Reading, writing, deleting and scanning records -/

theorem Refines.exec_get {ε : Type} (h : Refines host storage store mem) (kind : Kind) (k : kind.Key) :
    exec (ok (storage.get host (kind.key k) : StorageM MutinyStorageError (kind.Val Transaction)) : StorageM ε _) store =
      (.ok (mem.get kind k), store) := by
  have hg := Mutiny.exec_get (α := kind.Val Transaction) host storage (kind.key k) store
  have hr := h.holds kind
  unfold ok Memory.get
  cases hv : (mem kind).lookup k with
  | none =>
    have hs : store.items.lookup (kind.key k) = none := hr.lookup_none hv
    simp only [hs] at hg
    rw [exec_bind_ok (exec_result_err hg)]
    rfl
  | some v =>
    obtain ⟨text, hs, ht⟩ := hr.lookup_some hv
    have hs : store.items.lookup (kind.key k) = some text := hs
    simp only [hs] at hg
    have hd : (storage.decode host.crypto text : Except (Fault MutinyStorageError) (kind.Val Transaction)) = .ok v :=
      toOption_eq_some.mp ht
    rw [hd] at hg
    rw [exec_bind_ok (exec_result_ok hg)]
    rfl

theorem Refines.exec_set (h : Refines host storage store mem) (hw : ∀ k, host.refuses k = false) (kind : Kind)
    (k : kind.Key) (v : kind.Val Transaction) : ∃ store',
    exec (convert BdkError.from_storage (storage.set host (kind.key k) v)) store = (.ok (), store') ∧
      Refines host storage store' (mem.set kind k v) := by
  have hs := Mutiny.exec_set host storage (kind.key k) v store
  rw [if_neg (by simp [hw])] at hs
  have hread : ((records Transaction host storage).table kind).read (storage.encode host store.writes v) = some v :=
    toOption_eq_some.mpr (decode_encode host storage store.writes v)
  refine ⟨_, convert_ok _ hs, h.holds.insert kind k hread, fun key hk => ?_⟩
  · rcases (AList.mem_insert _).mp hk with rfl | hk
    · exact .inl ⟨kind, k, rfl⟩
    · exact h.keys key hk

theorem Refines.exec_delete {ε : Type} (h : Refines host storage store mem) (kind : Kind) (k : kind.Key) : ∃ store',
    exec (LocalStorage.delete (kind.key k) : StorageM ε Unit) store = (.ok (), store') ∧
      Refines host storage store' (mem.del kind k) :=
  ⟨_, rfl, h.holds.erase kind k, fun key hk => h.keys key (AList.mem_erase.mp hk).2⟩

theorem Refines.exec_scan {ε : Type} (h : Refines host storage store mem) {kind : Kind} {start : MapKey}
    {q : kind.Key → Bool} (hstart : start_key kind start q) : ∃ map : AList fun _ : String => kind.Val Transaction,
    exec (storage.scan host start.as_map_key none : StorageM ε _) store = (.ok map, store) ∧
      map.entries.Perm (((mem kind).entries.filter fun e => q e.1).map fun e => ⟨kind.key e.1, e.2⟩) := by
  have hq : ∀ k, starts_with (kind.key k) start.as_map_key = q k :=
    fun k => (starts_with_key kind k start).trans (hstart.2 k)
  -- a key that starts so is the key of a record of this kind
  have howned : ∀ key ∈ store.items, starts_with key start.as_map_key = true → ∃ k, kind.key k = key := by
    intro key hk hs
    rcases h.keys key hk with ⟨kind', k, rfl⟩ | hf
    · rw [starts_with_key] at hs
      obtain ⟨rest, hrest⟩ := hstart.1
      obtain ⟨rest', hrest'⟩ := (kind'.map_key k).bytes_tag
      rw [hrest, hrest', List.isPrefixOf_cons_cons, Bool.and_eq_true, beq_iff_eq,
        Kind.map_key_tag] at hs
      obtain rfl := Kind.tag_injective hs.1
      exact ⟨k, rfl⟩
    · rw [not_starts_with_of_foreign hf] at hs
      cases hs
  have hread : ∀ key item, store.items.lookup key = some item →
      (starts_with key start.as_map_key && (none : Option String).all (ends_with key)) = true →
        ∃ value : kind.Val Transaction, storage.decode host.crypto item = .ok value := by
    intro key item hi hs
    rw [Option.all_none, Bool.and_true] at hs
    obtain ⟨k, rfl⟩ := howned key (AList.lookup_isSome.mp (by rw [hi]; rfl)) hs
    obtain ⟨v, -, hv⟩ := (h.holds kind).read_of_lookup hi
    exact ⟨v, toOption_eq_some.mp hv⟩
  obtain ⟨map, hm, hl⟩ := scanned_lookup (α := kind.Val Transaction) host storage start.as_map_key none store hread
  have hx := Mutiny.exec_scan (α := kind.Val Transaction) (ε := ε) host storage start.as_map_key none store
  rw [hm] at hx
  refine ⟨map, hx, (h.holds kind).scan_perm (p := fun key => starts_with key start.as_map_key) howned hq fun key => ?_⟩
  rw [hl key, Option.all_none, Bool.and_true]
  rfl

/-! ## Every call -/

theorem Refines.exec_del (h : Refines host storage store mem) (kind : Kind) (k : kind.Key) : ∃ store',
    exec (do
      let res : Option (kind.Val Transaction) ← ok (storage.get host (kind.key k))
      LocalStorage.delete (kind.key k)
      return res : StorageM BdkError _) store = (.ok (mem.get kind k), store') ∧
        Refines host storage store' (mem.del kind k) := by
  obtain ⟨store', hd, hr⟩ := h.exec_delete (ε := BdkError) kind k
  exact ⟨store', (exec_bind_ok (h.exec_get kind k)).trans (exec_bind_ok hd), hr⟩

variable (host storage) in
/-- A call from a store answers as a reference does and leaves the store as one of what the reference leaves. -/
def Simulates (x : StorageM BdkError (Answer Transaction)) (store : Store)
    (r : Except BdkError (Answer Transaction) × Memory Transaction) : Prop :=
  Agrees (exec x store).1 r.1 ∧ Refines host storage (exec x store).2 r.2

theorem Simulates.of_ok {x : StorageM BdkError (Answer Transaction)} {store store' : Store} {a b : Answer Transaction}
    {mem' : Memory Transaction} (hx : exec x store = (.ok a, store')) (hs : a.Same b)
    (hr : Refines host storage store' mem') : Simulates host storage x store (.ok b, mem') := by
  unfold Simulates
  rw [hx]
  exact ⟨.ok hs, hr⟩

omit [Serde Script] [Serde ScriptPubKeyInfo] [Serde LocalUtxo] [Serde UInt32] [Serde SyncTime] in
variable (host storage) in
theorem check_descriptor_checksum_eq (keychain : KeychainKind) (bytes : List UInt8) :
    Mutiny.check_descriptor_checksum host storage keychain bytes = (do
      let prev ← ok (storage.get host (Kind.checksum.key keychain))
      match prev with
      | some val => if val = bytes then return () else throw (.err .ChecksumMismatch)
      | none => convert .from_storage (storage.set host (Kind.checksum.key keychain) bytes)) := by
  unfold Mutiny.check_descriptor_checksum ok
  rw [bind_assoc]
  simp only [pure_bind]
  rfl

variable (h : Refines host storage store mem)
include h

theorem Refines.exec_iter {kind : Kind} {start : MapKey} {q : kind.Key → Bool} (hstart : start_key kind start q) :
    ∃ l, exec (do
      let map : AList fun _ : String => kind.Val Transaction ← storage.scan host start.as_map_key none
      return host.order (map.entries.map (·.2)) : StorageM BdkError _) store = (.ok l, store) ∧
        l.Perm (((mem kind).entries.filter fun e => q e.1).map (·.2)) := by
  obtain ⟨map, hx, hp⟩ := h.exec_scan (ε := BdkError) hstart
  refine ⟨_, exec_bind_ok hx, (host.order_perm _).trans ?_⟩
  have hm := hp.map (·.2)
  rwa [List.map_map] at hm

theorem Refines.exec_values {kind : Kind} {start : MapKey} (hstart : start_key kind start fun _ => true) :
    ∃ l, exec (do
      let map : AList fun _ : String => kind.Val Transaction ← storage.scan host start.as_map_key none
      return host.order (map.entries.map (·.2)) : StorageM BdkError _) store = (.ok l, store) ∧
        l.Perm (mem.values kind) := by
  obtain ⟨l, hx, hl⟩ := h.exec_iter hstart
  rw [List.filter_true] at hl
  exact ⟨l, hx, hl⟩

theorem Refines.exec_iter_txs (include_raw : Bool) : ∃ l,
    exec (iter_txs host storage include_raw : StorageM BdkError (List (TransactionDetails Transaction))) store =
      (.ok l, store) ∧ l.Perm ((mem .tx).entries.map fun e => mem.join include_raw e.1 e.2) := by
  obtain ⟨map, hx, hp⟩ := h.exec_scan (ε := BdkError) start_tx
  rw [List.filter_true] at hp
  let g : (Sigma fun _ : String => TransactionDetails Transaction) → TransactionDetails Transaction := fun item =>
    match txid_of_key item.1 with
    | .ok txid => mem.join include_raw txid item.2
    | .error _ => item.2
  have hg : ∀ e : Sigma fun _ : Bitcoin.Txid => TransactionDetails Transaction,
      g ⟨Kind.tx.key e.1, e.2⟩ = mem.join include_raw e.1 e.2 := fun e => by simp only [g, txid_of_key_key]
  have hitem : ∀ item ∈ host.order map.entries, exec (iter_tx host storage include_raw item.1 item.2) store =
      (.ok (g item), store) := by
    intro item hi
    obtain ⟨e, -, rfl⟩ := List.mem_map.mp (hp.mem_iff.mp ((host.order_perm _).mem_iff.mp hi))
    rw [hg e]
    unfold iter_tx Memory.join
    cases include_raw with
    | false => rfl
    | true =>
      simp only [if_true, txid_of_key_key]
      exact exec_bind_ok (h.exec_get .raw_tx e.1)
  refine ⟨_, (exec_bind_ok hx).trans (exec_mapM hitem), ?_⟩
  have hm := ((host.order_perm _).trans hp).map g
  rw [List.map_map] at hm
  have hcongr : (mem .tx).entries.map (g ∘ fun e => ⟨Kind.tx.key e.1, e.2⟩) =
      (mem .tx).entries.map fun e => mem.join include_raw e.1 e.2 := List.map_congr_left fun e _ => hg e
  rwa [hcongr] at hm

theorem simulates_del_tx (txid_of : Transaction → Bitcoin.Txid) (txid : Bitcoin.Txid) (include_raw : Bool) :
    Simulates host storage (DbCall.exec host storage txid_of (.del_tx txid include_raw)) store
      (mem.call txid_of (.del_tx txid include_raw)) := by
  cases include_raw with
  | false =>
    obtain ⟨store', hx, hr⟩ := h.exec_delete (ε := BdkError) .tx txid
    refine .of_ok (exec_bind_ok ((exec_bind_ok (h.exec_get .tx txid)).trans ((exec_bind_ok hx).trans ?_))) (.refl _) hr
    unfold Memory.del_tx
    cases mem.get .tx txid <;> rfl
  | true =>
    obtain ⟨store₁, hx₁, h₁⟩ := h.exec_del .raw_tx txid
    obtain ⟨store₂, hx₂, h₂⟩ := h₁.exec_delete (ε := BdkError) .tx txid
    have hg : (mem.del .raw_tx txid).get .tx txid = mem.get .tx txid :=
      congrArg (AList.lookup txid) (Function.update_of_ne (by decide) _ _)
    have hread := h₁.exec_get (ε := BdkError) .tx txid
    rw [hg] at hread
    refine .of_ok (exec_bind_ok ((exec_bind_ok hx₁).trans ((exec_bind_ok hread).trans ((exec_bind_ok hx₂).trans ?_))))
      (.refl _) h₂
    unfold Memory.del_tx
    cases mem.get .tx txid <;> rfl

theorem simulates_get_tx (txid_of : Transaction → Bitcoin.Txid) (txid : Bitcoin.Txid) (include_raw : Bool) :
    Simulates host storage (DbCall.exec host storage txid_of (.get_tx txid include_raw)) store
      (mem.call txid_of (.get_tx txid include_raw)) := by
  refine .of_ok (exec_bind_ok ((exec_bind_ok (h.exec_get .tx txid)).trans ?_)) (.refl _) h
  cases mem.get .tx txid with
  | none => rfl
  | some details =>
    cases include_raw with
    | false => rfl
    | true => exact exec_bind_ok (h.exec_get .raw_tx txid)

variable (hw : ∀ k, host.refuses k = false)
include hw

theorem simulates_set_tx (txid_of : Transaction → Bitcoin.Txid) (transaction : TransactionDetails Transaction) :
    Simulates host storage (DbCall.exec host storage txid_of (.set_tx transaction)) store
      (mem.call txid_of (.set_tx transaction)) := by
  obtain ⟨raw, txid, received, sent, fee, confirmation_time⟩ := transaction
  cases raw with
  | none =>
    obtain ⟨store', hx, hr⟩ := h.exec_set hw .tx txid ⟨none, txid, received, sent, fee, confirmation_time⟩
    exact .of_ok (exec_bind_ok hx) (.refl _) hr
  | some tx =>
    obtain ⟨store₁, hx₁, h₁⟩ := h.exec_set hw .raw_tx (txid_of tx) tx
    obtain ⟨store₂, hx₂, h₂⟩ := h₁.exec_set hw .tx txid ⟨none, txid, received, sent, fee, confirmation_time⟩
    exact .of_ok (exec_bind_ok ((exec_bind_ok hx₁).trans hx₂)) (.refl _) h₂

theorem simulates_check (txid_of : Transaction → Bitcoin.Txid) (keychain : KeychainKind) (bytes : List UInt8) :
    Simulates host storage (DbCall.exec host storage txid_of (.check_descriptor_checksum keychain bytes)) store
      (mem.call txid_of (.check_descriptor_checksum keychain bytes)) := by
  have hread := h.exec_get (ε := BdkError) .checksum keychain
  have hcheck := check_descriptor_checksum_eq host storage keychain bytes
  cases hm : mem.get .checksum keychain with
  | none =>
    rw [hm] at hread
    have hcall : mem.call txid_of (.check_descriptor_checksum keychain bytes) =
        (.ok .unit, mem.set .checksum keychain bytes) := by simp only [Memory.call, hm]
    obtain ⟨store', hx, hr⟩ := h.exec_set hw .checksum keychain bytes
    rw [hcall]
    exact .of_ok (exec_bind_ok (hcheck ▸ (exec_bind_ok hread).trans hx)) (.refl _) hr
  | some val =>
    rw [hm] at hread
    by_cases hv : val = bytes
    · have hcall : mem.call txid_of (.check_descriptor_checksum keychain bytes) = (.ok .unit, mem) := by
        simp only [Memory.call, hm, hv, if_true]
      have hx : exec (Mutiny.check_descriptor_checksum host storage keychain bytes) store = (.ok (), store) := by
        rw [hcheck, exec_bind_ok hread]
        simp [hv]
      rw [hcall]
      exact .of_ok (exec_bind_ok hx) (.refl _) h
    · have hcall : mem.call txid_of (.check_descriptor_checksum keychain bytes) = (.error .ChecksumMismatch, mem) := by
        simp only [Memory.call, hm, hv, if_false]
      have hx : exec (Mutiny.check_descriptor_checksum host storage keychain bytes) store =
          (.error (.err .ChecksumMismatch), store) := by
        rw [hcheck, exec_bind_ok hread]
        simp [hv]
      rw [hcall]
      unfold Simulates
      rw [show exec (DbCall.exec host storage txid_of (.check_descriptor_checksum keychain bytes)) store = _ from
        exec_bind_error hx]
      exact ⟨.err _, h⟩

variable (txid_of : Transaction → Bitcoin.Txid)

theorem refines_call (call : DbCall Transaction) :
    Simulates host storage (call.exec host storage txid_of) store (mem.call txid_of call) := by
  cases call with
  | set_script_pubkey script keychain path =>
    obtain ⟨store₁, hx₁, h₁⟩ := h.exec_set hw .path (keychain, path) script
    obtain ⟨store₂, hx₂, h₂⟩ := h₁.exec_set hw .script script ⟨keychain, path⟩
    exact .of_ok (exec_bind_ok ((exec_bind_ok hx₁).trans hx₂)) (.refl _) h₂
  | set_utxo utxo =>
    obtain ⟨store', hx, hr⟩ := h.exec_set hw .utxo utxo.outpoint utxo
    exact .of_ok (exec_bind_ok hx) (.refl _) hr
  | set_raw_tx transaction =>
    obtain ⟨store', hx, hr⟩ := h.exec_set hw .raw_tx (txid_of transaction) transaction
    exact .of_ok (exec_bind_ok hx) (.refl _) hr
  | set_last_index keychain value =>
    obtain ⟨store', hx, hr⟩ := h.exec_set hw .last_index keychain value
    exact .of_ok (exec_bind_ok hx) (.refl _) hr
  | set_sync_time data =>
    obtain ⟨store', hx, hr⟩ := h.exec_set hw .sync_time () data
    exact .of_ok (exec_bind_ok hx) (.refl _) hr
  | del_script_pubkey_from_path keychain path =>
    obtain ⟨store', hx, hr⟩ := h.exec_del .path (keychain, path)
    exact .of_ok (exec_bind_ok hx) (.refl _) hr
  | del_utxo outpoint =>
    obtain ⟨store', hx, hr⟩ := h.exec_del .utxo outpoint
    exact .of_ok (exec_bind_ok hx) (.refl _) hr
  | del_raw_tx txid =>
    obtain ⟨store', hx, hr⟩ := h.exec_del .raw_tx txid
    exact .of_ok (exec_bind_ok hx) (.refl _) hr
  | del_last_index keychain =>
    obtain ⟨store', hx, hr⟩ := h.exec_del .last_index keychain
    exact .of_ok (exec_bind_ok hx) (.refl _) hr
  | del_sync_time =>
    obtain ⟨store', hx, hr⟩ := h.exec_del .sync_time ()
    exact .of_ok (exec_bind_ok hx) (.refl _) hr
  | del_path_from_script_pubkey script =>
    obtain ⟨store', hx, hr⟩ := h.exec_delete (ε := BdkError) .script script
    refine .of_ok (exec_bind_ok ((exec_bind_ok (h.exec_get .script script)).trans
      ((exec_bind_ok hx).trans ?_))) (.refl _) hr
    cases mem.get .script script <;> rfl
  | set_tx transaction => exact simulates_set_tx h hw txid_of transaction
  | del_tx txid include_raw => exact simulates_del_tx h txid_of txid include_raw
  | check_descriptor_checksum keychain bytes => exact simulates_check h hw txid_of keychain bytes
  | iter_script_pubkeys keychain =>
    obtain ⟨l, hx, hl⟩ := h.exec_iter (start_path keychain)
    exact .of_ok (exec_bind_ok hx) (.scripts hl) h
  | iter_utxos =>
    obtain ⟨l, hx, hl⟩ := h.exec_values start_utxo
    exact .of_ok (exec_bind_ok hx) (.utxos hl) h
  | iter_raw_txs =>
    obtain ⟨l, hx, hl⟩ := h.exec_values start_raw_tx
    exact .of_ok (exec_bind_ok hx) (.raw_txs hl) h
  | iter_txs include_raw =>
    obtain ⟨l, hx, hl⟩ := h.exec_iter_txs include_raw
    exact .of_ok (exec_bind_ok hx) (.txs hl) h
  | get_script_pubkey_from_path keychain path => exact .of_ok (exec_bind_ok (h.exec_get .path (keychain, path))) (.refl _) h
  | get_path_from_script_pubkey script =>
    exact .of_ok (exec_bind_ok (exec_bind_ok (h.exec_get .script script))) (.refl _) h
  | get_utxo outpoint => exact .of_ok (exec_bind_ok (h.exec_get .utxo outpoint)) (.refl _) h
  | get_raw_tx txid => exact .of_ok (exec_bind_ok (h.exec_get .raw_tx txid)) (.refl _) h
  | get_tx txid include_raw => exact simulates_get_tx h txid_of txid include_raw
  | get_last_index keychain => exact .of_ok (exec_bind_ok (h.exec_get .last_index keychain)) (.refl _) h
  | get_sync_time => exact .of_ok (exec_bind_ok (h.exec_get .sync_time ())) (.refl _) h
  | increment_last_index keychain =>
    obtain ⟨store', hx, hr⟩ := h.exec_set hw .last_index keychain
      (((mem.get .last_index keychain).map fun s => s + 1).getD 0)
    exact .of_ok (exec_bind_ok ((exec_bind_ok (h.exec_get .last_index keychain)).trans (exec_bind_ok hx))) (.refl _) hr

end

/-- Every sequence of calls on a store without records is answered as the reference answers it. -/
theorem bdk_refines {Transaction : Type} [Serde String] [Serde Script] [Serde ScriptPubKeyInfo] [Serde LocalUtxo]
    [Serde Transaction] [Serde (TransactionDetails Transaction)] [Serde UInt32] [Serde (List UInt8)] [Serde SyncTime]
    (host : Host) (hw : ∀ k, host.refuses k = false) (storage : MutinyBrowserStorage) (txid_of : Transaction → Bitcoin.Txid)
    (store : Store) (hkeys : ∀ key ∈ store.items, Foreign key) (calls : List (DbCall Transaction)) :
    List.Forall₂ Agrees (DbCall.results host storage txid_of calls store) (Memory.empty.results txid_of calls) := by
  have hrun : ∀ (calls : List (DbCall Transaction)) (store : Store) (mem : Memory Transaction),
      Refines host storage store mem →
        List.Forall₂ Agrees (DbCall.results host storage txid_of calls store) (mem.results txid_of calls) := by
    intro calls
    induction calls with
    | nil => exact fun _ _ _ => .nil
    | cons call calls ih =>
      intro store mem h
      obtain ⟨ha, hr⟩ := refines_call h hw txid_of call
      exact .cons ha (ih _ _ hr)
  exact hrun calls store _ (refines_empty hkeys)

/-! ## A database in a browser -/

namespace Json

open Codec

def script : Codec Script :=
  string.map (fun s => Hex.to_hex s.bytes) (fun text => (Hex.from_hex text).map Script.mk) fun s => by
    simp [Hex.from_hex, Hex.to_hex, Hex.read_bytes_flatMap]

def keychain_kind : Codec KeychainKind :=
  string.map
    (fun
      | .External => "External"
      | .Internal => "Internal")
    (fun
      | "External" => some .External
      | "Internal" => some .Internal
      | _ => none)
    fun b => by cases b <;> rfl

def script_pub_key_info : Codec ScriptPubKeyInfo :=
  (Codec.record "\x7b\"keychain\":".toList ⟨_, _, rfl, by decide, by decide, by decide⟩ <|
    pair keychain_kind.toPart ",\"path\":".toList (ends_of_head (by decide)) u32.toPart).map
    (fun i => (i.keychain, i.path)) (fun p => some ⟨p.1, p.2⟩) fun _ => rfl

def block_time : Codec BlockTime :=
  (Codec.record "\x7b\"height\":".toList ⟨_, _, rfl, by decide, by decide, by decide⟩ <|
    pair u32.toPart ",\"timestamp\":".toList (ends_of_head (by decide)) u64.toPart).map
    (fun t => (t.height, t.timestamp)) (fun p => some ⟨p.1, p.2⟩) fun _ => rfl

def sync_time : Codec SyncTime :=
  (Codec.record "\x7b\"block_time\":".toList ⟨_, _, rfl, by decide, by decide, by decide⟩ block_time.toPart).map
    (·.block_time) (fun t => some ⟨t⟩) fun _ => rfl

def txid : Codec Bitcoin.Txid :=
  string.map (fun t => Hex.to_hex t.toList) (fun text => (Hex.from_hex text).bind deserialize_txid) fun t => by
    simp [Hex.from_hex, Hex.to_hex, Hex.read_bytes_flatMap, deserialize_txid_toList]

def bool : Codec Bool :=
  string.map (fun b => if b then "true" else "false") (fun text => some (text = "true")) fun b => by cases b <;> rfl

def local_utxo : Codec LocalUtxo :=
  (Codec.record "\x7b\"txid\":".toList ⟨_, _, rfl, by decide, by decide, by decide⟩ <|
    pair txid.toPart ",\"vout\":".toList (ends_of_head (by decide)) <|
    pair u32.toPart ",\"value\":".toList (ends_of_head (by decide)) <|
    pair u64.toPart ",\"script_pubkey\":".toList (ends_of_head (by decide)) <|
    pair script.toPart ",\"keychain\":".toList (ends_of_head (by decide)) <|
    pair keychain_kind.toPart ",\"is_spent\":".toList (ends_of_head (by decide)) bool.toPart).map
    (fun u => (u.outpoint.txid, u.outpoint.vout, u.txout.value, u.txout.script_pubkey, u.keychain, u.is_spent))
    (fun ⟨txid, vout, value, script_pubkey, keychain, is_spent⟩ =>
      some ⟨⟨txid, vout⟩, ⟨value, script_pubkey⟩, keychain, is_spent⟩)
    fun _ => rfl

def transaction_details : Codec (TransactionDetails (List UInt8)) :=
  (Codec.record "\x7b\"transaction\":".toList ⟨_, _, rfl, by decide, by decide, by decide⟩ <|
    pair (option (list u8)) ",\"txid\":".toList (ends_of_head (by decide)) <|
    pair txid.toPart ",\"received\":".toList (ends_of_head (by decide)) <|
    pair u64.toPart ",\"sent\":".toList (ends_of_head (by decide)) <|
    pair u64.toPart ",\"fee\":".toList (ends_of_head (by decide)) <|
    pair (option u64) ",\"confirmation_time\":".toList (ends_of_head (by decide)) (option block_time)).map
    (fun d => (d.transaction, d.txid, d.received, d.sent, d.fee, d.confirmation_time))
    (fun ⟨transaction, txid, received, sent, fee, confirmation_time⟩ =>
      some { transaction, txid, received, sent, fee, confirmation_time })
    fun _ => rfl

@[reducible] def serde {α : Type} (c : Codec α) : Serde α := ⟨c.to_string, c.from_str, c.from_str_to_string⟩

@[reducible] def script_serde : Serde Script := serde script

@[reducible] def script_pub_key_info_serde : Serde ScriptPubKeyInfo := serde script_pub_key_info

@[reducible] def local_utxo_serde : Serde LocalUtxo := serde local_utxo

@[reducible] def transaction_details_serde : Serde (TransactionDetails (List UInt8)) := serde transaction_details

@[reducible] def u32_serde : Serde UInt32 := serde u32

@[reducible] def sync_time_serde : Serde SyncTime := serde sync_time

end Json

attribute [local instance] string_serde bytes_serde Json.script_serde Json.script_pub_key_info_serde
  Json.local_utxo_serde Json.transaction_details_serde Json.u32_serde Json.sync_time_serde

def indexing : List (DbCall (List UInt8)) :=
  [.set_script_pubkey ⟨[0x51]⟩ .External 4, .iter_script_pubkeys none, .get_path_from_script_pubkey ⟨[0x51]⟩,
    .set_last_index .Internal 7, .increment_last_index .Internal, .increment_last_index .External]

theorem bdk_refines_indexing : List.Forall₂ Agrees
    (DbCall.results open_host ⟨""⟩ (fun _ => .replicate 32 0) indexing ⟨(∅ : AList _).insert mnemonic_key "x", 1⟩)
    (Memory.empty.results (fun _ => .replicate 32 0) indexing) := by
  refine bdk_refines open_host (fun _ => rfl) ⟨""⟩ _ _ (fun key hk => ?_) _
  rcases (AList.mem_insert _).mp hk with rfl | hk
  · exact foreign_mnemonic
  · exact absurd hk (AList.notMem_empty key)

end Mutiny
