import Mutiny.Hex
import Mutiny.Storage

/-!
# BDK's database (`bdkstorage.rs`)

BDK's records are kept in the browser store, each under a key that starts with the tag of its kind and goes on with
what it is looked up by. Transactions are those of `rust-bitcoin`: here they are any type with a `txid`.
-/

namespace Mutiny

open Prog

/-! ## `rust-bitcoin` and `bdk` -/

namespace Bitcoin

abbrev Txid := Vector UInt8 32

structure OutPoint where
  txid : Txid
  vout : UInt32
  deriving DecidableEq

structure Script where
  bytes : List UInt8
  deriving DecidableEq, Repr

structure TxOut where
  value : UInt64
  script_pubkey : Script
  deriving DecidableEq, Repr

/-- The bytes of a number, the lowest first. -/
def le_bytes : Nat → Nat → List UInt8
  | 0, _ => []
  | len + 1, n => UInt8.ofNat n :: le_bytes len (n / 256)

def to_be_bytes (n : UInt32) : List UInt8 := (le_bytes 4 n.toNat).reverse

/-- The consensus encoding of a length. -/
def var_int (n : Nat) : List UInt8 :=
  if n < 0xFD then le_bytes 1 n
  else if n < 0x10000 then 0xFD :: le_bytes 2 n
  else if n < 0x100000000 then 0xFE :: le_bytes 4 n
  else 0xFF :: le_bytes 8 n

def Script.serialize (script : Script) : List UInt8 := var_int script.bytes.length ++ script.bytes

def OutPoint.serialize (outpoint : OutPoint) : List UInt8 := outpoint.txid.toList ++ le_bytes 4 outpoint.vout.toNat

/-- `deserialize` for a `Txid`: all bytes must be consumed. -/
def deserialize_txid (bytes : List UInt8) : Option Txid :=
  if h : bytes.length = 32 then some ⟨bytes.toArray, by simpa using h⟩ else none

end Bitcoin

open Bitcoin

inductive KeychainKind where
  | External
  | Internal
  deriving DecidableEq, Repr

def KeychainKind.as_byte : KeychainKind → UInt8
  | .External => 0x65
  | .Internal => 0x69

structure BlockTime where
  height : UInt32
  timestamp : UInt64
  deriving DecidableEq, Repr

structure SyncTime where
  block_time : BlockTime
  deriving DecidableEq, Repr

structure LocalUtxo where
  outpoint : Bitcoin.OutPoint
  txout : TxOut
  keychain : KeychainKind
  is_spent : Bool
  deriving DecidableEq

structure TransactionDetails (Transaction : Type) where
  transaction : Option Transaction
  txid : Bitcoin.Txid
  received : UInt64
  sent : UInt64
  fee : Option UInt64
  confirmation_time : Option BlockTime

/-- `bdk::Error`, as far as the database gives it. -/
inductive BdkError where
  | Generic
  | ChecksumMismatch
  | Hex
  | Encode
  deriving DecidableEq, Repr

/-- `From<MutinyStorageError>`. -/
def BdkError.from_storage : MutinyStorageError → BdkError
  | _ => .Generic

/-! ## The keys -/

inductive MapKey where
  | Path (st : Option KeychainKind) (child : Option UInt32)
  | Script (script : Option Bitcoin.Script)
  | Utxo (outpoint : Option Bitcoin.OutPoint)
  | RawTx (txid : Option Bitcoin.Txid)
  | Transaction (txid : Option Bitcoin.Txid)
  | LastIndex (st : KeychainKind)
  | SyncTime
  | DescriptorChecksum (st : KeychainKind)

namespace MapKey

def as_prefix : MapKey → List UInt8
  | Path none _ => [0x70]
  | Path (some st) _ => [0x70, st.as_byte]
  | Script _ => [0x73]
  | Utxo _ => [0x75]
  | RawTx _ => [0x72]
  | Transaction _ => [0x74]
  | LastIndex st => [0x63, st.as_byte]
  | SyncTime => [0x6c]
  | DescriptorChecksum st => [0x64, st.as_byte]

def serialize_content : MapKey → List UInt8
  | Path _ (some child) => to_be_bytes child
  | Script (some s) => s.serialize
  | Utxo (some s) => s.serialize
  | RawTx (some s) => s.toList
  | Transaction (some s) => s.toList
  | _ => []

def bytes (key : MapKey) : List UInt8 := key.as_prefix ++ key.serialize_content

def as_map_key (key : MapKey) : String := Hex.to_hex key.bytes

def tag : MapKey → UInt8
  | Path _ _ => 0x70
  | Script _ => 0x73
  | Utxo _ => 0x75
  | RawTx _ => 0x72
  | Transaction _ => 0x74
  | LastIndex _ => 0x63
  | SyncTime => 0x6c
  | DescriptorChecksum _ => 0x64

theorem bytes_tag (key : MapKey) : ∃ rest, key.bytes = key.tag :: rest := by
  rcases key with ⟨_ | _, _⟩ | _ | _ | _ | _ | _ | _ | _ <;> exact ⟨_, rfl⟩

theorem tag_of_as_map_key {key key' : MapKey} (h : key.as_map_key = key'.as_map_key) : key.tag = key'.tag := by
  obtain ⟨rest, hp⟩ := key.bytes_tag
  obtain ⟨rest', hp'⟩ := key'.bytes_tag
  have hb := Hex.to_hex_injective h
  rw [hp, hp'] at hb
  exact (List.cons.inj hb).1

/-- The keys of the records begin with the first digit of their tag. -/
theorem as_map_key_head (key : MapKey) :
    key.as_map_key.toList.head? = some '6' ∨ key.as_map_key.toList.head? = some '7' := by
  obtain ⟨rest, hp⟩ := key.bytes_tag
  have hh : key.as_map_key.toList.head? = some (Nat.digitChar (key.tag.toNat / 16)) := by
    simp [as_map_key, hp, Hex.to_hex, Hex.byte]
  rw [hh]
  cases key <;> simp only [tag] <;> decide

theorem as_map_key_ne (key : MapKey) {name : String}
    (h : name.toList.head? ≠ some '6' ∧ name.toList.head? ≠ some '7') : key.as_map_key ≠ name := by
  rintro rfl
  rcases key.as_map_key_head with h' | h'
  · exact h.1 h'
  · exact h.2 h'

end MapKey

structure ScriptPubKeyInfo where
  keychain : KeychainKind
  path : UInt32
  deriving DecidableEq, Repr

section
variable [Serde String] (host : Host) (storage : MutinyBrowserStorage)

def check_descriptor_checksum [Serde (List UInt8)] (keychain : KeychainKind) (bytes : List UInt8) :
    StorageM BdkError Unit := do
  let key := (MapKey.DescriptorChecksum keychain).as_map_key
  let prev ← result (storage.get host key)
  match prev.toOption with
  | some val => if val = bytes then return () else throw (.err .ChecksumMismatch)
  | none => convert .from_storage (storage.set host key bytes)

/-! ## `impl BatchOperations` -/

section
variable [Serde Script]

def set_script_pubkey [Serde ScriptPubKeyInfo] (script : Script) (keychain : KeychainKind) (path : UInt32) :
    StorageM BdkError Unit := do
  let key := (MapKey.Path (some keychain) (some path)).as_map_key
  convert .from_storage (storage.set host key script)
  let key := (MapKey.Script (some script)).as_map_key
  let spk_info : ScriptPubKeyInfo := { keychain, path }
  convert .from_storage (storage.set host key spk_info)

def del_script_pubkey_from_path (keychain : KeychainKind) (path : UInt32) : StorageM BdkError (Option Script) := do
  let key := (MapKey.Path (some keychain) (some path)).as_map_key
  let res ← ok (storage.get host key)
  LocalStorage.delete key
  return res

/-! ## `impl Database` for scripts -/

def iter_script_pubkeys (keychain : Option KeychainKind) : StorageM BdkError (List Script) := do
  let key := (MapKey.Path keychain none).as_map_key
  let map : AList fun _ : String => Script ← storage.scan host key none
  return host.order (map.entries.map (·.2))

def get_script_pubkey_from_path (keychain : KeychainKind) (path : UInt32) : StorageM BdkError (Option Script) :=
  ok (storage.get host (MapKey.Path (some keychain) (some path)).as_map_key)

end

section
variable [Serde ScriptPubKeyInfo]

def del_path_from_script_pubkey (script : Script) : StorageM BdkError (Option (KeychainKind × UInt32)) := do
  let key := (MapKey.Script (some script)).as_map_key
  let res : Option ScriptPubKeyInfo ← ok (storage.get host key)
  LocalStorage.delete key
  match res with
  | none => return none
  | some spk_info => return some (spk_info.keychain, spk_info.path)

def get_path_from_script_pubkey (script : Script) : StorageM BdkError (Option (KeychainKind × UInt32)) := do
  let res : Option ScriptPubKeyInfo ← ok (storage.get host (MapKey.Script (some script)).as_map_key)
  return res.map fun info => (info.keychain, info.path)

end

/-! ## Unspent outputs -/

section
variable [Serde LocalUtxo]

def set_utxo (utxo : LocalUtxo) : StorageM BdkError Unit :=
  convert .from_storage (storage.set host (MapKey.Utxo (some utxo.outpoint)).as_map_key utxo)

def del_utxo (outpoint : Bitcoin.OutPoint) : StorageM BdkError (Option LocalUtxo) := do
  let key := (MapKey.Utxo (some outpoint)).as_map_key
  let res ← ok (storage.get host key)
  LocalStorage.delete key
  return res

def iter_utxos : StorageM BdkError (List LocalUtxo) := do
  let map : AList fun _ : String => LocalUtxo ← storage.scan host (MapKey.Utxo none).as_map_key none
  return host.order (map.entries.map (·.2))

def get_utxo (outpoint : Bitcoin.OutPoint) : StorageM BdkError (Option LocalUtxo) :=
  ok (storage.get host (MapKey.Utxo (some outpoint)).as_map_key)

end

/-! ## Transactions -/

section
variable {Transaction : Type} [Serde Transaction]

def set_raw_tx (txid : Transaction → Bitcoin.Txid) (transaction : Transaction) : StorageM BdkError Unit :=
  convert .from_storage (storage.set host (MapKey.RawTx (some (txid transaction))).as_map_key transaction)

def del_raw_tx (txid : Bitcoin.Txid) : StorageM BdkError (Option Transaction) := do
  let key := (MapKey.RawTx (some txid)).as_map_key
  let res ← ok (storage.get host key)
  LocalStorage.delete key
  return res

def iter_raw_txs : StorageM BdkError (List Transaction) := do
  let map : AList fun _ : String => Transaction ← storage.scan host (MapKey.RawTx none).as_map_key none
  return host.order (map.entries.map (·.2))

def get_raw_tx (txid : Bitcoin.Txid) : StorageM BdkError (Option Transaction) :=
  ok (storage.get host (MapKey.RawTx (some txid)).as_map_key)

variable [Serde (TransactionDetails Transaction)]

def set_tx (txid : Transaction → Bitcoin.Txid) (transaction : TransactionDetails Transaction) : StorageM BdkError Unit := do
  let key := (MapKey.Transaction (some transaction.txid)).as_map_key
  -- insert the raw_tx if present
  match transaction.transaction with
  | some tx => set_raw_tx host storage txid tx
  | none => pure ()
  -- remove the raw tx from the serialized version
  let transaction : TransactionDetails Transaction := { transaction with transaction := none }
  convert .from_storage (storage.set host key transaction)

def del_tx (txid : Bitcoin.Txid) (include_raw : Bool) : StorageM BdkError (Option (TransactionDetails Transaction)) := do
  let raw_tx : Option Transaction ← if include_raw then del_raw_tx host storage txid else pure none
  let key := (MapKey.Transaction (some txid)).as_map_key
  let res : Option (TransactionDetails Transaction) ← ok (storage.get host key)
  LocalStorage.delete key
  match res with
  | none => return none
  | some val => return some { val with transaction := raw_tx }

/-- The txid at the end of a key of `iter_txs`: the two digits of the tag are dropped. -/
def txid_of_key (key : String) : Except BdkError Bitcoin.Txid :=
  match key.toList with
  | _ :: _ :: rm_prefix =>
    match Hex.read_bytes rm_prefix with
    | none => .error .Hex
    | some k_bytes =>
      match deserialize_txid k_bytes with
      | none => .error .Encode
      | some txid => .ok txid
  | _ => .error .Generic

/-- One item of `iter_txs`. -/
def iter_tx (include_raw : Bool) (key : String) (tx_details : TransactionDetails Transaction) :
    StorageM BdkError (TransactionDetails Transaction) :=
  if include_raw then
    match txid_of_key key with
    | .error e => throw (.err e)
    | .ok txid => do
      let transaction ← get_raw_tx host storage txid
      return { tx_details with transaction }
  else return tx_details

def iter_txs (include_raw : Bool) : StorageM BdkError (List (TransactionDetails Transaction)) := do
  let map : AList fun _ : String => TransactionDetails Transaction ←
    storage.scan host (MapKey.Transaction none).as_map_key none
  (host.order map.entries).mapM fun item => iter_tx host storage include_raw item.1 item.2

def get_tx (txid : Bitcoin.Txid) (include_raw : Bool) : StorageM BdkError (Option (TransactionDetails Transaction)) := do
  let res : Option (TransactionDetails Transaction) ←
    ok (storage.get host (MapKey.Transaction (some txid)).as_map_key)
  match res with
  | none => return none
  | some txdetails =>
    if include_raw then
      let transaction ← get_raw_tx host storage txid
      return some { txdetails with transaction }
    else return some txdetails

end

/-! ## The last index and the sync time -/

section
variable [Serde UInt32]

def set_last_index (keychain : KeychainKind) (value : UInt32) : StorageM BdkError Unit :=
  convert .from_storage (storage.set host (MapKey.LastIndex keychain).as_map_key value)

def del_last_index (keychain : KeychainKind) : StorageM BdkError (Option UInt32) := do
  let key := (MapKey.LastIndex keychain).as_map_key
  let res ← ok (storage.get host key)
  LocalStorage.delete key
  return res

def get_last_index (keychain : KeychainKind) : StorageM BdkError (Option UInt32) :=
  ok (storage.get host (MapKey.LastIndex keychain).as_map_key)

/-- The addition wraps, as in a release build. -/
def increment_last_index (keychain : KeychainKind) : StorageM BdkError UInt32 := do
  let key := (MapKey.LastIndex keychain).as_map_key
  let current_opt : Option UInt32 ← ok (storage.get host key)
  let value := (current_opt.map fun s => s + 1).getD 0
  convert .from_storage (storage.set host key value)
  return value

end

section
variable [Serde SyncTime]

def set_sync_time (data : SyncTime) : StorageM BdkError Unit :=
  convert .from_storage (storage.set host MapKey.SyncTime.as_map_key data)

def del_sync_time : StorageM BdkError (Option SyncTime) := do
  let key := MapKey.SyncTime.as_map_key
  let res ← ok (storage.get host key)
  LocalStorage.delete key
  return res

def get_sync_time : StorageM BdkError (Option SyncTime) := ok (storage.get host MapKey.SyncTime.as_map_key)

end

end

end Mutiny
