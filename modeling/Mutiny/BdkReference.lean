import Mathlib.Data.List.AList
import Mutiny.BdkStorage

/-!
# What BDK's database is meant to be

The reference database is a family of maps, one for each kind of record, which know nothing of each other. `DbCall`
is a call of `BatchOperations` or `Database`; it runs on the browser store (`DbCall.exec`) and on the reference
(`Memory.call`). Lists are answered in some order.
-/

namespace Mutiny

open Prog Bitcoin

/-! ## The maps -/

inductive Kind where
  | path
  | script
  | utxo
  | raw_tx
  | tx
  | last_index
  | checksum
  | sync_time
  deriving DecidableEq

namespace Kind

abbrev Key : Kind → Type
  | path => KeychainKind × UInt32
  | script => Script
  | utxo => Bitcoin.OutPoint
  | raw_tx => Bitcoin.Txid
  | tx => Bitcoin.Txid
  | last_index => KeychainKind
  | checksum => KeychainKind
  | sync_time => Unit

abbrev Val (Transaction : Type) : Kind → Type
  | path => Script
  | script => ScriptPubKeyInfo
  | utxo => LocalUtxo
  | raw_tx => Transaction
  | tx => TransactionDetails Transaction
  | last_index => UInt32
  | checksum => List UInt8
  | sync_time => SyncTime

instance : ∀ kind : Kind, DecidableEq kind.Key
  | path => inferInstanceAs (DecidableEq (KeychainKind × UInt32))
  | script => inferInstanceAs (DecidableEq Script)
  | utxo => inferInstanceAs (DecidableEq Bitcoin.OutPoint)
  | raw_tx => inferInstanceAs (DecidableEq Bitcoin.Txid)
  | tx => inferInstanceAs (DecidableEq Bitcoin.Txid)
  | last_index => inferInstanceAs (DecidableEq KeychainKind)
  | checksum => inferInstanceAs (DecidableEq KeychainKind)
  | sync_time => inferInstanceAs (DecidableEq Unit)

end Kind

def Memory (Transaction : Type) := ∀ kind : Kind, AList fun _ : kind.Key => kind.Val Transaction

/-! ## The calls -/

inductive DbCall (Transaction : Type) where
  | set_script_pubkey (script : Script) (keychain : KeychainKind) (path : UInt32)
  | set_utxo (utxo : LocalUtxo)
  | set_raw_tx (transaction : Transaction)
  | set_tx (transaction : TransactionDetails Transaction)
  | set_last_index (keychain : KeychainKind) (value : UInt32)
  | set_sync_time (data : SyncTime)
  | del_script_pubkey_from_path (keychain : KeychainKind) (path : UInt32)
  | del_path_from_script_pubkey (script : Script)
  | del_utxo (outpoint : Bitcoin.OutPoint)
  | del_raw_tx (txid : Bitcoin.Txid)
  | del_tx (txid : Bitcoin.Txid) (include_raw : Bool)
  | del_last_index (keychain : KeychainKind)
  | del_sync_time
  | check_descriptor_checksum (keychain : KeychainKind) (bytes : List UInt8)
  | iter_script_pubkeys (keychain : Option KeychainKind)
  | iter_utxos
  | iter_raw_txs
  | iter_txs (include_raw : Bool)
  | get_script_pubkey_from_path (keychain : KeychainKind) (path : UInt32)
  | get_path_from_script_pubkey (script : Script)
  | get_utxo (outpoint : Bitcoin.OutPoint)
  | get_raw_tx (txid : Bitcoin.Txid)
  | get_tx (txid : Bitcoin.Txid) (include_raw : Bool)
  | get_last_index (keychain : KeychainKind)
  | get_sync_time
  | increment_last_index (keychain : KeychainKind)

inductive Answer (Transaction : Type) where
  | unit
  | script (res : Option Script)
  | path (res : Option (KeychainKind × UInt32))
  | utxo (res : Option LocalUtxo)
  | raw_tx (res : Option Transaction)
  | tx (res : Option (TransactionDetails Transaction))
  | last_index (res : Option UInt32)
  | sync_time (res : Option SyncTime)
  | new_index (value : UInt32)
  | scripts (l : List Script)
  | utxos (l : List LocalUtxo)
  | raw_txs (l : List Transaction)
  | txs (l : List (TransactionDetails Transaction))

variable {Transaction : Type}

/-- The same answer, with lists in any order. -/
inductive Answer.Same : Answer Transaction → Answer Transaction → Prop
  | refl (a : Answer Transaction) : Same a a
  | scripts {l l' : List Script} (h : l.Perm l') : Same (.scripts l) (.scripts l')
  | utxos {l l' : List LocalUtxo} (h : l.Perm l') : Same (.utxos l) (.utxos l')
  | raw_txs {l l' : List Transaction} (h : l.Perm l') : Same (.raw_txs l) (.raw_txs l')
  | txs {l l' : List (TransactionDetails Transaction)} (h : l.Perm l') : Same (.txs l) (.txs l')

/-- A result of the code and one of the reference; the reference never panics. -/
inductive Agrees : Except (Fault BdkError) (Answer Transaction) → Except BdkError (Answer Transaction) → Prop
  | ok {a b : Answer Transaction} (h : a.Same b) : Agrees (.ok a) (.ok b)
  | err (e : BdkError) : Agrees (.error (.err e)) (.error e)

/-! ## The calls on the browser store -/

section
variable [Serde String] [Serde Script] [Serde ScriptPubKeyInfo] [Serde LocalUtxo] [Serde Transaction]
  [Serde (TransactionDetails Transaction)] [Serde UInt32] [Serde (List UInt8)] [Serde SyncTime] (host : Host)
  (storage : MutinyBrowserStorage) (txid_of : Transaction → Bitcoin.Txid)

def DbCall.exec : DbCall Transaction → StorageM BdkError (Answer Transaction)
  | .set_script_pubkey script keychain path => do
    Mutiny.set_script_pubkey host storage script keychain path
    return .unit
  | .set_utxo utxo => do
    Mutiny.set_utxo host storage utxo
    return .unit
  | .set_raw_tx transaction => do
    Mutiny.set_raw_tx host storage txid_of transaction
    return .unit
  | .set_tx transaction => do
    Mutiny.set_tx host storage txid_of transaction
    return .unit
  | .set_last_index keychain value => do
    Mutiny.set_last_index host storage keychain value
    return .unit
  | .set_sync_time data => do
    Mutiny.set_sync_time host storage data
    return .unit
  | .del_script_pubkey_from_path keychain path =>
    return .script (← Mutiny.del_script_pubkey_from_path host storage keychain path)
  | .del_path_from_script_pubkey script => return .path (← Mutiny.del_path_from_script_pubkey host storage script)
  | .del_utxo outpoint => return .utxo (← Mutiny.del_utxo host storage outpoint)
  | .del_raw_tx txid => return .raw_tx (← Mutiny.del_raw_tx host storage txid)
  | .del_tx txid include_raw => return .tx (← Mutiny.del_tx host storage txid include_raw)
  | .del_last_index keychain => return .last_index (← Mutiny.del_last_index host storage keychain)
  | .del_sync_time => return .sync_time (← Mutiny.del_sync_time host storage)
  | .check_descriptor_checksum keychain bytes => do
    Mutiny.check_descriptor_checksum host storage keychain bytes
    return .unit
  | .iter_script_pubkeys keychain => return .scripts (← Mutiny.iter_script_pubkeys host storage keychain)
  | .iter_utxos => return .utxos (← Mutiny.iter_utxos host storage)
  | .iter_raw_txs => return .raw_txs (← Mutiny.iter_raw_txs host storage)
  | .iter_txs include_raw => return .txs (← Mutiny.iter_txs host storage include_raw)
  | .get_script_pubkey_from_path keychain path =>
    return .script (← Mutiny.get_script_pubkey_from_path host storage keychain path)
  | .get_path_from_script_pubkey script => return .path (← Mutiny.get_path_from_script_pubkey host storage script)
  | .get_utxo outpoint => return .utxo (← Mutiny.get_utxo host storage outpoint)
  | .get_raw_tx txid => return .raw_tx (← Mutiny.get_raw_tx host storage txid)
  | .get_tx txid include_raw => return .tx (← Mutiny.get_tx host storage txid include_raw)
  | .get_last_index keychain => return .last_index (← Mutiny.get_last_index host storage keychain)
  | .get_sync_time => return .sync_time (← Mutiny.get_sync_time host storage)
  | .increment_last_index keychain => return .new_index (← Mutiny.increment_last_index host storage keychain)

def DbCall.results : List (DbCall Transaction) → Store → List (Except (Fault BdkError) (Answer Transaction))
  | [], _ => []
  | call :: calls, store =>
    let r := Prog.exec (call.exec host storage txid_of) store
    r.1 :: DbCall.results calls r.2

end

/-! ## The calls on the reference -/

namespace Memory

def empty : Memory Transaction := fun _ => ∅

section
variable (mem : Memory Transaction)

def get (kind : Kind) (k : kind.Key) : Option (kind.Val Transaction) := (mem kind).lookup k

def set (kind : Kind) (k : kind.Key) (v : kind.Val Transaction) : Memory Transaction :=
  Function.update mem kind ((mem kind).insert k v)

def del (kind : Kind) (k : kind.Key) : Memory Transaction := Function.update mem kind ((mem kind).erase k)

def values (kind : Kind) : List (kind.Val Transaction) := (mem kind).entries.map (·.2)

/-- The details with the raw transaction, if it is asked for. -/
def join (include_raw : Bool) (txid : Bitcoin.Txid) (details : TransactionDetails Transaction) :
    TransactionDetails Transaction :=
  if include_raw then { details with transaction := mem.get .raw_tx txid } else details

variable (txid_of : Transaction → Bitcoin.Txid)

def set_tx (details : TransactionDetails Transaction) : Memory Transaction :=
  let mem :=
    match details.transaction with
    | some tx => mem.set .raw_tx (txid_of tx) tx
    | none => mem
  mem.set .tx details.txid { details with transaction := none }

/-- Deleting details gives them without the raw transaction, unless that is deleted too. -/
def del_tx (txid : Bitcoin.Txid) (include_raw : Bool) : Option (TransactionDetails Transaction) × Memory Transaction :=
  let res := (mem.get .tx txid).map fun details =>
    { details with transaction := if include_raw then mem.get .raw_tx txid else none }
  let mem := if include_raw then mem.del .raw_tx txid else mem
  (res, mem.del .tx txid)

def call : DbCall Transaction → Except BdkError (Answer Transaction) × Memory Transaction
  | .set_script_pubkey script keychain path =>
    (.ok .unit, (mem.set .path (keychain, path) script).set .script script ⟨keychain, path⟩)
  | .set_utxo utxo => (.ok .unit, mem.set .utxo utxo.outpoint utxo)
  | .set_raw_tx transaction => (.ok .unit, mem.set .raw_tx (txid_of transaction) transaction)
  | .set_tx transaction => (.ok .unit, mem.set_tx txid_of transaction)
  | .set_last_index keychain value => (.ok .unit, mem.set .last_index keychain value)
  | .set_sync_time data => (.ok .unit, mem.set .sync_time () data)
  | .del_script_pubkey_from_path keychain path =>
    (.ok (.script (mem.get .path (keychain, path))), mem.del .path (keychain, path))
  | .del_path_from_script_pubkey script =>
    (.ok (.path ((mem.get .script script).map fun info => (info.keychain, info.path))), mem.del .script script)
  | .del_utxo outpoint => (.ok (.utxo (mem.get .utxo outpoint)), mem.del .utxo outpoint)
  | .del_raw_tx txid => (.ok (.raw_tx (mem.get .raw_tx txid)), mem.del .raw_tx txid)
  | .del_tx txid include_raw => (.ok (.tx (mem.del_tx txid include_raw).1), (mem.del_tx txid include_raw).2)
  | .del_last_index keychain => (.ok (.last_index (mem.get .last_index keychain)), mem.del .last_index keychain)
  | .del_sync_time => (.ok (.sync_time (mem.get .sync_time ())), mem.del .sync_time ())
  | .check_descriptor_checksum keychain bytes =>
    match mem.get .checksum keychain with
    | some val => if val = bytes then (.ok .unit, mem) else (.error .ChecksumMismatch, mem)
    | none => (.ok .unit, mem.set .checksum keychain bytes)
  | .iter_script_pubkeys keychain =>
    (.ok (.scripts (((mem .path).entries.filter fun e => keychain.all (· = e.1.1)).map (·.2))), mem)
  | .iter_utxos => (.ok (.utxos (mem.values .utxo)), mem)
  | .iter_raw_txs => (.ok (.raw_txs (mem.values .raw_tx)), mem)
  | .iter_txs include_raw => (.ok (.txs ((mem .tx).entries.map fun e => mem.join include_raw e.1 e.2)), mem)
  | .get_script_pubkey_from_path keychain path => (.ok (.script (mem.get .path (keychain, path))), mem)
  | .get_path_from_script_pubkey script =>
    (.ok (.path ((mem.get .script script).map fun info => (info.keychain, info.path))), mem)
  | .get_utxo outpoint => (.ok (.utxo (mem.get .utxo outpoint)), mem)
  | .get_raw_tx txid => (.ok (.raw_tx (mem.get .raw_tx txid)), mem)
  | .get_tx txid include_raw => (.ok (.tx ((mem.get .tx txid).map (mem.join include_raw txid))), mem)
  | .get_last_index keychain => (.ok (.last_index (mem.get .last_index keychain)), mem)
  | .get_sync_time => (.ok (.sync_time (mem.get .sync_time ())), mem)
  | .increment_last_index keychain =>
    let value := ((mem.get .last_index keychain).map fun s => s + 1).getD 0
    (.ok (.new_index value), mem.set .last_index keychain value)

end

def results (txid_of : Transaction → Bitcoin.Txid) (mem : Memory Transaction) :
    List (DbCall Transaction) → List (Except BdkError (Answer Transaction))
  | [] => []
  | call :: calls =>
    let r := mem.call txid_of call
    r.1 :: results txid_of r.2 calls

end Memory

end Mutiny
