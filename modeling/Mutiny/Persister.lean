import Mutiny.Storage

/-!
# The storage of a node (`ldkstorage.rs`)

Every node keeps its LDK state under keys that end in its identifier. Reading and writing the objects themselves is
LDK's, so an `Ldk` says which bytes it accepts.
-/

namespace Mutiny

open Prog

inductive Network where
  | Bitcoin
  | Testnet
  | Signet
  | Regtest
  deriving DecidableEq, Repr

/-- `Network::from_str`. -/
def Network.parse (s : String) : Option Network :=
  if s = "bitcoin" then some .Bitcoin
  else if s = "testnet" then some .Testnet
  else if s = "signet" then some .Signet
  else if s = "regtest" then some .Regtest
  else none

abbrev BestBlock := Nat × String

/-- What LDK and the key derivation make of their inputs; `none` where reading fails, and for `derive` where the code
panics. -/
structure Ldk (Mnemonic Keys Monitor Manager : Type) where
  derive : Mnemonic → UInt32 → Option Keys
  node_id : Keys → String
  read_monitor : Keys → List UInt8 → Option Monitor
  write_monitor : Monitor → List UInt8
  /-- The funding output as `<txid>_<index>`. -/
  funding_txo : Monitor → String
  read_manager : Keys → List Monitor → List UInt8 → Option Manager
  new_manager : Keys → Network → BestBlock → Manager

/-- What the network and the nodes that already run do while a node is opened: the answer of the chain source, the
writes of the background processors while it is awaited (node, key and object), and which URLs can be opened. -/
structure Net where
  tip : Option BestBlock
  background : List (String × String × List UInt8)
  opens : String → Bool

structure MutinyNodePersister where
  node_id : String
  storage : MutinyBrowserStorage

structure ReadChannelManager (Monitor Manager : Type) where
  channel_manager : Manager
  is_restarting : Bool
  channel_monitors : List Monitor

namespace MutinyNodePersister

def get_key (persister : MutinyNodePersister) (key : String) : String := key ++ "_" ++ persister.node_id

section
variable [Serde String] [Serde (List UInt8)] (host : Host) (persister : MutinyNodePersister)

def read_value (key : String) : StorageM MutinyError (List UInt8) :=
  convert .read_err (persister.storage.get host (persister.get_key key))

/-- `KVStorePersister::persist`, for an object that was already encoded. -/
def persist (key : String) (object : List UInt8) : StorageM IoError Unit :=
  convert .other (persister.storage.set host (persister.get_key key) object)

/-- The bytes the network graph is read from; without them, or where LDK cannot read them, it starts empty. -/
def read_network_graph {ε : Type} : StorageM ε (Option (List UInt8)) := do
  match ← result (persister.read_value host "network") with
  | .ok kv_value => return some kv_value
  | .error _ => return none

variable {Mnemonic Keys Monitor Manager : Type} (ldk : Ldk Mnemonic Keys Monitor Manager)

def read_channel_monitors (keys_manager : Keys) : StorageM IoError (List Monitor) := do
  let channel_monitor_list : AList fun _ : String => List UInt8 ←
    persister.storage.scan host "monitors/" (some persister.node_id)
  (host.order channel_monitor_list.entries).foldlM (fun accum entry =>
    match ldk.read_monitor keys_manager entry.2 with
    | some channel_monitor => return accum ++ [channel_monitor]
    | none => throw (.err .InvalidData)) []

/-- The background processors' writes; what LDK does when one fails is not followed. -/
def run_background {ε : Type} (writes : List (String × String × List UInt8)) : StorageM ε Unit :=
  writes.forM fun w => do
    let _ ← result (persist host ⟨w.1, persister.storage⟩ w.2.1 w.2.2)

def read_channel_manager (network : Network) (keys_manager : Keys) (channel_monitors : List Monitor) (net : Net) :
    StorageM MutinyError (ReadChannelManager Monitor Manager) := do
  match ← result (persister.read_value host "manager") with
  | .ok kv_value =>
    match ldk.read_manager keys_manager channel_monitors kv_value with
    | none => throw (.err (.ReadError .Other))
    | some channel_manager => return ⟨channel_manager, true, channel_monitors⟩
  | .error _ =>
    -- no key manager stored, start a new one
    persister.run_background host net.background
    match net.tip with
    | none => throw (.err .ChainAccessFailed)
    | some tip => return ⟨ldk.new_manager keys_manager network tip, false, channel_monitors⟩

/-- `ChainMonitor::watch_channel`, on the monitors that are already watched: a second monitor of one channel is not
taken, and neither is one that cannot be persisted. -/
def watch_channel {ε : Type} (watched : List Monitor) (monitor : Monitor) : StorageM ε (List Monitor) := do
  if ldk.funding_txo monitor ∈ watched.map ldk.funding_txo then return watched
  match ← result (persister.persist host ("monitors/" ++ ldk.funding_txo monitor) (ldk.write_monitor monitor)) with
  | .ok _ => return watched ++ [monitor]
  | .error _ => return watched

end

end MutinyNodePersister

theorem get_key_injective (persister : MutinyNodePersister) {key key' : String}
    (hk : persister.get_key key = persister.get_key key') : key = key' :=
  (String.append_left_inj _).mp ((String.append_left_inj _).mp hk)

end Mutiny
