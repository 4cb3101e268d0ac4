import Mutiny.BdkStorage
import Mutiny.Persister

/-!
# Opening the wallet (`keymanager.rs`, `wallet.rs`, `node.rs`, `nodemanager.rs`)

`NodeManager.new` with all the steps behind it that read or write the browser store, in the order of the source. The
store is not rolled back when a step fails. `MutinyJsError` repeats the cases of `MutinyError` and is not a type of
its own.
-/

namespace Mutiny

open Prog

/-! ## `keymanager.rs` -/

section
variable {Mnemonic Keys Monitor Manager ε : Type}

/-- `getrandom n` fills a buffer of `n` bytes, if it can. -/
def generate_words (bip39 : Bip39 Mnemonic) (getrandom : Nat → Option (List UInt8)) (size : Nat) :
    Except MutinyError Mnemonic :=
  match getrandom size with
  | none => .error .SeedGenerationFailed
  | some entropy =>
    match bip39.from_entropy entropy with
    | none => .error .SeedGenerationFailed
    | some mnemonic => .ok mnemonic

def generate_24_word_seed (bip39 : Bip39 Mnemonic) (getrandom : Nat → Option (List UInt8)) :
    Except MutinyError Mnemonic :=
  generate_words bip39 getrandom 32

def generate_12_word_seed (bip39 : Bip39 Mnemonic) (getrandom : Nat → Option (List UInt8)) :
    Except MutinyError Mnemonic :=
  generate_words bip39 getrandom 16

def generate_seed (bip39 : Bip39 Mnemonic) (getrandom : Nat → Option (List UInt8)) (num_words : UInt8) :
    Except MutinyError Mnemonic :=
  if num_words = 12 then generate_12_word_seed bip39 getrandom
  else if num_words = 24 then generate_24_word_seed bip39 getrandom
  else .error .SeedGenerationFailed

def create_keys_manager (ldk : Ldk Mnemonic Keys Monitor Manager) (mnemonic : Mnemonic) (child_index : UInt32) :
    StorageM ε Keys :=
  match ldk.derive mnemonic child_index with
  | none => throw .panic
  | some keys_manager => return keys_manager

end

/-! ## `wallet.rs` -/

/-- The checksums of a keychain's descriptor, which `Wallet::new` gives the database in turn until it takes one;
`none` where deriving the descriptors panics. -/
structure Bdk (Mnemonic : Type) where
  checksums : Mnemonic → Network → Option (KeychainKind → List (List UInt8))

section
variable [Serde String] [Serde (List UInt8)] (host : Host) {Mnemonic ε : Type} (bdk : Bdk Mnemonic)

/-- The check of a keychain in BDK's `Wallet::new`. -/
def db_checksum (storage : MutinyBrowserStorage) (keychain : KeychainKind) : List (List UInt8) → StorageM BdkError Unit
  | [] => throw (.err .ChecksumMismatch)
  | bytes :: rest => do
    match ← result (check_descriptor_checksum host storage keychain bytes) with
    | .ok _ => return ()
    | .error _ => db_checksum storage keychain rest

def MutinyWallet.new (mnemonic : Mnemonic) (database : MutinyBrowserStorage) (network : Network) : StorageM ε Unit :=
  match bdk.checksums mnemonic network with
  | none => throw .panic
  | some checksums => expect do
    db_checksum host database .External (checksums .External)
    db_checksum host database .Internal (checksums .Internal)

end

/-! ## `proxy.rs` and `node.rs` -/

def mutiny_conn_proxy_to_url (proxy_url peer_pubkey : String) : String := proxy_url ++ "/v1/mutiny/" ++ peer_pubkey

/-- `WsProxy::new` for a node's own connection to the proxy. -/
def WsProxy.new (net : Net) (url pubkey : String) : StorageM MutinyError Unit :=
  if net.opens (mutiny_conn_proxy_to_url url pubkey) then return () else throw (.err .ConnectionFailed)

structure Node (Keys Monitor Manager : Type) where
  _uuid : String
  pubkey : String
  keys_manager : Keys
  channel_manager : Manager
  chain_monitor : List Monitor

section
variable [Serde String] [Serde (List UInt8)] (host : Host) {Mnemonic Keys Monitor Manager : Type}
  (ldk : Ldk Mnemonic Keys Monitor Manager)

/-- The monitors are given to the chain monitor only when a channel manager was read. -/
def Node.watch_channels {ε : Type} (persister : MutinyNodePersister) (read : ReadChannelManager Monitor Manager) :
    StorageM ε (List Monitor) :=
  if read.is_restarting then read.channel_monitors.foldlM (persister.watch_channel host ldk) [] else return []

def Node.new (node_index : NodeIndex) (mnemonic : Mnemonic) (storage : MutinyBrowserStorage) (network : Network)
    (websocket_proxy_addr : String) (net : Net) : StorageM MutinyError (Node Keys Monitor Manager) := do
  let keys_manager ← create_keys_manager ldk mnemonic node_index.child_index
  let pubkey := ldk.node_id keys_manager
  let persister : MutinyNodePersister := ⟨node_index.uuid, storage⟩
  let channel_monitors ← convert (fun _ => .ReadError .Other) (persister.read_channel_monitors host ldk keys_manager)
  let read_channel_manager ← persister.read_channel_manager host ldk network keys_manager channel_monitors net
  let chain_monitor ← Node.watch_channels host ldk persister read_channel_manager
  let _ ← persister.read_network_graph host
  WsProxy.new net websocket_proxy_addr pubkey
  return ⟨node_index.uuid, pubkey, keys_manager, read_channel_manager.channel_manager, chain_monitor⟩

/-! ## `NodeManager::new` -/

structure NodeManager (Mnemonic Keys Monitor Manager : Type) where
  mnemonic : Mnemonic
  network : Network
  websocket_proxy_addr : String
  storage : MutinyBrowserStorage
  node_storage : NodeStorage
  nodes : AList fun _ : String => Node Keys Monitor Manager

/-- What an opening is given besides the store: the crates it calls, and the network while the node at each place of
the iteration is opened. -/
structure Opening (Mnemonic Keys Monitor Manager : Type) where
  bip39 : Bip39 Mnemonic
  bdk : Bdk Mnemonic
  ldk : Ldk Mnemonic Keys Monitor Manager
  getrandom : Nat → Option (List UInt8)
  net : Nat → Net

variable [Serde NodeStorage] (opening : Opening Mnemonic Keys Monitor Manager)

namespace NodeManager

/-- The seed the wallet is opened with. -/
def seed (storage : MutinyBrowserStorage) (mnemonic : Option String) : StorageM MutinyError Mnemonic := do
  match mnemonic with
  | some m =>
    match opening.bip39.from_str m with
    | none => throw (.err .InvalidMnemonic)
    | some seed => storage.insert_mnemonic opening.bip39 host seed
  | none =>
    match ← result (storage.get_mnemonic opening.bip39 host) with
    | .ok mnemonic => return mnemonic
    | .error _ =>
      match generate_seed opening.bip39 opening.getrandom 12 with
      | .error e => throw (.err e)
      | .ok seed => storage.insert_mnemonic opening.bip39 host seed

def open_nodes (mnemonic : Mnemonic) (storage : MutinyBrowserStorage) (network : Network)
    (websocket_proxy_addr : String) (nodes : List (NodeIndex × Net)) :
    StorageM MutinyError (AList fun _ : String => Node Keys Monitor Manager) :=
  nodes.foldlM (fun nodes_map node_item => do
    let node ← Node.new host opening.ldk node_item.1 mnemonic storage network websocket_proxy_addr node_item.2
    return nodes_map.insert (opening.ldk.node_id node.keys_manager) node) ∅

/-- The entries of the node list in the order they are walked, with what the network does meanwhile. -/
def node_items (node_storage : NodeStorage) : List (NodeIndex × Net) :=
  (host.order node_storage.nodes.entries).mapIdx fun i node_item => (node_item.2, opening.net i)

def open_wallet (mnemonic : Mnemonic) (storage : MutinyBrowserStorage) (network : Network)
    (websocket_proxy_addr : String) : StorageM MutinyError (NodeManager Mnemonic Keys Monitor Manager) := do
  MutinyWallet.new host opening.bdk mnemonic storage network
  let node_storage ← convert (fun _ => .ReadError .Other) MutinyBrowserStorage.get_nodes
  let nodes_map ← open_nodes host opening mnemonic storage network websocket_proxy_addr (node_items host opening node_storage)
  return ⟨mnemonic, network, websocket_proxy_addr, storage, node_storage, nodes_map⟩

def new (password : String) (mnemonic websocket_proxy_addr network_str : Option String) :
    StorageM MutinyError (NodeManager Mnemonic Keys Monitor Manager) := do
  let websocket_proxy_addr := websocket_proxy_addr.getD "wss://p.mutinywallet.com"
  match Network.parse (network_str.getD "testnet") with
  | none => throw .panic
  | some network =>
    let storage : MutinyBrowserStorage := ⟨password⟩
    let mnemonic ← seed host opening storage mnemonic
    open_wallet host opening mnemonic storage network websocket_proxy_addr

end NodeManager

end

end Mutiny
