import Mathlib.Data.List.Sort
import Mathlib.Data.List.Dedup
import Mutiny.Error
import Mutiny.Machine
import Mutiny.Prog

/-!
# Chain synchronisation (`chain.rs`)

`MutinyChain` keeps the transactions and outputs LDK asked it to watch and feeds the `Confirm` objects from an
esplora server. Everything outside the file is an `Env`: the answer to each query, what the confirmables report, the
registrations that arrive while a query or a callback is under way, and the order in which a hash set is walked. The
queries are numbered by `World.now`, so an environment can answer the same question differently each time.
-/

namespace Mutiny

abbrev Txid := BitVec 256
abbrev BlockHash := BitVec 256

structure OutPoint where
  txid : Txid
  index : Nat
  deriving DecidableEq, Repr

structure WatchedOutput where
  block_hash : Option BlockHash
  outpoint : OutPoint
  script_pubkey : List UInt8
  deriving DecidableEq, Repr

/-- A block header, as far as it is told apart: by its hash. -/
structure BlockHeader where
  block_hash : BlockHash
  deriving DecidableEq, Repr

/-- `input` lists the outputs the transaction spends. -/
structure Transaction where
  txid : Txid
  input : List OutPoint
  deriving DecidableEq, Repr

/-! ## The chain source and the confirmables -/

structure BlockStatus where
  in_best_chain : Bool
  height : Option Nat
  deriving DecidableEq, Repr

structure MerkleProof where
  block_height : Nat
  pos : Nat
  deriving DecidableEq, Repr

structure TxStatus where
  block_hash : Option BlockHash
  block_height : Option Nat
  deriving DecidableEq, Repr

structure OutputStatus where
  txid : Option Txid
  status : Option TxStatus
  deriving DecidableEq, Repr

/-- The answer of the chain source to each query, by the number of the query. -/
structure Esplora where
  get_tip_hash : Nat → Except EsploraError BlockHash
  get_header_by_hash : Nat → BlockHash → Except EsploraError BlockHeader
  get_block_status : Nat → BlockHash → Except EsploraError BlockStatus
  get_merkle_proof : Nat → Txid → Except EsploraError (Option MerkleProof)
  get_block_hash : Nat → Nat → Except EsploraError BlockHash
  get_tx : Nat → Txid → Except EsploraError (Option Transaction)
  get_output_status : Nat → Txid → Nat → Except EsploraError (Option OutputStatus)

inductive Registration where
  | tx (txid : Txid)
  | output (output : WatchedOutput)
  deriving DecidableEq, Repr

structure Env extends Esplora where
  /-- What `get_relevant_txids` of a confirmable returns. -/
  relevant : Nat → Nat → List (Txid × Option BlockHash)
  /-- The registrations made while a query or a callback runs. -/
  arrivals : Nat → List Registration
  /-- The order in which a set is walked. -/
  iter : Nat → {α : Type} → List α → List α
  iter_perm : ∀ n {α : Type} (l : List α), (iter n l).Perm l

/-! ## State -/

structure MutinyChain where
  queued_transactions : List Txid
  watched_transactions : List Txid
  queued_outputs : List WatchedOutput
  watched_outputs : List WatchedOutput
  last_sync_hash : Option BlockHash
  deriving DecidableEq, Repr

def MutinyChain.new : MutinyChain := ⟨[], [], [], [], none⟩

abbrev Item := Registration

/-- What happened, for the statements about runs. No definition of the code reads it. -/
inductive Event where
  | registered (item : Item)
  | processed
  | best_block_updated (c : Nat) (header : BlockHeader) (height : Nat)
  | transactions_confirmed (c : Nat) (header : BlockHeader) (pos : Nat) (tx : Transaction) (height : Nat)
  | transaction_unconfirmed (c : Nat) (txid : Txid)
  | round
  | looked_up (item : Item)
  | synced (tip_hash : BlockHash)
  deriving DecidableEq, Repr

/-- `log` has the newest event first. -/
structure World where
  chain : MutinyChain
  now : Nat
  log : List Event
  deriving DecidableEq, Repr

def World.new : World := ⟨.new, 0, []⟩

def World.note (w : World) (e : Event) : World := { w with log := e :: w.log }

/-- `impl Filter for MutinyChain`. -/
def World.register (w : World) : Registration → World
  | .tx txid =>
    { w with
      chain := { w.chain with queued_transactions := w.chain.queued_transactions.insert txid }
      log := .registered (.tx txid) :: w.log }
  | .output output =>
    { w with
      chain := { w.chain with queued_outputs := w.chain.queued_outputs.insert output }
      log := .registered (.output output) :: w.log }

abbrev ChainM := Prog World MutinyError

/-- A point where other code of the wallet may run: registrations arrive. -/
def World.await (env : Env) (w : World) : World :=
  { (env.arrivals w.now).foldl World.register w with now := w.now + 1 }

def note (e : Event) : ChainM Unit := modify fun w => w.note e

def modify_chain (f : MutinyChain → MutinyChain) : ChainM Unit := modify fun w => { w with chain := f w.chain }

def query {α : Type} (env : Env) (answer : Nat → Except EsploraError α) : ChainM α := do
  let w ← get
  modify fun w => w.await env
  match answer w.now with
  | .ok a => return a
  | .error e => throw (MutinyError.from_esplora e)

/-- A call into a confirmable, which may register more items from inside it. -/
def callback (env : Env) (e : Event) : ChainM Unit := modify fun w => (w.note e).await env

/-! ## The functions of `MutinyChain` -/

structure ConfirmedTx where
  tx : Transaction
  block_header : BlockHeader
  block_height : Nat
  pos : Nat
  deriving DecidableEq, Repr

def process_queues : ChainM Bool := do
  let c := (← get).chain
  let pending_registrations := !c.queued_transactions.isEmpty || !c.queued_outputs.isEmpty
  modify_chain fun c =>
    { c with
      watched_transactions := c.queued_transactions ∪ c.watched_transactions
      queued_transactions := []
      watched_outputs := c.queued_outputs ∪ c.watched_outputs
      queued_outputs := [] }
  if pending_registrations then note .processed
  return pending_registrations

def sync_best_block_updated (env : Env) (confirmables : Nat) (tip_hash : BlockHash) : ChainM Unit := do
  let tip_header ← query env (env.get_header_by_hash · tip_hash)
  let tip_status ← query env (env.get_block_status · tip_hash)
  if tip_status.in_best_chain then
    match tip_status.height with
    | some tip_height =>
      (List.range confirmables).forM fun c => callback env (.best_block_updated c tip_header tip_height)
    | none => return ()
  else throw .ChainAccessFailed

/-- The loop body of `sync_confirmed_transactions`. -/
def confirm_transaction (env : Env) (confirmables : Nat) (ctx : ConfirmedTx) : ChainM Unit := do
  (List.range confirmables).forM fun c =>
    callback env (.transactions_confirmed c ctx.block_header ctx.pos ctx.tx ctx.block_height)
  modify_chain fun c =>
    { c with watched_transactions := c.watched_transactions.filter (· ≠ ctx.tx.txid) }

def sync_confirmed_transactions (env : Env) (confirmables : Nat) (confirmed_txs : List ConfirmedTx)
    (spent_outputs : List WatchedOutput) : ChainM Unit := do
  confirmed_txs.forM (confirm_transaction env confirmables)
  modify_chain fun c => { c with watched_outputs := c.watched_outputs.filter (· ∉ spent_outputs) }

def get_confirmed_tx (env : Env) (txid : Txid) (expected_block_hash : Option BlockHash)
    (known_block_height : Option Nat) : ChainM (Option ConfirmedTx) := do
  match ← query env (env.get_merkle_proof · txid) with
  | none => return none
  | some merkle_proof =>
    let block_hash ← query env (env.get_block_hash · merkle_proof.block_height)
    if expected_block_hash.any (· ≠ block_hash) then throw .ChainAccessFailed
    let block_header ← query env (env.get_header_by_hash · block_hash)
    match ← query env (env.get_tx · txid) with
    | none => return none
    | some tx =>
      match known_block_height with
      | some block_height =>
        if merkle_proof.block_height ≠ block_height then throw .ChainAccessFailed
        return some { tx, block_header, pos := merkle_proof.pos, block_height }
      | none =>
        return some { tx, block_header, pos := merkle_proof.pos, block_height := merkle_proof.block_height }

/-- The body of the first loop of `get_confirmed_transactions`. -/
def lookup_tx (env : Env) (confirmed_txs : List ConfirmedTx) (txid : Txid) : ChainM (List ConfirmedTx) := do
  let found ← get_confirmed_tx env txid none none
  note (.looked_up (.tx txid))
  return confirmed_txs ++ found.toList

/-- The confirmed transaction that spends a watched output, if there is one. -/
def get_spending_tx (env : Env) (output : WatchedOutput) : ChainM (Option ConfirmedTx) := do
  match ← query env (env.get_output_status · output.outpoint.txid output.outpoint.index) with
  | some ⟨some spending_txid, some spending_tx_status⟩ =>
    get_confirmed_tx env spending_txid spending_tx_status.block_hash spending_tx_status.block_height
  | _ => return none

/-- The body of the second loop of `get_confirmed_transactions`. -/
def lookup_output (env : Env) (acc : List ConfirmedTx × List WatchedOutput) (output : WatchedOutput) :
    ChainM (List ConfirmedTx × List WatchedOutput) := do
  let found ← get_spending_tx env output
  note (.looked_up (.output output))
  match found with
  | some confirmed_tx => return (acc.1 ++ [confirmed_tx], acc.2.insert output)
  | none => return acc

/-- First by block height, then by in-block position. -/
def ConfirmedTx.le (tx1 tx2 : ConfirmedTx) : Prop :=
  tx1.block_height < tx2.block_height ∨ tx1.block_height = tx2.block_height ∧ tx1.pos ≤ tx2.pos

instance : DecidableRel ConfirmedTx.le := fun _ _ => inferInstanceAs (Decidable (_ ∨ _))

def get_confirmed_transactions (env : Env) : ChainM (List ConfirmedTx × List WatchedOutput) := do
  note .round
  let w ← get
  let registered_txs := env.iter w.now w.chain.watched_transactions
  let confirmed_txs ← registered_txs.foldlM (lookup_tx env) []
  let w ← get
  let registered_outputs := env.iter w.now w.chain.watched_outputs
  let (confirmed_txs, spent_outputs) ← registered_outputs.foldlM (lookup_output env) (confirmed_txs, [])
  let w ← get
  return ((env.iter w.now confirmed_txs).insertionSort ConfirmedTx.le, spent_outputs)

/-- The loop body of `sync_unconfirmed_transactions`. -/
def unconfirm_transaction (env : Env) (confirmables : Nat) (relevant : Txid × Option BlockHash) :
    ChainM Unit := do
  let still_confirmed ← match relevant.2 with
    | some block_hash => (·.in_best_chain) <$> query env (env.get_block_status · block_hash)
    | none => pure false
  if still_confirmed then return ()
  (List.range confirmables).forM fun c => callback env (.transaction_unconfirmed c relevant.1)
  modify_chain fun c => { c with watched_transactions := c.watched_transactions.insert relevant.1 }

def sync_unconfirmed_transactions (env : Env) (confirmables : Nat) : ChainM Unit := do
  let w ← get
  let relevant_txids := ((List.range confirmables).flatMap (env.relevant w.now)).dedup
  (env.iter w.now relevant_txids).forM (unconfirm_transaction env confirmables)

/-- How an iteration of the loop of `sync` ends, if it does not return an error. -/
inductive Flow where
  | done
  | again (tip_hash : BlockHash)
  deriving DecidableEq, Repr

/-- The second half of an iteration of the loop of `sync`: look everything up, check the tip again, confirm. -/
def sync_round (env : Env) (confirmables : Nat) (tip_hash : BlockHash) : ChainM Flow := do
  match ← (get_confirmed_transactions env).attempt with
  | .ok (confirmed_txs, spent_outputs) =>
    let check_tip_hash ← query env env.get_tip_hash
    if check_tip_hash ≠ tip_hash then return .again check_tip_hash
    sync_confirmed_transactions env confirmables confirmed_txs spent_outputs
    modify_chain fun c => { c with last_sync_hash := some tip_hash }
    note (.synced tip_hash)
    return .again tip_hash
  | .error .ChainAccessFailed => return .again tip_hash
  | .error err => throw err

def sync_iteration (env : Env) (confirmables : Nat) (tip_hash : BlockHash) : ChainM Flow := do
  let registrations_are_pending ← process_queues
  let tip_is_new := some tip_hash ≠ (← get).chain.last_sync_hash
  if !registrations_are_pending && !tip_is_new then return .done
  if tip_is_new then
    sync_unconfirmed_transactions env confirmables
    match ← (sync_best_block_updated env confirmables tip_hash).attempt with
    | .ok () => sync_round env confirmables tip_hash
    | .error .ChainAccessFailed => return .again tip_hash
    | .error err => throw err
  else sync_round env confirmables tip_hash

/-- The loop of `sync`, for at most `fuel` iterations. -/
def sync_loop (env : Env) (confirmables : Nat) : Nat → BlockHash → World → Option (Except MutinyError Unit × World)
  | 0, _, _ => none
  | fuel + 1, tip_hash, w =>
    match (sync_iteration env confirmables tip_hash).exec w with
    | (.ok .done, w) => some (.ok (), w)
    | (.ok (.again tip_hash), w) => sync_loop env confirmables fuel tip_hash w
    | (.error e, w) => some (.error e, w)

/-- `MutinyChain::sync`; `none` when it has not returned after `fuel` iterations. -/
def sync (env : Env) (confirmables fuel : Nat) (w : World) : Option (Except MutinyError Unit × World) :=
  match (query env env.get_tip_hash).exec w with
  | (.ok tip_hash, w) => sync_loop env confirmables fuel tip_hash w
  | (.error e, w) => some (.error e, w)

/-! ## Runs: registrations and calls of `sync` -/

/-- The lock on `last_sync_hash` lets one call of `sync` run at a time. `before` is the log when it began. -/
inductive Call where
  | resting (last : Option (List Event × Except MutinyError Unit))
  | syncing (before : List Event) (tip_hash : BlockHash)
  deriving DecidableEq

structure Session where
  world : World
  call : Call
  deriving DecidableEq

def Session.new : Session := ⟨.new, .resting none⟩

inductive Act where
  | register (item : Registration)
  | begin_sync
  | iterate
  deriving DecidableEq, Repr

def chain_step (env : Env) (confirmables : Nat) (s : Session) : Act → Option Session
  | .register item => some { s with world := s.world.register item }
  | .begin_sync =>
    match s.call with
    | .syncing _ _ => none
    | .resting _ =>
      match (query env env.get_tip_hash).exec s.world with
      | (.ok tip_hash, w) => some ⟨w, .syncing s.world.log tip_hash⟩
      | (.error e, w) => some ⟨w, .resting (some (s.world.log, .error e))⟩
  | .iterate =>
    match s.call with
    | .resting _ => none
    | .syncing before tip_hash =>
      match (sync_iteration env confirmables tip_hash).exec s.world with
      | (.ok .done, w) => some ⟨w, .resting (some (before, .ok ()))⟩
      | (.ok (.again tip_hash), w) => some ⟨w, .syncing before tip_hash⟩
      | (.error e, w) => some ⟨w, .resting (some (before, .error e))⟩

def chain_machine (env : Env) (confirmables : Nat) : Machine Session Act := ⟨chain_step env confirmables⟩

end Mutiny
