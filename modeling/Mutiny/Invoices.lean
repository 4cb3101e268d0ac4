import Mutiny.Payment

/-!
# Invoices of all nodes (`nodemanager.rs`, `node.rs`, `event.rs`, `ldkstorage.rs`)

Every node keeps its payment records in the one browser store, under keys that end in its identifier. The functions of
the node manager walk the map of its nodes; a node is here what it does with its persister, and a list of nodes is the
map in the order in which it is walked.
-/

namespace Mutiny

open Prog

/-! ## What is not in the repository -/

/-- How invoices are read from their text, and when an invoice would be expired. -/
structure Bolt11 where
  from_str : String → Option Invoice
  would_expire : Invoice → UInt64 → Bool

/-- What makes the invoices of a node: its amount in msat, its description and the seconds until it expires. -/
structure InvoiceMaker (RouteHints : Type) where
  get_phantom_route_hints : MutinyNodePersister → RouteHints
  create_invoice_from_channelmanager : MutinyNodePersister → Option UInt64 → String → Nat → Option Invoice
  create_phantom_invoice : MutinyNodePersister → Option UInt64 → String → Nat → List RouteHints → Option Invoice

section
variable [Serde String] [Serde PaymentInfo] (host : Host)

/-! ## `ldkstorage.rs` -/

def payment_prefix_key (inbound : Bool) : String := if inbound then "payment_inbound/" else "payment_outbound/"

def list_payment_info {ε : Type} (persister : MutinyNodePersister) (inbound : Bool) :
    StorageM ε (List (String × PaymentInfo)) := do
  let map : AList fun _ : String => PaymentInfo ← persister.storage.scan host (payment_prefix_key inbound) none
  return host.order (map.entries.map fun e => (e.1, e.2))

/-! ## `event.rs` -/

inductive PaymentPurpose where
  | InvoicePayment (payment_preimage : Option PaymentPreimage) (payment_secret : Vector UInt8 32)
  | SpontaneousPayment (preimage : PaymentPreimage)
  deriving DecidableEq

def PaymentPurpose.parts : PaymentPurpose → Option PaymentPreimage × Option (Vector UInt8 32)
  | .InvoicePayment payment_preimage payment_secret => (payment_preimage, some payment_secret)
  | .SpontaneousPayment preimage => (some preimage, none)

/-- `EventHandler::handle_event` for `PaymentClaimed`. -/
def handle_payment_claimed {ε : Type} (persister : MutinyNodePersister) (payment_hash : PaymentHash)
    (purpose : PaymentPurpose) (amount_msat : UInt64) (now : UInt64) : StorageM ε Unit := do
  let (payment_preimage, payment_secret) := purpose.parts
  match ← persister.read_payment_info host payment_hash true with
  | some saved_payment_info =>
    let _ ← result <| persister.persist_payment_info host payment_hash
      { saved_payment_info with
        status := .Succeeded
        preimage := payment_preimage
        secret := payment_secret
        amt_msat := some amount_msat
        last_update := now } true
  | none =>
    let _ ← result <| persister.persist_payment_info host payment_hash
      { preimage := payment_preimage
        secret := payment_secret
        status := .Succeeded
        amt_msat := some amount_msat
        fee_paid_msat := none
        bolt11 := none
        last_update := now } true

/-! ## `node.rs` -/

namespace Node

variable {RouteHints : Type} (maker : InvoiceMaker RouteHints) (bolt11 : Bolt11) (node : MutinyNodePersister)

def create_invoice (amount_sat : Option UInt64) (description : String) (route_hints : Option (List RouteHints))
    (now : UInt64) : StorageM MutinyError Invoice := do
  let amount_msat := amount_sat.map fun s => s * 1000
  let invoice_res :=
    match route_hints with
    | none => maker.create_invoice_from_channelmanager node amount_msat description 1500
    | some r => maker.create_phantom_invoice node amount_msat description 1500 r
  match invoice_res with
  | none => throw (.err .InvoiceCreationFailed)
  | some invoice =>
    let payment_info : PaymentInfo :=
      { preimage := none
        secret := some invoice.payment_secret
        status := .Pending
        amt_msat := amount_msat
        fee_paid_msat := none
        bolt11 := some invoice.to_string
        last_update := now }
    convert (fun _ => .InvoiceCreationFailed)
      (node.persist_payment_info host invoice.payment_hash payment_info true)
    return invoice

def get_payment_info_from_persisters (payment_hash : PaymentHash) : StorageM MutinyError (PaymentInfo × Bool) := do
  -- try inbound first
  match ← node.read_payment_info host payment_hash true with
  | some payment_info => return (payment_info, true)
  | none =>
    -- if no inbound check outbound
    match ← node.read_payment_info host payment_hash false with
    | some payment_info => return (payment_info, false)
    | none => throw (.err .InvoiceInvalid)

def get_invoice (invoice : Invoice) : StorageM MutinyError MutinyInvoice := do
  let (payment_info, inbound) ← get_payment_info_from_persisters host node invoice.payment_hash
  return { MutinyInvoice.from_invoice invoice with is_send := !inbound, paid := payment_info.status = .Succeeded }

/-- The entry of a list for one record, which is left out when its invoice is expired and was not paid. -/
def invoice_of_payment_info (now : UInt64) (inbound : Bool) (h : String) (i : PaymentInfo) : Option MutinyInvoice :=
  match i.bolt11 with
  | some s =>
    match bolt11.from_str s with
    | none => none
    | some invoice =>
      if bolt11.would_expire invoice now ∧ ¬ (i.status = .Succeeded ∨ i.status = .InFlight) then none
      else
        some { MutinyInvoice.from_invoice invoice with
          is_send := !inbound
          paid := i.status = .Succeeded
          amount_sats :=
            match invoice.amount_milli_satoshis with
            | some inv_amt => if inv_amt = 0 then i.amt_msat.map (· / 1000) else some (inv_amt / 1000)
            | none => i.amt_msat.map (· / 1000) }
  | none =>
    some
      { bolt11 := none
        description := none
        payment_hash := h
        preimage := i.preimage.map fun p => Hex.to_hex p.toList
        payee_pubkey := none
        amount_sats := i.amt_msat.map (· / 1000)
        expire := i.last_update
        paid := i.status = .Succeeded
        fees_paid := i.fee_paid_msat.map (· / 1000)
        is_send := !inbound }

def list_payment_info_from_persisters {ε : Type} (now : UInt64) (inbound : Bool) : StorageM ε (List MutinyInvoice) := do
  let infos ← list_payment_info host node inbound
  return infos.filterMap fun (h, i) => invoice_of_payment_info bolt11 now inbound h i

def list_invoices {ε : Type} (now : UInt64) : StorageM ε (List MutinyInvoice) := do
  let inbound_invoices ← list_payment_info_from_persisters host bolt11 node now true
  let outbound_invoices ← list_payment_info_from_persisters host bolt11 node now false
  return inbound_invoices ++ outbound_invoices

end Node

/-! ## `nodemanager.rs` -/

namespace NodeManager

variable {RouteHints : Type} (maker : InvoiceMaker RouteHints) (bolt11 : Bolt11) (nodes : List MutinyNodePersister)

def create_invoice (amount : Option UInt64) (description : String) (now : UInt64) :
    StorageM MutinyError MutinyInvoice := do
  let use_phantom : Bool := nodes.length > 1
  match nodes with
  | [] => throw (.err .InvoiceCreationFailed)
  | first_node :: _ =>
    let route_hints := if use_phantom then some (nodes.map maker.get_phantom_route_hints) else none
    let invoice ← Node.create_invoice host maker first_node amount description route_hints now
    return .from_invoice invoice

def find_invoice (invoice : Invoice) : List MutinyNodePersister → StorageM MutinyError (Option MutinyInvoice)
  | [] => return none
  | n :: rest => do
    let res : Except MutinyError MutinyInvoice ← result (Node.get_invoice host n invoice)
    match res with
    | .ok i => return some i
    | .error _ => find_invoice invoice rest

def get_invoice (invoice : String) : StorageM MutinyError MutinyInvoice :=
  match bolt11.from_str invoice with
  | none => throw (.err .InvoiceInvalid)
  | some invoice => do
    let inv_opt ← find_invoice host invoice nodes
    match inv_opt with
    | some i => return i
    | none => throw (.err .InvoiceInvalid)

def get_invoice_by_hash (hash : String) (now : UInt64) : List MutinyNodePersister → StorageM MutinyError MutinyInvoice
  | [] => throw (.err .InvoiceInvalid)
  | node :: nodes => do
    let invs ← Node.list_invoices host bolt11 node now
    match invs.find? fun i => i.payment_hash = hash with
    | some i => return i
    | none => get_invoice_by_hash hash now nodes

def list_invoices {ε : Type} (now : UInt64) : StorageM ε (List MutinyInvoice) :=
  nodes.foldlM (fun invoices node => do
    let invs ← Node.list_invoices host bolt11 node now
    return invoices ++ invs) []

end NodeManager

end

end Mutiny
