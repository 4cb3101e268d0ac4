import Mutiny.Hex
import Mutiny.Machine
import Mutiny.Persister

/-!
# Outbound payments (`node.rs`, `event.rs`, `ldkstorage.rs`)

`pay_invoice` hands an invoice to the invoice payer of LDK and writes the record of the payment, and the event handler
rewrites the record when LDK reports the end of the payment. The machine interleaves calls of `pay_invoice` with LDK
ending payments and with the handling of its events, in any order.
-/

namespace Mutiny

open Prog

/-! ## Payment records -/

abbrev PaymentHash := Vector UInt8 32
abbrev PaymentPreimage := Vector UInt8 32

inductive HTLCStatus where
  | Pending
  | InFlight
  | Succeeded
  | Failed
  deriving DecidableEq, Repr

structure PaymentInfo where
  preimage : Option (Vector UInt8 32)
  secret : Option (Vector UInt8 32)
  status : HTLCStatus
  amt_msat : Option UInt64
  fee_paid_msat : Option UInt64
  bolt11 : Option String
  last_update : UInt64
  deriving DecidableEq

def payment_key (inbound : Bool) (payment_hash : PaymentHash) : String :=
  if inbound then "payment_inbound/" ++ Hex.to_hex payment_hash.toList
  else "payment_outbound/" ++ Hex.to_hex payment_hash.toList

namespace MutinyNodePersister

section
variable [Serde String] [Serde PaymentInfo] (host : Host) (persister : MutinyNodePersister)

def persist_payment_info (payment_hash : PaymentHash) (payment_info : PaymentInfo) (inbound : Bool) :
    StorageM IoError Unit :=
  let key := persister.get_key (payment_key inbound payment_hash)
  convert .other (persister.storage.set host key payment_info)

def read_payment_info {ε : Type} (payment_hash : PaymentHash) (inbound : Bool) : StorageM ε (Option PaymentInfo) := do
  let key := persister.get_key (payment_key inbound payment_hash)
  let deserialized_value ← result (persister.storage.get host key)
  return deserialized_value.toOption

end

end MutinyNodePersister

/-! ## `Node::pay_invoice` -/

inductive InvoiceDescription where
  | Direct (description : String)
  | Hash
  deriving DecidableEq, Repr

/-- An invoice of `lightning_invoice`, by what is asked of it. -/
structure Invoice where
  to_string : String
  description : InvoiceDescription
  payment_hash : PaymentHash
  payment_secret : Vector UInt8 32
  payee_pub_key : Option String
  amount_milli_satoshis : Option UInt64
  duration_since_epoch : UInt64
  expiry_time : UInt64
  deriving DecidableEq

structure MutinyInvoice where
  bolt11 : Option String
  description : Option String
  payment_hash : String
  preimage : Option String
  payee_pubkey : Option String
  amount_sats : Option UInt64
  expire : UInt64
  paid : Bool
  fees_paid : Option UInt64
  is_send : Bool
  deriving DecidableEq, Repr

/-- `From<Invoice>`. -/
def MutinyInvoice.from_invoice (value : Invoice) : MutinyInvoice where
  bolt11 := some value.to_string
  description :=
    match value.description with
    | .Direct a => some a
    | .Hash => none
  payment_hash := Hex.to_hex value.payment_hash.toList
  preimage := none
  payee_pubkey := value.payee_pub_key
  amount_sats := value.amount_milli_satoshis.map (· / 1000)
  expire := value.duration_since_epoch + value.expiry_time
  paid := false
  fees_paid := none
  is_send := false

/-- What `pay_invoice` asks of the invoice payer. -/
inductive PayRequest where
  | pay_zero_value_invoice (invoice : Invoice) (amt_msats : UInt64)
  | pay_invoice (invoice : Invoice)
  deriving DecidableEq

/-- The first part of `pay_invoice`: the request and the amount that is recorded. -/
def pay_request (invoice : Invoice) (amt_sats : Option UInt64) : Except MutinyError (PayRequest × UInt64) :=
  match invoice.amount_milli_satoshis with
  | none =>
    match amt_sats with
    | none => .error .InvoiceInvalid
    | some amt_sats =>
      let amt_msats := amt_sats * 1000
      .ok (.pay_zero_value_invoice invoice amt_msats, amt_msats)
  | some amount_milli_satoshis =>
    if amt_sats.isSome then .error .InvoiceInvalid
    else .ok (.pay_invoice invoice, amount_milli_satoshis)

section
variable [Serde String] [Serde PaymentInfo] (host : Host) (persister : MutinyNodePersister)

/-- `accepts` is the answer of the invoice payer. -/
def pay_invoice (accepts : PayRequest → Bool) (now : UInt64) (invoice : Invoice) (amt_sats : Option UInt64) :
    StorageM MutinyError MutinyInvoice := do
  match pay_request invoice amt_sats with
  | .error e => throw (.err e)
  | .ok (request, amt_msat) =>
    let pay_result := accepts request
    let payment_info : PaymentInfo :=
      { preimage := none
        secret := none
        status := .InFlight
        amt_msat := some amt_msat
        fee_paid_msat := none
        bolt11 := some invoice.to_string
        last_update := now }
    convert .from_io (persister.persist_payment_info host invoice.payment_hash payment_info false)
    if pay_result then
      return { MutinyInvoice.from_invoice invoice with paid := false, is_send := true }
    else
      convert .from_io
        (persister.persist_payment_info host invoice.payment_hash { payment_info with status := .Failed } false)
      throw (.err .RoutingFailed)

/-! ## The event handler -/

inductive PaymentEvent where
  | PaymentSent (payment_hash : PaymentHash) (payment_preimage : PaymentPreimage) (fee_paid_msat : Option UInt64)
  | PaymentFailed (payment_hash : PaymentHash)
  deriving DecidableEq

/-- `EventHandler::handle_event` for the two events that end an outbound payment. -/
def handle_event {ε : Type} (now : UInt64) : PaymentEvent → StorageM ε Unit
  | .PaymentSent payment_hash payment_preimage fee_paid_msat => do
    match ← persister.read_payment_info host payment_hash false with
    | some saved_payment_info =>
      let _ ← result <| persister.persist_payment_info host payment_hash
        { saved_payment_info with
          status := .Succeeded
          preimage := some payment_preimage
          fee_paid_msat
          last_update := now } false
    | none => return ()
  | .PaymentFailed payment_hash => do
    match ← persister.read_payment_info host payment_hash false with
    | some saved_payment_info =>
      let _ ← result <| persister.persist_payment_info host payment_hash
        { saved_payment_info with status := .Failed, last_update := now } false
    | none => return ()

/-! ## Runs -/

/-- What LDK holds under a payment hash. A payment that ended with a failure is gone. -/
inductive Outbound where
  | idle
  | pending
  | completed
  deriving DecidableEq, Repr

/-- `events` were emitted and not handled yet, `sent` are the handled `PaymentSent`. -/
structure Payments where
  store : Store
  ldk : PaymentHash → Outbound
  events : List PaymentEvent
  sent : List (PaymentHash × PaymentPreimage × Option UInt64)

inductive PaymentAct where
  /-- A call of `pay_invoice`; `accepts` is what LDK answers if it is asked. -/
  | pay_invoice (invoice : Invoice) (amt_sats : Option UInt64) (accepts : Bool) (now : UInt64)
  | fulfil (payment_hash : PaymentHash) (payment_preimage : PaymentPreimage) (fee_paid_msat : Option UInt64)
  | abandon (payment_hash : PaymentHash)
  /-- The event at the index is handled. -/
  | handle (i : Nat) (now : UInt64)

def PaymentEvent.sent : PaymentEvent → List (PaymentHash × PaymentPreimage × Option UInt64)
  | .PaymentSent payment_hash payment_preimage fee_paid_msat => [(payment_hash, payment_preimage, fee_paid_msat)]
  | .PaymentFailed _ => []

def payment_step (s : Payments) : PaymentAct → Option Payments
  | .pay_invoice invoice amt_sats accepts now =>
    let store := ((pay_invoice host persister (fun _ => accepts) now invoice amt_sats).exec s.store).2
    match pay_request invoice amt_sats, accepts with
    | .error _, _ => some { s with store }
    | .ok _, false => some { s with store }
    | .ok _, true =>
      -- LDK accepts only what is neither pending nor completed
      if s.ldk invoice.payment_hash = .idle then
        some { s with store, ldk := Function.update s.ldk invoice.payment_hash .pending }
      else none
  | .fulfil payment_hash payment_preimage fee_paid_msat =>
    if s.ldk payment_hash = .pending then
      some { s with
        ldk := Function.update s.ldk payment_hash .completed
        events := s.events ++ [.PaymentSent payment_hash payment_preimage fee_paid_msat] }
    else none
  | .abandon payment_hash =>
    if s.ldk payment_hash = .pending then
      some { s with
        ldk := Function.update s.ldk payment_hash .idle
        events := s.events ++ [.PaymentFailed payment_hash] }
    else none
  | .handle i now =>
    match s.events[i]? with
    | none => none
    | some e =>
      some { s with
        store := ((handle_event host persister now e : StorageM MutinyError Unit).exec s.store).2
        events := s.events.eraseIdx i
        sent := e.sent ++ s.sent }

def payment_machine : Machine Payments PaymentAct := ⟨payment_step host persister⟩

end

end Mutiny
