import Mutiny.PaymentSound

/-!
# Payments that LDK dispatched (`node.rs`)

`pay_invoice` and `keysend` hand the payment to the invoice payer, and write its record after that. A dispatched payment
is recorded, and its call does not fail, exactly when the browser takes that write (`payment_accounted`).
-/

namespace Mutiny

open Prog

abbrev PublicKey := Vector UInt8 33

/-- The answers of the invoice payer of LDK. It dispatches the payments that it answers with true. -/
structure InvoicePayer where
  pay : PayRequest → Bool
  pay_pubkey : PublicKey → PaymentPreimage → UInt64 → UInt32 → Bool

section
variable [Serde String] [Serde PaymentInfo] (host : Host) (persister : MutinyNodePersister)
  (getrandom : Option (Vector UInt8 32)) (sha256 : PaymentPreimage → PaymentHash) (invoice_payer : InvoicePayer)
  (now : UInt64)

def keysend (to_node : PublicKey) (amt_sats : UInt64) : StorageM MutinyError MutinyInvoice :=
  match getrandom with
  | none => throw (.err .SeedGenerationFailed)
  | some entropy => do
    let preimage : PaymentPreimage := entropy
    let amt_msats := amt_sats * 1000
    let pay_result := invoice_payer.pay_pubkey to_node preimage amt_msats 40
    let payment_hash := sha256 preimage
    let payment_info : PaymentInfo :=
      { preimage := some preimage
        secret := none
        status := .InFlight
        amt_msat := some amt_msats
        fee_paid_msat := none
        bolt11 := none
        last_update := now }
    convert .from_io (persister.persist_payment_info host payment_hash payment_info false)
    if pay_result then
      return {
        bolt11 := none
        description := none
        payment_hash := Hex.to_hex payment_hash.toList
        preimage := some (Hex.to_hex preimage.toList)
        payee_pubkey := some (Hex.to_hex to_node.toList)
        amount_sats := some amt_sats
        expire := payment_info.last_update
        paid := false
        fees_paid := none
        is_send := true }
    else
      convert .from_io (persister.persist_payment_info host payment_hash { payment_info with status := .Failed } false)
      throw (.err .RoutingFailed)

inductive SendCall where
  | pay_invoice (invoice : Invoice) (amt_sats : Option UInt64)
  | keysend (to_node : PublicKey) (amt_sats : UInt64)

namespace SendCall

def run : SendCall → StorageM MutinyError MutinyInvoice
  | .pay_invoice invoice amt_sats => Mutiny.pay_invoice host persister invoice_payer.pay now invoice amt_sats
  | .keysend to_node amt_sats => Mutiny.keysend host persister getrandom sha256 invoice_payer now to_node amt_sats

/-- The hash of the payment that LDK dispatches in the call. -/
def dispatched : SendCall → Option PaymentHash
  | .pay_invoice invoice amt_sats =>
    match pay_request invoice amt_sats with
    | .error _ => none
    | .ok (request, _) => if invoice_payer.pay request then some invoice.payment_hash else none
  | .keysend to_node amt_sats =>
    match getrandom with
    | none => none
    | some preimage =>
      if invoice_payer.pay_pubkey to_node preimage (amt_sats * 1000) 40 then some (sha256 preimage) else none

end SendCall

/-- A call that failed dispatched nothing, and a dispatched payment has a record, which the event handler can read. -/
def Accounted (dispatched : Option PaymentHash) (r : Except (Fault MutinyError) MutinyInvoice × Store) : Prop :=
  (∀ e, r.1 = .error (.err e) → dispatched = none) ∧
    ∀ payment_hash, dispatched = some payment_hash → ∃ info, record host persister r.2 payment_hash = some info

theorem accounted_recorded (payment_hash : PaymentHash) (payment_info : PaymentInfo) (accepted : Bool)
    (mutiny_invoice : MutinyInvoice) (store : Store) :
    Accounted host persister (if accepted = true then some payment_hash else none) (exec (do
        convert MutinyError.from_io (persister.persist_payment_info host payment_hash payment_info false)
        if accepted then
          return mutiny_invoice
        else
          convert MutinyError.from_io
            (persister.persist_payment_info host payment_hash { payment_info with status := .Failed } false)
          throw (.err .RoutingFailed)) store) ↔
      ((if accepted = true then some payment_hash else none).isSome = true → host.refuses store.writes = false) := by
  cases accepted with
  | false =>
    apply iff_of_true
    · exact ⟨fun _ _ => rfl, nofun⟩
    · nofun
  | true =>
    simp only [if_true, Option.isSome_some, forall_const]
    cases hw : host.refuses store.writes with
    | false =>
      obtain ⟨store', hx, hrecord⟩ := exec_persist_payment_info host persister payment_hash payment_info hw
      rw [exec_bind_ok (convert_ok _ hx)]
      apply iff_of_true
      · refine ⟨nofun, ?_⟩
        intro h hh
        cases hh
        exact ⟨payment_info, (hrecord payment_hash).trans (if_pos rfl)⟩
      · rfl
    | true =>
      have hx := exec_persist_payment_refused host persister payment_hash payment_info hw
      rw [exec_bind_error (convert_error _ hx)]
      apply iff_of_false
      · intro ⟨hfails, _⟩
        cases hfails _ rfl
      · nofun

theorem accounted_of_none {e : Fault MutinyError} {store : Store} :
    Accounted host persister none ((.error e, store) : Except (Fault MutinyError) MutinyInvoice × Store) :=
  ⟨fun _ _ => rfl, nofun⟩

/-- Whatever is sent and whatever LDK answers, the payment is accounted for exactly when it was not dispatched or the
browser takes the first write. -/
theorem payment_accounted (call : SendCall) (store : Store) :
    Accounted host persister (call.dispatched getrandom sha256 invoice_payer)
        (exec (call.run host persister getrandom sha256 invoice_payer now) store) ↔
      ((call.dispatched getrandom sha256 invoice_payer).isSome = true → host.refuses store.writes = false) := by
  cases call with
  | pay_invoice invoice amt_sats =>
    show Accounted host persister _ (exec (pay_invoice host persister invoice_payer.pay now invoice amt_sats) store) ↔ _
    cases hq : pay_request invoice amt_sats with
    | error e =>
      rw [exec_pay_invoice_error host persister hq]
      simp only [SendCall.dispatched, hq]
      apply iff_of_true
      · exact accounted_of_none host persister
      · nofun
    | ok r =>
      obtain ⟨request, amt_msat⟩ := r
      unfold pay_invoice
      simp only [SendCall.dispatched, hq]
      exact accounted_recorded host persister invoice.payment_hash (in_flight now invoice amt_msat)
        (invoice_payer.pay request) _ store
  | keysend to_node amt_sats =>
    show Accounted host persister _
      (exec (keysend host persister getrandom sha256 invoice_payer now to_node amt_sats) store) ↔ _
    unfold SendCall.dispatched keysend
    cases getrandom with
    | none =>
      apply iff_of_true
      · exact accounted_of_none host persister
      · nofun
    | some preimage =>
      exact accounted_recorded host persister (sha256 preimage) _
        (invoice_payer.pay_pubkey to_node preimage (amt_sats * 1000) 40) _ store

end

attribute [local instance] string_serde payment_info_serde

/-- LDK takes the payment and the browser refuses the record: the call fails and the payment is under way without a
record. -/
theorem dispatched_unrecorded :
    let full : Host := { open_host with refuses := fun _ => true }
    let payer : InvoicePayer := ⟨fun _ => true, fun _ _ _ _ => true⟩
    let call : SendCall := .pay_invoice sample_invoice none
    ¬ Accounted full open_persister (call.dispatched none id payer)
      (exec (call.run full open_persister none id payer 0) ⟨∅, 0⟩) := by
  intro full payer call h
  exact absurd (h.1 (.PersistenceFailed .Other) rfl) (by decide)

end Mutiny
