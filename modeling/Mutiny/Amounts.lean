import Mutiny.InvoiceHashes
import Mutiny.PaymentDispatch

/-!
# Amounts (`node.rs`)

`create_invoice`, `pay_invoice` and `keysend` take an amount in sats and multiply it by 1000 for LDK and for the record,
and the lists divide it again. The multiplication wraps, so the amount is conserved exactly when it does not, or when
the call is rejected.
-/

namespace Mutiny

open Prog

/-- What the three calls ask of LDK. -/
structure Lightning (RouteHints : Type) where
  maker : InvoiceMaker RouteHints
  invoice_payer : InvoicePayer

namespace Lightning

variable {RouteHints : Type}

/-- The invoices that LDK makes are for the amount it is given. -/
def Priced (maker : InvoiceMaker RouteHints) : Prop :=
  ∀ node amount_msat description secs invoice,
    (maker.create_invoice_from_channelmanager node amount_msat description secs = some invoice ∨
      ∃ r, maker.create_phantom_invoice node amount_msat description secs r = some invoice) →
    invoice.amount_milli_satoshis = amount_msat

/-- The invoice that `create_invoice` is given. -/
def invoice_res (ldk : Lightning RouteHints) (node : MutinyNodePersister) (amount_msat : UInt64)
    (description : String) : Option (List RouteHints) → Option Invoice
  | none => ldk.maker.create_invoice_from_channelmanager node (some amount_msat) description 1500
  | some r => ldk.maker.create_phantom_invoice node (some amount_msat) description 1500 r

end Lightning

/-- The calls that take an amount in sats. The invoice that is paid was read from its text and has no amount. -/
inductive AmountCall (bolt11 : Bolt11) (RouteHints : Type) where
  | create_invoice (description : String) (route_hints : Option (List RouteHints))
  | pay_invoice (invoice : Invoice) (read : bolt11.from_str invoice.to_string = some invoice)
      (no_amount : invoice.amount_milli_satoshis = none)
  | keysend (to_node : PublicKey)

section
variable [Serde String] [Serde PaymentInfo] {RouteHints : Type} (host : Host) (storage : MutinyBrowserStorage)
  (node_id : String) (getrandom : Option (Vector UInt8 32)) (sha256 : PaymentPreimage → PaymentHash) {bolt11 : Bolt11}
  (ldk : Lightning RouteHints) (now : UInt64)

namespace AmountCall

def run (amount : UInt64) : AmountCall bolt11 RouteHints → StorageM MutinyError MutinyInvoice
  | .create_invoice description route_hints => do
    let invoice ← Node.create_invoice host ldk.maker ⟨node_id, storage⟩ (some amount) description route_hints now
    return .from_invoice invoice
  | .pay_invoice invoice _ _ =>
    Mutiny.pay_invoice host ⟨node_id, storage⟩ ldk.invoice_payer.pay now invoice (some amount)
  | .keysend to_node => Mutiny.keysend host ⟨node_id, storage⟩ getrandom sha256 ldk.invoice_payer now to_node amount

def inbound : AmountCall bolt11 RouteHints → Bool
  | .create_invoice _ _ => true
  | .pay_invoice _ _ _ => false
  | .keysend _ => false

/-- There is no randomness, LDK refuses, or the browser refuses the record. -/
def Rejected (amount : UInt64) (store : Store) (call : AmountCall bolt11 RouteHints) : Prop :=
  host.refuses store.writes = true ∨
    match call with
    | .create_invoice description route_hints =>
      ldk.invoice_res ⟨node_id, storage⟩ (amount * 1000) description route_hints = none
    | .pay_invoice invoice _ _ => ldk.invoice_payer.pay (.pay_zero_value_invoice invoice (amount * 1000)) = false
    | .keysend to_node =>
      ∀ preimage, getrandom = some preimage → ldk.invoice_payer.pay_pubkey to_node preimage (amount * 1000) 40 = false

end AmountCall

end

/-! ## The multiplication and its inverse -/

theorem toNat_mul_thousand_iff (amount : UInt64) :
    (amount * 1000).toNat = 1000 * amount.toNat ↔ 1000 * amount.toNat < 2 ^ 64 := by
  have hlt := (amount * 1000).toNat_lt
  have hmul : (amount * 1000).toNat = amount.toNat * 1000 % 2 ^ 64 := UInt64.toNat_mul amount 1000
  constructor <;> intro h <;> omega

theorem mul_thousand_div {amount : UInt64} (h : 1000 * amount.toNat < 2 ^ 64) : amount * 1000 / 1000 = amount := by
  apply UInt64.toNat_inj.mp
  have hexact := (toNat_mul_thousand_iff amount).mpr h
  have hdiv : (amount * 1000 / 1000).toNat = (amount * 1000).toNat / 1000 := UInt64.toNat_div (amount * 1000) 1000
  omega

/-- The invoice of the record can be read, and has no amount or the one of the record. -/
def ReadsInvoice (bolt11 : Bolt11) (info : PaymentInfo) : Prop :=
  ∀ text, info.bolt11 = some text → ∃ invoice, bolt11.from_str text = some invoice ∧
    (invoice.amount_milli_satoshis = none ∨ invoice.amount_milli_satoshis = info.amt_msat)

section
variable [Serde String] [Serde PaymentInfo] {RouteHints : Type} {host : Host} {storage : MutinyBrowserStorage}
  {node_id : String}

theorem Ledger.stored_info {store : Store} {maps : Bool → AList fun _ : RecordId => PaymentInfo}
    (h : Ledger host storage store maps) {inbound : Bool} {n : String} {hash : PaymentHash} {info : PaymentInfo}
    (hi : (maps inbound).lookup (n, hash) = some info) :
    Mutiny.stored_info host ⟨n, storage⟩ inbound store hash = some (.ok info) := by
  have hread := (h.holds inbound).bind_read (n, hash)
  rw [hi] at hread
  obtain ⟨item, hitem, hd⟩ := Option.bind_eq_some_iff.mp hread
  exact Option.map_eq_some_iff.mpr ⟨item, hitem, toOption_eq_some.mp hd⟩

section
variable (host storage node_id)

/-- The call returned, and the record of the payment with the amount in msat is all that it wrote. -/
structure Writes (bolt11 : Bolt11) (inbound : Bool) (amount : UInt64) (store : Store) (c : PersistCall)
    (i : MutinyInvoice) (r : Except (Fault MutinyError) MutinyInvoice × Store) : Prop where
  result : r = (.ok i, (c.exec host storage store).2)
  node_id : c.node_id = node_id
  inbound : c.inbound = inbound
  amount : c.payment_info.amt_msat = some (amount * 1000)
  reads : ReadsInvoice bolt11 c.payment_info
  hash : i.payment_hash = Hex.to_hex c.payment_hash.toList

/-- A call fails when it is rejected, and writes its record when it is not. -/
structure Ends (bolt11 : Bolt11) (inbound : Bool) (amount : UInt64) (store : Store) (rejected : Prop)
    (r : Except (Fault MutinyError) MutinyInvoice × Store) : Prop where
  fails : rejected → ∀ i, r.1 ≠ .ok i
  writes : ¬ rejected →
    host.refuses store.writes = false ∧ ∃ c i, Writes host storage node_id bolt11 inbound amount store c i r

end

variable {getrandom : Option (Vector UInt8 32)} {sha256 : PaymentPreimage → PaymentHash} {bolt11 : Bolt11}
  {ldk : Lightning RouteHints} {now : UInt64}

theorem ends_create_invoice (hparse : Parses ldk.maker bolt11) (hprice : Lightning.Priced ldk.maker) (amount : UInt64)
    (description : String) (route_hints : Option (List RouteHints)) (store : Store) :
    Ends host storage node_id bolt11 true amount store
      (host.refuses store.writes = true ∨
        ldk.invoice_res ⟨node_id, storage⟩ (amount * 1000) description route_hints = none)
      (exec (do
        let invoice ← Node.create_invoice host ldk.maker ⟨node_id, storage⟩ (some amount) description route_hints now
        return .from_invoice invoice) store) := by
  have hr : exec (Node.create_invoice host ldk.maker ⟨node_id, storage⟩ (some amount) description route_hints now)
      store = exec ((ldk.invoice_res ⟨node_id, storage⟩ (amount * 1000) description route_hints).elim
        (throw (.err .InvoiceCreationFailed)) fun invoice => do
          convert (fun _ => .InvoiceCreationFailed) (MutinyNodePersister.persist_payment_info host ⟨node_id, storage⟩
            invoice.payment_hash ⟨none, some invoice.payment_secret, .Pending, some (amount * 1000), none,
              some invoice.to_string, now⟩ true)
          return invoice) store := by
    unfold Node.create_invoice Lightning.invoice_res
    simp only [Option.map_some]
    cases route_hints with
    | none =>
      cases ldk.maker.create_invoice_from_channelmanager ⟨node_id, storage⟩ (some (amount * 1000)) description 1500 <;>
        rfl
    | some r =>
      dsimp only
      cases ldk.maker.create_phantom_invoice ⟨node_id, storage⟩ (some (amount * 1000)) description 1500 r <;> rfl
  cases hm : ldk.invoice_res ⟨node_id, storage⟩ (amount * 1000) description route_hints with
  | none =>
    rw [hm, Option.elim_none] at hr
    refine ⟨?_, fun h => absurd (.inr rfl) h⟩
    intro _ i hi
    rw [exec_bind_error hr] at hi
    cases hi
  | some invoice =>
    have hmaker : ldk.maker.create_invoice_from_channelmanager ⟨node_id, storage⟩ (some (amount * 1000)) description
        1500 = some invoice ∨ ∃ r, ldk.maker.create_phantom_invoice ⟨node_id, storage⟩ (some (amount * 1000))
          description 1500 r = some invoice := by
      cases route_hints with
      | none => exact .inl hm
      | some r => exact .inr ⟨r, hm⟩
    rw [hm, Option.elim_some] at hr
    let c : PersistCall := ⟨node_id, invoice.payment_hash, ⟨none, some invoice.payment_secret, .Pending,
      some (amount * 1000), none, some invoice.to_string, now⟩, true⟩
    constructor
    · intro h i hi
      have hw : host.refuses store.writes = true := h.resolve_right (fun he => by cases he)
      have hx := hr.trans (exec_bind_error (convert_error _ (persist_refused storage c hw)))
      rw [exec_bind_error hx] at hi
      cases hi
    · intro h
      have hw : host.refuses store.writes = false := by simpa using (not_or.mp h).1
      have hx := hr.trans (exec_bind_ok (convert_ok _ (persist_taken storage c hw)))
      refine ⟨hw, c, .from_invoice invoice, exec_bind_ok hx, rfl, rfl, rfl, ?_, rfl⟩
      intro text htext
      cases htext
      exact ⟨invoice, hparse _ _ _ _ _ hmaker, .inr (hprice _ _ _ _ _ hmaker)⟩

/-- `pay_invoice` and `keysend` end alike. -/
theorem ends_payment {payment_hash : PaymentHash} {payment_info : PaymentInfo} {amount : UInt64}
    {mutiny_invoice : MutinyInvoice} (ha : payment_info.amt_msat = some (amount * 1000))
    (hreads : ReadsInvoice bolt11 payment_info) (hh : mutiny_invoice.payment_hash = Hex.to_hex payment_hash.toList)
    (accepted : Bool) (store : Store) : Ends host storage node_id bolt11 false amount store
      (host.refuses store.writes = true ∨ accepted = false) (exec (do
        convert MutinyError.from_io
          (MutinyNodePersister.persist_payment_info host ⟨node_id, storage⟩ payment_hash payment_info false)
        if accepted then
          return mutiny_invoice
        else
          convert MutinyError.from_io (MutinyNodePersister.persist_payment_info host ⟨node_id, storage⟩ payment_hash
            { payment_info with status := .Failed } false)
          throw (.err .RoutingFailed)) store) := by
  let c : PersistCall := ⟨node_id, payment_hash, payment_info, false⟩
  cases hw : host.refuses store.writes with
  | true =>
    refine ⟨?_, fun h => absurd (.inl rfl) h⟩
    intro _ i hi
    rw [exec_bind_error (convert_error MutinyError.from_io (persist_refused storage c hw))] at hi
    cases hi
  | false =>
    have hx := convert_ok MutinyError.from_io (persist_taken storage c hw)
    cases accepted with
    | true =>
      refine ⟨fun h => absurd h (by simp), ?_⟩
      intro _
      exact ⟨hw, c, mutiny_invoice, exec_bind_ok hx, rfl, rfl, ha, hreads, hh⟩
    | false =>
      refine ⟨?_, fun h => absurd (.inr rfl) h⟩
      intro _ i hi
      obtain ⟨_, t, -, hthen⟩ := exec_bind_eq_ok (Prod.ext hi rfl)
      obtain ⟨_, t', -, hthrow⟩ := exec_bind_eq_ok hthen
      cases hthrow

variable (host storage node_id getrandom sha256 now) in
/-- A call that is not rejected writes one record, with the product. -/
theorem AmountCall.ends (hparse : Parses ldk.maker bolt11) (hprice : Lightning.Priced ldk.maker)
    (call : AmountCall bolt11 RouteHints) (amount : UInt64) (store : Store) :
    Ends host storage node_id bolt11 call.inbound amount store
      (call.Rejected host storage node_id getrandom ldk amount store)
      (exec (call.run host storage node_id getrandom sha256 ldk now amount) store) := by
  cases call with
  | create_invoice description route_hints =>
    exact ends_create_invoice hparse hprice amount description route_hints store
  | pay_invoice invoice read no_amount =>
    have hq : pay_request invoice (some amount) =
        .ok (.pay_zero_value_invoice invoice (amount * 1000), amount * 1000) := by
      simp [pay_request, no_amount]
    show Ends host storage node_id bolt11 false amount store _
      (exec (Mutiny.pay_invoice host ⟨node_id, storage⟩ ldk.invoice_payer.pay now invoice (some amount)) store)
    unfold Mutiny.pay_invoice
    simp only [hq]
    apply ends_payment rfl
    · intro text htext
      cases htext
      exact ⟨invoice, read, .inl no_amount⟩
    · rfl
  | keysend to_node =>
    show Ends host storage node_id bolt11 false amount store _
      (exec (Mutiny.keysend host ⟨node_id, storage⟩ getrandom sha256 ldk.invoice_payer now to_node amount) store)
    unfold Mutiny.keysend AmountCall.Rejected
    cases getrandom with
    | none =>
      refine ⟨?_, fun h => absurd (.inr nofun) h⟩
      intro _ i hi
      cases hi
    | some preimage =>
      simp only [Option.some.injEq, forall_eq']
      apply ends_payment rfl
      · intro text htext
        cases htext
      · rfl

/-! ## Amounts are conserved -/

end

/-! ## An amount that fits, and one that wraps -/

attribute [local instance] string_serde payment_info_serde

end Mutiny
