import Mutiny.InvoicesPaid

/-!
# The views of a payment

A payment is shown by `get_invoice`, in the list of its node, and by `get_invoice_by_hash`. Each of them rests on one
record, and not always on the same one; and none of them shows the preimage and the fee of a record that has an invoice.
-/

namespace Mutiny

open Prog

structure InvoiceRecord where
  node_id : String
  inbound : Bool
  info : PaymentInfo
  text : String
  invoice : Invoice

/-- The same invoice for all that is shown of it. Its amount is in its text. -/
structure Invoice.Same (i j : Invoice) : Prop where
  to_string : i.to_string = j.to_string
  description : i.description = j.description
  payment_hash : i.payment_hash = j.payment_hash
  payee_pub_key : i.payee_pub_key = j.payee_pub_key
  expire : i.duration_since_epoch + i.expiry_time = j.duration_since_epoch + j.expiry_time

/-- Invoices with one text have one amount, which is written in it. -/
def Bolt11.AmountInText (bolt11 : Bolt11) : Prop :=
  ∀ s t i j, bolt11.from_str s = some i → bolt11.from_str t = some j → i.to_string = j.to_string →
    i.amount_milli_satoshis = j.amount_milli_satoshis

/-- Expired, and neither paid nor being paid. -/
def Bolt11.LeftOut (bolt11 : Bolt11) (now : UInt64) (invoice : Invoice) (info : PaymentInfo) : Prop :=
  bolt11.would_expire invoice now ∧ ¬ (info.status = .Succeeded ∨ info.status = .InFlight)

instance (bolt11 : Bolt11) (now : UInt64) (invoice : Invoice) (info : PaymentInfo) :
    Decidable (bolt11.LeftOut now invoice info) := inferInstanceAs (Decidable (_ ∧ _))

inductive View where
  | get_invoice
  | list_invoices
  | get_invoice_by_hash
  deriving DecidableEq

structure Source where
  inbound : Bool
  info : PaymentInfo
  invoice : Invoice
  deriving DecidableEq

namespace Source

/-- Only the lists put the amount of the record in the place of one that is missing. -/
def amount_sats (s : Source) : View → Option UInt64
  | .get_invoice => s.invoice.amount_milli_satoshis.map (· / 1000)
  | .list_invoices | .get_invoice_by_hash =>
    match s.invoice.amount_milli_satoshis with
    | some inv_amt => if inv_amt = 0 then s.info.amt_msat.map (· / 1000) else some (inv_amt / 1000)
    | none => s.info.amt_msat.map (· / 1000)

def shown (s : Source) (v : View) : MutinyInvoice :=
  { MutinyInvoice.from_invoice s.invoice with
    is_send := !s.inbound
    paid := s.info.status = .Succeeded
    amount_sats := s.amount_sats v }

def details (s : Source) : MutinyInvoice := { MutinyInvoice.from_invoice s.invoice with amount_sats := none }

theorem details_eq_iff {s t : Source} : s.details = t.details ↔ s.invoice.Same t.invoice := by
  constructor
  · intro h
    refine ⟨?_, ?_, ?_, congrArg MutinyInvoice.payee_pubkey h, congrArg MutinyInvoice.expire h⟩
    · exact Option.some.inj (congrArg MutinyInvoice.bolt11 h)
    · have hd : s.details.description = t.details.description := congrArg MutinyInvoice.description h
      simp only [details, MutinyInvoice.from_invoice] at hd
      cases hs : s.invoice.description <;> cases ht : t.invoice.description <;> simp_all
    · exact Vector.toList_inj.mp (Hex.to_hex_injective (congrArg MutinyInvoice.payment_hash h))
  · intro ⟨htext, hd, hhash, hpayee, hexpire⟩
    unfold details MutinyInvoice.from_invoice
    rw [htext, hd, hhash, hpayee, hexpire]

theorem shown_eq_iff {s t : Source} {v w : View} : s.shown v = t.shown w ↔
    s.details = t.details ∧ s.inbound = t.inbound ∧ (s.info.status = .Succeeded ↔ t.info.status = .Succeeded) ∧
      s.amount_sats v = t.amount_sats w := by
  constructor
  · intro h
    have hd := congrArg (fun i : MutinyInvoice => { i with is_send := false, paid := false, amount_sats := none }) h
    refine ⟨hd, ?_, ?_, congrArg MutinyInvoice.amount_sats h⟩
    · have hs : (!s.inbound) = !t.inbound := congrArg MutinyInvoice.is_send h
      simpa using hs
    · exact decide_eq_decide.mp (congrArg MutinyInvoice.paid h)
  · intro ⟨hd, hi, hs, ha⟩
    show ({ s.details with
        is_send := !s.inbound, paid := decide (s.info.status = .Succeeded), amount_sats := s.amount_sats v } :
          MutinyInvoice) =
      { t.details with
        is_send := !t.inbound, paid := decide (t.info.status = .Succeeded), amount_sats := t.amount_sats w }
    rw [hd, hi, ha, decide_eq_decide.mpr hs]

theorem amount_sats_get_invoice (s : Source) :
    s.amount_sats .get_invoice = s.invoice.amount_milli_satoshis.map (· / 1000) := rfl

theorem amount_sats_listed (s : Source) (v : View) (hv : v ≠ .get_invoice) : s.amount_sats v =
    if s.invoice.amount_milli_satoshis = none ∨ s.invoice.amount_milli_satoshis = some 0 then
      s.info.amt_msat.map (· / 1000)
    else s.invoice.amount_milli_satoshis.map (· / 1000) := by
  cases ha : s.invoice.amount_milli_satoshis with
  | none => cases v <;> simp_all [amount_sats]
  | some inv_amt =>
    by_cases hz : inv_amt = 0
    · cases v <;> simp_all [amount_sats]
    · cases v <;> simp_all [amount_sats]

theorem amount_sats_of_positive {s : Source} {inv_amt : UInt64} (h : s.invoice.amount_milli_satoshis = some inv_amt)
    (hpos : inv_amt ≠ 0) (v : View) : s.amount_sats v = some (inv_amt / 1000) := by
  by_cases hv : v = .get_invoice
  · rw [hv, amount_sats_get_invoice, h]
    rfl
  · rw [amount_sats_listed s v hv, h, if_neg (by simpa using hpos)]
    rfl

end Source

theorem no_sats_iff {amt_msat : Option UInt64} :
    amt_msat.map (· / 1000) = some 0 ↔ ∃ amt, amt_msat = some amt ∧ amt < 1000 := by
  have hdiv : ∀ amt : UInt64, amt / 1000 = 0 ↔ amt < 1000 := by
    intro amt
    rw [← UInt64.toNat_inj, UInt64.lt_iff_toNat_lt, UInt64.toNat_div]
    exact Nat.div_eq_zero_iff_lt (by decide)
  simp [Option.map_eq_some_iff, hdiv]

section
variable [Serde String] [Serde PaymentInfo] (host : Host) (storage : MutinyBrowserStorage) (bolt11 : Bolt11)
  (node_ids : List String) (now : UInt64) (store : Store)

/-! ## The record behind each view -/

def node_record (h : PaymentHash) (n : String) : Except (Fault MutinyError) (Bool × PaymentInfo) :=
  match stored_info host ⟨n, storage⟩ true store h with
  | some (.ok info) => .ok (true, info)
  | some (.error .panic) => .error .panic
  | _ =>
    match stored_info host ⟨n, storage⟩ false store h with
    | some (.ok info) => .ok (false, info)
    | some (.error .panic) => .error .panic
    | _ => .error (.err .InvoiceInvalid)

def answering (h : PaymentHash) : List String → Option (Bool × PaymentInfo)
  | [] => none
  | n :: node_ids =>
    match node_record host storage store h n with
    | .ok a => some a
    | .error .panic => none
    | .error (.err _) => answering h node_ids

/-- The records a node goes through for its list, unless one of them cannot be read. -/
def listed_records : Option (List (Bool × String × PaymentInfo)) := do
  let inbound ← storage.scanned host (payment_prefix_key true) none store
  let outbound ← storage.scanned host (payment_prefix_key false) none store
  return (host.order (inbound.entries.map fun e => (e.1, e.2))).map (true, ·) ++
    (host.order (outbound.entries.map fun e => (e.1, e.2))).map (false, ·)

/-- A record in the list, if it has an invoice with this payment hash and is not left out. -/
def listed_source (h : PaymentHash) (record : Bool × String × PaymentInfo) : Option Source := do
  let text ← record.2.2.bolt11
  let invoice ← bolt11.from_str text
  if invoice.payment_hash = h ∧ ¬ bolt11.LeftOut now invoice record.2.2 then some ⟨record.1, record.2.2, invoice⟩
  else none

namespace InvoiceRecord

variable (r : InvoiceRecord)

def key : String := payment_record_key r.inbound (r.node_id, r.invoice.payment_hash)

structure Stored : Prop where
  text : r.info.bolt11 = some r.text
  parses : bolt11.from_str r.text = some r.invoice
  stored : stored_info host ⟨r.node_id, storage⟩ r.inbound store r.invoice.payment_hash = some (.ok r.info)

def source : View → Option Source
  | .get_invoice => (answering host storage store r.invoice.payment_hash node_ids).map fun a => ⟨a.1, a.2, r.invoice⟩
  | .list_invoices =>
    if (listed_records host storage store).isSome ∧ ¬ bolt11.LeftOut now r.invoice r.info then
      some ⟨r.inbound, r.info, r.invoice⟩
    else none
  | .get_invoice_by_hash =>
    if node_ids = [] then none
    else (listed_records host storage store).bind fun records =>
      records.findSome? (listed_source bolt11 now r.invoice.payment_hash)

/-- The view returns the invoice. Of the list it is the entry of the record. -/
def Gives : View → MutinyInvoice → Prop
  | .get_invoice, i =>
    (exec (NodeManager.get_invoice host bolt11 (node_ids.map fun n => ⟨n, storage⟩) r.text) store).1 = .ok i
  | .list_invoices, i => ∃ l,
    (exec (Node.list_invoices host bolt11 ⟨r.node_id, storage⟩ now : StorageM MutinyError _) store).1 = .ok l ∧ i ∈ l ∧
      Node.invoice_of_payment_info bolt11 now r.inbound r.key r.info = some i
  | .get_invoice_by_hash, i =>
    (exec (NodeManager.get_invoice_by_hash host bolt11 (Hex.to_hex r.invoice.payment_hash.toList) now
      (node_ids.map fun n => ⟨n, storage⟩)) store).1 = .ok i

structure ViewsAgree : Prop where
  same : ∀ v w i j, r.Gives host storage bolt11 node_ids now store v i →
    r.Gives host storage bolt11 node_ids now store w j → i = j
  record : ∀ v i, r.Gives host storage bolt11 node_ids now store v i →
    i.paid = decide (r.info.status = .Succeeded) ∧ i.is_send = !r.inbound ∧
      (r.invoice.amount_milli_satoshis = none → i.amount_sats = r.info.amt_msat.map (· / 1000)) ∧
      i.preimage = r.info.preimage.map (fun p => Hex.to_hex p.toList) ∧ i.fees_paid = r.info.fee_paid_msat.map (· / 1000)

/-- What must hold of the records that the views rest on. The record `r` has no preimage and no fee, which no view shows;
the others are of the same direction and status and have the same invoice; and where a view takes the amount from a
record, the records have one amount. -/
structure Consistent : Prop where
  plain : ∀ v s, r.source host storage bolt11 node_ids now store v = some s →
    r.info.preimage = none ∧ r.info.fee_paid_msat = none
  payment : ∀ v s, r.source host storage bolt11 node_ids now store v = some s →
    s.inbound = r.inbound ∧ (s.info.status = .Succeeded ↔ r.info.status = .Succeeded)
  invoice : ∀ v w s t, r.source host storage bolt11 node_ids now store v = some s →
    r.source host storage bolt11 node_ids now store w = some t → s.invoice.Same t.invoice
  -- `get_invoice` has no amount for an invoice without one, and no sats for one over 0 msat
  without_amount : r.invoice.amount_milli_satoshis = none → ∀ s,
    r.source host storage bolt11 node_ids now store .get_invoice = some s → r.info.amt_msat = none
  zero_amount : r.invoice.amount_milli_satoshis = some 0 → ∀ v s t,
    r.source host storage bolt11 node_ids now store .get_invoice = some s → v ≠ .get_invoice →
      r.source host storage bolt11 node_ids now store v = some t → ∃ amt, t.info.amt_msat = some amt ∧ amt < 1000
  -- the record found by hash is of one amount with this one, in sats
  by_hash_without_amount : r.invoice.amount_milli_satoshis = none → ∀ t,
    r.source host storage bolt11 node_ids now store .get_invoice_by_hash = some t →
      t.invoice.amount_milli_satoshis = none ∨ t.invoice.amount_milli_satoshis = some 0 →
        t.info.amt_msat.map (· / 1000) = r.info.amt_msat.map (· / 1000)
  by_hash_other_invoice : r.invoice.amount_milli_satoshis = none → ∀ t inv_amt,
    r.source host storage bolt11 node_ids now store .get_invoice_by_hash = some t →
      t.invoice.amount_milli_satoshis = some inv_amt → inv_amt ≠ 0 →
        r.info.amt_msat.map (· / 1000) = some (inv_amt / 1000)
  by_hash_zero_amount : r.invoice.amount_milli_satoshis = some 0 → ∀ s t,
    r.source host storage bolt11 node_ids now store .list_invoices = some s →
      r.source host storage bolt11 node_ids now store .get_invoice_by_hash = some t →
        t.info.amt_msat.map (· / 1000) = r.info.amt_msat.map (· / 1000)

end InvoiceRecord

/-! ## What the functions return -/

variable {host storage bolt11 node_ids now store}

omit [Serde String] [Serde PaymentInfo] in
theorem entry_of_bolt11 {info : PaymentInfo} {text : String} {invoice : Invoice} (ht : info.bolt11 = some text)
    (hp : bolt11.from_str text = some invoice) (inbound : Bool) (key : String) {v : View} (hv : v ≠ .get_invoice) :
    Node.invoice_of_payment_info bolt11 now inbound key info =
      if bolt11.LeftOut now invoice info then none else some (Source.shown ⟨inbound, info, invoice⟩ v) := by
  unfold Node.invoice_of_payment_info
  rw [ht]
  dsimp only
  rw [hp]
  cases v with
  | get_invoice => exact absurd rfl hv
  | list_invoices => rfl
  | get_invoice_by_hash => rfl

variable (host storage bolt11 now store) in
theorem exec_node_list_invoices {ε : Type} (n : String) :
    exec (Node.list_invoices host bolt11 ⟨n, storage⟩ now : StorageM ε _) store =
      (match listed_records host storage store with
        | none => .error .panic
        | some records => .ok (records.filterMap fun record =>
            Node.invoice_of_payment_info bolt11 now record.1 record.2.1 record.2.2), store) := by
  have hx := fun inbound => exec_scan (α := PaymentInfo) (ε := ε) host storage (payment_prefix_key inbound) none store
  have hlist : ∀ inbound, exec (Node.list_payment_info_from_persisters host bolt11 ⟨n, storage⟩ now inbound :
      StorageM ε _) store =
        (match storage.scanned (α := PaymentInfo) host (payment_prefix_key inbound) none store with
          | none => .error .panic
          | some map => .ok ((host.order (map.entries.map fun e => (e.1, e.2))).filterMap fun e =>
              Node.invoice_of_payment_info bolt11 now inbound e.1 e.2), store) := by
    intro inbound
    have hx := hx inbound
    cases hm : storage.scanned (α := PaymentInfo) host (payment_prefix_key inbound) none store with
    | none =>
      rw [hm] at hx
      exact exec_bind_error (exec_bind_error hx)
    | some map =>
      rw [hm] at hx
      exact exec_bind_ok (exec_bind_ok hx)
  have hin := hlist true
  have hout := hlist false
  unfold listed_records
  cases hi : storage.scanned (α := PaymentInfo) host (payment_prefix_key true) none store with
  | none =>
    rw [hi] at hin
    exact exec_bind_error hin
  | some inbound =>
    rw [hi] at hin
    apply (exec_bind_ok hin).trans
    cases ho : storage.scanned (α := PaymentInfo) host (payment_prefix_key false) none store with
    | none =>
      rw [ho] at hout
      exact exec_bind_error hout
    | some outbound =>
      rw [ho] at hout
      apply (exec_bind_ok hout).trans
      simp [List.filterMap_append, List.filterMap_map]

variable (host storage store) in
theorem exec_get_invoice_record (invoice : Invoice) (n : String) :
    exec (Node.get_invoice host ⟨n, storage⟩ invoice) store =
      ((node_record host storage store invoice.payment_hash n).map fun a => shown invoice a.1 a.2, store) := by
  unfold node_record
  rcases hi : stored_info host ⟨n, storage⟩ true store invoice.payment_hash with _ | ⟨e | _⟩ | info
  · rw [exec_get_invoice_outbound invoice store n (.inl hi)]
    rcases stored_info host ⟨n, storage⟩ false store invoice.payment_hash with _ | ⟨e | _⟩ | info <;> rfl
  · rw [exec_get_invoice_outbound invoice store n (.inr ⟨e, hi⟩)]
    rcases stored_info host ⟨n, storage⟩ false store invoice.payment_hash with _ | ⟨e | _⟩ | info <;> rfl
  · exact exec_get_invoice_panic invoice store n hi
  · exact exec_get_invoice_inbound invoice store n hi

variable (host storage store) in
/-- The nodes are asked in turn until one of them has a record or panics. -/
theorem exec_find_answering (invoice : Invoice) : ∀ node_ids : List String,
    let x := NodeManager.find_invoice host invoice (node_ids.map fun n => ⟨n, storage⟩)
    match answering host storage store invoice.payment_hash node_ids with
    | some a => exec x store = (.ok (some (shown invoice a.1 a.2)), store)
    | none => ∀ i, (exec x store).1 ≠ .ok (some i)
  | [] => by
    intro x i hi
    cases hi
  | n :: node_ids => by
    have hx := exec_get_invoice_record host storage store invoice n
    unfold answering
    rcases hr : node_record host storage store invoice.payment_hash n with (e | _) | a
    · rw [hr] at hx
      have hnext : exec (NodeManager.find_invoice host invoice ((n :: node_ids).map fun n => ⟨n, storage⟩)) store =
          exec (NodeManager.find_invoice host invoice (node_ids.map fun n => ⟨n, storage⟩)) store :=
        exec_bind_ok (exec_result_err hx)
      dsimp only
      rw [hnext]
      exact exec_find_answering invoice node_ids
    · rw [hr] at hx
      intro x i hi
      have hfind : exec x store = (.error .panic, store) := exec_bind_error (exec_result_panic hx)
      rw [hfind] at hi
      cases hi
    · rw [hr] at hx
      exact exec_bind_ok (exec_result_ok hx)

theorem get_invoice_iff {text : String} {invoice : Invoice} (hp : bolt11.from_str text = some invoice) {i : MutinyInvoice} :
    (exec (NodeManager.get_invoice host bolt11 (node_ids.map fun n => ⟨n, storage⟩) text) store).1 = .ok i ↔
      ∃ a, answering host storage store invoice.payment_hash node_ids = some a ∧ i = shown invoice a.1 a.2 := by
  have hfind := exec_find_answering host storage store invoice node_ids
  unfold NodeManager.get_invoice
  rw [hp]
  dsimp only at hfind ⊢
  cases ha : answering host storage store invoice.payment_hash node_ids with
  | none =>
    rw [ha] at hfind
    apply iff_of_false
    · intro hi
      obtain ⟨inv_opt, t, hx, hret⟩ := exec_bind_eq_ok (Prod.ext hi rfl)
      cases inv_opt with
      | none => cases hret
      | some j => exact hfind j (congrArg Prod.fst hx)
    · intro ⟨_, hb, _⟩
      cases hb
  | some a =>
    rw [ha] at hfind
    rw [exec_bind_ok hfind]
    constructor
    · intro hi
      cases hi
      exact ⟨a, rfl, rfl⟩
    · intro ⟨b, hb, hi⟩
      cases hb
      rw [hi]
      rfl

/-- All nodes have the same list, so only the first one is of account. -/
theorem get_invoice_by_hash_iff {hash : String} {i : MutinyInvoice} : ∀ node_ids : List String,
    (exec (NodeManager.get_invoice_by_hash host bolt11 hash now (node_ids.map fun n => ⟨n, storage⟩)) store).1 = .ok i ↔
      node_ids ≠ [] ∧ ∃ records, listed_records host storage store = some records ∧
        (records.filterMap fun record => Node.invoice_of_payment_info bolt11 now record.1 record.2.1 record.2.2).find?
          (fun i => i.payment_hash = hash) = some i
  | [] => iff_of_false nofun (fun h => h.1 rfl)
  | n :: node_ids => by
    have ih := @get_invoice_by_hash_iff hash i node_ids
    have hx := exec_node_list_invoices (ε := MutinyError) host storage bolt11 now store n
    rw [List.map_cons]
    unfold NodeManager.get_invoice_by_hash
    cases hl : listed_records host storage store with
    | none =>
      rw [hl] at hx
      rw [exec_bind_error hx]
      apply iff_of_false
      · intro h
        cases h
      · intro ⟨_, _, h, _⟩
        cases h
    | some records =>
      rw [hl] at hx ih
      rw [exec_bind_ok hx]
      simp only [Option.some.injEq, exists_eq_left'] at ih ⊢
      generalize hfind : List.find? _ _ = found at ih ⊢
      cases found with
      | none =>
        dsimp only
        rw [ih]
        simp
      | some j =>
        dsimp only
        rw [exec_pure]
        simp

/-! ## The records in the list -/

theorem scanned_payments {inbound : Bool} {map : AList fun _ : String => PaymentInfo}
    (h : storage.scanned host (payment_prefix_key inbound) none store = some map) (key : String) :
    map.lookup key = if starts_with key (payment_prefix_key inbound) then
      (store.items.lookup key).bind fun item => (storage.decode host.crypto item).toOption else none := by
  obtain ⟨map', hm, hl⟩ := scanned_lookup (α := PaymentInfo) host storage (payment_prefix_key inbound) none store
    fun _ _ hi hs => readable_of_scanned host storage h hi hs
  cases h.symm.trans hm
  rw [hl key, Option.all_none, Bool.and_true]

theorem mem_listed_records {records : List (Bool × String × PaymentInfo)}
    (h : listed_records host storage store = some records) (inbound : Bool) (key : String) (info : PaymentInfo) :
    (inbound, key, info) ∈ records ↔ starts_with key (payment_prefix_key inbound) = true ∧
      (store.items.lookup key).bind (fun item => (storage.decode host.crypto item).toOption) = some info := by
  unfold listed_records at h
  obtain ⟨imap, hi, h⟩ := Option.bind_eq_some_iff.mp h
  obtain ⟨omap, ho, h⟩ := Option.bind_eq_some_iff.mp h
  cases h
  have hmem : ∀ map : AList fun _ : String => PaymentInfo,
      (key, info) ∈ host.order (map.entries.map fun e => (e.1, e.2)) ↔ map.lookup key = some info := by
    intro map
    rw [(host.order_perm _).mem_iff, List.mem_map, ← Option.mem_def, AList.mem_lookup_iff]
    constructor
    · intro ⟨e, he, heq⟩
      cases heq
      exact he
    · intro he
      exact ⟨_, he, rfl⟩
  cases inbound with
  | true =>
    have hl := scanned_payments hi key
    by_cases hs : starts_with key (payment_prefix_key true) = true
    · rw [if_pos hs] at hl
      simp [hmem, hl, hs]
    · rw [if_neg hs] at hl
      simp [hmem, hl, hs]
  | false =>
    have hl := scanned_payments ho key
    by_cases hs : starts_with key (payment_prefix_key false) = true
    · rw [if_pos hs] at hl
      simp [hmem, hl, hs]
    · rw [if_neg hs] at hl
      simp [hmem, hl, hs]

omit [Serde String] [Serde PaymentInfo] in
theorem key_ne_hash {inbound : Bool} {key : String} (hs : starts_with key (payment_prefix_key inbound) = true)
    (h : PaymentHash) : key ≠ Hex.to_hex h.toList := by
  rintro rfl
  obtain ⟨rest, hrest⟩ := List.isPrefixOf_iff_prefix.mp hs
  have hread := Hex.read_bytes_flatMap h.toList
  have hl : (Hex.to_hex h.toList).toList = h.toList.flatMap Hex.byte := String.toList_ofList
  rw [← hl, ← hrest] at hread
  -- the first letter of the key is no digit
  cases inbound with
  | true => cases hread
  | false => cases hread

variable (bolt11 now) in
omit [Serde String] [Serde PaymentInfo] in
theorem listed_source_spec {h : PaymentHash} {record : Bool × String × PaymentInfo}
    (hk : record.2.1 ≠ Hex.to_hex h.toList) :
    (Node.invoice_of_payment_info bolt11 now record.1 record.2.1 record.2.2).filter
        (fun i => i.payment_hash = Hex.to_hex h.toList) =
      (listed_source bolt11 now h record).map fun s => s.shown .get_invoice_by_hash := by
  obtain ⟨inbound, key, info⟩ := record
  unfold listed_source
  cases ht : info.bolt11 with
  | none =>
    have hne : ∀ i, Node.invoice_of_payment_info bolt11 now inbound key info = some i →
        i.payment_hash ≠ Hex.to_hex h.toList := by
      intro i hi
      unfold Node.invoice_of_payment_info at hi
      rw [ht] at hi
      cases hi
      exact hk
    simpa [Option.filter_eq_none_iff] using hne
  | some text =>
    cases hp : bolt11.from_str text with
    | none =>
      have hi : Node.invoice_of_payment_info bolt11 now inbound key info = none := by
        unfold Node.invoice_of_payment_info
        simp only [ht, hp]
      simp [hi, hp]
    | some invoice =>
      dsimp only
      rw [entry_of_bolt11 ht hp inbound key (v := .get_invoice_by_hash) nofun]
      by_cases hleft : bolt11.LeftOut now invoice info
      · simp [hp, hleft]
      · by_cases hh : invoice.payment_hash = h
        · simp [hp, hh, hleft, Source.shown, MutinyInvoice.from_invoice]
        · have hne : Hex.to_hex invoice.payment_hash.toList ≠ Hex.to_hex h.toList := by
            intro he
            exact hh (Vector.toList_inj.mp (Hex.to_hex_injective he))
          simp [hp, hh, hne, hleft, Source.shown, MutinyInvoice.from_invoice]

variable (bolt11 now) in
omit [Serde String] [Serde PaymentInfo] in
theorem find_listed (h : PaymentHash) : ∀ records : List (Bool × String × PaymentInfo),
    (∀ record ∈ records, record.2.1 ≠ Hex.to_hex h.toList) →
      (records.filterMap fun record => Node.invoice_of_payment_info bolt11 now record.1 record.2.1 record.2.2).find?
          (fun i => i.payment_hash = Hex.to_hex h.toList) =
        (records.findSome? (listed_source bolt11 now h)).map fun s => s.shown .get_invoice_by_hash
  | [], _ => rfl
  | record :: records, hkeys => by
    have ih := find_listed h records fun record' hr => hkeys record' (List.mem_cons_of_mem _ hr)
    have hone := listed_source_spec bolt11 now (hkeys record List.mem_cons_self)
    rw [List.filterMap_cons, List.findSome?_cons]
    cases hi : Node.invoice_of_payment_info bolt11 now record.1 record.2.1 record.2.2 with
    | none =>
      rw [hi] at hone
      rw [Option.map_eq_none_iff.mp hone.symm]
      exact ih
    | some i =>
      rw [hi] at hone
      dsimp only
      rw [List.find?_cons]
      by_cases hh : i.payment_hash = Hex.to_hex h.toList
      · rw [Option.filter_some, if_pos (decide_eq_true hh)] at hone
        obtain ⟨s, hs, rfl⟩ := Option.map_eq_some_iff.mp hone.symm
        simp [hs, hh]
      · rw [Option.filter_some, if_neg (by simpa using hh)] at hone
        rw [Option.map_eq_none_iff.mp hone.symm]
        simpa [hh] using ih

/-! ## Every view shows the record it rests on -/

variable {r : InvoiceRecord}

theorem InvoiceRecord.Stored.mem (h : r.Stored host storage bolt11 store) {records : List (Bool × String × PaymentInfo)}
    (hl : listed_records host storage store = some records) : (r.inbound, r.key, r.info) ∈ records := by
  apply (mem_listed_records hl r.inbound r.key r.info).mpr
  refine ⟨starts_with_own r.inbound _, ?_⟩
  obtain ⟨item, hi, hd⟩ := Option.map_eq_some_iff.mp h.stored
  refine Option.bind_eq_some_iff.mpr ⟨item, hi, ?_⟩
  rw [hd]
  rfl

theorem InvoiceRecord.Stored.gives_iff (h : r.Stored host storage bolt11 store) (v : View) (i : MutinyInvoice) :
    r.Gives host storage bolt11 node_ids now store v i ↔
      ∃ s, r.source host storage bolt11 node_ids now store v = some s ∧ i = s.shown v := by
  cases v with
  | get_invoice =>
    apply (get_invoice_iff h.parses).trans
    unfold source
    constructor
    · intro ⟨a, ha, hi⟩
      exact ⟨_, Option.map_eq_some_iff.mpr ⟨a, ha, rfl⟩, hi⟩
    · intro ⟨s, hs, hi⟩
      obtain ⟨a, ha, rfl⟩ := Option.map_eq_some_iff.mp hs
      exact ⟨a, ha, hi⟩
  | list_invoices =>
    unfold Gives source
    rw [exec_node_list_invoices]
    cases hl : listed_records host storage store with
    | none =>
      apply iff_of_false
      · nofun
      · simp
    | some records =>
      have hentry : Node.invoice_of_payment_info bolt11 now r.inbound r.key r.info =
          if bolt11.LeftOut now r.invoice r.info then none
          else some (Source.shown ⟨r.inbound, r.info, r.invoice⟩ .list_invoices) :=
        entry_of_bolt11 h.text h.parses r.inbound r.key nofun
      by_cases hleft : bolt11.LeftOut now r.invoice r.info
      · rw [if_pos hleft] at hentry
        apply iff_of_false
        · intro ⟨_, _, _, hi⟩
          cases hentry.symm.trans hi
        · simp [hleft]
      · rw [if_neg hleft] at hentry
        constructor
        · intro ⟨_, _, _, hi⟩
          exact ⟨_, if_pos ⟨rfl, hleft⟩, Option.some.inj (hi.symm.trans hentry)⟩
        · intro ⟨s, hs, hi⟩
          obtain ⟨-, hs⟩ := Option.ite_none_right_eq_some.mp hs
          cases hs
          rw [hi]
          exact ⟨_, rfl, List.mem_filterMap.mpr ⟨_, h.mem hl, hentry⟩, hentry⟩
  | get_invoice_by_hash =>
    apply (get_invoice_by_hash_iff node_ids).trans
    unfold source
    by_cases hn : node_ids = []
    · rw [if_pos hn]
      apply iff_of_false
      · intro hx
        exact hx.1 hn
      · intro ⟨s, hs, _⟩
        cases hs
    · rw [if_neg hn]
      cases hl : listed_records host storage store with
      | none =>
        apply iff_of_false
        · intro ⟨_, _, hx, _⟩
          cases hx
        · intro ⟨s, hs, _⟩
          cases hs
      | some records =>
        have hfind := find_listed bolt11 now r.invoice.payment_hash records fun record hr =>
          key_ne_hash ((mem_listed_records hl record.1 record.2.1 record.2.2).mp hr).1 _
        simp only [Option.some.injEq, exists_eq_left', Option.bind_some, hfind, Option.map_eq_some_iff]
        constructor
        · intro ⟨_, s, hs, hi⟩
          exact ⟨s, hs, hi.symm⟩
        · intro ⟨s, hs, hi⟩
          exact ⟨hn, s, hs, hi.symm⟩

/-- The record behind the list is this one. -/
theorem InvoiceRecord.eq_of_list_invoices {s : Source}
    (hs : r.source host storage bolt11 node_ids now store .list_invoices = some s) :
    s = ⟨r.inbound, r.info, r.invoice⟩ := by
  obtain ⟨-, hs⟩ := Option.ite_none_right_eq_some.mp hs
  exact (Option.some.inj hs).symm

theorem InvoiceRecord.own_invoice {v : View} {s : Source}
    (hs : r.source host storage bolt11 node_ids now store v = some s) (hv : v ≠ .get_invoice_by_hash) :
    s.invoice = r.invoice := by
  cases v with
  | get_invoice =>
    obtain ⟨_, -, rfl⟩ := Option.map_eq_some_iff.mp hs
    rfl
  | list_invoices => rw [eq_of_list_invoices hs]
  | get_invoice_by_hash => exact absurd rfl hv

theorem InvoiceRecord.Stored.source_parses (h : r.Stored host storage bolt11 store) {v : View} {s : Source}
    (hs : r.source host storage bolt11 node_ids now store v = some s) : ∃ text, bolt11.from_str text = some s.invoice := by
  by_cases hv : v = .get_invoice_by_hash
  · subst hv
    obtain ⟨-, hs⟩ := Option.ite_none_left_eq_some.mp hs
    obtain ⟨records, -, hs⟩ := Option.bind_eq_some_iff.mp hs
    obtain ⟨record, -, hs⟩ := List.exists_of_findSome?_eq_some hs
    obtain ⟨text, -, hs⟩ := Option.bind_eq_some_iff.mp hs
    obtain ⟨invoice, hp, hs⟩ := Option.bind_eq_some_iff.mp hs
    obtain ⟨-, hs⟩ := Option.ite_none_right_eq_some.mp hs
    cases hs
    exact ⟨text, hp⟩
  · rw [own_invoice hs hv]
    exact ⟨r.text, h.parses⟩

section
variable (hb : bolt11.AmountInText) (h : r.Stored host storage bolt11 store)
include hb h

theorem InvoiceRecord.amount_of_same {v w : View} {s t : Source}
    (hs : r.source host storage bolt11 node_ids now store v = some s)
    (ht : r.source host storage bolt11 node_ids now store w = some t) (hsame : s.invoice.Same t.invoice) :
    s.invoice.amount_milli_satoshis = t.invoice.amount_milli_satoshis := by
  obtain ⟨text, hp⟩ := h.source_parses hs
  obtain ⟨text', hp'⟩ := h.source_parses ht
  exact hb text text' _ _ hp hp' hsame.to_string

namespace InvoiceRecord.Consistent

variable (hc : r.Consistent host storage bolt11 node_ids now store)
include hc

theorem by_hash_amount {v : View} {s t : Source} (hs : r.source host storage bolt11 node_ids now store v = some s)
    (hv : v ≠ .get_invoice_by_hash)
    (ht : r.source host storage bolt11 node_ids now store .get_invoice_by_hash = some t) :
    t.invoice.amount_milli_satoshis = r.invoice.amount_milli_satoshis := by
  rw [← own_invoice hs hv]
  exact (amount_of_same hb h hs ht (hc.invoice _ _ _ _ hs ht)).symm

omit hb h in
/-- For an invoice without an amount, every view shows the amount of the record. -/
theorem record_amount (ha : r.invoice.amount_milli_satoshis = none) {v : View} {s : Source}
    (hs : r.source host storage bolt11 node_ids now store v = some s) :
    s.amount_sats v = r.info.amt_msat.map (· / 1000) := by
  cases v with
  | get_invoice =>
    rw [hc.without_amount ha s hs, Source.amount_sats_get_invoice, own_invoice hs nofun, ha, Option.map_none]
  | list_invoices =>
    rw [eq_of_list_invoices hs, Source.amount_sats_listed _ .list_invoices nofun, if_pos (.inl ha)]
  | get_invoice_by_hash =>
    by_cases hs0 : s.invoice.amount_milli_satoshis = none ∨ s.invoice.amount_milli_satoshis = some 0
    · rw [Source.amount_sats_listed _ .get_invoice_by_hash nofun, if_pos hs0]
      exact hc.by_hash_without_amount ha s hs hs0
    · obtain ⟨hnone, hzero⟩ := not_or.mp hs0
      obtain ⟨inv_amt, hinv⟩ := Option.ne_none_iff_exists'.mp hnone
      have hpos : inv_amt ≠ 0 := by
        rintro rfl
        exact hzero hinv
      rw [Source.amount_sats_of_positive hinv hpos]
      exact (hc.by_hash_other_invoice ha s inv_amt hs hinv hpos).symm

theorem get_invoice_amount {v : View} {s t : Source}
    (hs : r.source host storage bolt11 node_ids now store .get_invoice = some s)
    (ht : r.source host storage bolt11 node_ids now store v = some t) (hv : v ≠ .get_invoice) :
    s.amount_sats .get_invoice = t.amount_sats v := by
  have hamount := amount_of_same hb h hs ht (hc.invoice _ _ _ _ hs ht)
  rw [own_invoice hs nofun] at hamount
  cases ha : r.invoice.amount_milli_satoshis with
  | none => rw [hc.record_amount ha hs, hc.record_amount ha ht]
  | some inv_amt =>
    by_cases hz : inv_amt = 0
    · subst hz
      have hsats := no_sats_iff.mpr (hc.zero_amount ha v s t hs hv ht)
      rw [Source.amount_sats_listed t v hv, ← hamount, ha, if_pos (.inr rfl), hsats, Source.amount_sats_get_invoice,
        own_invoice hs nofun, ha]
      rfl
    · rw [Source.amount_sats_of_positive (hamount.symm.trans ha) hz,
        Source.amount_sats_of_positive ((congrArg _ (own_invoice hs nofun)).trans ha) hz]

theorem listed_amount {s t : Source} (hs : r.source host storage bolt11 node_ids now store .list_invoices = some s)
    (ht : r.source host storage bolt11 node_ids now store .get_invoice_by_hash = some t) :
    s.amount_sats .list_invoices = t.amount_sats .get_invoice_by_hash := by
  have hamount := hc.by_hash_amount hb h hs nofun ht
  cases ha : r.invoice.amount_milli_satoshis with
  | none => rw [hc.record_amount ha hs, hc.record_amount ha ht]
  | some inv_amt =>
    by_cases hz : inv_amt = 0
    · subst hz
      rw [Source.amount_sats_listed t .get_invoice_by_hash nofun, hamount, ha, if_pos (.inr rfl),
        hc.by_hash_zero_amount ha s t hs ht, Source.amount_sats_listed s .list_invoices nofun, own_invoice hs nofun, ha,
        if_pos (.inr rfl), eq_of_list_invoices hs]
    · rw [Source.amount_sats_of_positive (hamount.trans ha) hz,
        Source.amount_sats_of_positive ((congrArg _ (own_invoice hs nofun)).trans ha) hz]

theorem one_amount {v w : View} {s t : Source} (hs : r.source host storage bolt11 node_ids now store v = some s)
    (ht : r.source host storage bolt11 node_ids now store w = some t) : s.amount_sats v = t.amount_sats w := by
  by_cases hvw : v = w
  · subst hvw
    cases hs.symm.trans ht
    rfl
  · cases v with
    | get_invoice => exact hc.get_invoice_amount hb h hs ht (Ne.symm hvw)
    | list_invoices =>
      cases w with
      | get_invoice => exact (hc.get_invoice_amount hb h ht hs hvw).symm
      | list_invoices => exact absurd rfl hvw
      | get_invoice_by_hash => exact hc.listed_amount hb h hs ht
    | get_invoice_by_hash =>
      cases w with
      | get_invoice => exact (hc.get_invoice_amount hb h ht hs hvw).symm
      | list_invoices => exact (hc.listed_amount hb h ht hs).symm
      | get_invoice_by_hash => exact absurd rfl hvw

end InvoiceRecord.Consistent

theorem InvoiceRecord.ViewsAgree.consistent (hagree : r.ViewsAgree host storage bolt11 node_ids now store) :
    r.Consistent host storage bolt11 node_ids now store := by
  obtain ⟨hsame, hrecord⟩ := hagree
  have hshown : ∀ v w s t, r.source host storage bolt11 node_ids now store v = some s →
      r.source host storage bolt11 node_ids now store w = some t →
        s.invoice.Same t.invoice ∧ s.amount_sats v = t.amount_sats w := by
    intro v w s t hs ht
    have heq := hsame v w _ _ ((h.gives_iff v _).mpr ⟨s, hs, rfl⟩) ((h.gives_iff w _).mpr ⟨t, ht, rfl⟩)
    obtain ⟨hd, -, -, ha⟩ := Source.shown_eq_iff.mp heq
    exact ⟨Source.details_eq_iff.mp hd, ha⟩
  have hshows : ∀ v s, r.source host storage bolt11 node_ids now store v = some s → _ :=
    fun v s hs => hrecord v _ ((h.gives_iff v _).mpr ⟨s, hs, rfl⟩)
  refine ⟨?_, ?_, fun v w s t hs ht => (hshown v w s t hs ht).1, ?_, ?_, ?_, ?_, ?_⟩
  · intro v s hs
    obtain ⟨-, -, -, hpreimage, hfees⟩ := hshows v s hs
    exact ⟨Option.map_eq_none_iff.mp hpreimage.symm, Option.map_eq_none_iff.mp hfees.symm⟩
  · intro v s hs
    obtain ⟨hpaid, hsend, -, -, -⟩ := hshows v s hs
    have hsend : (!s.inbound) = !r.inbound := hsend
    exact ⟨by simpa using hsend, decide_eq_decide.mp hpaid⟩
  · intro ha s hs
    obtain ⟨-, -, hamount, -, -⟩ := hshows _ s hs
    have hamount : s.amount_sats .get_invoice = r.info.amt_msat.map (· / 1000) := hamount ha
    rw [Source.amount_sats_get_invoice, own_invoice hs nofun, ha] at hamount
    exact Option.map_eq_none_iff.mp hamount.symm
  · intro ha v s t hs hv ht
    obtain ⟨hinvoice, hamount⟩ := hshown _ v s t hs ht
    have hzero := (amount_of_same hb h hs ht hinvoice).symm.trans ((congrArg _ (own_invoice hs nofun)).trans ha)
    rw [Source.amount_sats_listed t v hv, hzero, if_pos (.inr rfl), Source.amount_sats_get_invoice,
      own_invoice hs nofun, ha] at hamount
    exact no_sats_iff.mp hamount.symm
  · intro ha t ht ht0
    obtain ⟨-, -, hamount, -, -⟩ := hshows _ t ht
    have hlisted := Source.amount_sats_listed t .get_invoice_by_hash nofun
    rw [if_pos ht0] at hlisted
    exact hlisted.symm.trans (hamount ha)
  · intro ha t inv_amt ht hinv hpos
    obtain ⟨-, -, hamount, -, -⟩ := hshows _ t ht
    exact (hamount ha).symm.trans (Source.amount_sats_of_positive hinv hpos .get_invoice_by_hash)
  · intro ha s t hs ht
    obtain ⟨hinvoice, hamount⟩ := hshown _ _ s t hs ht
    have hown := (congrArg Invoice.amount_milli_satoshis (own_invoice hs nofun)).trans ha
    have hzero := (amount_of_same hb h hs ht hinvoice).symm.trans hown
    rw [Source.amount_sats_listed t .get_invoice_by_hash nofun, Source.amount_sats_listed s .list_invoices nofun, hzero,
      hown, if_pos (.inr rfl), if_pos (.inr rfl), eq_of_list_invoices hs] at hamount
    exact hamount.symm

end

variable (host storage bolt11 node_ids now store r) in
/-- For every record with an invoice, the views agree with each other and with the record exactly when it has neither a
preimage nor a fee and the records behind the views are of one payment, one invoice and one amount. -/
theorem views_agree (hb : bolt11.AmountInText) (h : r.Stored host storage bolt11 store) :
    r.ViewsAgree host storage bolt11 node_ids now store ↔ r.Consistent host storage bolt11 node_ids now store := by
  constructor
  · exact InvoiceRecord.ViewsAgree.consistent hb h
  · intro hc
    refine ⟨?_, ?_⟩
    · intro v w i j hi hj
      obtain ⟨s, hs, rfl⟩ := (h.gives_iff v i).mp hi
      obtain ⟨t, ht, rfl⟩ := (h.gives_iff w j).mp hj
      obtain ⟨hsi, hss⟩ := hc.payment v s hs
      obtain ⟨hti, hts⟩ := hc.payment w t ht
      have hd := Source.details_eq_iff.mpr (hc.invoice v w s t hs ht)
      exact Source.shown_eq_iff.mpr ⟨hd, hsi.trans hti.symm, hss.trans hts.symm, hc.one_amount hb h hs ht⟩
    · intro v i hi
      obtain ⟨s, hs, rfl⟩ := (h.gives_iff v i).mp hi
      obtain ⟨hpreimage, hfee⟩ := hc.plain v s hs
      obtain ⟨hinbound, hstatus⟩ := hc.payment v s hs
      refine ⟨decide_eq_decide.mpr hstatus, congrArg not hinbound, fun ha => hc.record_amount ha hs, ?_, ?_⟩
      · rw [hpreimage]
        rfl
      · rw [hfee]
        rfl

end

/-! ## One node -/

attribute [local instance] string_serde payment_info_serde

/-- The record of the sample invoice at the node "a", when it is made and when it is paid. -/
def made_record : InvoiceRecord :=
  ⟨"a", true, ⟨none, some (.replicate 32 1), .Pending, some 1000, none, some "lnbc", 0⟩, "lnbc", sample_invoice⟩

def paid_record : InvoiceRecord :=
  { made_record with
    info := ⟨some (.replicate 32 9), some (.replicate 32 1), .Succeeded, some 1000, none, some "lnbc", 1⟩ }

def store_of (r : InvoiceRecord) : Store :=
  ((⟨r.node_id, r.invoice.payment_hash, r.info, r.inbound⟩ : PersistCall).exec open_host ⟨""⟩ ⟨∅, 0⟩).2

theorem stored_store_of {r : InvoiceRecord} (ht : r.info.bolt11 = some r.text)
    (hp : sample_bolt11.from_str r.text = some r.invoice) : r.Stored open_host ⟨""⟩ sample_bolt11 (store_of r) := by
  refine ⟨ht, hp, ?_⟩
  have hs := @stored_info_of_exec _ _ open_host ⟨""⟩ (fun _ => rfl)
    ⟨r.node_id, r.invoice.payment_hash, r.info, r.inbound⟩ ⟨∅, 0⟩ r.node_id r.inbound r.invoice.payment_hash
  rwa [if_pos ⟨rfl, rfl, rfl⟩] at hs

theorem answering_store_of {r : InvoiceRecord} (ht : r.info.bolt11 = some r.text)
    (hp : sample_bolt11.from_str r.text = some r.invoice) (hin : r.inbound = true) :
    answering open_host ⟨""⟩ (store_of r) r.invoice.payment_hash [r.node_id] = some (true, r.info) := by
  obtain ⟨-, -, hs⟩ := stored_store_of ht hp
  rw [hin] at hs
  unfold answering node_record
  rw [hs]

theorem source_store_of {r : InvoiceRecord} (ht : r.info.bolt11 = some r.text)
    (hp : sample_bolt11.from_str r.text = some r.invoice) (hin : r.inbound = true) {v : View} {s : Source}
    (h : r.source open_host ⟨""⟩ sample_bolt11 [r.node_id] 0 (store_of r) v = some s) :
    s = ⟨r.inbound, r.info, r.invoice⟩ := by
  obtain ⟨-, -, hs⟩ := stored_store_of ht hp
  cases v with
  | get_invoice =>
    unfold InvoiceRecord.source at h
    rw [answering_store_of ht hp hin] at h
    cases h
    rw [hin]
  | list_invoices => exact InvoiceRecord.eq_of_list_invoices h
  | get_invoice_by_hash =>
    unfold InvoiceRecord.source at h
    obtain ⟨-, h⟩ := Option.ite_none_left_eq_some.mp h
    obtain ⟨records, hl, h⟩ := Option.bind_eq_some_iff.mp h
    obtain ⟨⟨inbound, key, info⟩, hm, h⟩ := List.exists_of_findSome?_eq_some h
    obtain ⟨hstart, hlookup⟩ := (mem_listed_records hl inbound key info).mp hm
    obtain ⟨item, hi, -⟩ := Option.bind_eq_some_iff.mp hlookup
    -- the store has one key
    have hkey : key = r.key := by
      by_contra hne
      have hnone : (store_of r).items.lookup key = none := (AList.lookup_insert_ne hne).trans rfl
      rw [hnone] at hi
      cases hi
    subst hkey
    have hinbound := (starts_with_payment_start inbound r.inbound _).symm.trans hstart
    obtain rfl := beq_iff_eq.mp hinbound
    obtain ⟨item, hi', hd⟩ := Option.map_eq_some_iff.mp hs
    rw [show (store_of r).items.lookup r.key = some item from hi', Option.bind_some, hd] at hlookup
    cases hlookup
    unfold listed_source at h
    simp only [ht, hp, Option.bind_eq_bind, Option.bind_some] at h
    obtain ⟨-, h⟩ := Option.ite_none_right_eq_some.mp h
    exact (Option.some.inj h).symm

theorem sample_amount_in_text : sample_bolt11.AmountInText := by
  intro s t i j hi hj _
  obtain ⟨-, hi⟩ := Option.ite_none_right_eq_some.mp hi
  obtain ⟨-, hj⟩ := Option.ite_none_right_eq_some.mp hj
  cases hi
  cases hj
  rfl

theorem views_agree_made : made_record.ViewsAgree open_host ⟨""⟩ sample_bolt11 ["a"] 0 (store_of made_record) := by
  apply (views_agree open_host ⟨""⟩ sample_bolt11 ["a"] 0 (store_of made_record) made_record
    sample_amount_in_text (stored_store_of rfl rfl)).mpr
  have hown : ∀ {v s}, made_record.source open_host ⟨""⟩ sample_bolt11 ["a"] 0 (store_of made_record) v = some s →
      s = ⟨true, made_record.info, sample_invoice⟩ := fun hs => source_store_of rfl rfl rfl hs
  refine ⟨fun _ _ _ => ⟨rfl, rfl⟩, ?_, ?_, nofun, nofun, nofun, nofun, nofun⟩
  · intro v s hs
    cases hown hs
    exact ⟨rfl, Iff.rfl⟩
  · intro v w s t hs ht
    cases hown hs
    cases hown ht
    exact ⟨rfl, rfl, rfl, rfl, rfl⟩

/-- The paid invoice is shown without the preimage that its record has. -/
theorem preimage_not_shown : ¬ paid_record.ViewsAgree open_host ⟨""⟩ sample_bolt11 ["a"] 0 (store_of paid_record) := by
  intro h
  have hgives : paid_record.Gives open_host ⟨""⟩ sample_bolt11 ["a"] 0 (store_of paid_record) .get_invoice
      (shown sample_invoice true paid_record.info) :=
    (get_invoice_iff rfl).mpr ⟨_, answering_store_of (r := paid_record) rfl rfl rfl, rfl⟩
  obtain ⟨-, -, -, hpreimage, -⟩ := h.record _ _ hgives
  cases hpreimage

end Mutiny
