import Mutiny.InvoiceViews

/-!
# The hashes under which payments are listed

A payment record is persisted under its hash, and the scan gives it back under the whole key: the direction, the hash
in hexadecimal and the node. The list takes the hash from the invoice of the record, and for a record without one it
shows the key, under which `get_invoice_by_hash` never looks.
-/

namespace Mutiny

open Prog

section
variable [Serde String] [Serde PaymentInfo] (host : Host) (storage : MutinyBrowserStorage) (bolt11 : Bolt11)
  (node_ids : List String) (now : UInt64) (store : Store)

/-- The invoice in the list of a node for a record persisted under this key. -/
def ListedFor (n : String) (inbound : Bool) (id : RecordId) (info : PaymentInfo) (i : MutinyInvoice) : Prop :=
  ∃ l, exec (Node.list_invoices host bolt11 ⟨n, storage⟩ now : StorageM MutinyError _) store = (.ok l, store) ∧ i ∈ l ∧
    Node.invoice_of_payment_info bolt11 now inbound (payment_record_key inbound id) info = some i

/-- A record that a node lists is listed under its hash, and is found by it. -/
structure ListedByHash (n : String) (inbound : Bool) (id : RecordId) (info : PaymentInfo) : Prop where
  hash : ∀ i, ListedFor host storage bolt11 now store n inbound id info i → i.payment_hash = Hex.to_hex id.2.toList
  found : ∀ i, ListedFor host storage bolt11 now store n inbound id info i →
    ∃ j, (exec (NodeManager.get_invoice_by_hash host bolt11 (Hex.to_hex id.2.toList) now
        (node_ids.map fun n => ⟨n, storage⟩)) store).1 = .ok j ∧ j.payment_hash = Hex.to_hex id.2.toList

/-- The record has an invoice, which cannot be read, is left out of the list, or is for the hash of the record. -/
def HasInvoiceOf (h : PaymentHash) (info : PaymentInfo) : Prop :=
  ∃ text, info.bolt11 = some text ∧ ∀ invoice, bolt11.from_str text = some invoice →
    (bolt11.would_expire invoice now = true → info.status = .Succeeded ∨ info.status = .InFlight) →
      invoice.payment_hash = h

/-! ## What the list has for a record -/

variable {host storage bolt11 node_ids now store}

variable (bolt11 now) in
omit [Serde String] [Serde PaymentInfo] in
/-- The hash comes from the invoice, or from the key. -/
theorem entry_payment_hash (inbound : Bool) (key : String) (info : PaymentInfo) :
    (Node.invoice_of_payment_info bolt11 now inbound key info).map MutinyInvoice.payment_hash =
      match info.bolt11 with
      | none => some key
      | some text => (bolt11.from_str text).bind fun invoice =>
        if bolt11.would_expire invoice now ∧ ¬ (info.status = .Succeeded ∨ info.status = .InFlight) then none
        else some (Hex.to_hex invoice.payment_hash.toList) := by
  unfold Node.invoice_of_payment_info
  cases ht : info.bolt11 with
  | none => rfl
  | some text =>
    cases hp : bolt11.from_str text with
    | none => simp [hp]
    | some invoice =>
      by_cases hleft : bolt11.would_expire invoice now ∧ ¬ (info.status = .Succeeded ∨ info.status = .InFlight)
      · simp [hp, hleft]
      · simp only [hp, if_neg hleft, Option.bind_some]
        rfl

omit [Serde String] [Serde PaymentInfo] in
/-- A record is listed under its hash exactly when it has an invoice of the hash. -/
theorem entry_hash_iff (inbound : Bool) (id : RecordId) (info : PaymentInfo) :
    (∀ i, Node.invoice_of_payment_info bolt11 now inbound (payment_record_key inbound id) info = some i →
      i.payment_hash = Hex.to_hex id.2.toList) ↔ HasInvoiceOf bolt11 now id.2 info := by
  have hspec := entry_payment_hash bolt11 now inbound (payment_record_key inbound id) info
  have hmap : (∀ i, Node.invoice_of_payment_info bolt11 now inbound (payment_record_key inbound id) info = some i →
      i.payment_hash = Hex.to_hex id.2.toList) ↔
      ∀ hash, (Node.invoice_of_payment_info bolt11 now inbound (payment_record_key inbound id) info).map
        MutinyInvoice.payment_hash = some hash → hash = Hex.to_hex id.2.toList := by
    simp
  rw [hmap, hspec]
  unfold HasInvoiceOf
  cases ht : info.bolt11 with
  | none =>
    apply iff_of_false
    · intro h
      exact key_ne_hash (starts_with_own inbound id) id.2 (h _ rfl)
    · simp
  | some text =>
    cases hp : bolt11.from_str text with
    | none => simp [hp]
    | some invoice =>
      simp only [hp, Option.bind_some, Option.some.injEq, forall_eq', exists_eq_left']
      by_cases hleft : bolt11.would_expire invoice now ∧ ¬ (info.status = .Succeeded ∨ info.status = .InFlight)
      · rw [if_pos hleft]
        exact iff_of_true (by simp) fun hkept => absurd (hkept hleft.1) hleft.2
      · rw [if_neg hleft]
        constructor
        · intro h _
          exact Vector.toList_inj.mp (Hex.to_hex_injective (h _ rfl))
        · intro h hash hh
          cases hh
          rw [h]
          intro hexp
          by_contra hstatus
          exact hleft ⟨hexp, hstatus⟩

theorem listed_records_of_ledger {maps : Bool → AList fun _ : RecordId => PaymentInfo}
    (h : Ledger host storage store maps) : ∃ records, listed_records host storage store = some records := by
  have hscanned : ∀ inbound, ∃ map, storage.scanned (α := PaymentInfo) host (payment_prefix_key inbound) none store =
      some map := by
    intro inbound
    obtain ⟨l, hx, -⟩ := h.exec_list_payment_info (ε := MutinyError) "" inbound
    have hscan := exec_scan (α := PaymentInfo) (ε := MutinyError) host storage (payment_prefix_key inbound) none store
    cases hm : storage.scanned (α := PaymentInfo) host (payment_prefix_key inbound) none store with
    | some map => exact ⟨map, rfl⟩
    | none =>
      rw [hm] at hscan
      have hpanic : exec (list_payment_info host ⟨"", storage⟩ inbound : StorageM MutinyError _) store =
          (.error .panic, store) := exec_bind_error hscan
      rw [hpanic] at hx
      cases hx
  obtain ⟨inmap, hin⟩ := hscanned true
  obtain ⟨outmap, hout⟩ := hscanned false
  unfold listed_records
  rw [hin, hout]
  exact ⟨_, rfl⟩

theorem Ledger.mem_listed {maps : Bool → AList fun _ : RecordId => PaymentInfo} (h : Ledger host storage store maps)
    {records : List (Bool × String × PaymentInfo)} (hl : listed_records host storage store = some records)
    {inbound : Bool} {key : String} {info : PaymentInfo} : (inbound, key, info) ∈ records ↔
      ∃ id, payment_record_key inbound id = key ∧ (maps inbound).lookup id = some info := by
  apply (mem_listed_records hl inbound key info).trans
  constructor
  · intro ⟨hs, hread⟩
    obtain ⟨item, hi, -⟩ := Option.bind_eq_some_iff.mp hread
    obtain ⟨id, rfl⟩ := h.owned (AList.lookup_isSome.mp (by rw [hi]; rfl)) hs
    exact ⟨id, rfl, ((h.holds inbound).bind_read id).symm.trans hread⟩
  · intro ⟨id, hk, hi⟩
    subst hk
    exact ⟨starts_with_own inbound id, ((h.holds inbound).bind_read id).trans hi⟩

variable (bolt11 now) in
theorem Ledger.listedFor_iff {maps : Bool → AList fun _ : RecordId => PaymentInfo} (h : Ledger host storage store maps)
    {inbound : Bool} {id : RecordId} {info : PaymentInfo} (hi : (maps inbound).lookup id = some info) (n : String)
    (i : MutinyInvoice) : ListedFor host storage bolt11 now store n inbound id info i ↔
      Node.invoice_of_payment_info bolt11 now inbound (payment_record_key inbound id) info = some i := by
  obtain ⟨records, hl⟩ := listed_records_of_ledger h
  have hx := exec_node_list_invoices (ε := MutinyError) host storage bolt11 now store n
  rw [hl] at hx
  constructor
  · intro ⟨_, _, _, he⟩
    exact he
  · intro he
    exact ⟨_, hx, List.mem_filterMap.mpr ⟨_, (h.mem_listed hl).mpr ⟨id, rfl, hi⟩, he⟩, he⟩

variable (host storage bolt11 node_ids now) in
/-- After any calls on a store without payment records, a node lists a record under its hash, and it is found by it,
exactly when the record has an invoice of this hash. -/
theorem listed_by_hash_iff (store : Store)
    (hstore : ∀ key ∈ store.items, ∀ inbound, starts_with key (payment_prefix_key inbound) = false)
    (calls : List PersistCall) (inbound : Bool) (id : RecordId) (info : PaymentInfo)
    (hi : (last_persisted inbound (persist_all host storage calls store).2).lookup id = some info)
    (n : String) (hn : n ∈ node_ids) :
    ListedByHash host storage bolt11 node_ids now (persist_all host storage calls store).1 n inbound id info ↔
      HasInvoiceOf bolt11 now id.2 info := by
  have hledger : Ledger host storage (persist_all host storage calls store).1 _ := ledger_after hstore calls
  have hentry := hledger.listedFor_iff bolt11 now hi n
  rw [← entry_hash_iff inbound id info]
  constructor
  · intro h i he
    exact h.hash i ((hentry i).mpr he)
  · intro h
    have hhash : ∀ i, ListedFor host storage bolt11 now (persist_all host storage calls store).1 n inbound id info i →
        i.payment_hash = Hex.to_hex id.2.toList := fun i hi => h i ((hentry i).mp hi)
    refine ⟨hhash, ?_⟩
    intro i hlisted
    obtain ⟨records, hl⟩ := listed_records_of_ledger hledger
    have hmem : i ∈ records.filterMap fun record =>
        Node.invoice_of_payment_info bolt11 now record.1 record.2.1 record.2.2 :=
      List.mem_filterMap.mpr ⟨_, (hledger.mem_listed hl).mpr ⟨id, rfl, hi⟩, (hentry i).mp hlisted⟩
    have hfound : ((records.filterMap fun record =>
        Node.invoice_of_payment_info bolt11 now record.1 record.2.1 record.2.2).find? fun i =>
          i.payment_hash = Hex.to_hex id.2.toList).isSome := by
      apply List.find?_isSome.mpr
      exact ⟨i, hmem, by simpa using hhash i hlisted⟩
    obtain ⟨j, hj⟩ := Option.isSome_iff_exists.mp hfound
    refine ⟨j, (get_invoice_by_hash_iff node_ids).mpr ⟨List.ne_nil_of_mem hn, records, hl, hj⟩, ?_⟩
    simpa using List.find?_some hj

end

/-! ## A record with an invoice, and a payment received without one -/

attribute [local instance] string_serde payment_info_serde

def made_call : PersistCall := ⟨"a", sample_invoice.payment_hash, made_record.info, true⟩

theorem made_listed_by_hash :
    ListedByHash open_host ⟨""⟩ sample_bolt11 ["a"] 0 (persist_all open_host ⟨""⟩ [made_call] ⟨∅, 0⟩).1 "a" true
      ("a", sample_invoice.payment_hash) made_record.info := by
  apply (listed_by_hash_iff open_host ⟨""⟩ sample_bolt11 ["a"] 0 ⟨∅, 0⟩
    (fun key hk => absurd hk (AList.notMem_empty key)) [made_call] true _ _ rfl "a" (by decide)).mpr
  refine ⟨"lnbc", rfl, ?_⟩
  intro invoice hp _
  cases hp
  rfl

theorem mem_received_listed {records : List (Bool × String × PaymentInfo)}
    (hl : listed_records open_host ⟨""⟩ (persist_all open_host ⟨""⟩ [received] ⟨∅, 0⟩).1 = some records)
    {record : Bool × String × PaymentInfo} (hm : record ∈ records) : record.2.2 = received.payment_info := by
  obtain ⟨inbound, key, info⟩ := record
  obtain ⟨id, -, hi⟩ := (ledger_received.mem_listed hl).mp hm
  have hid : id ∈ last_persisted inbound [received] := AList.lookup_isSome.mp (by rw [hi]; rfl)
  obtain ⟨c, hc, rfl, rfl⟩ := mem_last_persisted.mp hid
  cases List.mem_singleton.mp hc
  have hlookup : (last_persisted received.inbound [received]).lookup (received.node_id, received.payment_hash) =
      some received.payment_info := AList.lookup_insert _
  exact (Option.some.inj (hlookup.symm.trans hi)).symm

/-- The keysend payment is listed under its key, and by its hash nothing is found. -/
theorem received_listed_by_key :
    let after := (persist_all open_host ⟨""⟩ [received] ⟨∅, 0⟩).1
    (∃ i, ListedFor open_host ⟨""⟩ sample_bolt11 0 after "a" true ("a", received.payment_hash) received.payment_info i ∧
        i.payment_hash = payment_record_key true ("a", received.payment_hash)) ∧
      (∀ i, (exec (NodeManager.get_invoice_by_hash open_host sample_bolt11 (Hex.to_hex received.payment_hash.toList) 0
        [⟨"a", ⟨""⟩⟩]) after).1 ≠ .ok i) ∧
      ¬ ListedByHash open_host ⟨""⟩ sample_bolt11 ["a"] 0 after "a" true ("a", received.payment_hash)
        received.payment_info := by
  intro after
  have hledger : Ledger open_host ⟨""⟩ after fun inbound => last_persisted inbound [received] := ledger_received
  have hlookup : (last_persisted true [received]).lookup ("a", received.payment_hash) = some received.payment_info :=
    AList.lookup_insert _
  obtain ⟨records, hl⟩ := listed_records_of_ledger hledger
  have hlisted := (hledger.listedFor_iff sample_bolt11 0 hlookup "a" _).mpr rfl
  refine ⟨⟨_, hlisted, rfl⟩, ?_, ?_⟩
  · intro i hi
    obtain ⟨-, records, hl, hfind⟩ := (get_invoice_by_hash_iff ["a"]).mp hi
    rw [find_listed sample_bolt11 0 received.payment_hash records fun record hm =>
      key_ne_hash ((mem_listed_records hl record.1 record.2.1 record.2.2).mp hm).1 _] at hfind
    obtain ⟨s, hs, -⟩ := Option.map_eq_some_iff.mp hfind
    obtain ⟨record, hm, hs⟩ := List.exists_of_findSome?_eq_some hs
    unfold listed_source at hs
    rw [mem_received_listed hl hm] at hs
    cases hs
  · intro h
    exact key_ne_hash (starts_with_own true ("a", received.payment_hash)) _ (h.hash _ hlisted)

end Mutiny
