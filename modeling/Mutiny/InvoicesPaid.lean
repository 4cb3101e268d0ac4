import Mutiny.InvoicesListed

/-!
# An invoice that was paid

`get_invoice` asks the nodes in the order of the map and takes the first record it finds. So after `PaymentClaimed` at a
node the invoice is shown as paid, in whatever order the nodes are walked, exactly when no other node has a record of
the payment that says something else (`claimed_invoice_shown`). The node that made the invoice has such a record, so
right after `create_invoice` that node must be the one that is paid.
-/

namespace Mutiny

open Prog

def shown (invoice : Invoice) (inbound : Bool) (info : PaymentInfo) : MutinyInvoice :=
  { MutinyInvoice.from_invoice invoice with is_send := !inbound, paid := info.status = .Succeeded }

def shown_paid (invoice : Invoice) : MutinyInvoice :=
  { MutinyInvoice.from_invoice invoice with is_send := false, paid := true }

theorem shown_of_succeeded {invoice : Invoice} {info : PaymentInfo} (h : info.status = .Succeeded) :
    shown invoice true info = shown_paid invoice := by
  simp [shown, shown_paid, h]

section
variable [Serde String] [Serde PaymentInfo] (host : Host) (storage : MutinyBrowserStorage)

/-- The node has no record of the payment that can be read, and reading one does not panic. -/
def Unrecorded (store : Store) (node_id : String) (h : PaymentHash) : Prop :=
  ∀ inbound, stored_info host ⟨node_id, storage⟩ inbound store h = none ∨
    ∃ e, stored_info host ⟨node_id, storage⟩ inbound store h = some (.error (.err e))

/-- The node has a record of the inbound payment that says it succeeded. -/
def PaidInbound (store : Store) (node_id : String) (h : PaymentHash) : Prop :=
  ∃ info, stored_info host ⟨node_id, storage⟩ true store h = some (.ok info) ∧ info.status = .Succeeded

/-- The record of the node can be rewritten, and no other node has a record that says something else. -/
def Undisputed (node_ids : List String) (store : Store) (node_id : String) (h : PaymentHash) : Prop :=
  stored_info host ⟨node_id, storage⟩ true store h ≠ some (.error .panic) ∧
    ∀ n ∈ node_ids, n ≠ node_id → Unrecorded host storage store n h ∨ PaidInbound host storage store n h

/-- The node manager shows the invoice as paid, and shows the same in whatever order it walks its nodes. -/
def ShownPaid (bolt11 : Bolt11) (node_ids : List String) (store : Store) (text : String) : Prop :=
  ∃ inv : MutinyInvoice, inv.paid = true ∧ ∀ walk : List String, walk.Perm node_ids →
    (exec (NodeManager.get_invoice host bolt11 (walk.map fun n => ⟨n, storage⟩) text) store).1 = .ok inv

def Parses {RouteHints : Type} (maker : InvoiceMaker RouteHints) (bolt11 : Bolt11) : Prop :=
  ∀ node amount_msat description secs invoice,
    (maker.create_invoice_from_channelmanager node amount_msat description secs = some invoice ∨
      ∃ r, maker.create_phantom_invoice node amount_msat description secs r = some invoice) →
    bolt11.from_str invoice.to_string = some invoice

/-! ## What a record changes -/

variable {host storage}

theorem stored_of_taken (c : PersistCall) {store : Store} (hw : host.refuses store.writes = false) :
    stored_info host ⟨c.node_id, storage⟩ c.inbound (c.exec host storage store).2 c.payment_hash =
      some (.ok c.payment_info) := by
  have hne : ¬ host.refuses store.writes = true := by simp [hw]
  rw [exec_persist, if_neg hne]
  have hl : AList.lookup (payment_record_key c.inbound (c.node_id, c.payment_hash)) (store.items.insert
      (payment_record_key c.inbound (c.node_id, c.payment_hash)) (storage.encode host store.writes c.payment_info)) =
        some (storage.encode host store.writes c.payment_info) := AList.lookup_insert _
  exact (congrArg (Option.map _) hl).trans (congrArg some (decode_encode host storage store.writes c.payment_info))

theorem stored_info_of_exec (hw : ∀ k, host.refuses k = false) (c : PersistCall) (store : Store) (node_id : String)
    (inbound : Bool) (h : PaymentHash) :
    stored_info host ⟨node_id, storage⟩ inbound (c.exec host storage store).2 h =
      if inbound = c.inbound ∧ node_id = c.node_id ∧ h = c.payment_hash then some (.ok c.payment_info)
      else stored_info host ⟨node_id, storage⟩ inbound store h := by
  by_cases hid : inbound = c.inbound ∧ node_id = c.node_id ∧ h = c.payment_hash
  · rw [if_pos hid]
    obtain ⟨rfl, rfl, rfl⟩ := hid
    exact stored_of_taken c (hw store.writes)
  · rw [if_neg hid, exec_persist, if_neg (by simp [hw])]
    unfold stored_info
    have hne : payment_record_key inbound (node_id, h) ≠ payment_record_key c.inbound (c.node_id, c.payment_hash) := by
      intro hk
      obtain rfl := payment_record_key_disjoint _ _ _ _ hk
      have hp := payment_record_key_injective _ hk
      simp only [Prod.mk.injEq] at hp
      exact hid ⟨rfl, hp⟩
    exact congrArg (Option.map _) (AList.lookup_insert_ne hne)

theorem exec_persist_ok (hw : ∀ k, host.refuses k = false) (c : PersistCall) (store : Store) :
    (c.exec host storage store).1 = .ok () :=
  congrArg Prod.fst (persist_taken storage c (hw store.writes))

theorem exec_handle_payment_claimed (hw : ∀ k, host.refuses k = false) {node_id : String} {h : PaymentHash}
    {store : Store} (hread : stored_info host ⟨node_id, storage⟩ true store h ≠ some (.error .panic))
    (purpose : PaymentPurpose) (amount_msat now : UInt64) : ∃ info : PaymentInfo, info.status = .Succeeded ∧
      ∀ n inbound h', stored_info host ⟨n, storage⟩ inbound (exec (handle_payment_claimed host ⟨node_id, storage⟩ h purpose
          amount_msat now : StorageM MutinyError Unit) store).2 h' =
        if inbound = true ∧ n = node_id ∧ h' = h then some (.ok info)
        else stored_info host ⟨n, storage⟩ inbound store h' := by
  have hr := exec_read_payment_info (ε := MutinyError) host ⟨node_id, storage⟩ true store h
  have hwrite : ∀ info : PaymentInfo, exec (do
      let _ ← result (MutinyNodePersister.persist_payment_info host ⟨node_id, storage⟩ h info true)
      return () : StorageM MutinyError Unit) store =
        (.ok (), ((⟨node_id, h, info, true⟩ : PersistCall).exec host storage store).2) := by
    intro info
    have hx : exec (MutinyNodePersister.persist_payment_info host ⟨node_id, storage⟩ h info true) store =
        (.ok (), ((⟨node_id, h, info, true⟩ : PersistCall).exec host storage store).2) :=
      Prod.ext (exec_persist_ok hw ⟨node_id, h, info, true⟩ store) rfl
    exact exec_bind_ok (exec_result_ok hx)
  -- in both branches one record is written
  have hdone : ∀ info : PaymentInfo, info.status = .Succeeded →
      exec (handle_payment_claimed host ⟨node_id, storage⟩ h purpose amount_msat now : StorageM MutinyError Unit) store =
        (.ok (), ((⟨node_id, h, info, true⟩ : PersistCall).exec host storage store).2) →
      ∃ info : PaymentInfo, info.status = .Succeeded ∧
        ∀ n inbound h', stored_info host ⟨n, storage⟩ inbound (exec (handle_payment_claimed host ⟨node_id, storage⟩ h
            purpose amount_msat now : StorageM MutinyError Unit) store).2 h' =
          if inbound = true ∧ n = node_id ∧ h' = h then some (.ok info)
          else stored_info host ⟨n, storage⟩ inbound store h' := by
    intro info hs hx
    rw [hx]
    exact ⟨info, hs, fun n inbound h' => stored_info_of_exec hw ⟨node_id, h, info, true⟩ store n inbound h'⟩
  have hnew : exec (MutinyNodePersister.read_payment_info host ⟨node_id, storage⟩ h true : StorageM MutinyError _) store =
      (.ok none, store) → _ := fun hr =>
    hdone ⟨purpose.parts.1, purpose.parts.2, .Succeeded, some amount_msat, none, none, now⟩ rfl
      ((exec_bind_ok hr).trans (hwrite _))
  cases hi : stored_info host ⟨node_id, storage⟩ true store h with
  | none =>
    rw [hi] at hr
    exact hnew hr
  | some res =>
    rw [hi] at hr
    cases res with
    | ok info => exact hdone { info with
        status := .Succeeded, preimage := purpose.parts.1, secret := purpose.parts.2, amt_msat := some amount_msat,
        last_update := now } rfl ((exec_bind_ok hr).trans (hwrite _))
    | error e =>
      cases e with
      | err e => exact hnew hr
      | panic => exact absurd hi hread

/-! ## What a node answers -/

section
variable (invoice : Invoice) (store : Store) (n : String)

theorem exec_get_invoice_inbound {info : PaymentInfo}
    (h : stored_info host ⟨n, storage⟩ true store invoice.payment_hash = some (.ok info)) :
    exec (Node.get_invoice host ⟨n, storage⟩ invoice) store = (.ok (shown invoice true info), store) := by
  have hr := exec_read_payment_info (ε := MutinyError) host ⟨n, storage⟩ true store invoice.payment_hash
  rw [h] at hr
  have hg : exec (Node.get_payment_info_from_persisters host ⟨n, storage⟩ invoice.payment_hash) store =
      (.ok (info, true), store) := exec_bind_ok hr
  exact exec_bind_ok hg

theorem exec_get_invoice_panic
    (h : stored_info host ⟨n, storage⟩ true store invoice.payment_hash = some (.error .panic)) :
    exec (Node.get_invoice host ⟨n, storage⟩ invoice) store = (.error .panic, store) := by
  have hr := exec_read_payment_info (ε := MutinyError) host ⟨n, storage⟩ true store invoice.payment_hash
  rw [h] at hr
  exact exec_bind_error (exec_bind_error hr)

theorem exec_get_invoice_outbound
    (h : stored_info host ⟨n, storage⟩ true store invoice.payment_hash = none ∨
      ∃ e, stored_info host ⟨n, storage⟩ true store invoice.payment_hash = some (.error (.err e))) :
    exec (Node.get_invoice host ⟨n, storage⟩ invoice) store =
      (match stored_info host ⟨n, storage⟩ false store invoice.payment_hash with
        | some (.ok info) => .ok (shown invoice false info)
        | some (.error .panic) => .error .panic
        | some (.error (.err _)) => .error (.err .InvoiceInvalid)
        | none => .error (.err .InvoiceInvalid), store) := by
  have hin : exec (MutinyNodePersister.read_payment_info host ⟨n, storage⟩ invoice.payment_hash true :
      StorageM MutinyError _) store = (.ok none, store) := by
    rw [exec_read_payment_info]
    rcases h with h | ⟨e, h⟩ <;> rw [h]
  have hout := exec_read_payment_info (ε := MutinyError) host ⟨n, storage⟩ false store invoice.payment_hash
  unfold Node.get_invoice Node.get_payment_info_from_persisters
  rcases hs : stored_info host ⟨n, storage⟩ false store invoice.payment_hash with _ | ⟨_ | _⟩ | info
  · rw [hs] at hout
    exact exec_bind_error ((exec_bind_ok hin).trans (exec_bind_ok hout))
  · rw [hs] at hout
    exact exec_bind_error ((exec_bind_ok hin).trans (exec_bind_ok hout))
  · rw [hs] at hout
    exact exec_bind_error ((exec_bind_ok hin).trans (exec_bind_error hout))
  · rw [hs] at hout
    have hg : exec (Node.get_payment_info_from_persisters host ⟨n, storage⟩ invoice.payment_hash) store =
        (.ok (info, false), store) := (exec_bind_ok hin).trans (exec_bind_ok hout)
    exact exec_bind_ok hg

theorem exec_get_invoice_unrecorded (h : Unrecorded host storage store n invoice.payment_hash) :
    exec (Node.get_invoice host ⟨n, storage⟩ invoice) store = (.error (.err .InvoiceInvalid), store) := by
  rw [exec_get_invoice_outbound invoice store n (h true)]
  rcases h false with h | ⟨e, h⟩ <;> rw [h]

theorem unrecorded_or_paid_of_answer
    (h : (exec (Node.get_invoice host ⟨n, storage⟩ invoice) store).1 = .ok (shown_paid invoice) ∨
      ∃ e, (exec (Node.get_invoice host ⟨n, storage⟩ invoice) store).1 = .error (.err e)) :
    Unrecorded host storage store n invoice.payment_hash ∨ PaidInbound host storage store n invoice.payment_hash := by
  have hstatus : ∀ (inbound : Bool) (info : PaymentInfo), shown invoice inbound info = shown_paid invoice →
      inbound = true ∧ info.status = .Succeeded := by
    intro inbound info he
    have hp := congrArg MutinyInvoice.paid he
    have hs := congrArg MutinyInvoice.is_send he
    exact ⟨by simpa [shown, shown_paid] using hs, by simpa [shown, shown_paid] using hp⟩
  -- without a readable inbound record the outbound one decides
  have hout : (stored_info host ⟨n, storage⟩ true store invoice.payment_hash = none ∨
      ∃ e, stored_info host ⟨n, storage⟩ true store invoice.payment_hash = some (.error (.err e))) →
      Unrecorded host storage store n invoice.payment_hash := by
    intro hin
    rw [exec_get_invoice_outbound invoice store n hin] at h
    intro inbound
    cases inbound with
    | true => exact hin
    | false =>
      rcases hs : stored_info host ⟨n, storage⟩ false store invoice.payment_hash with _ | ⟨e | _⟩ | info
      · exact .inl rfl
      · exact .inr ⟨e, rfl⟩
      · simp [hs] at h
      · rcases h with h | ⟨e, h⟩
        · simp only [hs, Except.ok.injEq] at h
          exact absurd (hstatus false info h).1 (by decide)
        · simp [hs] at h
  rcases hi : stored_info host ⟨n, storage⟩ true store invoice.payment_hash with _ | ⟨e | _⟩ | info
  · exact .inl (hout (.inl hi))
  · exact .inl (hout (.inr ⟨e, hi⟩))
  · rw [exec_get_invoice_panic invoice store n hi] at h
    simp at h
  · rw [exec_get_invoice_inbound invoice store n hi] at h
    rcases h with h | ⟨e, h⟩
    · exact .inr ⟨info, hi, (hstatus true info (Except.ok.inj h)).2⟩
    · cases h

end

/-! ## What the node manager answers -/

theorem exec_find_invoice {invoice : Invoice} {store : Store} {i : MutinyInvoice} : ∀ {walk : List String},
    (∀ n ∈ walk, exec (Node.get_invoice host ⟨n, storage⟩ invoice) store = (.ok i, store) ∨
      ∃ e, exec (Node.get_invoice host ⟨n, storage⟩ invoice) store = (.error (.err e), store)) →
    (∃ n ∈ walk, exec (Node.get_invoice host ⟨n, storage⟩ invoice) store = (.ok i, store)) →
      exec (NodeManager.find_invoice host invoice (walk.map fun n => ⟨n, storage⟩)) store = (.ok (some i), store)
  | [], _, hex => by
    obtain ⟨n, hn, -⟩ := hex
    cases hn
  | n :: walk, hall, hex => by
    rcases hall n (by simp) with hx | ⟨e, hx⟩
    · exact exec_bind_ok (exec_result_ok hx)
    · refine (exec_bind_ok (exec_result_err hx)).trans (exec_find_invoice (fun m hm => hall m (by simp [hm])) ?_)
      obtain ⟨m, hm, hmx⟩ := hex
      rcases List.mem_cons.mp hm with rfl | hm
      · rw [hx] at hmx
        cases hmx
      · exact ⟨m, hm, hmx⟩

/-- A node that is asked first answers for all, unless it answers with an error. -/
theorem answer_of_first {bolt11 : Bolt11} {text : String} {invoice : Invoice} (hp : bolt11.from_str text = some invoice)
    {store : Store} {n : String} {walk : List String} {inv : MutinyInvoice}
    (h : (exec (NodeManager.get_invoice host bolt11 ((n :: walk).map fun n => ⟨n, storage⟩) text) store).1 = .ok inv) :
    (exec (Node.get_invoice host ⟨n, storage⟩ invoice) store).1 = .ok inv ∨
      ∃ e, (exec (Node.get_invoice host ⟨n, storage⟩ invoice) store).1 = .error (.err e) := by
  unfold NodeManager.get_invoice at h
  simp only [hp] at h
  rcases hx : exec (Node.get_invoice host ⟨n, storage⟩ invoice) store with ⟨(e | _) | i, t⟩
  · exact .inr ⟨e, rfl⟩
  · have hf : exec (NodeManager.find_invoice host invoice ((n :: walk).map fun n => ⟨n, storage⟩)) store =
        (.error .panic, t) := exec_bind_error (exec_result_panic hx)
    rw [exec_bind_error hf] at h
    cases h
  · have hf : exec (NodeManager.find_invoice host invoice ((n :: walk).map fun n => ⟨n, storage⟩)) store =
        (.ok (some i), t) := exec_bind_ok (exec_result_ok hx)
    rw [exec_bind_ok hf] at h
    exact .inl h

section
variable (hw : ∀ k, host.refuses k = false) {bolt11 : Bolt11} {text : String} {invoice : Invoice}
  (hp : bolt11.from_str text = some invoice)
include hw hp

/-- Whatever the store held before, the claimed invoice is shown as paid exactly when no record disputes it. -/
theorem shown_paid_iff {node_ids : List String} {m : String} (hm : m ∈ node_ids) (store : Store)
    (purpose : PaymentPurpose) (amount_msat now : UInt64) :
    ShownPaid host storage bolt11 node_ids (exec (handle_payment_claimed host ⟨m, storage⟩ invoice.payment_hash purpose
        amount_msat now : StorageM MutinyError Unit) store).2 text ↔
      Undisputed host storage node_ids store m invoice.payment_hash := by
  have hfirst : ∀ n ∈ node_ids, (n :: node_ids.erase n).Perm node_ids := fun n hn => (List.perm_cons_erase hn).symm
  constructor
  · rintro ⟨inv, hpaid, hwalk⟩
    have hread : stored_info host ⟨m, storage⟩ true store invoice.payment_hash ≠ some (.error .panic) := by
      intro hpanic
      -- the event is not handled, and the node panics when it is asked
      have hr := exec_read_payment_info (ε := MutinyError) host ⟨m, storage⟩ true store invoice.payment_hash
      rw [hpanic] at hr
      have hx : exec (handle_payment_claimed host ⟨m, storage⟩ invoice.payment_hash purpose amount_msat now :
          StorageM MutinyError Unit) store = (.error .panic, store) := exec_bind_error hr
      rw [hx] at hwalk
      have ha := answer_of_first hp (hwalk _ (hfirst m hm))
      rw [exec_get_invoice_panic invoice store m hpanic] at ha
      simp at ha
    obtain ⟨info, hs, hafter⟩ := exec_handle_payment_claimed hw hread purpose amount_msat now
    have hmine := hafter m true invoice.payment_hash
    rw [if_pos ⟨rfl, rfl, rfl⟩] at hmine
    have hinv : inv = shown_paid invoice := by
      have ha := answer_of_first hp (hwalk _ (hfirst m hm))
      rw [exec_get_invoice_inbound invoice _ m hmine, shown_of_succeeded hs] at ha
      rcases ha with ha | ⟨e, ha⟩
      · exact (Except.ok.inj ha).symm
      · cases ha
    refine ⟨hread, fun n hn hne => ?_⟩
    have ha := answer_of_first hp (hwalk _ (hfirst n hn))
    rw [hinv] at ha
    have hframe : ∀ inbound, stored_info host ⟨n, storage⟩ inbound _ invoice.payment_hash =
        stored_info host ⟨n, storage⟩ inbound store invoice.payment_hash :=
      fun inbound => (hafter n inbound invoice.payment_hash).trans (if_neg fun h => hne h.2.1)
    rcases unrecorded_or_paid_of_answer invoice _ n ha with hu | ⟨info', hi, hst⟩
    · refine .inl fun inbound => ?_
      rw [← hframe inbound]
      exact hu inbound
    · exact .inr ⟨info', (hframe true).symm.trans hi, hst⟩
  · rintro ⟨hread, hothers⟩
    obtain ⟨info, hs, hafter⟩ := exec_handle_payment_claimed hw hread purpose amount_msat now
    have hmine := hafter m true invoice.payment_hash
    rw [if_pos ⟨rfl, rfl, rfl⟩] at hmine
    refine ⟨shown_paid invoice, rfl, fun walk hperm => ?_⟩
    generalize (exec (handle_payment_claimed host ⟨m, storage⟩ invoice.payment_hash purpose amount_msat now :
      StorageM MutinyError Unit) store).2 = store' at hafter hmine ⊢
    have hone : exec (Node.get_invoice host ⟨m, storage⟩ invoice) store' = (.ok (shown_paid invoice), store') := by
      rw [exec_get_invoice_inbound invoice store' m hmine, shown_of_succeeded hs]
    have hall : ∀ n ∈ walk,
        exec (Node.get_invoice host ⟨n, storage⟩ invoice) store' = (.ok (shown_paid invoice), store') ∨
          ∃ e, exec (Node.get_invoice host ⟨n, storage⟩ invoice) store' = (.error (.err e), store') := by
      intro n hn
      by_cases hne : n = m
      · subst hne
        exact .inl hone
      · have hframe : ∀ inbound, stored_info host ⟨n, storage⟩ inbound store' invoice.payment_hash =
            stored_info host ⟨n, storage⟩ inbound store invoice.payment_hash :=
          fun inbound => (hafter n inbound invoice.payment_hash).trans (if_neg fun h => hne h.2.1)
        rcases hothers n (hperm.mem_iff.mp hn) hne with hu | ⟨info', hi, hst⟩
        · right
          refine ⟨_, exec_get_invoice_unrecorded invoice store' n fun inbound => ?_⟩
          rw [hframe inbound]
          exact hu inbound
        · left
          rw [exec_get_invoice_inbound invoice store' n ((hframe true).trans hi), shown_of_succeeded hst]
    have hfind := exec_find_invoice hall ⟨m, hperm.mem_iff.mpr hm, hone⟩
    unfold NodeManager.get_invoice
    simp only [hp]
    rw [exec_bind_ok hfind]
    rfl

end

/-! ## The invoice that `create_invoice` makes -/

variable {RouteHints : Type} {maker : InvoiceMaker RouteHints} {amount : Option UInt64} {description : String}
  {now : UInt64} {inv : MutinyInvoice} {s₀ s₁ : Store}

theorem create_invoice_ok (hw : ∀ k, host.refuses k = false) {node_ids : List String}
    (hx : exec (NodeManager.create_invoice host maker (node_ids.map fun n => ⟨n, storage⟩) amount description now) s₀ =
      (.ok inv, s₁)) : ∃ first rest invoice info, node_ids = first :: rest ∧ inv = .from_invoice invoice ∧
        (∃ amount_msat secs, maker.create_invoice_from_channelmanager ⟨first, storage⟩ amount_msat description secs =
            some invoice ∨
          ∃ r, maker.create_phantom_invoice ⟨first, storage⟩ amount_msat description secs r = some invoice) ∧
        info.status = .Pending ∧
        s₁ = ((⟨first, invoice.payment_hash, info, true⟩ : PersistCall).exec host storage s₀).2 := by
  cases node_ids with
  | nil => cases hx
  | cons first rest =>
    obtain ⟨invoice, t, hnode, hret⟩ := exec_bind_eq_ok hx
    cases hret
    unfold Node.create_invoice at hnode
    dsimp only at hnode
    split at hnode
    · cases hnode
    · next made hmade =>
      obtain ⟨_, u, hpersist, hret⟩ := exec_bind_eq_ok hnode
      cases hret
      have hmade' : ∃ amount_msat secs,
          maker.create_invoice_from_channelmanager ⟨first, storage⟩ amount_msat description secs = some invoice ∨
            ∃ r, maker.create_phantom_invoice ⟨first, storage⟩ amount_msat description secs r = some invoice := by
        split at hmade
        · exact ⟨_, _, .inl hmade⟩
        · next r _ => exact ⟨_, _, .inr ⟨r, hmade⟩⟩
      refine ⟨first, rest, invoice, ⟨none, some invoice.payment_secret, .Pending, amount.map fun s => s * 1000, none,
        some invoice.to_string, now⟩, rfl, rfl, hmade', rfl, ?_⟩
      have hok := @exec_persist_ok _ _ _ storage hw ⟨first, invoice.payment_hash, ⟨none,
        some invoice.payment_secret, .Pending, amount.map fun s => s * 1000, none, some invoice.to_string, now⟩, true⟩ s₀
      have hconv := convert_ok (fun _ => MutinyError.InvoiceCreationFailed) (Prod.ext hok rfl :
        exec (MutinyNodePersister.persist_payment_info host ⟨first, storage⟩ invoice.payment_hash ⟨none,
          some invoice.payment_secret, .Pending, amount.map fun s => s * 1000, none, some invoice.to_string, now⟩ true) s₀ =
          (.ok (), _))
      rw [hconv] at hpersist
      exact (congrArg Prod.snd hpersist).symm

/-- For an invoice that was made, whatever happens to the store until the payment is claimed: the invoice is shown as
paid exactly when no record disputes it; and right after an invoice with a new payment hash was made, that is so exactly
for the node that made it. -/
theorem claimed_invoice_shown (hw : ∀ k, host.refuses k = false) {bolt11 : Bolt11} (hparse : Parses maker bolt11)
    {node_ids : List String}
    (hx : exec (NodeManager.create_invoice host maker (node_ids.map fun n => ⟨n, storage⟩) amount description now) s₀ =
      (.ok inv, s₁)) : ∃ text invoice, inv.bolt11 = some text ∧ bolt11.from_str text = some invoice ∧ ∀ m ∈ node_ids,
        (∀ (store : Store) (purpose : PaymentPurpose) (amount_msat claimed_at : UInt64),
          ShownPaid host storage bolt11 node_ids (exec (handle_payment_claimed host ⟨m, storage⟩ invoice.payment_hash
            purpose amount_msat claimed_at : StorageM MutinyError Unit) store).2 text ↔
              Undisputed host storage node_ids store m invoice.payment_hash) ∧
        ((∀ n ∈ node_ids, Unrecorded host storage s₀ n invoice.payment_hash) →
          (Undisputed host storage node_ids s₁ m invoice.payment_hash ↔ node_ids.head? = some m)) := by
  obtain ⟨first, rest, invoice, info, rfl, rfl, ⟨amount_msat, secs, hmade⟩, hpending, rfl⟩ := create_invoice_ok hw hx
  have hp := hparse _ _ _ _ _ hmade
  refine ⟨invoice.to_string, invoice, rfl, hp, fun m hm => ⟨fun store purpose amount_msat claimed_at =>
    shown_paid_iff hw hp hm store purpose amount_msat claimed_at, fun hfresh => ?_⟩⟩
  have hstored := fun n inbound => @stored_info_of_exec _ _ _ storage hw
    ⟨first, invoice.payment_hash, info, true⟩ s₀ n inbound invoice.payment_hash
  have hfirst := hstored first true
  rw [if_pos ⟨rfl, rfl, rfl⟩] at hfirst
  constructor
  · rintro ⟨-, hothers⟩
    by_contra hne
    -- the node that made the invoice has a pending record
    rcases hothers first (by simp) fun h => hne (by simp [h]) with hu | ⟨info', hi, hst⟩
    · rcases hu true with hu | ⟨e, hu⟩ <;> simp [hu] at hfirst
    · rw [hfirst] at hi
      cases hi
      simp [hpending] at hst
  · intro hhead
    obtain rfl : first = m := by simpa using hhead
    refine ⟨by rw [hfirst]; simp, fun n hn hne => .inl fun inbound => ?_⟩
    rw [hstored n inbound, if_neg fun h => hne h.2.1]
    exact hfresh n hn inbound

end

/-! ## Two nodes and a phantom invoice -/

attribute [local instance] string_serde payment_info_serde

def sample_maker : InvoiceMaker Unit where
  get_phantom_route_hints _ := ()
  create_invoice_from_channelmanager _ _ _ _ := some sample_invoice
  create_phantom_invoice _ _ _ _ _ := some sample_invoice

theorem sample_parses : Parses sample_maker sample_bolt11 := by
  intro node amount_msat description secs invoice h
  rcases h with h | ⟨r, h⟩ <;> cases h <;> rfl

def invoiced : Store :=
  (exec (NodeManager.create_invoice open_host sample_maker (["a", "b"].map fun n => ⟨n, ⟨""⟩⟩) (some 1) "" 0) ⟨∅, 0⟩).2

def paid_maker : Store :=
  (exec (handle_payment_claimed open_host ⟨"a", ⟨""⟩⟩ sample_invoice.payment_hash
    (.InvoicePayment (some (.replicate 32 9)) (.replicate 32 1)) 1000 1 : StorageM MutinyError Unit) invoiced).2

theorem claimed_invoice_shown_first :
    ShownPaid open_host ⟨""⟩ sample_bolt11 ["a", "b"] paid_maker sample_invoice.to_string := by
  have hx : exec (NodeManager.create_invoice open_host sample_maker (["a", "b"].map fun n => ⟨n, ⟨""⟩⟩) (some 1) "" 0)
      ⟨∅, 0⟩ = (.ok (.from_invoice sample_invoice), invoiced) := rfl
  obtain ⟨text, invoice, htext, hparse, hall⟩ := claimed_invoice_shown (fun _ => rfl) sample_parses hx
  cases htext
  cases hparse
  obtain ⟨hshown, hmaker⟩ := hall "a" (by simp)
  have hfresh : ∀ n ∈ ["a", "b"], Unrecorded open_host ⟨""⟩ ⟨∅, 0⟩ n sample_invoice.payment_hash :=
    fun _ _ _ => .inl rfl
  exact (hshown _ _ _ _).mpr ((hmaker hfresh).mpr rfl)

def paid_other : Store :=
  (exec (handle_payment_claimed open_host ⟨"b", ⟨""⟩⟩ sample_invoice.payment_hash
    (.InvoicePayment (some (.replicate 32 9)) (.replicate 32 1)) 1000 1 : StorageM MutinyError Unit) invoiced).2

/-- The node "a" made the invoice and the node "b" was paid: whether the invoice is shown as paid depends on which of
them is asked first. -/
theorem claimed_invoice_not_shown :
    (∃ inv : MutinyInvoice, (exec (NodeManager.get_invoice open_host sample_bolt11 (["a", "b"].map fun n => ⟨n, ⟨""⟩⟩)
        sample_invoice.to_string) paid_other).1 = .ok inv ∧ inv.paid = false) ∧
      (∃ inv : MutinyInvoice, (exec (NodeManager.get_invoice open_host sample_bolt11 (["b", "a"].map fun n => ⟨n, ⟨""⟩⟩)
        sample_invoice.to_string) paid_other).1 = .ok inv ∧ inv.paid = true) ∧
      ¬ ShownPaid open_host ⟨""⟩ sample_bolt11 ["a", "b"] paid_other sample_invoice.to_string := by
  have hw : ∀ k, open_host.refuses k = false := fun _ => rfl
  let info : PaymentInfo := ⟨none, some (.replicate 32 1), .Pending, some 1000, none, some "lnbc", 0⟩
  have hinvoiced : invoiced =
      ((⟨"a", sample_invoice.payment_hash, info, true⟩ : PersistCall).exec open_host ⟨""⟩ ⟨∅, 0⟩).2 := rfl
  have ha := @stored_info_of_exec _ _ _ ⟨""⟩ hw ⟨"a", sample_invoice.payment_hash, info, true⟩ ⟨∅, 0⟩ "a" true
    sample_invoice.payment_hash
  have hb := @stored_info_of_exec _ _ _ ⟨""⟩ hw ⟨"a", sample_invoice.payment_hash, info, true⟩ ⟨∅, 0⟩ "b" true
    sample_invoice.payment_hash
  rw [← hinvoiced, if_pos ⟨rfl, rfl, rfl⟩] at ha
  rw [← hinvoiced, if_neg (by decide)] at hb
  have hread : stored_info open_host ⟨"b", ⟨""⟩⟩ true invoiced sample_invoice.payment_hash ≠ some (.error .panic) := by
    rw [hb]
    exact nofun
  obtain ⟨info', hs, hafter⟩ := exec_handle_payment_claimed hw hread
    (.InvoicePayment (some (.replicate 32 9)) (.replicate 32 1)) 1000 1
  have hpa := (hafter "a" true sample_invoice.payment_hash).trans (if_neg (by decide))
  have hpb := (hafter "b" true sample_invoice.payment_hash).trans (if_pos ⟨rfl, rfl, rfl⟩)
  rw [ha] at hpa
  have hxa := exec_get_invoice_inbound sample_invoice paid_other "a" hpa
  have hxb := exec_get_invoice_inbound sample_invoice paid_other "b" hpb
  have hfirst : ∀ n m inv, exec (Node.get_invoice open_host ⟨n, ⟨""⟩⟩ sample_invoice) paid_other = (.ok inv, paid_other) →
      (exec (NodeManager.get_invoice open_host sample_bolt11 ([n, m].map fun n => ⟨n, ⟨""⟩⟩)
        sample_invoice.to_string) paid_other).1 = .ok inv := by
    intro n m inv hx
    have hfind : exec (NodeManager.find_invoice open_host sample_invoice ([n, m].map fun n => ⟨n, ⟨""⟩⟩)) paid_other =
        (.ok (some inv), paid_other) := exec_bind_ok (exec_result_ok hx)
    have hp : sample_bolt11.from_str sample_invoice.to_string = some sample_invoice := rfl
    unfold NodeManager.get_invoice
    simp only [hp]
    rw [exec_bind_ok hfind]
    rfl
  have hab : (exec (NodeManager.get_invoice open_host sample_bolt11 (["a", "b"].map fun n => ⟨n, ⟨""⟩⟩)
      sample_invoice.to_string) paid_other).1 = .ok (shown sample_invoice true info) :=
    hfirst "a" "b" _ hxa
  have hba : (exec (NodeManager.get_invoice open_host sample_bolt11 (["b", "a"].map fun n => ⟨n, ⟨""⟩⟩)
      sample_invoice.to_string) paid_other).1 = .ok (shown sample_invoice true info') :=
    hfirst "b" "a" _ hxb
  refine ⟨⟨_, hab, rfl⟩, ⟨_, hba, by simp [shown, hs]⟩, ?_⟩
  rintro ⟨inv, hpaid, hwalk⟩
  have hinv := hwalk ["a", "b"] (.refl _)
  rw [hab] at hinv
  cases hinv
  cases hpaid

end Mutiny
