import Mutiny.Browser
import Mutiny.Payment

/-!
# What the payment records say

`record` is what is stored for an outbound payment. As long as `pay_invoice` is not called for a payment that is
pending, that was reported as sent, or whose last failure is still to be handled, the record of a pending payment is
never `Failed` and the record of a sent payment keeps its preimage and fee (`payment_records`).
-/

namespace Mutiny

open Prog

/-! ## The stored record -/

theorem payment_key_injective {inbound : Bool} {h h' : PaymentHash} (hk : payment_key inbound h = payment_key inbound h') :
    h = h' := by
  unfold payment_key at hk
  split at hk
  · exact Vector.toList_inj.mp (Hex.to_hex_injective ((String.append_right_inj _).mp hk))
  · exact Vector.toList_inj.mp (Hex.to_hex_injective ((String.append_right_inj _).mp hk))

section
variable [Serde String] [Serde PaymentInfo] (host : Host) (persister : MutinyNodePersister)

def record (store : Store) (h : PaymentHash) : Option PaymentInfo :=
  (store.items.lookup (persister.get_key (payment_key false h))).bind fun item =>
    (persister.storage.decode host.crypto item).toOption

/-- What is read under the key of a payment, if there is something. -/
def stored_info (inbound : Bool) (store : Store) (h : PaymentHash) :
    Option (Except (Fault MutinyStorageError) PaymentInfo) :=
  (store.items.lookup (persister.get_key (payment_key inbound h))).map (persister.storage.decode host.crypto)

theorem record_eq_some {store : Store} {h : PaymentHash} {info : PaymentInfo} :
    record host persister store h = some info ↔ stored_info host persister false store h = some (.ok info) := by
  unfold record stored_info
  cases store.items.lookup (persister.get_key (payment_key false h)) with
  | none => simp
  | some item => simp [toOption_eq_some]

theorem exec_read_payment_info {ε : Type} (inbound : Bool) (store : Store) (h : PaymentHash) :
    exec (persister.read_payment_info host h inbound : StorageM ε _) store =
      (match stored_info host persister inbound store h with
        | some (.ok info) => .ok (some info)
        | some (.error .panic) => .error .panic
        | some (.error (.err _)) => .ok none
        | none => .ok none, store) := by
  have hg := exec_get (α := PaymentInfo) host persister.storage (persister.get_key (payment_key inbound h)) store
  unfold MutinyNodePersister.read_payment_info stored_info
  dsimp only
  cases hi : store.items.lookup (persister.get_key (payment_key inbound h)) with
  | none =>
    simp only [hi] at hg
    rw [exec_bind_ok (exec_result_err hg)]
    rfl
  | some item =>
    simp only [hi] at hg
    simp only [Option.map_some]
    cases hd : (persister.storage.decode host.crypto item : Except (Fault MutinyStorageError) PaymentInfo) with
    | ok info =>
      rw [hd] at hg
      rw [exec_bind_ok (exec_result_ok hg)]
      rfl
    | error e =>
      rw [hd] at hg
      cases e with
      | err e =>
        rw [exec_bind_ok (exec_result_err hg)]
        rfl
      | panic => exact exec_bind_error (exec_result_panic hg)

theorem exec_read_record {ε : Type} {store : Store} {h : PaymentHash} {info : PaymentInfo}
    (hr : record host persister store h = some info) :
    exec (persister.read_payment_info host h false : StorageM ε _) store = (.ok (some info), store) := by
  rw [exec_read_payment_info, (record_eq_some host persister).mp hr]

theorem exec_persist_payment_info (h : PaymentHash) (info : PaymentInfo) {store : Store}
    (hw : host.refuses store.writes = false) : ∃ store',
    exec (persister.persist_payment_info host h info false) store = (.ok (), store') ∧
      ∀ h', record host persister store' h' = if h' = h then some info else record host persister store h' := by
  have hs := exec_convert_set host persister.storage (persister.get_key (payment_key false h)) IoError.other info store
  rw [if_neg (by simp [hw])] at hs
  refine ⟨_, hs, fun h' => ?_⟩
  unfold record
  by_cases hh : h' = h
  · subst hh
    simp [AList.lookup_insert, decode_encode, Except.toOption]
  · have hk : persister.get_key (payment_key false h') ≠ persister.get_key (payment_key false h) :=
      fun hk => hh (payment_key_injective (get_key_injective persister hk))
    simp [AList.lookup_insert_ne hk, hh]

theorem exec_persist_payment_refused (h : PaymentHash) (info : PaymentInfo) {store : Store}
    (hw : host.refuses store.writes = true) : exec (persister.persist_payment_info host h info false) store =
      (.error (.err .Other), { store with writes := store.writes + 1 }) := by
  have hs := exec_convert_set host persister.storage (persister.get_key (payment_key false h)) IoError.other info store
  rwa [if_pos hw] at hs

variable (hw : ∀ k, host.refuses k = false)
include hw

/-! ## What the four writers do -/

def in_flight (now : UInt64) (invoice : Invoice) (amt_msat : UInt64) : PaymentInfo :=
  { preimage := none, secret := none, status := .InFlight, amt_msat := some amt_msat, fee_paid_msat := none,
    bolt11 := some invoice.to_string, last_update := now }

theorem exec_pay_invoice {invoice : Invoice} {amt_sats : Option UInt64} {request : PayRequest} {amt_msat : UInt64}
    (hq : pay_request invoice amt_sats = .ok (request, amt_msat)) (accepts : Bool) (now : UInt64) (store : Store) :
    ∀ h, record host persister
        (exec (pay_invoice host persister (fun _ => accepts) now invoice amt_sats) store).2 h =
      if h = invoice.payment_hash then
        some (if accepts then in_flight now invoice amt_msat
          else { in_flight now invoice amt_msat with status := .Failed })
      else record host persister store h := by
  obtain ⟨store₁, h₁, hr₁⟩ := exec_persist_payment_info host persister invoice.payment_hash
    (in_flight now invoice amt_msat) (hw store.writes)
  have h₁' := convert_ok MutinyError.from_io h₁
  unfold pay_invoice
  simp only [hq]
  unfold in_flight at h₁'
  rw [exec_bind_ok h₁']
  cases accepts with
  | true => exact hr₁
  | false =>
    obtain ⟨store₂, h₂, hr₂⟩ := exec_persist_payment_info host persister invoice.payment_hash
      { in_flight now invoice amt_msat with status := .Failed } (hw store₁.writes)
    have h₂' := convert_ok MutinyError.from_io h₂
    unfold in_flight at h₂'
    simp only [Bool.false_eq_true, if_false]
    rw [exec_bind_ok h₂']
    intro h
    show record host persister store₂ h = _
    rw [hr₂, hr₁]
    by_cases hh : h = invoice.payment_hash
    · rw [if_pos hh, if_pos hh]
    · rw [if_neg hh, if_neg hh, if_neg hh]

omit hw in
theorem exec_pay_invoice_error {invoice : Invoice} {amt_sats : Option UInt64} {e : MutinyError}
    (hq : pay_request invoice amt_sats = .error e) (accepts : PayRequest → Bool) (now : UInt64) (store : Store) :
    exec (pay_invoice host persister accepts now invoice amt_sats) store = (.error (.err e), store) := by
  unfold pay_invoice
  simp only [hq]
  rfl

def PaymentEvent.payment_hash : PaymentEvent → PaymentHash
  | .PaymentSent payment_hash _ _ => payment_hash
  | .PaymentFailed payment_hash => payment_hash

def PaymentEvent.rewrite (now : UInt64) (info : PaymentInfo) : PaymentEvent → PaymentInfo
  | .PaymentSent _ payment_preimage fee_paid_msat =>
    { info with status := .Succeeded, preimage := some payment_preimage, fee_paid_msat, last_update := now }
  | .PaymentFailed _ => { info with status := .Failed, last_update := now }

theorem exec_handle_event {ε : Type} {e : PaymentEvent} {store : Store} {info : PaymentInfo}
    (hr : record host persister store e.payment_hash = some info) (now : UInt64) :
    ∀ h, record host persister (exec (handle_event host persister now e : StorageM ε Unit) store).2 h =
      if h = e.payment_hash then some (e.rewrite now info) else record host persister store h := by
  obtain ⟨store', h₁, hr₁⟩ := exec_persist_payment_info host persister e.payment_hash (e.rewrite now info)
    (hw store.writes)
  have hread := exec_read_record (ε := ε) host persister hr
  have hx : exec (handle_event host persister now e : StorageM ε Unit) store = (.ok (), store') := by
    cases e with
    | PaymentSent | PaymentFailed => exact (exec_bind_ok hread).trans (exec_bind_ok (exec_result_ok h₁))
  rw [hx]
  exact hr₁

end

/-! ## Every order of calls and events -/

section
variable [Serde String] [Serde PaymentInfo] (host : Host) (persister : MutinyNodePersister)

def PaymentEvent.ends : PaymentEvent → Outbound
  | .PaymentSent _ _ _ => .completed
  | .PaymentFailed _ => .idle

/-- `pay_invoice` is called, with an amount where one is needed, only for a payment that is not pending and was not
reported as sent; and LDK accepts it only when the last failure of the payment was handled. -/
def Payable (s : Payments) : PaymentAct → Prop
  | .pay_invoice invoice amt_sats accepts _ => (pay_request invoice amt_sats).isOk = true →
      s.ldk invoice.payment_hash ≠ .pending ∧ (∀ x ∈ s.sent, x.1 ≠ invoice.payment_hash) ∧
        (accepts = true → .PaymentFailed invoice.payment_hash ∉ s.events)
  | _ => True

/-- The record of a payment that is pending is not `Failed`, and the record of a payment that was reported as sent is
`Succeeded` with the reported preimage and fee. -/
def Recorded (s : Payments) : Prop :=
  (∀ h info, s.ldk h = .pending → record host persister s.store h = some info → info.status ≠ .Failed) ∧
    ∀ x ∈ s.sent, ∃ info, record host persister s.store x.1 = some info ∧ info.status = .Succeeded ∧
      info.preimage = some x.2.1 ∧ info.fee_paid_msat = x.2.2

structure PaymentInv (s : Payments) : Prop where
  pending : ∀ h, s.ldk h = .pending → ∃ info, record host persister s.store h = some info ∧ info.status ≠ .Failed
  events : ∀ e ∈ s.events, s.ldk e.payment_hash = e.ends ∧
    ∃ info, record host persister s.store e.payment_hash = some info
  nodup : (s.events.map (·.payment_hash)).Nodup
  sent : ∀ x ∈ s.sent, s.ldk x.1 = .completed ∧ (∀ e ∈ s.events, e.payment_hash ≠ x.1) ∧
    ∃ info, record host persister s.store x.1 = some info ∧ info.status = .Succeeded ∧
      info.preimage = some x.2.1 ∧ info.fee_paid_msat = x.2.2

variable {host persister}

theorem PaymentInv.recorded {s : Payments} (h : PaymentInv host persister s) : Recorded host persister s := by
  refine ⟨fun hash info hp hr => ?_, fun x hx => (h.sent x hx).2.2⟩
  obtain ⟨info', hr', hf⟩ := h.pending hash hp
  rw [hr] at hr'
  cases hr'
  exact hf

theorem PaymentInv.event_ne {s : Payments} (h : PaymentInv host persister s) {hash : PaymentHash}
    (hp : s.ldk hash = .pending) {e : PaymentEvent} (he : e ∈ s.events) : e.payment_hash ≠ hash := by
  rintro rfl
  have hend := (h.events e he).1
  rw [hp] at hend
  cases e <;> cases hend

theorem PaymentInv.refused {s : Payments} (h : PaymentInv host persister s) {hash : PaymentHash} {info : PaymentInfo}
    {store : Store} (hp : s.ldk hash ≠ .pending) (hs : ∀ x ∈ s.sent, x.1 ≠ hash)
    (hr : ∀ h', record host persister store h' = if h' = hash then some info else record host persister s.store h') :
    PaymentInv host persister { s with store } := by
  refine ⟨fun h' hp' => ?_, fun e he => ⟨(h.events e he).1, ?_⟩, h.nodup, fun x hx => ?_⟩
  · have hne : h' ≠ hash := by
      rintro rfl
      exact hp hp'
    dsimp only
    rw [hr, if_neg hne]
    exact h.pending h' hp'
  · dsimp only
    rw [hr]
    by_cases hh : e.payment_hash = hash
    · exact ⟨info, if_pos hh⟩
    · rw [if_neg hh]
      exact (h.events e he).2
  · dsimp only
    rw [hr, if_neg (hs x hx)]
    exact h.sent x hx

theorem PaymentInv.accepted {s : Payments} (h : PaymentInv host persister s) {hash : PaymentHash} {info : PaymentInfo}
    {store : Store} (hi : s.ldk hash = .idle) (hf : .PaymentFailed hash ∉ s.events) (hst : info.status ≠ .Failed)
    (hr : ∀ h', record host persister store h' = if h' = hash then some info else record host persister s.store h') :
    PaymentInv host persister { s with store, ldk := Function.update s.ldk hash .pending } := by
  have hev : ∀ e ∈ s.events, e.payment_hash ≠ hash := by
    intro e he hh
    have hend := (h.events e he).1
    rw [hh, hi] at hend
    cases e with
    | PaymentSent => cases hend
    | PaymentFailed hash' =>
      cases hh
      exact hf he
  have hsent : ∀ x ∈ s.sent, x.1 ≠ hash := by
    intro x hx hh
    have hc := (h.sent x hx).1
    rw [hh, hi] at hc
    cases hc
  refine ⟨fun h' hp' => ?_, fun e he => ?_, h.nodup, fun x hx => ?_⟩
  · dsimp only at hp' ⊢
    rw [hr]
    by_cases hh : h' = hash
    · exact ⟨info, if_pos hh, hst⟩
    · rw [Function.update_of_ne hh] at hp'
      rw [if_neg hh]
      exact h.pending h' hp'
  · dsimp only
    rw [Function.update_of_ne (hev e he), hr, if_neg (hev e he)]
    exact h.events e he
  · dsimp only
    rw [Function.update_of_ne (hsent x hx), hr, if_neg (hsent x hx)]
    exact h.sent x hx

theorem PaymentInv.ended {s : Payments} (h : PaymentInv host persister s) {e : PaymentEvent}
    (hp : s.ldk e.payment_hash = .pending) :
    PaymentInv host persister
      { s with ldk := Function.update s.ldk e.payment_hash e.ends, events := s.events ++ [e] } := by
  have hends : e.ends ≠ .pending := by cases e <;> nofun
  refine ⟨fun h' hp' => ?_, fun e' he' => ?_, ?_, fun x hx => ?_⟩
  · by_cases hh : h' = e.payment_hash
    · rw [hh] at hp'
      exact absurd ((Function.update_self ..).symm.trans hp') hends
    · exact h.pending h' ((Function.update_of_ne hh ..).symm.trans hp')
  · rcases List.mem_append.mp he' with he' | he'
    · dsimp only
      rw [Function.update_of_ne (h.event_ne hp he')]
      exact h.events e' he'
    · cases List.mem_singleton.mp he'
      obtain ⟨info, hr, -⟩ := h.pending _ hp
      exact ⟨Function.update_self .., info, hr⟩
  · rw [List.map_append, List.nodup_append]
    refine ⟨h.nodup, by simp, ?_⟩
    intro a ha b hb
    obtain ⟨e', he', rfl⟩ := List.mem_map.mp ha
    cases List.mem_singleton.mp hb
    exact h.event_ne hp he'
  · have hne : x.1 ≠ e.payment_hash := by
      intro hh
      have hc := (h.sent x hx).1
      rw [hh, hp] at hc
      cases hc
    obtain ⟨hc, hev, hrec⟩ := h.sent x hx
    refine ⟨(Function.update_of_ne hne ..).trans hc, fun e' he' => ?_, hrec⟩
    rcases List.mem_append.mp he' with he' | he'
    · exact hev e' he'
    · cases List.mem_singleton.mp he'
      exact Ne.symm hne

omit [Serde String] [Serde PaymentInfo] in
theorem ne_of_mem_eraseIdx {events : List PaymentEvent} (hn : (events.map (·.payment_hash)).Nodup) {i : Nat}
    {e e' : PaymentEvent} (he : events[i]? = some e) (he' : e' ∈ events.eraseIdx i) :
    e'.payment_hash ≠ e.payment_hash := by
  induction events generalizing i with
  | nil => simp at he
  | cons a events ih =>
    rw [List.map_cons, List.nodup_cons] at hn
    cases i with
    | zero =>
      cases he
      intro hh
      exact hn.1 (hh ▸ List.mem_map_of_mem he')
    | succ i =>
      rw [List.getElem?_cons_succ] at he
      rcases List.mem_cons.mp he' with rfl | he'
      · intro hh
        exact hn.1 (hh ▸ List.mem_map_of_mem (List.mem_of_getElem? he))
      · exact ih hn.2 he he'

theorem PaymentInv.handled (hw : ∀ k, host.refuses k = false) {s : Payments} (h : PaymentInv host persister s) {i : Nat}
    {e : PaymentEvent} (he : s.events[i]? = some e) (now : UInt64) :
    PaymentInv host persister
      { s with
        store := ((handle_event host persister now e : StorageM MutinyError Unit).exec s.store).2
        events := s.events.eraseIdx i
        sent := e.sent ++ s.sent } := by
  have hm := List.mem_of_getElem? he
  obtain ⟨hend, info, hinfo⟩ := h.events e hm
  have hr := exec_handle_event (ε := MutinyError) host persister hw hinfo now
  have hsub : ∀ e' ∈ s.events.eraseIdx i, e' ∈ s.events := fun e' he' => List.mem_of_mem_eraseIdx he'
  have hne : ∀ e' ∈ s.events.eraseIdx i, e'.payment_hash ≠ e.payment_hash :=
    fun e' he' => ne_of_mem_eraseIdx h.nodup he he'
  refine ⟨fun h' hp' => ?_, fun e' he' => ?_, ?_, fun x hx => ?_⟩
  · dsimp only
    rw [hr, if_neg (Ne.symm (h.event_ne hp' hm))]
    exact h.pending h' hp'
  · dsimp only
    rw [hr, if_neg (hne e' he')]
    exact h.events e' (hsub e' he')
  · exact h.nodup.sublist ((List.eraseIdx_sublist _ _).map _)
  · rcases List.mem_append.mp hx with hx | hx
    · cases e with
      | PaymentFailed => cases hx
      | PaymentSent hash preimage fee =>
        cases List.mem_singleton.mp hx
        exact ⟨hend, hne, _, (hr _).trans (if_pos rfl), rfl, rfl, rfl⟩
    · obtain ⟨hc, hev, hrec⟩ := h.sent x hx
      refine ⟨hc, fun e' he' => hev e' (hsub e' he'), ?_⟩
      dsimp only
      rw [hr, if_neg (Ne.symm (hev e hm))]
      exact hrec

theorem PaymentInv.step (hw : ∀ k, host.refuses k = false) {s t : Payments} {a : PaymentAct}
    (h : PaymentInv host persister s) (hg : Payable s a) (hs : payment_step host persister s a = some t) :
    PaymentInv host persister t := by
  cases a with
  | pay_invoice invoice amt_sats accepts now =>
    unfold payment_step at hs
    cases hq : pay_request invoice amt_sats with
    | error e =>
      simp only [hq, exec_pay_invoice_error host persister hq, Option.some.injEq] at hs
      rwa [← hs]
    | ok r =>
      obtain ⟨request, amt_msat⟩ := r
      obtain ⟨hp, hsent, hfailed⟩ := hg (by rw [hq]; rfl)
      have hr := exec_pay_invoice host persister hw hq accepts now s.store
      cases accepts with
      | false =>
        simp only [hq, Option.some.injEq] at hs
        rw [← hs]
        exact h.refused hp hsent hr
      | true =>
        by_cases hi : s.ldk invoice.payment_hash = .idle
        · simp only [hq, hi, if_true, Option.some.injEq] at hs
          rw [← hs]
          exact h.accepted hi (hfailed rfl) (by simp [in_flight]) hr
        · simp only [hq, hi, if_false] at hs
          cases hs
  | fulfil hash preimage fee =>
    by_cases hp : s.ldk hash = .pending
    · simp only [payment_step, hp, if_true, Option.some.injEq] at hs
      rw [← hs]
      exact h.ended (e := .PaymentSent hash preimage fee) hp
    · simp only [payment_step, hp, if_false] at hs
      cases hs
  | abandon hash =>
    by_cases hp : s.ldk hash = .pending
    · simp only [payment_step, hp, if_true, Option.some.injEq] at hs
      rw [← hs]
      exact h.ended (e := .PaymentFailed hash) hp
    · simp only [payment_step, hp, if_false] at hs
      cases hs
  | handle i now =>
    cases he : s.events[i]? with
    | none =>
      simp only [payment_step, he] at hs
      cases hs
    | some e =>
      simp only [payment_step, he, Option.some.injEq] at hs
      rw [← hs]
      exact h.handled hw he now

end

def Payments.new (store : Store) : Payments := ⟨store, fun _ => .idle, [], []⟩

theorem payment_records [Serde String] [Serde PaymentInfo] (host : Host) (persister : MutinyNodePersister)
    (hw : ∀ k, host.refuses k = false) (store : Store) (as : List PaymentAct) (s : Payments)
    (hg : (payment_machine host persister).Along Payable (.new store) as)
    (hr : (payment_machine host persister).run (.new store) as = some s) : Recorded host persister s := by
  have h₀ : PaymentInv host persister (.new store) := by
    refine ⟨fun _ hp => ?_, fun _ he => ?_, List.nodup_nil, fun _ hx => ?_⟩
    · cases hp
    · cases he
    · cases hx
  exact (Machine.run_invariant (I := PaymentInv host persister) (fun s a t h hg hs => h.step hw hg hs) h₀ hg hr).recorded

/-! ## Payments in a browser -/

section
open Codec

theorem size_toArray_32 {l : List UInt8} (h : l.length = 32) : l.toArray.size = 32 := by simpa using h

def bytes32 : Codec (Vector UInt8 32) :=
  (list u8).map (·.toList) (fun l => if h : l.length = 32 then some ⟨l.toArray, size_toArray_32 h⟩ else none)
    fun v => by simp [← Vector.toList_toArray]

def htlc_status : Codec HTLCStatus :=
  string.map
    (fun
      | .Pending => "Pending"
      | .InFlight => "InFlight"
      | .Succeeded => "Succeeded"
      | .Failed => "Failed")
    (fun
      | "Pending" => some .Pending
      | "InFlight" => some .InFlight
      | "Succeeded" => some .Succeeded
      | "Failed" => some .Failed
      | _ => none)
    fun b => by cases b <;> rfl

def payment_info : Codec PaymentInfo :=
  (Codec.record "\x7b\"preimage\":".toList ⟨_, _, rfl, by decide, by decide, by decide⟩ <|
    pair (option bytes32) ",\"secret\":".toList (ends_of_head (by decide)) <|
    pair (option bytes32) ",\"status\":".toList (ends_of_head (by decide)) <|
    pair htlc_status.toPart ",\"amt_msat\":".toList (ends_of_head (by decide)) <|
    pair (option u64) ",\"fee_paid_msat\":".toList (ends_of_head (by decide)) <|
    pair (option u64) ",\"bolt11\":".toList (ends_of_head (by decide)) <|
    pair (option string) ",\"last_update\":".toList (ends_of_head (by decide)) u64.toPart).map
    (fun p => (p.preimage, p.secret, p.status, p.amt_msat, p.fee_paid_msat, p.bolt11, p.last_update))
    (fun ⟨preimage, secret, status, amt_msat, fee_paid_msat, bolt11, last_update⟩ =>
      some { preimage, secret, status, amt_msat, fee_paid_msat, bolt11, last_update })
    fun _ => rfl

end

@[reducible] def payment_info_serde : Serde PaymentInfo :=
  ⟨payment_info.to_string, payment_info.from_str, payment_info.from_str_to_string⟩

def open_persister : MutinyNodePersister := ⟨"node", ⟨""⟩⟩

def sample_invoice : Invoice := ⟨"lnbc", .Hash, .replicate 32 7, .replicate 32 1, none, some 1000, 0, 0⟩

def paid : List PaymentAct :=
  [.pay_invoice sample_invoice none true 0, .fulfil (.replicate 32 7) (.replicate 32 9) (some 3), .handle 0 1]

attribute [local instance] string_serde payment_info_serde

theorem payment_records_sent : ∃ s,
    (payment_machine open_host open_persister).run (.new ⟨∅, 0⟩) paid = some s ∧
      s.sent = [(.replicate 32 7, .replicate 32 9, some 3)] ∧ Recorded open_host open_persister s := by
  refine ⟨_, rfl, rfl, payment_records open_host open_persister (fun _ => rfl) ⟨∅, 0⟩ paid _ ?_ rfl⟩
  exact .cons (fun _ => ⟨nofun, nofun, fun _ => nofun⟩) rfl <| .cons trivial rfl <| .cons trivial rfl trivial

/-- The invoice is paid again while the first payment is pending, and once more after it was reported as sent. -/
theorem payment_record_overwritten :
    (∃ s info, (payment_machine open_host open_persister).run (.new ⟨∅, 0⟩)
          [.pay_invoice sample_invoice none true 0, .pay_invoice sample_invoice none false 1] = some s ∧
        s.ldk (.replicate 32 7) = .pending ∧
        record open_host open_persister s.store (.replicate 32 7) = some info ∧ info.status = .Failed) ∧
      ∃ s info, (payment_machine open_host open_persister).run (.new ⟨∅, 0⟩)
          (paid ++ [.pay_invoice sample_invoice none false 2]) = some s ∧
        s.sent = [(.replicate 32 7, .replicate 32 9, some 3)] ∧
        record open_host open_persister s.store (.replicate 32 7) = some info ∧ info.status = .Failed := by
  have hpay : ∀ store now, record open_host open_persister
      (exec (pay_invoice open_host open_persister (fun _ => false) now sample_invoice none) store).2 (.replicate 32 7) =
        some { in_flight now sample_invoice 1000 with status := .Failed } :=
    fun store now => exec_pay_invoice open_host open_persister (fun _ => rfl) rfl false now
      store (.replicate 32 7)
  exact ⟨⟨_, _, rfl, rfl, hpay _ _, rfl⟩, ⟨_, _, rfl, rfl, hpay _ _, rfl⟩⟩

end Mutiny
