import Mathlib.Data.List.Induction
import Mutiny.FlatTable
import Mutiny.Invoices
import Mutiny.PaymentSound

/-!
# What the nodes list

The payment records of all nodes are two maps, one for each direction, flattened into the browser store. A scan for a
direction gives the whole map, so a node lists its own records exactly when no other node has persisted one in that
direction (`lists_iff`), and the lists of several nodes are right exactly when nothing is persisted or there is no
other node (`payments_isolated`).
-/

namespace Mutiny

open Prog

/-! ## The keys of payment records -/

abbrev RecordId := String × PaymentHash

def payment_record_key (inbound : Bool) (id : RecordId) : String :=
  payment_key inbound id.2 ++ "_" ++ id.1

theorem payment_key_eq (inbound : Bool) (h : PaymentHash) :
    payment_key inbound h = payment_prefix_key inbound ++ Hex.to_hex h.toList := by
  cases inbound <;> rfl

theorem payment_record_key_toList (inbound : Bool) (id : RecordId) : (payment_record_key inbound id).toList =
    (payment_prefix_key inbound).toList ++ ((Hex.to_hex id.2.toList).toList ++ ('_' :: id.1.toList)) := by
  simp [payment_record_key, payment_key_eq]

theorem payment_record_key_injective (inbound : Bool) : Function.Injective (payment_record_key inbound) := by
  intro id id' h
  have hl := congrArg String.toList h
  rw [payment_record_key_toList, payment_record_key_toList] at hl
  have hlen : (Hex.to_hex id.2.toList).toList.length = (Hex.to_hex id'.2.toList).toList.length := by
    simp [Hex.to_hex, Hex.byte, List.length_flatMap]
  obtain ⟨hh, hn⟩ := List.append_inj (List.append_cancel_left hl) hlen
  have hhash : id.2 = id'.2 := Vector.toList_inj.mp (Hex.to_hex_injective (String.toList_inj.mp hh))
  have hnode : id.1 = id'.1 := String.toList_inj.mp (List.cons.inj hn).2
  exact Prod.ext hnode hhash

theorem starts_with_payment_start (inbound inbound' : Bool) (id : RecordId) :
    starts_with (payment_record_key inbound' id) (payment_prefix_key inbound) = (inbound == inbound') := by
  unfold starts_with
  rw [payment_record_key_toList]
  cases inbound <;> cases inbound' <;> simp [payment_prefix_key, List.isPrefixOf_cons_cons]

theorem starts_with_own (inbound : Bool) (id : RecordId) :
    starts_with (payment_record_key inbound id) (payment_prefix_key inbound) = true :=
  (starts_with_payment_start inbound inbound id).trans (beq_self_eq_true inbound)

theorem payment_record_key_disjoint (inbound inbound' : Bool) (id id' : RecordId)
    (h : payment_record_key inbound id = payment_record_key inbound' id') : inbound = inbound' := by
  have hs := starts_with_own inbound id
  rw [h, starts_with_payment_start] at hs
  simpa using hs

/-! ## Calls of all nodes -/

structure PersistCall where
  node_id : String
  payment_hash : PaymentHash
  payment_info : PaymentInfo
  inbound : Bool

def last_persisted (inbound : Bool) (done : List PersistCall) : AList fun _ : RecordId => PaymentInfo :=
  done.foldl (fun map c => if c.inbound = inbound then map.insert (c.node_id, c.payment_hash) c.payment_info else map) ∅

/-- What the node has persisted last, as a list of keys and records. -/
def own_records (inbound : Bool) (done : List PersistCall) (node_id : String) : List (String × PaymentInfo) :=
  ((last_persisted inbound done).entries.filter fun e => e.1.1 = node_id).map fun e =>
    (payment_record_key inbound e.1, e.2)

theorem last_persisted_snoc (inbound : Bool) (done : List PersistCall) (c : PersistCall) :
    last_persisted inbound (done ++ [c]) =
      if c.inbound = inbound then (last_persisted inbound done).insert (c.node_id, c.payment_hash) c.payment_info
      else last_persisted inbound done := by
  simp [last_persisted]

theorem mem_last_persisted {inbound : Bool} {done : List PersistCall} {id : RecordId} :
    id ∈ last_persisted inbound done ↔ ∃ c ∈ done, c.inbound = inbound ∧ (c.node_id, c.payment_hash) = id := by
  induction done using List.reverseRecOn with
  | nil => simp [last_persisted]
  | append_singleton done c ih =>
    rw [last_persisted_snoc]
    by_cases hc : c.inbound = inbound
    · rw [if_pos hc, AList.mem_insert, ih]
      constructor
      · rintro (rfl | ⟨d, hd, h⟩)
        · exact ⟨c, by simp, hc, rfl⟩
        · exact ⟨d, by simp [hd], h⟩
      · rintro ⟨d, hd, hdi, rfl⟩
        rcases List.mem_append.mp hd with hd | hd
        · exact .inr ⟨d, hd, hdi, rfl⟩
        · obtain rfl := List.mem_singleton.mp hd
          exact .inl rfl
    · rw [if_neg hc, ih]
      constructor
      · rintro ⟨d, hd, h⟩
        exact ⟨d, by simp [hd], h⟩
      · rintro ⟨d, hd, hdi, h⟩
        rcases List.mem_append.mp hd with hd | hd
        · exact ⟨d, hd, hdi, h⟩
        · obtain rfl := List.mem_singleton.mp hd
          exact absurd hdi hc

section
variable [Serde String] [Serde PaymentInfo] (host : Host) (storage : MutinyBrowserStorage)

def PersistCall.exec (c : PersistCall) (store : Store) : Except (Fault IoError) Unit × Store :=
  Prog.exec (MutinyNodePersister.persist_payment_info host ⟨c.node_id, storage⟩ c.payment_hash c.payment_info c.inbound)
    store

/-- The store after calls made in turn, and the calls whose write the browser took. -/
def persist_all : List PersistCall → Store → Store × List PersistCall
  | [], store => (store, [])
  | c :: calls, store =>
    let r := c.exec host storage store
    let rest := persist_all calls r.2
    (rest.1, if r.1.isOk then c :: rest.2 else rest.2)

/-- The node lists exactly what it has persisted last. -/
def Lists (done : List PersistCall) (store : Store) (node_id : String) (inbound : Bool) : Prop :=
  ∃ l, exec (list_payment_info host ⟨node_id, storage⟩ inbound : StorageM MutinyError _) store = (.ok l, store) ∧
    l.Perm (own_records inbound done node_id)

/-- The invoices of all nodes are those of the records each of them has persisted last, as far as they are shown. -/
def ListsInvoices (bolt11 : Bolt11) (done : List PersistCall) (store : Store) (node_ids : List String) (now : UInt64) :
    Prop :=
  ∃ l, exec (NodeManager.list_invoices host bolt11 (node_ids.map fun n => ⟨n, storage⟩) now : StorageM MutinyError _)
      store = (.ok l, store) ∧
    l.Perm (node_ids.flatMap fun n => [true, false].flatMap fun inbound =>
      (own_records inbound done n).filterMap fun r => Node.invoice_of_payment_info bolt11 now inbound r.1 r.2)

/-! ## The two maps in the store -/

def payment_tables : Flat String String (fun _ : Bool => RecordId) (fun _ => PaymentInfo) where
  table inbound :=
    { key := payment_record_key inbound
      key_injective := payment_record_key_injective inbound
      read := fun text => (storage.decode host.crypto text : Except (Fault MutinyStorageError) _).toOption }
  disjoint := payment_record_key_disjoint

structure Ledger (store : Store) (maps : Bool → AList fun _ : RecordId => PaymentInfo) : Prop where
  holds : (payment_tables host storage).Holds store.items maps
  keys : ∀ key ∈ store.items, (∃ inbound id, payment_record_key inbound id = key) ∨
    ∀ inbound, starts_with key (payment_prefix_key inbound) = false

variable {host storage} {store : Store} {maps : Bool → AList fun _ : RecordId => PaymentInfo}

theorem ledger_empty (h : ∀ key ∈ store.items, ∀ inbound, starts_with key (payment_prefix_key inbound) = false) :
    Ledger host storage store fun _ => ∅ := by
  refine ⟨fun inbound => Table.holds_empty fun id hk => ?_, fun key hk => .inr (h key hk)⟩
  have hs : starts_with (payment_record_key inbound id) (payment_prefix_key inbound) = false := h _ hk inbound
  rw [starts_with_payment_start] at hs
  simp at hs

theorem exec_persist (c : PersistCall) (store : Store) : c.exec host storage store =
    if host.refuses store.writes then (.error (.err .Other), { store with writes := store.writes + 1 })
    else (.ok (), ⟨store.items.insert (payment_record_key c.inbound (c.node_id, c.payment_hash))
      (storage.encode host store.writes c.payment_info), store.writes + 1⟩) :=
  exec_convert_set host storage (payment_record_key c.inbound (c.node_id, c.payment_hash)) IoError.other c.payment_info
    store

variable (storage) in
theorem persist_taken (c : PersistCall) {store : Store} (hw : host.refuses store.writes = false) :
    c.exec host storage store = (.ok (), (c.exec host storage store).2) := by
  have hne : ¬ host.refuses store.writes = true := by simp [hw]
  rw [exec_persist, if_neg hne]

variable (storage) in
theorem persist_refused (c : PersistCall) {store : Store} (hw : host.refuses store.writes = true) :
    c.exec host storage store = (.error (.err .Other), { store with writes := store.writes + 1 }) := by
  rw [exec_persist, if_pos hw]

theorem Ledger.persist (h : Ledger host storage store maps) (c : PersistCall) :
    Ledger host storage (c.exec host storage store).2
      (if (c.exec host storage store).1.isOk then
        Function.update maps c.inbound ((maps c.inbound).insert (c.node_id, c.payment_hash) c.payment_info)
      else maps) := by
  rw [exec_persist]
  by_cases hr : host.refuses store.writes = true
  · rw [if_pos hr]
    exact ⟨h.holds, h.keys⟩
  · rw [if_neg hr]
    have hread : ((payment_tables host storage).table c.inbound).read (storage.encode host store.writes c.payment_info) =
        some c.payment_info := toOption_eq_some.mpr (decode_encode host storage store.writes c.payment_info)
    refine ⟨h.holds.insert c.inbound (c.node_id, c.payment_hash) hread, fun key hk => ?_⟩
    rcases (AList.mem_insert _).mp hk with rfl | hk
    · exact .inl ⟨_, _, rfl⟩
    · exact h.keys key hk

theorem Ledger.persist_all (calls : List PersistCall) : ∀ {store : Store} (before : List PersistCall),
    Ledger host storage store (fun inbound => last_persisted inbound before) →
      Ledger host storage (persist_all host storage calls store).1
        (fun inbound => last_persisted inbound (before ++ (persist_all host storage calls store).2)) := by
  induction calls with
  | nil =>
    intro store before h
    simpa [Mutiny.persist_all] using h
  | cons c calls ih =>
    intro store before h
    have hp := h.persist c
    unfold Mutiny.persist_all
    cases hr : (c.exec host storage store).1.isOk with
    | false =>
      simp only [hr, Bool.false_eq_true, if_false] at hp ⊢
      exact ih _ hp
    | true =>
      simp only [hr, if_true] at hp ⊢
      have hsnoc : (fun inbound => last_persisted inbound (before ++ [c])) = Function.update
          (fun inbound => last_persisted inbound before) c.inbound
          ((last_persisted c.inbound before).insert (c.node_id, c.payment_hash) c.payment_info) := by
        funext inbound
        rw [last_persisted_snoc, Function.update_apply]
        by_cases hi : inbound = c.inbound
        · rw [if_pos hi, if_pos hi.symm, hi]
        · rw [if_neg hi, if_neg (Ne.symm hi)]
      rw [← hsnoc] at hp
      have hrest := ih _ hp
      rwa [List.append_assoc] at hrest

theorem ledger_after (hstore : ∀ key ∈ store.items, ∀ inbound, starts_with key (payment_prefix_key inbound) = false)
    (calls : List PersistCall) : Ledger host storage (persist_all host storage calls store).1 fun inbound =>
      last_persisted inbound (persist_all host storage calls store).2 :=
  Ledger.persist_all calls [] (ledger_empty hstore)

/-! ## What the scans give -/

theorem Ledger.owned (h : Ledger host storage store maps) {key : String} (hk : key ∈ store.items) {inbound : Bool}
    (hs : starts_with key (payment_prefix_key inbound) = true) : ∃ id, payment_record_key inbound id = key := by
  rcases h.keys key hk with ⟨inbound', id, rfl⟩ | hn
  · rw [starts_with_payment_start, beq_iff_eq] at hs
    subst hs
    exact ⟨id, rfl⟩
  · rw [hn] at hs
    cases hs

theorem Ledger.exec_list_payment_info {ε : Type} (h : Ledger host storage store maps) (node_id : String) (inbound : Bool) :
    ∃ l, exec (list_payment_info host ⟨node_id, storage⟩ inbound : StorageM ε _) store = (.ok l, store) ∧
      l.Perm ((maps inbound).entries.map fun e => (payment_record_key inbound e.1, e.2)) := by
  have hread : ∀ key item, store.items.lookup key = some item →
      (starts_with key (payment_prefix_key inbound) && (none : Option String).all (ends_with key)) = true →
        ∃ value : PaymentInfo, storage.decode host.crypto item = .ok value := by
    intro key item hi hs
    rw [Option.all_none, Bool.and_true] at hs
    obtain ⟨id, rfl⟩ := h.owned (AList.lookup_isSome.mp (by rw [hi]; rfl)) hs
    obtain ⟨v, -, hv⟩ := (h.holds inbound).read_of_lookup hi
    exact ⟨v, toOption_eq_some.mp hv⟩
  obtain ⟨map, hm, hl⟩ := scanned_lookup (α := PaymentInfo) host storage (payment_prefix_key inbound) none store hread
  have hx := exec_scan (α := PaymentInfo) (ε := ε) host storage (payment_prefix_key inbound) none store
  rw [hm] at hx
  have hfound : ∀ key, map.lookup key = if starts_with key (payment_prefix_key inbound) then
      (store.items.lookup key).bind ((payment_tables host storage).table inbound).read else none := by
    intro key
    rw [hl key, Option.all_none, Bool.and_true]
    rfl
  have hp := (h.holds inbound).scan_perm (q := fun _ => true) (fun _ hk hs => h.owned hk hs)
    (starts_with_own inbound) hfound
  rw [List.filter_true] at hp
  refine ⟨_, exec_bind_ok hx, (host.order_perm _).trans ?_⟩
  have hpairs := hp.map fun e => (e.1, e.2)
  rwa [List.map_map] at hpairs

/-- A node lists its own records exactly when no other node has persisted one in that direction. -/
theorem lists_iff {done : List PersistCall} (h : Ledger host storage store fun inbound => last_persisted inbound done)
    (node_id : String) (inbound : Bool) : Lists host storage done store node_id inbound ↔
      ∀ c ∈ done, c.inbound = inbound → c.node_id = node_id := by
  obtain ⟨l, hx, hl⟩ := h.exec_list_payment_info (ε := MutinyError) node_id inbound
  unfold Lists own_records
  constructor
  · rintro ⟨l', hx', hl'⟩ c hc hi
    rw [hx] at hx'
    cases hx'
    -- a sublist of the same length is the whole list
    have hlen := (hl.symm.trans hl').length_eq
    rw [List.length_map, List.length_map] at hlen
    have hall := List.length_filter_eq_length_iff.mp hlen.symm
    obtain ⟨info, hinfo⟩ := Option.isSome_iff_exists.mp (AList.lookup_isSome.mpr (mem_last_persisted.mpr ⟨c, hc, hi, rfl⟩))
    simpa using hall _ (AList.mem_lookup_iff.mp hinfo)
  · intro hall
    refine ⟨l, hx, ?_⟩
    have hfilter : (last_persisted inbound done).entries.filter (fun e => e.1.1 = node_id) =
        (last_persisted inbound done).entries := by
      refine List.filter_eq_self.mpr fun e he => ?_
      have hmem : e.1 ∈ last_persisted inbound done :=
        AList.lookup_isSome.mp (by rw [AList.mem_lookup_iff.mpr he]; rfl)
      obtain ⟨c, hc, hi, hid⟩ := mem_last_persisted.mp hmem
      rw [← hid]
      simpa using hall c hc hi
    rw [hfilter]
    exact hl

/-! ## What the node manager lists -/

theorem Lists.exec_list_invoices {done : List PersistCall} {node_id : String} (bolt11 : Bolt11) (now : UInt64)
    (h : ∀ inbound, Lists host storage done store node_id inbound) : ∃ l,
    exec (Node.list_invoices host bolt11 ⟨node_id, storage⟩ now : StorageM MutinyError _) store = (.ok l, store) ∧
      l.Perm ([true, false].flatMap fun inbound => (own_records inbound done node_id).filterMap fun r =>
        Node.invoice_of_payment_info bolt11 now inbound r.1 r.2) := by
  have hdir : ∀ inbound, ∃ l, exec (Node.list_payment_info_from_persisters host bolt11 ⟨node_id, storage⟩ now inbound :
      StorageM MutinyError _) store = (.ok l, store) ∧ l.Perm ((own_records inbound done node_id).filterMap fun r =>
        Node.invoice_of_payment_info bolt11 now inbound r.1 r.2) := by
    intro inbound
    obtain ⟨l, hx, hl⟩ := h inbound
    exact ⟨_, exec_bind_ok hx, hl.filterMap _⟩
  obtain ⟨inl, hin, hinl⟩ := hdir true
  obtain ⟨outl, hout, houtl⟩ := hdir false
  refine ⟨inl ++ outl, (exec_bind_ok hin).trans (exec_bind_ok hout), ?_⟩
  simpa using hinl.append houtl

theorem Lists.lists_invoices {done : List PersistCall} {node_ids : List String}
    (h : ∀ n ∈ node_ids, ∀ inbound, Lists host storage done store n inbound) (bolt11 : Bolt11) (now : UInt64) :
    ListsInvoices host storage bolt11 done store node_ids now := by
  have hfold : ∀ (node_ids : List String) (acc : List MutinyInvoice),
      (∀ n ∈ node_ids, ∀ inbound, Lists host storage done store n inbound) → ∃ l,
        exec ((node_ids.map fun n => ⟨n, storage⟩).foldlM (fun invoices node => do
            let invs ← Node.list_invoices host bolt11 node now
            return invoices ++ invs) acc : StorageM MutinyError _) store = (.ok l, store) ∧
          l.Perm (acc ++ node_ids.flatMap fun n => [true, false].flatMap fun inbound =>
            (own_records inbound done n).filterMap fun r =>
              Node.invoice_of_payment_info bolt11 now inbound r.1 r.2) := by
    intro node_ids
    induction node_ids with
    | nil => exact fun acc _ => ⟨acc, rfl, by simp⟩
    | cons n node_ids ih =>
      intro acc hall
      obtain ⟨invs, hx, hinvs⟩ := Lists.exec_list_invoices bolt11 now (hall n (by simp))
      obtain ⟨l, hl, hp⟩ := ih (acc ++ invs) fun m hm => hall m (by simp [hm])
      refine ⟨l, ?_, hp.trans ?_⟩
      · rw [List.map_cons, List.foldlM_cons]
        exact (exec_bind_ok ((exec_bind_ok hx).trans rfl)).trans hl
      · rw [List.flatMap_cons, ← List.append_assoc]
        exact (hinvs.append_left acc).append_right _
  obtain ⟨l, hx, hl⟩ := hfold node_ids [] h
  exact ⟨l, hx, by simpa using hl⟩

end

theorem persist_all_sublist [Serde String] [Serde PaymentInfo] (host : Host) (storage : MutinyBrowserStorage) :
    ∀ (calls : List PersistCall) (store : Store), (persist_all host storage calls store).2.Sublist calls
  | [], _ => .slnil
  | c :: calls, store => by
    have ih := persist_all_sublist host storage calls (c.exec host storage store).2
    unfold persist_all
    dsimp only
    split
    · exact ih.cons_cons c
    · exact ih.cons c

/-- After any calls of any nodes, on a store without payment records, the lists of all nodes are right exactly when
nothing was persisted or there is one node only. -/
theorem payments_isolated [Serde String] [Serde PaymentInfo] (host : Host) (storage : MutinyBrowserStorage)
    (bolt11 : Bolt11) (store : Store)
    (hstore : ∀ key ∈ store.items, ∀ inbound, starts_with key (payment_prefix_key inbound) = false)
    (node_ids : List String) (hd : node_ids.Nodup) (calls : List PersistCall)
    (hc : ∀ c ∈ calls, c.node_id ∈ node_ids) :
    let after := persist_all host storage calls store
    ((∀ n ∈ node_ids, ∀ inbound, Lists host storage after.2 after.1 n inbound) ∧
        ∀ now, ListsInvoices host storage bolt11 after.2 after.1 node_ids now) ↔
      after.2 = [] ∨ node_ids.length ≤ 1 := by
  intro after
  have hledger : Ledger host storage after.1 fun inbound => last_persisted inbound after.2 := ledger_after hstore calls
  have hdone : ∀ c ∈ after.2, c.node_id ∈ node_ids :=
    fun c h => hc c ((persist_all_sublist host storage calls store).subset h)
  constructor
  · rintro ⟨hlists, -⟩
    refine Classical.or_iff_not_imp_left.mpr fun hne => ?_
    obtain ⟨c, hcd⟩ := List.exists_mem_of_ne_nil _ hne
    -- every node is the one that persisted `c`
    have hall : ∀ n ∈ node_ids, n = c.node_id :=
      fun n hn => ((lists_iff hledger n c.inbound).mp (hlists n hn c.inbound) c hcd rfl).symm
    match node_ids, hd, hall with
    | [], _, _ => simp
    | [_], _, _ => simp
    | n :: m :: _, hd, hall =>
      have hnm : n = m := (hall n (by simp)).trans (hall m (by simp)).symm
      simp [hnm] at hd
  · intro h
    have hlists : ∀ n ∈ node_ids, ∀ inbound, Lists host storage after.2 after.1 n inbound := by
      intro n hn inbound
      refine (lists_iff hledger n inbound).mpr fun c hcd _ => ?_
      rcases h with h | h
      · simp [h] at hcd
      · match node_ids, hn, h, hdone c hcd with
        | [m], hn, _, hm => simp_all
    exact ⟨hlists, fun now => Lists.lists_invoices hlists bolt11 now⟩

/-! ## Two nodes -/

attribute [local instance] string_serde payment_info_serde

def received : PersistCall where
  node_id := "a"
  payment_hash := .replicate 32 7
  payment_info := ⟨some (.replicate 32 9), none, .Succeeded, some 1000, none, none, 0⟩
  inbound := true

theorem ledger_received : Ledger open_host ⟨""⟩ (persist_all open_host ⟨""⟩ [received] ⟨∅, 0⟩).1 fun inbound =>
    last_persisted inbound [received] :=
  ledger_after (fun key hk => absurd hk (AList.notMem_empty key)) [received]

def sample_bolt11 : Bolt11 where
  from_str s := if s = sample_invoice.to_string then some sample_invoice else none
  would_expire invoice now := invoice.duration_since_epoch + invoice.expiry_time < now

theorem payments_isolated_one_node :
    let after := persist_all open_host ⟨""⟩ [received] ⟨∅, 0⟩
    (∀ n ∈ ["a"], ∀ inbound, Lists open_host ⟨""⟩ after.2 after.1 n inbound) ∧
      ∀ now, ListsInvoices open_host ⟨""⟩ sample_bolt11 after.2 after.1 ["a"] now :=
  (payments_isolated open_host ⟨""⟩ sample_bolt11 ⟨∅, 0⟩ (fun key hk => absurd hk (AList.notMem_empty key)) ["a"]
    (by decide) [received] (by simp [received])).mpr (.inr (by decide))

/-- The node "b" has persisted nothing and lists the record of the node "a". -/
theorem payments_listed_by_other_node :
    let after := persist_all open_host ⟨""⟩ [received] ⟨∅, 0⟩
    own_records true after.2 "b" = [] ∧
      exec (list_payment_info open_host ⟨"b", ⟨""⟩⟩ true : StorageM MutinyError _) after.1 =
        (.ok [(payment_record_key true ("a", .replicate 32 7), received.payment_info)], after.1) ∧
      ¬ Lists open_host ⟨""⟩ after.2 after.1 "b" true := by
  intro after
  have hafter : after.2 = [received] := rfl
  have hledger : Ledger open_host ⟨""⟩ after.1 fun inbound => last_persisted inbound after.2 := ledger_received
  obtain ⟨l, hx, hl⟩ := hledger.exec_list_payment_info (ε := MutinyError) "b" true
  have hown : own_records true after.2 "b" = [] := rfl
  refine ⟨hown, ?_, fun hlists => ?_⟩
  · rw [hx, List.perm_singleton.mp hl]
    rfl
  · have hb := (lists_iff hledger "b" true).mp hlists received (by simp [hafter]) rfl
    exact absurd hb (by decide)

end Mutiny
