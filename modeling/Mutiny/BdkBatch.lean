import Mutiny.BdkRefines
import Mutiny.NodeManagerSound

/-!
# Batches of BDK's database (`bdkstorage.rs`)

A batch is the database itself, so what is done to a batch is done to the database at once, and a commit has nothing
left to do. Up to the commit the contents stay what they were exactly when every write of the batch writes what is
there already and every deletion deletes what is not there (`batch_atomic`).
-/

namespace Mutiny

open Prog Bitcoin

/-! ## `impl BatchDatabase` -/

/-- `type Batch = Self`. -/
def begin_batch (storage : MutinyBrowserStorage) : MutinyBrowserStorage := ⟨storage.password⟩

def commit_batch (_storage _batch : MutinyBrowserStorage) : StorageM BdkError Unit := return ()

def DbCall.of_batch {Transaction : Type} : DbCall Transaction → Bool
  | .set_script_pubkey _ _ _ | .set_utxo _ | .set_raw_tx _ | .set_tx _ | .set_last_index _ _ | .set_sync_time _ => true
  | .del_script_pubkey_from_path _ _ | .del_path_from_script_pubkey _ | .del_utxo _ | .del_raw_tx _ | .del_tx _ _ => true
  | .del_last_index _ | .del_sync_time => true
  | _ => false

abbrev BatchOp (Transaction : Type) := { call : DbCall Transaction // call.of_batch = true }

theorem Kind.key_ne {kind kind' : Kind} {k : kind.Key} {k' : kind'.Key}
    (h : (⟨kind', k'⟩ : Sigma Kind.Key) ≠ ⟨kind, k⟩) : kind'.key k' ≠ kind.key k := by
  intro he
  obtain rfl := Kind.key_disjoint _ _ _ _ he
  exact h (congrArg _ (kind'.key_injective he))

inductive Edit (Transaction : Type) where
  | put (kind : Kind) (k : kind.Key) (v : kind.Val Transaction)
  | del (kind : Kind) (k : kind.Key)

namespace Edit

variable {Transaction : Type}

def address : Edit Transaction → Sigma Kind.Key
  | put kind k _ => ⟨kind, k⟩
  | del kind k => ⟨kind, k⟩

def value : ∀ e : Edit Transaction, Option (e.address.1.Val Transaction)
  | put _ _ v => some v
  | del _ _ => none

def writes : Edit Transaction → Nat
  | put _ _ _ => 1
  | del _ _ => 0

end Edit

/-- The records a call changes, in turn. -/
def DbCall.edits {Transaction : Type} (txid_of : Transaction → Bitcoin.Txid) : DbCall Transaction → List (Edit Transaction)
  | .set_script_pubkey script keychain path =>
    [.put .path (keychain, path) script, .put .script script ⟨keychain, path⟩]
  | .set_utxo utxo => [.put .utxo utxo.outpoint utxo]
  | .set_raw_tx transaction => [.put .raw_tx (txid_of transaction) transaction]
  | .set_tx transaction =>
    (match transaction.transaction with
      | some tx => [.put .raw_tx (txid_of tx) tx]
      | none => []) ++ [.put .tx transaction.txid { transaction with transaction := none }]
  | .set_last_index keychain value => [.put .last_index keychain value]
  | .set_sync_time data => [.put .sync_time () data]
  | .del_script_pubkey_from_path keychain path => [.del .path (keychain, path)]
  | .del_path_from_script_pubkey script => [.del .script script]
  | .del_utxo outpoint => [.del .utxo outpoint]
  | .del_raw_tx txid => [.del .raw_tx txid]
  | .del_tx txid include_raw => (if include_raw then [.del .raw_tx txid] else []) ++ [.del .tx txid]
  | .del_last_index keychain => [.del .last_index keychain]
  | .del_sync_time => [.del .sync_time ()]
  | _ => []

theorem edits_nodup {Transaction : Type} (txid_of : Transaction → Bitcoin.Txid) (op : BatchOp Transaction) :
    ((op.1.edits txid_of).map Edit.address).Nodup := by
  have htwo : ∀ {kind kind' : Kind} {k : kind.Key} {k' : kind'.Key}, kind ≠ kind' →
      [(⟨kind, k⟩ : Sigma Kind.Key), ⟨kind', k'⟩].Nodup := by
    intro kind kind' k k' hne
    apply List.nodup_cons.mpr ⟨?_, List.nodup_singleton _⟩
    intro hmem
    exact hne (congrArg Sigma.fst (List.mem_singleton.mp hmem))
  obtain ⟨call, hb⟩ := op
  cases call with
  | set_script_pubkey script keychain path => exact htwo nofun
  | set_tx transaction =>
    obtain ⟨_ | tx, txid, received, sent, fee, confirmation_time⟩ := transaction
    · exact List.nodup_singleton _
    · exact htwo nofun
  | del_tx txid include_raw =>
    cases include_raw with
    | false => exact List.nodup_singleton _
    | true => exact htwo nofun
  | set_utxo | set_raw_tx | set_last_index | set_sync_time | del_script_pubkey_from_path | del_path_from_script_pubkey
  | del_utxo | del_raw_tx | del_last_index | del_sync_time => exact List.nodup_singleton _
  | check_descriptor_checksum | iter_script_pubkeys | iter_utxos | iter_raw_txs | iter_txs
  | get_script_pubkey_from_path | get_path_from_script_pubkey | get_utxo | get_raw_tx | get_tx | get_last_index
  | get_sync_time | increment_last_index => cases hb

/-- What is read under the key of each record: nothing, a value, or an error. -/
abbrev Contents (Transaction : Type) :=
  ∀ kind : Kind, kind.Key → Option (Except (Fault MutinyStorageError) (kind.Val Transaction))

/-- Write `n` is refused, or what is to be deleted cannot be decrypted. -/
def Edit.Fails {Transaction : Type} (host : Host) (c : Contents Transaction) (n : Nat) : Edit Transaction → Prop
  | put _ _ _ => host.refuses n = true
  | del kind k => c kind k = some (.error .panic)

/-- Until one of them fails, the changes write what is there already and delete what is not there. -/
def Quiet {Transaction : Type} (host : Host) (c : Contents Transaction) : List (Edit Transaction) → Nat → Prop
  | [], _ => True
  | e :: es, n => e.Fails host c n ∨ (c e.address.1 e.address.2 = e.value.map .ok ∧ Quiet host c es (n + e.writes))

section
variable {Transaction : Type} [Serde String] [Serde Script] [Serde ScriptPubKeyInfo] [Serde LocalUtxo]
  [Serde Transaction] [Serde (TransactionDetails Transaction)] [Serde UInt32] [Serde (List UInt8)] [Serde SyncTime]
  (host : Host) (storage : MutinyBrowserStorage) (txid_of : Transaction → Bitcoin.Txid)

def contents (store : Store) : Contents Transaction :=
  fun kind k => found host storage (kind.Val Transaction) (kind.key k) store

def apply_all (ops : List (BatchOp Transaction)) : StorageM BdkError Unit :=
  ops.forM fun op => do
    let _ ← op.1.exec host storage txid_of

/-- Before the commit, and when an operation fails, the contents are what they were; the commit makes them what the
operations leave when they are done to the database. -/
structure BatchAtomic (ops : List (BatchOp Transaction)) (store : Store) : Prop where
  unchanged : ∀ done, done <+: ops →
    (contents host storage (exec (apply_all host (begin_batch storage) txid_of done) store).2 : Contents Transaction) =
      contents host storage store
  committed : Returns (apply_all host (begin_batch storage) txid_of ops) store →
    (contents host storage (exec (do
        apply_all host (begin_batch storage) txid_of ops
        commit_batch storage (begin_batch storage)) store).2 : Contents Transaction) =
      contents host storage (exec (apply_all host storage txid_of ops) store).2

/-! ## One change -/

def Edit.exec : Edit Transaction → StorageM BdkError Unit
  | put kind k v => convert .from_storage (storage.set host (kind.key k) v)
  | del kind k => do
    let _ : Option (kind.Val Transaction) ← ok (storage.get host (kind.key k))
    LocalStorage.delete (kind.key k)

variable {host storage}

theorem exec_del_get {ε : Type} (kind : Kind) (k : kind.Key) {store : Store}
    (h : (contents host storage store : Contents Transaction) kind k ≠ some (.error .panic)) :
    ∃ res, exec (ok (storage.get host (kind.key k) : StorageM MutinyStorageError (kind.Val Transaction)) :
      StorageM ε _) store = (.ok res, store) := by
  have hg := exec_get_found (α := kind.Val Transaction) host storage (kind.key k) store
  unfold contents at h
  unfold ok
  rcases hc : found host storage (kind.Val Transaction) (kind.key k) store with _ | ((e | _) | v) <;> rw [hc] at hg h
  · exact ⟨_, exec_bind_ok (exec_result_err hg)⟩
  · exact ⟨_, exec_bind_ok (exec_result_err hg)⟩
  · exact absurd rfl h
  · exact ⟨_, exec_bind_ok (exec_result_ok hg)⟩

theorem exec_del_panic {ε : Type} (kind : Kind) (k : kind.Key) {store : Store}
    (h : (contents host storage store : Contents Transaction) kind k = some (.error .panic)) :
    exec (ok (storage.get host (kind.key k) : StorageM MutinyStorageError (kind.Val Transaction)) : StorageM ε _)
      store = (.error .panic, store) := by
  have hg := exec_get_found (α := kind.Val Transaction) host storage (kind.key k) store
  unfold contents at h
  rw [h] at hg
  exact exec_bind_error (exec_result_panic hg)

variable (host storage) in
structure Edit.Done (e : Edit Transaction) (store t : Store) : Prop where
  here : (contents host storage t : Contents Transaction) e.address.1 e.address.2 = e.value.map .ok
  frame : ∀ kind k, (⟨kind, k⟩ : Sigma Kind.Key) ≠ e.address →
    (contents host storage t : Contents Transaction) kind k = contents host storage store kind k
  writes : t.writes = store.writes + e.writes

variable (host storage) in
theorem edit_step (e : Edit Transaction) (store : Store) :
    (e.Fails host (contents host storage store) store.writes ∧ ∃ t, outcome (e.exec host storage) store = (false, t) ∧
      (contents host storage t : Contents Transaction) = contents host storage store) ∨
    (¬ e.Fails host (contents host storage store) store.writes ∧ ∃ t, outcome (e.exec host storage) store = (true, t) ∧
      e.Done host storage store t) := by
  cases e with
  | put kind k v =>
    have hx := exec_convert_set host storage (kind.key k) BdkError.from_storage v store
    by_cases hr : host.refuses store.writes = true
    · rw [if_pos hr] at hx
      exact .inl ⟨hr, _, outcome_of_error hx, rfl⟩
    · rw [if_neg hr] at hx
      refine .inr ⟨hr, _, outcome_of_ok hx, ?_, ?_, rfl⟩
      · show (AList.lookup (kind.key k) (store.items.insert _ _)).map _ = _
        rw [AList.lookup_insert]
        exact congrArg some (decode_encode host storage store.writes v)
      · intro kind' k' hne
        show (AList.lookup (kind'.key k') (store.items.insert _ _)).map _ = _
        rw [AList.lookup_insert_ne (Kind.key_ne hne)]
        rfl
  | del kind k =>
    by_cases hp : (contents host storage store : Contents Transaction) kind k = some (.error .panic)
    · exact .inl ⟨hp, _, outcome_of_error (exec_bind_error (exec_del_panic kind k hp)), rfl⟩
    · obtain ⟨res, hg⟩ := exec_del_get (ε := BdkError) kind k hp
      refine .inr ⟨hp, { store with items := store.items.erase (kind.key k) },
        outcome_of_ok ((exec_bind_ok hg).trans rfl), ?_, ?_, rfl⟩
      · show (AList.lookup (kind.key k) (store.items.erase _)).map _ = _
        rw [AList.lookup_erase]
        rfl
      · intro kind' k' hne
        show (AList.lookup (kind'.key k') (store.items.erase _)).map _ = _
        rw [AList.lookup_erase_ne (Kind.key_ne hne)]
        rfl

/-! ## A list of changes -/

theorem frame_edits {kind : Kind} {k : kind.Key} : ∀ (es : List (Edit Transaction)) (store : Store),
    (⟨kind, k⟩ : Sigma Kind.Key) ∉ es.map Edit.address →
      (contents host storage (outcome (es.forM (Edit.exec host storage)) store).2 : Contents Transaction) kind k =
        contents host storage store kind k
  | [], store, _ => rfl
  | e :: es, store, h => by
    obtain ⟨hne, hrest⟩ := List.ne_and_not_mem_of_not_mem_cons h
    rw [List.forM_eq_forM, List.forM_cons, outcome_seq]
    rcases edit_step host storage e store with ⟨-, t, ht, hc⟩ | ⟨-, t, ht, done⟩
    · rw [ht]
      exact congrFun (congrFun hc kind) k
    · rw [ht]
      exact (frame_edits es t hrest).trans (done.frame kind k hne)

/-- What a change leaves when it writes what is there already, or deletes what is not there. -/
theorem Edit.Done.contents_eq {e : Edit Transaction} {store t : Store} (done : e.Done host storage store t)
    (h : (contents host storage store : Contents Transaction) e.address.1 e.address.2 = e.value.map .ok) :
    (contents host storage t : Contents Transaction) = contents host storage store := by
  funext kind k
  by_cases ha : (⟨kind, k⟩ : Sigma Kind.Key) = e.address
  · obtain ⟨rfl, hk⟩ := Sigma.mk.inj ha
    obtain rfl := eq_of_heq hk
    exact done.here.trans h.symm
  · exact done.frame kind k ha

variable (host storage) in
theorem quiet_iff : ∀ (es : List (Edit Transaction)) (store : Store), (es.map Edit.address).Nodup →
    ((contents host storage (outcome (es.forM (Edit.exec host storage)) store).2 : Contents Transaction) =
      contents host storage store ↔ Quiet host (contents host storage store) es store.writes)
  | [], store, _ => iff_of_true rfl trivial
  | e :: es, store, hnodup => by
    obtain ⟨hnotin, hrest⟩ := List.nodup_cons.mp hnodup
    rw [List.forM_eq_forM, List.forM_cons, outcome_seq]
    rcases edit_step host storage e store with ⟨hf, t, ht, hc⟩ | ⟨hf, t, ht, done⟩
    · rw [ht]
      exact iff_of_true hc (.inl hf)
    · rw [ht]
      -- what the change leaves under its key is there at the end
      have hhere := (frame_edits es t hnotin).trans done.here
      constructor
      · intro h
        have hvalue := (congrFun (congrFun h _) _).symm.trans hhere
        have hct := done.contents_eq hvalue
        refine .inr ⟨hvalue, ?_⟩
        rw [← hct, ← done.writes]
        exact (quiet_iff es t hrest).mp (h.trans hct.symm)
      · intro h
        obtain ⟨hvalue, hq⟩ := h.resolve_left hf
        have hct := done.contents_eq hvalue
        rw [← hct, ← done.writes] at hq
        exact ((quiet_iff es t hrest).mpr hq).trans hct

theorem quiet_append (es' : List (Edit Transaction)) : ∀ (es : List (Edit Transaction)) (store : Store),
    Quiet host (contents host storage store) (es ++ es') store.writes ↔
      Quiet host (contents host storage store) es store.writes ∧
        ((outcome (es.forM (Edit.exec host storage)) store).1 = true →
          Quiet host (contents host storage store) es' (outcome (es.forM (Edit.exec host storage)) store).2.writes)
  | [], store => ⟨fun h => ⟨trivial, fun _ => h⟩, fun h => h.2 rfl⟩
  | e :: es, store => by
    rw [List.forM_eq_forM, List.forM_cons, outcome_seq]
    rcases edit_step host storage e store with ⟨hf, t, ht, -⟩ | ⟨hf, t, ht, done⟩
    · rw [ht]
      exact iff_of_true (.inl hf) ⟨.inl hf, nofun⟩
    · rw [ht]
      have ih := quiet_append es' es t
      constructor
      · intro h
        obtain ⟨hvalue, hq⟩ := h.resolve_left hf
        rw [← done.writes, ← done.contents_eq hvalue] at hq
        obtain ⟨hes, hes'⟩ := ih.mp hq
        rw [done.contents_eq hvalue] at hes hes'
        exact ⟨.inr ⟨hvalue, done.writes ▸ hes⟩, hes'⟩
      · intro ⟨hq, hes'⟩
        obtain ⟨hvalue, hes⟩ := hq.resolve_left hf
        refine .inr ⟨hvalue, ?_⟩
        rw [← done.writes, ← done.contents_eq hvalue] at hes ⊢
        apply ih.mpr
        rw [done.contents_eq hvalue] at hes ⊢
        exact ⟨hes, hes'⟩

/-! ## An operation is its changes -/

variable (host storage) in
theorem outcome_del (kind : Kind) (k : kind.Key) {β : Type} (f : Option (kind.Val Transaction) → StorageM BdkError β)
    (hf : ∀ res t, outcome (f res) t = (true, t)) (store : Store) :
    outcome (do
        let res ← ok (storage.get host (kind.key k))
        LocalStorage.delete (kind.key k)
        f res) store = outcome ((Edit.del kind k : Edit Transaction).exec host storage) store := by
  apply outcome_bind_congr rfl
  intro res t
  rw [outcome_seq]
  exact hf res _

variable (host storage) in
theorem outcome_one (e : Edit Transaction) (store : Store) :
    outcome ([e].forM (Edit.exec host storage)) store = outcome (e.exec host storage) store :=
  outcome_map (e.exec host storage) (fun _ => ()) store

theorem outcome_two {x y : StorageM BdkError Unit} (e e' : Edit Transaction)
    (hx : ∀ store, outcome x store = outcome (e.exec host storage) store)
    (hy : ∀ store, outcome y store = outcome (e'.exec host storage) store) (store : Store) :
    outcome (x >>= fun _ => y) store = outcome ([e, e'].forM (Edit.exec host storage)) store := by
  apply outcome_bind_congr (hx store)
  intro _ t
  rw [hy t, ← outcome_one host storage e' t]

variable (host storage) in
theorem outcome_del_tx (txid : Bitcoin.Txid) (raw_tx : Option Transaction) (store : Store) : outcome (do
      let res : Option (TransactionDetails Transaction) ← ok (storage.get host (Kind.tx.key txid))
      LocalStorage.delete (Kind.tx.key txid)
      match res with
      | none => return none
      | some val => return some { val with transaction := raw_tx } : StorageM BdkError _) store =
    outcome ((Edit.del .tx txid : Edit Transaction).exec host storage) store := by
  refine outcome_del host storage .tx txid _ (fun res t => ?_) store
  cases res <;> rfl

theorem outcome_call (op : BatchOp Transaction) (store : Store) : outcome (op.1.exec host storage txid_of) store =
    outcome ((op.1.edits txid_of).forM (Edit.exec host storage)) store := by
  obtain ⟨call, hb⟩ := op
  have hdel : ∀ (kind : Kind) (k : kind.Key) (f : Option (kind.Val Transaction) → Answer Transaction),
      outcome ((do
        let res ← ok (storage.get host (kind.key k))
        LocalStorage.delete (kind.key k)
        return res : StorageM BdkError _) >>= fun res => pure (f res)) store =
          outcome ([(Edit.del kind k : Edit Transaction)].forM (Edit.exec host storage)) store := by
    intro kind k f
    rw [outcome_map, outcome_one]
    exact outcome_del host storage kind k pure (fun _ _ => rfl) store
  have hput : ∀ e : Edit Transaction, outcome (e.exec host storage >>= fun _ => pure (Answer.unit : Answer Transaction))
      store = outcome ([e].forM (Edit.exec host storage)) store := by
    intro e
    rw [outcome_one, outcome_map]
  cases call with
  | set_script_pubkey script keychain path =>
    apply (outcome_map _ (fun _ => Answer.unit) store).trans
    exact outcome_two (.put .path (keychain, path) script) (.put .script script ⟨keychain, path⟩)
      (fun _ => rfl) (fun _ => rfl) store
  | set_utxo utxo => exact hput (.put .utxo utxo.outpoint utxo)
  | set_raw_tx transaction => exact hput (.put .raw_tx (txid_of transaction) transaction)
  | set_tx transaction =>
    apply (outcome_map _ (fun _ => Answer.unit) store).trans
    obtain ⟨_ | tx, txid, received, sent, fee, confirmation_time⟩ := transaction
    · exact (outcome_one host storage (.put .tx txid ⟨none, txid, received, sent, fee, confirmation_time⟩) store).symm
    · exact outcome_two (.put .raw_tx (txid_of tx) tx)
        (.put .tx txid ⟨none, txid, received, sent, fee, confirmation_time⟩) (fun _ => rfl) (fun _ => rfl) store
  | set_last_index keychain value => exact hput (.put .last_index keychain value)
  | set_sync_time data => exact hput (.put .sync_time () data)
  | del_script_pubkey_from_path keychain path => exact hdel .path (keychain, path) .script
  | del_path_from_script_pubkey script =>
    apply (outcome_map _ Answer.path store).trans
    rw [DbCall.edits, outcome_one]
    refine outcome_del host storage .script script _ (fun res t => ?_) store
    cases res <;> rfl
  | del_utxo outpoint => exact hdel .utxo outpoint .utxo
  | del_raw_tx txid => exact hdel .raw_tx txid .raw_tx
  | del_tx txid include_raw =>
    apply (outcome_map _ Answer.tx store).trans
    have htx (raw_tx : Option Transaction) := outcome_del_tx host storage txid raw_tx
    cases include_raw with
    | false => exact (htx none store).trans (outcome_one host storage _ store).symm
    | true =>
      apply outcome_bind_congr
      · exact outcome_del host storage .raw_tx txid pure (fun _ _ => rfl) store
      · intro raw_tx t
        exact (htx raw_tx t).trans (outcome_one host storage _ t).symm
  | del_last_index keychain => exact hdel .last_index keychain .last_index
  | del_sync_time => exact hdel .sync_time () .sync_time
  | check_descriptor_checksum | iter_script_pubkeys | iter_utxos | iter_raw_txs | iter_txs
  | get_script_pubkey_from_path | get_path_from_script_pubkey | get_utxo | get_raw_tx | get_tx | get_last_index
  | get_sync_time | increment_last_index => cases hb

/-! ## A batch -/

variable (host storage) in
theorem outcome_apply_all (op : BatchOp Transaction) (ops : List (BatchOp Transaction)) (store : Store) :
    outcome (apply_all host storage txid_of (op :: ops)) store =
      if (outcome ((op.1.edits txid_of).forM (Edit.exec host storage)) store).1 then
        outcome (apply_all host storage txid_of ops)
          (outcome ((op.1.edits txid_of).forM (Edit.exec host storage)) store).2
      else outcome ((op.1.edits txid_of).forM (Edit.exec host storage)) store := by
  unfold apply_all
  rw [List.forM_eq_forM, List.forM_cons, outcome_seq, outcome_map, outcome_call]

theorem unchanged_iff : ∀ (ops : List (BatchOp Transaction)) (store : Store),
    (∀ done, done <+: ops →
      (contents host storage (exec (apply_all host storage txid_of done) store).2 : Contents Transaction) =
        contents host storage store) ↔
      Quiet host (contents host storage store) (ops.flatMap fun op => op.1.edits txid_of) store.writes
  | [], store => by
    refine iff_of_true (fun done hd => ?_) trivial
    rw [List.prefix_nil.mp hd]
    rfl
  | op :: ops, store => by
    have hop := quiet_iff host storage (op.1.edits txid_of) store (edits_nodup txid_of op)
    rw [List.flatMap_cons, quiet_append]
    rcases ht : outcome ((op.1.edits txid_of).forM (Edit.exec host storage)) store with ⟨b, t⟩
    rw [ht] at hop
    have hcons : ∀ ops, (exec (apply_all host storage txid_of (op :: ops)) store).2 =
        if b then (exec (apply_all host storage txid_of ops) t).2 else t := by
      intro ops
      have h := congrArg Prod.snd (outcome_apply_all host storage txid_of op ops store)
      rw [ht] at h
      cases b <;> exact h
    constructor
    · intro h
      have hnil := h [op] ⟨ops, rfl⟩
      rw [hcons] at hnil
      have hct : (contents host storage t : Contents Transaction) = contents host storage store := by
        cases b <;> exact hnil
      refine ⟨hop.mp hct, fun hb => ?_⟩
      rw [← hct]
      apply (unchanged_iff ops t).mp
      intro done hd
      have hdone := h (op :: done) (List.cons_prefix_cons.mpr ⟨rfl, hd⟩)
      rw [hcons, if_pos hb] at hdone
      exact hdone.trans hct.symm
    · intro ⟨hq, hrest⟩ done hd
      have hct := hop.mpr hq
      cases done with
      | nil => rfl
      | cons op' done =>
        obtain ⟨rfl, hdone⟩ := List.cons_prefix_cons.mp hd
        rw [hcons]
        cases b with
        | false => exact hct
        | true =>
          have hr := hrest rfl
          rw [← hct] at hr
          exact ((unchanged_iff ops t).mpr hr done hdone).trans hct

variable (host storage) in
/-- A batch is atomic exactly when its operations change nothing until one of them fails. -/
theorem batch_atomic (ops : List (BatchOp Transaction)) (store : Store) :
    BatchAtomic host storage txid_of ops store ↔
      Quiet host (contents host storage store) (ops.flatMap fun op => op.1.edits txid_of) store.writes := by
  rw [← unchanged_iff]
  constructor
  · intro h
    exact h.unchanged
  · intro h
    refine ⟨h, fun ⟨_, t, ht⟩ => ?_⟩
    show contents host storage (exec (apply_all host storage txid_of ops >>= fun _ => pure ()) store).2 = _
    have ht : exec (apply_all host storage txid_of ops) store = (.ok (), t) := ht
    rw [exec_bind_ok ht, ht]
    rfl

end

attribute [local instance] string_serde bytes_serde Json.script_serde Json.script_pub_key_info_serde
  Json.local_utxo_serde Json.transaction_details_serde Json.u32_serde Json.sync_time_serde

def batch_script : Script :=
  ⟨[0x76, 0xa9, 0x14, 0x02, 0x30, 0x6a, 0x7c, 0x23, 0xf3, 0xe8, 0x01, 0x0d, 0xe4, 0x1e, 0x9e, 0x59, 0x13, 0x48, 0xbb,
    0x83, 0xf1, 0x1d, 0xaa, 0x88, 0xac]⟩

/-- A script put in a batch of an empty database is found before the commit. -/
theorem batch_script_pubkey : ¬ BatchAtomic open_host ⟨""⟩ (fun _ : List UInt8 => .replicate 32 0)
    [⟨.set_script_pubkey batch_script .External 42, rfl⟩] ⟨∅, 0⟩ := by
  intro h
  rcases (unchanged_iff _ _ _).mp h.unchanged with hr | ⟨hc, -⟩
  · cases hr
  · cases hc

end Mutiny
