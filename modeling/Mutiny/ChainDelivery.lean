import Mutiny.ChainReorg

/-!
# What a call of `sync` delivers

A transaction that was registered or unconfirmed stays queued or watched until every confirmable was told of its
confirmation. The calls of one round are in chain order; a transaction that several watched items lead to is
delivered once for each of them.
-/

namespace Mutiny

open Prog

/-! ## No watched transaction is lost -/

/-- The event asks for the confirmation of the transaction: a registration or an un-confirmation. -/
def Event.seeks (txid : Txid) : Event → Bool
  | .registered (.tx t) => t = txid
  | .transaction_unconfirmed _ t => t = txid
  | _ => false

def Event.confirms (c : Nat) (txid : Txid) : Event → Bool
  | .transactions_confirmed c' _ _ tx _ => c' = c ∧ tx.txid = txid
  | _ => false

/-- The events after the newest one that asks for the transaction. -/
def since_sought (txid : Txid) (log : List Event) : List Event := log.takeWhile fun e => !e.seeks txid

/-- Every confirmable was told of the confirmation since then. -/
def Delivered (n : Nat) (txid : Txid) (log : List Event) : Prop :=
  ∀ c < n, ∃ e ∈ since_sought txid log, e.confirms c txid = true

def Tracks (n : Nat) (w : World) : Prop :=
  ∀ txid, (∃ e ∈ w.log, e.seeks txid = true) →
    txid ∈ w.chain.queued_transactions ∨ txid ∈ w.chain.watched_transactions ∨ Delivered n txid w.log

theorem since_sought_append {txid : Txid} {new : List Event} (h : ∀ e ∈ new, e.seeks txid = false) (log : List Event) :
    since_sought txid (new ++ log) = new ++ since_sought txid log := by
  unfold since_sought
  apply List.takeWhile_append_of_pos
  intro e he
  simp [h e he]

theorem seeks_cases {e : Event} {txid : Txid} (h : e.seeks txid = true) :
    e = .registered (.tx txid) ∨ ∃ c, e = .transaction_unconfirmed c txid := by
  unfold Event.seeks at h
  split at h
  · left
    simp_all
  · right
    simp_all
  · cases h

section
variable {env : Env} {n : Nat}

theorem Tracks.later {new : List Event} {w w' : World} (h : Tracks n w) (hl : Later new w w')
    (hu : ∀ c txid, .transaction_unconfirmed c txid ∈ new → txid ∈ w'.chain.watched_transactions)
    (hw : ∀ txid ∈ w.chain.watched_transactions, txid ∈ w'.chain.watched_transactions ∨
      ∀ c < n, ∃ e ∈ new, e.confirms c txid = true) : Tracks n w' := by
  intro txid hs
  by_cases hnew : ∃ e ∈ new, e.seeks txid = true
  · obtain ⟨e, he, hse⟩ := hnew
    rcases seeks_cases hse with rfl | ⟨c, rfl⟩
    · exact .inl (hl.arrived _ he)
    · exact .inr (.inl (hu c txid he))
  · have hno : ∀ e ∈ new, e.seeks txid = false := by
      intro e he
      by_contra hse
      exact hnew ⟨e, he, by simpa using hse⟩
    have hold : ∃ e ∈ w.log, e.seeks txid = true := by
      obtain ⟨e, he, hse⟩ := hs
      rw [hl.log] at he
      rcases List.mem_append.mp he with he | he
      · exact absurd ⟨e, he, hse⟩ hnew
      · exact ⟨e, he, hse⟩
    have hsince : since_sought txid w'.log = new ++ since_sought txid w.log := by
      rw [hl.log]
      exact since_sought_append hno w.log
    rcases h txid hold with hq | hwd | hd
    · exact .inl (hl.queued (.tx txid) hq)
    · rcases hw txid hwd with hwd | hc
      · exact .inr (.inl hwd)
      · right; right
        intro c hcn
        obtain ⟨e, he, hce⟩ := hc c hcn
        exact ⟨e, by rw [hsince]; exact List.mem_append_left _ he, hce⟩
    · right; right
      intro c hcn
      obtain ⟨e, he, hce⟩ := hd c hcn
      exact ⟨e, by rw [hsince]; exact List.mem_append_right _ he, hce⟩

theorem Tracks.grows {P : Event → Prop} (hP : ∀ e, P e → ∀ c txid, e ≠ .transaction_unconfirmed c txid) {w w' : World}
    (h : Tracks n w) (hg : Grows P w w') : Tracks n w' := by
  obtain ⟨new, hl, hn⟩ := hg.later
  apply h.later hl
  · intro c txid hm
    exact absurd rfl (hP _ (hn _ hm) c txid)
  · intro txid hw
    rw [hg.txs]
    exact .inl hw

theorem Tracks.note {w w' : World} (h : Tracks n w) {e : Event} (hlog : w'.log = e :: w.log)
    (he : ∀ txid, e.seeks txid = false) (hw : ∀ txid,
      txid ∈ w.chain.queued_transactions ∨ txid ∈ w.chain.watched_transactions →
      txid ∈ w'.chain.queued_transactions ∨ txid ∈ w'.chain.watched_transactions) : Tracks n w' := by
  intro txid hs
  have hold : ∃ e ∈ w.log, e.seeks txid = true := by
    obtain ⟨e', he', hse⟩ := hs
    rw [hlog] at he'
    rcases List.mem_cons.mp he' with rfl | he'
    · simp [he txid] at hse
    · exact ⟨e', he', hse⟩
  have hsince : since_sought txid w'.log = e :: since_sought txid w.log := by
    rw [hlog]
    unfold since_sought
    rw [List.takeWhile_cons_of_pos (by simp [he txid])]
  rw [← or_assoc]
  rcases or_assoc.mpr (h txid hold) with hqw | hd
  · exact .inl (hw txid hqw)
  · right
    intro c hc
    obtain ⟨e', he', hce⟩ := hd c hc
    exact ⟨e', by rw [hsince]; exact List.mem_cons_of_mem _ he', hce⟩

theorem Tracks.moved {w : World} (h : Tracks n w) : Tracks n w.moved := by
  by_cases he : w.chain.queued_transactions = [] ∧ w.chain.queued_outputs = []
  · rwa [moved_of_empty he.1 he.2]
  · apply h.note (moved_log he) (fun _ => rfl)
    intro txid hqw
    right
    have hmem : txid ∈ w.chain.queued_transactions ∪ w.chain.watched_transactions := List.mem_union_iff.mpr hqw
    unfold World.moved
    split <;> exact hmem

theorem Tracks.unconfirms {w w' : World} (h : Tracks n w) (hu : Unconfirms w w') : Tracks n w' := by
  obtain ⟨new, hl, -, ht⟩ := hu.later
  apply h.later hl
  · intro c txid hm
    exact (ht txid).mpr (.inr ⟨c, hm⟩)
  · intro txid hw
    exact .inl ((ht txid).mpr (.inl hw))

theorem Tracks.confirmed {txs : List ConfirmedTx} {w w' : World} (h : Tracks n w) (hc : Confirms n txs w w') :
    Tracks n w' := by
  obtain ⟨⟨new, hl, hn, he⟩, ht⟩ := hc
  apply h.later hl
  · intro c txid hm
    rcases hn _ hm with ⟨_, h⟩ | ⟨_, _, _, h⟩ <;> cases h
  · intro txid hw
    -- a transaction leaves the watch set only after its own callbacks
    by_cases hctx : ∃ ctx ∈ txs, ctx.tx.txid = txid
    · obtain ⟨ctx, hmem, htx⟩ := hctx
      right
      intro c hcn
      exact ⟨_, he ctx hmem c hcn, by simp [Event.confirms, htx]⟩
    · left
      apply (ht txid).mpr
      refine ⟨hw, fun ctx hmem htx => hctx ⟨ctx, hmem, htx⟩⟩

theorem Tracks.round {tip : BlockHash} {r : Except MutinyError Flow} {w w' : World} (h : Tracks n w)
    (hr : Round env n tip w r w') : Tracks n w' := by
  have hsearch : ∀ {r w₁}, (get_confirmed_transactions env).exec w = (r, w₁) → Tracks n w₁ :=
    fun hs => h.grows (fun _ => Event.Search.confirms) (grows_search env hs)
  have hquery : ∀ {r w₁ w₂}, Tracks n w₁ → (query env env.get_tip_hash).exec w₁ = (r, w₂) → Tracks n w₂ :=
    fun h hq => h.grows (fun _ => Event.Arrival.confirms) (grows_query env hq)
  cases hr with
  | failed hs | aborted hs => exact hsearch hs
  | no_tip hs hq | tip_changed hs hq _ => exact hquery (hsearch hs) hq
  | @confirm_failed txs spent _ _ w₂ _ _ _ hc =>
    obtain ⟨_, hx, _⟩ := exec_sync_confirmed_transactions env n txs spent w₂
    rw [hx] at hc
    cases hc
  | @completed txs spent _ w₂ _ hs hq hc =>
    obtain ⟨_, hx, hcs, _⟩ := exec_sync_confirmed_transactions env n txs spent w₂
    rw [hx] at hc
    cases hc
    exact ((hquery (hsearch hs) hq).confirmed hcs).note rfl (fun _ => rfl) fun _ => id

theorem Tracks.iteration {tip : BlockHash} {r : Except MutinyError Flow} {w w' : World} (h : Tracks n w)
    (hi : Iteration env n tip w r w') : Tracks n w' := by
  have hunc : ∀ {r w₁}, (sync_unconfirmed_transactions env n).exec w.moved = (r, w₁) → Tracks n w₁ :=
    fun hu => h.moved.unconfirms (unconfirms_of_exec env hu)
  cases hi with
  | idle _ => exact h
  | unconfirm_failed _ hu => exact hunc hu
  | announce_failed _ hu ha | announce_aborted _ hu ha =>
    exact (hunc hu).grows (fun _ => Event.Announce.confirms) (grows_announce env ha)
  | new_tip _ hu ha hr => exact ((hunc hu).grows (fun _ => Event.Announce.confirms) (grows_announce env ha)).round hr
  | same_tip _ _ hr => exact h.moved.round hr

theorem Tracks.step {s : Session} {a : Act} {t : Session} (h : Tracks n s.world) (hs : chain_step env n s a = some t) :
    Tracks n t.world := by
  cases a with
  | register x =>
    cases hs
    exact h.grows (fun _ => Event.Arrival.confirms) (grows_register (fun x => ⟨x, rfl⟩) s.world x)
  | begin_sync => exact h.grows (fun _ => Event.Arrival.confirms) (begin_sync_step hs).1
  | iterate =>
    obtain ⟨_, tip, r, _, hi, -⟩ := iterate_step hs
    exact h.iteration hi

end

theorem sync_keeps_transactions (env : Env) (n : Nat) (as : List Act) (s : Session)
    (h : (chain_machine env n).run .new as = some s) : Tracks n s.world := by
  have h₀ : Tracks n Session.new.world := fun txid ⟨e, he, _⟩ => by cases he
  exact Machine.invariant (I := fun s => Tracks n s.world) (fun s a t h hs => h.step hs) h₀ h

/-- Transaction 7 is registered again from inside the callback that confirms it. -/
def reentrant : Env := { replaced 100 with arrivals := fun k => if k = 9 then [.tx 7] else [] }

def reentrant_log : List Event :=
  [.synced 1, .registered (.tx 7), .transactions_confirmed 0 ⟨1⟩ 0 ⟨7, [⟨9, 0⟩]⟩ 0, .looked_up (.tx 7), .round,
    .best_block_updated 0 ⟨1⟩ 0, .processed, .registered (.tx 7)]

theorem sync_keeps_reregistered : ∃ s,
    (chain_machine reentrant 1).run .new [.register (.tx 7), .begin_sync, .iterate] = some s ∧
      s.world.log = reentrant_log ∧ s.world.chain.queued_transactions = [7] ∧ Tracks 1 s.world := by
  have hr : (chain_machine reentrant 1).run .new [.register (.tx 7), .begin_sync, .iterate] =
      some ⟨⟨⟨[7], [], [], [], some 1⟩, 10, reentrant_log⟩, .syncing [.registered (.tx 7)] 1⟩ := rfl
  exact ⟨_, hr, rfl, rfl, sync_keeps_transactions reentrant 1 _ _ hr⟩

/-! ## The answers of one view -/

/-- The answers of a source that does not change while a round runs. -/
structure ChainView where
  get_tip_hash : Except EsploraError BlockHash
  get_header_by_hash : BlockHash → Except EsploraError BlockHeader
  get_block_status : BlockHash → Except EsploraError BlockStatus
  get_merkle_proof : Txid → Except EsploraError (Option MerkleProof)
  get_block_hash : Nat → Except EsploraError BlockHash
  get_tx : Txid → Except EsploraError (Option Transaction)
  get_output_status : Txid → Nat → Except EsploraError (Option OutputStatus)

def ChainView.esplora (v : ChainView) : Esplora where
  get_tip_hash _ := v.get_tip_hash
  get_header_by_hash _ := v.get_header_by_hash
  get_block_status _ := v.get_block_status
  get_merkle_proof _ := v.get_merkle_proof
  get_block_hash _ := v.get_block_hash
  get_tx _ := v.get_tx
  get_output_status _ := v.get_output_status

def asked {α : Type} (answer : Except EsploraError α) : Except MutinyError α := answer.mapError MutinyError.from_esplora

/-- What the view says of a transaction, given the place an output status has for it. -/
def ChainView.confirmed_tx (v : ChainView) (txid : Txid) (expected_block_hash : Option BlockHash)
    (known_block_height : Option Nat) : Except MutinyError (Option ConfirmedTx) := do
  match ← asked (v.get_merkle_proof txid) with
  | none => return none
  | some merkle_proof =>
    let block_hash ← asked (v.get_block_hash merkle_proof.block_height)
    if expected_block_hash.any (· ≠ block_hash) then throw .ChainAccessFailed
    let block_header ← asked (v.get_header_by_hash block_hash)
    match ← asked (v.get_tx txid) with
    | none => return none
    | some tx =>
      if known_block_height.any (· ≠ merkle_proof.block_height) then throw .ChainAccessFailed
      return some { tx, block_header, pos := merkle_proof.pos, block_height := merkle_proof.block_height }

/-- The confirmed transaction a watched item leads to: itself, or the transaction that spends the output. -/
def ChainView.found (v : ChainView) : Item → Except MutinyError (Option ConfirmedTx)
  | .tx txid => v.confirmed_tx txid none none
  | .output o => do
    match ← asked (v.get_output_status o.outpoint.txid o.outpoint.index) with
    | some ⟨some spending_txid, some status⟩ => v.confirmed_tx spending_txid status.block_hash status.block_height
    | _ => return none

section
variable {env : Env} {v : ChainView} (hv : env.toEsplora = v.esplora)
include hv

omit hv in
theorem yields_query {α : Type} {answer : Nat → Except EsploraError α} {a : Except EsploraError α}
    (h : ∀ k, answer k = a) : Yields (asked a) (query env answer) := by
  intro w
  simp only [query, exec_get_bind, exec_modify_bind, h]
  cases a <;> rfl

theorem yields_get_confirmed_tx (txid : Txid) (hash : Option BlockHash) (height : Option Nat) :
    Yields (v.confirmed_tx txid hash height) (get_confirmed_tx env txid hash height) := by
  apply (yields_query (fun k => by rw [hv]; rfl)).bind
  intro proof
  cases proof with
  | none => exact yields_pure _
  | some proof =>
    apply (yields_query (fun k => by rw [hv]; rfl)).bind
    intro block_hash
    by_cases hb : hash.any (· ≠ block_hash) = true
    · simp only [hb, if_true]
      exact fun _ => rfl
    · simp only [hb]
      apply (yields_query (fun k => by rw [hv]; rfl)).bind
      intro header
      apply (yields_query (fun k => by rw [hv]; rfl)).bind
      intro tx
      cases tx with
      | none => exact yields_pure _
      | some tx =>
        cases height with
        | none => exact yields_pure _
        | some height =>
          by_cases hh : proof.block_height = height
          · subst hh
            simp only [ne_eq, not_true_eq_false, if_false]
            intro w
            simp
            rfl
          · have hh' : ¬ height = proof.block_height := fun h => hh h.symm
            simp only [ne_eq, hh, not_false_eq_true, if_true]
            intro w
            simp [hh']
            rfl

theorem yields_get_spending_tx (o : WatchedOutput) : Yields (v.found (.output o)) (get_spending_tx env o) := by
  apply (yields_query (fun k => by rw [hv]; rfl)).bind
  intro status
  rcases status with _ | ⟨_ | txid, _ | status⟩
  · exact yields_pure _
  · exact yields_pure _
  · exact yields_pure _
  · exact yields_pure _
  · exact yields_get_confirmed_tx hv txid status.block_hash status.block_height

theorem yields_lookup_tx (txs : List ConfirmedTx) (txid : Txid) :
    Yields ((v.found (.tx txid)).map fun found => txs ++ found.toList) (lookup_tx env txs txid) := by
  apply (yields_get_confirmed_tx hv txid none none).bind (g := fun found => .ok (txs ++ found.toList))
  intro found
  exact (yields_modify _).bind fun _ => yields_pure _

def ConfirmedTx.join (acc : List ConfirmedTx × List WatchedOutput) (o : WatchedOutput) :
    Option ConfirmedTx → List ConfirmedTx × List WatchedOutput
  | some ctx => (acc.1 ++ [ctx], acc.2.insert o)
  | none => acc

theorem yields_lookup_output (acc : List ConfirmedTx × List WatchedOutput) (o : WatchedOutput) :
    Yields ((v.found (.output o)).map (ConfirmedTx.join acc o)) (lookup_output env acc o) := by
  apply (yields_get_spending_tx hv o).bind (g := fun found => .ok (ConfirmedTx.join acc o found))
  intro found
  apply (yields_modify _).bind (r := .ok ()) (g := fun _ => .ok (ConfirmedTx.join acc o found))
  intro _
  cases found <;> exact yields_pure _

end

/-! ## What is looked up -/

def ChainView.find (v : ChainView) (x : Item) : Option ConfirmedTx := (v.found x).toOption.join

def MutinyChain.watched (c : MutinyChain) : List Item := c.watched_transactions.map .tx ++ c.watched_outputs.map .output

section
variable {α β : Type} {f : α → Except MutinyError (Option ConfirmedTx)} {h : β → α → Option ConfirmedTx → β}

theorem foldlM_error {e : MutinyError} : ∀ {l : List α} {b : β},
    l.foldlM (fun b a => (f a).map (h b a)) b = .error e → ∃ a ∈ l, f a = .error e
  | [], _, hl => by cases hl
  | a :: l, b, hl => by
    rw [List.foldlM_cons] at hl
    cases hf : f a with
    | error e' =>
      rw [hf] at hl
      cases hl
      exact ⟨a, List.mem_cons_self, hf⟩
    | ok r =>
      rw [hf] at hl
      obtain ⟨a', ha', he⟩ := foldlM_error hl
      exact ⟨a', List.mem_cons_of_mem _ ha', he⟩

theorem foldlM_found (txs : β → List ConfirmedTx) (ht : ∀ b a r, txs (h b a r) = txs b ++ r.toList) :
    ∀ {l : List α} {b b' : β}, l.foldlM (fun b a => (f a).map (h b a)) b = .ok b' →
      (∀ a ∈ l, ∃ r, f a = .ok r) ∧ txs b' = txs b ++ l.filterMap fun a => (f a).toOption.join
  | [], _, _, hl => by
    cases hl
    simp
  | a :: l, b, b', hl => by
    rw [List.foldlM_cons] at hl
    cases hf : f a with
    | error e =>
      rw [hf] at hl
      cases hl
    | ok r =>
      rw [hf] at hl
      obtain ⟨hall, hb⟩ := foldlM_found txs ht (b := h b a r) hl
      constructor
      · intro a' ha'
        rcases List.mem_cons.mp ha' with rfl | ha'
        · exact ⟨r, hf⟩
        · exact hall a' ha'
      · rw [hb, ht, List.append_assoc]
        cases r <;> simp [hf, Except.toOption]

end

instance : Std.Total ConfirmedTx.le where
  total tx1 tx2 := by
    unfold ConfirmedTx.le
    omega

instance : IsTrans ConfirmedTx ConfirmedTx.le where
  trans tx1 tx2 tx3 h h' := by
    unfold ConfirmedTx.le at *
    omega

section
variable {env : Env} {v : ChainView} (hv : env.toEsplora = v.esplora)
include hv

theorem search_cases (w : World) :
    (∃ x e w₁, w.chain.Watched x ∧ v.found x = .error e ∧
      (get_confirmed_transactions env).exec w = (.error e, w₁)) ∨
    ∃ txs spent w₁, (get_confirmed_transactions env).exec w = (.ok (txs, spent), w₁) ∧
      (∀ x, w.chain.Watched x → ∃ r, v.found x = .ok r) ∧ txs.Pairwise ConfirmedTx.le ∧
      txs.Perm (w.chain.watched.filterMap v.find) := by
  unfold get_confirmed_transactions note
  rw [exec_modify_bind, exec_get_bind]
  have htxs := Yields.foldlM (yields_lookup_tx hv) (env.iter w.now w.chain.watched_transactions) [] (w.note .round)
  have hgrows : Within (Grows Event.Search)
      ((env.iter w.now w.chain.watched_transactions).foldlM (lookup_tx env) []) :=
    Within.foldlM (fun _ _ _ => grows_lookup_tx (fun _ => trivial) env (fun _ => trivial) _ _) _
  have hmem₁ : ∀ txid, txid ∈ env.iter w.now w.chain.watched_transactions ↔ txid ∈ w.chain.watched_transactions :=
    fun _ => (env.iter_perm _ _).mem_iff
  have hmem₂ : ∀ k o, o ∈ env.iter k w.chain.watched_outputs ↔ o ∈ w.chain.watched_outputs :=
    fun _ _ => (env.iter_perm _ _).mem_iff
  rcases hx₁ : exec ((env.iter w.now w.chain.watched_transactions).foldlM (lookup_tx env) []) (w.note .round)
    with ⟨e | txs₁, w₁⟩
  · left
    rw [hx₁] at htxs
    obtain ⟨txid, hm, he⟩ := foldlM_error htxs.symm
    exact ⟨.tx txid, e, w₁, (hmem₁ txid).mp hm, he, exec_bind_error hx₁⟩
  · rw [hx₁] at htxs
    obtain ⟨hall₁, htxs₁⟩ := foldlM_found id (fun _ _ _ => rfl) htxs.symm
    have houts : w₁.chain.watched_outputs = w.chain.watched_outputs := by
      have := (hgrows (w.note .round)).outs
      rwa [hx₁] at this
    have hfold := Yields.foldlM (yields_lookup_output hv) (env.iter w₁.now w.chain.watched_outputs) (txs₁, []) w₁
    rcases hx₂ : exec ((env.iter w₁.now w.chain.watched_outputs).foldlM (lookup_output env) (txs₁, [])) w₁
      with ⟨e | ⟨txs₂, spent⟩, w₂⟩
    · left
      rw [hx₂] at hfold
      obtain ⟨o, hm, he⟩ := foldlM_error hfold.symm
      refine ⟨.output o, e, w₂, (hmem₂ _ o).mp hm, he, ?_⟩
      apply (exec_bind_ok hx₁).trans
      rw [exec_get_bind, houts]
      exact exec_bind_error hx₂
    · right
      rw [hx₂] at hfold
      have hjoin : ∀ (acc : List ConfirmedTx × List WatchedOutput) (o : WatchedOutput) (r : Option ConfirmedTx),
          (ConfirmedTx.join acc o r).1 = acc.1 ++ r.toList := by
        intro acc o r
        cases r <;> simp [ConfirmedTx.join]
      obtain ⟨hall₂, htxs₂⟩ := foldlM_found Prod.fst hjoin hfold.symm
      refine ⟨(env.iter w₂.now txs₂).insertionSort ConfirmedTx.le, spent, w₂, ?_, ?_, ?_, ?_⟩
      · apply (exec_bind_ok hx₁).trans
        rw [exec_get_bind, houts]
        exact exec_bind_ok hx₂
      · intro x hw
        cases x with
        | tx txid => exact hall₁ txid ((hmem₁ txid).mpr hw)
        | output o => exact hall₂ o ((hmem₂ _ o).mpr hw)
      · exact List.pairwise_insertionSort _ _
      · apply (List.perm_insertionSort _ _).trans
        apply (env.iter_perm _ _).trans
        show txs₂.Perm _
        rw [show txs₂ = _ from htxs₂, show txs₁ = _ from htxs₁]
        unfold MutinyChain.watched
        rw [List.filterMap_append, List.filterMap_map, List.filterMap_map]
        apply List.Perm.append
        · exact ((env.iter_perm _ _).filterMap _)
        · exact ((env.iter_perm _ _).filterMap _)

end

/-! ## The calls of a round -/

def Event.call (c : Nat) : Event → Option ConfirmedTx
  | .transactions_confirmed c' block_header pos tx block_height =>
    if c' = c then some { tx, block_header, block_height, pos } else none
  | _ => none

/-- The `transactions_confirmed` calls to confirmable `c`, the oldest first. -/
def World.calls (w : World) (c : Nat) : List ConfirmedTx := w.log.reverse.filterMap (Event.call c)

/-- Strictly earlier in the chain, and another transaction. -/
def ConfirmedTx.Before (tx1 tx2 : ConfirmedTx) : Prop :=
  (tx1.block_height < tx2.block_height ∨ tx1.block_height = tx2.block_height ∧ tx1.pos < tx2.pos) ∧
    tx1.tx.txid ≠ tx2.tx.txid

/-- Neither the same transaction nor at the same place. -/
def ConfirmedTx.Apart (tx1 tx2 : ConfirmedTx) : Prop :=
  ¬ (tx1.block_height = tx2.block_height ∧ tx1.pos = tx2.pos) ∧ tx1.tx.txid ≠ tx2.tx.txid

theorem apart_symm {tx1 tx2 : ConfirmedTx} (h : tx1.Apart tx2) : tx2.Apart tx1 :=
  ⟨fun ⟨hh, hp⟩ => h.1 ⟨hh.symm, hp.symm⟩, h.2.symm⟩

theorem pairwise_before_iff {txs : List ConfirmedTx} (hs : txs.Pairwise ConfirmedTx.le) :
    txs.Pairwise ConfirmedTx.Before ↔ txs.Pairwise ConfirmedTx.Apart := by
  constructor
  · apply List.Pairwise.imp
    intro tx1 tx2 ⟨hb, ht⟩
    exact ⟨by omega, ht⟩
  · intro ha
    apply (hs.and ha).imp
    intro tx1 tx2 ⟨hle, hp, ht⟩
    unfold ConfirmedTx.le at hle
    exact ⟨by omega, ht⟩

theorem calls_note (e : Event) (w : World) (c : Nat) : (w.note e).calls c = w.calls c ++ (e.call c).toList := by
  unfold World.calls World.note
  rw [List.reverse_cons, List.filterMap_append]
  cases he : e.call c <;> simp [he]

theorem Grows.calls {P : Event → Prop} (hP : ∀ e, P e → ∀ c, e.call c = none) {w w' : World} (h : Grows P w w')
    (c : Nat) : w'.calls c = w.calls c := by
  obtain ⟨new, hl, hn⟩ := h.later
  have hnew : new.reverse.filterMap (Event.call c) = [] := by
    apply List.filterMap_eq_nil_iff.mpr
    intro e he
    exact hP e (hn e (List.mem_reverse.mp he)) c
  unfold World.calls
  rw [hl.log, List.reverse_append, List.filterMap_append, hnew, List.append_nil]

theorem Event.Search.call {e : Event} (h : e.Search) (c : Nat) : e.call c = none := by
  cases e with
  | transactions_confirmed => cases h
  | _ => rfl

theorem Event.Arrival.call {e : Event} (h : e.Arrival) (c : Nat) : e.call c = none := by
  obtain ⟨x, rfl⟩ := h
  rfl

section
variable (env : Env)

theorem calls_await (w : World) (c : Nat) : (w.await env).calls c = w.calls c :=
  (grows_await (P := Event.Arrival) (fun x => ⟨x, rfl⟩) env w).calls (fun _ => Event.Arrival.call) c

theorem exec_callbacks_calls (e : Nat → Event) (c : Nat) : ∀ (l : List Nat) (w : World), ∃ w',
    (l.forM fun c => callback env (e c)).exec w = (.ok ⟨⟩, w') ∧
      w'.calls c = w.calls c ++ l.filterMap fun c' => (e c').call c
  | [], w => ⟨w, rfl, by simp⟩
  | c' :: l, w => by
    obtain ⟨w', hx, hc⟩ := exec_callbacks_calls e c l ((w.note (e c')).await env)
    have hx₁ : (callback env (e c')).exec w = (.ok (), (w.note (e c')).await env) := rfl
    refine ⟨w', ?_, ?_⟩
    · rw [List.forM_eq_forM, List.forM_cons, exec_bind_ok hx₁]
      exact hx
    · rw [hc, calls_await, calls_note, List.append_assoc]
      cases he : (e c').call c <;> simp [he]

theorem filterMap_range_eq {α : Type} (a : α) (c n : Nat) :
    (List.range n).filterMap (fun c' => if c' = c then some a else none) = if c < n then [a] else [] := by
  induction n with
  | zero => rfl
  | succ n ih =>
    rw [List.range_succ, List.filterMap_append, ih]
    by_cases hn : n = c
    · subst hn
      simp
    · have : (c < n + 1) = (c < n) := by
        apply propext
        omega
      simp [hn, this]

theorem exec_confirm_transactions_calls {n c : Nat} (hc : c < n) : ∀ (txs : List ConfirmedTx) (w : World), ∃ w',
    (txs.forM (confirm_transaction env n)).exec w = (.ok ⟨⟩, w') ∧ w'.calls c = w.calls c ++ txs
  | [], w => ⟨w, rfl, by simp⟩
  | ctx :: txs, w => by
    obtain ⟨w₁, hx₁, hc₁⟩ := exec_callbacks_calls env
      (fun c => .transactions_confirmed c ctx.block_header ctx.pos ctx.tx ctx.block_height) c (List.range n) w
    have hone : w₁.calls c = w.calls c ++ [ctx] := by
      rw [hc₁]
      simp only [Event.call, filterMap_range_eq, hc, if_true]
    have hx : (confirm_transaction env n ctx).exec w = (.ok (), { w₁ with chain :=
        { w₁.chain with watched_transactions := w₁.chain.watched_transactions.filter (· ≠ ctx.tx.txid) } }) :=
      exec_bind_ok hx₁
    obtain ⟨w', hx', hc'⟩ := exec_confirm_transactions_calls hc txs { w₁ with chain :=
        { w₁.chain with watched_transactions := w₁.chain.watched_transactions.filter (· ≠ ctx.tx.txid) } }
    refine ⟨w', ?_, ?_⟩
    · rw [List.forM_eq_forM, List.forM_cons, exec_bind_ok hx]
      exact hx'
    · rw [hc']
      show w₁.calls c ++ txs = _
      rw [hone]
      simp

theorem exec_sync_confirmed_transactions_calls {n c : Nat} (hc : c < n) (txs : List ConfirmedTx)
    (spent : List WatchedOutput) (w : World) : ∃ w',
    (sync_confirmed_transactions env n txs spent).exec w = (.ok (), w') ∧ w'.calls c = w.calls c ++ txs := by
  obtain ⟨w', hx, hc'⟩ := exec_confirm_transactions_calls env hc txs w
  exact ⟨_, exec_bind_ok hx, hc'⟩

end

/-- The calls to confirmable `c` between two states of a run. -/
def World.calls_since (w w' : World) (c : Nat) : List ConfirmedTx := (w'.calls c).drop (w.calls c).length

theorem calls_since_append {w w' : World} {c : Nat} {txs : List ConfirmedTx} (h : w'.calls c = w.calls c ++ txs) :
    w.calls_since w' c = txs := by
  unfold World.calls_since
  rw [h, List.drop_left]

section
variable {env : Env} {v : ChainView} (hv : env.toEsplora = v.esplora) {n : Nat} {tip : BlockHash}
include hv

/-- A round that ends before its calls, or delivers what the watched items lead to. -/
theorem round_calls_cases {r : Except MutinyError Flow} {w w' : World} (hr : Round env n tip w r w') :
    (∀ c, w.calls_since w' c = []) ∧
        (v.get_tip_hash ≠ .ok tip ∨ ∃ x e, w.chain.Watched x ∧ v.found x = .error e) ∨
      v.get_tip_hash = .ok tip ∧ (∀ x, w.chain.Watched x → ∃ r, v.found x = .ok r) ∧
        ∃ txs : List ConfirmedTx, txs.Pairwise ConfirmedTx.le ∧ txs.Perm (w.chain.watched.filterMap v.find) ∧
          ∀ c < n, w.calls_since w' c = txs := by
  have hsearch : ∀ {r w₁}, (get_confirmed_transactions env).exec w = (r, w₁) → ∀ c, w₁.calls c = w.calls c :=
    fun hs c => (grows_search env hs).calls (fun _ => Event.Search.call) c
  have hquery : ∀ {r w₁ w₂}, (query env env.get_tip_hash).exec w₁ = (r, w₂) → ∀ c, w₂.calls c = w₁.calls c :=
    fun hq c => (grows_query env hq).calls (fun _ => Event.Arrival.call) c
  have htip : ∀ {r w₁ w₂}, (query env env.get_tip_hash).exec w₁ = (r, w₂) → r = asked v.get_tip_hash := by
    intro r w₁ w₂ hq
    have hy : Yields (asked v.get_tip_hash) (query env env.get_tip_hash) := yields_query fun k => by rw [hv]; rfl
    rw [← hy w₁, hq]
  have hnone : ∀ {w₁}, (∀ c, w₁.calls c = w.calls c) → ∀ c, w.calls_since w₁ c = [] :=
    fun hc c => calls_since_append (by rw [hc c, List.append_nil])
  rcases search_cases hv w with ⟨x, e, w₁, hx, he, hs⟩ | ⟨txs, spent, w₁, hs, hall, hsort, hperm⟩
  · left
    refine ⟨?_, .inr ⟨x, e, hx, he⟩⟩
    cases hr with
    | failed hs' | aborted hs' => exact hnone (hsearch hs')
    | no_tip hs' _ | tip_changed hs' _ _ | confirm_failed hs' _ _ | completed hs' _ _ =>
      rw [hs] at hs'
      cases hs'
  · cases hr with
    | failed hs' | aborted hs' =>
      rw [hs] at hs'
      cases hs'
    | no_tip hs' hq =>
      left
      refine ⟨hnone fun c => (hquery hq c).trans (hsearch hs' c), .inl fun h => ?_⟩
      have := htip hq
      rw [h] at this
      cases this
    | tip_changed hs' hq hne =>
      left
      refine ⟨hnone fun c => (hquery hq c).trans (hsearch hs' c), .inl fun h => ?_⟩
      have := htip hq
      rw [h] at this
      cases this
      exact hne rfl
    | @confirm_failed txs' spent' _ _ w₂ _ _ _ hc =>
      obtain ⟨_, hx, _⟩ := exec_sync_confirmed_transactions env n txs' spent' w₂
      rw [hx] at hc
      cases hc
    | @completed txs' spent' _ w₂ w₃ hs' hq hc =>
      right
      rw [hs] at hs'
      cases hs'
      have ht : v.get_tip_hash = .ok tip := by
        have := htip hq
        unfold asked at this
        cases hg : v.get_tip_hash with
        | error e =>
          rw [hg] at this
          cases this
        | ok t =>
          rw [hg] at this
          cases this
          rfl
      refine ⟨ht, hall, txs, hsort, hperm, fun c hcn => ?_⟩
      obtain ⟨_, hx, hcalls⟩ := exec_sync_confirmed_transactions_calls env hcn txs spent w₂
      rw [hx] at hc
      cases hc
      apply calls_since_append
      unfold World.synced
      rw [calls_note]
      show w₃.calls c ++ [] = _
      rw [List.append_nil, hcalls, hquery hq c, hsearch hs c]

end

theorem round_in_chain_order_iff (env : Env) (v : ChainView) (hv : env.toEsplora = v.esplora) (n : Nat)
    (tip : BlockHash) (w : World) :
    (∀ c < n, (w.calls_since ((sync_round env n tip).exec w).2 c).Pairwise ConfirmedTx.Before) ↔
      n = 0 ∨ v.get_tip_hash ≠ .ok tip ∨ (∃ x e, w.chain.Watched x ∧ v.found x = .error e) ∨
        (w.chain.watched.filterMap v.find).Pairwise ConfirmedTx.Apart := by
  rcases round_calls_cases hv (round_cases env n tip w) with ⟨hnone, hwhy⟩ | ⟨htip, hall, txs, hsort, hperm, hcalls⟩
  · constructor
    · intro _
      rcases hwhy with ht | he
      · exact .inr (.inl ht)
      · exact .inr (.inr (.inl he))
    · intro _ c _
      rw [hnone c]
      exact .nil
  · have hiff : txs.Pairwise ConfirmedTx.Before ↔ (w.chain.watched.filterMap v.find).Pairwise ConfirmedTx.Apart :=
      (pairwise_before_iff hsort).trans (hperm.pairwise_iff apart_symm)
    constructor
    · intro h
      rcases Nat.eq_zero_or_pos n with h0 | hn
      · exact .inl h0
      · have := h 0 hn
        rw [hcalls 0 hn] at this
        exact .inr (.inr (.inr (hiff.mp this)))
    · intro h c hc
      rw [hcalls c hc]
      rcases h with h0 | ht | ⟨x, e, hx, he⟩ | ha
      · omega
      · exact absurd htip ht
      · obtain ⟨r, hr⟩ := hall x hx
        rw [he] at hr
        cases hr
      · exact hiff.mpr ha

/-! ## A transaction that two watched items lead to -/

/-- Block 1 is the tip; transaction 7 in it spends the output `9:0`, and transaction 8 follows it. -/
def spend_view : ChainView where
  get_tip_hash := .ok 1
  get_header_by_hash hash := .ok ⟨hash⟩
  get_block_status hash := .ok ⟨hash = 1, some 0⟩
  get_merkle_proof txid := .ok (if txid = 7 then some ⟨0, 1⟩ else if txid = 8 then some ⟨0, 2⟩ else none)
  get_block_hash _ := .ok 1
  get_tx txid := .ok (some ⟨txid, if txid = 7 then [⟨9, 0⟩] else []⟩)
  get_output_status txid index := .ok (if txid = 9 ∧ index = 0 then some ⟨some 7, some ⟨some 1, some 0⟩⟩ else none)

def spend_env : Env where
  toEsplora := spend_view.esplora
  relevant _ _ := []
  arrivals _ := []
  iter _ _ l := l
  iter_perm _ _ _ := .refl _

def watching (txids : List Txid) : World := ⟨⟨[], txids, [], [commitment], none⟩, 0, []⟩

theorem round_in_chain_order_apart :
    (watching [8]).calls_since ((sync_round spend_env 1 1).exec (watching [8])).2 0 =
        [⟨⟨7, [⟨9, 0⟩]⟩, ⟨1⟩, 0, 1⟩, ⟨⟨8, []⟩, ⟨1⟩, 0, 2⟩] ∧
      ∀ c < 1, ((watching [8]).calls_since ((sync_round spend_env 1 1).exec (watching [8])).2 c).Pairwise
        ConfirmedTx.Before := by
  have hfound : (watching [8]).chain.watched.filterMap spend_view.find =
      [⟨⟨8, []⟩, ⟨1⟩, 0, 2⟩, ⟨⟨7, [⟨9, 0⟩]⟩, ⟨1⟩, 0, 1⟩] := rfl
  refine ⟨rfl, (round_in_chain_order_iff spend_env spend_view rfl 1 1 (watching [8])).mpr (.inr (.inr (.inr ?_)))⟩
  rw [hfound]
  simp [ConfirmedTx.Apart]

/-- The spender is watched itself. -/
theorem round_delivers_twice :
    (watching [7]).calls_since ((sync_round spend_env 1 1).exec (watching [7])).2 0 =
        [⟨⟨7, [⟨9, 0⟩]⟩, ⟨1⟩, 0, 1⟩, ⟨⟨7, [⟨9, 0⟩]⟩, ⟨1⟩, 0, 1⟩] ∧
      ¬ ∀ c < 1, ((watching [7]).calls_since ((sync_round spend_env 1 1).exec (watching [7])).2 c).Pairwise
        ConfirmedTx.Before := by
  have hcalls : (watching [7]).calls_since ((sync_round spend_env 1 1).exec (watching [7])).2 0 =
      [⟨⟨7, [⟨9, 0⟩]⟩, ⟨1⟩, 0, 1⟩, ⟨⟨7, [⟨9, 0⟩]⟩, ⟨1⟩, 0, 1⟩] := rfl
  refine ⟨hcalls, fun h => ?_⟩
  have := h 0 (by decide)
  rw [hcalls] at this
  simp [ConfirmedTx.Before] at this

end Mutiny
