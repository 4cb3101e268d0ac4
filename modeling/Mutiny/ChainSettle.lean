import Mutiny.ChainReorg

/-!
# When `sync` returns

From some query on the source answers from one best chain and nothing new arrives. An iteration that starts after that
with the recorded tip or a tip of that chain is followed by at most three more. One that starts with any other tip is
told that its block is not in the best chain and starts over with the same tip (`sync_returns_iff`).
-/

namespace Mutiny

open Prog

/-- The answers of a source that does not change; the output statuses fit the places of the transactions. -/
structure BestChain where
  tip : BlockHash
  header : BlockHash → BlockHeader
  status : BlockHash → BlockStatus
  merkle_proof : Txid → Option MerkleProof
  block_hash : Nat → BlockHash
  tx : Txid → Option Transaction
  output_status : Txid → Nat → Option OutputStatus
  tip_in_best_chain : (status tip).in_best_chain = true
  spender_block : ∀ txid index spender place proof, output_status txid index = some ⟨some spender, some place⟩ →
    merkle_proof spender = some proof →
      (∀ hash ∈ place.block_hash, hash = block_hash proof.block_height) ∧
        ∀ height ∈ place.block_height, proof.block_height = height

/-- From query `N` on every query succeeds and is answered from the chain, and nothing is registered. -/
structure Env.Settles (env : Env) (N : Nat) (chain : BestChain) : Prop where
  tip : ∀ k, N ≤ k → env.get_tip_hash k = .ok chain.tip
  header : ∀ k hash, N ≤ k → env.get_header_by_hash k hash = .ok (chain.header hash)
  status : ∀ k hash, N ≤ k → env.get_block_status k hash = .ok (chain.status hash)
  merkle_proof : ∀ k txid, N ≤ k → env.get_merkle_proof k txid = .ok (chain.merkle_proof txid)
  block_hash : ∀ k height, N ≤ k → env.get_block_hash k height = .ok (chain.block_hash height)
  tx : ∀ k txid, N ≤ k → env.get_tx k txid = .ok (chain.tx txid)
  output_status : ∀ k txid index, N ≤ k → env.get_output_status k txid index = .ok (chain.output_status txid index)
  arrivals : ∀ k, N ≤ k → env.arrivals k = []

structure Calm (N : Nat) (last : Option BlockHash) (w : World) : Prop where
  now : N ≤ w.now
  queued_transactions : w.chain.queued_transactions = []
  queued_outputs : w.chain.queued_outputs = []
  last : w.chain.last_sync_hash = last

/-! ## Once settled, every part of an iteration succeeds -/

section
variable {env : Env} {N : Nat} {chain : BestChain} (he : env.Settles N chain) {last : Option BlockHash}
include he

theorem Calm.await {w : World} (h : Calm N last w) : Calm N last (w.await env) := by
  unfold World.await
  rw [he.arrivals w.now h.now]
  exact ⟨Nat.le_succ_of_le h.now, h.queued_transactions, h.queued_outputs, h.last⟩

theorem succeeds_query {α : Type} {answer : Nat → Except EsploraError α} {a : α}
    (ha : ∀ k, N ≤ k → answer k = .ok a) : Succeeds (Calm N last) (· = a) (query env answer) := by
  intro w h
  refine ⟨a, w.await env, ?_, rfl, h.await he⟩
  simp only [query, exec_get_bind, exec_modify_bind, ha w.now h.now]
  rfl

theorem succeeds_callback (e : Event) : Succeeds (Calm N last) (fun _ => True) (callback env e) :=
  succeeds_modify fun w h => Calm.await he (w := w.note e) ⟨h.now, h.queued_transactions, h.queued_outputs, h.last⟩

omit he in
theorem succeeds_modify_chain {f : MutinyChain → MutinyChain}
    (ht : ∀ c, (f c).queued_transactions = c.queued_transactions) (ho : ∀ c, (f c).queued_outputs = c.queued_outputs)
    (hl : ∀ c, (f c).last_sync_hash = c.last_sync_hash) :
    Succeeds (Calm N last) (fun _ => True) (modify_chain f) := by
  refine succeeds_modify fun w h => ⟨h.now, ?_, ?_, ?_⟩
  · exact (ht _).trans h.queued_transactions
  · exact (ho _).trans h.queued_outputs
  · exact (hl _).trans h.last

theorem succeeds_get_confirmed_tx (txid : Txid) (hash : Option BlockHash) (height : Option Nat)
    (hp : ∀ proof, chain.merkle_proof txid = some proof →
      (∀ b ∈ hash, b = chain.block_hash proof.block_height) ∧ ∀ k ∈ height, proof.block_height = k) :
    Succeeds (Calm N last) (fun _ => True) (get_confirmed_tx env txid hash height) := by
  apply (succeeds_query he fun k hk => he.merkle_proof k txid hk).bind
  intro proof hproof
  cases proof with
  | none => exact succeeds_pure trivial
  | some proof =>
    obtain ⟨hb, hh⟩ := hp proof hproof.symm
    apply (succeeds_query he fun k hk => he.block_hash k proof.block_height hk).bind
    intro block_hash hbh
    have hno : hash.any (· ≠ block_hash) = false := by
      cases hash with
      | none => rfl
      | some b => simp [hbh, hb b rfl]
    simp only [hno, Bool.false_eq_true, if_false]
    apply (succeeds_query he fun k hk => he.header k block_hash hk).bind
    intro header _
    apply (succeeds_query he fun k hk => he.tx k txid hk).bind
    intro tx _
    cases tx with
    | none => exact succeeds_pure trivial
    | some tx =>
      cases height with
      | none => exact succeeds_pure trivial
      | some height =>
        have hheight : proof.block_height = height := hh height rfl
        simp only [hheight, ne_eq, not_true_eq_false, if_false]
        exact succeeds_pure trivial

theorem succeeds_get_spending_tx (o : WatchedOutput) :
    Succeeds (Calm N last) (fun _ => True) (get_spending_tx env o) := by
  apply (succeeds_query he fun k hk => he.output_status k _ _ hk).bind
  intro status hs
  rcases status with _ | ⟨_ | spender, _ | place⟩
  · exact succeeds_pure trivial
  · exact succeeds_pure trivial
  · exact succeeds_pure trivial
  · exact succeeds_pure trivial
  · exact succeeds_get_confirmed_tx he _ _ _ fun proof hp => chain.spender_block _ _ _ _ _ hs.symm hp

omit he in
theorem succeeds_note (e : Event) : Succeeds (Calm N last) (fun _ => True) (note e) :=
  succeeds_modify fun _ h => ⟨h.now, h.queued_transactions, h.queued_outputs, h.last⟩

theorem succeeds_get_confirmed_transactions :
    Succeeds (Calm N last) (fun _ => True) (get_confirmed_transactions env) := by
  apply (succeeds_note _).bind
  intro _ _
  apply succeeds_get.bind
  intro w _
  refine (Succeeds.foldlM (P := fun _ => True) (fun txs txid _ => ?_) _ _ trivial).bind fun txs _ => ?_
  · apply (succeeds_get_confirmed_tx he _ _ _ fun proof _ => by simp).bind
    intro found _
    exact (succeeds_note _).bind fun _ _ => succeeds_pure trivial
  apply succeeds_get.bind
  intro w _
  refine (Succeeds.foldlM (P := fun _ => True) (fun acc o _ => ?_) _ _ trivial).bind fun found _ => ?_
  · apply (succeeds_get_spending_tx he o).bind
    intro found _
    apply (succeeds_note _).bind
    intro _ _
    cases found <;> exact succeeds_pure trivial
  exact succeeds_get.bind fun w _ => succeeds_pure trivial

theorem succeeds_sync_confirmed_transactions (n : Nat) (txs : List ConfirmedTx) (spent : List WatchedOutput) :
    Succeeds (Calm N last) (fun _ => True) (sync_confirmed_transactions env n txs spent) := by
  refine (Succeeds.forM (fun ctx => ?_) _).bind fun _ _ =>
    succeeds_modify_chain (fun _ => rfl) (fun _ => rfl) fun _ => rfl
  exact (Succeeds.forM (fun c => succeeds_callback he _) _).bind fun _ _ =>
    succeeds_modify_chain (fun _ => rfl) (fun _ => rfl) fun _ => rfl

theorem succeeds_sync_unconfirmed_transactions (n : Nat) :
    Succeeds (Calm N last) (fun _ => True) (sync_unconfirmed_transactions env n) := by
  have hafter : ∀ (txid : Txid) (still : Bool), Succeeds (Calm N last) (fun _ => True) (do
      if still = true then return ()
      (List.range n).forM fun c => callback env (.transaction_unconfirmed c txid)
      modify_chain fun c =>
        { c with watched_transactions := c.watched_transactions.insert txid } : ChainM Unit) := by
    intro txid still
    split
    · exact succeeds_pure trivial
    · exact (Succeeds.forM (fun c => succeeds_callback he _) _).bind fun _ _ =>
        succeeds_modify_chain (fun _ => rfl) (fun _ => rfl) fun _ => rfl
  refine succeeds_get.bind fun w _ => Succeeds.forM (fun ⟨txid, hash⟩ => ?_) _
  cases hash with
  | none => exact (succeeds_pure (P := fun _ => True) trivial).bind fun still _ => hafter txid still
  | some hash =>
    have hq : Succeeds (Calm N last) (fun _ => True)
        ((·.in_best_chain) <$> query env (env.get_block_status · hash)) :=
      (succeeds_query he fun k hk => he.status k hash hk).bind fun _ _ => succeeds_pure trivial
    exact hq.bind fun still _ => hafter txid still

theorem succeeds_sync_best_block_updated (n : Nat) {tip : BlockHash} (ht : (chain.status tip).in_best_chain = true) :
    Succeeds (Calm N last) (fun _ => True) (sync_best_block_updated env n tip) := by
  apply (succeeds_query he fun k hk => he.header k tip hk).bind
  intro header _
  apply (succeeds_query he fun k hk => he.status k tip hk).bind
  intro status hs
  simp only [hs, ht, if_true]
  cases (chain.status tip).height with
  | none => exact succeeds_pure trivial
  | some height => exact Succeeds.forM (fun c => succeeds_callback he _) _

/-! ## Once settled, an iteration starts over with the tip of the chain, or for ever -/

theorem Calm.round (n : Nat) (tip : BlockHash) {w : World} (h : Calm N last w) : ∃ w',
    (sync_round env n tip).exec w = (.ok (.again chain.tip), w') ∧ Calm N (if chain.tip = tip then some tip else last) w' := by
  obtain ⟨⟨txs, spent⟩, w₁, h₁, -, c₁⟩ := succeeds_get_confirmed_transactions he w h
  obtain ⟨t, w₂, h₂, rfl, c₂⟩ := succeeds_query he he.tip w₁ c₁
  unfold sync_round
  rw [exec_attempt_bind, h₁]
  simp only [exec_bind_ok h₂]
  by_cases ht : chain.tip = tip
  · obtain ⟨_, w₃, h₃, -, c₃⟩ := succeeds_sync_confirmed_transactions he n txs spent w₂ c₂
    rw [if_neg (by simpa using ht), exec_bind_ok h₃, if_pos ht, ht]
    exact ⟨_, rfl, c₃.now, c₃.queued_transactions, c₃.queued_outputs, rfl⟩
  · rw [if_pos ht, if_neg ht]
    exact ⟨w₂, rfl, c₂⟩

omit he in
theorem Calm.moved {w : World} (h : N ≤ w.now) : Calm N w.chain.last_sync_hash w.moved := by
  refine ⟨by rwa [moved_now], ?_, ?_, moved_last w⟩
  · unfold World.moved
    split <;> rfl
  · unfold World.moved
    split <;> rfl

theorem settled_iteration (n : Nat) {tip : BlockHash} {w : World} (hw : N ≤ w.now) (hi : ¬ Idle tip w)
    (ht : (chain.status tip).in_best_chain = true ∨ w.chain.last_sync_hash = some tip) : ∃ w',
    (sync_iteration env n tip).exec w = (.ok (.again chain.tip), w') ∧
      Calm N (if chain.tip = tip then some tip else w.chain.last_sync_hash) w' := by
  have hm := Calm.moved hw
  unfold sync_iteration
  rw [exec_bind_ok (exec_process_queues w), exec_get_bind, moved_last]
  by_cases hn : w.chain.last_sync_hash = some tip
  · have hnew : ¬ (some tip ≠ w.chain.last_sync_hash) := fun h => h hn.symm
    have hq : w.chain.queued_transactions = [] → w.chain.queued_outputs ≠ [] := fun h h' => hi ⟨h, h', hn⟩
    rw [if_neg (by simpa [hn, or_iff_not_imp_left] using hq), if_neg hnew]
    exact hm.round he n tip
  · have hnew : some tip ≠ w.chain.last_sync_hash := fun h => hn h.symm
    obtain ⟨_, w₁, h₁, -, c₁⟩ := succeeds_sync_unconfirmed_transactions he n w.moved hm
    obtain ⟨_, w₂, h₂, -, c₂⟩ := succeeds_sync_best_block_updated he n (ht.resolve_right hn) w₁ c₁
    rw [if_neg (by simp [hnew]), if_pos hnew, exec_bind_ok h₁, exec_attempt_bind, h₂]
    exact c₂.round he n tip

theorem stale_iteration (n : Nat) {tip : BlockHash} {w : World} (hw : N ≤ w.now)
    (ht : (chain.status tip).in_best_chain = false) (hl : w.chain.last_sync_hash ≠ some tip) : ∃ w',
    (sync_iteration env n tip).exec w = (.ok (.again tip), w') ∧ Calm N w.chain.last_sync_hash w' := by
  have hm := Calm.moved hw
  have hnew : some tip ≠ w.chain.last_sync_hash := fun h => hl h.symm
  obtain ⟨_, w₁, h₁, -, c₁⟩ := succeeds_sync_unconfirmed_transactions he n w.moved hm
  obtain ⟨header, w₂, h₂, -, c₂⟩ := succeeds_query he (fun k hk => he.header k tip hk) w₁ c₁
  obtain ⟨status, w₃, h₃, hs, c₃⟩ := succeeds_query he (fun k hk => he.status k tip hk) w₂ c₂
  have h₄ : (sync_best_block_updated env n tip).exec w₁ = (.error .ChainAccessFailed, w₃) := by
    unfold sync_best_block_updated
    rw [exec_bind_ok h₂, exec_bind_ok h₃]
    simp only [hs, ht, Bool.false_eq_true, if_false]
    rfl
  unfold sync_iteration
  rw [exec_bind_ok (exec_process_queues w), exec_get_bind, moved_last, if_neg (by simp [hnew]), if_pos hnew,
    exec_bind_ok h₁, exec_attempt_bind, h₄]
  exact ⟨w₃, rfl, c₃⟩

end

/-! ## Every iteration that starts over has asked something -/

abbrev World.Earlier (w w' : World) : Prop := w.now < w'.now

abbrev World.NotLater (w w' : World) : Prop := w.now ≤ w'.now

instance : IsPreorder World World.NotLater where
  refl w := Nat.le_refl w.now
  trans _ _ _ := Nat.le_trans

section
variable (env : Env)

theorem Grows.not_later {P : Event → Prop} {w w' : World} (h : Grows P w w') : w.NotLater w' := by
  obtain ⟨_, hl, _⟩ := h.later
  exact hl.now

theorem earlier_query {α : Type} (answer : Nat → Except EsploraError α) : Within World.Earlier (query env answer) := by
  intro w
  simp only [query, exec_get_bind, exec_modify_bind]
  cases answer w.now <;> exact Nat.lt_succ_self w.now

theorem not_later_query {α : Type} (answer : Nat → Except EsploraError α) : Within World.NotLater (query env answer) :=
  fun w => Nat.le_of_lt (earlier_query env answer w)

theorem not_later_callback (e : Event) : Within World.NotLater (callback env e) :=
  within_modify fun w => Nat.le_succ w.now

theorem earlier_lookup_tx (txs : List ConfirmedTx) (txid : Txid) : Within World.Earlier (lookup_tx env txs txid) := by
  have h := within_get_confirmed_tx (R := World.Earlier) (S := World.NotLater) env (fun _ _ _ => Nat.lt_of_lt_of_le)
    (earlier_query env) (not_later_query env) txid none none
  apply Within.bind_trans (R := World.Earlier) (S := World.NotLater) (fun _ _ _ => Nat.lt_of_lt_of_le) h
  intro found
  exact Within.bind (fun w => Nat.le_refl w.now) fun _ => within_pure _

theorem earlier_lookup_output (acc : List ConfirmedTx × List WatchedOutput) (o : WatchedOutput) :
    Within World.Earlier (lookup_output env acc o) := by
  have h := within_get_spending_tx (R := World.Earlier) (S := World.NotLater) env (fun _ _ _ => Nat.lt_of_lt_of_le)
    (earlier_query env) (not_later_query env) o
  apply Within.bind_trans (R := World.Earlier) (S := World.NotLater) (fun _ _ _ => Nat.lt_of_lt_of_le) h
  intro found
  refine Within.bind (fun w => Nat.le_refl w.now) fun _ => ?_
  cases found <;> exact within_pure _

theorem fails_get_confirmed_transactions : Fails World.Earlier (get_confirmed_transactions env) := by
  have hlt : ∀ s t u : World, s.NotLater t → t.Earlier u → s.Earlier u := fun _ _ _ => Nat.lt_of_le_of_lt
  have hnote : Within World.NotLater (note .round) := fun w => Nat.le_refl w.now
  have hget : Within World.NotLater (get : ChainM World) := within_get
  apply (fails_modify _).bind hlt hnote
  intro _
  apply fails_get.bind hlt hget
  intro w
  have htx : ∀ txs txid, Within World.NotLater (lookup_tx env txs txid) :=
    fun txs txid w => Nat.le_of_lt (earlier_lookup_tx env txs txid w)
  refine (Fails.foldlM hlt (fun txs txid => (earlier_lookup_tx env txs txid).fails) htx _ _).bind hlt
    (Within.foldlM (fun txs txid _ => htx txs txid) _) fun txs => fails_get.bind hlt hget fun w => ?_
  have ho : ∀ acc o, Within World.NotLater (lookup_output env acc o) :=
    fun acc o w => Nat.le_of_lt (earlier_lookup_output env acc o w)
  refine (Fails.foldlM hlt (fun acc o => (earlier_lookup_output env acc o).fails) ho _ _).bind hlt
    (Within.foldlM (fun acc o _ => ho acc o) _) fun found => fails_get.bind hlt hget fun w => fails_pure _

variable {env} {n : Nat} {tip : BlockHash}

theorem Round.earlier {r : Except MutinyError Flow} {t : BlockHash} {w w' : World} (h : Round env n tip w r w')
    (hr : r = .ok (.again t)) : w.Earlier w' := by
  have hquery : ∀ {r w₁ w₂}, (query env env.get_tip_hash).exec w₁ = (r, w₂) → w₁.Earlier w₂ := by
    intro r w₁ w₂ hq
    have := earlier_query env env.get_tip_hash w₁
    rwa [hq] at this
  cases h with
  | failed hs => exact fails_get_confirmed_transactions env _ _ _ hs
  | tip_changed hs hq _ => exact Nat.lt_of_le_of_lt (grows_search env hs).not_later (hquery hq)
  | @completed _ _ _ w₂ _ hs hq hc =>
    obtain ⟨w₃, hx, ⟨⟨new, hl, -⟩, -⟩, -⟩ := exec_sync_confirmed_transactions env n _ _ w₂
    rw [hx] at hc
    cases hc
    exact Nat.lt_of_lt_of_le (Nat.lt_of_le_of_lt (grows_search env hs).not_later (hquery hq)) hl.now
  | _ => cases hr

theorem Iteration.earlier {r : Except MutinyError Flow} {t : BlockHash} {w w' : World}
    (h : Iteration env n tip w r w') (hr : r = .ok (.again t)) : w.Earlier w' := by
  have hm : w.NotLater w.moved := Nat.le_of_eq (moved_now w).symm
  have hunconfirm : ∀ {r w₁}, (sync_unconfirmed_transactions env n).exec w.moved = (r, w₁) → w.NotLater w₁ := by
    intro r w₁ hu
    obtain ⟨_, hl, _⟩ := (unconfirms_of_exec env hu).later
    exact Nat.le_trans hm hl.now
  cases h with
  | @announce_failed w₁ _ _ hu ha =>
    have hlt := within_sync_best_block_updated (R := World.Earlier) (S := World.NotLater) env
      (fun _ _ _ => Nat.lt_of_lt_of_le) (earlier_query env) (not_later_query env)
      (fun _ _ _ => not_later_callback env _) n tip w₁
    rw [ha] at hlt
    exact Nat.lt_of_le_of_lt (hunconfirm hu) hlt
  | new_tip _ hu ha hround =>
    exact Nat.lt_of_le_of_lt (Nat.le_trans (hunconfirm hu) (grows_announce env ha).not_later) (hround.earlier hr)
  | same_tip _ _ hround => exact Nat.lt_of_le_of_lt hm (hround.earlier hr)
  | _ => cases hr

end

/-! ## The loop -/

section
variable (env : Env) (n : Nat)

/-- The loop of a call of `sync` that begins in `w₀` comes to start an iteration with this tip in this world. -/
inductive Head (w₀ : World) : BlockHash → World → Prop
  | first {tip w} : (query env env.get_tip_hash).exec w₀ = (.ok tip, w) → Head w₀ tip w
  | next {tip w tip' w'} : Head w₀ tip w → (sync_iteration env n tip).exec w = (.ok (.again tip'), w') →
      Head w₀ tip' w'

theorem sync_loop_done {tip : BlockHash} {w w' : World} (h : (sync_iteration env n tip).exec w = (.ok .done, w'))
    (fuel : Nat) : sync_loop env n (fuel + 1) tip w = some (.ok (), w') := by
  simp only [sync_loop, h]

theorem sync_loop_again {tip tip' : BlockHash} {w w' : World}
    (h : (sync_iteration env n tip).exec w = (.ok (.again tip'), w')) (fuel : Nat) :
    sync_loop env n (fuel + 1) tip w = sync_loop env n fuel tip' w' := by
  simp only [sync_loop, h]

theorem sync_loop_error {tip : BlockHash} {e : MutinyError} {w w' : World}
    (h : (sync_iteration env n tip).exec w = (.error e, w')) (fuel : Nat) :
    sync_loop env n (fuel + 1) tip w = some (.error e, w') := by
  simp only [sync_loop, h]

theorem exec_idle {tip : BlockHash} {w : World} (h : Idle tip w) :
    (sync_iteration env n tip).exec w = (.ok .done, w) := by
  unfold sync_iteration
  rw [exec_bind_ok (exec_process_queues w), exec_get_bind, moved_last, if_pos (by simp [h.1, h.2.1, h.2.2]),
    moved_of_empty h.1 h.2.1]
  rfl

theorem Head.stuck {w₀ : World} {tip : BlockHash} {w : World} (h : Head env n w₀ tip w)
    (hl : ∀ fuel, sync_loop env n fuel tip w = none) (fuel : Nat) : sync env n fuel w₀ = none := by
  induction h generalizing fuel with
  | first hq => simp only [sync, hq, hl fuel]
  | next _ hi ih =>
    refine ih (fun fuel => ?_) fuel
    cases fuel with
    | zero => rfl
    | succ fuel => rw [sync_loop_again env n hi, hl fuel]

end

section
variable {env : Env} {N : Nat} {chain : BestChain} (he : env.Settles N chain) (n : Nat)
include he

/-- With a tip that is neither in the best chain nor recorded, the loop goes on for ever. -/
theorem stale_loop {tip : BlockHash} (ht : (chain.status tip).in_best_chain = false) : ∀ (fuel : Nat) {w : World},
    N ≤ w.now → w.chain.last_sync_hash ≠ some tip → sync_loop env n fuel tip w = none
  | 0, _, _, _ => rfl
  | fuel + 1, w, hw, hl => by
    obtain ⟨w', hx, hc⟩ := stale_iteration he n hw ht hl
    rw [sync_loop_again env n hx]
    exact stale_loop ht fuel hc.now (by rw [hc.last]; exact hl)

omit he in
theorem calm_idle {tip : BlockHash} {w : World} (h : Calm N (some tip) w) : Idle tip w :=
  ⟨h.queued_transactions, h.queued_outputs, h.last⟩

/-- With nothing queued and the tip of the chain, two more iterations are enough. -/
theorem calm_loop {last : Option BlockHash} {w : World} (h : Calm N last w) :
    ∃ out, sync_loop env n 2 chain.tip w = some out := by
  by_cases hl : last = some chain.tip
  · subst hl
    exact ⟨_, sync_loop_done env n (exec_idle env n (calm_idle h)) 1⟩
  · have hi : ¬ Idle chain.tip w := fun hi => hl (h.last.symm.trans hi.2.2)
    obtain ⟨w', hx, hc⟩ := settled_iteration he n h.now hi (.inl chain.tip_in_best_chain)
    rw [if_pos rfl] at hc
    rw [sync_loop_again env n hx]
    exact ⟨_, sync_loop_done env n (exec_idle env n (calm_idle hc)) 0⟩

theorem settled_loop {tip : BlockHash} {w : World} (hw : N ≤ w.now)
    (ht : (chain.status tip).in_best_chain = true ∨ w.chain.last_sync_hash = some tip) :
    ∃ out, sync_loop env n 3 tip w = some out := by
  by_cases hi : Idle tip w
  · exact ⟨_, sync_loop_done env n (exec_idle env n hi) 2⟩
  · obtain ⟨w', hx, hc⟩ := settled_iteration he n hw hi ht
    rw [sync_loop_again env n hx]
    exact calm_loop he n hc

/-- Before the source settles, every iteration that starts over has used up a query. -/
theorem unsettled_loop {w₀ : World} (hgood : ∀ tip w, Head env n w₀ tip w → N ≤ w.now →
      (chain.status tip).in_best_chain = true ∨ w.chain.last_sync_hash = some tip) :
    ∀ (d : Nat) {tip : BlockHash} {w : World}, Head env n w₀ tip w → N - w.now ≤ d →
      ∃ fuel out, sync_loop env n fuel tip w = some out := by
  intro d
  induction d with
  | zero =>
    intro tip w hh hd
    have hw : N ≤ w.now := by omega
    obtain ⟨out, h⟩ := settled_loop he n hw (hgood tip w hh hw)
    exact ⟨3, out, h⟩
  | succ d ih =>
    intro tip w hh hd
    have hi := iteration_cases env n tip w
    rcases hx : (sync_iteration env n tip).exec w with ⟨e | _ | tip', w'⟩
    · exact ⟨1, _, sync_loop_error env n hx 0⟩
    · exact ⟨1, _, sync_loop_done env n hx 0⟩
    · rw [hx] at hi
      have hlt : w.now < w'.now := hi.earlier rfl
      obtain ⟨fuel, out, h⟩ := ih (hh.next hx) (by omega)
      exact ⟨fuel + 1, out, by rw [sync_loop_again env n hx, h]⟩

end

/-- The source settles at query `N`. Then `sync` returns if and only if no iteration begins after that with a tip that
is neither in the best chain nor the recorded one. -/
theorem sync_returns_iff (env : Env) (N : Nat) (chain : BestChain) (he : env.Settles N chain) (n : Nat) (w₀ : World) :
    (∃ fuel out, sync env n fuel w₀ = some out) ↔ ∀ tip w, Head env n w₀ tip w → N ≤ w.now →
      (chain.status tip).in_best_chain = true ∨ w.chain.last_sync_hash = some tip := by
  constructor
  · rintro ⟨fuel, out, h⟩ tip w hh hw
    by_contra hno
    obtain ⟨ht, hl⟩ := not_or.mp hno
    rw [hh.stuck env n fun fuel => stale_loop he n (by simpa using ht) fuel hw hl] at h
    cases h
  · intro hgood
    rcases hq : (query env env.get_tip_hash).exec w₀ with ⟨e | tip, w⟩
    · exact ⟨0, _, by simp only [sync, hq]; rfl⟩
    · obtain ⟨fuel, out, h⟩ := unsettled_loop he n hgood (N - w.now) (.first hq) (Nat.le_refl _)
      exact ⟨fuel, out, by simp only [sync, hq, h]⟩

def steady_chain : BestChain where
  tip := 1
  header hash := ⟨hash⟩
  status hash := ⟨hash = 1, some 0⟩
  merkle_proof _ := none
  block_hash _ := 1
  tx _ := none
  output_status _ _ := none
  tip_in_best_chain := rfl
  spender_block _ _ _ _ _ h := nomatch h

theorem sync_returns_steady : (∃ fuel out, sync (steady 1) 2 fuel .new = some out) ↔
    ∀ tip w, Head (steady 1) 2 .new tip w → 0 ≤ w.now →
      (steady_chain.status tip).in_best_chain = true ∨ w.chain.last_sync_hash = some tip := by
  refine sync_returns_iff (steady 1) 0 steady_chain ⟨?_, ?_, ?_, ?_, ?_, ?_, ?_, ?_⟩ 2 .new <;> intros <;> rfl

/-- Query 0 still names block 2, which the chain of `steady 1` does not have. -/
def stale : Env := { steady 1 with get_tip_hash := fun k => .ok (if k = 0 then 2 else 1) }

theorem stale_settles : stale.Settles 1 steady_chain := by
  refine ⟨fun k hk => ?_, ?_, ?_, ?_, ?_, ?_, ?_, ?_⟩
  · simp [stale, steady_chain, Nat.ne_of_gt hk]
  all_goals intros; rfl

/-- The source has settled when the first iteration begins, and `sync` never returns. -/
theorem sync_never_returns : stale.Settles 1 steady_chain ∧ ∀ fuel, sync stale 2 fuel .new = none := by
  have hh : Head stale 2 .new 2 ⟨.new, 1, []⟩ := .first rfl
  refine ⟨stale_settles, hh.stuck stale 2 fun fuel => ?_⟩
  exact stale_loop stale_settles 2 rfl fuel (Nat.le_refl 1) nofun

end Mutiny
