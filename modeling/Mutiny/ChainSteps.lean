import Mutiny.Chain

/-!
# What one iteration of `sync` does

`iteration_cases` lists the ways an iteration of the loop of `sync` ends, with the worlds in between. The rest of the
module bounds what each of the called functions does to the world: `Later new w w'` is the common part (the events
`new` happened, registrations only arrive in the queues), `Grows` leaves the watch sets alone, `Unconfirms` only adds
the transactions that were unconfirmed.
-/

namespace Mutiny

open Prog

section
variable (env : Env) (n : Nat) (tip : BlockHash)

/-! ## What an iteration can do -/

def World.moved (w : World) : World :=
  let w' : World := { w with chain := { w.chain with
      watched_transactions := w.chain.queued_transactions ∪ w.chain.watched_transactions
      queued_transactions := []
      watched_outputs := w.chain.queued_outputs ∪ w.chain.watched_outputs
      queued_outputs := [] } }
  if !w.chain.queued_transactions.isEmpty || !w.chain.queued_outputs.isEmpty then w'.note .processed else w'

def World.synced (w : World) (tip : BlockHash) : World :=
  ({ w with chain := { w.chain with last_sync_hash := some tip } }).note (.synced tip)

/-- Nothing to do: the tip is not new and the queues are empty. -/
def Idle (w : World) : Prop :=
  w.chain.queued_transactions = [] ∧ w.chain.queued_outputs = [] ∧ w.chain.last_sync_hash = some tip

theorem exec_process_queues (w : World) : process_queues.exec w =
    (.ok (!w.chain.queued_transactions.isEmpty || !w.chain.queued_outputs.isEmpty), w.moved) := by
  unfold process_queues World.moved
  by_cases h : (!w.chain.queued_transactions.isEmpty || !w.chain.queued_outputs.isEmpty) = true
  · simp only [exec_get_bind, modify_chain, note, exec_modify_bind, h, if_true]
    rfl
  · simp only [exec_get_bind, modify_chain, exec_modify_bind, h]
    rfl

@[simp] theorem moved_last (w : World) : w.moved.chain.last_sync_hash = w.chain.last_sync_hash := by
  unfold World.moved; split <;> rfl

inductive Round (w : World) : Except MutinyError Flow → World → Prop
  | failed {w₁} : (get_confirmed_transactions env).exec w = (.error .ChainAccessFailed, w₁) →
      Round w (.ok (.again tip)) w₁
  | aborted {e w₁} : (get_confirmed_transactions env).exec w = (.error e, w₁) → Round w (.error e) w₁
  | no_tip {found e w₁ w₂} : (get_confirmed_transactions env).exec w = (.ok found, w₁) →
      (query env env.get_tip_hash).exec w₁ = (.error e, w₂) → Round w (.error e) w₂
  | tip_changed {found t w₁ w₂} : (get_confirmed_transactions env).exec w = (.ok found, w₁) →
      (query env env.get_tip_hash).exec w₁ = (.ok t, w₂) → t ≠ tip → Round w (.ok (.again t)) w₂
  | confirm_failed {txs spent e w₁ w₂ w₃} : (get_confirmed_transactions env).exec w = (.ok (txs, spent), w₁) →
      (query env env.get_tip_hash).exec w₁ = (.ok tip, w₂) →
      (sync_confirmed_transactions env n txs spent).exec w₂ = (.error e, w₃) → Round w (.error e) w₃
  | completed {txs spent w₁ w₂ w₃} : (get_confirmed_transactions env).exec w = (.ok (txs, spent), w₁) →
      (query env env.get_tip_hash).exec w₁ = (.ok tip, w₂) →
      (sync_confirmed_transactions env n txs spent).exec w₂ = (.ok (), w₃) →
      Round w (.ok (.again tip)) (w₃.synced tip)

inductive Iteration (w : World) : Except MutinyError Flow → World → Prop
  | idle : Idle tip w → Iteration w (.ok .done) w
  | unconfirm_failed {e w₁} : w.chain.last_sync_hash ≠ some tip →
      (sync_unconfirmed_transactions env n).exec w.moved = (.error e, w₁) → Iteration w (.error e) w₁
  | announce_failed {w₁ w₂} : w.chain.last_sync_hash ≠ some tip →
      (sync_unconfirmed_transactions env n).exec w.moved = (.ok (), w₁) →
      (sync_best_block_updated env n tip).exec w₁ = (.error .ChainAccessFailed, w₂) →
      Iteration w (.ok (.again tip)) w₂
  | announce_aborted {e w₁ w₂} : w.chain.last_sync_hash ≠ some tip →
      (sync_unconfirmed_transactions env n).exec w.moved = (.ok (), w₁) →
      (sync_best_block_updated env n tip).exec w₁ = (.error e, w₂) → Iteration w (.error e) w₂
  | new_tip {r w₁ w₂ w₃} : w.chain.last_sync_hash ≠ some tip →
      (sync_unconfirmed_transactions env n).exec w.moved = (.ok (), w₁) →
      (sync_best_block_updated env n tip).exec w₁ = (.ok (), w₂) → Round env n tip w₂ r w₃ → Iteration w r w₃
  | same_tip {r w₁} : w.chain.last_sync_hash = some tip → ¬ Idle tip w → Round env n tip w.moved r w₁ →
      Iteration w r w₁

theorem round_cases (w : World) :
    Round env n tip w ((sync_round env n tip).exec w).1 ((sync_round env n tip).exec w).2 := by
  unfold sync_round
  rw [exec_attempt_bind]
  rcases h₁ : (get_confirmed_transactions env).exec w with ⟨e | ⟨txs, spent⟩, w₁⟩
  · cases e with
    | ChainAccessFailed => exact .failed h₁
    | _ => exact .aborted h₁
  · rcases h₂ : (query env env.get_tip_hash).exec w₁ with ⟨e | t, w₂⟩
    · simp only [exec_bind_error h₂]
      exact .no_tip h₁ h₂
    · simp only [exec_bind_ok h₂]
      by_cases ht : t = tip
      · subst ht
        simp only [ne_eq, not_true_eq_false, if_false]
        rcases h₃ : (sync_confirmed_transactions env n txs spent).exec w₂ with ⟨e | _, w₃⟩
        · rw [exec_bind_error h₃]
          exact .confirm_failed h₁ h₂ h₃
        · rw [exec_bind_ok h₃]
          exact .completed h₁ h₂ h₃
      · simp only [ne_eq, ht, not_false_eq_true, if_true]
        exact .tip_changed h₁ h₂ ht

theorem moved_of_empty {w : World} (hq : w.chain.queued_transactions = []) (ho : w.chain.queued_outputs = []) :
    w.moved = w := by
  unfold World.moved
  simp only [hq, ho, List.isEmpty_nil, Bool.not_true, Bool.or_self]
  obtain ⟨⟨_, _, _, _, _⟩, _, _⟩ := w
  obtain ⟨rfl, rfl⟩ := And.intro hq ho
  rfl

theorem moved_log {w : World} (h : ¬ (w.chain.queued_transactions = [] ∧ w.chain.queued_outputs = [])) :
    w.moved.log = .processed :: w.log := by
  unfold World.moved
  rw [if_pos (by simpa [or_iff_not_imp_left] using h)]
  rfl

theorem iteration_cases (w : World) :
    Iteration env n tip w ((sync_iteration env n tip).exec w).1 ((sync_iteration env n tip).exec w).2 := by
  unfold sync_iteration
  rw [exec_bind_ok (exec_process_queues w), exec_get_bind, moved_last]
  by_cases hn : w.chain.last_sync_hash = some tip
  · have hnew : ¬ (some tip ≠ w.chain.last_sync_hash) := fun h => h hn.symm
    by_cases hi : Idle tip w
    · rw [if_pos (by simp [hi.1, hi.2.1, hn]), moved_of_empty hi.1 hi.2.1]
      exact .idle hi
    · have hq : w.chain.queued_transactions = [] → w.chain.queued_outputs ≠ [] := fun h h' => hi ⟨h, h', hn⟩
      rw [if_neg (by simpa [hn, or_iff_not_imp_left] using hq), if_neg hnew]
      exact .same_tip hn hi (round_cases env n tip w.moved)
  · have hnew : some tip ≠ w.chain.last_sync_hash := fun h => hn h.symm
    rw [if_neg (by simp [hnew]), if_pos hnew]
    rcases h₁ : (sync_unconfirmed_transactions env n).exec w.moved with ⟨e | _, w₁⟩
    · rw [exec_bind_error h₁]
      exact .unconfirm_failed hn h₁
    · rw [exec_bind_ok h₁, exec_attempt_bind]
      rcases h₂ : (sync_best_block_updated env n tip).exec w₁ with ⟨e | _, w₂⟩
      · cases e with
        | ChainAccessFailed => exact .announce_failed hn h₁ h₂
        | _ => exact .announce_aborted hn h₁ h₂
      · exact .new_tip hn h₁ h₂ (round_cases env n tip w₂)
end

/-! ## Frames -/

def MutinyChain.Queued (c : MutinyChain) : Item → Prop
  | .tx txid => txid ∈ c.queued_transactions
  | .output output => output ∈ c.queued_outputs

def MutinyChain.Watched (c : MutinyChain) : Item → Prop
  | .tx txid => txid ∈ c.watched_transactions
  | .output output => output ∈ c.watched_outputs

/-- The events `new` happened between `w` and `w'`; what arrived is queued, and nothing left the queues. -/
structure Later (new : List Event) (w w' : World) : Prop where
  log : w'.log = new ++ w.log
  now : w.now ≤ w'.now
  last : w'.chain.last_sync_hash = w.chain.last_sync_hash
  queued : ∀ x, w.chain.Queued x → w'.chain.Queued x
  arrived : ∀ x, .registered x ∈ new → w'.chain.Queued x

theorem Later.refl (w : World) : Later [] w w :=
  ⟨rfl, Nat.le_refl _, rfl, fun _ h => h, fun _ h => nomatch h⟩

theorem Later.trans {new new' : List Event} {w w' w'' : World} (h : Later new w w') (h' : Later new' w' w'') :
    Later (new' ++ new) w w'' := by
  refine ⟨?_, Nat.le_trans h.now h'.now, h'.last.trans h.last, fun x hx => h'.queued x (h.queued x hx), ?_⟩
  · rw [h'.log, h.log, List.append_assoc]
  · intro x hx
    rcases List.mem_append.mp hx with hx | hx
    · exact h'.arrived x hx
    · exact h'.queued x (h.arrived x hx)

/-- Only events in `P` happened, and the watch sets are as they were. -/
structure Grows (P : Event → Prop) (w w' : World) : Prop where
  later : ∃ new, Later new w w' ∧ ∀ e ∈ new, P e
  txs : w'.chain.watched_transactions = w.chain.watched_transactions
  outs : w'.chain.watched_outputs = w.chain.watched_outputs

theorem Grows.last {P : Event → Prop} {w w' : World} (h : Grows P w w') :
    w'.chain.last_sync_hash = w.chain.last_sync_hash := by
  obtain ⟨_, hl, _⟩ := h.later
  exact hl.last

theorem Grows.watched {P : Event → Prop} {w w' : World} (h : Grows P w w') (x : Item) :
    w'.chain.Watched x ↔ w.chain.Watched x := by
  cases x with
  | tx txid => simp only [MutinyChain.Watched, h.txs]
  | output output => simp only [MutinyChain.Watched, h.outs]

instance (P : Event → Prop) : IsPreorder World (Grows P) where
  refl w := ⟨⟨[], Later.refl w, by simp⟩, rfl, rfl⟩
  trans w w' w'' h h' := by
    obtain ⟨new, hl, hn⟩ := h.later
    obtain ⟨new', hl', hn'⟩ := h'.later
    refine ⟨⟨new' ++ new, hl.trans hl', ?_⟩, h'.txs.trans h.txs, h'.outs.trans h.outs⟩
    intro e he
    rcases List.mem_append.mp he with he | he
    · exact hn' e he
    · exact hn e he

theorem grows_note {P : Event → Prop} {e : Event} (he : P e) (hr : ∀ x, e ≠ .registered x) (w : World) :
    Grows P w (w.note e) := by
  refine ⟨⟨[e], ⟨rfl, Nat.le_refl _, rfl, fun _ h => h, ?_⟩, by simpa using he⟩, rfl, rfl⟩
  intro x hx
  exact absurd (List.mem_singleton.mp hx).symm (hr x)

section
variable {R S : World → World → Prop} [IsPreorder World S] (env : Env) (hRS : ∀ s t u, R s t → S t u → R s u)
  (hR : ∀ {α : Type} (answer : Nat → Except EsploraError α), Within R (query env answer))
  (hS : ∀ {α : Type} (answer : Nat → Except EsploraError α), Within S (query env answer))
include hRS hR hS

theorem within_get_confirmed_tx (txid : Txid) (hash : Option BlockHash) (height : Option Nat) :
    Within R (get_confirmed_tx env txid hash height) := by
  apply (hR _).bind_trans hRS
  intro proof
  cases proof with
  | none => exact within_pure _
  | some proof =>
    apply (hS _).bind
    intro block_hash
    dsimp only
    split
    · exact within_throw_bind _ _
    · apply (hS _).bind
      intro block_header
      apply (hS _).bind
      intro tx
      cases tx with
      | none => exact within_pure _
      | some tx =>
        cases height with
        | none => exact within_pure _
        | some height =>
          dsimp only
          split
          · exact within_throw_bind _ _
          · exact within_pure _

theorem within_get_spending_tx (output : WatchedOutput) : Within R (get_spending_tx env output) := by
  apply (hR _).bind_trans hRS
  intro status
  split
  · exact within_get_confirmed_tx (R := S) (S := S) env (fun _ _ _ => trans_of S) hS hS _ _ _
  · exact within_pure _

theorem within_sync_best_block_updated
    (hc : ∀ c header height, Within S (callback env (.best_block_updated c header height))) (n : Nat)
    (tip : BlockHash) : Within R (sync_best_block_updated env n tip) := by
  apply (hR _).bind_trans hRS
  intro header
  apply (hS _).bind
  intro status
  split
  · cases status.height with
    | none => exact within_pure _
    | some height => exact Within.forM fun c _ => hc _ _ _
  · exact within_throw _

end

section
variable {P : Event → Prop} (hP : ∀ x, P (.registered x)) (env : Env)
include hP

theorem grows_register (w : World) (x : Registration) : Grows P w (w.register x) := by
  cases x with
  | tx txid =>
    refine ⟨⟨[.registered (.tx txid)], ⟨rfl, Nat.le_refl _, rfl, ?_, ?_⟩, by simpa using hP _⟩, rfl, rfl⟩
    · intro x hx
      cases x with
      | tx t => exact List.mem_insert_of_mem hx
      | output o => exact hx
    · intro x hx
      cases List.mem_singleton.mp hx
      exact List.mem_insert_self
  | output output =>
    refine ⟨⟨[.registered (.output output)], ⟨rfl, Nat.le_refl _, rfl, ?_, ?_⟩, by simpa using hP _⟩, rfl, rfl⟩
    · intro x hx
      cases x with
      | tx t => exact hx
      | output o => exact List.mem_insert_of_mem hx
    · intro x hx
      cases List.mem_singleton.mp hx
      exact List.mem_insert_self

theorem grows_arrivals (w : World) (xs : List Registration) : Grows P w (xs.foldl World.register w) := by
  induction xs generalizing w with
  | nil => exact refl_of (Grows P) w
  | cons x xs ih => exact trans_of (Grows P) (grows_register hP w x) (ih _)

theorem grows_await (w : World) : Grows P w (w.await env) := by
  obtain ⟨⟨new, hl, hn⟩, ht, ho⟩ := grows_arrivals hP w (env.arrivals w.now)
  exact ⟨⟨new, ⟨hl.log, Nat.le_succ _, hl.last, hl.queued, hl.arrived⟩, hn⟩, ht, ho⟩

omit hP in
theorem query_ok {α : Type} {answer : Nat → Except EsploraError α} {w w' : World} {a : α}
    (h : (query env answer).exec w = (.ok a, w')) : answer w.now = .ok a := by
  simp only [query, exec_get_bind, exec_modify_bind] at h
  cases ha : answer w.now with
  | error e => rw [ha] at h; cases h
  | ok b => rw [ha] at h; cases h; rfl

theorem within_query {α : Type} (answer : Nat → Except EsploraError α) :
    Within (Grows P) (query env answer) := by
  intro w
  simp only [query, exec_get_bind, exec_modify_bind]
  cases answer w.now <;> exact grows_await hP env w

theorem within_callback {e : Event} (he : P e) (hr : ∀ x, e ≠ .registered x) :
    Within (Grows P) (callback env e) :=
  within_modify fun w => trans_of (Grows P) (grows_note he hr w) (grows_await hP env _)

theorem grows_get_confirmed_tx (txid : Txid) (hash : Option BlockHash) (height : Option Nat) :
    Within (Grows P) (get_confirmed_tx env txid hash height) :=
  within_get_confirmed_tx (R := Grows P) (S := Grows P) env (fun _ _ _ => trans_of (Grows P)) (within_query hP env)
    (within_query hP env) _ _ _

theorem grows_get_spending_tx (output : WatchedOutput) : Within (Grows P) (get_spending_tx env output) :=
  within_get_spending_tx (R := Grows P) (S := Grows P) env (fun _ _ _ => trans_of (Grows P)) (within_query hP env)
    (within_query hP env) _

variable (hl : ∀ x, P (.looked_up x))
include hl

theorem grows_lookup_tx (confirmed_txs : List ConfirmedTx) (txid : Txid) :
    Within (Grows P) (lookup_tx env confirmed_txs txid) :=
  (grows_get_confirmed_tx hP env _ _ _).bind fun _ =>
    (within_modify (grows_note (hl _) nofun)).bind fun _ => within_pure _

theorem grows_lookup_output (acc : List ConfirmedTx × List WatchedOutput) (output : WatchedOutput) :
    Within (Grows P) (lookup_output env acc output) := by
  refine (grows_get_spending_tx hP env output).bind fun found =>
    (within_modify (grows_note (hl _) nofun)).bind fun _ => ?_
  cases found <;> exact within_pure _

theorem grows_get_confirmed_transactions (hr : P .round) :
    Within (Grows P) (get_confirmed_transactions env) := by
  apply (within_modify (grows_note hr nofun)).bind
  intro _
  refine within_get.bind fun w => ?_
  apply (Within.foldlM (fun _ _ _ => grows_lookup_tx hP env hl _ _) _).bind
  intro confirmed_txs
  refine within_get.bind fun w => ?_
  apply (Within.foldlM (fun _ _ _ => grows_lookup_output hP env hl _ _) _).bind
  intro found
  exact within_get.bind fun w => within_pure _

end

section
variable {P : Event → Prop} (hP : ∀ x, P (.registered x)) (env : Env)
include hP

theorem grows_sync_best_block_updated (hb : ∀ c header height, P (.best_block_updated c header height)) (n : Nat)
    (tip : BlockHash) : Within (Grows P) (sync_best_block_updated env n tip) :=
  within_sync_best_block_updated (R := Grows P) (S := Grows P) env (fun _ _ _ => trans_of (Grows P)) (within_query hP env)
    (within_query hP env)
    (fun _ _ _ => within_callback hP env (hb _ _ _) nofun) n tip

end

/-! ## Loops over the confirmables -/

/-- The event `e c` happened for each `c` of the list, and nothing else but registrations. -/
structure Calls (e : Nat → Event) (l : List Nat) (new : List Event) : Prop where
  only : ∀ x ∈ new, (∃ y, x = .registered y) ∨ ∃ c ∈ l, x = e c
  each : ∀ c ∈ l, e c ∈ new

section
variable (env : Env)

theorem exec_callback {e : Event} (hr : ∀ x, e ≠ .registered x) (w : World) :
    ∃ new w', (callback env e).exec w = (.ok (), w') ∧ Later new w w' ∧
      (∀ x ∈ new, (∃ y, x = .registered y) ∨ x = e) ∧ e ∈ new ∧
      w'.chain.watched_transactions = w.chain.watched_transactions ∧
      w'.chain.watched_outputs = w.chain.watched_outputs := by
  obtain ⟨⟨new, hl, hn⟩, ht, ho⟩ :=
    grows_await (P := fun x => ∃ y, x = .registered y) (fun y => ⟨y, rfl⟩) env (w.note e)
  have h₁ : Later [e] w (w.note e) := by
    refine ⟨rfl, Nat.le_refl _, rfl, fun _ h => h, fun x hx => ?_⟩
    exact absurd (List.mem_singleton.mp hx).symm (hr x)
  refine ⟨new ++ [e], _, rfl, h₁.trans hl, ?_, by simp, ht, ho⟩
  intro x hx
  rcases List.mem_append.mp hx with hx | hx
  · exact .inl (hn x hx)
  · exact .inr (List.mem_singleton.mp hx)

theorem exec_callbacks {e : Nat → Event} (hr : ∀ c x, e c ≠ .registered x) : ∀ (l : List Nat) (w : World),
    ∃ new w', (l.forM fun c => callback env (e c)).exec w = (.ok ⟨⟩, w') ∧ Later new w w' ∧ Calls e l new ∧
      w'.chain.watched_transactions = w.chain.watched_transactions ∧
      w'.chain.watched_outputs = w.chain.watched_outputs
  | [], w => ⟨[], w, rfl, Later.refl w, ⟨by simp, by simp⟩, rfl, rfl⟩
  | c :: l, w => by
    obtain ⟨new₁, w₁, hx₁, hl₁, ho₁, he₁, ht₁, hw₁⟩ := exec_callback env (hr c) w
    obtain ⟨new₂, w₂, hx₂, hl₂, hc₂, ht₂, hw₂⟩ := exec_callbacks hr l w₁
    refine ⟨new₂ ++ new₁, w₂, ?_, hl₁.trans hl₂, ⟨?_, ?_⟩, ht₂.trans ht₁, hw₂.trans hw₁⟩
    · rw [List.forM_eq_forM, List.forM_cons, exec_bind_ok hx₁]
      exact hx₂
    · intro x hx
      rcases List.mem_append.mp hx with hx | hx
      · exact (hc₂.only x hx).imp id fun ⟨c', hc', h⟩ => ⟨c', List.mem_cons_of_mem _ hc', h⟩
      · exact (ho₁ x hx).imp id fun h => ⟨c, List.mem_cons_self, h⟩
    · intro c' hc'
      rcases List.mem_cons.mp hc' with rfl | hc'
      · exact List.mem_append_right _ he₁
      · exact List.mem_append_left _ (hc₂.each c' hc')

/-- The transactions that were unconfirmed, and only those, joined the watch set. -/
structure Unconfirms (w w' : World) : Prop where
  later : ∃ new, Later new w w' ∧
    (∀ e ∈ new, (∃ x, e = .registered x) ∨ ∃ c txid, e = .transaction_unconfirmed c txid) ∧
    ∀ txid, txid ∈ w'.chain.watched_transactions ↔
      txid ∈ w.chain.watched_transactions ∨ ∃ c, .transaction_unconfirmed c txid ∈ new
  outs : w'.chain.watched_outputs = w.chain.watched_outputs

instance : IsPreorder World Unconfirms where
  refl w := ⟨⟨[], Later.refl w, by simp, by simp⟩, rfl⟩
  trans w w' w'' h h' := by
    obtain ⟨new, hl, hn, ht⟩ := h.later
    obtain ⟨new', hl', hn', ht'⟩ := h'.later
    refine ⟨⟨new' ++ new, hl.trans hl', ?_, ?_⟩, h'.outs.trans h.outs⟩
    · intro e he
      rcases List.mem_append.mp he with he | he
      · exact hn' e he
      · exact hn e he
    · intro txid
      rw [ht', ht, or_assoc, ← exists_or]
      simp only [List.mem_append, or_comm]

theorem Grows.unconfirms {w w' : World} (h : Grows (fun e => ∃ x, e = .registered x) w w') : Unconfirms w w' := by
  obtain ⟨new, hl, hn⟩ := h.later
  refine ⟨⟨new, hl, fun e he => .inl (hn e he), fun txid => ?_⟩, h.outs⟩
  rw [h.txs]
  refine ⟨.inl, fun ht => ht.elim id fun ⟨c, hc⟩ => ?_⟩
  obtain ⟨x, hx⟩ := hn _ hc
  cases hx

theorem within_unconfirm_transaction {n : Nat} (hn : 0 < n) (relevant : Txid × Option BlockHash) :
    Within Unconfirms (unconfirm_transaction env n relevant) := by
  have hq : ∀ {α : Type} (answer : Nat → Except EsploraError α), Within Unconfirms (query env answer) :=
    fun answer w => (within_query (P := fun e => ∃ x, e = .registered x) (fun x => ⟨x, rfl⟩) env answer w).unconfirms
  have hcall : Within Unconfirms (do
      (List.range n).forM fun c => callback env (.transaction_unconfirmed c relevant.1)
      modify_chain fun c => { c with watched_transactions := c.watched_transactions.insert relevant.1 }) := by
    intro w
    obtain ⟨new, w', hx, hl, hc, ht, ho⟩ := exec_callbacks env (e := fun c => .transaction_unconfirmed c relevant.1)
      nofun (List.range n) w
    rw [exec_bind_ok hx]
    refine ⟨⟨new, ⟨hl.log, hl.now, hl.last, ?_, ?_⟩, ?_, ?_⟩, ho⟩
    · intro x hx
      cases x <;> exact hl.queued _ hx
    · intro x hx
      cases x <;> exact hl.arrived _ hx
    · intro e he
      exact (hc.only e he).imp id fun ⟨c, _, h⟩ => ⟨c, _, h⟩
    · intro txid
      have hmem : (∃ c, Event.transaction_unconfirmed c txid ∈ new) ↔ txid = relevant.1 := by
        constructor
        · rintro ⟨c, hc'⟩
          rcases hc.only _ hc' with ⟨_, h⟩ | ⟨_, _, h⟩
          · cases h
          · cases h; rfl
        · rintro rfl
          exact ⟨0, hc.each 0 (List.mem_range.mpr hn)⟩
      show txid ∈ w'.chain.watched_transactions.insert relevant.1 ↔ _
      rw [List.mem_insert_iff, ht, hmem, or_comm]
  have hafter : ∀ still : Bool, Within Unconfirms (do
      if still = true then return ()
      (List.range n).forM fun c => callback env (.transaction_unconfirmed c relevant.1)
      modify_chain fun c =>
        { c with watched_transactions := c.watched_transactions.insert relevant.1 } : ChainM Unit) := by
    intro still
    split
    · exact within_pure _
    · exact hcall
  unfold unconfirm_transaction
  cases relevant.2 with
  | none => exact (within_pure _).bind hafter
  | some block_hash => exact ((hq _).bind fun _ => within_pure _).bind hafter

theorem within_sync_unconfirmed_transactions (n : Nat) :
    Within Unconfirms (sync_unconfirmed_transactions env n) := by
  refine within_get.bind fun w => ?_
  apply Within.forM
  intro relevant hrel
  rcases Nat.eq_zero_or_pos n with rfl | hn
  · exact absurd ((env.iter_perm _ _).mem_iff.mp hrel) (by simp)
  · exact within_unconfirm_transaction env hn relevant

/-- The confirmed transactions went to every confirmable and left the watch set, the spent outputs too. -/
structure Confirms (n : Nat) (confirmed_txs : List ConfirmedTx) (w w' : World) : Prop where
  later : ∃ new, Later new w w' ∧
    (∀ e ∈ new, (∃ x, e = .registered x) ∨ ∃ ctx ∈ confirmed_txs, ∃ c,
      e = .transactions_confirmed c ctx.block_header ctx.pos ctx.tx ctx.block_height) ∧
    ∀ ctx ∈ confirmed_txs, ∀ c < n,
      .transactions_confirmed c ctx.block_header ctx.pos ctx.tx ctx.block_height ∈ new
  txs : ∀ txid, txid ∈ w'.chain.watched_transactions ↔
    txid ∈ w.chain.watched_transactions ∧ ∀ ctx ∈ confirmed_txs, ctx.tx.txid ≠ txid

theorem exec_confirm_transaction (n : Nat) (ctx : ConfirmedTx) (w : World) :
    ∃ w', (confirm_transaction env n ctx).exec w = (.ok (), w') ∧ Confirms n [ctx] w w' ∧
      w'.chain.watched_outputs = w.chain.watched_outputs := by
  obtain ⟨new, w', hx, hl, hc, ht, ho⟩ := exec_callbacks env
    (e := fun c => .transactions_confirmed c ctx.block_header ctx.pos ctx.tx ctx.block_height) nofun (List.range n) w
  unfold confirm_transaction
  rw [exec_bind_ok hx]
  refine ⟨_, rfl, ⟨⟨new, ⟨hl.log, hl.now, hl.last, ?_, ?_⟩, ?_, ?_⟩, ?_⟩, ho⟩
  · intro x hx
    cases x <;> exact hl.queued _ hx
  · intro x hx
    cases x <;> exact hl.arrived _ hx
  · intro e he
    exact (hc.only e he).imp id fun ⟨c, _, h⟩ => ⟨ctx, by simp, c, h⟩
  · intro ctx' hctx c hc'
    obtain rfl := List.mem_singleton.mp hctx
    exact hc.each c (List.mem_range.mpr hc')
  · intro txid
    show txid ∈ w'.chain.watched_transactions.filter _ ↔ _
    rw [List.mem_filter, ht]
    simp only [decide_eq_true_eq, List.mem_singleton, forall_eq]
    exact and_congr_right fun _ => ne_comm

theorem exec_confirm_transactions (n : Nat) : ∀ (confirmed_txs : List ConfirmedTx) (w : World),
    ∃ w', (confirmed_txs.forM (confirm_transaction env n)).exec w = (.ok ⟨⟩, w') ∧
      Confirms n confirmed_txs w w' ∧ w'.chain.watched_outputs = w.chain.watched_outputs
  | [], w => ⟨w, rfl, ⟨⟨[], Later.refl w, by simp, by simp⟩, by simp⟩, rfl⟩
  | ctx :: txs, w => by
    obtain ⟨w₁, hx₁, ⟨⟨new₁, hl₁, ho₁, he₁⟩, ht₁⟩, hw₁⟩ := exec_confirm_transaction env n ctx w
    obtain ⟨w₂, hx₂, ⟨⟨new₂, hl₂, ho₂, he₂⟩, ht₂⟩, hw₂⟩ := exec_confirm_transactions n txs w₁
    refine ⟨w₂, ?_, ⟨⟨new₂ ++ new₁, hl₁.trans hl₂, ?_, ?_⟩, ?_⟩, hw₂.trans hw₁⟩
    · rw [List.forM_eq_forM, List.forM_cons, exec_bind_ok hx₁]
      exact hx₂
    · intro e he
      rcases List.mem_append.mp he with he | he
      · exact (ho₂ e he).imp id fun ⟨ctx', h, h'⟩ => ⟨ctx', List.mem_cons_of_mem _ h, h'⟩
      · exact (ho₁ e he).imp id fun ⟨ctx', h, h'⟩ => ⟨ctx', by simp_all, h'⟩
    · intro ctx' hctx c hc
      rcases List.mem_cons.mp hctx with rfl | hctx
      · exact List.mem_append_right _ (he₁ _ (by simp) c hc)
      · exact List.mem_append_left _ (he₂ _ hctx c hc)
    · intro txid
      rw [ht₂, ht₁]
      simp [and_assoc]

theorem exec_sync_confirmed_transactions (n : Nat) (confirmed_txs : List ConfirmedTx) (spent : List WatchedOutput)
    (w : World) : ∃ w', (sync_confirmed_transactions env n confirmed_txs spent).exec w = (.ok (), w') ∧
      Confirms n confirmed_txs w w' ∧
      ∀ o, o ∈ w'.chain.watched_outputs ↔ o ∈ w.chain.watched_outputs ∧ o ∉ spent := by
  obtain ⟨w', hx, ⟨⟨new, hl, ho, he⟩, ht⟩, hw⟩ := exec_confirm_transactions env n confirmed_txs w
  unfold sync_confirmed_transactions
  rw [exec_bind_ok hx]
  refine ⟨_, rfl, ⟨⟨new, ⟨hl.log, hl.now, hl.last, ?_, ?_⟩, ho, he⟩, ht⟩, ?_⟩
  · intro x hx
    cases x <;> exact hl.queued _ hx
  · intro x hx
    cases x <;> exact hl.arrived _ hx
  · intro o
    show o ∈ w'.chain.watched_outputs.filter _ ↔ _
    rw [List.mem_filter, hw]
    simp

end

/-! ## Steps of a session -/

/-- The last call of `sync` returned `Ok(())`; `before` is the log when it began. -/
def Session.Synced (s : Session) (before : List Event) : Prop := s.call = .resting (some (before, .ok ()))

section
variable {env : Env} {n : Nat} {s t : Session}

theorem begin_sync_step (h : chain_step env n s .begin_sync = some t) :
    Grows (fun e => ∃ x, e = .registered x) s.world t.world ∧ (∀ before, ¬ t.Synced before) ∧
      ∀ before tip, t.call = .syncing before tip → before = s.world.log := by
  have hg := within_query (P := fun e => ∃ x, e = .registered x) (fun x => ⟨x, rfl⟩) env env.get_tip_hash s.world
  unfold chain_step at h
  rcases hc : s.call with last | ⟨before, tip⟩
  · rcases hq : (query env env.get_tip_hash).exec s.world with ⟨e | tip, w⟩
    · simp only [hc, hq] at h
      rw [hq] at hg
      cases h
      exact ⟨hg, (fun _ h => nomatch h), fun _ _ h => nomatch h⟩
    · simp only [hc, hq] at h
      rw [hq] at hg
      cases h
      exact ⟨hg, (fun _ h => nomatch h), fun _ _ h => by cases h; rfl⟩
  · simp only [hc] at h
    cases h

theorem iterate_step (h : chain_step env n s .iterate = some t) :
    ∃ before tip r, s.call = .syncing before tip ∧ Iteration env n tip s.world r t.world ∧
      (∀ before', t.Synced before' → before' = before ∧ r = .ok .done) ∧
      ∀ before' tip', t.call = .syncing before' tip' → before' = before := by
  unfold chain_step at h
  rcases hc : s.call with last | ⟨before, tip⟩
  · simp only [hc] at h
    cases h
  · have hi := iteration_cases env n tip s.world
    refine ⟨before, tip, ((sync_iteration env n tip).exec s.world).1, rfl, ?_⟩
    rcases hx : (sync_iteration env n tip).exec s.world with ⟨e | r, w⟩
    · simp only [hc, hx] at h
      rw [hx] at hi
      cases h
      exact ⟨hi, (fun _ h => nomatch h), fun _ _ h => nomatch h⟩
    · cases r with
      | done =>
        simp only [hc, hx] at h
        rw [hx] at hi
        cases h
        exact ⟨hi, (fun _ h => by cases h; exact ⟨rfl, rfl⟩), fun _ _ h => nomatch h⟩
      | again tip' =>
        simp only [hc, hx] at h
        rw [hx] at hi
        cases h
        exact ⟨hi, (fun _ h => nomatch h), fun _ _ h => by cases h; rfl⟩

theorem Iteration.idle_of_done {tip : BlockHash} {w w' : World} {r : Except MutinyError Flow}
    (h : Iteration env n tip w r w') (hr : r = .ok .done) : Idle tip w ∧ w' = w := by
  cases h with
  | idle hi => exact ⟨hi, rfl⟩
  | new_tip _ _ _ h | same_tip _ _ h => subst hr; nomatch h
  | _ => cases hr

end

end Mutiny
