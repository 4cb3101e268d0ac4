import Mutiny.ChainSound

/-!
# Watched outputs across reorganisations

An output leaves the watch set when a transaction that spends it is confirmed, and a reorganisation puts back the
transaction but not the output. `held c log` are the transactions confirmable `c` was told are confirmed and not told
otherwise since. While a reorganisation unconfirms the recorded spender of no output that left the watch set, every
registered output is queued, watched or spent by a held transaction (`sync_watches`).
-/

namespace Mutiny

open Prog

def held (c : Nat) : List Event → List Transaction
  | [] => []
  | .transactions_confirmed c' _ _ tx _ :: log => if c' = c then tx :: held c log else held c log
  | .transaction_unconfirmed c' txid :: log =>
    if c' = c then (held c log).filter (·.txid ≠ txid) else held c log
  | _ :: log => held c log

theorem mem_held_append {new : List Event} {tx : Transaction} (h : ∀ c, .transaction_unconfirmed c tx.txid ∉ new)
    {c : Nat} {log : List Event} (hm : tx ∈ held c log) : tx ∈ held c (new ++ log) := by
  induction new with
  | nil => exact hm
  | cons e new ih =>
    have hrest := ih fun c hc => h c (List.mem_cons_of_mem _ hc)
    cases e with
    | transactions_confirmed c' header pos tx' height =>
      by_cases hc : c' = c
      · simp only [List.cons_append, held, hc, if_true]
        exact List.mem_cons_of_mem _ hrest
      · simpa only [List.cons_append, held, hc, if_false] using hrest
    | transaction_unconfirmed c' txid =>
      have hne : tx.txid ≠ txid := by
        rintro rfl
        exact h c' List.mem_cons_self
      by_cases hc : c' = c
      · simp only [List.cons_append, held, hc, if_true]
        exact List.mem_filter.mpr ⟨hrest, by simpa using hne⟩
      · simpa only [List.cons_append, held, hc, if_false] using hrest
    | _ => exact hrest

theorem mem_held_of_confirmed {new : List Event} {tx : Transaction} (h : ∀ c, .transaction_unconfirmed c tx.txid ∉ new)
    {c : Nat} {header : BlockHeader} {pos height : Nat} (hm : .transactions_confirmed c header pos tx height ∈ new)
    (log : List Event) : tx ∈ held c (new ++ log) := by
  obtain ⟨newer, older, rfl⟩ := List.append_of_mem hm
  rw [List.append_assoc]
  apply mem_held_append (fun c' hc => h c' (List.mem_append_left _ hc))
  simp [held]

/-- A transaction that spends the output is held as confirmed by each of the `n` confirmables. -/
def Spent (n : Nat) (o : WatchedOutput) (log : List Event) : Prop :=
  ∃ tx, o.outpoint ∈ tx.input ∧ ∀ c < n, tx ∈ held c log

def Watches (n : Nat) (w : World) : Prop :=
  ∀ o, .registered (.output o) ∈ w.log →
    w.chain.Queued (.output o) ∨ w.chain.Watched (.output o) ∨ Spent n o w.log

/-- The transaction an output status names spends the output. -/
def Esplora.Spends (e : Esplora) : Prop :=
  ∀ k k' (o : OutPoint) txid status tx, e.get_output_status k o.txid o.index = .ok (some ⟨some txid, status⟩) →
    e.get_tx k' txid = .ok (some tx) → o ∈ tx.input

/-! ## What is found spent is spent by what is found confirmed -/

section
variable (env : Env)

theorem get_confirmed_tx_ok {txid : Txid} {hash : Option BlockHash} {height : Option Nat} {ctx : ConfirmedTx}
    {w w' : World} (h : (get_confirmed_tx env txid hash height).exec w = (.ok (some ctx), w')) :
    ∃ k, env.get_tx k txid = .ok (some ctx.tx) := by
  obtain ⟨proof, w₁, -, h⟩ := exec_bind_eq_ok h
  cases proof with
  | none => cases h
  | some proof =>
    obtain ⟨block_hash, w₂, -, h⟩ := exec_bind_eq_ok h
    by_cases hb : hash.any (· ≠ block_hash) = true
    · simp only [hb, if_true] at h
      cases h
    · simp only [hb] at h
      obtain ⟨block_header, w₃, -, h⟩ := exec_bind_eq_ok h
      obtain ⟨tx, w₄, ht, h⟩ := exec_bind_eq_ok h
      cases tx with
      | none => cases h
      | some tx =>
        refine ⟨_, (query_ok env ht).trans ?_⟩
        cases height with
        | none => cases h; rfl
        | some height =>
          dsimp only at h
          split at h
          · cases h
          · cases h
            rfl

theorem get_spending_tx_ok (he : env.Spends) {o : WatchedOutput} {ctx : ConfirmedTx} {w w' : World}
    (h : (get_spending_tx env o).exec w = (.ok (some ctx), w')) : o.outpoint ∈ ctx.tx.input := by
  obtain ⟨status, w₁, hs, h⟩ := exec_bind_eq_ok h
  have hs := query_ok env hs
  rcases status with _ | ⟨_ | txid, _ | status⟩
  · cases h
  · cases h
  · cases h
  · cases h
  · obtain ⟨k, hk⟩ := get_confirmed_tx_ok env h
    exact he _ _ _ _ _ _ hs hk

def Spenders (found : List ConfirmedTx × List WatchedOutput) : Prop :=
  ∀ o ∈ found.2, ∃ ctx ∈ found.1, o.outpoint ∈ ctx.tx.input

theorem lookup_output_spenders (he : env.Spends) {acc acc' : List ConfirmedTx × List WatchedOutput}
    {o : WatchedOutput} {w w' : World} (h : Spenders acc) (hx : (lookup_output env acc o).exec w = (.ok acc', w')) :
    Spenders acc' := by
  obtain ⟨found, w₁, h₁, h₂⟩ := exec_bind_eq_ok hx
  cases found with
  | none => cases h₂; exact h
  | some ctx =>
    have ho := get_spending_tx_ok env he h₁
    cases h₂
    intro o' ho'
    rcases List.mem_insert_iff.mp ho' with rfl | ho'
    · exact ⟨ctx, by simp, ho⟩
    · obtain ⟨ctx', hm, hs⟩ := h o' ho'
      exact ⟨ctx', List.mem_append_left _ hm, hs⟩

theorem search_spenders (he : env.Spends) {found : List ConfirmedTx × List WatchedOutput} {w w' : World}
    (h : (get_confirmed_transactions env).exec w = (.ok found, w')) : Spenders found := by
  unfold get_confirmed_transactions at h
  simp only [note, exec_modify_bind, exec_get_bind] at h
  obtain ⟨txs, w₁, -, h⟩ := exec_bind_eq_ok h
  simp only [exec_get_bind] at h
  obtain ⟨⟨txs', spent⟩, w₂, h₂, h⟩ := exec_bind_eq_ok h
  have hs : Spenders (txs', spent) :=
    foldlM_ok (P := fun _ acc _ => Spenders acc)
      (fun _ _ _ _ _ _ h hx => lookup_output_spenders env he h hx) (fun o ho => by cases ho) h₂
  cases h
  intro o ho
  obtain ⟨ctx, hm, hc⟩ := hs o ho
  refine ⟨ctx, ?_, hc⟩
  exact ((List.perm_insertionSort _ _).mem_iff.mpr ((env.iter_perm _ _).mem_iff.mpr hm))

/-! ## What is unconfirmed -/

/-- The transactions that `sync_unconfirmed_transactions` finds out of the best chain, starting with query `k`: those
listed without a block, and those whose block the source says is not in the best chain. -/
def reorged (n : Nat) : Nat → List (Txid × Option BlockHash) → List Txid
  | _, [] => []
  | k, (txid, none) :: rest => txid :: reorged n (k + n) rest
  | k, (txid, some block_hash) :: rest =>
    match env.get_block_status k block_hash with
    | .error _ => []
    | .ok status => if status.in_best_chain then reorged n (k + 1) rest else txid :: reorged n (k + 1 + n) rest

theorem exec_callbacks_now (e : Nat → Event) (l : List Nat) (w : World) :
    ((l.forM fun c => callback env (e c)).exec w).2.now = w.now + l.length := by
  induction l generalizing w with
  | nil => rfl
  | cons c l ih =>
    rw [List.forM_eq_forM, List.forM_cons]
    show ((l.forM fun c => callback env (e c)).exec ((w.note (e c)).await env)).2.now = _
    rw [ih, List.length_cons]
    show w.now + 1 + l.length = _
    omega

/-- The body of the loop of `sync_unconfirmed_transactions` once the block is known not to be in the best chain. -/
theorem exec_unconfirm (n : Nat) (txid : Txid) (w : World) : ∃ new w',
    (do
      (List.range n).forM fun c => callback env (.transaction_unconfirmed c txid)
      modify_chain fun c => { c with watched_transactions := c.watched_transactions.insert txid }).exec w = (.ok (), w') ∧
    w'.now = w.now + n ∧ w'.log = new ++ w.log ∧ ∀ c t, .transaction_unconfirmed c t ∈ new → t = txid := by
  obtain ⟨new, w₁, hx, hl, hc, -⟩ := exec_callbacks env (e := fun c => .transaction_unconfirmed c txid) nofun
    (List.range n) w
  have hn := exec_callbacks_now env (fun c => .transaction_unconfirmed c txid) (List.range n) w
  rw [hx, List.length_range] at hn
  refine ⟨new, _, exec_bind_ok hx, hn, hl.log, fun c t ht => ?_⟩
  rcases hc.only _ ht with ⟨_, h⟩ | ⟨_, _, h⟩ <;> cases h
  rfl

theorem exec_query (answer : Nat → Except EsploraError BlockStatus) (w : World) :
    (query env answer).exec w = match answer w.now with
      | .ok a => (.ok a, w.await env)
      | .error e => (.error (MutinyError.from_esplora e), w.await env) := by
  simp only [query, exec_get_bind, exec_modify_bind]
  cases answer w.now <;> rfl

theorem unconfirmed_reorged (n : Nat) : ∀ (l : List (Txid × Option BlockHash)) (w : World), ∃ new,
    ((l.forM (unconfirm_transaction env n)).exec w).2.log = new ++ w.log ∧
      ∀ c txid, .transaction_unconfirmed c txid ∈ new → txid ∈ reorged env n w.now l
  | [], w => ⟨[], rfl, by simp⟩
  | (txid, none) :: l, w => by
    obtain ⟨new₁, w₁, hx, hk, hl, hn⟩ := exec_unconfirm env n txid w
    obtain ⟨new₂, hl₂, hn₂⟩ := unconfirmed_reorged n l w₁
    refine ⟨new₂ ++ new₁, ?_, fun c t ht => ?_⟩
    · have hb : (unconfirm_transaction env n (txid, none)).exec w = (.ok (), w₁) := hx
      rw [List.forM_eq_forM, List.forM_cons, exec_bind_ok hb, List.append_assoc, ← hl]
      exact hl₂
    · rw [reorged, ← hk]
      rcases List.mem_append.mp ht with ht | ht
      · exact List.mem_cons_of_mem _ (hn₂ c t ht)
      · rw [hn c t ht]
        exact List.mem_cons_self
  | (txid, some block_hash) :: l, w => by
    obtain ⟨arrived, hl₀, hn₀⟩ := (grows_await (P := Event.Arrival) (fun x => ⟨x, rfl⟩) env w).later
    have hk₀ : (w.await env).now = w.now + 1 := rfl
    have ha : ∀ c t, .transaction_unconfirmed c t ∉ arrived := by
      intro c t ht
      obtain ⟨_, h⟩ := hn₀ _ ht
      cases h
    rw [List.forM_eq_forM, List.forM_cons]
    have hq := exec_query env (env.get_block_status · block_hash) w
    rw [reorged]
    cases hs : env.get_block_status w.now block_hash with
    | error e =>
      simp only [hs] at hq
      have hb : (unconfirm_transaction env n (txid, some block_hash)).exec w =
          (.error (MutinyError.from_esplora e), w.await env) := by
        unfold unconfirm_transaction
        exact exec_bind_error (exec_bind_error hq)
      rw [exec_bind_error hb]
      exact ⟨arrived, hl₀.log, fun c t ht => absurd ht (ha c t)⟩
    | ok status =>
      simp only [hs] at hq
      have hstill : ((·.in_best_chain) <$> query env (env.get_block_status · block_hash)).exec w =
          (.ok status.in_best_chain, w.await env) := exec_bind_ok hq
      by_cases hin : status.in_best_chain = true
      · have hb : (unconfirm_transaction env n (txid, some block_hash)).exec w = (.ok (), w.await env) := by
          unfold unconfirm_transaction
          rw [exec_bind_ok hstill]
          simp only [hin, if_true]
          rfl
        obtain ⟨new₂, hl₂, hn₂⟩ := unconfirmed_reorged n l (w.await env)
        rw [exec_bind_ok hb]
        refine ⟨new₂ ++ arrived, ?_, fun c t ht => ?_⟩
        · rw [List.append_assoc, ← hl₀.log]
          exact hl₂
        · simp only [hin, if_true]
          rcases List.mem_append.mp ht with ht | ht
          · exact hn₂ c t ht
          · exact absurd ht (ha c t)
      · obtain ⟨new₁, w₁, hx, hk, hl, hn⟩ := exec_unconfirm env n txid (w.await env)
        have hb : (unconfirm_transaction env n (txid, some block_hash)).exec w = (.ok (), w₁) := by
          unfold unconfirm_transaction
          rw [exec_bind_ok hstill]
          simp only [hin, Bool.false_eq_true, if_false]
          exact hx
        obtain ⟨new₂, hl₂, hn₂⟩ := unconfirmed_reorged n l w₁
        rw [exec_bind_ok hb]
        refine ⟨new₂ ++ (new₁ ++ arrived), ?_, fun c t ht => ?_⟩
        · rw [List.append_assoc, List.append_assoc, ← hl₀.log, ← hl]
          exact hl₂
        · simp only [hin, Bool.false_eq_true, if_false]
          rw [hk₀] at hk
          rw [← hk]
          rcases List.mem_append.mp ht with ht | ht
          · exact List.mem_cons_of_mem _ (hn₂ c t ht)
          rcases List.mem_append.mp ht with ht | ht
          · rw [hn c t ht]
            exact List.mem_cons_self
          · exact absurd ht (ha c t)

end

/-! ## Every registered output is queued, watched or spent -/

section
variable {env : Env} {n : Nat}

/-- The transactions that the next `sync_unconfirmed_transactions` unconfirms. -/
def World.reorged (env : Env) (n : Nat) (w : World) : List Txid :=
  Mutiny.reorged env n w.now (env.iter w.now ((List.range n).flatMap (env.relevant w.now)).dedup)

theorem Spent.append {o : WatchedOutput} {new log : List Event} (h : Spent n o log)
    (hu : ∀ c txid, .transaction_unconfirmed c txid ∉ new) : Spent n o (new ++ log) := by
  obtain ⟨tx, ht, hh⟩ := h
  exact ⟨tx, ht, fun c hc => mem_held_append (fun c' => hu c' tx.txid) (hh c hc)⟩

theorem Watches.later {new : List Event} {w w' : World} (h : Watches n w) (hl : Later new w w')
    (hu : ∀ c txid, .transaction_unconfirmed c txid ∉ new)
    (ho : ∀ o, w.chain.Watched (.output o) → w'.chain.Watched (.output o) ∨ Spent n o w'.log) : Watches n w' := by
  intro o hr
  rw [hl.log] at hr
  rcases List.mem_append.mp hr with hr | hr
  · exact .inl (hl.arrived _ hr)
  rcases h o hr with hq | hw | hs
  · exact .inl (hl.queued _ hq)
  · exact .inr (ho o hw)
  · rw [hl.log]
    exact .inr (.inr (hs.append hu))

theorem Watches.grows {P : Event → Prop} (hP : ∀ e, P e → ∀ c txid, e ≠ .transaction_unconfirmed c txid) {w w' : World}
    (h : Watches n w) (hg : Grows P w w') : Watches n w' := by
  obtain ⟨new, hl, hn⟩ := hg.later
  exact h.later hl (fun c txid hm => hP _ (hn _ hm) c txid rfl) fun o hw => .inl ((hg.watched _).mpr hw)

theorem Event.Search.confirms {e : Event} (h : e.Search) (c : Nat) (txid : Txid) :
    e ≠ .transaction_unconfirmed c txid := by
  rintro rfl
  exact h

theorem Event.Announce.confirms {e : Event} (h : e.Announce) (c : Nat) (txid : Txid) :
    e ≠ .transaction_unconfirmed c txid := by
  rintro rfl
  exact h

theorem Event.Arrival.confirms {e : Event} (h : e.Arrival) (c : Nat) (txid : Txid) :
    e ≠ .transaction_unconfirmed c txid := by
  obtain ⟨x, rfl⟩ := h
  nofun

theorem moved_watched {w : World} {o : WatchedOutput} :
    w.moved.chain.Watched (.output o) ↔ w.chain.Queued (.output o) ∨ w.chain.Watched (.output o) := by
  unfold World.moved
  split <;> exact List.mem_union_iff

theorem moved_registered {w : World} {x : Item} : .registered x ∈ w.moved.log ↔ .registered x ∈ w.log := by
  by_cases he : w.chain.queued_transactions = [] ∧ w.chain.queued_outputs = []
  · rw [moved_of_empty he.1 he.2]
  · rw [moved_log he]
    simp

theorem moved_held {w : World} (c : Nat) : held c w.moved.log = held c w.log := by
  by_cases he : w.chain.queued_transactions = [] ∧ w.chain.queued_outputs = []
  · rw [moved_of_empty he.1 he.2]
  · rw [moved_log he]
    rfl

theorem moved_now (w : World) : w.moved.now = w.now := by
  unfold World.moved
  split <;> rfl

theorem Watches.moved {w : World} (h : Watches n w) : Watches n w.moved := by
  intro o hr
  rcases h o (moved_registered.mp hr) with hq | hw | ⟨tx, ht, hh⟩
  · exact .inr (.inl (moved_watched.mpr (.inl hq)))
  · exact .inr (.inl (moved_watched.mpr (.inr hw)))
  · exact .inr (.inr ⟨tx, ht, fun c hc => by rw [moved_held]; exact hh c hc⟩)

/-- Every registered output that left the queue and the watch set has a recorded spender that the source still has in
the best chain. -/
def World.SpendKept (env : Env) (n : Nat) (w : World) : Prop :=
  ∀ o, .registered (.output o) ∈ w.log → ¬ w.chain.Queued (.output o) → ¬ w.chain.Watched (.output o) →
    ∃ tx, o.outpoint ∈ tx.input ∧ (∀ c < n, tx ∈ held c w.log) ∧ tx.txid ∉ w.reorged env n

theorem Watches.unconfirms {w w' : World} {r : Except MutinyError Unit} (hk : w.SpendKept env n)
    (hx : (sync_unconfirmed_transactions env n).exec w.moved = (r, w')) : Watches n w' := by
  obtain ⟨new, hl, -, -⟩ := (unconfirms_of_exec env hx).later
  have hu : ∀ c txid, .transaction_unconfirmed c txid ∈ new → txid ∈ w.reorged env n := by
    obtain ⟨new', hlog, hn⟩ := unconfirmed_reorged env n
      (env.iter w.moved.now ((List.range n).flatMap (env.relevant w.moved.now)).dedup) w.moved
    have hw : ((sync_unconfirmed_transactions env n).exec w.moved).2.log = new' ++ w.moved.log := hlog
    rw [hx, hl.log] at hw
    rw [List.append_cancel_right hw, World.reorged, ← moved_now]
    exact hn
  intro o hr
  rw [hl.log] at hr
  rcases List.mem_append.mp hr with hr | hr
  · exact .inl (hl.arrived _ hr)
  have hr₀ := moved_registered.mp hr
  by_cases hw : w.moved.chain.Watched (.output o)
  · right; left
    have ho : o ∈ w.moved.chain.watched_outputs := hw
    rwa [← (unconfirms_of_exec env hx).outs] at ho
  · have hno := not_or.mp fun h => hw (moved_watched.mpr h)
    obtain ⟨tx, ht, hh, hne⟩ := hk o hr₀ hno.1 hno.2
    refine .inr (.inr ⟨tx, ht, fun c hc => ?_⟩)
    rw [hl.log]
    apply mem_held_append (fun c' hm => hne (hu c' _ hm))
    rw [moved_held]
    exact hh c hc

theorem Watches.confirmed {txs : List ConfirmedTx} {spent : List WatchedOutput} (hs : Spenders (txs, spent))
    {w w' : World} (h : Watches n w) (hx : (sync_confirmed_transactions env n txs spent).exec w = (.ok (), w')) :
    Watches n w' := by
  obtain ⟨_, hx', ⟨⟨new, hl, hn, he⟩, -⟩, ho⟩ := exec_sync_confirmed_transactions env n txs spent w
  rw [hx'] at hx
  cases hx
  have hu : ∀ c txid, .transaction_unconfirmed c txid ∉ new := by
    intro c txid hm
    rcases hn _ hm with ⟨_, h⟩ | ⟨_, _, _, h⟩ <;> cases h
  apply h.later hl hu
  intro o hw
  by_cases hm : o ∈ spent
  · obtain ⟨ctx, hctx, hi⟩ := hs o hm
    refine .inr ⟨ctx.tx, hi, fun c hc => ?_⟩
    rw [hl.log]
    exact mem_held_of_confirmed (fun c' => hu c' _) (he ctx hctx c hc) _
  · exact .inl ((ho o).mpr ⟨hw, hm⟩)

theorem Watches.synced {tip : BlockHash} {w : World} (h : Watches n w) : Watches n (w.synced tip) := by
  intro o hr
  have hr' : .registered (.output o) ∈ w.log := by
    rcases List.mem_cons.mp hr with h | h
    · cases h
    · exact h
  exact h o hr'

theorem Watches.round (he : env.Spends) {tip : BlockHash} {r : Except MutinyError Flow} {w w' : World}
    (h : Watches n w) (hr : Round env n tip w r w') : Watches n w' := by
  have hsearch : ∀ {r w₁}, (get_confirmed_transactions env).exec w = (r, w₁) → Watches n w₁ :=
    fun hs => h.grows (fun _ => Event.Search.confirms) (grows_search env hs)
  have hquery : ∀ {r w₁ w₂}, Watches n w₁ → (query env env.get_tip_hash).exec w₁ = (r, w₂) → Watches n w₂ :=
    fun h hq => h.grows (fun _ => Event.Arrival.confirms) (grows_query env hq)
  cases hr with
  | failed hs | aborted hs => exact hsearch hs
  | no_tip hs hq | tip_changed hs hq _ => exact hquery (hsearch hs) hq
  | confirm_failed _ _ hc =>
    obtain ⟨_, hx, _⟩ := exec_sync_confirmed_transactions env n _ _ _
    rw [hx] at hc
    cases hc
  | completed hs hq hc => exact ((hquery (hsearch hs) hq).confirmed (search_spenders env he hs) hc).synced

theorem Watches.iteration (he : env.Spends) {tip : BlockHash} {r : Except MutinyError Flow} {w w' : World}
    (h : Watches n w) (hk : w.chain.last_sync_hash ≠ some tip → w.SpendKept env n)
    (hi : Iteration env n tip w r w') : Watches n w' := by
  cases hi with
  | idle _ => exact h
  | unconfirm_failed hl hu => exact Watches.unconfirms (hk hl) hu
  | announce_failed hl hu ha | announce_aborted hl hu ha =>
    exact (Watches.unconfirms (hk hl) hu).grows (fun _ => Event.Announce.confirms) (grows_announce env ha)
  | new_tip hl hu ha hr =>
    exact ((Watches.unconfirms (hk hl) hu).grows (fun _ => Event.Announce.confirms) (grows_announce env ha)).round he hr
  | same_tip _ _ hr => exact h.moved.round he hr

def SpendKept (env : Env) (n : Nat) (s : Session) (a : Act) : Prop :=
  a = .iterate → ∀ tip ∈ s.call.tip, s.world.chain.last_sync_hash ≠ some tip → s.world.SpendKept env n

theorem Watches.step (he : env.Spends) {s : Session} {a : Act} {t : Session} (h : Watches n s.world)
    (hk : SpendKept env n s a) (hs : chain_step env n s a = some t) : Watches n t.world := by
  cases a with
  | register x =>
    cases hs
    exact h.grows (fun _ => Event.Arrival.confirms) (grows_register (fun x => ⟨x, rfl⟩) s.world x)
  | begin_sync => exact h.grows (fun _ => Event.Arrival.confirms) (begin_sync_step hs).1
  | iterate =>
    obtain ⟨before, tip, r, hc, hi, -⟩ := iterate_step hs
    exact h.iteration he (hk rfl tip (by rw [hc]; rfl)) hi

end

theorem sync_watches (env : Env) (he : env.Spends) (n : Nat) (as : List Act) (s : Session)
    (hk : (chain_machine env n).Along (SpendKept env n) .new as) (h : (chain_machine env n).run .new as = some s) :
    Watches n s.world := by
  have h₀ : Watches n Session.new.world := fun o hr => by cases hr
  exact Machine.run_invariant (I := fun s => Watches n s.world) (fun s a t h hk hs => h.step he hk hs) h₀ hk h

/-! ## A reorganisation with another spender -/

/-- Until query `k₀` block 1 is the tip and transaction 7 in it spends the output `9:0`; from then on block 2 is the
tip in its place, and transaction 8 in it spends the output. -/
def replaced (k₀ : Nat) : Env where
  get_tip_hash k := .ok (if k < k₀ then 1 else 2)
  get_header_by_hash _ hash := .ok ⟨hash⟩
  get_block_status k hash := .ok ⟨hash = if k < k₀ then 1 else 2, some 0⟩
  get_merkle_proof k txid := .ok (if txid = if k < k₀ then 7 else 8 then some ⟨0, 0⟩ else none)
  get_block_hash k _ := .ok (if k < k₀ then 1 else 2)
  get_tx _ txid := .ok (if txid = 7 ∨ txid = 8 then some ⟨txid, [⟨9, 0⟩]⟩ else none)
  get_output_status k txid index := .ok <|
    if txid = 9 ∧ index = 0 then
      if k < k₀ then some ⟨some 7, some ⟨some 1, some 0⟩⟩ else some ⟨some 8, some ⟨some 2, some 0⟩⟩
    else none
  relevant k _ := if k < k₀ then [] else [(7, some 1)]
  arrivals _ := []
  iter _ _ l := l
  iter_perm _ _ _ := .refl _

theorem replaced_spends (k₀ : Nat) : (replaced k₀).Spends := by
  intro k k' o txid status tx ho ht
  by_cases h9 : o.txid = 9 ∧ o.index = 0
  · have hi : tx.input = [⟨9, 0⟩] := by
      simp only [replaced, Except.ok.injEq] at ht
      split at ht <;> cases ht
      rfl
    obtain ⟨otxid, oindex⟩ := o
    obtain ⟨rfl, rfl⟩ := h9
    rw [hi]
    exact List.mem_singleton_self _
  · simp only [replaced, if_neg h9] at ho
    cases ho

def commitment : WatchedOutput := ⟨none, ⟨9, 0⟩, []⟩

def spent_log : List Event :=
  [.synced 1, .transactions_confirmed 0 ⟨1⟩ 0 ⟨7, [⟨9, 0⟩]⟩ 0, .looked_up (.output commitment), .round,
    .best_block_updated 0 ⟨1⟩ 0, .processed, .registered (.output commitment)]

theorem sync_watches_spent : ∃ s,
    (chain_machine (replaced 100) 1).run .new [.register (.output commitment), .begin_sync, .iterate, .iterate] = some s ∧
      s.Synced [.registered (.output commitment)] ∧ s.world.chain.watched_outputs = [] ∧ Watches 1 s.world := by
  have hr : (chain_machine (replaced 100) 1).run .new [.register (.output commitment), .begin_sync, .iterate, .iterate] =
      some ⟨⟨⟨[], [], [], [], some 1⟩, 11, spent_log⟩, .resting (some ([.registered (.output commitment)], .ok ()))⟩ :=
    rfl
  have hk : (chain_machine (replaced 100) 1).Along (SpendKept (replaced 100) 1) .new
      [.register (.output commitment), .begin_sync, .iterate, .iterate] := by
    refine .cons nofun rfl <| .cons nofun rfl <| .cons (fun _ _ _ _ o ho hq _ => ?_) rfl <|
      .cons (fun _ tip htip hl => ?_) rfl trivial
    · -- the only registered output is queued
      cases List.mem_singleton.mp ho
      exact absurd (List.mem_singleton_self commitment) hq
    · cases htip
      exact absurd rfl hl
  exact ⟨_, hr, rfl, rfl, sync_watches _ (replaced_spends 100) 1 _ _ hk hr⟩

/-- The first `sync` drops the output; the second one, after the reorganisation, unconfirms the spender only. -/
theorem sync_loses_output : ∃ s,
    (chain_machine (replaced 11) 1).run .new
        [.register (.output commitment), .begin_sync, .iterate, .iterate, .begin_sync, .iterate, .iterate] = some s ∧
      s.Synced spent_log ∧ .registered (.output commitment) ∈ s.world.log ∧
      ¬ s.world.chain.Queued (.output commitment) ∧ ¬ s.world.chain.Watched (.output commitment) ∧
      ¬ Spent 1 commitment s.world.log := by
  refine ⟨⟨⟨⟨[], [7], [], [], some 2⟩, 19, .synced 2 :: .looked_up (.tx 7) :: .round ::
    .best_block_updated 0 ⟨2⟩ 0 :: .transaction_unconfirmed 0 7 :: spent_log⟩, .resting (some (spent_log, .ok ()))⟩,
    rfl, rfl, by simp [spent_log], nofun, nofun, ?_⟩
  rintro ⟨tx, -, hh⟩
  have hm := hh 0 (by decide)
  simp [held, spent_log] at hm

end Mutiny
