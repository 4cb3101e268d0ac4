import Mutiny.ChainSteps

/-!
# What a successful `sync` guarantees

A log is read newest event first. `covered tip log` are the items the completed rounds against `tip` looked up,
`recent log` is what happened since the queues were last moved, and `unfinished log` says that an iteration moved or
re-watched something and no round completed since. As long as no call of `sync` finds nothing to do with an unfinished
iteration behind it, a successful call has looked up every watched item against the recorded tip (`sync_covers`). As
long as no iteration takes up the recorded tip again after another one was announced, a successful call leaves the
confirmables at the recorded block (`sync_announces`).
-/

namespace Mutiny

open Prog

/-! ## Reading a log -/

def recent : List Event → List Event
  | [] => []
  | .processed :: _ => []
  | e :: log => e :: recent log

def unfinished : List Event → Bool
  | [] => false
  | .synced _ :: _ => false
  | .processed :: _ => true
  | .transaction_unconfirmed _ _ :: _ => true
  | _ :: log => unfinished log

/-- The items looked up in the round under way. -/
def round_items : List Event → List Item
  | [] => []
  | .round :: _ => []
  | .processed :: _ => []
  | .looked_up x :: log => x :: round_items log
  | _ :: log => round_items log

def covered (tip : BlockHash) : List Event → List Item
  | [] => []
  | .synced t :: log => if t = tip then round_items log ++ covered tip log else covered tip log
  | _ :: log => covered tip log

theorem recent_append {new : List Event} (h : .processed ∉ new) (log : List Event) :
    recent (new ++ log) = new ++ recent log := by
  induction new with
  | nil => rfl
  | cons e new ih =>
    have hrest := ih fun hp => h (by simp [hp])
    cases e with
    | processed => exact absurd List.mem_cons_self h
    | _ => simpa [recent] using hrest

theorem recent_before {e : Event} {b : List Event} : ∀ {a : List Event}, e ∉ recent (a ++ e :: b) → e ≠ .processed →
    recent (a ++ e :: b) <+: a
  | [], h, he => by
    refine absurd ?_ h
    cases e with
    | processed => exact absurd rfl he
    | _ => exact List.mem_cons_self
  | x :: a, h, he => by
    have ih := @recent_before e b a
    cases x with
    | processed => exact List.nil_prefix
    | _ => exact List.cons_prefix_cons.mpr ⟨rfl, ih (fun hr => h (List.mem_cons_of_mem _ hr)) he⟩

theorem unfinished_append {new : List Event} (h : ∀ e ∈ new, e ≠ .processed ∧ (∀ t, e ≠ .synced t) ∧
    ∀ c txid, e ≠ .transaction_unconfirmed c txid) (log : List Event) :
    unfinished (new ++ log) = unfinished log := by
  induction new with
  | nil => rfl
  | cons e new ih =>
    have he := h e (by simp)
    have hrest := ih fun e he => h e (by simp [he])
    cases e with
    | processed => exact absurd rfl he.1
    | synced t => exact absurd rfl (he.2.1 t)
    | transaction_unconfirmed c txid => exact absurd rfl (he.2.2 c txid)
    | _ => exact hrest

theorem unfinished_of_mem {new : List Event} (h : ∀ e ∈ new, ∀ t, e ≠ .synced t) {c : Nat} {txid : Txid}
    (hm : .transaction_unconfirmed c txid ∈ new) (log : List Event) : unfinished (new ++ log) = true := by
  induction new with
  | nil => cases hm
  | cons e new ih =>
    have hrest : .transaction_unconfirmed c txid ∈ new → unfinished (new ++ log) = true :=
      ih fun e he => h e (by simp [he])
    cases e with
    | synced t => exact absurd rfl (h _ (by simp) t)
    | processed => rfl
    | transaction_unconfirmed => rfl
    | _ => exact hrest (by simpa using hm)

theorem round_items_append {new : List Event} (h : .round ∉ new) (hp : .processed ∉ new) (log : List Event) :
    round_items log ⊆ round_items (new ++ log) := by
  induction new with
  | nil => exact fun _ h => h
  | cons e new ih =>
    have hrest := ih (fun hr => h (by simp [hr])) fun hr => hp (by simp [hr])
    cases e with
    | round => exact absurd List.mem_cons_self h
    | processed => exact absurd List.mem_cons_self hp
    | looked_up x => exact fun y hy => List.mem_cons_of_mem _ (hrest hy)
    | _ => exact hrest

theorem round_items_recent (log : List Event) : round_items (recent log) = round_items log := by
  induction log with
  | nil => rfl
  | cons e log ih =>
    cases e with
    | looked_up x => exact congrArg (x :: ·) ih
    | round | processed => rfl
    | _ => exact ih

theorem round_items_mono (log older : List Event) : round_items log ⊆ round_items (log ++ older) := by
  induction log with
  | nil => exact List.nil_subset _
  | cons e log ih =>
    cases e with
    | looked_up x => exact List.cons_subset_cons x ih
    | round | processed => exact List.nil_subset _
    | _ => exact ih

theorem covered_append {new : List Event} (h : ∀ e ∈ new, ∀ t, e ≠ .synced t) (tip : BlockHash) (log : List Event) :
    covered tip (new ++ log) = covered tip log := by
  induction new with
  | nil => rfl
  | cons e new ih =>
    have hrest := ih fun e he => h e (by simp [he])
    cases e with
    | synced t => exact absurd rfl (h _ (by simp) t)
    | _ => exact hrest

theorem covered_mono (tip : BlockHash) {log log' : List Event} (h : log <+: log') :
    covered tip log ⊆ covered tip log' := by
  obtain ⟨older, rfl⟩ := h
  induction log with
  | nil => exact List.nil_subset _
  | cons e log ih =>
    cases e with
    | synced t =>
      by_cases ht : t = tip
      · simp only [covered, List.cons_append, ht, if_true]
        exact List.append_subset.mpr ⟨fun x hx => List.mem_append_left _ (round_items_mono log older hx),
          fun x hx => List.mem_append_right _ (ih hx)⟩
      · simpa only [covered, List.cons_append, ht, if_false] using ih
    | _ => exact ih

/-! ## The search of a round -/

def Event.Search : Event → Prop
  | .registered _ | .round | .looked_up _ => True
  | _ => False

def Event.Announce : Event → Prop
  | .registered _ | .best_block_updated _ _ _ => True
  | _ => False

abbrev Event.Arrival (e : Event) : Prop := ∃ x, e = .registered x

section
variable (env : Env)

theorem grows_query {α : Type} {answer : Nat → Except EsploraError α} {w w' : World} {r : Except MutinyError α}
    (h : (query env answer).exec w = (r, w')) : Grows Event.Arrival w w' := by
  have := within_query (P := Event.Arrival) (fun x => ⟨x, rfl⟩) env answer w
  rwa [h] at this

theorem grows_search {r : Except MutinyError (List ConfirmedTx × List WatchedOutput)} {w w' : World}
    (h : (get_confirmed_transactions env).exec w = (r, w')) : Grows Event.Search w w' := by
  have := grows_get_confirmed_transactions (P := Event.Search) (fun _ => trivial) env (fun _ => trivial) trivial w
  rwa [h] at this

theorem grows_announce {n : Nat} {tip : BlockHash} {r : Except MutinyError Unit} {w w' : World}
    (h : (sync_best_block_updated env n tip).exec w = (r, w')) : Grows Event.Announce w w' := by
  have := grows_sync_best_block_updated (P := Event.Announce) (fun _ => trivial) env (fun _ _ _ => trivial) n tip w
  rwa [h] at this

theorem unconfirms_of_exec {n : Nat} {r : Except MutinyError Unit} {w w' : World}
    (h : (sync_unconfirmed_transactions env n).exec w = (r, w')) : Unconfirms w w' := by
  have := within_sync_unconfirmed_transactions env n w
  rwa [h] at this

theorem round_items_of_arrivals {w w' : World} (h : Grows Event.Arrival w w') :
    round_items w.log ⊆ round_items w'.log := by
  obtain ⟨new, hl, hn⟩ := h.later
  rw [hl.log]
  refine round_items_append (fun hr => ?_) (fun hr => ?_) _ <;>
    (obtain ⟨_, hx⟩ := hn _ hr; cases hx)

theorem lookup_tx_ok {acc acc' : List ConfirmedTx} {txid : Txid} {w w' : World}
    (h : (lookup_tx env acc txid).exec w = (.ok acc', w')) :
    .tx txid ∈ round_items w'.log ∧ round_items w.log ⊆ round_items w'.log := by
  obtain ⟨found, w₁, h₁, h₂⟩ := exec_bind_eq_ok h
  have hg := grows_get_confirmed_tx (P := Event.Arrival) (fun x => ⟨x, rfl⟩) env txid none none w
  rw [h₁] at hg
  have hsub := round_items_of_arrivals hg
  cases h₂
  exact ⟨List.mem_cons_self, fun x hx => List.mem_cons_of_mem _ (hsub hx)⟩

theorem get_spending_tx_within (output : WatchedOutput) :
    Within (Grows Event.Arrival) (get_spending_tx env output) :=
  grows_get_spending_tx (fun x => ⟨x, rfl⟩) env output

theorem lookup_output_ok {acc acc' : List ConfirmedTx × List WatchedOutput} {output : WatchedOutput} {w w' : World}
    (h : (lookup_output env acc output).exec w = (.ok acc', w')) :
    .output output ∈ round_items w'.log ∧ round_items w.log ⊆ round_items w'.log := by
  obtain ⟨found, w₁, h₁, h₂⟩ := exec_bind_eq_ok h
  have hg := get_spending_tx_within env output w
  rw [h₁] at hg
  have hsub := round_items_of_arrivals hg
  have hw : w'.log = .looked_up (.output output) :: w₁.log := by
    cases found <;> (cases h₂; rfl)
  rw [hw]
  exact ⟨List.mem_cons_self, fun x hx => List.mem_cons_of_mem _ (hsub hx)⟩

theorem search_covers {found : List ConfirmedTx × List WatchedOutput} {w w' : World}
    (h : (get_confirmed_transactions env).exec w = (.ok found, w')) (x : Item) (hx : w.chain.Watched x) :
    x ∈ round_items w'.log := by
  unfold get_confirmed_transactions at h
  simp only [note, exec_modify_bind, exec_get_bind] at h
  obtain ⟨txs, w₁, h₁, h⟩ := exec_bind_eq_ok h
  simp only [exec_get_bind] at h
  obtain ⟨⟨txs', spent⟩, w₂, h₂, h⟩ := exec_bind_eq_ok h
  have e₃ : w₂ = w' := by cases h; rfl
  subst e₃
  have ht : ∀ txid ∈ w.chain.watched_transactions, .tx txid ∈ round_items w₁.log := by
    intro txid hm
    refine foldlM_ok (P := fun done _ s => ∀ txid ∈ done, .tx txid ∈ round_items s.log) ?_ (by simp) h₁ txid
      ((env.iter_perm _ _).mem_iff.mpr hm)
    intro done acc s txid acc' t ih hs txid' hm
    have hok := lookup_tx_ok env hs
    rcases List.mem_append.mp hm with hm | hm
    · exact hok.2 (ih _ hm)
    · rw [List.mem_singleton.mp hm]; exact hok.1
  have hw₁ : w₁.chain.watched_outputs = w.chain.watched_outputs := by
    have hg : Within (Grows Event.Search) ((env.iter (w.note .round).now (w.note .round).chain.watched_transactions).foldlM
        (lookup_tx env) []) :=
      Within.foldlM (fun b txid _ => grows_lookup_tx (fun _ => trivial) env (fun _ => trivial) b txid) []
    have hg := hg (w.note .round)
    rw [h₁] at hg
    exact hg.outs
  have ho : (∀ o ∈ w.chain.watched_outputs, .output o ∈ round_items w₂.log) ∧
      round_items w₁.log ⊆ round_items w₂.log := by
    have hall := foldlM_ok
      (P := fun done _ s => (∀ o ∈ done, .output o ∈ round_items s.log) ∧ round_items w₁.log ⊆ round_items s.log)
      (fun done acc s output acc' t ih hs => ?_) ⟨by simp, fun _ h => h⟩ h₂
    · refine ⟨fun o hm => hall.1 o ((env.iter_perm _ _).mem_iff.mpr (hw₁ ▸ hm)), hall.2⟩
    · have hok := lookup_output_ok env hs
      refine ⟨fun o hm => ?_, fun x hx => hok.2 (ih.2 hx)⟩
      rcases List.mem_append.mp hm with hm | hm
      · exact hok.2 (ih.1 _ hm)
      · rw [List.mem_singleton.mp hm]; exact hok.1
  cases x with
  | tx txid => exact ho.2 (ht txid hx)
  | output o => exact ho.1 o hx

end

/-! ## Every watched item was looked up -/

/-- Events that neither watch more nor end a round. -/
def Event.Quiet : Event → Prop
  | .processed | .synced _ | .transaction_unconfirmed _ _ => False
  | _ => True

theorem Event.Search.quiet {e : Event} (h : e.Search) : e.Quiet := by
  cases e <;> trivial

theorem Event.Announce.quiet {e : Event} (h : e.Announce) : e.Quiet := by
  cases e <;> trivial

theorem Event.Arrival.quiet {e : Event} (h : e.Arrival) : e.Quiet := by
  obtain ⟨x, rfl⟩ := h
  trivial

/-- With no unfinished iteration, the rounds completed against the recorded tip since the queues were last moved have
looked up every watched item; what was registered since then is still queued. -/
structure Covers (w : World) : Prop where
  watched : unfinished w.log = false →
    ∀ x, w.chain.Watched x → ∃ tip, w.chain.last_sync_hash = some tip ∧ x ∈ covered tip (recent w.log)
  pending : ∀ x, .registered x ∈ recent w.log → w.chain.Queued x

theorem Covers.new : Covers World.new := by
  refine ⟨fun _ x hx => ?_, fun x hx => ?_⟩
  · cases x <;> cases hx
  · cases hx

theorem Later.pending {new : List Event} {w w' : World} (hl : Later new w w') (hp : .processed ∉ new)
    (h : ∀ x, .registered x ∈ recent w.log → w.chain.Queued x) :
    ∀ x, .registered x ∈ recent w'.log → w'.chain.Queued x := by
  intro x hx
  rw [hl.log, recent_append hp] at hx
  rcases List.mem_append.mp hx with hx | hx
  · exact hl.arrived x hx
  · exact hl.queued x (h x hx)

theorem Covers.grows {P : Event → Prop} (hP : ∀ e, P e → e.Quiet) {w w' : World} (h : Covers w) (hg : Grows P w w') :
    Covers w' := by
  obtain ⟨new, hl, hn⟩ := hg.later
  have hq : ∀ e ∈ new, e.Quiet := fun e he => hP e (hn e he)
  have hp : .processed ∉ new := fun he => hq _ he
  have hs : ∀ e ∈ new, ∀ t, e ≠ .synced t := by
    rintro _ he t rfl
    exact hq _ he
  have hu : ∀ e ∈ new, ∀ c txid, e ≠ .transaction_unconfirmed c txid := by
    rintro _ he c txid rfl
    exact hq _ he
  refine ⟨fun hf x hx => ?_, hl.pending hp h.pending⟩
  rw [hl.log, unfinished_append fun e he => ⟨fun hep => hp (hep ▸ he), hs e he, hu e he⟩] at hf
  obtain ⟨tip, ht, hc⟩ := h.watched hf x ((hg.watched x).mp hx)
  refine ⟨tip, hg.last.trans ht, ?_⟩
  rwa [hl.log, recent_append hp, covered_append hs]

theorem Covers.moved {w : World} (h : Covers w) : Covers w.moved := by
  by_cases he : w.chain.queued_transactions = [] ∧ w.chain.queued_outputs = []
  · rwa [moved_of_empty he.1 he.2]
  · refine ⟨fun hu => ?_, fun x hx => ?_⟩
    · rw [moved_log he] at hu
      cases hu
    · rw [moved_log he] at hx
      cases hx

theorem Covers.unconfirms {w w' : World} (h : Covers w) (hw : Unconfirms w w') : Covers w' := by
  obtain ⟨new, hl, hn, ht⟩ := hw.later
  have hp : .processed ∉ new := by
    intro he
    rcases hn _ he with ⟨_, h⟩ | ⟨_, _, h⟩ <;> cases h
  have hs : ∀ e ∈ new, ∀ t, e ≠ .synced t := by
    rintro _ he t rfl
    rcases hn _ he with ⟨_, h⟩ | ⟨_, _, h⟩ <;> cases h
  refine ⟨fun hf x hx => ?_, hl.pending hp h.pending⟩
  by_cases hc : ∃ c txid, .transaction_unconfirmed c txid ∈ new
  · obtain ⟨c, txid, hm⟩ := hc
    rw [hl.log, unfinished_of_mem hs hm] at hf
    cases hf
  · have hu : ∀ e ∈ new, ∀ c txid, e ≠ .transaction_unconfirmed c txid := by
      rintro _ he c txid rfl
      exact hc ⟨c, txid, he⟩
    have hx' : w.chain.Watched x := by
      cases x with
      | tx txid => exact ((ht txid).mp hx).resolve_right fun ⟨c, hm⟩ => hc ⟨c, txid, hm⟩
      | output o =>
        have ho : o ∈ w'.chain.watched_outputs := hx
        rwa [hw.outs] at ho
    rw [hl.log, unfinished_append fun e he => ⟨fun hep => hp (hep ▸ he), hs e he, hu e he⟩] at hf
    obtain ⟨tip, htip, hcov⟩ := h.watched hf x hx'
    refine ⟨tip, hl.last.trans htip, ?_⟩
    rwa [hl.log, recent_append hp, covered_append hs]

theorem Covers.synced {env : Env} {n : Nat} {tip : BlockHash} {txs : List ConfirmedTx} {spent : List WatchedOutput}
    {w w₁ w₂ w₃ : World} (h : Covers w) (hs : (get_confirmed_transactions env).exec w = (.ok (txs, spent), w₁))
    (hq : (query env env.get_tip_hash).exec w₁ = (.ok tip, w₂))
    (hc : (sync_confirmed_transactions env n txs spent).exec w₂ = (.ok (), w₃)) : Covers (w₃.synced tip) := by
  obtain ⟨w', hx, ⟨⟨new, hl, hn, -⟩, ht⟩, ho⟩ := exec_sync_confirmed_transactions env n txs spent w₂
  obtain rfl : w' = w₃ := by rw [hc] at hx; cases hx; rfl
  have hg := grows_query env hq
  obtain ⟨new₂, hl₂, hn₂⟩ := hg.later
  have hp : .processed ∉ new := by
    intro he
    rcases hn _ he with ⟨_, h⟩ | ⟨_, _, _, h⟩ <;> cases h
  have h₂ : Covers w₂ := (h.grows (fun _ => Event.Search.quiet) (grows_search env hs)).grows
    (fun _ => Event.Arrival.quiet) hg
  refine ⟨fun _ x hx => ⟨tip, rfl, ?_⟩, fun x hx => ?_⟩
  · have hx₂ : w₂.chain.Watched x := by
      cases x with
      | tx txid => exact ((ht txid).mp hx).1
      | output o => exact ((ho o).mp hx).1
    have hx₀ : w.chain.Watched x := ((grows_search env hs).watched x).mp ((hg.watched x).mp hx₂)
    have hr : x ∈ round_items w'.log := by
      rw [hl.log, hl₂.log]
      refine round_items_append (fun h => ?_) hp _
        (round_items_append (fun h => ?_) (fun h => ?_) _ (search_covers env hs x hx₀))
      · rcases hn _ h with ⟨_, h⟩ | ⟨_, _, _, h⟩ <;> cases h
      · obtain ⟨_, h⟩ := hn₂ _ h
        cases h
      · obtain ⟨_, h⟩ := hn₂ _ h
        cases h
    show x ∈ covered tip (.synced tip :: recent w'.log)
    simp only [covered, if_true, List.mem_append, round_items_recent]
    exact .inl hr
  · have hx' : .registered x ∈ Event.synced tip :: recent w'.log := hx
    rcases List.mem_cons.mp hx' with he | hr
    · cases he
    · have hq' : w'.chain.Queued x := hl.pending hp h₂.pending x hr
      cases x <;> exact hq'

theorem Covers.round {env : Env} {n : Nat} {tip : BlockHash} {r : Except MutinyError Flow} {w w' : World}
    (h : Covers w) (hr : Round env n tip w r w') : Covers w' := by
  cases hr with
  | failed hs | aborted hs => exact h.grows (fun _ => Event.Search.quiet) (grows_search env hs)
  | no_tip hs hq | tip_changed hs hq _ =>
    exact (h.grows (fun _ => Event.Search.quiet) (grows_search env hs)).grows
      (fun _ => Event.Arrival.quiet) (grows_query env hq)
  | confirm_failed _ _ hc =>
    obtain ⟨_, hx, _⟩ := exec_sync_confirmed_transactions env n _ _ _
    rw [hx] at hc
    cases hc
  | completed hs hq hc => exact h.synced hs hq hc

theorem Covers.iteration {env : Env} {n : Nat} {tip : BlockHash} {r : Except MutinyError Flow} {w w' : World}
    (h : Covers w) (hi : Iteration env n tip w r w') : Covers w' := by
  cases hi with
  | idle _ => exact h
  | unconfirm_failed _ hu => exact h.moved.unconfirms (unconfirms_of_exec env hu)
  | announce_failed _ hu ha | announce_aborted _ hu ha =>
    exact (h.moved.unconfirms (unconfirms_of_exec env hu)).grows
      (fun _ => Event.Announce.quiet) (grows_announce env ha)
  | new_tip _ hu ha hr =>
    exact ((h.moved.unconfirms (unconfirms_of_exec env hu)).grows
      (fun _ => Event.Announce.quiet) (grows_announce env ha)).round hr
  | same_tip _ _ hr => exact h.moved.round hr

/-! ## The log only grows -/

theorem Grows.suffix {P : Event → Prop} {w w' : World} (h : Grows P w w') : w.log <:+ w'.log := by
  obtain ⟨new, hl, _⟩ := h.later
  exact ⟨new, hl.log.symm⟩

theorem Unconfirms.suffix {w w' : World} (h : Unconfirms w w') : w.log <:+ w'.log := by
  obtain ⟨new, hl, _⟩ := h.later
  exact ⟨new, hl.log.symm⟩

theorem moved_suffix (w : World) : w.log <:+ w.moved.log := by
  unfold World.moved
  split
  · exact List.suffix_cons _ _
  · exact List.suffix_rfl

theorem Round.suffix {env : Env} {n : Nat} {tip : BlockHash} {r : Except MutinyError Flow} {w w' : World}
    (h : Round env n tip w r w') : w.log <:+ w'.log := by
  cases h with
  | failed hs | aborted hs => exact (grows_search env hs).suffix
  | no_tip hs hq | tip_changed hs hq _ => exact (grows_search env hs).suffix.trans (grows_query env hq).suffix
  | @confirm_failed _ _ _ _ w₂ _ hs hq hc =>
    obtain ⟨_, hx, _⟩ := exec_sync_confirmed_transactions env n _ _ w₂
    rw [hx] at hc
    cases hc
  | @completed _ _ _ w₂ _ hs hq hc =>
    obtain ⟨w₃', hx, ⟨⟨new, hl, -⟩, -⟩, -⟩ := exec_sync_confirmed_transactions env n _ _ w₂
    rw [hx] at hc
    cases hc
    have h₂ := (grows_search env hs).suffix.trans (grows_query env hq).suffix
    have h₃ : w₂.log <:+ _ := ⟨new, hl.log.symm⟩
    exact (h₂.trans h₃).trans (List.suffix_cons _ _)

theorem Iteration.suffix {env : Env} {n : Nat} {tip : BlockHash} {r : Except MutinyError Flow} {w w' : World}
    (h : Iteration env n tip w r w') : w.log <:+ w'.log := by
  have hm := moved_suffix w
  cases h with
  | idle _ => exact List.suffix_rfl
  | unconfirm_failed _ hu => exact hm.trans (unconfirms_of_exec env hu).suffix
  | announce_failed _ hu ha | announce_aborted _ hu ha =>
    exact (hm.trans (unconfirms_of_exec env hu).suffix).trans (grows_announce env ha).suffix
  | new_tip _ hu ha hr =>
    exact ((hm.trans (unconfirms_of_exec env hu).suffix).trans (grows_announce env ha).suffix).trans hr.suffix
  | same_tip _ _ hr => exact hm.trans hr.suffix

/-! ## Runs -/

/-- When the last call succeeded, every registration made before it of an item still watched was followed by a round
that completed against the recorded tip and looked the item up. -/
def Session.Covered (s : Session) : Prop :=
  ∀ before, s.Synced before → ∀ mid x rest, before = mid ++ .registered x :: rest → s.world.chain.Watched x →
    ∃ tip later, s.world.chain.last_sync_hash = some tip ∧ s.world.log = later ++ before ∧ x ∈ covered tip (later ++ mid)

def Call.tip : Call → Option BlockHash
  | .syncing _ tip_hash => some tip_hash
  | .resting _ => none

/-- An iteration that finds nothing to do has no unfinished iteration behind it. -/
def Finished (s : Session) (a : Act) : Prop :=
  a = .iterate → ∀ tip ∈ s.call.tip, Idle tip s.world → unfinished s.world.log = false

structure CoversInv (s : Session) : Prop where
  world : Covers s.world
  before : ∀ before tip, s.call = .syncing before tip → before <:+ s.world.log
  covered : s.Covered

theorem CoversInv.register {s : Session} (h : CoversInv s) (x : Registration) :
    CoversInv { s with world := s.world.register x } := by
  have hg : Grows Event.Arrival s.world (s.world.register x) := grows_register (fun x => ⟨x, rfl⟩) s.world x
  refine ⟨h.world.grows (fun _ => Event.Arrival.quiet) hg, fun b tip hc => (h.before b tip hc).trans hg.suffix, ?_⟩
  intro before hs mid y rest hb hy
  obtain ⟨tip, later, ht, hlog, hc⟩ := h.covered before hs mid y rest hb ((hg.watched y).mp hy)
  obtain ⟨new, hl, hn⟩ := hg.later
  have hs : ∀ e ∈ new, ∀ t, e ≠ .synced t := by
    rintro _ he t rfl
    obtain ⟨_, h⟩ := hn _ he
    cases h
  refine ⟨tip, new ++ later, hg.last.trans ht, ?_, ?_⟩
  · rw [List.append_assoc, ← hlog]
    exact hl.log
  · rwa [List.append_assoc, covered_append hs]

theorem Covers.returned {s : Session} {before : List Event} {tip : BlockHash} (h : Covers s.world)
    (hb : before <:+ s.world.log) (hi : Idle tip s.world) (hf : unfinished s.world.log = false) :
    ∀ mid x rest, before = mid ++ .registered x :: rest → s.world.chain.Watched x →
      ∃ tip later, s.world.chain.last_sync_hash = some tip ∧ s.world.log = later ++ before ∧
        x ∈ covered tip (later ++ mid) := by
  intro mid x rest hmid hx
  obtain ⟨tip, ht, hc⟩ := h.watched hf x hx
  obtain ⟨later, hlog⟩ := hb
  refine ⟨tip, later, ht, hlog.symm, ?_⟩
  -- the queues are empty, so the registration is older than the last move
  have hr : .registered x ∉ recent s.world.log := by
    intro hr
    have hq := h.pending x hr
    cases x with
    | tx txid => simp [MutinyChain.Queued, hi.1] at hq
    | output o => simp [MutinyChain.Queued, hi.2.1] at hq
  rw [← hlog, hmid, ← List.append_assoc] at hr hc
  exact covered_mono tip (recent_before hr nofun) hc

theorem CoversInv.step {env : Env} {n : Nat} {s : Session} {a : Act} {t : Session} (h : CoversInv s)
    (hf : Finished s a) (hs : chain_step env n s a = some t) : CoversInv t := by
  cases a with
  | register x => cases hs; exact h.register x
  | begin_sync =>
    obtain ⟨hg, hno, hb⟩ := begin_sync_step hs
    refine ⟨h.world.grows (fun _ => Event.Arrival.quiet) hg, fun before tip hc => ?_, fun before hs => ?_⟩
    · rw [hb before tip hc]
      exact hg.suffix
    · exact absurd hs (hno before)
  | iterate =>
    obtain ⟨before, tip, r, hc, hi, hok, hb⟩ := iterate_step hs
    refine ⟨h.world.iteration hi, fun before' tip' hc' => ?_, fun before' hs => ?_⟩
    · rw [hb before' tip' hc']
      exact (h.before before tip hc).trans hi.suffix
    · obtain ⟨rfl, hr⟩ := hok before' hs
      obtain ⟨hidle, hw⟩ := hi.idle_of_done hr
      rw [hw]
      exact h.world.returned (h.before before' tip hc) hidle (hf rfl tip (by rw [hc]; rfl) hidle)

theorem sync_covers (env : Env) (n : Nat) (as : List Act) (s : Session)
    (hf : (chain_machine env n).Along Finished .new as) (h : (chain_machine env n).run .new as = some s) :
    s.Covered := by
  have h₀ : CoversInv .new := ⟨Covers.new, fun _ _ h => (nomatch h), fun _ h => nomatch h⟩
  exact (Machine.run_invariant (I := CoversInv) (fun s a t h hf hs => h.step hf hs) h₀ hf h).covered

/-! ## A source to run on -/

/-- A chain of one block: every query succeeds, nothing is found and nothing arrives. -/
def steady (tip : BlockHash) : Env where
  get_tip_hash _ := .ok tip
  get_header_by_hash _ hash := .ok ⟨hash⟩
  get_block_status _ hash := .ok ⟨hash = tip, some 0⟩
  get_merkle_proof _ _ := .ok none
  get_block_hash _ _ := .ok tip
  get_tx _ _ := .ok none
  get_output_status _ _ _ := .ok none
  relevant _ _ := []
  arrivals _ := []
  iter _ _ l := l
  iter_perm _ _ _ := .refl _

theorem sync_covers_steady : ∃ s,
    (chain_machine (steady 1) 1).run .new [.register (.tx 5), .begin_sync, .iterate, .iterate] = some s ∧
      s.Synced [.registered (.tx 5)] ∧ s.world.chain.Watched (.tx 5) ∧ s.Covered := by
  have hr : (chain_machine (steady 1) 1).run .new [.register (.tx 5), .begin_sync, .iterate, .iterate] =
      some ⟨⟨⟨[], [5], [], [], some 1⟩, 6, [.synced 1, .looked_up (.tx 5), .round, .best_block_updated 0 ⟨1⟩ 0,
        .processed, .registered (.tx 5)]⟩, .resting (some ([.registered (.tx 5)], .ok ()))⟩ := rfl
  have hf : (chain_machine (steady 1) 1).Along Finished .new [.register (.tx 5), .begin_sync, .iterate, .iterate] :=
    .cons nofun rfl <| .cons nofun rfl <| .cons (fun _ _ _ _ => rfl) rfl <| .cons (fun _ _ _ _ => rfl) rfl trivial
  exact ⟨_, hr, rfl, List.mem_singleton_self 5, sync_covers (steady 1) 1 _ _ hf hr⟩

/-- `steady 1`, but the query with number 6 is not answered. -/
def flaky : Env :=
  { steady 1 with get_merkle_proof := fun k _ => if k = 6 then .error .failed else .ok none }

/-- The failed query restarts the loop after the queues were emptied, and the next iteration has nothing to do. -/
theorem sync_misses_registration : ∃ s before,
    (chain_machine flaky 1).run .new
        [.begin_sync, .iterate, .iterate, .register (.tx 5), .begin_sync, .iterate, .iterate] = some s ∧
      s.Synced before ∧ .registered (.tx 5) ∈ before ∧ s.world.chain.Watched (.tx 5) ∧
      .looked_up (.tx 5) ∉ s.world.log := by
  refine ⟨⟨⟨⟨[], [5], [], [], some 1⟩, 7, [.round, .processed, .registered (.tx 5), .synced 1, .round,
    .best_block_updated 0 ⟨1⟩ 0]⟩, .resting (some ([.registered (.tx 5), .synced 1, .round,
    .best_block_updated 0 ⟨1⟩ 0], .ok ()))⟩, _, rfl, rfl, List.mem_cons_self, List.mem_singleton_self 5,
    by decide⟩

/-! ## The confirmables are at the recorded block -/

/-- `best_block_updated` was called and no tip was recorded since. -/
def announced : List Event → Bool
  | [] => false
  | .synced _ :: _ => false
  | .best_block_updated _ _ _ :: _ => true
  | _ :: log => announced log

def last_header (c : Nat) : List Event → Option BlockHeader
  | [] => none
  | .best_block_updated c' header _ :: log => if c' = c then some header else last_header c log
  | _ :: log => last_header c log

/-- Events that neither announce nor record a block. -/
def Event.Silent : Event → Prop
  | .best_block_updated _ _ _ | .synced _ => False
  | _ => True

theorem last_header_silent {new : List Event} (h : ∀ e ∈ new, e.Silent) (c : Nat) (log : List Event) :
    last_header c (new ++ log) = last_header c log := by
  induction new with
  | nil => rfl
  | cons e new ih =>
    have hrest := ih fun e he => h e (by simp [he])
    have he := h e (by simp)
    cases e with
    | best_block_updated => cases he
    | _ => exact hrest

theorem announced_silent {new : List Event} (h : ∀ e ∈ new, e.Silent) (log : List Event) :
    announced (new ++ log) = announced log := by
  induction new with
  | nil => rfl
  | cons e new ih =>
    have hrest := ih fun e he => h e (by simp [he])
    have he := h e (by simp)
    cases e with
    | best_block_updated | synced => cases he
    | _ => exact hrest

theorem announced_of_mem {new : List Event} (h : ∀ e ∈ new, ∀ t, e ≠ .synced t) {c : Nat} {header : BlockHeader}
    {height : Nat} (hm : .best_block_updated c header height ∈ new) (log : List Event) :
    announced (new ++ log) = true := by
  induction new with
  | nil => cases hm
  | cons e new ih =>
    have hrest : .best_block_updated c header height ∈ new → announced (new ++ log) = true :=
      ih fun e he => h e (by simp [he])
    cases e with
    | synced t => exact absurd rfl (h _ (by simp) t)
    | best_block_updated => rfl
    | _ => exact hrest (by simpa using hm)

/-- When each confirmable of the list was told about `header` and nothing else, `header` is the last one. -/
theorem last_header_of_calls {l : List Nat} {new : List Event} {header : BlockHeader} {height : Nat}
    (h : Calls (fun c => .best_block_updated c header height) l new) {c : Nat} (hc : c ∈ l) (log : List Event) :
    last_header c (new ++ log) = some header := by
  have hm := h.each c hc
  have ho := h.only
  clear h
  induction new with
  | nil => cases hm
  | cons e new ih =>
    have hrest : .best_block_updated c header height ∈ new → last_header c (new ++ log) = some header :=
      fun hm => ih hm fun e he => ho e (by simp [he])
    rcases ho e (by simp) with ⟨x, rfl⟩ | ⟨c', _, rfl⟩
    · exact hrest (by simpa using hm)
    · by_cases hcc : c' = c
      · simp [last_header, hcc]
      · have hm' : .best_block_updated c header height ∈ new := by
          rcases List.mem_cons.mp hm with he | hm
          · cases he
            exact absurd rfl hcc
          · exact hm
        simpa [last_header, hcc] using hrest hm'

/-- Headers come back for the hash that was asked for, and blocks of the best chain come with a height. -/
structure Esplora.Headers (e : Esplora) : Prop where
  header : ∀ k hash header, e.get_header_by_hash k hash = .ok header → header.block_hash = hash
  height : ∀ k hash status, e.get_block_status k hash = .ok status → status.in_best_chain = true → status.height.isSome

/-- Every confirmable was last told about `tip`. -/
def Told (n : Nat) (tip : Option BlockHash) (log : List Event) : Prop :=
  ∀ c < n, (last_header c log).map (·.block_hash) = tip

def AtRecorded (n : Nat) (w : World) : Prop := announced w.log = false → Told n w.chain.last_sync_hash w.log

section
variable {n : Nat}

theorem Told.silent {tip : Option BlockHash} {new : List Event} (hn : ∀ e ∈ new, e.Silent) {log : List Event}
    (h : Told n tip log) : Told n tip (new ++ log) := by
  intro c hc
  rw [last_header_silent hn]
  exact h c hc

theorem AtRecorded.silent {new : List Event} (hn : ∀ e ∈ new, e.Silent) {w w' : World} (hl : Later new w w')
    (h : AtRecorded n w) : AtRecorded n w' := by
  intro ha
  rw [hl.log, announced_silent hn] at ha
  rw [hl.log, hl.last]
  exact (h ha).silent hn

theorem AtRecorded.moved {w : World} (h : AtRecorded n w) : AtRecorded n w.moved := by
  by_cases he : w.chain.queued_transactions = [] ∧ w.chain.queued_outputs = []
  · rwa [moved_of_empty he.1 he.2]
  · intro ha c hc
    rw [moved_log he] at ha ⊢
    rw [moved_last]
    exact h ha c hc

theorem AtRecorded.unconfirms {w w' : World} (hu : Unconfirms w w') (h : AtRecorded n w) : AtRecorded n w' := by
  obtain ⟨new, hl, hn, -⟩ := hu.later
  refine h.silent (fun e he => ?_) hl
  rcases hn e he with ⟨_, rfl⟩ | ⟨_, _, rfl⟩ <;> trivial

theorem AtRecorded.announce {w w' : World} (hg : Grows Event.Announce w w') (h : AtRecorded n w) :
    AtRecorded n w' := by
  obtain ⟨new, hl, hn⟩ := hg.later
  have hs : ∀ e ∈ new, ∀ t, e ≠ .synced t := by
    rintro _ he t rfl
    exact hn _ he
  by_cases hb : ∃ c header height, .best_block_updated c header height ∈ new
  · obtain ⟨c, header, height, hm⟩ := hb
    intro ha
    rw [hl.log, announced_of_mem hs hm] at ha
    cases ha
  · refine h.silent (fun e he => ?_) hl
    cases e with
    | best_block_updated c header height => exact hb ⟨c, header, height, he⟩
    | synced t => exact hs _ he t rfl
    | _ => trivial

theorem silent_search {env : Env} {r : Except MutinyError (List ConfirmedTx × List WatchedOutput)} {w w' : World}
    (h : (get_confirmed_transactions env).exec w = (r, w')) : ∃ new, Later new w w' ∧ ∀ e ∈ new, e.Silent := by
  obtain ⟨new, hl, hn⟩ := (grows_search env h).later
  refine ⟨new, hl, fun e he => ?_⟩
  have := hn e he
  cases e <;> trivial

theorem silent_query {env : Env} {α : Type} {answer : Nat → Except EsploraError α} {r : Except MutinyError α}
    {w w' : World} (h : (query env answer).exec w = (r, w')) : ∃ new, Later new w w' ∧ ∀ e ∈ new, e.Silent := by
  obtain ⟨new, hl, hn⟩ := (grows_query env h).later
  refine ⟨new, hl, fun e he => ?_⟩
  obtain ⟨_, rfl⟩ := hn e he
  trivial

theorem silent_confirm {env : Env} {txs : List ConfirmedTx} {spent : List WatchedOutput} {w w' : World}
    (h : (sync_confirmed_transactions env n txs spent).exec w = (.ok (), w')) :
    ∃ new, Later new w w' ∧ ∀ e ∈ new, e.Silent := by
  obtain ⟨_, hx, ⟨⟨new, hl, hn, -⟩, -⟩, -⟩ := exec_sync_confirmed_transactions env n txs spent w
  rw [hx] at h
  cases h
  refine ⟨new, hl, fun e he => ?_⟩
  rcases hn e he with ⟨_, rfl⟩ | ⟨_, _, _, rfl⟩ <;> trivial

theorem AtRecorded.round {env : Env} {tip : BlockHash} {r : Except MutinyError Flow} {w w' : World}
    (h : AtRecorded n w) (ht : Told n (some tip) w.log) (hr : Round env n tip w r w') : AtRecorded n w' := by
  cases hr with
  | failed hs | aborted hs =>
    obtain ⟨new, hl, hn⟩ := silent_search hs
    exact h.silent hn hl
  | no_tip hs hq | tip_changed hs hq _ =>
    obtain ⟨new₁, hl₁, hn₁⟩ := silent_search hs
    obtain ⟨new₂, hl₂, hn₂⟩ := silent_query hq
    exact (h.silent hn₁ hl₁).silent hn₂ hl₂
  | confirm_failed _ _ hc =>
    obtain ⟨_, hx, _⟩ := exec_sync_confirmed_transactions env n _ _ _
    rw [hx] at hc
    cases hc
  | completed hs hq hc =>
    obtain ⟨new₁, hl₁, hn₁⟩ := silent_search hs
    obtain ⟨new₂, hl₂, hn₂⟩ := silent_query hq
    obtain ⟨new₃, hl₃, hn₃⟩ := silent_confirm hc
    have h₃ := ((ht.silent hn₁).silent hn₂).silent hn₃
    rw [← hl₁.log, ← hl₂.log, ← hl₃.log] at h₃
    exact fun _ => h₃

theorem told_announced {env : Env} (he : env.Headers) {tip : BlockHash} {w w' : World}
    (h : (sync_best_block_updated env n tip).exec w = (.ok (), w')) : Told n (some tip) w'.log := by
  obtain ⟨header, w₁, h₁, h⟩ := exec_bind_eq_ok h
  obtain ⟨status, w₂, h₂, h⟩ := exec_bind_eq_ok h
  have hh : header.block_hash = tip := he.header _ _ _ (query_ok env h₁)
  have hs : status.in_best_chain = true → status.height.isSome := he.height _ _ _ (query_ok env h₂)
  by_cases hb : status.in_best_chain = true
  · obtain ⟨height, hheight⟩ := Option.isSome_iff_exists.mp (hs hb)
    simp only [hb, if_true, hheight] at h
    obtain ⟨new, w₃, hx, hl, hc, -⟩ := exec_callbacks env (e := fun c => .best_block_updated c header height)
      nofun (List.range n) w₂
    rw [hx] at h
    cases h
    intro c hcn
    rw [hl.log, last_header_of_calls hc (List.mem_range.mpr hcn), ← hh]
    rfl
  · simp only [hb] at h
    cases h

/-- An iteration takes up the recorded tip only when no other block was announced since it was recorded. -/
def Unannounced (s : Session) (a : Act) : Prop :=
  a = .iterate → ∀ tip ∈ s.call.tip, s.world.chain.last_sync_hash = some tip → announced s.world.log = false

theorem AtRecorded.iteration {env : Env} (he : env.Headers) {tip : BlockHash} {r : Except MutinyError Flow}
    {w w' : World} (h : AtRecorded n w) (ha : w.chain.last_sync_hash = some tip → announced w.log = false)
    (hi : Iteration env n tip w r w') : AtRecorded n w' := by
  cases hi with
  | idle _ => exact h
  | unconfirm_failed _ hu => exact h.moved.unconfirms (unconfirms_of_exec env hu)
  | announce_failed _ hu hb | announce_aborted _ hu hb =>
    exact (h.moved.unconfirms (unconfirms_of_exec env hu)).announce (grows_announce env hb)
  | new_tip _ hu hb hr =>
    exact ((h.moved.unconfirms (unconfirms_of_exec env hu)).announce (grows_announce env hb)).round
      (told_announced he hb) hr
  | same_tip hl _ hr =>
    refine h.moved.round ?_ hr
    have hm : announced w.moved.log = false := by
      unfold World.moved
      split <;> exact ha hl
    have ht := h.moved hm
    rwa [moved_last, hl] at ht

def Session.AtRecorded (n : Nat) (s : Session) : Prop :=
  ∀ before, s.Synced before → Told n s.world.chain.last_sync_hash s.world.log

structure AtRecordedInv (n : Nat) (s : Session) : Prop where
  world : Mutiny.AtRecorded n s.world
  returned : s.AtRecorded n

theorem AtRecordedInv.step {env : Env} (he : env.Headers) {s : Session} {a : Act} {t : Session}
    (h : AtRecordedInv n s) (ha : Unannounced s a) (hs : chain_step env n s a = some t) : AtRecordedInv n t := by
  have hq : ∀ {w w' : World}, Grows Event.Arrival w w' → ∃ new, Later new w w' ∧ ∀ e ∈ new, e.Silent := by
    intro w w' hg
    obtain ⟨new, hl, hn⟩ := hg.later
    refine ⟨new, hl, fun e he => ?_⟩
    obtain ⟨_, rfl⟩ := hn e he
    trivial
  cases a with
  | register x =>
    cases hs
    obtain ⟨new, hl, hn⟩ := hq (grows_register (P := Event.Arrival) (fun x => ⟨x, rfl⟩) s.world x)
    refine ⟨h.world.silent hn hl, fun before hs => ?_⟩
    show Told n (s.world.register x).chain.last_sync_hash (s.world.register x).log
    rw [hl.last, hl.log]
    exact (h.returned before hs).silent hn
  | begin_sync =>
    obtain ⟨hg, hno, -⟩ := begin_sync_step hs
    obtain ⟨new, hl, hn⟩ := hq hg
    exact ⟨h.world.silent hn hl, fun before hs => absurd hs (hno before)⟩
  | iterate =>
    obtain ⟨before, tip, r, hc, hi, hok, -⟩ := iterate_step hs
    have ha' : s.world.chain.last_sync_hash = some tip → announced s.world.log = false :=
      ha rfl tip (by rw [hc]; rfl)
    refine ⟨h.world.iteration he ha' hi, fun before' hs => ?_⟩
    obtain ⟨hidle, hw⟩ := hi.idle_of_done (hok before' hs).2
    rw [hw]
    exact h.world (ha' hidle.2.2)

end

theorem sync_announces (env : Env) (he : env.Headers) (n : Nat) (as : List Act) (s : Session)
    (ha : (chain_machine env n).Along Unannounced .new as) (h : (chain_machine env n).run .new as = some s) :
    s.AtRecorded n := by
  have h₀ : AtRecordedInv n .new := ⟨fun _ c _ => rfl, fun _ h => nomatch h⟩
  exact (Machine.run_invariant (I := AtRecordedInv n) (fun s a t h ha hs => h.step he ha hs) h₀ ha h).returned

theorem sync_announces_steady : ∃ s,
    (chain_machine (steady 1) 2).run .new [.begin_sync, .iterate, .iterate] = some s ∧ s.Synced [] ∧
      s.AtRecorded 2 := by
  have hr : (chain_machine (steady 1) 2).run .new [.begin_sync, .iterate, .iterate] =
      some ⟨⟨⟨[], [], [], [], some 1⟩, 6, [.synced 1, .round, .best_block_updated 1 ⟨1⟩ 0,
        .best_block_updated 0 ⟨1⟩ 0]⟩, .resting (some ([], .ok ()))⟩ := rfl
  have ha : (chain_machine (steady 1) 2).Along Unannounced .new [.begin_sync, .iterate, .iterate] :=
    .cons nofun rfl <| .cons (fun _ _ _ _ => rfl) rfl <| .cons (fun _ _ _ _ => rfl) rfl trivial
  have he : (steady 1).Headers := by
    refine ⟨fun k hash header h => ?_, fun k hash status h _ => ?_⟩ <;> (cases h; rfl)
  exact ⟨_, hr, rfl, sync_announces (steady 1) he 2 _ _ ha hr⟩

/-- `steady 1`, but the tip is 2 when query 5 asks for it and 1 at every other time. -/
def flipping : Env :=
  { steady 1 with
    get_tip_hash := fun k => .ok (if k = 5 then 2 else 1)
    get_block_status := fun _ _ => .ok ⟨true, some 0⟩ }

theorem sync_announces_other_block : ∃ s,
    (chain_machine flipping 1).run .new [.begin_sync, .iterate, .iterate, .begin_sync, .iterate, .iterate] = some s ∧
      (∃ before, s.Synced before) ∧ s.world.chain.last_sync_hash = some 1 ∧
      last_header 0 s.world.log = some ⟨2⟩ := by
  refine ⟨⟨⟨⟨[], [], [], [], some 1⟩, 10, [.round, .best_block_updated 0 ⟨2⟩ 0, .synced 1, .round,
    .best_block_updated 0 ⟨1⟩ 0]⟩, .resting (some ([.synced 1, .round, .best_block_updated 0 ⟨1⟩ 0], .ok ()))⟩,
    rfl, ⟨_, rfl⟩, rfl, rfl⟩

end Mutiny
