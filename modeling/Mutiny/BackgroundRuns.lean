import Mutiny.Background
import Mutiny.Browser

/-!
# What the background processor keeps

The manager in the storage is the one in memory, as far as the browser takes the writes; and the processor returns only
while no wait has run out.
-/

namespace Mutiny

open Prog

namespace Background

section
variable {M : Type} [Serde String] [Serde (List UInt8)] (cfg : Config M)

/-! ## What is stored of the manager -/

/-- What a node that is opened from this storage reads for its manager. -/
def stored (store : Store) : Except (Fault MutinyError) (List UInt8) :=
  (exec (cfg.persister.read_value cfg.host "manager") store).1

def Call.accepted : Call → Option Bool
  | .persist_manager accepted => some accepted
  | _ => none

/-- The manager was persisted, and the last time the browser took the write. -/
def last_saved (log : List Call) : Bool := (log.filterMap Call.accepted).getLast? = some true

def Saved (s : Processor M) : Prop :=
  last_saved s.log = true → s.update = false → stored cfg s.store = .ok (cfg.encode s.manager)

variable {cfg} {s : Processor M}

theorem stored_congr {store store' : Store} (h : store.items.lookup cfg.key = store'.items.lookup cfg.key) :
    stored cfg store = stored cfg store' := by
  unfold stored MutinyNodePersister.read_value convert
  rw [exec_map_error, exec_map_error, exec_get, exec_get]
  unfold Config.key at h
  rw [h]

theorem outcome_persist (key : String) (object : List UInt8) (store : Store) :
    outcome (cfg.persister.persist cfg.host key object) store =
      if cfg.host.refuses store.writes then (false, { store with writes := store.writes + 1 })
      else (true, ⟨store.items.insert (cfg.persister.get_key key)
        (cfg.persister.storage.encode cfg.host store.writes object), store.writes + 1⟩) := by
  have h := exec_convert_set cfg.host cfg.persister.storage (cfg.persister.get_key key) IoError.other object store
  by_cases hr : cfg.host.refuses store.writes = true
  · rw [if_pos hr] at h ⊢
    exact outcome_of_error h
  · rw [if_neg hr] at h ⊢
    exact outcome_of_ok h

theorem lookup_persist {key : String} (hk : key ≠ "manager") (object : List UInt8) (s : Processor M) :
    (s.persist cfg key object).2.store.items.lookup cfg.key = s.store.items.lookup cfg.key := by
  have hne : cfg.key ≠ cfg.persister.get_key key := fun h => hk (get_key_injective _ h.symm)
  unfold Processor.persist
  rw [outcome_persist]
  by_cases hr : cfg.host.refuses s.store.writes = true
  · rw [if_pos hr]
  · rw [if_neg hr]
    exact AList.lookup_insert_ne hne

omit [Serde String] [Serde (List UInt8)] in
theorem last_saved_snoc {log : List Call} {call : Call} (h : call.accepted = none) :
    last_saved (log ++ [call]) = last_saved log := by
  simp [last_saved, h]

theorem Saved.congr {t : Processor M} (h : Saved cfg s) (hl : last_saved t.log = last_saved s.log)
    (hu : t.update = s.update) (hm : t.manager = s.manager)
    (hs : t.store.items.lookup cfg.key = s.store.items.lookup cfg.key) : Saved cfg t := by
  intro hsaved hupdate
  rw [stored_congr hs, hm]
  exact h (hl ▸ hsaved) (hu ▸ hupdate)

theorem Saved.note (h : Saved cfg s) {call : Call} (hc : call.accepted = none) : Saved cfg (s.note call) :=
  h.congr (last_saved_snoc hc) rfl rfl rfl

theorem Saved.apply (h : Saved cfg s) (e : Effect M cfg.key) : Saved cfg (s.apply e) := by
  intro hsaved hupdate
  obtain ⟨hu, ha⟩ : s.update = false ∧ e.announced = false := by simpa [Processor.apply] using hupdate
  unfold Processor.apply
  rw [e.silent ha, stored_congr (e.keeps s.store)]
  exact h hsaved hu

theorem Saved.persist (h : Saved cfg s) {key : String} (hk : key ≠ "manager") (object : List UInt8) :
    Saved cfg (s.persist cfg key object).2 :=
  h.congr rfl rfl rfl (lookup_persist hk object s)

variable (cfg) in
theorem saved_persist_manager (s : Processor M) : Saved cfg (s.persist_manager cfg) := by
  intro hsaved _
  unfold Processor.persist_manager Processor.persist Processor.note at hsaved ⊢
  rw [outcome_persist] at hsaved ⊢
  by_cases hr : cfg.host.refuses s.store.writes = true
  · rw [if_pos hr] at hsaved
    simp [last_saved, Call.accepted] at hsaved
  · rw [if_neg hr]
    unfold stored MutinyNodePersister.read_value convert
    rw [exec_map_error, exec_get, AList.lookup_insert]
    dsimp only
    rw [decode_encode]
    rfl

theorem Saved.persist_graph (h : Saved cfg s) (objects : Objects) : Saved cfg (s.persist_graph cfg objects) :=
  (h.persist (by decide) _).note rfl

theorem Saved.persist_scorer (h : Saved cfg s) (objects : Objects) : Saved cfg (s.persist_scorer cfg objects) := by
  unfold Processor.persist_scorer
  split
  · exact (h.persist (by decide) _).note rfl
  · exact h

theorem Saved.check_freshness (h : Saved cfg s) (r : Readings) (tick : Effect M cfg.key) :
    Saved cfg (s.check_freshness r tick) := by
  unfold Processor.check_freshness
  split
  · exact ((h.apply tick).note rfl).congr rfl rfl rfl rfl
  · exact h

theorem Saved.check_ping (h : Saved cfg s) (waited : ℚ) (r : Readings) (peers : Effect M cfg.key) :
    Saved cfg (s.check_ping waited r peers) := by
  unfold Processor.check_ping
  split
  · exact ((h.apply peers).note rfl).congr rfl rfl rfl rfl
  · split
    · exact ((h.apply peers).note rfl).congr rfl rfl rfl rfl
    · exact h

theorem Saved.check_prune (h : Saved cfg s) (r : Readings) (objects : Objects) (complete : Bool) :
    Saved cfg (s.check_prune cfg r objects complete) := by
  have hn : Saved cfg (s.note (.remove_stale_channels r.prune_call)) := h.note rfl
  unfold Processor.check_prune
  split
  · split
    · exact (hn.persist_graph objects).congr rfl rfl rfl rfl
    · exact h
  · exact h

theorem Saved.check_scorer (h : Saved cfg s) (r : Readings) (objects : Objects) :
    Saved cfg (s.check_scorer cfg r objects) := by
  unfold Processor.check_scorer
  split
  · exact ((h.persist_scorer objects).note rfl).congr rfl rfl rfl rfl
  · exact h

theorem saved_finish (s : Processor M) (objects : Objects) : Saved cfg (s.finish cfg objects) := by
  have h := (saved_persist_manager cfg s).persist_scorer objects
  unfold Processor.finish
  dsimp only
  split
  · exact ((h.persist_graph objects).note rfl).congr rfl rfl rfl rfl
  · exact (h.note rfl).congr rfl rfl rfl rfl

theorem Saved.exit_check (h : Saved cfg s) (waited : ℚ) (objects : Objects) :
    Saved cfg (s.exit_check cfg waited objects) := by
  unfold Processor.exit_check
  split
  · exact saved_finish s objects
  · exact h.congr rfl rfl rfl rfl

theorem Saved.step {a : Act M cfg.key} {t : Processor M} (h : Saved cfg s) (hst : Stepped s a t) : Saved cfg t := by
  cases hst with
  | start tick _ _ _ _ => exact ((h.apply tick).note rfl).congr rfl rfl rfl rfl
  | other task => exact h.apply task
  | process events => exact (h.apply events).congr rfl rfl rfl rfl
  | update await_start await_time objects =>
    exact (saved_persist_manager cfg _).exit_check _ objects
  | sleep await_start await_time objects =>
    have hs : Saved cfg { s with now := await_time, should_break := cfg.exit } := h.congr rfl rfl rfl rfl
    exact (hs.note rfl).exit_check _ objects
  | timers waited r tick peers objects complete =>
    have hc := (((h.check_freshness r tick).check_ping waited r peers).check_prune r objects complete).check_scorer r objects
    exact (hc.note rfl).congr rfl rfl rfl rfl

/-! ## Looking at the timers there is no update left -/

/-- With the timers before it, the processor has taken every update. -/
def Taken (s : Processor M) : Prop := ∀ waited, s.pc = .timers waited → s.update = false

omit [Serde String] [Serde (List UInt8)] in
theorem Taken.of_pc (h : ∀ waited, s.pc ≠ .timers waited) : Taken s := fun waited hpc => absurd hpc (h waited)

theorem taken_exit_check (hu : s.update = false) (waited : ℚ) (objects : Objects) :
    Taken (s.exit_check cfg waited objects) := by
  unfold Processor.exit_check
  split
  · refine .of_pc fun waited => ?_
    simp [Processor.finish]
  · exact fun _ _ => hu

theorem taken_step {a : Act M cfg.key} {t : Processor M} (hst : Stepped s a t) : Taken t := by
  cases hst with
  | start => exact .of_pc fun waited => by simp [Processor.started]
  | other task hr ht => exact .of_pc ht
  | process => exact .of_pc fun waited => by simp
  | update => exact taken_exit_check rfl _ _
  | sleep await_start await_time objects hpc hu =>
    refine taken_exit_check ?_ _ _
    exact hu
  | timers => exact .of_pc fun waited => by simp [Processor.check_timers]

/-- As nobody but the processor writes under the key of the manager (`Effect.keeps`): whenever its last write was taken,
what a node opened from the storage would read is the manager as it is now, unless LDK has announced an update that the
processor is yet to take; and past a wait there is no such update. -/
theorem manager_saved {manager : M} {update : Bool} {store : Store} {now : ℚ} {acts : List (Act M cfg.key)}
    {t : Processor M} (h : (machine cfg).run (.new manager update store now) acts = some t)
    (hsaved : last_saved t.log = true) : (t.update = false → stored cfg t.store = .ok (cfg.encode t.manager)) ∧
      ∀ waited, t.pc = .timers waited → stored cfg t.store = .ok (cfg.encode t.manager) := by
  obtain ⟨hs, ht⟩ := Machine.invariant (I := fun s => Saved cfg s ∧ Taken s) (fun s a t hI hst =>
      ⟨hI.1.step (stepped_of_step hst), taken_step (stepped_of_step hst)⟩)
    ⟨fun hsaved => by simp [Processor.new, last_saved] at hsaved, .of_pc fun waited => by simp [Processor.new]⟩ h
  exact ⟨hs hsaved, fun waited hpc => hs hsaved (ht waited hpc)⟩

end

/-- Nothing happens. -/
def Effect.idle (M : Type) (key : String) : Effect M key := ⟨id, false, id, fun _ => rfl, fun _ => rfl⟩

/-- The manager is its own encoding. -/
def sample_config : Config (List UInt8) := node_config open_host ⟨"node", ⟨""⟩⟩ id

section
attribute [local instance] string_serde bytes_serde

/-- A channel is added while events are handled. -/
def channel_added : List (Act (List UInt8) sample_config.key) :=
  [.start (.idle _ _) 1 1 1 1, .process ⟨fun m => 7 :: m, true, id, (fun h => by cases h), fun _ => rfl⟩ 2,
    .update 3 ⟨[], []⟩]

theorem channel_saved : ∃ t, (machine sample_config).run (.new [] false ⟨∅, 0⟩ 0) channel_added = some t ∧
    last_saved t.log = true ∧ t.update = false ∧ t.manager = [7] ∧ stored sample_config t.store = .ok t.manager := by
  have hrun : (machine sample_config).run (.new [] false ⟨∅, 0⟩ 0) channel_added = some _ := rfl
  have hsaved := manager_saved hrun (by decide)
  exact ⟨_, hrun, by decide, rfl, rfl, hsaved.1 rfl⟩

end

section
variable {M : Type} [Serde String] [Serde (List UInt8)] {cfg : Config M} {s : Processor M}

/-! ## What is added to the log -/

def Adds (P : Call → Prop) (s t : Processor M) : Prop := ∃ calls, t.log = s.log ++ calls ∧ ∀ c ∈ calls, P c

section
omit [Serde String] [Serde (List UInt8)]
variable {P : Call → Prop} {t u : Processor M}

theorem Adds.refl (s : Processor M) : Adds P s s := ⟨[], by simp⟩

theorem Adds.of_log (h : t.log = s.log) : Adds P s t := ⟨[], by simp [h]⟩

theorem Adds.trans (h : Adds P s t) (h' : Adds P t u) : Adds P s u := by
  obtain ⟨calls, hl, hall⟩ := h
  obtain ⟨calls', hl', hall'⟩ := h'
  refine ⟨calls ++ calls', by rw [hl', hl, List.append_assoc], ?_⟩
  intro c hc
  exact (List.mem_append.mp hc).elim (hall c) (hall' c)

theorem Adds.note (h : Adds P s t) (call : Call) (hc : P call) : Adds P s (t.note call) :=
  h.trans ⟨[call], rfl, by simpa using hc⟩

end

/-- The calls of the timers. -/
def Call.Timed : Call → Prop
  | .persist_graph | .persist_scorer | .manager_tick _ | .disconnect_all_peers _ | .peer_tick _
  | .remove_stale_channels _ | .scorer_due _ | .passed _ _ => True
  | _ => False

theorem adds_persist_graph (objects : Objects) : Adds Call.Timed s (s.persist_graph cfg objects) :=
  (Adds.of_log rfl).note _ trivial

theorem adds_persist_scorer (objects : Objects) : Adds Call.Timed s (s.persist_scorer cfg objects) := by
  unfold Processor.persist_scorer
  split
  · exact (Adds.of_log rfl).note _ trivial
  · exact .refl s

/-- What the four checks of a pass add. -/
theorem adds_look {P : Call → Prop} (hf : ∀ time, P (.manager_tick time)) (hd : ∀ time, P (.disconnect_all_peers time))
    (hp : ∀ time, P (.peer_tick time)) (hr : ∀ time, P (.remove_stale_channels time)) (hg : P .persist_graph)
    (hs : P .persist_scorer) (hc : ∀ time, P (.scorer_due time)) (s : Processor M) (waited : ℚ) (r : Readings)
    (tick peers : Effect M cfg.key) (objects : Objects) (complete : Bool) :
    Adds P s (s.look cfg waited r tick peers objects complete) := by
  have hfresh : Adds P s (s.check_freshness r tick) := by
    unfold Processor.check_freshness
    split
    · exact ⟨[_], rfl, by simpa using hf _⟩
    · exact .refl s
  have hping : ∀ s : Processor M, Adds P s (s.check_ping waited r peers) := by
    intro s
    unfold Processor.check_ping
    split
    · exact ⟨[_], rfl, by simpa using hd _⟩
    · split
      · exact ⟨[_], rfl, by simpa using hp _⟩
      · exact .refl s
  have hprune : ∀ s : Processor M, Adds P s (s.check_prune cfg r objects complete) := by
    intro s
    unfold Processor.check_prune
    split
    · split
      · exact ⟨[.remove_stale_channels r.prune_call, .persist_graph],
          by simp [Processor.persist_graph, Processor.persist, Processor.note], by simpa using ⟨hr _, hg⟩⟩
      · exact .refl s
    · exact .refl s
  have hscorer : ∀ s : Processor M, Adds P s (s.check_scorer cfg r objects) := by
    intro s
    unfold Processor.check_scorer Processor.persist_scorer
    split
    · split
      · exact ⟨[.persist_scorer, .scorer_due r.scorer_call], by simp [Processor.persist, Processor.note],
          by simpa using ⟨hs, hc _⟩⟩
      · exact ⟨[_], rfl, by simpa using hc _⟩
    · exact .refl s
  exact ((hfresh.trans (hping _)).trans (hprune _)).trans (hscorer _)

theorem adds_check_timers (waited : ℚ) (r : Readings) (tick peers : Effect M cfg.key) (objects : Objects)
    (complete : Bool) : Adds Call.Timed s (s.check_timers cfg waited r tick peers objects complete) := by
  have h : Adds Call.Timed s (s.look cfg waited r tick peers objects complete) := adds_look (fun _ => trivial)
    (fun _ => trivial) (fun _ => trivial) (fun _ => trivial) trivial trivial (fun _ => trivial) ..
  exact (h.note (.passed r.freshness r.scorer_call) trivial).trans (.of_log rfl)

/-! ## When the processor returns -/

def Call.is_persist : Call → Bool
  | .persist_manager _ => true
  | _ => false

/-- The updates before the first sleep that completed. -/
def early_updates (log : List Call) : Nat := (log.takeWhile (· != .slept)).count .updated

omit [Serde String] [Serde (List UInt8)] in
theorem countP_timed {calls : List Call} (h : ∀ c ∈ calls, c.Timed) : calls.countP Call.is_persist = 0 := by
  rw [List.countP_eq_zero]
  intro c hc hp
  have ht := h c hc
  cases c with
  | persist_manager => exact ht
  | _ => cases hp

/-- For a `sleeper` that never asks for the exit. -/
structure Counted (s : Processor M) : Prop where
  returns : s.log.count .returned = early_updates s.log
  persists : s.log.countP Call.is_persist = s.log.count .updated + s.log.count .returned
  breaks : s.pc ≠ .returned → (s.should_break = true ↔ .slept ∉ s.log)
  awake : s.pc = .returned → .slept ∉ s.log

omit [Serde String] [Serde (List UInt8)] in
theorem early_append_of_mem {log : List Call} (h : .slept ∈ log) (calls : List Call) :
    early_updates (log ++ calls) = early_updates log := by
  unfold early_updates
  congr 1
  induction log with
  | nil => cases h
  | cons c log ih =>
    by_cases hc : c = .slept
    · simp [hc]
    · have hmem : .slept ∈ log := (List.mem_cons.mp h).resolve_left fun he => hc he.symm
      simp [hc, ih hmem]

omit [Serde String] [Serde (List UInt8)] in
theorem early_append_of_not_mem {log : List Call} (h : .slept ∉ log) (calls : List Call) :
    early_updates (log ++ calls) = log.count .updated + early_updates calls := by
  unfold early_updates
  rw [List.takeWhile_append_of_pos, List.count_append]
  intro c hc
  simpa using fun he : c = .slept => h (he ▸ hc)

omit [Serde String] [Serde (List UInt8)] in
theorem early_of_not_mem {log : List Call} (h : .slept ∉ log) : early_updates log = log.count .updated := by
  have happ := early_append_of_not_mem h []
  rwa [List.append_nil] at happ

omit [Serde String] [Serde (List UInt8)] in
theorem Counted.timed {t : Processor M} (h : Counted s) (ht : Adds Call.Timed s t) (hs : s.pc ≠ .returned)
    (hpc : t.pc ≠ .returned) (hb : t.should_break = s.should_break) : Counted t := by
  obtain ⟨calls, hl, hall⟩ := ht
  have hnot : ∀ c, ¬ c.Timed → c ∉ calls := fun c hc hmem => hc (hall c hmem)
  have hr := List.count_eq_zero_of_not_mem (hnot .returned id)
  have hu := List.count_eq_zero_of_not_mem (hnot .updated id)
  have hslept : .slept ∈ t.log ↔ .slept ∈ s.log := by simp [hl, hnot .slept id]
  have hpersist := countP_timed hall
  have hearly : early_updates t.log = early_updates s.log := by
    rw [hl]
    by_cases hm : .slept ∈ s.log
    · exact early_append_of_mem hm calls
    · have htail : early_updates calls = 0 := Nat.le_zero.mp (hu ▸ (List.takeWhile_sublist _).count_le _)
      rw [early_append_of_not_mem hm, htail, early_of_not_mem hm, Nat.add_zero]
  refine ⟨?_, ?_, fun _ => ?_, fun he => absurd he hpc⟩
  · rw [hearly, hl, List.count_append, hr, h.returns, Nat.add_zero]
  · rw [hl, List.countP_append, List.count_append, List.count_append, hr, hu, hpersist]
    exact h.persists
  · rw [hb, hslept]
    exact h.breaks hs

omit [Serde String] [Serde (List UInt8)] in
theorem Counted.congr {t : Processor M} (h : Counted s) (hl : t.log = s.log) (hb : t.should_break = s.should_break)
    (hs : s.pc ≠ .returned) (hpc : t.pc ≠ .returned) : Counted t :=
  ⟨by rw [hl]; exact h.returns, by rw [hl]; exact h.persists, fun _ => by rw [hl, hb]; exact h.breaks hs,
    fun he => absurd he hpc⟩

theorem should_break_check_timers (waited : ℚ) (r : Readings) (tick peers : Effect M cfg.key) (objects : Objects)
    (complete : Bool) : (s.check_timers cfg waited r tick peers objects complete).should_break = s.should_break := by
  simp only [Processor.check_timers, Processor.look, Processor.check_scorer, Processor.check_prune, Processor.check_ping,
    Processor.check_freshness, Processor.persist_scorer, Processor.persist_graph, Processor.persist, Processor.note,
    Processor.apply]
  split_ifs <;> rfl

variable (cfg) in
theorem log_finish (s : Processor M) (objects : Objects) : ∃ accepted calls,
    (s.finish cfg objects).log = s.log ++ .persist_manager accepted :: (calls ++ [.returned]) ∧ ∀ c ∈ calls, c.Timed := by
  obtain ⟨accepted, hm⟩ : ∃ accepted, (s.persist_manager cfg).log = s.log ++ [.persist_manager accepted] := ⟨_, rfl⟩
  obtain ⟨calls, hl, hall⟩ : Adds Call.Timed (s.persist_manager cfg)
      (let t := (s.persist_manager cfg).persist_scorer cfg objects
        if cfg.gossip_sync.network_graph then t.persist_graph cfg objects else t) := by
    dsimp only
    split
    · exact (adds_persist_scorer objects).trans (adds_persist_graph objects)
    · exact adds_persist_scorer objects
  refine ⟨accepted, calls, ?_, hall⟩
  have hn : (s.finish cfg objects).log = (let t := (s.persist_manager cfg).persist_scorer cfg objects
      if cfg.gossip_sync.network_graph then t.persist_graph cfg objects else t).log ++ [.returned] := rfl
  rw [hn, hl, hm]
  simp

variable (cfg) in
/-- What a return adds to the counts. -/
theorem counts_finish (s : Processor M) (objects : Objects) (hawake : .slept ∉ s.log) :
    let t := s.finish cfg objects
    t.log.count .returned = s.log.count .returned + 1 ∧ t.log.count .updated = s.log.count .updated ∧
      t.log.countP Call.is_persist = s.log.countP Call.is_persist + 1 ∧ .slept ∉ t.log := by
  obtain ⟨accepted, calls, hl, hall⟩ := log_finish cfg s objects
  have hnot : ∀ c, ¬ c.Timed → c ∉ calls := fun c hc hmem => hc (hall c hmem)
  have hr := List.count_eq_zero_of_not_mem (hnot .returned id)
  have hu := List.count_eq_zero_of_not_mem (hnot .updated id)
  have hp : calls.countP Call.is_persist = 0 := countP_timed hall
  dsimp only
  rw [hl]
  refine ⟨?_, ?_, ?_, ?_⟩
  · simp [hr]
  · simp [hu]
  · simp [List.countP_cons, hp, Call.is_persist]
  · simp [hawake, hnot .slept id]

omit [Serde String] [Serde (List UInt8)] in
theorem Counted.started (h : Counted s) (hpc : s.pc = .returned) {key : String} (tick : Effect M key)
    (freshness ping prune scorer : ℚ) : Counted (s.started tick freshness ping prune scorer) := by
  have hlog : (s.started tick freshness ping prune scorer).log = s.log ++ [.started freshness ping prune scorer] := rfl
  have hawake := h.awake hpc
  have hreturns := h.returns
  rw [early_of_not_mem hawake] at hreturns
  have hslept : .slept ∉ (s.started tick freshness ping prune scorer).log := by simp [hlog, hawake]
  refine ⟨?_, ?_, fun _ => ⟨fun _ => hslept, fun _ => rfl⟩, fun he => by cases he⟩
  · rw [early_of_not_mem hslept, hlog]
    simpa using hreturns
  · rw [hlog]
    simpa [Call.is_persist] using h.persists

variable (cfg) in
theorem log_woken (s : Processor M) : ∃ accepted,
    (s.woken_by_update cfg).log = s.log ++ [.updated, .persist_manager accepted] := by
  refine ⟨(({ s.note .updated with update := false } : Processor M).persist cfg "manager" (cfg.encode s.manager)).1, ?_⟩
  simp [Processor.woken_by_update, Processor.persist_manager, Processor.persist, Processor.note]

theorem Counted.update (h : Counted s) (hpc : s.pc ≠ .returned) (waited : ℚ) (objects : Objects) :
    Counted ((s.woken_by_update cfg).exit_check cfg waited objects) := by
  have hbreaks := h.breaks hpc
  have hpersists := h.persists
  obtain ⟨accepted, hl⟩ := log_woken cfg s
  have hb : (s.woken_by_update cfg).should_break = s.should_break := rfl
  unfold Processor.exit_check
  rw [hb]
  by_cases hbreak : s.should_break = true
  · have hawake := hbreaks.mp hbreak
    have hreturns := h.returns
    rw [early_of_not_mem hawake] at hreturns
    have hwoken : .slept ∉ (s.woken_by_update cfg).log := by simp [hl, hawake]
    obtain ⟨hr, hu, hp, hslept⟩ := counts_finish cfg (s.woken_by_update cfg) objects hwoken
    rw [if_pos hbreak]
    refine ⟨?_, ?_, fun he => absurd rfl he, fun _ => hslept⟩
    · rw [early_of_not_mem hslept, hr, hu, hl]
      simp [hreturns]
    · rw [hp, hr, hu, hl]
      simp only [List.countP_append, List.count_append, List.countP_cons, List.count_cons, Call.is_persist]
      simp
      omega
  · have hasleep : .slept ∈ s.log := by simpa [hbreak] using hbreaks
    rw [if_neg hbreak]
    refine ⟨?_, ?_, fun _ => by simp [hl, hbreak, hasleep], fun he => by cases he⟩
    · rw [hl, early_append_of_mem hasleep, ← h.returns]
      simp
    · rw [hl]
      simp only [List.countP_append, List.count_append, List.countP_cons, List.count_cons, Call.is_persist]
      simp
      omega

omit [Serde String] [Serde (List UInt8)] in
theorem Counted.slept (h : Counted s) (waited : ℚ) :
    Counted { { s with should_break := false }.note .slept with pc := .timers waited } := by
  refine ⟨?_, ?_, fun _ => by simp [Processor.note], fun he => by cases he⟩
  · simp only [Processor.note]
    by_cases hm : .slept ∈ s.log
    · rw [early_append_of_mem hm, ← h.returns]
      simp
    · rw [early_append_of_not_mem hm, ← early_of_not_mem hm, ← h.returns]
      simp [early_updates]
  · simpa [Processor.note, Call.is_persist] using h.persists

theorem Counted.step (hexit : cfg.exit = false) (h : Counted s) {a : Act M cfg.key} {t : Processor M}
    (hst : Stepped s a t) : Counted t := by
  cases hst with
  | start tick freshness ping prune scorer hpc => exact h.started hpc tick freshness ping prune scorer
  | other task hr => exact h.congr rfl rfl hr hr
  | process events _ hpc => exact h.congr rfl rfl (by simp [hpc]) (by simp)
  | update await_start await_time objects hpc =>
    have hs : s.pc ≠ .returned := by simp [hpc]
    have hn : Counted { s with now := await_time } := h.congr rfl rfl hs hs
    exact hn.update hs _ objects
  | sleep await_start await_time objects hpc =>
    have hs : s.pc ≠ .returned := by simp [hpc]
    have hn : Counted { s with now := await_time } := h.congr rfl rfl hs hs
    unfold Processor.exit_check
    rw [hexit, if_neg (by simp [Processor.note])]
    exact hn.slept _
  | timers waited r tick peers objects complete hpc =>
    exact h.timed (adds_check_timers waited r tick peers objects complete) (by simp [hpc])
      (by simp [Processor.check_timers]) (should_break_check_timers ..)

/-- `should_break` starts out true, so the processor of a node returns at every update before its first completed sleep.
After that sleep it never returns again. It persists the manager once for each update, and once more for each return. -/
theorem returns_before_sleep (host : Host) (persister : MutinyNodePersister) (encode : M → List UInt8) {manager : M}
    {update : Bool} {store : Store} {now : ℚ} {acts : List (Act M (node_config host persister encode).key)}
    {t : Processor M} (h : (machine (node_config host persister encode)).run (.new manager update store now) acts = some t) :
    t.log.count .returned = early_updates t.log ∧
      t.log.countP Call.is_persist = t.log.count .updated + t.log.count .returned := by
  have hc : Counted t := Machine.invariant (fun s a t hI hst => hI.step rfl (stepped_of_step hst))
    ⟨rfl, rfl, fun hne => absurd rfl hne, fun _ => by simp [Processor.new]⟩ h
  exact ⟨hc.returns, hc.persists⟩

end

section
attribute [local instance] string_serde bytes_serde

/-- The update of the channel comes before a sleep has completed. The processor is called again, sleeps, and takes the
next update without returning. -/
def channel_twice : List (Act (List UInt8) sample_config.key) :=
  channel_added ++ [.start (.idle _ _) 4 4 4 4, .process (.idle _ _) 5, .sleep 105 ⟨[], []⟩,
    .timers (.at 105) (.idle _ _) (.idle _ _) ⟨[], []⟩ false,
    .process ⟨fun m => 8 :: m, true, id, (fun h => by cases h), fun _ => rfl⟩ 106, .update 107 ⟨[], []⟩]

theorem channel_returns : ∃ t, (machine sample_config).run (.new [] false ⟨∅, 0⟩ 0) channel_twice = some t ∧
    .slept ∈ t.log ∧ t.log.count .updated = 2 ∧ t.log.count .returned = 1 ∧ t.log.countP Call.is_persist = 3 := by
  have hrun : (machine sample_config).run (.new [] false ⟨∅, 0⟩ 0) channel_twice = some _ := rfl
  obtain ⟨hreturned, hpersists⟩ := returns_before_sleep open_host ⟨"node", ⟨""⟩⟩ id hrun
  exact ⟨_, hrun, by decide +kernel, by decide +kernel, hreturned.trans (by decide +kernel),
    hpersists.trans (by decide +kernel)⟩

end

end Background

end Mutiny
