import Mathlib.Algebra.Order.Ring.Rat
import Mutiny.Machine
import Mutiny.Persister

/-!
# The background processor of a node (`background.rs`, `node.rs`)

`process_events_async` hands out events, waits for an update of the channel manager or for 100 ms, persists the manager
when there was an update, and looks at four timers. `node.rs` calls it again whenever it returns. The page has one
thread, so the other tasks of the page run only where the processor awaits: while events are handled and while it waits.

The clock is `instant::now`, in milliseconds, and every action carries the readings that it takes.
-/

namespace Mutiny

open Prog

namespace Background

def FRESHNESS_TIMER : Nat := 60

def PING_TIMER : Nat := 30

def NETWORK_PRUNE_TIMER : Nat := 60 * 60

def SCORER_PERSIST_TIMER : Nat := 30

def FIRST_NETWORK_PRUNE_TIMER : Nat := 60

def millis (timer : Nat) : ℚ := (1000 * timer : Nat)

inductive GossipSync where
  | P2P
  | Rapid
  | None
  deriving DecidableEq, Repr

def GossipSync.network_graph : GossipSync → Bool
  | P2P | Rapid => true
  | None => false

def GossipSync.prunable_network_graph (is_initial_sync_complete : Bool) : GossipSync → Bool
  | P2P => true
  | Rapid => is_initial_sync_complete
  | None => false

/-- What a call into LDK, or another task of the page, does. LDK announces every change of the manager that has to be
persisted, and nothing but the processor writes the manager. -/
structure Effect (M : Type) (key : String) where
  manager : M → M
  announced : Bool
  store : Store → Store
  silent : announced = false → manager = id
  keeps : ∀ s, (store s).items.lookup key = s.items.lookup key

/-- What is done, with the reading that a timer is set to, and the readings that a pass over the timers begins and ends
with. -/
inductive Call where
  | started (freshness ping prune scorer : ℚ)
  | updated
  | slept
  | persist_manager (accepted : Bool)
  | persist_graph
  | persist_scorer
  | returned
  | manager_tick (time : ℚ)
  | disconnect_all_peers (time : ℚ)
  | peer_tick (time : ℚ)
  | remove_stale_channels (time : ℚ)
  | scorer_due (time : ℚ)
  | passed (first last : ℚ)
  deriving DecidableEq

/-- Where the processor stands: not running, handing out events, waiting since a reading, or about to look at the timers
after a wait of some length. -/
inductive Pc where
  | returned
  | processing
  | waiting (await_start : ℚ)
  | timers (waited : ℚ)
  deriving DecidableEq

structure Processor (M : Type) where
  manager : M
  /-- There is an update which no wait has taken yet. -/
  update : Bool
  store : Store
  pc : Pc
  now : ℚ
  last_freshness_call : ℚ
  last_ping_call : ℚ
  last_prune_call : ℚ
  last_scorer_persist_call : ℚ
  have_pruned : Bool
  should_break : Bool
  log : List Call

structure Config (M : Type) where
  host : Host
  persister : MutinyNodePersister
  encode : M → List UInt8
  gossip_sync : GossipSync
  scorer : Bool
  /-- What `sleeper` answers. -/
  exit : Bool

/-- What `node.rs` calls the processor with. -/
def node_config {M : Type} (host : Host) (persister : MutinyNodePersister) (encode : M → List UInt8) : Config M :=
  ⟨host, persister, encode, .None, true, false⟩

/-- The readings of one pass over the timers: one for each comparison, and one for each timer that is then set. -/
structure Readings where
  freshness : ℚ
  freshness_call : ℚ
  ping : ℚ
  ping_call : ℚ
  prune : ℚ
  prune_call : ℚ
  scorer : ℚ
  scorer_call : ℚ

structure Readings.Sorted (r : Readings) : Prop where
  freshness : r.freshness ≤ r.freshness_call
  ping : r.freshness_call ≤ r.ping
  ping_call : r.ping ≤ r.ping_call
  prune : r.ping_call ≤ r.prune
  prune_call : r.prune ≤ r.prune_call
  scorer : r.prune_call ≤ r.scorer
  scorer_call : r.scorer ≤ r.scorer_call

instance (r : Readings) : Decidable r.Sorted :=
  decidable_of_iff (r.freshness ≤ r.freshness_call ∧ r.freshness_call ≤ r.ping ∧ r.ping ≤ r.ping_call ∧
      r.ping_call ≤ r.prune ∧ r.prune ≤ r.prune_call ∧ r.prune_call ≤ r.scorer ∧ r.scorer ≤ r.scorer_call)
    ⟨fun ⟨a, b, c, d, e, f, g⟩ => ⟨a, b, c, d, e, f, g⟩, fun h => ⟨h.1, h.2, h.3, h.4, h.5, h.6, h.7⟩⟩

/-- All readings of a pass are the same. -/
def Readings.at (time : ℚ) : Readings := ⟨time, time, time, time, time, time, time, time⟩

/-- The encoded network graph and scorer, as they are when they are persisted. -/
structure Objects where
  network_graph : List UInt8
  scorer : List UInt8

inductive Act (M : Type) (key : String) where
  | start (tick : Effect M key) (freshness ping prune scorer : ℚ)
  | other (task : Effect M key)
  | process (events : Effect M key) (await_start : ℚ)
  | update (await_time : ℚ) (objects : Objects)
  | sleep (await_time : ℚ) (objects : Objects)
  | timers (readings : Readings) (tick peers : Effect M key) (objects : Objects) (is_initial_sync_complete : Bool)

section
variable {M : Type} [Serde String] [Serde (List UInt8)] (cfg : Config M)

def Config.key : String := cfg.persister.get_key "manager"

namespace Processor

variable (s : Processor M)

def new (manager : M) (update : Bool) (store : Store) (now : ℚ) : Processor M :=
  ⟨manager, update, store, .returned, now, now, now, now, now, false, true, []⟩

def note (call : Call) : Processor M := { s with log := s.log ++ [call] }

def apply {key : String} (e : Effect M key) : Processor M :=
  { s with manager := e.manager s.manager, update := s.update || e.announced, store := e.store s.store }

/-- `KVStorePersister::persist`, whose error is ignored or logged. -/
def persist (key : String) (object : List UInt8) : Bool × Processor M :=
  let (accepted, store) := outcome (cfg.persister.persist cfg.host key object) s.store
  (accepted, { s with store })

def persist_manager : Processor M :=
  let (accepted, s) := s.persist cfg "manager" (cfg.encode s.manager)
  s.note (.persist_manager accepted)

def persist_graph (objects : Objects) : Processor M :=
  (s.persist cfg "network_graph" objects.network_graph).2.note .persist_graph

def persist_scorer (objects : Objects) : Processor M :=
  if cfg.scorer then (s.persist cfg "scorer" objects.scorer).2.note .persist_scorer else s

def check_freshness {key : String} (r : Readings) (tick : Effect M key) : Processor M :=
  if r.freshness - s.last_freshness_call > millis FRESHNESS_TIMER then
    { (s.apply tick).note (.manager_tick r.freshness_call) with last_freshness_call := r.freshness_call }
  else s

def check_ping {key : String} (waited : ℚ) (r : Readings) (peers : Effect M key) : Processor M :=
  -- a wait of more than two seconds: the page was asleep, and its sockets may be gone
  if waited > millis 2 then
    { (s.apply peers).note (.disconnect_all_peers r.ping_call) with last_ping_call := r.ping_call }
  else if r.ping - s.last_ping_call > millis PING_TIMER then
    { (s.apply peers).note (.peer_tick r.ping_call) with last_ping_call := r.ping_call }
  else s

def prune_timer : Nat := if s.have_pruned then NETWORK_PRUNE_TIMER else FIRST_NETWORK_PRUNE_TIMER

def check_prune (r : Readings) (objects : Objects) (is_initial_sync_complete : Bool) : Processor M :=
  if r.prune - s.last_prune_call > millis s.prune_timer then
    if cfg.gossip_sync.prunable_network_graph is_initial_sync_complete then
      { (s.note (.remove_stale_channels r.prune_call)).persist_graph cfg objects with
        last_prune_call := r.prune_call, have_pruned := true }
    else s
  else s

def check_scorer (r : Readings) (objects : Objects) : Processor M :=
  if r.scorer - s.last_scorer_persist_call > millis SCORER_PERSIST_TIMER then
    { (s.persist_scorer cfg objects).note (.scorer_due r.scorer_call) with last_scorer_persist_call := r.scorer_call }
  else s

/-- What is persisted on the way out. -/
def finish (objects : Objects) : Processor M :=
  let s := (s.persist_manager cfg).persist_scorer cfg objects
  let s := if cfg.gossip_sync.network_graph then s.persist_graph cfg objects else s
  { s.note .returned with pc := .returned }

def exit_check (waited : ℚ) (objects : Objects) : Processor M :=
  if s.should_break then s.finish cfg objects else { s with pc := .timers waited }

/-- A run of `process_events_async` begins by ticking the manager. -/
def started {key : String} (tick : Effect M key) (freshness ping prune scorer : ℚ) : Processor M :=
  { (s.apply tick).note (.started freshness ping prune scorer) with
    pc := .processing, now := scorer, last_freshness_call := freshness, last_ping_call := ping,
    last_prune_call := prune, last_scorer_persist_call := scorer, have_pruned := false, should_break := true }

def woken_by_update : Processor M := { s.note .updated with update := false }.persist_manager cfg

def look {key : String} (waited : ℚ) (r : Readings) (tick peers : Effect M key) (objects : Objects)
    (is_initial_sync_complete : Bool) : Processor M :=
  let s := ((s.check_freshness r tick).check_ping waited r peers).check_prune cfg r objects is_initial_sync_complete
  s.check_scorer cfg r objects

def check_timers {key : String} (waited : ℚ) (r : Readings) (tick peers : Effect M key) (objects : Objects)
    (is_initial_sync_complete : Bool) : Processor M :=
  { (s.look cfg waited r tick peers objects is_initial_sync_complete).note (.passed r.freshness r.scorer_call) with
    pc := .processing, now := r.scorer_call }

end Processor

def step (s : Processor M) : Act M cfg.key → Option (Processor M)
  | .start tick freshness ping prune scorer =>
    if s.pc = .returned ∧ s.now ≤ freshness ∧ freshness ≤ ping ∧ ping ≤ prune ∧ prune ≤ scorer then
      some (s.started tick freshness ping prune scorer)
    else none
  | .other task =>
    match s.pc with
    | .returned | .timers _ => none
    | .processing | .waiting _ => some (s.apply task)
  | .process events await_start =>
    if s.pc = .processing ∧ s.now ≤ await_start then
      some { s.apply events with pc := .waiting await_start, now := await_start }
    else none
  | .update await_time objects =>
    match s.pc with
    | .waiting await_start =>
      if s.now ≤ await_time then
        some (({ s with now := await_time }.woken_by_update cfg).exit_check cfg (await_time - await_start) objects)
      else none
    | _ => none
  | .sleep await_time objects =>
    match s.pc with
    | .waiting await_start =>
      -- the update is polled first, so the sleep is taken only where there is none
      if s.update = false ∧ s.now ≤ await_time then
        some (({ s with now := await_time, should_break := cfg.exit }.note .slept).exit_check cfg
          (await_time - await_start) objects)
      else none
    | _ => none
  | .timers readings tick peers objects is_initial_sync_complete =>
    match s.pc with
    | .timers waited =>
      if readings.Sorted ∧ s.now ≤ readings.freshness then
        some (s.check_timers cfg waited readings tick peers objects is_initial_sync_complete)
      else none
    | _ => none

def machine : Machine (Processor M) (Act M cfg.key) := ⟨step cfg⟩

variable {cfg} {s : Processor M}

/-! ## What an action can be -/

/-- Every action that is enabled, with the state it is taken from. -/
inductive Stepped (s : Processor M) : Act M cfg.key → Processor M → Prop where
  | start (tick : Effect M cfg.key) (freshness ping prune scorer : ℚ) (hpc : s.pc = .returned)
      (hnow : s.now ≤ freshness ∧ freshness ≤ ping ∧ ping ≤ prune ∧ prune ≤ scorer) :
      Stepped s (.start tick freshness ping prune scorer) (s.started tick freshness ping prune scorer)
  | other (task : Effect M cfg.key) (hr : s.pc ≠ .returned) (ht : ∀ waited, s.pc ≠ .timers waited) :
      Stepped s (.other task) (s.apply task)
  | process (events : Effect M cfg.key) (await_start : ℚ) (hpc : s.pc = .processing) (hnow : s.now ≤ await_start) :
      Stepped s (.process events await_start) { s.apply events with pc := .waiting await_start, now := await_start }
  | update (await_start await_time : ℚ) (objects : Objects) (hpc : s.pc = .waiting await_start)
      (hnow : s.now ≤ await_time) : Stepped s (.update await_time objects)
        (({ s with now := await_time }.woken_by_update cfg).exit_check cfg (await_time - await_start) objects)
  | sleep (await_start await_time : ℚ) (objects : Objects) (hpc : s.pc = .waiting await_start) (hu : s.update = false)
      (hnow : s.now ≤ await_time) : Stepped s (.sleep await_time objects)
        (({ s with now := await_time, should_break := cfg.exit }.note .slept).exit_check cfg
          (await_time - await_start) objects)
  | timers (waited : ℚ) (r : Readings) (tick peers : Effect M cfg.key) (objects : Objects) (complete : Bool)
      (hpc : s.pc = .timers waited) (hr : r.Sorted) (hnow : s.now ≤ r.freshness) :
      Stepped s (.timers r tick peers objects complete) (s.check_timers cfg waited r tick peers objects complete)

theorem stepped_of_step {a : Act M cfg.key} {t : Processor M} (h : step cfg s a = some t) : Stepped s a t := by
  cases a with
  | start tick freshness ping prune scorer =>
    obtain ⟨⟨hpc, hnow⟩, h⟩ := Option.ite_none_right_eq_some.mp h
    cases h
    exact .start tick freshness ping prune scorer hpc hnow
  | other task =>
    cases hpc : s.pc with
    | returned | timers _ => simp [step, hpc] at h
    | processing | waiting _ =>
      simp only [step, hpc] at h
      cases h
      exact .other task (by simp [hpc]) (by simp [hpc])
  | process events await_start =>
    obtain ⟨⟨hpc, hnow⟩, h⟩ := Option.ite_none_right_eq_some.mp h
    cases h
    exact .process events await_start hpc hnow
  | update await_time objects =>
    cases hpc : s.pc with
    | returned | processing | timers _ => simp [step, hpc] at h
    | waiting await_start =>
      simp only [step, hpc] at h
      obtain ⟨hnow, h⟩ := Option.ite_none_right_eq_some.mp h
      cases h
      simpa only [hpc] using Stepped.update await_start await_time objects hpc hnow
  | sleep await_time objects =>
    cases hpc : s.pc with
    | returned | processing | timers _ => simp [step, hpc] at h
    | waiting await_start =>
      simp only [step, hpc] at h
      obtain ⟨⟨hu, hnow⟩, h⟩ := Option.ite_none_right_eq_some.mp h
      cases h
      simpa only [hpc] using Stepped.sleep await_start await_time objects hpc hu hnow
  | timers r tick peers objects complete =>
    cases hpc : s.pc with
    | returned | processing | waiting _ => simp [step, hpc] at h
    | timers waited =>
      simp only [step, hpc] at h
      obtain ⟨⟨hr, hnow⟩, h⟩ := Option.ite_none_right_eq_some.mp h
      cases h
      exact .timers waited r tick peers objects complete hpc hr hnow

end

end Background

end Mutiny
