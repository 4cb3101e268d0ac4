import Mathlib.Data.List.ReduceOption
import Mutiny.Greatest

/-!
# Route hints of phantom invoices (`invoice.rs`)

`filter_channels` chooses the channels a phantom invoice names as ways to a node. Channel details and route hints are
LDK's; which short channel id an inbound payment uses is its answer too. The order in which the hash map of the chosen
channels is walked is a parameter. A function returns `none` where the code panics.

The invoice names each way with the hop to the phantom node behind it, and that hop alone for a node without a way: no
node of the invoice is left out (`phantom_routes_end`).
-/

namespace Mutiny

/-! ## LDK's channel details and route hints -/

structure CounterpartyForwardingInfo where
  fee_base_msat : UInt32
  fee_proportional_millionths : UInt32
  cltv_expiry_delta : UInt16
  deriving DecidableEq

structure ChannelCounterparty (PublicKey : Type) where
  node_id : PublicKey
  forwarding_info : Option CounterpartyForwardingInfo
  deriving DecidableEq

structure ChannelDetails (PublicKey : Type) where
  counterparty : ChannelCounterparty PublicKey
  short_channel_id : Option UInt64
  inbound_scid_alias : Option UInt64
  inbound_capacity_msat : UInt64
  inbound_htlc_minimum_msat : Option UInt64
  inbound_htlc_maximum_msat : Option UInt64
  is_channel_ready : Bool
  is_usable : Bool
  is_public : Bool
  deriving DecidableEq

structure RoutingFees where
  base_msat : UInt32
  proportional_millionths : UInt32
  deriving DecidableEq

structure RouteHintHop (PublicKey : Type) where
  src_node_id : PublicKey
  short_channel_id : UInt64
  fees : RoutingFees
  cltv_expiry_delta : UInt16
  htlc_minimum_msat : Option UInt64
  htlc_maximum_msat : Option UInt64
  deriving DecidableEq

structure RouteHint (PublicKey : Type) where
  hops : List (RouteHintHop PublicKey)
  deriving DecidableEq

structure PhantomRouteHints (PublicKey : Type) where
  channels : List (ChannelDetails PublicKey)
  phantom_scid : UInt64
  real_node_pubkey : PublicKey

/-- The order in which a hash map is walked. -/
structure IterOrder where
  order : ∀ {α : Type}, List α → List α
  order_perm : ∀ {α : Type} (l : List α), (order l).Perm l

section
variable {PublicKey : Type} [DecidableEq PublicKey] (get_inbound_payment_scid : ChannelDetails PublicKey → Option UInt64)

/-! ## `filter_channels` -/

/-- The variables of the loop over the channels. -/
structure Filtered (PublicKey : Type) where
  filtered_channels : AList fun _ : PublicKey => ChannelDetails PublicKey
  min_capacity_channel_exists : Bool
  online_channel_exists : Bool
  online_min_capacity_channel_exists : Bool

def Filtered.new : Filtered PublicKey := ⟨∅, false, false, false⟩

/-- The end of the loop body, for a private channel with a payment scid and forwarding info. -/
def Filtered.add (min_inbound_capacity : UInt64) (s : Filtered PublicKey) (channel : ChannelDetails PublicKey) :
    Filtered PublicKey where
  min_capacity_channel_exists :=
    if min_inbound_capacity ≤ channel.inbound_capacity_msat then true else s.min_capacity_channel_exists
  online_min_capacity_channel_exists :=
    if min_inbound_capacity ≤ channel.inbound_capacity_msat ∧ channel.is_usable = true then true
    else s.online_min_capacity_channel_exists
  online_channel_exists := if channel.is_usable then true else s.online_channel_exists
  filtered_channels :=
    match s.filtered_channels.lookup channel.counterparty.node_id with
    | some current =>
      if channel.inbound_capacity_msat < current.inbound_capacity_msat then s.filtered_channels
      else s.filtered_channels.insert channel.counterparty.node_id channel
    | none => s.filtered_channels.insert channel.counterparty.node_id channel

/-- The loop; `none` where it returns no hints because a channel is public. -/
def filter_loop (min_inbound_capacity : UInt64) :
    Filtered PublicKey → List (ChannelDetails PublicKey) → Option (Filtered PublicKey)
  | s, [] => some s
  | s, channel :: channels =>
    if !channel.is_channel_ready then filter_loop min_inbound_capacity s channels
    else if (get_inbound_payment_scid channel).isNone || channel.counterparty.forwarding_info.isNone then
      filter_loop min_inbound_capacity s channels
    else if channel.is_public then none
    else filter_loop min_inbound_capacity (s.add min_inbound_capacity channel) channels

def Filtered.include_channel (s : Filtered PublicKey) (min_inbound_capacity : UInt64)
    (channel : ChannelDetails PublicKey) : Bool :=
  let has_enough_capacity : Bool := min_inbound_capacity ≤ channel.inbound_capacity_msat
  if s.online_min_capacity_channel_exists then has_enough_capacity && channel.is_usable
  else if s.min_capacity_channel_exists && s.online_channel_exists then has_enough_capacity
  else if s.min_capacity_channel_exists then has_enough_capacity
  else if s.online_channel_exists then channel.is_usable
  else true

def route_hint_from_channel (channel : ChannelDetails PublicKey) : Option (RouteHint PublicKey) := do
  let forwarding_info ← channel.counterparty.forwarding_info
  let short_channel_id ← get_inbound_payment_scid channel
  return ⟨[{
    src_node_id := channel.counterparty.node_id
    short_channel_id
    fees := ⟨forwarding_info.fee_base_msat, forwarding_info.fee_proportional_millionths⟩
    cltv_expiry_delta := forwarding_info.cltv_expiry_delta
    htlc_minimum_msat := channel.inbound_htlc_minimum_msat
    htlc_maximum_msat := channel.inbound_htlc_maximum_msat }]⟩

/-- The closures of the final `filter` and `map` at one channel, with the assertion between them. -/
def Filtered.select (s : Filtered PublicKey) (min_inbound_capacity : UInt64) (channel : ChannelDetails PublicKey) :
    Option (Option (RouteHint PublicKey)) :=
  if s.include_channel min_inbound_capacity channel then some <$> route_hint_from_channel get_inbound_payment_scid channel
  else if ¬ min_inbound_capacity ≤ channel.inbound_capacity_msat then some none
  else if channel.is_usable then none
  else some none

def filter_channels (order : IterOrder) (channels : List (ChannelDetails PublicKey))
    (min_inbound_capacity_msat : Option UInt64) : Option (List (RouteHint PublicKey)) :=
  let min_inbound_capacity := min_inbound_capacity_msat.getD 0
  match filter_loop get_inbound_payment_scid min_inbound_capacity Filtered.new channels with
  | none => some []
  | some s => do
    let hints ← (order.order s.filtered_channels.entries).mapM fun e =>
      s.select get_inbound_payment_scid min_inbound_capacity e.2
    return hints.reduceOption

/-! ## `_create_phantom_invoice` -/

/-- The hop from a node to the phantom node; `min_cltv_expiry_delta` is LDK's constant. -/
def PhantomRouteHints.hop (min_cltv_expiry_delta : UInt16) (h : PhantomRouteHints PublicKey) : RouteHintHop PublicKey where
  src_node_id := h.real_node_pubkey
  short_channel_id := h.phantom_scid
  fees := ⟨0, 0⟩
  cltv_expiry_delta := min_cltv_expiry_delta
  htlc_minimum_msat := none
  htlc_maximum_msat := none

/-- The private routes of one node of the invoice. -/
def phantom_routes (order : IterOrder) (min_cltv_expiry_delta : UInt16) (amt_msat : Option UInt64)
    (h : PhantomRouteHints PublicKey) : Option (List (RouteHint PublicKey)) := do
  let route_hints ← filter_channels get_inbound_payment_scid order h.channels amt_msat
  let route_hints := if route_hints.isEmpty then [⟨[]⟩] else route_hints
  return route_hints.map fun route_hint => ⟨route_hint.hops ++ [h.hop min_cltv_expiry_delta]⟩

/-! ## What the loop keeps -/

/-- The channels the loop looks at. -/
def IsCandidate (channel : ChannelDetails PublicKey) : Bool :=
  channel.is_channel_ready && (get_inbound_payment_scid channel).isSome && channel.counterparty.forwarding_info.isSome

def candidates (channels : List (ChannelDetails PublicKey)) : List (ChannelDetails PublicKey) :=
  channels.filter (IsCandidate get_inbound_payment_scid)

def ChannelDetails.capacity (channel : ChannelDetails PublicKey) : Nat := channel.inbound_capacity_msat.toNat

def ChannelDetails.node_id (channel : ChannelDetails PublicKey) : PublicKey := channel.counterparty.node_id

def Enough (min_inbound_capacity : UInt64) (channel : ChannelDetails PublicKey) : Bool :=
  min_inbound_capacity ≤ channel.inbound_capacity_msat

/-- A candidate that is usable and has enough capacity. -/
def Suits (min_inbound_capacity : UInt64) (channel : ChannelDetails PublicKey) : Bool :=
  Enough min_inbound_capacity channel && channel.is_usable

theorem filter_loop_eq (min : UInt64) (channels : List (ChannelDetails PublicKey)) (s : Filtered PublicKey) :
    filter_loop get_inbound_payment_scid min s channels =
      if (candidates get_inbound_payment_scid channels).any (·.is_public) then none
      else some ((candidates get_inbound_payment_scid channels).foldl (Filtered.add min) s) := by
  induction channels generalizing s with
  | nil => rfl
  | cons channel channels ih =>
    unfold filter_loop candidates
    cases hr : channel.is_channel_ready with
    | false =>
      rw [List.filter_cons_of_neg (by simp [IsCandidate, hr])]
      exact ih s
    | true =>
      by_cases hskip : ((get_inbound_payment_scid channel).isNone || channel.counterparty.forwarding_info.isNone) = true
      · have hneg : ¬ IsCandidate get_inbound_payment_scid channel = true := by
          simp only [Bool.or_eq_true, Option.isNone_iff_eq_none] at hskip
          rcases hskip with h | h <;> simp [IsCandidate, h]
        rw [List.filter_cons_of_neg hneg]
        simp only [Bool.not_true, Bool.false_eq_true, if_false, hskip, if_true]
        exact ih s
      · have hpos : IsCandidate get_inbound_payment_scid channel = true := by
          simp only [Bool.or_eq_true, Option.isNone_iff_eq_none, not_or] at hskip
          simp [IsCandidate, hr, Option.isSome_iff_ne_none, hskip]
        rw [List.filter_cons_of_pos hpos]
        cases hp : channel.is_public with
        | true => simp [hskip, hp]
        | false =>
          simp only [Bool.not_true, Bool.false_eq_true, if_false, hskip, List.any_cons, hp, Bool.false_or,
            List.foldl_cons]
          exact ih (s.add min channel)

theorem Filtered.add_filtered_channels (min : UInt64) (s : Filtered PublicKey) (channel : ChannelDetails PublicKey) :
    (s.add min channel).filtered_channels =
      keep_greatest ChannelDetails.capacity ChannelDetails.node_id s.filtered_channels channel := by
  unfold Filtered.add keep_greatest ChannelDetails.capacity ChannelDetails.node_id
  cases s.filtered_channels.lookup channel.counterparty.node_id with
  | none => rfl
  | some current => simp only [UInt64.lt_iff_toNat_lt]

section
variable (min : UInt64) (l : List (ChannelDetails PublicKey)) (s : Filtered PublicKey)

theorem foldl_add_filtered_channels : (l.foldl (Filtered.add min) s).filtered_channels =
    l.foldl (keep_greatest ChannelDetails.capacity ChannelDetails.node_id) s.filtered_channels := by
  induction l generalizing s with
  | nil => rfl
  | cons channel l ih =>
    rw [List.foldl_cons, List.foldl_cons, ih, Filtered.add_filtered_channels]

theorem foldl_add_min : (l.foldl (Filtered.add min) s).min_capacity_channel_exists =
    (l.any (Enough min) || s.min_capacity_channel_exists) := by
  induction l generalizing s with
  | nil => rfl
  | cons channel l ih =>
    rw [List.foldl_cons, ih]
    unfold Filtered.add
    by_cases h : min ≤ channel.inbound_capacity_msat <;> simp [Enough, h]

theorem foldl_add_online : (l.foldl (Filtered.add min) s).online_channel_exists =
    (l.any (·.is_usable) || s.online_channel_exists) := by
  induction l generalizing s with
  | nil => rfl
  | cons channel l ih =>
    rw [List.foldl_cons, ih]
    unfold Filtered.add
    cases h : channel.is_usable <;> simp [h]

theorem foldl_add_online_min : (l.foldl (Filtered.add min) s).online_min_capacity_channel_exists =
    (l.any (Suits min) || s.online_min_capacity_channel_exists) := by
  induction l generalizing s with
  | nil => rfl
  | cons channel l ih =>
    rw [List.foldl_cons, ih]
    unfold Filtered.add
    by_cases h : min ≤ channel.inbound_capacity_msat <;> cases hu : channel.is_usable <;> simp [Suits, Enough, h, hu]

end

/-! ## The hints -/

def RouteHint.src_node_ids (hint : RouteHint PublicKey) : List PublicKey := hint.hops.map RouteHintHop.src_node_id

/-- The channel of the counterparty that the loop keeps: the last candidate of greatest capacity. -/
def KeptChannel (channels : List (ChannelDetails PublicKey)) (node_id : PublicKey) (channel : ChannelDetails PublicKey) :
    Prop :=
  LastGreatest ChannelDetails.capacity
    ((candidates get_inbound_payment_scid channels).filter fun c => c.node_id = node_id) channel

section
variable {get_inbound_payment_scid}

omit [DecidableEq PublicKey] in
theorem mem_candidates {channels : List (ChannelDetails PublicKey)} {channel : ChannelDetails PublicKey} :
    channel ∈ candidates get_inbound_payment_scid channels ↔
      channel ∈ channels ∧ IsCandidate get_inbound_payment_scid channel = true :=
  List.mem_filter

omit [DecidableEq PublicKey] in
theorem route_hint_of_candidate {channel : ChannelDetails PublicKey}
    (h : IsCandidate get_inbound_payment_scid channel = true) :
    ∃ hint, route_hint_from_channel get_inbound_payment_scid channel = some hint ∧
      hint.src_node_ids = [channel.node_id] := by
  simp only [IsCandidate, Bool.and_eq_true, Option.isSome_iff_exists] at h
  obtain ⟨⟨-, scid, hs⟩, info, hf⟩ := h
  unfold route_hint_from_channel
  rw [hf, hs]
  exact ⟨_, rfl, rfl⟩

omit [DecidableEq PublicKey] in
theorem select_of_candidate {channel : ChannelDetails PublicKey}
    (h : IsCandidate get_inbound_payment_scid channel = true) (s : Filtered PublicKey) (min : UInt64) :
    s.select get_inbound_payment_scid min channel =
      some (if s.include_channel min channel then route_hint_from_channel get_inbound_payment_scid channel else none) := by
  obtain ⟨hint, hh, -⟩ := route_hint_of_candidate h
  unfold Filtered.select
  rw [hh]
  cases hi : s.include_channel min channel with
  | true => rfl
  | false =>
    by_cases hcap : min ≤ channel.inbound_capacity_msat
    · -- an excluded channel with enough capacity: only because it is not usable
      have hu : channel.is_usable = false := by
        unfold Filtered.include_channel at hi
        simp only [hcap, decide_true, Bool.true_and] at hi
        split at hi <;> simp_all
      simp [hcap, hu]
    · simp [hcap]

/-- Whether the final filter includes a channel, by what the candidates are. -/
def Included (candidates : List (ChannelDetails PublicKey)) (min : UInt64) (channel : ChannelDetails PublicKey) : Bool :=
  if candidates.any (Suits min) then Suits min channel
  else if candidates.any (Enough min) then Enough min channel
  else if candidates.any (·.is_usable) then channel.is_usable
  else true

theorem include_channel_foldl (l : List (ChannelDetails PublicKey)) (min : UInt64) (channel : ChannelDetails PublicKey) :
    (l.foldl (Filtered.add min) Filtered.new).include_channel min channel = Included l min channel := by
  unfold Filtered.include_channel Included
  rw [foldl_add_online_min, foldl_add_min, foldl_add_online]
  cases l.any (Suits min) <;> cases l.any (Enough min) <;> cases l.any (·.is_usable) <;> rfl

theorem mem_entries_foldl {channels : List (ChannelDetails PublicKey)} {min : UInt64}
    {e : Sigma fun _ : PublicKey => ChannelDetails PublicKey} :
    e ∈ ((candidates get_inbound_payment_scid channels).foldl (Filtered.add min) Filtered.new).filtered_channels.entries ↔
      KeptChannel get_inbound_payment_scid channels e.1 e.2 := by
  rw [foldl_add_filtered_channels]
  exact AList.mem_lookup_iff.symm.trans (lookup_foldl_keep _ _ _ e.1 e.2)

theorem KeptChannel.mem {channels : List (ChannelDetails PublicKey)} {node_id : PublicKey}
    {channel : ChannelDetails PublicKey} (h : KeptChannel get_inbound_payment_scid channels node_id channel) :
    channel ∈ candidates get_inbound_payment_scid channels ∧ channel.node_id = node_id := by
  have hm := List.mem_filter.mp (LastGreatest.mem h)
  exact ⟨hm.1, by simpa using hm.2⟩

theorem kept_of_mem {channels : List (ChannelDetails PublicKey)} {channel : ChannelDetails PublicKey}
    (h : channel ∈ candidates get_inbound_payment_scid channels) :
    ∃ kept, KeptChannel get_inbound_payment_scid channels channel.node_id kept ∧ channel.capacity ≤ kept.capacity := by
  have hm : channel ∈ (candidates get_inbound_payment_scid channels).filter fun c => c.node_id = channel.node_id :=
    List.mem_filter.mpr ⟨h, by simp⟩
  obtain ⟨kept, hk⟩ := LastGreatest.total ChannelDetails.capacity (List.ne_nil_of_mem hm)
  exact ⟨kept, hk, hk.le hm⟩

theorem mapM_some {α β : Type} {f : α → Option β} {g : α → β} {l : List α} (h : ∀ a ∈ l, f a = some (g a)) :
    l.mapM f = some (l.map g) := by
  induction l with
  | nil => rfl
  | cons a l ih =>
    rw [List.mapM_cons, h a (by simp), ih fun b hb => h b (by simp [hb])]
    rfl

theorem filter_channels_public {channels : List (ChannelDetails PublicKey)} (order : IterOrder) (min : Option UInt64)
    (h : (candidates get_inbound_payment_scid channels).any (·.is_public) = true) :
    filter_channels get_inbound_payment_scid order channels min = some [] := by
  unfold filter_channels
  simp only [filter_loop_eq, h, if_true]

/-- The hint of a channel the loop kept, if the final filter includes it. -/
def hint_of (get_inbound_payment_scid : ChannelDetails PublicKey → Option UInt64)
    (channels : List (ChannelDetails PublicKey)) (min : UInt64) (channel : ChannelDetails PublicKey) :
    Option (RouteHint PublicKey) :=
  if Included (candidates get_inbound_payment_scid channels) min channel then
    route_hint_from_channel get_inbound_payment_scid channel
  else none

theorem filter_channels_private {channels : List (ChannelDetails PublicKey)} (order : IterOrder) (min : Option UInt64)
    (h : (candidates get_inbound_payment_scid channels).any (·.is_public) = false) :
    ∃ entries : List (Sigma fun _ : PublicKey => ChannelDetails PublicKey),
      (∀ e, e ∈ entries ↔ KeptChannel get_inbound_payment_scid channels e.1 e.2) ∧ (entries.map Sigma.fst).Nodup ∧
      filter_channels get_inbound_payment_scid order channels min =
        some (entries.filterMap fun e => hint_of get_inbound_payment_scid channels (min.getD 0) e.2) := by
  obtain ⟨s, hs⟩ : ∃ s, s = (candidates get_inbound_payment_scid channels).foldl (Filtered.add (min.getD 0)) Filtered.new :=
    ⟨_, rfl⟩
  have hmem : ∀ e, e ∈ order.order s.filtered_channels.entries ↔
      KeptChannel get_inbound_payment_scid channels e.1 e.2 := by
    intro e
    rw [(order.order_perm _).mem_iff, hs]
    exact mem_entries_foldl
  have hselect : ∀ e ∈ order.order s.filtered_channels.entries,
      s.select get_inbound_payment_scid (min.getD 0) e.2 =
        some (hint_of get_inbound_payment_scid channels (min.getD 0) e.2) := by
    intro e he
    rw [select_of_candidate (mem_candidates.mp ((hmem e).mp he).mem.1).2, hs, include_channel_foldl]
    rfl
  refine ⟨order.order s.filtered_channels.entries, hmem, ?_, ?_⟩
  · exact ((order.order_perm _).map _).nodup_iff.mpr (AList.nodupKeys _)
  · unfold filter_channels
    simp only [filter_loop_eq, h, Bool.false_eq_true, if_false, ← hs]
    rw [mapM_some hselect]
    show some (List.filterMap id _) = _
    rw [List.filterMap_map]
    rfl

omit [DecidableEq PublicKey] in
theorem route_hint_src {channel : ChannelDetails PublicKey} {hint : RouteHint PublicKey}
    (h : route_hint_from_channel get_inbound_payment_scid channel = some hint) :
    hint.src_node_ids = [channel.node_id] := by
  unfold route_hint_from_channel at h
  cases hf : channel.counterparty.forwarding_info with
  | none => simp [hf] at h
  | some info =>
    cases hs : get_inbound_payment_scid channel with
    | none => simp [hf, hs] at h
    | some scid =>
      rw [hf, hs] at h
      cases h
      rfl

omit [DecidableEq PublicKey] in
theorem hint_of_some {channels : List (ChannelDetails PublicKey)} {min : UInt64} {channel : ChannelDetails PublicKey}
    {hint : RouteHint PublicKey} (h : hint_of get_inbound_payment_scid channels min channel = some hint) :
    Included (candidates get_inbound_payment_scid channels) min channel = true ∧
      route_hint_from_channel get_inbound_payment_scid channel = some hint ∧ hint.src_node_ids = [channel.node_id] := by
  unfold hint_of at h
  split at h
  · next hi => exact ⟨hi, h, route_hint_src h⟩
  · cases h

theorem nodup_hints {channels : List (ChannelDetails PublicKey)} {min : UInt64}
    {entries : List (Sigma fun _ : PublicKey => ChannelDetails PublicKey)}
    (hmem : ∀ e ∈ entries, KeptChannel get_inbound_payment_scid channels e.1 e.2) (hn : (entries.map Sigma.fst).Nodup) :
    ((entries.filterMap fun e => hint_of get_inbound_payment_scid channels min e.2).map
      RouteHint.src_node_ids).Nodup := by
  induction entries with
  | nil => exact .nil
  | cons e entries ih =>
    obtain ⟨hhead, htail⟩ := List.nodup_cons.mp hn
    have hrest := ih (fun e he => hmem e (List.mem_cons_of_mem _ he)) htail
    rw [List.filterMap_cons]
    cases hh : hint_of get_inbound_payment_scid channels min e.2 with
    | none => exact hrest
    | some hint =>
      rw [List.map_cons]
      apply List.nodup_cons.mpr
      refine ⟨fun hin => hhead ?_, hrest⟩
      obtain ⟨hint', hm, hsrc⟩ := List.mem_map.mp hin
      obtain ⟨e', he', hh'⟩ := List.mem_filterMap.mp hm
      rw [(hint_of_some hh).2.2, (hint_of_some hh').2.2, (hmem e List.mem_cons_self).mem.2,
        (hmem e' (List.mem_cons_of_mem _ he')).mem.2] at hsrc
      rw [← List.head_eq_of_cons_eq hsrc]
      exact List.mem_map_of_mem he'

end

/-- No panic, and every hint is the hint of a ready private channel, one for each counterparty. -/
theorem filter_channels_safe (order : IterOrder) (channels : List (ChannelDetails PublicKey)) (min : Option UInt64) :
    ∃ hints, filter_channels get_inbound_payment_scid order channels min = some hints ∧
      (∀ hint ∈ hints, ∃ channel ∈ channels, channel.is_channel_ready = true ∧ channel.is_public = false ∧
        route_hint_from_channel get_inbound_payment_scid channel = some hint) ∧
      (hints.map RouteHint.src_node_ids).Nodup := by
  cases h : (candidates get_inbound_payment_scid channels).any (·.is_public) with
  | true => exact ⟨[], filter_channels_public order min h, by simp, .nil⟩
  | false =>
    obtain ⟨entries, hmem, hn, hf⟩ := filter_channels_private order min h
    refine ⟨_, hf, ?_, nodup_hints (fun e => (hmem e).mp) hn⟩
    intro hint hh
    obtain ⟨e, he, hhint⟩ := List.mem_filterMap.mp hh
    have hc := ((hmem e).mp he).mem.1
    obtain ⟨hin, hcand⟩ := mem_candidates.mp hc
    refine ⟨e.2, hin, ?_, ?_, (hint_of_some hhint).2.1⟩
    · simp only [IsCandidate, Bool.and_eq_true] at hcand
      exact hcand.1.1
    · have := List.any_eq_false.mp h e.2 hc
      simpa using this

theorem filter_channels_some (order : IterOrder) (channels : List (ChannelDetails PublicKey)) (min : Option UInt64) :
    ∃ hints, filter_channels get_inbound_payment_scid order channels min = some hints := by
  cases h : (candidates get_inbound_payment_scid channels).any (·.is_public) with
  | true => exact ⟨[], filter_channels_public order min h⟩
  | false =>
    obtain ⟨entries, -, -, hf⟩ := filter_channels_private order min h
    exact ⟨_, hf⟩

/-- Every node of a phantom invoice has a route, and all its routes end with the hop to the phantom node. -/
theorem phantom_routes_end (order : IterOrder) (delta : UInt16) (amt_msat : Option UInt64)
    (h : PhantomRouteHints PublicKey) : ∃ routes,
    phantom_routes get_inbound_payment_scid order delta amt_msat h = some routes ∧ routes ≠ [] ∧
      ∀ route ∈ routes, route.hops.getLast? = some (h.hop delta) := by
  obtain ⟨hints, hf⟩ := filter_channels_some get_inbound_payment_scid order h.channels amt_msat
  unfold phantom_routes
  rw [hf]
  refine ⟨_, rfl, ?_, ?_⟩
  · cases hints <;> simp
  · intro route hr
    obtain ⟨hint, -, rfl⟩ := List.mem_map.mp hr
    simp

/-! ## When there are hints, and for whom -/

/-- What the hints are for: none is missing where a private channel could be named, and with channels that are usable
and have enough capacity each of their counterparties has one hint, and all hints are of such channels. -/
structure HintsServe (channels : List (ChannelDetails PublicKey)) (min : UInt64) (hints : List (RouteHint PublicKey)) :
    Prop where
  some_hints : (∃ c ∈ channels, IsCandidate get_inbound_payment_scid c = true) → hints ≠ []
  suits : (∃ c ∈ channels, IsCandidate get_inbound_payment_scid c = true ∧ Suits min c = true) →
    (∀ hint ∈ hints, ∃ c ∈ channels, Suits min c = true ∧
      route_hint_from_channel get_inbound_payment_scid c = some hint) ∧
    ∀ c ∈ channels, IsCandidate get_inbound_payment_scid c = true → Suits min c = true →
      (hints.map RouteHint.src_node_ids).count [c.node_id] = 1

/-- The channel kept for a counterparty is usable wherever usability decides. -/
structure KeepsUsable (channels : List (ChannelDetails PublicKey)) (min : UInt64) : Prop where
  suits : ∀ c ∈ channels, IsCandidate get_inbound_payment_scid c = true → Suits min c = true →
    ∀ kept, KeptChannel get_inbound_payment_scid channels c.node_id kept → kept.is_usable = true
  online : (∀ c ∈ channels, IsCandidate get_inbound_payment_scid c = true → Enough min c = false) →
    (∃ c ∈ channels, IsCandidate get_inbound_payment_scid c = true ∧ c.is_usable = true) →
      ∃ node_id kept, KeptChannel get_inbound_payment_scid channels node_id kept ∧ kept.is_usable = true

section
variable {get_inbound_payment_scid} {channels : List (ChannelDetails PublicKey)} {min : UInt64}
  {entries : List (Sigma fun _ : PublicKey => ChannelDetails PublicKey)}
  (hmem : ∀ e, e ∈ entries ↔ KeptChannel get_inbound_payment_scid channels e.1 e.2)
include hmem

theorem mem_hints_iff {hint : RouteHint PublicKey} :
    hint ∈ entries.filterMap (fun e => hint_of get_inbound_payment_scid channels min e.2) ↔
      ∃ kept, KeptChannel get_inbound_payment_scid channels kept.node_id kept ∧
        Included (candidates get_inbound_payment_scid channels) min kept = true ∧
        route_hint_from_channel get_inbound_payment_scid kept = some hint := by
  rw [List.mem_filterMap]
  constructor
  · intro ⟨e, he, hh⟩
    have hk := (hmem e).mp he
    obtain ⟨hi, hr, -⟩ := hint_of_some hh
    rw [← hk.mem.2] at hk
    exact ⟨e.2, hk, hi, hr⟩
  · intro ⟨kept, hk, hi, hr⟩
    refine ⟨⟨kept.node_id, kept⟩, (hmem _).mpr hk, ?_⟩
    simp [hint_of, hi, hr]

theorem hint_of_kept {node_id : PublicKey} {kept : ChannelDetails PublicKey}
    (hk : KeptChannel get_inbound_payment_scid channels node_id kept)
    (hi : Included (candidates get_inbound_payment_scid channels) min kept = true) :
    ∃ hint ∈ entries.filterMap (fun e => hint_of get_inbound_payment_scid channels min e.2),
      hint.src_node_ids = [node_id] := by
  obtain ⟨hc, rfl⟩ := hk.mem
  obtain ⟨hint, hr, hsrc⟩ := route_hint_of_candidate (mem_candidates.mp hc).2
  exact ⟨hint, (mem_hints_iff hmem).mpr ⟨kept, hk, hi, hr⟩, hsrc⟩

omit [DecidableEq PublicKey] hmem in
theorem any_candidates {p : ChannelDetails PublicKey → Bool} :
    (candidates get_inbound_payment_scid channels).any p = true ↔
      ∃ c ∈ channels, IsCandidate get_inbound_payment_scid c = true ∧ p c = true := by
  simp [mem_candidates, and_assoc]

omit hmem in
/-- The channel kept for the counterparty of a channel with enough capacity has enough capacity. -/
theorem kept_enough {c : ChannelDetails PublicKey} (hc : c ∈ channels)
    (hcand : IsCandidate get_inbound_payment_scid c = true) (he : Enough min c = true) :
    ∃ kept, KeptChannel get_inbound_payment_scid channels c.node_id kept ∧ Enough min kept = true := by
  obtain ⟨kept, hk, hle⟩ := kept_of_mem (mem_candidates.mpr ⟨hc, hcand⟩)
  refine ⟨kept, hk, ?_⟩
  simp only [Enough, decide_eq_true_eq, UInt64.le_iff_toNat_le] at he ⊢
  exact le_trans he hle

omit hmem in
theorem kept_suits (h : KeepsUsable get_inbound_payment_scid channels min) {c : ChannelDetails PublicKey}
    (hc : c ∈ channels) (hcand : IsCandidate get_inbound_payment_scid c = true) (hs : Suits min c = true) :
    ∃ kept, KeptChannel get_inbound_payment_scid channels c.node_id kept ∧ Suits min kept = true := by
  have hs' := hs
  simp only [Suits, Bool.and_eq_true] at hs'
  obtain ⟨kept, hk, he⟩ := kept_enough hc hcand hs'.1
  exact ⟨kept, hk, by simp [Suits, he, h.suits c hc hcand hs kept hk]⟩

omit hmem in
theorem included_exists (h : KeepsUsable get_inbound_payment_scid channels min) {c : ChannelDetails PublicKey}
    (hc : c ∈ channels) (hcand : IsCandidate get_inbound_payment_scid c = true) :
    ∃ node_id kept, KeptChannel get_inbound_payment_scid channels node_id kept ∧
      Included (candidates get_inbound_payment_scid channels) min kept = true := by
  cases hs : (candidates get_inbound_payment_scid channels).any (Suits min) with
  | true =>
    obtain ⟨c', hc', hcand', hs'⟩ := any_candidates.mp hs
    obtain ⟨kept, hk, hks⟩ := kept_suits h hc' hcand' hs'
    exact ⟨_, kept, hk, by simp [Included, hs, hks]⟩
  | false =>
    cases he : (candidates get_inbound_payment_scid channels).any (Enough min) with
    | true =>
      obtain ⟨c', hc', hcand', he'⟩ := any_candidates.mp he
      obtain ⟨kept, hk, hke⟩ := kept_enough hc' hcand' he'
      exact ⟨_, kept, hk, by simp [Included, hs, he, hke]⟩
    | false =>
      cases hu : (candidates get_inbound_payment_scid channels).any (·.is_usable) with
      | true =>
        have hno : ∀ c ∈ channels, IsCandidate get_inbound_payment_scid c = true → Enough min c = false := by
          intro c hc hcand
          simpa using List.any_eq_false.mp he c (mem_candidates.mpr ⟨hc, hcand⟩)
        obtain ⟨node_id, kept, hk, hku⟩ := h.online hno (any_candidates.mp hu)
        exact ⟨node_id, kept, hk, by simp [Included, hs, he, hu, hku]⟩
      | false =>
        obtain ⟨kept, hk, -⟩ := kept_of_mem (mem_candidates.mpr ⟨hc, hcand⟩)
        exact ⟨_, kept, hk, by simp [Included, hs, he, hu]⟩

theorem serves_of_keeps (hn : (entries.map Sigma.fst).Nodup)
    (h : KeepsUsable get_inbound_payment_scid channels min) : HintsServe get_inbound_payment_scid channels min
      (entries.filterMap fun e => hint_of get_inbound_payment_scid channels min e.2) := by
  constructor
  · intro ⟨c, hc, hcand⟩
    obtain ⟨node_id, kept, hk, hi⟩ := included_exists h hc hcand
    obtain ⟨hint, hh, -⟩ := hint_of_kept hmem hk hi
    exact List.ne_nil_of_mem hh
  · intro hsome
    have hincluded : ∀ kept, Included (candidates get_inbound_payment_scid channels) min kept = Suits min kept := by
      intro kept
      simp [Included, any_candidates.mpr hsome]
    constructor
    · intro hint hh
      obtain ⟨kept, hk, hi, hr⟩ := (mem_hints_iff hmem).mp hh
      rw [hincluded] at hi
      exact ⟨kept, (mem_candidates.mp hk.mem.1).1, hi, hr⟩
    · intro c hc hcand hs
      obtain ⟨kept, hk, hks⟩ := kept_suits h hc hcand hs
      obtain ⟨hint, hh, hsrc⟩ := hint_of_kept hmem hk ((hincluded kept).trans hks)
      apply List.count_eq_one_of_mem (nodup_hints (fun e => (hmem e).mp) hn)
      rw [← hsrc]
      exact List.mem_map_of_mem hh

theorem keeps_of_serves (h : HintsServe get_inbound_payment_scid channels min
      (entries.filterMap fun e => hint_of get_inbound_payment_scid channels min e.2)) :
    KeepsUsable get_inbound_payment_scid channels min := by
  constructor
  · intro c hc hcand hs kept hk
    have hsuit := any_candidates.mpr ⟨c, hc, hcand, hs⟩
    have hcount := (h.suits ⟨c, hc, hcand, hs⟩).2 c hc hcand hs
    have hin : [c.node_id] ∈ (entries.filterMap fun e =>
        hint_of get_inbound_payment_scid channels min e.2).map RouteHint.src_node_ids :=
      List.count_pos_iff.mp (by omega)
    obtain ⟨hint, hh, hsrc⟩ := List.mem_map.mp hin
    obtain ⟨kept', hk', hi, hr⟩ := (mem_hints_iff hmem).mp hh
    rw [route_hint_src hr] at hsrc
    rw [List.head_eq_of_cons_eq hsrc] at hk'
    rw [LastGreatest.unique hk hk']
    simp only [Included, hsuit, if_true, Suits, Bool.and_eq_true] at hi
    exact hi.2
  · intro hno ⟨c, hc, hcand, hu⟩
    have hne := h.some_hints ⟨c, hc, hcand⟩
    obtain ⟨hint, hh⟩ := List.exists_mem_of_ne_nil _ hne
    obtain ⟨kept, hk, hi, -⟩ := (mem_hints_iff hmem).mp hh
    have henough : (candidates get_inbound_payment_scid channels).any (Enough min) = false := by
      rw [Bool.eq_false_iff]
      intro ht
      obtain ⟨c', hc', hcand', he'⟩ := any_candidates.mp ht
      rw [hno c' hc' hcand'] at he'
      cases he'
    have hsuits : (candidates get_inbound_payment_scid channels).any (Suits min) = false := by
      rw [Bool.eq_false_iff]
      intro ht
      obtain ⟨c', hc', hcand', he'⟩ := any_candidates.mp ht
      simp [Suits, hno c' hc' hcand'] at he'
    have husable := any_candidates.mpr ⟨c, hc, hcand, hu⟩
    refine ⟨kept.node_id, kept, hk, ?_⟩
    simpa [Included, henough, hsuits, husable] using hi

end

theorem filter_channels_serves_iff (order : IterOrder) (channels : List (ChannelDetails PublicKey))
    (min : Option UInt64)
    (h : ∀ c ∈ channels, IsCandidate get_inbound_payment_scid c = true → c.is_public = false) :
    (∃ hints, filter_channels get_inbound_payment_scid order channels min = some hints ∧
      HintsServe get_inbound_payment_scid channels (min.getD 0) hints) ↔
    KeepsUsable get_inbound_payment_scid channels (min.getD 0) := by
  have hpub : (candidates get_inbound_payment_scid channels).any (·.is_public) = false := by
    apply List.any_eq_false.mpr
    intro c hc
    simpa using h c (mem_candidates.mp hc).1 (mem_candidates.mp hc).2
  obtain ⟨entries, hmem, hn, hf⟩ := filter_channels_private order min hpub
  constructor
  · intro ⟨hints, hf', hs⟩
    rw [hf] at hf'
    cases hf'
    exact keeps_of_serves hmem hs
  · intro hk
    exact ⟨_, hf, serves_of_keeps hmem hn hk⟩

end

/-! ## Channels to try it on -/

def insertion_order : IterOrder := ⟨fun l => l, fun l => .refl l⟩

def payment_scid (channel : ChannelDetails Nat) : Option UInt64 := channel.inbound_scid_alias.or channel.short_channel_id

def private_channel (node_id : Nat) (scid capacity : UInt64) (is_usable : Bool) : ChannelDetails Nat where
  counterparty := ⟨node_id, some ⟨1000, 1, 42⟩⟩
  short_channel_id := some scid
  inbound_scid_alias := none
  inbound_capacity_msat := capacity
  inbound_htlc_minimum_msat := some 1
  inbound_htlc_maximum_msat := none
  is_channel_ready := true
  is_usable
  is_public := false

theorem filter_channels_serves_two : ∃ hints,
    filter_channels payment_scid insertion_order [private_channel 1 10 100 true, private_channel 2 20 50 false] (some 40) =
        some hints ∧
      HintsServe payment_scid [private_channel 1 10 100 true, private_channel 2 20 50 false] 40 hints := by
  apply (filter_channels_serves_iff payment_scid insertion_order
    [private_channel 1 10 100 true, private_channel 2 20 50 false] (some 40) (by decide)).mpr
  constructor
  · intro c hc hcand hs kept hk
    obtain ⟨hm, hn⟩ := hk.mem
    have hc₁ : c = private_channel 1 10 100 true := by
      rcases List.mem_cons.mp hc with rfl | hc
      · rfl
      · obtain rfl := List.mem_singleton.mp hc
        revert hs
        decide
    subst hc₁
    rcases List.mem_cons.mp (mem_candidates.mp hm).1 with rfl | hk
    · rfl
    · obtain rfl := List.mem_singleton.mp hk
      revert hn
      decide
  · intro hno
    exact absurd (hno _ List.mem_cons_self (by decide)) (by decide)

/-- The greatest channel of the counterparty is offline, so its usable channel is never considered. The invoice names the
node alone, to which no public channel leads. -/
theorem filter_channels_drops_usable :
    filter_channels payment_scid insertion_order [private_channel 1 10 100 false, private_channel 1 11 50 true]
        (some 40) = some [] ∧
      (¬ ∃ hints,
        filter_channels payment_scid insertion_order [private_channel 1 10 100 false, private_channel 1 11 50 true]
            (some 40) = some hints ∧
          HintsServe payment_scid [private_channel 1 10 100 false, private_channel 1 11 50 true] 40 hints) ∧
      phantom_routes payment_scid insertion_order 36 (some 40)
          ⟨[private_channel 1 10 100 false, private_channel 1 11 50 true], 7, 5⟩ =
        some [⟨[⟨5, 7, ⟨0, 0⟩, 36, none, none⟩]⟩] := by
  have hnone : filter_channels payment_scid insertion_order
      [private_channel 1 10 100 false, private_channel 1 11 50 true] (some 40) = some [] := rfl
  refine ⟨hnone, fun ⟨hints, hf, hs⟩ => ?_, rfl⟩
  rw [hnone] at hf
  cases hf
  exact hs.some_hints ⟨private_channel 1 11 50 true, by decide, by decide⟩ rfl

end Mutiny
