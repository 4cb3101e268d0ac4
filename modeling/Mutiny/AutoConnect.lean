import Mutiny.ConnectionStrings
import Mutiny.Machine
import Mutiny.PeerList

/-!
# Connecting to saved peers (`node.rs`, `nodemanager.rs`)

A node saves the connection string of every peer that it is connected to by the user. A loop lists the saved peers every
few seconds and dials those that are not connected. The machine interleaves the loop with calls of the user, with the
other nodes of the browser and with what LDK and the proxy do.
-/

namespace Mutiny

open Prog

namespace MutinyNodePersister

def read_peer_connection_info [Serde String] {ε : Type} (host : Host) (persister : MutinyNodePersister)
    (peer_pubkey : String) : StorageM ε (Option String) :=
  let key := persister.get_key (peer_key peer_pubkey)
  ok (persister.storage.get host key)

end MutinyNodePersister

namespace AutoConnect

/-- What a node has of its surroundings. -/
structure Config (PublicKey Mnemonic Keys Monitor Manager : Type) where
  host : Host
  storage : MutinyBrowserStorage
  secp : Secp256k1 PublicKey
  ldk : Ldk Mnemonic Keys Monitor Manager
  to_lowercase : String → String
  uuid : Uuid

/-- The lists that a pass of the loop starts with. `calls` are the writes before it, and `dialed` are the peers that it
has dialed so far. -/
structure Pass (PublicKey Monitor : Type) where
  calls : List (NodeCall PublicKey Monitor)
  peer_connections : List (PublicKey × String)
  current_connections : List PublicKey
  dialed : List (PubkeyConnectionInfo PublicKey)

/-- Where the loop is, with the peers that it has still to try. -/
inductive Pc (PublicKey Monitor : Type) where
  | sleep
  | pass (pass : Pass PublicKey Monitor) (not_connected : List (PublicKey × String))
  | dialing (pass : Pass PublicKey Monitor) (not_connected : List (PublicKey × String))

/-- `peer_node_ids` are the peers that LDK has finished its handshake with, `multi_socket` says that the proxy is
connected, and `connecting` are the peers that the user waits for. `calls` and `passes` are the writes that did not fail
and the passes that are over. -/
structure Peers (PublicKey Monitor : Type) where
  store : Store
  peer_node_ids : List PublicKey
  multi_socket : Bool
  connecting : List (PubkeyConnectionInfo PublicKey)
  pc : Pc PublicKey Monitor
  calls : List (NodeCall PublicKey Monitor)
  passes : List (Pass PublicKey Monitor)

inductive Act (PublicKey Monitor : Type) where
  | connect_to_peer (connection_string : String)
  | connected (i : Nat) (ok : Bool)
  | delete_peer (peer : String)
  | other (call : NodeCall PublicKey Monitor)
  | ldk (peer_node_ids : List PublicKey)
  | proxy (connected : Bool)
  | wake
  | auto_connect
  | auto_connected

/-- A write that is none of the saved peers of the node. -/
def foreign {PublicKey Monitor : Type} (uuid : Uuid) : NodeCall PublicKey Monitor → Bool
  | .persist_peer_connection_info uuid' _ _ | .delete_peer_connection_info uuid' _ => uuid' ≠ uuid
  | .persist_monitor _ _ _ => true

section
variable {PublicKey Mnemonic Keys Monitor Manager : Type} [DecidableEq PublicKey] [Serde String] [Serde (List UInt8)]
  (cfg : Config PublicKey Mnemonic Keys Monitor Manager)

def Config.persister : MutinyNodePersister := ⟨cfg.uuid.to_string, cfg.storage⟩

namespace Peers

variable (s : Peers PublicKey Monitor)

def new (store : Store) : Peers PublicKey Monitor := ⟨store, [], false, [], .sleep, [], []⟩

def call (c : NodeCall PublicKey Monitor) : Peers PublicKey Monitor :=
  let r := c.exec cfg.host cfg.storage cfg.secp cfg.ldk s.store
  { s with store := r.2, calls := s.calls ++ if r.1.isOk then [c] else [] }

/-- The rest of `Node::connect_peer` when the peer is connected; `none` is a panic. -/
def save (info : PubkeyConnectionInfo PublicKey) : Option (Peers PublicKey Monitor) :=
  let store_info := s.call cfg (.persist_peer_connection_info cfg.uuid info.pubkey info.original_connection_string)
  match (exec (cfg.persister.read_peer_connection_info cfg.host (cfg.secp.to_string info.pubkey) :
    StorageM MutinyError _) s.store).1 with
  | .error _ => none
  | .ok (some saved) => some (if saved ≠ info.original_connection_string then store_info else s)
  | .ok none => some store_info

def step (s : Peers PublicKey Monitor) : Act PublicKey Monitor → Option (Peers PublicKey Monitor)
  | .connect_to_peer connection_string =>
    match PubkeyConnectionInfo.new cfg.secp cfg.to_lowercase connection_string with
    | .error _ => some s
    | .ok info =>
      if info.pubkey ∈ s.peer_node_ids then s.save cfg info else some { s with connecting := s.connecting ++ [info] }
  | .connected i ok =>
    match s.connecting[i]? with
    | none => none
    | some info =>
      let s := { s with connecting := s.connecting.eraseIdx i }
      if ok then s.save cfg info else some s
  | .delete_peer peer => some (s.call cfg (.delete_peer_connection_info cfg.uuid peer))
  | .other call => if foreign cfg.uuid call then some (s.call cfg call) else none
  | .ldk peer_node_ids => some { s with peer_node_ids }
  | .proxy connected => some { s with multi_socket := connected }
  | .wake =>
    match s.pc with
    | .sleep =>
      if s.multi_socket then
        match (exec (cfg.persister.list_peer_connection_info cfg.host cfg.secp : StorageM MutinyError _) s.store).1 with
        | .error _ => none
        | .ok peer_connections =>
          let not_connected := peer_connections.filter fun p => p.1 ∉ s.peer_node_ids
          some { s with pc := .pass ⟨s.calls, peer_connections, s.peer_node_ids, []⟩ not_connected }
      else some s
    | .pass _ _ | .dialing _ _ => none
  | .auto_connect =>
    match s.pc with
    | .pass pass [] => some { s with pc := .sleep, passes := s.passes ++ [pass] }
    | .pass pass ((_, conn_str) :: rest) =>
      match PubkeyConnectionInfo.new cfg.secp cfg.to_lowercase conn_str with
      | .error _ => some { s with pc := .pass pass rest }
      | .ok info => some { s with pc := .dialing { pass with dialed := pass.dialed ++ [info] } rest }
    | .sleep | .dialing _ _ => none
  -- the answer is only logged
  | .auto_connected =>
    match s.pc with
    | .dialing pass rest => some { s with pc := .pass pass rest }
    | .sleep | .pass _ _ => none

end Peers

def machine : Machine (Peers PublicKey Monitor) (Act PublicKey Monitor) := ⟨Peers.step cfg⟩

end

/-! ## What is saved -/

section
variable {PublicKey Mnemonic Keys Monitor Manager : Type} (cfg : Config PublicKey Mnemonic Keys Monitor Manager)

/-- The string can be parsed, names the peer, and is as it was parsed. -/
def Names (pubkey : PublicKey) (connection_string : String) : Prop :=
  ∃ info, PubkeyConnectionInfo.new cfg.secp cfg.to_lowercase connection_string = .ok info ∧
    info.pubkey = pubkey ∧ info.original_connection_string = connection_string

/-- Lower case letters stay as they are. -/
structure Config.LawfulLowercase : Prop where
  empty : cfg.to_lowercase "" = ""
  lowercase : ∀ s, cfg.to_lowercase (cfg.to_lowercase s) = cfg.to_lowercase s

variable {cfg} in
theorem names_of_new (hlower : cfg.LawfulLowercase) {connection_string : String} {info : PubkeyConnectionInfo PublicKey}
    (h : PubkeyConnectionInfo.new cfg.secp cfg.to_lowercase connection_string = .ok info) :
    Names cfg info.pubkey info.original_connection_string := by
  have hparts := (PubkeyConnectionInfo.new_ok_iff hlower.empty).mp h
  have horiginal : info.original_connection_string = cfg.to_lowercase connection_string := by
    obtain ⟨_, _, _, _, _, _, horiginal⟩ := hparts
    exact horiginal
  refine ⟨info, ?_, rfl, rfl⟩
  rw [horiginal]
  rw [← hlower.lowercase] at hparts
  exact (PubkeyConnectionInfo.new_ok_iff hlower.empty).mpr hparts

variable [DecidableEq PublicKey]

/-- A pass lists what is saved when it starts, and has dialed the peers that are not connected up to `rest`. -/
structure Pass.Sound (calls : List (NodeCall PublicKey Monitor)) (pass : Pass PublicKey Monitor)
    (rest : List (PublicKey × String)) : Prop where
  listed : Listing (last_peer cfg.secp pass.calls cfg.uuid) (fun pubkey s => (pubkey, s)) pass.peer_connections
  before : pass.calls <+: calls
  names : ∀ p ∈ pass.peer_connections, Names cfg p.1 p.2
  dialed : (pass.dialed.map fun info => (info.pubkey, info.original_connection_string)) ++ rest =
    pass.peer_connections.filter fun p => p.1 ∉ pass.current_connections

def Pc.Sound (calls : List (NodeCall PublicKey Monitor)) : Pc PublicKey Monitor → Prop
  | .sleep => True
  | .pass current rest | .dialing current rest => current.Sound cfg calls rest

variable {cfg}

theorem last_peer_snoc (calls : List (NodeCall PublicKey Monitor)) (c : NodeCall PublicKey Monitor) (pubkey : PublicKey) :
    last_peer cfg.secp (calls ++ [c]) cfg.uuid pubkey =
      NodeCall.on_peer cfg.secp cfg.uuid pubkey (last_peer cfg.secp calls cfg.uuid pubkey) c := by
  simp only [last_peer, List.foldl_append, List.foldl_cons, List.foldl_nil]

theorem on_peer_foreign {c : NodeCall PublicKey Monitor} (h : foreign cfg.uuid c = true) (pubkey : PublicKey)
    (value : Option String) : NodeCall.on_peer cfg.secp cfg.uuid pubkey value c = value := by
  cases c with
  | persist_peer_connection_info uuid | delete_peer_connection_info uuid =>
    have hne : uuid ≠ cfg.uuid := by simpa [foreign] using h
    exact if_neg fun he => hne he.1
  | persist_monitor => rfl

theorem Pass.Sound.mono {calls calls' : List (NodeCall PublicKey Monitor)} {pass : Pass PublicKey Monitor}
    {rest : List (PublicKey × String)} (h : pass.Sound cfg calls rest) (hc : calls <+: calls') :
    pass.Sound cfg calls' rest :=
  ⟨h.listed, h.before.trans hc, h.names, h.dialed⟩

theorem Pc.Sound.mono {calls calls' : List (NodeCall PublicKey Monitor)} {pc : Pc PublicKey Monitor}
    (h : pc.Sound cfg calls) (hc : calls <+: calls') : pc.Sound cfg calls' := by
  cases pc with
  | sleep => trivial
  | pass current rest | dialing current rest => exact Pass.Sound.mono h hc

end

section
variable {PublicKey Mnemonic Keys Monitor Manager : Type} [DecidableEq PublicKey] [Serde String] [Serde (List UInt8)]
  (cfg : Config PublicKey Mnemonic Keys Monitor Manager)

structure Inv (s : Peers PublicKey Monitor) : Prop where
  kept : Kept cfg.host cfg.storage cfg.secp cfg.ldk s.calls s.store
  saved : ∀ pubkey connection_string, last_peer cfg.secp s.calls cfg.uuid pubkey = some connection_string →
    Names cfg pubkey connection_string
  connecting : ∀ info ∈ s.connecting, Names cfg info.pubkey info.original_connection_string
  pc : s.pc.Sound cfg s.calls
  passes : ∀ pass ∈ s.passes, pass.Sound cfg s.calls []

/-! ## What a write changes -/

variable {cfg} {s t : Peers PublicKey Monitor} {info : PubkeyConnectionInfo PublicKey}

theorem Inv.call (h : Inv cfg s) (c : NodeCall PublicKey Monitor) (hc : ∀ pubkey value connection_string,
      (∀ cs, value = some cs → Names cfg pubkey cs) →
      NodeCall.on_peer cfg.secp cfg.uuid pubkey value c = some connection_string → Names cfg pubkey connection_string) :
    Inv cfg (s.call cfg c) := by
  have hbefore : s.calls <+: (s.call cfg c).calls := List.prefix_append _ _
  refine ⟨h.kept.exec c, fun pubkey connection_string hlast => ?_, h.connecting, h.pc.mono hbefore,
    fun pass hp => (h.passes pass hp).mono hbefore⟩
  unfold Peers.call at hlast
  dsimp only at hlast
  split at hlast
  · rw [last_peer_snoc] at hlast
    exact hc pubkey _ connection_string (h.saved pubkey) hlast
  · rw [List.append_nil] at hlast
    exact h.saved pubkey connection_string hlast

theorem Inv.call_foreign (h : Inv cfg s) {c : NodeCall PublicKey Monitor} (hc : foreign cfg.uuid c = true) :
    Inv cfg (s.call cfg c) :=
  h.call c fun pubkey value connection_string hv hlast => hv _ (by rwa [on_peer_foreign hc] at hlast)

theorem Inv.call_delete (h : Inv cfg s) (peer : String) :
    Inv cfg (s.call cfg (.delete_peer_connection_info cfg.uuid peer)) := by
  refine h.call _ fun pubkey value connection_string hv hlast => ?_
  unfold NodeCall.on_peer at hlast
  dsimp only at hlast
  split at hlast
  · cases hlast
  · exact hv _ hlast

theorem Inv.call_persist (h : Inv cfg s) (hinfo : Names cfg info.pubkey info.original_connection_string) :
    Inv cfg (s.call cfg (.persist_peer_connection_info cfg.uuid info.pubkey info.original_connection_string)) := by
  refine h.call _ fun pubkey value connection_string hv hlast => ?_
  unfold NodeCall.on_peer at hlast
  dsimp only at hlast
  split at hlast
  · next he =>
    cases hlast
    rw [← he.2]
    exact hinfo
  · exact hv _ hlast

theorem Inv.exec_read (h : Inv cfg s) (pubkey : PublicKey) :
    (exec (cfg.persister.read_peer_connection_info cfg.host (cfg.secp.to_string pubkey) : StorageM MutinyError _)
      s.store).1 = .ok (last_peer cfg.secp s.calls cfg.uuid pubkey) := by
  have hkept := h.kept.peers cfg.uuid pubkey
  have hget := exec_get (α := String) cfg.host cfg.storage
    ((Entry.node cfg.uuid (.peer (cfg.secp.to_string pubkey))).key cfg.storage) s.store
  have hread : exec (cfg.persister.read_peer_connection_info cfg.host (cfg.secp.to_string pubkey) :
      StorageM MutinyError _) s.store = exec (do
        let res ← result (cfg.storage.get cfg.host
          ((Entry.node cfg.uuid (.peer (cfg.secp.to_string pubkey))).key cfg.storage))
        return res.toOption) s.store := rfl
  rw [hread]
  cases hl : s.store.items.lookup ((Entry.node cfg.uuid (.peer (cfg.secp.to_string pubkey))).key cfg.storage) with
  | none =>
    rw [hl] at hkept hget
    have hnone : last_peer cfg.secp s.calls cfg.uuid pubkey = none := by
      cases hlast : last_peer cfg.secp s.calls cfg.uuid pubkey with
      | none => rfl
      | some saved =>
        rw [hlast] at hkept
        cases hkept
    rw [exec_bind_ok (exec_result_err hget), hnone]
    rfl
  | some item =>
    rw [hl] at hkept hget
    cases hlast : last_peer cfg.secp s.calls cfg.uuid pubkey with
    | none =>
      rw [hlast] at hkept
      cases hkept
    | some saved =>
      rw [hlast] at hkept
      have hdecode : cfg.storage.decode cfg.host.crypto item = .ok saved := Option.some.inj hkept
      dsimp only at hget
      rw [hdecode] at hget
      rw [exec_bind_ok (exec_result_ok hget)]
      rfl

theorem Inv.new {store : Store}
    (h : ∀ key ∈ store.items, starts_with key "peer/" = false ∧ starts_with key "monitors/" = false) :
    Inv cfg (.new store) :=
  ⟨kept_fresh h, (fun _ _ he => by cases he), (fun _ hi => by cases hi), trivial, (fun _ hp => by cases hp)⟩

theorem Inv.exec_list (h : Inv cfg s) : ∃ l,
    (exec (cfg.persister.list_peer_connection_info cfg.host cfg.secp : StorageM MutinyError _) s.store).1 = .ok l ∧
      Listing (last_peer cfg.secp s.calls cfg.uuid) (fun pubkey s => (pubkey, s)) l := by
  obtain ⟨l, hx, hl⟩ := h.kept.exec_list_peer_connection_info (ε := MutinyError) cfg.uuid
  exact ⟨l, congrArg Prod.fst hx, hl⟩

theorem Inv.exec_save (h : Inv cfg s) (hinfo : Names cfg info.pubkey info.original_connection_string) :
    ∃ t, s.save cfg info = some t ∧ Inv cfg t := by
  have hsave : Inv cfg (s.call cfg (.persist_peer_connection_info cfg.uuid info.pubkey info.original_connection_string)) :=
    h.call_persist hinfo
  unfold Peers.save
  rw [h.exec_read]
  cases last_peer cfg.secp s.calls cfg.uuid info.pubkey with
  | none => exact ⟨_, rfl, hsave⟩
  | some saved =>
    refine ⟨_, rfl, ?_⟩
    split
    · exact hsave
    · exact h

/-! ## What a step changes -/

theorem Inv.connect_to_peer (hlower : cfg.LawfulLowercase) (h : Inv cfg s) (connection_string : String) :
    ∃ t, s.step cfg (.connect_to_peer connection_string) = some t ∧ Inv cfg t := by
  unfold Peers.step
  dsimp only
  split
  · exact ⟨s, rfl, h⟩
  · next info hinfo =>
    have hnames := names_of_new hlower hinfo
    split
    · exact h.exec_save hnames
    · refine ⟨_, rfl, h.kept, h.saved, fun info' hi => ?_, h.pc, h.passes⟩
      rcases List.mem_append.mp hi with hi | hi
      · exact h.connecting info' hi
      · cases List.mem_singleton.mp hi
        exact hnames

theorem Inv.connected (h : Inv cfg s) {i : Nat} (hi : i < s.connecting.length) (ok : Bool) :
    ∃ t, s.step cfg (.connected i ok) = some t ∧ Inv cfg t := by
  have hrest : Inv cfg { s with connecting := s.connecting.eraseIdx i } :=
    ⟨h.kept, h.saved, fun info hinfo => h.connecting info (List.mem_of_mem_eraseIdx hinfo), h.pc, h.passes⟩
  unfold Peers.step
  dsimp only
  rw [List.getElem?_eq_getElem hi]
  dsimp only
  split
  · exact hrest.exec_save (h.connecting _ (List.getElem_mem hi))
  · exact ⟨_, rfl, hrest⟩

theorem Inv.wake (h : Inv cfg s) (hpc : s.pc = .sleep) : ∃ t, s.step cfg .wake = some t ∧ Inv cfg t := by
  obtain ⟨l, hx, hl⟩ := h.exec_list
  unfold Peers.step
  dsimp only
  rw [hpc]
  dsimp only
  split
  · rw [hx]
    refine ⟨_, rfl, h.kept, h.saved, h.connecting, ⟨hl, List.prefix_refl _, fun p hp => ?_, rfl⟩, h.passes⟩
    obtain ⟨ps, -, hmem, rfl⟩ := hl
    rw [List.map_id'] at hp
    exact h.saved p.1 p.2 ((hmem p.1 p.2).mp hp)
  · exact ⟨s, rfl, h⟩

theorem Inv.dial_next (h : Inv cfg s) (ht : s.step cfg .auto_connect = some t) : Inv cfg t := by
  have hpc := h.pc
  unfold Peers.step at ht
  dsimp only at ht
  split at ht
  · next pass hs =>
    cases ht
    rw [hs] at hpc
    refine ⟨h.kept, h.saved, h.connecting, trivial, fun pass' hp => ?_⟩
    rcases List.mem_append.mp hp with hp | hp
    · exact h.passes pass' hp
    · cases List.mem_singleton.mp hp
      exact hpc
  · next pass pubkey conn_str rest hs =>
    rw [hs] at hpc
    have hmem : (pubkey, conn_str) ∈ pass.peer_connections := by
      have hf := hpc.dialed ▸ List.mem_append_right _ List.mem_cons_self
      exact List.mem_of_mem_filter hf
    obtain ⟨info, hinfo, hpubkey, horiginal⟩ := hpc.names _ hmem
    rw [hinfo] at ht
    cases ht
    refine ⟨h.kept, h.saved, h.connecting, ⟨hpc.listed, hpc.before, hpc.names, ?_⟩, h.passes⟩
    rw [← hpc.dialed, List.map_append, List.append_assoc]
    simp [hpubkey, horiginal]
  · cases ht
  · cases ht

theorem Inv.step (hlower : cfg.LawfulLowercase) (h : Inv cfg s) {a : Act PublicKey Monitor}
    (ht : s.step cfg a = some t) : Inv cfg t := by
  have hsame : ∀ {u : Peers PublicKey Monitor}, (∃ t, s.step cfg a = some t ∧ Inv cfg t) → s.step cfg a = some u →
      Inv cfg u := by
    rintro u ⟨t, ht, hinv⟩ hu
    rw [ht] at hu
    cases hu
    exact hinv
  cases a with
  | connect_to_peer connection_string => exact hsame (h.connect_to_peer hlower connection_string) ht
  | connected i ok =>
    by_cases hi : i < s.connecting.length
    · exact hsame (h.connected hi ok) ht
    · unfold Peers.step at ht
      dsimp only at ht
      rw [List.getElem?_eq_none (by omega)] at ht
      cases ht
  | delete_peer peer =>
    cases ht
    exact h.call_delete peer
  | other call =>
    obtain ⟨hforeign, ht⟩ := Option.ite_none_right_eq_some.mp ht
    cases ht
    exact h.call_foreign hforeign
  | ldk peer_node_ids =>
    cases ht
    exact ⟨h.kept, h.saved, h.connecting, h.pc, h.passes⟩
  | proxy connected =>
    cases ht
    exact ⟨h.kept, h.saved, h.connecting, h.pc, h.passes⟩
  | wake =>
    cases hpc : s.pc with
    | sleep => exact hsame (h.wake hpc) ht
    | pass | dialing =>
      unfold Peers.step at ht
      dsimp only at ht
      rw [hpc] at ht
      cases ht
  | auto_connect => exact h.dial_next ht
  | auto_connected =>
    have hpc := h.pc
    unfold Peers.step at ht
    dsimp only at ht
    split at ht
    · next pass rest hs =>
      cases ht
      rw [hs] at hpc
      exact ⟨h.kept, h.saved, h.connecting, hpc, h.passes⟩
    · cases ht
    · cases ht

variable (cfg) in
/-- A node never stumbles over what it has saved. Every pass of the loop lists the peers that are saved when it starts,
each with a string that parses and names it, and dials exactly those of them that are not connected at that time. -/
theorem auto_connect (hlower : cfg.LawfulLowercase) {store : Store}
    (hstore : ∀ key ∈ store.items, starts_with key "peer/" = false ∧ starts_with key "monitors/" = false)
    (as : List (Act PublicKey Monitor)) (h : (machine cfg).run (.new store) as = some s) :
    (∀ connection_string, ∃ t, s.step cfg (.connect_to_peer connection_string) = some t) ∧
    (s.pc = .sleep → ∃ t, s.step cfg .wake = some t) ∧
    (∀ pass ∈ s.passes, pass.Sound cfg s.calls []) ∧ s.pc.Sound cfg s.calls := by
  have hinv : Inv cfg s :=
    Machine.invariant (M := machine cfg) (fun _ _ _ hi hs => Inv.step hlower hi hs) (Inv.new hstore) h
  refine ⟨fun connection_string => ?_, fun hpc => ?_, hinv.passes, hinv.pc⟩
  · obtain ⟨t, ht, -⟩ := hinv.connect_to_peer hlower connection_string
    exact ⟨t, ht⟩
  · obtain ⟨t, ht, -⟩ := hinv.wake hpc
    exact ⟨t, ht⟩

/-! ## A peer that is deleted -/

omit [DecidableEq PublicKey] in
theorem save_cases (h : s.save cfg info = some t) :
    t = s ∨ t = s.call cfg (.persist_peer_connection_info cfg.uuid info.pubkey info.original_connection_string) := by
  unfold Peers.save at h
  dsimp only at h
  split at h
  · cases h
  · cases h
    split
    · exact .inr rfl
    · exact .inl rfl
  · cases h
    exact .inr rfl

variable (cfg) in
/-- The user does not connect to the peer. -/
def Spares (pubkey : PublicKey) (a : Act PublicKey Monitor) : Prop :=
  ∀ connection_string, a = .connect_to_peer connection_string →
    ∀ info, PubkeyConnectionInfo.new cfg.secp cfg.to_lowercase connection_string = .ok info → info.pubkey ≠ pubkey

variable (cfg) in
/-- The peer is not saved, nobody connects to it, and none of the passes after the first `n` knows of it. -/
structure Gone (pubkey : PublicKey) (n : Nat) (s : Peers PublicKey Monitor) : Prop where
  saved : last_peer cfg.secp s.calls cfg.uuid pubkey = none
  connecting : ∀ info ∈ s.connecting, info.pubkey ≠ pubkey
  pc : ∀ pass rest, s.pc = .pass pass rest ∨ s.pc = .dialing pass rest → ∀ p ∈ pass.peer_connections, p.1 ≠ pubkey
  length : n ≤ s.passes.length
  passes : ∀ pass ∈ s.passes.drop n, ∀ p ∈ pass.peer_connections, p.1 ≠ pubkey

variable {pubkey : PublicKey} {n : Nat}

theorem Gone.call (h : Gone cfg pubkey n s) {c : NodeCall PublicKey Monitor}
    (hc : NodeCall.on_peer cfg.secp cfg.uuid pubkey none c = none) : Gone cfg pubkey n (s.call cfg c) := by
  refine ⟨?_, h.connecting, h.pc, h.length, h.passes⟩
  unfold Peers.call
  dsimp only
  split
  · rw [last_peer_snoc, h.saved]
    exact hc
  · rw [List.append_nil]
    exact h.saved

theorem Gone.save (h : Gone cfg pubkey n s) (hinfo : info.pubkey ≠ pubkey) (ht : s.save cfg info = some t) :
    Gone cfg pubkey n t := by
  rcases save_cases ht with rfl | rfl
  · exact h
  · exact h.call (if_neg fun he => hinfo he.2)

theorem Gone.step (hinv : Inv cfg s) (h : Gone cfg pubkey n s) {a : Act PublicKey Monitor} (ha : Spares cfg pubkey a)
    (ht : s.step cfg a = some t) : Gone cfg pubkey n t := by
  cases a with
  | connect_to_peer connection_string =>
    unfold Peers.step at ht
    dsimp only at ht
    split at ht
    · cases ht
      exact h
    · next info hinfo =>
      have hne := ha connection_string rfl info hinfo
      split at ht
      · exact h.save hne ht
      · cases ht
        refine ⟨h.saved, fun info' hi => ?_, h.pc, h.length, h.passes⟩
        rcases List.mem_append.mp hi with hi | hi
        · exact h.connecting info' hi
        · cases List.mem_singleton.mp hi
          exact hne
  | connected i ok =>
    unfold Peers.step at ht
    dsimp only at ht
    split at ht
    · cases ht
    · next info hi =>
      have hrest : Gone cfg pubkey n { s with connecting := s.connecting.eraseIdx i } :=
        ⟨h.saved, fun info hinfo => h.connecting info (List.mem_of_mem_eraseIdx hinfo), h.pc, h.length, h.passes⟩
      split at ht
      · exact hrest.save (h.connecting info (List.mem_of_getElem? hi)) ht
      · cases ht
        exact hrest
  | delete_peer peer =>
    cases ht
    refine h.call ?_
    unfold NodeCall.on_peer
    dsimp only
    split <;> rfl
  | other call =>
    obtain ⟨hforeign, ht⟩ := Option.ite_none_right_eq_some.mp ht
    cases ht
    exact h.call (on_peer_foreign hforeign pubkey none)
  | ldk peer_node_ids =>
    cases ht
    exact ⟨h.saved, h.connecting, h.pc, h.length, h.passes⟩
  | proxy connected =>
    cases ht
    exact ⟨h.saved, h.connecting, h.pc, h.length, h.passes⟩
  | wake =>
    unfold Peers.step at ht
    dsimp only at ht
    split at ht
    · split at ht
      · obtain ⟨l, hx, ps, -, hmem, rfl⟩ := hinv.exec_list
        rw [hx] at ht
        cases ht
        refine ⟨h.saved, h.connecting, fun pass rest hpc p hp => ?_, h.length, h.passes⟩
        rcases hpc with hpc | hpc
        · cases hpc
          dsimp only at hp
          rw [List.map_id'] at hp
          rintro rfl
          have hsaved := (hmem p.1 p.2).mp hp
          rw [h.saved] at hsaved
          cases hsaved
        · cases hpc
      · cases ht
        exact h
    · cases ht
    · cases ht
  | auto_connect =>
    unfold Peers.step at ht
    dsimp only at ht
    split at ht
    · next pass hs =>
      cases ht
      refine ⟨h.saved, h.connecting, fun pass rest hpc => by simp at hpc, ?_, fun pass' hp => ?_⟩
      · rw [List.length_append]
        exact Nat.le_add_right_of_le h.length
      · rw [List.drop_append_of_le_length h.length] at hp
        rcases List.mem_append.mp hp with hp | hp
        · exact h.passes pass' hp
        · cases List.mem_singleton.mp hp
          exact h.pc pass [] (.inl hs)
    · next pass p conn_str rest hs =>
      have hpass := h.pc pass _ (.inl hs)
      split at ht
      · cases ht
        refine ⟨h.saved, h.connecting, fun pass' rest' hpc => ?_, h.length, h.passes⟩
        rcases hpc with hpc | hpc <;> cases hpc
        exact hpass
      · cases ht
        refine ⟨h.saved, h.connecting, fun pass' rest' hpc => ?_, h.length, h.passes⟩
        rcases hpc with hpc | hpc <;> cases hpc
        exact hpass
    · cases ht
    · cases ht
  | auto_connected =>
    unfold Peers.step at ht
    dsimp only at ht
    split at ht
    · next pass rest hs =>
      cases ht
      refine ⟨h.saved, h.connecting, fun pass' rest' hpc => ?_, h.length, h.passes⟩
      rcases hpc with hpc | hpc <;> cases hpc
      exact h.pc pass rest (.inr hs)
    · cases ht
    · cases ht

variable (cfg) in
/-- A peer that is deleted while the loop sleeps is dialed by no later pass, in whatever order the rest happens, as long
as the user does not connect to it again. -/
theorem deleted_peer_left (hlower : cfg.LawfulLowercase) {store : Store}
    (hstore : ∀ key ∈ store.items, starts_with key "peer/" = false ∧ starts_with key "monitors/" = false)
    (as : List (Act PublicKey Monitor)) (h : (machine cfg).run (.new store) as = some s) (hpc : s.pc = .sleep)
    (pubkey : PublicKey) (hconnecting : ∀ info ∈ s.connecting, info.pubkey ≠ pubkey) (bs : List (Act PublicKey Monitor))
    (hspares : (machine cfg).Along (fun _ a => Spares cfg pubkey a) s (.delete_peer (cfg.secp.to_string pubkey) :: bs))
    (ht : (machine cfg).run s (.delete_peer (cfg.secp.to_string pubkey) :: bs) = some t) :
    last_peer cfg.secp t.calls cfg.uuid pubkey = none ∧
      ∀ pass ∈ t.passes.drop s.passes.length, ∀ info ∈ pass.dialed, info.pubkey ≠ pubkey := by
  have hinv : Inv cfg s :=
    Machine.invariant (M := machine cfg) (fun _ _ _ hi hs => Inv.step hlower hi hs) (Inv.new hstore) h
  obtain ⟨u, hu, hrest⟩ := Machine.run_cons_some ht
  have hal := hspares.2 u hu
  cases hu
  have hgone : Gone cfg pubkey s.passes.length
      (s.call cfg (.delete_peer_connection_info cfg.uuid (cfg.secp.to_string pubkey))) := by
    refine ⟨?_, hconnecting, fun pass rest hp => ?_, Nat.le_refl _, fun pass hp => ?_⟩
    · have hdone : (s.call cfg (.delete_peer_connection_info cfg.uuid (cfg.secp.to_string pubkey))).calls =
          s.calls ++ [.delete_peer_connection_info cfg.uuid (cfg.secp.to_string pubkey)] := rfl
      rw [hdone, last_peer_snoc]
      exact if_pos ⟨rfl, rfl⟩
    · have hsleep : (s.call cfg (.delete_peer_connection_info cfg.uuid (cfg.secp.to_string pubkey))).pc = .sleep := hpc
      rw [hsleep] at hp
      simp at hp
    · have hnil : pass ∈ s.passes.drop s.passes.length := hp
      rw [List.drop_length] at hnil
      cases hnil
  obtain ⟨hinvt, hgonet⟩ := Machine.run_invariant (M := machine cfg)
    (I := fun u => Inv cfg u ∧ Gone cfg pubkey s.passes.length u)
    (fun _ _ _ hu ha hs => ⟨hu.1.step hlower hs, hu.2.step hu.1 ha hs⟩) ⟨hinv.call_delete _, hgone⟩ hal hrest
  refine ⟨hgonet.saved, fun pass hp info hinfo => ?_⟩
  have hsound := hinvt.passes pass (List.mem_of_mem_drop hp)
  have hlisted : (info.pubkey, info.original_connection_string) ∈
      pass.peer_connections.filter fun p => p.1 ∉ pass.current_connections := by
    rw [← hsound.dialed, List.append_nil]
    exact List.mem_map_of_mem hinfo
  exact hgonet.passes pass hp _ (List.mem_of_mem_filter hlisted)

end

/-! ## A peer that is saved and deleted -/

attribute [local instance] string_serde bytes_serde

def sample_config : Config String Unit Unit (List UInt8) Unit :=
  ⟨open_host, ⟨""⟩, pubkey_text, byte_monitors, ascii_lowercase, first_node⟩

theorem isUpper_toLower (c : Char) : c.toLower.isUpper = false := by
  delta Char.isUpper Char.toLower
  split <;> grind [UInt32.toNat_add, Char.toNat_val]

theorem toLower_toLower (c : Char) : c.toLower.toLower = c.toLower := by
  have h := isUpper_toLower c
  generalize c.toLower = d at h ⊢
  delta Char.isUpper at h
  delta Char.toLower
  rw [dif_neg]
  rintro ⟨hl, hu⟩
  simp only [decide_eq_false_iff_not] at h
  exact h ⟨hl, hu⟩

theorem sample_lowercase : sample_config.LawfulLowercase where
  empty := rfl
  lowercase s := by
    show ascii_lowercase (ascii_lowercase s) = ascii_lowercase s
    rw [ascii_lowercase, ascii_lowercase, String.toList_ofList, List.map_map]
    exact congrArg String.ofList (List.map_congr_left fun c _ => toLower_toLower c)

def saving : List (Act String (List UInt8)) :=
  [.proxy true, .connect_to_peer (peer_connection "1.2.3.4"), .connected 0 true]

theorem run_saving : ∃ s, (machine sample_config).run (.new ⟨∅, 0⟩) saving = some s ∧ s.pc = .sleep ∧ s.connecting = [] :=
  ⟨_, rfl, rfl, rfl⟩

/-- LDK does not have the peer any more when the loop wakes. -/
def reconnecting : List (Act String (List UInt8)) :=
  saving ++ [.wake, .auto_connect, .auto_connected, .auto_connect]

theorem saved_peer_listed : ∃ s, (machine sample_config).run (.new ⟨∅, 0⟩) reconnecting = some s ∧
    ∃ pass ∈ s.passes, pass.peer_connections = [(peer_text, peer_connection "1.2.3.4")] ∧
      pass.dialed.map (·.pubkey) = [peer_text] ∧ pass.Sound sample_config s.calls [] := by
  have hpasses : ((machine sample_config).run (.new ⟨∅, 0⟩) reconnecting).map (fun s =>
      s.passes.map fun pass => (pass.peer_connections, pass.dialed.map (·.pubkey))) =
        some [([(peer_text, peer_connection "1.2.3.4")], [peer_text])] := by
    decide +kernel
  obtain ⟨s, hs, hmap⟩ := Option.map_eq_some_iff.mp hpasses
  obtain ⟨pass, hpass, hlists⟩ := List.map_eq_singleton_iff.mp hmap
  obtain ⟨hlisted, hdialed⟩ := Prod.mk.inj hlists
  have hmem : pass ∈ s.passes := by
    rw [hpass]
    exact List.mem_cons_self
  obtain ⟨-, -, hsound, -⟩ := auto_connect sample_config sample_lowercase
    (fun key hk => absurd hk (AList.notMem_empty key)) reconnecting hs
  exact ⟨s, hs, pass, hmem, hlisted, hdialed, hsound pass hmem⟩

def deleting : List (Act String (List UInt8)) := [.wake, .auto_connect]

theorem run_deleting : ((machine sample_config).run (.new ⟨∅, 0⟩)
    (saving ++ .delete_peer (pubkey_text.to_string peer_text) :: deleting)).isSome = true := by
  decide +kernel

theorem deleted_lsp : ∃ s t, (machine sample_config).run (.new ⟨∅, 0⟩) saving = some s ∧
    (machine sample_config).run s (.delete_peer (pubkey_text.to_string peer_text) :: deleting) = some t ∧
    last_peer pubkey_text t.calls first_node peer_text = none := by
  obtain ⟨s, hs, hpc, hconnecting⟩ := run_saving
  obtain ⟨t, ht⟩ := Option.isSome_iff_exists.mp run_deleting
  rw [Machine.run_append, hs, Option.bind_some] at ht
  have hspares : (machine sample_config).Along (fun _ a => Spares sample_config peer_text a) s
      (.delete_peer (pubkey_text.to_string peer_text) :: deleting) :=
    ⟨(fun _ he => by cases he), fun _ _ => ⟨(fun _ he => by cases he), fun _ _ =>
      ⟨(fun _ he => by cases he), fun _ _ => trivial⟩⟩⟩
  exact ⟨s, t, hs, ht, (deleted_peer_left sample_config sample_lowercase
    (fun key hk => absurd hk (AList.notMem_empty key)) saving hs hpc peer_text (fun info hi => by simp [hconnecting] at hi)
    deleting hspares ht).1⟩

end AutoConnect

end Mutiny
