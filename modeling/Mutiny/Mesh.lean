import Mutiny.SocketOutput
import Mutiny.SocketSenders

/-!
# Any number of nodes and the proxy

Nodes are started at any time. Each keeps the websockets that it has opened so far, and each websocket leads to a loop
of the proxy. What a node sends arrives in the inbox of its loop, and what a loop writes arrives at the node, in the order
in which it was sent, unless the websocket has ended. Nodes and proxy take the steps of their own machines
(`proxy_of_run`, `client_of_run`).
-/

namespace Mutiny

abbrev NodeId := Nat

/-- `link i k` is the loop that serves the websocket `k` of the node `i`. -/
structure Mesh where
  nodes : Nat
  clients : NodeId → Client
  proxy : Proxy
  link : NodeId → ConnId → ConnId

inductive MeshAct where
  | start (our_peer_pubkey : Bytes)
  /-- A step of a node that sends nothing down a websocket. -/
  | client (i : NodeId) (a : ClientAct)
  | sender (i : NodeId) (k : ConnId)
  | reconnect (i : NodeId) (order : List Bytes)
  /-- A step of a loop of the proxy, or of a listener task, that writes nothing to a websocket. -/
  | proxy (a : ProxyAct)
  /-- The loop takes a command from its channel; `ok` says whether the websocket takes what is written. -/
  | write (i : NodeId) (k : ConnId) (ok : Bool)
  /-- The proxy sees the end of the websocket. -/
  | close (i : NodeId) (k : ConnId)
  deriving DecidableEq

/-- A step of the user, of LDK, of a listener or of a reading task, or an error or the end of a websocket. -/
def ClientAct.is_local (a : ClientAct) : Bool :=
  a.is_own ||
    match a with
    | .reader _ | .create _ _ | .proxy_close _ | .proxy_send _ none => true
    | _ => false

def ProxyAct.is_inner : ProxyAct → Bool
  | .read _ | .resume _ | .listener _ => true
  | .connect _ | .client_send _ _ | .client_close _ | .receive _ _ => false

/-- A message comes to the proxy, unless the websocket has ended. -/
def Proxy.take (c : ConnId) (p : Proxy) (msg : Message) : Proxy := (Proxy.step p (.client_send c msg)).getD p

/-- A message comes to the node, unless the websocket has ended. -/
def Client.arrive (k : ConnId) (x : Client) (msg : Message) : Client :=
  match of_proxy msg with
  | some msg => (Client.step x (.proxy_send k (some msg))).getD x
  | none => x

namespace Mesh

def new : Mesh := ⟨0, fun _ => .new [], .new, fun _ _ => 0⟩

variable (s : Mesh)

def set (i : NodeId) (x : Client) : Mesh := { s with clients := Function.update s.clients i x }

/-- A websocket is opened, to `/v1/mutiny/` and the public key of the node. -/
def dial (i : NodeId) (k : ConnId) : Mesh :=
  { s with
    proxy := s.proxy.connect (Hex.to_hex (s.clients i).our_peer_pubkey)
    link := Function.update s.link i (Function.update (s.link i) k s.proxy.conns) }

def start (our_peer_pubkey : Bytes) : Mesh :=
  { (s.set s.nodes (.new our_peer_pubkey)).dial s.nodes 0 with nodes := s.nodes + 1 }

def client (i : NodeId) (a : ClientAct) : Option Mesh :=
  if i < s.nodes ∧ a.is_local then ((s.clients i).step a).map (s.set i) else none

def sender (i : NodeId) (k : ConnId) : Option Mesh :=
  if i < s.nodes then
    ((s.clients i).step (.sender k)).map fun x =>
      let sent := (x.sent k).drop ((s.clients i).sent k).length
      { s.set i x with proxy := (sent.map to_proxy).foldl (Proxy.take (s.link i k)) s.proxy }
  else none

def reconnect (i : NodeId) (order : List Bytes) : Option Mesh :=
  if i < s.nodes then
    ((s.clients i).step (.reconnect order)).map fun x => (s.set i x).dial i (s.clients i).conns
  else none

def inner (a : ProxyAct) : Option Mesh :=
  if a.is_inner then (s.proxy.step a).map fun proxy => { s with proxy } else none

def write (i : NodeId) (k : ConnId) (ok : Bool) : Option Mesh :=
  let c := s.link i k
  if i < s.nodes ∧ k < (s.clients i).conns then
    (s.proxy.step (.receive c ok)).map fun proxy =>
      let written := (proxy.handlers c).written.drop (s.proxy.handlers c).written.length
      { s.set i (written.foldl (Client.arrive k) (s.clients i)) with proxy }
  else none

def close (i : NodeId) (k : ConnId) : Option Mesh :=
  if i < s.nodes ∧ k < (s.clients i).conns then
    (s.proxy.step (.client_close (s.link i k))).map fun proxy => { s with proxy }
  else none

def step : MeshAct → Option Mesh
  | .start our_peer_pubkey => some (s.start our_peer_pubkey)
  | .client i a => s.client i a
  | .sender i k => s.sender i k
  | .reconnect i order => s.reconnect i order
  | .proxy a => s.inner a
  | .write i k ok => s.write i k ok
  | .close i k => s.close i k

def machine : Machine Mesh MeshAct := ⟨step⟩

variable {s : Mesh} {t : Mesh}

/-- What each step is, and when it can be taken. -/
inductive Stepped (s : Mesh) : MeshAct → Mesh → Prop where
  | start (our_peer_pubkey : Bytes) : Stepped s (.start our_peer_pubkey) (s.start our_peer_pubkey)
  | client {i : NodeId} {a : ClientAct} {x : Client} (hi : i < s.nodes) (ha : a.is_local)
      (hx : (s.clients i).step a = some x) : Stepped s (.client i a) (s.set i x)
  | sender {i : NodeId} {k : ConnId} {x : Client} (hi : i < s.nodes) (hx : (s.clients i).step (.sender k) = some x) :
      Stepped s (.sender i k) { s.set i x with proxy :=
        (((x.sent k).drop ((s.clients i).sent k).length).map to_proxy).foldl (Proxy.take (s.link i k)) s.proxy }
  | reconnect {i : NodeId} {order : List Bytes} {x : Client} (hi : i < s.nodes)
      (hx : (s.clients i).step (.reconnect order) = some x) :
      Stepped s (.reconnect i order) ((s.set i x).dial i (s.clients i).conns)
  | proxy {a : ProxyAct} {p : Proxy} (ha : a.is_inner) (hp : s.proxy.step a = some p) :
      Stepped s (.proxy a) { s with proxy := p }
  | write {i : NodeId} {k : ConnId} {ok : Bool} {p : Proxy} (hi : i < s.nodes) (hk : k < (s.clients i).conns)
      (hp : s.proxy.step (.receive (s.link i k) ok) = some p) :
      Stepped s (.write i k ok) { s.set i (((p.handlers (s.link i k)).written.drop
        (s.proxy.handlers (s.link i k)).written.length).foldl (Client.arrive k) (s.clients i)) with proxy := p }
  | close {i : NodeId} {k : ConnId} {p : Proxy} (hi : i < s.nodes) (hk : k < (s.clients i).conns)
      (hp : s.proxy.step (.client_close (s.link i k)) = some p) : Stepped s (.close i k) { s with proxy := p }

theorem stepped_of_step {a : MeshAct} (h : step s a = some t) : Stepped s a t := by
  cases a with
  | start our_peer_pubkey =>
    cases h
    exact .start our_peer_pubkey
  | client i a =>
    simp only [step, client, Option.ite_none_right_eq_some] at h
    obtain ⟨⟨hi, ha⟩, h⟩ := h
    obtain ⟨x, hx, rfl⟩ := Option.map_eq_some_iff.mp h
    exact .client hi ha hx
  | sender i k =>
    simp only [step, sender, Option.ite_none_right_eq_some] at h
    obtain ⟨hi, h⟩ := h
    obtain ⟨x, hx, rfl⟩ := Option.map_eq_some_iff.mp h
    exact .sender hi hx
  | reconnect i order =>
    simp only [step, reconnect, Option.ite_none_right_eq_some] at h
    obtain ⟨hi, h⟩ := h
    obtain ⟨x, hx, rfl⟩ := Option.map_eq_some_iff.mp h
    exact .reconnect hi hx
  | proxy a =>
    simp only [step, inner, Option.ite_none_right_eq_some] at h
    obtain ⟨ha, h⟩ := h
    obtain ⟨p, hp, rfl⟩ := Option.map_eq_some_iff.mp h
    exact .proxy ha hp
  | write i k ok =>
    simp only [step, write, Option.ite_none_right_eq_some] at h
    obtain ⟨⟨hi, hk⟩, h⟩ := h
    obtain ⟨p, hp, rfl⟩ := Option.map_eq_some_iff.mp h
    exact .write hi hk hp
  | close i k =>
    simp only [step, close, Option.ite_none_right_eq_some] at h
    obtain ⟨⟨hi, hk⟩, h⟩ := h
    obtain ⟨p, hp, rfl⟩ := Option.map_eq_some_iff.mp h
    exact .close hi hk hp

/-! ## The machines of the parties -/

theorem run_take (c : ConnId) (p : Proxy) (msg : Message) : ∃ ps, Proxy.machine.run p ps = some (p.take c msg) := by
  cases hs : p.step (.client_send c msg) with
  | none => exact ⟨[], by simp [Proxy.take, hs]⟩
  | some q =>
    refine ⟨[.client_send c msg], ?_⟩
    rw [Proxy.take, hs]
    exact Machine.run_singleton hs

theorem run_arrive (k : ConnId) (x : Client) (msg : Message) :
    ∃ cs, Client.machine.run x cs = some (x.arrive k msg) := by
  unfold Client.arrive
  cases of_proxy msg with
  | none => exact ⟨[], rfl⟩
  | some m =>
    cases hs : x.step (.proxy_send k (some m)) with
    | none => exact ⟨[], by simp [hs]⟩
    | some y =>
      refine ⟨[.proxy_send k (some m)], ?_⟩
      simp only [hs, Option.getD_some]
      exact Machine.run_singleton hs

/-- What a step does to the proxy is a run of the proxy. -/
theorem proxy_of_step {a : MeshAct} (h : step s a = some t) : ∃ ps, Proxy.machine.run s.proxy ps = some t.proxy := by
  cases stepped_of_step h with
  | start our_peer_pubkey => exact ⟨[.connect _], rfl⟩
  | client hi ha hx => exact ⟨[], rfl⟩
  | sender hi hx => exact Machine.run_foldl (run_take _) _ _
  | reconnect hi hx => exact ⟨[.connect _], rfl⟩
  | proxy ha hp => exact ⟨_, Machine.run_singleton hp⟩
  | @write i k ok _ hi hk hp => exact ⟨[.receive (s.link i k) ok], Machine.run_singleton hp⟩
  | @close i k _ hi hk hp => exact ⟨[.client_close (s.link i k)], Machine.run_singleton hp⟩

/-- What a step does to a node is a run of the node. -/
theorem client_of_step {a : MeshAct} (h : step s a = some t) {j : NodeId} (hj : j < s.nodes) :
    ∃ cs, Client.machine.run (s.clients j) cs = some (t.clients j) := by
  have hset : ∀ {i : NodeId} {x : Client}, (∃ cs, Client.machine.run (s.clients i) cs = some x) →
      ∃ cs, Client.machine.run (s.clients j) cs = some ((s.set i x).clients j) := by
    intro i x hx
    by_cases hij : j = i
    · subst hij
      simpa [set] using hx
    · exact ⟨[], by simp [set, hij]⟩
  cases stepped_of_step h with
  | start our_peer_pubkey => exact ⟨[], by simp [start, dial, set, Nat.ne_of_lt hj]⟩
  | client hi ha hx => exact hset ⟨_, Machine.run_singleton hx⟩
  | @sender i k _ hi hx => exact hset ⟨[.sender k], Machine.run_singleton hx⟩
  | @reconnect i order _ hi hx => exact hset ⟨[.reconnect order], Machine.run_singleton hx⟩
  | proxy ha hp => exact ⟨[], rfl⟩
  | write hi hk hp => exact hset (Machine.run_foldl (run_arrive _) _ _)
  | close hi hk hp => exact ⟨[], rfl⟩

theorem nodes_of_step {a : MeshAct} (h : step s a = some t) : (∃ our_peer_pubkey, a = .start our_peer_pubkey ∧
    t.nodes = s.nodes + 1 ∧ t.clients s.nodes = .new our_peer_pubkey) ∨ t.nodes = s.nodes := by
  cases stepped_of_step h with
  | start our_peer_pubkey => exact .inl ⟨our_peer_pubkey, rfl, rfl, by simp [start, dial, set]⟩
  | _ => exact .inr rfl

theorem proxy_of_run {as : List MeshAct} (h : machine.run new as = some s) :
    ∃ ps, Proxy.machine.run .new ps = some s.proxy := by
  refine Machine.invariant (I := fun s => ∃ ps, Proxy.machine.run .new ps = some s.proxy) ?_ ⟨[], rfl⟩ h
  intro s a t ⟨ps, hps⟩ hs
  obtain ⟨ps', hps'⟩ := proxy_of_step hs
  refine ⟨ps ++ ps', ?_⟩
  rw [Machine.run_append, hps]
  exact hps'

theorem client_of_run {as : List MeshAct} (h : machine.run new as = some s) : ∀ i, i < s.nodes →
    ∃ our_peer_pubkey cs, Client.machine.run (.new our_peer_pubkey) cs = some (s.clients i) := by
  refine Machine.invariant (I := fun s => ∀ i, i < s.nodes →
    ∃ our_peer_pubkey cs, Client.machine.run (.new our_peer_pubkey) cs = some (s.clients i)) ?_ ?_ h
  · intro s a t inv hs i hi
    by_cases hlt : i < s.nodes
    · obtain ⟨our_peer_pubkey, cs, hcs⟩ := inv i hlt
      obtain ⟨cs', hcs'⟩ := client_of_step hs hlt
      refine ⟨our_peer_pubkey, cs ++ cs', ?_⟩
      rw [Machine.run_append, hcs]
      exact hcs'
    · rcases nodes_of_step hs with ⟨our_peer_pubkey, -, hn, hnew⟩ | hn
      · have hlast : i = s.nodes := by omega
        rw [hlast, hnew]
        exact ⟨our_peer_pubkey, [], rfl⟩
      · exact absurd (hn ▸ hi) hlt
  · intro i hi
    exact absurd hi (Nat.not_lt_zero i)

end Mesh

end Mutiny
