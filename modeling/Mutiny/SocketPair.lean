import Mutiny.ProxyRelay
import Mutiny.SocketSteps

/-!
# Two nodes and the proxy between them

Both nodes run the listener of `socket.rs`. What one of them puts into its channel is taken by its sending task, written
to its websocket, relayed by the proxy and brought by the websocket of the other, in one order all the way, so that it
is kept as one list of parcels. What is addressed to a third node is left out.
-/

namespace Mutiny

/-- A message on its way, as it will arrive, with the subsocket that sent it. `received` are the subsockets of the other
node of which a frame had come before. -/
structure Parcel where
  source : DescId
  msg : Gloo.Message
  received : List DescId
  deriving DecidableEq, Repr

def Parcel.is_frame (p : Parcel) : Bool :=
  match p.msg with
  | .Bytes _ => true
  | .Text _ => false

/-- One of the nodes. `received` are the subsockets of the other of which a frame has come, `heard d` those of which a
frame was queued for `d`, and `flight` is what the node has sent and the listener of the other has not worked off. -/
structure Party where
  client : Client
  received : List DescId
  heard : DescId → List DescId
  flight : List Parcel

abbrev Pair := Bool → Party

inductive PairAct where
  /-- A step of the user, of LDK or of a reading task. -/
  | own (i : Bool) (a : ClientAct)
  | deliver (i : Bool)
  /-- The listener goes on after the lookup; `ok` is the answer of `new_inbound_connection`. -/
  | create (i : Bool) (ok : Bool)
  deriving DecidableEq, Repr

/-- Steps that are not of the websocket or of its tasks. A peer is given as a `PublicKey`. -/
def ClientAct.is_own : ClientAct → Bool
  | .connect_peer peer _ _ => peer.length = PUBKEY_BYTES_LEN
  | .handshake _ _ | .ldk_send _ _ | .ldk_disconnect _ | .read _ _ _ => true
  | .proxy_send _ _ | .proxy_close _ | .reader _ | .create _ _ | .sender _ | .reconnect _ => false

/-- The descriptor that sends, if a step of the node sends anything. -/
def Client.author (s : Client) : ClientAct → DescId
  | .ldk_send d _ | .ldk_disconnect d => d
  | .connect_peer _ _ _ | .handshake _ _ | .proxy_send _ _ | .proxy_close _ | .reader _ | .create _ _ | .sender _
  | .reconnect _ | .read _ _ _ => s.next_id

def to_proxy : Gloo.Message → Message
  | .Text command => .Text command
  | .Bytes msg => .Binary msg

def of_proxy : Message → Option Gloo.Message
  | .Text command => some (.Text command)
  | .Binary msg => some (.Bytes msg)
  | .Other => none

namespace Pair

variable (key : Bool → Bytes)

def new : Pair := fun i => ⟨.new (key i), [], fun _ => [], []⟩

/-- What the proxy makes of a message of a node, if it is addressed to the other. -/
def wire (i : Bool) (msg : Gloo.Message) : Option Gloo.Message :=
  match relayed (key i) (to_proxy msg) with
  | some (dest, command) => if dest = key (!i) then of_proxy (Proxy.to_message (key (!i)) command) else none
  | none => none

/-- The node has come to `c`, and the descriptor `d` has sent what is in the channel. -/
def sends (i : Bool) (x : Party) (d : DescId) (c : Client) : Party :=
  { x with
    client := { c with channel := [] }
    flight := x.flight ++ (c.channel.filterMap (wire key i)).map fun msg => ⟨d, msg, x.received⟩ }

def receives (i : Bool) (x : Party) (p : Parcel) : Party :=
  if p.is_frame then
    let x := { x with received := p.source :: x.received }
    match x.client.socket_map.lookup (key (!i)) with
    | some d => { x with heard := Function.update x.heard d (p.source :: x.heard d) }
    | none => x
  else x

variable (s : Pair)

def own (i : Bool) (a : ClientAct) : Option Pair :=
  if a.is_own then
    ((s i).client.step a).map fun c => Function.update s i (sends key i (s i) ((s i).client.author a) c)
  else none

/-- A frame for which a subsocket is made stays on its way until that is done. -/
def deliver (i : Bool) : Option Pair :=
  match (s !i).flight with
  | [] => none
  | p :: rest =>
    ((s i).client.step (.proxy_send 0 (some p.msg))).bind fun c => (c.step (.reader 0)).map fun c =>
      let d := ((s i).client.socket_map.lookup (key (!i))).getD (s i).client.next_id
      let s' := Function.update s i (sends key i (receives key i (s i) p) d c)
      if c.readers 0 = .reading then Function.update s' (!i) { s !i with flight := rest } else s'

def create (i : Bool) (ok : Bool) : Option Pair :=
  match (s !i).flight with
  | [] => none
  | p :: rest =>
    ((s i).client.step (.create 0 ok)).map fun c =>
      let d := (s i).client.next_id
      let x := sends key i (s i) d c
      let x := if ok then { x with heard := Function.update x.heard d (p.source :: x.heard d) } else x
      Function.update (Function.update s i x) (!i) { s !i with flight := rest }

def step : PairAct → Option Pair
  | .own i a => own key s i a
  | .deliver i => deliver key s i
  | .create i ok => create key s i ok

def machine : Machine Pair PairAct := ⟨step key⟩

def entry (i : Bool) : Option DescId := (s i).client.socket_map.lookup (key (!i))

/-- The node may connect to the other: it has nothing stored for it, nor is about to, no disconnect is on its way to it,
and what it has sent before cannot make the other send one. -/
def Clear (i : Bool) : Prop :=
  entry key s i = none ∧ (s i).client.readers 0 = .reading ∧ (∀ p ∈ (s !i).flight, p.is_frame) ∧
    ((s i).flight = [] ∨ entry key s (!i) = none ∧ ∀ p ∈ (s i).flight, p.is_frame = false)

instance (i : Bool) : Decidable (Clear key s i) := inferInstanceAs (Decidable (_ ∧ _ ∧ _ ∧ (_ ∨ _ ∧ _)))

/-- A node connects to the other only when it is clear to do so. -/
def Guard (s : Pair) : PairAct → Prop
  | .own i (.connect_peer peer .Mutiny _) =>
    peer = key (!i) → peer ∉ (s i).client.get_peer_node_ids → Clear key s i
  | _ => True

instance : ∀ a, Decidable (Guard key s a)
  | .own i (.connect_peer peer .Mutiny _) =>
    inferInstanceAs (Decidable (peer = key (!i) → peer ∉ (s i).client.get_peer_node_ids → Clear key s i))
  | .own _ (.connect_peer _ .Tcp _) | .own _ (.handshake _ _) | .own _ (.ldk_send _ _) | .own _ (.ldk_disconnect _)
  | .own _ (.proxy_send _ _) | .own _ (.proxy_close _) | .own _ (.reader _) | .own _ (.create _ _) | .own _ (.sender _)
  | .own _ (.reconnect _) | .own _ (.read _ _ _) | .deliver _ | .create _ _ => .isTrue trivial

end Pair

end Mutiny
