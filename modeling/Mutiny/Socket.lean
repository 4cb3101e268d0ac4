import Mathlib.Data.List.AList
import Mutiny.Machine
import Mutiny.Proxy

/-!
# The sockets of a node (`node-manager/src/socket.rs`, `node.rs`)

A node keeps one websocket to the proxy, the multi socket. For each mutiny peer there is a subsocket: what it sends goes
through one channel to the websocket, and what the websocket brings is queued for it by the public key in front. LDK
holds a clone of every descriptor that it was given. Tasks run on one thread and no task holds the mutex of the socket
map over an await, so that what a task does between two awaits is one step; only the listener is also stopped between
the lookup of a peer and the insert of the new subsocket, where it takes the mutex twice.
-/

set_option linter.dupNamespace false

namespace Mutiny

namespace Gloo

/-- A message of a websocket of the browser; `Text none` does not parse as a command. -/
inductive Message where
  | Text (command : Option MutinyProxyCommand)
  | Bytes (msg : Bytes)
  deriving DecidableEq, Repr

end Gloo

/-- The number that `ID_COUNTER` has given to a descriptor. -/
abbrev DescId := Nat

/-- The kind of a `WsSocketDescriptor`. -/
inductive DescriptorKind where
  | Tcp
  | Mutiny (peer_pubkey_bytes : Bytes)
  deriving DecidableEq, Repr

/-- The task of `schedule_descriptor_read` for a descriptor. -/
inductive ReadLoop where
  | idle
  | running
  | ended
  deriving DecidableEq, Repr

/-- A descriptor, what LDK knows of it and the task that reads it. `stop` says that `disconnect_socket` was called,
`tracked` that LDK has it among its peers, `node_id` is the key that LDK lists for it after the handshake, and `answers`
are the results of `read_event` so far. -/
structure Descriptor where
  kind : DescriptorKind
  stop : Bool
  read_channel : List Bytes
  tracked : Bool
  node_id : Option Bytes
  loop : ReadLoop
  answers : List Bool
  deriving DecidableEq, Repr

/-- The reading task that `listen` spawns for a connection. -/
inductive ReaderPc where
  | absent
  | reading
  | creating (id message : Bytes)
  | done
  deriving DecidableEq, Repr

/-- A node. `channel` is what the subsockets have sent and no task has taken yet. The websockets to the proxy are
numbered: `incoming` is what a websocket has brought and its reader has not read (`none` is a read error), `closed` says
that it has ended, `senders` whether its sending task runs, and `sent` is what went down it. -/
structure Client where
  our_peer_pubkey : Bytes
  next_id : Nat
  descriptors : DescId → Descriptor
  socket_map : AList fun _ : Bytes => DescId
  channel : List Gloo.Message
  conns : Nat
  conn : ConnId
  connected : Bool
  incoming : ConnId → List (Option Gloo.Message)
  closed : ConnId → Bool
  readers : ConnId → ReaderPc
  senders : ConnId → Bool
  sent : ConnId → List Gloo.Message

inductive ConnectionType where
  | Tcp
  | Mutiny
  deriving DecidableEq, Repr

/-- How `connect_peer` fares: no websocket to the TCP proxy, an error of `new_outbound_connection`, or the bytes to send
first. -/
inductive OutboundAnswer where
  | no_proxy
  | refused
  | initial_bytes (bytes : Bytes)
  deriving DecidableEq, Repr

/-- What `descriptor.read()` returns. -/
inductive ReadEvent where
  | Text
  | Bytes (b : Bytes)
  | Err
  | End
  deriving DecidableEq, Repr

inductive ClientAct where
  /-- The user, or the loop that connects to known peers. -/
  | connect_peer (peer : Bytes) (connection_type : ConnectionType) (answer : OutboundAnswer)
  | handshake (d : DescId) (node_id : Bytes)
  /-- LDK writes, or drops a peer, through its own clone of the descriptor. -/
  | ldk_send (d : DescId) (data : Bytes)
  | ldk_disconnect (d : DescId)
  | proxy_send (k : ConnId) (msg : Option Gloo.Message)
  | proxy_close (k : ConnId)
  | reader (k : ConnId)
  /-- The listener goes on after the lookup; `ok` is the answer of `new_inbound_connection`. -/
  | create (k : ConnId) (ok : Bool)
  | sender (k : ConnId)
  /-- The loop that checks `connected`; `order` is how the map is walked. -/
  | reconnect (order : List Bytes)
  /-- A turn of the task of `schedule_descriptor_read`; `ok` is the answer of `read_event`. -/
  | read (d : DescId) (event : ReadEvent) (ok : Bool)
  deriving DecidableEq, Repr

def Descriptor.new (kind : DescriptorKind) : Descriptor := ⟨kind, false, [], false, none, .idle, []⟩

/-- The sender and the body of a frame from the proxy. -/
def split_frame (msg : Bytes) : Option (Bytes × Bytes) :=
  if msg.length < PUBKEY_BYTES_LEN then none else some (msg.take PUBKEY_BYTES_LEN, msg.drop PUBKEY_BYTES_LEN)

/-- A node after the first `listen`. -/
def Client.new (our_peer_pubkey : Bytes) : Client where
  our_peer_pubkey
  next_id := 0
  descriptors _ := .new .Tcp
  socket_map := ∅
  channel := []
  conns := 1
  conn := 0
  connected := true
  incoming _ := []
  closed _ := false
  readers := Function.update (fun _ => .absent) 0 .reading
  senders := Function.update (fun _ => false) 0 true
  sent _ := []

namespace Client

variable (s : Client)

def set (d : DescId) (x : Descriptor) : Client := { s with descriptors := Function.update s.descriptors d x }

/-! ## Descriptors -/

def send (msg : Gloo.Message) : Client := { s with channel := s.channel ++ [msg] }

/-- The close of a TCP websocket is spawned. -/
def disconnect_socket (d : DescId) : Client :=
  let x := s.descriptors d
  match x.kind with
  | .Tcp => s.set d { x with stop := true }
  | .Mutiny peer => (s.send (.Text (some (.Disconnect peer s.our_peer_pubkey)))).set d { x with stop := true }

def send_data (d : DescId) (data : Bytes) : Client :=
  let x := s.descriptors d
  match x.kind with
  | .Tcp => s
  | .Mutiny peer => if x.stop then s else s.send (.Bytes (peer ++ data))

def socket_disconnected (d : DescId) : Client := s.set d { s.descriptors d with tracked := false }

/-- `new_outbound_connection` or `new_inbound_connection` has accepted the descriptor. -/
def new_connection (d : DescId) : Client := s.set d { s.descriptors d with tracked := true }

def schedule_descriptor_read (d : DescId) : Client := s.set d { s.descriptors d with loop := .running }

def queue (d : DescId) (message : Bytes) : Client :=
  let x := s.descriptors d
  s.set d { x with read_channel := x.read_channel ++ [message] }

def create (kind : DescriptorKind) : Client := { s.set s.next_id (.new kind) with next_id := s.next_id + 1 }

def create_new_subsocket (peer_pubkey : Bytes) : Client :=
  { s.create (.Mutiny peer_pubkey) with socket_map := s.socket_map.insert peer_pubkey s.next_id }

def get_peer_node_ids : List Bytes :=
  (List.range s.next_id).filterMap fun d => if (s.descriptors d).tracked then (s.descriptors d).node_id else none

/-! ## Connecting to a peer -/

def connect_peer (peer : Bytes) : ConnectionType → OutboundAnswer → Option Client
  | .Tcp, .no_proxy => some s
  | .Tcp, .refused => some (s.create .Tcp)
  | .Tcp, .initial_bytes bytes =>
    let d := s.next_id
    some ((((s.create .Tcp).new_connection d).send_data d bytes).schedule_descriptor_read d)
  | .Mutiny, .no_proxy => none
  -- the entry that was made for the subsocket stays in the map
  | .Mutiny, .refused => some (s.create_new_subsocket peer)
  | .Mutiny, .initial_bytes bytes =>
    let d := s.next_id
    some ((((s.create_new_subsocket peer).new_connection d).send_data d bytes).schedule_descriptor_read d)

def connect_peer_if_necessary (peer : Bytes) (connection_type : ConnectionType) (answer : OutboundAnswer) : Option Client :=
  if peer ∈ s.get_peer_node_ids then some s else s.connect_peer peer connection_type answer

/-! ## The tasks of `listen` -/

def on_command : Option MutinyProxyCommand → Client
  | none => s
  | some (.Disconnect _ from_) =>
    match s.socket_map.lookup from_ with
    | some d => { (s.disconnect_socket d).socket_disconnected d with socket_map := s.socket_map.erase from_ }
    | none => s

def on_bytes (k : ConnId) (msg : Bytes) : Client :=
  match split_frame msg with
  | none => s
  | some (id, message) =>
    match s.socket_map.lookup id with
    | some d => s.queue d message
    | none => { s with readers := Function.update s.readers k (.creating id message) }

def reader (k : ConnId) : Option Client :=
  if s.readers k ≠ .reading then none
  else
    match s.incoming k with
    | [] =>
      if s.closed k then some { s with readers := Function.update s.readers k .done, connected := false } else none
    | msg :: rest =>
      let s' := { s with incoming := Function.update s.incoming k rest }
      match msg with
      | none => some s'
      | some (.Text command) => some (s'.on_command command)
      | some (.Bytes msg) => some (s'.on_bytes k msg)

/-- The listener makes an inbound subsocket, and takes it out again when LDK does not accept it. -/
def create_inbound (id message : Bytes) (ok : Bool) : Client :=
  let d := s.next_id
  let s' := s.create_new_subsocket id
  if ok then ((s'.new_connection d).schedule_descriptor_read d).queue d message
  else { (s'.disconnect_socket d).socket_disconnected d with socket_map := s'.socket_map.erase id }

def go_on (k : ConnId) (ok : Bool) : Option Client :=
  match s.readers k with
  | .creating id message =>
    some ({ s with readers := Function.update s.readers k .reading }.create_inbound id message ok)
  | .absent | .reading | .done => none

def sender (k : ConnId) : Option Client :=
  if s.senders k then
    let s' :=
      match s.channel with
      | msg :: rest => { s with channel := rest, sent := Function.update s.sent k (s.sent k ++ [msg]) }
      | [] => s
    if s.connected then some s' else some { s' with senders := Function.update s'.senders k false }
  else none

def listen (k : ConnId) : Client :=
  { s with readers := Function.update s.readers k .reading, senders := Function.update s.senders k true }

/-- Stops what is stored for a peer and tells LDK. -/
def drop_subsocket (s : Client) (peer : Bytes) : Client :=
  match s.socket_map.lookup peer with
  | some d => (s.disconnect_socket d).socket_disconnected d
  | none => s

/-- The reconnect loop: it acts only when the multi socket is not connected. -/
def reconnect (order : List Bytes) : Option Client :=
  if s.connected = false ∧ order.Perm s.socket_map.keys then
    let s' := order.foldl drop_subsocket s
    some ({ s' with socket_map := ∅, conn := s.conns, conns := s.conns + 1, connected := true }.listen s.conns)
  else none

/-! ## The reading loop of a descriptor -/

/-- `descriptor.read()`: a TCP websocket brings anything, a subsocket what was queued until it is stopped. -/
def read_descriptor (d : DescId) (event : ReadEvent) : Option Client :=
  let x := s.descriptors d
  match x.kind with
  | .Tcp => some s
  | .Mutiny _ =>
    if x.stop then if event = .Err then some s else none
    else
      match x.read_channel with
      | b :: rest => if event = .Bytes b then some (s.set d { x with read_channel := rest }) else none
      | [] => none

/-- LDK accepts data only for a peer it has, and has dropped the peer when it returns an error. -/
def read_event (d : DescId) (ok : Bool) : Option Client :=
  let x := s.descriptors d
  if ok then if x.tracked then some (s.set d { x with answers := x.answers ++ [true] }) else none
  else some (s.set d { x with tracked := false, answers := x.answers ++ [false] })

def read (d : DescId) (event : ReadEvent) (ok : Bool) : Option Client :=
  if (s.descriptors d).loop ≠ .running then none
  else
    (s.read_descriptor d event).bind fun s =>
      match event with
      | .Text => some s
      | .Bytes _ => s.read_event d ok
      | .Err | .End => some (s.set d { s.descriptors d with loop := .ended })

def step : ClientAct → Option Client
  | .connect_peer peer connection_type answer => s.connect_peer_if_necessary peer connection_type answer
  | .handshake d node_id =>
    if (s.descriptors d).tracked then some (s.set d { s.descriptors d with node_id := some node_id }) else none
  | .ldk_send d data => if (s.descriptors d).tracked then some (s.send_data d data) else none
  | .ldk_disconnect d =>
    if (s.descriptors d).tracked then some ((s.socket_disconnected d).disconnect_socket d) else none
  | .proxy_send k msg =>
    if k < s.conns ∧ s.closed k = false then
      some { s with incoming := Function.update s.incoming k (s.incoming k ++ [msg]) }
    else none
  | .proxy_close k => if k < s.conns then some { s with closed := Function.update s.closed k true } else none
  | .reader k => s.reader k
  | .create k ok => s.go_on k ok
  | .sender k => s.sender k
  | .reconnect order => s.reconnect order
  | .read d event ok => s.read d event ok

def machine : Machine Client ClientAct := ⟨step⟩

end Client

end Mutiny
