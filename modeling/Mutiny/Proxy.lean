import Mutiny.Hex
import Mutiny.Machine

/-!
# The websocket proxy (`ln-websocket-proxy/src/main.rs`)

Every connection of a client is served by its own loop of `handle_mutiny_ws`. The loops share the map of producers
behind one mutex and send to each other through channels of 32 places. An `if let` keeps what its scrutinee created
until the end of its `else` branch, so a loop that looks a peer up holds the mutex while it sends. The machine
interleaves the loops at their awaits with the spawned listener tasks and with what the clients do.
-/

namespace Mutiny

abbrev Bytes := List UInt8

instance : LawfulBEq Bytes := inferInstanceAs (LawfulBEq (List UInt8))

/-- The number of a connection, and that of a listener task. -/
abbrev ConnId := Nat
abbrev TaskId := Nat

def PUBKEY_BYTES_LEN : Nat := 33

/-- The places of a channel. -/
def CHANNEL_LEN : Nat := 32

inductive MutinyProxyCommand where
  | Disconnect (to_ from_ : Bytes)
  deriving DecidableEq, Repr

/-- A websocket message; `Text none` does not parse as a command. -/
inductive Message where
  | Text (command : Option MutinyProxyCommand)
  | Binary (msg : Bytes)
  | Other
  deriving DecidableEq, Repr

inductive MutinyWSCommand where
  | Send (id val : Bytes)
  | Disconnect (id : Bytes)
  deriving DecidableEq, Repr

/-- Where a loop is. From `send_disconnect` to `send_self` it holds the mutex of the producer map. -/
inductive Pc where
  | absent
  | registering
  | select
  | lock_disconnect (peer_id : Bytes)
  | lock_send (peer_id val : Bytes)
  | send_disconnect (peer_id : Bytes) (peer : ConnId)
  | drop_peer (peer_id : Bytes)
  | send_message (peer_id val : Bytes) (peer : ConnId)
  | subscribe (peer_id : Bytes) (peer : ConnId)
  | listen (peer_id : Bytes) (peer : ConnId) (late : Bool)
  | send_self (peer_id : Bytes)
  | teardown
  | done
  deriving DecidableEq, Repr

/-- One run of `handle_mutiny_ws`. `inbox` are the messages of the client that are not read yet, `gone` says that the
client has closed the connection, `broadcast` that the loop has broadcast its end, and `written` is what went down the
websocket. -/
structure Handler where
  owner_id : Bytes
  pc : Pc
  inbox : List Message
  gone : Bool
  queue : List MutinyWSCommand
  connected_peers : List Bytes
  broadcast : Bool
  written : List Message
  deriving DecidableEq, Repr

def Handler.none : Handler := ⟨[], .absent, [], false, [], [], false, []⟩

inductive TaskPc where
  | waiting
  | sending
  | clearing
  | done
  deriving DecidableEq, Repr

/-- A task of `listen_for_disconnections`: it waits for the end of `peer` on behalf of `owner`. `late` says that the
subscription was made after the broadcast, so that the task wakes only when the last sender is dropped. -/
structure Listener where
  owner : ConnId
  other_peer : Bytes
  peer : ConnId
  late : Bool
  pc : TaskPc
  deriving DecidableEq, Repr

/-- `producers` is the map behind the mutex: the channel and the broadcast sender of a connection, by its number. -/
structure Proxy where
  conns : Nat
  handlers : ConnId → Handler
  producers : Bytes → Option ConnId
  lock : Option ConnId
  listeners : List Listener

def Proxy.new : Proxy := ⟨0, fun _ => .none, fun _ => none, none, []⟩

inductive ProxyAct where
  | connect (identifier : String)
  | client_send (c : ConnId) (msg : Message)
  | client_close (c : ConnId)
  /-- The first arm of the `select`. -/
  | read (c : ConnId)
  /-- The second arm; `ok` says whether the websocket takes what is written. -/
  | receive (c : ConnId) (ok : Bool)
  /-- The loop goes on from an await. -/
  | resume (c : ConnId)
  | listener (t : TaskId)
  deriving DecidableEq, Repr

namespace Proxy

variable (s : Proxy)

def set (c : ConnId) (h : Handler) : Proxy := { s with handlers := Function.update s.handlers c h }

def goto (c : ConnId) (pc : Pc) : Proxy := s.set c { s.handlers c with pc }

def push (c : ConnId) (command : MutinyWSCommand) : Proxy :=
  s.set c { s.handlers c with queue := (s.handlers c).queue ++ [command] }

/-- The channel of a connection has a free place. -/
def Room (c : ConnId) : Prop := (s.handlers c).queue.length < CHANNEL_LEN

instance (c : ConnId) : Decidable (s.Room c) := inferInstanceAs (Decidable (_ < _))

def owner_id_bytes (identifier : String) : Bytes := (Hex.from_hex identifier).getD []

/-- A loop whose identifier does not parse returns at once. -/
def connect (identifier : String) : Proxy :=
  let owner_id := owner_id_bytes identifier
  let pc := if owner_id = [] then Pc.done else .registering
  { s.set s.conns { Handler.none with owner_id, pc } with conns := s.conns + 1 }

/-- What the first arm does with a message, up to the first await. -/
def on_message : Message → Pc
  | .Text none => .select
  | .Text (some (.Disconnect to_ _)) => .lock_disconnect to_
  | .Binary msg =>
    if msg.length < PUBKEY_BYTES_LEN then .select
    else .lock_send (msg.take PUBKEY_BYTES_LEN) (msg.drop PUBKEY_BYTES_LEN)
  | .Other => .select

def read (c : ConnId) : Option Proxy :=
  let h := s.handlers c
  if h.pc ≠ .select then none
  else
    match h.inbox with
    | msg :: rest => some (s.set c { h with inbox := rest, pc := on_message msg })
    | [] => if h.gone then some (s.set c { h with broadcast := true, pc := .teardown }) else none

/-- What is written for a command of another loop or of a listener task. -/
def to_message (owner_id : Bytes) : MutinyWSCommand → Message
  | .Send id val => .Binary (id ++ val)
  | .Disconnect id => .Text (some (.Disconnect owner_id id))

def receive (c : ConnId) (ok : Bool) : Option Proxy :=
  let h := s.handlers c
  if h.pc ≠ .select then none
  else
    match h.queue with
    | [] => none
    | command :: rest =>
      if ok then some (s.set c { h with queue := rest, written := h.written ++ [to_message h.owner_id command] })
      else some (s.set c { h with queue := rest, broadcast := true, pc := .teardown })

def resume (c : ConnId) : Option Proxy :=
  let h := s.handlers c
  match h.pc with
  | .absent | .select | .done => none
  | .registering =>
    if s.lock = none then
      some { s.goto c .select with producers := Function.update s.producers h.owner_id (some c) }
    else none
  | .lock_disconnect peer_id =>
    if s.lock = none then
      match s.producers peer_id with
      | some peer => some { s.goto c (.send_disconnect peer_id peer) with lock := some c }
      | none => some (s.goto c .select)
    else none
  | .send_disconnect peer_id peer =>
    -- the send to a loop that has ended is an error that is only logged
    if (s.handlers peer).pc = .done then some (s.goto c (.drop_peer peer_id))
    else if s.Room peer then some ((s.push peer (.Disconnect h.owner_id)).goto c (.drop_peer peer_id))
    else none
  | .drop_peer peer_id =>
    some { s.set c { h with pc := .select, connected_peers := h.connected_peers.filter (· ≠ peer_id) } with lock := none }
  | .lock_send peer_id val =>
    if s.lock = none then
      match s.producers peer_id with
      | some peer => some { s.goto c (.send_message peer_id val peer) with lock := some c }
      | none => some { s.goto c (.send_self peer_id) with lock := some c }
    else none
  | .send_message peer_id val peer =>
    if (s.handlers peer).pc = .done then some (s.goto c (.send_self peer_id))
    else if s.Room peer then some ((s.push peer (.Send h.owner_id val)).goto c (.subscribe peer_id peer))
    else none
  | .subscribe peer_id peer => some (s.goto c (.listen peer_id peer (s.handlers peer).broadcast))
  | .listen peer_id peer late =>
    if peer_id ∈ h.connected_peers then some { s.goto c .select with lock := none }
    else some { s.set c { h with pc := .select, connected_peers := peer_id :: h.connected_peers } with
      lock := none, listeners := s.listeners ++ [⟨c, peer_id, peer, late, .waiting⟩] }
  | .send_self peer_id =>
    if s.Room c then some { (s.push c (.Disconnect peer_id)).goto c .select with lock := none } else none
  | .teardown =>
    if s.lock = none then
      some { s.goto c .done with producers := Function.update s.producers h.owner_id none }
    else none

def set_listener (t : TaskId) (task : Listener) (pc : TaskPc) : Proxy :=
  { s with listeners := s.listeners.set t { task with pc } }

/-- A broadcast that was not missed, or the end of the last sender, wakes the task. -/
def wakes (task : Listener) : Bool :=
  (s.handlers task.peer).broadcast &&
    (!task.late || s.producers (s.handlers task.peer).owner_id ≠ some task.peer)

def listener (t : TaskId) : Option Proxy :=
  match s.listeners[t]? with
  | none => none
  | some task =>
    match task.pc with
    | .waiting => if s.wakes task then some (s.set_listener t task .sending) else none
    | .sending =>
      if (s.handlers task.owner).pc = .done then some (s.set_listener t task .clearing)
      else if s.Room task.owner then
        some ((s.push task.owner (.Disconnect task.other_peer)).set_listener t task .clearing)
      else none
    | .clearing =>
      let h := s.handlers task.owner
      some ((s.set task.owner { h with connected_peers := h.connected_peers.filter (· ≠ task.other_peer) }).set_listener
        t task .done)
    | .done => none

def step : ProxyAct → Option Proxy
  | .connect identifier => some (s.connect identifier)
  | .client_send c msg =>
    let h := s.handlers c
    if c < s.conns ∧ h.gone = false then some (s.set c { h with inbox := h.inbox ++ [msg] }) else none
  | .client_close c => if c < s.conns then some (s.set c { s.handlers c with gone := true }) else none
  | .read c => s.read c
  | .receive c ok => s.receive c ok
  | .resume c => s.resume c
  | .listener t => s.listener t

def machine : Machine Proxy ProxyAct := ⟨step⟩

end Proxy

end Mutiny
