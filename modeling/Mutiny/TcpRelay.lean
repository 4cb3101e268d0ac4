import Mathlib.Data.List.Infix
import Mutiny.PeerAddress
import Mutiny.Proxy

/-!
# The relay to a TCP peer (`ln-websocket-proxy/src/main.rs`, `socket.rs`)

`handle_socket` connects a websocket of a browser to a TCP stream: what comes in binary messages is written to the
stream, and what is read from the stream is sent as binary messages. It is one loop, so that it reads from neither side
while it writes to one. The machine interleaves it with the browser, whose task hands the bytes of the messages to LDK,
and with the server at the other end of the stream.
-/

namespace Mutiny

namespace TcpRelay

/-- The most that is read from the stream at once. -/
def BUF_LEN : Nat := 65536

/-- What a websocket brings: `Other` stands for pings, pongs, closing frames and errors, all of which are passed over. -/
inductive Frame where
  | Text (text : String)
  | Binary (data : Bytes)
  | Other
  deriving DecidableEq, Repr

def Frame.payload : Frame → Bytes
  | .Binary data => data
  | .Text _ | .Other => []

/-- Where `handle_socket` is. -/
inductive Pc where
  | connecting
  | select
  | write_all (rest : Bytes)
  | send (buf : Bytes)
  | done
  deriving DecidableEq, Repr

/-- `inbox` are the messages of the browser which the loop has not read, and `gone` says that the browser has closed the
websocket behind them. `outbound` was written to the stream and not read by the server, `inbound` the other way round;
`closed` says that the server has shut its side down behind `inbound`, and `broken` that the stream is reset. `frames`
went down the websocket and are not read by the browser. The last four are what each end has sent and received. -/
structure Relay where
  pc : Pc
  inbox : List Frame
  gone : Bool
  outbound : Bytes
  inbound : Bytes
  closed : Bool
  broken : Bool
  frames : List Frame
  browser_sent : List Frame
  server_received : Bytes
  server_sent : Bytes
  browser_received : List Frame
  deriving DecidableEq

/-- The room in the buffers of the stream, each way. A `patient` server does not read while it waits for room to write. -/
structure Config where
  outbound_room : Nat
  inbound_room : Nat
  patient : Bool

inductive Act where
  | dial (addrs : Option (List Bool))
  | recv
  | read (n : Nat)
  | write (n : Nat)
  | write_fails
  | sent
  | send_fails
  | browser_send (frame : Frame)
  | browser_close
  | browser_read
  | server_write (data : Bytes)
  | server_read (n : Nat)
  | server_close
  | server_reset
  deriving DecidableEq

/-! ## The code -/

/-- What the URL resolves to, and which of the addresses can be connected to: the first one that can is taken. -/
def server_stream (addr_str : String) (addrs : Option (List Bool)) : Except String Nat :=
  match addrs with
  | none | some [] => .error ("Could not resolve addr " ++ addr_str)
  | some addrs =>
    match addrs.findIdx? id with
    | none => .error ("Could not connect to: " ++ addr_str)
    | some i => .ok i

namespace Relay

variable (cfg : Config) (addr_str : String) (s : Relay)

def new : Relay := ⟨.connecting, [], false, [], [], false, false, [], [], [], [], []⟩

def connect (addrs : Option (List Bool)) : Relay :=
  match server_stream addr_str addrs with
  | .error text => { s with pc := .done, frames := s.frames ++ [.Text text] }
  | .ok _ => { s with pc := .select }

/-- The branch of `socket.recv`. -/
def recv : Option Relay :=
  match s.inbox with
  | .Binary msg :: inbox => some { s with pc := .write_all msg, inbox }
  | .Text _ :: inbox | .Other :: inbox => some { s with inbox }
  | [] => if s.gone then some { s with pc := .done } else none

/-- The branch of `server_stream.read`: an error, the end of the stream, or some of what is there. -/
def read (n : Nat) : Option Relay :=
  if s.broken then some { s with pc := .done }
  else if s.inbound = [] then if s.closed then some { s with pc := .done } else none
  else if 0 < n ∧ n ≤ s.inbound.length ∧ n ≤ BUF_LEN then
    some { s with pc := .send (s.inbound.take n), inbound := s.inbound.drop n }
  else none

/-- `write_all` goes on with as many bytes as there is room for, and an empty message is written at once. -/
def write (rest : Bytes) (n : Nat) : Option Relay :=
  if s.broken = false ∧ (0 < n ∨ rest = []) ∧ n ≤ rest.length ∧ s.outbound.length + n ≤ cfg.outbound_room then
    let left := rest.drop n
    some { s with outbound := s.outbound ++ rest.take n, pc := if left = [] then .select else .write_all left }
  else none

def step (s : Relay) : Act → Option Relay
  | .dial addrs => if s.pc = .connecting then some (s.connect addr_str addrs) else none
  | .recv => if s.pc = .select then s.recv else none
  | .read n => if s.pc = .select then s.read n else none
  | .write n =>
    match s.pc with
    | .write_all rest => s.write cfg rest n
    | _ => none
  | .write_fails =>
    match s.pc with
    | .write_all _ => if s.broken then some { s with pc := .select } else none
    | _ => none
  | .sent =>
    match s.pc with
    | .send buf => some { s with frames := s.frames ++ [.Binary buf], pc := .select }
    | _ => none
  | .send_fails =>
    match s.pc with
    | .send _ => if s.gone then some { s with pc := .select } else none
    | _ => none
  | .browser_send frame =>
    if s.gone then none else some { s with inbox := s.inbox ++ [frame], browser_sent := s.browser_sent ++ [frame] }
  | .browser_close => some { s with gone := true }
  | .browser_read =>
    match s.frames with
    | [] => none
    | frame :: frames =>
      if s.gone then none else some { s with frames, browser_received := s.browser_received ++ [frame] }
  | .server_write data =>
    if s.closed = false ∧ s.broken = false ∧ s.inbound.length + data.length ≤ cfg.inbound_room then
      some { s with inbound := s.inbound ++ data, server_sent := s.server_sent ++ data }
    else none
  | .server_read n =>
    if 0 < n ∧ n ≤ s.outbound.length ∧ (cfg.patient → s.inbound.length < cfg.inbound_room) then
      some { s with outbound := s.outbound.drop n, server_received := s.server_received ++ s.outbound.take n }
    else none
  | .server_close => some { s with closed := true }
  -- what is in the buffers of a stream that is reset is lost
  | .server_reset => some { s with broken := true, outbound := [], inbound := [] }

end Relay

def machine (cfg : Config) (addr_str : String) : Machine Relay Act := ⟨Relay.step cfg addr_str⟩

/-! ## What an action can be -/

/-- The actions of the loop and of the two ends, with what each of them needs. -/
inductive Stepped (cfg : Config) (addr_str : String) (s : Relay) : Act → Relay → Prop where
  | dial (addrs : Option (List Bool)) (hpc : s.pc = .connecting) :
      Stepped cfg addr_str s (.dial addrs) (s.connect addr_str addrs)
  | recv (msg : Bytes) (inbox : List Frame) (hpc : s.pc = .select) (hin : s.inbox = .Binary msg :: inbox) :
      Stepped cfg addr_str s .recv { s with pc := .write_all msg, inbox }
  | pass_over (frame : Frame) (inbox : List Frame) (hpc : s.pc = .select) (hin : s.inbox = frame :: inbox)
      (hf : frame.payload = []) : Stepped cfg addr_str s .recv { s with inbox }
  | client_close (hpc : s.pc = .select) (hin : s.inbox = []) (hg : s.gone = true) :
      Stepped cfg addr_str s .recv { s with pc := .done }
  | read_error (n : Nat) (hpc : s.pc = .select) (hb : s.broken = true) :
      Stepped cfg addr_str s (.read n) { s with pc := .done }
  | read_end (n : Nat) (hpc : s.pc = .select) (hin : s.inbound = []) (hc : s.closed = true) :
      Stepped cfg addr_str s (.read n) { s with pc := .done }
  | read (n : Nat) (hpc : s.pc = .select) (hb : s.broken = false) (hn : 0 < n ∧ n ≤ s.inbound.length ∧ n ≤ BUF_LEN) :
      Stepped cfg addr_str s (.read n) { s with pc := .send (s.inbound.take n), inbound := s.inbound.drop n }
  | write (rest : Bytes) (n : Nat) (hpc : s.pc = .write_all rest) (hb : s.broken = false) (hn : 0 < n ∨ rest = [])
      (hle : n ≤ rest.length) (hroom : s.outbound.length + n ≤ cfg.outbound_room) :
      Stepped cfg addr_str s (.write n) { s with
        outbound := s.outbound ++ rest.take n, pc := if rest.drop n = [] then .select else .write_all (rest.drop n) }
  | write_fails (rest : Bytes) (hpc : s.pc = .write_all rest) (hb : s.broken = true) :
      Stepped cfg addr_str s .write_fails { s with pc := .select }
  | sent (buf : Bytes) (hpc : s.pc = .send buf) :
      Stepped cfg addr_str s .sent { s with frames := s.frames ++ [.Binary buf], pc := .select }
  | send_fails (buf : Bytes) (hpc : s.pc = .send buf) (hg : s.gone = true) :
      Stepped cfg addr_str s .send_fails { s with pc := .select }
  | browser_send (frame : Frame) (hg : s.gone = false) : Stepped cfg addr_str s (.browser_send frame)
      { s with inbox := s.inbox ++ [frame], browser_sent := s.browser_sent ++ [frame] }
  | browser_close : Stepped cfg addr_str s .browser_close { s with gone := true }
  | browser_read (frame : Frame) (frames : List Frame) (hf : s.frames = frame :: frames) (hg : s.gone = false) :
      Stepped cfg addr_str s .browser_read { s with frames, browser_received := s.browser_received ++ [frame] }
  | server_write (data : Bytes) (hb : s.broken = false) (hroom : s.inbound.length + data.length ≤ cfg.inbound_room) :
      Stepped cfg addr_str s (.server_write data)
        { s with inbound := s.inbound ++ data, server_sent := s.server_sent ++ data }
  | server_read (n : Nat) (hn : 0 < n ∧ n ≤ s.outbound.length) (hp : cfg.patient → s.inbound.length < cfg.inbound_room) :
      Stepped cfg addr_str s (.server_read n)
        { s with outbound := s.outbound.drop n, server_received := s.server_received ++ s.outbound.take n }
  | server_close : Stepped cfg addr_str s .server_close { s with closed := true }
  | server_reset : Stepped cfg addr_str s .server_reset { s with broken := true, outbound := [], inbound := [] }

variable {cfg : Config} {addr_str : String} {s t : Relay}

theorem stepped_of_step {a : Act} (h : s.step cfg addr_str a = some t) : Stepped cfg addr_str s a t := by
  cases a with
  | dial addrs =>
    obtain ⟨hpc, h⟩ := Option.ite_none_right_eq_some.mp h
    cases h
    exact .dial addrs hpc
  | recv =>
    obtain ⟨hpc, h⟩ := Option.ite_none_right_eq_some.mp h
    unfold Relay.recv at h
    split at h <;> rename_i hin
    · cases h
      exact .recv _ _ hpc hin
    · cases h
      exact .pass_over _ _ hpc hin rfl
    · cases h
      exact .pass_over _ _ hpc hin rfl
    · obtain ⟨hg, h⟩ := Option.ite_none_right_eq_some.mp h
      cases h
      exact .client_close hpc hin hg
  | read n =>
    obtain ⟨hpc, h⟩ := Option.ite_none_right_eq_some.mp h
    unfold Relay.read at h
    split_ifs at h with hb hin hc hn
    · cases h
      exact .read_error n hpc hb
    · cases h
      exact .read_end n hpc hin hc
    · cases h
      exact .read n hpc (by simpa using hb) hn
  | write n =>
    cases hpc : s.pc with
    | connecting | select | send | done => simp [Relay.step, hpc] at h
    | write_all rest =>
      simp only [Relay.step, hpc, Relay.write] at h
      obtain ⟨⟨hb, hn, hle, hroom⟩, h⟩ := Option.ite_none_right_eq_some.mp h
      cases h
      exact .write rest n hpc hb hn hle hroom
  | write_fails =>
    cases hpc : s.pc with
    | connecting | select | send | done => simp [Relay.step, hpc] at h
    | write_all rest =>
      simp only [Relay.step, hpc] at h
      obtain ⟨hb, h⟩ := Option.ite_none_right_eq_some.mp h
      cases h
      exact .write_fails rest hpc hb
  | sent =>
    cases hpc : s.pc with
    | connecting | select | write_all | done => simp [Relay.step, hpc] at h
    | send buf =>
      simp only [Relay.step, hpc] at h
      cases h
      exact .sent buf hpc
  | send_fails =>
    cases hpc : s.pc with
    | connecting | select | write_all | done => simp [Relay.step, hpc] at h
    | send buf =>
      simp only [Relay.step, hpc] at h
      obtain ⟨hg, h⟩ := Option.ite_none_right_eq_some.mp h
      cases h
      exact .send_fails buf hpc hg
  | browser_send frame =>
    obtain ⟨hg, h⟩ := Option.ite_none_left_eq_some.mp h
    cases h
    exact .browser_send frame (by simpa using hg)
  | browser_close => cases h; exact .browser_close
  | browser_read =>
    cases hf : s.frames with
    | nil => simp [Relay.step, hf] at h
    | cons frame frames =>
      simp only [Relay.step, hf] at h
      obtain ⟨hg, h⟩ := Option.ite_none_left_eq_some.mp h
      cases h
      exact .browser_read frame frames hf (by simpa using hg)
  | server_write data =>
    obtain ⟨⟨-, hb, hroom⟩, h⟩ := Option.ite_none_right_eq_some.mp h
    cases h
    exact .server_write data hb hroom
  | server_read n =>
    obtain ⟨⟨hn, hle, hp⟩, h⟩ := Option.ite_none_right_eq_some.mp h
    cases h
    exact .server_read n ⟨hn, hle⟩ hp
  | server_close => cases h; exact .server_close
  | server_reset => cases h; exact .server_reset

/-! ## Nothing is lost, changed or reordered -/

def payload (frames : List Frame) : Bytes := frames.flatMap Frame.payload

/-- The bytes of a message that are not written yet. -/
def Pc.to_server : Pc → Bytes
  | .write_all rest => rest
  | .connecting | .select | .send _ | .done => []

/-- The bytes that were read and not sent yet. -/
def Pc.to_browser : Pc → Bytes
  | .send buf => buf
  | .connecting | .select | .write_all _ | .done => []

/-- What each side has sent is what the other has received and what is on its way, in this order. A reset of the stream
or a closed websocket cuts off the end. -/
structure InOrder (s : Relay) : Prop where
  up : s.broken = false →
    payload s.browser_sent = s.server_received ++ s.outbound ++ s.pc.to_server ++ payload s.inbox
  up_prefix : s.server_received <+: payload s.browser_sent
  reset : s.broken = true → s.outbound = []
  down : s.gone = false → s.broken = false →
    s.server_sent = payload s.browser_received ++ payload s.frames ++ s.pc.to_browser ++ s.inbound
  down_frames : s.gone = false →
    payload s.browser_received ++ payload s.frames ++ s.pc.to_browser <+: s.server_sent
  down_prefix : payload s.browser_received <+: s.server_sent

@[simp] theorem payload_nil : payload [] = [] := rfl

@[simp] theorem payload_cons (frame : Frame) (frames : List Frame) :
    payload (frame :: frames) = frame.payload ++ payload frames := List.flatMap_cons

@[simp] theorem payload_append (frames frames' : List Frame) :
    payload (frames ++ frames') = payload frames ++ payload frames' :=
  List.flatMap_append

theorem inOrder_new : InOrder .new := by
  constructor <;> simp [Relay.new, Pc.to_server, Pc.to_browser]

theorem InOrder.step {a : Act} (h : InOrder s) (hst : Stepped cfg addr_str s a t) : InOrder t := by
  obtain ⟨hup, hupp, hreset, hdown, hframes, hdownp⟩ := h
  cases hst with
  | dial addrs hpc =>
    have hconnect : ∀ text, InOrder { s with pc := .done, frames := s.frames ++ [.Text text] } := fun text =>
      ⟨by simpa [hpc, Pc.to_server] using hup, hupp, hreset, by simpa [hpc, Pc.to_browser, Frame.payload] using hdown,
        by simpa [hpc, Pc.to_browser, Frame.payload] using hframes, hdownp⟩
    unfold Relay.connect
    split
    · exact hconnect _
    · exact ⟨by simpa [hpc, Pc.to_server] using hup, hupp, hreset, by simpa [hpc, Pc.to_browser] using hdown,
        by simpa [hpc, Pc.to_browser] using hframes, hdownp⟩
  | recv msg inbox hpc hin =>
    exact ⟨by simpa [hpc, hin, Pc.to_server, Frame.payload] using hup, hupp, hreset,
      by simpa [hpc, Pc.to_browser] using hdown, by simpa [hpc, Pc.to_browser] using hframes, hdownp⟩
  | pass_over frame inbox hpc hin hf =>
    exact ⟨by simpa [hin, hf] using hup, hupp, hreset, hdown, hframes, hdownp⟩
  | client_close hpc | read_error _ hpc | read_end _ hpc =>
    exact ⟨by simpa [hpc, Pc.to_server] using hup, hupp, hreset, by simpa [hpc, Pc.to_browser] using hdown,
      by simpa [hpc, Pc.to_browser] using hframes, hdownp⟩
  | read n hpc hb hn =>
    refine ⟨by simpa [hpc, Pc.to_server] using hup, hupp, hreset, fun hg _ => ?_, fun hg => ?_, hdownp⟩
    · simpa [hpc, Pc.to_browser] using hdown hg hb
    · have heq := hdown hg hb
      simp only [hpc, Pc.to_browser, List.append_nil] at heq ⊢
      exact ⟨s.inbound.drop n, by simp [heq]⟩
  | write rest n hpc hb hn hle hroom =>
    have hserver : (if rest.drop n = [] then Pc.select else .write_all (rest.drop n)).to_server = rest.drop n := by
      split <;> simp_all [Pc.to_server]
    have hbrowser : (if rest.drop n = [] then Pc.select else .write_all (rest.drop n)).to_browser = [] := by
      split <;> rfl
    simp only [hpc, Pc.to_server, Pc.to_browser] at hup hdown hframes
    refine ⟨fun _ => ?_, hupp, (fun he => by simp [hb] at he), ?_, ?_, hdownp⟩
    · dsimp only
      rw [hserver, hup hb, ← List.append_assoc s.server_received, List.append_assoc _ (rest.take n),
        List.take_append_drop]
    · dsimp only
      rw [hbrowser]
      exact hdown
    · dsimp only
      rw [hbrowser]
      exact hframes
  | write_fails rest hpc hb =>
    exact ⟨(fun he => by simp [hb] at he), hupp, hreset, (fun _ he => by simp [hb] at he),
      by simpa [hpc, Pc.to_browser] using hframes, hdownp⟩
  | sent buf hpc =>
    exact ⟨by simpa [hpc, Pc.to_server] using hup, hupp, hreset, by simpa [hpc, Pc.to_browser, Frame.payload] using hdown,
      by simpa [hpc, Pc.to_browser, Frame.payload] using hframes, hdownp⟩
  | send_fails buf hpc hg =>
    exact ⟨by simpa [hpc, Pc.to_server] using hup, hupp, hreset, (fun he => by simp [hg] at he),
      (fun he => by simp [hg] at he), hdownp⟩
  | browser_send frame hg =>
    refine ⟨fun hb => ?_, ?_, hreset, hdown, hframes, hdownp⟩
    · simp [hup hb]
    · simpa using hupp.trans (List.prefix_append _ _)
  | browser_close => exact ⟨hup, hupp, hreset, (fun he => by cases he), (fun he => by cases he), hdownp⟩
  | browser_read frame frames hf hg =>
    refine ⟨hup, hupp, hreset, by simpa [hf] using hdown, by simpa [hf] using hframes, ?_⟩
    have hprefix := hframes hg
    simp only [hf, payload_cons] at hprefix
    simpa using (List.prefix_append _ (payload frames ++ s.pc.to_browser)).trans (by simpa using hprefix)
  | server_write data hb hroom =>
    exact ⟨hup, hupp, hreset, fun hg hb => by simp [hdown hg hb],
      fun hg => (hframes hg).trans (List.prefix_append _ _), hdownp.trans (List.prefix_append _ _)⟩
  | server_read n hn =>
    have hb : s.broken = false := by
      cases hb : s.broken with
      | false => rfl
      | true =>
        have := hreset hb
        simp [this] at hn
        omega
    have hreceived : payload s.browser_sent =
        s.server_received ++ s.outbound.take n ++ s.outbound.drop n ++ s.pc.to_server ++ payload s.inbox := by
      rw [List.append_assoc _ (s.outbound.take n), List.take_append_drop]
      exact hup hb
    refine ⟨fun _ => hreceived, ⟨s.outbound.drop n ++ s.pc.to_server ++ payload s.inbox, ?_⟩, (fun he => by simp [hb] at he),
      hdown, hframes, hdownp⟩
    rw [hreceived]
    simp only [List.append_assoc]
  | server_close => exact ⟨hup, hupp, hreset, hdown, hframes, hdownp⟩
  | server_reset => exact ⟨(fun he => by cases he), hupp, fun _ => rfl, (fun _ he => by cases he), hframes, hdownp⟩

variable (cfg addr_str) in
/-- Over every order of the steps of the loop, the browser and the server, the server receives the payload of the
binary messages in the order in which the browser sent them, and the browser receives what the server wrote. While the
stream is not reset, what the server has not received yet is in a buffer, in a message or in the loop; and so is what the
browser has not received yet, while the browser has not closed the websocket either. -/
theorem relay_in_order (as : List Act) (h : (machine cfg addr_str).run .new as = some t) :
    t.server_received <+: payload t.browser_sent ∧ payload t.browser_received <+: t.server_sent ∧
    (t.broken = false →
      payload t.browser_sent = t.server_received ++ t.outbound ++ t.pc.to_server ++ payload t.inbox) ∧
    (t.gone = false → t.broken = false →
      t.server_sent = payload t.browser_received ++ payload t.frames ++ t.pc.to_browser ++ t.inbound) := by
  have hinv : InOrder t :=
    Machine.invariant (M := machine cfg addr_str) (fun _ _ _ hi hs => hi.step (stepped_of_step hs)) inOrder_new h
  exact ⟨hinv.up_prefix, hinv.down_prefix, hinv.up, hinv.down⟩

/-- A server that waits for room, and little room in the buffers. -/
def small_room : Config := ⟨2, 2, true⟩

/-- A message of the browser is split over two writes, and a ping is passed over. -/
def exchanged : List Act :=
  [.dial (some [false, true]), .browser_send (.Binary [1, 2, 3]), .browser_send .Other, .recv, .write 2, .server_read 1,
    .server_write [7, 8], .write 1, .read 2, .sent, .recv, .browser_read, .server_read 2]

theorem exchanged_in_order : ∃ t, (machine small_room "1.2.3.4:9735").run .new exchanged = some t ∧
    t.server_received = [1, 2, 3] ∧ t.server_received <+: payload t.browser_sent ∧
    payload t.browser_received <+: t.server_sent :=
  ⟨_, rfl, rfl, (relay_in_order small_room "1.2.3.4:9735" exchanged rfl).1,
    (relay_in_order small_room "1.2.3.4:9735" exchanged rfl).2.1⟩

end TcpRelay

end Mutiny
