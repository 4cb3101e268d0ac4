import Mutiny.Potential
import Mutiny.TcpRelay

/-!
# What the relay comes to

When the two ends send nothing more, the relay has only so much to do. It ends with everything delivered, or with both
directions full: `handle_socket` waits for room to write and does not read, and a server that waits for room to write
before it reads never makes any.
-/

namespace Mutiny

namespace TcpRelay

variable {cfg : Config} {addr_str : String} {s t : Relay}

/-- The steps that move bytes which are already sent. -/
def Act.moves : Act → Bool
  | .recv | .read _ | .write _ | .sent | .browser_read | .server_read _ => true
  | .dial _ | .write_fails | .send_fails | .browser_send _ | .browser_close | .server_write _ | .server_close
  | .server_reset => false

/-- The loop runs, and neither end has gone. -/
structure Open (cfg : Config) (s : Relay) : Prop where
  gone : s.gone = false
  closed : s.closed = false
  broken : s.broken = false
  connected : s.pc ≠ .connecting
  running : s.pc ≠ .done
  outbound_room : s.outbound.length ≤ cfg.outbound_room
  inbound_room : s.inbound.length ≤ cfg.inbound_room

/-- Nothing is left to do. -/
def Settled (cfg : Config) (addr_str : String) (s : Relay) : Prop := ∀ a, a.moves = true → s.step cfg addr_str a = none

/-- The loop waits for the server to read, and the server for the loop. -/
structure Clogged (cfg : Config) (s : Relay) : Prop where
  patient : cfg.patient = true
  broken : s.broken = false
  writing : ∃ rest, rest ≠ [] ∧ s.pc = .write_all rest
  outbound_full : s.outbound.length = cfg.outbound_room
  inbound_full : s.inbound.length = cfg.inbound_room

/-! ## How much there is to do -/

/-- A byte is taken out of its message, written and read. -/
def inbox_work : List Frame → Nat
  | [] => 0
  | frame :: inbox => 3 * frame.payload.length + 2 + inbox_work inbox

def Pc.work : Pc → Nat
  | .write_all rest => 2 * rest.length + 1
  | .send _ => 2
  | .connecting | .select | .done => 0

def Relay.work (s : Relay) : Nat :=
  inbox_work s.inbox + s.pc.work + s.outbound.length + 3 * s.inbound.length + s.frames.length

theorem Open.step {a : Act} (h : Open cfg s) (ha : a.moves = true) (hst : Stepped cfg addr_str s a t) : Open cfg t := by
  obtain ⟨hgone, hclosed, hbroken, hconnected, hrunning, hout, hin⟩ := h
  cases hst with
  | recv | pass_over => exact ⟨hgone, hclosed, hbroken, by simp_all, by simp_all, hout, hin⟩
  | client_close _ _ hg => simp [hg] at hgone
  | read_error _ _ hb => simp [hb] at hbroken
  | read_end _ _ _ hc => simp [hc] at hclosed
  | read n =>
    refine ⟨hgone, hclosed, hbroken, by simp, by simp, hout, ?_⟩
    simp only [List.length_drop]
    omega
  | write rest n hpc hb hn hle hroom =>
    refine ⟨hgone, hclosed, hbroken, ?_, ?_, ?_, hin⟩
    · dsimp only
      split <;> simp
    · dsimp only
      split <;> simp
    · simpa [Nat.min_eq_left hle] using hroom
  | sent | browser_read => exact ⟨hgone, hclosed, hbroken, by simp_all, by simp_all, hout, hin⟩
  | server_read n =>
    refine ⟨hgone, hclosed, hbroken, hconnected, hrunning, ?_, hin⟩
    simp only [List.length_drop]
    omega
  | _ => cases ha

theorem work_lt {a : Act} (h : Open cfg s) (ha : a.moves = true) (hst : Stepped cfg addr_str s a t) : t.work < s.work := by
  cases hst with
  | recv msg inbox hpc hin =>
    simp only [Relay.work, hpc, hin, inbox_work, Frame.payload, Pc.work]
    omega
  | pass_over frame inbox hpc hin =>
    simp only [Relay.work, hpc, hin, inbox_work, Pc.work]
    omega
  | client_close _ _ hg => exact absurd (hg.symm.trans h.gone) (by decide)
  | read_error _ _ hb => exact absurd (hb.symm.trans h.broken) (by decide)
  | read_end _ _ _ hc => exact absurd (hc.symm.trans h.closed) (by decide)
  | read n hpc hb hn =>
    simp only [Relay.work, hpc, Pc.work, List.length_drop]
    omega
  | write rest n hpc hb hn hle hroom =>
    have hbefore : (Pc.write_all rest).work = 2 * rest.length + 1 := rfl
    have hafter : (if rest.drop n = [] then Pc.select else .write_all (rest.drop n)).work ≤ 2 * (rest.length - n) + 1 := by
      split <;> simp [Pc.work]
    simp only [Relay.work, hpc, hbefore, List.length_append, List.length_take]
    rcases hn with hn | rfl
    · omega
    · simp only [List.drop_nil, if_true, Pc.work]
      omega
  | sent buf hpc =>
    simp only [Relay.work, hpc, Pc.work, List.length_append, List.length_singleton]
    omega
  | browser_read frame frames hf =>
    simp only [Relay.work, hf, List.length_cons]
    omega
  | server_read n hn =>
    simp only [Relay.work, List.length_drop]
    omega
  | _ => cases ha

/-! ## What is left -/

/-- Where nothing can move, the loop has nothing to do or waits for room. -/
theorem Settled.cases (h : Settled cfg addr_str s) (hopen : Open cfg s) (hout : 0 < cfg.outbound_room)
    (hin : 0 < cfg.inbound_room) :
    (s.pc = .select ∧ s.inbox = [] ∧ s.inbound = [] ∧ s.frames = [] ∧ s.outbound = []) ∨
    (s.frames = [] ∧ Clogged cfg s) := by
  obtain ⟨hgone, hclosed, hbroken, hconnected, hrunning, houtle, hinle⟩ := hopen
  have hframes : s.frames = [] := by
    have hread := h .browser_read rfl
    simp only [Relay.step, hgone] at hread
    split at hread
    · assumption
    · cases hread
  have hserver : ∀ n, ¬ (0 < n ∧ n ≤ s.outbound.length ∧ (cfg.patient → s.inbound.length < cfg.inbound_room)) := by
    intro n hn
    have hread := h (.server_read n) rfl
    rw [Relay.step, if_pos hn] at hread
    cases hread
  cases hpc : s.pc with
  | connecting => exact absurd hpc hconnected
  | done => exact absurd hpc hrunning
  | send buf =>
    have hsent := h .sent rfl
    simp [Relay.step, hpc] at hsent
  | select =>
    have hinbox : s.inbox = [] := by
      have hrecv := h .recv rfl
      simp only [Relay.step, hpc, if_true, Relay.recv, hgone] at hrecv
      split at hrecv <;> simp_all
    have hinbound : s.inbound = [] := by
      have hread := h (.read 1) rfl
      simp only [Relay.step, hpc, if_true, Relay.read, hbroken, hclosed] at hread
      by_contra hne
      have hpos := List.length_pos_iff.mpr hne
      rw [if_neg (by decide), if_neg hne, if_pos ⟨by decide, hpos, by decide⟩] at hread
      cases hread
    refine .inl ⟨rfl, hinbox, hinbound, hframes, ?_⟩
    by_contra hne
    have := List.length_pos_iff.mpr hne
    exact hserver 1 ⟨by omega, by omega, fun _ => by simpa [hinbound] using hin⟩
  | write_all rest =>
    have hwrite : ∀ n, ¬ ((0 < n ∨ rest = []) ∧ n ≤ rest.length ∧ s.outbound.length + n ≤ cfg.outbound_room) := by
      intro n hn
      have hwrote := h (.write n) rfl
      simp only [Relay.step, hpc, Relay.write] at hwrote
      rw [if_pos ⟨hbroken, hn⟩] at hwrote
      cases hwrote
    have hrest : rest ≠ [] := fun he => hwrite 0 ⟨.inr he, by omega, by omega⟩
    have hpos := List.length_pos_iff.mpr hrest
    have hfull : s.outbound.length = cfg.outbound_room := by
      by_contra hne
      exact hwrite 1 ⟨.inl (by omega), by omega, by omega⟩
    have hstuck := hserver 1
    refine .inr ⟨hframes, by_contra fun hp => hstuck ⟨by omega, by omega, fun he => absurd he hp⟩, hbroken,
      ⟨rest, hrest, hpc⟩, hfull, ?_⟩
    by_contra hne
    exact hstuck ⟨by omega, by omega, fun _ => by omega⟩

/-- The buffers of the stream hold no more than there is room for. -/
def Roomy (cfg : Config) (s : Relay) : Prop :=
  s.outbound.length ≤ cfg.outbound_room ∧ s.inbound.length ≤ cfg.inbound_room

theorem Roomy.step {a : Act} (h : Roomy cfg s) (hst : Stepped cfg addr_str s a t) : Roomy cfg t := by
  obtain ⟨hout, hin⟩ := h
  cases hst with
  | dial addrs =>
    unfold Relay.connect
    split <;> exact ⟨hout, hin⟩
  | read n =>
    refine ⟨hout, ?_⟩
    simp only [List.length_drop]
    omega
  | write rest n hpc hb hn hle hroom =>
    refine ⟨?_, hin⟩
    simpa [Nat.min_eq_left hle] using hroom
  | server_write data hb hroom => exact ⟨hout, by simpa using hroom⟩
  | server_read n =>
    refine ⟨?_, hin⟩
    simp only [List.length_drop]
    omega
  | server_reset => exact ⟨Nat.zero_le _, Nat.zero_le _⟩
  | _ => exact ⟨hout, hin⟩

variable (cfg addr_str) in
/-- From wherever the relay is open it has a bounded number of steps to take until nothing can move. Then each side has
received all that the other has sent, or the server is one that waits for room to write and both buffers are full. -/
theorem relay_settles (as : List Act) (hout : 0 < cfg.outbound_room) (hin : 0 < cfg.inbound_room)
    (h : (machine cfg addr_str).run .new as = some s)
    (hopen : s.gone = false ∧ s.closed = false ∧ s.broken = false ∧ s.pc ≠ .connecting ∧ s.pc ≠ .done) :
    (∃ bs t, (machine cfg addr_str).Along (fun _ a => a.moves = true) s bs ∧
      (machine cfg addr_str).run s bs = some t ∧ Settled cfg addr_str t) ∧
    ∀ bs t, (machine cfg addr_str).Along (fun _ a => a.moves = true) s bs → (machine cfg addr_str).run s bs = some t →
      bs.length ≤ s.work ∧ (Settled cfg addr_str t →
        (t.server_received = payload t.browser_sent ∧ payload t.browser_received = t.server_sent) ∨ Clogged cfg t) := by
  have hroomy : Roomy cfg s := Machine.invariant (M := machine cfg addr_str) (I := Roomy cfg)
    (fun _ _ _ hi hs => hi.step (stepped_of_step hs)) ⟨Nat.zero_le _, Nat.zero_le _⟩ h
  have horder : InOrder s :=
    Machine.invariant (M := machine cfg addr_str) (fun _ _ _ hi hs => hi.step (stepped_of_step hs)) inOrder_new h
  obtain ⟨hgone, hclosed, hbroken, hconnected, hrunning⟩ := hopen
  have hopen : Open cfg s := ⟨hgone, hclosed, hbroken, hconnected, hrunning, hroomy.1, hroomy.2⟩
  have hkeeps : ∀ u a v, Open cfg u → a.moves = true → (machine cfg addr_str).step u a = some v → Open cfg v :=
    fun _ _ _ hu ha hs => hu.step ha (stepped_of_step hs)
  have hlowers : ∀ u a v, Open cfg u → a.moves = true → (machine cfg addr_str).step u a = some v → v.work < u.work :=
    fun _ _ _ hu ha hs => work_lt hu ha (stepped_of_step hs)
  refine ⟨Machine.exists_settled Relay.work hkeeps hlowers s hopen, fun bs t hal hrun => ⟨?_, fun hsettled => ?_⟩⟩
  · have := Machine.length_le_potential Relay.work hkeeps hlowers hopen hal hrun
    omega
  · have hopent : Open cfg t := Machine.run_invariant hkeeps hopen hal hrun
    have hordert : InOrder t :=
      Machine.invariant (M := machine cfg addr_str) (fun _ _ _ hi hs => hi.step (stepped_of_step hs)) horder hrun
    rcases hsettled.cases hopent hout hin with ⟨hpc, hinbox, hinbound, hframes, houtbound⟩ | ⟨-, hclogged⟩
    · have hup := hordert.up hopent.broken
      have hdown := hordert.down hopent.gone hopent.broken
      simp only [hpc, hinbox, hinbound, hframes, houtbound, Pc.to_server, Pc.to_browser, payload_nil,
        List.append_nil] at hup hdown
      exact .inl ⟨hup.symm, hdown.symm⟩
    · exact .inr hclogged

/-- The browser has sent three bytes and the server two, and nothing has been read. -/
def both_sent : List Act := [.dial (some [true]), .browser_send (.Binary [1, 2, 3]), .server_write [7, 8]]

theorem both_sent_settles : ∃ s, (machine small_room "1.2.3.4:9735").run .new both_sent = some s ∧
    ∃ bs t, (machine small_room "1.2.3.4:9735").Along (fun _ a => a.moves = true) s bs ∧
      (machine small_room "1.2.3.4:9735").run s bs = some t ∧ Settled small_room "1.2.3.4:9735" t ∧ bs.length ≤ 17 ∧
      ((t.server_received = payload t.browser_sent ∧ payload t.browser_received = t.server_sent) ∨
        Clogged small_room t) := by
  obtain ⟨⟨bs, t, hal, hrun, hsettled⟩, hall⟩ :=
    relay_settles small_room "1.2.3.4:9735" both_sent (by decide) (by decide) rfl (by decide)
  obtain ⟨hlength, hends⟩ := hall bs t hal hrun
  exact ⟨_, rfl, bs, t, hal, hrun, hsettled, hlength.trans (by decide), hends hsettled⟩

/-! ## A relay that is clogged -/

theorem Clogged.step {a : Act} (h : Clogged cfg s) (ha : a ≠ .server_reset) (hst : Stepped cfg addr_str s a t) :
    Clogged cfg t ∧ t.pc = s.pc ∧ t.server_received = s.server_received ∧ t.server_sent = s.server_sent ∧
      payload t.browser_received ++ payload t.frames = payload s.browser_received ++ payload s.frames := by
  obtain ⟨hpatient, hbroken, ⟨rest, hrest, hpc⟩, hout, hin⟩ := h
  cases hst with
  | dial _ hpc' | recv _ _ hpc' | pass_over _ _ hpc' | client_close hpc' | read_error _ hpc' | read_end _ hpc'
  | read _ hpc' | sent _ hpc' | send_fails _ hpc' => simp [hpc] at hpc'
  | write rest' n hpc' hb hn hle hroom =>
    cases hpc.symm.trans hpc'
    rcases hn with hn | hn
    · omega
    · exact absurd hn hrest
  | write_fails _ _ hb => simp [hbroken] at hb
  | browser_send | browser_close | server_close =>
    exact ⟨⟨hpatient, hbroken, ⟨rest, hrest, hpc⟩, hout, hin⟩, rfl, rfl, rfl, rfl⟩
  | browser_read frame frames hf =>
    exact ⟨⟨hpatient, hbroken, ⟨rest, hrest, hpc⟩, hout, hin⟩, rfl, rfl, rfl, by simp [hf]⟩
  | server_write data hb hroom =>
    have hdata : data = [] := List.length_eq_zero_iff.mp (by omega)
    subst hdata
    exact ⟨⟨hpatient, hbroken, ⟨rest, hrest, hpc⟩, hout, by simpa using hin⟩, rfl, rfl, by simp, rfl⟩
  | server_read n hn hp =>
    have := hp hpatient
    omega
  | server_reset => exact absurd rfl ha

variable (cfg addr_str) in
/-- A relay that is clogged stays so until the stream is reset, also when the browser closes the websocket or the server
its side: the loop waits in `write_all`, and neither side hears of the other again. -/
theorem clogged_for_good (as : List Act) (h : Clogged cfg s)
    (hal : (machine cfg addr_str).Along (fun _ a => a ≠ .server_reset) s as)
    (hrun : (machine cfg addr_str).run s as = some t) :
    Clogged cfg t ∧ t.pc = s.pc ∧ t.server_received = s.server_received ∧ t.server_sent = s.server_sent ∧
      payload t.browser_received ++ payload t.frames = payload s.browser_received ++ payload s.frames := by
  refine Machine.run_invariant (I := fun u => Clogged cfg u ∧ u.pc = s.pc ∧ u.server_received = s.server_received ∧
    u.server_sent = s.server_sent ∧
    payload u.browser_received ++ payload u.frames = payload s.browser_received ++ payload s.frames)
    (fun u a v hu ha hs => ?_) ⟨h, rfl, rfl, rfl, rfl⟩ hal hrun
  obtain ⟨hc, hpc, hreceived, hsent, hframes⟩ := hu
  obtain ⟨hc', hpc', hreceived', hsent', hframes'⟩ := hc.step ha (stepped_of_step hs)
  exact ⟨hc', hpc'.trans hpc, hreceived'.trans hreceived, hsent'.trans hsent, hframes'.trans hframes⟩

/-- The loop has written two of three bytes when there is no more room, and the server has filled its own buffer. -/
def clogging : List Act := both_sent ++ [.recv, .write 2]

/-- Both sides go away, and the loop does not notice. -/
theorem clogging_for_good : ∃ s t, (machine small_room "1.2.3.4:9735").run .new clogging = some s ∧
    (machine small_room "1.2.3.4:9735").run s [.browser_close, .server_close] = some t ∧ Clogged small_room t :=
  ⟨_, _, rfl, rfl, (clogged_for_good small_room "1.2.3.4:9735" [.browser_close, .server_close]
    ⟨rfl, rfl, ⟨[3], by decide, rfl⟩, rfl, rfl⟩ (by decide) rfl).1⟩

end TcpRelay

end Mutiny
