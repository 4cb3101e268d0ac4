import Mutiny.SocketSteps

/-!
# Reading loops and the peers of LDK

When a reading loop has ended LDK should not have the descriptor any more, and nothing should be read for a descriptor
for which `read_event` has failed. That is so all along a run exactly when each turn of a loop is in step with LDK.
-/

namespace Mutiny

namespace Client

variable {s t : Client}

/-- Where the loop of `d` has ended, LDK does not have `d`; an error of `read_event` was its last answer, and the
connection was told to close. -/
def Agrees (s : Client) (d : DescId) : Prop :=
  ((s.core d).loop = .ended → (s.core d).tracked = false) ∧
    ∀ before after, (s.core d).answers = before ++ false :: after → after = [] ∧ (s.core d).stop = true

/-- A loop ends only when LDK does not have the descriptor, nothing is read after an error of `read_event`, and that
fails only for a descriptor that was told to close. -/
def InStep (s : Client) : ClientAct → Prop
  | .read d (.Bytes _) ok => false ∉ (s.core d).answers ∧ (ok = false → (s.core d).stop = true)
  | .read d .Err _ | .read d .End _ => (s.core d).tracked = false
  | _ => True

theorem agrees_congr {d : DescId} (hc : t.core d = s.core d) (h : s.Agrees d) : t.Agrees d := by
  unfold Agrees
  rw [hc]
  exact h

theorem agrees_new {d : DescId} (hl : (t.core d).loop ≠ .ended) (ha : (t.core d).answers = []) : t.Agrees d :=
  ⟨fun h => (hl h).elim, fun before after h => by simp [ha] at h⟩

theorem agrees_create {x : Core} (hP : ∀ d, s.Agrees d) (hcore : ∀ d, t.core d = if d = s.next_id then x else s.core d)
    (hl : x.loop ≠ .ended) (ha : x.answers = []) (d : DescId) : t.Agrees d := by
  by_cases hd : d = s.next_id
  · have hc := (hcore d).trans (if_pos hd)
    exact agrees_new (hc ▸ hl) (hc ▸ ha)
  · exact agrees_congr ((hcore d).trans (if_neg hd)) (hP d)

theorem agrees_dropped {d : DescId} (hc : t.core d = (s.core d).dropped) (h : s.Agrees d) : t.Agrees d := by
  unfold Agrees
  rw [hc]
  exact ⟨fun _ => rfl, fun before after ha => ⟨(h.2 before after ha).1, rfl⟩⟩

theorem agrees_step (hP : ∀ d, s.Agrees d) {a : ClientAct} (h : step s a = some t) :
    (∀ d, t.Agrees d) ↔ InStep s a := by
  cases change_of_step h with
  | quiet ha hcore hmap hn =>
    apply iff_of_true (fun d => agrees_congr (hcore d) (hP d))
    unfold InStep
    split
    · cases ha
    · cases ha
    · cases ha
    · trivial
  | @tcp peer answer _ hans hcore hmap hn =>
    apply iff_of_true _ trivial
    apply agrees_create hP hcore
    · split <;> nofun
    · split <;> rfl
  | @outbound peer answer _ hnew hcore hmap hn =>
    apply iff_of_true _ trivial
    apply agrees_create hP hcore
    · split <;> nofun
    · split <;> rfl
  | @inbound k id message _ hpc hcore hmap hn =>
    exact iff_of_true (agrees_create hP hcore nofun rfl) trivial
  | @inbound_refused k id message _ hpc hcore hmap hn =>
    exact iff_of_true (agrees_create hP hcore nofun rfl) trivial
  | @ldk_drop d _ htracked hcore hmap hn =>
    refine iff_of_true (fun e => ?_) trivial
    by_cases he : e = d
    · subst he
      exact agrees_dropped ((hcore e).trans (if_pos rfl)) (hP e)
    · exact agrees_congr ((hcore e).trans (if_neg he)) (hP e)
  | @command k from_ d _ hfrom hcore hmap hn =>
    refine iff_of_true (fun e => ?_) trivial
    by_cases he : e = d
    · subst he
      exact agrees_dropped ((hcore e).trans (if_pos rfl)) (hP e)
    · exact agrees_congr ((hcore e).trans (if_neg he)) (hP e)
  | reconnect hin hout hmap hn =>
    refine iff_of_true (fun d => ?_) trivial
    by_cases hd : ∃ p, s.socket_map.lookup p = some d
    · obtain ⟨p, hl⟩ := hd
      exact agrees_dropped (hin p d hl) (hP d)
    · exact agrees_congr (hout d fun p hl => hd ⟨p, hl⟩) (hP d)
  | @answered d b ok _ hloop hstop hok hcore hmap hn =>
    have hc := (hcore d).trans (if_pos rfl)
    constructor
    · intro hall
      have ha : (t.core d).answers = (s.core d).answers ++ [ok] := by rw [hc]
      refine ⟨fun hmem => ?_, fun hfail => ?_⟩
      · obtain ⟨before, after, hsplit⟩ := List.append_of_mem hmem
        have hend := ((hall d).2 before (after ++ [ok]) (by rw [ha, hsplit]; simp)).1
        simp at hend
      · have hs := ((hall d).2 (s.core d).answers [] (by rw [ha, hfail])).2
        rw [hc] at hs
        exact hs
    · rintro ⟨hno, hfail⟩ e
      by_cases he : e = d
      · subst he
        refine ⟨fun hl => ?_, fun before after ha => ?_⟩
        · rw [hc] at hl
          exact ReadLoop.noConfusion (hloop.symm.trans hl)
        · rw [hc] at ha ⊢
          -- an error among the answers is the one just given
          rcases List.eq_nil_or_concat after with rfl | ⟨init, last, rfl⟩
          · obtain ⟨-, hok⟩ := List.append_inj' ha rfl
            exact ⟨rfl, hfail (List.singleton_inj.mp hok)⟩
          · have hsplit : (s.core e).answers ++ [ok] = (before ++ false :: init) ++ [last] := by simpa using ha
            obtain ⟨hinit, -⟩ := List.append_inj' hsplit rfl
            exact (hno (by rw [hinit]; simp)).elim
      · exact agrees_congr ((hcore e).trans (if_neg he)) (hP e)
  | @ended d event ok _ hevent hloop hstop hcore hmap hn =>
    have hc := (hcore d).trans (if_pos rfl)
    have hG : InStep s (.read d event ok) ↔ (s.core d).tracked = false := by
      rcases hevent with rfl | rfl <;> exact Iff.rfl
    rw [hG]
    constructor
    · intro hall
      have ht := (hall d).1 (by rw [hc])
      rw [hc] at ht
      exact ht
    · intro ht e
      by_cases he : e = d
      · subst he
        unfold Agrees
        rw [hc]
        exact ⟨fun _ => ht, (hP e).2⟩
      · exact agrees_congr ((hcore e).trans (if_neg he)) (hP e)

/-- All along a run the reading loops agree with LDK exactly when each turn of a loop is in step with LDK. -/
theorem readers_agree {our_peer_pubkey : Bytes} {as : List ClientAct}
    (h : machine.run (new our_peer_pubkey) as = some s) :
    (∀ bs u, bs <+: as → machine.run (new our_peer_pubkey) bs = some u → ∀ d, u.Agrees d) ↔
      machine.Along InStep (new our_peer_pubkey) as :=
  Machine.along_iff (I := fun _ => True) (fun _ _ _ _ _ => trivial) (fun _ _ _ _ hP hs => agrees_step hP hs) trivial
    (fun _ => agrees_new nofun rfl) h

/-- LDK drops a TCP peer, and then its stream ends. -/
def tcp_dropped : List ClientAct :=
  [.connect_peer sample_peer .Tcp (.initial_bytes [1]), .read 0 (.Bytes [2]) true, .ldk_disconnect 0, .read 0 .End true]

theorem readers_agree_tcp : ∃ s, machine.run (new sample_key) tcp_dropped = some s ∧ (s.core 0).loop = .ended ∧
    ∀ bs u, bs <+: tcp_dropped → machine.run (new sample_key) bs = some u → ∀ d, u.Agrees d := by
  have hstep : machine.Along InStep (new sample_key) tcp_dropped :=
    .cons trivial rfl <| .cons ⟨by decide, nofun⟩ rfl <| .cons trivial rfl <| .cons rfl rfl trivial
  exact ⟨_, rfl, rfl, (@readers_agree _ sample_key tcp_dropped rfl).mpr hstep⟩

def tcp_closes : List ClientAct := [.connect_peer sample_peer .Tcp (.initial_bytes [1]), .read 0 .End true]

/-- The stream of a TCP descriptor ends and LDK still has the peer. And after an error of `read_event` the loop of a
descriptor reads on and passes the next message to LDK; the connection is not closed. -/
theorem reader_ends_tracked : (∃ s, machine.run (new sample_key) tcp_closes = some s ∧ (s.core 0).loop = .ended ∧
      (s.core 0).tracked = true) ∧
    ∃ s, machine.run (new sample_key) [.connect_peer sample_peer .Tcp (.initial_bytes [1]), .read 0 (.Bytes [1]) false,
        .read 0 (.Bytes [2]) false] = some s ∧ (s.core 0).answers = [false, false] ∧ (s.core 0).stop = false ∧
      (s.core 0).loop = .running :=
  ⟨⟨_, rfl, rfl, rfl⟩, _, rfl, rfl, rfl, rfl⟩

end Client

end Mutiny
