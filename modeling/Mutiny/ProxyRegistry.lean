import Mutiny.ProxySteps

/-!
# Who is registered at the proxy

A registration overwrites the entry of its identifier, and a loop that ends removes the entry of its identifier, its
own or not. So every live loop keeps a live entry exactly as long as no loop ends while another one of its identifier
is live (`proxy_registered`).
-/

namespace Mutiny

namespace Proxy

/-- The identifier of every loop that has registered and not ended has an entry, of a loop that has not ended. -/
def Registered (s : Proxy) : Prop :=
  ∀ c, (s.handlers c).pc.live →
    ∃ d, s.producers (s.handlers c).owner_id = some d ∧ (s.handlers d).pc.live

/-- A loop that ends is the only live one of its identifier. -/
def Alone (s : Proxy) (a : ProxyAct) : Prop :=
  ∀ c, a = .resume c → (s.handlers c).pc = .teardown →
    ∀ d, d ≠ c → (s.handlers d).pc.live → (s.handlers d).owner_id ≠ (s.handlers c).owner_id

variable {s t : Proxy} {a : ProxyAct}

theorem Registered.of_live (hreg : Registered s) (hlive : ∀ d, (t.handlers d).pc.live ↔ (s.handlers d).pc.live)
    (hids : ∀ d, (s.handlers d).pc.live → (t.handlers d).owner_id = (s.handlers d).owner_id)
    (hm : t.producers = s.producers) : Registered t := by
  intro d hd
  have hs := (hlive d).mp hd
  obtain ⟨e, he, hel⟩ := hreg d hs
  rw [hids d hs, hm]
  exact ⟨e, he, (hlive e).mpr hel⟩

theorem Registered.of_moves {c : ConnId} {pc : Pc} (hreg : Registered s) (k : Moves c pc s t)
    (hc : (s.handlers c).pc.live) (hpc : pc.live) (hm : t.producers = s.producers) : Registered t := by
  refine hreg.of_live (fun d => ?_) (fun d _ => k.owner_id d) hm
  rw [k.pc]
  by_cases hd : d = c <;> simp [hd, hc, hpc]

theorem Registered.step (inv : Locked s) (hreg : Registered s) (h : step s a = some t)
    (hno : ∀ c, actor a = some c → (s.handlers c).pc ≠ .teardown) : Registered t := by
  cases trans_of_step h with
  | connect pc hpc hconns hpcs hids hm hl =>
    have hn := inv.fresh s.conns (Nat.le_refl _)
    refine hreg.of_live (fun d => ?_) (fun d hd => hids d ?_) hm
    · rw [hpcs]
      by_cases hd : d = s.conns
      · rcases hpc with rfl | rfl <;> simp [hd, hn, Pc.live]
      · simp [hd]
    · rintro rfl
      rw [hn] at hd
      cases hd
  | stay hconns hpcs hids hm hl => exact hreg.of_live (fun d => by rw [hpcs]) (fun d _ => hids d) hm
  | register c ha hc hfree k hm hl =>
    intro d hd
    have hlive : ∀ e, (s.handlers e).pc.live → (t.handlers e).pc.live := fun e he => Locked.live_moves k (fun _ => rfl) he
    rw [k.owner_id, hm, Function.update_apply]
    by_cases hid : (s.handlers d).owner_id = (s.handlers c).owner_id
    · rw [if_pos hid]
      exact ⟨c, rfl, by simp [k.pc, Pc.live]⟩
    · have hdc : d ≠ c := by
        rintro rfl
        exact hid rfl
      rw [k.pc, if_neg hdc] at hd
      obtain ⟨e, he, hel⟩ := hreg d hd
      rw [if_neg hid]
      exact ⟨e, he, hlive e hel⟩
  | leave c pc ha hc hlive hholds k hm hl => exact hreg.of_moves k (by rw [hc]; rfl) hlive hm
  | give_up c ha hc hlive hfree k hm hl => exact hreg.of_moves k hlive rfl hm
  | acquire c pc ha hc hlive hfree hholds hpeer k hm hl =>
    exact hreg.of_moves k hlive (Pc.live_of_holds hholds) hm
  | hold c pc ha hc hholds hpeer k hm hl =>
    exact hreg.of_moves k (Pc.live_of_holds hc) (Pc.live_of_holds hholds) hm
  | release c ha hc k hm hl => exact hreg.of_moves k (Pc.live_of_holds hc) rfl hm
  | finish c ha hc hfree k hm hl => exact absurd hc (hno c ha)

theorem registered_finish {c : ConnId} (inv : Locked s) (hreg : Registered s) (hc : (s.handlers c).pc = .teardown)
    (h : s.resume c = some t) : Registered t ↔
      ∀ d, d ≠ c → (s.handlers d).pc.live → (s.handlers d).owner_id ≠ (s.handlers c).owner_id := by
  simp only [resume, hc, Option.ite_none_right_eq_some, Option.some.injEq] at h
  obtain ⟨-, rfl⟩ := h
  have hpc : ∀ d, d ≠ c → ((s.goto c .done).handlers d).pc = (s.handlers d).pc := fun d hd => by simp [hd]
  constructor
  · intro ht d hd hl heq
    obtain ⟨e, he, -⟩ := ht d (by rw [← hpc d hd] at hl; exact hl)
    simp [heq] at he
  · intro halone d hd
    have hdc : d ≠ c := by
      rintro rfl
      simp [Pc.live] at hd
    rw [hpc d hdc] at hd
    have hid := halone d hdc hd
    obtain ⟨e, he, hel⟩ := hreg d hd
    have hec : e ≠ c := by
      rintro rfl
      exact hid (inv.registered _ e he).2.symm
    refine ⟨e, ?_, ?_⟩
    · simpa [hid] using he
    · rw [hpc e hec]
      exact hel

theorem registered_step (inv : Locked s) (hreg : Registered s) (h : step s a = some t) :
    Registered t ↔ Alone s a := by
  by_cases hf : ∃ c, a = .resume c ∧ (s.handlers c).pc = .teardown
  · obtain ⟨c, rfl, hc⟩ := hf
    rw [registered_finish inv hreg hc h]
    constructor
    · intro hd e he _
      cases he
      exact hd
    · intro hd
      exact hd c rfl hc
  · refine iff_of_true (hreg.step inv h fun c ha hc => hf ?_) fun c ha hc => absurd ⟨c, ha, hc⟩ hf
    cases a with
    | read e =>
      cases ha
      simp [step, read, hc] at h
    | receive e ok =>
      cases ha
      simp [step, receive, hc] at h
    | resume e =>
      cases ha
      exact ⟨c, rfl, hc⟩
    | connect _ => cases ha
    | client_send _ _ => cases ha
    | client_close _ => cases ha
    | listener _ => cases ha

/-- In every state of a run the live loops are registered, exactly when no loop ends on the way while another one of
its identifier is live. -/
theorem proxy_registered (as : List ProxyAct) (s : Proxy) (hr : machine.run new as = some s) :
    (∀ bs t, bs <+: as → machine.run new bs = some t → Registered t) ↔ machine.Along Alone new as := by
  have h₀ : Registered new := by
    intro c hc
    cases hc
  exact Machine.along_iff (I := Locked) (fun _ _ _ inv hs => inv.trans (trans_of_step hs))
    (fun _ _ _ inv hreg hs => registered_step inv hreg hs) locked_new h₀ hr

/-- Two clients come, and the first one goes. -/
def visit : List ProxyAct :=
  [.connect "020202020202020202020202020202020202020202020202020202020202020202",
    .connect "030303030303030303030303030303030303030303030303030303030303030303", .resume 0, .resume 1,
    .client_close 0, .read 0, .resume 0]

theorem proxy_registered_visit : ∃ s, machine.run new visit = some s ∧
    (s.handlers 0).pc = .done ∧ s.producers (.replicate 33 2) = none ∧ (s.handlers 1).pc.live ∧
    s.producers (.replicate 33 3) = some 1 ∧ ∀ bs t, bs <+: visit → machine.run new bs = some t → Registered t := by
  refine ⟨_, rfl, rfl, rfl, rfl, rfl, (proxy_registered visit _ rfl).mpr ?_⟩
  have hother : ∀ (s : Proxy) (a : ProxyAct), (∀ c, a ≠ .resume c) → Alone s a :=
    fun s a ha c hc => absurd hc (ha c)
  have hregistering : ∀ (s : Proxy) (c : ConnId), (s.handlers c).pc = .registering → Alone s (.resume c) := by
    intro s c hpc d hd ht
    cases hd
    rw [hpc] at ht
    cases ht
  refine .cons (hother _ _ nofun) rfl <| .cons (hother _ _ nofun) rfl <| .cons (hregistering _ 0 rfl) rfl <|
    .cons (hregistering _ 1 rfl) rfl <| .cons (hother _ _ nofun) rfl <| .cons (hother _ _ nofun) rfl <|
    .cons ?_ rfl trivial
  intro c hc _ d hd hlive
  cases hc
  by_cases h1 : d = 1
  · subst h1
    decide
  · simp [connect, new, goto, set, hd, h1, Handler.none, Pc.live] at hlive

/-- A client connects, connects again before its first connection is noticed to be gone, and the first loop then ends:
the second one is live and not registered. -/
theorem proxy_unregisters : ∃ s, machine.run new [.connect "ab", .resume 0, .connect "ab", .resume 1, .client_close 0,
      .read 0, .resume 0] = some s ∧
    (s.handlers 1).pc.live ∧ s.producers (s.handlers 1).owner_id = none ∧ ¬ Registered s := by
  refine ⟨_, rfl, rfl, rfl, fun h => ?_⟩
  obtain ⟨d, hd, -⟩ := h 1 rfl
  cases hd

end Proxy

end Mutiny
