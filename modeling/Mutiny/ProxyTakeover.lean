import Mutiny.ProxyRegistry

/-!
# Who gets the messages of an identifier

A registration overwrites the entry of its identifier, whether or not a live loop has it already. So a live loop keeps
its entry, and is sent what is addressed to its identifier, exactly as long as no loop registers while another one of
its identifier is live (`first_kept`).
-/

namespace Mutiny

namespace Proxy

def Sole (s : Proxy) : Prop := ∀ c, (s.handlers c).pc.live → s.producers (s.handlers c).owner_id = some c

/-- No loop that is live has the identifier of a loop that registers. -/
def Fresh (s : Proxy) (a : ProxyAct) : Prop :=
  ∀ c, a = .resume c → (s.handlers c).pc = .registering →
    ∀ d, (s.handlers d).pc.live → (s.handlers d).owner_id ≠ (s.handlers c).owner_id

/-- In a run, a connection that is registered stays the one its identifier is registered for until its loop ends, and
what is addressed to the identifier of a live loop goes to it. -/
structure FirstKept (as : List ProxyAct) : Prop where
  kept : ∀ bs a s t c, bs ++ [a] <+: as → machine.run new bs = some s → step s a = some t →
    s.producers (s.handlers c).owner_id = some c → (t.handlers c).pc.live →
      t.producers (s.handlers c).owner_id = some c
  routed : ∀ bs e s t c val, bs ++ [.resume e] <+: as → machine.run new bs = some s → step s (.resume e) = some t →
    (s.handlers c).pc.live → (s.handlers e).pc = .lock_send (s.handlers c).owner_id val →
      (t.handlers e).pc = .send_message (s.handlers c).owner_id val c
  disconnected : ∀ bs e s t c, bs ++ [.resume e] <+: as → machine.run new bs = some s → step s (.resume e) = some t →
    (s.handlers c).pc.live → (s.handlers e).pc = .lock_disconnect (s.handlers c).owner_id →
      (t.handlers e).pc = .send_disconnect (s.handlers c).owner_id c

variable {s t : Proxy} {a : ProxyAct}

/-! ## One step -/

theorem Sole.of_live (sole : Sole s) (hlive : ∀ d, (t.handlers d).pc.live → (s.handlers d).pc.live)
    (hids : ∀ d, (s.handlers d).pc.live → (t.handlers d).owner_id = (s.handlers d).owner_id)
    (hm : t.producers = s.producers) : Sole t := by
  intro d hd
  have hs := hlive d hd
  rw [hids d hs, hm]
  exact sole d hs

theorem Sole.of_moves {c : ConnId} {pc : Pc} (sole : Sole s) (k : Moves c pc s t) (hc : (s.handlers c).pc.live)
    (hm : t.producers = s.producers) : Sole t := by
  refine sole.of_live (fun d hd => ?_) (fun d _ => k.owner_id d) hm
  rw [k.pc] at hd
  by_cases hdc : d = c
  · rw [hdc]
    exact hc
  · rw [if_neg hdc] at hd
    exact hd

theorem sole_finish {c : ConnId} (sole : Sole s) (hc : (s.handlers c).pc = .teardown) (k : Moves c .done s t)
    (hm : t.producers = Function.update s.producers (s.handlers c).owner_id none) : Sole t := by
  intro d hd
  have hdc : d ≠ c := by
    intro hdc
    rw [hdc, k.pc, if_pos rfl] at hd
    cases hd
  rw [k.pc, if_neg hdc] at hd
  have hreg := sole d hd
  rw [k.owner_id, hm, Function.update_of_ne ?_, hreg]
  intro hid
  rw [hid, sole c (by rw [hc]; rfl)] at hreg
  exact hdc (Option.some.inj hreg).symm

theorem sole_register {c : ConnId} (sole : Sole s) (hc : (s.handlers c).pc = .registering) (k : Moves c .select s t)
    (hm : t.producers = Function.update s.producers (s.handlers c).owner_id (some c)) :
    Sole t ↔ ∀ d, (s.handlers d).pc.live → (s.handlers d).owner_id ≠ (s.handlers c).owner_id := by
  constructor
  · intro ht d hd hid
    have hdc : d ≠ c := by
      intro hdc
      rw [hdc, hc] at hd
      cases hd
    have hdt : (t.handlers d).pc.live := by
      rw [k.pc, if_neg hdc]
      exact hd
    have hreg := ht d hdt
    rw [k.owner_id, hm, hid, Function.update_self] at hreg
    exact hdc (Option.some.inj hreg).symm
  · intro hfresh d hd
    rw [k.owner_id, hm]
    by_cases hdc : d = c
    · rw [hdc, Function.update_self]
    · rw [k.pc, if_neg hdc] at hd
      rw [Function.update_of_ne (hfresh d hd)]
      exact sole d hd

theorem Sole.step (inv : Locked s) (sole : Sole s) (h : step s a = some t)
    (hno : ∀ c, actor a = some c → (s.handlers c).pc ≠ .registering) : Sole t := by
  cases trans_of_step h with
  | connect pc hpc hconns hpcs hids hm hl =>
    have hlive : ∀ d, (t.handlers d).pc.live → (s.handlers d).pc.live := by
      intro d hd
      rw [hpcs] at hd
      by_cases hdc : d = s.conns
      · rw [if_pos hdc] at hd
        rcases hpc with rfl | rfl <;> cases hd
      · rw [if_neg hdc] at hd
        exact hd
    refine sole.of_live hlive (fun d hd => hids d ?_) hm
    intro hdc
    rw [hdc, inv.fresh s.conns (Nat.le_refl _)] at hd
    cases hd
  | stay hconns hpcs hids hm hl => exact sole.of_live (fun d hd => hpcs d ▸ hd) (fun d _ => hids d) hm
  | register c ha hc hfree k hm hl => exact absurd hc (hno c ha)
  | leave c pc ha hc hlive hholds k hm hl => exact sole.of_moves k (by rw [hc]; rfl) hm
  | give_up c ha hc hlive hfree k hm hl => exact sole.of_moves k hlive hm
  | acquire c pc ha hc hlive hfree hholds hpeer k hm hl => exact sole.of_moves k hlive hm
  | hold c pc ha hc hholds hpeer k hm hl => exact sole.of_moves k (Pc.live_of_holds hc) hm
  | release c ha hc k hm hl => exact sole.of_moves k (Pc.live_of_holds hc) hm
  | finish c ha hc hfree k hm hl => exact sole_finish sole hc k hm

theorem resume_registering {c : ConnId} (hc : (s.handlers c).pc = .registering) (ha : actor a = some c)
    (h : step s a = some t) : a = .resume c ∧ Moves c .select s t ∧
      t.producers = Function.update s.producers (s.handlers c).owner_id (some c) := by
  cases a with
  | read e =>
    cases ha
    simp [Proxy.step, read, hc] at h
  | receive e ok =>
    cases ha
    simp [Proxy.step, receive, hc] at h
  | resume e =>
    cases ha
    simp only [Proxy.step, resume, hc, Option.ite_none_right_eq_some, Option.some.injEq] at h
    obtain ⟨-, rfl⟩ := h
    exact ⟨rfl, set_moves rfl rfl rfl rfl, rfl⟩
  | connect _ => cases ha
  | client_send _ _ => cases ha
  | client_close _ => cases ha
  | listener _ => cases ha

theorem sole_step (inv : Locked s) (sole : Sole s) (h : step s a = some t) : Sole t ↔ Fresh s a := by
  by_cases hf : ∃ c, actor a = some c ∧ (s.handlers c).pc = .registering
  · obtain ⟨c, ha, hc⟩ := hf
    obtain ⟨rfl, k, hm⟩ := resume_registering hc ha h
    rw [sole_register sole hc k hm]
    constructor
    · intro hd e he _
      cases he
      exact hd
    · intro hd
      exact hd c rfl hc
  · refine iff_of_true (sole.step inv h fun c ha hc => hf ⟨c, ha, hc⟩) fun c ha hc => absurd ⟨c, ?_, hc⟩ hf
    rw [ha]
    rfl

/-! ## Runs -/

theorem resume_lookup {e : ConnId} (h : step s (.resume e) = some t) (id : Bytes) (p : ConnId)
    (hp : s.producers id = some p) :
    (∀ val, (s.handlers e).pc = .lock_send id val → (t.handlers e).pc = .send_message id val p) ∧
      ((s.handlers e).pc = .lock_disconnect id → (t.handlers e).pc = .send_disconnect id p) := by
  constructor
  · intro val hpc
    simp only [step, resume, hpc, hp, Option.ite_none_right_eq_some, Option.some.injEq] at h
    obtain ⟨-, rfl⟩ := h
    simp
  · intro hpc
    simp only [step, resume, hpc, hp, Option.ite_none_right_eq_some, Option.some.injEq] at h
    obtain ⟨-, rfl⟩ := h
    simp

theorem first_kept_iff_sole {as : List ProxyAct} :
    FirstKept as ↔ ∀ bs t, bs <+: as → machine.run new bs = some t → Sole t := by
  constructor
  · intro h bs
    induction bs using List.reverseRecOn with
    | nil =>
      intro t _ ht c hc
      cases ht
      cases hc
    | append_singleton bs a ih =>
      intro t hb ht
      obtain ⟨s, hs, hstep⟩ := Machine.run_snoc_some ht
      have sole := ih s ((List.prefix_append bs [a]).trans hb) hs
      apply (sole_step (locked_of_run hs) sole hstep).mpr
      intro c ha hc d hd hid
      obtain ⟨-, k, hm⟩ := resume_registering hc (by rw [ha]; rfl) hstep
      have hdc : d ≠ c := by
        intro hdc
        rw [hdc, hc] at hd
        cases hd
      have hdt : (t.handlers d).pc.live := by
        rw [k.pc, if_neg hdc]
        exact hd
      -- the loop that registers has the entry of the live one now
      have hreg := h.kept bs a s t d hb hs hstep (sole d hd) hdt
      rw [hm, hid, Function.update_self] at hreg
      exact hdc (Option.some.inj hreg).symm
  · intro h
    refine ⟨?_, ?_, ?_⟩
    · intro bs a s t c hb hs hstep hreg hlive
      have sole := h (bs ++ [a]) t hb (by rw [Machine.run_append, hs]; exact Machine.run_singleton hstep)
      have inv := locked_of_run hs
      rw [← owner_id_step hstep (inv.lt_of_live (inv.registered _ c hreg).1)]
      exact sole c hlive
    · intro bs e s t c val hb hs hstep hlive hpc
      have sole := h bs s ((List.prefix_append bs _).trans hb) hs
      exact (resume_lookup hstep _ c (sole c hlive)).1 val hpc
    · intro bs e s t c hb hs hstep hlive hpc
      have sole := h bs s ((List.prefix_append bs _).trans hb) hs
      exact (resume_lookup hstep _ c (sole c hlive)).2 hpc

/-- The connection that registered first is not taken over in a run exactly when no loop registers in it while another
one of its identifier is live. -/
theorem first_kept (as : List ProxyAct) (s : Proxy) (hr : machine.run new as = some s) :
    FirstKept as ↔ machine.Along Fresh new as := by
  have h₀ : Sole new := by
    intro c hc
    cases hc
  rw [first_kept_iff_sole]
  exact Machine.along_iff (I := Locked) (fun _ _ _ inv hs => inv.trans (trans_of_step hs))
    (fun _ _ _ inv sole hs => sole_step inv sole hs) locked_new h₀ hr

/-- A client connects, leaves, and connects again once its loop has ended. -/
def visits : List ProxyAct :=
  [.connect "ab", .resume 0, .client_close 0, .read 0, .resume 0, .connect "ab", .resume 1]

theorem first_kept_visits : ∃ s, machine.run new visits = some s ∧ FirstKept visits := by
  refine ⟨_, rfl, (first_kept visits _ rfl).mpr ?_⟩
  have hother : ∀ (s : Proxy) (a : ProxyAct), (∀ c, a = .resume c → (s.handlers c).pc ≠ .registering) → Fresh s a :=
    fun s a h c ha hc => absurd hc (h c ha)
  refine .cons (hother _ _ nofun) rfl <| .cons ?_ rfl <| .cons (hother _ _ nofun) rfl <|
    .cons (hother _ _ nofun) rfl <| .cons (hother _ _ ?_) rfl <| .cons (hother _ _ nofun) rfl <| .cons ?_ rfl trivial
  · intro c _ _ d hd
    have hlt := (locked_of_run (rfl : machine.run new (visits.take 1) = some _)).lt_of_live hd
    obtain rfl : d = 0 := Nat.lt_one_iff.mp hlt
    cases hd
  · intro c hc hpc
    cases hc
    cases hpc
  · intro c _ _ d hd
    have hlt := (locked_of_run (rfl : machine.run new (visits.take 6) = some _)).lt_of_live hd
    obtain rfl | rfl : d = 0 ∨ d = 1 := Nat.le_one_iff_eq_zero_or_eq_one.mp (Nat.le_of_lt_succ hlt)
    · cases hd
    · cases hd

theorem first_taken_over : ∃ s, machine.run new [.connect "ab", .resume 0, .connect "ab", .resume 1] = some s ∧
    (s.handlers 0).pc.live ∧ (s.handlers 0).owner_id = [0xab] ∧ s.producers [0xab] = some 1 ∧
    ¬ FirstKept [.connect "ab", .resume 0, .connect "ab", .resume 1] := by
  refine ⟨_, rfl, rfl, rfl, rfl, fun h => ?_⟩
  have hreg := h.kept [.connect "ab", .resume 0, .connect "ab"] (.resume 1) _ _ 0 (List.prefix_refl _) rfl rfl rfl rfl
  cases hreg

end Proxy

end Mutiny
