import Mathlib.Data.Set.Insert
import Mathlib.Logic.Function.Basic

/-!
# Sessions that carry no number

Two ends exchange frames and disconnects over channels that keep the order. Neither names the session that it belongs
to: an end takes a disconnect for the session it is in and answers with a disconnect of its own. When an end opens a
session only while it is `Clear` to do so, a disconnect ends only a session that its sender knew, or that had heard of
its sender.
-/

namespace Session

variable {D : Type*}

/-- What is on its way. A disconnect keeps which descriptors of the other end its sender had received a frame of. -/
inductive Parcel (D : Type*) where
  | frame (source : D)
  | disconnect (source : D) (received : Set D)

/-- One of the two ends. `entry` is the descriptor that takes what comes in, `live` are the descriptors that can still
send, `tracked` those that the owner of the end may use, `heard d` is what came in for `d`, and `flight` is what the
end has sent and the other has not taken. -/
structure End (D : Type*) where
  entry : Option D
  live : Set D
  tracked : Set D
  received : Set D
  heard : D → Set D
  flight : List (Parcel D)

/-- The source of the first disconnect. -/
def first : List (Parcel D) → Option D
  | [] => none
  | .frame _ :: l => first l
  | .disconnect d _ :: _ => some d

/-- The frames before a disconnect are from its source, those after the last disconnect from a live descriptor. -/
def Ordered (live : Set D) : List (Parcel D) → Prop
  | [] => True
  | .frame d :: l => (first l = none → d ∈ live) ∧ (∀ e, first l = some e → d = e) ∧ Ordered live l
  | .disconnect _ _ :: l => Ordered live l

/-- No disconnect comes after a frame. -/
def FramesLast : List (Parcel D) → Prop
  | [] => True
  | .frame _ :: l => first l = none
  | .disconnect _ _ :: l => FramesLast l

/-- `x` may open a session: it is in none, no disconnect is on its way to it, and nothing that it has sent before can
make the other end send one. -/
structure Clear (x y : End D) : Prop where
  entry : x.entry = none
  incoming : first y.flight = none
  outgoing : x.flight = [] ∨ y.entry = none ∧ ∀ d, .frame d ∉ x.flight

/-- A step of `x`. -/
inductive Move [DecidableEq D] (x y : End D) : End D → End D → Prop where
  | quiet {tracked received : Set D} (ht : tracked ⊆ x.tracked) (hr : x.received ⊆ received) :
      Move x y { x with tracked, received } y
  | send {d : D} (hd : d ∈ x.live) : Move x y { x with flight := x.flight ++ [.frame d] } y
  | hang_up {d : D} (hd : d ∈ x.tracked) :
      Move x y { x with live := x.live \ {d}, tracked := x.tracked \ {d},
                        flight := x.flight ++ [.disconnect d x.received] } y
  | connect {d : D} (hc : Clear x y) :
      Move x y { x with entry := some d, live := insert d x.live, tracked := insert d x.tracked,
                        flight := x.flight ++ [.frame d] } y
  /-- The descriptor is made, but its owner never uses it. -/
  | refused {d : D} (hc : Clear x y) : Move x y { x with entry := some d, live := insert d x.live } y
  | take {d e : D} {rest : List (Parcel D)} (hf : y.flight = .frame d :: rest) (he : x.entry = some e) :
      Move x y { x with received := insert d x.received, heard := Function.update x.heard e (insert d (x.heard e)) }
        { y with flight := rest }
  | accept {d e : D} {rest : List (Parcel D)} (hf : y.flight = .frame d :: rest) (hx : x.entry = none)
      (hr : d ∈ x.received) :
      Move x y { x with entry := some e, live := insert e x.live, tracked := insert e x.tracked,
                        heard := Function.update x.heard e (insert d (x.heard e)) } { y with flight := rest }
  | reject {d e : D} {rest : List (Parcel D)} (hf : y.flight = .frame d :: rest) (hx : x.entry = none)
      (hr : d ∈ x.received) :
      Move x y { x with flight := x.flight ++ [.disconnect e x.received] } { y with flight := rest }
  | told {d e : D} {received : Set D} {rest : List (Parcel D)} (hf : y.flight = .disconnect d received :: rest)
      (he : x.entry = some e) :
      Move x y { x with entry := none, live := x.live \ {e}, tracked := x.tracked \ {e},
                        flight := x.flight ++ [.disconnect e x.received] } { y with flight := rest }
  | ignored {d : D} {received : Set D} {rest : List (Parcel D)} (hf : y.flight = .disconnect d received :: rest)
      (hx : x.entry = none) : Move x y x { y with flight := rest }

/-! ## What is on its way -/

@[simp] theorem first_append_frame (l : List (Parcel D)) (d : D) : first (l ++ [.frame d]) = first l := by
  induction l with
  | nil => rfl
  | cons p l ih => cases p <;> simp [first, ih]

@[simp] theorem first_append_disconnect (l : List (Parcel D)) (d : D) (r : Set D) :
    first (l ++ [.disconnect d r]) = some ((first l).getD d) := by
  induction l with
  | nil => rfl
  | cons p l ih => cases p <;> simp [first, ih]

namespace Ordered

variable {live live' : Set D} {l : List (Parcel D)}

theorem mono (h : Ordered live l) (hl : live ⊆ live') : Ordered live' l := by
  induction l with
  | nil => trivial
  | cons p l ih =>
    cases p with
    | frame d => exact ⟨fun hf => hl (h.1 hf), h.2.1, ih h.2.2⟩
    | disconnect d r => exact ih h

theorem append_frame {d : D} (h : Ordered live l) (hd : d ∈ live) : Ordered live (l ++ [.frame d]) := by
  induction l with
  | nil => exact ⟨fun _ => hd, nofun, trivial⟩
  | cons p l ih =>
    cases p with
    | frame e => exact ⟨by simpa using h.1, by simpa using h.2.1, ih h.2.2⟩
    | disconnect e r => exact ih h

/-- The live descriptors before a disconnect do not matter after it. -/
theorem append_disconnect {d : D} {r : Set D} (h : Ordered live l) (hd : ∀ e ∈ live, e = d) :
    Ordered live' (l ++ [.disconnect d r]) := by
  induction l with
  | nil => trivial
  | cons p l ih =>
    cases p with
    | frame e =>
      refine ⟨by simp, fun f hf => ?_, ih h.2.2⟩
      have hf : first (l ++ [.disconnect d r]) = some f := hf
      rw [first_append_disconnect] at hf
      cases hl : first l with
      | none =>
        rw [hl] at hf
        cases hf
        exact hd e (h.1 hl)
      | some g =>
        rw [hl] at hf
        cases hf
        exact h.2.1 g hl
    | disconnect e r => exact ih h

end Ordered

theorem FramesLast.append_frame {l : List (Parcel D)} {d : D} (h : FramesLast l) : FramesLast (l ++ [.frame d]) := by
  induction l with
  | nil => rfl
  | cons p l ih =>
    cases p with
    | frame e => exact (first_append_frame l d).trans h
    | disconnect e r => exact ih h

theorem framesLast_of_not_frame {l : List (Parcel D)} (h : ∀ d, .frame d ∉ l) : FramesLast l := by
  induction l with
  | nil => trivial
  | cons p l ih =>
    cases p with
    | frame e => exact (h e (by simp)).elim
    | disconnect e r => exact ih fun d hd => h d (List.mem_cons_of_mem _ hd)

/-! ## The invariant -/

/-- What holds of `x`, seen from what `y` does. -/
structure Inv (x y : End D) : Prop where
  tidy : ∀ d ∈ x.live, x.entry = some d
  tracked : x.tracked ⊆ x.live
  ordered : Ordered x.live x.flight
  /-- A disconnect that comes next is for the session of `x`. -/
  meant : ∀ d r rest, y.flight = .disconnect d r :: rest → ∀ e ∈ x.live, e ∈ r ∨ d ∈ x.heard e
  /-- Two sessions with nothing on its way have met, or that of `y` is mute. -/
  paired : y.flight = [] → ∀ e ∈ x.live, ∀ d, y.entry = some d →
    e ∈ y.received ∨ d ∈ x.heard e ∨ d ∉ y.tracked ∧ first x.flight = none
  alone : y.flight = [] → y.entry = none → ∀ e ∈ x.live, FramesLast x.flight
  /-- `x` has been told of a session that it is not in, or will be, unless the session is mute. -/
  waiting : x.entry = none → ∀ d, y.entry = some d →
    first x.flight ≠ none ∨ (∃ e, .frame e ∈ y.flight) ∨ d ∉ y.tracked

theorem append_eq_cons {l rest : List (Parcel D)} {p q : Parcel D} (h : l ++ [p] = q :: rest) :
    l = [] ∧ p = q ∨ ∃ rest', l = q :: rest' := by
  cases l with
  | nil =>
    cases h
    exact .inl ⟨rfl, rfl⟩
  | cons r l =>
    cases h
    exact .inr ⟨l, rfl⟩

/-- An end with no live descriptor only has to be told of sessions that it is not in. -/
theorem inv_of_not_live {x y : End D} (hl : ∀ d, d ∉ x.live) (ht : x.tracked ⊆ x.live) (ho : Ordered x.live x.flight)
    (hw : x.entry = none → ∀ d, y.entry = some d →
      first x.flight ≠ none ∨ (∃ e, .frame e ∈ y.flight) ∨ d ∉ y.tracked) : Inv x y where
  tidy d hd := (hl d hd).elim
  tracked := ht
  ordered := ho
  meant _ _ _ _ e he := (hl e he).elim
  paired _ e he := (hl e he).elim
  alone _ _ e he := (hl e he).elim
  waiting := hw

namespace Inv

variable {x y x' y' : End D} {d e : D} {rest : List (Parcel D)}

theorem not_live (h : Inv x y) (hx : x.entry = none) (d : D) : d ∉ x.live := by
  intro hd
  have he := h.tidy d hd
  rw [hx] at he
  cases he

theorem eq_of_live (h : Inv x y) (hx : x.entry = some e) (hd : d ∈ x.live) : d = e := by
  have he := h.tidy d hd
  rw [hx] at he
  exact (Option.some.inj he).symm

theorem frame_entry (h : Inv y x) (hf : y.flight = .frame d :: rest) (hn : first rest = none) : y.entry = some d := by
  have ho := h.ordered
  rw [hf] at ho
  exact h.tidy d (ho.1 hn)

theorem frame_source (h : Inv y x) (hf : y.flight = .frame d :: rest) {r : Set D} {rest' : List (Parcel D)}
    (hr : rest = .disconnect e r :: rest') : d = e := by
  have ho := h.ordered
  rw [hf] at ho
  exact ho.2.1 e (by rw [hr]; rfl)

theorem ordered_tail (h : Inv y x) {p : Parcel D} (hf : y.flight = p :: rest) : Ordered y.live rest := by
  have ho := h.ordered
  rw [hf] at ho
  cases p with
  | frame d => exact ho.2.2
  | disconnect d r => exact ho

theorem frame_live (h : Inv y x) (hf : y.flight = .frame d :: rest) (hx : x.entry = none) (hl : x.flight = [])
    (he : e ∈ y.live) : e = d := by
  have hlast := h.alone hl hx e he
  rw [hf] at hlast
  exact h.eq_of_live (h.frame_entry hf hlast) he

theorem meant_append (h : Inv y x) {r : Set D} (hnew : x.flight = [] → ∀ e ∈ y.live, e ∈ r ∨ d ∈ y.heard e) :
    ∀ f r' rest, x.flight ++ [.disconnect d r] = .disconnect f r' :: rest → ∀ e ∈ y.live, e ∈ r' ∨ f ∈ y.heard e := by
  intro f r' rest heq e he
  rcases append_eq_cons heq with ⟨hnil, hp⟩ | ⟨rest', hx⟩
  · cases hp
    exact hnew hnil e he
  · exact h.meant f r' rest' hx e he

theorem meant_append_frame (h : Inv y x) : ∀ f r rest, x.flight ++ [.frame d] = .disconnect f r :: rest →
    ∀ e ∈ y.live, e ∈ r ∨ f ∈ y.heard e := by
  intro f r rest heq
  rcases append_eq_cons heq with ⟨-, hp⟩ | ⟨rest', hx⟩
  · cases hp
  · exact h.meant f r rest' hx

theorem eq_of_insert (h : Inv x y) (hx : x.entry = none) (hd : d ∈ insert e x.live) : d = e :=
  hd.resolve_right (h.not_live hx d)

theorem mute_of_clear (h : Inv x y) (hc : Clear x y) (hl : y.flight = []) (hd : y.entry = some d) :
    d ∉ y.tracked ∧ x.flight = [] := by
  have hout : x.flight = [] := hc.outgoing.resolve_right fun h => by simp [hd] at h
  rcases h.waiting hc.entry d hd with hw | ⟨e, hw⟩ | hw
  · simp [hout, first] at hw
  · simp [hl] at hw
  · exact ⟨hw, hout⟩

theorem framesLast_of_clear (hc : Clear x y) : FramesLast x.flight := by
  rcases hc.outgoing with hout | ⟨-, hout⟩
  · rw [hout]
    trivial
  · exact framesLast_of_not_frame hout

theorem not_disconnect_of_clear (hc : Clear x y) {r : Set D} : y.flight ≠ .disconnect d r :: rest := by
  intro hf
  have hi := hc.incoming
  rw [hf] at hi
  cases hi

variable [DecidableEq D]

theorem acting (hx : Inv x y) (hy : Inv y x) (h : Move x y x' y') : Inv x' y' := by
  cases h with
  | quiet ht hr => exact { hx with tracked := ht.trans hx.tracked }
  | @send d hd =>
    exact { hx with
      ordered := hx.ordered.append_frame hd
      paired := by simpa using hx.paired
      alone := fun hl hn e he => (hx.alone hl hn e he).append_frame
      waiting := by simpa using hx.waiting }
  | @hang_up d hd =>
    have hentry := hx.tidy d (hx.tracked hd)
    have hnone : ∀ e, e ∉ x.live \ {d} := fun e he => he.2 (hx.eq_of_live hentry he.1)
    refine inv_of_not_live hnone (fun e he => ⟨hx.tracked he.1, he.2⟩) ?_ fun _ _ _ => .inl (by simp)
    exact hx.ordered.append_disconnect fun e he => hx.eq_of_live hentry he
  | @connect d hc =>
    exact {
      tidy := fun e he => by rw [hx.eq_of_insert hc.entry he]
      tracked := Set.insert_subset_insert hx.tracked
      ordered := (hx.ordered.mono (Set.subset_insert d _)).append_frame (Set.mem_insert d _)
      meant := fun _ _ _ hf => (not_disconnect_of_clear hc hf).elim
      paired := fun hl e _ f hf => by
        obtain ⟨hmute, hout⟩ := hx.mute_of_clear hc hl hf
        exact .inr (.inr ⟨hmute, by simp [hout, first]⟩)
      alone := fun _ _ _ _ => (framesLast_of_clear hc).append_frame
      waiting := nofun }
  | @refused d hc =>
    exact {
      tidy := fun e he => by rw [hx.eq_of_insert hc.entry he]
      tracked := hx.tracked.trans (Set.subset_insert d _)
      ordered := hx.ordered.mono (Set.subset_insert d _)
      meant := fun _ _ _ hf => (not_disconnect_of_clear hc hf).elim
      paired := fun hl e _ f hf => by
        obtain ⟨hmute, hout⟩ := hx.mute_of_clear hc hl hf
        exact .inr (.inr ⟨hmute, by simp [hout, first]⟩)
      alone := fun _ _ _ _ => framesLast_of_clear (x := x) hc
      waiting := nofun }
  | @take d e rest hf he =>
    exact { hx with
      meant := fun g r rest' hr f hlive => by
        rw [hx.eq_of_live he hlive, hy.frame_source hf hr]
        exact .inr (by simp)
      paired := fun hl f hlive g hg => by
        have hl : rest = [] := hl
        have hd := hy.frame_entry hf (by rw [hl]; rfl)
        rw [show y.entry = some g from hg] at hd
        cases hd
        rw [hx.eq_of_live he hlive]
        exact .inr (.inl (by simp))
      alone := fun hl hn => by
        have hl : rest = [] := hl
        have hd := hy.frame_entry hf (by rw [hl]; rfl)
        rw [show y.entry = none from hn] at hd
        cases hd
      waiting := fun hn => by
        rw [show x.entry = none from hn] at he
        cases he }
  | @accept d e rest hf hn hr =>
    exact {
      tidy := fun f hlive => by rw [hx.eq_of_insert hn hlive]
      tracked := Set.insert_subset_insert hx.tracked
      ordered := hx.ordered.mono (Set.subset_insert e _)
      meant := fun g r rest' hrest f hlive => by
        rw [hx.eq_of_insert hn hlive, hy.frame_source hf hrest]
        exact .inr (by simp)
      paired := fun hl f hlive g hg => by
        have hl : rest = [] := hl
        have hd := hy.frame_entry hf (by rw [hl]; rfl)
        rw [show y.entry = some g from hg] at hd
        cases hd
        rw [hx.eq_of_insert hn hlive]
        exact .inr (.inl (by simp))
      alone := fun hl hn' => by
        have hl : rest = [] := hl
        have hd := hy.frame_entry hf (by rw [hl]; rfl)
        rw [show y.entry = none from hn'] at hd
        cases hd
      waiting := nofun }
  | @reject d e rest hf hn hr =>
    have hnone := hx.not_live hn
    refine inv_of_not_live hnone hx.tracked ?_ fun _ _ _ => .inl (by simp)
    exact hx.ordered.append_disconnect fun e he => (hnone e he).elim
  | @told d e received rest hf he =>
    have hnone : ∀ f, f ∉ x.live \ {e} := fun f hlive => hlive.2 (hx.eq_of_live he hlive.1)
    refine inv_of_not_live hnone (fun f ht => ⟨hx.tracked ht.1, ht.2⟩) ?_ fun _ _ _ => .inl (by simp)
    exact hx.ordered.append_disconnect fun f hlive => hx.eq_of_live he hlive
  | @ignored d received rest hf hn =>
    apply inv_of_not_live (hx.not_live hn) hx.tracked hx.ordered
    intro _ f hf'
    have hw := hx.waiting hn f hf'
    simpa [hf] using hw

theorem facing (hx : Inv x y) (hy : Inv y x) (h : Move x y x' y') : Inv y' x' := by
  cases h with
  | quiet ht hr =>
    exact { hy with
      paired := fun hl e he d hd => by
        rcases hy.paired hl e he d hd with h | h | ⟨h, hf⟩
        · exact .inl (hr h)
        · exact .inr (.inl h)
        · exact .inr (.inr ⟨fun ht' => h (ht ht'), hf⟩)
      waiting := fun hn d hd => by
        rcases hy.waiting hn d hd with h | h | h
        · exact .inl h
        · exact .inr (.inl h)
        · exact .inr (.inr fun ht' => h (ht ht')) }
  | @send d hd =>
    exact { hy with
      meant := hy.meant_append_frame
      paired := fun hl => by simp at hl
      alone := fun hl => by simp at hl
      waiting := fun _ _ _ => .inr (.inl ⟨d, by simp⟩) }
  | @hang_up d hd =>
    have hentry := hx.tidy d (hx.tracked hd)
    exact { hy with
      meant := hy.meant_append fun hl e he => by
        rcases hy.paired hl e he d hentry with h | h | ⟨h, -⟩
        · exact .inl h
        · exact .inr h
        · exact (h hd).elim
      paired := fun hl => by simp at hl
      alone := fun hl => by simp at hl
      waiting := fun hn f hf => by
        rcases hy.waiting hn f hf with h | ⟨g, h⟩ | h
        · exact .inl h
        · exact .inr (.inl ⟨g, List.mem_append_left _ h⟩)
        · exact .inr (.inr fun ht => h ht.1) }
  | @connect d hc =>
    exact { hy with
      meant := hy.meant_append_frame
      paired := fun hl => by simp at hl
      alone := fun hl => by simp at hl
      waiting := fun _ _ _ => .inr (.inl ⟨d, by simp⟩) }
  | @refused d hc =>
    have hmute : ∀ e, e ∉ x.tracked := fun e he => hx.not_live hc.entry e (hx.tracked he)
    exact { hy with
      paired := fun _ _ _ e _ => .inr (.inr ⟨hmute e, hc.incoming⟩)
      alone := nofun
      waiting := fun _ e _ => .inr (.inr (hmute e)) }
  | @take d e rest hf he =>
    exact { hy with
      ordered := hy.ordered_tail hf
      paired := fun hl f hlive g hg => by
        rcases hy.paired hl f hlive g hg with h | h | ⟨h, hn⟩
        · exact .inl (Set.mem_insert_of_mem _ h)
        · exact .inr (.inl h)
        · rw [hf] at hn
          exact .inr (.inr ⟨h, hn⟩)
      alone := fun _ hn => by
        rw [show x.entry = none from hn] at he
        cases he
      waiting := fun hn g hg => by
        have hw := hy.waiting hn g hg
        rw [hf] at hw
        exact hw }
  | @accept d e rest hf hn hr =>
    exact { hy with
      ordered := hy.ordered_tail hf
      paired := fun hl f hlive _ _ => .inl (by rw [hy.frame_live hf hn hl hlive]; exact hr)
      alone := nofun
      waiting := fun hy' _ _ => .inl fun hfirst => by
        have hd := hy.frame_entry hf hfirst
        rw [show y.entry = none from hy'] at hd
        cases hd }
  | @reject d e rest hf hn hr =>
    exact { hy with
      ordered := hy.ordered_tail hf
      meant := hy.meant_append fun hl f hlive => .inl (by rw [hy.frame_live hf hn hl hlive]; exact hr)
      paired := fun hl => by simp at hl
      alone := fun hl => by simp at hl
      waiting := fun _ g hg => by
        rw [show x.entry = some g from hg] at hn
        cases hn }
  | @told d e received rest hf he =>
    exact { hy with
      ordered := hy.ordered_tail hf
      meant := hy.meant_append fun hl f hlive => by
        rcases hy.paired hl f hlive e he with h | h | ⟨-, h⟩
        · exact .inl h
        · exact .inr h
        · rw [hf] at h
          cases h
      paired := fun hl => by simp at hl
      alone := fun hl => by simp at hl
      waiting := nofun }
  | @ignored d received rest hf hn =>
    exact { hy with
      ordered := hy.ordered_tail hf
      paired := fun _ _ _ g hg => by
        rw [hn] at hg
        cases hg
      alone := fun hl hn' e he => by
        have ha := hy.alone hl hn' e he
        rw [hf] at ha
        exact ha
      waiting := fun _ g hg => by
        rw [hn] at hg
        cases hg }

end Inv

end Session
