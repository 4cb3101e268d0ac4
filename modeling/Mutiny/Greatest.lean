import Mathlib.Data.List.AList
import Mathlib.Data.List.Induction
import Mathlib.Order.Lattice

/-!
# The greatest entry of each key

A list is walked once, and a map keeps for each key the last of its entries of greatest size. `LastGreatest size l a`
says which entry of a list that is, without the walk, and `lookup_foldl_keep` that the map holds it for every key.
-/

variable {K A S : Type*} [LinearOrder S] (size : A → S)

/-- The last of the entries of greatest size. -/
def LastGreatest (l : List A) (a : A) : Prop :=
  ∃ before after, l = before ++ a :: after ∧ (∀ b ∈ before, size b ≤ size a) ∧ ∀ b ∈ after, size b < size a

namespace LastGreatest

section
variable {size}

theorem mem {l : List A} {a : A} (h : LastGreatest size l a) : a ∈ l := by
  obtain ⟨before, after, rfl, -⟩ := h
  simp

theorem le {l : List A} {a b : A} (h : LastGreatest size l a) (hb : b ∈ l) : size b ≤ size a := by
  obtain ⟨before, after, rfl, hbefore, hafter⟩ := h
  rcases List.mem_append.mp hb with hb | hb
  · exact hbefore b hb
  · rcases List.mem_cons.mp hb with rfl | hb
    · exact le_refl _
    · exact le_of_lt (hafter b hb)

theorem nil (a : A) : ¬ LastGreatest size [] a := by
  intro h
  cases h.mem

theorem snoc_iff {l : List A} {a x : A} : LastGreatest size (l ++ [a]) x ↔
    x = a ∧ (∀ b ∈ l, size b ≤ size a) ∨ LastGreatest size l x ∧ size a < size x := by
  constructor
  · rintro ⟨before, after, he, hbefore, hafter⟩
    rcases List.eq_nil_or_concat after with rfl | ⟨after, c, rfl⟩
    · obtain ⟨rfl, hx⟩ := List.append_inj' he rfl
      cases hx
      exact .inl ⟨rfl, hbefore⟩
    · rw [List.concat_eq_append, ← List.cons_append, ← List.append_assoc] at he
      obtain ⟨rfl, hx⟩ := List.append_inj' he rfl
      cases hx
      exact .inr ⟨⟨before, after, rfl, hbefore, fun b hb => hafter b (by simp [hb])⟩, hafter a (by simp)⟩
  · rintro (⟨rfl, hl⟩ | ⟨⟨before, after, rfl, hbefore, hafter⟩, hlt⟩)
    · exact ⟨l, [], rfl, hl, by simp⟩
    · refine ⟨before, after ++ [a], by simp, hbefore, fun b hb => ?_⟩
      rcases List.mem_append.mp hb with hb | hb
      · exact hafter b hb
      · rwa [List.mem_singleton.mp hb]

theorem unique {l : List A} {a b : A} (ha : LastGreatest size l a) (hb : LastGreatest size l b) : a = b := by
  induction l using List.reverseRecOn with
  | nil => cases ha.mem
  | append_singleton l c ih =>
    rcases snoc_iff.mp ha with ⟨rfl, hle⟩ | ⟨ha', hlt⟩
    · rcases snoc_iff.mp hb with ⟨rfl, -⟩ | ⟨hb', hlt'⟩
      · rfl
      · exact absurd (hle b hb'.mem) (not_le.mpr hlt')
    · rcases snoc_iff.mp hb with ⟨rfl, hle'⟩ | ⟨hb', -⟩
      · exact absurd (hle' a ha'.mem) (not_le.mpr hlt)
      · exact ih ha' hb'

end

theorem total {l : List A} (h : l ≠ []) : ∃ a, LastGreatest size l a := by
  induction l using List.reverseRecOn with
  | nil => exact absurd rfl h
  | append_singleton l a ih =>
    by_cases hl : l = []
    · subst hl
      exact ⟨a, snoc_iff.mpr (.inl ⟨rfl, by simp⟩)⟩
    · obtain ⟨x, hx⟩ := ih hl
      rcases lt_or_ge (size a) (size x) with hlt | hge
      · exact ⟨x, snoc_iff.mpr (.inr ⟨hx, hlt⟩)⟩
      · exact ⟨a, snoc_iff.mpr (.inl ⟨rfl, fun b hb => le_trans (hx.le hb) hge⟩)⟩

end LastGreatest

variable [DecidableEq K] (key : A → K)

/-- Put an entry under its key, unless a greater one is there. -/
def keep_greatest (m : AList fun _ : K => A) (a : A) : AList fun _ : K => A :=
  match m.lookup (key a) with
  | some b => if size a < size b then m else m.insert (key a) a
  | none => m.insert (key a) a

theorem lookup_keep_greatest_ne (m : AList fun _ : K => A) {a : A} {k : K} (h : key a ≠ k) :
    (keep_greatest size key m a).lookup k = m.lookup k := by
  unfold keep_greatest
  cases m.lookup (key a) with
  | none => exact AList.lookup_insert_ne h.symm
  | some b =>
    dsimp only
    split
    · rfl
    · exact AList.lookup_insert_ne h.symm

theorem lookup_keep_greatest (m : AList fun _ : K => A) (a : A) :
    (keep_greatest size key m a).lookup (key a) =
      some ((m.lookup (key a)).elim a fun b => if size a < size b then b else a) := by
  unfold keep_greatest
  cases hm : m.lookup (key a) with
  | none => exact AList.lookup_insert m
  | some b =>
    dsimp only [Option.elim]
    split
    · exact hm
    · exact AList.lookup_insert m

theorem lookup_foldl_keep (l : List A) (k : K) (x : A) :
    (l.foldl (keep_greatest size key) ∅).lookup k = some x ↔ LastGreatest size (l.filter fun a => key a = k) x := by
  induction l using List.reverseRecOn generalizing x with
  | nil => simp [LastGreatest.nil]
  | append_singleton l a ih =>
    rw [List.foldl_append, List.foldl_cons, List.foldl_nil, List.filter_append]
    by_cases hk : key a = k
    · subst hk
      rw [List.filter_cons_of_pos (by simp), List.filter_nil, LastGreatest.snoc_iff, lookup_keep_greatest,
        Option.some.injEq, ← ih x]
      cases hm : (l.foldl (keep_greatest size key) ∅).lookup (key a) with
      | none =>
        have hnone : l.filter (fun b => key b = key a) = [] := by
          by_contra hne
          obtain ⟨y, hy⟩ := LastGreatest.total size hne
          rw [(ih y).mpr hy] at hm
          cases hm
        rw [hnone]
        simp [eq_comm]
      | some b =>
        have hb := (ih b).mp hm
        dsimp only [Option.elim]
        by_cases hlt : size a < size b
        · rw [if_pos hlt]
          constructor
          · rintro rfl
            exact .inr ⟨rfl, hlt⟩
          · rintro (⟨rfl, hle⟩ | ⟨hx, -⟩)
            · exact absurd (hle b hb.mem) (not_le.mpr hlt)
            · exact Option.some.inj hx
        · rw [if_neg hlt]
          constructor
          · rintro rfl
            exact .inl ⟨rfl, fun c hc => le_trans (hb.le hc) (not_lt.mp hlt)⟩
          · rintro (⟨rfl, -⟩ | ⟨hx, hgt⟩)
            · rfl
            · cases hx
              exact absurd hgt hlt
    · rw [lookup_keep_greatest_ne size key _ hk, ih, List.filter_cons_of_neg (by simpa using hk), List.filter_nil,
        List.append_nil]
