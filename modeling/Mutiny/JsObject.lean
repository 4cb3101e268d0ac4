import Mathlib.Data.List.Sort

/-!
# JavaScript objects

The properties of an object in the order in which they were made. A property that is set again keeps its place.
`entries` lists them as `Object.entries` and `JSON.stringify` do: names that are array indices come first, by number.
-/

structure JsObject (α : Type) where
  properties : List (String × α)
  nodup : (properties.map Prod.fst).Nodup

namespace JsObject

variable {α : Type}

/-! ## Setting properties -/

def put (name : String) (value : α) : List (String × α) → List (String × α)
  | [] => [(name, value)]
  | p :: l => if p.1 = name then (name, value) :: l else p :: put name value l

theorem put_of_not_mem {name : String} {l : List (String × α)} (h : name ∉ l.map Prod.fst) (value : α) :
    put name value l = l ++ [(name, value)] := by
  induction l with
  | nil => rfl
  | cons p l ih =>
    simp only [List.map_cons, List.mem_cons, not_or] at h
    rw [put, if_neg (Ne.symm h.1), ih h.2, List.cons_append]

theorem mem_put {name other : String} {value : α} {l : List (String × α)}
    (h : other ∈ (put name value l).map Prod.fst) : other = name ∨ other ∈ l.map Prod.fst := by
  induction l with
  | nil => exact .inl (by simpa [put] using h)
  | cons p l ih =>
    rw [put] at h
    split at h
    · simp only [List.map_cons, List.mem_cons] at h ⊢
      rcases h with h | h
      · exact .inl h
      · exact .inr (.inr h)
    · simp only [List.map_cons, List.mem_cons] at h ⊢
      rcases h with h | h
      · exact .inr (.inl h)
      · rcases ih h with h | h
        · exact .inl h
        · exact .inr (.inr h)

theorem nodup_put {name : String} {value : α} {l : List (String × α)} (h : (l.map Prod.fst).Nodup) :
    ((put name value l).map Prod.fst).Nodup := by
  induction l with
  | nil => simp [put]
  | cons p l ih =>
    obtain ⟨hp, hl⟩ := List.nodup_cons.mp h
    rw [put]
    split
    · next he => exact he ▸ h
    · next hne =>
      refine List.nodup_cons.mpr ⟨fun hm => ?_, ih hl⟩
      rcases mem_put hm with he | hm
      · exact hne he
      · exact hp hm

def empty : JsObject α := ⟨[], .nil⟩

/-- `o[name] = value`. -/
def set (o : JsObject α) (name : String) (value : α) : JsObject α := ⟨put name value o.properties, nodup_put o.nodup⟩

def of_list (l : List (String × α)) : JsObject α := l.foldl (fun o p => o.set p.1 p.2) empty

theorem properties_foldl_set {l : List (String × α)} {o : JsObject α}
    (h : ((o.properties ++ l).map Prod.fst).Nodup) :
    (l.foldl (fun o p => o.set p.1 p.2) o).properties = o.properties ++ l := by
  induction l generalizing o with
  | nil => simp
  | cons p l ih =>
    have hp : p.1 ∉ o.properties.map Prod.fst := by
      rw [List.map_append, List.nodup_append] at h
      exact fun hm => h.2.2 _ hm _ (by simp) rfl
    have hset : (o.set p.1 p.2).properties = o.properties ++ [p] := put_of_not_mem hp p.2
    rw [List.foldl_cons, ih (by rw [hset]; simpa using h), hset, List.append_assoc, List.singleton_append]

theorem properties_of_list {l : List (String × α)} (h : (l.map Prod.fst).Nodup) : (of_list l).properties = l :=
  properties_foldl_set (o := empty) h

/-! ## The order of the properties -/

/-- The number that a name is the decimal text of, below 2³² - 1. -/
def array_index (name : String) : Option Nat :=
  let n := Nat.ofDigitChars 10 name.toList 0
  if Nat.toDigits 10 n = name.toList ∧ n < 4294967295 then some n else none

def is_index (p : String × α) : Bool := (array_index p.1).isSome

def Before (p q : String × α) : Prop := (array_index p.1).getD 0 ≤ (array_index q.1).getD 0

instance : DecidableRel (Before : String × α → String × α → Prop) :=
  fun p q => inferInstanceAs (Decidable ((array_index p.1).getD 0 ≤ (array_index q.1).getD 0))

instance : Std.Total (Before : String × α → String × α → Prop) := ⟨fun _ _ => Nat.le_total _ _⟩

instance : IsTrans (String × α) Before := ⟨fun _ _ _ => Nat.le_trans⟩

def entries (o : JsObject α) : List (String × α) :=
  (o.properties.filter is_index).insertionSort Before ++ o.properties.filter fun p => !is_index p

theorem entries_perm (o : JsObject α) : o.entries.Perm o.properties := by
  have hsort := List.perm_insertionSort Before (o.properties.filter is_index)
  exact (hsort.append_right _).trans (List.filter_append_perm is_index o.properties)

theorem entries_nodup (o : JsObject α) : (o.entries.map Prod.fst).Nodup :=
  (o.entries_perm.map Prod.fst).nodup_iff.mpr o.nodup

theorem filter_parts {β : Type} {f : β → Bool} {a b : List β} (ha : ∀ x ∈ a, f x = true) (hb : ∀ x ∈ b, f x = false) :
    (a ++ b).filter f = a ∧ ((a ++ b).filter fun x => !f x) = b := by
  constructor
  · rw [List.filter_append, List.filter_eq_self.mpr ha, List.filter_eq_nil_iff.mpr (by simpa using hb), List.append_nil]
  · rw [List.filter_append, List.filter_eq_nil_iff.mpr (by simpa using ha), List.filter_eq_self.mpr (by simpa using hb),
      List.nil_append]

/-- An object that is made from its entries lists them in the same order. -/
theorem entries_of_entries (o : JsObject α) : (of_list o.entries).entries = o.entries := by
  have hsorted := List.pairwise_insertionSort Before (o.properties.filter is_index)
  obtain ⟨hindex, hother⟩ : (o.entries.filter is_index = (o.properties.filter is_index).insertionSort Before) ∧
      (o.entries.filter fun p => !is_index p) = o.properties.filter fun p => !is_index p := by
    refine filter_parts (fun p hp => ?_) fun p hp => ?_
    · rw [List.mem_insertionSort] at hp
      exact (List.mem_filter.mp hp).2
    · rw [← Bool.not_eq_true']
      exact (List.mem_filter.mp hp).2
  have hlist := properties_of_list o.entries_nodup
  calc (of_list o.entries).entries
      = (o.entries.filter is_index).insertionSort Before ++ o.entries.filter fun p => !is_index p := by
        rw [entries, hlist]
    _ = o.entries := by rw [hindex, hother, hsorted.insertionSort_eq, entries]

end JsObject
