import Mathlib.Data.List.AList
import Mathlib.Logic.Function.Basic

/-!
# Several maps flattened into one

A store maps keys to texts. A `Table` says where the keys of one map go in the store and how its values are read back;
`Holds` says that the part of the store that belongs to the table is the map. A family of tables whose keys do not
meet holds a family of maps, and writing or erasing a record changes one map of the family only (`Flat.Holds.insert`,
`Flat.Holds.erase`). A scan over a part of the store gives the entries of that part of the map, in some order
(`Table.Holds.scan_perm`). A `Listing` has one item for each key that has a value.
-/

/-- Where the keys of a map go, and how its values are read. -/
structure Table (S T K V : Type*) where
  key : K → S
  key_injective : Function.Injective key
  read : T → Option V

namespace Table

variable {S T K V : Type*} [DecidableEq S] [DecidableEq K] (tbl : Table S T K V)

def Holds (store : AList fun _ : S => T) (map : AList fun _ : K => V) : Prop :=
  ∀ k, (store.lookup (tbl.key k)).map tbl.read = (map.lookup k).map some

variable {tbl} {store : AList fun _ : S => T} {map : AList fun _ : K => V}

theorem holds_empty (h : ∀ k, tbl.key k ∉ store) : tbl.Holds store ∅ := by
  intro k
  rw [AList.lookup_eq_none.mpr (h k), AList.lookup_empty]
  rfl

theorem Holds.lookup_some (h : tbl.Holds store map) {k : K} {v : V} (hv : map.lookup k = some v) :
    ∃ text, store.lookup (tbl.key k) = some text ∧ tbl.read text = some v := by
  have hk := h k
  rw [hv, Option.map_some] at hk
  obtain ⟨text, hs, hr⟩ := Option.map_eq_some_iff.mp hk
  exact ⟨text, hs, hr⟩

theorem Holds.lookup_none (h : tbl.Holds store map) {k : K} (hv : map.lookup k = none) :
    store.lookup (tbl.key k) = none := by
  have hk := h k
  rw [hv, Option.map_none] at hk
  exact Option.map_eq_none_iff.mp hk

theorem Holds.read_of_lookup (h : tbl.Holds store map) {k : K} {text : T} (hs : store.lookup (tbl.key k) = some text) :
    ∃ v, map.lookup k = some v ∧ tbl.read text = some v := by
  have hk := h k
  rw [hs, Option.map_some] at hk
  obtain ⟨v, hv, hr⟩ := Option.map_eq_some_iff.mp hk.symm
  exact ⟨v, hv, hr.symm⟩

theorem Holds.bind_read (h : tbl.Holds store map) (k : K) :
    (store.lookup (tbl.key k)).bind tbl.read = map.lookup k := by
  cases hv : map.lookup k with
  | none => rw [h.lookup_none hv, Option.bind_none]
  | some v =>
    obtain ⟨text, hs, hr⟩ := h.lookup_some hv
    rw [hs, Option.bind_some, hr]

theorem Holds.insert (h : tbl.Holds store map) (k : K) {text : T} {v : V} (hr : tbl.read text = some v) :
    tbl.Holds (store.insert (tbl.key k) text) (map.insert k v) := by
  intro k'
  by_cases hk : k' = k
  · subst hk
    rw [AList.lookup_insert, AList.lookup_insert, Option.map_some, Option.map_some, hr]
  · have hne : tbl.key k' ≠ tbl.key k := fun he => hk (tbl.key_injective he)
    rw [AList.lookup_insert_ne hne, AList.lookup_insert_ne hk]
    exact h k'

theorem Holds.insert_other (h : tbl.Holds store map) {s : S} (hs : ∀ k, tbl.key k ≠ s) (text : T) :
    tbl.Holds (store.insert s text) map := by
  intro k
  rw [AList.lookup_insert_ne (hs k)]
  exact h k

theorem Holds.erase (h : tbl.Holds store map) (k : K) : tbl.Holds (store.erase (tbl.key k)) (map.erase k) := by
  intro k'
  by_cases hk : k' = k
  · subst hk
    rw [AList.lookup_erase, AList.lookup_erase]
    rfl
  · have hne : tbl.key k' ≠ tbl.key k := fun he => hk (tbl.key_injective he)
    rw [AList.lookup_erase_ne hne, AList.lookup_erase_ne hk]
    exact h k'

theorem Holds.erase_other (h : tbl.Holds store map) {s : S} (hs : ∀ k, tbl.key k ≠ s) :
    tbl.Holds (store.erase s) map := by
  intro k
  rw [AList.lookup_erase_ne (hs k)]
  exact h k

/-- What a scan of the keys in `p` finds: the entries of the map whose keys are in `q`, under their keys in the
store. -/
theorem Holds.scan_perm (h : tbl.Holds store map) {p : S → Bool} {q : K → Bool}
    (hp : ∀ s ∈ store, p s = true → ∃ k, tbl.key k = s) (hq : ∀ k, p (tbl.key k) = q k)
    {found : AList fun _ : S => V} (hf : ∀ s, found.lookup s = if p s then (store.lookup s).bind tbl.read else none) :
    found.entries.Perm ((map.entries.filter fun e => q e.1).map fun e => ⟨tbl.key e.1, e.2⟩) := by
  have hinj : Function.Injective fun e : Sigma fun _ : K => V => (⟨tbl.key e.1, e.2⟩ : Sigma fun _ : S => V) := by
    rintro ⟨k, v⟩ ⟨k', v'⟩ he
    simp only [Sigma.mk.injEq, heq_eq_eq] at he
    obtain ⟨hk, rfl⟩ := he
    rw [tbl.key_injective hk]
  refine (List.perm_ext_iff_of_nodup found.nodupKeys.nodup ((map.nodupKeys.nodup.filter _).map hinj)).mpr ?_
  rintro ⟨s, v⟩
  rw [← AList.mem_lookup_iff, Option.mem_def, hf, List.mem_map]
  constructor
  · intro hs
    obtain ⟨hps, hb⟩ := Option.ite_none_right_eq_some.mp hs
    obtain ⟨text, ht, -⟩ := Option.bind_eq_some_iff.mp hb
    obtain ⟨k, rfl⟩ := hp s (AList.lookup_isSome.mp (by rw [ht]; rfl)) hps
    rw [h.bind_read] at hb
    refine ⟨⟨k, v⟩, List.mem_filter.mpr ⟨AList.mem_lookup_iff.mp hb, ?_⟩, rfl⟩
    rw [← hq]
    exact hps
  · rintro ⟨⟨k, w⟩, hm, he⟩
    cases he
    obtain ⟨hmem, hqk⟩ := List.mem_filter.mp hm
    rw [if_pos ((hq k).trans hqk), h.bind_read]
    exact AList.mem_lookup_iff.mpr hmem

end Table

structure Flat (S T : Type*) {ι : Type*} (K V : ι → Type*) where
  table : ∀ i, Table S T (K i) (V i)
  disjoint : ∀ i j k k', (table i).key k = (table j).key k' → i = j

namespace Flat

variable {S T ι : Type*} {K V : ι → Type*} [DecidableEq S] [DecidableEq ι] [∀ i, DecidableEq (K i)] {flat : Flat S T K V}
  {store : AList fun _ : S => T} {maps : ∀ i, AList fun _ : K i => V i}

variable (flat) in
def Holds (store : AList fun _ : S => T) (maps : ∀ i, AList fun _ : K i => V i) : Prop :=
  ∀ i, (flat.table i).Holds store (maps i)

theorem Holds.insert (h : flat.Holds store maps) (i : ι) (k : K i) {text : T} {v : V i}
    (hr : (flat.table i).read text = some v) :
    flat.Holds (store.insert ((flat.table i).key k) text) (Function.update maps i ((maps i).insert k v)) := by
  intro j
  by_cases hj : j = i
  · subst hj
    rw [Function.update_self]
    exact (h j).insert k hr
  · rw [Function.update_of_ne hj]
    exact (h j).insert_other (fun k' hk => hj (flat.disjoint j i k' k hk)) text

theorem Holds.erase (h : flat.Holds store maps) (i : ι) (k : K i) :
    flat.Holds (store.erase ((flat.table i).key k)) (Function.update maps i ((maps i).erase k)) := by
  intro j
  by_cases hj : j = i
  · subst hj
    rw [Function.update_self]
    exact (h j).erase k
  · rw [Function.update_of_ne hj]
    exact (h j).erase_other fun k' hk => hj (flat.disjoint j i k' k hk)

end Flat

/-! ## Listings -/

/-- The list holds what `item` makes of each key that has a value and of its value, once. -/
def Listing {K W β : Type*} (value : K → Option W) (item : K → W → β) (l : List β) : Prop :=
  ∃ ps : List (K × W), ps.Nodup ∧ (∀ k w, (k, w) ∈ ps ↔ value k = some w) ∧ l = ps.map fun p => item p.1 p.2

namespace Listing

theorem mapM {K W β γ : Type*} {value : K → Option W} {item : K → W → β} {l : List β} {f : β → Option γ}
    (h : Listing value item l) (item' : K → W → γ)
    (hf : ∀ k w, value k = some w → f (item k w) = some (item' k w)) :
    ∃ l', l.mapM f = some l' ∧ Listing value item' l' := by
  obtain ⟨ps, hnodup, hmem, rfl⟩ := h
  refine ⟨ps.map fun p => item' p.1 p.2, ?_, ps, hnodup, hmem, rfl⟩
  have hread : ∀ p ∈ ps, f (item p.1 p.2) = some (item' p.1 p.2) := fun p hp => hf p.1 p.2 ((hmem p.1 p.2).mp hp)
  clear hnodup hmem
  induction ps with
  | nil => rfl
  | cons p ps ih =>
    have hp := hread p (by simp)
    have hps := ih fun q hq => hread q (by simp [hq])
    simp [List.mapM_cons, hp, hps]

theorem of_lookup {S T K W : Type*} [DecidableEq S] {key : K → S} {value : K → Option W} {text : W → T}
    (hkey : Function.Injective key) {found : AList fun _ : S => T}
    (hlookup : ∀ k, found.lookup (key k) = (value k).map text) (howned : ∀ s ∈ found, ∃ k, key k = s)
    {l : List (Sigma fun _ : S => T)} (hl : l.Perm found.entries) : Listing value (fun k w => ⟨key k, text w⟩) l := by
  have hmem : ∀ e, e ∈ l ↔ ∃ p : K × W, value p.1 = some p.2 ∧ (⟨key p.1, text p.2⟩ : Sigma fun _ : S => T) = e := by
    intro ⟨s, t⟩
    rw [hl.mem_iff, ← AList.mem_lookup_iff, Option.mem_def]
    constructor
    · intro h
      obtain ⟨k, rfl⟩ := howned s (AList.lookup_isSome.mp (by rw [h]; rfl))
      rw [hlookup] at h
      obtain ⟨w, hw, rfl⟩ := Option.map_eq_some_iff.mp h
      exact ⟨(k, w), hw, rfl⟩
    · intro ⟨⟨k, w⟩, hw, he⟩
      cases he
      rw [hlookup, hw]
      rfl
  have hps : ∀ l : List (Sigma fun _ : S => T),
      (∀ e ∈ l, ∃ p : K × W, value p.1 = some p.2 ∧ (⟨key p.1, text p.2⟩ : Sigma fun _ : S => T) = e) →
      ∃ ps : List (K × W), (∀ p ∈ ps, value p.1 = some p.2) ∧ l = ps.map fun p => ⟨key p.1, text p.2⟩ := by
    intro l
    induction l with
    | nil => exact fun _ => ⟨[], by simp, rfl⟩
    | cons e l ih =>
      intro h
      obtain ⟨p, hp, rfl⟩ := h e (by simp)
      obtain ⟨ps, hvalue, rfl⟩ := ih fun e he => h e (by simp [he])
      refine ⟨p :: ps, fun q hq => ?_, rfl⟩
      rcases List.mem_cons.mp hq with rfl | hq
      · exact hp
      · exact hvalue q hq
  have hnodup : l.Nodup := hl.nodup_iff.mpr found.nodupKeys.nodup
  obtain ⟨ps, hvalue, rfl⟩ := hps l fun e he => (hmem e).mp he
  refine ⟨ps, .of_map _ hnodup, fun k w => ⟨hvalue (k, w), fun hw => ?_⟩, rfl⟩
  obtain ⟨⟨k', w'⟩, hp, he⟩ := List.mem_map.mp ((hmem _).mpr ⟨(k, w), hw, rfl⟩)
  obtain rfl := hkey (congrArg Sigma.fst he)
  have hv := hvalue _ hp
  rw [hw] at hv
  cases hv
  exact hp

theorem keys {K W : Type*} {value : K → Option W} {l : List (K × W)} (h : Listing value (fun k w => (k, w)) l) :
    (l.map Prod.fst).Nodup ∧ ∀ k, k ∈ l.map Prod.fst ↔ (value k).isSome = true := by
  obtain ⟨ps, hnodup, hmem, rfl⟩ := h
  rw [List.map_id']
  constructor
  · apply List.Nodup.map_on _ hnodup
    intro ⟨k, w⟩ hp ⟨k', w'⟩ hp' he
    obtain rfl : k = k' := he
    have hw := ((hmem k w).mp hp).symm.trans ((hmem k w').mp hp')
    rw [Option.some.inj hw]
  · intro k
    rw [Option.isSome_iff_exists]
    simp [hmem]

/-- Where one key has a value, the list has one item. -/
theorem eq_singleton {K W β : Type*} {value : K → Option W} {item : K → W → β} {l : List β} (h : Listing value item l)
    {k : K} {w : W} (hvalue : ∀ k' w', value k' = some w' ↔ k' = k ∧ w' = w) : l = [item k w] := by
  obtain ⟨ps, hnodup, hmem, rfl⟩ := h
  have hperm : ps.Perm [(k, w)] := by
    refine (List.perm_ext_iff_of_nodup hnodup (List.nodup_singleton _)).mpr fun p => ?_
    rw [hmem p.1 p.2, hvalue, List.mem_singleton, Prod.ext_iff]
  rw [List.perm_singleton.mp hperm]
  rfl

end Listing
