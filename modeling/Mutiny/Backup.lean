import Mutiny.JsObject
import Mutiny.Json
import Mutiny.Storage

/-!
# Saving the state as a file (`Settings.tsx`)

The settings page writes the whole of `localStorage` to a file as one JSON object, and an uploaded file replaces the
whole of `localStorage`. The old items are gone before the first item of the file is written, so a write that the
browser refuses leaves a part of the file. How a number is shown as text is left to `number_text`.
-/

namespace Mutiny

open Prog

inductive JsError where
  | SyntaxError
  | TypeError
  | QuotaExceededError
  | Error (message : String)
  deriving DecidableEq, Repr

/-! ## `localStorage` -/

def local_storage_clear : Prog Store JsError Unit := modify fun store => { store with items := ∅ }

def set_item (host : Host) (key text : String) : Prog Store JsError Unit := do
  let store ← get
  modify fun store => { store with writes := store.writes + 1 }
  if host.refuses store.writes then throw .QuotaExceededError
  modify fun store => { store with items := store.items.insert key text }

def get_item (items : AList fun _ : String => String) (key : String) : Json :=
  match items.lookup key with
  | none => .null
  | some text => .string text.toList

/-! ## `handleSave` -/

/-- `serializable[key] = value`; a text for the prototype is passed over. -/
def assign (o : JsObject Json) (key : String) (value : Json) : JsObject Json :=
  if key = "__proto__" then o else o.set key value

def serializable (items : AList fun _ : String => String) : JsObject Json :=
  items.keys.foldl (fun o key => assign o key (get_item items key)) .empty

def stringify (o : JsObject Json) : String :=
  .ofList (Json.print (.object (o.entries.map fun p => (p.1.toList, p.2))))

def handle_save (items : AList fun _ : String => String) : String := stringify (serializable items)

/-! ## `handleFileChoose` -/

def indexed {α : Type} (f : α → Json) (l : List α) : List (String × Json) :=
  l.zipIdx.map fun p => (String.ofList (Nat.toDigits 10 p.2), f p.1)

/-- `Object.entries` of what `JSON.parse` returned. -/
def object_entries : Json → Except JsError (List (String × Json))
  | .null => .error .TypeError
  | .bool _ | .number _ => .ok []
  | .string text => .ok (indexed (fun c => .string [c]) text)
  | .array items => .ok (indexed id items)
  | .object members => .ok (JsObject.of_list (members.map fun p => (.ofList p.1, p.2))).entries

section
variable (number_text : Json.Number → String)

mutual

/-- The text that `setItem` makes of a value. An object whose `toString` is no function has none. -/
def to_text : Json → Option String
  | .null => some "null"
  | .bool b => some (if b then "true" else "false")
  | .number n => some (number_text n)
  | .string text => some (.ofList text)
  | .array items => join_texts items
  | .object members => if members.any (·.1 = "toString".toList) then none else some "[object Object]"

def join_texts : List Json → Option String
  | [] => some ""
  | [.null] => some ""
  | [a] => to_text a
  | .null :: b :: items => do return "," ++ (← join_texts (b :: items))
  | a :: b :: items => do return (← to_text a) ++ "," ++ (← join_texts (b :: items))

end

def restore_entry (host : Host) (p : String × Json) : Prog Store JsError Unit :=
  match to_text number_text p.2 with
  | none => throw .TypeError
  | some text => set_item host p.1 text

/-- Whether the page is reloaded. -/
def handle_file_choose (host : Host) (text : String) (confirmed : Bool) : Prog Store JsError Bool := do
  match Json.parse text.toList with
  | none => throw .SyntaxError
  | some new_storage =>
    if confirmed then
      local_storage_clear
      match object_entries new_storage with
      | .error e => throw e
      | .ok entries =>
        entries.forM (restore_entry number_text host)
        return true
    else return false

end

/-! ## What is saved -/

theorem foldl_assign (f : String → Json) (keys : List String) (o : JsObject Json) :
    keys.foldl (fun o key => assign o key (f key)) o =
      ((keys.filter (· ≠ "__proto__")).map fun key => (key, f key)).foldl (fun o p => o.set p.1 p.2) o := by
  induction keys generalizing o with
  | nil => rfl
  | cons key keys ih =>
    rw [List.foldl_cons, ih, List.filter_cons]
    by_cases h : key = "__proto__"
    · simp [h, assign]
    · simp [h, assign]

/-- The keys that a backup has, in the order of the storage. -/
def saved_keys (items : AList fun _ : String => String) : List String := items.keys.filter (· ≠ "__proto__")

theorem mem_saved_keys {items : AList fun _ : String => String} {key : String} :
    key ∈ saved_keys items ↔ key ∈ items ∧ key ≠ "__proto__" := by
  simp [saved_keys, AList.mem_keys]

theorem saved_keys_nodup (items : AList fun _ : String => String) : (saved_keys items).Nodup :=
  items.keys_nodup.filter _

theorem names_items (items : AList fun _ : String => String) (keys : List String) :
    (keys.map fun key => (key, get_item items key)).map Prod.fst = keys := by
  rw [List.map_map]
  exact List.map_id keys

theorem serializable_properties (items : AList fun _ : String => String) :
    (serializable items).properties = (saved_keys items).map fun key => (key, get_item items key) := by
  rw [serializable, foldl_assign]
  refine JsObject.properties_of_list ?_
  rw [names_items]
  exact saved_keys_nodup items

/-- The keys of a backup in the order in which they are restored. -/
def restored_keys (items : AList fun _ : String => String) : List String := (serializable items).entries.map Prod.fst

theorem restored_keys_perm (items : AList fun _ : String => String) : (restored_keys items).Perm (saved_keys items) := by
  have h := (serializable items).entries_perm.map Prod.fst
  rw [serializable_properties, names_items] at h
  exact h

theorem mem_entries {items : AList fun _ : String => String} {p : String × Json}
    (h : p ∈ (serializable items).entries) : p.2 = get_item items p.1 := by
  have hp := (serializable items).entries_perm.mem_iff.mp h
  rw [serializable_properties] at hp
  obtain ⟨key, -, rfl⟩ := List.mem_map.mp hp
  rfl

theorem entries_serializable (items : AList fun _ : String => String) :
    (serializable items).entries = (restored_keys items).map fun key => (key, get_item items key) := by
  rw [restored_keys, List.map_map]
  refine (List.map_id _).symm.trans (List.map_congr_left fun p hp => ?_)
  exact Prod.ext rfl (mem_entries hp)

theorem parse_handle_save (items : AList fun _ : String => String) :
    ∃ members, Json.parse (handle_save items).toList = some (.object members) ∧
      object_entries (.object members) = .ok (serializable items).entries := by
  refine ⟨_, by rw [handle_save, stringify, String.toList_ofList, Json.parse_print], ?_⟩
  have hmap : ((serializable items).entries.map fun p : String × Json => (p.1.toList, p.2)).map
      (fun p : List Char × Json => (String.ofList p.1, p.2)) = (serializable items).entries := by
    rw [List.map_map]
    refine (List.map_congr_left fun p _ => ?_).trans (List.map_id _)
    exact Prod.ext (String.ofList_toList) rfl
  rw [object_entries, hmap, JsObject.entries_of_entries]

/-! ## What is restored -/

/-- How many of the next writes go through before the first that is refused. -/
def accepted_writes (host : Host) (first : Nat) : Nat → Nat
  | 0 => 0
  | n + 1 => if host.refuses first then 0 else accepted_writes host (first + 1) n + 1

theorem accepted_writes_le (host : Host) (n : Nat) : ∀ first, accepted_writes host first n ≤ n := by
  induction n with
  | zero => intro first; exact Nat.le_refl 0
  | succ n ih =>
    intro first
    rw [accepted_writes]
    split
    · exact Nat.zero_le _
    · exact Nat.succ_le_succ (ih (first + 1))

def copy (saved : AList fun _ : String => String) (items : AList fun _ : String => String) (keys : List String) :
    AList fun _ : String => String :=
  keys.foldl (fun items key => items.insert key ((saved.lookup key).getD "")) items

theorem lookup_copy {saved : AList fun _ : String => String} {keys : List String} (h : ∀ key ∈ keys, key ∈ saved)
    (items : AList fun _ : String => String) (key : String) :
    (copy saved items keys).lookup key = if key ∈ keys then saved.lookup key else items.lookup key := by
  induction keys generalizing items with
  | nil => rfl
  | cons k keys ih =>
    obtain ⟨hk, hkeys⟩ := List.forall_mem_cons.mp h
    obtain ⟨text, ht⟩ := Option.isSome_iff_exists.mp (AList.lookup_isSome.mpr hk)
    rw [copy, List.foldl_cons, ← copy, ih hkeys]
    by_cases hm : key ∈ keys
    · simp [hm]
    · by_cases he : key = k
      · subst he
        simp [hm, ht]
      · simp [hm, he, AList.lookup_insert_ne he]

section
variable (number_text : Json.Number → String) (host : Host)

theorem exec_set_item (key text : String) (store : Store) : exec (set_item host key text) store =
    if host.refuses store.writes then (.error .QuotaExceededError, { store with writes := store.writes + 1 })
    else (.ok (), ⟨store.items.insert key text, store.writes + 1⟩) := by
  unfold set_item
  rw [exec_get_bind, exec_modify_bind]
  by_cases h : host.refuses store.writes = true
  · simp only [h, if_true]
    rfl
  · simp only [h, Bool.false_eq_true, if_false]
    rfl

theorem exec_restore_entry {saved : AList fun _ : String => String} {key : String} (h : key ∈ saved) (store : Store) :
    exec (restore_entry number_text host (key, get_item saved key)) store =
      if host.refuses store.writes then (.error .QuotaExceededError, { store with writes := store.writes + 1 })
      else (.ok (), ⟨copy saved store.items [key], store.writes + 1⟩) := by
  obtain ⟨text, ht⟩ := Option.isSome_iff_exists.mp (AList.lookup_isSome.mpr h)
  have hitem : to_text number_text (get_item saved key) = some text := by
    simp [get_item, ht, to_text]
  rw [restore_entry, hitem]
  dsimp only
  rw [exec_set_item, copy, List.foldl_cons, List.foldl_nil, ht]
  rfl

theorem exec_restore {saved : AList fun _ : String => String} {keys : List String} (h : ∀ key ∈ keys, key ∈ saved)
    (store : Store) : ∃ writes,
      exec ((keys.map fun key => (key, get_item saved key)).forM (restore_entry number_text host)) store =
        (if accepted_writes host store.writes keys.length = keys.length then .ok () else .error .QuotaExceededError,
          ⟨copy saved store.items (keys.take (accepted_writes host store.writes keys.length)), writes⟩) := by
  induction keys generalizing store with
  | nil => exact ⟨store.writes, rfl⟩
  | cons key keys ih =>
    obtain ⟨hkey, hkeys⟩ := List.forall_mem_cons.mp h
    have hentry := exec_restore_entry number_text host hkey store
    rw [List.map_cons, List.forM_eq_forM, List.forM_cons, List.length_cons, accepted_writes]
    by_cases hr : host.refuses store.writes = true
    · rw [if_pos hr] at hentry
      rw [exec_bind_error hentry]
      exact ⟨store.writes + 1, by simp [hr, copy]⟩
    · rw [if_neg hr] at hentry
      obtain ⟨writes, hrest⟩ := ih hkeys ⟨copy saved store.items [key], store.writes + 1⟩
      rw [exec_bind_ok hentry, ← List.forM_eq_forM, hrest]
      exact ⟨writes, by simp [hr, copy]⟩

/-- What an upload of a saved file leaves, however many of its writes the browser takes. -/
theorem exec_upload (saved : AList fun _ : String => String) (store : Store) :
    let keys := restored_keys saved
    let n := accepted_writes host store.writes keys.length
    ∃ writes, exec (handle_file_choose number_text host (handle_save saved) true) store =
      (if n = keys.length then .ok true else .error .QuotaExceededError, ⟨copy saved ∅ (keys.take n), writes⟩) := by
  dsimp only
  obtain ⟨members, hparse, hentries⟩ := parse_handle_save saved
  have hmem : ∀ key ∈ restored_keys saved, key ∈ saved := fun key hk =>
    (mem_saved_keys.mp ((restored_keys_perm saved).mem_iff.mp hk)).1
  obtain ⟨writes, hrest⟩ := exec_restore number_text host hmem ⟨∅, store.writes⟩
  refine ⟨writes, ?_⟩
  unfold handle_file_choose
  simp only [hparse, if_true, hentries, entries_serializable]
  rw [local_storage_clear, exec_modify_bind]
  split
  · next hn =>
    rw [if_pos hn] at hrest
    rw [exec_bind_ok hrest]
    rfl
  · next hn =>
    rw [if_neg hn] at hrest
    rw [exec_bind_error hrest]

theorem mem_restored_keys {items : AList fun _ : String => String} {key : String} :
    key ∈ restored_keys items ↔ key ∈ items ∧ key ≠ "__proto__" :=
  (restored_keys_perm items).mem_iff.trans mem_saved_keys

theorem lookup_partly (saved : AList fun _ : String => String) (n : Nat) (key : String) :
    (copy saved ∅ ((restored_keys saved).take n)).lookup key =
      if key ∈ (restored_keys saved).take n then saved.lookup key else none :=
  lookup_copy (fun _ hk => (mem_restored_keys.mp (List.mem_of_mem_take hk)).1) ∅ key

/-- A part of the backup is the whole state only if nothing is missing. -/
theorem whole_iff (saved : AList fun _ : String => String) {n : Nat} (hn : n ≤ (restored_keys saved).length) :
    (∀ key, (if key ∈ (restored_keys saved).take n then saved.lookup key else none) = saved.lookup key) ↔
      n = (restored_keys saved).length ∧ "__proto__" ∉ saved := by
  constructor
  · intro h
    have hmem : ∀ key ∈ saved, key ∈ (restored_keys saved).take n := by
      intro key hk
      obtain ⟨text, ht⟩ := Option.isSome_iff_exists.mp (AList.lookup_isSome.mpr hk)
      by_contra hnot
      have hkey := h key
      rw [if_neg hnot, ht] at hkey
      cases hkey
    refine ⟨Nat.le_antisymm hn ?_, fun hp => ?_⟩
    · have hsub : restored_keys saved ⊆ (restored_keys saved).take n := fun key hk => hmem key (mem_restored_keys.mp hk).1
      have hle := (List.subperm_of_subset (serializable saved).entries_nodup hsub).length_le
      rw [List.length_take] at hle
      exact hle.trans (Nat.min_le_left _ _)
    · exact (mem_restored_keys.mp (List.mem_of_mem_take (hmem _ hp))).2 rfl
  · rintro ⟨rfl, hp⟩ key
    rw [List.take_length]
    split
    · rfl
    · next hk =>
      refine (AList.lookup_eq_none.mpr fun hm => hk (mem_restored_keys.mpr ⟨hm, ?_⟩)).symm
      rintro rfl
      exact hp hm

/-- An uploaded backup is all that the storage holds, up to the first write that is refused; and the wallet reads what it
read where the backup was made if no write is. -/
theorem backup_restored [Serde String] (saved other : Store) :
    let keys := restored_keys saved.items
    let n := accepted_writes host other.writes keys.length
    let (res, restored) := exec (handle_file_choose number_text host (handle_save saved.items) true) other
    (res = if n = keys.length then .ok true else .error .QuotaExceededError) ∧
    (∀ key, restored.items.lookup key = if key ∈ keys.take n then saved.items.lookup key else none) ∧
    ((∀ key, restored.items.lookup key = saved.items.lookup key) ↔ n = keys.length ∧ "__proto__" ∉ saved.items) ∧
    (n = keys.length → "__proto__" ∉ saved.items → ∀ (α : Type) [Serde α] (storage : MutinyBrowserStorage) key,
      (exec (storage.get host key : StorageM MutinyStorageError α) restored).1 =
        (exec (storage.get host key : StorageM MutinyStorageError α) saved).1) := by
  obtain ⟨writes, hrun⟩ := exec_upload number_text host saved.items other
  dsimp only at hrun ⊢
  rw [hrun]
  have hlookup := lookup_partly saved.items (accepted_writes host other.writes (restored_keys saved.items).length)
  have hwhole := whole_iff saved.items (accepted_writes_le host _ other.writes)
  refine ⟨rfl, hlookup, ?_, ?_⟩
  · simp only [hlookup]
    exact hwhole
  · intro hn hp α _ storage key
    rw [exec_get, exec_get]
    dsimp only
    rw [hlookup, hwhole.mpr ⟨hn, hp⟩ key]

end

end Mutiny
