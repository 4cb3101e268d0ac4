import Mathlib.Data.List.AList
import Mutiny.Error
import Mutiny.Prog

/-!
# The browser store (`encrypt.rs`, `localstorage.rs`)

`LocalStorage` maps keys to texts. Values are written as JSON, and with a password the JSON text is encrypted and the
ciphertext is written, again as JSON. What third-party crates and the browser do is a parameter: `Serde` and `Crypto`
carry the round trips they promise, `Host` says which writes are refused and what the random bytes are. A program over
the store ends with an error of the code or with a panic; the store keeps what was written before either.
-/

namespace Mutiny

open Prog

/-! ## What is not in the repository -/

/-- `Serialize` and `Deserialize` through `serde_json`. -/
class Serde (α : Type) where
  to_string : α → String
  from_str : String → Option α
  from_to : ∀ a, from_str (to_string a) = some a

attribute [simp] Serde.from_to

/-- The base64, PBKDF2 and AES-256-GCM that `encrypt.rs` calls. -/
structure Crypto where
  base64_encode : List UInt8 → String
  base64_decode : String → Option (List UInt8)
  base64_decode_encode : ∀ bytes, base64_decode (base64_encode bytes) = some bytes
  derive_key : String → List UInt8 → List UInt8
  cipher_encrypt : List UInt8 → List UInt8 → List UInt8 → List UInt8
  cipher_decrypt : List UInt8 → List UInt8 → List UInt8 → Option (List UInt8)
  cipher_decrypt_encrypt : ∀ key nonce data, cipher_decrypt key nonce (cipher_encrypt key nonce data) = some data

/-- The number of a write says whether the browser refuses it and which random bytes are drawn for it. `order` is the
order in which the entries of a `HashMap` are walked. -/
structure Host where
  crypto : Crypto
  refuses : Nat → Bool
  salt : Nat → Vector UInt8 16
  iv : Nat → Vector UInt8 12
  order : ∀ {α : Type}, List α → List α
  order_perm : ∀ {α : Type} (l : List α), (order l).Perm l

structure Bip39 (Mnemonic : Type) where
  from_str : String → Option Mnemonic
  to_string : Mnemonic → String
  from_entropy : List UInt8 → Option Mnemonic
  from_to : ∀ mnemonic, from_str (to_string mnemonic) = some mnemonic

/-! ## `encrypt.rs` -/

def encrypt (crypto : Crypto) (salt : Vector UInt8 16) (iv : Vector UInt8 12) (content password : String) : String :=
  let key := crypto.derive_key password salt.toList
  let bytes := crypto.cipher_encrypt key iv.toList content.toUTF8.data.toList
  crypto.base64_encode (salt.toList ++ iv.toList ++ bytes)

/-- `none` where the code panics. -/
def decrypt (crypto : Crypto) (encrypted password : String) : Option String := do
  let buffer ← crypto.base64_decode encrypted
  if buffer.length < 28 then none
  let salt := buffer.take 16
  let iv := (buffer.drop 16).take 12
  let data := buffer.drop 28
  let key := crypto.derive_key password salt
  let decrypted ← crypto.cipher_decrypt key iv data
  String.fromUTF8? ⟨decrypted.toArray⟩

/-! ## `LocalStorage` -/

def starts_with (key start : String) : Bool := start.toList.isPrefixOf key.toList

def ends_with (key suffix : String) : Bool := suffix.toList.isSuffixOf key.toList

/-- `writes` counts the calls of `setItem`. -/
structure Store where
  items : AList fun _ : String => String
  writes : Nat

inductive Fault (ε : Type) where
  | err (e : ε)
  | panic
  deriving DecidableEq, Repr

def Fault.map {ε ε' : Type} (f : ε → ε') : Fault ε → Fault ε'
  | .err e => .err (f e)
  | .panic => .panic

abbrev StorageM (ε : Type) := Prog Store (Fault ε)

/-- The `?` operator: an error is converted, a panic stays one. -/
def convert {ε ε' α : Type} (f : ε → ε') (x : StorageM ε α) : StorageM ε' α := x.map_error (Fault.map f)

/-- The `Result` a call returns, for a `match`; a panic is not caught. -/
def result {ε ε' α : Type} (x : StorageM ε α) : StorageM ε' (Except ε α) := do
  match ← x.attempt with
  | .ok a => return .ok a
  | .error (.err e) => return .error e
  | .error .panic => throw .panic

/-- `expect` and `unwrap`. -/
def expect {ε ε' α : Type} (x : StorageM ε α) : StorageM ε' α := x.map_error fun _ => .panic

/-- `Result::ok`. -/
def ok {ε ε' α : Type} (x : StorageM ε α) : StorageM ε' (Option α) := do
  let res ← result x
  return res.toOption

section
variable {α : Type} [Serde α]

def LocalStorage.set (host : Host) (key : String) (value : α) : StorageM StorageError Unit := do
  let store ← get
  modify fun store => { store with writes := store.writes + 1 }
  if host.refuses store.writes then throw (.err .JsError)
  modify fun store => { store with items := store.items.insert key (Serde.to_string value) }

def LocalStorage.get (key : String) : StorageM StorageError α := do
  match (← MonadState.get).items.lookup key with
  | none => throw (.err (.KeyNotFound key))
  | some item =>
    match Serde.from_str item with
    | none => throw (.err .SerdeError)
    | some value => return value

def LocalStorage.delete {ε : Type} (key : String) : StorageM ε Unit :=
  modify fun store => { store with items := store.items.erase key }

/-! ## `MutinyBrowserStorage` -/

structure MutinyBrowserStorage where
  password : String

variable [Serde String]

namespace MutinyBrowserStorage

def set (host : Host) (storage : MutinyBrowserStorage) (key : String) (value : α) : StorageM MutinyStorageError Unit := do
  let data := Serde.to_string value
  if storage.password.isEmpty then convert .StorageError (LocalStorage.set host key data)
  else
    let store ← MonadState.get
    let ciphertext := encrypt host.crypto (host.salt store.writes) (host.iv store.writes) data storage.password
    convert .StorageError (LocalStorage.set host key ciphertext)

def get (host : Host) (storage : MutinyBrowserStorage) (key : String) : StorageM MutinyStorageError α := do
  let data : String ← convert .StorageError (LocalStorage.get key)
  if storage.password.isEmpty then
    match Serde.from_str data with
    | none => throw (.err .SerdeError)
    | some value => return value
  else
    match decrypt host.crypto data storage.password with
    | none => throw .panic
    | some decrypted_data =>
      match Serde.from_str decrypted_data with
      | none => throw (.err .SerdeError)
      | some value => return value

def scan {ε : Type} (host : Host) (storage : MutinyBrowserStorage) (start : String) (suffix : Option String) :
    StorageM ε (AList fun _ : String => α) := do
  let store ← MonadState.get
  store.items.keys.foldlM (fun map key => do
    if starts_with key start && suffix.all (ends_with key) then
      let value ← expect (storage.get host key)
      return map.insert key value
    else return map) ∅

/-- The text that `set` writes with the random bytes of write `k`. -/
def encode (host : Host) (storage : MutinyBrowserStorage) (k : Nat) (value : α) : String :=
  let data := Serde.to_string value
  if storage.password.isEmpty then Serde.to_string data
  else Serde.to_string (encrypt host.crypto (host.salt k) (host.iv k) data storage.password)

def decode (crypto : Crypto) (storage : MutinyBrowserStorage) (item : String) : Except (Fault MutinyStorageError) α :=
  match (Serde.from_str item : Option String) with
  | none => .error (.err (.StorageError .SerdeError))
  | some data =>
    if storage.password.isEmpty then
      match Serde.from_str data with
      | none => .error (.err .SerdeError)
      | some value => .ok value
    else
      match decrypt crypto data storage.password with
      | none => .error .panic
      | some decrypted_data =>
        match Serde.from_str decrypted_data with
        | none => .error (.err .SerdeError)
        | some value => .ok value

end MutinyBrowserStorage

end

/-! ## The seed and the list of nodes -/

def mnemonic_key : String := "mnemonic"

def nodes_key : String := "nodes"

structure NodeIndex where
  uuid : String
  child_index : UInt32
  deriving DecidableEq, Repr

structure NodeStorage where
  nodes : AList fun _ : String => NodeIndex

namespace MutinyBrowserStorage

section
variable {Mnemonic ε : Type} [Serde String] (bip39 : Bip39 Mnemonic) (host : Host) (storage : MutinyBrowserStorage)

def insert_mnemonic (mnemonic : Mnemonic) : StorageM ε Mnemonic := do
  expect (storage.set host mnemonic_key (bip39.to_string mnemonic))
  return mnemonic

def get_mnemonic : StorageM MutinyStorageError Mnemonic := do
  let str ← storage.get host mnemonic_key
  match bip39.from_str str with
  | none => throw .panic
  | some mnemonic => return mnemonic

end

def get_nodes [Serde NodeStorage] : StorageM MutinyStorageError NodeStorage := do
  match ← result (LocalStorage.get nodes_key) with
  | .ok k => return k
  | .error (.KeyNotFound _) => return ⟨∅⟩
  | .error e => throw (.err (.StorageError e))

end MutinyBrowserStorage

/-! ## What reading and writing do -/

theorem fromUTF8_toUTF8 (s : String) : String.fromUTF8? ⟨s.toUTF8.data.toList.toArray⟩ = some s := by
  have h : (⟨s.toUTF8.data.toList.toArray⟩ : ByteArray) = s.toByteArray := by simp
  rw [h, String.fromUTF8?, dif_pos s.isValidUTF8]
  rfl

theorem decrypt_encrypt (crypto : Crypto) (salt : Vector UInt8 16) (iv : Vector UInt8 12) (content password : String) :
    decrypt crypto (encrypt crypto salt iv content password) password = some content := by
  have hs : salt.toList.length = 16 := by simp
  have hi : iv.toList.length = 12 := by simp
  have hsalt : ∀ rest, (salt.toList ++ iv.toList ++ rest).take 16 = salt.toList := by
    intro rest
    rw [List.append_assoc, List.take_append_of_le_length (by omega), List.take_of_length_le (by omega)]
  have hiv : ∀ rest, ((salt.toList ++ iv.toList ++ rest).drop 16).take 12 = iv.toList := by
    intro rest
    rw [List.append_assoc, List.drop_append_of_le_length (by omega), List.drop_of_length_le (by omega), List.nil_append,
      List.take_append_of_le_length (by omega), List.take_of_length_le (by omega)]
  have hdata : ∀ rest, (salt.toList ++ iv.toList ++ rest).drop 28 = rest := by
    intro rest
    have hl : (salt.toList ++ iv.toList).length = 28 := by simp
    rw [List.drop_append_of_le_length (by omega), List.drop_of_length_le (by omega), List.nil_append]
  unfold decrypt encrypt
  simp only [crypto.base64_decode_encode, Option.bind_eq_bind, Option.bind_some]
  rw [if_neg (by simp; omega)]
  simp only [hsalt, hiv, hdata, crypto.cipher_decrypt_encrypt, Option.bind_some, fromUTF8_toUTF8]

theorem toOption_eq_some {ε α : Type} {x : Except ε α} {a : α} : x.toOption = some a ↔ x = .ok a := by
  cases x <;> simp [Except.toOption]

@[simp] theorem convert_ok {ε ε' α : Type} (f : ε → ε') {x : StorageM ε α} {s t : Store} {a : α}
    (h : exec x s = (.ok a, t)) : exec (convert f x) s = (.ok a, t) := by
  simp [convert, h]

theorem convert_error {ε ε' α : Type} (f : ε → ε') {x : StorageM ε α} {s t : Store} {e : Fault ε}
    (h : exec x s = (.error e, t)) : exec (convert f x) s = (.error (e.map f), t) := by
  simp [convert, h]

section
variable {ε ε' α : Type} {x : StorageM ε α} {s t : Store}

theorem exec_result_ok {a : α} (h : exec x s = (.ok a, t)) :
    exec (result x : StorageM ε' _) s = (.ok (.ok a), t) := by
  unfold result
  rw [exec_attempt_bind, h]
  rfl

theorem exec_result_err {e : ε} (h : exec x s = (.error (.err e), t)) :
    exec (result x : StorageM ε' _) s = (.ok (.error e), t) := by
  unfold result
  rw [exec_attempt_bind, h]
  rfl

theorem exec_result_panic (h : exec x s = (.error .panic, t)) :
    exec (result x : StorageM ε' _) s = (.error .panic, t) := by
  unfold result
  rw [exec_attempt_bind, h]
  rfl

end

theorem exec_expect_ok {ε ε' α : Type} {x : StorageM ε α} {s t : Store} {a : α} (h : exec x s = (.ok a, t)) :
    exec (expect x : StorageM ε' α) s = (.ok a, t) := by
  simp [expect, h]

theorem exec_expect_error {ε ε' α : Type} {x : StorageM ε α} {s t : Store} {e : Fault ε}
    (h : exec x s = (.error e, t)) : exec (expect x : StorageM ε' α) s = (.error .panic, t) := by
  simp [expect, h]

section
variable {α : Type} [Serde α] [Serde String] (host : Host) (storage : MutinyBrowserStorage) (key : String)

omit [Serde String] in
theorem exec_local_set (value : α) (store : Store) : exec (LocalStorage.set host key value) store =
    if host.refuses store.writes then (.error (.err .JsError), { store with writes := store.writes + 1 })
    else (.ok (), ⟨store.items.insert key (Serde.to_string value), store.writes + 1⟩) := by
  unfold LocalStorage.set
  rw [exec_get_bind, exec_modify_bind]
  by_cases h : host.refuses store.writes = true
  · simp only [h, if_true]
    rfl
  · simp only [h, Bool.false_eq_true, if_false]
    rfl

theorem exec_set (value : α) (store : Store) : exec (storage.set host key value) store =
    if host.refuses store.writes then
      (.error (.err (.StorageError .JsError)), { store with writes := store.writes + 1 })
    else (.ok (), ⟨store.items.insert key (storage.encode host store.writes value), store.writes + 1⟩) := by
  unfold MutinyBrowserStorage.set MutinyBrowserStorage.encode
  by_cases hp : storage.password.isEmpty = true <;> by_cases h : host.refuses store.writes = true
  · simp only [hp, h, if_true]
    exact convert_error _ ((exec_local_set host key _ store).trans (if_pos h))
  · simp only [hp, h, if_true, Bool.false_eq_true, if_false]
    exact convert_ok _ ((exec_local_set host key _ store).trans (if_neg h))
  · simp only [hp, h, if_true, Bool.false_eq_true, if_false, exec_get_bind]
    exact convert_error _ ((exec_local_set host key _ store).trans (if_pos h))
  · simp only [hp, h, Bool.false_eq_true, if_false, exec_get_bind]
    exact convert_ok _ ((exec_local_set host key _ store).trans (if_neg h))

theorem exec_convert_set {ε : Type} (f : MutinyStorageError → ε) (value : α) (store : Store) :
    exec (convert f (storage.set host key value)) store =
      if host.refuses store.writes then
        (.error (.err (f (.StorageError .JsError))), { store with writes := store.writes + 1 })
      else (.ok (), ⟨store.items.insert key (storage.encode host store.writes value), store.writes + 1⟩) := by
  have hs := exec_set host storage key value store
  by_cases hr : host.refuses store.writes = true
  · rw [if_pos hr] at hs ⊢
    exact convert_error _ hs
  · rw [if_neg hr] at hs ⊢
    exact convert_ok _ hs

theorem exec_get (store : Store) : exec (storage.get host key : StorageM MutinyStorageError α) store =
    (match store.items.lookup key with
      | none => .error (.err (.StorageError (.KeyNotFound key)))
      | some item => storage.decode host.crypto item, store) := by
  have hl : exec (LocalStorage.get key : StorageM StorageError String) store =
      (match store.items.lookup key with
        | none => .error (.err (.KeyNotFound key))
        | some item => (match Serde.from_str item with
          | none => .error (.err .SerdeError)
          | some data => .ok data), store) := by
    unfold LocalStorage.get
    rw [exec_get_bind]
    cases store.items.lookup key with
    | none => rfl
    | some item =>
      dsimp only
      cases (Serde.from_str item : Option String) <;> rfl
  unfold MutinyBrowserStorage.get MutinyBrowserStorage.decode
  cases hk : store.items.lookup key with
  | none =>
    simp only [hk] at hl
    rw [exec_bind_error (convert_error _ hl)]
    rfl
  | some item =>
    simp only [hk] at hl ⊢
    cases hd : (Serde.from_str item : Option String) with
    | none =>
      simp only [hd] at hl
      rw [exec_bind_error (convert_error _ hl)]
      rfl
    | some data =>
      simp only [hd] at hl
      rw [exec_bind_ok (convert_ok _ hl)]
      by_cases hp : storage.password.isEmpty = true
      · simp only [hp, if_true]
        cases (Serde.from_str data : Option α) <;> rfl
      · simp only [hp, Bool.false_eq_true, if_false]
        cases decrypt host.crypto data storage.password with
        | none => rfl
        | some decrypted =>
          dsimp only
          cases (Serde.from_str decrypted : Option α) <;> rfl

/-- What `scan` gives, as a function of the contents: `none` where a matching entry cannot be read. -/
def MutinyBrowserStorage.scanned (start : String) (suffix : Option String) (store : Store) :
    Option (AList fun _ : String => α) :=
  store.items.keys.foldlM (fun map key =>
    if starts_with key start && suffix.all (ends_with key) then
      ((store.items.lookup key).bind fun item => (storage.decode host.crypto item).toOption).map (map.insert key)
    else some map) ∅

theorem exec_scan {ε : Type} (start : String) (suffix : Option String) (store : Store) :
    exec (storage.scan host start suffix : StorageM ε (AList fun _ : String => α)) store =
      (match storage.scanned host start suffix store with
        | none => .error .panic
        | some map => .ok map, store) := by
  unfold MutinyBrowserStorage.scan MutinyBrowserStorage.scanned
  rw [exec_get_bind]
  generalize (∅ : AList fun _ : String => α) = map
  induction store.items.keys generalizing map with
  | nil => rfl
  | cons key keys ih =>
    rw [List.foldlM_cons, List.foldlM_cons]
    by_cases hk : (starts_with key start && suffix.all (ends_with key)) = true
    · simp only [hk, if_true]
      have hg := exec_get (α := α) host storage key store
      rcases hr : exec (storage.get host key : StorageM MutinyStorageError α) store with ⟨e | value, t⟩
      · rw [hr] at hg
        have hnone : (store.items.lookup key).bind (fun item => (storage.decode host.crypto item).toOption) =
            (none : Option α) := by
          cases hi : store.items.lookup key with
          | none => rfl
          | some item =>
            simp only [hi, Prod.mk.injEq] at hg
            simp [← hg.1, Except.toOption]
        have hs : t = store := congrArg Prod.snd hg
        subst hs
        simp only [hnone, Option.map_none, Option.bind_eq_bind, Option.bind_none]
        exact exec_bind_error (exec_bind_error (exec_expect_error hr))
      · rw [hr] at hg
        have hsome : (store.items.lookup key).bind (fun item => (storage.decode host.crypto item).toOption) =
            some value := by
          cases hi : store.items.lookup key with
          | none => simp [hi] at hg
          | some item =>
            simp only [hi, Prod.mk.injEq] at hg
            simp [← hg.1, Except.toOption]
        have hs : t = store := congrArg Prod.snd hg
        subst hs
        simp only [hsome, Option.map_some, Option.bind_eq_bind, Option.bind_some]
        rw [← ih]
        exact exec_bind_ok ((exec_bind_ok (exec_expect_ok hr)).trans rfl)
    · simp only [hk, Bool.false_eq_true, if_false]
      rw [exec_pure_bind]
      exact ih map

/-- The entries of a scan, when every entry it takes can be read. -/
theorem scanned_lookup (start : String) (suffix : Option String) (store : Store)
    (h : ∀ key item, store.items.lookup key = some item → (starts_with key start && suffix.all (ends_with key)) = true →
      ∃ value : α, storage.decode host.crypto item = .ok value) :
    ∃ map : AList fun _ : String => α, storage.scanned host start suffix store = some map ∧
      ∀ key, map.lookup key = if starts_with key start && suffix.all (ends_with key) then
        (store.items.lookup key).bind fun item => (storage.decode host.crypto item).toOption else none := by
  have hfold : ∀ (keys : List String) (map₀ : AList fun _ : String => α), keys ⊆ store.items.keys →
      ∃ map : AList fun _ : String => α, keys.foldlM (fun map key =>
          if starts_with key start && suffix.all (ends_with key) then
            ((store.items.lookup key).bind fun item => (storage.decode host.crypto item).toOption).map (map.insert key)
          else some map) map₀ = some map ∧
        ∀ key, map.lookup key = if key ∈ keys ∧ (starts_with key start && suffix.all (ends_with key)) = true then
          (store.items.lookup key).bind fun item => (storage.decode host.crypto item).toOption else map₀.lookup key := by
    intro keys
    induction keys with
    | nil => exact fun map₀ _ => ⟨map₀, rfl, fun key => by simp⟩
    | cons k keys ih =>
      intro map₀ hsub
      obtain ⟨hk, hkeys⟩ := List.cons_subset.mp hsub
      rw [List.foldlM_cons]
      by_cases hp : (starts_with k start && suffix.all (ends_with k)) = true
      · obtain ⟨item, hi⟩ := Option.isSome_iff_exists.mp (AList.lookup_isSome.mpr (AList.mem_keys.mpr hk))
        obtain ⟨value, hv⟩ := h k item hi hp
        obtain ⟨map, hm, hl⟩ := ih (map₀.insert k value) hkeys
        refine ⟨map, ?_, fun key => ?_⟩
        · simp only [hp, if_true, hi, Option.bind_some, hv, Except.toOption, Option.map_some, Option.bind_eq_bind]
          exact hm
        · rw [hl key]
          by_cases hkey : key = k
          · subst hkey
            simp [hp, hi, hv, Except.toOption]
          · simp [hkey]
      · obtain ⟨map, hm, hl⟩ := ih map₀ hkeys
        refine ⟨map, ?_, fun key => ?_⟩
        · simp only [hp, Bool.false_eq_true, if_false, Option.bind_eq_bind, Option.bind_some]
          exact hm
        · rw [hl key]
          by_cases hkey : key = k
          · subst hkey
            simp [hp]
          · simp [hkey]
  obtain ⟨map, hm, hl⟩ := hfold store.items.keys ∅ (List.Subset.refl _)
  refine ⟨map, hm, fun key => ?_⟩
  rw [hl key]
  by_cases hkey : key ∈ store.items.keys
  · simp [hkey]
  · have hn : store.items.lookup key = none := AList.lookup_eq_none.mpr fun hmem => hkey (AList.mem_keys.mp hmem)
    simp [hkey, hn]

/-- A scan that gives something could read every entry it takes. -/
theorem readable_of_scanned {start : String} {suffix : Option String} {store : Store} {map : AList fun _ : String => α}
    (h : storage.scanned host start suffix store = some map) {key item : String} (hi : store.items.lookup key = some item)
    (hs : (starts_with key start && suffix.all (ends_with key)) = true) :
    ∃ value : α, storage.decode host.crypto item = .ok value := by
  have hfold : ∀ (keys : List String) (map₀ : AList fun _ : String => α), keys.foldlM (fun map key =>
      if starts_with key start && suffix.all (ends_with key) then
        ((store.items.lookup key).bind fun item => (storage.decode host.crypto item).toOption).map (map.insert key)
      else some map) map₀ = some map → key ∈ keys → ∃ value : α, storage.decode host.crypto item = .ok value := by
    intro keys
    induction keys with
    | nil => exact fun _ _ hk => absurd hk List.not_mem_nil
    | cons k keys ih =>
      intro map₀ hx hk
      rw [List.foldlM_cons] at hx
      obtain ⟨map₁, hone, hrest⟩ := Option.bind_eq_some_iff.mp hx
      rcases List.mem_cons.mp hk with rfl | hk
      · rw [if_pos hs, hi] at hone
        obtain ⟨value, hv, -⟩ := Option.map_eq_some_iff.mp hone
        exact ⟨value, toOption_eq_some.mp hv⟩
      · exact ih map₁ hrest hk
  exact hfold _ _ h (AList.mem_keys.mp (AList.lookup_isSome.mp (by rw [hi]; rfl)))

theorem decode_encode (k : Nat) (value : α) :
    storage.decode host.crypto (storage.encode host k value) = (.ok value : Except (Fault MutinyStorageError) α) := by
  unfold MutinyBrowserStorage.decode MutinyBrowserStorage.encode
  by_cases hp : storage.password.isEmpty = true
  · simp [hp]
  · simp [hp, decrypt_encrypt]

end

end Mutiny
