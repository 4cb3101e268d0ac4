import Mutiny.NodeManagerAtomic
import Mutiny.PaymentSound

/-!
# When reading the store panics (`encrypt.rs`, `localstorage.rs`)

`decrypt` unwraps every step of the way from a ciphertext to its text, and `scan` and `get_mnemonic` unwrap what they
read. `get` and the functions that take its outcome for a `Result` panic exactly when the text stored under their key
is no ciphertext of the password (`storage_panics_iff`).
-/

namespace Mutiny

open Prog

def Panics {ε α : Type} (x : StorageM ε α) (store : Store) : Prop := (exec x store).1 = .error .panic

/-! ## Conditions on what is stored -/

/-- The text is base64 of a salt, an initialisation vector and data that the cipher accepts under the password; what it
gives is the UTF-8 of `content`. -/
def Opens (crypto : Crypto) (password text content : String) : Prop :=
  ∃ buffer decrypted, crypto.base64_decode text = some buffer ∧ 28 ≤ buffer.length ∧
    crypto.cipher_decrypt (crypto.derive_key password (buffer.take 16)) ((buffer.drop 16).take 12) (buffer.drop 28) =
      some decrypted ∧
    String.fromUTF8? ⟨decrypted.toArray⟩ = some content

section
variable [Serde String] (crypto : Crypto) (storage : MutinyBrowserStorage)

/-- The JSON text in an item, decrypted if there is a password. -/
def StoredJson (item json : String) : Prop :=
  ∃ text, Serde.from_str item = some text ∧
    if storage.password.isEmpty then json = text else Opens crypto storage.password text json

/-- There is no password, or what is stored under the key is not even a text, or it can be decrypted. -/
def CanOpen (store : Store) (key : String) : Prop :=
  storage.password.isEmpty = true ∨ ∀ item, store.items.lookup key = some item →
    ∀ text : String, Serde.from_str item = some text → ∃ json, Opens crypto storage.password text json

end

theorem decrypt_eq_some {crypto : Crypto} {text password content : String} :
    decrypt crypto text password = some content ↔ Opens crypto password text content := by
  unfold decrypt Opens
  cases hb : crypto.base64_decode text with
  | none => simp
  | some buffer =>
    by_cases hl : buffer.length < 28
    · have hno : ¬ 28 ≤ buffer.length := by omega
      simp [hl, hno]
    · cases hd : crypto.cipher_decrypt (crypto.derive_key password (buffer.take 16)) ((buffer.drop 16).take 12)
          (buffer.drop 28) with
      | none => simp [hl, hd]
      | some decrypted =>
        have hle : 28 ≤ buffer.length := by omega
        simp [hl, hd, hle]

theorem decrypt_eq_none {crypto : Crypto} {text password : String} :
    decrypt crypto text password = none ↔ ¬ ∃ content, Opens crypto password text content := by
  simp only [← decrypt_eq_some, not_exists]
  exact Option.eq_none_iff_forall_not_mem

section
variable {α : Type} [Serde α] [Serde String] (host : Host) (storage : MutinyBrowserStorage)

theorem decode_panics_iff (item : String) :
    (storage.decode host.crypto item : Except (Fault MutinyStorageError) α) = .error .panic ↔
      storage.password.isEmpty = false ∧ ∃ text, Serde.from_str item = some text ∧
        ¬ ∃ json, Opens host.crypto storage.password text json := by
  unfold MutinyBrowserStorage.decode
  cases hs : (Serde.from_str item : Option String) with
  | none => simp
  | some text =>
    cases hp : storage.password.isEmpty with
    | true =>
      simp only [if_true]
      cases (Serde.from_str text : Option α) <;> simp
    | false =>
      simp only [Bool.false_eq_true, if_false, Option.some.injEq, exists_eq_left', ← decrypt_eq_none, true_and]
      cases hd : decrypt host.crypto text storage.password with
      | none => simp
      | some json =>
        dsimp only
        cases (Serde.from_str json : Option α) <;> simp

theorem decode_ok_iff (item : String) (value : α) :
    storage.decode host.crypto item = .ok value ↔
      ∃ json, StoredJson host.crypto storage item json ∧ Serde.from_str json = some value := by
  unfold MutinyBrowserStorage.decode StoredJson
  cases hs : (Serde.from_str item : Option String) with
  | none => simp
  | some text =>
    cases hp : storage.password.isEmpty with
    | true =>
      simp only [if_true, Option.some.injEq, exists_eq_left', exists_eq_left]
      cases (Serde.from_str text : Option α) <;> simp
    | false =>
      simp only [Bool.false_eq_true, if_false, Option.some.injEq, exists_eq_left', ← decrypt_eq_some]
      cases hd : decrypt host.crypto text storage.password with
      | none => simp
      | some json =>
        simp only [Option.some.injEq, exists_eq_left']
        cases (Serde.from_str json : Option α) <;> simp

theorem found_panics_iff (key : String) (store : Store) :
    found host storage α key store ≠ some (.error .panic) ↔ CanOpen host.crypto storage store key := by
  unfold found CanOpen
  cases hl : store.items.lookup key with
  | none => simp
  | some item =>
    rw [Option.map_some, ne_eq, Option.some.injEq, decode_panics_iff]
    simp only [Option.some.injEq, forall_eq']
    cases hp : storage.password.isEmpty <;> simp

theorem panics_get (key : String) (store : Store) :
    ¬ Panics (storage.get host key : StorageM MutinyStorageError α) store ↔ CanOpen host.crypto storage store key := by
  unfold Panics
  rw [exec_get_found, ← found_panics_iff (α := α) host]
  match found host storage α key store with
  | none => simp
  | some (.ok _) => simp
  | some (.error _) => simp

theorem panics_scan {ε : Type} (start : String) (suffix : Option String) (store : Store) :
    ¬ Panics (storage.scan host start suffix : StorageM ε (AList fun _ : String => α)) store ↔
      ∀ key item, store.items.lookup key = some item →
        (starts_with key start && suffix.all (ends_with key)) = true →
        ∃ json, StoredJson host.crypto storage item json ∧ ∃ value : α, Serde.from_str json = some value := by
  have hread : ∀ item, (∃ value : α, storage.decode host.crypto item = .ok value) ↔
      ∃ json, StoredJson host.crypto storage item json ∧ ∃ value : α, Serde.from_str json = some value := by
    intro item
    simp only [decode_ok_iff]
    tauto
  simp only [← hread]
  unfold Panics
  rw [exec_scan]
  constructor
  · intro h key item hi hs
    cases hm : (storage.scanned host start suffix store : Option (AList fun _ : String => α)) with
    | none => simp [hm] at h
    | some map => exact readable_of_scanned host storage hm hi hs
  · intro h
    obtain ⟨map, hm, -⟩ := scanned_lookup host storage start suffix store h
    simp [hm]

end

/-! ## The callers -/

section
variable [Serde String] (host : Host) (storage : MutinyBrowserStorage) (store : Store)

theorem panics_get_mnemonic {Mnemonic : Type} (bip39 : Bip39 Mnemonic) :
    ¬ Panics (storage.get_mnemonic bip39 host) store ↔ CanOpen host.crypto storage store mnemonic_key ∧
      ∀ item, store.items.lookup mnemonic_key = some item → ∀ json, StoredJson host.crypto storage item json →
        ∀ str, Serde.from_str json = some str → (bip39.from_str str).isSome = true := by
  have hg := exec_get (α := String) host storage mnemonic_key store
  have hopen := panics_get (α := String) host storage mnemonic_key store
  unfold Panics at hopen ⊢
  rw [← hopen]
  unfold MutinyBrowserStorage.get_mnemonic
  cases hl : store.items.lookup mnemonic_key with
  | none =>
    simp only [hl] at hg
    rw [exec_bind_error hg, hg]
    simp
  | some item =>
    simp only [hl] at hg
    have hok := decode_ok_iff (α := String) host storage item
    cases hd : (storage.decode host.crypto item : Except (Fault MutinyStorageError) String) with
    | error e =>
      rw [hd] at hg
      simp only [hd, reduceCtorEq, false_iff, not_exists, not_and] at hok
      rw [exec_bind_error hg, hg]
      simp only [Option.some.injEq, forall_eq', Except.error.injEq]
      constructor
      · intro h
        exact ⟨h, fun json hj str hs => absurd hs (hok str json hj)⟩
      · intro h
        exact h.1
    | ok str =>
      rw [hd] at hg
      simp only [hd, Except.ok.injEq] at hok
      rw [exec_bind_ok hg, hg]
      simp only [Option.some.injEq, forall_eq']
      cases hm : bip39.from_str str with
      | none =>
        obtain ⟨json, hj, hs⟩ := (hok str).mp rfl
        simp only [exec_throw, not_true_eq_false, false_iff, not_and]
        intro _ hall
        have := hall json hj str hs
        simp [hm] at this
      | some mnemonic =>
        have hall : ∀ json, StoredJson host.crypto storage item json → ∀ str', Serde.from_str json = some str' →
            (bip39.from_str str').isSome = true := by
          intro json hj str' hs
          rw [← (hok str').mpr ⟨json, hj, hs⟩, hm]
          rfl
        simpa using hall

theorem panics_read_value [Serde (List UInt8)] (persister : MutinyNodePersister) (key : String) :
    ¬ Panics (persister.read_value host key) store ↔
      CanOpen host.crypto persister.storage store (persister.get_key key) := by
  unfold Panics
  rw [exec_read_value, ← found_panics_iff (α := List UInt8) host]
  match found host persister.storage (List UInt8) (persister.get_key key) store with
  | none => simp
  | some (.ok _) => simp
  | some (.error .panic) => simp [Fault.map]
  | some (.error (.err _)) => simp [Fault.map]

theorem panics_read_payment_info [Serde PaymentInfo] {ε : Type} (persister : MutinyNodePersister)
    (payment_hash : PaymentHash) (inbound : Bool) :
    ¬ Panics (persister.read_payment_info host payment_hash inbound : StorageM ε _) store ↔
      CanOpen host.crypto persister.storage store (persister.get_key (payment_key inbound payment_hash)) := by
  unfold Panics
  rw [exec_read_payment_info, ← found_panics_iff (α := PaymentInfo) host]
  unfold stored_info found
  match (store.items.lookup (persister.get_key (payment_key inbound payment_hash))).map
    (persister.storage.decode host.crypto : String → Except (Fault MutinyStorageError) PaymentInfo) with
  | none => simp
  | some (.ok _) => simp
  | some (.error .panic) => simp
  | some (.error (.err _)) => simp

theorem panics_check_descriptor_checksum [Serde (List UInt8)] (keychain : KeychainKind) (bytes : List UInt8) :
    ¬ Panics (check_descriptor_checksum host storage keychain bytes) store ↔
      CanOpen host.crypto storage store (MapKey.DescriptorChecksum keychain).as_map_key := by
  unfold Panics
  rw [exec_check_descriptor_checksum, ← found_panics_iff (α := List UInt8) host]
  match found host storage (List UInt8) (MapKey.DescriptorChecksum keychain).as_map_key store with
  | none =>
    dsimp only
    split <;> simp
  | some (.ok val) =>
    dsimp only
    split <;> simp
  | some (.error .panic) => simp
  | some (.error (.err _)) =>
    dsimp only
    split <;> simp

end

/-- For each function that reads the store: the contents on which it does not panic. -/
theorem storage_panics_iff [Serde String] [Serde (List UInt8)] [Serde PaymentInfo] {α ε Mnemonic : Type} [Serde α]
    (host : Host) (storage : MutinyBrowserStorage) (store : Store) :
    (∀ text password, decrypt host.crypto text password ≠ none ↔ ∃ content, Opens host.crypto password text content) ∧
    (∀ key, ¬ Panics (storage.get host key : StorageM MutinyStorageError α) store ↔
      CanOpen host.crypto storage store key) ∧
    (∀ start suffix, ¬ Panics (storage.scan host start suffix : StorageM ε (AList fun _ : String => α)) store ↔
      ∀ key item, store.items.lookup key = some item →
        (starts_with key start && suffix.all (ends_with key)) = true →
        ∃ json, StoredJson host.crypto storage item json ∧ ∃ value : α, Serde.from_str json = some value) ∧
    (∀ bip39 : Bip39 Mnemonic, ¬ Panics (storage.get_mnemonic bip39 host) store ↔
      CanOpen host.crypto storage store mnemonic_key ∧
        ∀ item, store.items.lookup mnemonic_key = some item → ∀ json, StoredJson host.crypto storage item json →
          ∀ str, Serde.from_str json = some str → (bip39.from_str str).isSome = true) ∧
    (∀ node_id key, ¬ Panics (MutinyNodePersister.read_value host ⟨node_id, storage⟩ key) store ↔
      CanOpen host.crypto storage store (MutinyNodePersister.get_key ⟨node_id, storage⟩ key)) ∧
    (∀ node_id payment_hash inbound,
      ¬ Panics (MutinyNodePersister.read_payment_info host ⟨node_id, storage⟩ payment_hash inbound : StorageM ε _) store ↔
        CanOpen host.crypto storage store
          (MutinyNodePersister.get_key ⟨node_id, storage⟩ (payment_key inbound payment_hash))) ∧
    ∀ keychain bytes, ¬ Panics (check_descriptor_checksum host storage keychain bytes) store ↔
      CanOpen host.crypto storage store (MapKey.DescriptorChecksum keychain).as_map_key := by
  refine ⟨fun text password => ?_, fun key => panics_get host storage key store,
    fun start suffix => panics_scan host storage start suffix store, panics_get_mnemonic host storage store,
    fun node_id => panics_read_value host store ⟨node_id, storage⟩,
    fun node_id => panics_read_payment_info host store ⟨node_id, storage⟩,
    panics_check_descriptor_checksum host storage store⟩
  rw [ne_eq, decrypt_eq_none, not_not]

/-! ## A text that is no ciphertext -/

/-- Texts of bytes in hexadecimal; what is not hexadecimal is rejected. -/
def hex_crypto : Crypto :=
  { no_crypto with
    base64_encode := Hex.to_hex
    base64_decode := Hex.from_hex
    base64_decode_encode := fun bytes => by simp [Hex.from_hex, Hex.to_hex, Hex.read_bytes_flatMap] }

attribute [local instance] string_serde

def incorrect_store : Store := ⟨AList.singleton mnemonic_key (Serde.to_string "incorrect"), 0⟩

/-- The text of the crate's own test, stored under the key of the seed. -/
theorem get_panics_incorrect :
    decrypt hex_crypto "incorrect" "password" = none ∧
    Panics (MutinyBrowserStorage.get { open_host with crypto := hex_crypto } ⟨"password"⟩ mnemonic_key :
      StorageM MutinyStorageError String) incorrect_store ∧
    Panics (MutinyBrowserStorage.scan { open_host with crypto := hex_crypto } ⟨"password"⟩ mnemonic_key none :
      StorageM MutinyStorageError (AList fun _ : String => String)) incorrect_store := by
  have hd : decrypt hex_crypto "incorrect" "password" = none := rfl
  have hl : incorrect_store.items.lookup mnemonic_key = some (Serde.to_string "incorrect") := by
    simp [incorrect_store, AList.lookup]
  have hg : Panics (MutinyBrowserStorage.get { open_host with crypto := hex_crypto } ⟨"password"⟩ mnemonic_key :
      StorageM MutinyStorageError String) incorrect_store := by
    unfold Panics
    rw [exec_get, hl]
    simp [MutinyBrowserStorage.decode, hd]
  refine ⟨hd, hg, ?_⟩
  by_contra hscan
  obtain ⟨json, ⟨text, ht, hopen⟩, -⟩ := (panics_scan _ _ _ _ _).mp hscan mnemonic_key _ hl (by decide)
  rw [Serde.from_to, Option.some.injEq] at ht
  subst ht
  exact decrypt_eq_none.mp hd ⟨json, hopen⟩

end Mutiny
