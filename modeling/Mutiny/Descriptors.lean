import Mutiny.NodeManagerAtomic
import Mutiny.Browser

/-!
# The descriptors of the wallet (`wallet.rs`)

The on-chain wallet derives its two descriptors from the seed, and BDK records their checksums in the store and compares
them whenever the wallet is opened. The network is in a descriptor twice, as the coin type of the path and as the version
of the key, and both are the same for all networks but the main one.
-/

namespace Mutiny

open Prog

inductive ChildNumber where
  | Normal (index : UInt32)
  | Hardened (index : UInt32)
  deriving DecidableEq, Repr

def ChildNumber.from_hardened_idx (index : UInt32) : Option ChildNumber :=
  if index.toNat < 2147483648 then some (.Hardened index) else none

structure ExtendedPrivKey (Secret : Type) where
  network : Network
  secret : Secret

/-- The four bytes in front of a public key in a descriptor. -/
def Network.xpub_version : Network → List UInt8
  | .Bitcoin => [0x04, 0x88, 0xB2, 0x1E]
  | .Testnet | .Signet | .Regtest => [0x04, 0x35, 0x87, 0xCF]

structure DescriptorTemplate (Secret : Type) where
  key : ExtendedPrivKey Secret
  path : List ChildNumber

/-- What rust-bitcoin and BDK make of the seed and of a descriptor. BDK writes a descriptor with its public key. -/
structure Descriptors (Mnemonic Secret : Type) where
  secret : Mnemonic → Option Secret
  checksums : List UInt8 → Secret → List ChildNumber → List (List UInt8)

section
variable {Mnemonic Secret : Type}

def ExtendedPrivKey.into_xprv (xkey : ExtendedPrivKey Secret) (network : Network) : ExtendedPrivKey Secret :=
  { xkey with network }

def coin_type : Network → UInt32
  | .Bitcoin => 0
  | .Testnet => 1
  | .Signet => 1
  | .Regtest => 1

/-- `none` where `unwrap` panics. -/
def get_tr_descriptors_for_extended_key (xkey : ExtendedPrivKey Secret) (network : Network) (account_number : UInt32) :
    Option (DescriptorTemplate Secret × DescriptorTemplate Secret) := do
  let master_xprv := xkey.into_xprv network
  let coin_type ← ChildNumber.from_hardened_idx (coin_type network)
  let account ← ChildNumber.from_hardened_idx account_number
  let derivation_path := [.Hardened 86, coin_type, account]
  return (⟨master_xprv, derivation_path ++ [.Normal 0]⟩, ⟨master_xprv, derivation_path ++ [.Normal 1]⟩)

variable (descriptors : Descriptors Mnemonic Secret)

def DescriptorTemplate.offers (template : DescriptorTemplate Secret) : List (List UInt8) :=
  descriptors.checksums template.key.network.xpub_version template.key.secret template.path

/-- `MutinyWallet::new` up to what `Wallet::new` does with the database. -/
def wallet_checksums (mnemonic : Mnemonic) (network : Network) : Option (KeychainKind → List (List UInt8)) := do
  let xprivkey : ExtendedPrivKey Secret := ⟨network, ← descriptors.secret mnemonic⟩
  let (receive, change) ← get_tr_descriptors_for_extended_key xprivkey network 0
  return fun
    | .External => receive.offers descriptors
    | .Internal => change.offers descriptors

def wallet_bdk : Bdk Mnemonic := ⟨wallet_checksums descriptors⟩

/-! ## What the network changes -/

/-- Both are the main network, or neither is. -/
def Network.SameKind (before after : Network) : Prop := before = .Bitcoin ↔ after = .Bitcoin

instance (before after : Network) : Decidable (before.SameKind after) := inferInstanceAs (Decidable (_ ↔ _))

def account_path (network : Network) (keychain : KeychainKind) : List ChildNumber :=
  [.Hardened 86, .Hardened (coin_type network), .Hardened 0,
    .Normal (match keychain with | .External => 0 | .Internal => 1)]

def keychain_offers (secret : Secret) (network : Network) (keychain : KeychainKind) : List (List UInt8) :=
  descriptors.checksums network.xpub_version secret (account_path network keychain)

theorem wallet_checksums_eq (mnemonic : Mnemonic) (network : Network) : wallet_checksums descriptors mnemonic network =
    (descriptors.secret mnemonic).map fun secret => keychain_offers descriptors secret network := by
  have hcoin : ChildNumber.from_hardened_idx (coin_type network) = some (.Hardened (coin_type network)) := by
    cases network <;> rfl
  have haccount : ChildNumber.from_hardened_idx 0 = some (.Hardened 0) := rfl
  cases hs : descriptors.secret mnemonic with
  | none => simp [wallet_checksums, hs]
  | some secret =>
    simp only [wallet_checksums, hs, get_tr_descriptors_for_extended_key, hcoin, haccount, Option.bind_eq_bind,
      Option.bind_some, Option.map_some]
    refine congrArg some (funext fun keychain => ?_)
    cases keychain <;> rfl

theorem keychain_offers_eq {before after : Network} (h : before.SameKind after) (secret : Secret) :
    keychain_offers descriptors secret before = keychain_offers descriptors secret after := by
  have hsame : before.xpub_version = after.xpub_version ∧ coin_type before = coin_type after := by
    revert h
    cases before <;> cases after <;> decide
  funext keychain
  simp only [keychain_offers, account_path, hsame.1, hsame.2]

end

/-! ## What the database records -/

theorem exec_expect_eq_ok {ε ε' α : Type} {x : StorageM ε α} {s t : Store} {a : α}
    (h : exec (expect x : StorageM ε' α) s = (.ok a, t)) : exec x s = (.ok a, t) := by
  rcases hx : exec x s with ⟨e | b, u⟩
  · rw [exec_expect_error hx] at h
    cases h
  · rw [exec_expect_ok hx] at h
    cases h
    rfl

section
variable [Serde String] [Serde (List UInt8)] (host : Host) (storage : MutinyBrowserStorage)

/-- A checksum of the keychain is recorded, and it is one of these. -/
def ChecksumRecorded (keychain : KeychainKind) (offers : List (List UInt8)) (store : Store) : Prop :=
  ∃ bytes ∈ offers, found host storage (List UInt8) (MapKey.DescriptorChecksum keychain).as_map_key store = some (.ok bytes)

theorem exec_db_checksum_recorded {keychain : KeychainKind} {bytes : List UInt8} {store : Store}
    (h : found host storage (List UInt8) (MapKey.DescriptorChecksum keychain).as_map_key store = some (.ok bytes))
    (offers : List (List UInt8)) :
    (bytes ∈ offers → exec (db_checksum host storage keychain offers) store = (.ok (), store)) ∧
      (bytes ∉ offers →
        exec (db_checksum host storage keychain offers) store = (.error (.err .ChecksumMismatch), store)) := by
  induction offers with
  | nil => exact ⟨fun hm => absurd hm List.not_mem_nil, fun _ => rfl⟩
  | cons offer offers ih =>
    have hc := exec_check_descriptor_checksum host storage keychain offer store
    simp only [h] at hc
    by_cases he : bytes = offer
    · rw [if_pos he] at hc
      rw [db_checksum, exec_bind_ok (exec_result_ok hc)]
      exact ⟨fun _ => rfl, fun hm => absurd (he ▸ List.mem_cons_self) hm⟩
    · rw [if_neg he] at hc
      rw [db_checksum, exec_bind_ok (exec_result_err hc)]
      simpa [List.mem_cons, he] using ih

/-- What a check can do: it panics, it fails and leaves every item, or the checksum is on record afterwards. -/
theorem check_descriptor_checksum_cases {keychain : KeychainKind} {bytes : List UInt8} {store t : Store}
    {r : Except (Fault BdkError) Unit} (h : exec (check_descriptor_checksum host storage keychain bytes) store = (r, t)) :
    r = .error .panic ∨ (∃ e, r = .error (.err e) ∧ t.items = store.items) ∨
      (r = .ok () ∧
        found host storage (List UInt8) (MapKey.DescriptorChecksum keychain).as_map_key t = some (.ok bytes) ∧
        ∀ key ≠ (MapKey.DescriptorChecksum keychain).as_map_key, t.items.lookup key = store.items.lookup key) := by
  have hfresh : (if host.refuses store.writes then (.error (.err .Generic), { store with writes := store.writes + 1 })
      else (.ok (), ⟨store.items.insert (MapKey.DescriptorChecksum keychain).as_map_key
        (storage.encode host store.writes bytes), store.writes + 1⟩) : Except (Fault BdkError) Unit × Store) = (r, t) →
      (∃ e, r = .error (.err e) ∧ t.items = store.items) ∨
        (r = .ok () ∧
          found host storage (List UInt8) (MapKey.DescriptorChecksum keychain).as_map_key t = some (.ok bytes) ∧
          ∀ key ≠ (MapKey.DescriptorChecksum keychain).as_map_key, t.items.lookup key = store.items.lookup key) := by
    intro h
    split at h
    · cases h
      exact .inl ⟨_, rfl, rfl⟩
    · cases h
      refine .inr ⟨rfl, ?_, fun key hkey => AList.lookup_insert_ne hkey⟩
      rw [found, AList.lookup_insert, Option.map_some, decode_encode]
  rw [exec_check_descriptor_checksum] at h
  rcases hf : found host storage (List UInt8) (MapKey.DescriptorChecksum keychain).as_map_key store with
    _ | (⟨e⟩ | _) | val <;> simp only [hf] at h
  · exact .inr (hfresh h)
  · exact .inr (hfresh h)
  · cases h
    exact .inl rfl
  · by_cases hv : val = bytes
    · rw [if_pos hv] at h
      cases h
      exact .inr (.inr ⟨rfl, hv ▸ hf, fun _ _ => rfl⟩)
    · rw [if_neg hv] at h
      cases h
      exact .inr (.inl ⟨_, rfl, rfl⟩)

/-- Where the checks go through, what they compared with is recorded, and nothing else is written. -/
theorem recorded_of_db_checksum {keychain : KeychainKind} {offers : List (List UInt8)} {store t : Store}
    (h : exec (db_checksum host storage keychain offers) store = (.ok (), t)) :
    ChecksumRecorded host storage keychain offers t ∧
      ∀ key ≠ (MapKey.DescriptorChecksum keychain).as_map_key, t.items.lookup key = store.items.lookup key := by
  induction offers generalizing store with
  | nil => cases h
  | cons offer offers ih =>
    rw [db_checksum] at h
    rcases hc : exec (check_descriptor_checksum host storage keychain offer) store with ⟨r, u⟩
    obtain rfl | ⟨e, rfl, hu⟩ | ⟨rfl, hfound, hframe⟩ := check_descriptor_checksum_cases host storage hc
    · rw [exec_bind_error (exec_result_panic hc)] at h
      cases h
    · rw [exec_bind_ok (exec_result_err hc)] at h
      obtain ⟨⟨bytes, hmem, hfound⟩, hframe⟩ := ih h
      exact ⟨⟨bytes, List.mem_cons_of_mem _ hmem, hfound⟩, fun key hkey => by rw [hframe key hkey, hu]⟩
    · rw [exec_bind_ok (exec_result_ok hc)] at h
      cases h
      exact ⟨⟨offer, List.mem_cons_self, hfound⟩, hframe⟩

omit [Serde String] [Serde (List UInt8)] in
theorem checksum_key_ne : (MapKey.DescriptorChecksum .External).as_map_key ≠
    (MapKey.DescriptorChecksum .Internal).as_map_key := by
  decide

variable {Mnemonic Secret : Type} (descriptors : Descriptors Mnemonic Secret)

/-- A wallet that opens leaves a checksum of its own on record for each keychain. -/
theorem recorded_of_wallet_new {ε : Type} {mnemonic : Mnemonic} {network : Network} {store t : Store}
    (h : exec (MutinyWallet.new host (wallet_bdk descriptors) mnemonic storage network : StorageM ε Unit) store =
      (.ok (), t)) : ∃ secret, descriptors.secret mnemonic = some secret ∧
        ∀ keychain, ChecksumRecorded host storage keychain (keychain_offers descriptors secret network keychain) t := by
  unfold MutinyWallet.new wallet_bdk at h
  simp only [wallet_checksums_eq] at h
  cases hs : descriptors.secret mnemonic with
  | none =>
    simp only [hs, Option.map_none] at h
    cases h
  | some secret =>
    simp only [hs, Option.map_some] at h
    obtain ⟨_, receive, hext, hint⟩ := exec_bind_eq_ok (exec_expect_eq_ok h)
    obtain ⟨⟨bytes, hmem, hfound⟩, -⟩ := recorded_of_db_checksum host storage hext
    obtain ⟨hrecorded, hframe⟩ := recorded_of_db_checksum host storage hint
    refine ⟨secret, rfl, fun keychain => ?_⟩
    cases keychain with
    | External => exact ⟨bytes, hmem, by rw [found, hframe _ checksum_key_ne]; exact hfound⟩
    | Internal => exact hrecorded

/-- With a checksum on record for each keychain, a wallet that offers both opens, and one without the first panics. -/
theorem exec_wallet_new_recorded {ε : Type} {bdk : Bdk Mnemonic} {mnemonic : Mnemonic} {network : Network} {store : Store}
    {bytes : KeychainKind → List UInt8}
    (h : ∀ keychain, found host storage (List UInt8) (MapKey.DescriptorChecksum keychain).as_map_key store =
      some (.ok (bytes keychain)))
    {checksums : KeychainKind → List (List UInt8)} (hc : bdk.checksums mnemonic network = some checksums) :
    (bytes .External ∈ checksums .External ∧ bytes .Internal ∈ checksums .Internal →
        exec (MutinyWallet.new host bdk mnemonic storage network : StorageM ε Unit) store = (.ok (), store)) ∧
      (bytes .External ∉ checksums .External →
        exec (MutinyWallet.new host bdk mnemonic storage network : StorageM ε Unit) store = (.error .panic, store)) := by
  have hext := exec_db_checksum_recorded host storage (h .External) (checksums .External)
  have hint := exec_db_checksum_recorded host storage (h .Internal) (checksums .Internal)
  unfold MutinyWallet.new
  simp only [hc]
  constructor
  · intro ⟨he, hi⟩
    exact exec_expect_ok ((exec_bind_ok (hext.1 he)).trans (hint.1 hi))
  · intro he
    exact exec_expect_error (exec_bind_error (hext.2 he))

/-- A store is opened again with the same seed and a network of the same kind only: the main network and the others are
told apart, the others from one another are not. -/
theorem wallet_reopened [DecidableEq Secret] {ε : Type} {mnemonic mnemonic' : Mnemonic} {before after : Network}
    {store t u : Store}
    (hopen : exec (MutinyWallet.new host (wallet_bdk descriptors) mnemonic storage before : StorageM ε Unit) store =
      (.ok (), t))
    (hkept : ∀ keychain, u.items.lookup (MapKey.DescriptorChecksum keychain).as_map_key =
      t.items.lookup (MapKey.DescriptorChecksum keychain).as_map_key)
    (hdistinct : ∀ secret secret', descriptors.secret mnemonic = some secret → descriptors.secret mnemonic' = some secret' →
      ¬ (secret' = secret ∧ before.SameKind after) → ∀ bytes ∈ keychain_offers descriptors secret before .External,
        bytes ∉ keychain_offers descriptors secret' after .External) :
    exec (MutinyWallet.new host (wallet_bdk descriptors) mnemonic' storage after : StorageM ε Unit) u =
      (if descriptors.secret mnemonic' = descriptors.secret mnemonic ∧ before.SameKind after then .ok ()
        else .error .panic, u) := by
  obtain ⟨secret, hs, hrecorded⟩ := recorded_of_wallet_new host storage descriptors hopen
  cases hs' : descriptors.secret mnemonic' with
  | none =>
    unfold MutinyWallet.new wallet_bdk
    simp [wallet_checksums_eq, hs, hs']
  | some secret' =>
    choose bytes hmem hfound using hrecorded
    have hfound' : ∀ keychain, found host storage (List UInt8) (MapKey.DescriptorChecksum keychain).as_map_key u =
        some (.ok (bytes keychain)) := by
      intro keychain
      rw [found, hkept]
      exact hfound keychain
    have hoffers : (wallet_bdk descriptors).checksums mnemonic' after =
        some (keychain_offers descriptors secret' after) := by
      simp [wallet_bdk, wallet_checksums_eq, hs']
    obtain ⟨hopens, hpanics⟩ := exec_wallet_new_recorded (ε := ε) host storage hfound' hoffers
    simp only [hs, Option.some.injEq]
    by_cases hsame : secret' = secret ∧ before.SameKind after
    · rw [if_pos hsame]
      rw [hsame.1, ← keychain_offers_eq descriptors hsame.2] at hopens
      exact hopens ⟨hmem .External, hmem .Internal⟩
    · rw [if_neg hsame]
      exact hpanics (hdistinct secret secret' hs hs' hsame _ (hmem .External))

end

attribute [local instance] string_serde bytes_serde

def sample_descriptors : Descriptors String String where
  secret := some
  checksums version _ path := [version ++ path.map fun | .Normal index | .Hardened index => index.toUInt8]

theorem signet_unnoticed : ∃ t, exec (MutinyWallet.new open_host (wallet_bdk sample_descriptors) "abandon" ⟨""⟩ .Testnet :
      StorageM MutinyError Unit) ⟨∅, 0⟩ = (.ok (), t) ∧
    exec (MutinyWallet.new open_host (wallet_bdk sample_descriptors) "abandon" ⟨""⟩ .Signet :
      StorageM MutinyError Unit) t = (.ok (), t) ∧
    exec (MutinyWallet.new open_host (wallet_bdk sample_descriptors) "abandon" ⟨""⟩ .Bitcoin :
      StorageM MutinyError Unit) t = (.error .panic, t) := by
  have hopen : exec (MutinyWallet.new open_host (wallet_bdk sample_descriptors) "abandon" ⟨""⟩ .Testnet :
      StorageM MutinyError Unit) ⟨∅, 0⟩ = (.ok (), _) := rfl
  refine ⟨_, hopen, ?_, ?_⟩
  · refine wallet_reopened open_host ⟨""⟩ sample_descriptors hopen (fun _ => rfl) ?_
    rintro _ _ ⟨⟩ ⟨⟩ hsame
    exact absurd ⟨rfl, by decide⟩ hsame
  · refine wallet_reopened open_host ⟨""⟩ sample_descriptors hopen (fun _ => rfl) ?_
    rintro _ _ ⟨⟩ ⟨⟩ -
    decide

end Mutiny
