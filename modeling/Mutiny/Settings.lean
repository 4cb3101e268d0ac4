import Mutiny.Backup
import Mutiny.Browser
import Mutiny.Machine
import Mutiny.NodeManager
import Mutiny.StorageKeys

/-!
# The settings and the state of the wallet (`GlobalStateProvider.tsx`, `SettingStringsEditor.tsx`, `Settings.tsx`)

The settings stand in `localStorage` beside what the node managers write there. A page starts a node manager with the
network of the settings, and another network is set only after the storage was cleared. Several tabs share the storage
of a browser, and a file that is saved in one browser can be uploaded in another.
-/

namespace Mutiny

open Prog

structure NodeManagerSettingStrings where
  network : Option String
  proxy : Option String
  esplora : Option String
  deriving DecidableEq, Repr

def network_setting : String := "MUTINY_SETTINGS_network"

def proxy_setting : String := "MUTINY_SETTINGS_proxy"

def esplora_setting : String := "MUTINY_SETTINGS_esplora"

def setting_keys : List String := [network_setting, proxy_setting, esplora_setting]

/-- `a || b`, where the empty text counts as none. -/
def or_text (a b : Option String) : Option String := if a.any (· ≠ "") then a else b

def missing_setting : JsError :=
  .Error ("Missing a default setting for network, proxy, or esplora. " ++
    "Check your .env file to make sure it looks like .env.sample")

section
variable (env : NodeManagerSettingStrings)

def get_existing_settings (items : AList fun _ : String => String) : NodeManagerSettingStrings where
  network := or_text (items.lookup network_setting) env.network
  proxy := or_text (items.lookup proxy_setting) env.proxy
  esplora := or_text (items.lookup esplora_setting) env.esplora

/-- The settings that are written, if there is a text for each of them. -/
def chosen_settings (settings existing : NodeManagerSettingStrings) : Option (String × String × String) := do
  let network ← (or_text settings.network existing.network).filter (· ≠ "")
  let proxy ← (or_text settings.proxy existing.proxy).filter (· ≠ "")
  let esplora ← (or_text settings.esplora existing.esplora).filter (· ≠ "")
  return (network, proxy, esplora)

def set_and_get_mutiny_settings (host : Host) (settings : NodeManagerSettingStrings) :
    Prog Store JsError (String × String × String) := do
  let store ← get
  match chosen_settings settings (get_existing_settings env store.items) with
  | none => throw missing_setting
  | some (network, proxy, esplora) =>
    set_item host network_setting network
    set_item host proxy_setting proxy
    set_item host esplora_setting esplora
    return (network, proxy, esplora)

/-! ## Pages -/

/-- A node manager with the page it runs in, what the storage held when it was made, and whether the storage was cleared
since. -/
structure LiveManager where
  tab : Nat
  network : Network
  found : AList fun _ : String => String
  cleared : Bool

structure Browser where
  store : Store
  managers : List LiveManager

/-- `setup`: a node manager is made if all settings are written and the network is one; its own writes are steps of the
machine. -/
def setup (host : Host) (tab : Nat) (settings : NodeManagerSettingStrings) (browser : Browser) : Browser :=
  match exec (set_and_get_mutiny_settings env host settings) browser.store with
  | (.error _, store) => { browser with store := store }
  | (.ok (network, _, _), store) =>
    match Network.parse network with
    | none => { browser with store := store }
    | some network => ⟨store, browser.managers ++ [⟨tab, network, store.items, false⟩]⟩

def Browser.close (tab : Nat) (browser : Browser) : Browser :=
  { browser with managers := browser.managers.filter (·.tab ≠ tab) }

/-- The managers go on with a storage that is no longer the one they were made with. -/
def Browser.replace (store : Store) (browser : Browser) : Browser :=
  ⟨store, browser.managers.map fun m => { m with cleared := true }⟩

def no_settings : NodeManagerSettingStrings := ⟨none, none, none⟩

/-- A page is loaded, for the first time or again. -/
def load (host : Host) (tab : Nat) (browser : Browser) : Browser := setup env host tab no_settings (browser.close tab)

def cleared_store (store : Store) : Store := { store with items := ∅ }

def handle_clear_state (tab : Nat) (confirmed : Bool) (browser : Browser) : Browser :=
  if confirmed then (browser.replace (cleared_store browser.store)).close tab else browser

/-- The page is reloaded by a step of its own, as it waits for `setup` first. -/
def handle_save_settings (host : Host) (tab : Nat) (settings : NodeManagerSettingStrings) (confirmed : Bool)
    (browser : Browser) : Browser :=
  if (get_existing_settings env browser.store.items).network = settings.network then browser
  else if confirmed then setup env host tab settings (browser.replace (cleared_store browser.store))
  else browser.close tab

def upload (number_text : Json.Number → String) (host : Host) (tab : Nat) (text : String) (confirmed : Bool)
    (browser : Browser) : Browser :=
  match exec (handle_file_choose number_text host text confirmed) browser.store with
  | (.ok true, store) => (browser.replace store).close tab
  | (.ok false, _) => browser
  | (.error .SyntaxError, _) => browser
  | (.error _, store) => browser.replace store

/-! ## Runs -/

/-- `file` is the place of a saved file among all of them, `manager` that of a manager in its browser. -/
inductive PageAction (α : Type) where
  | load (browser tab : Nat)
  | write (browser manager : Nat) (entry : Entry) (value : α)
  | delete (browser manager : Nat) (entry : Entry)
  | save (browser : Nat)
  | upload (browser tab file : Nat) (confirmed : Bool)
  | clear_state (browser tab : Nat) (confirmed : Bool)
  | save_settings (browser tab : Nat) (settings : NodeManagerSettingStrings) (confirmed : Bool)

structure Browsers where
  browsers : Nat → Browser
  files : List String

def Browsers.start : Browsers := ⟨fun _ => ⟨⟨∅, 0⟩, []⟩, []⟩

def Browsers.change (w : Browsers) (b : Nat) (browser : Browser) : Browsers :=
  { w with browsers := Function.update w.browsers b browser }

end

/-- What the machine is given: the defaults of the build, the browsers, and what a node manager of a network writes for
an entry. -/
structure Pages (α : Type) where
  env : NodeManagerSettingStrings
  hosts : Nat → Host
  number_text : Json.Number → String
  content : Network → Entry → α → String

/-- The front end makes its node managers without a password. -/
def no_password : MutinyBrowserStorage := ⟨""⟩

def manager_write (host : Host) (key text : String) (browser : Browser) : Browser :=
  { browser with store := (exec (set_item host key text) browser.store).2 }

def manager_delete (key : String) (browser : Browser) : Browser :=
  { browser with store := { browser.store with items := browser.store.items.erase key } }

def Pages.machine {α : Type} (pages : Pages α) : Machine Browsers (PageAction α) where
  step w
    | .load b tab => some (w.change b (load pages.env (pages.hosts b) tab (w.browsers b)))
    | .write b i entry value => do
      let m ← (w.browsers b).managers[i]?
      let text := pages.content m.network entry value
      return w.change b (manager_write (pages.hosts b) (entry.key no_password) text (w.browsers b))
    | .delete b i entry => do
      let _ ← (w.browsers b).managers[i]?
      return w.change b (manager_delete (entry.key no_password) (w.browsers b))
    | .save b => some { w with files := w.files ++ [handle_save (w.browsers b).store.items] }
    | .upload b tab file confirmed => do
      let text ← w.files[file]?
      return w.change b (upload pages.number_text (pages.hosts b) tab text confirmed (w.browsers b))
    | .clear_state b tab confirmed => some (w.change b (handle_clear_state tab confirmed (w.browsers b)))
    | .save_settings b tab settings confirmed =>
      some (w.change b (handle_save_settings pages.env (pages.hosts b) tab settings confirmed (w.browsers b)))

/-! ## What the storage holds -/

section
variable {α : Type} (content : Network → Entry → α → String)

/-- Besides the settings there is nothing but what node managers of one network wrote. -/
def WrittenFor (network : Network) (items : AList fun _ : String => String) : Prop :=
  ∀ key text, items.lookup key = some text →
    key ∈ setting_keys ∨ ∃ entry value, key = entry.key no_password ∧ text = content network entry value

def network_of (items : AList fun _ : String => String) : Option Network :=
  (items.lookup network_setting).bind Network.parse

/-- What stands beside the settings was written for the network that they name. -/
def Tidy (items : AList fun _ : String => String) : Prop :=
  (∀ key ∈ items, key ∈ setting_keys) ∨ ∃ network, network_of items = some network ∧ WrittenFor content network items

def LiveManager.Sound (items : AList fun _ : String => String) (m : LiveManager) : Prop :=
  WrittenFor content m.network m.found ∧ (m.cleared = false → network_of items = some m.network)

structure Browser.Sound (browser : Browser) : Prop where
  tidy : Tidy content browser.store.items
  managers : ∀ m ∈ browser.managers, m.Sound content browser.store.items

structure Browsers.Sound (w : Browsers) : Prop where
  browsers : ∀ b, (w.browsers b).Sound content
  files : ∀ text ∈ w.files, ∃ items, Tidy content items ∧ text = handle_save items

/-- A manager whose storage was cleared writes nothing more, and an upload that was begun is not cut short. -/
def Pages.Orderly (pages : Pages α) (w : Browsers) : PageAction α → Prop
  | .write b i _ _ => ∀ m ∈ (w.browsers b).managers[i]?, m.cleared = false
  | .upload b _ file confirmed => ∀ text ∈ w.files[file]?,
      (exec (handle_file_choose pages.number_text (pages.hosts b) text confirmed) (w.browsers b).store).1 ≠
        .error .QuotaExceededError
  | _ => True

instance (pages : Pages α) (w : Browsers) : ∀ a, Decidable (pages.Orderly w a)
  | .write b i _ _ => inferInstanceAs (Decidable (∀ m ∈ (w.browsers b).managers[i]?, LiveManager.cleared m = false))
  | .upload b _ file confirmed => inferInstanceAs (Decidable (∀ text ∈ w.files[file]?,
      (exec (handle_file_choose pages.number_text (pages.hosts b) text confirmed) (w.browsers b).store).1 ≠
        .error .QuotaExceededError))
  | .load .. | .delete .. | .save .. | .clear_state .. | .save_settings .. => .isTrue trivial

end

/-! ## The keys of the settings -/

theorem entry_key_head (entry : Entry) : (entry.key no_password).toList.head? ≠ some 'M' := by
  have hhead : ∀ key : String, key.toList ≠ [] → ∀ uuid : Uuid,
      (MutinyNodePersister.get_key ⟨uuid.to_string, no_password⟩ key).toList.head? = key.toList.head? := by
    intro key hk uuid
    simp [MutinyNodePersister.get_key, List.head?_append_of_ne_nil _ hk]
  cases entry with
  | record kind k =>
    rcases (kind.map_key k).as_map_key_head with h | h <;> rw [Entry.key, Kind.key, h] <;> decide
  | node uuid entry =>
    have hk : entry.key.toList ≠ [] ∧ entry.key.toList.head? ≠ some 'M' := by
      rcases entry with _ | _ | _ | _ | _ | _ | ⟨_ | _, _⟩ | _ <;>
        simp [NodeEntry.key, payment_key_eq, payment_prefix_key, peer_key]
    rw [Entry.key, hhead _ hk.1]
    exact hk.2
  | wallet entry => cases entry <;> decide

theorem entry_key_not_setting (entry : Entry) : entry.key no_password ∉ setting_keys := by
  intro h
  have hhead := entry_key_head entry
  have hall : ∀ key ∈ setting_keys, key.toList.head? = some 'M' := by decide
  exact hhead (hall _ h)

theorem mem_setting_keys :
    network_setting ∈ setting_keys ∧ proxy_setting ∈ setting_keys ∧ esplora_setting ∈ setting_keys := by
  simp [setting_keys]

theorem network_setting_ne : network_setting ≠ proxy_setting ∧ network_setting ≠ esplora_setting ∧
    network_setting ≠ "__proto__" := by
  decide

/-! ## What the steps do to the storage -/

section
variable {α : Type} {content : Network → Entry → α → String}

theorem WrittenFor.insert_setting {network : Network} {items : AList fun _ : String => String} {key : String}
    (h : WrittenFor content network items) (hk : key ∈ setting_keys) (text : String) :
    WrittenFor content network (items.insert key text) := by
  intro other text' hl
  by_cases he : other = key
  · exact .inl (he ▸ hk)
  · rw [AList.lookup_insert_ne he] at hl
    exact h other text' hl

theorem WrittenFor.insert_entry {network : Network} {items : AList fun _ : String => String}
    (h : WrittenFor content network items) (entry : Entry) (value : α) :
    WrittenFor content network (items.insert (entry.key no_password) (content network entry value)) := by
  intro other text hl
  by_cases he : other = entry.key no_password
  · subst he
    rw [AList.lookup_insert] at hl
    exact .inr ⟨entry, value, rfl, (Option.some.inj hl).symm⟩
  · rw [AList.lookup_insert_ne he] at hl
    exact h other text hl

theorem WrittenFor.of_le {network : Network} {items others : AList fun _ : String => String}
    (h : WrittenFor content network items) (hle : ∀ key text, others.lookup key = some text → items.lookup key = some text) :
    WrittenFor content network others := fun key text hl => h key text (hle key text hl)

theorem writtenFor_settings {items : AList fun _ : String => String} (h : ∀ key ∈ items, key ∈ setting_keys)
    (network : Network) : WrittenFor content network items := by
  intro key text hl
  exact .inl (h key (AList.lookup_isSome.mp (by rw [hl]; rfl)))

theorem tidy_empty : Tidy content ∅ := .inl fun key h => absurd h (AList.notMem_empty key)

theorem Tidy.writtenFor {items : AList fun _ : String => String} {network : Network} (h : Tidy content items)
    (hn : network_of items = some network) : WrittenFor content network items := by
  rcases h with h | ⟨other, ho, h⟩
  · exact writtenFor_settings h network
  · rw [hn] at ho
    cases ho
    exact h

/-- A setting is written, and the network only if it is the one that was set, or none was. -/
theorem Tidy.insert_setting {items : AList fun _ : String => String} {key text : String} (h : Tidy content items)
    (hk : key ∈ setting_keys) (hn : key = network_setting → ∀ network, network_of items = some network →
      Network.parse text = some network) : Tidy content (items.insert key text) := by
  rcases h with h | ⟨network, hnet, h⟩
  · refine .inl fun other ho => ?_
    rcases (AList.mem_insert _).mp ho with rfl | ho
    · exact hk
    · exact h other ho
  · refine .inr ⟨network, ?_, h.insert_setting hk text⟩
    by_cases he : key = network_setting
    · subst he
      rw [network_of, AList.lookup_insert]
      exact hn rfl network hnet
    · rw [network_of, AList.lookup_insert_ne (Ne.symm he)]
      exact hnet

theorem Tidy.of_le {items others : AList fun _ : String => String} (h : Tidy content items)
    (hle : ∀ key text, others.lookup key = some text → items.lookup key = some text)
    (hn : network_of others = network_of items) : Tidy content others := by
  rcases h with h | ⟨network, hnet, h⟩
  · refine .inl fun key hk => ?_
    obtain ⟨text, ht⟩ := Option.isSome_iff_exists.mp (AList.lookup_isSome.mpr hk)
    exact h key (AList.lookup_isSome.mp (by rw [hle key text ht]; rfl))
  · exact .inr ⟨network, hn.trans hnet, h.of_le hle⟩

theorem network_of_insert (items : AList fun _ : String => String) {key : String} (text : String)
    (hk : key ≠ network_setting) : network_of (items.insert key text) = network_of items := by
  rw [network_of, AList.lookup_insert_ne (Ne.symm hk), network_of]

/-- What writing settings over a storage keeps: `network` may be set over what it holds. -/
structure Setting (content : Network → Entry → α → String) (before : AList fun _ : String => String) (network : String)
    (items : AList fun _ : String => String) : Prop where
  tidy : Tidy content items
  kept : ∀ n, network_of before = some n → network_of items = some n
  same : ∀ n, network_of items = some n → Network.parse network = some n

theorem Setting.insert_network {before items : AList fun _ : String => String} {network : String}
    (h : Setting content before network items) : Setting content before network (items.insert network_setting network) := by
  have hnet : network_of (items.insert network_setting network) = Network.parse network := by
    rw [network_of, AList.lookup_insert]
    rfl
  refine ⟨h.tidy.insert_setting mem_setting_keys.1 fun _ => h.same, fun n hn => ?_, fun n hn => hnet ▸ hn⟩
  rw [hnet]
  exact h.same n (h.kept n hn)

theorem Setting.insert_other {before items : AList fun _ : String => String} {network key : String}
    (h : Setting content before network items) (hk : key ∈ setting_keys) (hne : key ≠ network_setting) (text : String) :
    Setting content before network (items.insert key text) := by
  have hnet := network_of_insert items text hne
  exact ⟨h.tidy.insert_setting hk fun he => absurd he hne, fun n hn => hnet.trans (h.kept n hn),
    fun n hn => h.same n (hnet ▸ hn)⟩

end

def Keeping (P : (AList fun _ : String => String) → Prop) (s t : Store) : Prop := P s.items → P t.items

instance (P : (AList fun _ : String => String) → Prop) : IsPreorder Store (Keeping P) where
  refl _ := id
  trans _ _ _ h h' := h' ∘ h

theorem within_set_item {P : (AList fun _ : String => String) → Prop} {key text : String}
    (h : ∀ items, P items → P (items.insert key text)) (host : Host) :
    Within (Keeping P) (set_item host key text) := by
  intro s hs
  rw [exec_set_item]
  split
  · exact hs
  · exact h _ hs

section
variable {env settings : NodeManagerSettingStrings} {host : Host}

theorem settings_keep {P : (AList fun _ : String => String) → Prop} {store : Store} {network proxy esplora : String}
    (h : chosen_settings settings (get_existing_settings env store.items) = some (network, proxy, esplora))
    (hnetwork : ∀ items, P items → P (items.insert network_setting network))
    (hproxy : ∀ items, P items → P (items.insert proxy_setting proxy))
    (hesplora : ∀ items, P items → P (items.insert esplora_setting esplora)) (h₀ : P store.items) :
    P (exec (set_and_get_mutiny_settings env host settings) store).2.items := by
  unfold set_and_get_mutiny_settings
  simp only [exec_get_bind, h]
  have hwithin := (within_set_item hnetwork host).bind fun _ => (within_set_item hproxy host).bind fun _ =>
    (within_set_item hesplora host).bind fun _ => within_pure (network, proxy, esplora)
  exact hwithin store h₀

theorem exec_settings_none {store : Store}
    (h : chosen_settings settings (get_existing_settings env store.items) = none) :
    exec (set_and_get_mutiny_settings env host settings) store = (.error missing_setting, store) := by
  unfold set_and_get_mutiny_settings
  simp only [exec_get_bind, h]
  rfl

theorem set_item_ok {key text : String} {s t : Store} (h : exec (set_item host key text) s = (.ok (), t)) :
    t.items = s.items.insert key text := by
  rw [exec_set_item] at h
  split at h
  · cases h
  · cases h
    rfl

theorem settings_written {store t : Store} {network proxy esplora : String}
    (h : exec (set_and_get_mutiny_settings env host settings) store = (.ok (network, proxy, esplora), t)) :
    chosen_settings settings (get_existing_settings env store.items) = some (network, proxy, esplora) ∧
      network_of t.items = Network.parse network := by
  cases hc : chosen_settings settings (get_existing_settings env store.items) with
  | none =>
    rw [exec_settings_none hc] at h
    cases h
  | some chosen =>
    obtain ⟨n, p, e⟩ := chosen
    unfold set_and_get_mutiny_settings at h
    simp only [exec_get_bind, hc] at h
    obtain ⟨⟨⟩, s₁, h₁, h⟩ := exec_bind_eq_ok h
    obtain ⟨⟨⟩, s₂, h₂, h⟩ := exec_bind_eq_ok h
    obtain ⟨⟨⟩, s₃, h₃, h⟩ := exec_bind_eq_ok h
    cases h
    refine ⟨rfl, ?_⟩
    rw [set_item_ok h₃, network_of_insert _ _ (Ne.symm network_setting_ne.2.1), set_item_ok h₂,
      network_of_insert _ _ (Ne.symm network_setting_ne.1), set_item_ok h₁, network_of, AList.lookup_insert]
    rfl

end

/-! ## What the steps keep -/

section
variable {α : Type} {content : Network → Entry → α → String} {env : NodeManagerSettingStrings}

/-- The network of the storage is not overwritten with another. -/
def SameNetwork (env settings : NodeManagerSettingStrings) (items : AList fun _ : String => String) : Prop :=
  ∀ network proxy esplora, chosen_settings settings (get_existing_settings env items) = some (network, proxy, esplora) →
    ∀ n, network_of items = some n → Network.parse network = some n

theorem sound_setup {browser : Browser} (h : browser.Sound content) (host : Host) (tab : Nat)
    {settings : NodeManagerSettingStrings} (hagree : SameNetwork env settings browser.store.items) :
    (setup env host tab settings browser).Sound content := by
  have hset : Tidy content (exec (set_and_get_mutiny_settings env host settings) browser.store).2.items ∧
      ∀ n, network_of browser.store.items = some n →
        network_of (exec (set_and_get_mutiny_settings env host settings) browser.store).2.items = some n := by
    cases hc : chosen_settings settings (get_existing_settings env browser.store.items) with
    | none =>
      rw [exec_settings_none hc]
      exact ⟨h.tidy, fun _ hn => hn⟩
    | some chosen =>
      obtain ⟨network, proxy, esplora⟩ := chosen
      have hkeep : Setting content browser.store.items network
          (exec (set_and_get_mutiny_settings env host settings) browser.store).2.items :=
        settings_keep hc (fun _ hs => hs.insert_network)
          (fun _ hs => hs.insert_other mem_setting_keys.2.1 (Ne.symm network_setting_ne.1) _)
          (fun _ hs => hs.insert_other mem_setting_keys.2.2 (Ne.symm network_setting_ne.2.1) _)
          ⟨h.tidy, fun _ hn => hn, hagree network proxy esplora hc⟩
      exact ⟨hkeep.tidy, hkeep.kept⟩
  have hold : ∀ m ∈ browser.managers,
      m.Sound content (exec (set_and_get_mutiny_settings env host settings) browser.store).2.items :=
    fun m hm => ⟨(h.managers m hm).1, fun hc => hset.2 _ ((h.managers m hm).2 hc)⟩
  unfold setup
  rcases hrun : exec (set_and_get_mutiny_settings env host settings) browser.store with ⟨_ | ⟨network, proxy, esplora⟩, store⟩
  · rw [hrun] at hset hold
    exact ⟨hset.1, hold⟩
  · rw [hrun] at hset hold
    have hnet := (settings_written hrun).2
    cases hparse : Network.parse network with
    | none =>
      simp only [hparse]
      exact ⟨hset.1, hold⟩
    | some n =>
      rw [hparse] at hnet
      simp only [hparse]
      refine ⟨hset.1, fun m hm => ?_⟩
      rcases List.mem_append.mp hm with hm | hm
      · exact hold m hm
      · rw [List.mem_singleton.mp hm]
        exact ⟨hset.1.writtenFor hnet, fun _ => hnet⟩

theorem sound_close {browser : Browser} (h : browser.Sound content) (tab : Nat) : (browser.close tab).Sound content :=
  ⟨h.tidy, fun m hm => h.managers m (List.mem_of_mem_filter hm)⟩

theorem sound_replace {browser : Browser} {store : Store} (h : browser.Sound content) (ht : Tidy content store.items) :
    (browser.replace store).Sound content := by
  refine ⟨ht, fun m hm => ?_⟩
  obtain ⟨m', hm', rfl⟩ := List.mem_map.mp hm
  exact ⟨(h.managers m' hm').1, fun hc => by cases hc⟩

/-- A page that is loaded takes the network that the storage names. -/
theorem sameNetwork_load (items : AList fun _ : String => String) : SameNetwork env no_settings items := by
  intro network proxy esplora hc n hn
  obtain ⟨text, htext, hparse⟩ := Option.bind_eq_some_iff.mp hn
  have hne : text ≠ "" := by
    rintro rfl
    cases hparse
  have hor : or_text no_settings.network (get_existing_settings env items).network = some text := by
    simp [or_text, no_settings, get_existing_settings, htext, hne]
  simp only [chosen_settings, hor, Option.bind_eq_bind, Option.bind_eq_some_iff] at hc
  obtain ⟨network', hnet, proxy', -, esplora', -, he⟩ := hc
  simp only [Option.filter_some, hne, ne_eq, not_false_eq_true, decide_true, if_true, Option.some.injEq] at hnet
  cases he
  rw [← hnet]
  exact hparse

theorem sameNetwork_empty (settings : NodeManagerSettingStrings) : SameNetwork env settings ∅ := by
  intro network proxy esplora _ n hn
  cases hn

theorem sound_load {browser : Browser} (h : browser.Sound content) (host : Host) (tab : Nat) :
    (load env host tab browser).Sound content :=
  sound_setup (sound_close h tab) host tab (sameNetwork_load _)

theorem sound_clear_state {browser : Browser} (h : browser.Sound content) (tab : Nat) (confirmed : Bool) :
    (handle_clear_state tab confirmed browser).Sound content := by
  unfold handle_clear_state
  split
  · exact sound_close (sound_replace h tidy_empty) tab
  · exact h

theorem sound_save_settings {browser : Browser} (h : browser.Sound content) (host : Host) (tab : Nat)
    (settings : NodeManagerSettingStrings) (confirmed : Bool) :
    (handle_save_settings env host tab settings confirmed browser).Sound content := by
  unfold handle_save_settings
  split
  · exact h
  · split
    · exact sound_setup (sound_replace h tidy_empty) host tab (sameNetwork_empty settings)
    · exact sound_close h tab

theorem sound_write {browser : Browser} (h : browser.Sound content) (host : Host) {m : LiveManager}
    (hm : m ∈ browser.managers) (hc : m.cleared = false) (entry : Entry) (value : α) :
    (manager_write host (entry.key no_password) (content m.network entry value) browser).Sound content := by
  have hnet := (h.managers m hm).2 hc
  have hne : entry.key no_password ≠ network_setting := fun he =>
    entry_key_not_setting entry (he ▸ mem_setting_keys.1)
  unfold manager_write
  rw [exec_set_item]
  split
  · exact ⟨h.tidy, h.managers⟩
  · have hins := network_of_insert browser.store.items (content m.network entry value) hne
    exact ⟨.inr ⟨m.network, hins.trans hnet, (h.tidy.writtenFor hnet).insert_entry entry value⟩,
      fun m' hm' => ⟨(h.managers m' hm').1, fun hc' => hins.trans ((h.managers m' hm').2 hc')⟩⟩

theorem sound_delete {browser : Browser} (h : browser.Sound content) (entry : Entry) :
    (manager_delete (entry.key no_password) browser).Sound content := by
  have hne : network_setting ≠ entry.key no_password := fun he =>
    entry_key_not_setting entry (he ▸ mem_setting_keys.1)
  have hnet : network_of (browser.store.items.erase (entry.key no_password)) = network_of browser.store.items := by
    rw [network_of, AList.lookup_erase_ne hne, network_of]
  have hle : ∀ key text, (browser.store.items.erase (entry.key no_password)).lookup key = some text →
      browser.store.items.lookup key = some text := by
    intro key text hl
    by_cases he : key = entry.key no_password
    · subst he
      rw [AList.lookup_erase] at hl
      cases hl
    · rwa [AList.lookup_erase_ne he] at hl
  exact ⟨h.tidy.of_le hle hnet, fun m hm => ⟨(h.managers m hm).1, fun hc => hnet.trans ((h.managers m hm).2 hc)⟩⟩

theorem tidy_restored {saved : AList fun _ : String => String} (h : Tidy content saved) :
    Tidy content (copy saved ∅ (restored_keys saved)) := by
  have hlookup : ∀ key, (copy saved ∅ (restored_keys saved)).lookup key =
      if key ∈ restored_keys saved then saved.lookup key else none := by
    intro key
    have hpart := lookup_partly saved (restored_keys saved).length key
    rwa [List.take_length] at hpart
  refine h.of_le (fun key text hl => ?_) ?_
  · rw [hlookup] at hl
    split at hl
    · exact hl
    · cases hl
  · rw [network_of, network_of, hlookup]
    split
    · rfl
    · next hn =>
      have hnone : saved.lookup network_setting = none :=
        AList.lookup_eq_none.mpr fun hm => hn (mem_restored_keys.mpr ⟨hm, network_setting_ne.2.2⟩)
      rw [hnone]

theorem sound_upload {browser : Browser} {saved : AList fun _ : String => String} (h : browser.Sound content)
    (ht : Tidy content saved) (number_text : Json.Number → String) (host : Host) (tab : Nat) (confirmed : Bool)
    (hq : (exec (handle_file_choose number_text host (handle_save saved) confirmed) browser.store).1 ≠
      .error .QuotaExceededError) :
    (upload number_text host tab (handle_save saved) confirmed browser).Sound content := by
  cases confirmed with
  | false =>
    obtain ⟨members, hparse, -⟩ := parse_handle_save saved
    have hrun : exec (handle_file_choose number_text host (handle_save saved) false) browser.store =
        (.ok false, browser.store) := by
      unfold handle_file_choose
      simp [hparse]
    simp only [upload, hrun]
    exact h
  | true =>
    obtain ⟨writes, hrun⟩ := exec_upload number_text host saved browser.store
    rw [hrun] at hq
    by_cases hn : accepted_writes host browser.store.writes (restored_keys saved).length = (restored_keys saved).length
    · rw [if_pos hn, hn, List.take_length] at hrun
      simp only [upload, hrun]
      exact sound_close (sound_replace h (tidy_restored ht)) tab
    · rw [if_neg hn] at hq
      exact absurd rfl hq

/-! ## The runs -/

theorem sound_change {w : Browsers} (h : w.Sound content) {b : Nat} {browser : Browser} (hb : browser.Sound content) :
    (w.change b browser).Sound content := by
  refine ⟨fun c => ?_, h.files⟩
  by_cases he : c = b
  · subst he
    simpa [Browsers.change] using hb
  · simpa [Browsers.change, he] using h.browsers c

theorem sound_step {pages : Pages α} {w w' : Browsers} {a : PageAction α} (h : w.Sound pages.content)
    (hG : pages.Orderly w a) (hs : pages.machine.step w a = some w') : w'.Sound pages.content := by
  cases a with
  | load b tab =>
    cases hs
    exact sound_change h (sound_load (h.browsers b) _ tab)
  | write b i entry value =>
    obtain ⟨m, hm, hs⟩ := Option.bind_eq_some_iff.mp hs
    cases hs
    exact sound_change h (sound_write (h.browsers b) _ (List.mem_of_getElem? hm) (hG m hm) entry value)
  | delete b i entry =>
    obtain ⟨m, hm, hs⟩ := Option.bind_eq_some_iff.mp hs
    cases hs
    exact sound_change h (sound_delete (h.browsers b) entry)
  | save b =>
    cases hs
    refine ⟨h.browsers, fun text ht => ?_⟩
    rcases List.mem_append.mp ht with ht | ht
    · exact h.files text ht
    · exact ⟨_, (h.browsers b).tidy, List.mem_singleton.mp ht⟩
  | upload b tab file confirmed =>
    obtain ⟨text, ht, hs⟩ := Option.bind_eq_some_iff.mp hs
    cases hs
    obtain ⟨saved, htidy, rfl⟩ := h.files text (List.mem_of_getElem? ht)
    exact sound_change h (sound_upload (h.browsers b) htidy _ _ tab confirmed (hG _ ht))
  | clear_state b tab confirmed =>
    cases hs
    exact sound_change h (sound_clear_state (h.browsers b) tab confirmed)
  | save_settings b tab settings confirmed =>
    cases hs
    exact sound_change h (sound_save_settings (h.browsers b) _ tab settings confirmed)

theorem sound_start : Browsers.start.Sound content :=
  ⟨fun _ => ⟨tidy_empty, fun _ hm => by cases hm⟩, fun _ ht => by cases ht⟩

/-- A node manager finds nothing that was written for another network. -/
theorem networks_apart {pages : Pages α} {as : List (PageAction α)} {w : Browsers}
    (hrun : pages.machine.run .start as = some w) (hG : pages.machine.Along pages.Orderly .start as) (b : Nat)
    {m : LiveManager} (hm : m ∈ (w.browsers b).managers) {key text : String} (hk : m.found.lookup key = some text) :
    key ∈ setting_keys ∨ ∃ entry value, key = entry.key no_password ∧ text = pages.content m.network entry value := by
  have h : w.Sound pages.content := Machine.run_invariant (fun _ _ _ => sound_step) sound_start hG hrun
  exact (((h.browsers b).managers m hm).1) key text hk

end

def settings_of (network : String) : NodeManagerSettingStrings := ⟨some network, some "ws://proxy", some "http://esplora"⟩

def two_networks : Pages String := ⟨settings_of "regtest", fun _ => open_host, fun _ => "", fun _ _ text => text⟩

/-- Another network is set, and then the backup of the first is uploaded. -/
def there_and_back : List (PageAction String) :=
  [.load 0 0, .write 0 0 (.wallet .mnemonic) "first", .save 0, .save_settings 0 0 (settings_of "signet") true, .load 0 0,
    .write 0 0 (.wallet .mnemonic) "second", .upload 0 0 0 true, .load 0 0]

theorem seed_found : ∃ w m, two_networks.machine.run .start there_and_back = some w ∧ m ∈ (w.browsers 0).managers ∧
    m.network = .Regtest ∧ m.found.lookup mnemonic_key = some "first" ∧
    (mnemonic_key ∈ setting_keys ∨ ∃ entry value, mnemonic_key = entry.key no_password ∧
      "first" = two_networks.content m.network entry value) := by
  have hfound : ((two_networks.machine.run .start there_and_back).map fun w =>
      (w.browsers 0).managers.map fun m => (m.network, m.found.lookup mnemonic_key)) = some [(.Regtest, some "first")] := by
    decide +kernel
  obtain ⟨w, hw, hmanagers⟩ := Option.map_eq_some_iff.mp hfound
  obtain ⟨m, hm, hlookup⟩ : ∃ m ∈ (w.browsers 0).managers, (m.network, m.found.lookup mnemonic_key) =
      (.Regtest, some "first") := List.mem_map.mp (by rw [hmanagers]; simp)
  obtain ⟨hnet, hlookup⟩ := Prod.mk.inj hlookup
  exact ⟨w, m, hw, hm, hnet, hlookup, networks_apart hw (by decide +kernel) 0 hm hlookup⟩

end Mutiny
