import Mutiny.BdkStorage
import Mutiny.Machine
import Mutiny.Persister

/-!
# The on-chain wallet (`wallet.rs`, `nodemanager.rs`, `event.rs`)

Whatever spends from the wallet builds and signs a transaction while it holds the wallet's lock, and broadcasts it or
hands it over afterwards. Addresses pass as texts on the way, and the text of an address on signet reads as one on testnet.
A panic is a trap that leaves the lock as it was, so the lock that was held then is never given back.
-/

namespace Mutiny

open Bitcoin

structure Address where
  script_pubkey : Script
  network : Network
  deriving DecidableEq, Repr

/-- What the builder of BDK is told to pay. -/
inductive TxBuilder where
  | add_recipient (script_pubkey : Script) (amount : UInt64)
  | drain_wallet (drain_to : Script)
  deriving DecidableEq, Repr

/-- What rust-bitcoin and BDK do; `Rate` is `f32`. -/
structure WalletCrates (Wallet Rate FeeRate Psbt Tx : Type) where
  from_str : String → Option Address
  to_string : Address → String
  /-- `WitnessProgram::from_scriptpubkey` and its address. -/
  witness_address : Script → Network → Option String
  get_address : Wallet → Option Script × Wallet
  get_internal_address : Wallet → Option Script × Wallet
  /-- `none` where it panics. -/
  from_sat_per_vb : Rate → Option FeeRate
  finish : Wallet → TxBuilder → FeeRate → Except BdkFailure Psbt × Wallet
  sign : Psbt → Except BdkFailure Psbt
  extract_tx : Psbt → Tx
  deserialize : List UInt8 → Option Tx

inductive WalletCall where
  | send_to_address (destination_address : String) (amount : UInt64)
  | sweep_wallet (destination_address : String)
  | check_address (address : String)
  | funding (output_script : Script) (channel_value_satoshis : UInt64)
  | spendable_outputs
  | broadcast_transaction (str : String)
  deriving DecidableEq, Repr

/-- The lock is held over the awaits of `sync` and while the fee rate of a transaction is asked for. A `sync` is one step,
as all else that uses the wallet waits for it. -/
inductive Lock where
  | free
  | held (call : WalletCall) (builder : TxBuilder)
  | lost
  deriving DecidableEq, Repr

structure OnChain (Wallet Tx : Type) where
  wallet : Wallet
  lock : Lock
  /-- The texts of the addresses that were given out. -/
  addresses : List String
  unsent : List (WalletCall × Tx)
  sent : List (WalletCall × Tx)
  /-- What LDK was given for channels. -/
  funded : List Tx
  /-- What the front end was answered. -/
  replies : List (WalletCall × Except MutinyJsError Unit)

namespace OnChain

variable {Wallet Rate FeeRate Psbt Tx : Type} (crates : WalletCrates Wallet Rate FeeRate Psbt Tx) (network : Network)

def new (wallet : Wallet) : OnChain Wallet Tx := ⟨wallet, .free, [], [], [], [], []⟩

def reply (call : WalletCall) (r : Except MutinyJsError Unit) (s : OnChain Wallet Tx) : OnChain Wallet Tx :=
  { s with replies := s.replies ++ [(call, r)] }

/-- Events have nobody to answer to, and a raw transaction was answered when its broadcast began. -/
def answer (call : WalletCall) (r : Except MutinyError Unit) (s : OnChain Wallet Tx) : OnChain Wallet Tx :=
  match call with
  | .send_to_address .. | .sweep_wallet .. => s.reply call (r.mapError .from_mutiny)
  | _ => s

def hand_over (call : WalletCall) (tx : Tx) (s : OnChain Wallet Tx) : OnChain Wallet Tx :=
  match call with
  | .funding .. => { s with funded := s.funded ++ [tx] }
  | _ => { s with unsent := s.unsent ++ [(call, tx)] }

/-- The rest of `create_signed_psbt` and `create_sweep_psbt`, and the transaction. -/
def build (call : WalletCall) (builder : TxBuilder) (fee_rate : FeeRate) (s : OnChain Wallet Tx) : OnChain Wallet Tx :=
  let (psbt, wallet) := crates.finish s.wallet builder fee_rate
  let s := { s with wallet, lock := .free }
  match psbt with
  | .error e => s.answer call (.error (.from_bdk e))
  | .ok psbt =>
    match crates.sign psbt with
    | .error e => s.answer call (.error (.from_bdk e))
    | .ok psbt => s.hand_over call (crates.extract_tx psbt)

/-- `none` while the lock is taken. -/
def create_psbt (call : WalletCall) (send_to : Address) (builder : TxBuilder) (fee_rate : Option Rate)
    (s : OnChain Wallet Tx) : Option (OnChain Wallet Tx) :=
  if s.lock ≠ .free then none
  else if send_to.network ≠ network then some (s.answer call (.error .IncorrectNetwork))
  else
    match fee_rate with
    | some rate =>
      match crates.from_sat_per_vb rate with
      | none => some { s with lock := .lost }
      | some fee_rate => some (s.build crates call builder fee_rate)
    | none => some { s with lock := .held call builder }

def create_signed_psbt (call : WalletCall) (send_to : Address) (amount : UInt64) (fee_rate : Option Rate)
    (s : OnChain Wallet Tx) : Option (OnChain Wallet Tx) :=
  s.create_psbt crates network call send_to (.add_recipient send_to.script_pubkey amount) fee_rate

def create_sweep_psbt (call : WalletCall) (destination_address : Address) (fee_rate : Option Rate)
    (s : OnChain Wallet Tx) : Option (OnChain Wallet Tx) :=
  s.create_psbt crates network call destination_address (.drain_wallet destination_address.script_pubkey) fee_rate

/-- What `estimate_fee` gives for the transaction that waits for it. -/
def estimated (fee_rate : Option FeeRate) (s : OnChain Wallet Tx) : Option (OnChain Wallet Tx) :=
  match s.lock with
  | .held call builder =>
    match fee_rate with
    | none => some ({ s with lock := .free }.answer call (.error (.from_bdk .Other)))
    | some fee_rate => some (s.build crates call builder fee_rate)
  | .free | .lost => none

/-! ## `nodemanager.rs` -/

def get_new_address (s : OnChain Wallet Tx) : Option (OnChain Wallet Tx) :=
  if s.lock ≠ .free then none
  else
    match crates.get_address s.wallet with
    | (none, wallet) => some { s with wallet }
    | (some script, wallet) =>
      some { s with wallet, addresses := s.addresses ++ [crates.to_string ⟨script, network⟩] }

/-- The address that a text is on the network of the node manager. -/
def destination (text : String) : Except MutinyJsError Address :=
  match crates.from_str text with
  | none => .error .JsonReadWriteError
  | some send_to => if send_to.network ≠ network then .error .IncorrectNetwork else .ok send_to

def send_to_address (destination_address : String) (amount : UInt64) (fee_rate : Option Rate) (s : OnChain Wallet Tx) :
    Option (OnChain Wallet Tx) :=
  let call := .send_to_address destination_address amount
  match destination crates network destination_address with
  | .error e => some (s.reply call (.error e))
  | .ok send_to => s.create_signed_psbt crates network call send_to amount fee_rate

def sweep_wallet (destination_address : String) (fee_rate : Option Rate) (s : OnChain Wallet Tx) :
    Option (OnChain Wallet Tx) :=
  let call := .sweep_wallet destination_address
  match destination crates network destination_address with
  | .error e => some (s.reply call (.error e))
  | .ok send_to => s.create_sweep_psbt crates network call send_to fee_rate

/-- `answered` is whether Esplora gave the transactions of the address. -/
def check_address (address : String) (answered : Bool) (s : OnChain Wallet Tx) : OnChain Wallet Tx :=
  s.reply (.check_address address) do
    let _ ← destination crates network address
    if answered then return () else throw .ChainAccessFailed

def broadcast_transaction (str : String) (s : OnChain Wallet Tx) : OnChain Wallet Tx :=
  let call := .broadcast_transaction str
  match (Hex.from_hex str).bind crates.deserialize with
  | none => s.reply call (.error (.from_mutiny .WalletOperationFailed))
  | some tx => { s with unsent := s.unsent ++ [(call, tx)] }.reply call (.ok ())

/-! ## `event.rs` -/

/-- Where the script is no witness program or the address cannot be read, the handler panics without the lock. -/
def funding_generation_ready (output_script : Script) (channel_value_satoshis : UInt64) (s : OnChain Wallet Tx) :
    Option (OnChain Wallet Tx) :=
  match (crates.witness_address output_script network).bind crates.from_str with
  | none => some s
  | some address => s.create_signed_psbt crates network (.funding output_script channel_value_satoshis) address
      channel_value_satoshis none

/-- `spending_tx` is what the keys manager makes of the outputs, and with none the handler panics without the lock. -/
def spendable_outputs (spending_tx : Option Tx) (s : OnChain Wallet Tx) : Option (OnChain Wallet Tx) :=
  if s.lock ≠ .free then none
  else
    match crates.get_internal_address s.wallet with
    | (none, wallet) => some { s with wallet, lock := .lost }
    | (some _, wallet) =>
      match spending_tx with
      | none => some { s with wallet }
      | some tx => some { s with wallet, unsent := s.unsent ++ [(.spendable_outputs, tx)] }

/-! ## Runs -/

inductive WalletAction (Wallet Rate FeeRate Tx : Type) where
  | get_new_address
  | send_to_address (destination_address : String) (amount : UInt64) (fee_rate : Option Rate)
  | sweep_wallet (destination_address : String) (fee_rate : Option Rate)
  | check_address (address : String) (answered : Bool)
  | funding (output_script : Script) (channel_value_satoshis : UInt64)
  | spendable_outputs (spending_tx : Option Tx)
  | estimated (fee_rate : Option FeeRate)
  | broadcast_transaction (str : String)
  | broadcast (i : Nat) (accepted : Bool)
  | sync (wallet : Wallet)
  | read

/-- The transactions are broadcast in any order. -/
def broadcast (i : Nat) (accepted : Bool) (s : OnChain Wallet Tx) : Option (OnChain Wallet Tx) := do
  let entry ← s.unsent[i]?
  let s := { s with unsent := s.unsent.eraseIdx i }
  return if accepted then { s with sent := s.sent ++ [entry] }.answer entry.1 (.ok ())
    else s.answer entry.1 (.error (.from_bdk .Other))

def machine : Machine (OnChain Wallet Tx) (WalletAction Wallet Rate FeeRate Tx) where
  step s
    | .get_new_address => s.get_new_address crates network
    | .send_to_address text amount fee_rate => s.send_to_address crates network text amount fee_rate
    | .sweep_wallet text fee_rate => s.sweep_wallet crates network text fee_rate
    | .check_address text answered => some (s.check_address crates network text answered)
    | .funding script amount => s.funding_generation_ready crates network script amount
    | .spendable_outputs tx => s.spendable_outputs crates tx
    | .estimated fee_rate => s.estimated crates fee_rate
    | .broadcast_transaction str => some (s.broadcast_transaction crates str)
    | .broadcast i accepted => s.broadcast i accepted
    | .sync wallet => if s.lock ≠ .free then none else some { s with wallet }
    -- The balance, the outputs and the transactions of the wallet.
    | .read => if s.lock ≠ .free then none else some s

/-! ## What is not in the repository -/

end OnChain

/-- `tb` may also be signet, but it is read as testnet. -/
def Network.as_read : Network → Network
  | .Signet => .Testnet
  | network => network

structure WalletCrates.Documented {Wallet Rate FeeRate Psbt Tx : Type}
    (crates : WalletCrates Wallet Rate FeeRate Psbt Tx) : Prop where
  from_str_network : ∀ text address, crates.from_str text = some address → address.network ≠ .Signet
  from_to_string : ∀ wallet script wallet' network, crates.get_address wallet = (some script, wallet') →
    crates.from_str (crates.to_string ⟨script, network⟩) = some ⟨script, network.as_read⟩
  from_witness_address : ∀ script network text, crates.witness_address script network = some text →
    crates.from_str text = some ⟨script, network.as_read⟩

theorem Network.as_read_eq {network : Network} (h : network ≠ .Signet) : network.as_read = network := by
  cases network with
  | Signet => exact absurd rfl h
  | Bitcoin | Testnet | Regtest => rfl

namespace OnChain

section
variable {Wallet Rate FeeRate Psbt Tx : Type} {crates : WalletCrates Wallet Rate FeeRate Psbt Tx} {network : Network}

/-! ## What the steps leave -/

@[simp] theorem reply_lock (s : OnChain Wallet Tx) (call : WalletCall) (r : Except MutinyJsError Unit) :
    (s.reply call r).lock = s.lock := rfl

@[simp] theorem reply_addresses (s : OnChain Wallet Tx) (call : WalletCall) (r : Except MutinyJsError Unit) :
    (s.reply call r).addresses = s.addresses := rfl

@[simp] theorem answer_lock (s : OnChain Wallet Tx) (call : WalletCall) (r : Except MutinyError Unit) :
    (s.answer call r).lock = s.lock := by
  cases call <;> rfl

@[simp] theorem answer_addresses (s : OnChain Wallet Tx) (call : WalletCall) (r : Except MutinyError Unit) :
    (s.answer call r).addresses = s.addresses := by
  cases call <;> rfl

@[simp] theorem hand_over_lock (s : OnChain Wallet Tx) (call : WalletCall) (tx : Tx) :
    (s.hand_over call tx).lock = s.lock := by
  cases call <;> rfl

@[simp] theorem hand_over_addresses (s : OnChain Wallet Tx) (call : WalletCall) (tx : Tx) :
    (s.hand_over call tx).addresses = s.addresses := by
  cases call <;> rfl

variable (crates) in
theorem build_frame (s : OnChain Wallet Tx) (call : WalletCall) (builder : TxBuilder) (fee_rate : FeeRate) :
    (s.build crates call builder fee_rate).lock = .free ∧
      (s.build crates call builder fee_rate).addresses = s.addresses := by
  unfold build
  rcases crates.finish s.wallet builder fee_rate with ⟨e | psbt, wallet⟩
  · simp
  · cases hp : crates.sign psbt <;> simp [hp]

/-- What asking for a transaction does: nothing while the lock is taken, and the lock is lost to a bad fee rate only. -/
theorem create_psbt_frame {s t : OnChain Wallet Tx} {call : WalletCall} {send_to : Address} {builder : TxBuilder}
    {fee_rate : Option Rate} (h : s.create_psbt crates network call send_to builder fee_rate = some t) :
    s.lock = .free ∧ t.addresses = s.addresses ∧
      (t.lock = .lost ↔ send_to.network = network ∧ ∃ rate, fee_rate = some rate ∧ crates.from_sat_per_vb rate = none) := by
  unfold create_psbt at h
  by_cases hl : s.lock = .free
  · rw [if_neg (not_not.mpr hl)] at h
    by_cases hn : send_to.network = network
    · rw [if_neg (not_not.mpr hn)] at h
      cases fee_rate with
      | none =>
        cases h
        simp [hl]
      | some rate =>
        cases hr : crates.from_sat_per_vb rate with
        | none =>
          simp only [hr, Option.some.injEq] at h
          subst h
          simp [hl, hn, hr]
        | some fee_rate =>
          simp only [hr, Option.some.injEq] at h
          obtain ⟨hlock, haddresses⟩ := build_frame crates s call builder fee_rate
          subst h
          simp [hl, hr, hlock, haddresses]
    · rw [if_pos hn] at h
      cases h
      simp [hl, hn]
  · simp [hl] at h

theorem mem_out_push {s : OnChain Wallet Tx} {entry e : WalletCall × Tx} (h : e ∈ (s.unsent ++ [entry]) ++ s.sent) :
    e ∈ s.unsent ++ s.sent ∨ e = entry := by
  simp only [List.mem_append, List.mem_singleton] at h ⊢
  tauto

/-- What a broadcast does: the transaction was sent or is gone, and its call is answered. -/
theorem broadcast_cases {s t : OnChain Wallet Tx} {i : Nat} {accepted : Bool} (h : s.broadcast i accepted = some t) :
    ∃ entry ∈ s.unsent, ∃ unsent sent r, (∀ e ∈ unsent ++ sent, e ∈ s.unsent ++ s.sent) ∧
      t = ({ s with unsent, sent } : OnChain Wallet Tx).answer entry.1 r := by
  unfold OnChain.broadcast at h
  cases he : s.unsent[i]? with
  | none => simp [he] at h
  | some entry =>
    have hmem : entry ∈ s.unsent := List.mem_of_getElem? he
    simp only [he, Option.bind_eq_bind, Option.bind_some, Option.pure_def, Option.some.injEq] at h
    cases accepted with
    | true =>
      refine ⟨entry, hmem, s.unsent.eraseIdx i, s.sent ++ [entry], .ok (), fun e hm => ?_, h.symm⟩
      simp only [List.mem_append, List.mem_singleton] at hm ⊢
      rcases hm with hm | hm | rfl
      · exact .inl (List.mem_of_mem_eraseIdx hm)
      · exact .inr hm
      · exact .inl hmem
    | false =>
      refine ⟨entry, hmem, s.unsent.eraseIdx i, s.sent, .error (.from_bdk .Other), fun e hm => ?_, h.symm⟩
      simp only [List.mem_append] at hm ⊢
      exact hm.imp_left List.mem_of_mem_eraseIdx

/-- What a send does: the text is refused, or a transaction to its address is asked for. -/
theorem send_to_address_cases {s t : OnChain Wallet Tx} {text : String} {amount : UInt64} {fee_rate : Option Rate}
    (h : s.send_to_address crates network text amount fee_rate = some t) :
    (∃ e, destination crates network text = .error e ∧ t = s.reply (.send_to_address text amount) (.error e)) ∨
      ∃ send_to builder, destination crates network text = .ok send_to ∧
        s.create_psbt crates network (.send_to_address text amount) send_to builder fee_rate = some t := by
  unfold OnChain.send_to_address at h
  cases hd : destination crates network text with
  | error e =>
    simp only [hd, Option.some.injEq] at h
    exact .inl ⟨e, rfl, h.symm⟩
  | ok send_to =>
    simp only [hd] at h
    exact .inr ⟨send_to, _, rfl, h⟩

theorem sweep_wallet_cases {s t : OnChain Wallet Tx} {text : String} {fee_rate : Option Rate}
    (h : s.sweep_wallet crates network text fee_rate = some t) :
    (∃ e, destination crates network text = .error e ∧ t = s.reply (.sweep_wallet text) (.error e)) ∨
      ∃ send_to builder, destination crates network text = .ok send_to ∧
        s.create_psbt crates network (.sweep_wallet text) send_to builder fee_rate = some t := by
  unfold OnChain.sweep_wallet at h
  cases hd : destination crates network text with
  | error e =>
    simp only [hd, Option.some.injEq] at h
    exact .inl ⟨e, rfl, h.symm⟩
  | ok send_to =>
    simp only [hd] at h
    exact .inr ⟨send_to, _, rfl, h⟩

theorem funding_cases {s t : OnChain Wallet Tx} {script : Script} {amount : UInt64}
    (h : s.funding_generation_ready crates network script amount = some t) :
    t = s ∨ ∃ text address builder, crates.witness_address script network = some text ∧
      crates.from_str text = some address ∧
      s.create_psbt crates network (.funding script amount) address builder none = some t := by
  unfold OnChain.funding_generation_ready at h
  cases hw : crates.witness_address script network with
  | none =>
    simp only [hw, Option.bind_none, Option.some.injEq] at h
    exact .inl h.symm
  | some text =>
    cases hf : crates.from_str text with
    | none =>
      simp only [hw, Option.bind_some, hf, Option.some.injEq] at h
      exact .inl h.symm
    | some address =>
      simp only [hw, Option.bind_some, hf] at h
      exact .inr ⟨text, address, _, rfl, hf, h⟩

variable (crates) in
theorem broadcast_transaction_cases (s : OnChain Wallet Tx) (str : String) :
    ∃ unsent r, (∀ e ∈ unsent ++ s.sent, e ∈ s.unsent ++ s.sent ∨ e.1 = .broadcast_transaction str) ∧
      s.broadcast_transaction crates str =
        ({ s with unsent } : OnChain Wallet Tx).reply (.broadcast_transaction str) r := by
  unfold OnChain.broadcast_transaction
  cases hb : (Hex.from_hex str).bind crates.deserialize with
  | none => exact ⟨s.unsent, _, fun _ hm => .inl hm, rfl⟩
  | some tx =>
    refine ⟨s.unsent ++ [(.broadcast_transaction str, tx)], _, fun e hm => ?_, rfl⟩
    rcases mem_out_push hm with hm | rfl
    · exact .inl hm
    · exact .inr rfl

theorem destination_ok {text : String} {send_to : Address} (h : destination crates network text = .ok send_to) :
    crates.from_str text = some send_to ∧ send_to.network = network := by
  unfold destination at h
  cases hf : crates.from_str text with
  | none => simp [hf] at h
  | some address =>
    simp only [hf] at h
    split at h
    · cases h
    · next hn =>
      cases h
      exact ⟨rfl, not_not.mp hn⟩

/-- A text that was given out is the text of an address of the wallet. -/
def GivenOut (crates : WalletCrates Wallet Rate FeeRate Psbt Tx) (network : Network) (text : String) : Prop :=
  ∃ wallet script wallet', crates.get_address wallet = (some script, wallet') ∧ text = crates.to_string ⟨script, network⟩

/-- The step meets no panic under the lock: a fee rate that is given is one, and an address for what a channel leaves can
be had. -/
def Careful (crates : WalletCrates Wallet Rate FeeRate Psbt Tx) (network : Network) (s : OnChain Wallet Tx) :
    WalletAction Wallet Rate FeeRate Tx → Prop
  | .send_to_address text _ (some rate) | .sweep_wallet text (some rate) =>
    (∃ send_to, destination crates network text = .ok send_to) → ∃ fee_rate, crates.from_sat_per_vb rate = some fee_rate
  | .spendable_outputs _ => ∃ script, (crates.get_internal_address s.wallet).1 = some script
  | _ => True

theorem Careful.of_refused {s : OnChain Wallet Tx} {text : String} {e : MutinyJsError}
    (h : destination crates network text = .error e) (amount : UInt64) (fee_rate : Option Rate) :
    Careful crates network s (.send_to_address text amount fee_rate) ∧
      Careful crates network s (.sweep_wallet text fee_rate) := by
  cases fee_rate with
  | none => exact ⟨trivial, trivial⟩
  | some rate =>
    have hno : ¬ ∃ send_to, destination crates network text = .ok send_to := by simp [h]
    exact ⟨fun hd => absurd hd hno, fun hd => absurd hd hno⟩

theorem careful_iff {s : OnChain Wallet Tx} {text : String} {send_to : Address}
    (h : destination crates network text = .ok send_to) (amount : UInt64) (fee_rate : Option Rate) :
    (Careful crates network s (.send_to_address text amount fee_rate) ↔
      ¬ ∃ rate, fee_rate = some rate ∧ crates.from_sat_per_vb rate = none) ∧
    (Careful crates network s (.sweep_wallet text fee_rate) ↔
      ¬ ∃ rate, fee_rate = some rate ∧ crates.from_sat_per_vb rate = none) := by
  cases fee_rate with
  | none => simp [Careful]
  | some rate => simp [Careful, h, Option.ne_none_iff_exists']

/-- The lock and the addresses after a step. -/
theorem step_frame {s t : OnChain Wallet Tx} {a : WalletAction Wallet Rate FeeRate Tx}
    (h : (machine crates network).step s a = some t) :
    (∀ text ∈ t.addresses, text ∈ s.addresses ∨ GivenOut crates network text) ∧
      (t.lock = .lost ↔ s.lock = .lost ∨ ¬ Careful crates network s a) := by
  have hkeep : t.addresses = s.addresses → ∀ text ∈ t.addresses, text ∈ s.addresses ∨ GivenOut crates network text :=
    fun he text hm => .inl (he ▸ hm)
  cases a with
  | get_new_address =>
    simp only [machine, OnChain.get_new_address] at h
    split at h
    · cases h
    · rcases hg : crates.get_address s.wallet with ⟨_ | script, wallet⟩
      · simp only [hg, Option.some.injEq] at h
        subst h
        exact ⟨hkeep rfl, by simp [Careful]⟩
      · simp only [hg, Option.some.injEq] at h
        subst h
        refine ⟨fun text hm => ?_, by simp [Careful]⟩
        rcases List.mem_append.mp hm with hm | hm
        · exact .inl hm
        · exact .inr ⟨_, _, _, hg, List.mem_singleton.mp hm⟩
  | send_to_address text amount fee_rate =>
    rcases send_to_address_cases h with ⟨e, hd, rfl⟩ | ⟨send_to, builder, hd, hc⟩
    · exact ⟨hkeep rfl, by simp [(Careful.of_refused hd amount fee_rate).1]⟩
    · obtain ⟨hfree, haddresses, hlost⟩ := create_psbt_frame hc
      refine ⟨hkeep haddresses, ?_⟩
      rw [hlost, (careful_iff hd amount fee_rate).1]
      simp [hfree, (destination_ok hd).2]
  | sweep_wallet text fee_rate =>
    rcases sweep_wallet_cases h with ⟨e, hd, rfl⟩ | ⟨send_to, builder, hd, hc⟩
    · exact ⟨hkeep rfl, by simp [(Careful.of_refused hd 0 fee_rate).2]⟩
    · obtain ⟨hfree, haddresses, hlost⟩ := create_psbt_frame hc
      refine ⟨hkeep haddresses, ?_⟩
      rw [hlost, (careful_iff hd 0 fee_rate).2]
      simp [hfree, (destination_ok hd).2]
  | check_address text answered =>
    cases h
    exact ⟨hkeep rfl, by simp [Careful, check_address]⟩
  | funding script amount =>
    rcases funding_cases h with rfl | ⟨text, address, builder, -, -, hc⟩
    · exact ⟨hkeep rfl, by simp [Careful]⟩
    · obtain ⟨hfree, haddresses, hlost⟩ := create_psbt_frame hc
      exact ⟨hkeep haddresses, by simp [hlost, hfree, Careful]⟩
  | spendable_outputs tx =>
    simp only [machine, spendable_outputs] at h
    split at h
    · cases h
    · next hl =>
      rw [not_not] at hl
      rcases hg : crates.get_internal_address s.wallet with ⟨_ | script, wallet⟩
      · simp only [hg, Option.some.injEq] at h
        subst h
        exact ⟨hkeep rfl, by simp [Careful, hg]⟩
      · cases tx <;> simp only [hg, Option.some.injEq] at h <;> subst h <;>
          exact ⟨hkeep rfl, by simp [Careful, hg]⟩
  | estimated fee_rate =>
    simp only [machine, estimated] at h
    cases hl : s.lock with
    | free | lost => simp [hl] at h
    | held call builder =>
      simp only [hl] at h
      cases fee_rate with
      | none =>
        cases h
        exact ⟨hkeep (by simp), by simp [Careful]⟩
      | some fee_rate =>
        cases h
        obtain ⟨hlock, haddresses⟩ := build_frame crates s call builder fee_rate
        exact ⟨hkeep haddresses, by simp [hlock, Careful]⟩
  | broadcast_transaction str =>
    obtain ⟨unsent, r, -, heq⟩ := broadcast_transaction_cases crates s str
    cases h
    rw [heq]
    exact ⟨fun text hm => .inl hm, by simp [Careful]⟩
  | broadcast i accepted =>
    obtain ⟨entry, -, unsent, sent, r, -, rfl⟩ := broadcast_cases h
    exact ⟨hkeep (by simp), by simp [Careful]⟩
  | sync wallet =>
    simp only [machine] at h
    split at h
    · cases h
    · cases h
      exact ⟨hkeep rfl, by simp [Careful]⟩
  | read =>
    simp only [machine] at h
    split at h
    · cases h
    · cases h
      exact ⟨hkeep rfl, by simp [Careful]⟩

/-! ## On signet -/

/-- What a text on signet is refused with. -/
theorem destination_signet (hdoc : crates.Documented) (text : String) :
    destination crates .Signet text = .error .IncorrectNetwork ∨
      destination crates .Signet text = .error .JsonReadWriteError := by
  unfold destination
  cases h : crates.from_str text with
  | none => exact .inr rfl
  | some address => exact .inl (if_pos (hdoc.from_str_network _ _ h))

/-- Nothing of the wallet was spent, and every answer but those to raw transactions refused an address. -/
structure Stranded (s : OnChain Wallet Tx) : Prop where
  funded : s.funded = []
  unsent : ∀ entry ∈ s.unsent ++ s.sent, entry.1 = .spendable_outputs ∨ ∃ str, entry.1 = .broadcast_transaction str
  replies : ∀ r ∈ s.replies, (∃ str, r.1 = .broadcast_transaction str) ∨ r.2 = .error .IncorrectNetwork ∨
    r.2 = .error .JsonReadWriteError
  held : ∀ call builder, s.lock ≠ .held call builder

theorem stranded_new (wallet : Wallet) : (new wallet : OnChain Wallet Tx).Stranded :=
  ⟨rfl, by simp [new], by simp [new], by simp [new]⟩

theorem Stranded.reply {s : OnChain Wallet Tx} (h : s.Stranded) {call : WalletCall} {r : Except MutinyJsError Unit}
    (hr : (∃ str, call = .broadcast_transaction str) ∨ r = .error .IncorrectNetwork ∨ r = .error .JsonReadWriteError) :
    (s.reply call r).Stranded := by
  refine ⟨h.funded, h.unsent, fun entry he => ?_, h.held⟩
  rcases List.mem_append.mp he with he | he
  · exact h.replies entry he
  · rw [List.mem_singleton.mp he]
    exact hr

theorem Stranded.answer {s : OnChain Wallet Tx} (h : s.Stranded) (call : WalletCall) :
    (s.answer call (.error .IncorrectNetwork)).Stranded := by
  cases call with
  | send_to_address | sweep_wallet => exact h.reply (.inr (.inl rfl))
  | check_address | funding | spendable_outputs | broadcast_transaction => exact h

theorem Stranded.out {s : OnChain Wallet Tx} (h : s.Stranded) {unsent sent : List (WalletCall × Tx)}
    (hout : ∀ entry ∈ unsent ++ sent, entry ∈ s.unsent ++ s.sent ∨ entry.1 = .spendable_outputs ∨
      ∃ str, entry.1 = .broadcast_transaction str) : ({ s with unsent, sent } : OnChain Wallet Tx).Stranded :=
  ⟨h.funded, fun entry hm => (hout entry hm).elim (h.unsent entry) id, h.replies, h.held⟩

theorem Stranded.push {s : OnChain Wallet Tx} (h : s.Stranded) {entry : WalletCall × Tx}
    (he : entry.1 = .spendable_outputs ∨ ∃ str, entry.1 = .broadcast_transaction str) :
    ({ s with unsent := s.unsent ++ [entry] } : OnChain Wallet Tx).Stranded := by
  refine h.out fun e hm => ?_
  rcases mem_out_push hm with hm | rfl
  · exact .inl hm
  · exact .inr he

theorem Stranded.funding_generation_ready (hdoc : crates.Documented) {s t : OnChain Wallet Tx} (h : s.Stranded)
    {script : Script} {amount : UInt64} (hs : s.funding_generation_ready crates .Signet script amount = some t) :
    t.Stranded := by
  rcases funding_cases hs with rfl | ⟨text, address, builder, -, hread, hc⟩
  · exact h
  · have hfree := (create_psbt_frame hc).1
    rw [create_psbt, if_neg (not_not.mpr hfree), if_pos (hdoc.from_str_network _ _ hread)] at hc
    cases hc
    exact h.answer _

theorem Stranded.spendable_outputs {s t : OnChain Wallet Tx} (h : s.Stranded) {tx : Option Tx}
    (hs : s.spendable_outputs crates tx = some t) : t.Stranded := by
  unfold OnChain.spendable_outputs at hs
  by_cases hl : s.lock ≠ .free
  · simp [hl] at hs
  · rw [if_neg hl] at hs
    have hwallet : ∀ wallet lock, (∀ call builder, lock ≠ .held call builder) →
        ({ s with wallet := wallet, lock := lock } : OnChain Wallet Tx).Stranded :=
      fun _ _ hlock => ⟨h.funded, h.unsent, h.replies, hlock⟩
    rcases hg : crates.get_internal_address s.wallet with ⟨_ | script, wallet⟩
    · simp only [hg, Option.some.injEq] at hs
      subst hs
      exact hwallet _ _ (by simp)
    · simp only [hg] at hs
      cases tx with
      | none =>
        cases hs
        exact hwallet _ _ h.held
      | some tx =>
        cases hs
        exact (hwallet wallet s.lock h.held).push (.inl rfl)

theorem Stranded.broadcast {s t : OnChain Wallet Tx} (h : s.Stranded) {i : Nat} {accepted : Bool}
    (hs : s.broadcast i accepted = some t) : t.Stranded := by
  obtain ⟨entry, hmem, unsent, sent, r, hout, rfl⟩ := broadcast_cases hs
  have hanswer : ∀ u : OnChain Wallet Tx, u.answer entry.1 r = u := by
    intro u
    rcases h.unsent entry (List.mem_append_left _ hmem) with hk | ⟨str, hk⟩ <;> rw [hk] <;> rfl
  rw [hanswer]
  exact h.out fun e hm => .inl (hout e hm)

theorem stranded_step (hdoc : crates.Documented) {s t : OnChain Wallet Tx} (h : s.Stranded)
    (a : WalletAction Wallet Rate FeeRate Tx) (hs : (machine crates .Signet).step s a = some t) : t.Stranded := by
  cases a with
  | get_new_address =>
    simp only [machine, OnChain.get_new_address] at hs
    split at hs
    · cases hs
    · split at hs <;> cases hs <;> exact ⟨h.funded, h.unsent, h.replies, h.held⟩
  | send_to_address text amount fee_rate =>
    have hd := destination_signet hdoc text
    rcases send_to_address_cases hs with ⟨e, he, rfl⟩ | ⟨send_to, builder, he, -⟩
    · exact h.reply (.inr (by simpa [he] using hd))
    · simp [he] at hd
  | sweep_wallet text fee_rate =>
    have hd := destination_signet hdoc text
    rcases sweep_wallet_cases hs with ⟨e, he, rfl⟩ | ⟨send_to, builder, he, -⟩
    · exact h.reply (.inr (by simpa [he] using hd))
    · simp [he] at hd
  | check_address text answered =>
    simp only [machine, OnChain.check_address, Option.some.injEq] at hs
    rcases destination_signet hdoc text with hd | hd <;> rw [hd] at hs <;> subst hs
    · exact h.reply (.inr (.inl rfl))
    · exact h.reply (.inr (.inr rfl))
  | funding script amount => exact h.funding_generation_ready hdoc hs
  | spendable_outputs tx => exact h.spendable_outputs hs
  | estimated fee_rate =>
    simp only [machine, OnChain.estimated] at hs
    cases hl : s.lock with
    | held call builder => exact absurd hl (h.held call builder)
    | free | lost => simp [hl] at hs
  | broadcast_transaction str =>
    obtain ⟨unsent, r, hout, heq⟩ := broadcast_transaction_cases crates s str
    cases hs
    rw [heq]
    refine Stranded.reply (h.out fun e hm => ?_) (.inl ⟨str, rfl⟩)
    exact (hout e hm).imp_right fun hk => .inr ⟨str, hk⟩
  | broadcast i accepted => exact h.broadcast hs
  | sync wallet =>
    simp only [machine] at hs
    split at hs
    · cases hs
    · cases hs
      exact ⟨h.funded, h.unsent, h.replies, h.held⟩
  | read =>
    simp only [machine] at hs
    split at hs
    · cases hs
    · cases hs
      exact h

/-! ## With the lock lost -/

/-- What is left of the wallet once its lock is lost: what was built before, and raw transactions. -/
structure Leftover (s t : OnChain Wallet Tx) : Prop where
  lock : t.lock = .lost
  wallet : t.wallet = s.wallet
  addresses : t.addresses = s.addresses
  funded : t.funded = s.funded
  unsent : ∀ entry ∈ t.unsent ++ t.sent, entry ∈ s.unsent ++ s.sent ∨ ∃ str, entry.1 = .broadcast_transaction str

theorem leftover_refl {s : OnChain Wallet Tx} (h : s.lock = .lost) : s.Leftover s :=
  ⟨h, rfl, rfl, rfl, fun _ hm => .inl hm⟩

theorem Leftover.reply {s t : OnChain Wallet Tx} (h : s.Leftover t) (call : WalletCall) (r : Except MutinyJsError Unit) :
    s.Leftover (t.reply call r) :=
  ⟨h.lock, h.wallet, h.addresses, h.funded, h.unsent⟩

theorem Leftover.answer {s t : OnChain Wallet Tx} (h : s.Leftover t) (call : WalletCall) (r : Except MutinyError Unit) :
    s.Leftover (t.answer call r) := by
  cases call with
  | send_to_address | sweep_wallet => exact h.reply _ _
  | check_address | funding | spendable_outputs | broadcast_transaction => exact h

theorem Leftover.out {s t : OnChain Wallet Tx} (h : s.Leftover t) {unsent sent : List (WalletCall × Tx)}
    (hout : ∀ entry ∈ unsent ++ sent, entry ∈ t.unsent ++ t.sent ∨ ∃ str, entry.1 = .broadcast_transaction str) :
    s.Leftover { t with unsent, sent } := by
  refine ⟨h.lock, h.wallet, h.addresses, h.funded, fun entry hm => ?_⟩
  rcases hout entry hm with hm | hraw
  · exact h.unsent entry hm
  · exact .inr hraw

theorem leftover_step {s t u : OnChain Wallet Tx} (h : s.Leftover t) (a : WalletAction Wallet Rate FeeRate Tx)
    (ht : (machine crates network).step t a = some u) : s.Leftover u := by
  have hlock : t.lock ≠ .free := by simp [h.lock]
  have hcreate : ∀ {call send_to builder fee_rate}, t.create_psbt crates network call send_to builder fee_rate ≠ some u :=
    fun hc => hlock (create_psbt_frame hc).1
  cases a with
  | get_new_address => simp [machine, OnChain.get_new_address, hlock] at ht
  | send_to_address text amount fee_rate =>
    rcases send_to_address_cases ht with ⟨e, -, rfl⟩ | ⟨send_to, builder, -, hc⟩
    · exact h.reply _ _
    · exact absurd hc hcreate
  | sweep_wallet text fee_rate =>
    rcases sweep_wallet_cases ht with ⟨e, -, rfl⟩ | ⟨send_to, builder, -, hc⟩
    · exact h.reply _ _
    · exact absurd hc hcreate
  | check_address text answered =>
    cases ht
    exact h.reply _ _
  | funding script amount =>
    rcases funding_cases ht with rfl | ⟨text, address, builder, -, -, hc⟩
    · exact h
    · exact absurd hc hcreate
  | spendable_outputs tx => simp [machine, OnChain.spendable_outputs, hlock] at ht
  | estimated fee_rate => simp [machine, OnChain.estimated, h.lock] at ht
  | broadcast_transaction str =>
    obtain ⟨unsent, r, hout, heq⟩ := broadcast_transaction_cases crates t str
    cases ht
    rw [heq]
    exact Leftover.reply (h.out fun e hm => (hout e hm).imp_right fun hk => ⟨str, hk⟩) _ _
  | broadcast i accepted =>
    obtain ⟨entry, -, unsent, sent, r, hout, rfl⟩ := broadcast_cases ht
    exact (h.out fun e hm => .inl (hout e hm)).answer _ _
  | sync wallet => simp [machine, hlock] at ht
  | read => simp [machine, hlock] at ht

/-- The lock of the wallet is lost exactly when a panic met it, and then for good: nothing is read of the wallet or spent
from it any more. -/
theorem lock_lost {wallet : Wallet} {as : List (WalletAction Wallet Rate FeeRate Tx)} {s : OnChain Wallet Tx}
    (h : (machine crates network).run (new wallet) as = some s) :
    (s.lock = .lost ↔ ¬ (machine crates network).Along (Careful crates network) (new wallet) as) ∧
      (s.lock = .lost → ∀ bs t, (machine crates network).run s bs = some t → s.Leftover t) := by
  have hkeeps : ∀ (u : OnChain Wallet Tx) bs v, u.lock = .lost → (machine crates network).run u bs = some v →
      u.Leftover v := fun u bs v hl hrun => Machine.invariant (fun _ a _ h hs => leftover_step h a hs) (leftover_refl hl) hrun
  refine ⟨?_, fun hl bs t => hkeeps s bs t hl⟩
  have halong := Machine.along_iff (M := machine crates network) (I := fun _ => True) (P := fun u => u.lock ≠ .lost)
    (G := Careful crates network) (fun _ _ _ _ _ => trivial)
    (fun u a v _ hu hs => by simp [(step_frame hs).2, hu]) trivial (by simp [new]) h
  rw [← halong]
  constructor
  · intro hl hall
    exact hall as s (List.prefix_refl as) h hl
  · intro hsome
    push Not at hsome
    obtain ⟨bs, u, ⟨cs, rfl⟩, hu, hl⟩ := hsome
    rw [Machine.run_append, hu] at h
    exact (hkeeps u cs s hl h).lock

/-- On signet nothing leaves the wallet, neither to its own addresses nor into a channel, while on another network each
address that it has given out can be paid from it. -/
theorem spent_unless_signet (hdoc : crates.Documented) {wallet : Wallet}
    {as : List (WalletAction Wallet Rate FeeRate Tx)} {s : OnChain Wallet Tx}
    (h : (machine crates network).run (new wallet) as = some s) :
    (network = .Signet → s.Stranded) ∧
      (network ≠ .Signet → s.lock = .free →
        (∀ text ∈ s.addresses, ∃ script, text = crates.to_string ⟨script, network⟩ ∧
          (∀ amount, (machine crates network).step s (.send_to_address text amount none) =
            some { s with lock := .held (.send_to_address text amount) (.add_recipient script amount) }) ∧
          (machine crates network).step s (.sweep_wallet text none) =
            some { s with lock := .held (.sweep_wallet text) (.drain_wallet script) }) ∧
        ∀ script amount, (∃ text, crates.witness_address script network = some text) →
          (machine crates network).step s (.funding script amount) =
            some { s with lock := .held (.funding script amount) (.add_recipient script amount) }) := by
  have haddresses : ∀ text ∈ s.addresses, GivenOut crates network text := by
    refine Machine.invariant (I := fun s : OnChain Wallet Tx => ∀ text ∈ s.addresses, GivenOut crates network text)
      (fun u a v hu hs text hm => ?_) (by simp [new]) h
    exact ((step_frame hs).1 text hm).elim (hu text) id
  refine ⟨?_, fun hn hl => ⟨fun text hm => ?_, fun script amount ⟨text, hw⟩ => ?_⟩⟩
  · rintro rfl
    exact Machine.invariant (fun _ a _ hu hs => stranded_step hdoc hu a hs) (stranded_new wallet) h
  · obtain ⟨_, script, _, hg, rfl⟩ := haddresses text hm
    have hd : destination crates network (crates.to_string ⟨script, network⟩) = .ok ⟨script, network⟩ := by
      simp [destination, hdoc.from_to_string _ _ _ network hg, Network.as_read_eq hn]
    refine ⟨script, rfl, fun amount => ?_, ?_⟩
    · simp [machine, OnChain.send_to_address, hd, create_signed_psbt, create_psbt, hl]
    · simp [machine, OnChain.sweep_wallet, hd, create_sweep_psbt, create_psbt, hl]
  · have hread := hdoc.from_witness_address _ _ _ hw
    rw [Network.as_read_eq hn] at hread
    simp [machine, funding_generation_ready, hw, hread, create_signed_psbt, create_psbt, hl]

end

/-! ## A wallet with one address -/

def own_script : Script :=
  ⟨[0x51, 0x20, 0xa6, 0x08, 0x69, 0xf0, 0xdb, 0xcf, 0x1d, 0xc6, 0x59, 0xc9, 0xce, 0xcb, 0xaf, 0x80, 0x50, 0x13, 0x5e, 0xa9,
    0xe8, 0xcd, 0xc4, 0x87, 0x05, 0x3f, 0x1d, 0xc6, 0x88, 0x09, 0x49, 0xdc, 0x68, 0x4c]⟩

def own_text : Network → String
  | .Bitcoin => "bc1p5cyxnuxmeuwuvkwfem96lqzszd02n6xdcjrs20cac6yqjjwudpxqkedrcr"
  | .Testnet | .Signet => "tb1p5cyxnuxmeuwuvkwfem96lqzszd02n6xdcjrs20cac6yqjjwudpxqp3mvzv"
  | .Regtest => "bcrt1p5cyxnuxmeuwuvkwfem96lqzszd02n6xdcjrs20cac6yqjjwudpxqvg32hk"

def one_address : WalletCrates Nat Int Nat (TxBuilder × Nat) (TxBuilder × Nat) where
  from_str text := ([.Bitcoin, .Testnet, .Regtest].find? (own_text · = text)).map fun network => ⟨own_script, network⟩
  to_string address := if address.script_pubkey = own_script then own_text address.network else ""
  witness_address script network := if script = own_script then some (own_text network) else none
  get_address wallet := if wallet = 0 then (some own_script, 1) else (none, wallet)
  get_internal_address wallet := (none, wallet)
  from_sat_per_vb rate := if rate < 0 then none else some rate.toNat
  finish wallet builder fee_rate := (.ok (builder, fee_rate), wallet)
  sign := .ok
  extract_tx := id
  deserialize _ := none

theorem one_address_documented : one_address.Documented where
  from_str_network text address h := by
    obtain ⟨network, hf, rfl⟩ := Option.map_eq_some_iff.mp h
    have hm := List.mem_of_find?_eq_some hf
    rintro rfl
    simp at hm
  from_to_string wallet script wallet' network h := by
    have hs : script = own_script := by
      by_cases hw : wallet = 0 <;> simp [one_address, hw] at h
      exact h.1.symm
    subst hs
    cases network <;> decide
  from_witness_address script network text h := by
    simp only [one_address, Option.ite_none_right_eq_some, Option.some.injEq] at h
    obtain ⟨rfl, rfl⟩ := h
    cases network <;> decide

/-- A payment to an own address and a channel: both are refused on signet, and both are begun on the main network. -/
theorem coins_stuck_on_signet : (∃ s : OnChain Nat (TxBuilder × Nat), (machine one_address .Signet).run (new 0)
      [.get_new_address, .send_to_address (own_text .Signet) 1000 none, .funding own_script 20000] = some s ∧
      s.addresses = [own_text .Signet] ∧ s.replies.length = 1 ∧ s.Stranded) ∧
    ∃ s : OnChain Nat (TxBuilder × Nat), (machine one_address .Bitcoin).run (new 0) [.get_new_address] = some s ∧
      s.addresses = [own_text .Bitcoin] ∧
      (∃ script, (machine one_address .Bitcoin).step s (.send_to_address (own_text .Bitcoin) 1000 none) =
        some { s with lock := .held (.send_to_address (own_text .Bitcoin) 1000) (.add_recipient script 1000) }) ∧
      (machine one_address .Bitcoin).step s (.funding own_script 20000) =
        some { s with lock := .held (.funding own_script 20000) (.add_recipient own_script 20000) } := by
  have hsignet : (machine one_address .Signet).run (new 0)
    [.get_new_address, .send_to_address (own_text .Signet) 1000 none, .funding own_script 20000] = some _ := rfl
  have hbitcoin : (machine one_address .Bitcoin).run (new 0) [.get_new_address] = some _ := rfl
  obtain ⟨hsent, hfunded⟩ := (spent_unless_signet one_address_documented hbitcoin).2 nofun rfl
  obtain ⟨script, -, hamount, -⟩ := hsent (own_text .Bitcoin) (List.mem_singleton.mpr rfl)
  exact ⟨⟨_, hsignet, rfl, rfl, (spent_unless_signet one_address_documented hsignet).1 rfl⟩, _, hbitcoin, rfl,
    ⟨script, hamount 1000⟩, hfunded own_script 20000 ⟨own_text .Bitcoin, rfl⟩⟩

theorem negative_rate : ∃ s : OnChain Nat (TxBuilder × Nat), (machine one_address .Bitcoin).run (new 0)
      [.get_new_address, .send_to_address (own_text .Bitcoin) 1000 (some (-1))] = some s ∧
    s.lock = .lost ∧ ∀ bs t, (machine one_address .Bitcoin).run s bs = some t → s.Leftover t := by
  have hrun : (machine one_address .Bitcoin).run (new 0)
    [.get_new_address, .send_to_address (own_text .Bitcoin) 1000 (some (-1))] = some _ := rfl
  exact ⟨_, hrun, rfl, (lock_lost hrun).2 rfl⟩

end OnChain

end Mutiny
