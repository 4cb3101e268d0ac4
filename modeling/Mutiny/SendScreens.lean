import Mutiny.Amounts
import Mutiny.PeerAddress

/-!
# The send screens (`Send.tsx`, `SendAmount.tsx`, `SendConfirm.tsx`, `dumb.ts`, `nodemanager.rs`)

The user gives a destination, gives an amount when the screens ask for one, and confirms, and the last screen calls the
node manager. For an invoice the screens go by the amount in sats, which `MutinyInvoice` rounds down, and the guard of
`Node::pay_invoice` goes by whether the invoice has an amount at all.
-/

namespace Mutiny

/-! ## Numbers in texts -/

/-- `WhiteSpace` and `LineTerminator`. -/
def is_white_space (c : Char) : Bool :=
  [0x9, 0xA, 0xB, 0xC, 0xD, 0x20, 0xA0, 0x1680, 0x2000, 0x2001, 0x2002, 0x2003, 0x2004, 0x2005, 0x2006, 0x2007, 0x2008,
    0x2009, 0x200A, 0x2028, 0x2029, 0x202F, 0x205F, 0x3000, 0xFEFF].contains c.toNat

def digit_value (c : Char) : Nat :=
  if c.isDigit then c.toNat - '0'.toNat
  else if c.isLower then c.toNat - 'a'.toNat + 10
  else if c.isUpper then c.toNat - 'A'.toNat + 10
  else 36

def is_digit (base : Nat) (c : Char) : Bool := digit_value c < base

def number (base : Nat) (digits : List Char) : Nat := digits.foldl (fun n c => base * n + digit_value c) 0

def leading (base : Nat) (l : List Char) : Option Nat :=
  match l.takeWhile (is_digit base) with
  | [] => none
  | digits => some (number base digits)

def leading_nat (l : List Char) : Option Nat :=
  match l with
  | '0' :: 'x' :: l | '0' :: 'X' :: l => leading 16 l
  | l => leading 10 l

/-- `parseInt` without a radix; `none` is `NaN`. The rounding of large numbers leaves their signs. -/
def parse_int (s : String) : Option Int :=
  match s.toList.dropWhile is_white_space with
  | '-' :: l => (leading_nat l).map fun n => -n
  | '+' :: l => (leading_nat l).map fun n => n
  | l => (leading_nat l).map fun n => n

def whole (base : Nat) (l : List Char) : Option Nat :=
  if l ≠ [] ∧ l.all (is_digit base) then some (number base l) else none

/-- `BigInt` of a text; `none` is a `SyntaxError`. -/
def big_int (s : String) : Option Int :=
  match ((s.toList.dropWhile is_white_space).reverse.dropWhile is_white_space).reverse with
  | [] => some 0
  | '0' :: 'x' :: l | '0' :: 'X' :: l => (whole 16 l).map fun n => n
  | '0' :: 'o' :: l | '0' :: 'O' :: l => (whole 8 l).map fun n => n
  | '0' :: 'b' :: l | '0' :: 'B' :: l => (whole 2 l).map fun n => n
  | '-' :: l => (whole 10 l).map fun n => -n
  | '+' :: l => (whole 10 l).map fun n => n
  | l => (whole 10 l).map fun n => n

/-! ## `dumb.ts` -/

inductive PaymentType where
  | invoice
  | keysend
  | onchain
  | bip21
  | unknown
  deriving DecidableEq, Repr

/-- Letters that are not ASCII turn into none of these beginnings. -/
def detect_payment_type (p : String) : PaymentType :=
  let lower := ascii_lowercase p
  if ["lntb", "lnbcrt", "lnbc"].any (starts_with lower) then .invoice
  else if ["03", "02"].any (starts_with lower) then .keysend
  else if ["tb1", "bc1", "bcrt1", "1", "3", "2"].any (starts_with lower) || ["m", "n"].any (starts_with p) then .onchain
  else if starts_with lower "bitcoin:" then .bip21
  else .unknown

/-- What `value && …` goes on with. -/
def truthy (value : Option String) : Option String := value.filter (· ≠ "")

/-! ## What is not in the repository -/

inductive Currency where
  | Bitcoin
  | BitcoinTestnet
  | Regtest
  | Simnet
  | Signet
  deriving DecidableEq, Repr

/-- What an invoice has after `ln`. -/
def Currency.code : Currency → String
  | .Bitcoin => "bc"
  | .BitcoinTestnet => "tb"
  | .Regtest => "bcrt"
  | .Simnet => "sb"
  | .Signet => "tbs"

structure MutinyBip21 (Number : Type) where
  address : String
  amount : Option Number
  lightning : Option String
  label : Option String

structure SendConfirmParams where
  destination : Option String
  amount : Option String := none
  description : Option String := none
  all : Option String := none
  deriving DecidableEq, Repr

structure Libraries (Number : Type) where
  bolt11 : Bolt11
  currency : Invoice → Currency
  /-- `bip21.decode`, which throws when the text is none. -/
  bip21_decode : String → Option (MutinyBip21 Number)
  /-- Rounds a floating-point number. -/
  convert_btc_to_sats : Number → Option UInt64
  /-- `useSearchParams` of a query that was written by hand. -/
  search_params : String → SendConfirmParams

/-- The text of an invoice has letters and digits only, `ln` first and the currency next. Values of letters and digits
stand in a query as they are. -/
structure Libraries.Lawful {Number : Type} (lib : Libraries Number) : Prop where
  invoice_text : ∀ text invoice, lib.bolt11.from_str text = some invoice →
    text.toList.all Char.isAlphanum ∧ ∃ rest, ascii_lowercase text = "ln" ++ (lib.currency invoice).code ++ rest
  search_params : ∀ destination amount, destination.toList.all Char.isAlphanum → amount.toList.all Char.isAlphanum →
    lib.search_params ("destination=" ++ destination ++ "&amount=" ++ amount) =
      { destination := some destination, amount := some amount }

section
variable {Number : Type} (lib : Libraries Number) (network : Network)

/-! ## `nodemanager.rs` -/

def currency_from_network : Network → Currency
  | .Bitcoin => .Bitcoin
  | .Testnet => .BitcoinTestnet
  | .Signet => .Signet
  | .Regtest => .Regtest

namespace NodeManager

/-- How `decode_invoice` and `pay_invoice` begin. -/
def read_invoice (invoice : String) : Except MutinyError Invoice :=
  match lib.bolt11.from_str invoice with
  | none => .error .InvoiceInvalid
  | some invoice =>
    if lib.currency invoice ≠ currency_from_network network then .error .IncorrectNetwork else .ok invoice

def decode_invoice (invoice : String) : Except MutinyError MutinyInvoice := do
  let invoice ← read_invoice lib network invoice
  return .from_invoice invoice

/-- `pay_invoice` up to the request to the invoice payer. -/
def pay_invoice_request (invoice_str : String) (amt_sats : Option UInt64) :
    Except MutinyError (PayRequest × UInt64) := do
  let invoice ← read_invoice lib network invoice_str
  pay_request invoice amt_sats

end NodeManager

/-! ## The screens -/

/-- `invoice?.amount_sats && Number(invoice?.amount_sats) > 0`. -/
def positive_sats (invoice : MutinyInvoice) : Option UInt64 := invoice.amount_sats.filter (0 < ·)

inductive Screen where
  | Send (all : Option String)
  | SendAmount (destination : Option String)
  | SendConfirm (params : SendConfirmParams)
  | Failed
  | SendFinal
  deriving DecidableEq, Repr

namespace Send

/-- The screen that follows; `none` is a toast on this one. -/
def navigate_for_invoice (invoice_str : String) : Option Screen :=
  match NodeManager.decode_invoice lib network invoice_str with
  | .error _ => none
  | .ok invoice =>
    match positive_sats invoice with
    | some amount_sats =>
      some <| .SendConfirm
        { destination := some invoice_str
          amount := some (toString amount_sats.toNat)
          description := truthy invoice.description }
    | none => some (.SendAmount (some invoice_str))

def navigate_for_bip21 (bip21_string : String) : Option Screen := do
  let bip21 ← lib.bip21_decode bip21_string
  match truthy bip21.lightning with
  | some lightning => navigate_for_invoice lib network lightning
  | none =>
    let amount ← lib.convert_btc_to_sats (← bip21.amount)
    if amount = 0 then none
    else
      some <| .SendConfirm
        { destination := some bip21.address
          amount := some (toString amount.toNat)
          description := truthy bip21.label }

def handle_continue (send_all : Option String) (destination : String) : Option Screen :=
  if destination = "" then none
  else
    match detect_payment_type destination with
    | .unknown => none
    | .invoice => navigate_for_invoice lib network destination
    | .bip21 => navigate_for_bip21 lib network destination
    | .keysend => some (.SendAmount (some destination))
    | .onchain =>
      if send_all = some "true" then some (.SendConfirm { destination := some destination, all := some "true" })
      else some (.SendAmount (some destination))

end Send

/-- `send_amount` is the text that the amount box holds. -/
def SendAmount.handle_submit (destination : Option String) (send_amount : String) : Option Screen := do
  let amount := String.ofList (send_amount.toList.filter (· ≠ '_'))
  let parsed_amount ← parse_int amount
  if parsed_amount ≤ 0 then none
  else
    let destination ← truthy destination
    return .SendConfirm (lib.search_params ("destination=" ++ destination ++ "&amount=" ++ amount))

inductive Sending where
  | send_to_address (destination_address : String) (amount : UInt64)
  | keysend (from_node to_node : String) (amt_sats : UInt64)
  | pay_invoice (from_node invoice_str : String) (amt_sats : Option UInt64)
  | sweep_wallet (destination_address : String)
  deriving DecidableEq, Repr

namespace SendConfirm

/-- The call that `handleSend` makes, if it makes one; an error is what it throws before. A number goes into a `u64`
modulo `2 ^ 64`. -/
def handle_send (params : SendConfirmParams) (first_node : Option String) : Except Unit (Option Sending) :=
  match truthy params.destination, truthy params.amount with
  | some destination, some amount =>
    match big_int amount with
    | none => .error ()
    | some amount_int =>
      match detect_payment_type destination with
      | .onchain => .ok (some (.send_to_address destination (.ofInt amount_int)))
      | .keysend =>
        match truthy first_node with
        | none => .error ()
        | some my_node => .ok (some (.keysend my_node destination (.ofInt amount_int)))
      | .invoice =>
        match truthy first_node, NodeManager.decode_invoice lib network destination with
        | some my_node, .ok invoice =>
          match positive_sats invoice with
          | some _ => .ok (some (.pay_invoice my_node destination none))
          | none => .ok (some (.pay_invoice my_node destination (some (.ofInt amount_int))))
        | _, _ => .error ()
      | .bip21 | .unknown => .ok none
  | some destination, none =>
    if params.all = some "true" then
      match detect_payment_type destination with
      | .onchain => .ok (some (.sweep_wallet destination))
      | _ => .error ()
    else .ok none
  | none, _ => .ok none

end SendConfirm

/-! ## The user -/

structure SendState where
  screen : Screen
  sent : List Sending
  deriving DecidableEq, Repr

inductive SendAct where
  | open_send (all : Option String)
  | handle_continue (destination : String)
  | handle_submit (send_amount : String)
  /-- `ok` is the answer of the node manager. -/
  | handle_send (first_node : Option String) (ok : Bool)
  deriving DecidableEq, Repr

namespace SendState

def new : SendState := ⟨.Send none, []⟩

def step (s : SendState) : SendAct → Option SendState
  | .open_send all => some { s with screen := .Send all }
  | .handle_continue destination =>
    match s.screen with
    | .Send all => some { s with screen := (Send.handle_continue lib network all destination).getD s.screen }
    | _ => none
  | .handle_submit send_amount =>
    match s.screen with
    | .SendAmount destination =>
      some { s with screen := (SendAmount.handle_submit lib destination send_amount).getD s.screen }
    | _ => none
  | .handle_send first_node ok =>
    match s.screen with
    | .SendConfirm params =>
      match SendConfirm.handle_send lib network params first_node with
      | .error _ => some { s with screen := .Failed }
      | .ok none => some s
      | .ok (some call) => some { screen := if ok then .SendFinal else .Failed, sent := s.sent ++ [call] }
    | _ => none

def machine : Machine SendState SendAct := ⟨step lib network⟩

/-- Whatever the user does, the screens give an amount for the invoice exactly when it has none, and the guard of
`Node::pay_invoice` refuses none of the payments. -/
def GuardAgrees (invoice_str : String) (invoice : Invoice) : Prop :=
  ∀ as s, (machine lib network).run new as = some s → ∀ my_node amt_sats,
    .pay_invoice my_node invoice_str amt_sats ∈ s.sent →
      (amt_sats.isSome ↔ invoice.amount_milli_satoshis = none) ∧
        NodeManager.pay_invoice_request lib network invoice_str amt_sats ≠ .error .InvoiceInvalid

end SendState

end

/-! ## Amounts and the guard -/

theorem pay_request_invalid_iff {invoice : Invoice} {amt_sats : Option UInt64} :
    pay_request invoice amt_sats = .error .InvoiceInvalid ↔
      ¬ (amt_sats.isSome ↔ invoice.amount_milli_satoshis = none) := by
  unfold pay_request
  cases invoice.amount_milli_satoshis with
  | none => cases amt_sats <;> simp
  | some amount => cases amt_sats <;> simp

/-- The screens take an invoice of less than a sat for one without an amount. -/
theorem positive_sats_none_iff {invoice : Invoice} : positive_sats (.from_invoice invoice) = none ↔
    ∀ amount, invoice.amount_milli_satoshis = some amount → amount < 1000 := by
  unfold positive_sats MutinyInvoice.from_invoice
  cases invoice.amount_milli_satoshis with
  | none => simp
  | some amount =>
    have hdiv : amount / 1000 = 0 ↔ amount < 1000 := by
      rw [← UInt64.toNat_inj, UInt64.lt_iff_toNat_lt, UInt64.toNat_div]
      have hzero : (0 : UInt64).toNat = 0 := rfl
      have hthousand : (1000 : UInt64).toNat = 1000 := rfl
      rw [hzero, hthousand]
      omega
    simp [Option.filter_eq_none_iff, hdiv]

section
variable {Number : Type} {lib : Libraries Number} {network : Network} {text : String} {invoice : Invoice}

/-! ## What is called -/

theorem decode_invoice_ok_iff {i : MutinyInvoice} : NodeManager.decode_invoice lib network text = .ok i ↔
    ∃ invoice, NodeManager.read_invoice lib network text = .ok invoice ∧ i = .from_invoice invoice := by
  unfold NodeManager.decode_invoice
  cases NodeManager.read_invoice lib network text with
  | error e => exact iff_of_false (fun h => by cases h) (by rintro ⟨_, ⟨⟩, _⟩)
  | ok invoice =>
    constructor
    · intro h
      cases h
      exact ⟨invoice, rfl, rfl⟩
    · rintro ⟨_, ⟨⟩, rfl⟩
      rfl

theorem handle_send_pays {params : SendConfirmParams} {first_node : Option String} {my_node : String}
    {amt_sats : Option UInt64}
    (h : SendConfirm.handle_send lib network params first_node = .ok (some (.pay_invoice my_node text amt_sats))) :
    ∃ i, NodeManager.decode_invoice lib network text = .ok i ∧ (amt_sats.isSome ↔ positive_sats i = none) := by
  unfold SendConfirm.handle_send at h
  split at h
  · split at h
    · cases h
    · split at h
      · cases h
      · split at h <;> cases h
      · split at h
        · next i _ hi =>
          split at h
          · next hp =>
            cases h
            exact ⟨_, hi, by simp [hp]⟩
          · next hp =>
            cases h
            exact ⟨_, hi, by simp [hp]⟩
        · cases h
      · cases h
      · cases h
  · split at h
    · split at h <;> cases h
    · cases h
  · cases h

/-! ## What is asked for -/

theorem white_space_of_digit {c : Char} (h : c.isDigit = true) : is_white_space c = false := by
  have hrange : 48 ≤ c.toNat ∧ c.toNat ≤ 57 := Char.isDigit_iff_toNat.mp h
  rw [Bool.eq_false_iff]
  intro hw
  unfold is_white_space at hw
  simp only [List.contains_eq_mem, List.mem_cons, List.not_mem_nil, or_false, decide_eq_true_eq] at hw
  omega

theorem digit_value_of_digit {c : Char} (h : c.isDigit = true) : digit_value c = c.toNat - '0'.toNat := if_pos h

theorem is_digit_of_digit {c : Char} (h : c.isDigit = true) : is_digit 10 c = true := by
  have hrange : 48 ≤ c.toNat ∧ c.toNat ≤ 57 := Char.isDigit_iff_toNat.mp h
  have hzero : '0'.toNat = 48 := rfl
  unfold is_digit
  rw [digit_value_of_digit h, hzero, decide_eq_true_eq]
  omega

variable {l : List Char}

theorem number_eq (h : ∀ c ∈ l, c.isDigit = true) : number 10 l = Nat.ofDigitChars 10 l 0 := by
  unfold number Nat.ofDigitChars
  apply List.foldl_ext
  intro n c hc
  rw [digit_value_of_digit (h c hc)]

theorem dropWhile_white_space (h : ∀ c ∈ l, c.isDigit = true) : l.dropWhile is_white_space = l := by
  rw [List.dropWhile_eq_self_iff]
  intro hl
  rw [white_space_of_digit (h _ (List.getElem_mem hl))]
  exact Bool.false_ne_true

theorem leading_digits (h : ∀ c ∈ l, c.isDigit = true) (hne : l ≠ []) :
    leading 10 l = some (Nat.ofDigitChars 10 l 0) := by
  unfold leading
  rw [List.takeWhile_eq_self_iff.mpr fun c hc => is_digit_of_digit (h c hc)]
  cases l with
  | nil => exact absurd rfl hne
  | cons c l => exact congrArg some (number_eq h)

theorem whole_digits (h : ∀ c ∈ l, c.isDigit = true) (hne : l ≠ []) :
    whole 10 l = some (Nat.ofDigitChars 10 l 0) := by
  unfold whole
  rw [if_pos ⟨hne, List.all_eq_true.mpr fun c hc => is_digit_of_digit (h c hc)⟩, number_eq h]

theorem head_ne {c : Char} {rest : List Char} (h : ∀ d ∈ c :: rest, d.isDigit = true) (hc : c.isDigit = false) :
    False :=
  Bool.false_ne_true (hc.symm.trans (h c List.mem_cons_self))

theorem second_ne {c d : Char} {rest : List Char} (h : ∀ e ∈ c :: d :: rest, e.isDigit = true)
    (hd : d.isDigit = false) : False :=
  head_ne (fun e he => h e (List.mem_cons_of_mem c he)) hd

theorem parse_int_digits (h : ∀ c ∈ l, c.isDigit = true) (hne : l ≠ []) :
    parse_int (.ofList l) = some (Nat.ofDigitChars 10 l 0 : Int) := by
  unfold parse_int
  rw [String.toList_ofList, dropWhile_white_space h]
  split
  · exact (head_ne h rfl).elim
  · exact (head_ne h rfl).elim
  · unfold leading_nat
    split
    · exact (second_ne h rfl).elim
    · exact (second_ne h rfl).elim
    · rw [leading_digits h hne]
      rfl

theorem big_int_digits (h : ∀ c ∈ l, c.isDigit = true) (hne : l ≠ []) :
    big_int (.ofList l) = some (Nat.ofDigitChars 10 l 0 : Int) := by
  unfold big_int
  rw [String.toList_ofList, dropWhile_white_space h,
    dropWhile_white_space fun c hc => h c (List.mem_reverse.mp hc), List.reverse_reverse]
  split
  · exact absurd rfl hne
  · exact (second_ne h rfl).elim
  · exact (second_ne h rfl).elim
  · exact (second_ne h rfl).elim
  · exact (second_ne h rfl).elim
  · exact (second_ne h rfl).elim
  · exact (second_ne h rfl).elim
  · exact (head_ne h rfl).elim
  · exact (head_ne h rfl).elim
  · rw [whole_digits h hne]
    rfl

theorem toList_toString (n : Nat) : (toString n).toList = Nat.toDigits 10 n := String.toList_ofList

theorem digits_toString (n : Nat) : ∀ c ∈ (toString n).toList, c.isDigit = true := by
  rw [toList_toString]
  exact Codec.isDigit_toDigits n

theorem parse_int_toString (n : Nat) : parse_int (toString n) = some (n : Int) := by
  have hp := parse_int_digits (Codec.isDigit_toDigits n) Nat.toDigits_ne_nil
  rw [Nat.ofDigitChars_toDigits (by decide) (by decide)] at hp
  exact hp

theorem big_int_toString (n : Nat) : big_int (toString n) = some (n : Int) := by
  have hp := big_int_digits (Codec.isDigit_toDigits n) Nat.toDigits_ne_nil
  rw [Nat.ofDigitChars_toDigits (by decide) (by decide)] at hp
  exact hp

theorem read_invoice_ok_iff : NodeManager.read_invoice lib network text = .ok invoice ↔
    lib.bolt11.from_str text = some invoice ∧ lib.currency invoice = currency_from_network network := by
  unfold NodeManager.read_invoice
  cases lib.bolt11.from_str text with
  | none => exact iff_of_false (fun h => by cases h) (by rintro ⟨⟨⟩, _⟩)
  | some i =>
    dsimp only
    by_cases hc : lib.currency i = currency_from_network network
    · rw [if_neg (not_not.mpr hc)]
      constructor
      · intro h
        cases h
        exact ⟨rfl, hc⟩
      · rintro ⟨⟨⟩, _⟩
        rfl
    · rw [if_pos hc]
      refine iff_of_false (fun h => by cases h) ?_
      rintro ⟨⟨⟩, h⟩
      exact hc h

theorem truthy_some {value : String} (h : value ≠ "") : truthy (some value) = some value := by
  unfold truthy
  simp [h]

theorem toString_ne_empty (n : Nat) : toString n ≠ "" := by
  intro he
  have hl := congrArg String.toList he
  rw [toList_toString] at hl
  exact Nat.toDigits_ne_nil hl

theorem detect_of_read (hlib : lib.Lawful) (h : NodeManager.read_invoice lib network text = .ok invoice) :
    text ≠ "" ∧ detect_payment_type text = .invoice := by
  obtain ⟨hread, hcurrency⟩ := read_invoice_ok_iff.mp h
  obtain ⟨-, rest, htext⟩ := hlib.invoice_text text invoice hread
  rw [hcurrency] at htext
  have hstart : ∃ start ∈ ["lntb", "lnbcrt", "lnbc"], ∃ more, ascii_lowercase text = start ++ more := by
    cases network with
    | Bitcoin => exact ⟨"lnbc", by decide, rest, htext⟩
    | Testnet => exact ⟨"lntb", by decide, rest, htext⟩
    | Signet => exact ⟨"lntb", by decide, "s" ++ rest, by rw [htext, ← String.append_assoc]; rfl⟩
    | Regtest => exact ⟨"lnbcrt", by decide, rest, htext⟩
  obtain ⟨start, hmem, more, hmore⟩ := hstart
  have hany : ["lntb", "lnbcrt", "lnbc"].any (starts_with (ascii_lowercase text)) = true := by
    refine List.any_eq_true.mpr ⟨start, hmem, ?_⟩
    rw [hmore]
    exact List.isPrefixOf_iff_prefix.mpr ⟨more.toList, String.toList_append.symm⟩
  refine ⟨?_, if_pos hany⟩
  rintro rfl
  exact absurd hany (by decide)

theorem handle_submit_toString (hlib : lib.Lawful) (htext : text ≠ "") (halnum : text.toList.all Char.isAlphanum)
    {n : Nat} (hn : 0 < n) : SendAmount.handle_submit lib (some text) (toString n) =
      some (.SendConfirm { destination := some text, amount := some (toString n) }) := by
  have hplain : String.ofList ((toString n).toList.filter (· ≠ '_')) = toString n := by
    rw [List.filter_eq_self.mpr, String.ofList_toList]
    intro c hc
    rw [decide_eq_true_eq]
    rintro rfl
    exact absurd (digits_toString n _ hc) (by decide)
  have hamount : (toString n).toList.all Char.isAlphanum := by
    rw [List.all_eq_true]
    intro c hc
    rw [Char.isAlphanum, digits_toString n c hc, Bool.or_true]
  have hpos : ¬ (n : Int) ≤ 0 := by omega
  unfold SendAmount.handle_submit
  dsimp only
  rw [hplain, parse_int_toString, Option.bind_eq_bind, Option.bind_some, if_neg hpos, truthy_some htext]
  exact congrArg (fun params => some (Screen.SendConfirm params)) (hlib.search_params text (toString n) halnum hamount)

namespace SendState

variable {s t : SendState}

theorem sent_step {a : SendAct} (h : step lib network s a = some t) : t.sent = s.sent ∨
    ∃ params first_node call, SendConfirm.handle_send lib network params first_node = .ok (some call) ∧
      t.sent = s.sent ++ [call] := by
  unfold step at h
  cases a with
  | open_send all =>
    cases h
    exact .inl rfl
  | handle_continue destination =>
    dsimp only at h
    split at h <;> cases h
    exact .inl rfl
  | handle_submit send_amount =>
    dsimp only at h
    split at h <;> cases h
    exact .inl rfl
  | handle_send first_node ok =>
    dsimp only at h
    split at h
    · next params _ =>
      split at h
      · cases h
        exact .inl rfl
      · cases h
        exact .inl rfl
      · next call hc =>
        cases h
        exact .inr ⟨params, first_node, call, hc, rfl⟩
    · cases h

theorem sent_of_run {as : List SendAct} (h : (machine lib network).run new as = some s) {my_node : String}
    {amt_sats : Option UInt64} (hsent : .pay_invoice my_node text amt_sats ∈ s.sent) :
    ∃ i, NodeManager.decode_invoice lib network text = .ok i ∧ (amt_sats.isSome ↔ positive_sats i = none) := by
  have hinv : ∃ params first_node, SendConfirm.handle_send lib network params first_node =
      .ok (some (.pay_invoice my_node text amt_sats)) := by
    refine Machine.invariant (I := fun s => ∀ call ∈ s.sent, ∃ params first_node,
      SendConfirm.handle_send lib network params first_node = .ok (some call)) ?_ ?_ h _ hsent
    · intro s a t inv hs call hcall
      rcases sent_step hs with hsame | ⟨params, first_node, call', hc, hsnoc⟩
      · rw [hsame] at hcall
        exact inv call hcall
      · rw [hsnoc] at hcall
        rcases List.mem_append.mp hcall with hold | hnew
        · exact inv call hold
        · rw [List.mem_singleton.mp hnew]
          exact ⟨params, first_node, hc⟩
    · intro call hcall
      cases hcall
  obtain ⟨params, first_node, hc⟩ := hinv
  exact handle_send_pays hc

/-- The screens ask for an amount, and what the user gives goes into the payment. -/
theorem asked_and_sent (hlib : lib.Lawful) (h : NodeManager.read_invoice lib network text = .ok invoice)
    (hnone : positive_sats (.from_invoice invoice) = none) (my_node : String) (hnode : my_node ≠ "") {n : Nat}
    (hn : 0 < n) (ok : Bool) : ∃ s, (machine lib network).run new
      [.handle_continue text, .handle_submit (toString n), .handle_send (some my_node) ok] = some s ∧
        s.sent = [.pay_invoice my_node text (some (.ofInt n))] := by
  obtain ⟨htext, hdetect⟩ := detect_of_read hlib h
  have hdecode := decode_invoice_ok_iff.mpr ⟨invoice, h, rfl⟩
  have hfirst : (machine lib network).step new (.handle_continue text) = some ⟨.SendAmount (some text), []⟩ := by
    unfold machine step new Send.handle_continue Send.navigate_for_invoice
    dsimp only
    rw [if_neg htext, hdetect, hdecode]
    dsimp only
    rw [hnone]
    rfl
  have hsecond : (machine lib network).step ⟨.SendAmount (some text), []⟩ (.handle_submit (toString n)) =
      some ⟨.SendConfirm { destination := some text, amount := some (toString n) }, []⟩ := by
    have halnum := (hlib.invoice_text text invoice (read_invoice_ok_iff.mp h).1).1
    unfold machine step
    dsimp only
    rw [handle_submit_toString hlib htext halnum hn]
    rfl
  have hthird : (machine lib network).step
      ⟨.SendConfirm { destination := some text, amount := some (toString n) }, []⟩
      (.handle_send (some my_node) ok) = some ⟨if ok then .SendFinal else .Failed,
        [.pay_invoice my_node text (some (.ofInt n))]⟩ := by
    have hsend : SendConfirm.handle_send lib network { destination := some text, amount := some (toString n) }
        (some my_node) = .ok (some (.pay_invoice my_node text (some (.ofInt n)))) := by
      unfold SendConfirm.handle_send
      dsimp only
      rw [truthy_some htext, truthy_some (toString_ne_empty n)]
      dsimp only
      rw [big_int_toString]
      dsimp only
      rw [hdetect, truthy_some hnode, hdecode]
      dsimp only
      rw [hnone]
    unfold machine step
    dsimp only
    rw [hsend]
    rfl
  refine ⟨⟨if ok then .SendFinal else .Failed, [.pay_invoice my_node text (some (.ofInt n))]⟩, ?_, rfl⟩
  exact (Machine.run_of_step hfirst _).trans ((Machine.run_of_step hsecond _).trans (Machine.run_singleton hthird))

variable (network) in
/-- The screens and the guard agree on the invoices without an amount and on those of a sat or more. -/
theorem guard_agrees_iff (hlib : lib.Lawful) (h : NodeManager.read_invoice lib network text = .ok invoice) :
    GuardAgrees lib network text invoice ↔
      ∀ amount, invoice.amount_milli_satoshis = some amount → 1000 ≤ amount := by
  constructor
  · intro hagrees amount ha
    by_contra hlt
    have hnone : positive_sats (.from_invoice invoice) = none := by
      rw [positive_sats_none_iff]
      intro amount' ha'
      rw [ha] at ha'
      cases ha'
      exact UInt64.not_le.mp hlt
    obtain ⟨s, hs, hsent⟩ := asked_and_sent hlib h hnone "node" (by decide) Nat.one_pos true
    have hcall := (hagrees _ s hs "node" (some (.ofInt (1 : Nat))) (by rw [hsent]; exact List.mem_singleton_self _)).1
    rw [ha] at hcall
    exact absurd (hcall.mp rfl) (Option.some_ne_none amount)
  · intro hall as s hs my_node amt_sats hsent
    obtain ⟨i, hi, hamt⟩ := sent_of_run hs hsent
    obtain ⟨invoice', hread, rfl⟩ := decode_invoice_ok_iff.mp hi
    rw [h] at hread
    cases hread
    have hiff : amt_sats.isSome ↔ invoice.amount_milli_satoshis = none := by
      rw [hamt, positive_sats_none_iff]
      constructor
      · intro hlt
        cases ha : invoice.amount_milli_satoshis with
        | none => rfl
        | some amount => exact absurd (hall amount ha) (UInt64.not_le.mpr (hlt amount ha))
      · intro hnone amount ha
        rw [hnone] at ha
        cases ha
    refine ⟨hiff, ?_⟩
    have hrequest : NodeManager.pay_invoice_request lib network text amt_sats = pay_request invoice amt_sats := by
      unfold NodeManager.pay_invoice_request
      rw [h]
      rfl
    rw [hrequest]
    intro hinvalid
    exact pay_request_invalid_iff.mp hinvalid hiff

end SendState

end

/-! ## A coffee for a sat, and for half of one -/

def coffee_hashes : String := "1pjqg0uqpp5qurswpc8qurswpc8qurswpc8qurswpc8qurswpc8qurswpc8qurss"

def coffee_secret : String := "p5qyqszqgpqyqszqgpqyqszqgpqyqszqgpqyqszqgpqyqszqgpqyqsdq2vdhkven9v59qrsgq"

def coffee_text (amount signature : String) : String :=
  "lnbc" ++ (amount ++ coffee_hashes ++ coffee_secret ++ signature)

def one_sat_signature : String :=
  "kgxr5kmj4a0wmg7tlvr94u54unuyydtl9t59lpcc9crd5qn98gp5ufx5j9vuq8qcy83mvzjs0f30zf4ar5azdp9jjd44wqudkv5ka0cqeam6xz"

def half_sat_signature : String :=
  "rk7d03u70vyhn5l9j87m866t3wc9m239tlqxxt5sgjqdpzhal4t88py5rsp85q75uz885nqx8rx9fwhv3sehlpk8uxpzdnpq3ve7jfcpj9c7ny"

def one_sat : String := coffee_text "10n" one_sat_signature

def half_sat : String := coffee_text "5n" half_sat_signature

def coffee (to_string : String) (amount_milli_satoshis : UInt64) : Invoice :=
  ⟨to_string, .Direct "coffee", .replicate 32 7, .replicate 32 1, none, some amount_milli_satoshis, 1678000000, 3600⟩

def plain_params (query : String) : SendConfirmParams :=
  let get (name : String) := (split query '&').findSome? fun value => strip_prefix value (name ++ "=")
  { destination := get "destination", amount := get "amount" }

/-- Reads one invoice. -/
def coffee_libraries (text : String) (amount_milli_satoshis : UInt64) : Libraries Unit where
  bolt11 :=
    { from_str := fun s => if s = text then some (coffee text amount_milli_satoshis) else none
      would_expire := fun invoice now => invoice.duration_since_epoch + invoice.expiry_time < now }
  currency _ := .Bitcoin
  bip21_decode _ := none
  convert_btc_to_sats _ := none
  search_params := plain_params

theorem plain_params_query {destination amount : String} (hd : destination.toList.all Char.isAlphanum)
    (ha : amount.toList.all Char.isAlphanum) : plain_params ("destination=" ++ destination ++ "&amount=" ++ amount) =
      { destination := some destination, amount := some amount } := by
  have hno : ∀ {value : String}, value.toList.all Char.isAlphanum → '&' ∉ value.toList := by
    intro value hall hmem
    exact absurd (List.all_eq_true.mp hall _ hmem) (by decide)
  have hpieces : split ("destination=" ++ destination ++ "&amount=" ++ amount) '&' =
      ["destination=" ++ destination, "amount=" ++ amount] := by
    refine split_eq_two.mpr ⟨?_, ?_, ?_⟩
    · apply String.toList_injective
      simp
    · simpa using hno hd
    · simpa using hno ha
  have hother : strip_prefix ("destination=" ++ destination) "amount=" = none := by
    unfold strip_prefix
    rw [String.toList_append]
    rfl
  simp [plain_params, hpieces, strip_prefix_append, hother]

theorem coffee_lawful {amount signature : String} (amount_milli_satoshis : UInt64)
    (ha : amount.toList.all Char.isAlphanum) (hs : signature.toList.all Char.isAlphanum) :
    (coffee_libraries (coffee_text amount signature) amount_milli_satoshis).Lawful where
  invoice_text := by
    have hcode : "lnbc".toList.all Char.isAlphanum := by simp
    have hhashes : coffee_hashes.toList.all Char.isAlphanum := by simp [coffee_hashes]
    have hsecret : coffee_secret.toList.all Char.isAlphanum := by simp [coffee_secret]
    intro text invoice h
    obtain ⟨rfl, -⟩ := Option.ite_none_right_eq_some.mp h
    refine ⟨?_, ascii_lowercase (amount ++ coffee_hashes ++ coffee_secret ++ signature), ?_⟩
    · unfold coffee_text
      simp only [String.toList_append, List.all_append, hcode, ha, hhashes, hsecret, hs, Bool.and_true]
    · unfold coffee_text
      rw [ascii_lowercase_append]
      rfl
  search_params _ _ := plain_params_query

theorem coffee_read (text : String) (amount_milli_satoshis : UInt64) : NodeManager.read_invoice
    (coffee_libraries text amount_milli_satoshis) .Bitcoin text = .ok (coffee text amount_milli_satoshis) :=
  read_invoice_ok_iff.mpr ⟨if_pos rfl, rfl⟩

namespace SendState

theorem guard_agrees_one_sat : GuardAgrees (coffee_libraries one_sat 1000) .Bitcoin one_sat (coffee one_sat 1000) := by
  have hlawful : (coffee_libraries one_sat 1000).Lawful :=
    coffee_lawful 1000 (by simp) (by simp [one_sat_signature])
  refine (guard_agrees_iff .Bitcoin hlawful (coffee_read one_sat 1000)).mpr ?_
  intro amount ha
  cases ha
  decide

/-- The screens take the invoice for one without an amount and ask for one, and the guard refuses the payment. -/
theorem half_sat_refused :
    NodeManager.read_invoice (coffee_libraries half_sat 500) .Bitcoin half_sat = .ok (coffee half_sat 500) ∧
      (∃ s, (machine (coffee_libraries half_sat 500) .Bitcoin).run new
        [.handle_continue half_sat, .handle_submit "1", .handle_send (some "node") true] = some s ∧
          s.sent = [.pay_invoice "node" half_sat (some 1)]) ∧
      NodeManager.pay_invoice_request (coffee_libraries half_sat 500) .Bitcoin half_sat (some 1) =
        .error .InvoiceInvalid ∧
      ¬ GuardAgrees (coffee_libraries half_sat 500) .Bitcoin half_sat (coffee half_sat 500) := by
  have hlawful : (coffee_libraries half_sat 500).Lawful := coffee_lawful 500 (by simp) (by simp [half_sat_signature])
  have hread := coffee_read half_sat 500
  have hrun : ∃ s, (machine (coffee_libraries half_sat 500) .Bitcoin).run new
      [.handle_continue half_sat, .handle_submit "1", .handle_send (some "node") true] = some s ∧
        s.sent = [.pay_invoice "node" half_sat (some 1)] :=
    asked_and_sent hlawful hread rfl "node" (by decide) Nat.one_pos true
  have hrefused : NodeManager.pay_invoice_request (coffee_libraries half_sat 500) .Bitcoin half_sat (some 1) =
      .error .InvoiceInvalid := by
    unfold NodeManager.pay_invoice_request
    rw [hread]
    rfl
  refine ⟨hread, hrun, hrefused, ?_⟩
  intro hagrees
  obtain ⟨s, hs, hsent⟩ := hrun
  exact (hagrees _ s hs "node" (some 1) (by rw [hsent]; exact List.mem_singleton_self _)).2 hrefused

end SendState

end Mutiny
