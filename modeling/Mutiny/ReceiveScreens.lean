import Mutiny.Amounts
import Mutiny.SearchParams
import Mutiny.SendScreens

/-!
# From the receive screens to the send screens (`Receive.tsx`, `ReceiveQR.tsx`, `ReceiveUnified.tsx`, `nodemanager.rs`)

The receiver types an amount and a description, `create_bip21` makes an address and an invoice of them, and the QR code
shows both in one URI. The sender reads the URI into `Send.tsx`.
-/

namespace Mutiny

open Prog

structure MutinyBip21RawMaterials where
  address : String
  invoice : String
  btc_amount : Option String
  description : Option String
  deriving DecidableEq, Repr

namespace NodeManager

variable [Serde String] [Serde PaymentInfo] (host : Host) {RouteHints : Type} (maker : InvoiceMaker RouteHints)
  (nodes : List MutinyNodePersister)

/-- `get_new_address` is what the wallet does for an address, and `to_btc` the text of an amount in bitcoin. -/
def create_bip21 (get_new_address : StorageM MutinyError String) (to_btc : UInt64 → String) (amount : Option UInt64)
    (description : Option String) (now : UInt64) : StorageM MutinyError MutinyBip21RawMaterials := do
  let address : Except MutinyError String ← result get_new_address
  match address with
  | .error _ => throw (.err .WalletOperationFailed)
  | .ok address =>
    let invoice : Except MutinyError MutinyInvoice ←
      result (create_invoice host maker nodes amount (description.getD "") now)
    match invoice with
    | .error _ => throw (.err .WalletOperationFailed)
    | .ok invoice =>
      match invoice.bolt11 with
      | none => throw (.err .WalletOperationFailed)
      | some bolt11 => return { address, invoice := bolt11, btc_amount := amount.map to_btc, description }

end NodeManager

/-! ## The screens -/

/-- The query that the QR screen is given; `none` is a toast. -/
def Receive.handle_submit (receive_amount description : String) : Option String :=
  let amount := String.ofList (receive_amount.toList.filter (· ≠ '_'))
  if amount.toList.any (! ·.isDigit) then none
  else if amount = "" ∨ amount.toList.all Char.isDigit then
    some ("?" ++ object_to_search_params
      ((∅ : AList _).insert "description" (some description) |>.insert "amount" (some amount)))
  else none

/-- What `create_bip21` is called with; an error is what `BigInt` throws. A number goes into a `u64` modulo `2 ^ 64`. -/
def ReceiveQR.create_bip21_arguments (lossy : List UInt8 → String) (search : String) :
    Except Unit (Option UInt64 × Option String) :=
  let search_params := URLSearchParams.new lossy search
  let amount := URLSearchParams.get search_params "amount"
  let description := URLSearchParams.get search_params "description"
  match truthy amount with
  | none => .ok (none, truthy description)
  | some amount =>
    match big_int amount with
    | none => .error ()
    | some amount_int => .ok (some (.ofInt amount_int), truthy description)

def bip21_params (bip21_raw : MutinyBip21RawMaterials) : AList fun _ : String => Option String :=
  (∅ : AList _).insert "lightning" (some bip21_raw.invoice) |>.insert "label" bip21_raw.description
    |>.insert "amount" bip21_raw.btc_amount

def format_bip21_raw_material (bip21_raw : MutinyBip21RawMaterials) : String :=
  "bitcoin:" ++ bip21_raw.address ++ "?" ++ object_to_search_params (bip21_params bip21_raw)

/-! ## What is not in the repository -/

section
variable {Number : Type}

/-- `bip21.decode` takes the address up to `?` and reads the parameters behind it as a browser would. It throws when the
amount is no number. -/
def Libraries.DecodesBip21 (lib : Libraries Number) (lossy : List UInt8 → String) (number : String → Option Number) :
    Prop :=
  ∀ address obj, '?' ∉ address.toList → (∀ key ∈ obj, key = "amount" ∨ key = "label" ∨ key = "lightning") →
    let options := URLSearchParams.get (URLSearchParams.new lossy (object_to_search_params obj))
    (∀ text, truthy (options "amount") = some text → (number text).isSome) →
    lib.bip21_decode ("bitcoin:" ++ address ++ "?" ++ object_to_search_params obj) =
      some ⟨address, (truthy (options "amount")).bind number, options "lightning", options "label"⟩

end

/-- An invoice that LDK makes for the amount and the description. -/
def Made {RouteHints : Type} (maker : InvoiceMaker RouteHints) (amount_msat : Option UInt64) (description : String)
    (invoice : Invoice) : Prop :=
  ∃ node secs, maker.create_invoice_from_channelmanager node amount_msat description secs = some invoice ∨
    ∃ r, maker.create_phantom_invoice node amount_msat description secs r = some invoice

/-- The text of an invoice can be read, and the invoice is for the amount, has the description and is of the network. -/
structure InvoiceMaker.Lawful {Number RouteHints : Type} (maker : InvoiceMaker RouteHints) (lib : Libraries Number)
    (network : Network) : Prop where
  parses : ∀ amount_msat description invoice, Made maker amount_msat description invoice →
    lib.bolt11.from_str invoice.to_string = some invoice
  priced : ∀ amount_msat description invoice, Made maker amount_msat description invoice →
    invoice.amount_milli_satoshis = amount_msat
  described : ∀ amount_msat description invoice, Made maker amount_msat description invoice →
    invoice.description = .Direct description
  currency : ∀ amount_msat description invoice, Made maker amount_msat description invoice →
    lib.currency invoice = currency_from_network network

/-! ## What the receiver types -/

/-- The amount box without its underscores. -/
def digits (receive_amount : String) : List Char := receive_amount.toList.filter (· ≠ '_')

/-- The amount that `create_bip21` is asked for. -/
def asked_amount (receive_amount : String) : Option UInt64 :=
  if digits receive_amount = [] then none else some (.ofInt (Nat.ofDigitChars 10 (digits receive_amount) 0 : Nat))

def receive_params (receive_amount description : String) : AList fun _ : String => Option String :=
  (∅ : AList _).insert "description" (some description) |>.insert "amount" (some (.ofList (digits receive_amount)))

theorem handle_submit_eq (receive_amount description : String) : Receive.handle_submit receive_amount description =
    if (digits receive_amount).any (! ·.isDigit) then none
    else some ("?" ++ object_to_search_params (receive_params receive_amount description)) := by
  unfold Receive.handle_submit
  simp only [String.toList_ofList]
  split
  · next h => exact (if_pos h).symm
  · next h =>
    have hall : (digits receive_amount).all Char.isDigit = true := by
      rw [← Bool.not_eq_false, List.all_eq_not_any_not]
      simpa [digits] using h
    rw [if_pos (.inr hall)]
    exact (if_neg h).symm

theorem arguments_of_digits (lossy : List UInt8 → String) {receive_amount : String}
    (h : ∀ c ∈ digits receive_amount, c.isDigit = true) (description : String) :
    ReceiveQR.create_bip21_arguments lossy ("?" ++ object_to_search_params (receive_params receive_amount description)) =
      .ok (asked_amount receive_amount, truthy (some description)) := by
  have hamount : (receive_params receive_amount description).lookup "amount" =
      some (some (.ofList (digits receive_amount))) := AList.lookup_insert _
  have hdescription : (receive_params receive_amount description).lookup "description" = some (some description) :=
    (AList.lookup_insert_ne (by decide)).trans (AList.lookup_insert _)
  unfold ReceiveQR.create_bip21_arguments asked_amount
  simp only [get_search, hamount, hdescription, Option.join_some]
  by_cases hd : digits receive_amount = []
  · rw [if_pos hd, hd]
    rfl
  · have hne : String.ofList (digits receive_amount) ≠ "" := by
      intro he
      exact hd (String.ofList_injective he)
    rw [if_neg hd, truthy_some hne]
    dsimp only
    rw [big_int_digits h hd]

/-! ## What `create_bip21` answers -/

theorem exec_result_eq_ok {ε ε' α : Type} {x : StorageM ε α} {s t : Store} {a : α}
    (h : exec (result x : StorageM ε' _) s = (.ok (.ok a), t)) : exec x s = (.ok a, t) := by
  rcases hx : exec x s with ⟨(_ | _) | _, u⟩
  · rw [exec_result_err hx] at h
    cases h
  · rw [exec_result_panic hx] at h
    cases h
  · rw [exec_result_ok hx] at h
    cases h
    rfl

section
variable [Serde String] [Serde PaymentInfo] {host : Host} {RouteHints : Type} {maker : InvoiceMaker RouteHints}
  {nodes : List MutinyNodePersister} {get_new_address : StorageM MutinyError String} {to_btc : UInt64 → String}
  {amount : Option UInt64} {description : Option String} {now : UInt64} {store t : Store}

theorem node_create_invoice_made {node : MutinyNodePersister} {description : String}
    {route_hints : Option (List RouteHints)} {invoice : Invoice}
    (h : exec (Node.create_invoice host maker node amount description route_hints now) store = (.ok invoice, t)) :
    Made maker (amount.map (· * 1000)) description invoice := by
  unfold Node.create_invoice at h
  dsimp only at h
  split at h
  · cases h
  · next made hmade =>
    obtain ⟨-, u, -, hret⟩ := exec_bind_eq_ok h
    cases hret
    refine ⟨node, 1500, ?_⟩
    cases route_hints with
    | none => exact .inl hmade
    | some r => exact .inr ⟨r, hmade⟩

theorem create_invoice_made {description : String} {invoice : MutinyInvoice}
    (h : exec (NodeManager.create_invoice host maker nodes amount description now) store = (.ok invoice, t)) :
    ∃ made, Made maker (amount.map (· * 1000)) description made ∧ invoice = .from_invoice made := by
  cases nodes with
  | nil => cases h
  | cons first_node nodes =>
    obtain ⟨made, u, hmade, hret⟩ := exec_bind_eq_ok h
    cases hret
    exact ⟨made, node_create_invoice_made hmade, rfl⟩

theorem create_bip21_made {bip21_raw : MutinyBip21RawMaterials} (h : exec
      (NodeManager.create_bip21 host maker nodes get_new_address to_btc amount description now) store =
        (.ok bip21_raw, t)) :
    ∃ made, Made maker (amount.map (· * 1000)) (description.getD "") made ∧ bip21_raw.invoice = made.to_string ∧
      bip21_raw.btc_amount = amount.map to_btc ∧ bip21_raw.description = description := by
  obtain ⟨address, u, haddress, hrest⟩ := exec_bind_eq_ok h
  cases address with
  | error e => cases hrest
  | ok address =>
    obtain ⟨invoice, v, hinvoice, hrest⟩ := exec_bind_eq_ok hrest
    cases invoice with
    | error e => cases hrest
    | ok invoice =>
      obtain ⟨made, hmade, rfl⟩ := create_invoice_made (exec_result_eq_ok hinvoice)
      cases hrest
      exact ⟨made, hmade, rfl, rfl, rfl⟩

end

/-! ## What the sender reads -/

section
variable {Number : Type} {lib : Libraries Number} {network : Network} {lossy : List UInt8 → String}
  {number : String → Option Number}

theorem decode_format (hdec : lib.DecodesBip21 lossy number) {bip21_raw : MutinyBip21RawMaterials}
    (haddress : '?' ∉ bip21_raw.address.toList)
    (hnumber : ∀ text, truthy bip21_raw.btc_amount = some text → (number text).isSome) :
    lib.bip21_decode (format_bip21_raw_material bip21_raw) = some ⟨bip21_raw.address,
      (truthy bip21_raw.btc_amount).bind number, some bip21_raw.invoice, bip21_raw.description⟩ := by
  have hamount : (bip21_params bip21_raw).lookup "amount" = some bip21_raw.btc_amount := AList.lookup_insert _
  have hlabel : (bip21_params bip21_raw).lookup "label" = some bip21_raw.description :=
    (AList.lookup_insert_ne (by decide)).trans (AList.lookup_insert _)
  have hlightning : (bip21_params bip21_raw).lookup "lightning" = some (some bip21_raw.invoice) :=
    (AList.lookup_insert_ne (by decide)).trans ((AList.lookup_insert_ne (by decide)).trans (AList.lookup_insert _))
  have hkeys : ∀ key ∈ bip21_params bip21_raw, key = "amount" ∨ key = "label" ∨ key = "lightning" := by
    intro key hkey
    simp only [bip21_params, AList.mem_insert, AList.notMem_empty, or_false] at hkey
    exact hkey
  have h := hdec bip21_raw.address (bip21_params bip21_raw) haddress hkeys
  simp only [get_query, hamount, hlabel, hlightning, Option.join_some] at h
  exact h hnumber

theorem detect_bitcoin (text : String) : detect_payment_type ("bitcoin:" ++ text) = .bip21 := by
  have hlower : ascii_lowercase ("bitcoin:" ++ text) = "bitcoin:" ++ ascii_lowercase text := ascii_lowercase_append _ _
  simp [detect_payment_type, starts_with, hlower]

/-- To enter the URI is to enter the invoice in it. -/
theorem handle_continue_format (hdec : lib.DecodesBip21 lossy number) {bip21_raw : MutinyBip21RawMaterials}
    (haddress : '?' ∉ bip21_raw.address.toList)
    (hnumber : ∀ text, truthy bip21_raw.btc_amount = some text → (number text).isSome)
    (hinvoice : bip21_raw.invoice ≠ "") (send_all : Option String) :
    Send.handle_continue lib network send_all (format_bip21_raw_material bip21_raw) =
      Send.navigate_for_invoice lib network bip21_raw.invoice := by
  have hformat : format_bip21_raw_material bip21_raw =
      "bitcoin:" ++ (bip21_raw.address ++ "?" ++ object_to_search_params (bip21_params bip21_raw)) := by
    simp only [format_bip21_raw_material, String.append_assoc]
  have hne : format_bip21_raw_material bip21_raw ≠ "" := by
    rw [hformat]
    intro he
    exact absurd (congrArg String.toList he) (by simp)
  have hdetect : detect_payment_type (format_bip21_raw_material bip21_raw) = .bip21 := by
    rw [hformat]
    exact detect_bitcoin _
  unfold Send.handle_continue Send.navigate_for_bip21
  rw [if_neg hne, hdetect]
  dsimp only
  rw [decode_format hdec haddress hnumber, Option.bind_eq_bind, Option.bind_some]
  dsimp only
  rw [truthy_some hinvoice]

/-- The number that the receiver has typed. -/
def typed (receive_amount : String) : Nat := Nat.ofDigitChars 10 (digits receive_amount) 0

theorem toNat_ofInt {n : Nat} (h : n < 2 ^ 64) : (UInt64.ofInt n).toNat = n := by
  unfold UInt64.ofInt
  rw [UInt64.toNat_ofNat']
  omega

theorem positive_sats_made {invoice : Invoice} {receive_amount : String} (hfits : 1000 * typed receive_amount < 2 ^ 64)
    (hamount : invoice.amount_milli_satoshis = (asked_amount receive_amount).map (· * 1000)) :
    positive_sats (.from_invoice invoice) =
      if typed receive_amount = 0 then none else some (.ofInt (typed receive_amount)) := by
  unfold positive_sats MutinyInvoice.from_invoice
  dsimp only
  rw [hamount]
  by_cases hd : digits receive_amount = []
  · simp [asked_amount, typed, hd]
  · have hnat : (UInt64.ofInt (typed receive_amount)).toNat = typed receive_amount := toNat_ofInt (by omega)
    have hback : UInt64.ofInt (typed receive_amount) * 1000 / 1000 = .ofInt (typed receive_amount) :=
      mul_thousand_div (by omega)
    have hasked : asked_amount receive_amount = some (.ofInt (typed receive_amount)) := if_neg hd
    rw [hasked, Option.map_some, Option.map_some, hback]
    by_cases hzero : typed receive_amount = 0
    · rw [if_pos hzero, hzero]
      rfl
    · rw [if_neg hzero]
      exact Option.filter_eq_some_iff.mpr ⟨rfl, decide_eq_true (UInt64.lt_iff_toNat_lt.mpr (by
        rw [hnat]
        exact Nat.pos_of_ne_zero hzero))⟩

section
variable [Serde String] [Serde PaymentInfo] {host : Host} {RouteHints : Type} {maker : InvoiceMaker RouteHints}
  {nodes : List MutinyNodePersister} {get_new_address : StorageM MutinyError String} {to_btc : UInt64 → String}
  {now : UInt64} {store t : Store}

/-- What one user types into the receive screens is what the send screens of another on the same network make of the QR
code, if the number typed is one of which a thousandfold, in msat, fits 64 bits. They ask for confirmation of the same
number of sats and the same description, and for an amount when none was typed. -/
theorem receive_to_send (hlib : lib.Lawful) (hdec : lib.DecodesBip21 lossy number) (hmaker : maker.Lawful lib network)
    (hbtc : ∀ amount, (number (to_btc amount)).isSome) {receive_amount description search : String}
    (hsubmit : Receive.handle_submit receive_amount description = some search)
    (hfits : 1000 * typed receive_amount < 2 ^ 64) {amount : Option UInt64} {description' : Option String}
    (hargs : ReceiveQR.create_bip21_arguments lossy search = .ok (amount, description'))
    {bip21_raw : MutinyBip21RawMaterials}
    (hraw : exec (NodeManager.create_bip21 host maker nodes get_new_address to_btc amount description' now) store =
      (.ok bip21_raw, t)) (haddress : '?' ∉ bip21_raw.address.toList) (send_all : Option String) :
    Send.handle_continue lib network send_all (format_bip21_raw_material bip21_raw) =
      some (if typed receive_amount = 0 then .SendAmount (some bip21_raw.invoice)
        else .SendConfirm
          { destination := some bip21_raw.invoice
            amount := some (toString (typed receive_amount))
            description := truthy (some description) }) := by
  have hdigits : ∀ c ∈ digits receive_amount, c.isDigit = true := by
    intro c hc
    by_contra hd
    rw [handle_submit_eq, if_pos (List.any_eq_true.mpr ⟨c, hc, by simpa using hd⟩)] at hsubmit
    cases hsubmit
  rw [handle_submit_eq] at hsubmit
  obtain ⟨-, hsearch⟩ := Option.ite_none_left_eq_some.mp hsubmit
  cases hsearch
  rw [arguments_of_digits lossy hdigits description] at hargs
  cases hargs
  obtain ⟨made, hmade, hinvoice, hbtc_amount, hdescription⟩ := create_bip21_made hraw
  have hread : NodeManager.read_invoice lib network bip21_raw.invoice = .ok made := by
    rw [hinvoice]
    exact read_invoice_ok_iff.mpr ⟨hmaker.parses _ _ _ hmade, hmaker.currency _ _ _ hmade⟩
  have hnumber : ∀ text, truthy bip21_raw.btc_amount = some text → (number text).isSome := by
    intro text htext
    rw [hbtc_amount] at htext
    obtain ⟨amount, -, rfl⟩ := Option.map_eq_some_iff.mp (Option.filter_eq_some_iff.mp htext).1
    exact hbtc amount
  have hshown : truthy (MutinyInvoice.from_invoice made).description = truthy (some description) := by
    have hdirect := hmaker.described _ _ _ hmade
    unfold MutinyInvoice.from_invoice
    dsimp only
    rw [hdirect]
    by_cases he : description = ""
    · subst he
      rfl
    · rw [truthy_some he, Option.getD_some, truthy_some he]
  rw [handle_continue_format hdec haddress hnumber (detect_of_read hlib hread).1]
  unfold Send.navigate_for_invoice
  rw [decode_invoice_ok_iff.mpr ⟨made, hread, rfl⟩]
  dsimp only
  rw [positive_sats_made hfits (hmaker.priced _ _ _ hmade)]
  by_cases hzero : typed receive_amount = 0
  · rw [if_pos hzero, if_pos hzero]
  · rw [if_neg hzero, if_neg hzero]
    dsimp only
    rw [toNat_ofInt (by omega), hshown]

end

end

/-! ## A coffee for a sat -/

/-- Reads a URI, and takes the text of an amount for its number. -/
def read_uri (uri : String) : Option (MutinyBip21 String) := do
  let rest ← strip_prefix uri "bitcoin:"
  let query := String.ofList ((rest.toList.dropWhile (· ≠ '?')).drop 1)
  let options := URLSearchParams.get (URLSearchParams.new (fun _ => "") query)
  return ⟨.ofList (rest.toList.takeWhile (· ≠ '?')), truthy (options "amount"), options "lightning", options "label"⟩

def coffee_shop (text : String) : Libraries String where
  bolt11 := (coffee_libraries text 1000).bolt11
  currency := (coffee_libraries text 1000).currency
  bip21_decode := read_uri
  convert_btc_to_sats _ := none
  search_params := (coffee_libraries text 1000).search_params

theorem coffee_shop_lawful : (coffee_shop one_sat).Lawful := by
  have h : (coffee_libraries one_sat 1000).Lawful := coffee_lawful 1000 (by simp) (by simp [one_sat_signature])
  exact ⟨h.invoice_text, h.search_params⟩

theorem coffee_shop_decodes (text : String) : (coffee_shop text).DecodesBip21 (fun _ => "") some := by
  intro address obj haddress _ options _
  have hkeep : ∀ c ∈ address.toList, decide (c ≠ '?') = true := by
    intro c hc
    refine decide_eq_true fun he => ?_
    subst he
    exact haddress hc
  have hstrip : strip_prefix ("bitcoin:" ++ address ++ "?" ++ object_to_search_params obj) "bitcoin:" =
      some (address ++ "?" ++ object_to_search_params obj) := by
    have hassoc : "bitcoin:" ++ address ++ "?" ++ object_to_search_params obj =
        "bitcoin:" ++ (address ++ "?" ++ object_to_search_params obj) := by simp only [String.append_assoc]
    rw [hassoc, strip_prefix_append]
  have hlist : (address ++ "?" ++ object_to_search_params obj).toList =
      address.toList ++ '?' :: (object_to_search_params obj).toList := by
    simp
  unfold coffee_shop read_uri
  dsimp only
  rw [hstrip, Option.bind_eq_bind, Option.bind_some, hlist, List.takeWhile_append_of_pos hkeep,
    List.dropWhile_append_of_pos hkeep]
  simp [options]

/-- Makes the invoice for a coffee. -/
def coffee_maker (text : String) : InvoiceMaker Unit where
  get_phantom_route_hints _ := ()
  create_invoice_from_channelmanager _ amt description _ :=
    if amt = some 1000 ∧ description = "coffee" then some (coffee text 1000) else none
  create_phantom_invoice _ _ _ _ _ := none

theorem coffee_made {text : String} {amount_msat : Option UInt64} {description : String} {invoice : Invoice}
    (h : Made (coffee_maker text) amount_msat description invoice) :
    amount_msat = some 1000 ∧ description = "coffee" ∧ invoice = coffee text 1000 := by
  obtain ⟨_, _, h | ⟨_, h⟩⟩ := h
  · obtain ⟨⟨ha, hd⟩, hi⟩ := Option.ite_none_right_eq_some.mp h
    exact ⟨ha, hd, (Option.some.inj hi).symm⟩
  · cases h

theorem coffee_maker_lawful (text : String) : (coffee_maker text).Lawful (coffee_shop text) .Bitcoin where
  parses amount_msat description invoice h := by
    rw [(coffee_made h).2.2]
    exact if_pos rfl
  priced amount_msat description invoice h := by
    rw [(coffee_made h).1, (coffee_made h).2.2]
    rfl
  described amount_msat description invoice h := by
    rw [(coffee_made h).2.1, (coffee_made h).2.2]
    rfl
  currency amount_msat description invoice h := by
    rw [(coffee_made h).2.2]
    rfl

/-- An amount of less than a bitcoin, with all its places. -/
def print_btc (amount : UInt64) : String :=
  "0." ++ .ofList (List.replicate (8 - (toString amount.toNat).length) '0') ++ toString amount.toNat

attribute [local instance] string_serde payment_info_serde

def coffee_bip21 (text : String) : MutinyBip21RawMaterials :=
  ⟨"bc1qar0srrr7xfkvy5l643lydnw9re59gtzzwf5mdq", text, some (print_btc 1), some "coffee"⟩

theorem coffee_created (text : String) : ∃ t, exec (NodeManager.create_bip21 open_host (coffee_maker text) [⟨"a", ⟨""⟩⟩]
    (pure (coffee_bip21 text).address) print_btc (some 1) (some "coffee") 0) ⟨∅, 0⟩ = (.ok (coffee_bip21 text), t) :=
  ⟨_, rfl⟩

theorem coffee_sold :
    Send.handle_continue (coffee_shop one_sat) .Bitcoin none (format_bip21_raw_material (coffee_bip21 one_sat)) =
      some (.SendConfirm { destination := some one_sat, amount := some "1", description := some "coffee" }) := by
  obtain ⟨t, ht⟩ := coffee_created one_sat
  have hsubmit : Receive.handle_submit "1" "coffee" =
      some ("?" ++ object_to_search_params (receive_params "1" "coffee")) := handle_submit_eq _ _
  have hdigits : digits "1" = ['1'] := by simp [digits]
  have hone : ∀ c ∈ digits "1", c.isDigit = true := by simp [hdigits]
  have hfits : 1000 * typed "1" < 2 ^ 64 := by
    rw [typed, hdigits]
    decide
  exact receive_to_send coffee_shop_lawful (coffee_shop_decodes one_sat) (coffee_maker_lawful one_sat) (fun _ => rfl)
    hsubmit hfits (arguments_of_digits _ hone "coffee") ht (by simp [coffee_bip21]) none

end Mutiny
