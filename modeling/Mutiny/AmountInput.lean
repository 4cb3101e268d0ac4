import Mathlib.Data.List.Infix
import Mutiny.ReceiveScreens

/-!
# The amount box (`AmountInput.tsx`, `prettyPrintAmount.ts`)

The box shows an amount in sats or in dollars and passes the sats on. Every edit is read as a number and written again
with separators, so what is typed next goes behind a text that the box made. What is shown of dollars, and how the browser
rounds and writes a number, is a parameter.
-/

namespace Mutiny

/-- Numbers of the browser. `usd_to_sats` is the text for a number of dollars, and `sats_to_usd` what is shown of an
amount in dollars. -/
structure Numbers (Price : Type) where
  round : Int → Int
  to_locale_string : Int → String
  usd_to_sats : Int → Price → String
  sats_to_usd : Option Int → Price → String

namespace AmountInput

inductive Currency where
  | USD
  | SATS
  deriving DecidableEq, Repr

structure Box (Price : Type) where
  currency : Currency
  local_display_amount : String
  amount_sats : String
  price : Option Price

def Box.start {Price : Type} : Box Price := ⟨.SATS, "", "", none⟩

section
variable {Price : Type} (numbers : Numbers Price)

/-- `none` is `NaN`. -/
def pretty_print_amount : Option Int → String
  | none => "0"
  | some n => if n = 0 then "0" else (numbers.to_locale_string n).map fun c => if c = ',' then '_' else c

/-- `value.replace(/[_,]/g, "")`. -/
def strip (value : String) : String := .ofList (value.toList.filter fun c => c ≠ '_' && c ≠ ',')

def parse_number (value : String) : Option Int := (parse_int value).map numbers.round

def Box.write (box : Box Price) (amount display : String) : Box Price :=
  { box with amount_sats := amount, local_display_amount := display }

def set_amount_formatted (value : String) (box : Box Price) : Box Price :=
  if value = "" ∨ value = "0" then box.write "" ""
  else
    let parsed_amount := parse_number numbers (strip value)
    match box.price with
    | none => box.write "" ""
    | some price =>
      if parsed_amount = some 0 then box.write "" ""
      else
        match box.currency with
        | .USD =>
          box.write (parsed_amount.elim "" fun n => numbers.usd_to_sats n price) (pretty_print_amount numbers parsed_amount)
        | .SATS => box.write (pretty_print_amount numbers parsed_amount) (pretty_print_amount numbers parsed_amount)

def handle_currency_change (value : Currency) (box : Box Price) : Box Price :=
  let parsed_amount := parse_number numbers (strip box.amount_sats)
  match box.price with
  | none => { box with currency := value }
  | some price =>
    match value with
    | .USD => { box with currency := value, local_display_amount := numbers.sats_to_usd parsed_amount price }
    | .SATS =>
      let display := if parsed_amount = none ∨ parsed_amount = some 0 then "" else pretty_print_amount numbers parsed_amount
      { box with currency := value, local_display_amount := display }

/-- `key` and `backspace` are edits at the end of the text. -/
inductive BoxAct (Price : Type) where
  | key (digit : Fin 10)
  | backspace
  | edit (value : String)
  | change_currency (value : Currency)
  | priced (price : Price)

def machine : Machine (Box Price) (BoxAct Price) where
  step box
    | .key digit =>
      some (set_amount_formatted numbers (.ofList (box.local_display_amount.toList ++ [Nat.digitChar digit])) box)
    | .backspace =>
      if box.local_display_amount = "" then some box
      else some (set_amount_formatted numbers (.ofList box.local_display_amount.toList.dropLast) box)
    | .edit value => some (set_amount_formatted numbers value box)
    | .change_currency value => some (handle_currency_change numbers value box)
    | .priced price => some { box with price := some price }

end

/-! ## A calculator -/

section
variable {Price : Type}

def press (n : Nat) : BoxAct Price → Nat
  | .key digit => 10 * n + digit
  | .backspace => n / 10
  | .edit _ | .change_currency _ | .priced _ => n

def typed_number (as : List (BoxAct Price)) : Nat := as.foldl press 0

/-- Digits are typed in sats once the price is there, and nothing else is. -/
def Typing (box : Box Price) : BoxAct Price → Prop
  | .key _ | .backspace => box.currency = .SATS ∧ box.price.isSome
  | .edit _ => False
  | .change_currency _ | .priced _ => True

/-- The numbers are exact up to `2 ^ 53`, and are written in decimal digits with commas between them. -/
structure Commas (numbers : Numbers Price) : Prop where
  round : ∀ n : Nat, n ≤ 2 ^ 53 → numbers.round n = n
  digits : ∀ n : Nat, 0 < n → (numbers.to_locale_string n).toList.filter (· ≠ ',') = Nat.toDigits 10 n
  last : ∀ n : Nat, 0 < n → ∃ text c, (numbers.to_locale_string n).toList = text ++ [c] ∧ c ≠ ','
  small : ∀ n : Nat, 0 < n → n < 10 → numbers.to_locale_string n = .ofList (Nat.toDigits 10 n)

end

/-! ## What the box shows of a number -/

section
variable {Price : Type} {numbers : Numbers Price}

def shown (numbers : Numbers Price) (n : Nat) : String := if n = 0 then "" else pretty_print_amount numbers (some n)

def separator (c : Char) : Char := if c = ',' then '_' else c

theorem shown_toList {n : Nat} (hn : n ≠ 0) :
    (shown numbers n).toList = (numbers.to_locale_string n).toList.map separator := by
  rw [shown, if_neg hn, pretty_print_amount, if_neg (by omega), String.toList_map]
  rfl

theorem Commas.chars (hc : Commas numbers) {n : Nat} (hn : n ≠ 0) :
    ∀ c ∈ (numbers.to_locale_string n).toList, c = ',' ∨ c.isDigit = true := by
  intro c hm
  by_cases h : c = ','
  · exact .inl h
  · have hf : c ∈ (numbers.to_locale_string n).toList.filter (· ≠ ',') := List.mem_filter.mpr ⟨hm, by simpa using h⟩
    rw [hc.digits n (Nat.pos_of_ne_zero hn)] at hf
    exact .inr (Codec.isDigit_toDigits n c hf)

/-- The commas are written as underscores, and both are stripped. -/
theorem filter_separator {l : List Char} (h : ∀ c ∈ l, c = ',' ∨ c.isDigit = true) :
    (l.map separator).filter (· ≠ '_') = l.filter (· ≠ ',') ∧
      ((l.map separator).filter fun c => c ≠ '_' && c ≠ ',') = l.filter (· ≠ ',') := by
  induction l with
  | nil => exact ⟨rfl, rfl⟩
  | cons c l ih =>
    obtain ⟨hc, hl⟩ := List.forall_mem_cons.mp h
    obtain ⟨h₁, h₂⟩ := ih hl
    by_cases he : c = ','
    · subst he
      exact ⟨by simpa [separator] using h₁, by simpa [separator] using h₂⟩
    · have hd : c ≠ '_' := by
        rintro rfl
        rcases hc with hc | hc
        · exact he hc
        · exact absurd hc (by decide)
      have hs : separator c = c := if_neg he
      simp only [List.map_cons, hs]
      constructor
      · rw [List.filter_cons_of_pos (by simpa using hd), List.filter_cons_of_pos (by simpa using he), h₁]
      · rw [List.filter_cons_of_pos (by simp [hd, he]), List.filter_cons_of_pos (by simpa using he), h₂]

theorem digits_shown (hc : Commas numbers) (n : Nat) :
    digits (shown numbers n) = if n = 0 then [] else Nat.toDigits 10 n := by
  by_cases hn : n = 0
  · simp [digits, shown, hn]
  · rw [digits, shown_toList hn, (filter_separator (hc.chars hn)).1, hc.digits n (Nat.pos_of_ne_zero hn), if_neg hn]

theorem strip_shown (hc : Commas numbers) {n : Nat} (hn : n ≠ 0) :
    strip (shown numbers n) = .ofList (Nat.toDigits 10 n) := by
  rw [strip, shown_toList hn, (filter_separator (hc.chars hn)).2, hc.digits n (Nat.pos_of_ne_zero hn)]

theorem parse_number_digits (hc : Commas numbers) {n : Nat} (hn : n ≤ 2 ^ 53) :
    parse_number numbers (.ofList (Nat.toDigits 10 n)) = some (n : Int) := by
  rw [parse_number, parse_int_digits (Codec.isDigit_toDigits n) Nat.toDigits_ne_nil, Nat.ofDigitChars_ten_toDigits,
    Option.map_some, hc.round n hn]

theorem toDigits_press (n : Nat) (digit : Fin 10) (hn : n ≠ 0) :
    Nat.toDigits 10 (10 * n + digit) = Nat.toDigits 10 n ++ [Nat.digitChar digit] := by
  rw [← Nat.toDigits_append_toDigits (by decide) (Nat.pos_of_ne_zero hn) digit.isLt,
    Nat.toDigits_of_lt_base digit.isLt]

theorem set_amount_of_digits (hc : Commas numbers) {box : Box Price} {value : String} {n : Nat}
    (hcurrency : box.currency = .SATS) (hprice : box.price.isSome) (hv : strip value = .ofList (Nat.toDigits 10 n))
    (hn : n ≤ 2 ^ 53) : set_amount_formatted numbers value box = box.write (shown numbers n) (shown numbers n) := by
  obtain ⟨price, hp⟩ := Option.isSome_iff_exists.mp hprice
  have hparse := parse_number_digits hc hn
  have hzero : value = "" ∨ value = "0" → n = 0 := by
    rintro (rfl | rfl)
    · have hnil : Nat.toDigits 10 n = [] := (String.ofList_injective hv).symm
      exact absurd hnil Nat.toDigits_ne_nil
    · have hdigits : Nat.toDigits 10 n = ['0'] := (String.ofList_injective hv).symm
      have hback := Nat.ofDigitChars_ten_toDigits (n := n)
      rw [hdigits] at hback
      exact hback.symm
  unfold set_amount_formatted
  rw [hv, hparse, hp, hcurrency]
  by_cases h : value = "" ∨ value = "0"
  · rw [if_pos h, hzero h]
    rfl
  · rw [if_neg h]
    by_cases h0 : n = 0
    · subst h0
      rfl
    · have hne : (some (n : Int)) ≠ some 0 := by simpa using h0
      simp only [hne, if_false, shown, if_neg h0]

/-! ## The box follows the calculator -/

/-- The box stands for the number `n`. -/
structure Shows (numbers : Numbers Price) (box : Box Price) (n : Nat) : Prop where
  amount : box.amount_sats = shown numbers n
  display : box.currency = .SATS → box.local_display_amount = shown numbers n
  unpriced : box.price = none → n = 0 ∧ box.local_display_amount = ""

theorem shows_write {box : Box Price} (hprice : box.price.isSome) (n : Nat) :
    Shows numbers (box.write (shown numbers n) (shown numbers n)) n := by
  refine ⟨rfl, fun _ => rfl, fun h => ?_⟩
  rw [show box.price = none from h] at hprice
  cases hprice

theorem shows_key (hc : Commas numbers) {box : Box Price} {n : Nat} (h : Shows numbers box n) (digit : Fin 10)
    (hcurrency : box.currency = .SATS) (hprice : box.price.isSome) (hn : 10 * n + digit ≤ 2 ^ 53) :
    Shows numbers (set_amount_formatted numbers
      (.ofList (box.local_display_amount.toList ++ [Nat.digitChar digit])) box) (10 * n + digit) := by
  have hall : ∀ d : Fin 10, Nat.digitChar d ≠ '_' ∧ Nat.digitChar d ≠ ',' := by decide
  have hdigit := hall digit
  have hstrip : strip (.ofList (box.local_display_amount.toList ++ [Nat.digitChar digit])) =
      .ofList (Nat.toDigits 10 (10 * n + digit)) := by
    rw [h.display hcurrency]
    by_cases h0 : n = 0
    · subst h0
      rw [Nat.mul_zero, Nat.zero_add, Nat.toDigits_of_lt_base digit.isLt]
      simp [strip, shown, hdigit]
    · have hshown := String.ofList_injective (strip_shown hc h0)
      rw [toDigits_press n digit h0, strip, String.toList_ofList, List.filter_append, hshown]
      simp [hdigit]
  rw [set_amount_of_digits hc hcurrency hprice hstrip hn]
  exact shows_write hprice _

/-- Without its last character the text of a number is that of a tenth. -/
theorem strip_dropLast (hc : Commas numbers) {n : Nat} (hn : 10 ≤ n) :
    strip (.ofList (shown numbers n).toList.dropLast) = .ofList (Nat.toDigits 10 (n / 10)) := by
  obtain ⟨text, c, htext, hcomma⟩ := hc.last n (by omega)
  have hchars := hc.chars (show n ≠ 0 by omega)
  have hdigits := hc.digits n (by omega)
  rw [htext] at hchars hdigits
  rw [List.filter_append, List.filter_cons_of_pos (by simpa using hcomma), List.filter_nil,
    Nat.toDigits_of_base_le (by decide) hn] at hdigits
  have htenth := (List.append_inj' hdigits rfl).1
  rw [strip, String.toList_ofList, shown_toList (show n ≠ 0 by omega), htext, List.map_append, List.map_singleton,
    List.dropLast_concat, (filter_separator fun d hd => hchars d (List.mem_append_left _ hd)).2, htenth]

theorem shows_backspace (hc : Commas numbers) {box : Box Price} {n : Nat} (h : Shows numbers box n)
    (hcurrency : box.currency = .SATS) (hprice : box.price.isSome) (hn : n ≤ 2 ^ 53) :
    Shows numbers (set_amount_formatted numbers (.ofList box.local_display_amount.toList.dropLast) box) (n / 10) := by
  rw [h.display hcurrency]
  by_cases hlt : n < 10
  · have hempty : (shown numbers n).toList.dropLast = [] := by
      by_cases h0 : n = 0
      · simp [shown, h0]
      · rw [shown_toList h0, hc.small n (Nat.pos_of_ne_zero h0) hlt, String.toList_ofList, Nat.toDigits_of_lt_base hlt]
        rfl
    have hblank : set_amount_formatted numbers (.ofList []) box = box.write (shown numbers 0) (shown numbers 0) :=
      if_pos (.inl rfl)
    rw [hempty, hblank, Nat.div_eq_of_lt hlt]
    exact shows_write hprice 0
  · rw [set_amount_of_digits hc hcurrency hprice (strip_dropLast hc (by omega)) (by omega)]
    exact shows_write hprice _

/-- What is shown in the other currency leaves the amount, and back in sats the amount is shown again. -/
theorem shows_change_currency (hc : Commas numbers) {box : Box Price} {n : Nat} (h : Shows numbers box n)
    (hn : n ≤ 2 ^ 53) (value : Currency) : Shows numbers (handle_currency_change numbers value box) n := by
  unfold handle_currency_change
  cases hp : box.price with
  | none =>
    obtain ⟨rfl, hblank⟩ := h.unpriced hp
    exact ⟨h.amount, fun _ => hblank, fun _ => ⟨rfl, hblank⟩⟩
  | some price =>
    cases value with
    | USD => exact ⟨h.amount, nofun, nofun⟩
    | SATS =>
      refine ⟨h.amount, fun _ => ?_, nofun⟩
      dsimp only
      rw [h.amount]
      by_cases h0 : n = 0
      · subst h0
        have hnone : parse_number numbers (strip (shown numbers 0)) = none := rfl
        rw [hnone, if_pos (.inl rfl)]
        rfl
      · have hne : ¬ ((some (n : Int)) = none ∨ (some (n : Int)) = some 0) := by simpa using h0
        rw [strip_shown hc h0, parse_number_digits hc hn, if_neg hne, shown, if_neg h0]

theorem shows_step (hc : Commas numbers) {box box' : Box Price} {n : Nat} {a : BoxAct Price} (h : Shows numbers box n)
    (hG : Typing box a) (hn : n ≤ 2 ^ 53) (hn' : press n a ≤ 2 ^ 53) (hs : (machine numbers).step box a = some box') :
    Shows numbers box' (press n a) := by
  cases a with
  | key digit =>
    cases hs
    exact shows_key hc h digit hG.1 hG.2 hn'
  | backspace =>
    simp only [machine] at hs
    split at hs
    · next hblank =>
      cases hs
      have h0 : n = 0 := by
        by_contra h0
        have hshown := h.display hG.1
        rw [hblank] at hshown
        have hstrip := strip_shown hc h0
        rw [← hshown] at hstrip
        exact Nat.toDigits_ne_nil (String.ofList_injective hstrip).symm
      subst h0
      exact h
    · cases hs
      exact shows_backspace hc h hG.1 hG.2 hn
  | edit value => exact absurd hG id
  | change_currency value =>
    cases hs
    exact shows_change_currency hc h hn value
  | priced price =>
    cases hs
    exact ⟨h.amount, h.display, nofun⟩

theorem typed_number_snoc (as : List (BoxAct Price)) (a : BoxAct Price) :
    typed_number (as ++ [a]) = press (typed_number as) a := by
  rw [typed_number, List.foldl_append]
  rfl

theorem shows_run (hc : Commas numbers) {as : List (BoxAct Price)} {box : Box Price}
    (hrun : (machine numbers).run .start as = some box) (hG : (machine numbers).Along Typing .start as)
    (hfits : ∀ bs, bs <+: as → typed_number bs ≤ 2 ^ 53) : Shows numbers box (typed_number as) := by
  refine Machine.history_invariant
    (I := fun bs box => (machine numbers).Along Typing .start bs → (∀ cs, cs <+: bs → typed_number cs ≤ 2 ^ 53) →
      Shows numbers box (typed_number bs)) ?_ ?_ hrun hG hfits
  · exact fun _ _ => ⟨rfl, fun _ => rfl, fun _ => ⟨rfl, rfl⟩⟩
  · intro bs t a u ht ih hs hG hfits
    have hbefore := ih hG.append_left fun cs hcs => hfits cs (hcs.trans (List.prefix_append bs [a]))
    have hnow := hfits (bs ++ [a]) (List.prefix_refl _)
    rw [typed_number_snoc] at hnow ⊢
    exact shows_step hc hbefore (Machine.along_iff_steps.mp hG bs a t (List.prefix_refl _) ht)
      (hfits bs (List.prefix_append bs [a])) hnow hs

/-- Over every run in which digits and backspaces are typed only in sats and with the price there, the text is not edited
otherwise, and no number on the way exceeds `2 ^ 53`, the next screen is asked for the number that was typed. The currency
may be changed and changed back on the way. -/
theorem typed_amount (hc : Commas numbers) {as : List (BoxAct Price)} {box : Box Price}
    (hrun : (machine numbers).run .start as = some box) (hG : (machine numbers).Along Typing .start as)
    (hfits : ∀ bs, bs <+: as → typed_number bs ≤ 2 ^ 53) :
    asked_amount box.amount_sats = (if typed_number as = 0 then none else some (.ofInt (typed_number as))) ∧
      parse_int (.ofList (digits box.amount_sats)) = (if typed_number as = 0 then none else some (typed_number as : Int)) ∧
      (box.currency = .SATS → box.local_display_amount = box.amount_sats) := by
  have h := shows_run hc hrun hG hfits
  rw [h.amount, asked_amount, digits_shown hc]
  refine ⟨?_, ?_, h.display⟩
  · by_cases h0 : typed_number as = 0
    · simp [h0]
    · simp only [h0, if_false, Nat.toDigits_ne_nil, Nat.ofDigitChars_ten_toDigits]
  · by_cases h0 : typed_number as = 0
    · simp only [h0, if_true]
      rfl
    · simp only [h0, if_false]
      rw [parse_int_digits (Codec.isDigit_toDigits _) Nat.toDigits_ne_nil, Nat.ofDigitChars_ten_toDigits]

end

/-! ## An American browser -/

/-- On the digits from the last. -/
def thousands : List Char → List Char
  | a :: b :: c :: d :: l => a :: b :: c :: ',' :: thousands (d :: l)
  | l => l

def en_us (n : Int) : String :=
  (if n < 0 then "-" else "") ++ .ofList (thousands (Nat.toDigits 10 n.natAbs).reverse).reverse

theorem filter_thousands {l : List Char} (h : ∀ c ∈ l, c ≠ ',') : (thousands l).filter (· ≠ ',') = l := by
  induction l using thousands.induct with
  | case1 a b c d l ih =>
    have ha := h a (by simp)
    have hb := h b (by simp)
    have hc := h c (by simp)
    have hrest := ih fun e he => h e (by simp only [List.mem_cons] at he ⊢; tauto)
    simpa [thousands, ha, hb, hc] using hrest
  | case2 l hl =>
    rw [thousands, List.filter_eq_self.mpr (by simpa using h)]
    exact hl

theorem thousands_cons (a : Char) (l : List Char) : ∃ rest, thousands (a :: l) = a :: rest := by
  rcases l with _ | ⟨b, _ | ⟨c, _ | ⟨d, l⟩⟩⟩ <;> exact ⟨_, rfl⟩

theorem en_us_toList (n : Nat) : (en_us n).toList = (thousands (Nat.toDigits 10 n).reverse).reverse := by
  have hn : ¬ ((n : Int) < 0) := by omega
  simp [en_us, hn]

theorem not_comma_of_mem {n : Nat} {c : Char} (h : c ∈ Nat.toDigits 10 n) : c ≠ ',' := by
  rintro rfl
  exact absurd (Codec.isDigit_toDigits n _ h) (by decide)

/-- Dollars with their cents, of which none are written where there are none. -/
def dollars (cents : Nat) : String :=
  let whole := (en_us (cents / 100)).map separator
  if cents = 0 then "" else if cents % 100 = 0 then whole
  else if cents % 10 = 0 then whole ++ "." ++ toString (cents % 100 / 10)
  else whole ++ "." ++ toString (cents % 100 / 10) ++ toString (cents % 10)

/-- The price of a bitcoin is in whole dollars. A number of dollars that is no number of sats has no text. -/
def american : Numbers Nat where
  round := id
  to_locale_string := en_us
  usd_to_sats n price :=
    if 100000000 * n.natAbs % price = 0 then toString (100000000 * n.natAbs / price) else ""
  sats_to_usd amount price := amount.elim "" fun n => dollars ((n.natAbs * price + 500000) / 1000000)

theorem american_commas : Commas american where
  round _ _ := rfl
  digits n _ := by
    rw [show american.to_locale_string n = en_us n from rfl, en_us_toList, List.filter_reverse,
      filter_thousands fun c hc => not_comma_of_mem (List.mem_reverse.mp hc), List.reverse_reverse]
  last n _ := by
    rw [show american.to_locale_string n = en_us n from rfl, en_us_toList]
    obtain ⟨c, l, hl⟩ := List.exists_cons_of_ne_nil (mt List.reverse_eq_nil_iff.mp (Nat.toDigits_ne_nil (b := 10) (n := n)))
    obtain ⟨rest, hrest⟩ := thousands_cons c l
    refine ⟨rest.reverse, c, by rw [hl, hrest, List.reverse_cons], not_comma_of_mem (n := n) ?_⟩
    rw [← List.mem_reverse, hl]
    exact List.mem_cons_self
  small n _ hn := by
    refine String.toList_injective ?_
    rw [show american.to_locale_string n = en_us n from rfl, en_us_toList, Nat.toDigits_of_lt_base hn]
    simp [thousands]

instance {Price : Type} (box : Box Price) : ∀ a, Decidable (Typing box a)
  | .key _ | .backspace => inferInstanceAs (Decidable (_ ∧ _))
  | .edit _ => .isFalse id
  | .change_currency _ | .priced _ => .isTrue trivial

def thousand_keys : List (BoxAct Nat) :=
  [.priced 50000, .key 1, .key 2, .key 3, .change_currency .USD, .change_currency .SATS, .key 4, .key 5, .backspace]

/-- After three digits the box is looked at in dollars. -/
theorem thousand_typed :
    ((machine american).run .start (thousand_keys.take 5)).map Box.local_display_amount = some "0.06" ∧
    ∃ box, (machine american).run .start thousand_keys = some box ∧ asked_amount box.amount_sats = some 1234 ∧
      box.local_display_amount = box.amount_sats := by
  have hdollars : ((machine american).run .start (thousand_keys.take 5)).map Box.local_display_amount = some "0.06" := by
    decide +kernel
  have hsats : ((machine american).run .start thousand_keys).map Box.currency = some .SATS := by decide +kernel
  obtain ⟨box, hbox, hcurrency⟩ := Option.map_eq_some_iff.mp hsats
  have hfits : ∀ bs ∈ thousand_keys.inits, typed_number bs ≤ 2 ^ 53 := by decide +kernel
  obtain ⟨hasked, -, hdisplay⟩ := typed_amount american_commas hbox (by decide +kernel)
    fun bs hbs => hfits bs ((List.mem_inits bs _).mpr hbs)
  exact ⟨hdollars, box, hbox, hasked, hdisplay hcurrency⟩

end AmountInput

end Mutiny
