import Mutiny.Codec
import Mutiny.Hex

/-!
# JSON texts

`print` writes a value as `JSON.stringify` and `serde_json` do, without blanks, and `parse` reads the whole grammar:
blanks between the tokens, every escape, numbers with fractions and exponents. What is printed is read back
(`parse_print`). A number is kept as it was written, and the members of an object in their order.
-/

namespace Json

/-! ## Numbers -/

def number_char (c : Char) : Bool := c.isDigit || c = '-' || c = '+' || c = '.' || c = 'e' || c = 'E'

/-- What follows at least one digit. -/
def digits : List Char → Option (List Char)
  | [] => none
  | c :: text => if c.isDigit then some (text.dropWhile (·.isDigit)) else none

def signed (text : List Char) : List Char := if text.head? = some '+' ∨ text.head? = some '-' then text.tail else text

def exponent : List Char → Bool
  | [] => true
  | c :: text => (c = 'e' || c = 'E') && digits (signed text) = some []

def fraction : List Char → Bool
  | '.' :: text => (digits text).any exponent
  | text => exponent text

def whole : List Char → Bool
  | '0' :: text => fraction text
  | text => (digits text).any fraction

def is_number (text : List Char) : Bool :=
  text.all number_char && whole (if text.head? = some '-' then text.tail else text)

structure Number where
  text : List Char
  wf : is_number text = true
  deriving DecidableEq

end Json

inductive Json where
  | null
  | bool (b : Bool)
  | number (n : Json.Number)
  | string (text : List Char)
  | array (items : List Json)
  | object (members : List (List Char × Json))

namespace Json

/-! ## Printing -/

/-- The letters after a backslash, with what they stand for. -/
def escapes : List (Char × Char) :=
  [('"', '"'), ('\\', '\\'), ('b', '\x08'), ('f', '\x0c'), ('n', '\n'), ('r', '\r'), ('t', '\t')]

def escape (c : Char) : List Char :=
  match escapes.find? (·.2 = c) with
  | some p => ['\\', p.1]
  | none =>
    if c.toNat < 32 then ['\\', 'u', '0', '0', Nat.digitChar (c.toNat / 16), Nat.digitChar (c.toNat % 16)] else [c]

def print_string (text : List Char) : List Char := '"' :: (text.flatMap escape ++ ['"'])

mutual

def print : Json → List Char
  | null => ['n', 'u', 'l', 'l']
  | bool true => ['t', 'r', 'u', 'e']
  | bool false => ['f', 'a', 'l', 's', 'e']
  | number n => n.text
  | string text => print_string text
  | array items => '[' :: print_items items
  | object members => '\x7b' :: print_members members

def print_items : List Json → List Char
  | [] => [']']
  | [a] => print a ++ [']']
  | a :: b :: items => print a ++ ',' :: print_items (b :: items)

def print_members : List (List Char × Json) → List Char
  | [] => ['\x7d']
  | [(name, a)] => print_string name ++ ':' :: (print a ++ ['\x7d'])
  | (name, a) :: p :: members => print_string name ++ ':' :: (print a ++ ',' :: print_members (p :: members))

end

/-! ## Reading -/

def blank (c : Char) : Bool := c = ' ' || c = '\t' || c = '\n' || c = '\r'

def skip (text : List Char) : List Char := text.dropWhile blank

/-- Four hexadecimal digits. -/
def unit (a b c d : Char) : Option Nat := do
  return 4096 * (← Hex.nibble a) + 256 * (← Hex.nibble b) + 16 * (← Hex.nibble c) + (← Hex.nibble d)

/-- The characters and the escaped UTF-16 units up to the closing quote. -/
def read_units : List Char → Option (List Nat × List Char)
  | [] => none
  | '"' :: rest => some ([], rest)
  | '\\' :: 'u' :: a :: b :: c :: d :: rest => do
    let n ← unit a b c d
    let (units, rest) ← read_units rest
    return (n :: units, rest)
  | '\\' :: e :: rest => do
    let p ← (('/', '/') :: escapes).find? (·.1 = e)
    let (units, rest) ← read_units rest
    return (p.2.toNat :: units, rest)
  | c :: rest => do
    if c.toNat < 32 then none
    let (units, rest) ← read_units rest
    return (c.toNat :: units, rest)

def is_high (n : Nat) : Bool := 0xD800 ≤ n && n < 0xDC00

def is_low (n : Nat) : Bool := 0xDC00 ≤ n && n < 0xE000

/-- Two halves make one character; a half alone is none. -/
def join : List Nat → Option (List Char)
  | [] => some []
  | [n] => if is_high n || is_low n then none else some [Char.ofNat n]
  | n :: m :: units =>
    if is_high n && is_low m then
      (join units).map (Char.ofNat (0x10000 + 0x400 * (n - 0xD800) + (m - 0xDC00)) :: ·)
    else if is_high n || is_low n then none
    else (join (m :: units)).map (Char.ofNat n :: ·)

def read_string (text : List Char) : Option (List Char × List Char) := do
  let (units, rest) ← read_units text
  return (← join units, rest)

def read_number (text : List Char) : Option (Json × List Char) :=
  if h : is_number (text.takeWhile number_char) then some (.number ⟨_, h⟩, text.dropWhile number_char) else none

def read_literal : List Char → Option (Json × List Char)
  | 'n' :: 'u' :: 'l' :: 'l' :: rest => some (null, rest)
  | 't' :: 'r' :: 'u' :: 'e' :: rest => some (bool true, rest)
  | 'f' :: 'a' :: 'l' :: 's' :: 'e' :: rest => some (bool false, rest)
  | text => read_number text

mutual

def read : Nat → List Char → Option (Json × List Char)
  | 0, _ => none
  | fuel + 1, text =>
    match text with
    | '"' :: rest => (read_string rest).map fun p => (string p.1, p.2)
    | '[' :: rest =>
      match skip rest with
      | ']' :: rest => some (array [], rest)
      | rest => (read_items fuel rest).map fun p => (array p.1, p.2)
    | '\x7b' :: rest =>
      match skip rest with
      | '\x7d' :: rest => some (object [], rest)
      | rest => (read_members fuel rest).map fun p => (object p.1, p.2)
    | text => read_literal text

def read_items : Nat → List Char → Option (List Json × List Char)
  | 0, _ => none
  | fuel + 1, text => do
    let (a, rest) ← read fuel text
    match skip rest with
    | ']' :: rest => return ([a], rest)
    | ',' :: rest =>
      let (items, rest) ← read_items fuel (skip rest)
      return (a :: items, rest)
    | _ => none

def read_members : Nat → List Char → Option (List (List Char × Json) × List Char)
  | 0, _ => none
  | fuel + 1, text => do
    let '"' :: rest := text | none
    let (name, rest) ← read_string rest
    let ':' :: rest := skip rest | none
    let (a, rest) ← read fuel (skip rest)
    match skip rest with
    | '\x7d' :: rest => return ([(name, a)], rest)
    | ',' :: rest =>
      let (members, rest) ← read_members fuel (skip rest)
      return ((name, a) :: members, rest)
    | _ => none

end

/-- A value with nothing but blanks around it. -/
def parse (text : List Char) : Option Json := do
  let (a, rest) ← read text.length (skip text)
  if skip rest = [] then return a else none

/-! ## Strings are read back -/

theorem short_escapes : ∀ p ∈ escapes, p.1 ≠ 'u' ∧ (('/', '/') :: escapes).find? (·.1 = p.1) = some p := by decide

theorem unit_control {n : Nat} (h : n < 32) :
    unit '0' '0' (Nat.digitChar (n / 16)) (Nat.digitChar (n % 16)) = some n := by
  have hz : Hex.nibble '0' = some 0 := by decide
  simp [unit, hz, Hex.nibble_digitChar (show n / 16 < 16 by omega), Hex.nibble_digitChar (show n % 16 < 16 by omega)]
  omega

theorem read_units_escape (c : Char) (rest : List Char) :
    read_units (escape c ++ rest) = (read_units rest).map fun p => (c.toNat :: p.1, p.2) := by
  unfold escape
  cases hf : escapes.find? (·.2 = c) with
  | some p =>
    obtain ⟨hu, hp⟩ := short_escapes p (List.mem_of_find?_eq_some hf)
    have hc : p.2 = c := by simpa using List.find?_some hf
    subst hc
    dsimp only [List.cons_append, List.nil_append]
    rw [read_units, hp]
    · cases read_units rest <;> rfl
    · rintro _ _ _ _ _ he -
      exact hu he
  | none =>
    have hq : c ≠ '"' ∧ c ≠ '\\' := by
      have hall := List.find?_eq_none.mp hf
      exact ⟨fun h => hall ('"', '"') (by simp [escapes]) (by simp [h]),
        fun h => hall ('\\', '\\') (by simp [escapes]) (by simp [h])⟩
    dsimp only
    split
    · next hlt =>
      simp only [List.cons_append, List.nil_append]
      rw [read_units, unit_control hlt]
      cases read_units rest <;> rfl
    · next hlt =>
      rw [List.singleton_append, read_units, if_neg hlt]
      · cases read_units rest <;> rfl
      · exact hq.1
      · rintro _ _ _ _ _ h -
        exact hq.2 h
      · rintro _ _ h -
        exact hq.2 h

theorem read_units_print (text rest : List Char) :
    read_units (text.flatMap escape ++ '"' :: rest) = some (text.map Char.toNat, rest) := by
  induction text with
  | nil => rfl
  | cons c text ih =>
    rw [List.flatMap_cons, List.append_assoc, read_units_escape, ih]
    rfl

theorem not_half (c : Char) : is_high c.toNat = false ∧ is_low c.toNat = false := by
  have hv := c.valid
  simp only [UInt32.isValidChar, Nat.isValidChar] at hv
  simp only [is_high, is_low, Bool.and_eq_false_iff, decide_eq_false_iff_not]
  have : c.val.toNat = c.toNat := rfl
  omega

theorem join_toNat : ∀ text : List Char, join (text.map Char.toNat) = some text
  | [] => rfl
  | [c] => by simp [join, not_half c, Char.ofNat_toNat]
  | c :: d :: text => by
    have ih := join_toNat (d :: text)
    rw [List.map_cons] at ih
    simp [join, not_half c, ih, Char.ofNat_toNat]

theorem read_string_print (text rest : List Char) :
    read_string (text.flatMap escape ++ '"' :: rest) = some (text, rest) := by
  simp [read_string, read_units_print, join_toNat]

/-! ## Numbers are read back -/

/-- A text that a number does not go on with. -/
def Ends (rest : List Char) : Prop := ∀ c ∈ rest.head?, number_char c = false

theorem ends_cons {c : Char} (h : number_char c = false) (rest : List Char) : Ends (c :: rest) := by
  intro d hd
  cases hd
  exact h

theorem Number.all (n : Number) : ∀ c ∈ n.text, number_char c = true := by
  have h := n.wf
  simp only [is_number, Bool.and_eq_true, List.all_eq_true] at h
  exact h.1

theorem Number.span (n : Number) {rest : List Char} (h : Ends rest) :
    (n.text ++ rest).takeWhile number_char = n.text ∧ (n.text ++ rest).dropWhile number_char = rest := by
  rw [List.takeWhile_append_of_pos n.all, List.dropWhile_append_of_pos n.all]
  cases rest with
  | nil => simp
  | cons c rest => simp [h c rfl]

theorem read_number_print (n : Number) {rest : List Char} (h : Ends rest) :
    read_number (n.text ++ rest) = some (number n, rest) := by
  obtain ⟨ht, hd⟩ := n.span h
  simp only [read_number, hd, ht, dif_pos n.wf]

/-! ## Values are read back -/

/-- What holds of a value when it holds of the values in it holds of every value. -/
theorem nested {P : Json → Prop} (hnull : P null) (hbool : ∀ b, P (bool b)) (hnumber : ∀ n, P (number n))
    (hstring : ∀ text, P (string text)) (harray : ∀ items, (∀ a ∈ items, P a) → P (array items))
    (hobject : ∀ members, (∀ p ∈ members, P p.2) → P (object members)) (a : Json) : P a := by
  refine @Json.rec P (fun items => ∀ a ∈ items, P a) (fun members => ∀ p ∈ members, P p.2) (fun p => P p.2)
    hnull hbool hnumber hstring harray hobject ?_ ?_ ?_ ?_ (fun _ _ h => h) a
  · simp
  · intro a items ha hitems
    exact List.forall_mem_cons.mpr ⟨ha, hitems⟩
  · simp
  · intro p members hp hmembers
    exact List.forall_mem_cons.mpr ⟨hp, hmembers⟩

/-- Neither a blank nor the end of an array. -/
def Starts (c : Char) : Prop := blank c = false ∧ c ≠ ']'

theorem starts_number_char {c : Char} (h : number_char c = true) : Starts c := by
  constructor
  · rw [Bool.eq_false_iff]
    intro hb
    simp only [blank, Bool.or_eq_true, decide_eq_true_eq] at hb
    rcases hb with ((rfl | rfl) | rfl) | rfl <;> exact absurd h (by decide)
  · rintro rfl
    exact absurd h (by decide)

theorem Number.start (n : Number) : ∃ c text, n.text = c :: text ∧ number_char c = true := by
  cases h : n.text with
  | nil =>
    have hwf := n.wf
    rw [h] at hwf
    exact absurd hwf (by decide)
  | cons c text => exact ⟨c, text, rfl, n.all c (by simp [h])⟩

theorem print_start (a : Json) : ∃ c text, print a = c :: text ∧ Starts c := by
  cases a with
  | null => exact ⟨'n', _, by rw [print], by decide, by decide⟩
  | bool b => cases b <;> rw [print] <;> exact ⟨_, _, rfl, by decide, by decide⟩
  | number n =>
    obtain ⟨c, text, hn, hc⟩ := n.start
    exact ⟨c, text, by rw [print, hn], starts_number_char hc⟩
  | string text => exact ⟨'"', _, by rw [print, print_string], by decide, by decide⟩
  | array items => exact ⟨'[', _, by rw [print], by decide, by decide⟩
  | object members => exact ⟨'\x7b', _, by rw [print], by decide, by decide⟩

theorem skip_cons {c : Char} (h : blank c = false) (rest : List Char) : skip (c :: rest) = c :: rest := by
  simp [skip, h]

theorem skip_print (a : Json) (rest : List Char) : skip (print a ++ rest) = print a ++ rest := by
  obtain ⟨c, text, ha, hc, -⟩ := print_start a
  rw [ha, List.cons_append, skip_cons hc]

/-- What is printed of the value is read back with any fuel that is not below its length. -/
def ReadBack (a : Json) : Prop :=
  ∀ fuel rest, (print a).length ≤ fuel → Ends rest → read fuel (print a ++ rest) = some (a, rest)

theorem read_literal_number (n : Number) {rest : List Char} (h : Ends rest) :
    read_literal (n.text ++ rest) = some (number n, rest) := by
  obtain ⟨c, text, hn, hc⟩ := n.start
  have hread := read_number_print n h
  rw [hn, List.cons_append] at hread ⊢
  rw [read_literal]
  · exact hread
  all_goals
    rintro _ he
    rw [(List.cons.inj he).1] at hc
    exact absurd hc (by decide)

theorem read_items_print {items : List Json} (h : ∀ a ∈ items, ReadBack a) (hne : items ≠ []) (fuel : Nat)
    (rest : List Char) (hf : (print_items items).length ≤ fuel) :
    read_items fuel (print_items items ++ rest) = some (items, rest) := by
  induction items generalizing fuel with
  | nil => exact absurd rfl hne
  | cons a items ih =>
    have hread := h a (by simp)
    cases items with
    | nil =>
      simp only [print_items, List.length_append, List.length_singleton] at hf
      obtain ⟨fuel, rfl⟩ := Nat.exists_eq_succ_of_ne_zero (show fuel ≠ 0 by omega)
      simp only [print_items, List.append_assoc, List.singleton_append, read_items]
      rw [hread fuel _ (by omega) (ends_cons (by decide) rest)]
      simp [skip_cons (show blank ']' = false by decide)]
    | cons b items =>
      simp only [print_items, List.length_append, List.length_cons] at hf
      obtain ⟨fuel, rfl⟩ := Nat.exists_eq_succ_of_ne_zero (show fuel ≠ 0 by omega)
      have hskip : skip (print_items (b :: items) ++ rest) = print_items (b :: items) ++ rest := by
        cases items <;> simp only [print_items, List.append_assoc, skip_print]
      have htail := ih (fun c hc => h c (by simp [hc])) (by simp) fuel (by omega)
      simp only [print_items, List.append_assoc, List.cons_append, read_items]
      rw [hread fuel _ (by omega) (ends_cons (by decide) _)]
      simp [skip_cons (show blank ',' = false by decide), hskip, htail]

theorem read_members_print {members : List (List Char × Json)} (h : ∀ p ∈ members, ReadBack p.2) (hne : members ≠ [])
    (fuel : Nat) (rest : List Char) (hf : (print_members members).length ≤ fuel) :
    read_members fuel (print_members members ++ rest) = some (members, rest) := by
  induction members generalizing fuel with
  | nil => exact absurd rfl hne
  | cons p members ih =>
    obtain ⟨name, a⟩ := p
    have hread : ReadBack a := h (name, a) (by simp)
    cases members with
    | nil =>
      simp only [print_members, print_string, List.length_append, List.length_cons] at hf
      obtain ⟨fuel, rfl⟩ := Nat.exists_eq_succ_of_ne_zero (show fuel ≠ 0 by omega)
      simp only [print_members, print_string, List.append_assoc, List.cons_append, List.nil_append, read_members,
        read_string_print, Option.bind_eq_bind, Option.bind_some]
      have hvalue := hread fuel ('\x7d' :: rest) (by omega) (ends_cons (by decide) rest)
      simp [skip_cons (show blank ':' = false by decide), skip_print, hvalue,
        skip_cons (show blank '\x7d' = false by decide)]
    | cons q members =>
      simp only [print_members, print_string, List.length_append, List.length_cons] at hf
      obtain ⟨fuel, rfl⟩ := Nat.exists_eq_succ_of_ne_zero (show fuel ≠ 0 by omega)
      have hskip : skip (print_members (q :: members) ++ rest) = print_members (q :: members) ++ rest := by
        cases members <;> simp only [print_members, print_string, List.cons_append] <;> exact skip_cons (by decide) _
      have htail := ih (fun c hc => h c (by simp [hc])) (by simp) fuel (by omega)
      simp only [print_members, print_string, List.append_assoc, List.cons_append, List.nil_append, read_members,
        read_string_print, Option.bind_eq_bind, Option.bind_some]
      have hvalue := hread fuel (',' :: (print_members (q :: members) ++ rest)) (by omega) (ends_cons (by decide) _)
      simp [skip_cons (show blank ':' = false by decide), skip_print, hvalue,
        skip_cons (show blank ',' = false by decide), hskip, htail]

theorem exists_succ {a : Json} {fuel : Nat} (h : (print a).length ≤ fuel) : ∃ less, fuel = less + 1 := by
  obtain ⟨c, text, ha, -⟩ := print_start a
  rw [ha, List.length_cons] at h
  exact ⟨fuel - 1, by omega⟩

theorem ReadBack.number (n : Number) : ReadBack (number n) := by
  intro fuel rest hf hr
  obtain ⟨fuel, rfl⟩ := exists_succ hf
  obtain ⟨c, text, hn, hc⟩ := n.start
  have hread := read_literal_number n hr
  rw [print]
  rw [hn, List.cons_append] at hread ⊢
  rw [read]
  · exact hread
  all_goals
    rintro _ he
    rw [(List.cons.inj he).1] at hc
    exact absurd hc (by decide)

theorem ReadBack.array {items : List Json} (h : ∀ a ∈ items, ReadBack a) : ReadBack (array items) := by
  intro fuel rest hf _
  obtain ⟨fuel, rfl⟩ := exists_succ hf
  rw [print, List.length_cons] at hf
  rw [print, List.cons_append, read]
  cases items with
  | nil => simp [print_items, skip_cons (show blank ']' = false by decide)]
  | cons a items =>
    obtain ⟨c, text, ha, hc, hne⟩ := print_start a
    have hitems := read_items_print h (by simp) fuel rest (by omega)
    obtain ⟨text, ht⟩ : ∃ text, print_items (a :: items) ++ rest = c :: text := by
      cases items <;> simp only [print_items, ha, List.cons_append, List.cons.injEq, true_and, exists_eq']
    rw [ht] at hitems ⊢
    rw [skip_cons hc]
    split
    · next he => exact absurd (List.cons.inj he).1 hne
    · rw [hitems]
      rfl

theorem ReadBack.object {members : List (List Char × Json)} (h : ∀ p ∈ members, ReadBack p.2) :
    ReadBack (object members) := by
  intro fuel rest hf _
  obtain ⟨fuel, rfl⟩ := exists_succ hf
  rw [print, List.length_cons] at hf
  rw [print, List.cons_append, read]
  cases members with
  | nil => simp [print_members, skip_cons (show blank '\x7d' = false by decide)]
  | cons p members =>
    have hmembers := read_members_print h (by simp) fuel rest (by omega)
    obtain ⟨text, ht⟩ : ∃ text, print_members (p :: members) ++ rest = '"' :: text := by
      cases members <;> simp only [print_members, print_string, List.cons_append, List.cons.injEq, true_and, exists_eq']
    rw [ht] at hmembers ⊢
    rw [skip_cons (by decide)]
    split
    · next he => cases he
    · rw [hmembers]
      rfl

theorem read_print (a : Json) : ReadBack a := by
  induction a using nested with
  | hnull =>
    intro fuel rest hf _
    obtain ⟨fuel, rfl⟩ := exists_succ hf
    simp [print, read, read_literal]
  | hbool b =>
    intro fuel rest hf _
    obtain ⟨fuel, rfl⟩ := exists_succ hf
    cases b <;> simp [print, read, read_literal]
  | hnumber n => exact .number n
  | hstring text =>
    intro fuel rest hf _
    obtain ⟨fuel, rfl⟩ := exists_succ hf
    simp [print, print_string, read, read_string_print]
  | harray items ih => exact .array ih
  | hobject members ih => exact .object ih

theorem parse_print (a : Json) : parse (print a) = some a := by
  have hread := read_print a (print a).length [] (Nat.le_refl _) nofun
  have hskip := skip_print a []
  rw [List.append_nil] at hread hskip
  simp only [parse, hskip, hread, Option.bind_eq_bind, Option.bind_some]
  rfl

/-! ## Natural numbers -/

theorem number_char_digit {c : Char} (h : c.isDigit = true) : number_char c = true := by
  simp [number_char, h]

theorem digits_toDigits (n : Nat) : digits (Nat.toDigits 10 n) = some [] := by
  have hd := Codec.isDigit_toDigits n
  cases h : Nat.toDigits 10 n with
  | nil => exact absurd h Nat.toDigits_ne_nil
  | cons c text =>
    rw [h] at hd
    have htext : ∀ d ∈ text, d.isDigit = true := fun d hm => hd d (List.mem_cons_of_mem c hm)
    have hdrop : text.dropWhile (·.isDigit) = [] := by
      rw [← List.append_nil text, List.dropWhile_append_of_pos htext]
      rfl
    simp [digits, hd c (by simp), hdrop]

/-- Only the text of zero starts with a zero. -/
theorem toDigits_zero {n : Nat} : ∀ {text : List Char}, Nat.toDigits 10 n = '0' :: text → text = [] := by
  induction n using Nat.strongRecOn with
  | _ n ih =>
    intro text h
    rw [Nat.toDigits_eq_if (by decide)] at h
    split at h
    · exact (List.cons.inj h).2.symm
    · next hn =>
      exfalso
      obtain ⟨c, rest, hc⟩ := List.exists_cons_of_ne_nil (Nat.toDigits_ne_nil (b := 10) (n := n / 10))
      rw [hc, List.cons_append] at h
      obtain ⟨rfl, -⟩ := List.cons.inj h
      have hnil := ih (n / 10) (by omega) hc
      have hzero := Nat.ofDigitChars_ten_toDigits (n := n / 10)
      rw [hc, hnil] at hzero
      have : Nat.ofDigitChars 10 ['0'] 0 = 0 := rfl
      omega

theorem whole_toDigits (n : Nat) : whole (Nat.toDigits 10 n) = true := by
  cases h : Nat.toDigits 10 n with
  | nil => exact absurd h Nat.toDigits_ne_nil
  | cons c text =>
    have hd := digits_toDigits n
    rw [h] at hd
    by_cases hc : c = '0'
    · subst hc
      rw [toDigits_zero h]
      rfl
    · rw [whole, hd]
      · rfl
      · intro _ he
        exact hc (List.cons.inj he).1

theorem is_number_toDigits (n : Nat) : is_number (Nat.toDigits 10 n) = true := by
  have hd := Codec.isDigit_toDigits n
  have hhead : (Nat.toDigits 10 n).head? ≠ some '-' := by
    intro h
    exact absurd (hd '-' (List.mem_of_head? h)) (by decide)
  simp only [is_number, if_neg hhead, whole_toDigits, Bool.and_true, List.all_eq_true]
  exact fun c hc => number_char_digit (hd c hc)

def Number.of_nat (n : Nat) : Number := ⟨Nat.toDigits 10 n, is_number_toDigits n⟩

end Json
