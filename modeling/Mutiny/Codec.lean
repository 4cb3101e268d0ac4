import Mathlib.Logic.Basic

/-!
# Printers with parsers that undo them

A `Codec.Part` prints a value as JSON text and parses it back, whatever text follows, as long as that text does not
start with a digit. A `Codec` is a part that can stand where `null` or the end of a list could stand too. `pair` puts
fixed text between two parts, and `record` around them.
-/

/-- The text after a value, which may not go on with a number. -/
def Codec.Ends (rest : List Char) : Prop := ∀ c ∈ rest.head?, c.isDigit = false

structure Codec.Part (α : Type) where
  print : α → List Char
  parse : List Char → Option (α × List Char)
  parse_print : ∀ a rest, Codec.Ends rest → parse (print a ++ rest) = some (a, rest)

/-- A value that starts so is neither `null` nor the end of a list or an object. -/
def Codec.Starts (c : Char) : Prop := c ≠ 'n' ∧ c ≠ ']' ∧ c ≠ '\x7d'

structure Codec (α : Type) extends Codec.Part α where
  head : ∀ a, ∃ c text, print a = c :: text ∧ Codec.Starts c

namespace Codec

variable {α β : Type}

theorem ends_nil : Ends [] := nofun

theorem ends_cons {c : Char} (h : c.isDigit = false) (rest : List Char) : Ends (c :: rest) := by
  intro d hd
  cases hd
  exact h

/-- The rest of a text after the given start. -/
def strip : List Char → List Char → Option (List Char)
  | [], text => some text
  | _ :: _, [] => none
  | c :: start, d :: text => if c = d then strip start text else none

theorem strip_append (start rest : List Char) : strip start (start ++ rest) = some rest := by
  induction start with
  | nil => rfl
  | cons c start ih => simp [strip, ih]

theorem eq_of_strip {start text rest : List Char} (h : strip start text = some rest) : text = start ++ rest := by
  induction start generalizing text with
  | nil => exact Option.some.inj h
  | cons c start ih =>
    cases text with
    | nil => cases h
    | cons d text =>
      simp only [strip, Option.ite_none_right_eq_some] at h
      obtain ⟨rfl, h⟩ := h
      rw [ih h, List.cons_append]

/-! ## Numbers -/

theorem isDigit_toDigits (n : Nat) : ∀ c ∈ Nat.toDigits 10 n, c.isDigit = true :=
  fun _ hc => Nat.isDigit_of_mem_toDigits (by decide) (by decide) hc

def nat : Codec Nat where
  print n := Nat.toDigits 10 n
  parse text :=
    match text.takeWhile (·.isDigit) with
    | [] => none
    | digits => some (Nat.ofDigitChars 10 digits 0, text.dropWhile (·.isDigit))
  head n := by
    cases h : Nat.toDigits 10 n with
    | nil => exact absurd h Nat.toDigits_ne_nil
    | cons c text =>
      have hm : c ∈ Nat.toDigits 10 n := by simp [h]
      have hd : c.isDigit = true := isDigit_toDigits n c hm
      refine ⟨c, text, rfl, ?_, ?_, ?_⟩ <;> rintro rfl <;> exact absurd hd (by decide)
  parse_print n rest hr := by
    have hd := isDigit_toDigits n
    have ht : (Nat.toDigits 10 n ++ rest).takeWhile (·.isDigit) = Nat.toDigits 10 n := by
      rw [List.takeWhile_append_of_pos hd]
      cases rest with
      | nil => simp
      | cons c rest => simp [hr c rfl]
    have hw : (Nat.toDigits 10 n ++ rest).dropWhile (·.isDigit) = rest := by
      rw [List.dropWhile_append_of_pos hd]
      cases rest with
      | nil => rfl
      | cons c rest => simp [hr c rfl]
    simp only [ht, hw]
    cases h : Nat.toDigits 10 n with
    | nil => exact absurd h Nat.toDigits_ne_nil
    | cons c text =>
      dsimp only
      rw [← h, Nat.ofDigitChars_toDigits (by decide) (by decide)]

/-! ## Strings -/

def escape : List Char → List Char
  | [] => ['"']
  | c :: text => if c = '"' ∨ c = '\\' then '\\' :: c :: escape text else c :: escape text

def unescape : List Char → Option (List Char × List Char)
  | [] => none
  | '"' :: rest => some ([], rest)
  | '\\' :: c :: rest => (unescape rest).map fun p => (c :: p.1, p.2)
  | c :: rest => (unescape rest).map fun p => (c :: p.1, p.2)

theorem unescape_escape (text rest : List Char) : unescape (escape text ++ rest) = some (text, rest) := by
  induction text with
  | nil => rfl
  | cons c text ih =>
    by_cases h : c = '"' ∨ c = '\\'
    · simp only [escape, h, if_true, List.cons_append]
      rw [unescape, ih]
      rfl
    · obtain ⟨hq, hb⟩ := not_or.mp h
      simp only [escape, h, if_false, List.cons_append]
      rw [unescape, ih]
      · rfl
      · exact hq
      · rintro _ _ rfl
        exact absurd rfl hb

def string : Codec String where
  print s := '"' :: escape s.toList
  parse
    | '"' :: text => (unescape text).map fun p => (String.ofList p.1, p.2)
    | _ => none
  head s := ⟨'"', _, rfl, by decide, by decide, by decide⟩
  parse_print s rest _ := by
    simp only [List.cons_append, unescape_escape, Option.map_some, String.ofList_toList]

/-! ## Lists and objects -/

section
variable (close : Char) (c : Codec α)

def print_items : List α → List Char
  | [] => [close]
  | [a] => c.print a ++ [close]
  | a :: b :: l => c.print a ++ ',' :: print_items (b :: l)

def parse_items : Nat → List Char → Option (List α × List Char)
  | 0, _ => none
  | fuel + 1, text =>
    if text.head? = some close then some ([], text.tail)
    else
      match c.parse text with
      | some (a, d :: rest) =>
        if d = close then some ([a], rest)
        else if d = ',' then (parse_items fuel rest).map fun p => (a :: p.1, p.2)
        else none
      | _ => none

variable {close} (hc : close = ']' ∨ close = '\x7d')
include hc

theorem parse_items_of_parse (fuel : Nat) (a : α) (d : Char) (hd : d.isDigit = false) (rest : List Char) :
    parse_items close c (fuel + 1) (c.print a ++ d :: rest) =
      if d = close then some ([a], rest)
      else if d = ',' then (parse_items close c fuel rest).map fun p => (a :: p.1, p.2)
      else none := by
  obtain ⟨e, text, hp, -, hb, hr⟩ := c.head a
  have hhead : (c.print a ++ d :: rest).head? ≠ some close := by
    rw [hp]
    rcases hc with rfl | rfl
    · simpa using hb
    · simpa using hr
  rw [parse_items, if_neg hhead, c.parse_print a _ (ends_cons hd rest)]

theorem parse_print_items (rest : List Char) : ∀ (l : List α) (fuel : Nat), l.length < fuel →
    parse_items close c fuel (print_items close c l ++ rest) = some (l, rest)
  | [], fuel + 1, _ => by simp [parse_items, print_items]
  | [a], fuel + 1, _ => by
    have hd : close.isDigit = false := by rcases hc with rfl | rfl <;> decide
    rw [print_items, List.append_assoc, List.singleton_append, parse_items_of_parse c hc fuel a _ hd]
    simp
  | a :: b :: l, fuel + 1, hf => by
    have hd : ',' ≠ close := by rcases hc with rfl | rfl <;> decide
    have ih := parse_print_items rest (b :: l) fuel (by simpa using hf)
    rw [print_items, List.append_assoc, List.cons_append, parse_items_of_parse c hc fuel a _ (by decide)]
    simp [hd, ih]

omit hc in
variable (close) in
theorem length_lt_print_items : ∀ l : List α, l.length < (print_items close c l).length
  | [] => Nat.one_pos
  | [a] => by
    obtain ⟨d, text, hp, -⟩ := c.head a
    simp [print_items, hp]
  | a :: b :: l => by
    have ih := length_lt_print_items (b :: l)
    rw [print_items, List.length_append, List.length_cons]
    simp only [List.length_cons] at ih ⊢
    omega

end

def items (start : Char) (close : Char) (hs : Starts start) (hc : close = ']' ∨ close = '\x7d') (c : Codec α) :
    Codec (List α) where
  print l := start :: print_items close c l
  parse
    | [] => none
    | d :: text => if d = start then parse_items close c text.length text else none
  head l := ⟨start, _, rfl, hs⟩
  parse_print l rest _ := by
    have h := length_lt_print_items close c l
    have hl : l.length < (print_items close c l ++ rest).length := by
      rw [List.length_append]
      omega
    simpa using parse_print_items c hc rest l _ hl

def list (c : Codec α) : Codec (List α) :=
  items '[' ']' ⟨by decide, by decide, by decide⟩ (.inl rfl) c

def object (c : Codec α) : Codec (List α) :=
  items '\x7b' '\x7d' ⟨by decide, by decide, by decide⟩ (.inr rfl) c

/-! ## Options, fields and records -/

/-- A value, or `null` for none. -/
def option (c : Codec α) : Part (Option α) where
  print
    | none => "null".toList
    | some a => c.print a
  parse text :=
    match strip "null".toList text with
    | some rest => some (none, rest)
    | none => (c.parse text).map fun p => (some p.1, p.2)
  parse_print a rest hr := by
    cases a with
    | none => simp only [strip_append]
    | some a =>
      obtain ⟨d, text, hp, hd, -, -⟩ := c.head a
      have hs : strip "null".toList (c.print a ++ rest) = none := by
        rw [hp]
        exact if_neg (Ne.symm hd)
      simp only [hs, c.parse_print a rest hr, Option.map_some]

/-- The parts with a fixed text between them. -/
def pair (p : Part α) (text : List Char) (ht : ∀ rest, Ends (text ++ rest)) (q : Part β) : Part (α × β) where
  print ab := p.print ab.1 ++ (text ++ q.print ab.2)
  parse input := do
    let (a, rest) ← p.parse input
    let rest ← strip text rest
    let (b, rest) ← q.parse rest
    return ((a, b), rest)
  parse_print ab rest hr := by
    simp only [List.append_assoc]
    rw [p.parse_print _ _ (ht _)]
    simp [strip_append, q.parse_print _ _ hr]

def record (start : List Char) (hs : ∃ c text, start = c :: text ∧ Starts c) (p : Part α) : Codec α where
  print a := start ++ (p.print a ++ ['\x7d'])
  parse input := do
    let rest ← strip start input
    let (a, rest) ← p.parse rest
    let rest ← strip ['\x7d'] rest
    return (a, rest)
  head a := by
    obtain ⟨c, text, rfl, h⟩ := hs
    exact ⟨c, _, rfl, h⟩
  parse_print a rest hr := by
    simp only [List.append_assoc, strip_append, Option.bind_eq_bind, Option.bind_some, List.singleton_append]
    rw [p.parse_print _ _ (ends_cons (by decide) _)]
    rfl

def field (c : Codec α) : Codec (String × α) where
  toPart := pair string.toPart ":".toList (fun _ => ends_cons (by decide) _) c.toPart
  head a := ⟨'"', _, rfl, by decide, by decide, by decide⟩

/-- Values of `β` that `from_value` recovers from values of `α`. -/
def map (c : Codec α) (to_value : β → α) (from_value : α → Option β)
    (h : ∀ b, from_value (to_value b) = some b) : Codec β where
  print b := c.print (to_value b)
  parse text := do
    let (a, rest) ← c.parse text
    let b ← from_value a
    return (b, rest)
  head b := c.head (to_value b)
  parse_print b rest hr := by simp [c.parse_print _ _ hr, h]

/-! ## Whole texts -/

def to_string (c : Codec α) (a : α) : String := String.ofList (c.print a)

def from_str (c : Codec α) (s : String) : Option α :=
  match c.parse s.toList with
  | some (a, []) => some a
  | _ => none

theorem from_str_to_string (c : Codec α) (a : α) : c.from_str (c.to_string a) = some a := by
  have h := c.parse_print a [] ends_nil
  rw [List.append_nil] at h
  simp [from_str, to_string, h]

end Codec
