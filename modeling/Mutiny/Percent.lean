import Mathlib.Data.List.Basic
import Mutiny.Hex

/-!
# Percent-encoded text

`encode` keeps some characters and writes the bytes of the others in UTF-8 as `%` and two hexadecimal digits. `print`
joins encoded names and values to a query, and `parse` reads a query as web browsers do.
-/

namespace Percent

/-- The bytes of a text in UTF-8. -/
def utf8 (text : List Char) : List UInt8 := text.flatMap String.utf8EncodeChar

/-- The text that bytes in UTF-8 stand for. What bytes that are no UTF-8 are replaced by is left to `lossy`. -/
def of_utf8 (lossy : List UInt8 → String) (bytes : List UInt8) : String :=
  (String.fromUTF8? bytes.toByteArray).getD (lossy bytes)

def byte (b : UInt8) : List Char := '%' :: (Hex.byte b).map Char.toUpper

def encode (keep : Char → Bool) (text : List Char) : List Char :=
  text.flatMap fun c => if keep c then [c] else (String.utf8EncodeChar c).flatMap byte

/-- A `%` that two digits do not follow stands for itself. -/
def decode : List Char → List UInt8
  | [] => []
  | '%' :: c :: d :: text =>
    match Hex.nibble c, Hex.nibble d with
    | some hi, some lo => UInt8.ofNat (16 * hi + lo) :: decode text
    | _, _ => String.utf8EncodeChar '%' ++ decode (c :: d :: text)
  | c :: text => String.utf8EncodeChar c ++ decode text

/-- In a query `+` stands for a blank. -/
def unplus (text : List Char) : List Char := text.map fun c => if c = '+' then ' ' else c

def piece (keep : Char → Bool) (name value : List Char) : List Char := encode keep name ++ '=' :: encode keep value

def print (keep : Char → Bool) (pairs : List (List Char × List Char)) : List Char :=
  ['&'].intercalate (pairs.map fun pair => piece keep pair.1 pair.2)

/-- A piece without `=` is a name with an empty value. -/
def read_piece (text : List Char) : List UInt8 × List UInt8 :=
  (decode (unplus (text.takeWhile (· ≠ '='))), decode (unplus ((text.dropWhile (· ≠ '=')).drop 1)))

def parse (text : List Char) : List (List UInt8 × List UInt8) := ((text.splitOn '&').filter (· ≠ [])).map read_piece

/-! ## Bytes -/

theorem of_utf8_utf8 (lossy : List UInt8 → String) (text : List Char) : of_utf8 lossy (utf8 text) = .ofList text := by
  have hbytes : (utf8 text).toByteArray = text.utf8Encode := rfl
  unfold of_utf8 String.fromUTF8?
  rw [dif_pos (hbytes ▸ ByteArray.isValidUTF8_utf8Encode)]
  rfl

@[simp] theorem utf8_cons (c : Char) (text : List Char) : utf8 (c :: text) = String.utf8EncodeChar c ++ utf8 text :=
  List.flatMap_cons

theorem nibble_toUpper {n : Nat} (h : n < 16) : Hex.nibble (Nat.digitChar n).toUpper = some n := by
  have hall : ∀ n : Fin 16, Hex.nibble (Nat.digitChar n).toUpper = some n.val := by decide
  exact hall ⟨n, h⟩

theorem isAlphanum_toUpper {n : Nat} (h : n < 16) : (Nat.digitChar n).toUpper.isAlphanum = true := by
  have hall : ∀ n : Fin 16, (Nat.digitChar n).toUpper.isAlphanum = true := by decide
  exact hall ⟨n, h⟩

theorem mem_byte {b : UInt8} {c : Char} (h : c ∈ byte b) : c = '%' ∨ c.isAlphanum = true := by
  have hb := b.toNat_lt
  simp only [byte, Hex.byte, List.map_cons, List.map_nil, List.mem_cons, List.not_mem_nil, or_false] at h
  rcases h with rfl | rfl | rfl
  · exact .inl rfl
  · exact .inr (isAlphanum_toUpper (by omega))
  · exact .inr (isAlphanum_toUpper (by omega))

theorem decode_byte_append (b : UInt8) (rest : List Char) : decode (byte b ++ rest) = b :: decode rest := by
  have hb := b.toNat_lt
  simp only [byte, Hex.byte, List.map_cons, List.map_nil, List.cons_append, List.nil_append]
  rw [decode, nibble_toUpper (by omega), nibble_toUpper (Nat.mod_lt _ (by decide))]
  simp only [Nat.div_add_mod, UInt8.ofNat_toNat]

theorem decode_bytes_append (bytes : List UInt8) (rest : List Char) :
    decode (bytes.flatMap byte ++ rest) = bytes ++ decode rest := by
  induction bytes with
  | nil => rfl
  | cons b bytes ih => rw [List.flatMap_cons, List.append_assoc, decode_byte_append, ih, List.cons_append]

theorem decode_cons {c : Char} (h : c ≠ '%') (rest : List Char) :
    decode (c :: rest) = String.utf8EncodeChar c ++ decode rest := by
  rw [decode]
  intro _ _ _ he
  exact absurd he h

/-! ## Texts -/

section
variable {keep : Char → Bool}

theorem encode_cons (c : Char) (text : List Char) : encode keep (c :: text) =
    (if keep c then [c] else (String.utf8EncodeChar c).flatMap byte) ++ encode keep text := List.flatMap_cons

theorem mem_encode {text : List Char} {c : Char} (h : c ∈ encode keep text) :
    keep c = true ∨ c = '%' ∨ c.isAlphanum = true := by
  obtain ⟨d, -, hd⟩ := List.mem_flatMap.mp h
  split at hd
  · next hkeep =>
    cases List.mem_singleton.mp hd
    exact .inl hkeep
  · obtain ⟨b, -, hb⟩ := List.mem_flatMap.mp hd
    exact .inr (mem_byte hb)

theorem not_mem_encode {text : List Char} {c : Char} (hkeep : keep c = false) (hp : c ≠ '%')
    (hc : c.isAlphanum = false) : c ∉ encode keep text := by
  intro h
  rcases mem_encode h with h | h | h
  · exact Bool.false_ne_true (hkeep.symm.trans h)
  · exact hp h
  · exact Bool.false_ne_true (hc.symm.trans h)

theorem decode_encode_append (hkeep : keep '%' = false) (text rest : List Char) :
    decode (encode keep text ++ rest) = utf8 text ++ decode rest := by
  induction text with
  | nil => rfl
  | cons c text ih =>
    rw [encode_cons, utf8_cons, List.append_assoc, List.append_assoc]
    split
    · next hc =>
      have hne : c ≠ '%' := by
        rintro rfl
        exact Bool.false_ne_true (hkeep.symm.trans hc)
      rw [List.singleton_append, decode_cons hne, ih]
    · rw [decode_bytes_append, ih]

theorem decode_encode (hkeep : keep '%' = false) (text : List Char) : decode (encode keep text) = utf8 text := by
  have h := decode_encode_append hkeep text []
  rwa [List.append_nil, decode, List.append_nil] at h

theorem unplus_eq {text : List Char} (h : '+' ∉ text) : unplus text = text := by
  refine (List.map_congr_left fun c hc => if_neg ?_).trans (List.map_id text)
  rintro rfl
  exact h hc

/-! ## Queries -/

/-- The characters that mean something in a query are not kept. -/
structure Reserved (keep : Char → Bool) : Prop where
  percent : keep '%' = false
  plus : keep '+' = false
  equals : keep '=' = false
  ampersand : keep '&' = false

theorem read_piece_piece (hkeep : Reserved keep) (name value : List Char) :
    read_piece (piece keep name value) = (utf8 name, utf8 value) := by
  have hname : ∀ c ∈ encode keep name, decide (c ≠ '=') = true := by
    intro c hc
    refine decide_eq_true fun he => ?_
    subst he
    exact not_mem_encode hkeep.equals (by decide) (by decide) hc
  have hplus : ∀ text, unplus (encode keep text) = encode keep text :=
    fun text => unplus_eq (not_mem_encode hkeep.plus (by decide) (by decide))
  unfold read_piece piece
  rw [List.takeWhile_append_of_pos hname, List.dropWhile_append_of_pos hname]
  simp only [List.takeWhile_cons, List.dropWhile_cons, ne_eq, not_true, decide_false, Bool.false_eq_true, if_false,
    List.append_nil, List.drop_one, List.tail_cons, hplus, decode_encode hkeep.percent]

theorem piece_ne_nil (name value : List Char) : piece keep name value ≠ [] :=
  List.append_ne_nil_of_right_ne_nil _ (List.cons_ne_nil _ _)

theorem not_mem_piece (hkeep : Reserved keep) (name value : List Char) : '&' ∉ piece keep name value := by
  have hencode : ∀ text, '&' ∉ encode keep text := fun text => not_mem_encode hkeep.ampersand (by decide) (by decide)
  unfold piece
  rw [List.mem_append, List.mem_cons]
  rintro (h | h | h)
  · exact hencode name h
  · exact absurd h (by decide)
  · exact hencode value h

/-- What a browser reads in a query that was printed is what it was printed from. -/
theorem parse_print (hkeep : Reserved keep) (pairs : List (List Char × List Char)) :
    parse (print keep pairs) = pairs.map fun pair => (utf8 pair.1, utf8 pair.2) := by
  by_cases hp : pairs = []
  · subst hp
    rfl
  · have hsep : ∀ text ∈ pairs.map fun pair => piece keep pair.1 pair.2, '&' ∉ text := by
      intro text htext
      obtain ⟨pair, -, rfl⟩ := List.mem_map.mp htext
      exact not_mem_piece hkeep _ _
    have hnil : ∀ text ∈ pairs.map fun pair => piece keep pair.1 pair.2, decide (text ≠ []) = true := by
      intro text htext
      obtain ⟨pair, -, rfl⟩ := List.mem_map.mp htext
      exact decide_eq_true (piece_ne_nil _ _)
    unfold parse print
    rw [List.splitOn_intercalate '&' hsep (by simpa using hp), List.filter_eq_self.mpr hnil, List.map_map]
    exact List.map_congr_left fun pair _ => read_piece_piece hkeep pair.1 pair.2

theorem mem_piece {name value : List Char} {c : Char} (h : c ∈ piece keep name value) :
    keep c = true ∨ c = '%' ∨ c = '=' ∨ c.isAlphanum = true := by
  rcases List.mem_append.mp h with h | h
  · rcases mem_encode h with h | h | h <;> simp [h]
  · rcases List.mem_cons.mp h with h | h
    · exact .inr (.inr (.inl h))
    · rcases mem_encode h with h | h | h <;> simp [h]

theorem mem_print {pairs : List (List Char × List Char)} {c : Char} (h : c ∈ print keep pairs) :
    keep c = true ∨ c = '%' ∨ c = '=' ∨ c = '&' ∨ c.isAlphanum = true := by
  unfold print at h
  induction pairs with
  | nil => cases h
  | cons pair pairs ih =>
    have hpiece : c ∈ piece keep pair.1 pair.2 → keep c = true ∨ c = '%' ∨ c = '=' ∨ c = '&' ∨ c.isAlphanum = true := by
      intro hc
      rcases mem_piece hc with h | h | h | h <;> simp [h]
    by_cases hp : pairs.map (fun pair => piece keep pair.1 pair.2) = []
    · rw [List.map_cons, hp, List.intercalate_singleton] at h
      exact hpiece h
    · rw [List.map_cons, List.intercalate_cons_of_ne_nil hp, List.append_assoc, List.mem_append, List.singleton_append,
        List.mem_cons] at h
      rcases h with h | h | h
      · exact hpiece h
      · exact .inr (.inr (.inr (.inl h)))
      · exact ih h

end

end Percent
