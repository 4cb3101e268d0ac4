import Mathlib.Logic.Basic

/-!
# Hexadecimal text

Bytes as lower-case hexadecimal digits, two for each byte. Different byte strings have different texts.
-/

namespace Hex

def byte (b : UInt8) : List Char := [Nat.digitChar (b.toNat / 16), Nat.digitChar (b.toNat % 16)]

def nibble (c : Char) : Option Nat :=
  if '0' ≤ c ∧ c ≤ '9' then some (c.toNat - 48)
  else if 'a' ≤ c ∧ c ≤ 'f' then some (c.toNat - 87)
  else if 'A' ≤ c ∧ c ≤ 'F' then some (c.toNat - 55)
  else none

def read_bytes : List Char → Option (List UInt8)
  | [] => some []
  | [_] => none
  | c :: d :: text => do
    let hi ← nibble c
    let lo ← nibble d
    let bytes ← read_bytes text
    return UInt8.ofNat (16 * hi + lo) :: bytes

def from_hex (s : String) : Option (List UInt8) := read_bytes s.toList

def to_hex (bytes : List UInt8) : String := String.ofList (bytes.flatMap byte)

theorem digitChar_injective {m n : Nat} (hm : m < 16) (hn : n < 16) (h : Nat.digitChar m = Nat.digitChar n) : m = n := by
  have hall : ∀ m : Fin 16, ∀ n : Fin 16, Nat.digitChar m = Nat.digitChar n → m = n := by decide
  exact congrArg Fin.val (hall ⟨m, hm⟩ ⟨n, hn⟩ h)

theorem byte_injective {a b : UInt8} (h : byte a = byte b) : a = b := by
  have ha := a.toNat_lt
  have hb := b.toNat_lt
  obtain ⟨hq, hr⟩ : Nat.digitChar (a.toNat / 16) = Nat.digitChar (b.toNat / 16) ∧
      Nat.digitChar (a.toNat % 16) = Nat.digitChar (b.toNat % 16) := by simpa [byte] using h
  have hq := digitChar_injective (by omega) (by omega) hq
  have hr := digitChar_injective (by omega) (by omega) hr
  exact UInt8.toNat_inj.mp (by omega)

theorem flatMap_byte_injective : ∀ {a b : List UInt8}, a.flatMap byte = b.flatMap byte → a = b
  | [], [], _ => rfl
  | [], _ :: _, h => by simp [byte] at h
  | _ :: _, [], h => by simp [byte] at h
  | x :: a, y :: b, h => by
    rw [List.flatMap_cons, List.flatMap_cons] at h
    obtain ⟨hb, hrest⟩ := List.append_inj h rfl
    rw [byte_injective hb, flatMap_byte_injective hrest]

theorem to_hex_injective {a b : List UInt8} (h : to_hex a = to_hex b) : a = b :=
  flatMap_byte_injective (String.ofList_injective h)

/-! ## Reading it back -/

theorem nibble_digitChar {n : Nat} (h : n < 16) : nibble (Nat.digitChar n) = some n := by
  have hall : ∀ n : Fin 16, nibble (Nat.digitChar n) = some n.val := by decide
  exact hall ⟨n, h⟩

theorem read_bytes_flatMap : ∀ bytes : List UInt8, read_bytes (bytes.flatMap byte) = some bytes
  | [] => rfl
  | b :: bytes => by
    have hb := b.toNat_lt
    have hq : b.toNat / 16 < 16 := by omega
    have hr : b.toNat % 16 < 16 := Nat.mod_lt _ (by decide)
    have heq : UInt8.ofNat (16 * (b.toNat / 16) + b.toNat % 16) = b := by
      rw [Nat.div_add_mod, UInt8.ofNat_toNat]
    rw [List.flatMap_cons, byte, List.cons_append, List.cons_append, List.nil_append, read_bytes, nibble_digitChar hq,
      nibble_digitChar hr, read_bytes_flatMap bytes]
    exact congrArg (fun c => some (c :: bytes)) heq

theorem isPrefixOf_flatMap : ∀ start bytes : List UInt8,
    (start.flatMap byte).isPrefixOf (bytes.flatMap byte) = start.isPrefixOf bytes
  | [], _ => rfl
  | _ :: _, [] => rfl
  | a :: start, b :: bytes => by
    have hb : (Nat.digitChar (a.toNat / 16) = Nat.digitChar (b.toNat / 16) ∧
        Nat.digitChar (a.toNat % 16) = Nat.digitChar (b.toNat % 16)) ↔ a = b := by
      refine ⟨fun h => byte_injective ?_, fun h => by rw [h]; exact ⟨rfl, rfl⟩⟩
      rw [byte, byte, h.1, h.2]
    have ih := isPrefixOf_flatMap start bytes
    by_cases hab : a = b
    · subst hab
      simp [byte, ih]
    · have hor := mt hb.mp hab
      simp only [List.flatMap_cons, byte, List.cons_append, List.nil_append, List.isPrefixOf_cons_cons, ← Bool.and_assoc]
      rw [Bool.eq_iff_iff]
      simp [hab, hor]

end Hex
