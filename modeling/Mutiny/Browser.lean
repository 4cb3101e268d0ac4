import Mathlib.Algebra.Group.Nat.Defs
import Mutiny.Codec
import Mutiny.Storage

/-!
# A browser to run on

Instances of what the storage takes as parameters: JSON for numbers, texts and bytes, and a browser that takes every
write, for stores without a password.
-/

namespace Mutiny

open Codec

def u64 : Codec UInt64 :=
  nat.map (·.toNat) (fun n => if n < 2 ^ 64 then some (UInt64.ofNat n) else none) fun n => by
    simp [n.toNat_lt]

def u8 : Codec UInt8 :=
  nat.map (·.toNat) (fun n => if n < 2 ^ 8 then some (UInt8.ofNat n) else none) fun n => by
    simp [n.toNat_lt]

def u32 : Codec UInt32 :=
  nat.map (·.toNat) (fun n => if n < 2 ^ 32 then some (UInt32.ofNat n) else none) fun n => by
    simp [n.toNat_lt]

theorem ends_of_head {c : Char} {text : List Char} (h : c.isDigit = false) : ∀ rest, Ends (c :: text ++ rest) :=
  fun rest => ends_cons h (text ++ rest)

@[reducible] def string_serde : Serde String :=
  ⟨Codec.string.to_string, Codec.string.from_str, Codec.string.from_str_to_string⟩

@[reducible] def bytes_serde : Serde (List UInt8) :=
  ⟨(Codec.list u8).to_string, (Codec.list u8).from_str, (Codec.list u8).from_str_to_string⟩

/-- For stores without a password: nothing is encrypted, so the cipher is never called. -/
def no_crypto : Crypto where
  base64_encode bytes := String.ofList (bytes.map fun b => Char.ofNat b.toNat)
  base64_decode s := some (s.toList.map fun c => UInt8.ofNat c.toNat)
  base64_decode_encode bytes := by
    have hc : ∀ b : UInt8, UInt8.ofNat (Char.ofNat b.toNat).toNat = b := by
      intro b
      have hb : b.toNat.isValidChar := Or.inl (Nat.lt_trans b.toNat_lt (by decide))
      rw [Char.ofNat, dif_pos hb]
      exact UInt8.ofNat_toNat
    simp [List.map_map, Function.comp_def, hc]
  derive_key _ _ := []
  cipher_encrypt _ _ data := data
  cipher_decrypt _ _ data := some data
  cipher_decrypt_encrypt _ _ _ := rfl

def open_host : Host where
  crypto := no_crypto
  refuses _ := false
  salt _ := .replicate 16 0
  iv _ := .replicate 12 0
  order l := l
  order_perm _ := .refl _

end Mutiny
