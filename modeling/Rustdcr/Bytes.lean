import Mathlib.Data.Nat.Bitwise

/-!
# Bytes

Bytes are `UInt8`, as the source's `u8`, and a Rust string's bytes are the
UTF-8 encoding of a Lean `String` (`utf8Bytes`, what `str::as_bytes` gives).
The short `UInt8` lemmas move byte arithmetic to `Nat`, where `omega`
closes it.
-/

namespace Rustdcr

/-- `str::as_bytes`: the UTF-8 encoding of a string. -/
def utf8Bytes (s : String) : List UInt8 := s.toUTF8.data.toList

theorem utf8Bytes_eq (s : String) : utf8Bytes s = s.data.flatMap String.utf8EncodeChar := rfl

/-! ## Byte arithmetic on `Nat` -/

namespace Byte

theorem le_iff_toNat (a b : UInt8) : a ≤ b ↔ a.toNat ≤ b.toNat := .rfl

theorem eq_iff_toNat (a b : UInt8) : a = b ↔ a.toNat = b.toNat :=
  ⟨congrArg _, UInt8.toNat.inj⟩

@[simp] theorem toNat_lit (n : Nat) : (no_index (OfNat.ofNat n : UInt8)).toNat = n % 256 := rfl

@[simp] theorem toNat_natToUInt8 (n : Nat) : n.toUInt8.toNat = n % 256 := rfl

theorem toNat_or (a b : UInt8) : (a ||| b).toNat = a.toNat ||| b.toNat := rfl

/-- `d - lo + off` without wrap-around, as `from_hex_digit` computes a digit. -/
theorem toNat_sub_add (d lo off : UInt8) (h : lo.toNat ≤ d.toNat)
    (hb : d.toNat - lo.toNat + off.toNat < 256) :
    (d - lo + off).toNat = d.toNat - lo.toNat + off.toNat := by
  have hs : (d - lo).toNat = d.toNat - lo.toNat := UInt8.toNat_sub_of_le d lo h
  show ((d - lo).toNat + off.toNat) % 256 = _
  rw [hs, Nat.mod_eq_of_lt hb]

end Byte

end Rustdcr
