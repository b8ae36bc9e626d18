import Mathlib.Data.List.Basic
import Mathlib.Data.List.Induction
import Mathlib.Tactic.Ring

/-! Big-endian numerals of any width over bytes. -/

namespace SftpServer.Foundations

/-- A byte string; Go's strings and slices of bytes are both read as one. -/
abbrev Bytes := List UInt8

namespace BigEndian

/-- The number a byte string spells, most significant byte first. -/
def decode (bytes : Bytes) : Nat :=
  bytes.foldl (fun value byte => value * 256 + byte.toNat) 0

/-- The `width` low bytes of a number, most significant byte first. -/
def encode : (width : Nat) → Nat → Bytes
  | 0, _ => []
  | width + 1, n => encode width (n / 256) ++ [UInt8.ofNat n]

@[simp]
theorem length_encode (width n : Nat) : (encode width n).length = width := by
  induction width generalizing n with
  | zero => rfl
  | succ width ih => simp [encode, ih]

theorem decode_concat (bytes : Bytes) (byte : UInt8)
    : decode (bytes ++ [byte]) = decode bytes * 256 + byte.toNat := by
  simp [decode]

/-- Reading back a numeral keeps what its width can hold, by induction on the width. -/
theorem decode_encode (width n : Nat) : decode (encode width n) = n % 256 ^ width := by
  induction width generalizing n with
  | zero => simp [decode, encode, Nat.mod_one]
  | succ width ih =>
      have split : n % 256 ^ (width + 1) = n / 256 % 256 ^ width * 256 + n % 256 := by
        rw [pow_succ', Nat.mod_mul]
        ring
      rw [encode, decode_concat, ih, split]
      simp

/-- The number a byte string spells has that spelling alone at that width, by induction
from the last byte.
-/
theorem encode_decode {width : Nat} {bytes : Bytes} (length : bytes.length = width)
    : encode width (decode bytes) = bytes := by
  subst length
  induction bytes using List.reverseRecOn with
  | nil => rfl
  | append_singleton bytes byte ih =>
      have low := byte.toNat_lt
      have high : (decode bytes * 256 + byte.toNat) / 256 = decode bytes := by omega
      have last : UInt8.ofNat (decode bytes * 256 + byte.toNat) = byte := by
        apply UInt8.toNat_inj.mp
        simp only [UInt8.toNat_ofNat']
        omega
      rw [List.length_append, List.length_singleton, decode_concat, encode, high, ih, last]

theorem decode_lt {width : Nat} {bytes : Bytes} (length : bytes.length = width)
    : decode bytes < 256 ^ width := by
  subst length
  induction bytes using List.reverseRecOn with
  | nil => simp [decode]
  | append_singleton bytes byte ih =>
      have low := byte.toNat_lt
      rw [decode_concat, List.length_append, List.length_singleton, pow_succ]
      omega

end BigEndian

end SftpServer.Foundations
