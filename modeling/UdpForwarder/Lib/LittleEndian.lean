import Mathlib.Algebra.Group.Nat.Defs
import Mathlib.Data.List.Basic

/-! Little-endian byte representations of natural numbers. -/

namespace UdpForwarder.LittleEndian

/-- Little-endian bytes of an integer object of `width` bytes. -/
def encodeLE : Nat → Nat → List UInt8
  | 0, _ => []
  | width + 1, value => UInt8.ofNat value :: encodeLE width (value / 256)

def decodeLE : List UInt8 → Nat
  | [] => 0
  | byte :: rest => byte.toNat + 256 * decodeLE rest

@[simp] theorem encodeLE_length (width value : Nat) : (encodeLE width value).length = width := by
  induction width generalizing value with
  | zero => rfl
  | succ width ih => simp [encodeLE, ih]

theorem decodeLE_encodeLE {width value : Nat} (fits : value < 256 ^ width) :
    decodeLE (encodeLE width value) = value := by
  induction width generalizing value with
  | zero =>
      have zero : value = 0 := by simpa using fits
      simp [encodeLE, decodeLE, zero]
  | succ width ih =>
      have high : value / 256 < 256 ^ width := by
        rw [Nat.div_lt_iff_lt_mul (by decide)]
        simpa [Nat.pow_succ] using fits
      have low : (UInt8.ofNat value).toNat = value % 256 := by simp
      rw [encodeLE, decodeLE, ih high, low]
      exact Nat.mod_add_div value 256

theorem decodeLE_lt (bytes : List UInt8) : decodeLE bytes < 256 ^ bytes.length := by
  induction bytes with
  | nil => simp [decodeLE]
  | cons byte rest ih =>
      have small : byte.toNat < 256 := byte.toNat_lt
      simp only [decodeLE, List.length_cons, Nat.pow_succ]
      omega

theorem encodeLE_decodeLE (bytes : List UInt8) :
    encodeLE bytes.length (decodeLE bytes) = bytes := by
  induction bytes with
  | nil => rfl
  | cons byte rest ih =>
      have small : byte.toNat < 256 := byte.toNat_lt
      have low : UInt8.ofNat (byte.toNat + 256 * decodeLE rest) = byte := by
        apply UInt8.toNat.inj
        rw [UInt8.toNat_ofNat']
        omega
      have high : (byte.toNat + 256 * decodeLE rest) / 256 = decodeLE rest := by omega
      rw [List.length_cons, decodeLE, encodeLE, low, high, ih]

theorem encodeLE_mod (width value : Nat) :
    encodeLE width (value % 256 ^ width) = encodeLE width value := by
  induction width generalizing value with
  | zero => rfl
  | succ width ih =>
      have split : 256 ^ (width + 1) = 256 * 256 ^ width := Nat.pow_succ'
      have high : value % 256 ^ (width + 1) / 256 = value / 256 % 256 ^ width := by
        rw [split, Nat.mod_mul_right_div_self]
      have low : UInt8.ofNat (value % 256 ^ (width + 1)) = UInt8.ofNat value := by
        apply UInt8.toNat.inj
        rw [UInt8.toNat_ofNat', UInt8.toNat_ofNat', split]
        exact Nat.mod_mul_right_mod value 256 (256 ^ width)
      rw [encodeLE, encodeLE, low, high, ih]

theorem decodeLE_encodeLE_mod (width value : Nat) :
    decodeLE (encodeLE width value) = value % 256 ^ width := by
  rw [← encodeLE_mod, decodeLE_encodeLE (Nat.mod_lt _ (Nat.pow_pos (by decide)))]

end UdpForwarder.LittleEndian
