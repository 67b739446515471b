import Mathlib.Algebra.CharP.Two
import Mathlib.Algebra.Field.ZMod
import Mathlib.Data.BitVec
import Mathlib.Data.Fin.VecNotation
import Mathlib.FieldTheory.IsAlgClosed.AlgebraicClosure
import Mathlib.Tactic.ComputeDegree
import Mathlib.Tactic.LinearCombination

/-! The AES cipher over matrices of bytes, where a byte stands for a polynomial over the field of
two elements modulo `x^8 + x^4 + x^3 + x + 1`. -/

namespace UdpForwarder.Rijndael

abbrev Byte := BitVec 8

def xtime (b : Byte) : Byte := b <<< 1 ^^^ (if b.msb then 0x1B else 0)

def partialTimes (a b : Byte) : Nat → Byte
  | 0 => 0
  | n + 1 => partialTimes a b n ^^^ (if b.getLsbD n then xtime^[n] a else 0)

def times (a b : Byte) : Byte := partialTimes a b 8

/-- `b^254`, a product of seven squares. -/
def inverse (b : Byte) : Byte :=
  (List.iterate (fun power => times power power) (times b b) 7).foldr times 1

theorem times_inverse (b : Byte) (nonzero : b ≠ 0) : times b (inverse b) = 1 := by
  revert b
  decide +kernel

def affine (b : Byte) : Byte :=
  b ^^^ b.rotateLeft 1 ^^^ b.rotateLeft 2 ^^^ b.rotateLeft 3 ^^^ b.rotateLeft 4 ^^^ 0x63

def sbox (b : Byte) : Byte := affine (inverse b)

/-- A column of the state by row; also a word of the key schedule. -/
abbrev Column := Fin 4 → Byte

abbrev Block := Fin 4 → Column

def Column.add (v w : Column) : Column := fun row => v row ^^^ w row

def addRoundKey (key s : Block) : Block := fun column => (s column).add (key column)

def subBytes (s : Block) : Block := fun column row => sbox (s column row)

def shiftRows (s : Block) : Block := fun column row => s (column + row) row

/-- The first row of the circulant matrix of `mixColumns`. -/
def coefficient : Fin 4 → Byte := ![2, 3, 1, 1]

def mixColumn (w : Column) : Column := fun row =>
  times (w 0) (coefficient (0 - row)) ^^^ times (w 1) (coefficient (1 - row)) ^^^
    times (w 2) (coefficient (2 - row)) ^^^ times (w 3) (coefficient (3 - row))

def mixColumns (s : Block) : Block := fun column => mixColumn (s column)

def subWord (w : Column) : Column := fun row => sbox (w row)

def rotWord (w : Column) : Column := fun row => w (row + 1)

def rcon (j : Nat) : Column := fun row => if row = 0 then xtime^[j - 1] 1 else 0

/-- What the key schedule makes of word `i - 1` before it is added to word `i - nk`. -/
def core (nk i : Nat) (w : Column) : Column :=
  if i % nk = 0 then (subWord (rotWord w)).add (rcon (i / nk))
  else if 6 < nk ∧ i % nk = 4 then subWord w
  else w

/-- Word `i` of the expansion of a key of `nk` words. -/
def keyWord (nk : Nat) (key : Nat → Column) (i : Nat) : Column :=
  if 0 < nk ∧ nk ≤ i then (core nk i (keyWord nk key (i - 1))).add (keyWord nk key (i - nk))
  else key i
termination_by i

theorem keyWord_of_lt {nk i : Nat} (key : Nat → Column) (early : i < nk) :
    keyWord nk key i = key i := by
  have late : ¬(0 < nk ∧ nk ≤ i) := by omega
  rw [keyWord, if_neg late]

theorem keyWord_of_ge {nk i : Nat} (key : Nat → Column) (positive : 0 < nk) (late : nk ≤ i) :
    keyWord nk key i = (core nk i (keyWord nk key (i - 1))).add (keyWord nk key (i - nk)) := by
  rw [keyWord, if_pos ⟨positive, late⟩]

section Cipher

variable (nk : Nat) (key : Nat → Column)

def roundKey (round : Nat) : Block := fun column => keyWord nk key (4 * round + column)

def rounds (s : Block) : Nat → Block
  | 0 => addRoundKey (roundKey nk key 0) s
  | n + 1 => addRoundKey (roundKey nk key (n + 1))
      (mixColumns (shiftRows (subBytes (rounds s n))))

/-- `nk + 6` rounds, the last of them without `mixColumns`. -/
def cipher (s : Block) : Block :=
  addRoundKey (roundKey nk key (nk + 6)) (shiftRows (subBytes (rounds nk key s (nk + 5))))

end Cipher

def columnOf (bytes : List UInt8) (i : Nat) : Column := fun row =>
  (bytes.getD (4 * i + row) 0).toBitVec

def blockOf (bytes : List UInt8) : Block := fun column => columnOf bytes column

def bytesOf (s : Block) : List UInt8 :=
  (List.finRange 4).flatMap fun column => (List.finRange 4).map fun row => ⟨s column row⟩

/-- AES on byte strings, under a key of 16, 24 or 32 bytes. -/
def encrypt (key block : List UInt8) : List UInt8 :=
  bytesOf (cipher (key.length / 4) (columnOf key) (blockOf block))

/-! What the bytes stand for, in any field of characteristic two with a root of the modulus. -/

section Value

variable {K : Type*} [Field K] (x : K)

def partialValue (b : Byte) : Nat → K
  | 0 => 0
  | n + 1 => partialValue b n + (if b.getLsbD n then x ^ n else 0)

def value (b : Byte) : K := partialValue x b 8

@[simp] theorem value_zero : value x 0 = 0 := by simp [value, partialValue]

@[simp] theorem value_one : value x 1 = 1 := by simp [value, partialValue]

theorem partialValue_shift (b : Byte) {n : Nat} (inside : n < 8) :
    partialValue x (b <<< 1) (n + 1) = x * partialValue x b n := by
  induction n with
  | zero => simp [partialValue]
  | succ n ih =>
      have moved : (b <<< 1).getLsbD (n + 1) = b.getLsbD n := by
        rw [BitVec.getLsbD_shiftLeft, decide_eq_true inside, Nat.add_sub_cancel]
        simp
      rw [partialValue, ih (Nat.lt_of_succ_lt inside), moved, partialValue, mul_add, pow_succ']
      split
      · rfl
      · rw [mul_zero]

variable [CharP K 2]

theorem partialValue_xor (a b : Byte) (n : Nat) :
    partialValue x (a ^^^ b) n = partialValue x a n + partialValue x b n := by
  induction n with
  | zero => simp [partialValue]
  | succ n ih =>
      have twice : x ^ n + x ^ n = 0 := CharTwo.add_self_eq_zero _
      simp only [partialValue, ih, BitVec.getLsbD_xor]
      cases a.getLsbD n <;> cases b.getLsbD n <;>
        simp only [Bool.xor_false, Bool.xor_true, Bool.not_true, Bool.not_false, if_true,
          Bool.false_eq_true, if_false]
      · ring
      · ring
      · ring
      · linear_combination -twice

theorem value_xor (a b : Byte) : value x (a ^^^ b) = value x a + value x b :=
  partialValue_xor x a b 8

variable {x} (root : x ^ 8 + x ^ 4 + x ^ 3 + x + 1 = 0)

include root

/-- The term `x^8` that the shift drops is what `0x1B` stands for. -/
theorem value_xtime (b : Byte) : value x (xtime b) = x * value x b := by
  have reduced : x ^ 8 = value x 0x1B := by
    have twice (y : K) : y + y = 0 := CharTwo.add_self_eq_zero y
    have constant : value x 0x1B = 1 + x + x ^ 3 + x ^ 4 := by simp [value, partialValue]
    rw [constant]
    linear_combination root - twice (x ^ 4) - twice (x ^ 3) - twice x - twice 1
  have shifted : value x (b <<< 1) = x * partialValue x b 7 :=
    partialValue_shift x b (by decide)
  have whole : value x b = partialValue x b 7 + (if b.msb then x ^ 7 else 0) := by
    rw [BitVec.msb_eq_getLsbD_last]
    rfl
  rw [xtime, value_xor, shifted, whole, mul_add]
  congr 1
  split
  · rw [← reduced, ← pow_succ']
  · rw [value_zero, mul_zero]

theorem value_xtime_iterate (b : Byte) (n : Nat) :
    value x (xtime^[n] b) = x ^ n * value x b := by
  induction n with
  | zero => simp
  | succ n ih =>
      rw [Function.iterate_succ_apply', value_xtime root, ih, pow_succ', mul_assoc]

theorem value_partialTimes (a b : Byte) (n : Nat) :
    value x (partialTimes a b n) = value x a * partialValue x b n := by
  induction n with
  | zero => rw [partialTimes, partialValue, value_zero, mul_zero]
  | succ n ih =>
      rw [partialTimes, value_xor, ih, partialValue, mul_add]
      congr 1
      split
      · rw [value_xtime_iterate root, mul_comm]
      · rw [value_zero, mul_zero]

theorem value_times (a b : Byte) : value x (times a b) = value x a * value x b :=
  value_partialTimes root a b 8

theorem value_inverse (b : Byte) : value x (inverse b) = (value x b)⁻¹ := by
  by_cases zero : b = 0
  · have nothing : inverse 0 = 0 := by decide +kernel
    rw [zero, nothing, value_zero, inv_zero]
  · have unit : times b (inverse b) = 1 := times_inverse b zero
    apply eq_inv_of_mul_eq_one_right
    rw [← value_times root, unit, value_one]

/-- Distinct bytes differ by a byte with an inverse. -/
theorem value_injective : Function.Injective (value x) := by
  intro a b same
  by_contra distinct
  have nonzero : a ^^^ b ≠ 0 := fun equal => distinct (BitVec.xor_eq_zero_iff.mp equal)
  have unit := congrArg (value x) (times_inverse (a ^^^ b) nonzero)
  rw [value_times root, value_xor, same, CharTwo.add_self_eq_zero, zero_mul, value_one] at unit
  exact zero_ne_one unit

end Value

theorem exists_root : ∃ x : AlgebraicClosure (ZMod 2), x ^ 8 + x ^ 4 + x ^ 3 + x + 1 = 0 := by
  let modulus : Polynomial (AlgebraicClosure (ZMod 2)) := .X ^ 8 + .X ^ 4 + .X ^ 3 + .X + 1
  have degree : modulus.degree = 8 := by
    simp only [modulus]
    compute_degree!
  obtain ⟨x, isRoot⟩ := IsAlgClosed.exists_root modulus (by rw [degree]; decide)
  refine ⟨x, ?_⟩
  simpa [modulus, Polynomial.IsRoot] using isRoot

theorem eq_inverse {b c : Byte} (unit : times b c = 1) : c = inverse b := by
  obtain ⟨x, root⟩ := exists_root
  apply value_injective root
  rw [value_inverse root]
  apply eq_inv_of_mul_eq_one_right
  rw [← value_times root, unit, value_one]

end UdpForwarder.Rijndael
