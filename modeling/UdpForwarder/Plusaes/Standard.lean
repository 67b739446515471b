import UdpForwarder.Plusaes.Padding
import UdpForwarder.Lib.Rijndael
import Mathlib.Tactic.FinCases

/-! `encrypt_state` over the schedule of `expand_key` is AES for all three key sizes, with its
tables and its byte arithmetic taken back to the field they come from. -/

namespace UdpForwarder.Plusaes

open Rijndael (Column Block Byte)

def column (w : Word) : Column := fun row => byteAt w row

def columns (s : State) : Block := fun i => column (s.get i)

theorem column_packWord (b0 b1 b2 b3 : Byte) :
    column (packWord b0 b1 b2 b3) = ![b0, b1, b2, b3] := by
  funext row
  fin_cases row <;> simp [column]

theorem columns_forEach (assign : Nat → Word) :
    columns (State.forEach assign) = fun i : Fin 4 => column (assign i) := by
  funext i
  fin_cases i <;> rfl

theorem byteAt_xor (v w : Word) (index : Nat) :
    byteAt (v ^^^ w) index = byteAt v index ^^^ byteAt w index := by
  apply BitVec.eq_of_getLsbD_eq
  intro i low
  simp only [BitVec.getLsbD_xor, getLsbD_byteAt, low, decide_true, Bool.true_and]

theorem column_xor (v w : Word) : column (v ^^^ w) = (column v).add (column w) := by
  funext row
  exact byteAt_xor v w row

theorem columns_addRoundKey (key : RoundKey) (s : State) :
    columns (addRoundKey key s) = Rijndael.addRoundKey (columns key) (columns s) := by
  rw [addRoundKey, columns_forEach]
  funext i
  exact column_xor (s.get i) (key.get i)

/-- The byte that the affine map takes to an entry of the table. -/
def unaffine (c : Byte) : Byte :=
  c.rotateLeft 1 ^^^ c.rotateLeft 3 ^^^ c.rotateLeft 6 ^^^ 0x05

theorem kSbox_entries (b : Byte) :
    Rijndael.affine (unaffine (substitute kSbox b)) = substitute kSbox b ∧
      (b ≠ 0 → Rijndael.times b (unaffine (substitute kSbox b)) = 1) := by
  revert b
  decide +kernel

theorem substitute_kSbox (b : Byte) : substitute kSbox b = Rijndael.sbox b := by
  obtain ⟨image, unit⟩ := kSbox_entries b
  rw [Rijndael.sbox]
  by_cases zero : b = 0
  · rw [zero]
    decide +kernel
  · rw [← Rijndael.eq_inverse (unit zero), image]

theorem column_subWord (w : Word) : column (subWord w) = Rijndael.subWord (column w) := by
  rw [subWord, column_packWord]
  funext row
  fin_cases row <;> exact substitute_kSbox _

theorem columns_subBytes (s : State) : columns (subBytes s) = Rijndael.subBytes (columns s) := by
  rw [subBytes, columns_forEach]
  funext i
  exact column_subWord (s.get i)

theorem columns_shiftRows (s : State) :
    columns (shiftRows s) = Rijndael.shiftRows (columns s) := by
  rcases s with ⟨a, b, c, d⟩
  funext i row
  fin_cases i <;> fin_cases row <;>
    simp [shiftRows, Rijndael.shiftRows, columns, column, State.forEach, State.get, byteAt_blend]

theorem mul2_eq_xtime (b : Byte) : mul2 b = Rijndael.xtime b := mul2_eq b

theorem times_coefficients (b : Byte) :
    Rijndael.times b 1#8 = b ∧ Rijndael.times b 2#8 = mul2 b ∧
      Rijndael.times b 3#8 = mul2 b ^^^ b := by
  revert b
  decide +kernel

theorem column_mixColumn (w : Word) : column (mixColumn w) = Rijndael.mixColumn (column w) := by
  rw [mixColumn, column_packWord]
  funext row
  fin_cases row <;>
    simp [Rijndael.mixColumn, Rijndael.coefficient, times_coefficients, column]

theorem columns_mixColumns (s : State) :
    columns (mixColumns s) = Rijndael.mixColumns (columns s) := by
  rw [mixColumns, columns_forEach]
  funext i
  exact column_mixColumn (s.get i)

theorem mulLoop_partialTimes (b m : Byte) (left i : Nat) :
    mulLoop m left i (Rijndael.partialTimes b m i) (Rijndael.xtime^[i] b) =
      Rijndael.partialTimes b m (i + left) := by
  induction left generalizing i with
  | zero => rfl
  | succ left ih =>
      have bit : m >>> i &&& 0x01 ≠ 0 ↔ m.getLsbD i = true := by
        have low : m >>> i &&& 0x01 = (BitVec.ofBool (m.getLsbD i)).setWidth 8 := by
          have one := BitVec.and_one_eq_setWidth_ofBool_getLsbD (x := m >>> i)
          rwa [BitVec.getLsbD_ushiftRight, Nat.add_zero] at one
        rw [low]
        cases m.getLsbD i <;> decide
      rw [mulLoop, mul2_eq_xtime, ← Function.iterate_succ_apply' Rijndael.xtime,
        Nat.add_comm left 1, ← Nat.add_assoc, ← ih (i + 1), Rijndael.partialTimes]
      congr 1
      by_cases set : m.getLsbD i = true
      · rw [if_pos (bit.mpr set), if_pos set]
      · rw [if_neg (mt bit.mp set), if_neg set]
        exact BitVec.xor_zero.symm

theorem mul_eq_times (b m : Byte) : mul b m = Rijndael.times b m := by
  have whole := mulLoop_partialTimes b m 8 0
  rwa [Nat.zero_add] at whole

theorem rotWord_eq (w : Word) :
    rotWord w = packWord (byteAt w 1) (byteAt w 2) (byteAt w 3) (byteAt w 0) := by
  apply BitVec.eq_of_getLsbD_eq
  intro i low
  interval_cases i <;> simp [rotWord, packWord, byteAt]

theorem column_rotWord (w : Word) : column (rotWord w) = Rijndael.rotWord (column w) := by
  rw [rotWord_eq, column_packWord]
  funext row
  fin_cases row <;> rfl

/-- The table covers what the three key sizes ask of it, and its first entry is never read. -/
theorem column_rcon {j : Nat} (positive : 0 < j) (bound : j ≤ 10) :
    column (rcon.getD j 0) = Rijndael.rcon j := by
  funext row
  revert row
  interval_cases j <;> decide

section Schedule

variable {key : Bytes} {nk : Nat}

/-- What the loop of `expand_key` has built when `n` words are in place. -/
structure Scheduled (key : Bytes) (nk n : Nat) (w : Array Word) : Prop where
  size : w.size = n
  word : ∀ i, i < n → column (w.getD i 0) = Rijndael.keyWord nk (Rijndael.columnOf key) i

theorem column_loadWord (key : Bytes) (i : Nat) :
    column (loadWord key (4 * i)) = Rijndael.columnOf key i := by
  rw [loadWord, column_packWord]
  funext row
  fin_cases row <;> rfl

theorem scheduled_start :
    Scheduled key nk nk ((List.range nk).map fun i => loadWord key (i * 4)).toArray := by
  constructor
  · simp
  · intro i early
    rw [Rijndael.keyWord_of_lt _ early, ← column_loadWord, Nat.mul_comm 4 i]
    congr 1
    simp [early]

theorem scheduled_next {n : Nat} {w : Array Word} (positive : 0 < nk) (late : nk ≤ n)
    (constants : n / nk ≤ 10) (scheduled : Scheduled key nk n w) :
    Scheduled key nk (n + 1) (scheduleNext nk w) := by
  have first : 0 < n / nk := Nat.div_pos late positive
  constructor
  · simp [scheduleNext, scheduled.size]
  · intro i bound
    by_cases old : i < n
    · rw [← scheduled.word i old]
      congr 1
      simp [scheduleNext, Array.getD_eq_getD_getElem?, Array.getElem?_push, scheduled.size,
        Nat.ne_of_lt old]
    · obtain rfl : i = n := by omega
      have before := scheduled.word (i - 1) (by omega)
      have back := scheduled.word (i - nk) (by omega)
      rw [Rijndael.keyWord_of_ge _ positive late, ← before, ← back]
      simp only [scheduleNext, scheduled.size, Array.getD_eq_getD_getElem?, Array.getElem?_push,
        if_true, Option.getD_some, column_xor]
      congr 1
      rw [Rijndael.core]
      split
      · rw [column_xor, column_subWord, column_rotWord, column_rcon first constants]
      · split
        · rw [column_subWord]
        · rfl

theorem scheduled_words (key : Bytes) (positive : 0 < nk) {n : Nat}
    (constants : nk + n ≤ 11 * nk) :
    Scheduled key nk (nk + n) ((scheduleNext nk)^[n]
      ((List.range nk).map fun i => loadWord key (i * 4)).toArray) := by
  induction n with
  | zero => exact scheduled_start
  | succ n ih =>
      have few : (nk + n) / nk ≤ 10 := by
        apply Nat.le_of_lt_succ
        rw [Nat.div_lt_iff_lt_mul positive]
        omega
      rw [Function.iterate_succ_apply', ← Nat.add_assoc]
      exact scheduled_next positive (Nat.le_add_right nk n) few (ih (by omega))

end Schedule

theorem columns_copyBytesToState (data : Bytes) :
    columns (copyBytesToState data) = Rijndael.blockOf data := by
  rw [copyBytesToState, columns_forEach]
  funext i
  exact column_loadWord data i

theorem copyStateToBytes_eq (s : State) : copyStateToBytes s = Rijndael.bytesOf (columns s) := rfl

theorem validKeySize_cases {size : Nat} (valid : isValidKeySize size = true) :
    0 < size / 4 ∧ 4 * (size / 4 + 7) ≤ 11 * (size / 4) ∧
      getRoundCount size = size / 4 + 6 := by
  have sizes : size = 16 ∨ size = 24 ∨ size = 32 := by
    by_contra other
    have refused : isValidKeySize size = false := by
      rw [isValidKeySize, if_pos (by omega)]
    rw [refused] at valid
    cases valid
  rcases sizes with rfl | rfl | rfl <;> decide

section Cipher

variable {key : Bytes} (valid : isValidKeySize key.length = true)

include valid

theorem expandKey_length : (expandKey key).length = key.length / 4 + 7 := by
  simp [expandKey, (validKeySize_cases valid).2.2]

theorem columns_roundKey {round : Nat} (bound : round ≤ key.length / 4 + 6) :
    columns (roundKey (expandKey key) round) =
      Rijndael.roundKey (key.length / 4) (Rijndael.columnOf key) round := by
  obtain ⟨positive, constants, count⟩ := validKeySize_cases valid
  have built := scheduled_words key positive (n := 4 * (key.length / 4 + 7) - key.length / 4)
    (by omega)
  have inside : round < key.length / 4 + 7 := Nat.lt_succ_of_le bound
  simp only [roundKey, expandKey, count, List.getD_eq_getElem?_getD, List.getElem?_map,
    List.getElem?_range inside, Option.map_some, Option.getD_some, columns_forEach]
  funext i
  exact built.word (4 * round + i) (by omega)

theorem columns_rounds (s : State) {n : Nat} (bound : n ≤ key.length / 4 + 5) :
    columns ((List.range' 1 n).foldl (encryptRound (expandKey key))
        (addRoundKey (roundKey (expandKey key) 0) s)) =
      Rijndael.rounds (key.length / 4) (Rijndael.columnOf key) (columns s) n := by
  induction n with
  | zero =>
      rw [List.range'_zero, List.foldl_nil, columns_addRoundKey,
        columns_roundKey valid (Nat.zero_le _), Rijndael.rounds]
  | succ n ih =>
      rw [List.range'_1_concat, List.foldl_append, List.foldl_cons, List.foldl_nil, encryptRound,
        columns_addRoundKey, columns_mixColumns, columns_shiftRows, columns_subBytes,
        ih (by omega), Nat.add_comm 1 n, columns_roundKey valid (by omega), Rijndael.rounds]

theorem encryptState_expandKey (data : Bytes) :
    encryptState (expandKey key) data = Rijndael.encrypt key data := by
  have size := expandKey_length valid
  have middle : (expandKey key).length - 2 = key.length / 4 + 5 := by omega
  have last : (expandKey key).length - 1 = key.length / 4 + 6 := by omega
  rw [encryptState, copyStateToBytes_eq, Rijndael.encrypt, Rijndael.cipher, middleRounds,
    middle, last, columns_addRoundKey, columns_shiftRows, columns_subBytes,
    columns_rounds valid _ (Nat.le_refl _), columns_roundKey valid (Nat.le_refl _),
    columns_copyBytesToState]

end Cipher

/-- `encrypt_state` under an expanded key is AES, and `decrypt_state` finds the one block that
AES takes to its argument. -/
theorem states_standard {key data : Bytes} (valid : isValidKeySize key.length = true)
    (size : data.length = kStateSize) :
    encryptState (expandKey key) data = Rijndael.encrypt key data ∧
      (decryptState (expandKey key) data).length = kStateSize ∧
      ∀ plain : Bytes, plain.length = kStateSize →
        (Rijndael.encrypt key plain = data ↔ plain = decryptState (expandKey key) data) := by
  refine ⟨encryptState_expandKey valid data, decryptState_length _ _, ?_⟩
  intro plain whole
  rw [← encryptState_expandKey valid]
  constructor
  · intro encrypted
    rw [← encrypted, decryptState_encryptState _ whole]
  · intro decrypted
    rw [decrypted, encryptState_decryptState _ size]

/-- The example of the standard for each key size: the block `00 11 .. ff`. -/
theorem states_standard_example :
    let data := (List.range 16).map fun i => UInt8.ofNat (17 * i)
    let key := fun size => (List.range size).map UInt8.ofNat
    (∀ size ∈ [16, 24, 32], isValidKeySize (key size).length = true ∧ data.length = kStateSize ∧
      encryptState (expandKey (key size)) data = Rijndael.encrypt (key size) data) ∧
    encryptState (expandKey (key 16)) data =
      [0x69, 0xc4, 0xe0, 0xd8, 0x6a, 0x7b, 0x04, 0x30, 0xd8, 0xcd, 0xb7, 0x80, 0x70, 0xb4, 0xc5,
        0x5a] := by
  refine ⟨?_, by decide +kernel⟩
  intro size listed
  have sizes : size = 16 ∨ size = 24 ∨ size = 32 := by simpa using listed
  rcases sizes with rfl | rfl | rfl
  · exact ⟨rfl, rfl, (states_standard (by rfl) (by rfl)).1⟩
  · exact ⟨rfl, rfl, (states_standard (by rfl) (by rfl)).1⟩
  · exact ⟨rfl, rfl, (states_standard (by rfl) (by rfl)).1⟩

/-- The byte arithmetic is that of a field with the modulus, and the tables are inversion in it
followed by the affine map, and back. -/
theorem arithmetic_field {K : Type*} [Field K] [CharP K 2] {x : K}
    (root : x ^ 8 + x ^ 4 + x ^ 3 + x + 1 = 0) :
    Function.Injective (Rijndael.value x) ∧
      (∀ b, Rijndael.value x (mul2 b) = x * Rijndael.value x b) ∧
      (∀ b m, Rijndael.value x (mul b m) = Rijndael.value x b * Rijndael.value x m) ∧
      ∀ b, ∃ c, Rijndael.value x c = (Rijndael.value x b)⁻¹ ∧
        substitute kSbox b = Rijndael.affine c ∧
        substitute kInvSbox (Rijndael.affine c) = b := by
  refine ⟨Rijndael.value_injective root, ?_, ?_, ?_⟩
  · intro b
    rw [mul2_eq_xtime, Rijndael.value_xtime root]
  · intro b m
    rw [mul_eq_times, Rijndael.value_times root]
  · intro b
    refine ⟨Rijndael.inverse b, Rijndael.value_inverse root b, substitute_kSbox b, ?_⟩
    have back := kInvSbox_kSbox b
    rwa [substitute_kSbox] at back

theorem arithmetic_field_closure :
    ∃ x : AlgebraicClosure (ZMod 2), x ^ 8 + x ^ 4 + x ^ 3 + x + 1 = 0 ∧
      Function.Injective (Rijndael.value x) ∧
      Rijndael.value x (mul 0x57 0x83) = Rijndael.value x 0x57 * Rijndael.value x 0x83 := by
  obtain ⟨x, root⟩ := Rijndael.exists_root
  obtain ⟨injective, -, product, -⟩ := arithmetic_field root
  exact ⟨x, root, injective, product 0x57 0x83⟩

end UdpForwarder.Plusaes
