import UdpForwarder.Plusaes.State
import Mathlib.Tactic.IntervalCases

/-! `decrypt_state` undoes `encrypt_state`, for every list of round keys. -/

namespace UdpForwarder.Plusaes

theorem getLsbD_byteAt (w : Word) (index i : Nat) :
    (byteAt w index).getLsbD i = (decide (i < 8) && w.getLsbD (8 * index + i)) := by
  simp [byteAt]

theorem getLsbD_packWord (b0 b1 b2 b3 : BitVec 8) {i : Nat} (low : i < 8) :
    (packWord b0 b1 b2 b3).getLsbD i = b0.getLsbD i ∧
      (packWord b0 b1 b2 b3).getLsbD (8 + i) = b1.getLsbD i ∧
      (packWord b0 b1 b2 b3).getLsbD (16 + i) = b2.getLsbD i ∧
      (packWord b0 b1 b2 b3).getLsbD (24 + i) = b3.getLsbD i := by
  interval_cases i <;> simp [packWord]

theorem word_ext {v w : Word} (h0 : byteAt v 0 = byteAt w 0) (h1 : byteAt v 1 = byteAt w 1)
    (h2 : byteAt v 2 = byteAt w 2) (h3 : byteAt v 3 = byteAt w 3) : v = w := by
  apply BitVec.eq_of_getLsbD_eq
  intro i bound
  have bit (index offset : Nat) (low : offset < 8) (same : byteAt v index = byteAt w index) :
      v.getLsbD (8 * index + offset) = w.getLsbD (8 * index + offset) := by
    have equal := congrArg (fun byte => BitVec.getLsbD byte offset) same
    simpa only [getLsbD_byteAt, low, decide_true, Bool.true_and] using equal
  have split : i = 8 * (i / 8) + i % 8 := (Nat.div_add_mod i 8).symm
  have low : i % 8 < 8 := Nat.mod_lt i (by decide)
  have high : i / 8 = 0 ∨ i / 8 = 1 ∨ i / 8 = 2 ∨ i / 8 = 3 := by omega
  rw [split]
  rcases high with index | index | index | index <;> rw [index]
  · exact bit 0 _ low h0
  · exact bit 1 _ low h1
  · exact bit 2 _ low h2
  · exact bit 3 _ low h3

private theorem byteAt_packWord (b0 b1 b2 b3 : BitVec 8) :
    byteAt (packWord b0 b1 b2 b3) 0 = b0 ∧ byteAt (packWord b0 b1 b2 b3) 1 = b1 ∧
      byteAt (packWord b0 b1 b2 b3) 2 = b2 ∧ byteAt (packWord b0 b1 b2 b3) 3 = b3 := by
  refine ⟨?_, ?_, ?_, ?_⟩ <;> apply BitVec.eq_of_getLsbD_eq <;> intro i low
  · rw [getLsbD_byteAt, decide_eq_true low, Bool.true_and, Nat.mul_zero, Nat.zero_add]
    exact (getLsbD_packWord b0 b1 b2 b3 low).1
  · rw [getLsbD_byteAt, decide_eq_true low, Bool.true_and]
    exact (getLsbD_packWord b0 b1 b2 b3 low).2.1
  · rw [getLsbD_byteAt, decide_eq_true low, Bool.true_and]
    exact (getLsbD_packWord b0 b1 b2 b3 low).2.2.1
  · rw [getLsbD_byteAt, decide_eq_true low, Bool.true_and]
    exact (getLsbD_packWord b0 b1 b2 b3 low).2.2.2

@[simp] theorem byteAt_packWord_zero (b0 b1 b2 b3 : BitVec 8) :
    byteAt (packWord b0 b1 b2 b3) 0 = b0 := (byteAt_packWord b0 b1 b2 b3).1

@[simp] theorem byteAt_packWord_one (b0 b1 b2 b3 : BitVec 8) :
    byteAt (packWord b0 b1 b2 b3) 1 = b1 := (byteAt_packWord b0 b1 b2 b3).2.1

@[simp] theorem byteAt_packWord_two (b0 b1 b2 b3 : BitVec 8) :
    byteAt (packWord b0 b1 b2 b3) 2 = b2 := (byteAt_packWord b0 b1 b2 b3).2.2.1

@[simp] theorem byteAt_packWord_three (b0 b1 b2 b3 : BitVec 8) :
    byteAt (packWord b0 b1 b2 b3) 3 = b3 := (byteAt_packWord b0 b1 b2 b3).2.2.2

theorem packWord_byteAt (w : Word) :
    packWord (byteAt w 0) (byteAt w 1) (byteAt w 2) (byteAt w 3) = w := by
  apply word_ext <;> simp

theorem substitute_inverse {box inverse : List (BitVec 8)}
    (table : box.map (fun b => (inverse.getD b.toNat 0).toNat) = List.range 256)
    (byte : BitVec 8) : substitute inverse (substitute box byte) = byte := by
  have size : box.length = 256 := by
    have lengths := congrArg List.length table
    simpa using lengths
  have inside : byte.toNat < box.length := by
    rw [size]
    exact byte.isLt
  have entry : (box.map (fun b => (inverse.getD b.toNat 0).toNat))[byte.toNat]? =
      (List.range 256)[byte.toNat]? := by rw [table]
  apply BitVec.eq_of_toNat_eq
  simpa [substitute, List.getD_eq_getElem?_getD, inside, byte.isLt] using entry

theorem kInvSbox_kSbox (byte : BitVec 8) : substitute kInvSbox (substitute kSbox byte) = byte :=
  substitute_inverse (by decide +kernel) byte

theorem byteAt_blend (r : Nat) (x y : Word) (index : Nat) (small : index < 4) (row : r < 4) :
    byteAt (blend r x y) index = if index = r then byteAt y index else byteAt x index := by
  apply BitVec.eq_of_getLsbD_eq
  intro i low
  have inside : 8 * index + i < 32 := by omega
  have mask : (0xFF#32 <<< (r * 8)).getLsbD (8 * index + i) = decide (index = r) := by
    interval_cases r <;> interval_cases index <;> interval_cases i <;> decide
  simp only [getLsbD_byteAt, blend, BitVec.getLsbD_or, BitVec.getLsbD_and, BitVec.getLsbD_not,
    mask, inside]
  by_cases same : index = r
  · simp [same, getLsbD_byteAt]
  · rw [if_neg same, getLsbD_byteAt]
    simp [same]

private theorem xor_left_comm (a b c : BitVec 8) : a ^^^ (b ^^^ c) = b ^^^ (a ^^^ c) := by
  rw [← BitVec.xor_assoc, BitVec.xor_comm a b, BitVec.xor_assoc]

theorem mul2_eq (b : BitVec 8) : mul2 b = b <<< 1 ^^^ (if b.msb then 0x1B else 0) := by
  revert b
  decide +kernel

theorem mul2_xor (a b : BitVec 8) : mul2 (a ^^^ b) = mul2 a ^^^ mul2 b := by
  simp only [mul2_eq, BitVec.msb_xor, BitVec.shiftLeft_xor_distrib]
  cases a.msb <;> cases b.msb <;>
    simp [BitVec.xor_assoc, BitVec.xor_comm, xor_left_comm]

theorem mulLoop_xor (m : BitVec 8) (left i : Nat) (v v' t t' : BitVec 8) :
    mulLoop m left i (v ^^^ v') (t ^^^ t') = mulLoop m left i v t ^^^ mulLoop m left i v' t' := by
  induction left generalizing i v v' t t' with
  | zero => rfl
  | succ left ih =>
      simp only [mulLoop, mul2_xor, ← ih]
      congr 1
      split
      · ac_rfl
      · rfl

theorem mul_xor (a b m : BitVec 8) : mul (a ^^^ b) m = mul a m ^^^ mul b m := by
  have split := mulLoop_xor m 8 0 0 0 a b
  simpa [mul] using split

theorem diagonal_coefficient (x : BitVec 8) :
    mul (mul2 x) 0x0E ^^^ mul x 0x0B ^^^ mul x 0x0D ^^^ mul (mul2 x ^^^ x) 0x09 = x := by
  revert x
  decide +kernel

theorem other_coefficients (x : BitVec 8) :
    mul (mul2 x ^^^ x) 0x0E ^^^ mul (mul2 x) 0x0B ^^^ mul x 0x0D ^^^ mul x 0x09 = 0 ∧
      mul x 0x0E ^^^ mul (mul2 x ^^^ x) 0x0B ^^^ mul (mul2 x) 0x0D ^^^ mul x 0x09 = 0 ∧
      mul x 0x0E ^^^ mul x 0x0B ^^^ mul (mul2 x ^^^ x) 0x0D ^^^ mul (mul2 x) 0x09 = 0 := by
  revert x
  decide +kernel

theorem lane_inverse (a b c d : BitVec 8) :
    mul (mul2 a ^^^ (mul2 b ^^^ b) ^^^ c ^^^ d) 0x0E ^^^
      mul (a ^^^ mul2 b ^^^ (mul2 c ^^^ c) ^^^ d) 0x0B ^^^
      mul (a ^^^ b ^^^ mul2 c ^^^ (mul2 d ^^^ d)) 0x0D ^^^
      mul ((mul2 a ^^^ a) ^^^ b ^^^ c ^^^ mul2 d) 0x09 = a := by
  have own := diagonal_coefficient a
  have first := (other_coefficients b).1
  have second := (other_coefficients c).2.1
  have third := (other_coefficients d).2.2
  calc
    _ = (mul (mul2 a) 0x0E ^^^ mul a 0x0B ^^^ mul a 0x0D ^^^ mul (mul2 a ^^^ a) 0x09) ^^^
        (mul (mul2 b ^^^ b) 0x0E ^^^ mul (mul2 b) 0x0B ^^^ mul b 0x0D ^^^ mul b 0x09) ^^^
        (mul c 0x0E ^^^ mul (mul2 c ^^^ c) 0x0B ^^^ mul (mul2 c) 0x0D ^^^ mul c 0x09) ^^^
        (mul d 0x0E ^^^ mul d 0x0B ^^^ mul (mul2 d ^^^ d) 0x0D ^^^ mul (mul2 d) 0x09) := by
      simp only [mul_xor]
      ac_rfl
    _ = a := by
      rw [own, first, second, third]
      simp

theorem invMixColumn_mixColumn (w : Word) : invMixColumn (mixColumn w) = w := by
  have column : invMixColumn (mixColumn w) =
      packWord (byteAt w 0) (byteAt w 1) (byteAt w 2) (byteAt w 3) := by
    simp only [invMixColumn, mixColumn, byteAt_packWord_zero, byteAt_packWord_one,
      byteAt_packWord_two, byteAt_packWord_three]
    congr 1
    · exact lane_inverse (byteAt w 0) (byteAt w 1) (byteAt w 2) (byteAt w 3)
    · refine Eq.trans ?_ (lane_inverse (byteAt w 1) (byteAt w 2) (byteAt w 3) (byteAt w 0))
      ac_rfl
    · refine Eq.trans ?_ (lane_inverse (byteAt w 2) (byteAt w 3) (byteAt w 0) (byteAt w 1))
      ac_rfl
    · refine Eq.trans ?_ (lane_inverse (byteAt w 3) (byteAt w 0) (byteAt w 1) (byteAt w 2))
      ac_rfl
  rw [column, packWord_byteAt]

theorem invSubWord_subWord (w : Word) : invSubWord (subWord w) = w := by
  simp only [invSubWord, subWord, byteAt_packWord_zero, byteAt_packWord_one,
    byteAt_packWord_two, byteAt_packWord_three, kInvSbox_kSbox]
  exact packWord_byteAt w

/-- A loop that applies `undo` to every word undoes one that applies `f`. -/
theorem State.forEach_inverse {f undo : Word → Word} (inverse : ∀ w, undo (f w) = w)
    (state : State) :
    State.forEach (fun i => undo ((State.forEach fun j => f (state.get j)).get i)) = state := by
  simp only [State.forEach, State.get, inverse]

theorem invSubBytes_subBytes (state : State) : invSubBytes (subBytes state) = state :=
  State.forEach_inverse invSubWord_subWord state

theorem invMixColumns_mixColumns (state : State) : invMixColumns (mixColumns state) = state :=
  State.forEach_inverse invMixColumn_mixColumn state

theorem addRoundKey_addRoundKey (key : RoundKey) (state : State) :
    addRoundKey key (addRoundKey key state) = state := by
  simp only [addRoundKey, State.forEach, State.get, BitVec.xor_assoc, BitVec.xor_self,
    BitVec.xor_zero]

theorem invShiftRows_shiftRows (state : State) : invShiftRows (shiftRows state) = state := by
  rcases state with ⟨a, b, c, d⟩
  simp only [invShiftRows, shiftRows, List.foldl, State.forEach, State.get, State.mk.injEq]
  refine ⟨?_, ?_, ?_, ?_⟩ <;> apply word_ext <;> simp [byteAt_blend]

theorem decryptRound_encryptRound (rkeys : List RoundKey) (i : Nat) (state : State) :
    decryptRound rkeys (encryptRound rkeys state i) i = state := by
  simp only [decryptRound, encryptRound, addRoundKey_addRoundKey, invMixColumns_mixColumns,
    invShiftRows_shiftRows, invSubBytes_subBytes]

theorem decryptRounds_encryptRounds (rkeys : List RoundKey) (rounds : List Nat) (state : State) :
    rounds.reverse.foldl (decryptRound rkeys) (rounds.foldl (encryptRound rkeys) state) =
      state := by
  induction rounds generalizing state with
  | nil => rfl
  | cons round rest ih =>
      simp only [List.reverse_cons, List.foldl_cons, List.foldl_append, List.foldl_nil, ih]
      exact decryptRound_encryptRound rkeys round state

theorem loadWord_storeWord (front back : Bytes) (w : Word) :
    loadWord (front ++ storeWord w ++ back) front.length = w := by
  have entry (k : Nat) : (front ++ storeWord w ++ back).getD (front.length + k) 0 =
      (storeWord w ++ back).getD k 0 := by
    simp [List.getD_eq_getElem?_getD, List.append_assoc, List.getElem?_append_right]
  have first := entry 0
  rw [Nat.add_zero] at first
  rw [loadWord, first, entry 1, entry 2, entry 3]
  simp only [storeWord, List.cons_append, List.getD_cons_zero, List.getD_cons_succ]
  exact packWord_byteAt w

theorem copyBytesToState_copyStateToBytes (state : State) :
    copyBytesToState (copyStateToBytes state) = state := by
  rcases state with ⟨a, b, c, d⟩
  have first := loadWord_storeWord [] (storeWord b ++ storeWord c ++ storeWord d) a
  have second := loadWord_storeWord (storeWord a) (storeWord c ++ storeWord d) b
  have third := loadWord_storeWord (storeWord a ++ storeWord b) (storeWord d) c
  have fourth := loadWord_storeWord (storeWord a ++ storeWord b ++ storeWord c) [] d
  simp only [List.nil_append, List.append_nil, List.append_assoc] at first second third fourth
  simp only [copyBytesToState, copyStateToBytes, State.forEach, State.mk.injEq, List.append_assoc]
  exact ⟨first, second, third, fourth⟩

theorem copyStateToBytes_copyBytesToState {data : Bytes} (size : data.length = kStateSize) :
    copyStateToBytes (copyBytesToState data) = data := by
  have bytes : copyStateToBytes (copyBytesToState data) =
      (List.range kStateSize).map fun i => data.getD i 0 := by
    simp only [copyStateToBytes, copyBytesToState, State.forEach, storeWord, loadWord,
      byteAt_packWord_zero, byteAt_packWord_one, byteAt_packWord_two, byteAt_packWord_three]
    rfl
  rw [bytes]
  apply List.ext_getElem
  · simp [size]
  · intro i _ inside
    simp [List.getD_eq_getElem?_getD, List.getElem?_eq_getElem inside]

theorem copyStateToBytes_length (state : State) :
    (copyStateToBytes state).length = kStateSize := rfl

@[simp] theorem encryptState_length (rkeys : List RoundKey) (data : Bytes) :
    (encryptState rkeys data).length = kStateSize := by
  rw [encryptState, copyStateToBytes_length]

@[simp] theorem decryptState_length (rkeys : List RoundKey) (data : Bytes) :
    (decryptState rkeys data).length = kStateSize := by
  rw [decryptState, copyStateToBytes_length]

theorem decryptState_encryptState (rkeys : List RoundKey) {data : Bytes}
    (size : data.length = kStateSize) :
    decryptState rkeys (encryptState rkeys data) = data := by
  simp only [decryptState, encryptState, copyBytesToState_copyStateToBytes,
    addRoundKey_addRoundKey, invShiftRows_shiftRows, invSubBytes_subBytes,
    decryptRounds_encryptRounds]
  exact copyStateToBytes_copyBytesToState size

end UdpForwarder.Plusaes
