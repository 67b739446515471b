import UdpForwarder.Plusaes.Inverse
import UdpForwarder.Plusaes.Modes
import UdpForwarder.Lib.BlockMode
import Mathlib.Data.FinEnum
import Mathlib.Data.List.GetD
import Mathlib.Data.Set.Finite.List

/-! Padded encryption and decryption block by block, and the round trips of both modes. -/

namespace UdpForwarder.Plusaes

open Buffer BlockMode

def block (data : Bytes) (i : Nat) : Bytes := slice data (i * kStateSize) kStateSize

/-- PKCS padding: `padding` bytes of value `padding`, never none. -/
def padding (size : Nat) : Nat := kStateSize - size % kStateSize

def padded (data : Bytes) : Bytes :=
  data ++ List.replicate (padding data.length) (UInt8.ofNat (padding data.length))

theorem padding_pos (size : Nat) : 0 < padding size := by
  simp only [padding, kStateSize]
  omega

theorem paddedSize_eq (size : Nat) :
    getPaddedEncryptedSize size = (size / kStateSize + 1) * kStateSize := by
  simp only [getPaddedEncryptedSize, kStateSize]
  omega

theorem padded_length (data : Bytes) :
    (padded data).length = (data.length / kStateSize + 1) * kStateSize := by
  simp only [padded, padding, List.length_append, List.length_replicate, kStateSize]
  omega

theorem block_length {data : Bytes} {i : Nat} (inside : (i + 1) * kStateSize ≤ data.length) :
    (block data i).length = kStateSize :=
  slice_length (by rw [Nat.succ_mul] at inside; exact inside)

theorem block_padded (data : Bytes) {i : Nat} (bound : i < data.length / kStateSize) :
    block (padded data) i = block data i := by
  apply slice_append_left
  simp only [kStateSize] at bound ⊢
  omega

theorem block_padded_last (data : Bytes) :
    block (padded data) (data.length / kStateSize) =
      paddedState (UInt8.ofNat (padding data.length))
        (slice data (data.length - data.length % kStateSize) (data.length % kStateSize)) := by
  have start : data.length / kStateSize * kStateSize =
      data.length - data.length % kStateSize := by
    simp only [kStateSize]
    omega
  have rest : (data.drop (data.length - data.length % kStateSize)).length =
      data.length % kStateSize := by
    simp only [List.length_drop, kStateSize]
    omega
  have whole : slice data (data.length - data.length % kStateSize) (data.length % kStateSize) =
      data.drop (data.length - data.length % kStateSize) := by
    rw [slice, List.take_of_length_le (Nat.le_of_eq rest)]
  have full : (data.drop (data.length - data.length % kStateSize) ++
      List.replicate (padding data.length) (UInt8.ofNat (padding data.length))).length ≤
        kStateSize := by
    rw [List.length_append, rest, List.length_replicate]
    simp only [padding, kStateSize]
    omega
  rw [block, start, slice, padded, List.drop_append_of_le_length (Nat.sub_le _ _),
    List.take_of_length_le full, whole, paddedState, blit]
  simp [rest, padding]

theorem checkEncryptCond_ok {key : Bytes} (valid : isValidKeySize key.length = true)
    (size : Nat) :
    checkEncryptCond size key.length (getPaddedEncryptedSize size) true = .ok := by
  simp [checkEncryptCond, valid]

theorem checkDecryptCond_ok {key : Bytes} (valid : isValidKeySize key.length = true)
    (count held : Nat) :
    checkDecryptCond ((count + 1) * kStateSize) key.length ((count + 1) * kStateSize)
      (some held) = .ok := by
  have whole : (count + 1) * kStateSize % 16 = 0 := by
    simp only [kStateSize]
    omega
  have enough : ¬ (count + 1) * kStateSize < subULong ((count + 1) * kStateSize) kStateSize := by
    rw [subULong, if_pos (Nat.le_mul_of_pos_left kStateSize (Nat.succ_pos count))]
    omega
  simp [checkDecryptCond, whole, valid, enough]

theorem xorData_length {a b : Bytes} (left : a.length = kStateSize)
    (right : b.length = kStateSize) : (xorData a b).length = kStateSize := by
  rw [xorData, List.length_zipWith, left, right, Nat.min_self]

theorem xorData_xorData {a b : Bytes} (same : a.length = b.length) :
    xorData (xorData a b) b = a := by
  apply List.ext_getElem
  · simp [xorData, same]
  · intro i _ _
    simp only [xorData, List.getElem_zipWith]
    rw [UInt8.xor_assoc, UInt8.xor_self, UInt8.xor_zero]

/-- The 16-byte states are finitely many, so decryption is undone as well. -/
theorem encryptState_decryptState (rkeys : List RoundKey) {data : Bytes}
    (size : data.length = kStateSize) :
    encryptState rkeys (decryptState rkeys data) = data := by
  apply encrypt_decrypt_of_finite (List.finite_length_eq UInt8 kStateSize)
  · intro b _
    exact encryptState_length rkeys b
  · intro b member
    exact decryptState_encryptState rkeys member
  · exact size

theorem lawful_state (rkeys : List RoundKey) :
    Lawful (encryptState rkeys) (decryptState rkeys) xorData
      (fun b => b.length = kStateSize) where
  encrypted b := encryptState_length rkeys b
  decrypted b := decryptState_length rkeys b
  mixed _ _ left right := xorData_length left right
  decrypt_encrypt _ size := decryptState_encryptState rkeys size
  encrypt_decrypt _ size := encryptState_decryptState rkeys size
  mix_mix _ _ left right := xorData_xorData (left.trans right.symm)

section Encryption

variable (data key : Bytes) {iv encrypted : Bytes}

theorem encryptEcb_padded (valid : isValidKeySize key.length = true)
    (size : encrypted.length = getPaddedEncryptedSize data.length) :
    encryptEcb data key encrypted true =
      (.ok, joined (fun i => encryptState (expandKey key) (block (padded data) i))
        (data.length / kStateSize + 1)) := by
  have ok := checkEncryptCond_ok valid data.length
  have uniform : ∀ i, (encryptState (expandKey key) (block (padded data) i)).length =
      kStateSize := fun i => encryptState_length _ _
  have filled := fill_loop uniform 0 (data.length / kStateSize)
    (fun encrypted i => blit encrypted (i * kStateSize)
      (encryptState (expandKey key) (slice data (i * kStateSize) kStateSize)))
    (fun i back _ bound => by
      have same := block_padded data (i := i) (by omega)
      simp only [same]
      rw [block]) encrypted
  have start : data.length - data.length % kStateSize =
      (joined (fun i => encryptState (expandKey key) (block (padded data) i))
        (data.length / kStateSize)).length := by
    rw [joined_length uniform]
    simp only [kStateSize]
    omega
  have rest : (encrypted.drop (data.length / kStateSize * kStateSize)).drop kStateSize = [] := by
    rw [List.drop_drop, List.drop_eq_nil_of_le]
    rw [size, paddedSize_eq]
    simp only [kStateSize]
    omega
  simp only [joined_zero, List.nil_append, Nat.zero_add] at filled
  simp only [encryptEcb, size, ok, ne_eq, not_true_eq_false, if_false, if_true, filled]
  rw [blit_append _ _ start, encryptState_length, rest, List.append_nil, joined_succ,
    block_padded_last, padding]

theorem blit_front {bytes buffer : Bytes} :
    blit buffer 0 bytes = bytes ++ buffer.drop bytes.length := by
  simp [blit]

theorem encryptCbc_mid {rkeys : List RoundKey} {i : Nat} (low : 1 ≤ i)
    (high : i < data.length / kStateSize) (back : Bytes) :
    encryptState rkeys (xorData (slice data (i * kStateSize) kStateSize)
      (slice (joined (chained (encryptState rkeys) xorData iv (block (padded data))) i ++ back)
        (i * kStateSize - kStateSize) kStateSize)) =
      chained (encryptState rkeys) xorData iv (block (padded data)) i := by
  have uniform : ∀ j, (chained (encryptState rkeys) xorData iv (block (padded data)) j).length =
      kStateSize :=
    chained_valid (lawful_state _) _
  obtain ⟨before, rfl⟩ : ∃ before, i = before + 1 := ⟨i - 1, by omega⟩
  have offset : (before + 1) * kStateSize - kStateSize = before * kStateSize := by
    rw [Nat.succ_mul, Nat.add_sub_cancel]
  rw [offset, slice_joined uniform (Nat.lt_succ_self before) back, chained,
    block_padded data high, block]

private theorem encryptCbc_short (valid : isValidKeySize key.length = true)
    (size : encrypted.length = getPaddedEncryptedSize data.length)
    (short : data.length < kStateSize) :
    encryptCbc data key (some iv) encrypted true =
      (.ok, joined (chained (encryptState (expandKey key)) xorData iv (block (padded data)))
        1) := by
  have ok := checkEncryptCond_ok valid data.length
  have none : data.length / kStateSize = 0 := Nat.div_eq_of_lt short
  have rem : data.length % kStateSize = data.length := Nat.mod_eq_of_lt short
  have whole : slice data 0 data.length = data := by simp [slice]
  have first := block_padded_last data
  rw [none, rem, Nat.sub_self, whole, padding, rem] at first
  have rest : encrypted.drop kStateSize = [] := by
    apply List.drop_eq_nil_of_le
    rw [size, paddedSize_eq, none]
    simp
  simp only [encryptCbc, size, ok, ne_eq, not_true_eq_false, if_false, Nat.not_le.mpr short,
    decide_false, none, rem, Bool.and_false, Bool.false_eq_true, xorIv]
  rw [joined_succ, joined_zero, List.nil_append, chained_zero, first, blit_front,
    encryptState_length, rest, List.append_nil]
  rfl

private theorem encryptCbc_long (valid : isValidKeySize key.length = true)
    (size : encrypted.length = getPaddedEncryptedSize data.length)
    (ge16 : kStateSize ≤ data.length) :
    encryptCbc data key (some iv) encrypted true =
      (.ok, joined (chained (encryptState (expandKey key)) xorData iv (block (padded data)))
        (data.length / kStateSize + 1)) := by
  have ok := checkEncryptCond_ok valid data.length
  have uniform : ∀ i, (chained (encryptState (expandKey key)) xorData iv
      (block (padded data)) i).length = kStateSize :=
    chained_valid (lawful_state _) _
  obtain ⟨mid, bc⟩ : ∃ mid, data.length / kStateSize = mid + 1 :=
    ⟨data.length / kStateSize - 1, by simp only [kStateSize] at ge16 ⊢; omega⟩
  have first : blit encrypted 0 (encryptState (expandKey key)
      (xorData (slice data 0 kStateSize) iv)) =
      joined (chained (encryptState (expandKey key)) xorData iv (block (padded data))) 1 ++
        encrypted.drop kStateSize := by
    have same := block_padded data (i := 0) (by omega)
    rw [blit_front, encryptState_length, joined_succ, joined_zero, List.nil_append, chained_zero,
      same, block, Nat.zero_mul]
  have filled := fill_loop uniform 1 mid
    (fun encrypted i => blit encrypted (i * kStateSize) (encryptState (expandKey key)
      (xorData (slice data (i * kStateSize) kStateSize)
        (slice encrypted (i * kStateSize - kStateSize) kStateSize))))
    (fun i back low high => by
      simp only [encryptCbc_mid data low (by omega) back])
    (encrypted.drop kStateSize)
  have start : data.length - data.length % kStateSize =
      (joined (chained (encryptState (expandKey key)) xorData iv (block (padded data)))
        (1 + mid)).length := by
    rw [joined_length uniform, Nat.add_comm 1 mid, ← bc]
    simp only [kStateSize]
    omega
  have rest : ((encrypted.drop kStateSize).drop (mid * kStateSize)).drop kStateSize = [] := by
    rw [List.drop_drop, List.drop_drop, List.drop_eq_nil_of_le]
    rw [size, paddedSize_eq, bc]
    simp only [kStateSize]
    omega
  have last := block_padded_last data
  rw [bc] at last
  simp only [encryptCbc, size, ok, ne_eq, not_true_eq_false, if_false, ge16, decide_true,
    Bool.and_self, if_true, bc, Nat.add_sub_cancel, xorIv, first, filled,
    slice_joined uniform (show mid < 1 + mid by omega)]
  rw [blit_append _ _ start, encryptState_length, rest, List.append_nil, Nat.add_comm 1 mid,
    joined_succ _ (mid + 1), chained_succ, last, padding]

theorem encryptCbc_padded (valid : isValidKeySize key.length = true)
    (size : encrypted.length = getPaddedEncryptedSize data.length) :
    encryptCbc data key (some iv) encrypted true =
      (.ok, joined (chained (encryptState (expandKey key)) xorData iv (block (padded data)))
        (data.length / kStateSize + 1)) := by
  rcases Nat.lt_or_ge data.length kStateSize with short | ge16
  · rw [encryptCbc_short data key valid size short, Nat.div_eq_of_lt short]
  · exact encryptCbc_long data key valid size ge16

end Encryption

section Decryption

variable {key iv : Bytes} {cipher : Nat → Bytes} (count held : Nat)

private theorem joined_blocks (uniform : ∀ i, (cipher i).length = kStateSize) :
    (joined cipher (count + 1)).length / kStateSize - 1 = count ∧
      ∀ i, i ≤ count →
        slice (joined cipher (count + 1)) (i * kStateSize) kStateSize = cipher i := by
  constructor
  · rw [joined_length uniform, Nat.mul_div_cancel _ (by decide), Nat.add_sub_cancel]
  · intro i bound
    have found := slice_joined uniform (Nat.lt_succ_of_le bound) []
    rwa [List.append_nil] at found

theorem decryptEcb_joined (valid : isValidKeySize key.length = true)
    (uniform : ∀ i, (cipher i).length = kStateSize) :
    decryptEcb (joined cipher (count + 1)) key
        (List.replicate (joined cipher (count + 1)).length 0) (some held) =
      removePadding count (decryptState (expandKey key) (cipher count))
        (joined (fun i => decryptState (expandKey key) (cipher i)) count ++
          List.replicate kStateSize 0) (some held) := by
  have size := joined_length uniform (count + 1)
  have ok := checkDecryptCond_ok valid count held
  rcases joined_blocks count uniform with ⟨bc, blocks⟩
  have filled := fill_loop (fun i => decryptState_length (expandKey key) (cipher i)) 0
    count (fun decrypted i => blit decrypted (i * kStateSize)
      (decryptState (expandKey key)
        (slice (joined cipher (count + 1)) (i * kStateSize) kStateSize)))
    (fun i back _ bound => by simp only [blocks i (by omega)])
    (List.replicate ((count + 1) * kStateSize) 0)
  have rest : (List.replicate ((count + 1) * kStateSize) (0 : UInt8)).drop (count * kStateSize) =
      List.replicate kStateSize 0 := by
    rw [List.drop_replicate, Nat.succ_mul, Nat.add_sub_cancel_left]
  rw [joined_zero, List.nil_append, Nat.zero_add, rest] at filled
  rw [size] at bc
  simp only [decryptEcb, size, List.length_replicate, ok, ne_eq, not_true_eq_false, if_false, bc,
    filled, blocks count (Nat.le_refl count)]

theorem decryptCbc_joined (valid : isValidKeySize key.length = true)
    (ivSize : iv.length = kStateSize) (uniform : ∀ i, (cipher i).length = kStateSize) :
    decryptCbc (joined cipher (count + 1)) key (some iv)
        (List.replicate (joined cipher (count + 1)).length 0) (some held) =
      removePadding count (unchained (decryptState (expandKey key)) xorData iv cipher count)
        (joined (unchained (decryptState (expandKey key)) xorData iv cipher) count ++
          List.replicate kStateSize 0) (some held) := by
  have size := joined_length uniform (count + 1)
  have ok := checkDecryptCond_ok valid count held
  rcases joined_blocks count uniform with ⟨bc, blocks⟩
  have plainSize := unchained_valid (lawful_state (expandKey key)) ivSize uniform
  have firstBlock := blocks 0 (Nat.zero_le count)
  rw [Nat.zero_mul] at firstBlock
  have first : blit (List.replicate ((count + 1) * kStateSize) 0) 0
      (xorData (decryptState (expandKey key) (cipher 0)) iv) =
      joined (unchained (decryptState (expandKey key)) xorData iv cipher) 1 ++
        List.replicate (count * kStateSize) 0 := by
    rw [blit_front, xorData_length (decryptState_length _ _) ivSize, List.drop_replicate,
      Nat.succ_mul, Nat.add_sub_cancel, joined_succ, joined_zero, List.nil_append, unchained]
  rw [size] at bc
  simp only [decryptCbc, size, List.length_replicate, ok, ne_eq, not_true_eq_false, if_false, bc,
    xorIv, firstBlock, first]
  cases count with
  | zero =>
      -- the only block is read back before the buffer is wiped
      have only : slice (joined (unchained (decryptState (expandKey key)) xorData iv cipher) 1)
          0 ((0 + 1) * kStateSize) =
            unchained (decryptState (expandKey key)) xorData iv cipher 0 := by
        have found := slice_joined plainSize (Nat.lt_succ_self 0) []
        rwa [List.append_nil, Nat.zero_mul, ← Nat.one_mul kStateSize] at found
      rw [if_neg (by simp)]
      simp only [Nat.zero_sub, List.range'_zero, List.foldl_nil, Nat.zero_mul,
        List.replicate_zero, List.append_nil, only, joined_length plainSize, Nat.one_mul]
      rw [joined_zero, List.nil_append]
  | succ mid =>
      have more : (mid + 1 + 1) * kStateSize > kStateSize := by
        simp only [kStateSize]
        omega
      have previous : (mid + 1) * kStateSize - kStateSize = mid * kStateSize := by
        rw [Nat.succ_mul, Nat.add_sub_cancel]
      have filled := fill_loop plainSize 1 mid
        (fun decrypted i => blit decrypted (i * kStateSize)
          (xorData (decryptState (expandKey key)
            (slice (joined cipher (mid + 1 + 1)) (i * kStateSize) kStateSize))
            (slice (joined cipher (mid + 1 + 1)) (i * kStateSize - kStateSize) kStateSize)))
        (fun i back low high => by
          obtain ⟨before, rfl⟩ : ∃ before, i = before + 1 := ⟨i - 1, by omega⟩
          have offset : (before + 1) * kStateSize - kStateSize = before * kStateSize := by
            rw [Nat.succ_mul, Nat.add_sub_cancel]
          simp only [offset, blocks (before + 1) (by omega), blocks before (by omega), unchained])
        (List.replicate ((mid + 1) * kStateSize) 0)
      have rest : (List.replicate ((mid + 1) * kStateSize) (0 : UInt8)).drop (mid * kStateSize) =
          List.replicate kStateSize 0 := by
        rw [List.drop_replicate, Nat.succ_mul, Nat.add_sub_cancel_left]
      rw [if_pos more, Nat.add_sub_cancel, filled, rest, previous, blocks mid (by omega),
        blocks (mid + 1) (Nat.le_refl _), Nat.add_comm 1 mid, unchained]

private theorem ofNat_toNat_of_le {p : Nat} (few : p ≤ kStateSize) :
    (UInt8.ofNat p).toNat = p := by
  rw [UInt8.toNat_ofNat']
  exact Nat.mod_eq_of_lt (Nat.lt_of_le_of_lt few (by decide))

/-- The loop of `check_padding` accepts exactly the states that end in their padding. -/
theorem checkPadding_iff {last : Bytes} (size : last.length = kStateSize) (p : Nat) :
    checkPadding p last = true ↔
      p ≤ kStateSize ∧ last.drop (kStateSize - p) = List.replicate p (UInt8.ofNat p) := by
  by_cases few : p ≤ kStateSize
  · have length : (last.drop (kStateSize - p)).length = p := by
      rw [List.length_drop, size]
      omega
    have digit : ∀ i, i < p → ∀ bound : p - 1 - i < (last.drop (kStateSize - p)).length,
        last.getD (kStateSize - 1 - i) 0 = (last.drop (kStateSize - p))[p - 1 - i] := by
      intro i inside _
      have place : kStateSize - p + (p - 1 - i) = kStateSize - 1 - i := by omega
      rw [List.getElem_drop, List.getD_eq_getElem _ _ (by omega)]
      simp only [place]
    simp only [checkPadding, Nat.not_lt.mpr few, if_false, List.all_eq_true,
      List.mem_range, decide_eq_true_eq, few, true_and]
    constructor
    · intro equal
      apply List.ext_getElem
      · rw [length, List.length_replicate]
      · intro j inside _
        rw [length] at inside
        have found := digit (p - 1 - j) (by omega) (by omega)
        have value := equal (p - 1 - j) (by omega)
        have index : p - 1 - (p - 1 - j) = j := by omega
        simp only [index] at found
        rw [← found, List.getElem_replicate]
        apply UInt8.toNat.inj
        rw [value, ofNat_toNat_of_le few]
    · intro ends i inside
      rw [digit i inside (by omega)]
      simp only [ends, List.getElem_replicate]
      exact ofNat_toNat_of_le few
  · simp [checkPadding, few, Nat.lt_of_not_le few]

theorem removePadding_padded {front bytes : Bytes} {p : Nat}
    (start : front.length = count * kStateSize) (size : bytes.length + p = kStateSize)
    (positive : 0 < p) :
    removePadding count (bytes ++ List.replicate p (UInt8.ofNat p))
        (front ++ List.replicate kStateSize 0) (some held) =
      ⟨.ok, front ++ bytes ++ List.replicate p 0, some p⟩ := by
  have few : p ≤ kStateSize := by omega
  have value : (UInt8.ofNat p).toNat = p := ofNat_toNat_of_le few
  have final : (bytes ++ List.replicate p (UInt8.ofNat p)).getD (kStateSize - 1) 0 =
      UInt8.ofNat p := by
    rw [List.getD_append_right _ _ _ _ (by omega)]
    exact List.getD_replicate _ (by omega)
  have consistent : checkPadding p (bytes ++ List.replicate p (UInt8.ofNat p)) = true := by
    have length : (bytes ++ List.replicate p (UInt8.ofNat p)).length = kStateSize := by
      rw [List.length_append, List.length_replicate, size]
    apply (checkPadding_iff length p).mpr
    exact ⟨few, List.drop_left' (by omega)⟩
  have kept : (bytes ++ List.replicate p (UInt8.ofNat p)).take (kStateSize - p) = bytes :=
    List.take_left' (by omega)
  have wiped : (List.replicate kStateSize (0 : UInt8)).drop bytes.length = List.replicate p 0 := by
    rw [List.drop_replicate, ← size, Nat.add_sub_cancel_left]
  have room : (front ++ List.replicate kStateSize (0 : UInt8)).length ≥
      count * kStateSize + (kStateSize - p) := by
    rw [List.length_append, List.length_replicate, start]
    omega
  simp only [removePadding, final, value, consistent, subULong, few, if_true, Bool.not_true,
    Bool.false_eq_true, if_false, room, kept]
  rw [blit_append _ _ start.symm, wiped]

/-- The variable gets the last byte whether the check accepts it or not, and the buffer keeps its
size. -/
theorem removePadding_read {last decrypted : Bytes} (size : last.length = kStateSize)
    (room : (count + 1) * kStateSize ≤ decrypted.length) :
    (removePadding count last decrypted (some held)).paddedSize =
        some (last.getD (kStateSize - 1) 0).toNat ∧
      (removePadding count last decrypted (some held)).decrypted.length = decrypted.length := by
  simp only [removePadding]
  split
  · exact ⟨rfl, rfl⟩
  · split
    · refine ⟨rfl, blit_length ?_⟩
      have few : (last.take (subULong kStateSize
          (last.getD (kStateSize - 1) 0).toNat)).length ≤ kStateSize := by
        rw [← size]
        exact List.length_take_le' _ _
      rw [Nat.succ_mul] at room
      omega
    · exact ⟨rfl, rfl⟩

end Decryption

theorem padded_split (data : Bytes) :
    block (padded data) (data.length / kStateSize) =
        data.drop (data.length / kStateSize * kStateSize) ++
          List.replicate (padding data.length) (UInt8.ofNat (padding data.length)) ∧
      joined (block (padded data)) (data.length / kStateSize) =
        data.take (data.length / kStateSize * kStateSize) := by
  have start : data.length / kStateSize * kStateSize ≤ data.length := Nat.div_mul_le_self _ _
  constructor
  · rw [block, slice, padded, List.drop_append_of_le_length start, List.take_of_length_le]
    simp only [List.length_append, List.length_drop, List.length_replicate, padding, kStateSize]
    omega
  · have inside : data.length / kStateSize * kStateSize ≤ (padded data).length := by
      rw [padded_length]
      exact Nat.mul_le_mul_right _ (Nat.le_succ _)
    have read := joined_slice (padded data) inside
    rw [padded, List.take_append_of_le_length start] at read
    exact read

theorem removePadding_blocks (data : Bytes) (held : Nat) (plain : Nat → Bytes)
    (same : ∀ i, i ≤ data.length / kStateSize → plain i = block (padded data) i) :
    removePadding (data.length / kStateSize) (plain (data.length / kStateSize))
        (joined plain (data.length / kStateSize) ++ List.replicate kStateSize 0) (some held) =
      ⟨.ok, data ++ List.replicate (padding data.length) 0, some (padding data.length)⟩ := by
  have whole : joined plain (data.length / kStateSize) =
      data.take (data.length / kStateSize * kStateSize) := by
    rw [joined_congr fun i bound => same i (Nat.le_of_lt bound), (padded_split data).2]
  have start : (data.take (data.length / kStateSize * kStateSize)).length =
      data.length / kStateSize * kStateSize :=
    List.length_take_of_le (Nat.div_mul_le_self _ _)
  have size : (data.drop (data.length / kStateSize * kStateSize)).length +
      padding data.length = kStateSize := by
    simp only [List.length_drop, padding, kStateSize]
    omega
  rw [same _ (Nat.le_refl _), (padded_split data).1, whole,
    removePadding_padded _ held start size (padding_pos _), List.take_append_drop]

section RoundTrip

variable (data : Bytes) {key iv : Bytes} (held : Nat)

theorem block_padded_length {i : Nat} (bound : i ≤ data.length / kStateSize) :
    (block (padded data) i).length = kStateSize := by
  apply block_length
  rw [padded_length]
  exact Nat.mul_le_mul_right _ (Nat.succ_le_succ bound)

/-- ECB: a padded ciphertext has one block more than the data has whole blocks, and decrypts to
the data followed by the zeros of the buffer. -/
theorem decryptEcb_encryptEcb (valid : isValidKeySize key.length = true) :
    ∃ cipher : Bytes, cipher.length = getPaddedEncryptedSize data.length ∧
      encryptEcb data key (List.replicate (getPaddedEncryptedSize data.length) 0) true =
        (.ok, cipher) ∧
      decryptEcb cipher key (List.replicate cipher.length 0) (some held) =
        ⟨.ok, data ++ List.replicate (padding data.length) 0, some (padding data.length)⟩ := by
  have uniform : ∀ i, (encryptState (expandKey key) (block (padded data) i)).length =
      kStateSize := fun i => encryptState_length _ _
  refine ⟨_, ?_, encryptEcb_padded data key valid (by simp), ?_⟩
  · rw [joined_length uniform, paddedSize_eq]
  · rw [decryptEcb_joined _ held valid uniform]
    apply removePadding_blocks data held fun i =>
      decryptState (expandKey key) (encryptState (expandKey key) (block (padded data) i))
    intro i bound
    exact decryptState_encryptState _ (block_padded_length data bound)

def cbcBlocks (data key iv : Bytes) : Nat → Bytes :=
  chained (encryptState (expandKey key)) xorData iv (block (padded data))

theorem cbcBlocks_length (data key iv : Bytes) (i : Nat) :
    (cbcBlocks data key iv i).length = kStateSize :=
  chained_valid (lawful_state _) _ i

theorem unchained_cbcBlocks (ivSize : iv.length = kStateSize) {i : Nat}
    (bound : i ≤ data.length / kStateSize) :
    unchained (decryptState (expandKey key)) xorData iv (cbcBlocks data key iv) i =
      block (padded data) i :=
  unchained_chained (lawful_state _) ivSize (block_padded_length data bound)

theorem decryptCbc_encryptCbc (valid : isValidKeySize key.length = true)
    (ivSize : iv.length = kStateSize) :
    ∃ cipher : Bytes, cipher.length = getPaddedEncryptedSize data.length ∧
      encryptCbc data key (some iv) (List.replicate (getPaddedEncryptedSize data.length) 0) true =
        (.ok, cipher) ∧
      decryptCbc cipher key (some iv) (List.replicate cipher.length 0) (some held) =
        ⟨.ok, data ++ List.replicate (padding data.length) 0, some (padding data.length)⟩ := by
  have uniform := cbcBlocks_length data key iv
  refine ⟨_, ?_, encryptCbc_padded data key valid (by simp), ?_⟩
  · exact (joined_length uniform _).trans (paddedSize_eq data.length).symm
  · rw [← cbcBlocks, decryptCbc_joined _ held valid ivSize uniform]
    apply removePadding_blocks data held
    intro i bound
    exact unchained_cbcBlocks data ivSize bound

/-- CBC: without its last block the ciphertext of whole blocks still decrypts, and the end of the
data is taken for the padding. -/
theorem decryptCbc_cut (valid : isValidKeySize key.length = true) (ivSize : iv.length = kStateSize)
    {content : Bytes} {n p : Nat} (ends : data = content ++ List.replicate p (UInt8.ofNat p))
    (whole : data.length = (n + 1) * kStateSize) (positive : 0 < p) (few : p ≤ kStateSize) :
    ∃ cipher : Bytes,
      encryptCbc data key (some iv) (List.replicate (getPaddedEncryptedSize data.length) 0) true =
        (.ok, cipher) ∧
      decryptCbc (cipher.take data.length) key (some iv) (List.replicate data.length 0)
        (some held) = ⟨.ok, content ++ List.replicate p 0, some p⟩ := by
  have uniform := cbcBlocks_length data key iv
  have blocks : data.length / kStateSize = n + 1 := by
    rw [whole]
    exact Nat.mul_div_cancel _ (by decide)
  have cut : (joined (cbcBlocks data key iv) (data.length / kStateSize + 1)).take data.length =
      joined (cbcBlocks data key iv) (n + 1) := by
    rw [whole]
    exact take_joined uniform (by rw [← whole, blocks]; exact Nat.le_succ _)
  have size := joined_length uniform (n + 1)
  refine ⟨_, encryptCbc_padded data key valid (by simp), ?_⟩
  have decrypted := decryptCbc_joined n held valid ivSize uniform
  have plain : ∀ i, i ≤ n → unchained (decryptState (expandKey key)) xorData iv
      (cbcBlocks data key iv) i = block data i := by
    intro i bound
    have inside : i < data.length / kStateSize := by omega
    rw [← block_padded data inside]
    exact unchained_cbcBlocks data ivSize (Nat.le_of_lt inside)
  have lengths := congrArg List.length ends
  rw [List.length_append, List.length_replicate, whole, Nat.succ_mul] at lengths
  have front : joined (block data) n = content.take (n * kStateSize) := by
    have inside : n * kStateSize ≤ data.length := by
      rw [whole, Nat.succ_mul]
      exact Nat.le_add_right _ _
    have read : joined (block data) n = data.take (n * kStateSize) := joined_slice data inside
    rw [read, ends, List.take_append_of_le_length (by omega)]
  have last : block data n =
      content.drop (n * kStateSize) ++ List.replicate p (UInt8.ofNat p) := by
    rw [block, slice, List.take_of_length_le, ends, List.drop_append_of_le_length (by omega)]
    rw [List.length_drop, whole, Nat.succ_mul]
    omega
  have start : (content.take (n * kStateSize)).length = n * kStateSize :=
    List.length_take_of_le (by omega)
  have rest : (content.drop (n * kStateSize)).length + p = kStateSize := by
    rw [List.length_drop]
    omega
  rw [size, ← whole] at decrypted
  rw [← cbcBlocks, cut, decrypted, plain n (Nat.le_refl n),
    joined_congr fun i bound => plain i (Nat.le_of_lt bound), front, last,
    removePadding_padded _ held start rest positive, List.take_append_drop]

end RoundTrip

end UdpForwarder.Plusaes
