import UdpForwarder.Plusaes.Standard
import UdpForwarder.Lib.LittleEndian

/-! `plusaes::crypt_ctr`: the counter as a number, and the keystream it is stepped through. -/

namespace UdpForwarder.Plusaes

open Buffer LittleEndian

/-- The loop of `incr_counter`, with `n` bytes to go and the carry in `c`. -/
def incrLoop : Nat → Nat → Bytes → Bytes
  | 0, _, counter => counter
  | n + 1, c, counter =>
    let c := c + (counter.getD n 0).toNat
    incrLoop n (c >>> 8) (counter.set n (UInt8.ofNat c))

def incrCounter (counter : Bytes) : Bytes := incrLoop kStateSize 1 counter

/-- The local variables of `crypt_ctr`. -/
structure Ctr where
  counter : Bytes
  blk : Bytes
  blkpos : Nat
  deriving DecidableEq, Repr

/-- The `if` of the loop: a used up block is replaced by the next one. -/
def Ctr.refill (rkeys : List RoundKey) (ctr : Ctr) : Ctr :=
  if ctr.blkpos = kStateSize then
    { counter := incrCounter ctr.counter, blk := encryptState rkeys ctr.counter, blkpos := 0 }
  else ctr

def Ctr.advance (ctr : Ctr) : Ctr := { ctr with blkpos := ctr.blkpos + 1 }

/-- The loop of `crypt_ctr`, from the byte at `pos` to the end of the data. -/
def ctrLoop (rkeys : List RoundKey) : Ctr → Bytes → Bytes
  | _, [] => []
  | ctr, byte :: data =>
    let ctr := ctr.refill rkeys
    (byte ^^^ ctr.blk.getD ctr.blkpos 0) ::
      ctrLoop rkeys ctr.advance data

/-- The first counter: `memcpy` of the nonce to the front of zeros. -/
def nonceCounter (nonce : Bytes) : Bytes := blit (List.replicate kStateSize 0) 0 nonce

/-- `crypt_ctr`: its status, and what stands in the data afterwards. Nothing reads the block
before it is filled, so it may start empty. -/
def cryptCtr (data key nonce : Bytes) : Error × Bytes :=
  if nonce.length > kStateSize then (.invalidNonceSize, data)
  else if !isValidKeySize key.length then (.invalidKeySize, data)
  else
    let ctr := { counter := nonceCounter nonce, blk := [], blkpos := kStateSize }
    (.ok, ctrLoop (expandKey key) ctr data)

def bigEndian (value : Nat) : Bytes := (encodeLE kStateSize value).reverse

def nonceValue (nonce : Bytes) : Nat := decodeLE (nonceCounter nonce).reverse

/-- What byte `pos` of the data is mixed with: a byte of the block cipher at a counter. -/
def keyByte (encrypt : Bytes → Bytes) (start pos : Nat) : UInt8 :=
  (encrypt (bigEndian (start + pos / kStateSize))).getD (pos % kStateSize) 0

@[simp] theorem bigEndian_length (value : Nat) : (bigEndian value).length = kStateSize := by
  simp [bigEndian]

theorem bigEndian_decodeLE {counter : Bytes} (size : counter.length = kStateSize) :
    bigEndian (decodeLE counter.reverse) = counter := by
  have whole := encodeLE_decodeLE counter.reverse
  rw [List.length_reverse, size] at whole
  rw [bigEndian, whole, List.reverse_reverse]

theorem incrLoop_eq {n c : Nat} {counter : Bytes} (bound : n ≤ counter.length) :
    incrLoop n c counter =
      (encodeLE n (decodeLE (counter.take n).reverse + c)).reverse ++ counter.drop n := by
  induction n generalizing c counter with
  | zero => simp [incrLoop, encodeLE]
  | succ n ih =>
      have inside : n < counter.length := bound
      have byte : counter.getD n 0 = counter[n] := by simp [inside]
      have front : (counter.set n (UInt8.ofNat (c + counter[n].toNat))).take n =
          counter.take n := by
        rw [List.take_set_of_le (Nat.le_refl n)]
      have behind : (counter.set n (UInt8.ofNat (c + counter[n].toNat))).drop n =
          UInt8.ofNat (c + counter[n].toNat) :: counter.drop (n + 1) := by
        rw [List.drop_set, if_neg (Nat.lt_irrefl n), Nat.sub_self,
          List.drop_eq_getElem_cons inside, List.set_cons_zero]
      have number : decodeLE (counter.take (n + 1)).reverse =
          counter[n].toNat + 256 * decodeLE (counter.take n).reverse := by
        rw [List.take_succ_eq_append_getElem inside, List.reverse_append, List.reverse_singleton,
          List.singleton_append, decodeLE]
      have low : UInt8.ofNat (counter[n].toNat + 256 * decodeLE (counter.take n).reverse + c) =
          UInt8.ofNat (c + counter[n].toNat) := by
        apply UInt8.toNat.inj
        rw [UInt8.toNat_ofNat', UInt8.toNat_ofNat']
        omega
      have high : (counter[n].toNat + 256 * decodeLE (counter.take n).reverse + c) / 256 =
          decodeLE (counter.take n).reverse + (c + counter[n].toNat) / 256 := by
        omega
      have carry : (c + counter[n].toNat) >>> 8 = (c + counter[n].toNat) / 256 :=
        Nat.shiftRight_eq_div_pow _ 8
      rw [incrLoop, byte, ih (by rw [List.length_set]; omega), front, behind, number, encodeLE,
        low, high, carry, List.reverse_cons, List.append_assoc, List.singleton_append]

/-- `incr_counter` adds one to the 128-bit number, which wraps. -/
theorem incrCounter_bigEndian (value : Nat) :
    incrCounter (bigEndian value) = bigEndian (value + 1) := by
  have size := bigEndian_length value
  rw [incrCounter, incrLoop_eq (Nat.le_of_eq size.symm), List.take_of_length_le
    (Nat.le_of_eq size), List.drop_eq_nil_of_le (Nat.le_of_eq size), List.append_nil]
  rw [bigEndian, List.reverse_reverse, decodeLE_encodeLE_mod, bigEndian, ← encodeLE_mod,
    Nat.mod_add_mod, encodeLE_mod]

def Ctr.filledAt (rkeys : List RoundKey) (start pos : Nat) : Ctr where
  counter := bigEndian (start + pos / kStateSize + 1)
  blk := encryptState rkeys (bigEndian (start + pos / kStateSize))
  blkpos := pos % kStateSize

theorem Ctr.refill_next (rkeys : List RoundKey) (start pos : Nat) :
    Ctr.refill rkeys (Ctr.filledAt rkeys start pos).advance =
      Ctr.filledAt rkeys start (pos + 1) := by
  by_cases last : pos % kStateSize + 1 = kStateSize
  · have block : (pos + 1) / kStateSize = pos / kStateSize + 1 := by
      simp only [kStateSize] at last ⊢
      omega
    have first : (pos + 1) % kStateSize = 0 := by
      simp only [kStateSize] at last ⊢
      omega
    simp only [Ctr.refill, Ctr.advance, Ctr.filledAt, last, if_true, block, first,
      incrCounter_bigEndian, Nat.add_assoc]
  · have block : (pos + 1) / kStateSize = pos / kStateSize := by
      simp only [kStateSize] at last ⊢
      omega
    have later : (pos + 1) % kStateSize = pos % kStateSize + 1 := by
      simp only [kStateSize] at last ⊢
      omega
    simp only [Ctr.refill, Ctr.advance, Ctr.filledAt, last, if_false, block, later]

theorem ctrLoop_eq {rkeys : List RoundKey} {start pos : Nat} {ctr : Ctr} {data : Bytes}
    (filled : ctr.refill rkeys = Ctr.filledAt rkeys start pos) :
    ctrLoop rkeys ctr data =
      data.mapIdx fun i byte => byte ^^^ keyByte (encryptState rkeys) start (pos + i) := by
  induction data generalizing ctr pos with
  | nil => rfl
  | cons byte data ih =>
      have rest := ih (Ctr.refill_next rkeys start pos)
      rw [ctrLoop, filled, rest, List.mapIdx_cons, Nat.add_zero]
      simp only [Nat.add_assoc, Nat.add_comm 1]
      rfl

theorem nonceCounter_eq {nonce : Bytes} (short : nonce.length ≤ kStateSize) :
    nonceCounter nonce = bigEndian (nonceValue nonce) := by
  have size : (nonceCounter nonce).length = kStateSize := by
    rw [nonceCounter, blit_length (by simpa using short), List.length_replicate]
  rw [nonceValue, bigEndian_decodeLE size]

theorem bigEndian_nonceValue (value : Nat) :
    bigEndian (nonceValue (bigEndian value)) = bigEndian value := by
  have size := bigEndian_length value
  rw [← nonceCounter_eq (Nat.le_of_eq size), nonceCounter, blit, size]
  simp [List.drop_eq_nil_of_le]

theorem bigEndian_inj {start i j : Nat} (early : i < 256 ^ kStateSize)
    (early' : j < 256 ^ kStateSize) (same : bigEndian (start + i) = bigEndian (start + j)) :
    i = j := by
  have numbers : (start + i) % 256 ^ kStateSize = (start + j) % 256 ^ kStateSize := by
    rw [← decodeLE_encodeLE_mod, ← decodeLE_encodeLE_mod, List.reverse_inj.mp same]
  have cancelled : i % 256 ^ kStateSize = j % 256 ^ kStateSize :=
    Nat.ModEq.add_left_cancel' start numbers
  rwa [Nat.mod_eq_of_lt early, Nat.mod_eq_of_lt early'] at cancelled

theorem bigEndian_add {value other : Nat} (same : bigEndian value = bigEndian other) (i : Nat) :
    bigEndian (value + i) = bigEndian (other + i) := by
  induction i with
  | zero => exact same
  | succ i ih =>
      rw [← Nat.add_assoc, ← Nat.add_assoc, ← incrCounter_bigEndian, ih,
        incrCounter_bigEndian]

theorem kStateSize_pos : 0 < kStateSize := by decide

theorem keyByte_add (encrypt : Bytes → Bytes) {start blocks later : Nat}
    (reached : bigEndian (start + blocks) = bigEndian later) (pos : Nat) :
    keyByte encrypt start (pos + blocks * kStateSize) = keyByte encrypt later pos := by
  have block : (pos + blocks * kStateSize) / kStateSize = blocks + pos / kStateSize := by
    rw [Nat.add_mul_div_right pos blocks kStateSize_pos, Nat.add_comm]
  have inside : (pos + blocks * kStateSize) % kStateSize = pos % kStateSize :=
    Nat.add_mul_mod_self_right pos blocks kStateSize
  rw [keyByte, keyByte, block, inside, ← Nat.add_assoc, bigEndian_add reached]

section Valid

variable {key nonce : Bytes} (valid : isValidKeySize key.length = true)
  (short : nonce.length ≤ kStateSize)

include valid short

theorem cryptCtr_eq (data : Bytes) :
    cryptCtr data key nonce =
      (.ok, data.mapIdx fun pos byte =>
        byte ^^^ keyByte (Rijndael.encrypt key) (nonceValue nonce) pos) := by
  have filled : Ctr.refill (expandKey key) ⟨nonceCounter nonce, [], kStateSize⟩ =
      Ctr.filledAt (expandKey key) (nonceValue nonce) 0 := by
    rw [nonceCounter_eq short]
    simp [Ctr.refill, Ctr.filledAt, incrCounter_bigEndian]
  have cipher : encryptState (expandKey key) = Rijndael.encrypt key :=
    funext (encryptState_expandKey valid)
  simp only [cryptCtr, if_neg (Nat.not_lt.mpr short), valid, ctrLoop_eq filled, cipher]
  simp

/-- The same key and nonce decrypt what they encrypted. -/
theorem cryptCtr_cryptCtr (data : Bytes) :
    cryptCtr (cryptCtr data key nonce).2 key nonce = (.ok, data) := by
  rw [cryptCtr_eq valid short data, cryptCtr_eq valid short]
  simp only [List.mapIdx_mapIdx]
  congr 1
  apply List.ext_getElem
  · simp
  · intro i _ _
    simp only [List.getElem_mapIdx, Function.comp_apply, UInt8.xor_assoc, UInt8.xor_self,
      UInt8.xor_zero]

theorem cryptCtr_append {data : Bytes} {blocks : Nat} (whole : data.length = blocks * kStateSize)
    (rest : Bytes) :
    (cryptCtr (data ++ rest) key nonce).2 =
      (cryptCtr data key nonce).2 ++
        (cryptCtr rest key (bigEndian (nonceValue nonce + blocks))).2 := by
  have size : (bigEndian (nonceValue nonce + blocks)).length ≤ kStateSize :=
    Nat.le_of_eq (bigEndian_length _)
  have shifted := keyByte_add (Rijndael.encrypt key)
    (bigEndian_nonceValue (nonceValue nonce + blocks)).symm
  rw [cryptCtr_eq valid short (data ++ rest), cryptCtr_eq valid short data,
    cryptCtr_eq valid size rest, List.mapIdx_append]
  simp only [whole, shifted]

/-- `crypt_ctr` is the counter mode of AES: every byte is mixed with its byte of the cipher at
the big-endian counter that starts with the nonce, data shorter than `2 ^ 128` blocks never
meets one block of the cipher twice, what was encrypted is decrypted by the same call, and data
may be cut anywhere between two blocks. -/
theorem counter_standard (data : Bytes) :
    (cryptCtr data key nonce =
      (.ok, data.mapIdx fun pos byte =>
        byte ^^^ keyByte (Rijndael.encrypt key) (nonceValue nonce) pos)) ∧
    (∀ i j, i < 2 ^ 128 → j < 2 ^ 128 →
      Rijndael.encrypt key (bigEndian (nonceValue nonce + i)) =
        Rijndael.encrypt key (bigEndian (nonceValue nonce + j)) → i = j) ∧
    cryptCtr (cryptCtr data key nonce).2 key nonce = (.ok, data) ∧
    ∀ blocks rest, data.length = blocks * kStateSize →
      (cryptCtr (data ++ rest) key nonce).2 =
        (cryptCtr data key nonce).2 ++
          (cryptCtr rest key (bigEndian (nonceValue nonce + blocks))).2 := by
  have range : 2 ^ 128 = 256 ^ kStateSize := by decide
  refine ⟨cryptCtr_eq valid short data, ?_, cryptCtr_cryptCtr valid short data,
    fun _ rest whole => cryptCtr_append valid short whole rest⟩
  intro i j early early' same
  rw [range] at early early'
  rw [← encryptState_expandKey valid, ← encryptState_expandKey valid] at same
  have counters := congrArg (decryptState (expandKey key)) same
  rw [decryptState_encryptState _ (bigEndian_length _),
    decryptState_encryptState _ (bigEndian_length _)] at counters
  exact bigEndian_inj early early' counters

end Valid

/-- A nonce of sixteen bytes `0xff`, so that the counter starts again, and data that ends inside a
block. -/
theorem counter_standard_example :
    let key : Bytes := (List.range 16).map UInt8.ofNat
    let nonce : Bytes := List.replicate 16 0xff
    let data : Bytes := List.replicate 20 0x41
    isValidKeySize key.length = true ∧ nonce.length ≤ kStateSize ∧
      bigEndian (nonceValue nonce + 1) = List.replicate 16 0 ∧
      cryptCtr (cryptCtr data key nonce).2 key nonce = (.ok, data) := by
  intro key nonce data
  have valid : isValidKeySize key.length = true := by decide
  have short : nonce.length ≤ kStateSize := by decide
  exact ⟨valid, short, by decide, (counter_standard valid short data).2.2.1⟩

end UdpForwarder.Plusaes
