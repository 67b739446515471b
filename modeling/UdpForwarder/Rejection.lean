import UdpForwarder.Filters

/-! What `AESFilter::convertBackward` makes of arbitrary bytes from the network, where nothing
looks at the status that plusaes returns. -/

namespace UdpForwarder.Rejection

open Buffer BlockMode Plusaes Filters

section Blocks

variable (key : Bytes) (mode : AESFilterMode)

def cipherBlocks : AESFilterMode → (Nat → Bytes) → Nat → Bytes
  | .cbc, plain => chained (encryptState (expandKey key)) xorData AESFilter.iv plain
  | .ecb, plain => fun i => encryptState (expandKey key) (plain i)

def plainBlocks : AESFilterMode → (Nat → Bytes) → Nat → Bytes
  | .cbc, cipher => unchained (decryptState (expandKey key)) xorData AESFilter.iv cipher
  | .ecb, cipher => fun i => decryptState (expandKey key) (cipher i)

variable {plain cipher : Nat → Bytes}

theorem cipherBlocks_length (plain : Nat → Bytes) (i : Nat) :
    (cipherBlocks key mode plain i).length = kStateSize := by
  cases mode with
  | cbc => exact chained_valid (lawful_state _) plain i
  | ecb => exact encryptState_length _ _

theorem plainBlocks_length (uniform : ∀ i, (cipher i).length = kStateSize) (i : Nat) :
    (plainBlocks key mode cipher i).length = kStateSize := by
  cases mode with
  | cbc => exact unchained_valid (lawful_state _) (by rfl) uniform i
  | ecb => exact decryptState_length _ _

theorem cipherBlocks_congr {other : Nat → Bytes} {i : Nat}
    (same : ∀ j, j ≤ i → plain j = other j) :
    cipherBlocks key mode plain i = cipherBlocks key mode other i := by
  cases mode with
  | cbc => exact chained_congr same
  | ecb => exact congrArg (encryptState (expandKey key)) (same i (Nat.le_refl i))

theorem plainBlocks_congr {other : Nat → Bytes} {i : Nat}
    (same : ∀ j, j ≤ i → cipher j = other j) :
    plainBlocks key mode cipher i = plainBlocks key mode other i := by
  cases mode with
  | cbc => exact unchained_congr same
  | ecb => exact congrArg (decryptState (expandKey key)) (same i (Nat.le_refl i))

theorem cipherBlocks_plainBlocks (uniform : ∀ i, (cipher i).length = kStateSize) (i : Nat) :
    cipherBlocks key mode (plainBlocks key mode cipher) i = cipher i := by
  cases mode with
  | cbc => exact chained_unchained (lawful_state _) (by rfl) uniform i
  | ecb => exact encryptState_decryptState _ (uniform i)

theorem plainBlocks_cipherBlocks {i : Nat} (size : (plain i).length = kStateSize) :
    plainBlocks key mode (cipherBlocks key mode plain) i = plain i := by
  cases mode with
  | cbc => exact unchained_chained (lawful_state _) (by rfl) size
  | ecb => exact decryptState_encryptState _ size

theorem block_joined (uniform : ∀ i, (cipher i).length = kStateSize) {i n : Nat} (bound : i < n) :
    block (joined cipher n) i = cipher i := by
  have found := slice_joined uniform bound []
  rwa [List.append_nil] at found

theorem exists_blocks {w : Bytes} {n : Nat} (whole : w.length = (n + 1) * kStateSize) :
    ∃ cipher : Nat → Bytes, (∀ i, (cipher i).length = kStateSize) ∧
      joined cipher (n + 1) = w ∧ ∀ i, i ≤ n → block w i = cipher i := by
  let cipher : Nat → Bytes := fun i =>
    if i ≤ n then block w i else List.replicate kStateSize 0
  have blocks : ∀ i, i ≤ n → block w i = cipher i := by
    intro i bound
    simp only [cipher, if_pos bound]
  refine ⟨cipher, ?_, ?_, blocks⟩
  · intro i
    by_cases bound : i ≤ n
    · rw [← blocks i bound]
      apply block_length
      rw [whole]
      exact Nat.mul_le_mul_right _ (Nat.succ_le_succ bound)
    · simp only [cipher, if_neg bound, List.length_replicate]
  · calc joined cipher (n + 1)
      _ = joined (block w) (n + 1) :=
        joined_congr fun i bound => (blocks i (Nat.le_of_lt_succ bound)).symm
      _ = w.take ((n + 1) * kStateSize) := joined_slice w (Nat.le_of_eq whole.symm)
      _ = w := by rw [← whole, List.take_length]

end Blocks

variable (filter : AESFilter) (mode : AESFilterMode)

theorem encrypt_blocks (datagram : Bytes) :
    filter.encrypt mode datagram =
      (.ok, joined (cipherBlocks filter.key mode (block (padded datagram)))
        (datagram.length / kStateSize + 1)) := by
  cases mode with
  | cbc => exact encryptCbc_padded datagram filter.key filter.validKeySize (by simp)
  | ecb => exact encryptEcb_padded datagram filter.key filter.validKeySize (by simp)

theorem convertForward_joined (datagram : Bytes) :
    (filter.toBaseFilter mode).convertForward datagram =
      some (joined (cipherBlocks filter.key mode (block (padded datagram)))
        (datagram.length / kStateSize + 1)) := by
  have made := congrArg Prod.snd (encrypt_blocks filter mode datagram)
  exact congrArg some made

theorem decrypt_blocks {cipher : Nat → Bytes} (uniform : ∀ i, (cipher i).length = kStateSize)
    (n : Nat) :
    filter.decrypt mode (joined cipher (n + 1)) =
      removePadding n (plainBlocks filter.key mode cipher n)
        (joined (plainBlocks filter.key mode cipher) n ++ List.replicate kStateSize 0)
        (some 0) := by
  cases mode with
  | cbc => exact decryptCbc_joined n 0 filter.validKeySize (by rfl) uniform
  | ecb => exact decryptEcb_joined n 0 filter.validKeySize uniform

theorem decrypt_refused {w : Bytes} (refused : w.length % kStateSize ≠ 0 ∨ w = []) :
    ∃ error, filter.decrypt mode w = ⟨error, List.replicate w.length 0, some 0⟩ := by
  have failed : checkDecryptCond w.length filter.key.length w.length (some 0) ≠ .ok := by
    rcases refused with partly | nothing
    · have odd : w.length % 16 ≠ 0 := partly
      simp [checkDecryptCond, odd]
    · simp [checkDecryptCond, nothing, filter.validKeySize, subULong, kStateSize]
  cases mode with
  | cbc =>
      simp only [AESFilter.decrypt, decryptCbc, List.length_replicate, failed, ne_eq,
        not_false_eq_true, if_true]
      exact ⟨_, rfl⟩
  | ecb =>
      simp only [AESFilter.decrypt, decryptEcb, List.length_replicate, failed, ne_eq,
        not_false_eq_true, if_true]
      exact ⟨_, rfl⟩

def lastBlock (w : Bytes) : Bytes :=
  plainBlocks filter.key mode (block w) (w.length / kStateSize - 1)

/-- The number that plusaes takes for the size of the padding. -/
def lastByte (w : Bytes) : Nat := ((lastBlock filter mode w).getD (kStateSize - 1) 0).toNat

theorem lastBlock_joined {cipher : Nat → Bytes} (uniform : ∀ i, (cipher i).length = kStateSize)
    (n : Nat) :
    lastBlock filter mode (joined cipher (n + 1)) = plainBlocks filter.key mode cipher n := by
  have count : (joined cipher (n + 1)).length / kStateSize - 1 = n := by
    rw [joined_length uniform, Nat.mul_div_cancel _ (by decide), Nat.add_sub_cancel]
  rw [lastBlock, count]
  apply plainBlocks_congr
  intro j bound
  exact block_joined uniform (Nat.lt_succ_of_le bound)

/-- The empty string and strings with part of a block are all that plusaes refuses unread. -/
theorem refused_or_whole (w : Bytes) :
    (w.length % kStateSize ≠ 0 ∨ w = []) ∨ ∃ n, w.length = (n + 1) * kStateSize := by
  by_cases partly : w.length % kStateSize = 0
  · cases count : w.length / kStateSize with
    | zero =>
        have size := Nat.div_add_mod w.length kStateSize
        rw [count, partly] at size
        exact .inl (.inr (List.eq_nil_of_length_eq_zero (by omega)))
    | succ n =>
        have size := Nat.div_add_mod w.length kStateSize
        rw [count, partly, Nat.add_zero, Nat.mul_comm] at size
        exact .inr ⟨n, size.symm⟩
  · exact .inl (.inl partly)

section Padding

/-- The datagrams that plusaes decrypts to something with a padding: whole blocks, the last byte
of the plaintext a number from 1 to 16, and that many bytes equal to it. -/
def WellPadded (w : Bytes) : Prop :=
  w.length % kStateSize = 0 ∧ w ≠ [] ∧ 0 < lastByte filter mode w ∧
    checkPadding (lastByte filter mode w) (lastBlock filter mode w) = true

instance (w : Bytes) : Decidable (WellPadded filter mode w) :=
  inferInstanceAs (Decidable (_ ∧ _ ∧ _ ∧ _))

variable {filter mode}

theorem padded_content {plain : Nat → Bytes} (uniform : ∀ i, (plain i).length = kStateSize)
    {n p : Nat} {content : Bytes} (positive : 0 < p)
    (last : plain n = content ++ List.replicate p (UInt8.ofNat p)) :
    padded (joined plain n ++ content) = joined plain (n + 1) ∧
      (joined plain n ++ content).length / kStateSize = n := by
  have size : content.length + p = kStateSize := by
    have length := congrArg List.length last
    rwa [uniform, List.length_append, List.length_replicate, eq_comm] at length
  have whole : (joined plain n ++ content).length = n * kStateSize + content.length := by
    rw [List.length_append, joined_length uniform]
  have missing : padding (joined plain n ++ content).length = p := by
    rw [whole, padding]
    simp only [kStateSize] at size ⊢
    omega
  constructor
  · rw [padded, missing, List.append_assoc, ← last, joined_succ]
  · rw [whole]
    simp only [kStateSize] at size ⊢
    omega

theorem convertForward_content {cipher : Nat → Bytes}
    (uniform : ∀ i, (cipher i).length = kStateSize) {n p : Nat} {content : Bytes}
    (positive : 0 < p) (last : plainBlocks filter.key mode cipher n =
      content ++ List.replicate p (UInt8.ofNat p)) :
    (filter.toBaseFilter mode).convertForward
        (joined (plainBlocks filter.key mode cipher) n ++ content) =
      some (joined cipher (n + 1)) := by
  have plainSize := plainBlocks_length filter.key mode uniform
  obtain ⟨blocks, count⟩ := padded_content plainSize positive last
  rw [convertForward_joined, blocks, count]
  apply congrArg some
  apply joined_congr
  intro i bound
  calc cipherBlocks filter.key mode
        (block (joined (plainBlocks filter.key mode cipher) (n + 1))) i
    _ = cipherBlocks filter.key mode (plainBlocks filter.key mode cipher) i :=
      cipherBlocks_congr _ _ fun j early =>
        block_joined plainSize (Nat.lt_of_le_of_lt early bound)
    _ = cipher i := cipherBlocks_plainBlocks _ _ uniform i

theorem WellPadded.encrypted {w : Bytes} (wellPadded : WellPadded filter mode w) :
    ∃ d, (filter.toBaseFilter mode).convertForward d = some w := by
  obtain ⟨whole, nonempty, positive, consistent⟩ := wellPadded
  rcases refused_or_whole w with (partly | nothing) | ⟨n, size⟩
  · exact absurd whole partly
  · exact absurd nothing nonempty
  · obtain ⟨cipher, uniform, rfl, _⟩ := exists_blocks size
    rw [lastBlock_joined filter mode uniform] at consistent
    have ends := ((checkPadding_iff (plainBlocks_length _ _ uniform n) _).mp consistent).2
    have last := (List.take_append_drop
      (kStateSize - lastByte filter mode (joined cipher (n + 1)))
      (plainBlocks filter.key mode cipher n)).symm
    rw [ends] at last
    exact ⟨_, convertForward_content uniform positive last⟩

theorem wellPadded_of_encrypted {d w : Bytes}
    (encrypted : (filter.toBaseFilter mode).convertForward d = some w) :
    WellPadded filter mode w := by
  have uniform := cipherBlocks_length filter.key mode (block (padded d))
  have shape : w = joined (cipherBlocks filter.key mode (block (padded d)))
      (d.length / kStateSize + 1) :=
    Option.some.inj (encrypted.symm.trans (convertForward_joined filter mode d))
  have size := joined_length uniform (d.length / kStateSize + 1)
  have last : lastBlock filter mode w = d.drop (d.length / kStateSize * kStateSize) ++
      List.replicate (padding d.length) (UInt8.ofNat (padding d.length)) := by
    calc lastBlock filter mode w
      _ = plainBlocks filter.key mode (cipherBlocks filter.key mode (block (padded d)))
          (d.length / kStateSize) := by rw [shape, lastBlock_joined filter mode uniform]
      _ = block (padded d) (d.length / kStateSize) :=
        plainBlocks_cipherBlocks _ _ (block_padded_length d (Nat.le_refl _))
      _ = _ := (padded_split d).1
  have few : padding d.length ≤ kStateSize := Nat.sub_le _ _
  have positive := padding_pos d.length
  have front : (d.drop (d.length / kStateSize * kStateSize)).length =
      kStateSize - padding d.length := by
    simp only [List.length_drop, padding, kStateSize]
    omega
  have byte : lastByte filter mode w = padding d.length := by
    rw [lastByte, last, List.getD_append_right _ _ _ _ (by rw [front]; omega),
      List.getD_replicate _ (by rw [front]; omega), UInt8.toNat_ofNat']
    exact Nat.mod_eq_of_lt (Nat.lt_of_le_of_lt few (by decide))
  refine ⟨?_, ?_, ?_, ?_⟩
  · rw [shape, size, Nat.mul_mod_left]
  · intro nothing
    rw [← shape, nothing] at size
    simp only [List.length_nil, kStateSize] at size
    omega
  · rw [byte]
    exact positive
  · rw [byte, last]
    apply (checkPadding_iff _ _).mpr
    · exact ⟨few, List.drop_left' front⟩
    · rw [List.length_append, front, List.length_replicate, Nat.sub_add_cancel few]

end Padding

/-- A decryption is exact for the well padded datagrams only: what it returns for any other one
does not encrypt to it. -/
theorem convertBackward_exact_iff (w : Bytes) :
    (∀ p, (filter.toBaseFilter mode).convertBackward w = some p →
        (filter.toBaseFilter mode).convertForward p = some w) ↔
      WellPadded filter mode w := by
  constructor
  · intro exact
    exact wellPadded_of_encrypted (exact _ rfl)
  · intro wellPadded p decrypted
    obtain ⟨d, encrypted⟩ := wellPadded.encrypted
    obtain ⟨_, forward, _, _, _, backward⟩ := filter.convertBackward_convertForward mode d
    obtain rfl := Option.some.inj (encrypted.symm.trans forward)
    obtain rfl := Option.some.inj (decrypted.symm.trans backward)
    exact encrypted

/-- The well padded datagrams are the image of the encryption. -/
theorem wellPadded_iff_encrypted (w : Bytes) :
    WellPadded filter mode w ↔ ∃ d, (filter.toBaseFilter mode).convertForward d = some w := by
  constructor
  · intro wellPadded
    exact wellPadded.encrypted
  · rintro ⟨d, encrypted⟩
    exact wellPadded_of_encrypted encrypted

/-- The subtrahend of `datagram.size() - padded_size`. -/
def paddedSize (w : Bytes) : Nat := (filter.decrypt mode w).paddedSize.getD 0

theorem paddedSize_refused {w : Bytes} (refused : w.length % kStateSize ≠ 0 ∨ w = []) :
    paddedSize filter mode w = 0 ∧ (filter.decrypt mode w).decrypted.length = w.length := by
  obtain ⟨error, left⟩ := decrypt_refused filter mode refused
  rw [paddedSize, left]
  exact ⟨rfl, List.length_replicate⟩

theorem paddedSize_whole {w : Bytes} {n : Nat} (whole : w.length = (n + 1) * kStateSize) :
    paddedSize filter mode w = lastByte filter mode w ∧
      (filter.decrypt mode w).decrypted.length = w.length := by
  obtain ⟨cipher, uniform, rfl, _⟩ := exists_blocks whole
  have plainSize := plainBlocks_length filter.key mode uniform
  have buffer : (joined (plainBlocks filter.key mode cipher) n ++
      List.replicate kStateSize 0).length = (n + 1) * kStateSize := by
    rw [List.length_append, joined_length plainSize, List.length_replicate, Nat.succ_mul]
  obtain ⟨read, kept⟩ := removePadding_read n 0 (plainSize n) (Nat.le_of_eq buffer.symm)
  rw [paddedSize, lastByte, lastBlock_joined filter mode uniform,
    decrypt_blocks filter mode uniform]
  constructor
  · rw [read, Option.getD_some]
  · rw [kept, buffer, whole]

theorem decrypted_length (w : Bytes) :
    (filter.decrypt mode w).decrypted.length = w.length := by
  rcases refused_or_whole w with refused | ⟨n, whole⟩
  · exact (paddedSize_refused filter mode refused).2
  · exact (paddedSize_whole filter mode whole).2

/-- As long as the subtraction does not wrap, `substr` cuts off what was subtracted. -/
theorem convertBackward_length {w : Bytes} (bounded : paddedSize filter mode w ≤ w.length) :
    ∃ p, (filter.toBaseFilter mode).convertBackward w = some p ∧
      p.length = w.length - paddedSize filter mode w := by
  refine ⟨_, rfl, ?_⟩
  rw [← paddedSize, List.length_take, decrypted_length, subULong, if_pos bounded]
  exact Nat.min_eq_left (Nat.sub_le _ _)

/-- The length arithmetic of a decryption is right except for whole blocks whose plaintext ends
in a byte over 16. -/
theorem paddedSize_bounded_iff (w : Bytes) :
    (paddedSize filter mode w ≤ w.length ∧ paddedSize filter mode w ≤ 16 ∧
      ∃ p, (filter.toBaseFilter mode).convertBackward w = some p ∧
        p.length = w.length - paddedSize filter mode w) ↔
      (w.length % 16 = 0 → w ≠ [] → lastByte filter mode w ≤ 16) := by
  rcases refused_or_whole w with refused | ⟨n, whole⟩
  · have zero := (paddedSize_refused filter mode refused).1
    have bounded : paddedSize filter mode w ≤ w.length := zero ▸ Nat.zero_le _
    constructor
    · rintro _ whole nonempty
      rcases refused with partly | nothing
      · exact absurd whole partly
      · exact absurd nothing nonempty
    · intro _
      exact ⟨bounded, zero ▸ Nat.zero_le _, convertBackward_length filter mode bounded⟩
  · have byte := (paddedSize_whole filter mode whole).1
    have long : 16 ≤ w.length := by
      rw [whole]
      exact Nat.le_mul_of_pos_left kStateSize (Nat.succ_pos n)
    constructor
    · rintro ⟨_, small, _⟩ _ _
      rwa [byte] at small
    · intro small
      have few : paddedSize filter mode w ≤ 16 := by
        rw [byte]
        apply small
        · rw [whole]
          exact Nat.mul_mod_left (n + 1) 16
        · intro nothing
          simp [nothing] at long
      have bounded := Nat.le_trans few long
      exact ⟨bounded, few, convertBackward_length filter mode bounded⟩

section Zeros

/-- The filter of the repository's own test, under the hash value the GNU library gives its psk. -/
private def helloWorld : AESFilter :=
  ⟨pskToKey 16 (fun _ => 0x4d6686d362067ff9) (ascii "hello world"), by decide⟩

private theorem decrypt_zeros : helloWorld.decrypt .cbc (List.replicate 16 0) =
    ⟨.invalidKey, List.replicate 16 0, some 91⟩ := by
  decide +kernel

private theorem convertBackward_zeros :
    (helloWorld.toBaseFilter .cbc).convertBackward (List.replicate 16 0) =
      some (List.replicate 16 0) := by
  simp only [AESFilter.toBaseFilter, decrypt_zeros]
  rfl

/-- Sixteen zeros decrypt to no valid padding, and go on through the chain as a datagram. -/
theorem zeros_accepted :
    ∃ filter : AESFilter,
      AESFilter.loadConfig (fun _ => 0x4d6686d362067ff9) (ascii "aes@hello world") = .ok filter ∧
      (filter.decrypt .cbc (List.replicate 16 0)).error = .invalidKey ∧
      (chainedFilters [filter.toBaseFilter .cbc]).convertBackward (List.replicate 16 0) =
        some (List.replicate 16 0) ∧
      ∀ d, (filter.toBaseFilter .cbc).convertForward d ≠ some (List.replicate 16 0) := by
  refine ⟨helloWorld, rfl, congrArg Decrypted.error decrypt_zeros, ?_, ?_⟩
  · have alone : (chainedFilters [helloWorld.toBaseFilter .cbc]).convertBackward
        (List.replicate 16 0) =
          (helloWorld.toBaseFilter .cbc).convertBackward (List.replicate 16 0) := rfl
    rw [alone, convertBackward_zeros]
  · intro d encrypted
    obtain ⟨_, _, _, consistent⟩ := wellPadded_of_encrypted encrypted
    have byte := (paddedSize_whole helloWorld .cbc (w := List.replicate 16 0) (n := 0) rfl).1
    rw [paddedSize, decrypt_zeros, Option.getD_some] at byte
    rw [← byte] at consistent
    simp [checkPadding, kStateSize] at consistent

/-- 16 - 91 wraps, and nothing is cut off. -/
theorem paddedSize_wraps :
    ∃ filter : AESFilter,
      AESFilter.loadConfig (fun _ => 0x4d6686d362067ff9) (ascii "aes@hello world") = .ok filter ∧
      paddedSize filter .cbc (List.replicate 16 0) = 91 ∧
      subULong 16 91 = 2 ^ 64 - 75 ∧
      (filter.toBaseFilter .cbc).convertBackward (List.replicate 16 0) =
        some (List.replicate 16 0) := by
  refine ⟨helloWorld, rfl, ?_, by decide, convertBackward_zeros⟩
  rw [paddedSize, decrypt_zeros, Option.getD_some]

end Zeros

end UdpForwarder.Rejection
