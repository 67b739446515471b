import UdpForwarder.Plusaes.Standard
import UdpForwarder.Rejection

/-! What an `AESFilter` puts on the wire, in the terms of the block cipher and the padding
standards alone. -/

namespace UdpForwarder.Ciphertext

open Buffer BlockMode Plusaes Filters

/-- What is mixed into block `i` of the data before it is encrypted. -/
def previous (w : Bytes) : Nat → Bytes
  | 0 => AESFilter.iv
  | i + 1 => block w i

def Linked (mode : AESFilterMode) (key datagram w : Bytes) (i : Nat) : Prop :=
  match mode with
  | .cbc => block w i = Rijndael.encrypt key (xorData (block (padded datagram) i) (previous w i))
  | .ecb => block w i = Rijndael.encrypt key (block (padded datagram) i)

/-- `w` is the encryption of `datagram` by AES in a mode of operation, with PKCS padding. -/
structure Encrypts (mode : AESFilterMode) (key datagram w : Bytes) : Prop where
  size : w.length = (datagram.length / kStateSize + 1) * kStateSize
  linked : ∀ i, i ≤ datagram.length / kStateSize → Linked mode key datagram w i

variable (filter : AESFilter) (mode : AESFilterMode) (datagram : Bytes)

theorem linked_iff {w : Bytes} {i : Nat}
    (before : ∀ j, j < i → block w j =
      Rejection.cipherBlocks filter.key mode (block (padded datagram)) j) :
    Linked mode filter.key datagram w i ↔
      block w i = Rejection.cipherBlocks filter.key mode (block (padded datagram)) i := by
  cases mode with
  | cbc =>
      cases i with
      | zero =>
          rw [Rejection.cipherBlocks, chained_zero, encryptState_expandKey filter.validKeySize]
          rfl
      | succ i =>
          have link := before i (Nat.lt_succ_self i)
          rw [Rejection.cipherBlocks] at link ⊢
          rw [chained_succ, ← link, encryptState_expandKey filter.validKeySize]
          rfl
  | ecb =>
      simp only [Rejection.cipherBlocks, encryptState_expandKey filter.validKeySize]
      rfl

theorem Encrypts.blocks {w : Bytes} (encrypts : Encrypts mode filter.key datagram w) {i : Nat}
    (bound : i ≤ datagram.length / kStateSize) :
    block w i = Rejection.cipherBlocks filter.key mode (block (padded datagram)) i := by
  induction i using Nat.strong_induction_on with
  | _ i ih =>
      apply (linked_iff filter mode datagram ?_).mp (encrypts.linked i bound)
      intro j early
      exact ih j early (by omega)

/-- The standard leaves no choice: it fixes every byte of the ciphertext. -/
theorem convertForward_iff (w : Bytes) :
    (filter.toBaseFilter mode).convertForward datagram = some w ↔
      Encrypts mode filter.key datagram w := by
  have uniform := Rejection.cipherBlocks_length filter.key mode (block (padded datagram))
  have made := Rejection.convertForward_joined filter mode datagram
  constructor
  · intro converted
    obtain rfl := Option.some.inj (converted.symm.trans made)
    have blocks {i : Nat} (bound : i ≤ datagram.length / kStateSize) :=
      Rejection.block_joined uniform (Nat.lt_succ_of_le bound)
    constructor
    · exact joined_length uniform _
    · intro i bound
      apply (linked_iff filter mode datagram ?_).mpr (blocks bound)
      intro j early
      exact blocks (by omega)
  · intro encrypts
    rw [made]
    apply congrArg some
    calc joined (Rejection.cipherBlocks filter.key mode (block (padded datagram)))
          (datagram.length / kStateSize + 1)
      _ = joined (block w) (datagram.length / kStateSize + 1) :=
        joined_congr fun i bound =>
          (encrypts.blocks filter mode datagram (Nat.le_of_lt_succ bound)).symm
      _ = w.take ((datagram.length / kStateSize + 1) * kStateSize) :=
        joined_slice w (Nat.le_of_eq encrypts.size.symm)
      _ = w := by rw [← encrypts.size, List.take_length]

theorem wellPadded_of_accepted {w : Bytes} (accepted : (filter.decrypt mode w).error = .ok)
    (positive : 0 < Rejection.paddedSize filter mode w) : Rejection.WellPadded filter mode w := by
  rcases Rejection.refused_or_whole w with refused | ⟨n, whole⟩
  · rw [(Rejection.paddedSize_refused filter mode refused).1] at positive
    exact absurd positive (Nat.lt_irrefl 0)
  · rw [(Rejection.paddedSize_whole filter mode whole).1] at positive
    refine ⟨?_, ?_, positive, ?_⟩
    · rw [whole, Nat.mul_mod_left]
    · intro nothing
      rw [nothing, List.length_nil] at whole
      simp only [kStateSize] at whole
      omega
    · obtain ⟨cipher, uniform, rfl, _⟩ := Rejection.exists_blocks whole
      rw [Rejection.decrypt_blocks filter mode uniform, removePadding] at accepted
      rw [Rejection.lastByte, Rejection.lastBlock_joined filter mode uniform]
      by_contra inconsistent
      rw [Bool.not_eq_true] at inconsistent
      simp only [inconsistent, Bool.not_false, if_true] at accepted
      cases accepted

/-- Both directions of a filter speak AES with PKCS padding. It emits exactly the encryption of a
datagram; and the datagrams from the network that plusaes accepts, with a padding that is not
empty, are exactly the encryptions under the key, by whichever implementation. -/
theorem speaks_standard (w : Bytes) :
    ((filter.toBaseFilter mode).convertForward datagram = some w ↔
        Encrypts mode filter.key datagram w) ∧
      ((filter.decrypt mode w).error = .ok ∧ 0 < Rejection.paddedSize filter mode w ∧
          (filter.toBaseFilter mode).convertBackward w = some datagram ↔
        Encrypts mode filter.key datagram w) := by
  refine ⟨convertForward_iff filter mode datagram w, ?_⟩
  rw [← convertForward_iff]
  constructor
  · rintro ⟨accepted, positive, backward⟩
    obtain ⟨source, converted⟩ := (wellPadded_of_accepted filter mode accepted positive).encrypted
    obtain ⟨_, forward, _, _, _, back⟩ := filter.convertBackward_convertForward mode source
    obtain rfl := Option.some.inj (converted.symm.trans forward)
    obtain rfl := Option.some.inj (backward.symm.trans back)
    exact converted
  · intro converted
    obtain ⟨_, forward, _, encrypted, accepted, back⟩ :=
      filter.convertBackward_convertForward mode datagram
    obtain ⟨_, again, _, decrypted⟩ := filter.decrypt_encrypt mode datagram
    obtain rfl := Option.some.inj (converted.symm.trans forward)
    obtain rfl := congrArg Prod.snd (encrypted.symm.trans again)
    refine ⟨accepted, ?_, back⟩
    rw [Rejection.paddedSize, decrypted]
    exact padding_pos datagram.length

end UdpForwarder.Ciphertext
