import Mathlib.Data.Set.Finite.Basic

/-! Modes of operation over sequences of blocks, for an arbitrary block cipher. -/

namespace UdpForwarder.BlockMode

variable {Block : Type*}

/-- Cipher block chaining: every plaintext block is mixed with the ciphertext before it. -/
def chained (encrypt : Block → Block) (mix : Block → Block → Block) (iv : Block)
    (plain : Nat → Block) : Nat → Block
  | 0 => encrypt (mix (plain 0) iv)
  | i + 1 => encrypt (mix (plain (i + 1)) (chained encrypt mix iv plain i))

def unchained (decrypt : Block → Block) (mix : Block → Block → Block) (iv : Block)
    (cipher : Nat → Block) : Nat → Block
  | 0 => mix (decrypt (cipher 0)) iv
  | i + 1 => mix (decrypt (cipher (i + 1))) (cipher i)

/-- A block cipher on the valid blocks, and a way to mix two of them that undoes itself. -/
structure Lawful (encrypt decrypt : Block → Block) (mix : Block → Block → Block)
    (Valid : Block → Prop) : Prop where
  encrypted : ∀ b, Valid (encrypt b)
  decrypted : ∀ b, Valid (decrypt b)
  mixed : ∀ a b, Valid a → Valid b → Valid (mix a b)
  decrypt_encrypt : ∀ b, Valid b → decrypt (encrypt b) = b
  encrypt_decrypt : ∀ b, Valid b → encrypt (decrypt b) = b
  mix_mix : ∀ a b, Valid a → Valid b → mix (mix a b) b = a

/-- On a finite set of blocks a left inverse is a right inverse. -/
theorem encrypt_decrypt_of_finite {encrypt decrypt : Block → Block} {blocks : Set Block}
    (finite : blocks.Finite) (encrypted : ∀ b ∈ blocks, encrypt b ∈ blocks)
    (inverse : ∀ b ∈ blocks, decrypt (encrypt b) = b) {b : Block} (member : b ∈ blocks) :
    encrypt (decrypt b) = b := by
  have injective : Set.InjOn encrypt blocks := by
    intro first one second two same
    rw [← inverse first one, same, inverse second two]
  have bijective := (finite.injOn_iff_bijOn_of_mapsTo encrypted).mp injective
  obtain ⟨source, inside, rfl⟩ := bijective.surjOn member
  rw [inverse source inside]

variable {encrypt decrypt : Block → Block} {mix : Block → Block → Block} {iv : Block}

theorem chained_zero (plain : Nat → Block) :
    chained encrypt mix iv plain 0 = encrypt (mix (plain 0) iv) := by
  rw [chained]

theorem chained_succ (plain : Nat → Block) (i : Nat) :
    chained encrypt mix iv plain (i + 1) =
      encrypt (mix (plain (i + 1)) (chained encrypt mix iv plain i)) := by
  rw [chained]

theorem chained_congr {plain other : Nat → Block} {i : Nat}
    (same : ∀ j, j ≤ i → plain j = other j) :
    chained encrypt mix iv plain i = chained encrypt mix iv other i := by
  induction i with
  | zero => rw [chained_zero, chained_zero, same 0 (Nat.le_refl 0)]
  | succ i ih =>
      rw [chained_succ, chained_succ, same (i + 1) (Nat.le_refl _),
        ih fun j bound => same j (Nat.le_succ_of_le bound)]

theorem unchained_congr {cipher other : Nat → Block} {i : Nat}
    (same : ∀ j, j ≤ i → cipher j = other j) :
    unchained decrypt mix iv cipher i = unchained decrypt mix iv other i := by
  cases i with
  | zero => rw [unchained, unchained, same 0 (Nat.le_refl 0)]
  | succ i => rw [unchained, unchained, same (i + 1) (Nat.le_refl _), same i (Nat.le_succ i)]

section Lawful

variable {Valid : Block → Prop} (lawful : Lawful encrypt decrypt mix Valid)

include lawful

theorem chained_valid (plain : Nat → Block) (i : Nat) :
    Valid (chained encrypt mix iv plain i) := by
  cases i with
  | zero => exact lawful.encrypted _
  | succ i => exact lawful.encrypted _

theorem unchained_valid (ivValid : Valid iv) {cipher : Nat → Block}
    (valid : ∀ i, Valid (cipher i)) (i : Nat) : Valid (unchained decrypt mix iv cipher i) := by
  cases i with
  | zero => exact lawful.mixed _ _ (lawful.decrypted _) ivValid
  | succ i => exact lawful.mixed _ _ (lawful.decrypted _) (valid i)

theorem unchained_chained (ivValid : Valid iv) {plain : Nat → Block} {i : Nat}
    (valid : Valid (plain i)) :
    unchained decrypt mix iv (chained encrypt mix iv plain) i = plain i := by
  cases i with
  | zero =>
      rw [unchained, chained, lawful.decrypt_encrypt _ (lawful.mixed _ _ valid ivValid),
        lawful.mix_mix _ _ valid ivValid]
  | succ i =>
      have previous : Valid (chained encrypt mix iv plain i) := chained_valid lawful plain i
      rw [unchained, chained, lawful.decrypt_encrypt _ (lawful.mixed _ _ valid previous),
        lawful.mix_mix _ _ valid previous]

theorem chained_unchained (ivValid : Valid iv) {cipher : Nat → Block}
    (valid : ∀ i, Valid (cipher i)) (i : Nat) :
    chained encrypt mix iv (unchained decrypt mix iv cipher) i = cipher i := by
  induction i with
  | zero =>
      rw [chained_zero, unchained, lawful.mix_mix _ _ (lawful.decrypted _) ivValid,
        lawful.encrypt_decrypt _ (valid 0)]
  | succ i ih =>
      rw [chained_succ, ih, unchained, lawful.mix_mix _ _ (lawful.decrypted _) (valid i),
        lawful.encrypt_decrypt _ (valid (i + 1))]

/-- Under one initial vector two chains agree as far as their plaintexts do, and no further. -/
theorem chained_eq_iff (ivValid : Valid iv) {plain other : Nat → Block} {count : Nat}
    (valid : ∀ i, i < count → Valid (plain i)) (valid' : ∀ i, i < count → Valid (other i)) :
    (∀ i, i < count → chained encrypt mix iv plain i = chained encrypt mix iv other i) ↔
      ∀ i, i < count → plain i = other i := by
  constructor
  · intro same i bound
    calc plain i
      _ = unchained decrypt mix iv (chained encrypt mix iv plain) i :=
        (unchained_chained lawful ivValid (valid i bound)).symm
      _ = unchained decrypt mix iv (chained encrypt mix iv other) i :=
        unchained_congr fun j early => same j (Nat.lt_of_le_of_lt early bound)
      _ = other i := unchained_chained lawful ivValid (valid' i bound)
  · intro same i bound
    exact chained_congr fun j early => same j (Nat.lt_of_le_of_lt early bound)

end Lawful

end UdpForwarder.BlockMode
