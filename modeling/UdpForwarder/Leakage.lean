import UdpForwarder.Rejection
import UdpForwarder.Lib.Transition

/-! What the fixed initial vector shows on the wire: which datagrams of one `AESFilter` begin
with the same blocks. -/

namespace UdpForwarder.Leakage

open Buffer BlockMode Plusaes Filters Transition

inductive Call where
  | convertForward (datagram : Bytes)
  | convertBackward (datagram : Bytes)
  deriving DecidableEq

/-- A filter in use: `emitted` holds the datagrams it encrypted so far with what it made of them. -/
structure Usage where
  filter : AESFilter
  emitted : List (Bytes × Bytes)

/-- No conversion writes to `key` or `iv`. -/
def step (mode : AESFilterMode) (usage : Usage) : Call → Option Usage
  | .convertForward datagram =>
    ((usage.filter.toBaseFilter mode).convertForward datagram).map fun result =>
      { usage with emitted := usage.emitted ++ [(datagram, result)] }
  | .convertBackward datagram =>
    ((usage.filter.toBaseFilter mode).convertBackward datagram).map fun _ => usage

structure Consistent (filter : AESFilter) (mode : AESFilterMode) (usage : Usage) : Prop where
  filter_eq : usage.filter = filter
  emitted_eq : ∀ entry ∈ usage.emitted,
    (filter.toBaseFilter mode).convertForward entry.1 = some entry.2

theorem Consistent.step {filter : AESFilter} {mode : AESFilterMode} {before after : Usage}
    {call : Call} (consistent : Consistent filter mode before)
    (taken : Leakage.step mode before call = some after) : Consistent filter mode after := by
  cases call with
  | convertForward datagram =>
      rw [Leakage.step, consistent.filter_eq] at taken
      obtain ⟨result, converted, rfl⟩ := Option.map_eq_some_iff.mp taken
      constructor
      · rfl
      · intro entry member
        rcases List.mem_append.mp member with old | new
        · exact consistent.emitted_eq entry old
        · rw [List.mem_singleton] at new
          rw [new]
          exact converted
  | convertBackward datagram =>
      rw [Leakage.step] at taken
      obtain ⟨result, _, rfl⟩ := Option.map_eq_some_iff.mp taken
      exact consistent

theorem consistent_of_reachable {filter : AESFilter} {mode : AESFilterMode} {usage : Usage}
    (reached : Reachable (step mode) ⟨filter, []⟩ usage) : Consistent filter mode usage := by
  apply reached.invariant
  · constructor
    · rfl
    · intro entry member
      cases member
  · intro before call after _ consistent taken
    exact consistent.step taken

variable (filter : AESFilter)

theorem convertForward_blocks (datagram : Bytes) :
    ∃ cipher : Bytes, (filter.toBaseFilter .cbc).convertForward datagram = some cipher ∧
      datagram.length ≤ cipher.length ∧
      ∀ i, i ≤ datagram.length / kStateSize →
        block cipher i = cbcBlocks datagram filter.key AESFilter.iv i := by
  have uniform := cbcBlocks_length datagram filter.key AESFilter.iv
  have encrypted : (filter.toBaseFilter .cbc).convertForward datagram =
      some (joined (cbcBlocks datagram filter.key AESFilter.iv)
        (datagram.length / kStateSize + 1)) :=
    Rejection.convertForward_joined filter .cbc datagram
  refine ⟨_, encrypted, ?_, ?_⟩
  · rw [joined_length uniform, ← paddedSize_eq]
    simp only [getPaddedEncryptedSize, kStateSize]
    omega
  · intro i bound
    exact Rejection.block_joined uniform (Nat.lt_succ_of_le bound)

theorem cbcBlocks_eq_iff {first second key iv : Bytes} {k : Nat} (ivSize : iv.length = kStateSize)
    (inside : k ≤ first.length / kStateSize) (inside' : k ≤ second.length / kStateSize) :
    (∀ i, i < k → cbcBlocks first key iv i = cbcBlocks second key iv i) ↔
      ∀ i, i < k → block first i = block second i := by
  have chains : (∀ i, i < k → cbcBlocks first key iv i = cbcBlocks second key iv i) ↔
      ∀ i, i < k → block (padded first) i = block (padded second) i := by
    apply chained_eq_iff (lawful_state (expandKey key)) ivSize
    · intro i bound
      exact block_padded_length first (by omega)
    · intro i bound
      exact block_padded_length second (by omega)
  rw [chains]
  apply forall_congr'
  intro i
  apply imp_congr_right
  intro bound
  rw [block_padded first (by omega), block_padded second (by omega)]

/-- The first blocks of two ciphertexts are equal exactly when those of the datagrams are. -/
theorem convertForward_prefix_iff {first second cipher cipher' : Bytes} {k : Nat}
    (one : (filter.toBaseFilter .cbc).convertForward first = some cipher)
    (two : (filter.toBaseFilter .cbc).convertForward second = some cipher')
    (inside : k * kStateSize ≤ first.length) (inside' : k * kStateSize ≤ second.length) :
    cipher.take (k * kStateSize) = cipher'.take (k * kStateSize) ↔
      first.take (k * kStateSize) = second.take (k * kStateSize) := by
  obtain ⟨_, encrypted, size, blocks⟩ := convertForward_blocks filter first
  obtain rfl := Option.some.inj (one.symm.trans encrypted)
  obtain ⟨_, encrypted', size', blocks'⟩ := convertForward_blocks filter second
  obtain rfl := Option.some.inj (two.symm.trans encrypted')
  have few : k ≤ first.length / kStateSize := (Nat.le_div_iff_mul_le (by decide)).mpr inside
  have few' : k ≤ second.length / kStateSize := (Nat.le_div_iff_mul_le (by decide)).mpr inside'
  calc cipher.take (k * kStateSize) = cipher'.take (k * kStateSize)
    _ ↔ ∀ i, i < k → block cipher i = block cipher' i :=
      take_eq_iff_slices (inside.trans size) (inside'.trans size')
    _ ↔ ∀ i, i < k → cbcBlocks first filter.key AESFilter.iv i =
        cbcBlocks second filter.key AESFilter.iv i := by
      apply forall_congr'
      intro i
      apply imp_congr_right
      intro bound
      rw [blocks i (by omega), blocks' i (by omega)]
    _ ↔ ∀ i, i < k → block first i = block second i := cbcBlocks_eq_iff (by rfl) few few'
    _ ↔ first.take (k * kStateSize) = second.take (k * kStateSize) :=
      (take_eq_iff_slices inside inside').symm

/-- Whatever an `AESFilter` was used for in between, an observer sees exactly which of its
datagrams begin alike, sixteen bytes at a time. -/
theorem prefix_revealed {filter : AESFilter} {usage : Usage}
    (reached : Reachable (step .cbc) ⟨filter, []⟩ usage) {d₁ d₂ cipher₁ cipher₂ : Bytes}
    (one : (d₁, cipher₁) ∈ usage.emitted) (two : (d₂, cipher₂) ∈ usage.emitted) {k : Nat}
    (inside₁ : 16 * k ≤ d₁.length) (inside₂ : 16 * k ≤ d₂.length) :
    cipher₁.take (16 * k) = cipher₂.take (16 * k) ↔ d₁.take (16 * k) = d₂.take (16 * k) := by
  have consistent := consistent_of_reachable reached
  rw [Nat.mul_comm] at inside₁ inside₂ ⊢
  exact convertForward_prefix_iff filter (consistent.emitted_eq _ one)
    (consistent.emitted_eq _ two) inside₁ inside₂

/-- Two datagrams that share their first sixteen bytes and differ after them, with a decryption
in between. -/
theorem prefix_revealed_header :
    ∃ (filter : AESFilter) (usage : Usage) (cipher₁ cipher₂ : Bytes),
      AESFilter.loadConfig (fun _ => 0x4d6686d362067ff9) (ascii "aes@hello world") = .ok filter ∧
      Reachable (step .cbc) ⟨filter, []⟩ usage ∧
      usage.emitted =
        [(ascii "GET /index.html ", cipher₁), (ascii "GET /index.html HTTP", cipher₂)] ∧
      cipher₁.take 16 = cipher₂.take 16 := by
  let filter : AESFilter :=
    ⟨pskToKey 16 (fun _ => 0x4d6686d362067ff9) (ascii "hello world"), by decide⟩
  obtain ⟨cipher₁, first, _, _⟩ := convertForward_blocks filter (ascii "GET /index.html ")
  obtain ⟨cipher₂, second, _, _⟩ := convertForward_blocks filter (ascii "GET /index.html HTTP")
  have one : step .cbc ⟨filter, []⟩ (.convertForward (ascii "GET /index.html ")) =
      some ⟨filter, [(ascii "GET /index.html ", cipher₁)]⟩ := by
    rw [step, first]
    rfl
  have two : step .cbc ⟨filter, [(ascii "GET /index.html ", cipher₁)]⟩ (.convertBackward cipher₁) =
      some ⟨filter, [(ascii "GET /index.html ", cipher₁)]⟩ := rfl
  have three : step .cbc ⟨filter, [(ascii "GET /index.html ", cipher₁)]⟩
      (.convertForward (ascii "GET /index.html HTTP")) =
        some ⟨filter, [(ascii "GET /index.html ", cipher₁),
          (ascii "GET /index.html HTTP", cipher₂)]⟩ := by
    rw [step, second]
    rfl
  have reached := ((Reachable.single _ one).next _ two).next _ three
  refine ⟨filter, _, cipher₁, cipher₂, rfl, reached, rfl, ?_⟩
  exact (prefix_revealed reached (List.mem_cons_self ..)
    (List.mem_cons_of_mem _ (List.mem_cons_self ..)) (k := 1) (by decide) (by decide)).mpr
      (by decide)

end UdpForwarder.Leakage
