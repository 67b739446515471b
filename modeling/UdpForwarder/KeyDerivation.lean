import UdpForwarder.Filters

/-! What `pskToKey` leaves of a psk, and which relations between the bytes of a datagram an
`XorFilter` shows to everybody. -/

namespace UdpForwarder.KeyDerivation

open Buffer LittleEndian Plusaes Filters XorFilter

/-- `XorFilter<BlockSize>::loadConfig`, as the `key` it leaves. -/
def loadKey (blockSize : Nat) (hash : Bytes → UInt64) (config : Bytes) : Except Exn Bytes :=
  match split 0x40 config with
  | [_, psk] => .ok (pskToKey blockSize hash psk)
  | _ => .error (.invalidArgument
      "Wrong parameter string for protocol 'plain'. Example:    XOR@MyPassword")

/-- What the loop of `convertForward` can leave of a datagram: byte `offset` is combined with the
digit of the key at `offset`. A read behind the terminator of the key may give anything. -/
structure Leaves (key datagram result : Bytes) : Prop where
  length_eq : result.length = datagram.length
  digit_at : ∀ offset byte digit, datagram[offset]? = some byte →
    keyDigit key offset = some digit → result[offset]? = some (byte ^^^ digit)

/-- Bytes `i` and `j` of some output differ otherwise than those of the datagram do, for some psk
and some hash function. -/
def Undetermined (blockSize : Nat) (datagram : Bytes) (i j : Nat) : Prop :=
  ∃ hash config key result, loadKey blockSize hash config = .ok key ∧
    Leaves key datagram result ∧
    result.getD i 0 ^^^ result.getD j 0 ≠ datagram.getD i 0 ^^^ datagram.getD j 0

def Unforced (resultLength i j : Nat) : Prop :=
  ∃ hash psk, (pskToKey resultLength hash psk).getD i 0 ≠
    (pskToKey resultLength hash psk).getD j 0

theorem loadConfig_key (hash : Bytes → UInt64) (config : Bytes) :
    (XorFilter.loadConfig hash config).map XorFilter.key = loadKey 32 hash config := by
  rw [XorFilter.loadConfig, loadKey]
  -- a part too few, two parts, a part too many
  rcases split 0x40 config with _ | ⟨name, _ | ⟨psk, _ | ⟨more, rest⟩⟩⟩
  all_goals rfl

section Loop

variable {key datagram result : Bytes}

theorem keyDigit_some {offset : Nat} (inside : offset ≤ key.length) :
    ∃ digit, keyDigit key offset = some digit := by
  have early : offset < (key ++ [0]).length := by
    rw [List.length_append]
    exact Nat.lt_succ_of_le inside
  rw [keyDigit_eq]
  exact ⟨_, List.getElem?_eq_getElem early⟩

theorem Leaves.unique {other : Bytes} (short : datagram.length ≤ key.length + 1)
    (one : Leaves key datagram result) (two : Leaves key datagram other) : result = other := by
  apply List.ext_getElem?
  intro offset
  by_cases inside : offset < datagram.length
  · have there := List.getElem?_eq_getElem inside
    have reached : offset ≤ key.length := by omega
    obtain ⟨digit, read⟩ := keyDigit_some reached
    rw [one.digit_at offset _ digit there read, two.digit_at offset _ digit there read]
  · have left := one.length_eq
    have right := two.length_eq
    rw [List.getElem?_eq_none (by omega), List.getElem?_eq_none (by omega)]

theorem convertForward_iff_leaves (filter : XorFilter) :
    filter.convertForward datagram = some result ↔
      datagram.length ≤ filter.key.length + 1 ∧ Leaves filter.key datagram result := by
  rw [convertForward_eq, Option.ite_none_right_eq_some, Option.some.injEq]
  apply and_congr_right
  intro short
  have leaves : Leaves filter.key datagram (xorData datagram (filter.key ++ [0])) := by
    constructor
    · rw [xorData, List.length_zipWith, List.length_append]
      exact Nat.min_eq_left short
    · intro offset byte digit there read
      rw [keyDigit_eq] at read
      rw [xorData, List.getElem?_zipWith, there, read]
  constructor
  · rintro rfl
    exact leaves
  · intro other
    exact leaves.unique short other

theorem exists_leaves (key datagram : Bytes) : ∃ result, Leaves key datagram result := by
  refine ⟨datagram.zipIdx.map fun digit => digit.1 ^^^ (keyDigit key digit.2).getD 0, ?_, ?_⟩
  · rw [List.length_map, List.length_zipIdx]
  · intro offset byte digit there read
    rw [List.getElem?_map, List.getElem?_zipIdx, there, Nat.zero_add]
    simp [read]

theorem Leaves.getD (leaves : Leaves key datagram result) {offset : Nat}
    (inside : offset < datagram.length) (early : offset < key.length) :
    result.getD offset 0 = datagram.getD offset 0 ^^^ key.getD offset 0 := by
  have read : keyDigit key offset = some key[offset] := by
    rw [keyDigit, if_neg (Nat.ne_of_lt early), List.getElem?_eq_getElem early]
  have written := leaves.digit_at offset _ _ (List.getElem?_eq_getElem inside) read
  rw [List.getD_eq_getElem?_getD, written, List.getD_eq_getElem _ _ inside,
    List.getD_eq_getElem _ _ early]
  rfl

/-- Two bytes under one keystream keep their xor exactly where the keystream repeats. -/
theorem xor_kept_iff (a b x y : UInt8) : (a ^^^ x) ^^^ (b ^^^ y) = a ^^^ b ↔ x = y := by
  have regrouped : (a ^^^ x) ^^^ (b ^^^ y) = (a ^^^ b) ^^^ (x ^^^ y) := by ac_rfl
  calc (a ^^^ x) ^^^ (b ^^^ y) = a ^^^ b
    _ ↔ (a ^^^ b) ^^^ (x ^^^ y) = (a ^^^ b) ^^^ 0 := by rw [regrouped, UInt8.xor_zero]
    _ ↔ x ^^^ y = 0 := UInt8.xor_right_inj _
    _ ↔ x = y := UInt8.xor_eq_zero_iff

theorem Leaves.kept_iff (leaves : Leaves key datagram result) {i j : Nat}
    (inside : i < datagram.length) (inside' : j < datagram.length)
    (early : i < key.length) (early' : j < key.length) :
    result.getD i 0 ^^^ result.getD j 0 = datagram.getD i 0 ^^^ datagram.getD j 0 ↔
      key.getD i 0 = key.getD j 0 := by
  rw [leaves.getD inside early, leaves.getD inside' early']
  exact xor_kept_iff _ _ _ _

end Loop

section Derivation

variable {resultLength : Nat}

theorem pskToKey_getD (multiple : resultLength % 8 = 0) (hash : Bytes → UInt64) (psk : Bytes)
    {i : Nat} (inside : i < resultLength) :
    (pskToKey resultLength hash psk).getD i 0 = (encodeLE 8 (hash psk).toNat).getD (i % 8) 0 := by
  have bound : i < resultLength / 8 * 8 := by omega
  rw [pskToKey_joined multiple, List.getD_eq_getElem?_getD, List.getD_eq_getElem?_getD,
    joined_getElem (fun _ => encodeLE_length 8 _) bound]

theorem pskToKey_repeats (multiple : resultLength % 8 = 0) (hash : Bytes → UInt64) (psk : Bytes)
    {i j : Nat} (inside : i < resultLength) (inside' : j < resultLength) (same : i % 8 = j % 8) :
    (pskToKey resultLength hash psk).getD i 0 = (pskToKey resultLength hash psk).getD j 0 := by
  rw [pskToKey_getD multiple hash psk inside, pskToKey_getD multiple hash psk inside', same]

/-- A hash of eight different bytes. -/
def countingHash : Bytes → UInt64 := fun _ => 0x0706050403020100

theorem countingHash_getD (psk : Bytes) {i : Nat} (inside : i < 8) :
    (encodeLE 8 (countingHash psk).toNat).getD i 0 = UInt8.ofNat i := by
  have bytes : ∀ i, i < 8 →
      (encodeLE 8 (0x0706050403020100 : UInt64).toNat).getD i 0 = UInt8.ofNat i := by
    decide
  exact bytes i inside

theorem countingHash_differs (multiple : resultLength % 8 = 0) (psk : Bytes) {i j : Nat}
    (inside : i < resultLength) (inside' : j < resultLength) (different : i % 8 ≠ j % 8) :
    (pskToKey resultLength countingHash psk).getD i 0 ≠
      (pskToKey resultLength countingHash psk).getD j 0 := by
  have low : i % 8 < 8 := Nat.mod_lt i (by decide)
  have low' : j % 8 < 8 := Nat.mod_lt j (by decide)
  rw [pskToKey_getD multiple _ psk inside, pskToKey_getD multiple _ psk inside',
    countingHash_getD psk low, countingHash_getD psk low']
  intro same
  have values := congrArg UInt8.toNat same
  rw [UInt8.toNat_ofNat', UInt8.toNat_ofNat'] at values
  omega

end Derivation

section Relations

variable {blockSize i j : Nat}

theorem loadKey_ok {hash : Bytes → UInt64} {config key : Bytes}
    (loaded : loadKey blockSize hash config = .ok key) :
    ∃ psk, key = pskToKey blockSize hash psk := by
  rw [loadKey] at loaded
  split at loaded
  · rename_i name psk parts
    cases loaded
    exact ⟨psk, rfl⟩
  · cases loaded

/-- For the datagrams that the class in use converts, this is about what it returns. -/
theorem undetermined_default {datagram : Bytes} (short : datagram.length ≤ 33) :
    Undetermined 32 datagram i j ↔
      ∃ hash config filter result, XorFilter.loadConfig hash config = .ok filter ∧
        filter.convertForward datagram = some result ∧
        result.getD i 0 ^^^ result.getD j 0 ≠ datagram.getD i 0 ^^^ datagram.getD j 0 := by
  constructor
  · rintro ⟨hash, config, key, result, loaded, leaves, differ⟩
    rw [← loadConfig_key] at loaded
    cases configured : XorFilter.loadConfig hash config with
    | error exn =>
        rw [configured] at loaded
        cases loaded
    | ok filter =>
        rw [configured] at loaded
        cases loaded
        refine ⟨hash, config, filter, result, configured, ?_, differ⟩
        apply (convertForward_iff_leaves filter).mpr
        exact ⟨by rwa [filter.key_length], leaves⟩
  · rintro ⟨hash, config, filter, result, configured, forward, differ⟩
    have leaves := ((convertForward_iff_leaves filter).mp forward).2
    refine ⟨hash, config, filter.key, result, ?_, leaves, differ⟩
    rw [← loadConfig_key, configured]
    rfl

theorem forced (multiple : blockSize % 8 = 0) (early : i < blockSize) (early' : j < blockSize)
    (same : i % 8 = j % 8) : ¬ Unforced blockSize i j := by
  rintro ⟨hash, psk, differ⟩
  exact differ (pskToKey_repeats multiple hash psk early early' same)

/-- A relation that every observer knows: eight bytes further on the keystream is the same. -/
theorem determined (multiple : blockSize % 8 = 0) {datagram : Bytes}
    (inside : i < datagram.length) (inside' : j < datagram.length) (early : i < blockSize)
    (early' : j < blockSize) (same : i % 8 = j % 8) : ¬ Undetermined blockSize datagram i j := by
  rintro ⟨hash, config, key, result, loaded, leaves, differ⟩
  obtain ⟨psk, rfl⟩ := loadKey_ok loaded
  have size := pskToKey_length multiple hash psk
  apply differ
  apply (leaves.kept_iff inside inside' (size.symm ▸ early) (size.symm ▸ early')).mpr
  exact pskToKey_repeats multiple hash psk early early' same

/-- Two bytes of a key, and with them the relation of two bytes of any datagram, depend on the
psk exactly if their positions differ modulo the size of a hash. -/
theorem undetermined_iff (multiple : blockSize % 8 = 0) (early : i < blockSize)
    (early' : j < blockSize) :
    (Unforced blockSize i j ↔ i % 8 ≠ j % 8) ∧
    ∀ datagram : Bytes, i < datagram.length → j < datagram.length →
      (Undetermined blockSize datagram i j ↔ i % 8 ≠ j % 8) := by
  constructor
  · constructor
    · intro unforced same
      exact forced multiple early early' same unforced
    · intro different
      exact ⟨countingHash, [], countingHash_differs multiple [] early early' different⟩
  · intro datagram inside inside'
    constructor
    · intro undetermined same
      exact determined multiple inside inside' early early' same undetermined
    · intro different
      have size := pskToKey_length multiple countingHash []
      obtain ⟨result, leaves⟩ := exists_leaves (pskToKey blockSize countingHash []) datagram
      refine ⟨countingHash, ascii "xor@", _, result, rfl, leaves, ?_⟩
      rw [ne_eq, leaves.kept_iff inside inside' (size.symm ▸ early) (size.symm ▸ early')]
      exact countingHash_differs multiple [] early early' different

theorem undetermined_iff_neighbours :
    Unforced 32 7 8 ∧ Undetermined 32 (ascii "GET /index.html ") 7 8 := by
  have relations := @undetermined_iff 32 7 8 (by decide) (by decide) (by decide)
  exact ⟨relations.1.mpr (by decide), (relations.2 _ (by decide) (by decide)).mpr (by decide)⟩

/-- The first and the ninth letter of a request, under every psk and every hash function. -/
theorem ninth_byte_determined :
    ¬ Unforced 32 0 8 ∧ ¬ Undetermined 32 (ascii "GET /index.html ") 0 8 ∧
    ∀ hash config filter result, XorFilter.loadConfig hash config = .ok filter →
      filter.convertForward (ascii "GET /index.html ") = some result →
        result.getD 0 0 ^^^ result.getD 8 0 = 0x47 ^^^ 0x65 := by
  have fixed : ¬ Undetermined 32 (ascii "GET /index.html ") 0 8 :=
    determined (by decide) (by decide) (by decide) (by decide) (by decide) (by decide)
  refine ⟨forced (by decide) (by decide) (by decide) (by decide), fixed, ?_⟩
  intro hash config filter result loaded forward
  by_contra differ
  apply fixed
  apply (undetermined_default (by decide)).mpr
  exact ⟨hash, config, filter, result, loaded, forward, differ⟩

end Relations

end UdpForwarder.KeyDerivation
