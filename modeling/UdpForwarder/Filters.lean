import UdpForwarder.Common
import UdpForwarder.Lib.Buffer
import UdpForwarder.Lib.LittleEndian
import UdpForwarder.Lib.Pipeline
import UdpForwarder.Plusaes.Padding

/-! The filters of `src/filters` and the strings their configuration is read from. -/

namespace UdpForwarder.Filters

open Buffer LittleEndian Plusaes Pipeline

/-- A filter as its two conversions; `none` is a conversion whose behaviour is undefined. -/
structure BaseFilter where
  convertForward : Bytes → Option Bytes
  convertBackward : Bytes → Option Bytes

/-- `ChainedFilters`: forward from the front of the list, backward from its end. -/
def chainedFilters (filters : List BaseFilter) : BaseFilter where
  convertForward := along BaseFilter.convertForward filters
  convertBackward := along BaseFilter.convertBackward filters.reverse

def reversedFilter (real : BaseFilter) : BaseFilter where
  convertForward := real.convertBackward
  convertBackward := real.convertForward

/-- `rlib::string::split` at a single character: never the empty list. -/
def split (divider : UInt8) : Bytes → List Bytes
  | [] => [[]]
  | c :: rest =>
    if c = divider then [] :: split divider rest
    else match split divider rest with
      | [] => [[c]]
      | first :: others => (c :: first) :: others

theorem split_eq_splitOn (divider : UInt8) (text : Bytes) :
    split divider text = text.splitOn divider := by
  induction text with
  | nil => rfl
  | cons c rest ih =>
      rw [split, List.splitOn_cons_eq_if_modifyHead, ih]
      by_cases separator : c = divider
      · rw [if_pos separator, if_pos (by rw [separator, beq_self_eq_true])]
      · rw [if_neg separator, if_neg (by simpa using separator)]
        cases parts : rest.splitOn divider with
        | nil => exact absurd parts (List.splitOn_ne_nil _ _)
        | cons first others => rfl

theorem not_mem_of_mem_split {divider : UInt8} {text part : Bytes}
    (member : part ∈ split divider text) : divider ∉ part := by
  induction text generalizing part with
  | nil =>
      rw [split, List.mem_singleton] at member
      simp [member]
  | cons c rest ih =>
      rw [split] at member
      split at member
      · rcases List.mem_cons.mp member with empty | later
        · simp [empty]
        · exact ih later
      · rename_i different
        split at member
        · rw [List.mem_singleton] at member
          simpa [member] using Ne.symm different
        · rename_i first others parts
          rcases List.mem_cons.mp member with extended | later
          · have short := ih (parts ▸ List.mem_cons_self : first ∈ split divider rest)
            simpa [extended, Ne.symm different] using short
          · exact ih (parts ▸ List.mem_cons_of_mem first later)

theorem split_eq_iff {divider : UInt8} {text : Bytes} {parts : List Bytes} :
    split divider text = parts ↔
      parts ≠ [] ∧ (∀ part ∈ parts, divider ∉ part) ∧ text = [divider].intercalate parts := by
  constructor
  · rintro rfl
    refine ⟨?_, fun part member => not_mem_of_mem_split member, ?_⟩
    · rw [split_eq_splitOn]
      exact List.splitOn_ne_nil _ _
    · rw [split_eq_splitOn, List.intercalate_splitOn]
  · rintro ⟨some_part, clean, rfl⟩
    rw [split_eq_splitOn]
    exact List.splitOn_intercalate divider clean some_part

/-- `rlib::string::starts_with` -/
def startsWith (text what : Bytes) : Bool := what.isPrefixOf text

/-- `pskToKey`: the hash of the whole psk, repeated. -/
def pskToKey (resultLength : Nat) (hash : Bytes → UInt64) (psk : Bytes) : Bytes :=
  (List.range' 0 (resultLength / 8)).foldl
    (fun result i => blit result (i * 8) (encodeLE 8 (hash psk).toNat))
    (List.replicate resultLength 0)

theorem pskToKey_joined {resultLength : Nat} (multiple : resultLength % 8 = 0)
    (hash : Bytes → UInt64) (psk : Bytes) :
    pskToKey resultLength hash psk =
      joined (fun _ => encodeLE 8 (hash psk).toNat) (resultLength / 8) := by
  have uniform : ∀ _ : Nat, (encodeLE 8 (hash psk).toNat).length = 8 :=
    fun _ => encodeLE_length 8 _
  have filled := fill_loop uniform 0 (resultLength / 8)
    (fun result i => blit result (i * 8) (encodeLE 8 (hash psk).toNat))
    (fun _ _ _ _ => rfl) (List.replicate resultLength 0)
  have nothing : (List.replicate resultLength (0 : UInt8)).drop (resultLength / 8 * 8) = [] := by
    apply List.drop_eq_nil_of_le
    rw [List.length_replicate]
    omega
  rwa [joined_zero, List.nil_append, Nat.zero_add, nothing, List.append_nil] at filled

theorem pskToKey_length {resultLength : Nat} (multiple : resultLength % 8 = 0)
    (hash : Bytes → UInt64) (psk : Bytes) :
    (pskToKey resultLength hash psk).length = resultLength := by
  rw [pskToKey_joined multiple, joined_length fun _ => encodeLE_length 8 _]
  omega

/-- The modes its `static_assert` lets through. -/
inductive AESFilterMode where
  | cbc
  | ecb
  deriving DecidableEq, Repr

structure AESFilter where
  key : Bytes
  key_length : key.length = 16

namespace AESFilter

def iv : Bytes := [
  0x00, 0x01, 0x02, 0x03, 0x04, 0x05, 0x06, 0x07,
  0x08, 0x09, 0x0A, 0x0B, 0x0C, 0x0D, 0x0E, 0x0F]

def loadConfig (hash : Bytes → UInt64) (config : Bytes) : Except Exn AESFilter :=
  match split 0x40 config with
  | [_, psk] =>
    -- `key_from_string` drops the terminator of `char aesKey[17]` again
    .ok {
      key := keyFromString (pskToKey 16 hash psk ++ [0])
      key_length := by
        simp [keyFromString, pskToKey_length (show 16 % 8 = 0 by decide)] }
  | _ => .error (.invalidArgument
      "Wrong parameter string for filter 'aes'. Example: aes@MyPassword")

variable (filter : AESFilter) (mode : AESFilterMode)

/-- The plusaes call of `convertForward`. -/
def encrypt (datagram : Bytes) : Plusaes.Error × Bytes :=
  let result := List.replicate (getPaddedEncryptedSize datagram.length) 0
  match mode with
  | .cbc => encryptCbc datagram filter.key (some iv) result true
  | .ecb => encryptEcb datagram filter.key result true

/-- The plusaes call of `convertBackward`. -/
def decrypt (datagram : Bytes) : Decrypted :=
  let result := List.replicate datagram.length 0
  match mode with
  | .cbc => decryptCbc datagram filter.key (some iv) result (some 0)
  | .ecb => decryptEcb datagram filter.key result (some 0)

/-- Neither conversion looks at the status of its plusaes call. -/
def toBaseFilter : BaseFilter where
  convertForward datagram := some (filter.encrypt mode datagram).2
  convertBackward datagram :=
    let outcome := filter.decrypt mode datagram
    some (outcome.decrypted.take (subULong datagram.length (outcome.paddedSize.getD 0)))

theorem loadConfig_ok {hash : Bytes → UInt64} {config : Bytes} {filter : AESFilter}
    (loaded : loadConfig hash config = .ok filter) :
    ∃ name psk, split 0x40 config = [name, psk] ∧ filter.key = pskToKey 16 hash psk := by
  rw [loadConfig] at loaded
  split at loaded
  · rename_i name psk parts
    refine ⟨name, psk, parts, ?_⟩
    injection loaded with equal
    rw [← equal]
    simp [keyFromString]
  · cases loaded

theorem validKeySize : isValidKeySize filter.key.length = true := by
  rw [filter.key_length]
  rfl

theorem decrypt_encrypt (datagram : Bytes) :
    ∃ cipher : Bytes, filter.encrypt mode datagram = (.ok, cipher) ∧
      cipher.length = datagram.length + padding datagram.length ∧
      filter.decrypt mode cipher = ⟨.ok,
        datagram ++ List.replicate (padding datagram.length) 0,
        some (padding datagram.length)⟩ := by
  have size : getPaddedEncryptedSize datagram.length =
      datagram.length + padding datagram.length := by
    simp only [getPaddedEncryptedSize, padding, kStateSize]
    omega
  cases mode with
  | cbc =>
      have ivSize : iv.length = kStateSize := rfl
      rcases decryptCbc_encryptCbc datagram 0 filter.validKeySize ivSize with
        ⟨cipher, length, encrypted, decrypted⟩
      exact ⟨cipher, encrypted, length.trans size, decrypted⟩
  | ecb =>
      rcases decryptEcb_encryptEcb datagram 0 filter.validKeySize with
        ⟨cipher, length, encrypted, decrypted⟩
      exact ⟨cipher, encrypted, length.trans size, decrypted⟩

theorem convertBackward_convertForward (datagram : Bytes) :
    ∃ cipher : Bytes, (filter.toBaseFilter mode).convertForward datagram = some cipher ∧
      cipher.length = datagram.length + padding datagram.length ∧
      filter.encrypt mode datagram = (.ok, cipher) ∧
      (filter.decrypt mode cipher).error = .ok ∧
      (filter.toBaseFilter mode).convertBackward cipher = some datagram := by
  rcases filter.decrypt_encrypt mode datagram with ⟨cipher, encrypted, size, decrypted⟩
  have kept : subULong cipher.length (padding datagram.length) = datagram.length := by
    rw [subULong, size, if_pos (Nat.le_add_left _ _), Nat.add_sub_cancel]
  refine ⟨cipher, ?_, size, encrypted, by rw [decrypted], ?_⟩
  · simp only [toBaseFilter, encrypted]
  · simp only [toBaseFilter, decrypted, Option.getD_some, kept]
    rw [List.take_left' rfl]

/-- A ciphertext of whole blocks that lost its last one loses the end of the datagram with it. -/
theorem convertBackward_cut {datagram content : Bytes} {n p : Nat}
    (ends : datagram = content ++ List.replicate p (UInt8.ofNat p))
    (whole : datagram.length = (n + 1) * kStateSize) (positive : 0 < p) (few : p ≤ kStateSize) :
    ∃ cipher : Bytes, (filter.toBaseFilter .cbc).convertForward datagram = some cipher ∧
      (filter.toBaseFilter .cbc).convertBackward (cipher.take datagram.length) = some content := by
  rcases decryptCbc_cut datagram 0 filter.validKeySize (show iv.length = kStateSize from rfl) ends
    whole positive few with ⟨cipher, encrypted, decrypted⟩
  have forward : filter.encrypt .cbc datagram = (.ok, cipher) := encrypted
  have size : cipher.length = datagram.length + padding datagram.length := by
    rcases filter.decrypt_encrypt .cbc datagram with ⟨other, again, length, _⟩
    rw [forward, Prod.mk.injEq] at again
    rw [again.2, length]
  have kept : (cipher.take datagram.length).length = datagram.length := by
    apply List.length_take_of_le
    rw [size]
    exact Nat.le_add_right _ _
  have backward : filter.decrypt .cbc (cipher.take datagram.length) =
      ⟨.ok, content ++ List.replicate p 0, some p⟩ := by
    rw [decrypt, kept]
    exact decrypted
  have total : datagram.length = content.length + p := by
    rw [ends, List.length_append, List.length_replicate]
  refine ⟨cipher, ?_, ?_⟩
  · simp only [toBaseFilter, forward]
  · have left : subULong datagram.length p = content.length := by
      rw [subULong, total, if_pos (Nat.le_add_left _ _), Nat.add_sub_cancel]
    simp only [toBaseFilter, backward, kept, Option.getD_some, left]
    rw [List.take_left' rfl]

/-- The round trip of the filter for every psk its configuration can carry. -/
theorem loadConfig_roundTrip (hash : Bytes → UInt64) (config : Bytes)
    (loaded : loadConfig hash config = .ok filter) (datagram : Bytes) :
    (∃ name psk, split 0x40 config = [name, psk] ∧ filter.key = pskToKey 16 hash psk) ∧
      ∃ cipher : Bytes, (filter.toBaseFilter mode).convertForward datagram = some cipher ∧
        cipher.length = datagram.length + 16 - datagram.length % 16 ∧
        (filter.encrypt mode datagram).1 = .ok ∧
        (filter.decrypt mode cipher).error = .ok ∧
        (filter.toBaseFilter mode).convertBackward cipher = some datagram := by
  rcases filter.convertBackward_convertForward mode datagram with
    ⟨cipher, forward, size, encrypted, decrypted, backward⟩
  refine ⟨loadConfig_ok loaded, cipher, forward, ?_, by rw [encrypted], decrypted, backward⟩
  rw [size, padding, kStateSize]
  omega

/-- The psk of the repository's own test, under the hash value the GNU library gives it. -/
theorem loadConfig_roundTrip_helloWorld :
    ∃ filter, loadConfig (fun _ => 0x4d6686d362067ff9) (ascii "aes@hello world") = .ok filter ∧
      ∃ cipher : Bytes,
        (filter.toBaseFilter .cbc).convertForward (ascii "Hi, I'm a datagram") = some cipher ∧
        cipher.length = 32 ∧
        (filter.toBaseFilter .cbc).convertBackward cipher = some (ascii "Hi, I'm a datagram") := by
  have loaded : loadConfig (fun _ => 0x4d6686d362067ff9) (ascii "aes@hello world") =
      .ok ⟨pskToKey 16 (fun _ => 0x4d6686d362067ff9) (ascii "hello world"), by decide⟩ := by
    rfl
  rcases loadConfig_roundTrip _ .cbc _ _ loaded (ascii "Hi, I'm a datagram") with
    ⟨_, cipher, forward, size, _, _, backward⟩
  exact ⟨_, loaded, cipher, forward, size, backward⟩

end AESFilter

structure XorFilter where
  key : Bytes
  key_length : key.length = 32

namespace XorFilter

def loadConfig (hash : Bytes → UInt64) (config : Bytes) : Except Exn XorFilter :=
  match split 0x40 config with
  | [_, psk] => .ok ⟨pskToKey 32 hash psk, pskToKey_length (by decide) hash psk⟩
  | _ => .error (.invalidArgument
      "Wrong parameter string for protocol 'plain'. Example:    XOR@MyPassword")

/-- `key[index]`: the terminator can be read, what lies behind it cannot. -/
def keyDigit (key : Bytes) (index : Nat) : Option UInt8 :=
  if index = key.length then some 0 else key[index]?

def convertForward (filter : XorFilter) (datagram : Bytes) : Option Bytes :=
  datagram.zipIdx.mapM fun digit => (keyDigit filter.key digit.2).map (digit.1 ^^^ ·)

def toBaseFilter (filter : XorFilter) : BaseFilter where
  convertForward := filter.convertForward
  convertBackward := filter.convertForward

/-- The values of `curr_key_digit` at which the loop reads the key. -/
def keyReads (datagram : Bytes) : List Nat := datagram.zipIdx.map Prod.snd

/-- What a cipher with a repeating key does: it reads the key inside its bytes, combines byte `i`
with byte `i` modulo the key's size, and undoes itself. -/
structure RepeatingKey (filter : XorFilter) (datagram : Bytes) : Prop where
  reads_inside : ∀ index ∈ keyReads datagram, index < filter.key.length
  converted : ∃ result : Bytes, filter.toBaseFilter.convertForward datagram = some result ∧
    result.length = datagram.length ∧
    (∀ i, i < datagram.length →
      result[i]? = some (datagram.getD i 0 ^^^ filter.key.getD (i % filter.key.length) 0)) ∧
    filter.toBaseFilter.convertBackward result = some datagram

theorem mem_keyReads {datagram : Bytes} {index : Nat} :
    index ∈ keyReads datagram ↔ index < datagram.length := by
  simp [keyReads, List.zipIdx_map_snd]

/-- The loop reads the key at these values, at one of them for each byte, and nowhere else. -/
theorem convertForward_keyReads (filter : XorFilter) (datagram : Bytes) :
    filter.convertForward datagram = (datagram.zip (keyReads datagram)).mapM fun digit =>
      (keyDigit filter.key digit.2).map (digit.1 ^^^ ·) := by
  rw [keyReads, List.zipIdx_map_snd, ← List.zipIdx_eq_zip_range', convertForward]

theorem keyDigit_eq (key : Bytes) (index : Nat) : keyDigit key index = (key ++ [0])[index]? := by
  rw [keyDigit]
  split
  · rename_i last
    rw [last, List.getElem?_append_right (Nat.le_refl _), Nat.sub_self]
    rfl
  · rename_i other
    by_cases early : index < key.length
    · rw [List.getElem?_append_left early]
    · rw [List.getElem?_eq_none (by omega), List.getElem?_eq_none (by simp; omega)]

variable (filter : XorFilter) {datagram : Bytes}

/-- Past the terminator of the key the behaviour is undefined. -/
theorem convertForward_eq (datagram : Bytes) :
    filter.convertForward datagram =
      if datagram.length ≤ filter.key.length + 1 then some (xorData datagram (filter.key ++ [0]))
      else none := by
  have loop := mapM_zipIdx_getElem (· ^^^ ·) (filter.key ++ [0]) datagram (Nat.zero_le _)
  rw [Nat.zero_add, List.drop_zero, List.length_append] at loop
  simp only [convertForward, keyDigit_eq]
  exact loop

theorem convertForward_short (short : datagram.length ≤ filter.key.length) :
    filter.convertForward datagram =
      some (xorData datagram (filter.key.take datagram.length)) := by
  rw [convertForward_eq, if_pos (Nat.le_succ_of_le short), xorData, xorData,
    List.zipWith_eq_zipWith_take_min]
  have read : min datagram.length (filter.key ++ [0]).length = datagram.length := by
    apply Nat.min_eq_left
    rw [List.length_append]
    exact Nat.le_add_right_of_le short
  rw [read, List.take_length, List.take_append_of_le_length short]

/-- The key repeats only for datagrams that do not reach its end. -/
theorem repeatingKey_iff (datagram : Bytes) :
    RepeatingKey filter datagram ↔ datagram.length ≤ 32 := by
  constructor
  · intro repeating
    by_contra long
    have last := repeating.reads_inside 32 (mem_keyReads.mpr (Nat.lt_of_not_le long))
    rw [filter.key_length] at last
    exact Nat.lt_irrefl 32 last
  · intro few
    have short : datagram.length ≤ filter.key.length := by rwa [filter.key_length]
    have forward := convertForward_short filter short
    have taken : (filter.key.take datagram.length).length = datagram.length :=
      List.length_take_of_le short
    have size : (xorData datagram (filter.key.take datagram.length)).length =
        datagram.length := by
      rw [xorData, List.length_zipWith, taken, Nat.min_self]
    constructor
    · intro index member
      exact Nat.lt_of_lt_of_le (mem_keyReads.mp member) short
    · refine ⟨_, forward, size, ?_, ?_⟩
      · intro i bound
        have inside := Nat.lt_of_lt_of_le bound short
        rw [Nat.mod_eq_of_lt inside, xorData, List.getElem?_zipWith]
        simp [bound, inside]
      · have again := convertForward_short filter (by rwa [size])
        rw [size, xorData_xorData taken.symm] at again
        exact again

/-- One byte past the key the terminator is read in its place, two bytes past it anything can
happen. -/
theorem key_exhausted :
    ∃ filter : XorFilter,
      loadConfig (fun _ => 0x4d6686d362067ff9) (ascii "xor@hello world") = .ok filter ∧
      32 ∈ keyReads (List.replicate 33 0) ∧ filter.key[32 % 32]? = some 0xf9 ∧
      (filter.convertForward (List.replicate 33 0)).bind (·[32]?) = some 0 ∧
      filter.convertForward (List.replicate 34 0) = none := by
  refine ⟨⟨pskToKey 32 (fun _ => 0x4d6686d362067ff9) (ascii "hello world"), by decide⟩, rfl, ?_⟩
  decide

end XorFilter

end UdpForwarder.Filters
