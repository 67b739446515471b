import UdpForwarder.Forwarder

/-! The filter configurations that `CreateFilterFromConfig` accepts, and what it makes of them. -/

namespace UdpForwarder.FilterConfig

open Filters Forwarder

inductive BaseMethod where
  | aes
  | xor
  deriving DecidableEq, Repr

def BaseMethod.text : BaseMethod → Bytes
  | .aes => ascii "aes@"
  | .xor => ascii "xor@"

def loadBase (hash : Bytes → UInt64) (password : Bytes) : BaseMethod → Except Exn BaseFilter
  | .aes => do
    let newFilter ← AESFilter.loadConfig hash (ascii "aes@" ++ password)
    return newFilter.toBaseFilter .cbc
  | .xor => do
    let newFilter ← XorFilter.loadConfig hash (ascii "xor@" ++ password)
    return newFilter.toBaseFilter

/-- `depth` times `reverse@`, a base method and a password. -/
def written (depth : Nat) (method : BaseMethod) (password : Bytes) : Bytes :=
  (List.replicate depth (ascii "reverse@")).flatten ++ (method.text ++ password)

/-- The configuration language. -/
def InLanguage (filterConfig : Bytes) : Prop :=
  ∃ depth method password, 0x40 ∉ password ∧ filterConfig = written depth method password

def Alike (filter base : BaseFilter) : Prop :=
  ∀ datagram, filter.convertForward datagram = base.convertForward datagram ∧
    filter.convertBackward datagram = base.convertBackward datagram

def Exchanged (filter base : BaseFilter) : Prop :=
  ∀ datagram, filter.convertForward datagram = base.convertBackward datagram ∧
    filter.convertBackward datagram = base.convertForward datagram

/-- What `reverse@`, written so many times, makes of the base filter. -/
def Turned (depth : Nat) (filter base : BaseFilter) : Prop :=
  (depth % 2 = 0 → Alike filter base) ∧ (depth % 2 = 1 → Exchanged filter base)

variable {hash : Bytes → UInt64}

theorem written_succ (depth : Nat) (method : BaseMethod) (password : Bytes) :
    written (depth + 1) method password = reversePrefix ++ written depth method password := by
  simp [written, List.replicate_succ, reversePrefix]

theorem turned_zero (base : BaseFilter) : Turned 0 base base :=
  ⟨fun _ _ => ⟨rfl, rfl⟩, fun odd => absurd odd (by decide)⟩

theorem Turned.reverse {depth : Nat} {filter base : BaseFilter}
    (turned : Turned depth filter base) : Turned (depth + 1) (reversedFilter filter) base := by
  constructor
  · intro even datagram
    have back := turned.2 (by omega) datagram
    exact ⟨back.2, back.1⟩
  · intro odd datagram
    have back := turned.1 (by omega) datagram
    exact ⟨back.2, back.1⟩

theorem InLanguage.reverse {filterConfig : Bytes} (inside : InLanguage filterConfig) :
    InLanguage (reversePrefix ++ filterConfig) := by
  obtain ⟨depth, method, password, clean, rfl⟩ := inside
  exact ⟨depth + 1, method, password, clean, (written_succ depth method password).symm⟩

theorem split_text (method : BaseMethod) (password : Bytes) :
    ∃ name, split 0x40 (method.text ++ password) = name :: split 0x40 password := by
  have behind : ∀ name : Bytes, 0x40 ∉ name →
      split 0x40 (name ++ 0x40 :: password) = name :: split 0x40 password := by
    intro name clean
    rw [split_eq_splitOn, split_eq_splitOn]
    exact List.splitOn_append_cons_self_of_not_mem clean password
  cases method with
  | aes => exact ⟨_, behind (ascii "aes") (by decide)⟩
  | xor => exact ⟨_, behind (ascii "xor") (by decide)⟩

theorem split_password {password : Bytes} (clean : 0x40 ∉ password) :
    split 0x40 password = [password] := by
  rw [split_eq_splitOn]
  exact List.splitOn_eq_singleton clean

theorem split_password_many {password : Bytes} (dirty : 0x40 ∈ password) :
    ∃ first second others, split 0x40 password = first :: second :: others := by
  cases parts : split 0x40 password with
  | nil => exact absurd rfl (split_eq_iff.mp parts).1
  | cons first others =>
      cases others with
      | nil =>
          obtain ⟨_, clean, whole⟩ := split_eq_iff.mp parts
          have same : password = first := by simpa using whole
          exact absurd (same ▸ dirty) (clean first List.mem_cons_self)
      | cons second others => exact ⟨first, second, others, rfl⟩

theorem loadBase_ok {password : Bytes} (clean : 0x40 ∉ password) (method : BaseMethod) :
    ∃ filter, loadBase hash password method = .ok filter := by
  obtain ⟨name, pair⟩ := split_text method password
  rw [split_password clean] at pair
  cases method with
  | aes =>
      rw [BaseMethod.text] at pair
      simp only [loadBase, AESFilter.loadConfig, pair]
      exact ⟨_, rfl⟩
  | xor =>
      rw [BaseMethod.text] at pair
      simp only [loadBase, XorFilter.loadConfig, pair]
      exact ⟨_, rfl⟩

theorem loadBase_error {password : Bytes} (dirty : 0x40 ∈ password) (method : BaseMethod) :
    ∃ what, loadBase hash password method = .error (.invalidArgument what) := by
  obtain ⟨first, second, others, parts⟩ := split_password_many dirty
  obtain ⟨name, many⟩ := split_text method password
  rw [parts] at many
  cases method with
  | aes =>
      rw [BaseMethod.text] at many
      simp only [loadBase, AESFilter.loadConfig, many]
      exact ⟨_, rfl⟩
  | xor =>
      rw [BaseMethod.text] at many
      simp only [loadBase, XorFilter.loadConfig, many]
      exact ⟨_, rfl⟩

theorem createFilterFromConfig_base (method : BaseMethod) (password : Bytes) :
    createFilterFromConfig hash (method.text ++ password) = loadBase hash password method := by
  cases method with
  | aes =>
      have aes : startsWith (ascii "aes@" ++ password) aesPrefix = true :=
        List.isPrefixOf_iff_prefix.mpr (List.prefix_append _ _)
      rw [BaseMethod.text, createFilterFromConfig, if_pos aes, loadBase]
  | xor =>
      have aes : startsWith (ascii "xor@" ++ password) aesPrefix = false := rfl
      have xor : startsWith (ascii "xor@" ++ password) xorPrefix = true :=
        List.isPrefixOf_iff_prefix.mpr (List.prefix_append _ _)
      rw [BaseMethod.text, createFilterFromConfig, aes, if_neg Bool.false_ne_true, if_pos xor,
        loadBase]

/-- The accepting side, by the number of `reverse@`. -/
theorem createFilterFromConfig_written (depth : Nat) (method : BaseMethod) {password : Bytes}
    {base : BaseFilter} (loaded : loadBase hash password method = .ok base) :
    ∃ newFilter, createFilterFromConfig hash (written depth method password) = .ok newFilter ∧
      Turned depth newFilter base := by
  induction depth with
  | zero =>
      have bare : written 0 method password = method.text ++ password := rfl
      rw [bare, createFilterFromConfig_base, loaded]
      exact ⟨base, rfl, turned_zero base⟩
  | succ depth ih =>
      obtain ⟨real, accepted, turned⟩ := ih
      rw [written_succ, createFilterFromConfig_reverse, accepted]
      exact ⟨reversedFilter real, rfl, turned.reverse⟩

/-- The rejecting side, by the recursion of the parser. -/
theorem createFilterFromConfig_rejects (filterConfig : Bytes)
    (outside : ¬ InLanguage filterConfig) :
    ∃ what, createFilterFromConfig hash filterConfig = .error (.invalidArgument what) := by
  have base : ∀ (method : BaseMethod) (password : Bytes),
      ¬ InLanguage (method.text ++ password) →
      ∃ what, createFilterFromConfig hash (method.text ++ password) =
        .error (.invalidArgument what) := by
    intro method password outside
    rw [createFilterFromConfig_base]
    apply loadBase_error
    by_contra clean
    exact outside ⟨0, method, password, clean, rfl⟩
  induction filterConfig using createFilterFromConfig.induct with
  | case1 filterConfig aes =>
      obtain ⟨password, rfl⟩ := List.isPrefixOf_iff_prefix.mp aes
      exact base .aes password outside
  | case2 filterConfig _ xor =>
      obtain ⟨password, rfl⟩ := List.isPrefixOf_iff_prefix.mp xor
      exact base .xor password outside
  | case3 filterConfig _ _ reversed ih =>
      obtain ⟨rest, rfl⟩ := List.isPrefixOf_iff_prefix.mp reversed
      have inner : ¬ InLanguage rest := fun inside => outside inside.reverse
      have dropped : (reversePrefix ++ rest).drop 8 = rest := List.drop_left' rfl
      rw [dropped] at ih
      obtain ⟨what, rejected⟩ := ih inner
      refine ⟨what, ?_⟩
      rw [createFilterFromConfig_reverse, rejected]
      rfl
  | case4 filterConfig aes xor reversed =>
      rw [createFilterFromConfig, if_neg aes, if_neg xor, if_neg reversed]
      exact ⟨_, rfl⟩

/-- A string is a filter configuration exactly if it is in the language; every other one is an
invalid argument; and the filter converts like the base filter, or with its two conversions
exchanged, by the number of `reverse@`. -/
theorem createFilterFromConfig_language (hash : Bytes → UInt64) (filterConfig : Bytes) :
    ((∃ newFilter, createFilterFromConfig hash filterConfig = .ok newFilter) ↔
      InLanguage filterConfig) ∧
    (¬ InLanguage filterConfig →
      ∃ what, createFilterFromConfig hash filterConfig = .error (.invalidArgument what)) ∧
    ∀ depth method password, 0x40 ∉ password → filterConfig = written depth method password →
      ∃ base newFilter, loadBase hash password method = .ok base ∧
        createFilterFromConfig hash filterConfig = .ok newFilter ∧
        (depth % 2 = 0 → ∀ datagram,
          newFilter.convertForward datagram = base.convertForward datagram ∧
          newFilter.convertBackward datagram = base.convertBackward datagram) ∧
        (depth % 2 = 1 → ∀ datagram,
          newFilter.convertForward datagram = base.convertBackward datagram ∧
          newFilter.convertBackward datagram = base.convertForward datagram) := by
  have accepts : ∀ depth method password, 0x40 ∉ password →
      filterConfig = written depth method password →
      ∃ base newFilter, loadBase hash password method = .ok base ∧
        createFilterFromConfig hash filterConfig = .ok newFilter ∧
        Turned depth newFilter base := by
    intro depth method password clean shape
    obtain ⟨base, loaded⟩ := loadBase_ok clean method
    obtain ⟨newFilter, accepted, turned⟩ := createFilterFromConfig_written depth method loaded
    rw [← shape] at accepted
    exact ⟨base, newFilter, loaded, accepted, turned⟩
  refine ⟨?_, createFilterFromConfig_rejects filterConfig, accepts⟩
  constructor
  · rintro ⟨newFilter, accepted⟩
    by_contra outside
    obtain ⟨what, rejected⟩ := createFilterFromConfig_rejects filterConfig outside
    rw [accepted] at rejected
    cases rejected
  · rintro ⟨depth, method, password, clean, shape⟩
    obtain ⟨base, newFilter, _, accepted, _⟩ := accepts depth method password clean shape
    exact ⟨newFilter, accepted⟩

end UdpForwarder.FilterConfig
