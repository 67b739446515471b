import UdpForwarder.Filters

/-! `CreateFilterFromConfig` and the filter that a `Forwarder` is constructed with. -/

namespace UdpForwarder.Forwarder

open Filters Pipeline

/-- Binary text inside an error message, one character a byte. -/
def shown (text : Bytes) : String := .ofList (text.map fun b => Char.ofNat b.toNat)

def aesPrefix : Bytes := ascii "aes@"

def xorPrefix : Bytes := ascii "xor@"

def reversePrefix : Bytes := ascii "reverse@"

theorem drop_reversePrefix {filterConfig : Bytes}
    (reversed : startsWith filterConfig reversePrefix = true) :
    (filterConfig.drop 8).length < filterConfig.length := by
  have long := (List.isPrefixOf_iff_prefix.mp reversed).length_le
  rw [show reversePrefix.length = 8 from rfl] at long
  rw [List.length_drop]
  omega

def createFilterFromConfig (hash : Bytes → UInt64) (filterConfig : Bytes) :
    Except Exn BaseFilter :=
  if startsWith filterConfig aesPrefix then do
    let newFilter ← AESFilter.loadConfig hash filterConfig
    return newFilter.toBaseFilter .cbc
  else if startsWith filterConfig xorPrefix then do
    let newFilter ← XorFilter.loadConfig hash filterConfig
    return newFilter.toBaseFilter
  else if startsWith filterConfig reversePrefix then do
    -- the reversed filter's own `loadConfig` is the empty one of `BaseFilter`
    let real ← createFilterFromConfig hash (filterConfig.drop 8)
    return reversedFilter real
  else
    .error (.invalidArgument ("Unknown filter in filterConfig item: " ++ shown filterConfig))
termination_by filterConfig.length
decreasing_by exact drop_reversePrefix ‹_›

def createFilters (hash : Bytes → UInt64) (filterConfigs : List Bytes) :
    Except Exn (List BaseFilter) :=
  filterConfigs.mapM (createFilterFromConfig hash)

def ptrFilter (hash : Bytes → UInt64) (filterConfigs : List Bytes) : Except Exn BaseFilter := do
  let filters ← createFilters hash filterConfigs
  return chainedFilters filters

/-- The configuration of the other end of a tunnel. -/
def mirrored (filterConfigs : List Bytes) : List Bytes :=
  (filterConfigs.map (reversePrefix ++ ·)).reverse

variable {hash : Bytes → UInt64}

theorem createFilterFromConfig_reverse (filterConfig : Bytes) :
    createFilterFromConfig hash (reversePrefix ++ filterConfig) =
      reversedFilter <$> createFilterFromConfig hash filterConfig := by
  have aes : startsWith (reversePrefix ++ filterConfig) aesPrefix = false := rfl
  have xor : startsWith (reversePrefix ++ filterConfig) xorPrefix = false := rfl
  have reversed : startsWith (reversePrefix ++ filterConfig) reversePrefix = true :=
    List.isPrefixOf_iff_prefix.mpr (List.prefix_append _ _)
  have rest : (reversePrefix ++ filterConfig).drop 8 = filterConfig := List.drop_left' rfl
  rw [createFilterFromConfig, aes, xor, reversed, rest]
  rfl

theorem createFilterFromConfig_aes (psk : Bytes) {filter : AESFilter}
    (loaded : AESFilter.loadConfig hash (aesPrefix ++ psk) = .ok filter) :
    createFilterFromConfig hash (aesPrefix ++ psk) = .ok (filter.toBaseFilter .cbc) := by
  have aes : startsWith (aesPrefix ++ psk) aesPrefix = true :=
    List.isPrefixOf_iff_prefix.mpr (List.prefix_append _ _)
  rw [createFilterFromConfig, aes, loaded]
  rfl

theorem aes_of_createFilterFromConfig {psk : Bytes} {newFilter : BaseFilter}
    (accepted : createFilterFromConfig hash (aesPrefix ++ psk) = .ok newFilter) :
    ∃ filter : AESFilter, newFilter = filter.toBaseFilter .cbc := by
  cases loaded : AESFilter.loadConfig hash (aesPrefix ++ psk) with
  | ok filter =>
      rw [createFilterFromConfig_aes psk loaded] at accepted
      injection accepted with same
      exact ⟨filter, same.symm⟩
  | error exn =>
      have aes : startsWith (aesPrefix ++ psk) aesPrefix = true :=
        List.isPrefixOf_iff_prefix.mpr (List.prefix_append _ _)
      rw [createFilterFromConfig, aes, loaded] at accepted
      cases accepted

theorem createFilters_cons (filterConfig : Bytes) (filterConfigs : List Bytes) :
    createFilters hash (filterConfig :: filterConfigs) = do
      let newFilter ← createFilterFromConfig hash filterConfig
      let filters ← createFilters hash filterConfigs
      return newFilter :: filters := by
  simp [createFilters, List.mapM_cons]

theorem createFilters_append (front back : List Bytes) :
    createFilters hash (front ++ back) = do
      let first ← createFilters hash front
      let second ← createFilters hash back
      return first ++ second := by
  simp [createFilters, List.mapM_append]

/-- The mirrored configuration is accepted with the original one, and makes the filters of the
original one reversed and in the opposite order. -/
theorem createFilters_mirrored {filterConfigs : List Bytes} {filters : List BaseFilter}
    (accepted : createFilters hash filterConfigs = .ok filters) :
    createFilters hash (mirrored filterConfigs) = .ok (filters.reverse.map reversedFilter) := by
  induction filterConfigs generalizing filters with
  | nil =>
      injection accepted with equal
      subst equal
      rfl
  | cons filterConfig filterConfigs ih =>
      rw [createFilters_cons] at accepted
      cases head : createFilterFromConfig hash filterConfig with
      | error exn =>
          rw [head] at accepted
          cases accepted
      | ok newFilter =>
          cases tail : createFilters hash filterConfigs with
          | error exn =>
              rw [head, tail] at accepted
              cases accepted
          | ok others =>
              rw [head, tail] at accepted
              injection accepted with equal
              subst equal
              have last : createFilters hash [reversePrefix ++ filterConfig] =
                  .ok [reversedFilter newFilter] := by
                rw [createFilters_cons, createFilterFromConfig_reverse, head]
                rfl
              have split : mirrored (filterConfig :: filterConfigs) =
                  mirrored filterConfigs ++ [reversePrefix ++ filterConfig] := by
                simp [mirrored]
              rw [split, createFilters_append, ih tail, last]
              simp only [List.reverse_cons, List.map_append]
              rfl

theorem chainedFilters_reversed (filters : List BaseFilter) :
    chainedFilters (filters.reverse.map reversedFilter) =
      reversedFilter (chainedFilters filters) := by
  have backward : along BaseFilter.convertForward (filters.reverse.map reversedFilter) =
      along BaseFilter.convertBackward filters.reverse := by
    funext datagram
    exact along_map reversedFilter filters.reverse datagram
  have forward : along BaseFilter.convertBackward (filters.reverse.map reversedFilter).reverse =
      along BaseFilter.convertForward filters := by
    funext datagram
    rw [← List.map_reverse, List.reverse_reverse]
    exact along_map reversedFilter filters datagram
  rw [chainedFilters, backward, forward]
  rfl

theorem ptrFilter_mirrored {filterConfigs : List Bytes} {filters : List BaseFilter}
    (accepted : createFilters hash filterConfigs = .ok filters) :
    ptrFilter hash filterConfigs = .ok (chainedFilters filters) ∧
      ptrFilter hash (mirrored filterConfigs) = .ok (reversedFilter (chainedFilters filters)) := by
  constructor
  · rw [ptrFilter, accepted]
    rfl
  · rw [ptrFilter, createFilters_mirrored accepted, ← chainedFilters_reversed]
    rfl

/-- Mirrored chains undo each other in both directions of the tunnel. -/
theorem mirrored_chains_cancel {filterConfigs : List Bytes} {filters : List BaseFilter}
    (accepted : createFilters hash filterConfigs = .ok filters)
    (undone : ∀ filter ∈ filters, ∀ datagram,
      (filter.convertForward datagram).bind filter.convertBackward = some datagram) :
    ∃ client server, ptrFilter hash filterConfigs = .ok client ∧
      ptrFilter hash (mirrored filterConfigs) = .ok server ∧
      ∀ datagram,
        (client.convertForward datagram).bind client.convertBackward = some datagram ∧
        (client.convertForward datagram).bind server.convertForward = some datagram ∧
        (server.convertBackward datagram).bind client.convertBackward = some datagram := by
  rcases ptrFilter_mirrored accepted with ⟨client, server⟩
  refine ⟨_, _, client, server, fun datagram => ?_⟩
  -- the server's forward conversion is the client's backward one and the other way round
  have cancel := along_undone undone datagram
  exact ⟨cancel, cancel, cancel⟩

theorem mirrored_chains_cancel_helloWorld :
    ∃ client server,
      ptrFilter (fun _ => 0x4d6686d362067ff9)
        [ascii "aes@hello world", ascii "reverse@reverse@aes@hello world"] = .ok client ∧
      ptrFilter (fun _ => 0x4d6686d362067ff9)
        [ascii "reverse@reverse@reverse@aes@hello world", ascii "reverse@aes@hello world"] =
          .ok server ∧
      ∀ datagram,
        (client.convertForward datagram).bind client.convertBackward = some datagram ∧
        (client.convertForward datagram).bind server.convertForward = some datagram ∧
        (server.convertBackward datagram).bind client.convertBackward = some datagram := by
  let filter : AESFilter :=
    ⟨pskToKey 16 (fun _ => 0x4d6686d362067ff9) (ascii "hello world"), by decide⟩
  have single : createFilterFromConfig (fun _ => 0x4d6686d362067ff9) (ascii "aes@hello world") =
      .ok (filter.toBaseFilter .cbc) :=
    createFilterFromConfig_aes (ascii "hello world") rfl
  have nested : createFilterFromConfig (fun _ => 0x4d6686d362067ff9)
      (ascii "reverse@reverse@aes@hello world") = .ok (filter.toBaseFilter .cbc) := by
    have config : ascii "reverse@reverse@aes@hello world" =
        reversePrefix ++ (reversePrefix ++ ascii "aes@hello world") := by decide
    rw [config, createFilterFromConfig_reverse, createFilterFromConfig_reverse, single]
    rfl
  have accepted : createFilters (fun _ => 0x4d6686d362067ff9)
      [ascii "aes@hello world", ascii "reverse@reverse@aes@hello world"] =
        .ok [filter.toBaseFilter .cbc, filter.toBaseFilter .cbc] := by
    rw [createFilters_cons, createFilters_cons, single, nested]
    rfl
  apply mirrored_chains_cancel accepted
  intro other member datagram
  have same : other = filter.toBaseFilter .cbc := by simpa using member
  rcases filter.convertBackward_convertForward .cbc datagram with
    ⟨cipher, forward, _, _, _, backward⟩
  rw [same, forward, Option.bind_some, backward]

end UdpForwarder.Forwarder
