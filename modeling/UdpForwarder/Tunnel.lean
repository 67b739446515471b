import UdpForwarder.Forwarder
import UdpForwarder.Forwarding

/-! A client's forwarder with chained `aes@` filters and a server's forwarder with their mirror
image, and the datagrams that come out of the tunnel. -/

namespace UdpForwarder.Tunnel

open ClientId ConnectionTable Delivery Filters Forwarder Forwarding Ipc Isolation Pipeline Plain
  Progress Transition

/-- The configuration of one `aes@` filter for each psk. -/
def aesConfigs (psks : List Bytes) : List Bytes := psks.map (aesPrefix ++ ·)

def Whole (datagram : Bytes) : Prop := 1 ≤ datagram.length ∧ datagram.length ≤ dgramBufferSize

instance (datagram : Bytes) : Decidable (Whole datagram) := by
  unfold Whole
  infer_instance

structure Drained (setup : Setup) (state : State) : Prop where
  reached : Reachable (State.step setup) (State.start setup) state
  running : state.fault = none
  transit : InTransit state []

/-- What comes out of the tunnel is what went in, and on the way no wire datagram is too long for
the receive buffer: for one client of the client's forwarder, and the one client of the server's
that has sent what was emitted for it. -/
def Intact (hash : Bytes → UInt64) (psks datagrams : List Bytes) : Prop :=
  ∀ client server : Setup,
    ptrFilter hash (aesConfigs psks) = .ok client.filter →
    ptrFilter hash (mirrored (aesConfigs psks)) = .ok server.filter →
    (∀ datagram ∈ datagrams, ∀ wire, client.filter.convertForward datagram = some wire →
      wire.length ≤ dgramBufferSize) ∧
    ∀ sent received id id', Drained client sent → Drained server received →
      takenFrom sent.process id = datagrams →
      takenFrom received.process id' = emitted sent.process id →
      emitted received.process id' = datagrams

variable {setup : Setup} {state : State} {hash : Bytes → UInt64} {psks : List Bytes}
  {filters : List BaseFilter}

theorem nonempty_eq {datagrams : List Bytes} (some_bytes : ∀ datagram ∈ datagrams, datagram ≠ []) :
    nonempty datagrams = datagrams := by
  apply List.filter_eq_self.mpr
  intro datagram member
  exact decide_eq_true (some_bytes datagram member)

theorem nonempty_single {datagram : Bytes} (some_bytes : 0 < datagram.length) :
    nonempty [datagram] = [datagram] := by
  apply nonempty_eq
  intro other member
  rw [List.mem_singleton.mp member]
  exact List.ne_nil_of_length_pos some_bytes

theorem emitted_nonempty (reached : Reachable (State.step setup) (State.start setup) state)
    (id : Bytes) : nonempty (emitted state.process id) = emitted state.process id := by
  apply nonempty_eq
  intro datagram member
  rw [emitted] at member
  split at member
  · rename_i connFd _
    rcases List.mem_filterMap.mp member with ⟨event, inTrace, sends⟩
    rw [sentOn_eq_some sends] at inTrace
    rcases List.append_of_mem inTrace with ⟨before, after, split⟩
    exact ((account reached).1 before _ after split).1
  · cases member

theorem Drained.emitted (drained : Drained setup state) (id : Bytes) :
    emitted state.process id =
      nonempty ((takenFrom state.process id).filterMap (conversion setup.filter)) := by
  rcases accounted drained.reached drained.running with ⟨messages, pending, inOrder⟩
  have order := (inOrder id).order
  rw [inTransit_unique pending drained.transit] at order
  have none : waiting [] id = [] := rfl
  rwa [none, List.append_nil, emitted_nonempty drained.reached] at order

def layers (keys : List AESFilter) : List BaseFilter :=
  keys.map fun filter => filter.toBaseFilter .cbc

theorem chainedFilters_single (filter : BaseFilter) : chainedFilters [filter] = filter := by
  have alone : ∀ act : BaseFilter → Bytes → Option Bytes, along act [filter] = act filter := by
    intro act
    funext datagram
    rw [along_cons]
    exact Option.bind_fun_some _
  rw [chainedFilters, List.reverse_singleton, alone, alone]

theorem layers_of_accepted (accepted : createFilters hash (aesConfigs psks) = .ok filters) :
    ∃ keys, filters = layers keys ∧ keys.length = psks.length := by
  induction psks generalizing filters with
  | nil =>
      injection accepted with same
      exact ⟨[], same.symm, rfl⟩
  | cons psk psks ih =>
      have split : aesConfigs (psk :: psks) = (aesPrefix ++ psk) :: aesConfigs psks := rfl
      rw [split, createFilters_cons] at accepted
      cases head : createFilterFromConfig hash (aesPrefix ++ psk) with
      | error exn =>
          rw [head] at accepted
          cases accepted
      | ok newFilter =>
          cases tail : createFilters hash (aesConfigs psks) with
          | error exn =>
              rw [head, tail] at accepted
              cases accepted
          | ok others =>
              rw [head, tail] at accepted
              injection accepted with same
              rcases aes_of_createFilterFromConfig head with ⟨filter, rfl⟩
              rcases ih tail with ⟨keys, rfl, count⟩
              refine ⟨filter :: keys, same.symm, ?_⟩
              rw [List.length_cons, List.length_cons, count]

/-- Each layer rounds the length up to the next multiple of the state size. -/
theorem layers_length (keys : List AESFilter) (datagram : Bytes) :
    ∃ wire, (chainedFilters (layers keys)).convertForward datagram = some wire ∧
      wire.length = if keys = [] then datagram.length
        else 16 * (datagram.length / 16 + keys.length) := by
  induction keys generalizing datagram with
  | nil => exact ⟨datagram, rfl, rfl⟩
  | cons filter keys ih =>
      rcases filter.convertBackward_convertForward .cbc datagram with ⟨cipher, forward, size, _⟩
      rcases ih cipher with ⟨wire, rest, length⟩
      have blocks : cipher.length = 16 * (datagram.length / 16 + 1) := by
        rw [size, Plusaes.padding, Plusaes.kStateSize]
        omega
      have chain : (chainedFilters (layers (filter :: keys))).convertForward datagram =
          some wire := by
        have first : (chainedFilters (layers (filter :: keys))).convertForward datagram =
            ((filter.toBaseFilter .cbc).convertForward datagram).bind
              (chainedFilters (layers keys)).convertForward := along_cons _ _ _
        rw [first, forward, Option.bind_some, rest]
      refine ⟨wire, chain, ?_⟩
      rw [if_neg (List.cons_ne_nil _ _), length, List.length_cons]
      split
      · rename_i last
        rw [blocks, last, List.length_nil]
      · rw [blocks, Nat.mul_div_cancel_left _ (by decide)]
        omega

theorem layers_whole {keys : List AESFilter} {datagram : Bytes} (whole : Whole datagram)
    (fits : keys = [] ∨ 16 * (datagram.length / 16 + keys.length) ≤ dgramBufferSize) :
    ∃ wire, (chainedFilters (layers keys)).convertForward datagram = some wire ∧ Whole wire := by
  rcases layers_length keys datagram with ⟨wire, forward, length⟩
  refine ⟨wire, forward, ?_⟩
  rw [Whole, length]
  split
  · exact whole
  · rename_i some_keys
    have positive := List.length_pos_of_ne_nil some_keys
    exact ⟨by omega, fits.resolve_left some_keys⟩

theorem layers_undone (keys : List AESFilter) {datagram wire : Bytes}
    (forward : (chainedFilters (layers keys)).convertForward datagram = some wire) :
    (chainedFilters (layers keys)).convertBackward wire = some datagram := by
  have undone : ∀ filter ∈ layers keys, ∀ datagram,
      (filter.convertForward datagram).bind filter.convertBackward = some datagram := by
    intro other member datagram
    rcases List.mem_map.mp member with ⟨filter, _, rfl⟩
    rcases filter.convertBackward_convertForward .cbc datagram with
      ⟨cipher, there, _, _, _, back⟩
    rw [there, Option.bind_some, back]
  have together : ((chainedFilters (layers keys)).convertForward datagram).bind
      (chainedFilters (layers keys)).convertBackward = some datagram := along_undone undone datagram
  rwa [forward, Option.bind_some] at together

structure Passes (client server : BaseFilter) (datagram : Bytes) : Prop where
  whole : Whole datagram
  wire : ∃ wire, client.convertForward datagram = some wire ∧ Whole wire ∧
    server.convertForward wire = some datagram

theorem whole_take {datagram : Bytes} (whole : Whole datagram) :
    datagram.take dgramBufferSize = datagram := List.take_of_length_le whole.2

theorem whole_ne_nil {datagram : Bytes} (whole : Whole datagram) : datagram ≠ [] :=
  List.ne_nil_of_length_pos whole.1

/-- Two forwarders in a row, for datagrams that pass one by one. -/
theorem emitted_of_passes {client server : Setup} {sent received : State} {id id' : Bytes}
    {datagrams : List Bytes} (first : Drained client sent) (second : Drained server received)
    (passes : ∀ datagram ∈ datagrams, Passes client.filter server.filter datagram)
    (taken : takenFrom sent.process id = datagrams)
    (wires : takenFrom received.process id' = emitted sent.process id) :
    emitted received.process id' = datagrams := by
  have there : emitted sent.process id = datagrams.filterMap (conversion client.filter) := by
    rw [first.emitted, taken]
    apply nonempty_eq
    intro wire member
    rcases List.mem_filterMap.mp member with ⟨datagram, present, converted⟩
    rcases passes datagram present with ⟨whole, wire', forward, fits, _⟩
    rw [conversion, whole_take whole, forward, Option.some.injEq] at converted
    exact converted ▸ whole_ne_nil fits
  have back : ∀ datagram ∈ datagrams,
      (conversion client.filter datagram).bind (conversion server.filter) = some datagram := by
    intro datagram member
    rcases passes datagram member with ⟨whole, wire, forward, fits, backward⟩
    rw [conversion, whole_take whole, forward, Option.bind_some, conversion, whole_take fits,
      backward]
  have together : (datagrams.filterMap (conversion client.filter)).filterMap
      (conversion server.filter) = datagrams := by
    rw [List.filterMap_filterMap]
    calc
      datagrams.filterMap (fun datagram =>
          (conversion client.filter datagram).bind (conversion server.filter)) =
          datagrams.filterMap some := List.filterMap_congr back
      _ = datagrams := List.filterMap_some
  rw [second.emitted, wires, there, together]
  exact nonempty_eq fun datagram member => whole_ne_nil (passes datagram member).whole

def withFilter (filter : BaseFilter) : Setup := { firstSetup with filter }

/-- The tunnel keeps what goes in exactly as long as the layers of padding leave it in the receive
buffer. -/
theorem intact_iff {datagrams : List Bytes}
    (accepted : createFilters hash (aesConfigs psks) = .ok filters)
    (whole : ∀ datagram ∈ datagrams, Whole datagram) :
    Intact hash psks datagrams ↔ psks = [] ∨
      ∀ datagram ∈ datagrams, 16 * (datagram.length / 16 + psks.length) ≤ dgramBufferSize := by
  rcases ptrFilter_mirrored accepted with ⟨clientFilter, serverFilter⟩
  rcases layers_of_accepted accepted with ⟨keys, rfl, count⟩
  constructor
  · intro intact
    by_cases none : psks = []
    · exact Or.inl none
    · apply Or.inr
      intro datagram member
      rcases layers_length keys datagram with ⟨wire, forward, length⟩
      have some_keys : keys ≠ [] := by
        rintro rfl
        exact none (List.eq_nil_of_length_eq_zero count.symm)
      have bound := (intact (withFilter (chainedFilters (layers keys)))
        (withFilter (reversedFilter (chainedFilters (layers keys)))) clientFilter serverFilter).1
        datagram member wire forward
      rwa [length, if_neg some_keys, count] at bound
  · intro fits client server clientAccepted serverAccepted
    rw [clientFilter, Except.ok.injEq] at clientAccepted
    rw [serverFilter, Except.ok.injEq] at serverAccepted
    have wires : ∀ datagram ∈ datagrams, ∃ wire,
        (chainedFilters (layers keys)).convertForward datagram = some wire ∧ Whole wire := by
      intro datagram member
      apply layers_whole (whole datagram member)
      rcases fits with rfl | few
      · exact Or.inl (List.eq_nil_of_length_eq_zero count)
      · exact Or.inr (count ▸ few datagram member)
    rw [← clientAccepted]
    constructor
    · intro datagram member wire forward
      rcases wires datagram member with ⟨other, again, wholeWire⟩
      rw [forward, Option.some.injEq] at again
      exact again ▸ wholeWire.2
    · intro sent received id id' first second taken passed
      apply emitted_of_passes first second _ taken passed
      intro datagram member
      rcases wires datagram member with ⟨wire, forward, wholeWire⟩
      refine ⟨whole datagram member, wire, clientAccepted ▸ forward, wholeWire, ?_⟩
      rw [← serverAccepted]
      exact layers_undone keys forward

/-- The hash value the GNU library gives the psk of the repository's own test. -/
def testHash : Bytes → UInt64 := fun _ => 0x4d6686d362067ff9

def testPsk : Bytes := ascii "hello world"

def testFilter : AESFilter := ⟨pskToKey 16 testHash testPsk, pskToKey_length (by decide) _ _⟩

/-- What the test filter makes of two datagrams of one byte. -/
def wires : Bytes × Bytes :=
  (((testFilter.toBaseFilter .cbc).convertForward [1]).getD [],
    ((testFilter.toBaseFilter .cbc).convertForward [2]).getD [])

theorem test_accepted : createFilters testHash (aesConfigs [testPsk]) =
    .ok (layers [testFilter]) := by
  have single : createFilterFromConfig testHash (aesPrefix ++ testPsk) =
      .ok (testFilter.toBaseFilter .cbc) := createFilterFromConfig_aes testPsk rfl
  have split : aesConfigs [testPsk] = [aesPrefix ++ testPsk] := rfl
  rw [split, createFilters_cons, single]
  rfl

theorem intact_iff_test :
    Intact testHash [testPsk] [[1], List.replicate 20464 0] := by
  have long : (List.replicate 20464 (0 : UInt8)).length = 20464 := List.length_replicate
  apply (intact_iff test_accepted _).mpr (Or.inr _)
  · intro datagram member
    rcases List.mem_cons.mp member with rfl | last
    · decide
    · rw [List.mem_singleton.mp last, Whole, long]
      decide
  · intro datagram member
    rcases List.mem_cons.mp member with rfl | last
    · decide
    · rw [List.mem_singleton.mp last, long]
      decide

theorem drained_once (setup : Setup) {datagram result : Bytes}
    (converted : conversion setup.filter datagram = some result)
    (small : result.length ≤ SockIO.maxMsgLen) :
    ∃ state, Drained setup state ∧
      takenFrom state.process (clientId loopback (filled 0)) = [datagram] := by
  have pipe : setup.outboundPipe ∈ setup.startProcess.outboundSet := Finset.mem_singleton_self _
  rcases reachable_emitted loopback (filled 0) pipe converted small with ⟨process, sends, reached⟩
  refine ⟨quiet process, ⟨reached, rfl, ⟨by simp, rfl⟩⟩, ?_⟩
  have takes : takenOf (clientId loopback (filled 0)) (.taken loopback (filled 0) datagram) =
      some datagram := by rw [takenOf, if_pos rfl]
  calc
    takenFrom process (clientId loopback (filled 0)) =
        takenFrom (setup.startProcess.record (.taken loopback (filled 0) datagram))
          (clientId loopback (filled 0)) := takenFrom_emitted sends _
    _ = [datagram] := by
      rw [takenFrom_record, List.filterMap_cons_some takes]
      rfl

theorem drained_twice (client server : Setup) {datagram wire result : Bytes}
    (there : conversion client.filter datagram = some wire)
    (back : conversion server.filter wire = some result)
    (sizes : 0 < wire.length ∧ wire.length ≤ SockIO.maxMsgLen)
    (sizes' : 0 < result.length ∧ result.length ≤ SockIO.maxMsgLen) :
    ∃ sent received id, Drained client sent ∧ Drained server received ∧
      takenFrom sent.process id = [datagram] ∧
      takenFrom received.process id = emitted sent.process id ∧
      emitted received.process id = [result] := by
  rcases drained_once client there sizes.2 with ⟨sent, first, taken⟩
  rcases drained_once server back sizes'.2 with ⟨received, second, wires⟩
  have between : emitted sent.process (clientId loopback (filled 0)) = [wire] := by
    rw [first.emitted, taken, List.filterMap_cons_some there, List.filterMap_nil]
    exact nonempty_single sizes.1
  have final : emitted received.process (clientId loopback (filled 0)) = [result] := by
    rw [second.emitted, wires, List.filterMap_cons_some back, List.filterMap_nil]
    exact nonempty_single sizes'.1
  exact ⟨sent, received, _, first, second, taken, wires.trans between.symm, final⟩

/-- A datagram that fits does come out of the tunnel, in some run of both forwarders. -/
theorem carried {datagram : Bytes}
    (accepted : createFilters hash (aesConfigs psks) = .ok filters) (whole : Whole datagram)
    (fits : psks = [] ∨ 16 * (datagram.length / 16 + psks.length) ≤ dgramBufferSize) :
    ∃ client server sent received id,
      ptrFilter hash (aesConfigs psks) = .ok client.filter ∧
      ptrFilter hash (mirrored (aesConfigs psks)) = .ok server.filter ∧
      Drained client sent ∧ Drained server received ∧
      takenFrom sent.process id = [datagram] ∧
      takenFrom received.process id = emitted sent.process id ∧
      emitted received.process id = [datagram] := by
  rcases ptrFilter_mirrored accepted with ⟨clientFilter, serverFilter⟩
  rcases layers_of_accepted accepted with ⟨keys, rfl, count⟩
  have few : keys = [] ∨ 16 * (datagram.length / 16 + keys.length) ≤ dgramBufferSize := by
    rcases fits with rfl | few
    · exact Or.inl (List.eq_nil_of_length_eq_zero count)
    · exact Or.inr (count ▸ few)
  rcases layers_whole whole few with ⟨wire, forward, wholeWire⟩
  have there : conversion (withFilter (chainedFilters (layers keys))).filter datagram =
      some wire := by
    rw [conversion, whole_take whole]
    exact forward
  have back : conversion (withFilter (reversedFilter (chainedFilters (layers keys)))).filter wire =
      some datagram := by
    rw [conversion, whole_take wholeWire]
    exact layers_undone keys forward
  have small : ∀ {bytes : Bytes}, Whole bytes → bytes.length ≤ SockIO.maxMsgLen :=
    fun bounds => Nat.le_trans bounds.2 (by decide)
  rcases drained_twice _ _ there back ⟨wholeWire.1, small wholeWire⟩ ⟨whole.1, small whole⟩ with
    ⟨sent, received, id, run⟩
  exact ⟨_, _, sent, received, id, clientFilter, serverFilter, run⟩

/-- What comes out for a datagram of 20480 bytes that are all 1: its last byte is taken for the
padding. -/
theorem cut_in_tunnel :
    ∃ client server sent received id,
      ptrFilter testHash (aesConfigs [testPsk]) = .ok client.filter ∧
      ptrFilter testHash (mirrored (aesConfigs [testPsk])) = .ok server.filter ∧
      Drained client sent ∧ Drained server received ∧
      takenFrom sent.process id = [List.replicate 20480 1] ∧
      Whole (List.replicate 20480 1) ∧
      takenFrom received.process id = emitted sent.process id ∧
      emitted received.process id = [List.replicate 20479 1] ∧
      ¬ Intact testHash [testPsk] [List.replicate 20480 1] := by
  rcases ptrFilter_mirrored test_accepted with ⟨clientFilter, serverFilter⟩
  have single : chainedFilters (layers [testFilter]) = testFilter.toBaseFilter .cbc :=
    chainedFilters_single _
  rw [single] at clientFilter serverFilter
  have long : (List.replicate 20480 (1 : UInt8)).length = 20480 := List.length_replicate
  have whole : Whole (List.replicate 20480 1) := by
    rw [Whole, long]
    decide
  have ends : List.replicate 20480 (1 : UInt8) =
      List.replicate 20479 1 ++ List.replicate 1 (UInt8.ofNat 1) := List.replicate_succ'
  rcases testFilter.convertBackward_cut ends (n := 1279) long Nat.one_pos (by decide) with
    ⟨cipher, forward, backward⟩
  have size : cipher.length = 20496 := by
    rcases testFilter.convertBackward_convertForward .cbc (List.replicate 20480 1) with
      ⟨other, again, length, _⟩
    rw [forward, Option.some.injEq] at again
    rw [again, length, long]
    rfl
  have there : conversion (withFilter (testFilter.toBaseFilter .cbc)).filter
      (List.replicate 20480 1) = some cipher := by
    rw [conversion, whole_take whole]
    exact forward
  have back : conversion (withFilter (reversedFilter (testFilter.toBaseFilter .cbc))).filter
      cipher = some (List.replicate 20479 1) := by
    rw [long] at backward
    exact backward
  have sizes : 0 < cipher.length ∧ cipher.length ≤ SockIO.maxMsgLen := by
    rw [size]
    decide
  have sizes' : 0 < (List.replicate 20479 (1 : UInt8)).length ∧
      (List.replicate 20479 (1 : UInt8)).length ≤ SockIO.maxMsgLen := by
    rw [List.length_replicate]
    decide
  rcases drained_twice _ _ there back sizes sizes' with
    ⟨sent, received, id, first, second, taken, wires, result⟩
  refine ⟨_, _, sent, received, id, clientFilter, serverFilter, first, second, taken, whole,
    wires, result, ?_⟩
  intro intact
  have same := (intact _ _ clientFilter serverFilter).2 sent received id id first second taken
    wires
  rw [result, List.cons.injEq] at same
  have lengths := congrArg List.length same.1
  rw [long, List.length_replicate] at lengths
  exact absurd lengths (by decide)

end UdpForwarder.Tunnel
