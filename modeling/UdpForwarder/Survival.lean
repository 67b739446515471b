import UdpForwarder.Draining
import UdpForwarder.FilterConfig
import UdpForwarder.Rejection
import UdpForwarder.Tunnel

/-! What ends the process and what does not: while the calls of the operating system succeed and no
server sends an empty datagram, nothing that clients and servers send makes a thread throw. -/

namespace UdpForwarder.Survival

open ClientId ConnectionTable Deadlock Delivery Filters FilterConfig Forwarder Ipc Isolation
  Listener Pipeline Plain Plusaes Progress Refinement SockIO Transition Tunnel

/-- A filter that converts everything in both directions, to at most so many bytes more. -/
structure Bounded (growth : Nat) (filter : BaseFilter) : Prop where
  forward : ∀ datagram, ∃ result, filter.convertForward datagram = some result ∧
    result.length ≤ datagram.length + growth
  backward : ∀ datagram, ∃ result, filter.convertBackward datagram = some result ∧
    result.length ≤ datagram.length + growth

section Filters

variable {growth : Nat} {filter : BaseFilter} {filters : List BaseFilter}
  {hash : Bytes → UInt64}

theorem bounded_aes (filter : AESFilter) (mode : AESFilterMode) :
    Bounded 16 (filter.toBaseFilter mode) := by
  constructor
  · intro datagram
    rcases filter.convertBackward_convertForward mode datagram with ⟨cipher, forward, size, _⟩
    refine ⟨cipher, forward, ?_⟩
    have few : padding datagram.length ≤ 16 := Nat.sub_le _ _
    rw [size]
    exact Nat.add_le_add_left few _
  · intro datagram
    refine ⟨_, rfl, ?_⟩
    calc
      _ ≤ (filter.decrypt mode datagram).decrypted.length := List.length_take_le' _ _
      _ = datagram.length := Rejection.decrypted_length filter mode datagram
      _ ≤ datagram.length + 16 := Nat.le_add_right _ _

theorem Bounded.reversed (bounded : Bounded growth filter) :
    Bounded growth (reversedFilter filter) :=
  ⟨bounded.backward, bounded.forward⟩

theorem bounded_chained (all : ∀ filter ∈ filters, Bounded growth filter) :
    Bounded (growth * filters.length) (chainedFilters filters) := by
  constructor
  · intro datagram
    exact along_grows (fun filter member => (all filter member).forward) datagram
  · intro datagram
    have grown := along_grows (fun filter member =>
      (all filter (List.mem_reverse.mp member)).backward) datagram
    rw [List.length_reverse] at grown
    exact grown

/-- The configurations of `aes@` filters, each with so many `reverse@` before it. -/
def aesLayers (configs : List (Nat × Bytes)) : List Bytes :=
  configs.map fun layer => written layer.1 .aes layer.2

theorem bounded_of_written {depth : Nat} {password : Bytes}
    (created : createFilterFromConfig hash (written depth .aes password) = .ok filter) :
    Bounded 16 filter := by
  induction depth generalizing filter with
  | zero =>
      rcases aes_of_createFilterFromConfig created with ⟨aes, rfl⟩
      exact bounded_aes aes .cbc
  | succ depth ih =>
      rw [written_succ, createFilterFromConfig_reverse] at created
      cases inner : createFilterFromConfig hash (written depth .aes password) with
      | error exn =>
          rw [inner] at created
          cases created
      | ok real =>
          rw [inner] at created
          injection created with same
          rw [← same]
          exact (ih inner).reversed

theorem bounded_of_created {configs : List (Nat × Bytes)}
    (created : createFilters hash (aesLayers configs) = .ok filters) :
    filters.length = configs.length ∧ ∀ filter ∈ filters, Bounded 16 filter := by
  induction configs generalizing filters with
  | nil =>
      injection created with same
      subst same
      exact ⟨rfl, fun filter member => absurd member List.not_mem_nil⟩
  | cons layer configs ih =>
      have split : aesLayers (layer :: configs) =
          written layer.1 .aes layer.2 :: aesLayers configs := rfl
      rw [split, createFilters_cons] at created
      cases head : createFilterFromConfig hash (written layer.1 .aes layer.2) with
      | error exn =>
          rw [head] at created
          cases created
      | ok first =>
          cases tail : createFilters hash (aesLayers configs) with
          | error exn =>
              rw [head, tail] at created
              cases created
          | ok others =>
              rw [head, tail] at created
              injection created with same
              subst same
              rcases ih tail with ⟨count, bounded⟩
              refine ⟨by rw [List.length_cons, List.length_cons, count], ?_⟩
              intro filter member
              rcases List.mem_cons.mp member with rfl | later
              · exact bounded_of_written head
              · exact bounded filter later

/-- Any chain of such filters, on either end of a tunnel. -/
theorem bounded_of_accepted {configs : List (Nat × Bytes)}
    (accepted : ptrFilter hash (aesLayers configs) = .ok filter) :
    Bounded (16 * configs.length) filter := by
  cases created : createFilters hash (aesLayers configs) with
  | error exn =>
      rw [ptrFilter, created] at accepted
      cases accepted
  | ok filters =>
      rw [ptrFilter, created] at accepted
      injection accepted with same
      rcases bounded_of_created created with ⟨count, bounded⟩
      rw [← same, ← count]
      exact bounded_chained bounded

end Filters

/-- The calls of the step return what they are made for, and no server's datagram is empty. -/
def Healthy : State.Action → Prop
  | .inbound (.epollWait nfds) | .outbound (.epollWait nfds) => nfds ≠ none
  | .inbound (.event calls) | .inbound (.recv _ calls) =>
    calls.recvfrom ≠ none ∧ calls.sendto = true
  | .outbound (.event calls) | .outbound (.recv _ calls) => Succeed calls ∧ calls.recv ≠ some []
  | .inbound (.send _) | .outbound (.send _) | .inbound .interrupted | .outbound .interrupted =>
    True

/-- A part of a stream of messages that `recv_msg` takes is waited on or ends its first one. -/
theorem recvPair_accepted {messages : List Message} {got rest : Bytes}
    (accepted : ∀ message ∈ messages, Accepted message) (stream : got ++ rest = frames messages) :
    (∃ asked, recvPair got = .need asked) ∨
      ∃ message unread, recvPair got = .done message unread ∧ message ∈ messages := by
  cases messages with
  | nil =>
      rw [frames_nil, List.append_eq_nil_iff] at stream
      rw [stream.1]
      exact Or.inl ⟨sizeofPackedMsgHead, rfl⟩
  | cons first others =>
      have whole := recvPair_frames (accepted first List.mem_cons_self) others
      rw [← stream] at whole
      cases outcome : recvPair got with
      | need asked => exact Or.inl ⟨asked, rfl⟩
      | fail exn =>
          rw [lawful_recvPair.fail_append _ _ rest outcome] at whole
          cases whole
      | done message unread =>
          rw [lawful_recvPair.done_append _ _ _ rest outcome] at whole
          injection whole with same _
          exact Or.inr ⟨message, unread, rfl, same ▸ List.mem_cons_self⟩

section Thread

variable {Calls : Type} {listener : Listener Calls} {view view' : View} {fault : Option Exn}

theorem fault_of_returned {later : List Fd} {incoming : Bytes} {messages : List Message}
    {process' : Process} {result : EStateM.Result Exn Process (List Message)}
    (returned : result = .ok messages process')
    (outcome : (view', fault) = handled view later incoming result) : fault = none := by
  rw [returned] at outcome
  exact (Prod.mk.inj outcome).2

theorem event_survives {calls : Calls}
    (returns : ∀ activeFd ∈ view.thread.events, activeFd ≠ listener.pipe → ∃ messages process',
      (listener.onMessage calls activeFd).run view.process = .ok messages process')
    (taken : listener.step view (.event calls) = some (view', fault)) : fault = none := by
  rcases step_event taken with ⟨activeFd, later, atEvent, pipe | ⟨other, _, outcome⟩⟩
  · exact pipe.2.2
  · rcases returns activeFd (by rw [atEvent]; exact List.mem_cons_self) other with
      ⟨messages, process', returned⟩
    exact fault_of_returned returned outcome

theorem recv_survives {count : Nat} {calls : Calls} {messages : List Message} {behind : Bytes}
    (accepted : ∀ message ∈ messages, Accepted message)
    (stream : view.thread.pc.got ++ view.incoming ++ behind = frames messages)
    (returns : ∀ message ∈ messages, ∃ process',
      (listener.onPipeMessage calls message).run view.process = .ok () process')
    (taken : listener.step view (.recv count calls) = some (view', fault)) : fault = none := by
  rcases step_recv taken with ⟨later, got, asked, atRecv, _, _, _, _, _, outcome⟩
  have parts : (got ++ view.incoming.take count) ++ (view.incoming.drop count ++ behind) =
      frames messages := by
    rw [← stream, atRecv]
    simp only [Pc.got, List.append_assoc]
    rw [← List.append_assoc (view.incoming.take count), List.take_append_drop]
  have next := recvPair_accepted accepted parts
  rcases outcome with ⟨_, _, none, _⟩ | ⟨exn, fails, _, _⟩ | ⟨message, unread, finished, done⟩
  · exact none
  · rcases next with ⟨more, needs⟩ | ⟨message, unread, finished, _⟩
    · cases needs.symm.trans fails
    · cases finished.symm.trans fails
  · rcases next with ⟨more, needs⟩ | ⟨other, unread', finished', member⟩
    · cases needs.symm.trans finished
    · obtain ⟨rfl, _⟩ := Reader.Demand.done.inj (finished.symm.trans finished')
      rcases returns message member with ⟨process', returned⟩
      have silently : (silent (listener.onPipeMessage calls message)).run view.process =
          .ok [] process' := by
        rw [silent_run, returned]
      exact fault_of_returned silently done

theorem wait_survives {nfds : Option (List Fd)} (reported : nfds ≠ none)
    (taken : listener.step view (.epollWait nfds) = some (view', fault)) : fault = none := by
  rcases step_epollWait taken with ⟨_, ⟨failed, _⟩ | ⟨events, _, _, _, none⟩⟩
  · exact absurd failed reported
  · exact none

theorem send_survives {count : Nat}
    (taken : listener.step view (.send count) = some (view', fault)) : fault = none := by
  rcases step_send taken with ⟨_, _, _, _, _, _, _, none, _⟩
  exact none

end Thread

variable {setup : Setup} {state state' : State} {relay : Relay} {growth : Nat}

section Messages

variable (bounded : Bounded growth setup.filter) (few : dgramBufferSize + growth ≤ maxMsgLen)

include bounded few

theorem converts_forward (datagram : Bytes) : ∃ result,
    setup.filter.convertForward (datagram.take dgramBufferSize) = some result ∧
      result.length ≤ maxMsgLen := by
  rcases bounded.forward (datagram.take dgramBufferSize) with ⟨result, converted, size⟩
  have cut := List.length_take_le dgramBufferSize datagram
  exact ⟨result, converted, by omega⟩

theorem converts_backward (datagram : Bytes) : ∃ result,
    setup.filter.convertBackward (datagram.take dgramBufferSize) = some result ∧
      result.length ≤ maxMsgLen := by
  rcases bounded.backward (datagram.take dgramBufferSize) with ⟨result, converted, size⟩
  have cut := List.length_take_le dgramBufferSize datagram
  exact ⟨result, converted, by omega⟩

theorem accepted_forward (sound : Sound setup relay) (running : relay.fault = none) :
    ∀ message ∈ relay.forward, Accepted message := by
  intro message member
  rcases (sound.forward running message member).1 with ⟨source, leftover, datagram, _, id, made⟩
  rcases converts_forward bounded few datagram with ⟨result, converted, small⟩
  rw [made, Option.some.injEq] at converted
  refine ⟨?_, converted ▸ small⟩
  rw [id, clientId_length]
  decide

theorem accepted_backward (sound : Sound setup relay) (running : relay.fault = none) :
    ∀ message ∈ relay.backward, Accepted message := by
  intro message member
  rcases (sound.backward running message member).1 with ⟨connFd, datagram, _, opened, made⟩
  rcases known_of_opened sound.explained opened with ⟨source, leftover, _, _, id⟩
  rcases converts_backward bounded few datagram with ⟨result, converted, small⟩
  rw [made, Option.some.injEq] at converted
  refine ⟨?_, converted ▸ small⟩
  rw [id, clientId_length]
  decide

theorem client_returns {calls : InboundCalls} (received : calls.recvfrom ≠ none)
    (process : Process) : ∃ messages process',
      (setup.inbound.onMessage calls setup.listenFd).run process = .ok messages process' := by
  rcases Option.ne_none_iff_exists'.mp received with ⟨⟨source, datagram⟩, got⟩
  rcases converts_forward bounded few datagram with ⟨result, converted, small⟩
  have bound : result.length ≤ stringMaxSize := Nat.le_trans small (by decide)
  refine ⟨[⟨clientId source calls.leftover, result⟩],
    process.record (.taken source calls.leftover datagram), ?_⟩
  rw [inbound_onMessage_run, PlainInbound.onClientMessage_run]
  simp only [got, converted, if_pos bound]

theorem server_returns {calls : OutboundCalls} {process : Process} {activeFd : Fd}
    {senderId : Bytes} (succeed : Succeed calls) (some_bytes : calls.recv ≠ some [])
    (known : process.connectionMap.server2client activeFd = some senderId) :
    ∃ messages process',
      (setup.outbound.onMessage calls activeFd).run process = .ok messages process' := by
  rcases succeed.received with ⟨datagram, received⟩
  have content : datagram ≠ [] := by
    rintro rfl
    exact some_bytes received
  rcases converts_backward bounded few datagram with ⟨result, converted, small⟩
  have bound : result.length ≤ stringMaxSize := Nat.le_trans small (by decide)
  refine ⟨[⟨senderId, result⟩], process.record (.received activeFd datagram), ?_⟩
  rw [outbound_onMessage_run, PlainOutbound.onServerMessage_data received content known]
  simp only [converted, if_pos bound]

theorem inbound_survives {action : Listener.Action InboundCalls} {view' : View}
    {fault : Option Exn} (sound : Sound setup relay) (refines : Refines setup state relay)
    (running : state.fault = none) (healthy : Healthy (.inbound action))
    (taken : setup.inbound.step state.inboundView action = some (view', fault)) :
    fault = none := by
  have running' : relay.fault = none := refines.fault ▸ running
  cases action with
  | epollWait nfds => exact wait_survives healthy taken
  | event calls =>
      apply event_survives _ taken
      intro activeFd member other
      rw [inbound_listens (refines.inboundEvents running activeFd member) other]
      exact client_returns bounded few healthy.1 _
  | recv count calls =>
      apply recv_survives (accepted_backward bounded few sound running')
        (refines.toInbound running) _ taken
      intro message member
      rcases delivered_justified sound.explained (sound.backward running' message member).1 with
        ⟨clientAddr, parsed, _⟩
      refine ⟨state.process.record (.delivered clientAddr.destination message.binaryMessage), ?_⟩
      have returned : (PlainInbound.onPipeMessage calls message).run state.process = _ :=
        PlainInbound.onPipeMessage_parsed parsed
      rw [healthy.2, if_pos rfl] at returned
      exact returned
  | send count => exact send_survives taken
  | interrupted => exact (step_interrupted taken).2

theorem outbound_survives {action : Listener.Action OutboundCalls} {view' : View}
    {fault : Option Exn} (sound : Sound setup relay) (tied : Tied setup relay.process)
    (refines : Refines setup state relay) (running : state.fault = none)
    (healthy : Healthy (.outbound action))
    (taken : setup.outbound.step state.outboundView action = some (view', fault)) :
    fault = none := by
  have running' : relay.fault = none := refines.fault ▸ running
  cases action with
  | epollWait nfds => exact wait_survives healthy taken
  | event calls =>
      apply event_survives _ taken
      intro activeFd member other
      have registered := refines.outboundEvents running activeFd member
      rw [← refines.process] at tied
      rcases (tied.registered activeFd).mpr ⟨registered, other⟩ with ⟨senderId, known⟩
      exact server_returns bounded few healthy.1 healthy.2 known
  | recv count calls =>
      apply recv_survives (accepted_forward bounded few sound running')
        (refines.toOutbound running) _ taken
      intro message _
      exact pipe_returns healthy.1 _ message
  | send count => exact send_survives taken
  | interrupted => exact (step_interrupted taken).2

theorem step_survives {action : State.Action}
    (reached : Reachable (State.step setup) (State.start setup) state)
    (healthy : Healthy action) (taken : State.step setup state action = some state') :
    state'.fault = none := by
  rcases refines_reachable reached with ⟨relay, abstract, refines⟩
  have sound := sound_reachable abstract
  cases action with
  | inbound action =>
      rcases step_inbound taken with ⟨running, view', fault, stepped, rfl⟩
      exact inbound_survives bounded few sound refines running healthy stepped
  | outbound action =>
      rcases step_outbound taken with ⟨running, view', fault, stepped, rfl⟩
      have tied := Relay.tied_reachable abstract (refines.fault ▸ running)
      exact outbound_survives bounded few sound tied refines running healthy stepped

theorem run_survives {actions : List State.Action} (healthy : ∀ action ∈ actions, Healthy action)
    (ran : run (State.step setup) (State.start setup) actions = some state) :
    state.fault = none := by
  have kept : Reachable (State.step setup) (State.start setup) state ∧ state.fault = none := by
    apply (throughout_of_all healthy).invariant ran ⟨Reachable.refl, rfl⟩
    rintro before action after - ⟨reached, _⟩ good taken
    exact ⟨reached.next action taken, step_survives bounded few reached good taken⟩
  exact kept.2

end Messages

variable {hash : Bytes → UInt64} {configs : List (Nat × Bytes)} {actions : List State.Action}

/-- With `aes@` filters on either end of a tunnel, no run in which the calls of the operating
system succeed and no server sends an empty datagram ends in an exception: nothing else that
clients and servers send, and no order of the steps, stops the forwarder. -/
theorem never_faults (accepted : ptrFilter hash (aesLayers configs) = .ok setup.filter)
    (few : dgramBufferSize + 16 * configs.length ≤ maxMsgLen)
    (healthy : ∀ action ∈ actions, Healthy action)
    (ran : run (State.step setup) (State.start setup) actions = some state) :
    state.fault = none :=
  run_survives (bounded_of_accepted accepted) few healthy ran

def testSetup : Setup := withFilter (chainedFilters (layers [testFilter]))

def oneDatagram : List State.Action :=
  [.inbound (.epollWait (some [5])), .inbound (.event (fromLoopback 0))]

theorem oneDatagram_healthy : ∀ action ∈ oneDatagram, Healthy action := by
  intro action member
  rcases List.mem_pair.mp member with rfl | rfl
  · exact Option.some_ne_none _
  · exact ⟨Option.some_ne_none _, rfl⟩

private theorem one_datagram_run :
    (run (State.step testSetup) (State.start testSetup) oneDatagram).map
      (fun state => state.process.trace) = some [.taken loopback (filled 0) [1]] := by
  decide +kernel

theorem test_layers : ptrFilter testHash (aesLayers [(0, testPsk)]) =
    .ok testSetup.filter :=
  (ptrFilter_mirrored test_accepted).1

theorem never_faults_one : ∃ state,
    run (State.step testSetup) (State.start testSetup) oneDatagram = some state ∧
    state.process.trace = [.taken loopback (filled 0) [1]] ∧ state.fault = none := by
  rcases Option.map_eq_some_iff.mp one_datagram_run with ⟨state, ran, trace⟩
  exact ⟨state, ran, trace, never_faults test_layers (by decide) oneDatagram_healthy ran⟩

theorem room_throughout
    (fitting : Throughout (State.step setup) (Fitting setup) (State.start setup) actions)
    (ran : run (State.step setup) (State.start setup) actions = some state)
    (running : state.fault = none) : InboundRoomy setup state ∨ OutboundRoomy setup state := by
  have room : state.fault = none → InboundRoomy setup state ∨ OutboundRoomy setup state := by
    apply fitting.invariant ran
    · exact fun _ => Or.inl (Nat.zero_le _)
    · intro before action after earlier room fits taken still
      have alive := State.running_of_step taken
      exact roomy_step (settled_reachable earlier alive) (room alive) fits taken still
  exact room running

/-- And if the datagrams fit in the pipe as well, the forwarder comes to rest when nothing new
comes, and then everything it took has left it. -/
theorem delivers_everything (accepted : ptrFilter hash (aesLayers configs) = .ok setup.filter)
    (few : dgramBufferSize + 16 * configs.length ≤ maxMsgLen)
    (healthy : ∀ action ∈ actions, Healthy action)
    (fitting : Throughout (State.step setup) (Fitting setup) (State.start setup) actions)
    (ran : run (State.step setup) (State.start setup) actions = some state) :
    Settles (Draining.step setup) state ∧
      (AtRest (Draining.step setup) state → Draining.Drained setup state) := by
  refine ⟨Draining.settles setup state, fun rest => ?_⟩
  have running := run_survives (bounded_of_accepted accepted) few healthy ran
  have reached := reachable_of_run actions ran
  rcases Draining.deadlocked_or_drained reached rest running with dead | drained
  · have cornered := dead.cornered (settled_reachable reached running)
    rcases room_throughout fitting ran running with inbound | outbound
    · exact absurd inbound cornered.inbound
    · exact absurd outbound cornered.outbound
  · exact drained

/-- A byte from a client, and an answer that is one byte behind the filter. -/
def oneExchange : List State.Action :=
  let calls := fromLoopback 0
  let opening := succeeding 8 wires.2
  let answering := succeeding 9 wires.2
  [.epollWait (some [5]), .event calls, .send 12, .send 136, .send 12, .send 16].map .inbound ++
  [.epollWait (some [4]), .event opening, .recv 12 opening, .recv 136 opening, .recv 12 opening,
    .recv 16 opening].map .outbound ++
  [.epollWait (some [8]), .event answering, .send 12, .send 136, .send 12,
    .send 1].map .outbound ++
  [.epollWait (some [3]), .event calls, .recv 12 calls, .recv 136 calls, .recv 12 calls,
    .recv 1 calls].map .inbound

theorem oneExchange_healthy : ∀ action ∈ oneExchange, Healthy action := by
  have wire : wires.2 ≠ [] := by decide +kernel
  have succeeds (connFd : Fd) : Succeed (succeeding connFd wires.2) ∧
      (succeeding connFd wires.2).recv ≠ some [] :=
    ⟨⟨⟨connFd, rfl⟩, rfl, rfl, ⟨_, rfl⟩, rfl⟩, fun same => wire (Option.some.inj same)⟩
  simp [oneExchange, Healthy, succeeds, fromLoopback]

private theorem one_exchange_run :
    (run (State.step testSetup) (State.start testSetup) oneExchange).map (fun state =>
      (state.process.trace, state.inbound, state.outbound, state.toOutbound,
        state.toInbound)) =
    some ([.taken loopback (filled 0) [1], .opened (clientId loopback (filled 0)) 8,
      .sent 8 wires.1, .received 8 wires.2, .delivered loopback.bytes [2]],
      idle, idle, [], []) := by
  decide +kernel

theorem delivers_everything_one : ∃ state,
    run (State.step testSetup) (State.start testSetup) oneExchange = some state ∧
    state.process.trace = [.taken loopback (filled 0) [1],
      .opened (clientId loopback (filled 0)) 8, .sent 8 wires.1, .received 8 wires.2,
      .delivered loopback.bytes [2]] ∧
    Draining.Drained testSetup state := by
  rcases Option.map_eq_some_iff.mp one_exchange_run with ⟨state, ran, seen⟩
  simp only [Prod.mk.injEq] at seen
  rcases seen with ⟨trace, inbound, outbound, toOutbound, toInbound⟩
  have roomy : Throughout (State.step testSetup)
      (fun state _ => InboundRoomy testSetup state ∧ OutboundRoomy testSetup state)
      (State.start testSetup) oneExchange := by
    decide +kernel
  have fitting : Throughout (State.step testSetup) (Fitting testSetup) (State.start testSetup)
      oneExchange := roomy.mono fun _ action room => fitting_of_roomy room.1 room.2 action
  have rest : AtRest (Draining.step testSetup) state :=
    Draining.atRest_of_idle inbound outbound toOutbound toInbound
  exact ⟨state, ran, trace,
    (delivers_everything test_layers (by decide) oneExchange_healthy fitting ran).2 rest⟩

end UdpForwarder.Survival
