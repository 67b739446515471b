import UdpForwarder.Delivery
import UdpForwarder.Progress

/-! From the clients to the server: what the forwarder emits for a client is what it took from
it, in order, and what is missing is on its way. -/

namespace UdpForwarder.Forwarding

open ClientId ConnectionTable Delivery Filters History Ipc Isolation Plain Progress Refinement Relay
  Transition

def sentOn (connFd : Fd) : Event → Option Bytes
  | .sent fd datagram => if fd = connFd then some datagram else none
  | _ => none

def takenOf (id : Bytes) : Event → Option Bytes
  | .taken source leftover datagram => if clientId source leftover = id then some datagram else none
  | _ => none

def carriedFor (id : Bytes) (message : Message) : Option Bytes :=
  if message.senderId = id then some message.binaryMessage else none

def emitted (process : Process) (id : Bytes) : List Bytes :=
  match process.connectionMap.client2server id with
  | some connFd => process.trace.filterMap (sentOn connFd)
  | none => []

def takenFrom (process : Process) (id : Bytes) : List Bytes := process.trace.filterMap (takenOf id)

def waiting (messages : List Message) (id : Bytes) : List Bytes :=
  messages.filterMap (carriedFor id)

/-- The conversion of what `recvfrom` keeps of a datagram. -/
def conversion (filter : BaseFilter) (datagram : Bytes) : Option Bytes :=
  filter.convertForward (datagram.take dgramBufferSize)

def nonempty (datagrams : List Bytes) : List Bytes := datagrams.filter (· ≠ [])

/-- The order of the datagrams of one client. -/
structure InOrder (filter : BaseFilter) (process : Process) (forward : List Message) (id : Bytes) :
    Prop where
  converted : ∀ datagram ∈ takenFrom process id, (conversion filter datagram).isSome
  order : nonempty (emitted process id ++ waiting forward id) =
    nonempty ((takenFrom process id).filterMap (conversion filter))

variable {setup : Setup} {filter : BaseFilter} {process process' : Process} {message : Message}
  {forward : List Message} {id : Bytes} {connFd : Fd}

theorem nonempty_append (front back : List Bytes) :
    nonempty (front ++ back) = nonempty front ++ nonempty back := List.filter_append ..

theorem waiting_append (front back : List Message) (id : Bytes) :
    waiting (front ++ back) id = waiting front id ++ waiting back id := List.filterMap_append

theorem takenFrom_record (process : Process) (event : Event) (id : Bytes) :
    takenFrom (process.record event) id = takenFrom process id ++ [event].filterMap (takenOf id) :=
  List.filterMap_append

theorem emitted_record (process : Process) {event : Event}
    (unsent : ∀ connFd, sentOn connFd event = none) (id : Bytes) :
    emitted (process.record event) id = emitted process id := by
  simp only [emitted, Process.record_connectionMap, Process.record_trace, List.filterMap_append]
  split
  · rw [List.filterMap_cons_none (unsent _)]
    exact List.append_nil _
  · rfl

theorem InOrder.record (inOrder : InOrder filter process forward id) {event : Event}
    (untaken : takenOf id event = none) (unsent : ∀ connFd, sentOn connFd event = none) :
    InOrder filter (process.record event) forward id := by
  have sameTaken : takenFrom (process.record event) id = takenFrom process id := by
    rw [takenFrom_record, List.filterMap_cons_none untaken]
    exact List.append_nil _
  have sameEmitted := emitted_record process unsent id
  constructor
  · rw [sameTaken]
    exact inOrder.converted
  · rw [sameTaken, sameEmitted]
    exact inOrder.order

theorem InOrder.take (inOrder : InOrder filter process forward id)
    (taken : Taken filter process message process') :
    InOrder filter process' (forward ++ [message]) id := by
  rcases taken with ⟨source, leftover, datagram, result, converted, _⟩
  have sameEmitted : emitted (process.record (.taken source leftover datagram)) id =
      emitted process id := emitted_record process (fun _ => rfl) id
  have kept : conversion filter datagram = some result := converted
  have order := inOrder.order
  by_cases same : clientId source leftover = id
  · have takes : takenOf id (.taken source leftover datagram) = some datagram := if_pos same
    have more : takenFrom (process.record (.taken source leftover datagram)) id =
        takenFrom process id ++ [datagram] := by
      rw [takenFrom_record, List.filterMap_cons_some takes]
      rfl
    have last : waiting [⟨clientId source leftover, result⟩] id = [result] := by
      simp [waiting, carriedFor, same]
    constructor
    · intro other member
      rw [more] at member
      rcases List.mem_append.mp member with earlier | final
      · exact inOrder.converted other earlier
      · rw [List.mem_singleton.mp final, kept]
        rfl
    · rw [sameEmitted, more, waiting_append, last, ← List.append_assoc, nonempty_append, order,
        List.filterMap_append, nonempty_append, List.filterMap_cons_some kept]
      rfl
  · have noMore : takenFrom (process.record (.taken source leftover datagram)) id =
        takenFrom process id := by
      rw [takenFrom_record, List.filterMap_cons_none (by rw [takenOf, if_neg same])]
      exact List.append_nil _
    have other : waiting [⟨clientId source leftover, result⟩] id = [] := by
      simp [waiting, carriedFor, same]
    constructor
    · rw [noMore]
      exact inOrder.converted
    · rw [sameEmitted, noMore, waiting_append, other, List.append_nil]
      exact order

theorem never_sent (explained : Explained (Justified filter) process.trace)
    (never : ∀ other, .opened other connFd ∉ process.trace) (datagram : Bytes) :
    .sent connFd datagram ∉ process.trace := by
  intro sent
  rcases List.append_of_mem sent with ⟨before, after, split⟩
  rcases explained before _ after split with ⟨_, other, opened, _⟩
  apply never other
  rw [split]
  exact List.mem_append_left _ opened

theorem sentOn_eq_some {event : Event} {datagram : Bytes}
    (sends : sentOn connFd event = some datagram) : event = .sent connFd datagram := by
  cases event with
  | sent fd content =>
      simp only [sentOn, Option.ite_none_right_eq_some, Option.some.injEq] at sends
      rw [sends.1, sends.2]
  | taken | opened | received | delivered => cases sends

theorem emitted_connect {newId : Bytes} (absent : process.connectionMap.client2server newId = none)
    (never : ∀ datagram, .sent connFd datagram ∉ process.trace) (id : Bytes) :
    emitted (process.connect newId connFd) id = emitted process id := by
  have opening : ∀ fd, [Event.opened newId connFd].filterMap (sentOn fd) = [] := fun _ => rfl
  by_cases same : id = newId
  · subst same
    have entry : (process.connect id connFd).connectionMap.client2server id = some connFd :=
      PartialMap.assign_self _ _ _
    have nothing : process.trace.filterMap (sentOn connFd) = [] := by
      apply List.filterMap_eq_nil_iff.mpr
      intro event member
      cases sends : sentOn connFd event with
      | none => rfl
      | some datagram =>
          rw [sentOn_eq_some sends] at member
          exact absurd member (never datagram)
    rw [emitted, emitted, entry, absent]
    simp only [Process.connect_trace, List.filterMap_append, opening, nothing, List.append_nil]
  · have entry : (process.connect newId connFd).connectionMap.client2server id =
        process.connectionMap.client2server id := PartialMap.assign_other _ _ same
    rw [emitted, emitted, entry]
    simp only [Process.connect_trace, List.filterMap_append, opening, List.append_nil]

theorem emitted_emit (inverse : process.connectionMap.MutuallyInverse)
    (entry : process.connectionMap.client2server message.senderId = some connFd) (id : Bytes) :
    nonempty (emitted (process.emit connFd message.binaryMessage) id) =
      nonempty (emitted process id ++ waiting [message] id) := by
  have sends : (process.emit connFd message.binaryMessage).trace.filterMap (sentOn connFd) =
      process.trace.filterMap (sentOn connFd) ++ nonempty [message.binaryMessage] := by
    rw [Process.emit_trace, List.filterMap_append]
    by_cases nothing : message.binaryMessage = []
    · simp [nonempty, nothing]
    · simp [nonempty, nothing, sentOn]
  by_cases same : message.senderId = id
  · subst same
    have last : waiting [message] message.senderId = [message.binaryMessage] := by
      simp [waiting, carriedFor]
    simp only [emitted, Process.emit_connectionMap, entry, sends, last, nonempty_append]
    simp [nonempty]
  · have other : waiting [message] id = [] := by simp [waiting, carriedFor, same]
    rw [other, List.append_nil]
    simp only [emitted, Process.emit_connectionMap]
    split
    · rename_i fd present
      have different : connFd ≠ fd := by
        rintro rfl
        exact same (inverse.injective entry present)
      rw [Process.emit_trace, List.filterMap_append]
      split
      · rw [List.filterMap_nil, List.append_nil]
      · rw [List.filterMap_cons_none (by rw [sentOn, if_neg different]), List.filterMap_nil,
          List.append_nil]
    · rfl

theorem takenFrom_emit (process : Process) (connFd : Fd) (datagram id : Bytes) :
    takenFrom (process.emit connFd datagram) id = takenFrom process id := by
  rw [takenFrom, Process.emit_trace, List.filterMap_append]
  split <;> exact List.append_nil _

theorem takenFrom_connect (process : Process) (newId : Bytes) (connFd : Fd) (id : Bytes) :
    takenFrom (process.connect newId connFd) id = takenFrom process id := by
  rw [takenFrom, Process.connect_trace, List.filterMap_append]
  exact List.append_nil _

theorem takenFrom_emitted (sends : Emitted process message process') (id : Bytes) :
    takenFrom process' id = takenFrom process id := by
  cases sends with
  | known entry => exact takenFrom_emit ..
  | new absent fresh => rw [takenFrom_emit, takenFrom_connect]

theorem emitted_emitted (tied : Tied setup process)
    (explained : Explained (Justified filter) process.trace) (recorded : Recorded process)
    (sends : Emitted process message process') (id : Bytes) :
    nonempty (emitted process' id) = nonempty (emitted process id ++ waiting [message] id) := by
  cases sends with
  | known entry => exact emitted_emit tied.inverse entry id
  | @new connFd absent fresh =>
      have entry : (process.connect message.senderId connFd).connectionMap.client2server
          message.senderId = some connFd := PartialMap.assign_self _ _ _
      have never := never_sent explained (never_opened tied recorded fresh)
      rw [emitted_emit (tied.connect absent fresh).inverse entry, nonempty_append,
        emitted_connect absent never, ← nonempty_append]

theorem InOrder.emit {rest : List Message} (tied : Tied setup process)
    (explained : Explained (Justified filter) process.trace) (recorded : Recorded process)
    (inOrder : InOrder filter process (message :: rest) id)
    (sends : Emitted process message process') : InOrder filter process' rest id := by
  have sameTaken := takenFrom_emitted sends id
  have more := emitted_emitted tied explained recorded sends id
  constructor
  · rw [sameTaken]
    exact inOrder.converted
  · rw [sameTaken, ← inOrder.order]
    calc
      nonempty (emitted process' id ++ waiting rest id) =
          nonempty (emitted process id ++ waiting [message] id) ++ nonempty (waiting rest id) := by
        rw [nonempty_append, more]
      _ = nonempty (emitted process id ++ waiting ([message] ++ rest) id) := by
        rw [waiting_append, ← nonempty_append, List.append_assoc]

/-- Every move of the relay keeps the order of every client. -/
theorem inOrder_move {relay relay' : Relay} (running : relay.fault = none)
    (tied : Tied setup relay.process) (sound : Sound setup relay)
    (inOrder : InOrder setup.filter relay.process relay.forward id)
    (move : Move setup relay relay') :
    relay'.fault = none → InOrder setup.filter relay'.process relay'.forward id := by
  intro running'
  cases move with
  | take taken => exact inOrder.take taken
  | deliver queue delivered =>
      cases delivered
      exact inOrder.record rfl fun _ => rfl
  | receive received =>
      cases received
      exact inOrder.record rfl fun _ => rfl
  | emit queue emitted =>
      rw [queue] at inOrder
      exact inOrder.emit tied sound.explained (sound.recorded running) emitted
  | notTaken | notDelivered | notReceived | notEmitted | broken => cases running'

theorem inOrder_reachable {relay : Relay}
    (reached : Reachable (Relay.step setup) (Relay.start setup) relay)
    (running : relay.fault = none) (id : Bytes) :
    InOrder setup.filter relay.process relay.forward id := by
  have both : Sound setup relay ∧
      (relay.fault = none → InOrder setup.filter relay.process relay.forward id) := by
    apply reachable_invariant reached
    · refine ⟨sound_start setup, fun _ => ⟨?_, rfl⟩⟩
      intro datagram member
      cases member
    · intro before after running tied inv move
      exact ⟨inv.1.move running tied move, inOrder_move running tied inv.1 (inv.2 running) move⟩
  exact both.2 running

/-- The messages on their way to the outbound thread, from the first byte that is not written to
the last one that is not handled. -/
def InTransit (state : State) (messages : List Message) : Prop :=
  (∀ message ∈ messages, Fits message) ∧
    state.outbound.pc.got ++ state.toOutbound ++ state.inbound.pc.unsent = frames messages

variable {state : State}

theorem inTransit_unique {first second : List Message} (one : InTransit state first)
    (two : InTransit state second) : first = second :=
  frames_injective one.1 two.1 (one.2.symm.trans two.2)

theorem accounted (reached : Reachable (State.step setup) (State.start setup) state)
    (running : state.fault = none) :
    ∃ messages, InTransit state messages ∧
      ∀ id, InOrder setup.filter state.process messages id := by
  rcases refines_reachable reached with ⟨relay, abstract, refines⟩
  have running' : relay.fault = none := refines.fault ▸ running
  refine ⟨relay.forward, ⟨?_, refines.toOutbound running⟩, ?_⟩
  · exact fits_forward (sound_reachable abstract) running'
  · intro id
    rw [refines.process]
    exact inOrder_reachable abstract running' id

/-- What was emitted for a client, followed by what is on its way, is what was taken from it. -/
theorem forwarded_in_order (reached : Reachable (State.step setup) (State.start setup) state)
    (running : state.fault = none) : ∃ messages, InTransit state messages ∧
      (∀ other, InTransit state other → other = messages) ∧
      ∀ id, InOrder setup.filter state.process messages id := by
  rcases accounted reached running with ⟨messages, pending, inOrder⟩
  exact ⟨messages, pending, fun other also => inTransit_unique also pending, inOrder⟩

theorem writing_transit (process : Process) (message : Message) (fits : Fits message) :
    InTransit (writing process idle (forwardMessage message)) [message] := by
  constructor
  · intro other member
    rw [List.mem_singleton.mp member]
    exact fits
  · have unsent : (writing process idle (forwardMessage message)).inbound.pc.unsent =
        frames [message] := by
      rw [frames_singleton]
      exact Listener.Pc.send_unsent _
    rw [unsent]
    rfl

def firstTaken (datagram : Bytes) : Process :=
  firstSetup.startProcess.record (.taken loopback (filled 0) datagram)

def firstMessage (datagram : Bytes) : Message :=
  ⟨clientId loopback (filled 0), datagram.take dgramBufferSize⟩

theorem takenFrom_firstTaken (datagram : Bytes) :
    takenFrom (firstTaken datagram) (clientId loopback (filled 0)) = [datagram] := by
  have nothing : takenFrom firstSetup.startProcess (clientId loopback (filled 0)) = [] := rfl
  have takes : takenOf (clientId loopback (filled 0)) (.taken loopback (filled 0) datagram) =
      some datagram := by rw [takenOf, if_pos rfl]
  rw [firstTaken, takenFrom_record, nothing, List.filterMap_cons_some takes]
  rfl

theorem reachable_firstTaken (datagram : Bytes) :
    Reachable (State.step firstSetup) (State.start firstSetup)
      (writing (firstTaken datagram) idle (forwardMessage (firstMessage datagram))) := by
  apply reachable_writing
  · rfl
  · exact Nat.le_trans (List.length_take_le _ _) (by decide)

/-- Of two datagrams of one client the first is sent on, and the second is on its way. -/
def secondPending : List State.Action :=
  takes 0 ++ handles (succeeding 8 []) ++
    [.epollWait (some [5]), .event ⟨some (loopback, [2]), filled 0, true⟩, .send 12].map .inbound

private theorem second_pending_run :
    (run (State.step firstSetup) (State.start firstSetup) secondPending).map (fun state =>
      (state.fault, state.process.trace,
        state.process.connectionMap.client2server (clientId loopback (filled 0)))) =
    some (none, [.taken loopback (filled 0) [1], .opened (clientId loopback (filled 0)) 8,
      .sent 8 [1], .taken loopback (filled 0) [2]], some 8) := by
  decide +kernel

theorem forwarded_in_order_pending : ∃ state messages,
    Reachable (State.step firstSetup) (State.start firstSetup) state ∧ InTransit state messages ∧
      takenFrom state.process (clientId loopback (filled 0)) = [[1], [2]] ∧
      emitted state.process (clientId loopback (filled 0)) = [[1]] ∧
      nonempty (waiting messages (clientId loopback (filled 0))) = [[2]] := by
  rcases reachable_of_observed _ _ second_pending_run with ⟨state, reached, seen⟩
  simp only [Prod.mk.injEq] at seen
  rcases seen with ⟨running, trace, entry⟩
  have taken : takenFrom state.process (clientId loopback (filled 0)) = [[1], [2]] := by
    rw [takenFrom, trace]
    decide
  have sent : emitted state.process (clientId loopback (filled 0)) = [[1]] := by
    rw [emitted, entry, trace]
    decide
  rcases forwarded_in_order reached running with ⟨messages, pending, _, inOrder⟩
  have order := (inOrder (clientId loopback (filled 0))).order
  rw [nonempty_append, sent, taken] at order
  exact ⟨state, messages, reached, pending, taken, sent, (List.cons.inj order).2⟩

def Exact (setup : Setup) (state : State) : Prop :=
  ∀ messages id, InTransit state messages →
    emitted state.process id ++ waiting messages id =
      (takenFrom state.process id).filterMap setup.filter.convertForward

/-- A datagram longer than the receive buffer is on its way without its end. -/
theorem shortened {datagram : Bytes} (long : dgramBufferSize < datagram.length) :
    ¬ Exact firstSetup
      (writing (firstTaken datagram) idle (forwardMessage (firstMessage datagram))) := by
  intro exact
  have kept : (datagram.take dgramBufferSize).length = dgramBufferSize :=
    List.length_take_of_le (Nat.le_of_lt long)
  have fits : Fits (firstMessage datagram) := by
    constructor
    · rw [firstMessage, clientId_length]
      decide
    · rw [firstMessage, kept]
      decide
  have same := exact [firstMessage datagram] (clientId loopback (filled 0))
    (writing_transit _ _ fits)
  have sent : emitted (firstTaken datagram) (clientId loopback (filled 0)) = [] := rfl
  have pending : waiting [firstMessage datagram] (clientId loopback (filled 0)) =
      [datagram.take dgramBufferSize] := by
    simp [waiting, carriedFor, firstMessage]
  have whole : firstSetup.filter.convertForward datagram = some datagram := rfl
  simp only [writing, sent, pending, takenFrom_firstTaken, List.nil_append,
    List.filterMap_cons_some whole, List.filterMap_nil, List.cons.injEq, and_true] at same
  rw [← same, kept] at long
  exact Nat.lt_irrefl _ long

def emptyRun : List State.Action :=
  [.epollWait (some [5]), .event ⟨some (loopback, []), filled 0, true⟩, .send 12, .send 136,
    .send 12].map .inbound ++
  [.epollWait (some [4]), .event (succeeding 8 []), .recv 12 (succeeding 8 []),
    .recv 136 (succeeding 8 []), .recv 12 (succeeding 8 [])].map .outbound

private theorem empty_run : (run (State.step firstSetup) (State.start firstSetup) emptyRun).map
    (fun state => (state.fault, state.process.trace,
      state.process.connectionMap.client2server (clientId loopback (filled 0)),
      state.outbound.pc.got ++ state.toOutbound ++ state.inbound.pc.unsent)) =
    some (none, [.taken loopback (filled 0) [], .opened (clientId loopback (filled 0)) 8], some 8,
      []) := by
  decide +kernel

theorem dropped : ∃ state, Reachable (State.step firstSetup) (State.start firstSetup) state ∧
    state.fault = none ∧ takenFrom state.process (clientId loopback (filled 0)) = [[]] ∧
    ¬ Exact firstSetup state := by
  rcases reachable_of_observed _ _ empty_run with ⟨state, reached, seen⟩
  simp only [Prod.mk.injEq] at seen
  rcases seen with ⟨running, trace, entry, stream⟩
  have taken : takenFrom state.process (clientId loopback (filled 0)) = [[]] := by
    rw [takenFrom, trace]
    decide
  have sent : emitted state.process (clientId loopback (filled 0)) = [] := by
    rw [emitted, entry, trace]
    decide
  refine ⟨state, reached, running, taken, ?_⟩
  intro exact
  have same := exact [] (clientId loopback (filled 0)) ⟨by simp, stream⟩
  rw [taken, sent] at same
  cases same

theorem shortened_and_dropped :
    (∃ state, Reachable (State.step firstSetup) (State.start firstSetup) state ∧
      state.fault = none ∧
      takenFrom state.process (clientId loopback (filled 0)) = [List.replicate 20481 0] ∧
      ¬ Exact firstSetup state) ∧
    ∃ state, Reachable (State.step firstSetup) (State.start firstSetup) state ∧
      state.fault = none ∧ takenFrom state.process (clientId loopback (filled 0)) = [[]] ∧
      ¬ Exact firstSetup state := by
  have long : dgramBufferSize < (List.replicate 20481 (0 : UInt8)).length := by
    rw [List.length_replicate]
    decide
  exact ⟨⟨_, reachable_firstTaken _, rfl, takenFrom_firstTaken _, shortened long⟩, dropped⟩

end UdpForwarder.Forwarding
