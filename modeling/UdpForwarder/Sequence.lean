import UdpForwarder.Forwarding
import UdpForwarder.Lib.Fifo

/-! The whole traffic in its order. All clients share the two directions of the pipe, and both
are queues. -/

namespace UdpForwarder.Sequence

open ClientId ConnectionTable Delivery Fifo Filters Forwarding Ipc Isolation Plain Progress
  Refinement Relay Transition

def takenPart : Event → Option (SourceAddr × Leftover × Bytes)
  | .taken source leftover datagram => some (source, leftover, datagram)
  | _ => none

def sentPart : Event → Option (Fd × Bytes)
  | .sent connFd datagram => some (connFd, datagram)
  | _ => none

def receivedPart : Event → Option (Fd × Bytes)
  | .received connFd datagram => some (connFd, datagram)
  | _ => none

def deliveredPart : Event → Option (Bytes × Bytes)
  | .delivered address datagram => some (address, datagram)
  | _ => none

def allTaken (trace : List Event) : List (SourceAddr × Leftover × Bytes) :=
  trace.filterMap takenPart

def allSent (trace : List Event) : List (Fd × Bytes) := trace.filterMap sentPart

def allReceived (trace : List Event) : List (Fd × Bytes) := trace.filterMap receivedPart

def allDelivered (trace : List Event) : List (Bytes × Bytes) := trace.filterMap deliveredPart

def Becomes (filter : BaseFilter) (input : SourceAddr × Leftover × Bytes) (message : Message) :
    Prop :=
  message.senderId = clientId input.1 input.2.1 ∧
    conversion filter input.2.2 = some message.binaryMessage

def SentFor (trace : List Event) (message : Message) (output : Fd × Bytes) : Prop :=
  .opened message.senderId output.1 ∈ trace ∧ output.2 = message.binaryMessage

def Answers (filter : BaseFilter) (trace : List Event) (input : Fd × Bytes) (message : Message) :
    Prop :=
  .opened message.senderId input.1 ∈ trace ∧
    filter.convertBackward (input.2.take dgramBufferSize) = some message.binaryMessage

def ReturnedTo (message : Message) (output : Bytes × Bytes) : Prop :=
  ∃ clientAddr, parseClientId message.senderId = .ok clientAddr ∧
    output = (clientAddr.destination, message.binaryMessage)

/-- A message that leaves the forwarder: nothing is sent for an empty one. -/
def leaves (message : Message) : Bool := decide (message.binaryMessage ≠ [])

def Forward (filter : BaseFilter) (trace : List Event) (forward : List Message) : Prop :=
  Carried (Becomes filter) (SentFor trace) leaves (allTaken trace) forward (allSent trace)

def Backward (filter : BaseFilter) (trace : List Event) (backward : List Message) : Prop :=
  Carried (Answers filter trace) ReturnedTo (fun _ => true) (allReceived trace) backward
    (allDelivered trace)

section Steps

variable {filter : BaseFilter} {trace later : List Event} {message : Message}
  {forward backward rest : List Message} {connFd : Fd}

theorem forward_append (carried : Forward filter trace forward)
    (untaken : later.filterMap takenPart = []) (unsent : later.filterMap sentPart = []) :
    Forward filter (trace ++ later) forward := by
  have sameTaken : allTaken (trace ++ later) = allTaken trace := by
    rw [allTaken, List.filterMap_append, untaken, List.append_nil, allTaken]
  have sameSent : allSent (trace ++ later) = allSent trace := by
    rw [allSent, List.filterMap_append, unsent, List.append_nil, allSent]
  rw [Forward, sameTaken, sameSent]
  exact carried.mono (fun _ _ becomes => becomes)
    fun _ _ sent => ⟨List.mem_append_left _ sent.1, sent.2⟩

theorem backward_append (carried : Backward filter trace backward)
    (unreceived : later.filterMap receivedPart = [])
    (undelivered : later.filterMap deliveredPart = []) :
    Backward filter (trace ++ later) backward := by
  have sameReceived : allReceived (trace ++ later) = allReceived trace := by
    rw [allReceived, List.filterMap_append, unreceived, List.append_nil, allReceived]
  have sameDelivered : allDelivered (trace ++ later) = allDelivered trace := by
    rw [allDelivered, List.filterMap_append, undelivered, List.append_nil, allDelivered]
  rw [Backward, sameReceived, sameDelivered]
  exact carried.mono (fun _ _ answers => ⟨List.mem_append_left _ answers.1, answers.2⟩)
    fun _ _ returned => returned

theorem forward_take (carried : Forward filter trace forward) {source : SourceAddr}
    {leftover : Leftover} {datagram : Bytes}
    (becomes : Becomes filter (source, leftover, datagram) message) :
    Forward filter (trace ++ [.taken source leftover datagram]) (forward ++ [message]) := by
  have more : allTaken (trace ++ [.taken source leftover datagram]) =
      allTaken trace ++ [(source, leftover, datagram)] := List.filterMap_append
  have sameSent : allSent (trace ++ [.taken source leftover datagram]) = allSent trace := by
    rw [allSent, List.filterMap_append]
    exact List.append_nil _
  rw [Forward, more, sameSent]
  exact (carried.push becomes).mono (fun _ _ becomes => becomes)
    fun _ _ sent => ⟨List.mem_append_left _ sent.1, sent.2⟩

theorem forward_emit (carried : Forward filter trace (message :: rest))
    (opened : .opened message.senderId connFd ∈ trace) :
    Forward filter (trace ++ if message.binaryMessage = [] then []
      else [.sent connFd message.binaryMessage]) rest := by
  split
  · rename_i nothing
    rw [List.append_nil]
    exact carried.popHidden (decide_eq_false (not_not_intro nothing))
  · rename_i some_bytes
    have sent : SentFor trace message (connFd, message.binaryMessage) := ⟨opened, rfl⟩
    have popped := carried.pop (decide_eq_true some_bytes) sent
    have sameTaken : allTaken (trace ++ [.sent connFd message.binaryMessage]) =
        allTaken trace := by
      rw [allTaken, List.filterMap_append]
      exact List.append_nil _
    have more : allSent (trace ++ [.sent connFd message.binaryMessage]) =
        allSent trace ++ [(connFd, message.binaryMessage)] := List.filterMap_append
    rw [Forward, sameTaken, more]
    exact popped.mono (fun _ _ becomes => becomes)
      fun _ _ sent => ⟨List.mem_append_left _ sent.1, sent.2⟩

theorem backward_receive (carried : Backward filter trace backward) {datagram : Bytes}
    (answers : Answers filter trace (connFd, datagram) message) :
    Backward filter (trace ++ [.received connFd datagram]) (backward ++ [message]) := by
  have more : allReceived (trace ++ [.received connFd datagram]) =
      allReceived trace ++ [(connFd, datagram)] := List.filterMap_append
  have sameDelivered : allDelivered (trace ++ [.received connFd datagram]) =
      allDelivered trace := by
    rw [allDelivered, List.filterMap_append]
    exact List.append_nil _
  rw [Backward, more, sameDelivered]
  exact (carried.push answers).mono
    (fun _ _ answers => ⟨List.mem_append_left _ answers.1, answers.2⟩)
    fun _ _ returned => returned

theorem backward_deliver (carried : Backward filter trace (message :: rest))
    {clientAddr : SockAddr} (parsed : parseClientId message.senderId = .ok clientAddr) :
    Backward filter (trace ++ [.delivered clientAddr.destination message.binaryMessage])
      rest := by
  have popped := carried.pop rfl ⟨clientAddr, parsed, rfl⟩
  have sameReceived : allReceived
      (trace ++ [.delivered clientAddr.destination message.binaryMessage]) =
        allReceived trace := by
    rw [allReceived, List.filterMap_append]
    exact List.append_nil _
  have more : allDelivered
      (trace ++ [.delivered clientAddr.destination message.binaryMessage]) =
        allDelivered trace ++ [(clientAddr.destination, message.binaryMessage)] :=
    List.filterMap_append
  rw [Backward, sameReceived, more]
  exact popped.mono (fun _ _ answers => ⟨List.mem_append_left _ answers.1, answers.2⟩)
    fun _ _ returned => returned

end Steps

structure Sequenced (setup : Setup) (relay : Relay) : Prop where
  forward : Forward setup.filter relay.process.trace relay.forward
  backward : Backward setup.filter relay.process.trace relay.backward

variable {setup : Setup} {relay relay' : Relay}

theorem sequenced_start (setup : Setup) : Sequenced setup (Relay.start setup) :=
  ⟨carried_nil, carried_nil⟩

/-- Every move of the relay is one at one end of one of the queues, or at none. -/
theorem Sequenced.move (running : relay.fault = none) (tied : Tied setup relay.process)
    (sound : Sound setup relay) (sequenced : Sequenced setup relay)
    (move : Move setup relay relay') : relay'.fault = none → Sequenced setup relay' := by
  intro running'
  have recorded := sound.recorded running
  cases move with
  | take taken =>
      rcases taken with ⟨source, leftover, datagram, result, converted, _⟩
      exact ⟨forward_take sequenced.forward ⟨rfl, converted⟩,
        backward_append sequenced.backward rfl rfl⟩
  | deliver queue delivered =>
      rcases delivered with ⟨parsed⟩
      have backward := sequenced.backward
      rw [queue] at backward
      exact ⟨forward_append sequenced.forward rfl rfl, backward_deliver backward parsed⟩
  | receive received =>
      rcases received with ⟨datagram, result, _, known, converted, _⟩
      have opened := opened_of_server tied recorded known
      exact ⟨forward_append sequenced.forward rfl rfl,
        backward_receive sequenced.backward ⟨opened, converted⟩⟩
  | @emit message rest process' queue emitted =>
      have forward := sequenced.forward
      rw [queue] at forward
      cases emitted with
      | @known connFd entry =>
          refine ⟨?_, ?_⟩
          · rw [Process.emit_trace]
            exact forward_emit forward ((recorded _ _).mpr entry)
          · rw [Process.emit_trace]
            apply backward_append sequenced.backward <;> split <;> rfl
      | @new connFd absent fresh =>
          have connected : Forward setup.filter
              (relay.process.connect message.senderId connFd).trace (message :: rest) :=
            forward_append forward rfl rfl
          have backward : Backward setup.filter
              (relay.process.connect message.senderId connFd).trace relay.backward :=
            backward_append sequenced.backward rfl rfl
          refine ⟨?_, ?_⟩
          · rw [Process.emit_trace]
            exact forward_emit connected (List.mem_append_right _ (List.mem_singleton_self _))
          · rw [Process.emit_trace]
            apply backward_append backward <;> split <;> rfl
  | notTaken | notDelivered | notReceived | notEmitted | broken => cases running'

theorem sequenced_reachable
    (reached : Reachable (Relay.step setup) (Relay.start setup) relay)
    (running : relay.fault = none) : Sequenced setup relay := by
  have both : Sound setup relay ∧ (relay.fault = none → Sequenced setup relay) := by
    apply reachable_invariant reached
    · exact ⟨sound_start setup, fun _ => sequenced_start setup⟩
    · intro before after running tied inv move
      exact ⟨inv.1.move running tied move, (inv.2 running).move running tied inv.1 move⟩
  exact both.2 running

def InTransitBack (state : State) (messages : List Message) : Prop :=
  (∀ message ∈ messages, Fits message) ∧
    state.inbound.pc.got ++ state.toInbound ++ state.outbound.pc.unsent = frames messages

variable {state : State}

theorem inTransitBack_unique {first second : List Message} (one : InTransitBack state first)
    (two : InTransitBack state second) : first = second :=
  frames_injective one.1 two.1 (one.2.symm.trans two.2)

theorem sequenced (reached : Reachable (State.step setup) (State.start setup) state)
    (running : state.fault = none) :
    (∃ messages, InTransit state messages ∧
      Forward setup.filter state.process.trace messages) ∧
    ∃ messages, InTransitBack state messages ∧
      Backward setup.filter state.process.trace messages := by
  rcases refines_reachable reached with ⟨relay, abstract, refines⟩
  have running' : relay.fault = none := refines.fault ▸ running
  have sound := sound_reachable abstract
  have queues := sequenced_reachable abstract running'
  rw [refines.process]
  exact ⟨⟨relay.forward, ⟨fits_forward sound running', refines.toOutbound running⟩,
      queues.forward⟩,
    ⟨relay.backward, ⟨fits_backward sound running', refines.toInbound running⟩,
      queues.backward⟩⟩

/-- The datagrams of the servers are answered in the order they came in, each to the client of
its connection: the first ones have been delivered, and those after them are on their way. -/
theorem answers_in_order (reached : Reachable (State.step setup) (State.start setup) state)
    (running : state.fault = none) : ∃ messages, InTransitBack state messages ∧
      (∀ other, InTransitBack state other → other = messages) ∧
      (allReceived state.process.trace).length =
        (allDelivered state.process.trace).length + messages.length ∧
      ∀ index connFd datagram,
        (allReceived state.process.trace)[index]? = some (connFd, datagram) →
        ∃ source leftover answer,
          .opened (clientId source leftover) connFd ∈ state.process.trace ∧
          OpenedFor state.process.trace connFd source.bytes ∧
          setup.filter.convertBackward (datagram.take dgramBufferSize) = some answer ∧
          ((allDelivered state.process.trace)[index]? = some (source.bytes, answer) ∨
            ∃ place, index = (allDelivered state.process.trace).length + place ∧
              messages[place]? = some ⟨clientId source leftover, answer⟩) := by
  rcases (sequenced reached running).2 with ⟨messages, pending, carried⟩
  rcases account reached with ⟨explained, _⟩
  refine ⟨messages, pending, fun other also => inTransitBack_unique also pending,
    carried.length_eq, ?_⟩
  intro index connFd datagram present
  rcases carried.position present with ⟨message, ⟨opened, converted⟩, place⟩
  rcases known_of_opened explained opened with ⟨source, leftover, _, _, same⟩
  rw [same] at opened
  refine ⟨source, leftover, message.binaryMessage, opened, openedFor_of_opened explained opened,
    converted, ?_⟩
  rcases place with ⟨output, delivered, clientAddr, parsed, rfl⟩ | ⟨place, position, waits⟩
  · rw [same, clientId, parseClientId_makeClientId, Except.ok.injEq] at parsed
    rw [delivered, ← parsed, destination_recvfromAddr]
    exact Or.inl rfl
  · refine Or.inr ⟨place, position, ?_⟩
    rw [waits]
    exact congrArg some (Message.ext same rfl)

/-- The server of a client answers twice, and the second answer is still being written. -/
def twoAnswers : List State.Action :=
  takes 0 ++ handles (succeeding 8 []) ++ answers ++ delivers ++
    [.epollWait (some [8]), .event (succeeding 9 [3]), .send 12].map .outbound

private theorem two_answers_run : (run (State.step firstSetup) (State.start firstSetup)
    twoAnswers).map (fun state => (state.fault, state.process.trace)) =
      some (none, answeredTrace ++ [.received 8 [3]]) := by
  decide +kernel

theorem answers_in_order_two : ∃ state messages,
    Reachable (State.step firstSetup) (State.start firstSetup) state ∧
      allReceived state.process.trace = [(8, [2]), (8, [3])] ∧
      allDelivered state.process.trace = [(loopback.bytes, [2])] ∧
      InTransitBack state messages ∧ messages.length = 1 := by
  rcases reachable_of_observed _ _ two_answers_run with ⟨state, reached, seen⟩
  rcases Prod.mk.inj seen with ⟨running, trace⟩
  rcases answers_in_order reached running with ⟨messages, pending, _, count, _⟩
  rw [trace] at count
  refine ⟨state, messages, reached, by rw [trace]; rfl, by rw [trace]; rfl, pending, ?_⟩
  exact (Nat.add_left_cancel count).symm

def messageOf (filter : BaseFilter) (input : SourceAddr × Leftover × Bytes) : Option Message :=
  (conversion filter input.2.2).map fun result => ⟨clientId input.1 input.2.1, result⟩

theorem becomes_iff {filter : BaseFilter} {input : SourceAddr × Leftover × Bytes}
    {message : Message} : Becomes filter input message ↔ messageOf filter input = some message := by
  rw [Becomes, messageOf, Option.map_eq_some_iff]
  constructor
  · rintro ⟨sender, converted⟩
    exact ⟨message.binaryMessage, converted, by rw [← sender]⟩
  · rintro ⟨result, converted, rfl⟩
    exact ⟨rfl, converted⟩

/-- The datagrams of all clients go out in the one order they came in, each on the connection of
its client and but for the empty ones, and what is missing is on its way. -/
theorem datagrams_in_order (reached : Reachable (State.step setup) (State.start setup) state)
    (running : state.fault = none) : ∃ gone messages, InTransit state messages ∧
      (∀ other, InTransit state other → other = messages) ∧
      (allTaken state.process.trace).map (messageOf setup.filter) = (gone ++ messages).map some ∧
      List.Forall₂ (SentFor state.process.trace) (gone.filter leaves)
        (allSent state.process.trace) := by
  rcases (sequenced reached running).1 with ⟨messages, pending, gone, front, back⟩
  refine ⟨gone, messages, pending, fun other also => inTransit_unique also pending, ?_, back⟩
  rw [← List.forall₂_eq_eq_eq, List.forall₂_map_left_iff, List.forall₂_map_right_iff]
  exact front.imp fun _ _ becomes => becomes_iff.mp becomes

private theorem two_clients_run : (run (State.step firstSetup) (State.start firstSetup)
    (takes 0 ++ handles (succeeding 8 []) ++ takes 255)).map
      (fun state => (state.fault, state.process.trace)) =
    some (none, [.taken loopback (filled 0) [1], .opened (clientId loopback (filled 0)) 8,
      .sent 8 [1], .taken loopback (filled 255) [1]]) := by
  decide +kernel

theorem datagrams_in_order_two : ∃ state gone messages,
    Reachable (State.step firstSetup) (State.start firstSetup) state ∧
      InTransit state messages ∧ allSent state.process.trace = [(8, [1])] ∧
      gone ++ messages = [⟨clientId loopback (filled 0), [1]⟩,
        ⟨clientId loopback (filled 255), [1]⟩] := by
  rcases reachable_of_observed _ _ two_clients_run with ⟨state, reached, seen⟩
  rcases Prod.mk.inj seen with ⟨running, trace⟩
  rcases datagrams_in_order reached running with ⟨gone, messages, pending, _, order, _⟩
  refine ⟨state, gone, messages, reached, pending, by rw [trace]; rfl, ?_⟩
  apply (Option.some_injective Message).list_map
  rw [← order, trace]
  rfl

end UdpForwarder.Sequence
