import UdpForwarder.Delivery
import UdpForwarder.Progress

/-! Two blocking `sendn` on the two ends of one pipe: which datagrams bring both threads to a
stop, and that nothing else does. -/

namespace UdpForwarder.Deadlock

open ClientId Delivery Ipc Listener Plain Progress SockIO Transition
open ConnectionTable (firstSetup succeeding)

section Room

variable {Calls : Type} (listener : Listener Calls)

/-- What a thread has left to write fits in the room there is. -/
def Roomy (view : View) : Prop :=
  view.outgoing.length + view.thread.pc.unsent.length ≤ listener.capacity

structure Regular (view : View) : Prop where
  bounded : view.outgoing.length ≤ listener.capacity
  sends : view.thread.pc.unsent ≠ [] → ∃ buffers, view.thread.pc = .send buffers

inductive Effect (view : View) : Listener.Action Calls → View → Prop where
  | reads {action : Listener.Action Calls} {view' : View} (before : view.thread.pc.unsent = [])
      (after : view'.thread.pc.unsent = []) (outgoing : view'.outgoing = view.outgoing)
      (incoming : view'.incoming.length ≤ view.incoming.length) : Effect view action view'
  | begins {calls : Calls} {activeFd : Fd} {later : List Fd} {messages : List Message}
      {process' : Process} (atEvent : view.thread = ⟨activeFd :: later, .loop⟩)
      (other : activeFd ≠ listener.pipe)
      (ran : (listener.onMessage calls activeFd).run view.process = .ok messages process') :
      Effect view (.event calls) ⟨process', ⟨later, .send (messages.flatMap forwardMessage)⟩,
        view.incoming, view.outgoing⟩
  | writes {count : Nat} {buffers : List Bytes} {view' : View}
      (atSend : view'.thread.pc = .send buffers)
      (stream : view'.outgoing ++ view'.thread.pc.unsent =
        view.outgoing ++ view.thread.pc.unsent)
      (room : view'.outgoing.length ≤ listener.capacity)
      (incoming : view'.incoming = view.incoming) : Effect view (.send count) view'
  | stays : Effect view .interrupted view

variable {listener} {view view' : View} {action : Listener.Action Calls}

theorem effect_of_handled {handler : Handler Unit} {later : List Fd} {incoming : Bytes}
    (outcome : (view', none) = handled view later incoming ((silent handler).run view.process)) :
    view'.thread.pc.unsent = [] ∧ view'.outgoing = view.outgoing ∧ view'.incoming = incoming := by
  rw [silent_run] at outcome
  cases ran : handler.run view.process with
  | ok value process' =>
      rw [ran] at outcome
      rcases Prod.mk.inj outcome with ⟨rfl, _⟩
      exact ⟨rfl, rfl, rfl⟩
  | error exn process' =>
      rw [ran] at outcome
      cases (Prod.mk.inj outcome).2

theorem step_effect (taken : listener.step view action = some (view', none)) :
    Effect listener view action view' := by
  cases action with
  | epollWait nfds =>
      rcases step_epollWait taken with ⟨idle, failed | ⟨events, _, _, rfl, _⟩⟩
      · cases failed.2.2
      · exact .reads (by rw [idle]; rfl) rfl rfl (Nat.le_refl _)
  | event calls =>
      rcases step_event taken with ⟨activeFd, later, atEvent, pipe | ⟨other, _, outcome⟩⟩
      · rcases pipe with ⟨_, rfl, _⟩
        exact .reads (by rw [atEvent]; rfl) rfl rfl (Nat.le_refl _)
      · cases ran : (listener.onMessage calls activeFd).run view.process with
        | ok messages process' =>
            rw [ran] at outcome
            rcases Prod.mk.inj outcome with ⟨rfl, _⟩
            exact .begins atEvent other ran
        | error exn process' =>
            rw [ran] at outcome
            cases (Prod.mk.inj outcome).2
  | recv count calls =>
      rcases step_recv taken with ⟨later, got, asked, atRecv, _, _, _, _, _, outcome⟩
      have before : view.thread.pc.unsent = [] := by
        rw [atRecv]
        rfl
      have fewer : (view.incoming.drop count).length ≤ view.incoming.length := by
        rw [List.length_drop]
        exact Nat.sub_le _ _
      rcases outcome with ⟨more, _, _, rfl⟩ | ⟨exn, _, failed, _⟩ | ⟨message, unread, _, outcome⟩
      · exact .reads before rfl rfl fewer
      · cases failed
      · rcases effect_of_handled outcome with ⟨after, outgoing, incoming⟩
        exact .reads before after outgoing (incoming ▸ fewer)
  | send count =>
      rcases step_send taken with ⟨later, buf, buffers, atSend, _, few, room, _, rfl⟩
      refine .writes rfl ?_ ?_ rfl
      · have before : view.thread.pc.unsent = buf ++ buffers.flatten := by
          rw [atSend]
          rfl
        calc
          (view.outgoing ++ buf.take count) ++ (Pc.send (buf.drop count :: buffers)).unsent =
              view.outgoing ++ ((buf.take count ++ buf.drop count) ++ buffers.flatten) := by
            rw [Pc.send_unsent, List.flatten_cons]
            simp only [List.append_assoc]
          _ = view.outgoing ++ view.thread.pc.unsent := by rw [List.take_append_drop, before]
      · rw [List.length_append, List.length_take_of_le few]
        exact room
  | interrupted =>
      rcases step_interrupted taken with ⟨rfl, _⟩
      exact .stays

theorem Effect.incoming_le (effect : Effect listener view action view') :
    view'.incoming.length ≤ view.incoming.length := by
  cases effect with
  | reads _ _ _ incoming => exact incoming
  | begins | stays => exact Nat.le_refl _
  | writes _ _ _ incoming => exact Nat.le_of_eq (congrArg List.length incoming)

theorem Regular.step (regular : Regular listener view)
    (effect : Effect listener view action view') : Regular listener view' := by
  cases effect with
  | reads _ after outgoing _ =>
      refine ⟨?_, fun unsent => absurd after unsent⟩
      rw [outgoing]
      exact regular.bounded
  | begins => exact ⟨regular.bounded, fun _ => ⟨_, rfl⟩⟩
  | writes atSend _ room _ => exact ⟨room, fun _ => ⟨_, atSend⟩⟩
  | stays => exact regular

theorem Effect.roomy (effect : Effect listener view action view') :
    (∃ calls activeFd later messages process', action = .event calls ∧
      view.thread = ⟨activeFd :: later, .loop⟩ ∧ activeFd ≠ listener.pipe ∧
      (listener.onMessage calls activeFd).run view.process = .ok messages process' ∧
      view' = ⟨process', ⟨later, .send (messages.flatMap forwardMessage)⟩, view.incoming,
        view.outgoing⟩) ∨
      (Roomy listener view ↔ Roomy listener view') := by
  cases effect with
  | reads before after outgoing _ =>
      apply Or.inr
      simp only [Roomy, before, after, outgoing]
  | begins atEvent other ran => exact Or.inl ⟨_, _, _, _, _, rfl, atEvent, other, ran, rfl⟩
  | writes _ stream _ _ =>
      have sizes := congrArg List.length stream
      simp only [List.length_append] at sizes
      apply Or.inr
      simp only [Roomy, sizes]
  | stays => exact Or.inr Iff.rfl

theorem Regular.unsent (regular : Regular listener view) (tight : ¬ Roomy listener view) :
    view.thread.pc.unsent ≠ [] := by
  intro nothing
  apply tight
  rw [Roomy, nothing]
  exact regular.bounded

theorem Regular.fills (regular : Regular listener view) (tight : ¬ Roomy listener view) :
    ∃ view', Reachable (advance listener) view view' ∧ listener.Blocked view' ∧
      view'.incoming = view.incoming := by
  rcases regular.sends (regular.unsent tight) with ⟨buffers, atSend⟩
  have size : view.thread.pc.unsent = buffers.flatten := by
    rw [atSend]
    exact Pc.send_unsent buffers
  have bounded := regular.bounded
  rw [Roomy, size, Nat.not_le] at tight
  have room : view.outgoing.length + (listener.capacity - view.outgoing.length) ≤
      listener.capacity := Nat.le_of_eq (Nat.add_sub_of_le bounded)
  have sending : view.thread = ⟨view.thread.events, .send buffers⟩ := by rw [← atSend]
  rcases advance_send (listener.capacity - view.outgoing.length) sending (by omega) room with
    ⟨later, rest, reached⟩
  refine ⟨_, reached, ⟨?_, ?_⟩, rfl⟩
  · intro nothing
    have none : later.flatten = [] := by
      rw [← nothing]
      exact (Pc.send_unsent later).symm
    rw [rest, List.drop_eq_nil_iff] at none
    omega
  · rw [List.length_append, List.length_take_of_le (by omega)]
    omega

theorem step_sending {fault : Option Exn} (sending : view.thread.pc.unsent ≠ [])
    (taken : listener.step view action = some (view', fault)) :
    fault = none ∧ view'.incoming = view.incoming ∧
      (Roomy listener view ↔ Roomy listener view') := by
  cases action with
  | epollWait nfds =>
      rw [(step_epollWait taken).1] at sending
      exact absurd rfl sending
  | event calls =>
      rcases step_event taken with ⟨activeFd, later, atEvent, _⟩
      rw [atEvent] at sending
      exact absurd rfl sending
  | recv count calls =>
      rcases step_recv taken with ⟨later, got, asked, atRecv, _⟩
      rw [atRecv] at sending
      exact absurd rfl sending
  | send count =>
      rcases step_send taken with ⟨_, _, _, _, _, _, _, rfl, same⟩
      rcases (step_effect taken).roomy with ⟨_, _, _, _, _, impossible, _⟩ | kept
      · cases impossible
      · exact ⟨rfl, by rw [same], kept⟩
  | interrupted =>
      rcases step_interrupted taken with ⟨rfl, rfl⟩
      exact ⟨rfl, rfl, Iff.rfl⟩

theorem step_begins {calls : Calls} {activeFd : Fd} {later : List Fd}
    (atEvent : view.thread = ⟨activeFd :: later, .loop⟩) (other : activeFd ≠ listener.pipe)
    (taken : listener.step view (.event calls) = some (view', none)) :
    ∃ messages process', (listener.onMessage calls activeFd).run view.process =
        .ok messages process' ∧
      view' = ⟨process', ⟨later, .send (messages.flatMap forwardMessage)⟩, view.incoming,
        view.outgoing⟩ := by
  rcases step_event taken with ⟨fd, others, again, outcome⟩
  rw [atEvent] at again
  injection again with sameEvents _
  injection sameEvents with sameFd sameLater
  subst sameFd sameLater
  rcases outcome with ⟨pipe, _⟩ | ⟨_, _, outcome⟩
  · exact absurd pipe other
  · cases ran : (listener.onMessage calls activeFd).run view.process with
    | ok messages process' =>
        rw [ran] at outcome
        exact ⟨messages, process', rfl, (Prod.mk.inj outcome).1⟩
    | error exn process' =>
        rw [ran] at outcome
        cases (Prod.mk.inj outcome).2

theorem begun_size (process : Process) (events : List Fd) (message : Message)
    (incoming outgoing : Bytes) :
    Roomy listener ⟨process, ⟨events, .send ([message].flatMap forwardMessage)⟩, incoming,
      outgoing⟩ ↔ outgoing.length + (frames [message]).length ≤ listener.capacity := by
  rw [Roomy, Pc.send_unsent, frames]

end Room

variable {setup : Setup} {state state' : State}

def InboundRoomy (setup : Setup) (state : State) : Prop := Roomy setup.inbound state.inboundView

def OutboundRoomy (setup : Setup) (state : State) : Prop := Roomy setup.outbound state.outboundView

/-- The message a thread goes on to forward, if the step is the one that takes its datagram. -/
def Begins (setup : Setup) (state : State) (message : Message) : State.Action → Prop
  | .inbound (.event calls) => ∃ later source datagram,
      state.inbound = ⟨setup.listenFd :: later, .loop⟩ ∧
      calls.recvfrom = some (source, datagram) ∧
      message.senderId = clientId source calls.leftover ∧
      setup.filter.convertForward (datagram.take dgramBufferSize) = some message.binaryMessage
  | .outbound (.event calls) => ∃ activeFd later datagram,
      state.outbound = ⟨activeFd :: later, .loop⟩ ∧ activeFd ≠ setup.outboundPipe ∧
      calls.recv = some datagram ∧ datagram ≠ [] ∧
      state.process.connectionMap.server2client activeFd = some message.senderId ∧
      setup.filter.convertBackward (datagram.take dgramBufferSize) = some message.binaryMessage
  | _ => False

/-- The message a thread takes fits in the room of its direction, or what the other thread has
left to write fits in the room of the other. -/
def Fitting (setup : Setup) (state : State) (action : State.Action) : Prop :=
  ∀ message, Begins setup state message action →
    match action with
    | .inbound _ =>
      state.toOutbound.length + (frames [message]).length ≤ setup.toOutboundCapacity ∨
        OutboundRoomy setup state
    | .outbound _ =>
      state.toInbound.length + (frames [message]).length ≤ setup.toInboundCapacity ∨
        InboundRoomy setup state

/-- Both threads are in a `sendn` on a full pipe. -/
def Deadlocked (setup : Setup) (state : State) : Prop :=
  state.fault = none ∧ setup.inbound.Blocked state.inboundView ∧
    setup.outbound.Blocked state.outboundView

/-- Neither thread will come out of the `sendn` it is in, and both can get to a full pipe. -/
def Doomed (setup : Setup) (state : State) : Prop :=
  (∀ later, Reachable (State.step setup) state later →
    later.fault = none ∧ later.inbound.pc.unsent ≠ [] ∧ later.outbound.pc.unsent ≠ []) ∧
  ∃ dead, Reachable (State.step setup) state dead ∧ Deadlocked setup dead

theorem step_inbound {action : Listener.Action InboundCalls}
    (taken : State.step setup state (.inbound action) = some state') :
    state.fault = none ∧ ∃ view' fault,
      setup.inbound.step state.inboundView action = some (view', fault) ∧
      state' = { withInbound state view' with fault } := by
  have running := State.running_of_step taken
  simp only [State.step, running] at taken
  rcases Option.map_eq_some_iff.mp taken with ⟨⟨view', fault⟩, stepped, same⟩
  exact ⟨running, view', fault, stepped, same.symm⟩

theorem step_outbound {action : Listener.Action OutboundCalls}
    (taken : State.step setup state (.outbound action) = some state') :
    state.fault = none ∧ ∃ view' fault,
      setup.outbound.step state.outboundView action = some (view', fault) ∧
      state' = { withOutbound state view' with fault } := by
  have running := State.running_of_step taken
  simp only [State.step, running] at taken
  rcases Option.map_eq_some_iff.mp taken with ⟨⟨view', fault⟩, stepped, same⟩
  exact ⟨running, view', fault, stepped, same.symm⟩

theorem inbound_begins {calls : InboundCalls} {activeFd : Fd} {later : List Fd}
    {messages : List Message} {process' : Process}
    (atEvent : state.inbound = ⟨activeFd :: later, .loop⟩)
    (ran : (setup.inbound.onMessage calls activeFd).run state.process = .ok messages process') :
    messages = [] ∨ ∃ message, messages = [message] ∧
      Begins setup state message (.inbound (.event calls)) := by
  by_cases listens : activeFd = setup.listenFd
  · subst listens
    rw [inbound_onMessage_run] at ran
    cases outcome : (PlainInbound.onClientMessage setup.filter calls).run state.process with
    | error exn final =>
        rw [outcome] at ran
        cases ran
    | ok message final =>
        rw [outcome] at ran
        injection ran with only _
        rcases PlainInbound.onClientMessage_returned outcome with
          ⟨source, datagram, received, sender, converted, _, _⟩
        exact Or.inr ⟨message, only.symm, later, source, datagram, atEvent, received, sender,
          converted⟩
  · simp only [Setup.inbound, if_neg listens] at ran
    injection ran with nothing _
    exact Or.inl nothing.symm

theorem outbound_begins {calls : OutboundCalls} {activeFd : Fd} {later : List Fd}
    {messages : List Message} {process' : Process}
    (atEvent : state.outbound = ⟨activeFd :: later, .loop⟩) (other : activeFd ≠ setup.outboundPipe)
    (ran : (setup.outbound.onMessage calls activeFd).run state.process = .ok messages process') :
    ∃ message, messages = [message] ∧ Begins setup state message (.outbound (.event calls)) := by
  rw [outbound_onMessage_run] at ran
  cases outcome : (PlainOutbound.onServerMessage setup.filter calls activeFd).run state.process with
  | error exn final =>
      rw [outcome] at ran
      cases ran
  | ok message final =>
      rw [outcome] at ran
      injection ran with only _
      rcases PlainOutbound.onServerMessage_returned outcome with
        ⟨datagram, received, some_bytes, known, converted, _, _⟩
      exact ⟨message, only.symm, activeFd, later, datagram, atEvent, other, received, some_bytes,
        known, converted⟩

theorem begins_unique {first second : Message} {action : State.Action}
    (one : Begins setup state first action) (two : Begins setup state second action) :
    first = second := by
  cases action with
  | inbound action =>
      cases action with
      | event calls =>
          rcases one with ⟨_, source, datagram, _, received, sender, converted⟩
          rcases two with ⟨_, source', datagram', _, received', sender', converted'⟩
          rw [received, Option.some.injEq, Prod.mk.injEq] at received'
          rw [received'.1] at sender
          rw [received'.2, converted'] at converted
          exact Message.ext (sender.trans sender'.symm) (Option.some.inj converted).symm
      | epollWait | recv | send | interrupted => cases one
  | outbound action =>
      cases action with
      | event calls =>
          rcases one with ⟨fd, _, datagram, atEvent, _, received, _, known, converted⟩
          rcases two with ⟨fd', _, datagram', atEvent', _, received', _, known', converted'⟩
          rw [received, Option.some.injEq] at received'
          rw [received', converted'] at converted
          rw [atEvent] at atEvent'
          injection atEvent' with events _
          injection events with sameFd _
          rw [sameFd, known'] at known
          exact Message.ext (Option.some.inj known).symm (Option.some.inj converted).symm
      | epollWait | recv | send | interrupted => cases one

structure Settled (setup : Setup) (state : State) : Prop where
  inbound : Regular setup.inbound state.inboundView
  outbound : Regular setup.outbound state.outboundView

theorem settled_start (setup : Setup) : Settled setup (State.start setup) :=
  ⟨⟨Nat.zero_le _, fun unsent => absurd rfl unsent⟩,
    ⟨Nat.zero_le _, fun unsent => absurd rfl unsent⟩⟩

theorem Settled.step {action : State.Action} (settled : Settled setup state)
    (taken : State.step setup state action = some state') (running : state'.fault = none) :
    Settled setup state' := by
  cases action with
  | inbound action =>
      rcases step_inbound taken with ⟨_, view', fault, stepped, rfl⟩
      obtain rfl : fault = none := running
      have effect := step_effect stepped
      exact ⟨settled.inbound.step effect,
        ⟨Nat.le_trans effect.incoming_le settled.outbound.bounded, settled.outbound.sends⟩⟩
  | outbound action =>
      rcases step_outbound taken with ⟨_, view', fault, stepped, rfl⟩
      obtain rfl : fault = none := running
      have effect := step_effect stepped
      exact ⟨⟨Nat.le_trans effect.incoming_le settled.inbound.bounded, settled.inbound.sends⟩,
        settled.outbound.step effect⟩

/-- After a fitting step one of the threads has room for what it has left to write. -/
theorem roomy_step {action : State.Action} (settled : Settled setup state)
    (room : InboundRoomy setup state ∨ OutboundRoomy setup state)
    (fitting : Fitting setup state action)
    (taken : State.step setup state action = some state') (running : state'.fault = none) :
    InboundRoomy setup state' ∨ OutboundRoomy setup state' := by
  cases action with
  | inbound action =>
      rcases step_inbound taken with ⟨_, view', fault, stepped, rfl⟩
      obtain rfl : fault = none := running
      have effect := step_effect stepped
      have other : OutboundRoomy setup state →
          OutboundRoomy setup { withInbound state view' with fault := none } := fun roomy =>
        Nat.le_trans (Nat.add_le_add_right effect.incoming_le _) roomy
      rcases effect.roomy with
        ⟨calls, activeFd, later, messages, process', rfl, atEvent, _, ran, rfl⟩ | kept
      · rcases inbound_begins atEvent ran with rfl | ⟨message, rfl, begins⟩
        · exact Or.inl settled.inbound.bounded
        · rcases fitting message begins with fits | roomy
          · exact Or.inl ((begun_size process' later message _ _).mpr fits)
          · exact Or.inr (other roomy)
      · exact room.imp kept.mp other
  | outbound action =>
      rcases step_outbound taken with ⟨_, view', fault, stepped, rfl⟩
      obtain rfl : fault = none := running
      have effect := step_effect stepped
      have other : InboundRoomy setup state →
          InboundRoomy setup { withOutbound state view' with fault := none } := fun roomy =>
        Nat.le_trans (Nat.add_le_add_right effect.incoming_le _) roomy
      rcases effect.roomy with
        ⟨calls, activeFd, later, messages, process', rfl, atEvent, pipe, ran, rfl⟩ | kept
      · rcases outbound_begins atEvent pipe ran with ⟨message, rfl, begins⟩
        rcases fitting message begins with fits | roomy
        · exact Or.inr ((begun_size process' later message _ _).mpr fits)
        · exact Or.inl (other roomy)
      · exact room.imp other kept.mp

/-- A step that does not fit leaves neither thread the room it needs. -/
theorem cornered_of_unfitting {action : State.Action} (bad : ¬ Fitting setup state action)
    (taken : State.step setup state action = some state') (running : state'.fault = none) :
    ¬ InboundRoomy setup state' ∧ ¬ OutboundRoomy setup state' := by
  simp only [Fitting, not_forall] at bad
  rcases bad with ⟨message, begins, unfit⟩
  cases action with
  | inbound action =>
      rcases step_inbound taken with ⟨_, view', fault, stepped, rfl⟩
      obtain rfl : fault = none := running
      rcases not_or.mp unfit with ⟨long, tight⟩
      cases action with
      | event calls =>
          have atEvent := begins
          rcases atEvent with ⟨later, _, _, atEvent, _⟩
          rcases step_begins atEvent setup.listenFd_ne_pipe stepped with
            ⟨messages, process', ran, rfl⟩
          rcases inbound_onMessage_ok ran with ⟨only, rfl, _⟩
          rcases inbound_begins atEvent ran with impossible | ⟨other, same, also⟩
          · cases impossible
          · rw [same, begins_unique also begins]
            exact ⟨(begun_size process' later message _ _).not.mpr long, tight⟩
      | epollWait | recv | send | interrupted => cases begins
  | outbound action =>
      rcases step_outbound taken with ⟨_, view', fault, stepped, rfl⟩
      obtain rfl : fault = none := running
      rcases not_or.mp unfit with ⟨long, tight⟩
      cases action with
      | event calls =>
          have atEvent := begins
          rcases atEvent with ⟨activeFd, later, _, atEvent, pipe, _⟩
          rcases step_begins atEvent pipe stepped with ⟨messages, process', ran, rfl⟩
          rcases outbound_begins atEvent pipe ran with ⟨other, same, also⟩
          rw [same, begins_unique also begins]
          exact ⟨tight, (begun_size process' later message _ _).not.mpr long⟩
      | epollWait | recv | send | interrupted => cases begins

/-- Both threads are in a `sendn` that is too long for the pipe as it is. -/
structure Cornered (setup : Setup) (state : State) : Prop where
  running : state.fault = none
  settled : Settled setup state
  inbound : ¬ InboundRoomy setup state
  outbound : ¬ OutboundRoomy setup state

theorem Cornered.step {action : State.Action} (cornered : Cornered setup state)
    (taken : State.step setup state action = some state') : Cornered setup state' := by
  cases action with
  | inbound action =>
      have whole := taken
      rcases step_inbound taken with ⟨_, view', fault, stepped, rfl⟩
      have sending := cornered.settled.inbound.unsent cornered.inbound
      rcases step_sending sending stepped with ⟨rfl, incoming, kept⟩
      refine ⟨rfl, cornered.settled.step whole rfl, kept.not.mp cornered.inbound, ?_⟩
      have same : OutboundRoomy setup { withInbound state view' with fault := none } ↔
          OutboundRoomy setup state := by
        simp only [OutboundRoomy, Roomy, State.outboundView, withInbound, incoming,
          State.inboundView]
      exact same.not.mpr cornered.outbound
  | outbound action =>
      have whole := taken
      rcases step_outbound taken with ⟨_, view', fault, stepped, rfl⟩
      have sending := cornered.settled.outbound.unsent cornered.outbound
      rcases step_sending sending stepped with ⟨rfl, incoming, kept⟩
      refine ⟨rfl, cornered.settled.step whole rfl, ?_, kept.not.mp cornered.outbound⟩
      have same : InboundRoomy setup { withOutbound state view' with fault := none } ↔
          InboundRoomy setup state := by
        simp only [InboundRoomy, Roomy, State.inboundView, withOutbound, incoming,
          State.outboundView]
      exact same.not.mpr cornered.inbound

theorem Cornered.reachable {later : State} (cornered : Cornered setup state)
    (reached : Reachable (State.step setup) state later) : Cornered setup later := by
  apply reached.invariant cornered
  intro before action after _ earlier taken
  exact earlier.step taken

/-- Both threads write on until both directions are full. -/
theorem Cornered.deadlocks (cornered : Cornered setup state) :
    ∃ dead, Reachable (State.step setup) state dead ∧ Deadlocked setup dead := by
  rcases cornered.settled.inbound.fills cornered.inbound with ⟨view, filled, blocked, _⟩
  have first := reachable_inbound cornered.running filled
  have middle := cornered.reachable first
  rcases middle.settled.outbound.fills middle.outbound with ⟨view', filled', blocked', same⟩
  refine ⟨withOutbound (withInbound state view) view', first.trans (reachable_outbound rfl filled'),
    rfl, ⟨blocked.1, ?_⟩, blocked'⟩
  have full : view'.incoming = view.outgoing := same
  simp only [withOutbound, State.inboundView, full]
  exact blocked.2

theorem Cornered.doomed (cornered : Cornered setup state) : Doomed setup state := by
  refine ⟨fun later reached => ?_, cornered.deadlocks⟩
  have still := cornered.reachable reached
  exact ⟨still.running, still.settled.inbound.unsent still.inbound,
    still.settled.outbound.unsent still.outbound⟩

theorem Deadlocked.cornered (settled : Settled setup state) (dead : Deadlocked setup state) :
    Cornered setup state := by
  rcases dead with ⟨running, inbound, outbound⟩
  refine ⟨running, settled, ?_, ?_⟩
  · intro roomy
    have some_bytes := List.length_pos_of_ne_nil inbound.1
    have full := inbound.2
    simp only [InboundRoomy, Roomy] at roomy
    omega
  · intro roomy
    have some_bytes := List.length_pos_of_ne_nil outbound.1
    have full := outbound.2
    simp only [OutboundRoomy, Roomy] at roomy
    omega

theorem settled_reachable (reached : Reachable (State.step setup) (State.start setup) state)
    (running : state.fault = none) : Settled setup state := by
  have settled : state.fault = none → Settled setup state := by
    apply reached.invariant
    · exact fun _ => settled_start setup
    · intro before action after _ earlier taken running'
      exact (earlier (State.running_of_step taken)).step taken running'
  exact settled running

/-- The runs without a deadlock: as long as every datagram fits, and no longer. -/
theorem deadlock_free_while_fitting {actions : List State.Action}
    (ran : run (State.step setup) (State.start setup) actions = some state) :
    (Throughout (State.step setup) (Fitting setup) (State.start setup) actions →
      ¬ Deadlocked setup state) ∧
    (state.fault = none →
      ¬ Throughout (State.step setup) (Fitting setup) (State.start setup) actions →
        Doomed setup state) := by
  constructor
  · intro fitting dead
    have reached := reachable_of_run actions ran
    have roomy : state.fault = none → InboundRoomy setup state ∨ OutboundRoomy setup state := by
      apply fitting.invariant ran
      · exact fun _ => Or.inl (Nat.zero_le _)
      · intro before action after earlier room fits taken running
        have alive := State.running_of_step taken
        exact roomy_step (settled_reachable earlier alive) (room alive) fits taken running
    have cornered := dead.cornered (settled_reachable reached dead.1)
    rcases roomy dead.1 with inbound | outbound
    · exact cornered.inbound inbound
    · exact cornered.outbound outbound
  · intro running unfitting
    rcases exists_of_not_throughout unfitting ran with
      ⟨before, action, after, reached, bad, taken, rest⟩
    have alive := State.running_of_reachable rest running
    rcases cornered_of_unfitting bad taken alive with ⟨inbound, outbound⟩
    have cornered : Cornered setup after :=
      ⟨alive, settled_reachable (reached.next action taken) alive, inbound, outbound⟩
    exact (cornered.reachable rest).doomed

instance (setup : Setup) (state : State) : Decidable (InboundRoomy setup state) := by
  unfold InboundRoomy Roomy
  infer_instance

instance (setup : Setup) (state : State) : Decidable (OutboundRoomy setup state) := by
  unfold OutboundRoomy Roomy
  infer_instance

theorem fitting_of_roomy (inbound : InboundRoomy setup state) (outbound : OutboundRoomy setup state)
    (action : State.Action) : Fitting setup state action := by
  intro message _
  cases action with
  | inbound => exact Or.inr outbound
  | outbound => exact Or.inr inbound

/-- A request has been sent on, and now its answer and another request are being written. -/
def twoWriters : List State.Action :=
  takes 0 ++ handles (succeeding 8 []) ++ (takes 0).take 2 ++ answers.take 3

theorem deadlock_free_while_fitting_taken : ∃ state,
    run (State.step firstSetup) (State.start firstSetup) twoWriters = some state ∧
    state.process.trace = [.taken loopback (filled 0) [1],
      .opened (clientId loopback (filled 0)) 8, .sent 8 [1], .taken loopback (filled 0) [1],
      .received 8 [2]] ∧
    ¬ Deadlocked firstSetup state := by
  have seen : (run (State.step firstSetup) (State.start firstSetup) twoWriters).map
      (fun state => state.process.trace) = some [.taken loopback (filled 0) [1],
        .opened (clientId loopback (filled 0)) 8, .sent 8 [1], .taken loopback (filled 0) [1],
        .received 8 [2]] := by
    decide +kernel
  have roomy : Throughout (State.step firstSetup)
      (fun state _ => InboundRoomy firstSetup state ∧ OutboundRoomy firstSetup state)
      (State.start firstSetup) twoWriters := by
    decide +kernel
  rcases Option.map_eq_some_iff.mp seen with ⟨state, ran, trace⟩
  refine ⟨state, ran, trace, (deadlock_free_while_fitting ran).1 (roomy.mono ?_)⟩
  exact fun _ action room => fitting_of_roomy room.1 room.2 action

def bothWriting (process : Process) (message answer : Message) : State :=
  ⟨process, ⟨[], .send (forwardMessage message)⟩, ⟨[], .send (forwardMessage answer)⟩, [], [], none⟩

theorem bothWriting_cornered {process : Process} {message answer : Message}
    (reached : Reachable (State.step setup) (State.start setup)
      (bothWriting process message answer))
    (long : setup.toOutboundCapacity < message.binaryMessage.length)
    (long' : setup.toInboundCapacity < answer.binaryMessage.length) :
    Cornered setup (bothWriting process message answer) := by
  have exceeds : ∀ {Calls : Type} (listener : Listener Calls) (item : Message),
      listener.capacity < item.binaryMessage.length →
      ¬ Roomy listener ⟨process, ⟨[], .send (forwardMessage item)⟩, [], []⟩ := by
    intro Calls listener item short roomy
    have size := frames_length item []
    rw [frames_singleton] at size
    rw [Roomy, Pc.send_unsent, size] at roomy
    omega
  exact ⟨rfl, settled_reachable reached rfl, exceeds _ _ long, exceeds _ _ long'⟩

/-- A pipe that is shorter than one message in each direction. -/
theorem deadlocked_of_long (setup : Setup) {first opening datagram result answer reply : Bytes}
    (opens : setup.filter.convertForward (first.take dgramBufferSize) = some opening)
    (small : opening.length ≤ maxMsgLen)
    (forward : setup.filter.convertForward (datagram.take dgramBufferSize) = some result)
    (bound : result.length ≤ stringMaxSize)
    (long : setup.toOutboundCapacity < result.length) (some_bytes : answer ≠ [])
    (backward : setup.filter.convertBackward (answer.take dgramBufferSize) = some reply)
    (bound' : reply.length ≤ stringMaxSize) (long' : setup.toInboundCapacity < reply.length) :
    ∃ dead, Reachable (State.step setup) (State.start setup) dead ∧ Deadlocked setup dead := by
  have pipe : setup.outboundPipe ∈ setup.startProcess.outboundSet := Finset.mem_singleton_self _
  rcases reachable_emitted loopback (filled 0) pipe opens small with ⟨process, sends, reached⟩
  have connected : ∃ connFd senderId, connFd ∈ process.outboundSet ∧ connFd ≠ setup.outboundPipe ∧
      process.connectionMap.server2client connFd = some senderId := by
    cases sends with
    | known entry => cases entry
    | @new connFd absent fresh =>
        refine ⟨connFd, clientId loopback (filled 0), ?_, ?_, ?_⟩
        · rw [Process.emit]
          split <;> exact Finset.mem_insert_self _ _
        · rintro rfl
          exact fresh setup.outboundPipe_open
        · rw [Process.emit_connectionMap]
          exact PartialMap.assign_self _ _ _
  rcases connected with ⟨connFd, senderId, registered, other, known⟩
  have taken := reached.trans (reachable_writing process loopback (filled 0) forward bound)
  have answered : Reachable (State.step setup) (State.start setup) (bothWriting
      ((process.record (.taken loopback (filled 0) datagram)).record (.received connFd answer))
      ⟨clientId loopback (filled 0), result⟩ ⟨senderId, reply⟩) :=
    taken.trans (reachable_answering rfl rfl rfl registered other known some_bytes backward bound')
  rcases (bothWriting_cornered answered long long').deadlocks with ⟨dead, last, full⟩
  exact ⟨dead, answered.trans last, full⟩

/-- Two datagrams of 5000 bytes, one in each direction, on a pipe of 4096. -/
theorem deadlocked_first :
    ∃ dead, Reachable (State.step firstSetup) (State.start firstSetup)
      dead ∧ Deadlocked firstSetup dead := by
  have long : (List.replicate 5000 (0 : UInt8)).length = 5000 := List.length_replicate
  have whole : (List.replicate 5000 (0 : UInt8)).take dgramBufferSize = List.replicate 5000 0 := by
    apply List.take_of_length_le
    rw [long]
    decide
  have opens : firstSetup.filter.convertForward ([1].take dgramBufferSize) =
      some [1] := rfl
  have forward : firstSetup.filter.convertForward
      ((List.replicate 5000 0).take dgramBufferSize) = some (List.replicate 5000 0) := by
    rw [whole]
    rfl
  have backward : firstSetup.filter.convertBackward
      ((List.replicate 5000 0).take dgramBufferSize) = some (List.replicate 5000 0) := by
    rw [whole]
    rfl
  have bound : (List.replicate 5000 (0 : UInt8)).length ≤ stringMaxSize := by
    rw [long]
    decide
  have exceeds : 4096 < (List.replicate 5000 (0 : UInt8)).length := by
    rw [long]
    decide
  have some_bytes : List.replicate 5000 (0 : UInt8) ≠ [] :=
    List.ne_nil_of_length_pos (Nat.lt_trans (by decide) exceeds)
  exact deadlocked_of_long firstSetup opens (by decide) forward bound exceeds
    some_bytes backward bound exceeds

end UdpForwarder.Deadlock
