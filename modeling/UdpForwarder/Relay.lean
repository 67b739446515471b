import UdpForwarder.ConnectionTable

/-! The relay: what each of its steps can be, and the connection table in every run of it. -/

namespace UdpForwarder.Relay

open ClientId ConnectionTable Filters Ipc Listener Plain Transition

/-- A step of the relay: one of the four handlers returned or threw, or the loop itself did. -/
inductive Move (setup : Setup) (relay : Relay) : Relay → Prop where
  | take {message : Message} {process' : Process}
      (taken : Taken setup.filter relay.process message process') :
      Move setup relay ⟨process', relay.forward ++ [message], relay.backward, none⟩
  | deliver {message : Message} {rest : List Message} {process' : Process}
      (queue : relay.backward = message :: rest)
      (delivered : Delivered relay.process message process') :
      Move setup relay ⟨process', relay.forward, rest, none⟩
  | receive {activeFd : Fd} {message : Message} {process' : Process}
      (received : Received setup.filter relay.process activeFd message process') :
      Move setup relay ⟨process', relay.forward, relay.backward ++ [message], none⟩
  | emit {message : Message} {rest : List Message} {process' : Process}
      (queue : relay.forward = message :: rest)
      (emitted : Emitted relay.process message process') :
      Move setup relay ⟨process', rest, relay.backward, none⟩
  | notTaken {exn : Exn} {process' : Process} (threw : NotTaken relay.process exn process') :
      Move setup relay ⟨process', relay.forward, relay.backward, some exn⟩
  | notDelivered {message : Message} {rest : List Message} {exn : Exn} {process' : Process}
      (queue : relay.backward = message :: rest)
      (threw : NotDelivered relay.process message exn process') :
      Move setup relay ⟨process', relay.forward, relay.backward, some exn⟩
  | notReceived {activeFd : Fd} {exn : Exn} {process' : Process}
      (threw : NotReceived relay.process activeFd exn process') :
      Move setup relay ⟨process', relay.forward, relay.backward, some exn⟩
  | notEmitted {message : Message} {rest : List Message} {exn : Exn} {process' : Process}
      (queue : relay.forward = message :: rest)
      (threw : NotEmitted relay.process message exn process') :
      Move setup relay ⟨process', relay.forward, relay.backward, some exn⟩
  | broken {exn : Exn} (other : exn ≠ parseClientIdError) :
      Move setup relay ⟨relay.process, relay.forward, relay.backward, some exn⟩

variable {setup : Setup} {relay relay' : Relay}

private theorem move_inbound {exchange : Exchange} {fault : Option Exn}
    (pass : Exchange.Pass setup.inbound relay.inbound exchange fault) :
    Move setup relay ⟨exchange.process, exchange.outgoing, exchange.incoming, fault⟩ := by
  cases pass with
  | @message activeFd calls _ process' registered other legal ran =>
      rw [inbound_listens registered other] at ran
      rcases inbound_onMessage_ok ran with ⟨message, rfl, taken⟩
      exact .take taken
  | @messageThrows activeFd calls exn process' registered other legal ran =>
      rw [inbound_listens registered other] at ran
      exact .notTaken (inbound_onMessage_error ran)
  | handle queue accepted legal ran => exact .deliver queue (PlainInbound.onPipeMessage_ok ran)
  | handleThrows queue legal ran => exact .notDelivered queue (PlainInbound.onPipeMessage_error ran)
  | refused queue oversize => exact .broken (by decide)
  | epollFailed => exact .broken (by decide)

private theorem move_outbound (tied : Tied setup relay.process) {exchange : Exchange}
    {fault : Option Exn} (pass : Exchange.Pass setup.outbound relay.outbound exchange fault) :
    Move setup relay ⟨exchange.process, exchange.incoming, exchange.outgoing, fault⟩ := by
  cases pass with
  | message registered other legal ran =>
      rcases outbound_onMessage_ok ran with ⟨message, rfl, received⟩
      exact .receive received
  | @messageThrows activeFd calls exn process' registered other legal ran =>
      rcases (tied.registered activeFd).mpr ⟨registered, other⟩ with ⟨senderId, known⟩
      exact .notReceived (outbound_onMessage_error known ran)
  | handle queue accepted legal ran =>
      exact .emit queue (PlainOutbound.onPipeMessage_ok (of_decide_eq_true legal) ran)
  | handleThrows queue legal ran =>
      exact .notEmitted queue (PlainOutbound.onPipeMessage_error (of_decide_eq_true legal) ran)
  | refused queue oversize => exact .broken (by decide)
  | epollFailed => exact .broken (by decide)

/-- Nothing moves after a fault, and before it every step is a move. -/
theorem step_move {choice : Choice} (tied : relay.fault = none → Tied setup relay.process)
    (taken : step setup relay choice = some relay') :
    relay.fault = none ∧ Move setup relay relay' := by
  simp only [step] at taken
  split at taken
  · cases taken
  · rename_i running
    have none : relay.fault = none := by simpa using running
    refine ⟨none, ?_⟩
    cases choice with
    | inbound choice =>
        rcases Option.map_eq_some_iff.mp taken with ⟨⟨exchange, fault⟩, stepped, same⟩
        subst same
        exact move_inbound (Exchange.step_pass _ stepped)
    | outbound choice =>
        rcases Option.map_eq_some_iff.mp taken with ⟨⟨exchange, fault⟩, stepped, same⟩
        subst same
        exact move_outbound (tied none) (Exchange.step_pass _ stepped)

theorem Move.tied (tied : Tied setup relay.process) (move : Move setup relay relay') :
    relay'.fault = none → Tied setup relay'.process := by
  intro running
  cases move with
  | take taken =>
      cases taken
      exact tied.record _
  | deliver queue delivered =>
      cases delivered
      exact tied.record _
  | receive received => exact tied.received received
  | emit queue emitted => exact tied.emitted emitted
  | notTaken | notDelivered | notReceived | notEmitted | broken => cases running

theorem tied_reachable (reached : Reachable (step setup) (start setup) relay) :
    relay.fault = none → Tied setup relay.process := by
  apply reached.invariant (fun _ => tied_start setup)
  intro before choice after _ tied taken
  rcases step_move tied taken with ⟨running, move⟩
  exact move.tied (tied running)

/-- Invariants of the running relay: what a move preserves that ends in no fault. -/
theorem reachable_invariant {Inv : Relay → Prop}
    (reached : Reachable (step setup) (start setup) relay) (initial : Inv (start setup))
    (preserved : ∀ before after, before.fault = none → Tied setup before.process → Inv before →
      Move setup before after → Inv after) : Inv relay := by
  apply reached.invariant initial
  intro before choice after earlier inv taken
  rcases step_move (tied_reachable earlier) taken with ⟨running, move⟩
  exact preserved before after running (tied_reachable earlier running) inv move

end UdpForwarder.Relay
