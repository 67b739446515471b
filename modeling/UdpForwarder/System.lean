import UdpForwarder.Exchange
import UdpForwarder.Outcome
import UdpForwarder.Lib.Transition

/-! The forwarder as its two listener threads and the pipe between them, and the relay of whole
messages that it refines. -/

namespace UdpForwarder

open ClientId Filters Ipc Listener Plain Transition

/-- A forwarder whose threads have reached their loops. -/
structure Setup where
  filter : BaseFilter
  openFds : Finset Fd
  listenFd : Fd
  inboundPipe : Fd
  outboundPipe : Fd
  outboundPipe_open : outboundPipe ∈ openFds
  listenFd_ne_pipe : listenFd ≠ inboundPipe
  toOutboundCapacity : Nat
  toInboundCapacity : Nat
  toOutbound_pos : 0 < toOutboundCapacity
  toInbound_pos : 0 < toInboundCapacity

namespace Setup

variable (setup : Setup)

def inbound : Listener InboundCalls where
  pipe := setup.inboundPipe
  capacity := setup.toOutboundCapacity
  interest _ := {setup.listenFd, setup.inboundPipe}
  legal _ _ := true
  onMessage calls activeFd :=
    if activeFd = setup.listenFd then do
      let message ← PlainInbound.onClientMessage setup.filter calls
      return [message]
    else return []
  onPipeMessage := PlainInbound.onPipeMessage

def outbound : Listener OutboundCalls where
  pipe := setup.outboundPipe
  capacity := setup.toInboundCapacity
  interest := Process.outboundSet
  legal calls process := decide (PlainOutbound.Legal calls process)
  onMessage calls activeFd := do
    let message ← PlainOutbound.onServerMessage setup.filter calls activeFd
    return [message]
  onPipeMessage := PlainOutbound.onPipeMessage

def startProcess : Process where
  openFds := setup.openFds
  outboundSet := {setup.outboundPipe}
  connectionMap := .empty
  trace := []

def unfiltered (toOutboundCapacity toInboundCapacity : Nat)
    (toOutbound_pos : 0 < toOutboundCapacity) (toInbound_pos : 0 < toInboundCapacity) :
    Setup where
  filter := chainedFilters []
  openFds := {0, 1, 2, 3, 4, 5, 6, 7}
  listenFd := 5
  inboundPipe := 3
  outboundPipe := 4
  outboundPipe_open := by decide
  listenFd_ne_pipe := by decide
  toOutboundCapacity
  toInboundCapacity
  toOutbound_pos
  toInbound_pos

end Setup

section Handlers

variable {setup : Setup} {process process' : Process} {messages : List Message} {exn : Exn}

theorem outbound_onMessage_run (calls : OutboundCalls) (activeFd : Fd) :
    (setup.outbound.onMessage calls activeFd).run process =
      match (PlainOutbound.onServerMessage setup.filter calls activeFd).run process with
      | .ok message process' => .ok [message] process'
      | .error exn process' => .error exn process' := by
  simp only [Setup.outbound, EStateM.run_bind]
  cases (PlainOutbound.onServerMessage setup.filter calls activeFd).run process <;> rfl

theorem outbound_onMessage_ok {calls : OutboundCalls} {activeFd : Fd}
    (ran : (setup.outbound.onMessage calls activeFd).run process = .ok messages process') :
    ∃ message, messages = [message] ∧
      Received setup.filter process activeFd message process' := by
  rw [outbound_onMessage_run] at ran
  cases outcome : (PlainOutbound.onServerMessage setup.filter calls activeFd).run process with
  | ok message final =>
      rw [outcome] at ran
      injection ran with messages process
      subst messages process
      exact ⟨message, rfl, PlainOutbound.onServerMessage_ok outcome⟩
  | error exn final =>
      rw [outcome] at ran
      cases ran

theorem outbound_onMessage_error {calls : OutboundCalls} {activeFd : Fd} {senderId : Bytes}
    (known : process.connectionMap.server2client activeFd = some senderId)
    (ran : (setup.outbound.onMessage calls activeFd).run process = .error exn process') :
    NotReceived process activeFd exn process' := by
  rw [outbound_onMessage_run] at ran
  cases outcome : (PlainOutbound.onServerMessage setup.filter calls activeFd).run process with
  | ok message final =>
      rw [outcome] at ran
      cases ran
  | error thrown final =>
      rw [outcome] at ran
      injection ran with exn process
      subst exn process
      exact PlainOutbound.onServerMessage_error known outcome

theorem inbound_listens {activeFd : Fd} (registered : activeFd ∈ setup.inbound.interest process)
    (other : activeFd ≠ setup.inbound.pipe) : activeFd = setup.listenFd := by
  simp only [Setup.inbound, Finset.mem_insert, Finset.mem_singleton] at registered
  exact registered.resolve_right other

theorem inbound_onMessage_run (calls : InboundCalls) :
    (setup.inbound.onMessage calls setup.listenFd).run process =
      match (PlainInbound.onClientMessage setup.filter calls).run process with
      | .ok message process' => .ok [message] process'
      | .error exn process' => .error exn process' := by
  simp only [Setup.inbound, if_true, EStateM.run_bind]
  cases (PlainInbound.onClientMessage setup.filter calls).run process <;> rfl

theorem inbound_onMessage_ok {calls : InboundCalls}
    (ran : (setup.inbound.onMessage calls setup.listenFd).run process = .ok messages process') :
    ∃ message, messages = [message] ∧ Taken setup.filter process message process' := by
  rw [inbound_onMessage_run] at ran
  cases outcome : (PlainInbound.onClientMessage setup.filter calls).run process with
  | ok message final =>
      rw [outcome] at ran
      injection ran with messages process
      subst messages process
      exact ⟨message, rfl, PlainInbound.onClientMessage_ok outcome⟩
  | error exn final =>
      rw [outcome] at ran
      cases ran

theorem inbound_onMessage_error {calls : InboundCalls}
    (ran : (setup.inbound.onMessage calls setup.listenFd).run process = .error exn process') :
    NotTaken process exn process' := by
  rw [inbound_onMessage_run] at ran
  cases outcome : (PlainInbound.onClientMessage setup.filter calls).run process with
  | ok message final =>
      rw [outcome] at ran
      cases ran
  | error thrown final =>
      rw [outcome] at ran
      injection ran with exn process
      subst exn process
      exact PlainInbound.onClientMessage_error outcome

end Handlers

/-- An exception that leaves a listener ends the process: nothing catches it. -/
structure State where
  process : Process
  inbound : Thread
  outbound : Thread
  toOutbound : Bytes
  toInbound : Bytes
  fault : Option Exn

namespace State

def start (setup : Setup) : State :=
  ⟨setup.startProcess, ⟨[], .loop⟩, ⟨[], .loop⟩, [], [], none⟩

def inboundView (state : State) : View :=
  ⟨state.process, state.inbound, state.toInbound, state.toOutbound⟩

def outboundView (state : State) : View :=
  ⟨state.process, state.outbound, state.toOutbound, state.toInbound⟩

inductive Action where
  | inbound (action : Listener.Action InboundCalls)
  | outbound (action : Listener.Action OutboundCalls)

def step (setup : Setup) (state : State) (action : Action) : Option State :=
  if state.fault.isSome then none
  else match action with
    | .inbound action =>
      (setup.inbound.step state.inboundView action).map fun (view, fault) =>
        ⟨view.process, view.thread, state.outbound, view.outgoing, view.incoming, fault⟩
    | .outbound action =>
      (setup.outbound.step state.outboundView action).map fun (view, fault) =>
        ⟨view.process, state.inbound, view.thread, view.incoming, view.outgoing, fault⟩

variable {setup : Setup} {state state' : State}

theorem running_of_step {action : Action} (taken : step setup state action = some state') :
    state.fault = none := by
  simp only [step] at taken
  split at taken
  · cases taken
  · rename_i alive
    simpa using alive

theorem running_of_reachable (reached : Reachable (step setup) state state')
    (running : state'.fault = none) : state.fault = none := by
  rcases Relation.ReflTransGen.cases_head reached with rfl | ⟨next, ⟨action, taken⟩, _⟩
  · exact running
  · exact running_of_step taken

end State

/-- The forwarder without the bytes of its pipe: messages on their way in both directions. -/
structure Relay where
  process : Process
  forward : List Message
  backward : List Message
  fault : Option Exn

namespace Relay

def start (setup : Setup) : Relay := ⟨setup.startProcess, [], [], none⟩

def inbound (relay : Relay) : Exchange := ⟨relay.process, relay.backward, relay.forward⟩

def outbound (relay : Relay) : Exchange := ⟨relay.process, relay.forward, relay.backward⟩

inductive Choice where
  | inbound (choice : Exchange.Choice InboundCalls)
  | outbound (choice : Exchange.Choice OutboundCalls)

def step (setup : Setup) (relay : Relay) (choice : Choice) : Option Relay :=
  if relay.fault.isSome then none
  else match choice with
    | .inbound choice =>
      (Exchange.step setup.inbound relay.inbound choice).map fun (exchange, fault) =>
        ⟨exchange.process, exchange.outgoing, exchange.incoming, fault⟩
    | .outbound choice =>
      (Exchange.step setup.outbound relay.outbound choice).map fun (exchange, fault) =>
        ⟨exchange.process, exchange.incoming, exchange.outgoing, fault⟩

end Relay

end UdpForwarder
