import UdpForwarder.EndToEnd
import UdpForwarder.Launch
import UdpForwarder.Startup

/-! A tunnel from its two command lines on. Each process goes through its set-up while the other one
may already run, and the network carries what there is. -/

namespace UdpForwarder

open ClientId CommandLine ConnectionTable Delivery EndToEnd Filters Forwarder Launch Startup
  Transition Tunnel

/-- What the two processes call `runForever` with, and the addresses of the host of the first. -/
structure Plan where
  client : Config
  server : Config
  ours : SourceAddr → Bool

structure Deployment where
  client : Program
  server : Program
  link : Link

namespace Deployment

/-- A step of one of the processes, in its set-up or in a loop, or what else the network does. -/
inductive Action where
  | client (address : SourceAddr) (action : Startup.Action)
  | server (action : Startup.Action)
  | foreign (source : SourceAddr) (datagram : Bytes)
  | loseToServer (index : Nat)
  | loseToClient (index : Nat)
  | repeatToServer (index : Nat)
  | repeatToClient (index : Nat)

def start (plan : Plan) : Deployment :=
  ⟨Program.start plan.client, Program.start plan.server, [], [], []⟩

def step (plan : Plan) (deployment : Deployment) : Action → Option Deployment
  | .client address action => do
    let client ← deployment.client.step plan.client action
    let link ← (Network.news deployment.client.state client.state).foldlM
      (Link.ofClient plan.ours address) deployment.link
    return { deployment with client, link }
  | .server action => do
    let server ← deployment.server.step plan.server action
    let link ← (Network.news deployment.server.state server.state).foldlM Link.ofServer
      deployment.link
    return { deployment with server, link }
  | .foreign source datagram =>
    if plan.ours source then none
    else some { deployment with
      link.toServer := deployment.link.toServer ++ [(source, datagram)] }
  | .loseToServer index =>
    some { deployment with link.toServer := deployment.link.toServer.eraseIdx index }
  | .loseToClient index =>
    some { deployment with link.toClient := deployment.link.toClient.eraseIdx index }
  | .repeatToServer index => do
    let packet ← deployment.link.toServer[index]?
    return { deployment with link.toServer := deployment.link.toServer ++ [packet] }
  | .repeatToClient index => do
    let packet ← deployment.link.toClient[index]?
    return { deployment with link.toClient := deployment.link.toClient ++ [packet] }

def network (deployment : Deployment) : Network :=
  ⟨deployment.client.state, deployment.server.state, deployment.link⟩

variable {plan : Plan} {deployment deployment' : Deployment}

def Loops (program : Program) : Prop :=
  (∃ ipcPipe listenFd, program.inboundPc = .looping ipcPipe listenFd) ∧
    ∃ ipcPipe, program.outboundPc = .looping ipcPipe

/-- A run of two forwarders with the filters and the pipes of the plan that looks like the
deployment from outside, and is in its state as far as the processes are in their loops. -/
structure Resembles (plan : Plan) (deployment : Deployment) (path : Path) (network : Network) :
    Prop where
  ours : path.ours = plan.ours
  client : Suits plan.client path.client
  server : Suits plan.server path.server
  reached : Reachable (Network.step path) (Network.start path) network
  clientTrace : network.client.process.trace = deployment.client.state.process.trace
  serverTrace : network.server.process.trace = deployment.server.state.process.trace
  link : network.link = deployment.link
  clientLoops : Loops deployment.client → network.client = deployment.client.state
  serverLoops : Loops deployment.server → network.server = deployment.server.state

theorem Resembles.session {path : Path} {network : Network}
    (resembles : Resembles plan deployment path network) (connFd : Fd) (user : Bytes) :
    Session network connFd user ↔ Session deployment.network connFd user := by
  rw [Session, Session, resembles.clientTrace, resembles.serverTrace, resembles.link]
  rfl

/-- A process that was started with these options and has come to `runForever`. -/
structure Launched (hash : Bytes → UInt64) (options : List WrittenOption) (config : Config) :
    Prop where
  wellFormed : WellFormed options
  running : ∃ forwarder, realMain hash (argv options) = .ok (.running forwarder) ∧
    config.filter = forwarder.ptrFilter

section Launched

variable {hash : Bytes → UInt64} {options : List WrittenOption} {config : Config}

theorem Launched.accepted (launched : Launched hash options config)
    (nonempty : ∀ value ∈ filterValues options, value ≠ []) :
    ptrFilter hash (filterValues options) = .ok config.filter := by
  obtain ⟨forwarder, running, filter⟩ := launched.running
  obtain ⟨_, _, _, accepted⟩ := (running_iff launched.wellFormed forwarder).mp running
  rw [filter, ← extracted_eq_iff.mpr nonempty]
  exact accepted

end Launched

section Transparent

variable {hash : Bytes → UInt64} {clientOptions serverOptions : List WrittenOption}
  {psks : List Bytes}

end Transparent

section FirstDeployment

def looping : State.Action → Startup.Action
  | .inbound action => .inbound action
  | .outbound action => .outbound action

end FirstDeployment

end Deployment

end UdpForwarder
