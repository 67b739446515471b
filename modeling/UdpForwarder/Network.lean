import UdpForwarder.Delivery

/-! Two forwarders in a row, with a network between them that may lose, repeat and reorder what it
carries. -/

namespace UdpForwarder

open ClientId Transition

/-- The forwarder of the clients and the one in front of the UDP application. `ours` are the
addresses of the host of the first one. -/
structure Path where
  client : Setup
  server : Setup
  ours : SourceAddr → Bool

/-- `bound` are the sockets the first forwarder opened, with the addresses the kernel bound them
to; what is on its way to the second forwarder has a source, what is on its way back a
destination. -/
structure Link where
  bound : List (Fd × SourceAddr)
  toServer : List (SourceAddr × Bytes)
  toClient : List (Bytes × Bytes)
  deriving DecidableEq

namespace Link

/-- Every socket of the first forwarder has an address of its own. Nothing in the source provides
for it: `quick_connect` sets `SO_REUSEADDR` and `SO_REUSEPORT` before `connect`, and the kernel may
then bind two sockets to one port. -/
def OwnAddresses (link : Link) : Prop := (link.bound.map Prod.snd).Nodup

/-- What an event of the first forwarder does to the network. A new socket is bound to `address`,
maybe one that another socket of the host has; a connected socket gets what was sent to its
address. -/
def ofClient (ours : SourceAddr → Bool) (address : SourceAddr) (link : Link) :
    Event → Option Link
  | .opened _ connFd =>
    if ours address then
      some { link with bound := (connFd, address) :: link.bound }
    else none
  | .sent connFd datagram =>
    match link.bound.lookup connFd with
    | some source => some { link with toServer := link.toServer ++ [(source, datagram)] }
    | none => none
  | .received connFd datagram =>
    match link.bound.lookup connFd with
    | some source =>
      if (source.bytes, datagram) ∈ link.toClient then
        some { link with toClient := link.toClient.erase (source.bytes, datagram) }
      else none
    | none => none
  | .taken _ _ _ | .delivered _ _ => some link

def ofServer (link : Link) : Event → Option Link
  | .taken source _ datagram =>
    if (source, datagram) ∈ link.toServer then
      some { link with toServer := link.toServer.erase (source, datagram) }
    else none
  | .delivered address datagram =>
    some { link with toClient := link.toClient ++ [(address, datagram)] }
  | .opened _ _ | .sent _ _ | .received _ _ => some link

end Link

structure Network where
  client : State
  server : State
  link : Link

namespace Network

/-- What a step of a forwarder added to its trace. -/
def news (before after : State) : List Event :=
  after.process.trace.drop before.process.trace.length

/-- A step of one of the forwarders, a datagram from another host, or a fault of the network. -/
inductive Action where
  | client (address : SourceAddr) (action : State.Action)
  | server (action : State.Action)
  | foreign (source : SourceAddr) (datagram : Bytes)
  | loseToServer (index : Nat)
  | loseToClient (index : Nat)
  | repeatToServer (index : Nat)
  | repeatToClient (index : Nat)

def start (path : Path) : Network := ⟨State.start path.client, State.start path.server, [], [], []⟩

def step (path : Path) (network : Network) : Action → Option Network
  | .client address action => do
    let client ← State.step path.client network.client action
    let link ← (news network.client client).foldlM (Link.ofClient path.ours address) network.link
    return { network with client, link }
  | .server action => do
    let server ← State.step path.server network.server action
    let link ← (news network.server server).foldlM Link.ofServer network.link
    return { network with server, link }
  | .foreign source datagram =>
    if path.ours source then none
    else some { network with link.toServer := network.link.toServer ++ [(source, datagram)] }
  | .loseToServer index =>
    some { network with link.toServer := network.link.toServer.eraseIdx index }
  | .loseToClient index =>
    some { network with link.toClient := network.link.toClient.eraseIdx index }
  | .repeatToServer index => do
    let packet ← network.link.toServer[index]?
    return { network with link.toServer := network.link.toServer ++ [packet] }
  | .repeatToClient index => do
    let packet ← network.link.toClient[index]?
    return { network with link.toClient := network.link.toClient ++ [packet] }

end Network

end UdpForwarder
