import UdpForwarder.Filters
import UdpForwarder.Process

/-! The event handlers of `PlainInbound` and `PlainOutbound`. What the calls of one pass through
a handler return is chosen before the pass. -/

namespace UdpForwarder.Plain

open ClientId Filters Handler Ipc

/-- `recvfrom` is `none` for -1, else the source and the datagram as the client sent it; `sendto`
is false for -1. -/
structure InboundCalls where
  recvfrom : Option (SourceAddr × Bytes)
  leftover : Leftover
  sendto : Bool

namespace PlainInbound

/-- The branch for a message from `PlainOutbound`, after both `recv_msg`. -/
def onPipeMessage (calls : InboundCalls) (message : Message) : Handler Unit := do
  let clientAddr ← match parseClientId message.senderId with
    | .ok clientAddr => pure clientAddr
    | .error exn => throw exn
  dynamicAssert calls.sendto "sendto failed"
  record (.delivered clientAddr.destination message.binaryMessage)

/-- The branch for a datagram from a client, up to the call of `forwardMessageToOutbound`. -/
def onClientMessage (filter : BaseFilter) (calls : InboundCalls) : Handler Message := do
  match calls.recvfrom with
  | none => throw (.dynamicAssert "recvfrom failed")
  | some (source, datagram) =>
    record (.taken source calls.leftover datagram)
    -- `recvfrom` keeps what fits in `msgBuffer`
    let binaryMessage ← converted (filter.convertForward (datagram.take dgramBufferSize))
    return ⟨makeClientId (recvfromAddr source calls.leftover), binaryMessage⟩

end PlainInbound

/-- `epollCtl` is false for -1, `recv` is `none` for -1, else the datagram as the server sent
it. -/
structure OutboundCalls where
  quickConnect : Except String Fd
  epollCtl : Bool
  send : SendScript
  recv : Option Bytes
  close : Option String

namespace PlainOutbound

/-- The branch for a message from `PlainInbound`, after both `recv_msg`. -/
def onPipeMessage (calls : OutboundCalls) (message : Message) : Handler Unit := do
  let process ← get
  match process.connectionMap.client2server message.senderId with
  | some connFd => quickSend calls.send connFd message.binaryMessage
  | none =>
    let connFd ← quickConnect calls.quickConnect
    record (.opened message.senderId connFd)
    epollAddFd calls.epollCtl connFd
    modify fun process =>
      { process with connectionMap := process.connectionMap.add message.senderId connFd }
    quickSend calls.send connFd message.binaryMessage

/-- `if (msgLength == 0) { ... }` -/
def retire (calls : OutboundCalls) (activeFd : Fd) : Handler Unit := do
  epollDelFd calls.epollCtl activeFd
  modify fun process =>
    { process with connectionMap := process.connectionMap.delServer activeFd }
  closeEx calls.close activeFd

def unknownConnFd : Exn := .dynamicAssert "connectionMap MUST contain server connfd. "

/-- The branch for a datagram from the server, up to the call of `forwardMessageToInbound`. -/
def onServerMessage (filter : BaseFilter) (calls : OutboundCalls) (activeFd : Fd) :
    Handler Message := do
  match calls.recv with
  | none => throw (.dynamicAssert "recv failed")
  | some datagram =>
    record (.received activeFd datagram)
    let msg := datagram.take dgramBufferSize
    -- nothing returns from here: a retired fd runs into the assertion
    if msg.length = 0 then retire calls activeFd
    let process ← get
    match process.connectionMap.server2client activeFd with
    | none => throw unknownConnFd
    | some senderId =>
      let binaryMessage ← converted (filter.convertBackward msg)
      return ⟨senderId, binaryMessage⟩

/-- `quick_connect` returns a number that is not open at the time. -/
def Legal (calls : OutboundCalls) (process : Process) : Prop :=
  match calls.quickConnect with
  | .ok connFd => connFd ∉ process.openFds
  | .error _ => True

instance (calls : OutboundCalls) (process : Process) : Decidable (Legal calls process) :=
  match connected : calls.quickConnect with
  | .ok connFd => decidable_of_iff (connFd ∉ process.openFds) (by simp [Legal, connected])
  | .error _ => .isTrue (by simp [Legal, connected])

end PlainOutbound

section Runs

variable {filter : BaseFilter} {process : Process}

namespace PlainInbound

variable {calls : InboundCalls}

theorem onPipeMessage_parsed {message : Message} {clientAddr : SockAddr}
    (parsed : parseClientId message.senderId = .ok clientAddr) :
    (onPipeMessage calls message).run process =
      if calls.sendto then
        .ok () (process.record (.delivered clientAddr.destination message.binaryMessage))
      else .error (.dynamicAssert "sendto failed") process := by
  simp only [onPipeMessage, parsed, dynamicAssert]
  cases calls.sendto <;> rfl

theorem onPipeMessage_unparsed {message : Message} {exn : Exn}
    (refused : parseClientId message.senderId = .error exn) :
    (onPipeMessage calls message).run process = .error exn process := by
  simp only [onPipeMessage, refused]
  rfl

theorem onClientMessage_run :
    (onClientMessage filter calls).run process =
      match calls.recvfrom with
      | none => .error (.dynamicAssert "recvfrom failed") process
      | some (source, datagram) =>
        let taken := process.record (.taken source calls.leftover datagram)
        match filter.convertForward (datagram.take dgramBufferSize) with
        | none => .error .undefinedBehaviour taken
        | some result =>
          if result.length ≤ stringMaxSize then .ok ⟨clientId source calls.leftover, result⟩ taken
          else .error .lengthError taken := by
  cases received : calls.recvfrom with
  | none =>
      simp only [onClientMessage, received]
      rfl
  | some pair =>
      rcases pair with ⟨source, datagram⟩
      simp only [onClientMessage, received, converted]
      cases filter.convertForward (datagram.take dgramBufferSize) with
      | none => rfl
      | some result =>
          simp only
          split <;> rfl

end PlainInbound

namespace PlainOutbound

variable {calls : OutboundCalls}

theorem onPipeMessage_known {message : Message} {connFd : Fd}
    (known : process.connectionMap.client2server message.senderId = some connFd) :
    (onPipeMessage calls message).run process =
      (quickSend calls.send connFd message.binaryMessage).run process := by
  simp [onPipeMessage, known]

theorem onPipeMessage_new {message : Message}
    (new : process.connectionMap.client2server message.senderId = none) :
    (onPipeMessage calls message).run process =
      match calls.quickConnect with
      | .error what => .error (.runtimeError what) process
      | .ok connFd =>
        if calls.epollCtl then
          (quickSend calls.send connFd message.binaryMessage).run
            (process.connect message.senderId connFd)
        else .error epollError { process with
          openFds := insert connFd process.openFds
          trace := process.trace ++ [.opened message.senderId connFd] } := by
  cases connected : calls.quickConnect with
  | error what =>
      simp [onPipeMessage, new, quickConnect, connected]
      rfl
  | ok connFd =>
      cases registered : calls.epollCtl <;>
        simp [onPipeMessage, new, quickConnect, connected, epollAddFd, registered, record,
          Process.record, Process.connect]

variable {activeFd : Fd} {senderId : Bytes}

theorem onServerMessage_failed (failed : calls.recv = none) :
    (onServerMessage filter calls activeFd).run process =
      .error (.dynamicAssert "recv failed") process := by
  simp only [onServerMessage, failed]
  rfl

theorem onServerMessage_data {datagram : Bytes} (received : calls.recv = some datagram)
    (some_bytes : datagram ≠ [])
    (known : process.connectionMap.server2client activeFd = some senderId) :
    (onServerMessage filter calls activeFd).run process =
      let got := process.record (.received activeFd datagram)
      match filter.convertBackward (datagram.take dgramBufferSize) with
      | none => .error .undefinedBehaviour got
      | some result =>
        if result.length ≤ stringMaxSize then .ok ⟨senderId, result⟩ got
        else .error .lengthError got := by
  have kept : (datagram.take dgramBufferSize).length ≠ 0 := by
    simpa [dgramBufferSize] using some_bytes
  simp only [onServerMessage, received, kept, if_false]
  cases converted : filter.convertBackward (datagram.take dgramBufferSize) with
  | none =>
      simp [record, Process.record, known, Handler.converted]
      rfl
  | some result =>
      simp only [record, Process.record, Handler.converted]
      by_cases fits : result.length ≤ stringMaxSize
      · simp [fits, known]
      · simp [fits, known]
        rfl

/-- A connFd that the map does not contain never gets past the assertion. -/
theorem onServerMessage_unknown (filter : BaseFilter) (calls : OutboundCalls)
    (absent : process.connectionMap.server2client activeFd = none) :
    ∃ exn process', (onServerMessage filter calls activeFd).run process = .error exn process' := by
  have still : (process.connectionMap.delServer activeFd).server2client activeFd = none := by
    simp [InjectiveConnectionMapping.delServer]
  cases received : calls.recv with
  | none => exact ⟨_, _, onServerMessage_failed received⟩
  | some datagram =>
      by_cases kept : (datagram.take dgramBufferSize).length = 0
      · simp only [onServerMessage, received, kept, if_true, retire, record, epollDelFd, closeEx]
        cases calls.epollCtl with
        | false => simp [Process.record]
        | true =>
            cases calls.close with
            | some code => simp [Process.record]
            | none =>
                simp [Process.record, still]
                exact ⟨_, _, rfl⟩
      · simp only [onServerMessage, received, kept, if_false, record]
        simp [Process.record, absent]
        exact ⟨_, _, rfl⟩

/-- An empty datagram on a connFd that the map contains: its pair is deleted, and the assertion
after it fails. -/
theorem onServerMessage_empty (received : calls.recv = some [])
    (known : process.connectionMap.server2client activeFd = some senderId) :
    (onServerMessage filter calls activeFd).run process =
      let got := process.record (.received activeFd [])
      if calls.epollCtl then
        match calls.close with
        | none => .error unknownConnFd (got.retire senderId activeFd)
        | some code => .error (.runtimeError ("close failed. error code: " ++ code))
            { got.retire senderId activeFd with openFds := process.openFds }
      else .error epollError got := by
  have deleted := process.connectionMap.delServer_eq known
  cases registered : calls.epollCtl with
  | false =>
      simp [onServerMessage, received, record, Process.record, retire, epollDelFd, registered]
  | true =>
      cases closed : calls.close with
      | none =>
          simp [onServerMessage, received, record, Process.record, retire, epollDelFd, registered,
            closeEx, closed, deleted, Process.retire]
          rfl
      | some code =>
          simp [onServerMessage, received, record, Process.record, retire, epollDelFd, registered,
            closeEx, closed, deleted, Process.retire]

end PlainOutbound

end Runs

end UdpForwarder.Plain
