import UdpForwarder.Plain

/-! What a pass through each handler can come to: the state it leaves when it returns, and what
it has done before it throws. -/

namespace UdpForwarder.Plain

open ClientId Filters Handler Ipc

inductive Taken (filter : BaseFilter) (process : Process) : Message → Process → Prop where
  | intro (source : SourceAddr) (leftover : Leftover) (datagram result : Bytes)
      (converted : filter.convertForward (datagram.take dgramBufferSize) = some result)
      (bound : result.length ≤ stringMaxSize) :
      Taken filter process ⟨clientId source leftover, result⟩
        (process.record (.taken source leftover datagram))

inductive NotTaken (process : Process) : Exn → Process → Prop where
  | failed : NotTaken process (.dynamicAssert "recvfrom failed") process
  | unconverted (source : SourceAddr) (leftover : Leftover) (datagram : Bytes) {exn : Exn}
      (other : exn ≠ parseClientIdError) :
      NotTaken process exn (process.record (.taken source leftover datagram))

inductive Delivered (process : Process) (message : Message) : Process → Prop where
  | intro {clientAddr : SockAddr} (parsed : parseClientId message.senderId = .ok clientAddr) :
      Delivered process message
        (process.record (.delivered clientAddr.destination message.binaryMessage))

inductive NotDelivered (process : Process) (message : Message) : Exn → Process → Prop where
  | unparsed {exn : Exn} (refused : parseClientId message.senderId = .error exn) :
      NotDelivered process message exn process
  | unsent : NotDelivered process message (.dynamicAssert "sendto failed") process

inductive Received (filter : BaseFilter) (process : Process) (activeFd : Fd) :
    Message → Process → Prop where
  | intro {senderId : Bytes} (datagram result : Bytes) (some_bytes : datagram ≠ [])
      (known : process.connectionMap.server2client activeFd = some senderId)
      (converted : filter.convertBackward (datagram.take dgramBufferSize) = some result)
      (bound : result.length ≤ stringMaxSize) :
      Received filter process activeFd ⟨senderId, result⟩
        (process.record (.received activeFd datagram))

/-- `retired` leaves the assertion failed, or `close_ex`: only then is the fd still open. -/
inductive NotReceived (process : Process) (activeFd : Fd) : Exn → Process → Prop where
  | failed : NotReceived process activeFd (.dynamicAssert "recv failed") process
  | kept {senderId : Bytes} (datagram : Bytes) {exn : Exn}
      (known : process.connectionMap.server2client activeFd = some senderId)
      (other : exn ≠ parseClientIdError) :
      NotReceived process activeFd exn (process.record (.received activeFd datagram))
  | retired {senderId : Bytes} {exn : Exn} (openFds : Finset Fd)
      (known : process.connectionMap.server2client activeFd = some senderId)
      (other : exn ≠ parseClientIdError) :
      NotReceived process activeFd exn
        { (process.record (.received activeFd [])).retire senderId activeFd with openFds }

inductive Emitted (process : Process) (message : Message) : Process → Prop where
  | known {connFd : Fd}
      (known : process.connectionMap.client2server message.senderId = some connFd) :
      Emitted process message (process.emit connFd message.binaryMessage)
  | new {connFd : Fd}
      (absent : process.connectionMap.client2server message.senderId = none)
      (fresh : connFd ∉ process.openFds) :
      Emitted process message
        ((process.connect message.senderId connFd).emit connFd message.binaryMessage)

inductive NotEmitted (process : Process) (message : Message) : Exn → Process → Prop where
  | untouched {exn : Exn} (other : exn ≠ parseClientIdError) :
      NotEmitted process message exn process
  | halfOpened {connFd : Fd}
      (absent : process.connectionMap.client2server message.senderId = none)
      (fresh : connFd ∉ process.openFds) :
      NotEmitted process message epollError
        { process with
          openFds := insert connFd process.openFds
          trace := process.trace ++ [.opened message.senderId connFd] }
  | connected {connFd : Fd} {exn : Exn}
      (absent : process.connectionMap.client2server message.senderId = none)
      (fresh : connFd ∉ process.openFds) (other : exn ≠ parseClientIdError) :
      NotEmitted process message exn (process.connect message.senderId connFd)

variable {filter : BaseFilter} {process process' : Process} {message : Message} {exn : Exn}

namespace PlainInbound

variable {calls : InboundCalls}

theorem onClientMessage_returned
    (ran : (onClientMessage filter calls).run process = .ok message process') :
    ∃ source datagram, calls.recvfrom = some (source, datagram) ∧
      message.senderId = clientId source calls.leftover ∧
      filter.convertForward (datagram.take dgramBufferSize) = some message.binaryMessage ∧
      message.binaryMessage.length ≤ stringMaxSize ∧
      process' = process.record (.taken source calls.leftover datagram) := by
  rw [onClientMessage_run] at ran
  cases received : calls.recvfrom with
  | none =>
      rw [received] at ran
      cases ran
  | some pair =>
      rcases pair with ⟨source, datagram⟩
      rw [received] at ran
      cases converted : filter.convertForward (datagram.take dgramBufferSize) with
      | none =>
          simp only [converted] at ran
          cases ran
      | some result =>
          simp only [converted] at ran
          split at ran
          · rename_i bound
            injection ran with message process
            subst message process
            exact ⟨source, datagram, rfl, rfl, converted, bound, rfl⟩
          · cases ran

theorem onClientMessage_ok
    (ran : (onClientMessage filter calls).run process = .ok message process') :
    Taken filter process message process' := by
  rcases onClientMessage_returned ran with ⟨source, datagram, _, sender, converted, bound, rfl⟩
  rcases message with ⟨senderId, result⟩
  subst sender
  exact .intro source calls.leftover datagram result converted bound

theorem onClientMessage_error
    (ran : (onClientMessage filter calls).run process = .error exn process') :
    NotTaken process exn process' := by
  rw [onClientMessage_run] at ran
  cases received : calls.recvfrom with
  | none =>
      rw [received] at ran
      injection ran with exn process
      subst exn process
      exact .failed
  | some pair =>
      rcases pair with ⟨source, datagram⟩
      rw [received] at ran
      cases converted : filter.convertForward (datagram.take dgramBufferSize) with
      | none =>
          simp only [converted] at ran
          injection ran with exn process
          subst exn process
          exact .unconverted source calls.leftover datagram (by decide)
      | some result =>
          simp only [converted] at ran
          split at ran
          · cases ran
          · injection ran with exn process
            subst exn process
            exact .unconverted source calls.leftover datagram (by decide)

theorem onPipeMessage_ok (ran : (onPipeMessage calls message).run process = .ok () process') :
    Delivered process message process' := by
  cases parsed : parseClientId message.senderId with
  | error exn =>
      rw [onPipeMessage_unparsed parsed] at ran
      cases ran
  | ok clientAddr =>
      rw [onPipeMessage_parsed parsed] at ran
      split at ran
      · injection ran with _ process
        subst process
        exact .intro parsed
      · cases ran

theorem onPipeMessage_error
    (ran : (onPipeMessage calls message).run process = .error exn process') :
    NotDelivered process message exn process' := by
  cases parsed : parseClientId message.senderId with
  | error refusal =>
      rw [onPipeMessage_unparsed parsed] at ran
      injection ran with exn process
      subst exn process
      exact .unparsed parsed
  | ok clientAddr =>
      rw [onPipeMessage_parsed parsed] at ran
      split at ran
      · cases ran
      · injection ran with exn process
        subst exn process
        exact .unsent

end PlainInbound

namespace PlainOutbound

variable {calls : OutboundCalls} {activeFd : Fd} {senderId : Bytes}

theorem quickSend_ok {connFd : Fd} {data : Bytes} {script : SendScript}
    (ran : (quickSend script connFd data).run process = .ok () process') :
    process' = process.emit connFd data := by
  rw [quickSend_run] at ran
  split at ran
  · cases ran
  · injection ran with _ process
    exact process.symm

theorem quickSend_error {connFd : Fd} {data : Bytes} {script : SendScript}
    (ran : (quickSend script connFd data).run process = .error exn process') :
    process' = process ∧ exn = sendError script := by
  rw [quickSend_run] at ran
  split at ran
  · injection ran with exn process
    exact ⟨process.symm, exn.symm⟩
  · cases ran

theorem sendError_other (script : SendScript) : sendError script ≠ parseClientIdError := by
  intro same
  cases same

theorem onPipeMessage_ok (legal : Legal calls process)
    (ran : (onPipeMessage calls message).run process = .ok () process') :
    Emitted process message process' := by
  cases entry : process.connectionMap.client2server message.senderId with
  | some connFd =>
      rw [onPipeMessage_known entry] at ran
      rw [quickSend_ok ran]
      exact .known entry
  | none =>
      rw [onPipeMessage_new entry] at ran
      cases connected : calls.quickConnect with
      | error what =>
          rw [connected] at ran
          cases ran
      | ok connFd =>
          rw [Legal, connected] at legal
          simp only [connected] at ran
          split at ran
          · rw [quickSend_ok ran]
            exact .new entry legal
          · cases ran

theorem onPipeMessage_error (legal : Legal calls process)
    (ran : (onPipeMessage calls message).run process = .error exn process') :
    NotEmitted process message exn process' := by
  cases entry : process.connectionMap.client2server message.senderId with
  | some connFd =>
      rw [onPipeMessage_known entry] at ran
      rcases quickSend_error ran with ⟨rfl, rfl⟩
      exact .untouched (sendError_other _)
  | none =>
      rw [onPipeMessage_new entry] at ran
      cases connected : calls.quickConnect with
      | error what =>
          rw [connected] at ran
          injection ran with exn process
          subst exn process
          exact .untouched (by intro same; cases same)
      | ok connFd =>
          rw [Legal, connected] at legal
          simp only [connected] at ran
          split at ran
          · rcases quickSend_error ran with ⟨rfl, rfl⟩
            exact .connected entry legal (sendError_other _)
          · injection ran with exn process
            subst exn process
            exact .halfOpened entry legal

theorem onServerMessage_returned
    (ran : (onServerMessage filter calls activeFd).run process = .ok message process') :
    ∃ datagram, calls.recv = some datagram ∧ datagram ≠ [] ∧
      process.connectionMap.server2client activeFd = some message.senderId ∧
      filter.convertBackward (datagram.take dgramBufferSize) = some message.binaryMessage ∧
      message.binaryMessage.length ≤ stringMaxSize ∧
      process' = process.record (.received activeFd datagram) := by
  cases entry : process.connectionMap.server2client activeFd with
  | none =>
      rcases onServerMessage_unknown filter calls entry with ⟨exn, other, thrown⟩
      rw [thrown] at ran
      cases ran
  | some senderId =>
      cases received : calls.recv with
      | none =>
          rw [onServerMessage_failed received] at ran
          cases ran
      | some datagram =>
          by_cases nothing : datagram = []
          · subst nothing
            rw [onServerMessage_empty received entry] at ran
            simp only at ran
            split at ran
            · split at ran <;> cases ran
            · cases ran
          · rw [onServerMessage_data received nothing entry] at ran
            cases converted : filter.convertBackward (datagram.take dgramBufferSize) with
            | none =>
                simp only [converted] at ran
                cases ran
            | some result =>
                simp only [converted] at ran
                split at ran
                · rename_i bound
                  injection ran with message process
                  subst message process
                  exact ⟨datagram, rfl, nothing, rfl, converted, bound, rfl⟩
                · cases ran

theorem onServerMessage_ok
    (ran : (onServerMessage filter calls activeFd).run process = .ok message process') :
    Received filter process activeFd message process' := by
  rcases onServerMessage_returned ran with ⟨datagram, _, some_bytes, known, converted, bound, rfl⟩
  exact .intro datagram message.binaryMessage some_bytes known converted bound

theorem onServerMessage_error
    (known : process.connectionMap.server2client activeFd = some senderId)
    (ran : (onServerMessage filter calls activeFd).run process = .error exn process') :
    NotReceived process activeFd exn process' := by
  cases received : calls.recv with
  | none =>
      rw [onServerMessage_failed received] at ran
      injection ran with exn process
      subst exn process
      exact .failed
  | some datagram =>
      by_cases nothing : datagram = []
      · subst nothing
        rw [onServerMessage_empty received known] at ran
        simp only at ran
        split at ran
        · split at ran
          · injection ran with exn process
            subst exn process
            exact .retired _ known (by decide)
          · injection ran with exn process
            subst exn process
            exact .retired _ known (by intro same; cases same)
        · injection ran with exn process
          subst exn process
          exact .kept [] known (by decide)
      · rw [onServerMessage_data received nothing known] at ran
        cases converted : filter.convertBackward (datagram.take dgramBufferSize) with
        | none =>
            simp only [converted] at ran
            injection ran with exn process
            subst exn process
            exact .kept datagram known (by decide)
        | some result =>
            simp only [converted] at ran
            split at ran
            · cases ran
            · injection ran with exn process
              subst exn process
              exact .kept datagram known (by decide)

end PlainOutbound

end UdpForwarder.Plain
