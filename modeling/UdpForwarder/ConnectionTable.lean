import UdpForwarder.System

/-! `PlainOutbound` on its own: its connection table over any sequence of messages from the pipe
and datagrams from servers, and which of these it survives. -/

namespace UdpForwarder.ConnectionTable

open Filters Handler Ipc Listener Plain Transition

/-- The pairs of the map are the connections, the fds of the pairs those that are registered
besides the pipe, and those that are open besides the fds from before the loop. -/
structure Tied (setup : Setup) (process : Process) : Prop where
  inverse : process.connectionMap.MutuallyInverse
  registered : ∀ connFd, (∃ clientId, process.connectionMap.server2client connFd = some clientId) ↔
    connFd ∈ process.outboundSet ∧ connFd ≠ setup.outboundPipe
  opened : ∀ connFd, (∃ clientId, process.connectionMap.server2client connFd = some clientId) ↔
    connFd ∈ process.openFds ∧ connFd ∉ setup.openFds
  kept : setup.openFds ⊆ process.openFds

variable {setup : Setup} {process process' : Process} {message : Message} {connFd : Fd}

theorem tied_start (setup : Setup) : Tied setup setup.startProcess where
  inverse := PartialMap.mutuallyInverse_empty
  registered connFd := by simp [Setup.startProcess, InjectiveConnectionMapping.empty]
  opened connFd := by
    simp only [Setup.startProcess, InjectiveConnectionMapping.empty, PartialMap.empty_apply]
    constructor
    · rintro ⟨clientId, impossible⟩
      cases impossible
    · rintro ⟨present, absent⟩
      exact absurd present absent
  kept := Finset.Subset.refl _

theorem Tied.record (tied : Tied setup process) (event : Event) :
    Tied setup (process.record event) :=
  ⟨tied.inverse, tied.registered, tied.opened, tied.kept⟩

theorem Tied.emit (tied : Tied setup process) (connFd : Fd) (datagram : Bytes) :
    Tied setup (process.emit connFd datagram) := by
  rw [Process.emit]
  split
  · exact tied
  · exact tied.record _

theorem Tied.fresh (tied : Tied setup process) (fresh : connFd ∉ process.openFds) :
    process.connectionMap.server2client connFd = none ∧ connFd ∉ setup.openFds ∧
      connFd ≠ setup.outboundPipe := by
  refine ⟨?_, fun present => fresh (tied.kept present), ?_⟩
  · by_contra present
    rcases Option.ne_none_iff_exists'.mp present with ⟨clientId, entry⟩
    exact fresh ((tied.opened connFd).mp ⟨clientId, entry⟩).1
  · intro same
    exact fresh (same ▸ tied.kept setup.outboundPipe_open)

theorem Tied.connect (tied : Tied setup process) {clientId : Bytes}
    (absent : process.connectionMap.client2server clientId = none)
    (fresh : connFd ∉ process.openFds) : Tied setup (process.connect clientId connFd) := by
  rcases tied.fresh fresh with ⟨free, notBase, notPipe⟩
  have entry : ∀ other, (∃ client,
      (process.connect clientId connFd).connectionMap.server2client other = some client) ↔
        other = connFd ∨ ∃ client, process.connectionMap.server2client other = some client := by
    intro other
    simp only [Process.connect, InjectiveConnectionMapping.add]
    by_cases same : other = connFd
    · simp [same]
    · rw [PartialMap.assign_other _ _ same]
      simp [same]
  refine ⟨tied.inverse.assign absent free, ?_, ?_, ?_⟩
  · intro other
    rw [entry, tied.registered]
    simp only [Process.connect, Finset.mem_insert]
    by_cases same : other = connFd
    · simp [same, notPipe]
    · simp [same]
  · intro other
    rw [entry, tied.opened]
    simp only [Process.connect, Finset.mem_insert]
    by_cases same : other = connFd
    · simp [same, notBase]
    · simp [same]
  · exact fun fd member => Finset.mem_insert_of_mem (tied.kept member)

theorem Tied.emitted (tied : Tied setup process) (emitted : Emitted process message process') :
    Tied setup process' := by
  cases emitted with
  | known entry => exact tied.emit _ _
  | new absent fresh => exact (tied.connect absent fresh).emit _ _

theorem Tied.received {filter : BaseFilter} {activeFd : Fd} (tied : Tied setup process)
    (received : Received filter process activeFd message process') : Tied setup process' := by
  cases received
  exact tied.record _

/-- What can wake `PlainOutbound`. -/
inductive Wake where
  | pipe (message : Message)
  | server (activeFd : Fd)

def onEvent (setup : Setup) (calls : OutboundCalls) : Wake → Handler (List Message)
  | .pipe message => silent (setup.outbound.onPipeMessage calls message)
  | .server activeFd => setup.outbound.onMessage calls activeFd

/-- A server's datagram arrives on a registered fd, and `quick_connect` returns a free number. -/
def Possible (setup : Setup) (process : Process) (calls : OutboundCalls) : Wake → Prop
  | .pipe _ => PlainOutbound.Legal calls process
  | .server activeFd => PlainOutbound.Legal calls process ∧
      activeFd ∈ process.outboundSet ∧ activeFd ≠ setup.outboundPipe

instance (setup : Setup) (process : Process) (calls : OutboundCalls) :
    (wake : Wake) → Decidable (Possible setup process calls wake)
  | .pipe _ => inferInstanceAs (Decidable (PlainOutbound.Legal calls process))
  | .server activeFd => inferInstanceAs (Decidable (PlainOutbound.Legal calls process ∧
      activeFd ∈ process.outboundSet ∧ activeFd ≠ setup.outboundPipe))

def step (setup : Setup) (process : Process) : OutboundCalls × Wake → Option Process
  | (calls, wake) =>
    if Possible setup process calls wake then
      match (onEvent setup calls wake).run process with
      | .ok _ process' => some process'
      | .error _ _ => none
    else none

/-- Between two events `PlainOutbound` sent a message on a connection or received one. -/
theorem step_cases {calls : OutboundCalls} {wake : Wake}
    (taken : step setup process (calls, wake) = some process') :
    (∃ message, wake = .pipe message ∧ Emitted process message process') ∨
      ∃ activeFd message, wake = .server activeFd ∧
        Received setup.filter process activeFd message process' := by
  simp only [step] at taken
  split at taken
  · rename_i possible
    cases outcome : (onEvent setup calls wake).run process with
    | error exn final =>
        rw [outcome] at taken
        cases taken
    | ok messages final =>
        rw [outcome] at taken
        injection taken with same
        subst same
        cases wake with
        | pipe message =>
            exact Or.inl ⟨message, rfl, PlainOutbound.onPipeMessage_ok possible (silent_ok outcome)⟩
        | server activeFd =>
            rcases outbound_onMessage_ok outcome with ⟨message, _, received⟩
            exact Or.inr ⟨activeFd, message, rfl, received⟩
  · cases taken

theorem tied_reachable (reached : Reachable (step setup) setup.startProcess process) :
    Tied setup process := by
  apply reached.invariant (tied_start setup)
  rintro before ⟨calls, wake⟩ after _ tied taken
  rcases step_cases taken with ⟨message, _, emitted⟩ | ⟨activeFd, message, _, received⟩
  · exact tied.emitted emitted
  · exact tied.received received

/-- The connection table between any two events, and with it at most one connection for a
client. -/
theorem connection_table (reached : Reachable (step setup) setup.startProcess process) :
    (∀ clientId connFd, process.connectionMap.client2server clientId = some connFd ↔
      process.connectionMap.server2client connFd = some clientId) ∧
    (∀ connFd, (∃ clientId, process.connectionMap.server2client connFd = some clientId) ↔
      connFd ∈ process.outboundSet ∧ connFd ≠ setup.outboundPipe) ∧
    (∀ connFd, (∃ clientId, process.connectionMap.server2client connFd = some clientId) ↔
      connFd ∈ process.openFds ∧ connFd ∉ setup.openFds) ∧
    (∀ clientId first second, process.connectionMap.server2client first = some clientId →
      process.connectionMap.server2client second = some clientId → first = second) := by
  have tied := tied_reachable reached
  refine ⟨tied.inverse, tied.registered, tied.opened, ?_⟩
  intro clientId first second one two
  have left := (tied.inverse clientId first).mpr one
  have right := (tied.inverse clientId second).mpr two
  exact Option.some.inj (left.symm.trans right)

structure Succeed (calls : OutboundCalls) : Prop where
  connected : ∃ connFd, calls.quickConnect = .ok connFd
  registered : calls.epollCtl = true
  sent : calls.send.failure = none
  received : ∃ datagram, calls.recv = some datagram
  closed : calls.close = none

/-- The handler returns to the loop, and an fd whose `recv` returned 0 takes its own pair with
it and no other. -/
def Survives (setup : Setup) (process : Process) (calls : OutboundCalls) (wake : Wake) : Prop :=
  ∃ messages process', (onEvent setup calls wake).run process = .ok messages process' ∧
    ∀ activeFd clientId, wake = .server activeFd → calls.recv = some [] →
      process.connectionMap.server2client activeFd = some clientId →
        process'.connectionMap = ⟨process.connectionMap.client2server.erase clientId,
          process.connectionMap.server2client.erase activeFd⟩

/-- A message from the pipe, or a server's datagram that is not empty and that the filter
converts. -/
def Harmless (setup : Setup) (calls : OutboundCalls) : Wake → Prop
  | .pipe _ => True
  | .server _ => ∃ datagram result, calls.recv = some datagram ∧ datagram ≠ [] ∧
      setup.filter.convertBackward (datagram.take dgramBufferSize) = some result ∧
      result.length ≤ stringMaxSize

variable {calls : OutboundCalls} {wake : Wake}

theorem pipe_returns (succeed : Succeed calls) (process : Process) (message : Message) :
    ∃ process', (PlainOutbound.onPipeMessage calls message).run process = .ok () process' := by
  have sends : ∀ connFd data process, (quickSend calls.send connFd data).run process =
      .ok () (process.emit connFd data) := by
    intro connFd data process
    rw [quickSend_run, succeed.sent, if_neg (by simp)]
  cases entry : process.connectionMap.client2server message.senderId with
  | some connFd => exact ⟨_, (PlainOutbound.onPipeMessage_known entry).trans (sends _ _ _)⟩
  | none =>
      rcases succeed.connected with ⟨connFd, connected⟩
      refine ⟨(process.connect message.senderId connFd).emit connFd message.binaryMessage, ?_⟩
      rw [PlainOutbound.onPipeMessage_new entry, connected]
      simp only [succeed.registered, if_true]
      exact sends _ _ _

/-- An empty datagram retires its connection and ends the process: the pair is gone from the map
when the assertion looks it up. -/
theorem server_retired {activeFd : Fd} {clientId : Bytes} (succeed : Succeed calls)
    (known : process.connectionMap.server2client activeFd = some clientId)
    (empty : calls.recv = some []) :
    (onEvent setup calls (.server activeFd)).run process = .error PlainOutbound.unknownConnFd
      ((process.record (.received activeFd [])).retire clientId activeFd) := by
  rw [onEvent, outbound_onMessage_run, PlainOutbound.onServerMessage_empty empty known]
  simp only [succeed.registered, succeed.closed, if_true]

theorem survives_iff (reached : Reachable (step setup) setup.startProcess process)
    (possible : Possible setup process calls wake) (succeed : Succeed calls) :
    Survives setup process calls wake ↔ Harmless setup calls wake := by
  have tied := tied_reachable reached
  cases wake with
  | pipe message =>
      refine ⟨fun _ => trivial, fun _ => ?_⟩
      rcases pipe_returns succeed process message with ⟨process', returned⟩
      refine ⟨[], process', ?_, fun activeFd clientId impossible => by cases impossible⟩
      rw [onEvent, silent_run]
      simp only [Setup.outbound, returned]
  | server activeFd =>
      rcases possible with ⟨_, registered⟩
      rcases (tied.registered activeFd).mpr registered with ⟨clientId, known⟩
      rcases succeed.received with ⟨datagram, received⟩
      by_cases nothing : datagram = []
      · subst nothing
        constructor
        · rintro ⟨messages, process', returned, _⟩
          rw [server_retired succeed known received] at returned
          cases returned
        · rintro ⟨other, result, again, some_bytes, _⟩
          rw [received, Option.some.injEq] at again
          exact absurd again.symm some_bytes
      · constructor
        · rintro ⟨messages, process', returned, _⟩
          rw [onEvent, outbound_onMessage_run,
            PlainOutbound.onServerMessage_data received nothing known] at returned
          cases converted : setup.filter.convertBackward (datagram.take dgramBufferSize) with
          | none =>
              simp only [converted] at returned
              cases returned
          | some result =>
              refine ⟨datagram, result, received, nothing, converted, ?_⟩
              by_contra long
              simp only [converted, long, if_false] at returned
              cases returned
        · rintro ⟨other, result, again, _, converted, bound⟩
          rw [received, Option.some.injEq] at again
          subst again
          refine ⟨[⟨clientId, result⟩], process.record (.received activeFd datagram), ?_, ?_⟩
          · rw [onEvent, outbound_onMessage_run,
              PlainOutbound.onServerMessage_data received nothing known]
            simp only [converted, bound, if_true]
          · intro fd client _ empty
            rw [received, Option.some.injEq] at empty
            exact absurd empty nothing

/-- Calls that succeed: `quick_connect` returns `connFd`, and `recv` returns `datagram`. -/
def succeeding (connFd : Fd) (datagram : Bytes) : OutboundCalls where
  quickConnect := .ok connFd
  epollCtl := true
  send := ⟨0, none⟩
  recv := some datagram
  close := none

def firstSetup : Setup := Setup.unfiltered 4096 4096 (by decide) (by decide)

def firstProcess : Process := (firstSetup.startProcess.connect [1] 8).emit 8 [2]

private theorem first_step : step firstSetup firstSetup.startProcess
    (succeeding 8 [], .pipe ⟨[1], [2]⟩) = some firstProcess := by
  rfl

theorem connection_table_first :
    (∃ clientId, firstProcess.connectionMap.server2client 8 = some clientId) ∧
      ∀ first second, firstProcess.connectionMap.server2client first = some [1] →
        firstProcess.connectionMap.server2client second = some [1] → first = second := by
  have table := connection_table (Reachable.single _ first_step)
  exact ⟨(table.2.1 8).mpr (by decide), table.2.2.2 [1]⟩

theorem survives_iff_first :
    Survives firstSetup firstProcess (succeeding 9 [7]) (.server 8) :=
  (survives_iff (Reachable.single _ first_step) (by decide)
    ⟨⟨9, rfl⟩, rfl, rfl, ⟨[7], rfl⟩, rfl⟩).mpr ⟨[7], [7], rfl, by decide, rfl, by decide⟩

theorem survives_empty_datagram :
    Reachable (step firstSetup) firstSetup.startProcess firstProcess ∧
      Possible firstSetup firstProcess (succeeding 9 []) (.server 8) ∧
      Succeed (succeeding 9 []) ∧
      ¬ Survives firstSetup firstProcess (succeeding 9 []) (.server 8) ∧
      (onEvent firstSetup (succeeding 9 []) (.server 8)).run firstProcess =
        .error PlainOutbound.unknownConnFd
          ((firstProcess.record (.received 8 [])).retire [1] 8) := by
  have succeed : Succeed (succeeding 9 []) := ⟨⟨9, rfl⟩, rfl, rfl, ⟨[], rfl⟩, rfl⟩
  have known : firstProcess.connectionMap.server2client 8 = some [1] := by decide
  have thrown : (onEvent firstSetup (succeeding 9 []) (.server 8)).run firstProcess =
      .error PlainOutbound.unknownConnFd
        ((firstProcess.record (.received 8 [])).retire [1] 8) :=
    server_retired succeed known rfl
  refine ⟨Reachable.single _ first_step, by decide, succeed, ?_, thrown⟩
  rintro ⟨messages, process', returned, _⟩
  rw [thrown] at returned
  cases returned

end UdpForwarder.ConnectionTable
