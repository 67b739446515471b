import UdpForwarder.Relay
import UdpForwarder.Lib.History

/-! Where everything the forwarder sends comes from: an account of its trace in every run of the
relay. -/

namespace UdpForwarder.Isolation

open ClientId ConnectionTable Filters History Ipc Plain Relay Transition

def FromClient (filter : BaseFilter) (past : List Event) (message : Message) : Prop :=
  ∃ source leftover datagram, .taken source leftover datagram ∈ past ∧
    message.senderId = clientId source leftover ∧
    filter.convertForward (datagram.take dgramBufferSize) = some message.binaryMessage

def FromServer (filter : BaseFilter) (past : List Event) (message : Message) : Prop :=
  ∃ connFd datagram, .received connFd datagram ∈ past ∧ .opened message.senderId connFd ∈ past ∧
    filter.convertBackward (datagram.take dgramBufferSize) = some message.binaryMessage

def Known (past : List Event) (id : Bytes) : Prop :=
  ∃ source leftover datagram, .taken source leftover datagram ∈ past ∧ id = clientId source leftover

/-- What must have happened before an event. -/
def Justified (filter : BaseFilter) (past : List Event) : Event → Prop
  | .taken _ _ _ => True
  | .opened id connFd => Known past id ∧ (∀ other, .opened other connFd ∉ past) ∧
      ∀ fd, .opened id fd ∉ past
  | .sent connFd datagram => datagram ≠ [] ∧
      ∃ id, .opened id connFd ∈ past ∧ FromClient filter past ⟨id, datagram⟩
  | .received connFd _ => ∃ id, .opened id connFd ∈ past
  | .delivered address datagram => ∃ source leftover, address = source.bytes ∧
      FromServer filter past ⟨clientId source leftover, datagram⟩

variable {filter : BaseFilter} {past : List Event} {message : Message}

theorem FromClient.known (sound : FromClient filter past message) :
    Known past message.senderId := by
  rcases sound with ⟨source, leftover, datagram, taken, same, _⟩
  exact ⟨source, leftover, datagram, taken, same⟩

theorem FromClient.append (sound : FromClient filter past message) (later : List Event) :
    FromClient filter (past ++ later) message := by
  rcases sound with ⟨source, leftover, datagram, taken, same, converted⟩
  exact ⟨source, leftover, datagram, List.mem_append_left _ taken, same, converted⟩

theorem FromServer.append (sound : FromServer filter past message) (later : List Event) :
    FromServer filter (past ++ later) message := by
  rcases sound with ⟨connFd, datagram, received, opened, converted⟩
  exact ⟨connFd, datagram, List.mem_append_left _ received, List.mem_append_left _ opened,
    converted⟩

theorem Known.append {id : Bytes} (known : Known past id) (later : List Event) :
    Known (past ++ later) id := by
  rcases known with ⟨source, leftover, datagram, taken, same⟩
  exact ⟨source, leftover, datagram, List.mem_append_left _ taken, same⟩

/-- The map holds the connections that were opened. -/
def Recorded (process : Process) : Prop :=
  ∀ id connFd, .opened id connFd ∈ process.trace ↔
    process.connectionMap.client2server id = some connFd

/-- The account of a relay: its trace explains itself, no id was refused, and as long as it runs
the messages on their way are accounted for. -/
structure Sound (setup : Setup) (relay : Relay) : Prop where
  explained : Explained (Justified setup.filter) relay.process.trace
  parsed : relay.fault ≠ some parseClientIdError
  recorded : relay.fault = none → Recorded relay.process
  forward : relay.fault = none → ∀ message ∈ relay.forward,
    FromClient setup.filter relay.process.trace message ∧
      message.binaryMessage.length ≤ stringMaxSize
  backward : relay.fault = none → ∀ message ∈ relay.backward,
    FromServer setup.filter relay.process.trace message ∧
      message.binaryMessage.length ≤ stringMaxSize

variable {setup : Setup} {process process' : Process} {connFd : Fd} {id : Bytes}

theorem Recorded.record (recorded : Recorded process) {event : Event}
    (other : ∀ id connFd, event ≠ .opened id connFd) : Recorded (process.record event) := by
  intro id connFd
  rw [Process.record_trace, Process.record_connectionMap, ← recorded id connFd]
  simp [(other id connFd).symm]

theorem Recorded.emit (recorded : Recorded process) (connFd : Fd) (datagram : Bytes) :
    Recorded (process.emit connFd datagram) := by
  rw [Process.emit]
  split
  · exact recorded
  · exact recorded.record (by simp)

theorem Recorded.connect (recorded : Recorded process)
    (absent : process.connectionMap.client2server id = none) :
    Recorded (process.connect id connFd) := by
  intro other fd
  simp only [Process.connect, InjectiveConnectionMapping.add,
    List.mem_append, List.mem_singleton, Event.opened.injEq]
  by_cases same : other = id
  · subst same
    have never : .opened other fd ∉ process.trace := by
      rw [recorded other fd, absent]
      simp
    simp [never, eq_comm]
  · rw [PartialMap.assign_other _ _ same, recorded other fd]
    simp [same]

theorem never_opened (tied : Tied setup process) (recorded : Recorded process)
    (fresh : connFd ∉ process.openFds) (other : Bytes) :
    .opened other connFd ∉ process.trace := by
  intro opened
  have entry := (tied.inverse other connFd).mp ((recorded other connFd).mp opened)
  rw [(tied.fresh fresh).1] at entry
  cases entry

theorem opened_of_server (tied : Tied setup process) (recorded : Recorded process)
    (known : process.connectionMap.server2client connFd = some id) :
    .opened id connFd ∈ process.trace :=
  (recorded id connFd).mpr ((tied.inverse id connFd).mpr known)

theorem known_of_opened (explained : Explained (Justified filter) past)
    (opened : .opened id connFd ∈ past) : Known past id := by
  rcases List.append_of_mem opened with ⟨before, after, split⟩
  rcases explained before _ after split with ⟨known, _, _⟩
  rw [split]
  exact known.append _

/-- The id of an answer is that of a client, so that it is parsed and leads back to it. -/
theorem delivered_justified (explained : Explained (Justified filter) past)
    (origin : FromServer filter past message) :
    ∃ clientAddr, parseClientId message.senderId = .ok clientAddr ∧
      Justified filter past (.delivered clientAddr.destination message.binaryMessage) := by
  rcases origin with ⟨connFd, datagram, received, opened, converted⟩
  rcases known_of_opened explained opened with ⟨source, leftover, _, _, same⟩
  refine ⟨recvfromAddr source leftover, ?_, source, leftover, ?_, ?_⟩
  · rw [same]
    exact parseClientId_makeClientId _
  · exact destination_recvfromAddr source leftover
  · rw [same] at opened
    exact ⟨connFd, datagram, received, opened, converted⟩

section Steps

variable {relay relay' : Relay}

theorem explained_taken (sound : Sound setup relay) (source : SourceAddr) (leftover : Leftover)
    (datagram : Bytes) : Explained (Justified setup.filter)
      (relay.process.record (.taken source leftover datagram)).trace :=
  explained_snoc sound.explained trivial

theorem explained_received (running : relay.fault = none) (tied : Tied setup relay.process)
    (sound : Sound setup relay)
    (known : relay.process.connectionMap.server2client connFd = some id) (datagram : Bytes) :
    Explained (Justified setup.filter) (relay.process.record (.received connFd datagram)).trace :=
  explained_snoc sound.explained ⟨id, opened_of_server tied (sound.recorded running) known⟩

theorem explained_opened (running : relay.fault = none) (tied : Tied setup relay.process)
    (sound : Sound setup relay) (member : message ∈ relay.forward)
    (absent : relay.process.connectionMap.client2server message.senderId = none)
    (fresh : connFd ∉ relay.process.openFds) : Explained (Justified setup.filter)
      (relay.process.trace ++ [.opened message.senderId connFd]) := by
  refine explained_snoc sound.explained ⟨(sound.forward running message member).1.known,
    never_opened tied (sound.recorded running) fresh, ?_⟩
  intro fd opened
  rw [sound.recorded running message.senderId fd, absent] at opened
  cases opened

theorem explained_emit (explained : Explained (Justified setup.filter) process.trace)
    (opened : .opened message.senderId connFd ∈ process.trace)
    (origin : FromClient setup.filter process.trace message) :
    Explained (Justified setup.filter) (process.emit connFd message.binaryMessage).trace := by
  rw [Process.emit]
  split
  · exact explained
  · rename_i some_bytes
    exact explained_snoc explained ⟨some_bytes, message.senderId, opened, origin⟩

theorem Sound.forward_append (running : relay.fault = none) (sound : Sound setup relay)
    (later : List Event) (member : message ∈ relay.forward) :
    FromClient setup.filter (relay.process.trace ++ later) message ∧
      message.binaryMessage.length ≤ stringMaxSize := by
  have origin := sound.forward running message member
  exact ⟨origin.1.append later, origin.2⟩

theorem Sound.backward_append (running : relay.fault = none) (sound : Sound setup relay)
    (later : List Event) (member : message ∈ relay.backward) :
    FromServer setup.filter (relay.process.trace ++ later) message ∧
      message.binaryMessage.length ≤ stringMaxSize := by
  have origin := sound.backward running message member
  exact ⟨origin.1.append later, origin.2⟩

theorem Sound.take (running : relay.fault = none) (sound : Sound setup relay)
    (taken : Taken setup.filter relay.process message process') :
    Sound setup ⟨process', relay.forward ++ [message], relay.backward, none⟩ := by
  rcases taken with ⟨source, leftover, datagram, result, converted, bound⟩
  have origin : FromClient setup.filter
      (relay.process.record (.taken source leftover datagram)).trace
      ⟨clientId source leftover, result⟩ :=
    ⟨source, leftover, datagram, by simp, rfl, converted⟩
  refine ⟨explained_taken sound source leftover datagram, by simp, fun _ => ?_, fun _ => ?_,
    fun _ => ?_⟩
  · exact (sound.recorded running).record (by simp)
  · intro other member
    rcases List.mem_append.mp member with earlier | last
    · exact sound.forward_append running _ earlier
    · rw [List.mem_singleton.mp last]
      exact ⟨origin, bound⟩
  · intro other member
    exact sound.backward_append running _ member

theorem Sound.deliver {rest : List Message} (running : relay.fault = none)
    (sound : Sound setup relay) (queue : relay.backward = message :: rest)
    (delivered : Delivered relay.process message process') :
    Sound setup ⟨process', relay.forward, rest, none⟩ := by
  rcases delivered with ⟨parsed⟩
  rename_i clientAddr
  have origin := (sound.backward running message (by simp [queue])).1
  rcases delivered_justified sound.explained origin with ⟨other, again, justified⟩
  rw [parsed, Except.ok.injEq] at again
  subst again
  refine ⟨explained_snoc sound.explained justified, by simp, fun _ => ?_, fun _ => ?_, fun _ => ?_⟩
  · exact (sound.recorded running).record (by simp)
  · intro other member
    exact sound.forward_append running _ member
  · intro other member
    have present : other ∈ relay.backward := by
      rw [queue]
      exact List.mem_cons_of_mem _ member
    exact sound.backward_append running _ present

theorem Sound.receive {activeFd : Fd} (running : relay.fault = none)
    (tied : Tied setup relay.process) (sound : Sound setup relay)
    (received : Received setup.filter relay.process activeFd message process') :
    Sound setup ⟨process', relay.forward, relay.backward ++ [message], none⟩ := by
  rcases received with ⟨datagram, result, some_bytes, known, converted, bound⟩
  rename_i senderId
  have opened := opened_of_server tied (sound.recorded running) known
  have origin : FromServer setup.filter
      (relay.process.record (.received activeFd datagram)).trace ⟨senderId, result⟩ :=
    ⟨activeFd, datagram, by simp, List.mem_append_left _ opened, converted⟩
  refine ⟨explained_received running tied sound known datagram, by simp, fun _ => ?_, fun _ => ?_,
    fun _ => ?_⟩
  · exact (sound.recorded running).record (by simp)
  · intro other member
    exact sound.forward_append running _ member
  · intro other member
    rcases List.mem_append.mp member with earlier | last
    · exact sound.backward_append running _ earlier
    · rw [List.mem_singleton.mp last]
      exact ⟨origin, bound⟩

theorem Sound.emit {rest : List Message} (running : relay.fault = none)
    (tied : Tied setup relay.process) (sound : Sound setup relay)
    (queue : relay.forward = message :: rest) (emitted : Emitted relay.process message process') :
    Sound setup ⟨process', rest, relay.backward, none⟩ := by
  have member : message ∈ relay.forward := by simp [queue]
  have origin := (sound.forward running message member).1
  have longer : ∃ later, process'.trace = relay.process.trace ++ later := by
    cases emitted with
    | known entry => exact ⟨_, Process.emit_trace _ _ _⟩
    | new absent fresh =>
        rw [Process.emit_trace, Process.connect_trace, List.append_assoc]
        exact ⟨_, rfl⟩
  rcases longer with ⟨later, trace⟩
  refine ⟨?_, by simp, fun _ => ?_, fun _ => ?_, fun _ => ?_⟩
  · cases emitted with
    | known entry =>
        exact explained_emit sound.explained ((sound.recorded running _ _).mpr entry) origin
    | new absent fresh =>
        exact explained_emit (explained_opened running tied sound member absent fresh) (by simp)
          (origin.append _)
  · cases emitted with
    | known entry => exact (sound.recorded running).emit _ _
    | new absent fresh => exact ((sound.recorded running).connect absent).emit _ _
  · intro other waiting
    have present : other ∈ relay.forward := by
      rw [queue]
      exact List.mem_cons_of_mem _ waiting
    rw [trace]
    exact sound.forward_append running _ present
  · intro other present
    rw [trace]
    exact sound.backward_append running _ present

theorem sound_fault {forward backward : List Message} {exn : Exn}
    (explained : Explained (Justified setup.filter) process'.trace)
    (parsed : exn ≠ parseClientIdError) :
    Sound setup ⟨process', forward, backward, some exn⟩ :=
  ⟨explained, by simpa using parsed, by simp, by simp, by simp⟩

theorem Sound.move (running : relay.fault = none) (tied : Tied setup relay.process)
    (sound : Sound setup relay) (move : Move setup relay relay') : Sound setup relay' := by
  cases move with
  | take taken => exact sound.take running taken
  | deliver queue delivered => exact sound.deliver running queue delivered
  | receive received => exact sound.receive running tied received
  | emit queue emitted => exact sound.emit running tied queue emitted
  | notTaken threw =>
      cases threw with
      | failed => exact sound_fault sound.explained (by decide)
      | unconverted source leftover datagram other =>
          exact sound_fault (explained_taken sound source leftover datagram) other
  | @notDelivered message rest exn process' queue threw =>
      cases threw with
      | unparsed refused =>
          have origin := (sound.backward running message (by simp [queue])).1
          rcases delivered_justified sound.explained origin with ⟨clientAddr, parsed, _⟩
          rw [parsed] at refused
          cases refused
      | unsent => exact sound_fault sound.explained (by decide)
  | notReceived threw =>
      cases threw with
      | failed => exact sound_fault sound.explained (by decide)
      | kept datagram known other =>
          exact sound_fault (explained_received running tied sound known datagram) other
      | retired openFds known other =>
          exact sound_fault (explained_received running tied sound known []) other
  | @notEmitted message rest exn process' queue threw =>
      have member : message ∈ relay.forward := by simp [queue]
      cases threw with
      | untouched other => exact sound_fault sound.explained other
      | halfOpened absent fresh =>
          exact sound_fault (explained_opened running tied sound member absent fresh) (by decide)
      | connected absent fresh other =>
          exact sound_fault (explained_opened running tied sound member absent fresh) other
  | broken other => exact sound_fault sound.explained other

end Steps

theorem sound_start (setup : Setup) : Sound setup (start setup) where
  explained := explained_nil
  parsed := by simp [start]
  recorded _ := by
    intro id connFd
    simp [start, Setup.startProcess, InjectiveConnectionMapping.empty]
  forward _ := by simp [start]
  backward _ := by simp [start]

theorem sound_reachable {relay : Relay}
    (reached : Reachable (Relay.step setup) (start setup) relay) : Sound setup relay := by
  apply reachable_invariant reached (sound_start setup)
  intro before after running tied sound move
  exact sound.move running tied move

end UdpForwarder.Isolation
