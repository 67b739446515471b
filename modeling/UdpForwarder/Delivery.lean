import UdpForwarder.Refinement

/-! What the two threads do for the clients: nothing of one client reaches another, and a source
address keeps its connection as long as the bytes around it are the same. -/

namespace UdpForwarder.Delivery

open ClientId Filters History Isolation Listener Plain Refinement Transition
open ConnectionTable (firstSetup succeeding)

variable {setup : Setup} {state : State} {filter : BaseFilter} {past : List Event}

theorem account (reached : Reachable (State.step setup) (State.start setup) state) :
    Explained (Justified setup.filter) state.process.trace ∧
      state.fault ≠ some parseClientIdError := by
  rcases refines_reachable reached with ⟨relay, abstract, refines⟩
  have sound := sound_reachable abstract
  rw [refines.process, refines.fault]
  exact ⟨sound.explained, sound.parsed⟩

/-- A connection was opened for a datagram that came from an address. -/
def OpenedFor (past : List Event) (connFd : Fd) (address : Bytes) : Prop :=
  ∃ source leftover datagram, source.bytes = address ∧ .taken source leftover datagram ∈ past ∧
    .opened (clientId source leftover) connFd ∈ past

theorem opened_once_fd (explained : Explained (Justified filter) past) {first second : Bytes}
    {connFd : Fd} (one : .opened first connFd ∈ past) (two : .opened second connFd ∈ past) :
    first = second := by
  have same := explained.unique
    (fun early late => ∃ id other, early = .opened id connFd ∧ late = .opened other connFd)
    (by
      rintro past _ _ ⟨id, other, rfl, rfl⟩ ⟨_, never, _⟩
      exact never id)
    one two ⟨first, second, rfl, rfl⟩ ⟨second, first, rfl, rfl⟩
  exact (Event.opened.inj same).1

theorem opened_once_id (explained : Explained (Justified filter) past) {id : Bytes}
    {first second : Fd} (one : .opened id first ∈ past) (two : .opened id second ∈ past) :
    first = second := by
  have same := explained.unique
    (fun early late => ∃ fd other, early = .opened id fd ∧ late = .opened id other)
    (by
      rintro past _ _ ⟨fd, other, rfl, rfl⟩ ⟨_, _, never⟩
      exact never fd)
    one two ⟨first, second, rfl, rfl⟩ ⟨second, first, rfl, rfl⟩
  exact (Event.opened.inj same).2

theorem openedFor_unique (explained : Explained (Justified filter) past) {connFd : Fd}
    {first second : Bytes} (one : OpenedFor past connFd first)
    (two : OpenedFor past connFd second) : first = second := by
  rcases one with ⟨source, leftover, _, rfl, _, opened⟩
  rcases two with ⟨source', leftover', _, rfl, _, opened'⟩
  rw [clientId_source (opened_once_fd explained opened opened')]

theorem openedFor_of_opened (explained : Explained (Justified filter) past) {connFd : Fd}
    {source : SourceAddr} {leftover : Leftover}
    (opened : .opened (clientId source leftover) connFd ∈ past) :
    OpenedFor past connFd source.bytes := by
  rcases known_of_opened explained opened with ⟨origin, rest, datagram, taken, same⟩
  rw [same] at opened
  exact ⟨origin, rest, datagram, by rw [clientId_source same], taken, opened⟩

/-- No cross-client delivery, in every state the two threads reach. -/
theorem no_cross_client_delivery
    (reached : Reachable (State.step setup) (State.start setup) state) :
    (∀ past address message future,
      state.process.trace = past ++ .delivered address message :: future →
      ∃ connFd datagram, OpenedFor past connFd address ∧
        (∀ other, OpenedFor past connFd other → other = address) ∧
        .received connFd datagram ∈ past ∧
        setup.filter.convertBackward (datagram.take dgramBufferSize) = some message) ∧
    (∀ past connFd message future,
      state.process.trace = past ++ .sent connFd message :: future →
      ∃ address source leftover datagram, OpenedFor past connFd address ∧
        (∀ other, OpenedFor past connFd other → other = address) ∧
        source.bytes = address ∧ .taken source leftover datagram ∈ past ∧
        setup.filter.convertForward (datagram.take dgramBufferSize) = some message) ∧
    state.fault ≠ some parseClientIdError := by
  rcases account reached with ⟨explained, parsed⟩
  refine ⟨?_, ?_, parsed⟩
  · intro past address message future split
    rcases explained past _ future split with
      ⟨source, leftover, rfl, connFd, datagram, received, opened, converted⟩
    have before : Explained (Justified setup.filter) past := (split ▸ explained).of_append
    have openedFor := openedFor_of_opened before opened
    exact ⟨connFd, datagram, openedFor, fun other also => openedFor_unique before also openedFor,
      received, converted⟩
  · intro past connFd message future split
    rcases explained past _ future split with
      ⟨_, id, opened, source, leftover, datagram, taken, same, converted⟩
    have before : Explained (Justified setup.filter) past := (split ▸ explained).of_append
    simp only at same
    subst same
    have openedFor := openedFor_of_opened before opened
    exact ⟨source.bytes, source, leftover, datagram, openedFor,
      fun other also => openedFor_unique before also openedFor, rfl, taken, converted⟩

def loopback : SourceAddr :=
  ⟨[2, 0, 42, 57, 127, 0, 0, 1, 0, 0, 0, 0, 0, 0, 0, 0], by decide⟩

/-- A local `SockAddr` on a stack of equal bytes. -/
def filled (byte : UInt8) : Leftover :=
  ⟨List.replicate 128 byte, List.replicate 4 byte, List.length_replicate, List.length_replicate⟩

def fromLoopback (byte : UInt8) : InboundCalls := ⟨some (loopback, [1]), filled byte, true⟩

def takes (byte : UInt8) : List State.Action :=
  [.epollWait (some [5]), .event (fromLoopback byte), .send 12, .send 136, .send 12, .send 1].map
    .inbound

def handles (calls : OutboundCalls) : List State.Action :=
  [.epollWait (some [4]), .event calls, .recv 12 calls, .recv 136 calls, .recv 12 calls,
    .recv 1 calls].map .outbound

def answers : List State.Action :=
  [.epollWait (some [8]), .event (succeeding 9 [2]), .send 12, .send 136, .send 12,
    .send 1].map .outbound

def delivers : List State.Action :=
  let calls := fromLoopback 0
  [.epollWait (some [3]), .event calls, .recv 12 calls, .recv 136 calls, .recv 12 calls,
    .recv 1 calls].map .inbound

def answeredTrace : List Event := [.taken loopback (filled 0) [1],
  .opened (clientId loopback (filled 0)) 8, .sent 8 [1], .received 8 [2],
  .delivered loopback.bytes [2]]

private theorem answered_run : (run (State.step firstSetup)
    (State.start firstSetup)
      (takes 0 ++ handles (succeeding 8 []) ++ answers ++ delivers)).map
      (fun state => state.process.trace) = some answeredTrace := by
  decide +kernel

theorem no_cross_client_delivery_answered :
    ∃ past address message, ∃ connFd datagram, OpenedFor past connFd address ∧
      address = loopback.bytes ∧ message = [2] ∧ .received connFd datagram ∈ past ∧
      firstSetup.filter.convertBackward (datagram.take dgramBufferSize) =
        some message := by
  rcases reachable_of_observed _ _ answered_run with ⟨state, reached, trace⟩
  rcases (no_cross_client_delivery reached).1 [.taken loopback (filled 0) [1],
      .opened (clientId loopback (filled 0)) 8, .sent 8 [1], .received 8 [2]] _ _ [] trace with
    ⟨connFd, datagram, openedFor, _, received, converted⟩
  exact ⟨_, _, _, connFd, datagram, openedFor, rfl, rfl, received, converted⟩

/-- Datagrams of one source address get one id and one connection, those of different source
addresses different ids. -/
def SessionAffinity (trace : List Event) : Prop :=
  ∀ source leftover datagram source' leftover' datagram',
    .taken source leftover datagram ∈ trace → .taken source' leftover' datagram' ∈ trace →
    (source = source' → clientId source leftover = clientId source' leftover' ∧
      ∀ connFd connFd', .opened (clientId source leftover) connFd ∈ trace →
        .opened (clientId source' leftover') connFd' ∈ trace → connFd = connFd') ∧
    (source ≠ source' → clientId source leftover ≠ clientId source' leftover')

/-- Whenever a source address came again, the local `SockAddr` held the same bytes around it. -/
def LeftoversAgree (trace : List Event) : Prop :=
  ∀ source leftover datagram leftover' datagram',
    .taken source leftover datagram ∈ trace → .taken source leftover' datagram' ∈ trace →
    LeftoverAgrees source leftover leftover'

theorem session_affinity_iff
    (reached : Reachable (State.step setup) (State.start setup) state) :
    SessionAffinity state.process.trace ↔ LeftoversAgree state.process.trace := by
  rcases account reached with ⟨explained, _⟩
  constructor
  · intro affinity source leftover datagram leftover' datagram' one two
    exact (clientId_eq_iff source leftover leftover').mp ((affinity _ _ _ _ _ _ one two).1 rfl).1
  · intro agree source leftover datagram source' leftover' datagram' one two
    constructor
    · rintro rfl
      have same := (clientId_eq_iff source leftover leftover').mpr (agree _ _ _ _ _ one two)
      refine ⟨same, fun connFd connFd' opened opened' => ?_⟩
      rw [same] at opened
      exact opened_once_id explained opened opened'
    · intro different same
      exact different (clientId_source same)

private theorem taken_twice (byte : UInt8) (trace : (run (State.step firstSetup)
    (State.start firstSetup) (takes 0 ++ takes byte)).map
      (fun state => state.process.trace) =
        some [.taken loopback (filled 0) [1], .taken loopback (filled byte) [1]]) :
    ∃ state,
      Reachable (State.step firstSetup) (State.start firstSetup)
        state ∧
      state.process.trace =
        [.taken loopback (filled 0) [1], .taken loopback (filled byte) [1]] :=
  reachable_of_observed _ _ trace

theorem session_affinity_iff_equal : ∃ state,
    Reachable (State.step firstSetup) (State.start firstSetup) state ∧
      state.process.trace = [.taken loopback (filled 0) [1], .taken loopback (filled 0) [1]] ∧
      SessionAffinity state.process.trace := by
  rcases taken_twice 0 (by decide +kernel) with ⟨state, reached, trace⟩
  refine ⟨state, reached, trace, (session_affinity_iff reached).mpr ?_⟩
  rw [trace]
  intro source leftover datagram leftover' datagram' one two
  simp only [List.mem_cons, Event.taken.injEq, List.not_mem_nil, or_false, or_self] at one two
  rw [one.2.1, two.2.1]
  exact ⟨rfl, rfl⟩

/-- Two datagrams of one address over different stacks. -/
theorem session_split : ∃ state,
    Reachable (State.step firstSetup) (State.start firstSetup) state ∧
      ¬ SessionAffinity state.process.trace := by
  rcases taken_twice 255 (by decide +kernel) with ⟨state, reached, trace⟩
  refine ⟨state, reached, fun affinity => ?_⟩
  rw [trace] at affinity
  have same := ((affinity loopback (filled 0) [1] loopback (filled 255) [1] (by simp)
    (by simp)).1 rfl).1
  exact absurd same (by decide)

end UdpForwarder.Delivery
