import UdpForwarder.EndToEnd
import UdpForwarder.Sequence
import Mathlib.Data.Finset.Card
import Mathlib.Data.Finset.Dedup

/-! What a forwarder keeps for the clients it has seen: in every run their sockets only add up. -/

namespace UdpForwarder.Descriptors

open ClientId ConnectionTable Forwarding Ipc Isolation Plain Refinement Relay Transition

def openedPart : Event → Option (Bytes × Fd)
  | .opened clientId connFd => some (clientId, connFd)
  | _ => none

def allOpened (trace : List Event) : List (Bytes × Fd) := trace.filterMap openedPart

def served (trace : List Event) : Finset Bytes := ((allOpened trace).map Prod.fst).toFinset

section Steps

variable {trace later : List Event} {id : Bytes} {connFd : Fd}

theorem mem_allOpened : (id, connFd) ∈ allOpened trace ↔ .opened id connFd ∈ trace := by
  rw [allOpened, List.mem_filterMap]
  constructor
  · rintro ⟨event, member, part⟩
    cases event <;> simp only [openedPart, reduceCtorEq, Option.some.injEq, Prod.mk.injEq] at part
    rcases part with ⟨rfl, rfl⟩
    exact member
  · intro member
    exact ⟨_, member, rfl⟩

theorem mem_served : id ∈ served trace ↔ ∃ connFd, .opened id connFd ∈ trace := by
  rw [served, List.mem_toFinset, List.mem_map]
  constructor
  · rintro ⟨⟨_, connFd⟩, member, rfl⟩
    exact ⟨connFd, mem_allOpened.mp member⟩
  · rintro ⟨connFd, member⟩
    exact ⟨(id, connFd), mem_allOpened.mpr member, rfl⟩

theorem allOpened_append (unopened : later.filterMap openedPart = []) :
    allOpened (trace ++ later) = allOpened trace := by
  rw [allOpened, List.filterMap_append, unopened, List.append_nil, allOpened]

theorem allOpened_connect : allOpened (trace ++ [.opened id connFd]) =
    allOpened trace ++ [(id, connFd)] := List.filterMap_append

end Steps

variable {setup : Setup}

/-- One open fd for each client a connection was opened for, besides those from before. -/
structure Accumulated (setup : Setup) (process : Process) : Prop where
  once : ((allOpened process.trace).map Prod.fst).Nodup
  count : process.openFds.card = setup.openFds.card + (allOpened process.trace).length

/-- A client that has sent something has a connection, or a message on its way to get one. -/
def Attended (relay : Relay) : Prop :=
  ∀ id, Known relay.process.trace id →
    (∃ connFd, .opened id connFd ∈ relay.process.trace) ∨
      ∃ message ∈ relay.forward, message.senderId = id

variable {process process' : Process} {message : Message} {relay relay' : Relay}

theorem accumulated_start (setup : Setup) : Accumulated setup setup.startProcess where
  once := List.nodup_nil
  count := rfl

theorem Accumulated.record (accumulated : Accumulated setup process) {event : Event}
    (unopened : openedPart event = none) : Accumulated setup (process.record event) := by
  have same : allOpened (process.record event).trace = allOpened process.trace :=
    allOpened_append (by simp [unopened])
  constructor
  · rw [same]
    exact accumulated.once
  · rw [same]
    exact accumulated.count

theorem Accumulated.emit (accumulated : Accumulated setup process) (connFd : Fd)
    (datagram : Bytes) : Accumulated setup (process.emit connFd datagram) := by
  rw [Process.emit]
  split
  · exact accumulated
  · exact accumulated.record rfl

theorem Accumulated.connect (accumulated : Accumulated setup process) {id : Bytes} {connFd : Fd}
    (recorded : Recorded process) (absent : process.connectionMap.client2server id = none)
    (fresh : connFd ∉ process.openFds) : Accumulated setup (process.connect id connFd) := by
  have new : id ∉ (allOpened process.trace).map Prod.fst := by
    intro member
    obtain ⟨⟨_, other⟩, opened, rfl⟩ := List.mem_map.mp member
    rw [mem_allOpened, recorded, absent] at opened
    cases opened
  constructor
  · rw [Process.connect_trace, allOpened_connect, List.map_append]
    exact accumulated.once.append (List.nodup_singleton id) (by simpa using new)
  · rw [Process.connect_trace, allOpened_connect, List.length_append, Process.connect,
      Finset.card_insert_of_notMem fresh, accumulated.count]
    rfl

/-- Only `quick_connect` changes the number of open fds, as long as nothing is thrown. -/
theorem Accumulated.move (running : relay.fault = none) (sound : Sound setup relay)
    (accumulated : Accumulated setup relay.process) (move : Move setup relay relay') :
    relay'.fault = none → Accumulated setup relay'.process := by
  intro running'
  cases move with
  | take taken =>
      cases taken
      exact accumulated.record rfl
  | deliver queue delivered =>
      cases delivered
      exact accumulated.record rfl
  | receive received =>
      cases received
      exact accumulated.record rfl
  | emit queue emitted =>
      cases emitted with
      | known entry => exact accumulated.emit _ _
      | new absent fresh =>
          exact (accumulated.connect (sound.recorded running) absent fresh).emit _ _
  | notTaken | notDelivered | notReceived | notEmitted | broken => cases running'

theorem known_of_append {past later : List Event} {id : Bytes} (known : Known (past ++ later) id)
    (untaken : later.filterMap Sequence.takenPart = []) : Known past id := by
  obtain ⟨source, leftover, datagram, taken, same⟩ := known
  rcases List.mem_append.mp taken with earlier | last
  · exact ⟨source, leftover, datagram, earlier, same⟩
  · have part : (source, leftover, datagram) ∈ later.filterMap Sequence.takenPart :=
      List.mem_filterMap.mpr ⟨_, last, rfl⟩
    rw [untaken] at part
    cases part

theorem Attended.append {forward backward : List Message} {fault : Option Exn}
    (attended : Attended relay) {later : List Event}
    (trace : process'.trace = relay.process.trace ++ later)
    (untaken : later.filterMap Sequence.takenPart = [])
    (queue : ∀ message ∈ relay.forward, message ∈ forward ∨
      ∃ connFd, .opened message.senderId connFd ∈ process'.trace) :
    Attended ⟨process', forward, backward, fault⟩ := by
  intro id known
  rw [trace] at known
  rcases attended id (known_of_append known untaken) with ⟨connFd, opened⟩ |
    ⟨message, waiting, rfl⟩
  · left
    rw [trace]
    exact ⟨connFd, List.mem_append_left _ opened⟩
  · rcases queue message waiting with still | opened
    · exact .inr ⟨message, still, rfl⟩
    · exact .inl opened

theorem Attended.move (running : relay.fault = none) (sound : Sound setup relay)
    (attended : Attended relay) (move : Move setup relay relay') :
    relay'.fault = none → Attended relay' := by
  intro running'
  cases move with
  | take taken =>
      rcases taken with ⟨source, leftover, datagram, result, _, _⟩
      intro id known
      obtain ⟨source', leftover', datagram', taken, rfl⟩ := known
      rcases List.mem_append.mp taken with earlier | last
      · rcases attended _ ⟨source', leftover', datagram', earlier, rfl⟩ with ⟨connFd, opened⟩ |
          ⟨message, waiting, same⟩
        · exact .inl ⟨connFd, List.mem_append_left _ opened⟩
        · exact .inr ⟨message, List.mem_append_left _ waiting, same⟩
      · cases List.mem_singleton.mp last
        exact .inr ⟨_, List.mem_append_right _ (List.mem_singleton_self _), rfl⟩
  | deliver queue delivered =>
      cases delivered
      exact attended.append rfl rfl fun _ waiting => .inl waiting
  | receive received =>
      cases received
      exact attended.append rfl rfl fun _ waiting => .inl waiting
  | @emit message rest process' queue emitted =>
      have leaves : ∀ trace : List Event, (∃ connFd, .opened message.senderId connFd ∈ trace) →
          ∀ waiting ∈ relay.forward, waiting ∈ rest ∨
            ∃ connFd, .opened waiting.senderId connFd ∈ trace := by
        intro trace opened waiting member
        rw [queue] at member
        rcases List.mem_cons.mp member with rfl | later
        · exact .inr opened
        · exact .inl later
      cases emitted with
      | @known connFd entry =>
          have opened : .opened message.senderId connFd ∈ relay.process.trace :=
            (sound.recorded running _ _).mpr entry
          refine attended.append (Process.emit_trace _ _ _) ?_ (leaves _ ⟨connFd, ?_⟩)
          · split <;> rfl
          · rw [Process.emit_trace]
            exact List.mem_append_left _ opened
      | @new connFd absent fresh =>
          have trace : ((relay.process.connect message.senderId connFd).emit connFd
              message.binaryMessage).trace = relay.process.trace ++
                (.opened message.senderId connFd :: if message.binaryMessage = [] then []
                  else [.sent connFd message.binaryMessage]) := by
            rw [Process.emit_trace, Process.connect_trace, List.append_assoc]
            rfl
          refine attended.append trace ?_ (leaves _ ⟨connFd, ?_⟩)
          · split <;> rfl
          · rw [Process.emit_trace, Process.connect_trace]
            exact List.mem_append_left _ (List.mem_append_right _ (List.mem_singleton_self _))
  | notTaken | notDelivered | notReceived | notEmitted | broken => cases running'

theorem attended_start (setup : Setup) : Attended (Relay.start setup) := by
  rintro id ⟨source, leftover, datagram, taken, _⟩
  cases taken

theorem relay_accumulates (reached : Reachable (Relay.step setup) (Relay.start setup) relay)
    (running : relay.fault = none) : Accumulated setup relay.process ∧ Attended relay := by
  have both : Sound setup relay ∧
      (relay.fault = none → Accumulated setup relay.process ∧ Attended relay) := by
    apply reachable_invariant reached
    · exact ⟨sound_start setup, fun _ => ⟨accumulated_start setup, attended_start setup⟩⟩
    · intro before after running tied inv move
      refine ⟨inv.1.move running tied move, fun running' => ?_⟩
      obtain ⟨accumulated, attended⟩ := inv.2 running
      exact ⟨accumulated.move running inv.1 move running',
        attended.move running inv.1 move running'⟩
  exact both.2 running

variable {state state' : State}

theorem trace_prefix (reached : Reachable (State.step setup) (State.start setup) state)
    (later : Reachable (State.step setup) state state') :
    state.process.trace <+: state'.process.trace := by
  apply later.invariant (List.prefix_refl _)
  intro before action after between grown taken
  rw [EndToEnd.trace_grows (reached.trans between) taken]
  exact grown.trans (List.prefix_append _ _)

/-- While a forwarder runs, its open fds are those it began with and one for each client it has
served, and the clients it has heard of are those it has served and those in the pipe. It gives
none of them up: what is open stays open, and the connection of a client stays its connection. -/
theorem descriptors_accumulate (reached : Reachable (State.step setup) (State.start setup) state)
    (later : Reachable (State.step setup) state state') (running : state'.fault = none) :
    ∃ messages, InTransit state' messages ∧
      state'.process.openFds.card = setup.openFds.card + (served state'.process.trace).card ∧
      (∀ id, Known state'.process.trace id ↔
        id ∈ served state'.process.trace ∨ ∃ message ∈ messages, message.senderId = id) ∧
      state.process.openFds ⊆ state'.process.openFds ∧
      ∀ id connFd, state.process.connectionMap.client2server id = some connFd →
        state'.process.connectionMap.client2server id = some connFd := by
  rcases refines_reachable (reached.trans later) with ⟨relay, abstract, refines⟩
  have running' : relay.fault = none := refines.fault ▸ running
  have sound := sound_reachable abstract
  obtain ⟨accumulated, attended⟩ := relay_accumulates abstract running'
  rw [← refines.process] at accumulated
  have alive : state.fault = none := State.running_of_reachable later running
  rcases refines_reachable reached with ⟨relay₀, abstract₀, refines₀⟩
  have alive' : relay₀.fault = none := refines₀.fault ▸ alive
  have tied₀ := Relay.tied_reachable abstract₀ alive'
  have recorded₀ := (sound_reachable abstract₀).recorded alive'
  have tied := Relay.tied_reachable abstract running'
  have recorded := sound.recorded running'
  rw [← refines₀.process] at tied₀ recorded₀
  rw [← refines.process] at tied recorded
  have grown := trace_prefix reached later
  have kept (id : Bytes) (connFd : Fd)
      (entry : state.process.connectionMap.client2server id = some connFd) :
      state'.process.connectionMap.client2server id = some connFd :=
    (recorded id connFd).mp (grown.subset ((recorded₀ id connFd).mpr entry))
  refine ⟨relay.forward, ⟨fits_forward sound running', refines.toOutbound running⟩, ?_, ?_, ?_,
    kept⟩
  · rw [accumulated.count, served, List.toFinset_card_of_nodup accumulated.once, List.length_map]
  · intro id
    rw [refines.process, mem_served]
    constructor
    · intro known
      exact attended id known
    · rintro (⟨connFd, opened⟩ | ⟨message, waiting, rfl⟩)
      · exact known_of_opened sound.explained opened
      · exact (sound.forward running' message waiting).1.known
  · intro fd present
    by_cases base : fd ∈ setup.openFds
    · exact tied.kept base
    · obtain ⟨id, entry⟩ := (tied₀.opened fd).mpr ⟨present, base⟩
      have connection := kept id fd ((tied₀.inverse id fd).mpr entry)
      exact ((tied.opened fd).mp ⟨id, (tied.inverse id fd).mp connection⟩).1

private theorem served_and_waiting : (run (State.step firstSetup) (State.start firstSetup)
    (Delivery.takes 0 ++ Delivery.handles (succeeding 8 []) ++ Delivery.takes 255)).map
      (fun state => (state.fault, state.process.trace)) =
    some (none, [.taken Delivery.loopback (Delivery.filled 0) [1],
      .opened (clientId Delivery.loopback (Delivery.filled 0)) 8, .sent 8 [1],
      .taken Delivery.loopback (Delivery.filled 255) [1]]) := by
  decide +kernel

theorem descriptors_accumulate_first : ∃ state messages,
    Reachable (State.step firstSetup) (State.start firstSetup) state ∧ state.fault = none ∧
      InTransit state messages ∧ state.process.openFds.card = 9 ∧
      ∃ message ∈ messages,
        message.senderId = clientId Delivery.loopback (Delivery.filled 255) := by
  rcases reachable_of_observed _ _ served_and_waiting with ⟨state, reached, seen⟩
  rcases Prod.mk.inj seen with ⟨running, trace⟩
  obtain ⟨messages, pending, count, clients, _⟩ :=
    descriptors_accumulate Reachable.refl reached running
  have one : (served state.process.trace).card = 1 := by
    rw [trace]
    decide
  refine ⟨state, messages, reached, running, pending, by rw [count, one]; rfl, ?_⟩
  have known : Known state.process.trace
      (clientId Delivery.loopback (Delivery.filled 255)) :=
    ⟨Delivery.loopback, Delivery.filled 255, [1], by rw [trace]; decide, rfl⟩
  refine ((clients _).mp known).resolve_left ?_
  rw [trace]
  decide

end UdpForwarder.Descriptors
