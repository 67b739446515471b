import UdpForwarder.Delivery

/-! `runForever` from its call on: the set-up of both threads, in any order of their steps, until
their loops are those of a forwarder. -/

namespace UdpForwarder.Startup

open ClientId ConnectionTable Filters Handler Ipc Listener Plain Transition

/-- What `runForever` is called with, in a process that has some fds open. -/
structure Config where
  filter : BaseFilter
  openFds : Finset Fd
  toOutboundCapacity : Nat
  toInboundCapacity : Nat
  toOutbound_pos : 0 < toOutboundCapacity
  toInbound_pos : 0 < toInboundCapacity

/-- The statement that `PlainInbound::listenForever` comes to next, with its locals and the
`ipcPipe` of the object. `share` is the second half of the assignment to `std::tie`. -/
inductive InboundPc where
  | makePipe
  | share (ipcPipe other : Fd)
  | listen (ipcPipe : Fd)
  | createEpoll (ipcPipe listenFd : Fd)
  | addListenFd (ipcPipe listenFd : Fd)
  | addIpcPipe (ipcPipe listenFd : Fd)
  | looping (ipcPipe listenFd : Fd)
  deriving DecidableEq

/-- The same of `PlainOutbound::listenForever`; its `ipcPipe` is read again by every statement. -/
inductive OutboundPc where
  | createEpoll
  | waitForPipe
  | addIpcPipe
  | looping (ipcPipe : Fd)
  deriving DecidableEq

/-- `nextHopPipe` is the `ipcPipe` of the `PlainOutbound` object, `none` for -1, and `inboundSet`
the interest list of the epoll instance of `PlainInbound`. -/
structure Program where
  inboundPc : InboundPc
  outboundPc : OutboundPc
  nextHopPipe : Option Fd
  inboundSet : Finset Fd
  state : State

/-- What the environment chooses for one step: what the call of a set-up statement returns, or
the choice of a loop. -/
inductive Action where
  | mkTcpPipe (outcome : Except String (Fd × Fd))
  | share
  | quickListen (outcome : Except String Fd)
  | inboundEpollCreate (epollFd : Option Fd)
  | inboundEpollCtl (done : Bool)
  | outboundEpollCreate (epollFd : Option Fd)
  | lookAtPipe
  | outboundEpollCtl (done : Bool)
  | inbound (action : Listener.Action InboundCalls)
  | outbound (action : Listener.Action OutboundCalls)

namespace Program

def inboundListener (config : Config) (inboundSet : Finset Fd) (ipcPipe listenFd : Fd) :
    Listener InboundCalls where
  pipe := ipcPipe
  capacity := config.toOutboundCapacity
  interest _ := inboundSet
  legal _ _ := true
  onMessage calls activeFd :=
    if activeFd = listenFd then do
      let message ← PlainInbound.onClientMessage config.filter calls
      return [message]
    else return []
  onPipeMessage := PlainInbound.onPipeMessage

def outboundListener (config : Config) (ipcPipe : Fd) : Listener OutboundCalls where
  pipe := ipcPipe
  capacity := config.toInboundCapacity
  interest := Process.outboundSet
  legal calls process := decide (PlainOutbound.Legal calls process)
  onMessage calls activeFd := do
    let message ← PlainOutbound.onServerMessage config.filter calls activeFd
    return [message]
  onPipeMessage := PlainOutbound.onPipeMessage

def start (config : Config) : Program where
  inboundPc := .makePipe
  outboundPc := .createEpoll
  nextHopPipe := none
  inboundSet := ∅
  state := ⟨⟨config.openFds, ∅, .empty, []⟩, ⟨[], .loop⟩, ⟨[], .loop⟩, [], [], none⟩

/-- An exception in the set-up of either thread ends the process. -/
def thrown (program : Program) (exn : Exn) : Program :=
  { program with state := { program.state with fault := some exn } }

def opened (program : Program) (fd : Fd) : Program :=
  { program with state := { program.state with
      process := { program.state.process with
        openFds := insert fd program.state.process.openFds } } }

def epollCreateFailed : Exn := .dynamicAssert "epoll_create1 failed"

variable (config : Config) (program : Program)

def stepInbound : Action → Option Program
  | .mkTcpPipe outcome =>
    match program.inboundPc, outcome with
    | .makePipe, .ok (first, second) =>
      let open_ := program.state.process.openFds
      if first ≠ second ∧ first ∉ open_ ∧ second ∉ open_ then
        some { (program.opened first).opened second with inboundPc := .share first second }
      else none
    | .makePipe, .error what => some (program.thrown (.runtimeError what))
    | _, _ => none
  | .share =>
    match program.inboundPc with
    | .share ipcPipe other =>
      some { program with inboundPc := .listen ipcPipe, nextHopPipe := some other }
    | _ => none
  | .quickListen outcome =>
    match program.inboundPc, outcome with
    | .listen ipcPipe, .ok listenFd =>
      if listenFd ∉ program.state.process.openFds then
        some { program.opened listenFd with inboundPc := .createEpoll ipcPipe listenFd }
      else none
    | .listen _, .error what => some (program.thrown (.runtimeError what))
    | _, _ => none
  | .inboundEpollCreate epollFd =>
    match program.inboundPc, epollFd with
    | .createEpoll ipcPipe listenFd, some epollFd =>
      if epollFd ∉ program.state.process.openFds then
        some { program.opened epollFd with inboundPc := .addListenFd ipcPipe listenFd }
      else none
    | .createEpoll _ _, none => some (program.thrown epollCreateFailed)
    | _, _ => none
  | .inboundEpollCtl done =>
    match program.inboundPc with
    | .addListenFd ipcPipe listenFd =>
      if done then
        some { program with
          inboundPc := .addIpcPipe ipcPipe listenFd
          inboundSet := insert listenFd program.inboundSet }
      else some (program.thrown Handler.epollError)
    | .addIpcPipe ipcPipe listenFd =>
      if done then
        some { program with
          inboundPc := .looping ipcPipe listenFd
          inboundSet := insert ipcPipe program.inboundSet }
      else some (program.thrown Handler.epollError)
    | _ => none
  | .inbound action =>
    match program.inboundPc with
    | .looping ipcPipe listenFd =>
      ((inboundListener config program.inboundSet ipcPipe listenFd).step
          program.state.inboundView action).map fun (view, fault) =>
        { program with state := ⟨view.process, view.thread, program.state.outbound,
            view.outgoing, view.incoming, fault⟩ }
    | _ => none
  | _ => none

def stepOutbound : Action → Option Program
  | .outboundEpollCreate epollFd =>
    match program.outboundPc, epollFd with
    | .createEpoll, some epollFd =>
      if epollFd ∉ program.state.process.openFds then
        some { program.opened epollFd with outboundPc := .waitForPipe }
      else none
    | .createEpoll, none => some (program.thrown epollCreateFailed)
    | _, _ => none
  | .lookAtPipe =>
    match program.outboundPc, program.nextHopPipe with
    | .waitForPipe, some _ => some { program with outboundPc := .addIpcPipe }
    | .waitForPipe, none => some program
    | _, _ => none
  | .outboundEpollCtl done =>
    match program.outboundPc, program.nextHopPipe with
    | .addIpcPipe, some ipcPipe =>
      if done then
        some { program with
          outboundPc := .looping ipcPipe
          state := { program.state with process := { program.state.process with
            outboundSet := insert ipcPipe program.state.process.outboundSet } } }
      else some (program.thrown Handler.epollError)
    | _, _ => none
  | .outbound action =>
    match program.outboundPc with
    | .looping ipcPipe =>
      ((outboundListener config ipcPipe).step program.state.outboundView action).map
        fun (view, fault) =>
          { program with state := ⟨view.process, program.state.inbound, view.thread,
              view.incoming, view.outgoing, fault⟩ }
    | _ => none
  | _ => none

def step (action : Action) : Option Program :=
  if program.state.fault.isSome then none
  else (program.stepInbound config action).or (program.stepOutbound config action)

end Program

section Rewire

/-- The process with other fds open and registered, on which the inbound loop does the same. -/
def rewired (openFds outboundSet : Finset Fd) (process : Process) : Process :=
  { process with openFds, outboundSet }

variable (openFds outboundSet : Finset Fd) (process : Process)

variable {openFds outboundSet}

end Rewire

/-- The cases of a step before the loops, and one case for each loop. -/
inductive Move (config : Config) (program : Program) : Program → Prop where
  | madePipe {first second : Fd} (at_ : program.inboundPc = .makePipe)
      (fresh : first ∉ program.state.process.openFds)
      (fresh' : second ∉ program.state.process.openFds) :
      Move config program
        { (program.opened first).opened second with inboundPc := .share first second }
  | shared {ipcPipe other : Fd} (at_ : program.inboundPc = .share ipcPipe other) :
      Move config program { program with inboundPc := .listen ipcPipe, nextHopPipe := some other }
  | listened {ipcPipe listenFd : Fd} (at_ : program.inboundPc = .listen ipcPipe)
      (fresh : listenFd ∉ program.state.process.openFds) :
      Move config program
        { program.opened listenFd with inboundPc := .createEpoll ipcPipe listenFd }
  | createdEpoll {ipcPipe listenFd epollFd : Fd}
      (at_ : program.inboundPc = .createEpoll ipcPipe listenFd) :
      Move config program
        { program.opened epollFd with inboundPc := .addListenFd ipcPipe listenFd }
  | addedListenFd {ipcPipe listenFd : Fd}
      (at_ : program.inboundPc = .addListenFd ipcPipe listenFd) :
      Move config program { program with
        inboundPc := .addIpcPipe ipcPipe listenFd
        inboundSet := insert listenFd program.inboundSet }
  | addedIpcPipe {ipcPipe listenFd : Fd} (at_ : program.inboundPc = .addIpcPipe ipcPipe listenFd) :
      Move config program { program with
        inboundPc := .looping ipcPipe listenFd
        inboundSet := insert ipcPipe program.inboundSet }
  | createdOutboundEpoll {epollFd : Fd} (at_ : program.outboundPc = .createEpoll) :
      Move config program { program.opened epollFd with outboundPc := .waitForPipe }
  | looked (at_ : program.outboundPc = .waitForPipe) :
      Move config program { program with outboundPc := .addIpcPipe }
  | waited : Move config program program
  | registered {ipcPipe : Fd} (at_ : program.outboundPc = .addIpcPipe)
      (pipe : program.nextHopPipe = some ipcPipe) :
      Move config program { program with
        outboundPc := .looping ipcPipe
        state := { program.state with process := { program.state.process with
          outboundSet := insert ipcPipe program.state.process.outboundSet } } }
  | inbound {ipcPipe listenFd : Fd} {action : Listener.Action InboundCalls} {view : View}
      {fault : Option Exn} (at_ : program.inboundPc = .looping ipcPipe listenFd)
      (taken : (Program.inboundListener config program.inboundSet ipcPipe listenFd).step
        program.state.inboundView action = some (view, fault)) :
      Move config program { program with state := ⟨view.process, view.thread,
        program.state.outbound, view.outgoing, view.incoming, fault⟩ }
  | outbound {ipcPipe : Fd} {action : Listener.Action OutboundCalls} {view : View}
      {fault : Option Exn} (at_ : program.outboundPc = .looping ipcPipe)
      (taken : (Program.outboundListener config ipcPipe).step program.state.outboundView action =
        some (view, fault)) :
      Move config program { program with state := ⟨view.process, program.state.inbound,
        view.thread, view.incoming, view.outgoing, fault⟩ }
  | threw {exn : Exn} (unready : (∀ ipcPipe listenFd,
        program.inboundPc ≠ .looping ipcPipe listenFd) ∨
        ∀ ipcPipe, program.outboundPc ≠ .looping ipcPipe) :
      Move config program (program.thrown exn)

variable {config : Config} {program program' : Program} {action : Action}

theorem move_of_stepInbound (taken : program.stepInbound config action = some program') :
    Move config program program' := by
  cases action with
  | mkTcpPipe outcome =>
      simp only [Program.stepInbound] at taken
      split at taken
      · rename_i first second at_
        simp only [Option.ite_none_right_eq_some, Option.some.injEq] at taken
        obtain ⟨⟨_, fresh, fresh'⟩, rfl⟩ := taken
        exact .madePipe at_ fresh fresh'
      · rename_i at_
        cases taken
        exact .threw (.inl (by simp [at_]))
      · cases taken
  | share =>
      simp only [Program.stepInbound] at taken
      split at taken
      · rename_i at_
        cases taken
        exact .shared at_
      · cases taken
  | quickListen outcome =>
      simp only [Program.stepInbound] at taken
      split at taken
      · rename_i at_
        simp only [Option.ite_none_right_eq_some, Option.some.injEq] at taken
        obtain ⟨fresh, rfl⟩ := taken
        exact .listened at_ fresh
      · rename_i at_
        cases taken
        exact .threw (.inl (by simp [at_]))
      · cases taken
  | inboundEpollCreate epollFd =>
      simp only [Program.stepInbound] at taken
      split at taken
      · rename_i at_
        simp only [Option.ite_none_right_eq_some, Option.some.injEq] at taken
        obtain ⟨_, rfl⟩ := taken
        exact .createdEpoll at_
      · rename_i at_
        cases taken
        exact .threw (.inl (by simp [at_]))
      · cases taken
  | inboundEpollCtl done =>
      simp only [Program.stepInbound] at taken
      split at taken
      · rename_i at_
        split at taken
        · cases taken
          exact .addedListenFd at_
        · cases taken
          exact .threw (.inl (by simp [at_]))
      · rename_i at_
        split at taken
        · cases taken
          exact .addedIpcPipe at_
        · cases taken
          exact .threw (.inl (by simp [at_]))
      · cases taken
  | inbound action =>
      simp only [Program.stepInbound] at taken
      split at taken
      · rename_i at_
        obtain ⟨⟨view, fault⟩, stepped, rfl⟩ := Option.map_eq_some_iff.mp taken
        exact .inbound at_ stepped
      · cases taken
  | outboundEpollCreate | lookAtPipe | outboundEpollCtl | outbound => cases taken

theorem move_of_stepOutbound (taken : program.stepOutbound config action = some program') :
    Move config program program' := by
  cases action with
  | outboundEpollCreate epollFd =>
      simp only [Program.stepOutbound] at taken
      split at taken
      · rename_i at_
        simp only [Option.ite_none_right_eq_some, Option.some.injEq] at taken
        obtain ⟨_, rfl⟩ := taken
        exact .createdOutboundEpoll at_
      · rename_i at_
        cases taken
        exact .threw (.inr (by simp [at_]))
      · cases taken
  | lookAtPipe =>
      simp only [Program.stepOutbound] at taken
      split at taken
      · rename_i at_ _
        cases taken
        exact .looked at_
      · cases taken
        exact .waited
      · cases taken
  | outboundEpollCtl done =>
      simp only [Program.stepOutbound] at taken
      split at taken
      · rename_i at_ pipe
        split at taken
        · cases taken
          exact .registered at_ pipe
        · cases taken
          exact .threw (.inr (by simp [at_]))
      · cases taken
  | outbound action =>
      simp only [Program.stepOutbound] at taken
      split at taken
      · rename_i at_
        obtain ⟨⟨view, fault⟩, stepped, rfl⟩ := Option.map_eq_some_iff.mp taken
        exact .outbound at_ stepped
      · cases taken
  | mkTcpPipe | share | quickListen | inboundEpollCreate | inboundEpollCtl | inbound => cases taken

theorem step_move (taken : program.step config action = some program') :
    program.state.fault = none ∧ Move config program program' := by
  simp only [Program.step] at taken
  split at taken
  · cases taken
  · rename_i alive
    refine ⟨by simpa using alive, ?_⟩
    rcases Option.or_eq_some_iff.mp taken with first | ⟨_, second⟩
    · exact move_of_stepInbound first
    · exact move_of_stepOutbound second

structure Suits (config : Config) (setup : Setup) : Prop where
  filter : setup.filter = config.filter
  toOutboundCapacity : setup.toOutboundCapacity = config.toOutboundCapacity
  toInboundCapacity : setup.toInboundCapacity = config.toInboundCapacity

/-- The forwarder that the threads of a program become, with the fds open at the time. -/
structure Agrees (config : Config) (setup : Setup) (ipcPipe listenFd other : Fd) : Prop
    extends Suits config setup where
  inboundPipe : setup.inboundPipe = ipcPipe
  outboundPipe : setup.outboundPipe = other
  listens : setup.listenFd = listenFd
  held : {ipcPipe, listenFd} ⊆ setup.openFds

structure Ready (nextHopPipe : Option Fd) (openFds : Finset Fd) (ipcPipe listenFd other : Fd) :
    Prop where
  shared : nextHopPipe = some other
  ipcPipe_open : ipcPipe ∈ openFds
  listenFd_open : listenFd ∈ openFds
  other_open : other ∈ openFds
  distinct : listenFd ≠ ipcPipe

/-- What the inbound thread has by its next statement. -/
def Held (nextHopPipe : Option Fd) (inboundSet openFds : Finset Fd) : InboundPc → Prop
  | .makePipe => nextHopPipe = none ∧ inboundSet = ∅
  | .share ipcPipe other => nextHopPipe = none ∧ inboundSet = ∅ ∧ ipcPipe ∈ openFds ∧
      other ∈ openFds
  | .listen ipcPipe => inboundSet = ∅ ∧ ipcPipe ∈ openFds ∧
      ∃ other ∈ openFds, nextHopPipe = some other
  | .createEpoll ipcPipe listenFd | .addListenFd ipcPipe listenFd => inboundSet = ∅ ∧
      ∃ other, Ready nextHopPipe openFds ipcPipe listenFd other
  | .addIpcPipe ipcPipe listenFd => inboundSet = {listenFd} ∧
      ∃ other, Ready nextHopPipe openFds ipcPipe listenFd other
  | .looping ipcPipe listenFd => inboundSet = {listenFd, ipcPipe} ∧
      ∃ other, Ready nextHopPipe openFds ipcPipe listenFd other

/-- What the outbound thread has: its pipe is registered when its loop begins. -/
def OutboundHeld (nextHopPipe : Option Fd) (outboundSet : Finset Fd) : OutboundPc → Prop
  | .looping ipcPipe => nextHopPipe = some ipcPipe ∧ outboundSet = {ipcPipe}
  | _ => outboundSet = ∅

def blank (openFds outboundSet : Finset Fd) : State :=
  ⟨⟨openFds, outboundSet, .empty, []⟩, ⟨[], .loop⟩, ⟨[], .loop⟩, [], [], none⟩

def rewiredState (openFds outboundSet : Finset Fd) (state : State) : State :=
  { state with process := rewired openFds outboundSet state.process }

structure Quiet (program : Program) : Prop where
  early : ∀ ipcPipe listenFd, program.inboundPc ≠ .looping ipcPipe listenFd
  held : Held program.nextHopPipe program.inboundSet program.state.process.openFds
    program.inboundPc
  outboundHeld : OutboundHeld program.nextHopPipe program.state.process.outboundSet
    program.outboundPc
  still : program.state =
    blank program.state.process.openFds program.state.process.outboundSet

structure Waiting (program : Program) (ipcPipe listenFd other : Fd) : Prop where
  loops : program.inboundPc = .looping ipcPipe listenFd
  registered : program.inboundSet = {listenFd, ipcPipe}
  ready : Ready program.nextHopPipe program.state.process.openFds ipcPipe listenFd other
  late : ∀ ipcPipe, program.outboundPc ≠ .looping ipcPipe
  unregistered : program.state.process.outboundSet = ∅

structure Up (config : Config) (program : Program) (setup : Setup) (ipcPipe listenFd other : Fd) :
    Prop where
  loops : program.inboundPc = .looping ipcPipe listenFd
  outboundLoops : program.outboundPc = .looping other
  registered : program.inboundSet = {listenFd, ipcPipe}
  agrees : Agrees config setup ipcPipe listenFd other

/-- A set-up from its beginning to the two loops, with the states of forwarders that it can stand
for. While the inbound loop waits for the other one, these are the states of every forwarder that
the program can still become. -/
inductive Phase (config : Config) (program : Program) : (Setup → State → Prop) → Prop where
  | quiet (quiet : Quiet program) :
      Phase config program fun setup state => Suits config setup ∧ state = State.start setup
  | waiting {ipcPipe listenFd other : Fd} (waiting : Waiting program ipcPipe listenFd other) :
      Phase config program fun setup state => Agrees config setup ipcPipe listenFd other ∧
        state = rewiredState setup.openFds {other} program.state
  | up {ipcPipe listenFd other : Fd} {setup : Setup}
      (up : Up config program setup ipcPipe listenFd other) :
      Phase config program fun same state => same = setup ∧ state = program.state
  | stopped {Possible : Setup → State → Prop} (faulted : program.state.fault ≠ none)
      (unready : (∀ ipcPipe listenFd, program.inboundPc ≠ .looping ipcPipe listenFd) ∨
        ∀ ipcPipe, program.outboundPc ≠ .looping ipcPipe)
      (inhabited : ∃ setup state, Possible setup state)
      (suits : ∀ setup state, Possible setup state → Suits config setup ∧
        state.process.trace = program.state.process.trace) :
      Phase config program Possible

/-- A program both of whose threads are about to loop, as a forwarder. -/
def Config.setup (config : Config) (openFds : Finset Fd) (ipcPipe listenFd other : Fd)
    (other_open : other ∈ openFds) (distinct : listenFd ≠ ipcPipe) : Setup where
  filter := config.filter
  openFds
  listenFd
  inboundPipe := ipcPipe
  outboundPipe := other
  outboundPipe_open := other_open
  listenFd_ne_pipe := distinct
  toOutboundCapacity := config.toOutboundCapacity
  toInboundCapacity := config.toInboundCapacity
  toOutbound_pos := config.toOutbound_pos
  toInbound_pos := config.toInbound_pos

theorem Ready.exists_agrees {nextHopPipe : Option Fd} {openFds : Finset Fd}
    {ipcPipe listenFd other : Fd} (config : Config)
    (ready : Ready nextHopPipe openFds ipcPipe listenFd other) :
    ∃ setup, Agrees config setup ipcPipe listenFd other ∧ setup.openFds = openFds := by
  refine ⟨config.setup openFds ipcPipe listenFd other ready.other_open ready.distinct,
    ⟨⟨rfl, rfl, rfl⟩, rfl, rfl, rfl, ?_⟩, rfl⟩
  intro fd member
  rcases Finset.mem_insert.mp member with rfl | last
  · exact ready.ipcPipe_open
  · rw [Finset.mem_singleton.mp last]
    exact ready.listenFd_open

theorem Agrees.start {setup : Setup} {ipcPipe listenFd other : Fd}
    (agrees : Agrees config setup ipcPipe listenFd other) :
    State.start setup = blank setup.openFds {other} := by
  rw [← agrees.outboundPipe]
  rfl

theorem Agrees.inbound {setup : Setup} {ipcPipe listenFd other : Fd}
    (agrees : Agrees config setup ipcPipe listenFd other) :
    setup.inbound = Program.inboundListener config {listenFd, ipcPipe} ipcPipe listenFd := by
  rw [Program.inboundListener, ← agrees.filter, ← agrees.toOutboundCapacity, ← agrees.inboundPipe,
    ← agrees.listens]
  rfl

theorem Agrees.outbound {setup : Setup} {ipcPipe listenFd other : Fd}
    (agrees : Agrees config setup ipcPipe listenFd other) :
    setup.outbound = Program.outboundListener config other := by
  rw [Program.outboundListener, ← agrees.filter, ← agrees.toInboundCapacity, ← agrees.outboundPipe]
  rfl

/-- Every state in `After` is one of `Before`, or one step of the same forwarder behind it. -/
def Leads (Before After : Setup → State → Prop) : Prop :=
  ∀ setup state', After setup state' → ∃ state, Before setup state ∧
    (state = state' ∨ ∃ action, State.step setup state action = some state')

theorem Leads.refl {Possible : Setup → State → Prop} : Leads Possible Possible :=
  fun _ state' possible => ⟨state', possible, .inl rfl⟩

theorem Suits.exists (config : Config) : ∃ setup, Suits config setup :=
  ⟨config.setup {0} 1 2 0 (Finset.mem_singleton_self 0) (by decide), rfl, rfl, rfl⟩

theorem Phase.inhabited {Possible : Setup → State → Prop}
    (phase : Phase config program Possible) : ∃ setup state, Possible setup state := by
  cases phase with
  | quiet =>
      obtain ⟨setup, suits⟩ := Suits.exists config
      exact ⟨setup, State.start setup, suits, rfl⟩
  | waiting waiting =>
      obtain ⟨setup, agrees, _⟩ := waiting.ready.exists_agrees config
      exact ⟨setup, _, agrees, rfl⟩
  | up => exact ⟨_, program.state, rfl, rfl⟩
  | stopped _ _ inhabited => exact inhabited

theorem Phase.suits {Possible : Setup → State → Prop} (phase : Phase config program Possible)
    {setup : Setup} {state : State} (possible : Possible setup state) :
    Suits config setup ∧ state.process.trace = program.state.process.trace := by
  cases phase with
  | quiet quiet =>
      obtain ⟨suits, rfl⟩ := possible
      refine ⟨suits, ?_⟩
      rw [quiet.still]
      rfl
  | waiting waiting =>
      obtain ⟨agrees, rfl⟩ := possible
      exact ⟨agrees.toSuits, rfl⟩
  | up up =>
      obtain ⟨rfl, rfl⟩ := possible
      exact ⟨up.agrees.toSuits, rfl⟩
  | stopped _ _ _ suits => exact suits setup state possible

section Steps

variable {ipcPipe listenFd other : Fd}

theorem Held.mono {nextHopPipe : Option Fd} {inboundSet openFds more : Finset Fd}
    {pc : InboundPc} (held : Held nextHopPipe inboundSet openFds pc) (kept : openFds ⊆ more) :
    Held nextHopPipe inboundSet more pc := by
  cases pc with
  | makePipe => exact held
  | share ipcPipe other =>
      obtain ⟨unshared, registered, one, two⟩ := held
      exact ⟨unshared, registered, kept one, kept two⟩
  | listen ipcPipe =>
      obtain ⟨registered, one, other, two, shared⟩ := held
      exact ⟨registered, kept one, other, kept two, shared⟩
  | createEpoll | addListenFd | addIpcPipe | looping =>
      obtain ⟨registered, other, ready⟩ := held
      exact ⟨registered, other, ready.shared, kept ready.ipcPipe_open, kept ready.listenFd_open,
        kept ready.other_open, ready.distinct⟩

end Steps

section FirstConfig

end FirstConfig

section Completion

def InboundPc.left : InboundPc → Nat
  | .makePipe => 6
  | .share _ _ => 5
  | .listen _ => 4
  | .createEpoll _ _ => 3
  | .addListenFd _ _ => 2
  | .addIpcPipe _ _ => 1
  | .looping _ _ => 0

def OutboundPc.left : OutboundPc → Nat
  | .createEpoll => 3
  | .waitForPipe => 2
  | .addIpcPipe => 1
  | .looping _ => 0

end Completion

end UdpForwarder.Startup
