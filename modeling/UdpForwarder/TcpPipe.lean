import UdpForwarder.Common
import UdpForwarder.Lib.ListenQueue
import UdpForwarder.Lib.Transition

/-! `mk_tcp_pipe`, on a host where other processes listen and connect meanwhile, some of them with
an `mk_tcp_pipe` of their own. -/

namespace UdpForwarder.TcpPipe

open Transition

inductive Side where
  | client
  | server
  deriving DecidableEq

/-- A connected socket: one of the two ends of a connection. -/
structure Socket where
  connection : Nat
  side : Side
  deriving DecidableEq

def TwoEnds (first second : Socket) : Prop :=
  first.connection = second.connection ∧ first.side ≠ second.side

instance (first second : Socket) : Decidable (TwoEnds first second) :=
  inferInstanceAs (Decidable (_ ∧ _))

/-- The thread that runs `mk_tcp_pipe`, by what it does next. -/
inductive MainThread where
  | choosing
  | listening (tmpPort : Nat)
  | connecting (tmpPort listenfd : Nat)
  | joining (listenfd : Nat) (connfdCliSide : Socket)
  | returned (connfdCliSide connfdSrvSide : Socket)
  | thrown
  deriving DecidableEq

def MainThread.listenfd : MainThread → Option Nat
  | .connecting _ listenfd => some listenfd
  | .joining listenfd _ => some listenfd
  | _ => none

/-- `connfdSrvSide` is set by `serverThread`. -/
structure Call where
  main : MainThread
  connfdSrvSide : Option Socket
  deriving DecidableEq

/-- The calls of `mk_tcp_pipe` are those of any number of forwarders, one each; the listeners of
other programs have no owner. -/
structure Host where
  listeners : Listeners (Option Nat)
  calls : Nat → Call

def start : Host where
  listeners := Listeners.empty
  calls := fun _ => ⟨.choosing, none⟩

def Host.set (host : Host) (call : Nat) (value : Call) : Host :=
  { host with calls := fun other => if other = call then value else host.calls other }

inductive Action where
  | chooses (call port : Nat)
  | listens (call : Nat)
  /-- in `serverThread` -/
  | accepts (call : Nat)
  | connects (call listener : Nat)
  | returns (call : Nat)
  | throws (call : Nat)
  | otherListens (port : Nat)
  | otherCloses (listener : Nat)
  | otherAccepts (listener : Nat)
  | otherConnects (port listener : Nat)
  deriving DecidableEq

def IsTmpPort (port : Nat) : Prop := 40000 ≤ port ∧ port ≤ 60000

instance (port : Nat) : Decidable (IsTmpPort port) :=
  inferInstanceAs (Decidable (40000 ≤ port ∧ port ≤ 60000))

/-- The action names the listener on which the host queues a connection. An exception in one of
the two threads ends the process, and with it the listener. -/
def step (host : Host) : Action → Option Host
  | .chooses call port =>
    match host.calls call with
    | ⟨.choosing, srv⟩ =>
      if IsTmpPort port then some (host.set call ⟨.listening port, srv⟩) else none
    | _ => none
  | .listens call =>
    match host.calls call with
    | ⟨.listening tmpPort, srv⟩ =>
      some ({ host with listeners := host.listeners.listen (some call) tmpPort }.set call
        ⟨.connecting tmpPort host.listeners.nextListener, srv⟩)
    | _ => none
  | .accepts call =>
    match (host.calls call).main.listenfd, (host.calls call).connfdSrvSide with
    | some listenfd, none =>
      match host.listeners.accept listenfd with
      | some (connection, listeners) =>
        some ({ host with listeners }.set call
          { host.calls call with connfdSrvSide := some ⟨connection, .server⟩ })
      | none => none
    | _, _ => none
  | .connects call listener =>
    match host.calls call with
    | ⟨.connecting tmpPort listenfd, srv⟩ =>
      match host.listeners.connect tmpPort listener with
      | some listeners =>
        some ({ host with listeners }.set call
          ⟨.joining listenfd ⟨host.listeners.nextConnection, .client⟩, srv⟩)
      | none => none
    | _ => none
  | .returns call =>
    match host.calls call with
    | ⟨.joining listenfd cli, some srv⟩ =>
      some ({ host with listeners := host.listeners.close listenfd }.set call
        ⟨.returned cli srv, some srv⟩)
    | _ => none
  | .throws call =>
    match host.calls call with
    | ⟨.listening _, srv⟩ => some (host.set call ⟨.thrown, srv⟩)
    | ⟨.connecting _ listenfd, srv⟩ =>
      some ({ host with listeners := host.listeners.close listenfd }.set call ⟨.thrown, srv⟩)
    | ⟨.joining listenfd _, srv⟩ =>
      some ({ host with listeners := host.listeners.close listenfd }.set call ⟨.thrown, srv⟩)
    | _ => none
  | .otherListens port => some { host with listeners := host.listeners.listen none port }
  | .otherCloses listener =>
    if host.listeners.ownerOf listener = some none then
      some { host with listeners := host.listeners.close listener }
    else none
  | .otherAccepts listener =>
    if host.listeners.ownerOf listener = some none then
      (host.listeners.accept listener).map fun accepted => { host with listeners := accepted.2 }
    else none
  | .otherConnects port listener =>
    (host.listeners.connect port listener).map fun listeners => { host with listeners }

def MainThread.connectingOn : MainThread → Option Nat
  | .connecting _ listenfd => some listenfd
  | _ => none

/-- A step that does not come between a call and its own connection: the call connects to its own
listener, and nobody else does so before. -/
def Undisturbed (call : Nat) (host : Host) : Action → Prop
  | .connects other listener =>
    if other = call then (host.calls call).main.connectingOn = some listener
    else (host.calls call).main.connectingOn ≠ some listener
  | .otherConnects _ listener => (host.calls call).main.connectingOn ≠ some listener
  | _ => True

section View

/-- What a call has to do with: its two threads and the queue of its listener. -/
structure View where
  main : MainThread
  connfdSrvSide : Option Socket
  queue : List Nat
  deriving DecidableEq

def waiting (listeners : Listeners (Option Nat)) : Option Nat → List Nat
  | none => []
  | some listenfd => listeners.queue listenfd

def Host.view (host : Host) (call : Nat) : View where
  main := (host.calls call).main
  connfdSrvSide := (host.calls call).connfdSrvSide
  queue := waiting host.listeners (host.calls call).main.listenfd

inductive Event where
  | unseen
  | chooses (port : Nat)
  | listens (listenfd : Nat)
  | accepts
  /-- somebody else's connection -/
  | arrives (connection : Nat)
  | connects (connection : Nat)
  /-- the own connection is queued on another listener of the port -/
  | connectsElsewhere (connection : Nat)
  | returns
  | throws
  deriving DecidableEq

/-- The call by itself, against the events its listener is exposed to. -/
inductive Move : View → Event → View → Prop where
  | unseen (view : View) : Move view .unseen view
  | chooses (port : Nat) (srv : Option Socket) (queue : List Nat) :
      Move ⟨.choosing, srv, queue⟩ (.chooses port) ⟨.listening port, srv, queue⟩
  | listens (port listenfd : Nat) (srv : Option Socket) (queue : List Nat) :
      Move ⟨.listening port, srv, queue⟩ (.listens listenfd) ⟨.connecting port listenfd, srv, []⟩
  | accepts (main : MainThread) (listening : main.listenfd.isSome) (connection : Nat)
      (queue : List Nat) :
      Move ⟨main, none, connection :: queue⟩ .accepts ⟨main, some ⟨connection, .server⟩, queue⟩
  | arrives (main : MainThread) (listening : main.listenfd.isSome) (srv : Option Socket)
      (queue : List Nat) (connection : Nat) :
      Move ⟨main, srv, queue⟩ (.arrives connection) ⟨main, srv, queue ++ [connection]⟩
  | connects (port listenfd : Nat) (srv : Option Socket) (queue : List Nat) (connection : Nat) :
      Move ⟨.connecting port listenfd, srv, queue⟩ (.connects connection)
        ⟨.joining listenfd ⟨connection, .client⟩, srv, queue ++ [connection]⟩
  | connectsElsewhere (port listenfd : Nat) (srv : Option Socket) (queue : List Nat)
      (connection : Nat) :
      Move ⟨.connecting port listenfd, srv, queue⟩ (.connectsElsewhere connection)
        ⟨.joining listenfd ⟨connection, .client⟩, srv, queue⟩
  | returns (listenfd : Nat) (cli srv : Socket) (queue : List Nat) :
      Move ⟨.joining listenfd cli, some srv, queue⟩ .returns ⟨.returned cli srv, some srv, []⟩
  | throws (main : MainThread) (srv : Option Socket) (queue : List Nat) :
      Move ⟨main, srv, queue⟩ .throws ⟨.thrown, srv, []⟩

def Disturbs (view : View) : Event → Prop
  | .arrives _ => view.main.connectingOn.isSome
  | .connectsElsewhere _ => True
  | _ => False

def Event.made : Event → Option Nat
  | .arrives connection => some connection
  | .connects connection => some connection
  | .connectsElsewhere connection => some connection
  | _ => none

/-- The connection `serverThread` has accepted, or else the one it is going to accept. -/
def View.incoming (view : View) : Option Nat :=
  match view.connfdSrvSide with
  | some srv => some srv.connection
  | none => view.queue.head?

/-- Nobody has come between the call and its own connection. -/
def Private (view : View) : Prop :=
  match view.main with
  | .choosing | .listening _ => view.connfdSrvSide = none
  | .connecting _ _ => view.incoming = none
  | .joining _ cli => view.incoming = some cli.connection
  | .returned cli srv => cli.connection = srv.connection
  | .thrown => True

/-- Somebody has. -/
def Crossed (view : View) : Prop :=
  match view.main with
  | .choosing | .listening _ => False
  | .connecting _ _ => view.incoming ≠ none
  | .joining _ cli => view.incoming ≠ some cli.connection
  | .returned cli srv => cli.connection ≠ srv.connection
  | .thrown => True

def MainThread.Known (nextConnection : Nat) : MainThread → Prop
  | .joining _ cli => cli.side = .client ∧ cli.connection < nextConnection
  | .returned cli srv => cli.side = .client ∧ srv.side = .server
  | _ => True

/-- The sockets of a call are of the sides they are said to be, and all its connections have been
made. -/
structure View.Known (view : View) (nextConnection : Nat) : Prop where
  queued : ∀ connection ∈ view.queue, connection < nextConnection
  srv : ∀ srv, view.connfdSrvSide = some srv →
    srv.side = .server ∧ srv.connection < nextConnection
  main : view.main.Known nextConnection

variable {view next : View} {event : Event} {nextConnection : Nat}

theorem incoming_append_iff (main main' : MainThread) {srv : Option Socket} {queue : List Nat}
    {connection other : Nat} :
    View.incoming ⟨main', srv, queue ++ [connection]⟩ = some other ↔
      View.incoming ⟨main, srv, queue⟩ = some other ∨
        View.incoming ⟨main, srv, queue⟩ = none ∧ connection = other := by
  cases srv with
  | some srv => simp [View.incoming]
  | none => cases queue <;> simp [View.incoming]

theorem incoming_append_ne (main : MainThread) (srv : Option Socket) (queue : List Nat)
    (connection : Nat) : View.incoming ⟨main, srv, queue ++ [connection]⟩ ≠ none := by
  cases srv with
  | some srv => exact Option.some_ne_none _
  | none => cases queue <;> exact Option.some_ne_none _

theorem View.Known.incoming_lt (known : view.Known nextConnection) {connection : Nat}
    (incoming : view.incoming = some connection) : connection < nextConnection := by
  obtain ⟨main, srv, queue⟩ := view
  cases srv with
  | some srv =>
      rw [View.incoming, Option.some.injEq] at incoming
      exact incoming ▸ (known.srv srv rfl).2
  | none =>
      apply known.queued
      exact List.mem_of_mem_head? incoming

theorem View.Known.mono {later : Nat} (known : view.Known nextConnection)
    (grows : nextConnection ≤ later) : view.Known later := by
  constructor
  · intro connection waits
    exact Nat.lt_of_lt_of_le (known.queued connection waits) grows
  · intro srv accepted
    obtain ⟨side, made⟩ := known.srv srv accepted
    exact ⟨side, Nat.lt_of_lt_of_le made grows⟩
  · have main := known.main
    cases at_ : view.main with
    | joining listenfd cli =>
        rw [at_] at main
        exact ⟨main.1, Nat.lt_of_lt_of_le main.2 grows⟩
    | returned cli srv =>
        rw [at_] at main
        exact main
    | _ => exact trivial

theorem queued_append {queue : List Nat} {connection : Nat}
    (queued : ∀ waits ∈ queue, waits < nextConnection) (made : connection < nextConnection) :
    ∀ waits ∈ queue ++ [connection], waits < nextConnection := by
  intro waits member
  rw [List.mem_append, List.mem_singleton] at member
  cases member with
  | inl earlier => exact queued waits earlier
  | inr new => exact new ▸ made

theorem queued_nil : ∀ waits ∈ ([] : List Nat), waits < nextConnection := by
  intro waits member
  cases member

theorem move_known (known : view.Known nextConnection)
    (new : ∀ made, event.made = some made → made < nextConnection)
    (moved : Move view event next) : next.Known nextConnection := by
  cases moved with
  | unseen => exact known
  | chooses port srv queue => exact ⟨known.queued, known.srv, trivial⟩
  | listens port listenfd srv queue => exact ⟨queued_nil, known.srv, trivial⟩
  | accepts main listening connection queue =>
      refine ⟨fun waits member => known.queued waits (List.mem_cons_of_mem _ member), ?_,
        known.main⟩
      rintro srv ⟨⟩
      exact ⟨rfl, known.queued connection List.mem_cons_self⟩
  | arrives main listening srv queue connection =>
      exact ⟨queued_append known.queued (new connection rfl), known.srv, known.main⟩
  | connects port listenfd srv queue connection =>
      exact ⟨queued_append known.queued (new connection rfl), known.srv, rfl, new connection rfl⟩
  | connectsElsewhere port listenfd srv queue connection =>
      exact ⟨known.queued, known.srv, rfl, new connection rfl⟩
  | returns listenfd cli srv queue =>
      exact ⟨queued_nil, known.srv, known.main.1, (known.srv srv rfl).1⟩
  | throws main srv queue => exact ⟨queued_nil, known.srv, trivial⟩

theorem move_private (apart : Private view) (undisturbed : ¬ Disturbs view event)
    (moved : Move view event next) : Private next := by
  cases moved with
  | unseen => exact apart
  | chooses port srv queue => exact apart
  | listens port listenfd srv queue =>
      have idle : srv = none := apart
      rw [idle]
      rfl
  | accepts main listening connection queue =>
      cases main with
      | connecting port listenfd => exact apart
      | joining listenfd cli => exact apart
      | _ => cases listening
  | arrives main listening srv queue connection =>
      cases main with
      | connecting port listenfd => exact absurd rfl undisturbed
      | joining listenfd cli =>
          apply (incoming_append_iff (.joining listenfd cli) _).mpr
          exact .inl apart
      | _ => cases listening
  | connects port listenfd srv queue connection =>
      apply (incoming_append_iff (.connecting port listenfd) _).mpr
      exact .inr ⟨apart, rfl⟩
  | connectsElsewhere => exact absurd trivial undisturbed
  | returns listenfd cli srv queue =>
      have own : some srv.connection = some cli.connection := apart
      exact (Option.some.inj own).symm
  | throws => exact trivial

/-- The first disturbance separates the call from its own connection. -/
theorem move_disturbed (apart : Private view) (disturbed : Disturbs view event)
    (moved : Move view event next) : Crossed next := by
  cases moved with
  | arrives main listening srv queue connection =>
      cases main with
      | connecting port listenfd => exact incoming_append_ne _ srv queue connection
      | _ => cases disturbed
  | connectsElsewhere port listenfd srv queue connection =>
      have free : View.incoming ⟨.connecting port listenfd, srv, queue⟩ = none := apart
      change View.incoming ⟨.connecting port listenfd, srv, queue⟩ ≠ _
      rw [free]
      exact (Option.some_ne_none _).symm
  | _ => cases disturbed

/-- Whatever happens later, the two do not come together any more. -/
theorem move_crossed (known : view.Known nextConnection) (crossed : Crossed view)
    (new : ∀ made, event.made = some made → made = nextConnection)
    (moved : Move view event next) : Crossed next := by
  cases moved with
  | unseen => exact crossed
  | chooses => cases crossed
  | listens => cases crossed
  | accepts main listening connection queue =>
      cases main with
      | connecting port listenfd => exact crossed
      | joining listenfd cli => exact crossed
      | _ => cases listening
  | arrives main listening srv queue connection =>
      have fresh := new connection rfl
      cases main with
      | connecting port listenfd => exact incoming_append_ne _ srv queue connection
      | joining listenfd cli =>
          have made : cli.connection < nextConnection := known.main.2
          intro own
          obtain earlier | ⟨_, same⟩ := (incoming_append_iff (.joining listenfd cli) _).mp own
          · exact crossed earlier
          · exact Nat.ne_of_gt made (fresh.symm.trans same)
      | _ => cases listening
  | connects port listenfd srv queue connection =>
      intro own
      obtain earlier | ⟨free, _⟩ := (incoming_append_iff (.connecting port listenfd) _).mp own
      · exact Nat.ne_of_lt (known.incoming_lt earlier) (new connection rfl)
      · exact crossed free
  | connectsElsewhere port listenfd srv queue connection =>
      have fresh := new connection rfl
      change View.incoming ⟨.connecting port listenfd, srv, queue⟩ ≠ some connection
      intro own
      rw [fresh] at own
      exact Nat.lt_irrefl _ (known.incoming_lt own)
  | returns listenfd cli srv queue =>
      have other : some srv.connection ≠ some cli.connection := crossed
      exact fun same => other (congrArg some same.symm)
  | throws => exact trivial

end View

section Step

variable {host after : Host} {action : Action} {call : Nat}

@[simp] theorem calls_set_self (host : Host) (call : Nat) (value : Call) :
    (host.set call value).calls call = value := by
  simp [Host.set]

theorem calls_set_other (host : Host) {call other : Nat} (value : Call) (different : other ≠ call) :
    (host.set call value).calls other = host.calls other := by
  simp [Host.set, different]

@[simp] theorem listeners_set (host : Host) (call : Nat) (value : Call) :
    (host.set call value).listeners = host.listeners := rfl

inductive Taken (host : Host) : Action → Host → Prop where
  | chooses {caller port : Nat} {srv : Option Socket}
      (value : host.calls caller = ⟨.choosing, srv⟩) (range : IsTmpPort port) :
      Taken host (.chooses caller port) (host.set caller ⟨.listening port, srv⟩)
  | listens {caller port : Nat} {srv : Option Socket}
      (value : host.calls caller = ⟨.listening port, srv⟩) :
      Taken host (.listens caller)
        ({ host with listeners := host.listeners.listen (some caller) port }.set caller
          ⟨.connecting port host.listeners.nextListener, srv⟩)
  | accepts {caller listenfd connection : Nat} {listeners : Listeners (Option Nat)}
      (listening : (host.calls caller).main.listenfd = some listenfd)
      (idle : (host.calls caller).connfdSrvSide = none)
      (accepted : host.listeners.accept listenfd = some (connection, listeners)) :
      Taken host (.accepts caller)
        ({ host with listeners }.set caller
          { host.calls caller with connfdSrvSide := some ⟨connection, .server⟩ })
  | connects {caller port listenfd listener : Nat} {srv : Option Socket}
      {listeners : Listeners (Option Nat)}
      (value : host.calls caller = ⟨.connecting port listenfd, srv⟩)
      (connected : host.listeners.connect port listener = some listeners) :
      Taken host (.connects caller listener)
        ({ host with listeners }.set caller
          ⟨.joining listenfd ⟨host.listeners.nextConnection, .client⟩, srv⟩)
  | returns {caller listenfd : Nat} {cli srv : Socket}
      (value : host.calls caller = ⟨.joining listenfd cli, some srv⟩) :
      Taken host (.returns caller)
        ({ host with listeners := host.listeners.close listenfd }.set caller
          ⟨.returned cli srv, some srv⟩)
  | throws (caller : Nat) (listeners : Listeners (Option Nat))
      (closed : listeners = host.listeners ∨
        ∃ listenfd, (host.calls caller).main.listenfd = some listenfd ∧
          listeners = host.listeners.close listenfd) :
      Taken host (.throws caller)
        ({ host with listeners }.set caller ⟨.thrown, (host.calls caller).connfdSrvSide⟩)
  | otherListens (port : Nat) :
      Taken host (.otherListens port)
        { host with listeners := host.listeners.listen none port }
  | otherCloses {listener : Nat} (other : host.listeners.ownerOf listener = some none) :
      Taken host (.otherCloses listener)
        { host with listeners := host.listeners.close listener }
  | otherAccepts {listener connection : Nat} {listeners : Listeners (Option Nat)}
      (other : host.listeners.ownerOf listener = some none)
      (accepted : host.listeners.accept listener = some (connection, listeners)) :
      Taken host (.otherAccepts listener) { host with listeners }
  | otherConnects {port listener : Nat} {listeners : Listeners (Option Nat)}
      (connected : host.listeners.connect port listener = some listeners) :
      Taken host (.otherConnects port listener) { host with listeners }

theorem taken_of_step (ran : step host action = some after) : Taken host action after := by
  cases action with
  | chooses caller port =>
      rw [step] at ran
      split at ran
      · rename_i srv value
        simp only [Option.ite_none_right_eq_some, Option.some.injEq] at ran
        obtain ⟨range, rfl⟩ := ran
        exact Taken.chooses value range
      · cases ran
  | listens caller =>
      rw [step] at ran
      split at ran
      · rename_i port srv value
        cases ran
        exact Taken.listens value
      · cases ran
  | accepts caller =>
      rw [step] at ran
      split at ran
      · rename_i listenfd listening idle
        split at ran
        · rename_i connection listeners accepted
          cases ran
          exact Taken.accepts listening idle accepted
        · cases ran
      · cases ran
  | connects caller listener =>
      rw [step] at ran
      split at ran
      · rename_i port listenfd srv value
        split at ran
        · rename_i listeners connected
          cases ran
          exact Taken.connects value connected
        · cases ran
      · cases ran
  | returns caller =>
      rw [step] at ran
      split at ran
      · rename_i listenfd cli srv value
        cases ran
        exact Taken.returns value
      · cases ran
  | throws caller =>
      rw [step] at ran
      split at ran
      · rename_i srv value
        cases ran
        have gone := Taken.throws caller host.listeners (.inl rfl)
        rwa [value] at gone
      · rename_i port listenfd srv value
        cases ran
        have gone := Taken.throws caller _ (.inr ⟨listenfd, by rw [value]; rfl, rfl⟩)
        rwa [value] at gone
      · rename_i listenfd cli srv value
        cases ran
        have gone := Taken.throws caller _ (.inr ⟨listenfd, by rw [value]; rfl, rfl⟩)
        rwa [value] at gone
      · cases ran
  | otherListens port =>
      cases ran
      exact Taken.otherListens port
  | otherCloses listener =>
      simp only [step, Option.ite_none_right_eq_some, Option.some.injEq] at ran
      obtain ⟨other, rfl⟩ := ran
      exact Taken.otherCloses other
  | otherAccepts listener =>
      simp only [step, Option.ite_none_right_eq_some, Option.map_eq_some_iff] at ran
      obtain ⟨other, ⟨connection, listeners⟩, accepted, rfl⟩ := ran
      exact Taken.otherAccepts other accepted
  | otherConnects port listener =>
      simp only [step, Option.map_eq_some_iff] at ran
      obtain ⟨listeners, connected, rfl⟩ := ran
      exact Taken.otherConnects connected

/-- Every listener belongs to the call that works with it. -/
structure Host.Valid (host : Host) : Prop where
  listeners : host.listeners.Valid
  owned : ∀ call listenfd, (host.calls call).main.listenfd = some listenfd →
    host.listeners.ownerOf listenfd = some (some call)
  known : ∀ call, (host.view call).Known host.listeners.nextConnection

theorem start_valid : start.Valid := by
  constructor
  · exact Listeners.valid_empty
  · intro call listenfd listening
    cases listening
  · intro call
    constructor
    · exact queued_nil
    · intro srv accepted
      cases accepted
    · exact trivial

/-- A step of the host is a move of each call. -/
structure Seen (host after : Host) (action : Action) (call : Nat) (event : Event) : Prop where
  moved : Move (host.view call) event (after.view call)
  disturbs : Undisturbed call host action ↔ ¬ Disturbs (host.view call) event
  made : ∀ connection, event.made = some connection →
    connection = host.listeners.nextConnection ∧
      connection < after.listeners.nextConnection
  owned : ∀ listenfd, (after.calls call).main.listenfd = some listenfd →
    after.listeners.ownerOf listenfd = some (some call)

theorem seen_nothing (valid : host.Valid) (undisturbed : Undisturbed call host action)
    (same : after.calls call = host.calls call)
    (keeps : ∀ listenfd, (host.calls call).main.listenfd = some listenfd →
      after.listeners.queue listenfd = host.listeners.queue listenfd ∧
      after.listeners.ownerOf listenfd = host.listeners.ownerOf listenfd) :
    Seen host after action call .unseen := by
  have view : after.view call = host.view call := by
    simp only [Host.view, same, View.mk.injEq, true_and]
    cases listening : (host.calls call).main.listenfd with
    | none => rfl
    | some listenfd => exact (keeps listenfd listening).1
  constructor
  · rw [view]
    exact Move.unseen _
  · exact iff_of_true undisturbed not_false
  · intro connection made
    cases made
  · intro listenfd listening
    rw [same] at listening
    rw [(keeps listenfd listening).2]
    exact valid.owned call listenfd listening

theorem connectingOn_listenfd {main : MainThread} {listenfd : Nat}
    (connecting : main.connectingOn = some listenfd) : main.listenfd = some listenfd := by
  cases main with
  | connecting => exact connecting
  | _ => cases connecting

theorem seen_connection (valid : host.Valid) {port listener : Nat}
    {listeners : Listeners (Option Nat)}
    (connected : host.listeners.connect port listener = some listeners)
    (same : after.calls call = host.calls call) (after_ : after.listeners = listeners)
    (undisturbed : Undisturbed call host action ↔
      (host.calls call).main.connectingOn ≠ some listener) :
    ∃ event, Seen host after action call event := by
  obtain ⟨_, next, owners, self, others⟩ := Listeners.connect_spec connected
  by_cases own : (host.calls call).main.listenfd = some listener
  · refine ⟨.arrives host.listeners.nextConnection, ?_, ?_, ?_, ?_⟩
    · have view : after.view call = ⟨(host.calls call).main, (host.calls call).connfdSrvSide,
          host.listeners.queue listener ++ [host.listeners.nextConnection]⟩ := by
        rw [Host.view, same, own, after_, waiting, self]
      have before : host.view call = ⟨(host.calls call).main, (host.calls call).connfdSrvSide,
          host.listeners.queue listener⟩ := by
        rw [Host.view, own, waiting]
      rw [view, before]
      exact Move.arrives _ (by rw [own]; rfl) _ _ _
    · rw [undisturbed, Disturbs, Host.view]
      cases main : (host.calls call).main with
      | connecting port listenfd =>
          rw [main] at own
          simp only [MainThread.connectingOn, Option.isSome_some, not_true_eq_false, iff_false,
            not_not]
          exact own
      | _ => simp [MainThread.connectingOn]
    · intro connection made
      rw [Event.made, Option.some.injEq] at made
      rw [← made, after_, next]
      exact ⟨rfl, Nat.lt_succ_self _⟩
    · intro listenfd listening
      rw [same] at listening
      rw [after_, owners]
      exact valid.owned call listenfd listening
  · refine ⟨.unseen, seen_nothing valid ?_ same ?_⟩
    · rw [undisturbed]
      exact fun connecting => own (connectingOn_listenfd connecting)
    · intro listenfd listening
      rw [after_]
      refine ⟨others listenfd ?_, owners listenfd⟩
      rintro rfl
      exact own listening

theorem view_eq {main : MainThread} {srv : Option Socket} (value : host.calls call = ⟨main, srv⟩) :
    host.view call = ⟨main, srv, waiting host.listeners main.listenfd⟩ := by
  rw [Host.view, value]

theorem view_set (host : Host) (call : Nat) (main : MainThread) (srv : Option Socket) :
    (host.set call ⟨main, srv⟩).view call = ⟨main, srv, waiting host.listeners main.listenfd⟩ :=
  view_eq (calls_set_self host call ⟨main, srv⟩)

theorem seen_own (event : Event) (undisturbed : Undisturbed call host action)
    (harmless : ¬ Disturbs (host.view call) event) (nothing : event.made = none)
    (moved : Move (host.view call) event (after.view call))
    (owned : ∀ listenfd, (after.calls call).main.listenfd = some listenfd →
      after.listeners.ownerOf listenfd = some (some call)) :
    ∃ event, Seen host after action call event := by
  refine ⟨event, moved, iff_of_true undisturbed harmless, ?_, owned⟩
  intro connection made
  rw [nothing] at made
  cases made

theorem seen_chooses (valid : host.Valid) {caller port : Nat} {srv : Option Socket}
    (value : host.calls caller = ⟨.choosing, srv⟩) (call : Nat) :
    ∃ event, Seen host (host.set caller ⟨.listening port, srv⟩) (.chooses caller port) call
      event := by
  by_cases own : call = caller
  · subst own
    refine seen_own (.chooses port) trivial not_false rfl ?_ ?_
    · rw [view_eq value, view_set]
      exact Move.chooses port srv []
    · intro listenfd listening
      rw [calls_set_self] at listening
      cases listening
  · exact ⟨.unseen, seen_nothing valid trivial (calls_set_other host _ own)
      fun _ _ => ⟨rfl, rfl⟩⟩

theorem seen_listens (valid : host.Valid) {caller port : Nat} {srv : Option Socket}
    (value : host.calls caller = ⟨.listening port, srv⟩) (call : Nat) :
    ∃ event, Seen host ({ host with listeners := host.listeners.listen (some caller) port }.set
      caller ⟨.connecting port host.listeners.nextListener, srv⟩) (.listens caller) call event := by
  by_cases own : call = caller
  · subst own
    refine seen_own (.listens host.listeners.nextListener) trivial not_false rfl ?_ ?_
    · rw [view_eq value, view_set]
      change Move _ _ ⟨_, srv, (host.listeners.listen (some call) port).queue _⟩
      rw [Listeners.queue_listen_self]
      exact Move.listens port host.listeners.nextListener srv []
    · intro listenfd listening
      rw [calls_set_self] at listening
      cases listening
      exact Listeners.ownerOf_listen_self (some call) port
  · refine ⟨.unseen, seen_nothing valid trivial (calls_set_other _ _ own) ?_⟩
    intro listenfd listening
    have older := Nat.ne_of_lt
      (valid.listeners.listener_lt _ _ (valid.owned call listenfd listening))
    exact ⟨Listeners.queue_listen_other _ _ older, Listeners.ownerOf_listen_other _ _ older⟩

theorem Host.Valid.listenfd_ne (valid : host.Valid) {other listenfd listenfd' : Nat}
    (different : call ≠ other) (one : (host.calls call).main.listenfd = some listenfd)
    (two : (host.calls other).main.listenfd = some listenfd') : listenfd ≠ listenfd' := by
  intro same
  have owner := valid.owned call listenfd one
  rw [same, valid.owned other listenfd' two, Option.some.injEq, Option.some.injEq] at owner
  exact different owner.symm

theorem seen_accepts (valid : host.Valid) {caller listenfd connection : Nat}
    {listeners : Listeners (Option Nat)}
    (listening : (host.calls caller).main.listenfd = some listenfd)
    (idle : (host.calls caller).connfdSrvSide = none)
    (accepted : host.listeners.accept listenfd = some (connection, listeners)) (call : Nat) :
    ∃ event, Seen host ({ host with listeners }.set caller
      { host.calls caller with connfdSrvSide := some ⟨connection, .server⟩ }) (.accepts caller)
      call event := by
  obtain ⟨_, _, owners, self, others⟩ := Listeners.accept_spec accepted
  by_cases own : call = caller
  · subst own
    refine seen_own .accepts trivial not_false rfl ?_ ?_
    · rw [view_set, Host.view, listening, idle, waiting, waiting, self]
      exact Move.accepts _ (by rw [listening]; rfl) connection _
    · intro listenfd' listening'
      rw [calls_set_self] at listening'
      rw [listeners_set, owners]
      exact valid.owned call listenfd' listening'
  · refine ⟨.unseen, seen_nothing valid trivial (calls_set_other _ _ own) ?_⟩
    intro listenfd' listening'
    exact ⟨others _ (valid.listenfd_ne own listening' listening), owners listenfd'⟩

/-- The connection of a call is queued on its own listener or on another one of the port. -/
theorem seen_connects (valid : host.Valid) {caller port listenfd listener : Nat}
    {srv : Option Socket} {listeners : Listeners (Option Nat)}
    (value : host.calls caller = ⟨.connecting port listenfd, srv⟩)
    (connected : host.listeners.connect port listener = some listeners) (call : Nat) :
    ∃ event, Seen host ({ host with listeners }.set caller
      ⟨.joining listenfd ⟨host.listeners.nextConnection, .client⟩, srv⟩)
      (.connects caller listener) call event := by
  by_cases own : call = caller
  · subst own
    obtain ⟨_, next, owners, self, others⟩ := Listeners.connect_spec connected
    have made : ∀ connection, some host.listeners.nextConnection = some connection →
        connection = host.listeners.nextConnection ∧ connection < listeners.nextConnection := by
      rintro connection ⟨⟩
      rw [next]
      exact ⟨rfl, Nat.lt_succ_self _⟩
    have owned : ∀ listenfd', MainThread.listenfd (.joining listenfd
        ⟨host.listeners.nextConnection, .client⟩) = some listenfd' →
          listeners.ownerOf listenfd' = some (some call) := by
      rintro listenfd' ⟨⟩
      rw [owners]
      apply valid.owned
      rw [value]
      rfl
    by_cases home : listenfd = listener
    · subst home
      refine ⟨.connects host.listeners.nextConnection, ?_, ?_, made, ?_⟩
      · rw [view_eq value, view_set]
        change Move ⟨_, srv, host.listeners.queue listenfd⟩ _ ⟨_, srv, listeners.queue listenfd⟩
        rw [self]
        exact Move.connects port listenfd srv _ _
      · rw [Undisturbed, if_pos rfl, value]
        exact iff_of_true rfl not_false
      · rw [calls_set_self]
        exact owned
    · refine ⟨.connectsElsewhere host.listeners.nextConnection, ?_, ?_, made, ?_⟩
      · rw [view_eq value, view_set]
        change Move ⟨_, srv, host.listeners.queue listenfd⟩ _ ⟨_, srv, listeners.queue listenfd⟩
        rw [others listenfd home]
        exact Move.connectsElsewhere port listenfd srv _ _
      · rw [Undisturbed, if_pos rfl, value]
        exact iff_of_false (fun same => home (Option.some.inj same)) (not_not.mpr trivial)
      · rw [calls_set_self]
        exact owned
  · refine seen_connection valid connected (calls_set_other _ _ own) rfl ?_
    rw [Undisturbed, if_neg (Ne.symm own)]

theorem seen_over (valid : host.Valid) {caller listenfd : Nat} (action : Action)
    (listening : (host.calls caller).main.listenfd = some listenfd)
    (undisturbed : Undisturbed call host action) (other : call ≠ caller) (value : Call) :
    Seen host ({ host with listeners := host.listeners.close listenfd }.set caller value) action
      call .unseen := by
  refine seen_nothing valid undisturbed (calls_set_other _ _ other) ?_
  intro listenfd' listening'
  have different := valid.listenfd_ne other listening' listening
  exact ⟨Listeners.queue_close_other different, Listeners.ownerOf_close_other different⟩

theorem seen_returns (valid : host.Valid) {caller listenfd : Nat} {cli srv : Socket}
    (value : host.calls caller = ⟨.joining listenfd cli, some srv⟩) (call : Nat) :
    ∃ event, Seen host ({ host with listeners := host.listeners.close listenfd }.set caller
      ⟨.returned cli srv, some srv⟩) (.returns caller) call event := by
  by_cases own : call = caller
  · subst own
    refine seen_own .returns trivial not_false rfl ?_ ?_
    · rw [view_eq value, view_set]
      exact Move.returns listenfd cli srv _
    · intro listenfd' listening
      rw [calls_set_self] at listening
      cases listening
  · exact ⟨.unseen, seen_over valid (.returns caller) (by rw [value]; rfl) trivial own _⟩

theorem seen_throws (valid : host.Valid) {caller : Nat} {listeners : Listeners (Option Nat)}
    (closed : listeners = host.listeners ∨
      ∃ listenfd, (host.calls caller).main.listenfd = some listenfd ∧
        listeners = host.listeners.close listenfd) (call : Nat) :
    ∃ event, Seen host ({ host with listeners }.set caller
      ⟨.thrown, (host.calls caller).connfdSrvSide⟩) (.throws caller) call event := by
  by_cases own : call = caller
  · subst own
    refine seen_own .throws trivial not_false rfl ?_ ?_
    · rw [view_set, Host.view]
      exact Move.throws _ _ _
    · intro listenfd listening
      rw [calls_set_self] at listening
      cases listening
  · refine ⟨.unseen, ?_⟩
    cases closed with
    | inl same =>
        subst same
        exact seen_nothing valid trivial (calls_set_other host _ own) fun _ _ => ⟨rfl, rfl⟩
    | inr closes =>
        obtain ⟨listenfd, listening, rfl⟩ := closes
        exact seen_over valid (.throws caller) listening trivial own _

theorem Host.Valid.listenfd_ne_other (valid : host.Valid) {listenfd listener : Nat}
    (listening : (host.calls call).main.listenfd = some listenfd)
    (other : host.listeners.ownerOf listener = some none) : listenfd ≠ listener := by
  rintro rfl
  rw [valid.owned call listenfd listening, Option.some.injEq] at other
  cases other

/-- Every step of the host is seen by every call as one of its moves. -/
theorem step_seen (valid : host.Valid) (taken : Taken host action after) (call : Nat) :
    ∃ event, Seen host after action call event := by
  cases taken with
  | chooses value range => exact seen_chooses valid value call
  | listens value => exact seen_listens valid value call
  | accepts listening idle accepted => exact seen_accepts valid listening idle accepted call
  | connects value connected => exact seen_connects valid value connected call
  | returns value => exact seen_returns valid value call
  | throws caller listeners closed => exact seen_throws valid closed call
  | otherListens port =>
      refine ⟨.unseen, seen_nothing valid trivial rfl ?_⟩
      intro listenfd listening
      have older := Nat.ne_of_lt
        (valid.listeners.listener_lt _ _ (valid.owned call listenfd listening))
      exact ⟨Listeners.queue_listen_other _ _ older, Listeners.ownerOf_listen_other _ _ older⟩
  | otherCloses other =>
      refine ⟨.unseen, seen_nothing valid trivial rfl ?_⟩
      intro listenfd listening
      have different := valid.listenfd_ne_other listening other
      exact ⟨Listeners.queue_close_other different, Listeners.ownerOf_close_other different⟩
  | otherAccepts other accepted =>
      obtain ⟨_, _, owners, _, others⟩ := Listeners.accept_spec accepted
      refine ⟨.unseen, seen_nothing valid trivial rfl ?_⟩
      intro listenfd listening
      exact ⟨others _ (valid.listenfd_ne_other listening other), owners listenfd⟩
  | otherConnects connected => exact seen_connection valid connected rfl rfl Iff.rfl

/-- Connections are only ever added, and no number is given out twice. -/
theorem step_listeners (valid : host.listeners.Valid) (taken : Taken host action after) :
    after.listeners.Valid ∧
      host.listeners.nextConnection ≤ after.listeners.nextConnection := by
  cases taken with
  | chooses value range => exact ⟨valid, Nat.le_refl _⟩
  | listens value => exact ⟨valid.listen _ _, Nat.le_refl _⟩
  | accepts listening idle accepted =>
      exact ⟨valid.accept accepted, Nat.le_of_eq (Listeners.accept_spec accepted).2.1.symm⟩
  | connects value connected =>
      refine ⟨valid.connect connected, ?_⟩
      exact (Listeners.connect_spec connected).2.1 ▸ Nat.le_succ _
  | returns value => exact ⟨valid.close _, Nat.le_refl _⟩
  | throws caller listeners closed =>
      obtain rfl | ⟨listenfd, _, rfl⟩ := closed
      · exact ⟨valid, Nat.le_refl _⟩
      · exact ⟨valid.close _, Nat.le_refl _⟩
  | otherListens port => exact ⟨valid.listen _ _, Nat.le_refl _⟩
  | otherCloses other => exact ⟨valid.close _, Nat.le_refl _⟩
  | otherAccepts other accepted =>
      exact ⟨valid.accept accepted, Nat.le_of_eq (Listeners.accept_spec accepted).2.1.symm⟩
  | otherConnects connected =>
      refine ⟨valid.connect connected, ?_⟩
      exact (Listeners.connect_spec connected).2.1 ▸ Nat.le_succ _

theorem step_valid (valid : host.Valid) (taken : Taken host action after) :
    after.Valid := by
  obtain ⟨listeners, grows⟩ := step_listeners valid.listeners taken
  constructor
  · exact listeners
  · intro call listenfd listening
    obtain ⟨event, seen⟩ := step_seen valid taken call
    exact seen.owned listenfd listening
  · intro call
    obtain ⟨event, seen⟩ := step_seen valid taken call
    apply move_known ((valid.known call).mono grows) _ seen.moved
    intro connection made
    exact (seen.made connection made).2

theorem step_private (valid : host.Valid) (taken : Taken host action after)
    (undisturbed : Undisturbed call host action) (apart : Private (host.view call)) :
    Private (after.view call) := by
  obtain ⟨event, seen⟩ := step_seen valid taken call
  exact move_private apart (seen.disturbs.mp undisturbed) seen.moved

theorem step_disturbed (valid : host.Valid) (taken : Taken host action after)
    (disturbed : ¬ Undisturbed call host action) (apart : Private (host.view call)) :
    Crossed (after.view call) := by
  obtain ⟨event, seen⟩ := step_seen valid taken call
  rw [seen.disturbs, not_not] at disturbed
  exact move_disturbed apart disturbed seen.moved

theorem step_crossed (valid : host.Valid) (taken : Taken host action after)
    (crossed : Crossed (host.view call)) : Crossed (after.view call) := by
  obtain ⟨event, seen⟩ := step_seen valid taken call
  exact move_crossed (valid.known call) crossed (fun made new => (seen.made made new).1) seen.moved

end Step

section Run

variable {host finish : Host} {actions : List Action} {call : Nat}

theorem valid_of_reachable (reached : Reachable step start host) : host.Valid :=
  reached.invariant start_valid fun _ _ _ _ valid taken => step_valid valid (taken_of_step taken)

theorem private_or_crossed (reached : Reachable step start host) (call : Nat) :
    Private (host.view call) ∨ Crossed (host.view call) := by
  apply reached.invariant
  · exact Or.inl rfl
  · intro before action after earlier either ran
    have taken := taken_of_step ran
    have valid := valid_of_reachable earlier
    cases either with
    | inl apart =>
        by_cases undisturbed : Undisturbed call before action
        · exact .inl (step_private valid taken undisturbed apart)
        · exact .inr (step_disturbed valid taken undisturbed apart)
    | inr crossed => exact .inr (step_crossed valid taken crossed)

theorem private_of_undisturbed (ran : run step start actions = some finish)
    (undisturbed : Throughout step (Undisturbed call) start actions) :
    Private (finish.view call) := by
  apply undisturbed.invariant ran
  · rfl
  · intro before action after earlier apart good taken
    exact step_private (valid_of_reachable earlier) (taken_of_step taken) good apart

theorem crossed_of_disturbed (ran : run step start actions = some finish)
    (disturbed : ¬ Throughout step (Undisturbed call) start actions) :
    Crossed (finish.view call) := by
  obtain ⟨before, action, after, earlier, bad, taken, later⟩ :=
    exists_of_not_throughout disturbed ran
  have valid := valid_of_reachable earlier
  have crossed : Crossed (after.view call) := by
    cases private_or_crossed earlier call with
    | inl apart => exact step_disturbed valid (taken_of_step taken) bad apart
    | inr crossed => exact step_crossed valid (taken_of_step taken) crossed
  apply later.invariant
  · exact crossed
  · intro middle action' next between crossed taken'
    have reached : Reachable step start middle := (earlier.next action taken).trans between
    exact step_crossed (valid_of_reachable reached) (taken_of_step taken') crossed

/-- A call returns the two ends of one connection exactly if, in the whole run, nothing came
between it and its own connection. -/
theorem joined_iff {cli srv : Socket} (ran : run step start actions = some finish)
    (returned : (finish.calls call).main = .returned cli srv) :
    TwoEnds cli srv ↔ Throughout step (Undisturbed call) start actions := by
  have main : (finish.view call).main = .returned cli srv := returned
  constructor
  · intro joined
    by_contra disturbed
    have crossed := crossed_of_disturbed ran disturbed
    rw [Crossed, main] at crossed
    exact crossed joined.1
  · intro undisturbed
    have apart := private_of_undisturbed ran undisturbed
    rw [Private, main] at apart
    have sides := ((valid_of_reachable (reachable_of_run actions ran)).known call).main
    rw [main] at sides
    refine ⟨apart, ?_⟩
    rw [sides.1, sides.2]
    decide

theorem joined_iff_second :
    Throughout step (Undisturbed 0) start [.otherListens 40000, .chooses 0 40000, .listens 0,
      .connects 0 1, .otherConnects 40000 1, .accepts 0, .returns 0] := by
  have joined : TwoEnds ⟨0, .client⟩ ⟨0, .server⟩ := ⟨rfl, by decide⟩
  exact (joined_iff rfl rfl).mp joined

theorem stranger_run : (run step start [.chooses 0 40000, .listens 0, .otherConnects 40000 0,
    .connects 0 0, .accepts 0, .returns 0]).map (fun host => (host.calls 0).main) =
      some (.returned ⟨1, .client⟩ ⟨0, .server⟩) := rfl

theorem exchanged_run : (run step start [.chooses 0 40000, .chooses 1 40000, .listens 0,
    .listens 1, .connects 0 1, .connects 1 0, .accepts 0, .accepts 1, .returns 0,
    .returns 1]).map (fun host => ((host.calls 0).main, (host.calls 1).main)) =
      some (.returned ⟨0, .client⟩ ⟨1, .server⟩, .returned ⟨1, .client⟩ ⟨0, .server⟩) := rfl

/-- A stranger that connects first is taken for the other thread, and two forwarders on one port
can be joined to each other. -/
theorem joined_to_others :
    (∃ host, Reachable step start host ∧
      (host.calls 0).main = .returned ⟨1, .client⟩ ⟨0, .server⟩ ∧
      ¬ TwoEnds ⟨1, .client⟩ ⟨0, .server⟩) ∧
    ∃ host, Reachable step start host ∧
      (host.calls 0).main = .returned ⟨0, .client⟩ ⟨1, .server⟩ ∧
      (host.calls 1).main = .returned ⟨1, .client⟩ ⟨0, .server⟩ ∧
      ¬ TwoEnds ⟨0, .client⟩ ⟨1, .server⟩ := by
  constructor
  · obtain ⟨host, reached, returned⟩ := reachable_of_observed _ _ stranger_run
    exact ⟨host, reached, returned, by decide⟩
  · obtain ⟨host, reached, seen⟩ := reachable_of_observed _ _ exchanged_run
    obtain ⟨first, second⟩ := Prod.mk.inj seen
    exact ⟨host, reached, first, second, by decide⟩

end Run

end UdpForwarder.TcpPipe
