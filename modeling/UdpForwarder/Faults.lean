import UdpForwarder.Delivery

/-! What is left when the handling of an event fails. -/

namespace UdpForwarder.Faults

open ClientId ConnectionTable Delivery Ipc Listener Plain Refinement Relay Transition

/-- The message that a `recv` of so many bytes from the pipe completes. -/
def completed (view : View) (count : Nat) : Option Message :=
  match recvPair (view.thread.pc.got ++ view.incoming.take count) with
  | .done message _ => some message
  | _ => none

/-- A call fails while an event of this client is handled, in the step that runs the handler. Of
the calls that `calls` has results for, a constructor names one that is really made: an empty
message is not sent. -/
inductive FailingCall (setup : Setup) (state : State) : Bytes → State.Action → Prop where
  | sendto {message : Message} {count : Nat} {calls : InboundCalls}
      (last : completed state.inboundView count = some message) (failed : calls.sendto = false) :
      FailingCall setup state message.senderId (.inbound (.recv count calls))
  | quickConnect {message : Message} {count : Nat} {calls : OutboundCalls} {what : String}
      (last : completed state.outboundView count = some message)
      (absent : state.process.connectionMap.client2server message.senderId = none)
      (failed : calls.quickConnect = .error what) :
      FailingCall setup state message.senderId (.outbound (.recv count calls))
  | epollAdd {message : Message} {count : Nat} {calls : OutboundCalls} {connFd : Fd}
      (last : completed state.outboundView count = some message)
      (absent : state.process.connectionMap.client2server message.senderId = none)
      (connected : calls.quickConnect = .ok connFd) (failed : calls.epollCtl = false) :
      FailingCall setup state message.senderId (.outbound (.recv count calls))
  | send {message : Message} {count : Nat} {calls : OutboundCalls} {connFd : Fd} {errno : String}
      (last : completed state.outboundView count = some message)
      (known : state.process.connectionMap.client2server message.senderId = some connFd)
      (some_bytes : message.binaryMessage ≠ []) (failed : calls.send.failure = some errno) :
      FailingCall setup state message.senderId (.outbound (.recv count calls))
  | firstSend {message : Message} {count : Nat} {calls : OutboundCalls} {connFd : Fd}
      {errno : String} (last : completed state.outboundView count = some message)
      (absent : state.process.connectionMap.client2server message.senderId = none)
      (connected : calls.quickConnect = .ok connFd) (registered : calls.epollCtl = true)
      (some_bytes : message.binaryMessage ≠ []) (failed : calls.send.failure = some errno) :
      FailingCall setup state message.senderId (.outbound (.recv count calls))
  | recv {client : Bytes} {activeFd : Fd} {later : List Fd} {calls : OutboundCalls}
      (active : state.outbound = ⟨activeFd :: later, .loop⟩)
      (known : state.process.connectionMap.server2client activeFd = some client)
      (failed : calls.recv = none) : FailingCall setup state client (.outbound (.event calls))
  | epollDel {client : Bytes} {activeFd : Fd} {later : List Fd} {calls : OutboundCalls}
      (active : state.outbound = ⟨activeFd :: later, .loop⟩)
      (known : state.process.connectionMap.server2client activeFd = some client)
      (emptied : calls.recv = some []) (failed : calls.epollCtl = false) :
      FailingCall setup state client (.outbound (.event calls))

/-- The pairs of all other clients are the same, in both directions. -/
def OthersKept (before after : Process) (client : Bytes) : Prop :=
  ∀ other, other ≠ client →
    after.connectionMap.client2server other = before.connectionMap.client2server other ∧
    ∀ connFd, after.connectionMap.server2client connFd = some other ↔
      before.connectionMap.server2client connFd = some other

variable {setup : Setup} {process process' : Process} {state state' : State}
  {action : State.Action} {client : Bytes} {exn : Exn}

theorem othersKept_of_map (same : process'.connectionMap = process.connectionMap)
    (client : Bytes) : OthersKept process process' client := by
  intro other _
  rw [same]
  exact ⟨rfl, fun _ => Iff.rfl⟩

theorem othersKept_connect {connFd : Fd} (tied : Tied setup process)
    (fresh : connFd ∉ process.openFds) (client : Bytes) :
    OthersKept process (process.connect client connFd) client := by
  intro other different
  refine ⟨PartialMap.assign_other _ _ different, fun fd => ?_⟩
  by_cases same : fd = connFd
  · have free := (tied.fresh fresh).1
    have entered : (process.connect client connFd).connectionMap.server2client fd =
        some client := by
      rw [same]
      exact PartialMap.assign_self _ _ _
    rw [entered, same, free]
    constructor
    · intro equal
      exact absurd (Option.some.inj equal).symm different
    · intro impossible
      cases impossible
  · have other : (process.connect client connFd).connectionMap.server2client fd =
        process.connectionMap.server2client fd := PartialMap.assign_other _ _ same
    rw [other]

theorem pipe_fails {calls : InboundCalls} (process : Process) (message : Message)
    (failed : calls.sendto = false) :
    ∃ exn, (PlainInbound.onPipeMessage calls message).run process = .error exn process := by
  cases parsed : parseClientId message.senderId with
  | error exn => exact ⟨exn, PlainInbound.onPipeMessage_unparsed parsed⟩
  | ok clientAddr =>
      refine ⟨.dynamicAssert "sendto failed", ?_⟩
      rw [PlainInbound.onPipeMessage_parsed parsed, failed, if_neg Bool.false_ne_true]

theorem send_fails {script : Handler.SendScript} {connFd : Fd} {data : Bytes} {errno : String}
    (some_bytes : data ≠ []) (failed : script.failure = some errno) :
    (Handler.quickSend script connFd data).run process =
      .error (Handler.sendError script) process := by
  rw [Handler.quickSend_run, if_pos]
  exact ⟨some_bytes, by rw [failed]; rfl⟩

theorem recv_throws {Calls : Type} {listener : Listener Calls} {view view' : View}
    {fault : Option Exn} {count : Nat} {calls : Calls} {message : Message}
    (last : completed view count = some message)
    (threw : (listener.onPipeMessage calls message).run view.process = .error exn process')
    (taken : listener.step view (.recv count calls) = some (view', fault)) :
    fault = some exn ∧ view'.process = process' := by
  rcases step_recv taken with ⟨later, got, asked, atRecv, _, _, _, _, _, outcome⟩
  rw [completed, atRecv] at last
  change (match recvPair (got ++ view.incoming.take count) with
    | .done message _ => some message
    | _ => none) = some message at last
  rcases outcome with ⟨more, needs, _⟩ | ⟨refusal, fails, _⟩ | ⟨message', unread, finished, done⟩
  · rw [needs] at last
    cases last
  · rw [fails] at last
    cases last
  · rw [finished] at last
    obtain rfl := Option.some.inj last
    rw [silent_run, threw] at done
    obtain ⟨rfl, rfl⟩ := Prod.mk.inj done
    exact ⟨rfl, rfl⟩

theorem event_throws {Calls : Type} {listener : Listener Calls} {view view' : View}
    {fault : Option Exn} {calls : Calls} {activeFd : Fd} {later : List Fd}
    (active : view.thread = ⟨activeFd :: later, .loop⟩) (other : activeFd ≠ listener.pipe)
    (threw : (listener.onMessage calls activeFd).run view.process = .error exn process')
    (taken : listener.step view (.event calls) = some (view', fault)) :
    fault = some exn ∧ view'.process = process' := by
  rcases step_event taken with ⟨reached, rest, atEvent, outcome⟩
  rw [active] at atEvent
  obtain ⟨rfl, rfl⟩ := List.cons.inj (Thread.mk.inj atEvent).1
  rcases outcome with ⟨isPipe, _⟩ | ⟨_, _, done⟩
  · exact absurd isPipe other
  · rw [threw] at done
    obtain ⟨rfl, rfl⟩ := Prod.mk.inj done
    exact ⟨rfl, rfl⟩

theorem step_inbound {action : Listener.Action InboundCalls}
    (taken : State.step setup state (.inbound action) = some state') :
    ∃ view fault, setup.inbound.step state.inboundView action = some (view, fault) ∧
      state'.process = view.process ∧ state'.fault = fault := by
  simp only [State.step] at taken
  split at taken
  · cases taken
  · rcases Option.map_eq_some_iff.mp taken with ⟨⟨view, fault⟩, stepped, rfl⟩
    exact ⟨view, fault, stepped, rfl, rfl⟩

theorem step_outbound {action : Listener.Action OutboundCalls}
    (taken : State.step setup state (.outbound action) = some state') :
    ∃ view fault, setup.outbound.step state.outboundView action = some (view, fault) ∧
      state'.process = view.process ∧ state'.fault = fault := by
  simp only [State.step] at taken
  split at taken
  · cases taken
  · rcases Option.map_eq_some_iff.mp taken with ⟨⟨view, fault⟩, stepped, rfl⟩
    exact ⟨view, fault, stepped, rfl, rfl⟩

theorem outbound_recv_fails {count : Nat} {calls : OutboundCalls} {message : Message}
    (last : completed state.outboundView count = some message)
    (threw : PlainOutbound.Legal calls state.process → ∃ exn process',
      (PlainOutbound.onPipeMessage calls message).run state.process = .error exn process' ∧
        OthersKept state.process process' message.senderId)
    (taken : State.step setup state (.outbound (.recv count calls)) = some state') :
    (∃ exn, state'.fault = some exn) ∧
      OthersKept state.process state'.process message.senderId := by
  rcases step_outbound taken with ⟨view, fault, stepped, process, fault'⟩
  rcases step_recv stepped with ⟨_, _, _, _, _, _, _, _, legal, _⟩
  rcases threw (of_decide_eq_true legal) with ⟨exn, process', thrown, kept⟩
  rcases recv_throws last thrown stepped with ⟨faulted, left⟩
  rw [process, left, fault', faulted]
  exact ⟨⟨exn, rfl⟩, kept⟩

theorem outbound_event_fails {calls : OutboundCalls} {activeFd : Fd} {later : List Fd}
    (tied : Tied setup state.process) (active : state.outbound = ⟨activeFd :: later, .loop⟩)
    (known : state.process.connectionMap.server2client activeFd = some client)
    (threw : ∃ exn process',
      (PlainOutbound.onServerMessage setup.filter calls activeFd).run state.process =
        .error exn process' ∧ process'.connectionMap = state.process.connectionMap)
    (taken : State.step setup state (.outbound (.event calls)) = some state') :
    (∃ exn, state'.fault = some exn) ∧ OthersKept state.process state'.process client := by
  rcases threw with ⟨exn, process', thrown, same⟩
  have thrown' : (setup.outbound.onMessage calls activeFd).run state.process =
      .error exn process' := by
    simp only [Setup.outbound, EStateM.run_bind, thrown]
  have other := ((tied.registered activeFd).mp ⟨client, known⟩).2
  rcases step_outbound taken with ⟨view, fault, stepped, process, fault'⟩
  rcases event_throws active other thrown' stepped with
    ⟨faulted, left⟩
  rw [process, left, fault', faulted]
  exact ⟨⟨exn, rfl⟩, othersKept_of_map same client⟩

/-- Whichever call fails, its handler throws, and what it has done to the map by then concerns
its own client. -/
theorem failing_call (tied : Tied setup state.process)
    (failing : FailingCall setup state client action)
    (taken : State.step setup state action = some state') :
    (∃ exn, state'.fault = some exn) ∧ OthersKept state.process state'.process client := by
  cases failing with
  | @sendto message count calls last failed =>
      rcases pipe_fails state.process message failed with ⟨exn, thrown⟩
      rcases step_inbound taken with ⟨view, fault, stepped, process, fault'⟩
      rcases recv_throws last thrown stepped with ⟨faulted, left⟩
      rw [process, left, fault', faulted]
      exact ⟨⟨exn, rfl⟩, othersKept_of_map rfl _⟩
  | quickConnect last absent failed =>
      apply outbound_recv_fails last _ taken
      intro _
      rw [PlainOutbound.onPipeMessage_new absent, failed]
      exact ⟨_, _, rfl, othersKept_of_map rfl _⟩
  | epollAdd last absent connected failed =>
      apply outbound_recv_fails last _ taken
      intro _
      rw [PlainOutbound.onPipeMessage_new absent, connected]
      simp only [failed, Bool.false_eq_true, if_false]
      exact ⟨_, _, rfl, othersKept_of_map rfl _⟩
  | send last known some_bytes failed =>
      apply outbound_recv_fails last _ taken
      intro _
      rw [PlainOutbound.onPipeMessage_known known, send_fails some_bytes failed]
      exact ⟨_, _, rfl, othersKept_of_map rfl _⟩
  | firstSend last absent connected registered some_bytes failed =>
      apply outbound_recv_fails last _ taken
      intro legal
      rw [PlainOutbound.Legal, connected] at legal
      rw [PlainOutbound.onPipeMessage_new absent, connected]
      simp only [registered, if_true, send_fails some_bytes failed]
      -- the connection is in the map already
      exact ⟨_, _, rfl, othersKept_connect tied legal _⟩
  | recv active known failed =>
      apply outbound_event_fails tied active known _ taken
      exact ⟨_, _, PlainOutbound.onServerMessage_failed failed, rfl⟩
  | epollDel active known emptied failed =>
      apply outbound_event_fails tied active known _ taken
      rw [PlainOutbound.onServerMessage_empty emptied known]
      simp only [failed, Bool.false_eq_true, if_false]
      exact ⟨_, _, rfl, rfl⟩

theorem final_of_fault (faulted : state.fault = some exn)
    (later : Reachable (State.step setup) state state') : state' = state := by
  rcases Relation.ReflTransGen.cases_head later with rfl | ⟨next, ⟨action, taken⟩, _⟩
  · rfl
  · rw [State.running_of_step taken] at faulted
    cases faulted

/-- A failing call of one client is an exception that ends both loops: no event is handled after
it, by either thread. It leaves the pairs of all other clients as they were. -/
theorem failure_isolated_and_final
    (reached : Reachable (State.step setup) (State.start setup) state)
    (failing : FailingCall setup state client action)
    (taken : State.step setup state action = some state') :
    (∃ exn, state'.fault = some exn) ∧ OthersKept state.process state'.process client ∧
      ∀ final, Reachable (State.step setup) state' final → final = state' := by
  rcases refines_reachable reached with ⟨relay, abstract, refines⟩
  have running : relay.fault = none := refines.fault ▸ State.running_of_step taken
  have tied : Tied setup state.process := by
    rw [refines.process]
    exact tied_reachable abstract running
  rcases failing_call tied failing taken with ⟨⟨exn, faulted⟩, kept⟩
  exact ⟨⟨exn, faulted⟩, kept, fun final later => final_of_fault faulted later⟩

def unconnected : OutboundCalls where
  quickConnect := .error "Failed to connect to any of these addr."
  epollCtl := true
  send := ⟨0, none⟩
  recv := none
  close := none

/-- One client has its connection, that of another cannot be opened. -/
def failingRun : List State.Action :=
  takes 0 ++ handles (succeeding 8 []) ++ takes 255 ++
    [.epollWait (some [4]), .event unconnected, .recv 12 unconnected, .recv 136 unconnected,
      .recv 12 unconnected].map .outbound

private theorem failing_run : (run (State.step firstSetup)
    (State.start firstSetup) failingRun).map (fun state =>
      (completed state.outboundView 1,
        state.process.connectionMap.client2server (clientId loopback (filled 255)),
        (State.step firstSetup state (.outbound (.recv 1 unconnected))).map fun state =>
          (state.fault, state.process.connectionMap.client2server
            (clientId loopback (filled 0))))) =
      some (some ⟨clientId loopback (filled 255), [1]⟩, none,
        some (some (.runtimeError "Failed to connect to any of these addr."), some 8)) := by
  decide +kernel

theorem failure_isolated_and_final_unconnected : ∃ state state',
    Reachable (State.step firstSetup) (State.start firstSetup) state ∧
      State.step firstSetup state (.outbound (.recv 1 unconnected)) = some state' ∧
      (∃ exn, state'.fault = some exn) ∧
      state'.process.connectionMap.client2server (clientId loopback (filled 0)) = some 8 ∧
      OthersKept state.process state'.process (clientId loopback (filled 255)) ∧
      ∀ final, Reachable (State.step firstSetup) state' final → final = state' := by
  rcases reachable_of_observed _ _ failing_run with ⟨state, reached, seen⟩
  rcases Prod.mk.inj seen with ⟨last, rest⟩
  rcases Prod.mk.inj rest with ⟨absent, ended⟩
  rcases Option.map_eq_some_iff.mp ended with ⟨state', taken, seen'⟩
  rcases failure_isolated_and_final reached (.quickConnect last absent rfl) taken with
    ⟨faulted, kept, final⟩
  exact ⟨state, state', reached, taken, faulted, (Prod.mk.inj seen').2, kept, final⟩

/-- The failed `quick_connect` of one client ends the loops for the other as well. -/
theorem failure_ends_loops : ∃ state,
    Reachable (State.step firstSetup) (State.start firstSetup) state ∧
      state.fault = some (.runtimeError "Failed to connect to any of these addr.") ∧
      state.process.connectionMap.client2server (clientId loopback (filled 0)) = some 8 ∧
      ∀ action, State.step firstSetup state action = none := by
  rcases reachable_of_observed _ _ failing_run with ⟨before, reached, seen⟩
  rcases Prod.mk.inj (Prod.mk.inj seen).2 with ⟨_, ended⟩
  rcases Option.map_eq_some_iff.mp ended with ⟨state, taken, seen'⟩
  rcases Prod.mk.inj seen' with ⟨fault, pair⟩
  refine ⟨state, reached.next _ taken, fault, pair, fun action => ?_⟩
  simp [State.step, fault]

end UdpForwarder.Faults
