import UdpForwarder.ConnectionTable

/-! Runs that get somewhere: how far a thread gets in its `sendn`, and a datagram on its way
through both threads of an idle forwarder. -/

namespace UdpForwarder.Progress

open ClientId ConnectionTable Filters Ipc Listener Plain SockIO Transition

section Sending

variable {Calls : Type} (listener : Listener Calls)

def advance (view : View) (action : Listener.Action Calls) : Option View :=
  match listener.step view action with
  | some (view', none) => some view'
  | _ => none

variable {listener} {view view' : View} {events : List Fd} {buffers : List Bytes}

theorem advance_of_step {action : Listener.Action Calls}
    (taken : listener.step view action = some (view', none)) :
    advance listener view action = some view' := by
  simp only [advance, taken]

theorem step_of_advance {action : Listener.Action Calls}
    (taken : advance listener view action = some view') :
    listener.step view action = some (view', none) := by
  simp only [advance] at taken
  split at taken
  · rename_i stepped
    injection taken with same
    rw [stepped, same]
  · cases taken

theorem advance_epollWait (waits : view.thread = ⟨[], .loop⟩)
    (reported : listener.Reported view events) :
    advance listener view (.epollWait (some events)) =
      some ⟨view.process, ⟨events, .loop⟩, view.incoming, view.outgoing⟩ := by
  apply advance_of_step
  simp only [Listener.step, if_pos waits, if_pos reported]

theorem reported_pipe (registered : listener.pipe ∈ listener.interest view.process)
    (pending : view.incoming ≠ []) : listener.Reported view [listener.pipe] := by
  refine ⟨List.cons_ne_nil _ _, by simp [epollMaxEvents], List.nodup_singleton _, ?_,
    fun _ => pending, fun _ => Or.inl (List.mem_singleton_self _)⟩
  intro fd member
  rw [List.mem_singleton.mp member]
  exact registered

theorem reported_message {activeFd : Fd} (registered : activeFd ∈ listener.interest view.process)
    (other : activeFd ≠ listener.pipe) (empty : view.incoming = []) :
    listener.Reported view [activeFd] := by
  refine ⟨List.cons_ne_nil _ _, by simp [epollMaxEvents], List.nodup_singleton _, ?_, ?_, ?_⟩
  · intro fd member
    rw [List.mem_singleton.mp member]
    exact registered
  · intro pipe
    exact absurd (List.mem_singleton.mp pipe).symm other
  · intro pending
    exact absurd empty pending

theorem advance_message {calls : Calls} {activeFd : Fd} {messages : List Message}
    {process' : Process} (waits : view.thread = ⟨[], .loop⟩)
    (registered : activeFd ∈ listener.interest view.process) (other : activeFd ≠ listener.pipe)
    (empty : view.incoming = []) (legal : listener.legal calls view.process = true)
    (ran : (listener.onMessage calls activeFd).run view.process = .ok messages process') :
    Reachable (advance listener) view ⟨process', ⟨[], .send (messages.flatMap forwardMessage)⟩,
      view.incoming, view.outgoing⟩ := by
  have woken := advance_epollWait waits (reported_message registered other empty)
  apply (Reachable.single _ woken).next (.event calls)
  apply advance_of_step
  simp only [Listener.step, if_neg other, if_pos legal, ran, handled]

theorem send_empty (nothing : buffers.flatten = []) : Pc.send buffers = .loop := by
  induction buffers with
  | nil => rfl
  | cons buf later ih =>
      rw [List.flatten_cons, List.append_eq_nil_iff] at nothing
      rw [Pc.send, if_pos nothing.1, ih nothing.2]

theorem send_content {byte : UInt8} {rest : Bytes} (content : buffers.flatten = byte :: rest) :
    ∃ buf later, Pc.send buffers = .sending (byte :: buf) later ∧
      (buf :: later).flatten = rest := by
  induction buffers with
  | nil => cases content
  | cons buf later ih =>
      cases buf with
      | nil =>
          rw [List.flatten_cons, List.nil_append] at content
          rw [Pc.send, if_pos rfl]
          exact ih content
      | cons first others =>
          rw [List.flatten_cons, List.cons_append] at content
          injection content with same tail
          subst same
          refine ⟨others, later, ?_, tail⟩
          rw [Pc.send, if_neg (List.cons_ne_nil _ _)]

theorem advance_send_byte {byte : UInt8} {rest : Bytes}
    (sending : view.thread = ⟨events, .send buffers⟩) (content : buffers.flatten = byte :: rest)
    (room : view.outgoing.length < listener.capacity) :
    ∃ later, later.flatten = rest ∧ advance listener view (.send 1) = some ⟨view.process,
      ⟨events, .send later⟩, view.incoming, view.outgoing ++ [byte]⟩ := by
  rcases send_content content with ⟨buf, later, atSend, tail⟩
  refine ⟨buf :: later, tail, advance_of_step ?_⟩
  have guard : 0 < 1 ∧ 1 ≤ (byte :: buf).length ∧
      view.outgoing.length + 1 ≤ listener.capacity := by
    refine ⟨Nat.one_pos, ?_, room⟩
    rw [List.length_cons]
    exact Nat.le_add_left 1 _
  simp only [Listener.step, sending, atSend, if_pos guard, List.drop_one, List.tail_cons,
    List.take_succ_cons, List.take_zero]

theorem advance_send (count : Nat) (sending : view.thread = ⟨events, .send buffers⟩)
    (present : count ≤ buffers.flatten.length)
    (room : view.outgoing.length + count ≤ listener.capacity) :
    ∃ later, later.flatten = buffers.flatten.drop count ∧
      Reachable (advance listener) view ⟨view.process, ⟨events, .send later⟩, view.incoming,
        view.outgoing ++ buffers.flatten.take count⟩ := by
  induction count with
  | zero =>
      refine ⟨buffers, rfl, ?_⟩
      rw [List.take_zero, List.append_nil, ← sending]
      exact Reachable.refl
  | succ count ih =>
      rcases ih (by omega) (by omega) with ⟨later, rest, reached⟩
      have inside : count < buffers.flatten.length := present
      have content : later.flatten =
          buffers.flatten[count] :: buffers.flatten.drop (count + 1) := by
        rw [rest, List.drop_eq_getElem_cons inside]
      have free : (view.outgoing ++ buffers.flatten.take count).length < listener.capacity := by
        rw [List.length_append, List.length_take_of_le (Nat.le_of_lt inside)]
        omega
      let middle : View := ⟨view.process, ⟨events, .send later⟩, view.incoming,
        view.outgoing ++ buffers.flatten.take count⟩
      have sending' : middle.thread = ⟨events, .send later⟩ := rfl
      rcases advance_send_byte sending' content free with ⟨last, tail, taken⟩
      refine ⟨last, tail, ?_⟩
      rw [List.take_succ_eq_append_getElem inside, ← List.append_assoc]
      exact reached.next _ taken

end Sending

section Threads

variable {setup : Setup} {state : State} {view : View} {process process' : Process}

def withInbound (state : State) (view : View) : State :=
  ⟨view.process, view.thread, state.outbound, view.outgoing, view.incoming, none⟩

def withOutbound (state : State) (view : View) : State :=
  ⟨view.process, state.inbound, view.thread, view.incoming, view.outgoing, none⟩

theorem reachable_inbound (running : state.fault = none)
    (reached : Reachable (advance setup.inbound) state.inboundView view) :
    Reachable (State.step setup) state (withInbound state view) := by
  apply reached.invariant
  · have same : withInbound state state.inboundView = state := by
      rw [withInbound, ← running]
      rfl
    rw [same]
    exact Reachable.refl
  · intro before action after _ earlier taken
    apply earlier.next (.inbound action)
    have stepped : setup.inbound.step (withInbound state before).inboundView action =
        some (after, none) := step_of_advance taken
    simp only [State.step, stepped, Option.map_some]
    rfl

theorem reachable_outbound (running : state.fault = none)
    (reached : Reachable (advance setup.outbound) state.outboundView view) :
    Reachable (State.step setup) state (withOutbound state view) := by
  apply reached.invariant
  · have same : withOutbound state state.outboundView = state := by
      rw [withOutbound, ← running]
      rfl
    rw [same]
    exact Reachable.refl
  · intro before action after _ earlier taken
    apply earlier.next (.outbound action)
    have stepped : setup.outbound.step (withOutbound state before).outboundView action =
        some (after, none) := step_of_advance taken
    simp only [State.step, stepped, Option.map_some]
    rfl

def idle : Thread := ⟨[], .loop⟩

def quiet (process : Process) : State := ⟨process, idle, idle, [], [], none⟩

def writing (process : Process) (outbound : Thread) (buffers : List Bytes) : State :=
  ⟨process, ⟨[], .send buffers⟩, outbound, [], [], none⟩

theorem reachable_writing (process : Process) (source : SourceAddr) (leftover : Leftover)
    {datagram result : Bytes}
    (converted : setup.filter.convertForward (datagram.take dgramBufferSize) = some result)
    (bound : result.length ≤ stringMaxSize) :
    Reachable (State.step setup) (quiet process)
      (writing (process.record (.taken source leftover datagram)) idle
        (forwardMessage ⟨clientId source leftover, result⟩)) := by
  let calls : InboundCalls := ⟨some (source, datagram), leftover, true⟩
  have ran : (setup.inbound.onMessage calls setup.listenFd).run process =
      .ok [⟨clientId source leftover, result⟩]
        (process.record (.taken source leftover datagram)) := by
    rw [inbound_onMessage_run, PlainInbound.onClientMessage_run]
    simp only [calls, converted, if_pos bound]
  have waits : (quiet process).inboundView.thread = ⟨[], .loop⟩ := rfl
  have listens : setup.listenFd ∈ setup.inbound.interest process := Finset.mem_insert_self _ _
  have taken := advance_message waits listens setup.listenFd_ne_pipe rfl rfl ran
  have running : (quiet process).fault = none := rfl
  exact reachable_inbound running taken

def crossing (process : Process) (got : Bytes) (byte : UInt8) (buffers : List Bytes) : State :=
  ⟨process, ⟨[], .send buffers⟩, ⟨[], .receiving got⟩, [byte], [], none⟩

theorem writing_sends (setup : Setup) (process : Process) (outbound : Thread) {byte : UInt8}
    {rest : Bytes} {buffers : List Bytes} (content : buffers.flatten = byte :: rest) :
    ∃ later, later.flatten = rest ∧
      Reachable (State.step setup) (writing process outbound buffers)
        ⟨process, ⟨[], .send later⟩, outbound, [byte], [], none⟩ := by
  let before := writing process outbound buffers
  have sending : before.inboundView.thread = ⟨[], .send buffers⟩ := rfl
  have room : before.inboundView.outgoing.length < setup.inbound.capacity := setup.toOutbound_pos
  rcases advance_send_byte sending content room with ⟨later, tail, taken⟩
  have running : before.fault = none := rfl
  exact ⟨later, tail, reachable_inbound running (Reachable.single _ taken)⟩

section Carrying

variable {message : Message} {calls : OutboundCalls}

theorem recv_allowed (setup : Setup) (byte : UInt8) {asked : Nat} (wanted : 0 < asked)
    (legal : PlainOutbound.Legal calls process) : 0 < 1 ∧ 1 ≤ asked ∧ 1 ≤ [byte].length ∧
      setup.outbound.legal calls process = true :=
  ⟨Nat.one_pos, wanted, Nat.le_refl _, decide_eq_true legal⟩

theorem crossing_last {got : Bytes} {byte : UInt8} {buffers : List Bytes}
    (accepted : Accepted message) (legal : PlainOutbound.Legal calls process)
    (ran : (PlainOutbound.onPipeMessage calls message).run process = .ok () process')
    (stream : got ++ [byte] = frames [message]) (finished : buffers.flatten = []) :
    Reachable (State.step setup) (crossing process got byte buffers) (quiet process') := by
  have whole := recvPair_frames accepted []
  rw [← stream] at whole
  rcases recvPair_waits accepted stream (List.cons_ne_nil _ _) with ⟨asked, waiting, wanted⟩
  have guard := recv_allowed setup byte wanted legal
  apply Reachable.single (.outbound (.recv 1 calls))
  have handler : (silent (setup.outbound.onPipeMessage calls message)).run process =
      .ok [] process' := by
    rw [silent_run]
    simp only [Setup.outbound, ran]
  simp only [State.step, Listener.step, State.outboundView, crossing, waiting, if_pos guard,
    List.take_succ_cons, List.take_zero, whole, handler, Listener.handled, send_empty finished]
  rfl

theorem crossing_carries {rest : Bytes} (accepted : Accepted message)
    (legal : PlainOutbound.Legal calls process)
    (ran : (PlainOutbound.onPipeMessage calls message).run process = .ok () process') :
    ∀ {got byte buffers}, buffers.flatten = rest →
      got ++ byte :: rest = frames [message] →
      Reachable (State.step setup) (crossing process got byte buffers) (quiet process') := by
  induction rest with
  | nil =>
      intro got byte buffers finished stream
      exact crossing_last accepted legal ran stream finished
  | cons next rest ih =>
      intro got byte buffers content stream
      have together : (got ++ [byte]) ++ next :: rest = frames [message] := by
        rw [List.append_assoc]
        exact stream
      rcases recvPair_waits accepted stream (List.cons_ne_nil _ _) with ⟨asked, waiting, wanted⟩
      rcases recvPair_waits accepted together (List.cons_ne_nil _ _) with ⟨more, needs, _⟩
      have guard := recv_allowed setup byte wanted legal
      have read : State.step setup (crossing process got byte buffers)
          (.outbound (.recv 1 calls)) =
            some (writing process ⟨[], .receiving (got ++ [byte])⟩ buffers) := by
        simp only [State.step, Listener.step, State.outboundView, crossing, waiting, if_pos guard,
          List.take_succ_cons, List.take_zero, needs]
        rfl
      rcases writing_sends setup process ⟨[], .receiving (got ++ [byte])⟩ content with
        ⟨buffers', tail, sent⟩
      exact ((Reachable.single _ read).trans sent).trans (ih tail together)

/-- A message that is written while the outbound thread waits is handled, whatever the capacity
of the pipe. -/
theorem reachable_handled (registered : setup.outboundPipe ∈ process.outboundSet)
    (accepted : Accepted message) (legal : PlainOutbound.Legal calls process)
    (ran : (PlainOutbound.onPipeMessage calls message).run process = .ok () process') :
    Reachable (State.step setup) (writing process idle (forwardMessage message))
      (quiet process') := by
  have stream : (forwardMessage message).flatten = frames [message] := (frames_singleton _).symm
  cases content : frames [message] with
  | nil => exact absurd content (frames_ne_nil message [])
  | cons byte rest =>
      rw [content] at stream
      rcases writing_sends setup process idle stream with ⟨buffers, tail, sent⟩
      let after : State := ⟨process, ⟨[], .send buffers⟩, idle, [byte], [], none⟩
      have waits : after.outboundView.thread = ⟨[], .loop⟩ := rfl
      have pending : after.outboundView.incoming ≠ [] := List.cons_ne_nil _ _
      have reported : setup.outbound.Reported after.outboundView [setup.outbound.pipe] :=
        reported_pipe registered pending
      have woken := advance_epollWait waits reported
      have reading : Reachable (advance setup.outbound) after.outboundView
          (crossing process [] byte buffers).outboundView := by
        apply (Reachable.single _ woken).next (.event calls)
        apply advance_of_step
        simp only [Listener.step, if_true]
        rfl
      have running : after.fault = none := rfl
      have received : Reachable (State.step setup) (crossing process [] byte buffers)
          (quiet process') := crossing_carries accepted legal ran tail content.symm
      exact (sent.trans (reachable_outbound running reading)).trans received

/-- A forwarder that waits can take any datagram it can convert, and send what it becomes. -/
theorem reachable_emitted (source : SourceAddr) (leftover : Leftover) {datagram result : Bytes}
    (registered : setup.outboundPipe ∈ process.outboundSet)
    (converted : setup.filter.convertForward (datagram.take dgramBufferSize) = some result)
    (small : result.length ≤ maxMsgLen) : ∃ process',
      Emitted (process.record (.taken source leftover datagram))
        ⟨clientId source leftover, result⟩ process' ∧
      Reachable (State.step setup) (quiet process) (quiet process') := by
  rcases Infinite.exists_notMem_finset process.openFds with ⟨connFd, fresh⟩
  have succeed : Succeed (succeeding connFd []) := ⟨⟨connFd, rfl⟩, rfl, rfl, ⟨[], rfl⟩, rfl⟩
  have legal : PlainOutbound.Legal (succeeding connFd [])
      (process.record (.taken source leftover datagram)) := fresh
  have accepted : Accepted ⟨clientId source leftover, result⟩ := by
    refine ⟨?_, small⟩
    rw [clientId_length]
    decide
  rcases pipe_returns succeed (process.record (.taken source leftover datagram))
    ⟨clientId source leftover, result⟩ with ⟨process', ran⟩
  refine ⟨process', PlainOutbound.onPipeMessage_ok legal ran, ?_⟩
  have taken := reachable_writing process source leftover converted
    (Nat.le_trans small (by decide))
  exact taken.trans (reachable_handled registered accepted legal ran)

end Carrying

theorem reachable_answering {connFd : Fd} {senderId datagram result : Bytes}
    (running : state.fault = none) (waits : state.outbound = idle)
    (empty : state.toOutbound = []) (registered : connFd ∈ state.process.outboundSet)
    (other : connFd ≠ setup.outboundPipe)
    (known : state.process.connectionMap.server2client connFd = some senderId)
    (some_bytes : datagram ≠ [])
    (converted : setup.filter.convertBackward (datagram.take dgramBufferSize) = some result)
    (bound : result.length ≤ stringMaxSize) :
    Reachable (State.step setup) state { state with
      process := state.process.record (.received connFd datagram)
      outbound := ⟨[], .send (forwardMessage ⟨senderId, result⟩)⟩ } := by
  let calls : OutboundCalls := ⟨.error "", true, ⟨0, none⟩, some datagram, none⟩
  have ran : (setup.outbound.onMessage calls connFd).run state.process =
      .ok [⟨senderId, result⟩] (state.process.record (.received connFd datagram)) := by
    rw [outbound_onMessage_run, PlainOutbound.onServerMessage_data rfl some_bytes known]
    simp only [converted, if_pos bound]
  have waits' : state.outboundView.thread = ⟨[], .loop⟩ := waits
  have taken := advance_message waits' registered other empty rfl ran
  have lifted := reachable_outbound running taken
  rwa [withOutbound, ← running] at lifted

end Threads

end UdpForwarder.Progress
