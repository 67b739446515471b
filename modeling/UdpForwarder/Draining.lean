import UdpForwarder.Deadlock
import UdpForwarder.Sequence
import UdpForwarder.Lib.Settling
import Mathlib.Data.Prod.Lex
import Mathlib.Order.WellFounded

/-! A forwarder to which nothing new comes: it stops after finitely many steps, and where it stops
without an exception it is deadlocked or everything it took has left it. -/

namespace UdpForwarder.Draining

open ClientId ConnectionTable Deadlock Delivery Fifo Filters Forwarding Ipc Listener Plain
  Progress Refinement Sequence SockIO Transition

section Thread

variable {Calls : Type} (listener : Listener Calls)

/-- The thread waits for the pipe alone, and no call of it is interrupted. -/
def inner (pipe : Fd) : Listener.Action Calls → Bool
  | .epollWait nfds => decide (nfds = some [pipe])
  | .event _ | .recv _ _ | .send _ => true
  | .interrupted => false

structure Formed (view : View) : Prop where
  nodup : view.thread.events.Nodup
  pending : listener.pipe ∈ view.thread.events → view.incoming ≠ []
  receiving : ∀ got, view.thread.pc = .receiving got → listener.pipe ∉ view.thread.events ∧
    (∃ asked, recvPair got = .need asked) ∧ (got = [] → view.incoming ≠ [])
  sending : ∀ buf later, view.thread.pc = .sending buf later → buf ≠ []

theorem send_sending {buffers later : List Bytes} {buf : Bytes}
    (sending : Pc.send buffers = .sending buf later) : buf ≠ [] := by
  induction buffers with
  | nil => cases sending
  | cons first rest ih =>
      rw [Pc.send] at sending
      split at sending
      · exact ih sending
      · rename_i some_bytes
        injection sending with same _
        exact same ▸ some_bytes

theorem send_ne_receiving (buffers : List Bytes) (got : Bytes) :
    Pc.send buffers ≠ .receiving got := by
  induction buffers with
  | nil => exact Pc.noConfusion
  | cons first rest ih =>
      rw [Pc.send]
      split
      · exact ih
      · exact Pc.noConfusion

variable {listener} {view view' : View} {action : Listener.Action Calls}

theorem formed_send {process : Process} {events : List Fd} {buffers : List Bytes}
    {incoming outgoing : Bytes} (nodup : events.Nodup)
    (pending : listener.pipe ∈ events → incoming ≠ []) :
    Formed listener ⟨process, ⟨events, .send buffers⟩, incoming, outgoing⟩ :=
  ⟨nodup, pending, fun got receives => absurd receives (send_ne_receiving buffers got),
    fun _ _ sends => send_sending sends⟩

theorem Formed.arrive (formed : Formed listener view) (process : Process) (more outgoing : Bytes) :
    Formed listener ⟨process, view.thread, view.incoming ++ more, outgoing⟩ := by
  have still : view.incoming ≠ [] → view.incoming ++ more ≠ [] := fun some_bytes =>
    List.append_ne_nil_of_left_ne_nil some_bytes more
  refine ⟨formed.nodup, fun member => still (formed.pending member), ?_, formed.sending⟩
  intro got receives
  rcases formed.receiving got receives with ⟨absent, waiting, first⟩
  exact ⟨absent, waiting, fun nothing => still (first nothing)⟩

theorem handled_returned {later : List Fd} {incoming : Bytes}
    {result : EStateM.Result Exn Process (List Message)}
    (outcome : (view', none) = handled view later incoming result) :
    ∃ messages process, result = .ok messages process ∧
      view' = ⟨process, ⟨later, .send (messages.flatMap forwardMessage)⟩, incoming,
        view.outgoing⟩ := by
  cases result with
  | ok messages process =>
      exact ⟨messages, process, rfl, (Prod.mk.inj outcome).1⟩
  | error exn process => cases (Prod.mk.inj outcome).2

theorem Formed.step (formed : Formed listener view)
    (taken : listener.step view action = some (view', none)) : Formed listener view' := by
  cases action with
  | epollWait nfds =>
      rcases step_epollWait taken with ⟨_, failed | ⟨events, _, reported, rfl, _⟩⟩
      · cases failed.2.2
      · rcases reported with ⟨_, _, nodup, _, pending, _⟩
        exact ⟨nodup, pending, fun _ receives => Pc.noConfusion receives,
          fun _ _ sends => Pc.noConfusion sends⟩
  | event calls =>
      rcases step_event taken with ⟨activeFd, later, atEvent, pipe | ⟨_, _, outcome⟩⟩
      · rcases pipe with ⟨rfl, rfl, _⟩
        have nodup := formed.nodup
        have pending := formed.pending
        rw [atEvent] at nodup pending
        rcases List.nodup_cons.mp nodup with ⟨absent, rest⟩
        refine ⟨rest, fun member => absurd member absent, ?_, fun _ _ sends => Pc.noConfusion sends⟩
        rintro got receives
        injection receives with same
        subst same
        exact ⟨absent, ⟨sizeofPackedMsgHead, rfl⟩, fun _ => pending List.mem_cons_self⟩
      · rcases handled_returned outcome with ⟨messages, process, _, rfl⟩
        have nodup := formed.nodup
        have pending := formed.pending
        rw [atEvent] at nodup pending
        exact formed_send (List.nodup_cons.mp nodup).2 fun member =>
          pending (List.mem_cons_of_mem _ member)
  | recv count calls =>
      rcases step_recv taken with
        ⟨later, got, asked, atRecv, waiting, positive, wanted, present, _, outcome⟩
      rcases formed.receiving got (by rw [atRecv]) with ⟨absent, _, _⟩
      have nodup := formed.nodup
      rw [atRecv] at absent nodup
      rcases outcome with ⟨more, needs, _, rfl⟩ | ⟨exn, _, failed, _⟩ | ⟨message, unread, _, done⟩
      · refine ⟨nodup, fun member => absurd member absent, ?_,
          fun _ _ sends => Pc.noConfusion sends⟩
        intro got' receives
        injection receives with same
        subst same
        refine ⟨absent, ⟨more, needs⟩, fun nothing => ?_⟩
        have size := congrArg List.length nothing
        rw [List.length_append, List.length_take_of_le present, List.length_nil] at size
        omega
      · cases failed
      · rcases handled_returned done with ⟨messages, process, _, rfl⟩
        exact formed_send nodup fun member => absurd member absent
  | send count =>
      rcases step_send taken with ⟨later, buf, buffers, atSend, _, _, _, _, rfl⟩
      have nodup := formed.nodup
      have pending := formed.pending
      rw [atSend] at nodup pending
      exact formed_send nodup pending
  | interrupted =>
      rcases step_interrupted taken with ⟨rfl, _⟩
      exact formed

theorem step_appends (taken : listener.step view action = some (view', none)) :
    ∃ more, view'.outgoing = view.outgoing ++ more := by
  cases action with
  | epollWait nfds =>
      rcases step_epollWait taken with ⟨_, failed | ⟨events, _, _, rfl, _⟩⟩
      · cases failed.2.2
      · exact ⟨[], (List.append_nil _).symm⟩
  | event calls =>
      rcases step_event taken with ⟨activeFd, later, _, pipe | ⟨_, _, outcome⟩⟩
      · rcases pipe with ⟨_, rfl, _⟩
        exact ⟨[], (List.append_nil _).symm⟩
      · rcases handled_returned outcome with ⟨messages, process, _, rfl⟩
        exact ⟨[], (List.append_nil _).symm⟩
  | recv count calls =>
      rcases step_recv taken with ⟨later, got, asked, _, _, _, _, _, _, outcome⟩
      rcases outcome with ⟨more, _, _, rfl⟩ | ⟨exn, _, failed, _⟩ | ⟨message, unread, _, done⟩
      · exact ⟨[], (List.append_nil _).symm⟩
      · cases failed
      · rcases handled_returned done with ⟨messages, process, _, rfl⟩
        exact ⟨[], (List.append_nil _).symm⟩
  | send count =>
      rcases step_send taken with ⟨later, buf, buffers, _, _, _, _, _, rfl⟩
      exact ⟨_, rfl⟩
  | interrupted =>
      rcases step_interrupted taken with ⟨rfl, _⟩
      exact ⟨[], (List.append_nil _).symm⟩

def outside (pipe : Fd) (events : List Fd) : Nat := (events.filter (· ≠ pipe)).length

def phase : Thread → Nat
  | ⟨[], .loop⟩ => 2
  | ⟨_ :: _, .loop⟩ => 1
  | ⟨_, .receiving _⟩ | ⟨_, .sending _ _⟩ => 0

/-- What a thread has to do, but for the events from outside. A byte costs more before it is
written than after, and more than the way back to `epoll_wait`. -/
def work (view : View) : Nat :=
  6 * view.thread.pc.unsent.length + 3 * view.outgoing.length + 3 * view.incoming.length +
    phase view.thread

theorem phase_le (thread : Thread) : phase thread ≤ 2 := by
  rcases thread with ⟨_ | ⟨_, _⟩, _ | _ | _⟩ <;> simp [phase]

theorem phase_sending {events : List Fd} {buf : Bytes} {later : List Bytes} :
    phase ⟨events, .sending buf later⟩ = 0 := by
  cases events <;> rfl

theorem phase_receiving {events : List Fd} {got : Bytes} :
    phase ⟨events, .receiving got⟩ = 0 := by
  cases events <;> rfl

/-- An inner step of a thread gets an event from outside over with, or some of its work. -/
theorem step_lighter (allowed : inner listener.pipe action = true)
    (taken : listener.step view action = some (view', none)) :
    outside listener.pipe view'.thread.events < outside listener.pipe view.thread.events ∨
      outside listener.pipe view'.thread.events = outside listener.pipe view.thread.events ∧
        work view' < work view := by
  cases action with
  | epollWait nfds =>
      rcases step_epollWait taken with ⟨idle, failed | ⟨events, chosen, _, rfl, _⟩⟩
      · cases failed.2.2
      · have only : nfds = some [listener.pipe] := of_decide_eq_true allowed
        rw [only, Option.some.injEq] at chosen
        subst chosen
        refine Or.inr ⟨?_, ?_⟩
        · simp [outside, idle]
        · simp [work, idle, phase, Pc.unsent]
  | event calls =>
      rcases step_event taken with ⟨activeFd, later, atEvent, pipe | ⟨other, _, outcome⟩⟩
      · rcases pipe with ⟨rfl, rfl, _⟩
        refine Or.inr ⟨?_, ?_⟩
        · simp [outside, atEvent]
        · simp [work, atEvent, phase, Pc.unsent]
      · rcases handled_returned outcome with ⟨messages, process, _, rfl⟩
        apply Or.inl
        simp [outside, atEvent, other]
  | recv count calls =>
      rcases step_recv taken with ⟨later, got, asked, atRecv, _, positive, _, present, _, outcome⟩
      rcases outcome with ⟨more, _, _, rfl⟩ | ⟨exn, _, failed, _⟩ | ⟨message, unread, _, done⟩
      · refine Or.inr ⟨by rw [atRecv], ?_⟩
        simp only [work, atRecv, phase_receiving, Pc.unsent, List.length_drop]
        omega
      · cases failed
      · rw [silent_run] at done
        rcases handled_returned done with ⟨messages, process, returned, rfl⟩
        split at returned
        · injection returned with nothing _
          subst nothing
          refine Or.inr ⟨by rw [atRecv], ?_⟩
          have few := phase_le ⟨later, .loop⟩
          simp only [work, atRecv, phase_receiving, Pc.unsent, List.length_drop,
            List.flatMap_nil, Pc.send]
          omega
        · cases returned
  | send count =>
      rcases step_send taken with ⟨later, buf, buffers, atSend, positive, few, _, _, rfl⟩
      refine Or.inr ⟨by rw [atSend], ?_⟩
      have small := phase_le ⟨later, .send (buf.drop count :: buffers)⟩
      have before : (Pc.sending buf buffers).unsent = buf ++ buffers.flatten := rfl
      simp only [work, atSend, phase_sending, before, Pc.send_unsent, List.flatten_cons,
        List.length_append, List.length_drop, List.length_take_of_le few]
      omega
  | interrupted => cases allowed

theorem stalled (formed : Formed listener view) (regular : Regular listener view)
    (registered : listener.pipe ∈ listener.interest view.process)
    (possible : ∃ calls, listener.legal calls view.process = true)
    (stuck : ∀ action, inner listener.pipe action = true → listener.step view action = none) :
    view.incoming = [] ∧ (view.thread = idle ∨
      ∃ events got, view.thread = ⟨events, .receiving got⟩ ∧ got ≠ [] ∧
        ∃ asked, recvPair got = .need asked) ∨ listener.Blocked view := by
  rcases possible with ⟨calls, legal⟩
  rcases view with ⟨process, ⟨events, pc⟩, incoming, outgoing⟩
  cases pc with
  | loop =>
      cases events with
      | nil =>
          by_cases empty : incoming = []
          · exact Or.inl ⟨empty, Or.inl rfl⟩
          · have enabled := stuck (.epollWait (some [listener.pipe])) (decide_eq_true rfl)
            have reported := reported_pipe registered empty
            simp [Listener.step, reported] at enabled
      | cons activeFd later =>
          have enabled := stuck (.event calls) rfl
          simp only [Listener.step] at enabled
          split at enabled <;> cases enabled
  | receiving got =>
      rcases formed.receiving got rfl with ⟨_, ⟨asked, waiting⟩, first⟩
      by_cases empty : incoming = []
      · refine Or.inl ⟨empty, Or.inr ⟨events, got, rfl, fun nothing => ?_, asked, waiting⟩⟩
        exact first nothing empty
      · have enabled := stuck (.recv 1 calls) rfl
        have wanted := lawful_recvPair.need_pos _ _ waiting
        have guard : 0 < 1 ∧ 1 ≤ asked ∧ 1 ≤ incoming.length ∧
            listener.legal calls process = true :=
          ⟨Nat.one_pos, wanted, List.length_pos_of_ne_nil empty, legal⟩
        simp only [Listener.step, waiting, if_pos guard] at enabled
        split at enabled <;> cases enabled
  | sending buf later =>
      have some_bytes := formed.sending buf later rfl
      have bounded := regular.bounded
      apply Or.inr
      refine ⟨List.append_ne_nil_of_left_ne_nil some_bytes _, ?_⟩
      by_contra different
      have room : outgoing.length + 1 ≤ listener.capacity := by
        simp only at bounded different
        omega
      have enabled := stuck (.send 1) rfl
      have guard : 0 < 1 ∧ 1 ≤ buf.length ∧ outgoing.length + 1 ≤ listener.capacity :=
        ⟨Nat.one_pos, List.length_pos_of_ne_nil some_bytes, room⟩
      simp only [Listener.step, if_pos guard] at enabled
      cases enabled

end Thread

/-- The steps that bring nothing new from outside. What was reported before is still dealt with. -/
def internal (setup : Setup) : State.Action → Bool
  | .inbound action => inner setup.inboundPipe action
  | .outbound action => inner setup.outboundPipe action

def step (setup : Setup) (state : State) (action : State.Action) : Option State :=
  if internal setup action then State.step setup state action else none

structure Shaped (setup : Setup) (state : State) : Prop where
  inbound : Formed setup.inbound state.inboundView
  outbound : Formed setup.outbound state.outboundView

variable {setup : Setup} {state state' : State}

theorem shaped_start (setup : Setup) : Shaped setup (State.start setup) := by
  have idle : ∀ {Calls : Type} (listener : Listener Calls) (process : Process),
      Formed listener ⟨process, ⟨[], .loop⟩, [], []⟩ := fun listener process =>
    ⟨List.nodup_nil, fun member => absurd member List.not_mem_nil,
      fun _ receives => Pc.noConfusion receives, fun _ _ sends => Pc.noConfusion sends⟩
  exact ⟨idle _ _, idle _ _⟩

theorem Shaped.step {action : State.Action} (shaped : Shaped setup state)
    (taken : State.step setup state action = some state') (running : state'.fault = none) :
    Shaped setup state' := by
  cases action with
  | inbound action =>
      rcases step_inbound taken with ⟨_, view', fault, stepped, rfl⟩
      obtain rfl : fault = none := running
      rcases step_appends stepped with ⟨more, outgoing⟩
      refine ⟨shaped.inbound.step stepped, ?_⟩
      have arrived := shaped.outbound.arrive view'.process more view'.incoming
      simp only [State.outboundView, withInbound, outgoing]
      exact arrived
  | outbound action =>
      rcases step_outbound taken with ⟨_, view', fault, stepped, rfl⟩
      obtain rfl : fault = none := running
      rcases step_appends stepped with ⟨more, outgoing⟩
      refine ⟨?_, shaped.outbound.step stepped⟩
      have arrived := shaped.inbound.arrive view'.process more view'.incoming
      simp only [State.inboundView, withOutbound, outgoing]
      exact arrived

theorem shaped_reachable (reached : Reachable (State.step setup) (State.start setup) state)
    (running : state.fault = none) : Shaped setup state := by
  have shaped : state.fault = none → Shaped setup state := by
    apply reached.invariant
    · exact fun _ => shaped_start setup
    · intro before action after _ earlier taken running'
      exact (earlier (State.running_of_step taken)).step taken running'
  exact shaped running

/-- First the events from outside, then the work of both threads. -/
def burden (setup : Setup) (state : State) : ℕ ×ₗ ℕ :=
  toLex (outside setup.inboundPipe state.inbound.events +
      outside setup.outboundPipe state.outbound.events,
    6 * state.inbound.pc.unsent.length + 6 * state.outbound.pc.unsent.length +
      3 * state.toOutbound.length + 3 * state.toInbound.length +
      phase state.inbound + phase state.outbound)

theorem burden_lt {action : State.Action} (taken : step setup state action = some state')
    (running : state'.fault = none) : burden setup state' < burden setup state := by
  simp only [step, Option.ite_none_right_eq_some] at taken
  rcases taken with ⟨allowed, taken⟩
  rw [burden, burden, Prod.Lex.toLex_lt_toLex]
  cases action with
  | inbound action =>
      rcases step_inbound taken with ⟨_, view', fault, stepped, rfl⟩
      obtain rfl : fault = none := running
      have inside : inner setup.inbound.pipe action = true := allowed
      rcases step_lighter inside stepped with fewer | ⟨same, less⟩
      · apply Or.inl
        exact Nat.add_lt_add_right fewer _
      · refine Or.inr ⟨?_, ?_⟩
        · exact congrArg (· + _) same
        · simp only [work, State.inboundView] at less
          simp only [withInbound]
          omega
  | outbound action =>
      rcases step_outbound taken with ⟨_, view', fault, stepped, rfl⟩
      obtain rfl : fault = none := running
      have inside : inner setup.outbound.pipe action = true := allowed
      rcases step_lighter inside stepped with fewer | ⟨same, less⟩
      · apply Or.inl
        exact Nat.add_lt_add_left fewer _
      · refine Or.inr ⟨?_, ?_⟩
        · exact congrArg (_ + ·) same
        · simp only [work, State.outboundView] at less
          simp only [withOutbound]
          omega

theorem rest_of_fault (faulty : state.fault ≠ none) : AtRest (step setup) state := by
  intro action
  simp only [step, State.step, Option.isSome_iff_ne_none.mpr faulty, if_true, ite_self]

theorem rest_of_idle {Calls : Type} {listener : Listener Calls} {view : View}
    (waits : view.thread = idle) (empty : view.incoming = []) {action : Listener.Action Calls}
    (inside : inner listener.pipe action = true) : listener.step view action = none := by
  rcases view with ⟨process, thread, incoming, outgoing⟩
  obtain rfl : thread = idle := waits
  obtain rfl : incoming = [] := empty
  cases action with
  | epollWait nfds =>
      obtain rfl := of_decide_eq_true inside
      have unready : ¬ listener.Reported ⟨process, idle, [], outgoing⟩ [listener.pipe] :=
        fun reported => reported.2.2.2.2.1 (List.mem_singleton_self _) rfl
      simp only [Listener.step, idle, if_true]
      exact if_neg unready
  | event | recv | send | interrupted => rfl

theorem atRest_of_idle (inbound : state.inbound = idle) (outbound : state.outbound = idle)
    (toOutbound : state.toOutbound = []) (toInbound : state.toInbound = []) :
    AtRest (step setup) state := by
  intro action
  rw [step]
  split
  · rename_i inside
    cases action with
    | inbound action =>
        have still : setup.inbound.step state.inboundView action = none :=
          rest_of_idle inbound toInbound inside
        simp only [State.step, still, Option.map_none, ite_self]
    | outbound action =>
        have still : setup.outbound.step state.outboundView action = none :=
          rest_of_idle outbound toOutbound inside
        simp only [State.step, still, Option.map_none, ite_self]
  · rfl

theorem settles (setup : Setup) (state : State) : Settles (step setup) state := by
  apply settles_of_measure (burden setup)
  intro before action after taken
  by_cases running : after.fault = none
  · exact Or.inr (burden_lt taken running)
  · exact Or.inl (rest_of_fault running)

/-- Everything that was taken or received has left, but for what converts to nothing. -/
structure Drained (setup : Setup) (state : State) : Prop where
  inbound : state.inbound = idle
  outbound : state.outbound = idle
  toOutbound : state.toOutbound = []
  toInbound : state.toInbound = []
  requests : ∃ messages : List Message,
    (allTaken state.process.trace).map (messageOf setup.filter) = messages.map some ∧
    List.Forall₂ (SentFor state.process.trace) (messages.filter leaves)
      (allSent state.process.trace)
  answers : List.Forall₂ (fun input output => ∃ message,
      Answers setup.filter state.process.trace input message ∧ ReturnedTo message output)
    (allReceived state.process.trace) (allDelivered state.process.trace)

theorem unfinished {messages : List Message} {got : Bytes} {asked : Nat}
    (fits : ∀ message ∈ messages, Fits message) (waiting : recvPair got = .need asked)
    (some_bytes : got ≠ []) : got ≠ frames messages := by
  rintro rfl
  cases messages with
  | nil => exact some_bytes rfl
  | cons first rest =>
      by_cases accepted : Accepted first
      · rw [recvPair_frames accepted rest] at waiting
        cases waiting
      · rw [recvPair_oversize (fits first List.mem_cons_self) accepted rest] at waiting
        cases waiting

theorem legal_exists (setup : Setup) (process : Process) :
    (∃ calls, setup.inbound.legal calls process = true) ∧
      ∃ calls, setup.outbound.legal calls process = true :=
  ⟨⟨fromLoopback 0, rfl⟩,
    ⟨⟨.error "", true, ⟨0, none⟩, none, none⟩, decide_eq_true trivial⟩⟩

theorem reachable_of_internal {later : State} (reached : Reachable (step setup) state later) :
    Reachable (State.step setup) state later := by
  apply reached.invariant Reachable.refl
  intro before action after _ earlier taken
  exact earlier.next action (Option.ite_none_right_eq_some.mp taken).2

theorem stuck_inbound (rest : AtRest (step setup) state) (running : state.fault = none)
    (action : Listener.Action InboundCalls) (allowed : inner setup.inbound.pipe action = true) :
    setup.inbound.step state.inboundView action = none := by
  have nothing := rest (.inbound action)
  have inside : internal setup (.inbound action) = true := allowed
  simp only [step, inside, if_true, State.step, running, Option.isSome_none] at nothing
  exact Option.map_eq_none_iff.mp nothing

theorem stuck_outbound (rest : AtRest (step setup) state) (running : state.fault = none)
    (action : Listener.Action OutboundCalls) (allowed : inner setup.outbound.pipe action = true) :
    setup.outbound.step state.outboundView action = none := by
  have nothing := rest (.outbound action)
  have inside : internal setup (.outbound action) = true := allowed
  simp only [step, inside, if_true, State.step, running, Option.isSome_none] at nothing
  exact Option.map_eq_none_iff.mp nothing

theorem idle_of_stalled {thread : Thread} {messages : List Message}
    (fits : ∀ message ∈ messages, Fits message) (stream : thread.pc.got = frames messages)
    (waits : thread = idle ∨ ∃ events got, thread = ⟨events, .receiving got⟩ ∧ got ≠ [] ∧
      ∃ asked, recvPair got = .need asked) : thread = idle := by
  rcases waits with waits | ⟨events, got, atRecv, some_bytes, asked, waiting⟩
  · exact waits
  · rw [atRecv] at stream
    exact absurd stream (unfinished fits waiting some_bytes)

theorem unsent_of_waiting {thread : Thread} (waits : thread = idle ∨ ∃ events got,
    thread = ⟨events, .receiving got⟩ ∧ got ≠ [] ∧ ∃ asked, recvPair got = .need asked) :
    thread.pc.unsent = [] := by
  rcases waits with waits | ⟨events, got, atRecv, _⟩
  · rw [waits]
    rfl
  · rw [atRecv]
    rfl

theorem drained_of_empty (reached : Reachable (State.step setup) (State.start setup) state)
    (running : state.fault = none) (inbound : state.inbound = idle)
    (outbound : state.outbound = idle) (toOutbound : state.toOutbound = [])
    (toInbound : state.toInbound = []) : Drained setup state := by
  rcases sequenced reached running with ⟨⟨forward, there, gone, front, back⟩,
    backward, returning, carried⟩
  have none : InTransit state [] := by
    refine ⟨fun message member => absurd member List.not_mem_nil, ?_⟩
    rw [inbound, outbound, toOutbound]
    rfl
  have none' : InTransitBack state [] := by
    refine ⟨fun message member => absurd member List.not_mem_nil, ?_⟩
    rw [inbound, outbound, toInbound]
    rfl
  obtain rfl := inTransit_unique there none
  rw [List.append_nil] at front
  refine ⟨inbound, outbound, toOutbound, toInbound, ⟨gone, ?_, back⟩, ?_⟩
  · rw [← List.forall₂_eq_eq_eq, List.forall₂_map_left_iff, List.forall₂_map_right_iff]
    exact front.imp fun _ _ becomes => becomes_iff.mp becomes
  · exact carried.through (inTransitBack_unique returning none')

theorem pipe_registered {relay : Relay}
    (reached : Reachable (Relay.step setup) (Relay.start setup) relay)
    (running : relay.fault = none) : setup.outboundPipe ∈ relay.process.outboundSet := by
  have registered : relay.fault = none → setup.outboundPipe ∈ relay.process.outboundSet := by
    apply Relay.reachable_invariant reached
    · exact fun _ => Finset.mem_singleton_self _
    · intro before after running _ earlier move running'
      have pipe := earlier running
      cases move with
      | take taken =>
          cases taken
          exact pipe
      | deliver queue delivered =>
          cases delivered
          exact pipe
      | receive received =>
          cases received
          exact pipe
      | emit queue emitted =>
          cases emitted with
          | known entry =>
              rw [Process.emit]
              split <;> exact pipe
          | new absent fresh =>
              rw [Process.emit]
              split <;> exact Finset.mem_insert_of_mem pipe
      | notTaken | notDelivered | notReceived | notEmitted | broken => cases running'
  exact registered running

/-- Where nothing is possible any more and nothing was thrown, both threads stand in a `sendn` on
a full pipe, or both wait for events and the pipe is empty. -/
theorem deadlocked_or_drained
    (reached : Reachable (State.step setup) (State.start setup) state)
    (rest : AtRest (step setup) state) (running : state.fault = none) :
    Deadlocked setup state ∨ Drained setup state := by
  have shaped := shaped_reachable reached running
  have settled := settled_reachable reached running
  rcases refines_reachable reached with ⟨relay, abstract, refines⟩
  have running' : relay.fault = none := refines.fault ▸ running
  have sound := Isolation.sound_reachable abstract
  have listens : setup.inboundPipe ∈ setup.inbound.interest state.process := by
    simp [Setup.inbound]
  have registered : setup.outboundPipe ∈ setup.outbound.interest state.process := by
    rw [refines.process]
    exact pipe_registered abstract running'
  have toInbound := refines.toInbound running
  have toOutbound := refines.toOutbound running
  rcases legal_exists setup state.process with ⟨legal, legal'⟩
  rcases stalled shaped.inbound settled.inbound listens legal (stuck_inbound rest running) with
    ⟨empty, waits⟩ | blocked
  · rcases stalled shaped.outbound settled.outbound registered legal'
      (stuck_outbound rest running) with ⟨empty', waits'⟩ | blocked'
    · simp only [State.inboundView, State.outboundView] at empty empty' waits waits'
      rw [empty, List.append_nil, unsent_of_waiting waits', List.append_nil] at toInbound
      rw [empty', List.append_nil, unsent_of_waiting waits, List.append_nil] at toOutbound
      have inbound := idle_of_stalled (fits_backward sound running') toInbound waits
      have outbound := idle_of_stalled (fits_forward sound running') toOutbound waits'
      exact Or.inr (drained_of_empty reached running inbound outbound empty' empty)
    · -- an empty direction is not full
      have full := blocked'.2
      have room := setup.toInbound_pos
      simp only [State.inboundView] at empty
      simp only [State.outboundView, empty, List.length_nil, Setup.outbound] at full
      omega
  · rcases stalled shaped.outbound settled.outbound registered legal'
      (stuck_outbound rest running) with ⟨empty', _⟩ | blocked'
    · have full := blocked.2
      have room := setup.toOutbound_pos
      simp only [State.outboundView] at empty'
      simp only [State.inboundView, empty', List.length_nil, Setup.inbound] at full
      omega
    · exact Or.inl ⟨running, blocked, blocked'⟩

/-- When nothing new comes, the forwarder comes to rest, whatever the order of its steps. At rest
it has thrown, or it is deadlocked, or every datagram it took has gone out and every one it
received has been delivered. -/
theorem comes_to_rest (reached : Reachable (State.step setup) (State.start setup) state) :
    Settles (step setup) state ∧
      ∀ rest, Reachable (step setup) state rest → AtRest (step setup) rest →
        rest.fault ≠ none ∨ Deadlocked setup rest ∨ Drained setup rest := by
  refine ⟨settles setup state, fun rest later still => ?_⟩
  by_cases running : rest.fault = none
  · have whole := reached.trans (reachable_of_internal later)
    exact Or.inr (deadlocked_or_drained whole still running)
  · exact Or.inl running

private theorem last_datagram : (run (State.step firstSetup) (State.start firstSetup)
    [.inbound (.epollWait (some [5])), .inbound (.event (fromLoopback 0))]).map
      (fun state => state.process.trace) = some [.taken loopback (filled 0) [1]] := by
  decide +kernel

theorem comes_to_rest_last : ∃ state rest,
    Reachable (State.step firstSetup) (State.start firstSetup) state ∧
      allTaken state.process.trace = [(loopback, filled 0, [1])] ∧
      Reachable (step firstSetup) state rest ∧ AtRest (step firstSetup) rest ∧
      (rest.fault ≠ none ∨ Deadlocked firstSetup rest ∨ Drained firstSetup rest) := by
  rcases reachable_of_observed _ _ last_datagram with ⟨state, reached, trace⟩
  rcases comes_to_rest reached with ⟨settles, ends⟩
  rcases settles.exists_rest with ⟨rest, later, still⟩
  refine ⟨state, rest, reached, ?_, later, still, ends rest later still⟩
  rw [trace]
  rfl

end UdpForwarder.Draining
