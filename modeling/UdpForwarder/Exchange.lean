import UdpForwarder.Listener

/-! The same loop with whole messages: what a listener does, without the bytes of the pipe and
the places where its calls stop. The loop refines it. -/

namespace UdpForwarder

open Ipc Listener

/-- What a listener acts on: the messages on their way to it and those on their way from it. -/
structure Exchange where
  process : Process
  incoming : List Message
  outgoing : List Message

namespace Exchange

/-- `message` is an event on an fd other than the pipe, `handle` the next message of the pipe. -/
inductive Choice (Calls : Type) where
  | message (activeFd : Fd) (calls : Calls)
  | handle (calls : Calls)
  | epollFailed

variable {Calls : Type} (listener : Listener Calls)

def handled (exchange : Exchange) (incoming : List Message) :
    EStateM.Result Exn Process (List Message) → Exchange × Option Exn
  | .ok messages process => (⟨process, incoming, exchange.outgoing ++ messages⟩, none)
  | .error exn process => ({ exchange with process }, some exn)

instance (message : Message) : Decidable (Accepted message) := by
  unfold Accepted
  infer_instance

def step (exchange : Exchange) : Choice Calls → Option (Exchange × Option Exn)
  | .message activeFd calls =>
    if activeFd ∈ listener.interest exchange.process ∧ activeFd ≠ listener.pipe ∧
        listener.legal calls exchange.process then
      some (handled exchange exchange.incoming
        ((listener.onMessage calls activeFd).run exchange.process))
    else none
  | .handle calls =>
    match exchange.incoming with
    | [] => none
    | message :: rest =>
      if listener.legal calls exchange.process then
        if Accepted message then
          some (handled exchange rest
            ((silent (listener.onPipeMessage calls message)).run exchange.process))
        else some (exchange, some oversizeError)
      else none
  | .epollFailed => some (exchange, some Listener.epollError)

/-- What a step is: a handler returned or threw, or a message is refused, or `epoll_wait`
failed. -/
inductive Pass (exchange : Exchange) : Exchange → Option Exn → Prop where
  | message {activeFd : Fd} {calls : Calls} {messages : List Message} {process' : Process}
      (registered : activeFd ∈ listener.interest exchange.process)
      (other : activeFd ≠ listener.pipe) (legal : listener.legal calls exchange.process = true)
      (ran : (listener.onMessage calls activeFd).run exchange.process = .ok messages process') :
      Pass exchange ⟨process', exchange.incoming, exchange.outgoing ++ messages⟩ none
  | messageThrows {activeFd : Fd} {calls : Calls} {exn : Exn} {process' : Process}
      (registered : activeFd ∈ listener.interest exchange.process)
      (other : activeFd ≠ listener.pipe) (legal : listener.legal calls exchange.process = true)
      (ran : (listener.onMessage calls activeFd).run exchange.process = .error exn process') :
      Pass exchange ⟨process', exchange.incoming, exchange.outgoing⟩ (some exn)
  | handle {calls : Calls} {message : Message} {rest : List Message} {process' : Process}
      (queue : exchange.incoming = message :: rest) (accepted : Accepted message)
      (legal : listener.legal calls exchange.process = true)
      (ran : (listener.onPipeMessage calls message).run exchange.process = .ok () process') :
      Pass exchange ⟨process', rest, exchange.outgoing⟩ none
  | handleThrows {calls : Calls} {message : Message} {rest : List Message} {exn : Exn}
      {process' : Process} (queue : exchange.incoming = message :: rest)
      (legal : listener.legal calls exchange.process = true)
      (ran : (listener.onPipeMessage calls message).run exchange.process = .error exn process') :
      Pass exchange ⟨process', exchange.incoming, exchange.outgoing⟩ (some exn)
  | refused {message : Message} {rest : List Message}
      (queue : exchange.incoming = message :: rest) (oversize : ¬ Accepted message) :
      Pass exchange exchange (some oversizeError)
  | epollFailed : Pass exchange exchange (some Listener.epollError)

theorem step_pass {exchange exchange' : Exchange} {choice : Choice Calls} {fault : Option Exn}
    (taken : step listener exchange choice = some (exchange', fault)) :
    Pass listener exchange exchange' fault := by
  cases choice with
  | epollFailed =>
      injection taken with same
      rcases Prod.mk.inj same with ⟨rfl, rfl⟩
      exact .epollFailed
  | message activeFd calls =>
      simp only [step, Option.ite_none_right_eq_some, Option.some.injEq] at taken
      rcases taken with ⟨⟨registered, other, legal⟩, same⟩
      cases ran : (listener.onMessage calls activeFd).run exchange.process with
      | ok messages process' =>
          rw [ran] at same
          rcases Prod.mk.inj same with ⟨rfl, rfl⟩
          exact .message registered other legal ran
      | error exn process' =>
          rw [ran] at same
          rcases Prod.mk.inj same with ⟨rfl, rfl⟩
          exact .messageThrows registered other legal ran
  | handle calls =>
      simp only [step] at taken
      split at taken
      · cases taken
      · rename_i message rest queue
        simp only [Option.ite_none_right_eq_some] at taken
        rcases taken with ⟨legal, taken⟩
        split at taken
        · rename_i accepted
          injection taken with same
          rw [silent_run] at same
          cases ran : (listener.onPipeMessage calls message).run exchange.process with
          | ok value process' =>
              rw [ran] at same
              rcases Prod.mk.inj same with ⟨rfl, rfl⟩
              rw [List.append_nil]
              exact .handle queue accepted legal ran
          | error exn process' =>
              rw [ran] at same
              rcases Prod.mk.inj same with ⟨rfl, rfl⟩
              exact .handleThrows queue legal ran
        · rename_i oversize
          injection taken with same
          rcases Prod.mk.inj same with ⟨rfl, rfl⟩
          exact .refused queue oversize

/-- The view of a listener shows an exchange. `ahead` is what the other listener has read of the
message it has not handled, `behind` what it has yet to write. -/
structure Shows (view : View) (ahead behind : Bytes) (exchange : Exchange) : Prop where
  process : view.process = exchange.process
  incoming : view.thread.pc.got ++ view.incoming ++ behind = frames exchange.incoming
  outgoing : ahead ++ view.outgoing ++ view.thread.pc.unsent = frames exchange.outgoing
  events : ∀ fd ∈ view.thread.events, fd ∈ listener.interest view.process

/-- Handlers that return do not shrink the interest list of their own listener. -/
structure Keeps : Prop where
  onMessage : ∀ calls activeFd process messages process',
    (listener.onMessage calls activeFd).run process = .ok messages process' →
      listener.interest process ⊆ listener.interest process'
  onPipeMessage : ∀ calls message process process', listener.legal calls process = true →
    (listener.onPipeMessage calls message).run process = .ok () process' →
      listener.interest process ⊆ listener.interest process'

variable {listener} {view view' : View} {exchange : Exchange} {ahead behind : Bytes}
  {fault : Option Exn}

theorem shows_handled {later : List Fd} {incoming : Bytes} {waiting : List Message}
    {result : EStateM.Result Exn Process (List Message)}
    (incomingShown : incoming ++ behind = frames waiting)
    (outgoingShown : ahead ++ view.outgoing = frames exchange.outgoing)
    (grown : ∀ messages process, result = .ok messages process →
      ∀ fd ∈ later, fd ∈ listener.interest process)
    (ran : (view', fault) = Listener.handled view later incoming result) :
    ∃ exchange', handled exchange waiting result = (exchange', fault) ∧
      view'.process = exchange'.process ∧
      (fault = none → Shows listener view' ahead behind exchange') := by
  cases result with
  | ok messages process =>
      simp only [Listener.handled, Prod.mk.injEq] at ran
      rcases ran with ⟨rfl, rfl⟩
      refine ⟨_, rfl, rfl, fun _ => ⟨rfl, ?_, ?_, grown messages process rfl⟩⟩
      · simpa using incomingShown
      · rw [Pc.send_unsent, outgoingShown, frames_append]
        rfl
  | error exn process =>
      simp only [Listener.handled, Prod.mk.injEq] at ran
      rcases ran with ⟨rfl, rfl⟩
      exact ⟨_, rfl, rfl, fun none => by cases none⟩

theorem Shows.epollWait {nfds : Option (List Fd)}
    (shows : Shows listener view ahead behind exchange)
    (taken : listener.step view (.epollWait nfds) = some (view', fault)) :
    fault = none ∧ Shows listener view' ahead behind exchange ∨
      ∃ choice exchange', step listener exchange choice = some (exchange', fault) ∧
        view'.process = exchange'.process ∧
        (fault = none → Shows listener view' ahead behind exchange') := by
  rcases Listener.step_epollWait taken with ⟨idle, failed | ⟨events, _, reported, rfl, rfl⟩⟩
  · rcases failed with ⟨_, rfl, rfl⟩
    exact Or.inr ⟨.epollFailed, exchange, rfl, shows.process, fun none => by cases none⟩
  · rcases reported with ⟨_, _, _, registered, _, _⟩
    refine Or.inl ⟨rfl, shows.process, ?_, ?_, registered⟩
    · have same := shows.incoming
      rwa [idle] at same
    · have same := shows.outgoing
      rwa [idle] at same

theorem Shows.event {calls : Calls} (keeps : Keeps listener)
    (shows : Shows listener view ahead behind exchange)
    (taken : listener.step view (.event calls) = some (view', fault)) :
    fault = none ∧ Shows listener view' ahead behind exchange ∨
      ∃ choice exchange', step listener exchange choice = some (exchange', fault) ∧
        view'.process = exchange'.process ∧
        (fault = none → Shows listener view' ahead behind exchange') := by
  rcases Listener.step_event taken with ⟨activeFd, later, atEvent, pipe | message⟩
  · rcases pipe with ⟨_, rfl, rfl⟩
    refine Or.inl ⟨rfl, shows.process, ?_, ?_, ?_⟩
    · have same := shows.incoming
      rwa [atEvent] at same
    · have same := shows.outgoing
      rwa [atEvent] at same
    · intro fd member
      exact shows.events fd (by rw [atEvent]; exact List.mem_cons_of_mem _ member)
  · rcases message with ⟨other, legal, ran⟩
    have registered := shows.events
    rw [atEvent] at registered
    have incoming := shows.incoming
    have outgoing := shows.outgoing
    simp only [atEvent, Pc.got, Pc.unsent, List.nil_append, List.append_nil] at incoming outgoing
    rcases shows_handled incoming outgoing
      (fun messages process finished fd member =>
        keeps.onMessage calls activeFd _ messages process finished
          (registered fd (List.mem_cons_of_mem _ member))) ran with
      ⟨exchange', abstract, same, shown⟩
    refine Or.inr ⟨.message activeFd calls, exchange', ?_, same, shown⟩
    rw [step, ← shows.process, if_pos ⟨registered activeFd (by simp), other, legal⟩, abstract]

theorem Shows.recv {count : Nat} {calls : Calls} (keeps : Keeps listener)
    (fits : ∀ message ∈ exchange.incoming, Fits message)
    (shows : Shows listener view ahead behind exchange)
    (taken : listener.step view (.recv count calls) = some (view', fault)) :
    fault = none ∧ Shows listener view' ahead behind exchange ∨
      ∃ choice exchange', step listener exchange choice = some (exchange', fault) ∧
        view'.process = exchange'.process ∧
        (fault = none → Shows listener view' ahead behind exchange') := by
  rcases Listener.step_recv taken with
    ⟨later, got, asked, atRecv, waiting, positive, wanted, present, legal, outcome⟩
  have incoming := shows.incoming
  have outgoing := shows.outgoing
  have registered := shows.events
  simp only [atRecv, Pc.got, Pc.unsent, List.append_nil] at incoming outgoing registered
  -- what has been read now, followed by what is still to come
  have stream : (got ++ view.incoming.take count) ++ (view.incoming.drop count ++ behind) =
      frames exchange.incoming := by
    rw [← incoming]
    simp only [List.append_assoc]
    rw [← List.append_assoc (view.incoming.take count), List.take_append_drop]
  have some_bytes : (view.incoming.take count).length = count := List.length_take_of_le present
  rcases outcome with ⟨more, needs, rfl, rfl⟩ | outcome
  · refine Or.inl ⟨rfl, shows.process, ?_, ?_, registered⟩
    · rw [← stream]
      exact List.append_assoc _ _ _
    · simpa [Pc.unsent] using outgoing
  · cases queue : exchange.incoming with
    | nil =>
        have size := congrArg List.length stream
        simp only [queue, frames_nil, List.length_append, List.length_nil, some_bytes] at size
        omega
    | cons first rest =>
        rw [queue] at stream
        have firstFits := fits first (by simp [queue])
        by_cases accepted : Accepted first
        · have whole := recvPair_frames accepted rest
          rw [← stream] at whole
          rcases outcome with ⟨exn, fails, _, _⟩ | ⟨message, unread, finished, ran⟩
          · rw [lawful_recvPair.fail_append _ _ _ fails] at whole
            cases whole
          · rw [lawful_recvPair.done_append _ _ _ _ finished] at whole
            injection whole with sameMessage tail
            subst sameMessage
            have nothing := lawful_recvPair.need_exact _ _ _ _ _ waiting
              (by rw [some_bytes]; exact wanted) finished
            rw [nothing, List.nil_append] at tail
            rcases shows_handled tail outgoing
              (fun messages process finished fd member =>
                keeps.onPipeMessage calls message _ process legal (silent_ok finished)
                  (registered fd member)) ran with ⟨exchange', abstract, same, shown⟩
            refine Or.inr ⟨.handle calls, exchange', ?_, same, shown⟩
            rw [step, queue]
            simp only [← shows.process, legal, if_true, accepted, abstract]
        · have whole := recvPair_oversize firstFits accepted rest
          rw [← stream] at whole
          rcases outcome with ⟨exn, fails, rfl, rfl⟩ | ⟨message, unread, finished, ran⟩
          · rw [lawful_recvPair.fail_append _ _ _ fails] at whole
            injection whole with same
            subst same
            refine Or.inr ⟨.handle calls, exchange, ?_, shows.process, fun none => by cases none⟩
            rw [step, queue]
            simp only [← shows.process, legal, if_true, accepted, if_false]
          · rw [lawful_recvPair.done_append _ _ _ _ finished] at whole
            cases whole

theorem Shows.send {count : Nat} (shows : Shows listener view ahead behind exchange)
    (taken : listener.step view (.send count) = some (view', fault)) :
    fault = none ∧ Shows listener view' ahead behind exchange := by
  rcases Listener.step_send taken with ⟨later, buf, buffers, atSend, _, _, _, rfl, rfl⟩
  have incoming := shows.incoming
  have outgoing := shows.outgoing
  have registered := shows.events
  simp only [atSend, Pc.got, Pc.unsent] at incoming outgoing registered
  refine ⟨rfl, shows.process, ?_, ?_, registered⟩
  · rw [Pc.send_got]
    exact incoming
  · rw [Pc.send_unsent, List.flatten_cons, ← outgoing]
    simp only [List.append_assoc]
    rw [← List.append_assoc (buf.take count), List.take_append_drop]

/-- One step of a listener is one step of the exchange, or none. -/
theorem Shows.step {action : Action Calls} (keeps : Keeps listener)
    (fits : ∀ message ∈ exchange.incoming, Fits message)
    (shows : Shows listener view ahead behind exchange)
    (taken : listener.step view action = some (view', fault)) :
    fault = none ∧ Shows listener view' ahead behind exchange ∨
      ∃ choice exchange', step listener exchange choice = some (exchange', fault) ∧
        view'.process = exchange'.process ∧
        (fault = none → Shows listener view' ahead behind exchange') := by
  cases action with
  | epollWait nfds => exact shows.epollWait taken
  | event calls => exact shows.event keeps taken
  | recv count calls => exact shows.recv keeps fits taken
  | send count => exact Or.inl (shows.send taken)
  | interrupted =>
      rcases Listener.step_interrupted taken with ⟨rfl, rfl⟩
      exact Or.inl ⟨rfl, shows⟩

end Exchange

end UdpForwarder
