import UdpForwarder.Process

/-! The loop both threads run: `epoll_wait`, then one event after the other, where an event is
the pipe or some other fd. A thread stops inside `recvn` and `sendn` as often as the pipe makes
it. -/

namespace UdpForwarder

namespace Listener

open Ipc

/-- Where a thread is: in its loop, in the two `recv_msg` of a pipe event with the bytes it has
read so far, or in a `sendn` with what is left of its buffer and the buffers after it. -/
inductive Pc where
  | loop
  | receiving (got : Bytes)
  | sending (buf : Bytes) (later : List Bytes)
  deriving DecidableEq, Repr

namespace Pc

def send : List Bytes → Pc
  | [] => .loop
  | buf :: later => if buf = [] then send later else .sending buf later

def got : Pc → Bytes
  | .receiving got => got
  | _ => []

def unsent : Pc → Bytes
  | .sending buf later => buf ++ later.flatten
  | _ => []

@[simp] theorem send_got (buffers : List Bytes) : (send buffers).got = [] := by
  induction buffers with
  | nil => rfl
  | cons buf later ih =>
      simp only [send]
      split
      · exact ih
      · rfl

@[simp] theorem send_unsent (buffers : List Bytes) : (send buffers).unsent = buffers.flatten := by
  induction buffers with
  | nil => rfl
  | cons buf later ih =>
      simp only [send]
      split
      · rename_i nothing
        rw [ih, nothing, List.flatten_cons, List.nil_append]
      · rfl

end Pc

/-- `events` are the fds of the last `epoll_wait` that the inner loop has not reached. -/
structure Thread where
  events : List Fd
  pc : Pc
  deriving DecidableEq, Repr

structure View where
  process : Process
  thread : Thread
  incoming : Bytes
  outgoing : Bytes

/-- What the environment chooses for one step of a thread. `nfds` is `none` for -1; `calls` are
the results of the calls a handler makes if it runs in this step. -/
inductive Action (Calls : Type) where
  | epollWait (nfds : Option (List Fd))
  | event (calls : Calls)
  | recv (count : Nat) (calls : Calls)
  | send (count : Nat)
  | interrupted

end Listener

open Listener Ipc

/-- What `listenForever` of the two protocol classes differs in. `capacity` is the room in the
direction of the pipe the thread writes to. -/
structure Listener (Calls : Type) where
  pipe : Fd
  capacity : Nat
  interest : Process → Finset Fd
  legal : Calls → Process → Bool
  onMessage : Calls → Fd → Handler (List Message)
  onPipeMessage : Calls → Message → Handler Unit

namespace Listener

variable {Calls : Type} (listener : Listener Calls) (view : View)

/-- What `epoll_wait` can report. The pipe is ready when there are bytes in it, a socket whenever
its peer likes; which ready fds are reported when they are more than fit is not determined. -/
def Reported (events : List Fd) : Prop :=
  events ≠ [] ∧ events.length ≤ epollMaxEvents ∧ events.Nodup ∧
    (∀ fd ∈ events, fd ∈ listener.interest view.process) ∧
    (listener.pipe ∈ events → view.incoming ≠ []) ∧
    (view.incoming ≠ [] → listener.pipe ∈ events ∨ events.length = epollMaxEvents)

instance (events : List Fd) : Decidable (listener.Reported view events) := by
  unfold Reported
  infer_instance

def epollError : Exn := .dynamicAssert "epoll_wait failed"

/-- The view after a handler, and the exception that leaves the loop. -/
def handled (later : List Fd) (incoming : Bytes) :
    EStateM.Result Exn Process (List Message) → View × Option Exn
  | .ok messages process =>
    (⟨process, ⟨later, .send (messages.flatMap forwardMessage)⟩, incoming, view.outgoing⟩, none)
  | .error exn process => ({ view with process }, some exn)

/-- A handler that forwards nothing. -/
def silent (handler : Handler Unit) : Handler (List Message) := do
  handler
  return []

/-- One step of a thread, `none` where the choice is not possible. -/
def step : Action Calls → Option (View × Option Exn)
  | .epollWait nfds =>
    if view.thread = ⟨[], .loop⟩ then
      match nfds with
      | none => some (view, some epollError)
      | some events =>
        if listener.Reported view events then
          some ({ view with thread := ⟨events, .loop⟩ }, none)
        else none
    else none
  | .event calls =>
    match view.thread with
    | ⟨activeFd :: later, .loop⟩ =>
      if activeFd = listener.pipe then
        some ({ view with thread := ⟨later, .receiving []⟩ }, none)
      else if listener.legal calls view.process then
        some (handled view later view.incoming
          ((listener.onMessage calls activeFd).run view.process))
      else none
    | _ => none
  | .recv count calls =>
    match view.thread with
    | ⟨later, .receiving got⟩ =>
      match recvPair got with
      | .need asked =>
        if 0 < count ∧ count ≤ asked ∧ count ≤ view.incoming.length ∧
            listener.legal calls view.process then
          let got := got ++ view.incoming.take count
          let incoming := view.incoming.drop count
          match recvPair got with
          | .need _ => some ({ view with thread := ⟨later, .receiving got⟩, incoming }, none)
          | .fail exn => some (view, some exn)
          | .done message _ =>
            some (handled view later incoming
              ((silent (listener.onPipeMessage calls message)).run view.process))
        else none
      | _ => none
    | _ => none
  | .send count =>
    match view.thread with
    | ⟨later, .sending buf buffers⟩ =>
      if 0 < count ∧ count ≤ buf.length ∧ view.outgoing.length + count ≤ listener.capacity then
        some ({ view with
          thread := ⟨later, .send (buf.drop count :: buffers)⟩
          outgoing := view.outgoing ++ buf.take count }, none)
      else none
    | _ => none
  | .interrupted =>
    match view.thread.pc with
    | .loop => none
    | _ => some (view, none)

theorem silent_run (handler : Handler Unit) (process : Process) :
    (silent handler).run process =
      match handler.run process with
      | .ok () process' => .ok [] process'
      | .error exn process' => .error exn process' := by
  simp only [silent, EStateM.run_bind]
  cases handler.run process <;> rfl

theorem silent_ok {handler : Handler Unit} {process process' : Process} {messages : List Message}
    (finished : (silent handler).run process = .ok messages process') :
    handler.run process = .ok () process' := by
  rw [silent_run] at finished
  cases ran : handler.run process with
  | ok value process'' =>
      rw [ran] at finished
      injection finished with _ same
      rw [same]
  | error exn process'' =>
      rw [ran] at finished
      cases finished

section Cases

variable {listener view} {view' : View} {fault : Option Exn}

theorem step_epollWait {nfds : Option (List Fd)}
    (taken : listener.step view (.epollWait nfds) = some (view', fault)) :
    view.thread = ⟨[], .loop⟩ ∧
      (nfds = none ∧ view' = view ∧ fault = some epollError ∨
        ∃ events, nfds = some events ∧ listener.Reported view events ∧
          view' = { view with thread := ⟨events, .loop⟩ } ∧ fault = none) := by
  simp only [step] at taken
  split at taken
  · rename_i idle
    refine ⟨idle, ?_⟩
    cases nfds with
    | none =>
        simp only [Option.some.injEq, Prod.mk.injEq] at taken
        exact Or.inl ⟨rfl, taken.1.symm, taken.2.symm⟩
    | some events =>
        simp only [Option.ite_none_right_eq_some, Option.some.injEq, Prod.mk.injEq] at taken
        exact Or.inr ⟨events, rfl, taken.1, taken.2.1.symm, taken.2.2.symm⟩
  · cases taken

theorem step_event {calls : Calls}
    (taken : listener.step view (.event calls) = some (view', fault)) :
    ∃ activeFd later, view.thread = ⟨activeFd :: later, .loop⟩ ∧
      (activeFd = listener.pipe ∧ view' = { view with thread := ⟨later, .receiving []⟩ } ∧
          fault = none ∨
        activeFd ≠ listener.pipe ∧ listener.legal calls view.process = true ∧
          (view', fault) = handled view later view.incoming
            ((listener.onMessage calls activeFd).run view.process)) := by
  simp only [step] at taken
  split at taken
  · rename_i activeFd later atEvent
    refine ⟨activeFd, later, atEvent, ?_⟩
    split at taken
    · rename_i isPipe
      simp only [Option.some.injEq, Prod.mk.injEq] at taken
      exact Or.inl ⟨isPipe, taken.1.symm, taken.2.symm⟩
    · rename_i other
      simp only [Option.ite_none_right_eq_some, Option.some.injEq] at taken
      exact Or.inr ⟨other, taken.1, taken.2.symm⟩
  · cases taken

theorem step_recv {count : Nat} {calls : Calls}
    (taken : listener.step view (.recv count calls) = some (view', fault)) :
    ∃ later got asked, view.thread = ⟨later, .receiving got⟩ ∧ recvPair got = .need asked ∧
      0 < count ∧ count ≤ asked ∧ count ≤ view.incoming.length ∧
      listener.legal calls view.process = true ∧
      ((∃ more, recvPair (got ++ view.incoming.take count) = .need more ∧ fault = none ∧
          view' = ⟨view.process, ⟨later, .receiving (got ++ view.incoming.take count)⟩,
            view.incoming.drop count, view.outgoing⟩) ∨
        (∃ exn, recvPair (got ++ view.incoming.take count) = .fail exn ∧ fault = some exn ∧
          view' = view) ∨
        ∃ message unread, recvPair (got ++ view.incoming.take count) = .done message unread ∧
          (view', fault) = handled view later (view.incoming.drop count)
            ((silent (listener.onPipeMessage calls message)).run view.process)) := by
  simp only [step] at taken
  split at taken
  · rename_i later got atRecv
    split at taken
    · rename_i asked waiting
      split at taken
      · rename_i guard
        rcases guard with ⟨positive, wanted, present, legal⟩
        refine ⟨later, got, asked, atRecv, waiting, positive, wanted, present, legal, ?_⟩
        split at taken
        · rename_i more needs
          simp only [Option.some.injEq, Prod.mk.injEq] at taken
          exact Or.inl ⟨more, needs, taken.2.symm, taken.1.symm⟩
        · rename_i exn fails
          simp only [Option.some.injEq, Prod.mk.injEq] at taken
          exact Or.inr (Or.inl ⟨exn, fails, taken.2.symm, taken.1.symm⟩)
        · rename_i message unread finished
          simp only [Option.some.injEq] at taken
          exact Or.inr (Or.inr ⟨message, unread, finished, taken.symm⟩)
      · cases taken
    · cases taken
  · cases taken

theorem step_send {count : Nat}
    (taken : listener.step view (.send count) = some (view', fault)) :
    ∃ later buf buffers, view.thread = ⟨later, .sending buf buffers⟩ ∧ 0 < count ∧
      count ≤ buf.length ∧ view.outgoing.length + count ≤ listener.capacity ∧ fault = none ∧
      view' = ⟨view.process, ⟨later, .send (buf.drop count :: buffers)⟩, view.incoming,
        view.outgoing ++ buf.take count⟩ := by
  simp only [step] at taken
  split at taken
  · rename_i later buf buffers atSend
    simp only [Option.ite_none_right_eq_some, Option.some.injEq, Prod.mk.injEq] at taken
    rcases taken with ⟨⟨positive, few, room⟩, same, none⟩
    exact ⟨later, buf, buffers, atSend, positive, few, room, none.symm, same.symm⟩
  · cases taken

theorem step_interrupted (taken : listener.step view .interrupted = some (view', fault)) :
    view' = view ∧ fault = none := by
  simp only [step] at taken
  split at taken
  · cases taken
  · simp only [Option.some.injEq, Prod.mk.injEq] at taken
    exact ⟨taken.1.symm, taken.2.symm⟩

end Cases

/-- A thread in `sendn` on a full pipe. -/
def Blocked : Prop := view.thread.pc.unsent ≠ [] ∧ view.outgoing.length = listener.capacity

end Listener

end UdpForwarder
