import UdpForwarder.Lib.PartialMap

/-! The listening stream sockets of one host. A connection waits in the queue of one listener
until the owner of that listener accepts it; several listeners may share a port. -/

namespace UdpForwarder

structure ListenQueue (Owner : Type) where
  owner : Owner
  port : Nat
  queue : List Nat
  deriving DecidableEq

/-- Listeners and connections are numbered in the order in which they are made. -/
structure Listeners (Owner : Type) where
  table : PartialMap Nat (ListenQueue Owner)
  nextListener : Nat
  nextConnection : Nat

end UdpForwarder

namespace UdpForwarder.Listeners

open PartialMap

variable {Owner : Type} {listeners after : Listeners Owner}

def empty : Listeners Owner := ⟨PartialMap.empty, 0, 0⟩

def listen (listeners : Listeners Owner) (owner : Owner) (port : Nat) : Listeners Owner where
  table := listeners.table.assign listeners.nextListener ⟨owner, port, []⟩
  nextListener := listeners.nextListener + 1
  nextConnection := listeners.nextConnection

def close (listeners : Listeners Owner) (id : Nat) : Listeners Owner :=
  { listeners with table := listeners.table.erase id }

/-- A connection to `port` that the host queues on listener `id`. Its number is
`nextConnection`. -/
def connect (listeners : Listeners Owner) (port id : Nat) : Option (Listeners Owner) :=
  match listeners.table id with
  | none => none
  | some listener =>
    if listener.port = port then
      some { listeners with
        table := listeners.table.assign id
          { listener with queue := listener.queue ++ [listeners.nextConnection] }
        nextConnection := listeners.nextConnection + 1 }
    else none

def accept (listeners : Listeners Owner) (id : Nat) : Option (Nat × Listeners Owner) :=
  match listeners.table id with
  | none => none
  | some listener =>
    match listener.queue with
    | [] => none
    | connection :: queue =>
      some (connection, { listeners with
        table := listeners.table.assign id { listener with queue } })

def ownerOf (listeners : Listeners Owner) (id : Nat) : Option Owner :=
  (listeners.table id).map ListenQueue.owner

def queue (listeners : Listeners Owner) (id : Nat) : List Nat :=
  match listeners.table id with
  | none => []
  | some listener => listener.queue

/-- No number is given out twice. -/
structure Valid (listeners : Listeners Owner) : Prop where
  listener_lt : ∀ id owner, listeners.ownerOf id = some owner → id < listeners.nextListener
  connection_lt : ∀ id connection, connection ∈ listeners.queue id →
    connection < listeners.nextConnection

theorem valid_empty : (empty : Listeners Owner).Valid := by
  constructor
  · intro id owner owned
    cases owned
  · intro id connection waiting
    cases waiting

section Listen

variable (owner : Owner) (port : Nat)

@[simp] theorem ownerOf_listen_self :
    (listeners.listen owner port).ownerOf listeners.nextListener = some owner := by
  simp [ownerOf, listen]

@[simp] theorem queue_listen_self :
    (listeners.listen owner port).queue listeners.nextListener = [] := by
  simp [queue, listen]

theorem ownerOf_listen_other {id : Nat} (different : id ≠ listeners.nextListener) :
    (listeners.listen owner port).ownerOf id = listeners.ownerOf id := by
  simp [ownerOf, listen, assign_other _ _ different]

theorem queue_listen_other {id : Nat} (different : id ≠ listeners.nextListener) :
    (listeners.listen owner port).queue id = listeners.queue id := by
  simp [queue, listen, assign_other _ _ different]

theorem Valid.listen (valid : listeners.Valid) : (listeners.listen owner port).Valid := by
  constructor
  · intro id owner' owned
    by_cases same : id = listeners.nextListener
    · rw [same]
      exact Nat.lt_succ_self _
    · rw [ownerOf_listen_other owner port same] at owned
      exact Nat.lt_succ_of_lt (valid.listener_lt id owner' owned)
  · intro id connection waiting
    by_cases same : id = listeners.nextListener
    · rw [same, queue_listen_self] at waiting
      cases waiting
    · rw [queue_listen_other owner port same] at waiting
      exact valid.connection_lt id connection waiting

end Listen

section Close

theorem ownerOf_close_other {id other : Nat} (different : other ≠ id) :
    (listeners.close id).ownerOf other = listeners.ownerOf other := by
  simp [ownerOf, close, erase_other _ different]

theorem queue_close_other {id other : Nat} (different : other ≠ id) :
    (listeners.close id).queue other = listeners.queue other := by
  simp [queue, close, erase_other _ different]

theorem Valid.close (valid : listeners.Valid) (id : Nat) : (listeners.close id).Valid := by
  constructor
  · intro other owner owned
    by_cases same : other = id
    · simp [ownerOf, Listeners.close, same] at owned
    · rw [ownerOf_close_other same] at owned
      exact valid.listener_lt other owner owned
  · intro other connection waiting
    by_cases same : other = id
    · simp [queue, Listeners.close, same] at waiting
    · rw [queue_close_other same] at waiting
      exact valid.connection_lt other connection waiting

end Close

theorem requeued {id : Nat} {listener : ListenQueue Owner} {waiting : List Nat}
    (there : listeners.table id = some listener)
    (table : after.table = listeners.table.assign id { listener with queue := waiting }) :
    (∀ other, after.ownerOf other = listeners.ownerOf other) ∧
    after.queue id = waiting ∧
    ∀ other, other ≠ id → after.queue other = listeners.queue other := by
  refine ⟨?_, ?_, ?_⟩
  · intro other
    by_cases same : other = id
    · simp [ownerOf, table, same, there]
    · simp [ownerOf, table, assign_other _ _ same]
  · simp [queue, table]
  · intro other different
    simp [queue, table, assign_other _ _ different]

section Connect

variable {port id : Nat}

/-- A connection changes the queue of one listener, at its end. -/
theorem connect_spec (connected : listeners.connect port id = some after) :
    after.nextListener = listeners.nextListener ∧
    after.nextConnection = listeners.nextConnection + 1 ∧
    (∀ other, after.ownerOf other = listeners.ownerOf other) ∧
    after.queue id = listeners.queue id ++ [listeners.nextConnection] ∧
    ∀ other, other ≠ id → after.queue other = listeners.queue other := by
  rw [connect] at connected
  cases there : listeners.table id with
  | none => simp [there] at connected
  | some listener =>
      simp only [there, Option.ite_none_right_eq_some, Option.some.injEq] at connected
      obtain ⟨_, made⟩ := connected
      have table : after.table = listeners.table.assign id
          { listener with queue := listener.queue ++ [listeners.nextConnection] } := by
        rw [← made]
      obtain ⟨owners, self, others⟩ := requeued there table
      refine ⟨by rw [← made], by rw [← made], owners, ?_, others⟩
      rw [self, queue, there]

theorem Valid.connect (valid : listeners.Valid)
    (connected : listeners.connect port id = some after) : after.Valid := by
  obtain ⟨count, next, owners, self, others⟩ := connect_spec connected
  constructor
  · intro other owner owned
    rw [owners] at owned
    exact count ▸ valid.listener_lt other owner owned
  · intro other connection waiting
    rw [next]
    by_cases same : other = id
    · rw [same, self, List.mem_append, List.mem_singleton] at waiting
      cases waiting with
      | inl earlier => exact Nat.lt_succ_of_lt (valid.connection_lt id connection earlier)
      | inr new => exact new ▸ Nat.lt_succ_self _
    · rw [others other same] at waiting
      exact Nat.lt_succ_of_lt (valid.connection_lt other connection waiting)

end Connect

section Accept

variable {id connection : Nat}

/-- What is accepted leaves the front of one queue. -/
theorem accept_spec (accepted : listeners.accept id = some (connection, after)) :
    after.nextListener = listeners.nextListener ∧
    after.nextConnection = listeners.nextConnection ∧
    (∀ other, after.ownerOf other = listeners.ownerOf other) ∧
    listeners.queue id = connection :: after.queue id ∧
    ∀ other, other ≠ id → after.queue other = listeners.queue other := by
  rw [accept] at accepted
  cases there : listeners.table id with
  | none => simp [there] at accepted
  | some listener =>
      obtain ⟨owner, port, waiting⟩ := listener
      cases waiting with
      | nil => simp [there] at accepted
      | cons first rest =>
          simp only [there, Option.some.injEq, Prod.mk.injEq] at accepted
          obtain ⟨same, made⟩ := accepted
          have table : after.table = listeners.table.assign id ⟨owner, port, rest⟩ := by
            rw [← made]
          obtain ⟨owners, self, others⟩ := requeued there table
          refine ⟨by rw [← made], by rw [← made], owners, ?_, others⟩
          rw [self, queue, there, same]

theorem Valid.accept (valid : listeners.Valid)
    (accepted : listeners.accept id = some (connection, after)) : after.Valid := by
  obtain ⟨count, next, owners, self, others⟩ := accept_spec accepted
  constructor
  · intro other owner owned
    rw [owners] at owned
    exact count ▸ valid.listener_lt other owner owned
  · intro other waits waiting
    rw [next]
    by_cases same : other = id
    · rw [same] at waiting
      apply valid.connection_lt id waits
      rw [self]
      exact List.mem_cons_of_mem _ waiting
    · rw [others other same] at waiting
      exact valid.connection_lt other waits waiting

end Accept

end UdpForwarder.Listeners
