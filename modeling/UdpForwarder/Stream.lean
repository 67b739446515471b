import UdpForwarder.Ipc
import UdpForwarder.Lib.Transition

/-! One direction of the ipc pipe, call by call: a thread that writes messages through `sendn`, the
other one that reads them through `recvn`, and a stream socket that takes and gives as many bytes
as it likes. -/

namespace UdpForwarder.Stream

open SockIO Ipc LittleEndian Transition

/-- The `recvn` in which the reading thread is. `first` is the senderId, once it has been read. -/
inductive Place where
  | head (first : Option Bytes)
  | body (first : Option Bytes) (len : Nat)
  deriving DecidableEq

def Place.wanted : Place → Nat
  | .head _ => sizeofPackedMsgHead
  | .body _ len => len

/-- `got` is what the running `recvn` has already put in its buffer. -/
structure Receiver where
  place : Place
  got : Bytes
  deriving DecidableEq

inductive Received where
  | reading (receiver : Receiver)
  | pair (message : Message)
  | failed (exn : Exn)
  deriving DecidableEq

/-- `recv_msg` returns `dat`: the first one of a pair is followed by a second one. -/
def returned (dat : Bytes) : Option Bytes → Received
  | none => .reading ⟨.head (some dat), []⟩
  | some senderId => .pair ⟨senderId, dat⟩

def afterRecvn (dat : Bytes) : Place → Received
  | .head first =>
    if decodeLE (dat.take 4) ≠ packedMsgMagic then
      .failed (.runtimeError "Invalid magic received.")
    else if maxMsgLen < decodeLE (dat.drop 4) then .failed oversizeError
    -- the loop of a `recvn` of no bytes is never entered
    else if decodeLE (dat.drop 4) = 0 then returned [] first
    else .reading ⟨.body first (decodeLE (dat.drop 4)), []⟩
  | .body first _ => returned dat first

/-- One `recv` call, in the loop of the running `recvn`. -/
def Receiver.recv (receiver : Receiver) (result : RecvResult) : Received :=
  match recvnBody receiver.place.wanted receiver.got result with
  | .again got => .reading { receiver with got }
  | .returned (some dat) => afterRecvn dat receiver.place
  | .returned none => .failed (.runtimeError "recvn failed. ")

/-- `buffers` are those of the `sendn` calls that have not returned, the first one as far as it is
not sent; `stream` is in the socket. -/
structure Pipe where
  buffers : List Bytes
  stream : Bytes
  receiver : Receiver
  received : List Message
  failure : Option Exn

def start (messages : List Message) : Pipe where
  buffers := messages.flatMap forwardMessage
  stream := []
  receiver := ⟨.head none, []⟩
  received := []
  failure := none

/-- What the socket does next: it takes or gives some bytes, or a signal interrupts a call. -/
inductive Action where
  | send (nwritten : Nat)
  | sendInterrupted
  | recv (nread : Nat)
  | recvInterrupted
  deriving DecidableEq

/-- A `send` call of the writing thread. A `sendn` of an empty buffer makes none. -/
def sendStep (pipe : Pipe) (result : SendResult) : Option Pipe :=
  match pipe.buffers.dropWhile (· = []) with
  | [] => none
  | buf :: later =>
    let stream := pipe.stream ++ (transmitted buf result).flatten
    match sendnBody buf result with
    | .again rest => some { pipe with buffers := rest :: later, stream }
    | .returned true => some { pipe with buffers := later, stream }
    | .returned false => some { pipe with failure := some (.runtimeError "sendn failed. ") }

def recvStep (pipe : Pipe) (result : RecvResult) (stream : Bytes) : Pipe :=
  match pipe.receiver.recv result with
  | .reading receiver => { pipe with stream, receiver }
  | .pair message =>
    { pipe with stream, receiver := ⟨.head none, []⟩, received := pipe.received ++ [message] }
  | .failed exn => { pipe with stream, failure := some exn }

/-- A `send` takes at least one byte of what it is given, a `recv` gives at least one of those that
are there and no more than it is asked for. -/
def step (pipe : Pipe) (action : Action) : Option Pipe :=
  if pipe.failure.isSome then none
  else match action with
    | .send nwritten =>
      if 0 < nwritten ∧ nwritten ≤ ((pipe.buffers.dropWhile (· = [])).headD []).length then
        sendStep pipe (.sent nwritten)
      else none
    | .sendInterrupted => sendStep pipe .interrupted
    | .recv nread =>
      if 0 < nread ∧ nread ≤ pipe.receiver.place.wanted - pipe.receiver.got.length ∧
          nread ≤ pipe.stream.length then
        some (recvStep pipe (.received (pipe.stream.take nread)) (pipe.stream.drop nread))
      else none
    | .recvInterrupted => some (recvStep pipe .interrupted pipe.stream)

section Reading

def Receiver.part (receiver : Receiver) : Bytes :=
  match receiver.place with
  | .head _ => receiver.got
  | .body _ len => packedMsgHead len ++ receiver.got

def Place.first : Place → Option Bytes
  | .head first => first
  | .body first _ => first

def framed : Option Bytes → Bytes
  | none => []
  | some senderId => (sendMsg senderId).flatten

def Receiver.consumed (receiver : Receiver) : Bytes :=
  framed receiver.place.first ++ receiver.part

/-- A `recvn` is under way, and the lengths it works with are accepted ones. -/
structure Receiver.Running (receiver : Receiver) : Prop where
  waiting : receiver.got.length < receiver.place.wanted
  wanted_le : receiver.place.wanted ≤ maxMsgLen
  first_le : ∀ senderId, receiver.place.first = some senderId → senderId.length ≤ maxMsgLen

theorem consumed_eq_nil {receiver : Receiver} (nothing : receiver.consumed = []) :
    receiver = ⟨.head none, []⟩ := by
  obtain ⟨place, got⟩ := receiver
  obtain ⟨front, back⟩ := List.append_eq_nil_iff.mp nothing
  cases place with
  | head first =>
      cases first with
      | none => exact congrArg (Receiver.mk (.head none)) back
      | some senderId => simp [Place.first, framed, sendMsg, packedMsgHead, encodeLE] at front
  | body first len => simp [Receiver.part, packedMsgHead, encodeLE] at back

theorem recvPair_framed_fail {first : Option Bytes} {tail : Bytes} {exn : Exn}
    (first_le : ∀ senderId, first = some senderId → senderId.length ≤ maxMsgLen)
    (failed : recvMsg tail = .fail exn) : recvPair (framed first ++ tail) = .fail exn := by
  cases first with
  | none =>
      rw [framed, List.nil_append, recvPair, Reader.bind_apply, failed]
  | some senderId =>
      rw [framed, recvPair, Reader.bind_done (recvMsg_sendMsg tail (first_le senderId rfl)),
        Reader.bind_apply, failed]

theorem recvPair_framed_need {first : Option Bytes} {tail : Bytes} {count : Nat}
    (first_le : ∀ senderId, first = some senderId → senderId.length ≤ maxMsgLen)
    (waiting : recvMsg tail = .need count) : recvPair (framed first ++ tail) = .need count := by
  cases first with
  | none =>
      rw [framed, List.nil_append, recvPair, Reader.bind_apply, waiting]
  | some senderId =>
      rw [framed, recvPair, Reader.bind_done (recvMsg_sendMsg tail (first_le senderId rfl)),
        Reader.bind_apply, waiting]

/-- What the running `recvn` still lacks is what the reader of whole pairs asks for. -/
theorem recvPair_consumed {receiver : Receiver} (running : receiver.Running) :
    recvPair receiver.consumed = .need (receiver.place.wanted - receiver.got.length) := by
  apply recvPair_framed_need running.first_le
  obtain ⟨place, got⟩ := receiver
  have waiting := running.waiting
  cases place with
  | head first =>
      have short : got.length < sizeofPackedMsgHead := waiting
      have read : recvn sizeofPackedMsgHead got = .need (sizeofPackedMsgHead - got.length) := by
        rw [recvn, Reader.exactly, if_pos short]
      change recvMsg got = _
      rw [recvMsg, Reader.bind_apply, read]
      rfl
  | body first len =>
      have short : got.length < len := waiting
      have small : len ≤ maxMsgLen := running.wanted_le
      have fits : len < 256 ^ 8 := Nat.lt_of_le_of_lt small (by decide)
      change recvMsg (packedMsgHead len ++ got) = _
      rw [recvMsg_head (packedMsgHead_length len), packedMsgHead_magic, packedMsgHead_len fits,
        if_neg (by simp), if_neg (Nat.not_lt.mpr small), recvn, Reader.exactly, if_pos short]
      rfl

/-- What a full buffer of a `recvn` means for the reader of whole pairs. -/
def Received.Reads (bytes : Bytes) : Received → Prop
  | .reading receiver => receiver.Running ∧ receiver.consumed = bytes
  | .pair message => recvPair bytes = .done message []
  | .failed exn => recvPair bytes = .fail exn

theorem returned_reads {first : Option Bytes} {dat : Bytes} (small : dat.length ≤ maxMsgLen)
    (first_le : ∀ senderId, first = some senderId → senderId.length ≤ maxMsgLen) :
    (returned dat first).Reads (framed first ++ (packedMsgHead dat.length ++ dat)) := by
  have alone : (sendMsg dat).flatten = packedMsgHead dat.length ++ dat := by simp [sendMsg]
  cases first with
  | none =>
      constructor
      · constructor
        · exact Nat.zero_lt_succ _
        · exact (by decide : sizeofPackedMsgHead ≤ maxMsgLen)
        · intro senderId same
          rw [Place.first, Option.some.injEq] at same
          exact same ▸ small
      · simp [Receiver.consumed, Receiver.part, Place.first, framed, alone]
  | some senderId =>
      have first := recvMsg_sendMsg (packedMsgHead dat.length ++ dat) (first_le senderId rfl)
      have second := recvMsg_sendMsg [] small
      rw [alone, List.append_nil] at second
      change recvPair _ = .done _ []
      rw [framed, recvPair, Reader.bind_done first, Reader.bind_done second]
      rfl

theorem afterRecvn_head {first : Option Bytes} {head : Bytes}
    (size : head.length = sizeofPackedMsgHead)
    (first_le : ∀ senderId, first = some senderId → senderId.length ≤ maxMsgLen) :
    (afterRecvn head (.head first)).Reads (framed first ++ head) := by
  have alone := recvMsg_head size []
  rw [List.append_nil] at alone
  rw [afterRecvn]
  split
  · rename_i magic
    apply recvPair_framed_fail first_le
    rw [alone, if_pos magic]
  · rename_i magic
    split
    · rename_i large
      apply recvPair_framed_fail first_le
      rw [alone, if_neg magic, if_pos large]
      rfl
    · rename_i small
      have whole := packedMsgHead_of_magic size (not_not.mp magic)
      split
      · rename_i empty
        rw [empty] at whole
        have reads : (returned [] first).Reads (framed first ++ (packedMsgHead 0 ++ [])) :=
          returned_reads (Nat.zero_le _) first_le
        rwa [← whole, List.append_nil] at reads
      · rename_i some_bytes
        constructor
        · exact ⟨Nat.pos_of_ne_zero some_bytes, Nat.le_of_not_lt small, first_le⟩
        · change framed first ++ (packedMsgHead _ ++ []) = _
          rw [List.append_nil, ← whole]

theorem afterRecvn_reads {place : Place} {dat : Bytes} (size : dat.length = place.wanted)
    (small : place.wanted ≤ maxMsgLen)
    (first_le : ∀ senderId, place.first = some senderId → senderId.length ≤ maxMsgLen) :
    (afterRecvn dat place).Reads (Receiver.mk place dat).consumed := by
  cases place with
  | head first => exact afterRecvn_head size first_le
  | body first len =>
      have full : dat.length = len := size
      subst full
      exact returned_reads small first_le

theorem recv_reads {receiver : Receiver} {bytes : Bytes} (running : receiver.Running)
    (some_bytes : bytes ≠ []) (few : bytes.length ≤ receiver.place.wanted - receiver.got.length) :
    (receiver.recv (.received bytes)).Reads (receiver.consumed ++ bytes) := by
  have longer : (Receiver.mk receiver.place (receiver.got ++ bytes)).consumed =
      receiver.consumed ++ bytes := by
    cases receiver with
    | mk place got => cases place <;> simp [Receiver.consumed, Receiver.part]
  rw [Receiver.recv, recvnBody, if_neg some_bytes, ← longer]
  by_cases short : (receiver.got ++ bytes).length < receiver.place.wanted
  · rw [if_pos short]
    exact ⟨⟨short, running.wanted_le, running.first_le⟩, rfl⟩
  · have size : (receiver.got ++ bytes).length = receiver.place.wanted := by
      have waiting := running.waiting
      rw [List.length_append] at short ⊢
      omega
    rw [if_neg short]
    exact afterRecvn_reads size running.wanted_le running.first_le

end Reading

section Writing

theorem dropWhile_flatten (buffers : List Bytes) :
    (buffers.dropWhile (· = [])).flatten = buffers.flatten := by
  induction buffers with
  | nil => rfl
  | cons buf later ih =>
      by_cases empty : buf = []
      · rw [List.dropWhile_cons_of_pos (by simpa using empty), ih, empty]
        rfl
      · rw [List.dropWhile_cons_of_neg (by simpa using empty)]

theorem sendStep_sent {pipe after : Pipe} {nwritten : Nat} (some_bytes : 0 < nwritten)
    (few : nwritten ≤ ((pipe.buffers.dropWhile (· = [])).headD []).length)
    (taken : sendStep pipe (.sent nwritten) = some after) :
    ∃ buffers stream, after = { pipe with buffers, stream } ∧
      stream ++ buffers.flatten = pipe.stream ++ pipe.buffers.flatten ∧
      stream.length = pipe.stream.length + nwritten := by
  rw [← dropWhile_flatten pipe.buffers]
  rw [sendStep] at taken
  cases pending : pipe.buffers.dropWhile (· = []) with
  | nil => simp [pending] at taken
  | cons buf later =>
      have enough : nwritten ≤ buf.length := by simpa [pending] using few
      have moved : (transmitted buf (.sent nwritten)).flatten = buf.take nwritten := by
        simp [transmitted, Nat.ne_of_gt some_bytes]
      have longer : (pipe.stream ++ buf.take nwritten).length = pipe.stream.length + nwritten := by
        rw [List.length_append, List.length_take, Nat.min_eq_left enough]
      simp only [pending, moved, sendnBody, Nat.ne_of_gt some_bytes, if_false] at taken
      by_cases last : buf.drop nwritten = []
      · have all : buf.take nwritten = buf := by
          calc
            buf.take nwritten = buf.take nwritten ++ buf.drop nwritten := by simp [last]
            _ = buf := List.take_append_drop nwritten buf
        rw [if_pos last, Option.some.injEq] at taken
        refine ⟨later, _, taken.symm, ?_, longer⟩
        rw [all, List.flatten_cons, List.append_assoc]
      · rw [if_neg last, Option.some.injEq] at taken
        refine ⟨buf.drop nwritten :: later, _, taken.symm, ?_, longer⟩
        rw [List.flatten_cons, List.flatten_cons, List.append_assoc,
          ← List.append_assoc _ _ later.flatten, List.take_append_drop]

theorem sendStep_interrupted {pipe after : Pipe} (taken : sendStep pipe .interrupted = some after) :
    ∃ buffers, after = { pipe with buffers } ∧ buffers.flatten = pipe.buffers.flatten := by
  rw [sendStep] at taken
  cases pending : pipe.buffers.dropWhile (· = []) with
  | nil => simp [pending] at taken
  | cons buf later =>
      simp only [pending, transmitted, sendnBody, List.flatten_nil, List.append_nil,
        Option.some.injEq] at taken
      exact ⟨buf :: later, taken.symm, by rw [← pending, dropWhile_flatten]⟩

theorem send_enabled {pipe : Pipe} (fine : pipe.failure = none)
    (unsent : pipe.buffers.flatten ≠ []) : (step pipe (.send 1)).isSome := by
  rw [← dropWhile_flatten] at unsent
  cases pending : pipe.buffers.dropWhile (· = []) with
  | nil => simp [pending] at unsent
  | cons buf later =>
      have some_bytes : buf ≠ [] := by
        have first := List.head_dropWhile_not (fun buf : Bytes => decide (buf = []))
          (l := pipe.buffers) (by simp [pending])
        simpa [pending] using first
      have enough : 1 ≤ buf.length := List.length_pos_iff.mpr some_bytes
      simp only [step, fine, Option.isSome_none, Bool.false_eq_true, if_false, pending,
        List.headD_cons, enough, and_true, Nat.one_pos, if_true, sendStep, sendnBody,
        Nat.one_ne_zero]
      by_cases last : buf.drop 1 = []
      · rw [if_pos last]
        rfl
      · rw [if_neg last]
        rfl

end Writing

section Run

variable {messages : List Message} {pipe after : Pipe}

/-- A step that is taken, by what it does to the bytes that are not yet read. -/
inductive Taken (pipe : Pipe) : Action → Pipe → Prop where
  | send {nwritten : Nat} {buffers : List Bytes} {stream : Bytes} (some_bytes : 0 < nwritten)
      (same : stream ++ buffers.flatten = pipe.stream ++ pipe.buffers.flatten)
      (longer : stream.length = pipe.stream.length + nwritten) :
      Taken pipe (.send nwritten) { pipe with buffers, stream }
  | sendInterrupted {buffers : List Bytes} (same : buffers.flatten = pipe.buffers.flatten) :
      Taken pipe .sendInterrupted { pipe with buffers }
  | recv {nread : Nat} (some_bytes : 0 < nread)
      (few : nread ≤ pipe.receiver.place.wanted - pipe.receiver.got.length)
      (there : nread ≤ pipe.stream.length) :
      Taken pipe (.recv nread)
        (recvStep pipe (.received (pipe.stream.take nread)) (pipe.stream.drop nread))
  | recvInterrupted : Taken pipe .recvInterrupted pipe

theorem taken_of_step {action : Action} (ran : step pipe action = some after) :
    Taken pipe action after := by
  cases action with
  | send nwritten =>
      simp only [step, Option.ite_none_left_eq_some, Option.ite_none_right_eq_some] at ran
      obtain ⟨_, ⟨some_bytes, few⟩, sent⟩ := ran
      obtain ⟨buffers, stream, rfl, same, longer⟩ := sendStep_sent some_bytes few sent
      exact Taken.send some_bytes same longer
  | sendInterrupted =>
      simp only [step, Option.ite_none_left_eq_some] at ran
      obtain ⟨buffers, rfl, same⟩ := sendStep_interrupted ran.2
      exact Taken.sendInterrupted same
  | recv nread =>
      simp only [step, Option.ite_none_left_eq_some, Option.ite_none_right_eq_some,
        Option.some.injEq] at ran
      obtain ⟨_, ⟨some_bytes, few, there⟩, rfl⟩ := ran
      exact Taken.recv some_bytes few there
  | recvInterrupted =>
      simp only [step, Option.ite_none_left_eq_some, Option.some.injEq] at ran
      exact ran.2 ▸ Taken.recvInterrupted

/-- What has been read and what is still under way are the messages that were written. -/
structure Intact (messages : List Message) (pipe : Pipe) : Prop where
  fine : pipe.failure = none
  running : pipe.receiver.Running
  carried : ∃ rest, messages = pipe.received ++ rest ∧
    pipe.receiver.consumed ++ (pipe.stream ++ pipe.buffers.flatten) = frames rest

theorem start_intact (messages : List Message) : Intact messages (start messages) := by
  constructor
  · rfl
  · constructor
    · exact Nat.zero_lt_succ _
    · exact (by decide : sizeofPackedMsgHead ≤ maxMsgLen)
    · intro senderId same
      cases same
  · exact ⟨messages, rfl, rfl⟩

/-- What a `recv` gives is what the next bytes of the messages are. The reader of whole pairs
decides as its law says, whatever the rest of the stream is. -/
theorem Intact.recv (accepted : ∀ message ∈ messages, Accepted message)
    (intact : Intact messages pipe) {nread : Nat} (some_bytes : 0 < nread)
    (few : nread ≤ pipe.receiver.place.wanted - pipe.receiver.got.length)
    (there : nread ≤ pipe.stream.length) :
    Intact messages
      (recvStep pipe (.received (pipe.stream.take nread)) (pipe.stream.drop nread)) := by
  obtain ⟨rest, split, carried⟩ := intact.carried
  have size : (pipe.stream.take nread).length = nread := by
    rw [List.length_take, Nat.min_eq_left there]
  have nonempty : pipe.stream.take nread ≠ [] := by
    rw [← List.length_pos_iff, size]
    exact some_bytes
  have reads := recv_reads intact.running nonempty (size.symm ▸ few)
  have cut : (pipe.receiver.consumed ++ pipe.stream.take nread) ++
      (pipe.stream.drop nread ++ pipe.buffers.flatten) = frames rest := by
    calc
      _ = pipe.receiver.consumed ++ ((pipe.stream.take nread ++ pipe.stream.drop nread) ++
          pipe.buffers.flatten) := by simp only [List.append_assoc]
      _ = frames rest := by rw [List.take_append_drop, carried]
  -- the stream is not the one of no message: there is a byte in it
  have first : ∃ message later, rest = message :: later := by
    apply List.exists_cons_of_ne_nil
    rintro rfl
    rw [frames_nil] at cut
    exact nonempty (List.append_eq_nil_iff.mp (List.append_eq_nil_iff.mp cut).1).2
  obtain ⟨message, later, rfl⟩ := first
  have whole := recvPair_frames (accepted message (by simp [split])) later
  rw [← cut] at whole
  rw [recvStep]
  cases outcome : pipe.receiver.recv (.received (pipe.stream.take nread)) with
  | reading receiver =>
      rw [outcome] at reads
      exact ⟨intact.fine, reads.1, message :: later, split, by rw [← cut, reads.2]⟩
  | pair got =>
      rw [outcome] at reads
      rw [lawful_recvPair.done_append _ _ _ _ reads] at whole
      injection whole with same left
      constructor
      · exact intact.fine
      · exact (start_intact messages).running
      · refine ⟨later, ?_, left⟩
        rw [split, same, List.append_assoc, List.singleton_append]
  | failed exn =>
      rw [outcome] at reads
      rw [lawful_recvPair.fail_append _ _ _ reads] at whole
      cases whole

theorem step_intact (accepted : ∀ message ∈ messages, Accepted message)
    (intact : Intact messages pipe) {action : Action} (taken : Taken pipe action after) :
    Intact messages after := by
  obtain ⟨rest, split, carried⟩ := intact.carried
  cases taken with
  | send some_bytes same longer =>
      exact ⟨intact.fine, intact.running, rest, split, by rw [← carried, ← same]⟩
  | sendInterrupted same =>
      exact ⟨intact.fine, intact.running, rest, split, by rw [← carried, ← same]⟩
  | recv some_bytes few there => exact intact.recv accepted some_bytes few there
  | recvInterrupted => exact intact

theorem intact_of_reachable (accepted : ∀ message ∈ messages, Accepted message)
    (reached : Reachable step (start messages) pipe) : Intact messages pipe :=
  reached.invariant (start_intact messages)
    fun _ _ _ _ intact ran => step_intact accepted intact (taken_of_step ran)

/-- A byte under way counts twice until it is in the socket. -/
def Pipe.pending (pipe : Pipe) : Nat := 2 * pipe.buffers.flatten.length + pipe.stream.length

/-- Every call that is not interrupted moves bytes, and none of them back. -/
theorem step_pending {action : Action} (taken : Taken pipe action after) :
    after.pending < pipe.pending ∨
      (action = .sendInterrupted ∨ action = .recvInterrupted) ∧ after.pending = pipe.pending := by
  cases taken with
  | send some_bytes same longer =>
      have total := congrArg List.length same
      simp only [List.length_append] at total
      left
      simp only [Pipe.pending]
      omega
  | sendInterrupted same =>
      right
      exact ⟨.inl rfl, by simp only [Pipe.pending, same]⟩
  | recv some_bytes few there =>
      left
      rw [recvStep]
      split <;> simp only [Pipe.pending, List.length_drop] <;> omega
  | recvInterrupted =>
      right
      exact ⟨.inr rfl, rfl⟩

/-- Nothing is left to do only when every message is read and the socket is empty. -/
theorem complete_of_idle (accepted : ∀ message ∈ messages, Accepted message)
    (intact : Intact messages pipe)
    (idle : ∀ count, step pipe (.send count) = none ∧ step pipe (.recv count) = none) :
    pipe.received = messages ∧ pipe.receiver = ⟨.head none, []⟩ ∧ pipe.stream = [] := by
  have sent : pipe.buffers.flatten = [] := by
    by_contra unsent
    have enabled := send_enabled intact.fine unsent
    rw [(idle 1).1] at enabled
    cases enabled
  have missing := intact.running.waiting
  have read : pipe.stream = [] := by
    by_contra unread
    have there := List.length_pos_iff.mpr unread
    have blocked := (idle 1).2
    simp only [step, intact.fine, Option.isSome_none, Bool.false_eq_true, if_false] at blocked
    rw [if_pos ⟨Nat.one_pos, by omega, there⟩] at blocked
    cases blocked
  obtain ⟨rest, split, carried⟩ := intact.carried
  rw [sent, read, List.append_nil, List.append_nil] at carried
  have waits := recvPair_consumed intact.running
  cases rest with
  | nil =>
      rw [List.append_nil] at split
      exact ⟨split.symm, consumed_eq_nil carried, read⟩
  | cons message later =>
      rw [carried, recvPair_frames (accepted message (by simp [split])) later] at waits
      cases waits

/-- Whatever the socket does, no thread fails, the pairs read so far are the first ones that were
written, between two pairs the stream holds the others and nothing else, and the threads stop
only when all of them are read. -/
theorem pairs_arrive (accepted : ∀ message ∈ messages, Accepted message)
    (reached : Reachable step (start messages) pipe) :
    pipe.failure = none ∧
    (∃ rest, messages = pipe.received ++ rest ∧
      (pipe.receiver = ⟨.head none, []⟩ →
        pipe.stream ++ pipe.buffers.flatten = frames rest)) ∧
    (∀ action after, step pipe action = some after → after.pending < pipe.pending ∨
      (action = .sendInterrupted ∨ action = .recvInterrupted) ∧
        after.pending = pipe.pending) ∧
    ((∀ count, step pipe (.send count) = none ∧ step pipe (.recv count) = none) →
      pipe.received = messages ∧ pipe.receiver = ⟨.head none, []⟩ ∧ pipe.stream = []) := by
  have intact := intact_of_reachable accepted reached
  refine ⟨intact.fine, ?_, fun action after ran => step_pending (taken_of_step ran),
    complete_of_idle accepted intact⟩
  obtain ⟨rest, split, carried⟩ := intact.carried
  refine ⟨rest, split, fun boundary => ?_⟩
  rw [boundary] at carried
  exact carried

/-- Two pairs, the second of which is partly in the stream before the first is read; the pieces
that are written are not those that are read, and signals come in between. -/
def pieces : List Action :=
  [.send 5, .sendInterrupted, .recv 5, .recvInterrupted, .send 7, .send 1, .send 12, .send 12,
    .send 7, .recv 7, .recv 1, .recv 12]

theorem pairs_arrive_pieces :
    ∃ pipe, Reachable step (start [⟨[7], []⟩, ⟨[], [8, 9]⟩]) pipe ∧
      pipe.received = [⟨[7], []⟩] ∧ pipe.receiver = ⟨.head none, []⟩ ∧
      pipe.stream ++ pipe.buffers.flatten = frames [⟨[], [8, 9]⟩] ∧ pipe.failure = none := by
  have accepted : ∀ message ∈ [(⟨[7], []⟩ : Message), ⟨[], [8, 9]⟩], Accepted message := by
    intro message member
    rcases List.mem_pair.mp member with rfl | rfl
    all_goals exact ⟨by decide, by decide⟩
  have ran : (run step (start [⟨[7], []⟩, ⟨[], [8, 9]⟩]) pieces).map (fun pipe =>
      (pipe.received, pipe.receiver)) = some ([⟨[7], []⟩], ⟨.head none, []⟩) := by decide
  obtain ⟨pipe, reached, seen⟩ := reachable_of_observed _ pieces ran
  obtain ⟨received, boundary⟩ := Prod.mk.inj seen
  obtain ⟨fine, ⟨rest, split, between⟩, _⟩ := pairs_arrive accepted reached
  rw [received] at split
  obtain rfl : [⟨[], [8, 9]⟩] = rest := (List.cons.inj split).2
  exact ⟨pipe, reached, received, boundary, between boundary, fine⟩

end Run

end UdpForwarder.Stream
