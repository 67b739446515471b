import UdpForwarder.SockIO

/-! What the two listener threads say to each other through the ipc pipe: every message is sent
as two framed strings, and read back as two. -/

namespace UdpForwarder.Ipc

open SockIO

/-- The arguments of `forwardMessageToOutbound` and `forwardMessageToInbound`. -/
@[ext] structure Message where
  senderId : Bytes
  binaryMessage : Bytes
  deriving DecidableEq, Repr

/-- The buffers both of them pass to `sendn_ex`, in order. -/
def forwardMessage (message : Message) : List Bytes :=
  sendMsg message.senderId ++ sendMsg message.binaryMessage

def frames (messages : List Message) : Bytes := (messages.flatMap forwardMessage).flatten

/-- `auto targetClientId = recv_msg(activeFd); auto msg = recv_msg(activeFd);` -/
def recvPair : Reader Exn UInt8 Message := do
  let targetClientId ← recvMsg
  let msg ← recvMsg
  return ⟨targetClientId, msg⟩

def Accepted (message : Message) : Prop :=
  message.senderId.length ≤ maxMsgLen ∧ message.binaryMessage.length ≤ maxMsgLen

def Fits (message : Message) : Prop :=
  message.senderId.length < 256 ^ 8 ∧ message.binaryMessage.length < 256 ^ 8

def oversizeError : Exn :=
  .runtimeError "Message len is greater than 2GiB. Refuse to alloc space."

@[simp] theorem frames_nil : frames [] = [] := rfl

theorem frames_cons (message : Message) (rest : List Message) :
    frames (message :: rest) = (sendMsg message.senderId).flatten ++
      ((sendMsg message.binaryMessage).flatten ++ frames rest) := by
  simp [frames, forwardMessage]

theorem frames_append (front back : List Message) :
    frames (front ++ back) = frames front ++ frames back := by
  simp [frames]

theorem frames_singleton (message : Message) :
    frames [message] = (forwardMessage message).flatten := by
  simp [frames]

theorem frames_ne_nil (message : Message) (rest : List Message) :
    frames (message :: rest) ≠ [] := by
  intro nothing
  have size := congrArg List.length nothing
  simp [frames_cons, sendMsg, sizeofPackedMsgHead] at size

theorem frames_length (message : Message) (rest : List Message) :
    (frames (message :: rest)).length = 2 * sizeofPackedMsgHead + message.senderId.length +
      message.binaryMessage.length + (frames rest).length := by
  simp [frames_cons, sendMsg]
  omega

theorem lawful_recvPair : Reader.Lawful recvPair := by
  apply lawful_recvMsg.bind
  intro targetClientId
  apply lawful_recvMsg.bind
  intro msg
  exact Reader.lawful_pure _

theorem recvPair_frames {message : Message} (accepted : Accepted message) (rest : List Message) :
    recvPair (frames (message :: rest)) = .done message (frames rest) := by
  have first := recvMsg_sendMsg ((sendMsg message.binaryMessage).flatten ++ frames rest) accepted.1
  have second := recvMsg_sendMsg (frames rest) accepted.2
  rw [frames_cons, recvPair, Reader.bind_done first, Reader.bind_done second]
  rfl

theorem recvPair_waits {message : Message} {got rest : Bytes} (accepted : Accepted message)
    (stream : got ++ rest = frames [message]) (missing : rest ≠ []) :
    ∃ asked, recvPair got = .need asked ∧ 0 < asked := by
  have whole := recvPair_frames accepted []
  rw [← stream] at whole
  rcases lawful_recvPair.needs_of_prefix whole missing with ⟨asked, waiting, _⟩
  exact ⟨asked, waiting, lawful_recvPair.need_pos _ _ waiting⟩

theorem recvPair_oversize {message : Message} (fits : Fits message)
    (refused : ¬ Accepted message) (rest : List Message) :
    recvPair (frames (message :: rest)) = .fail oversizeError := by
  rw [frames_cons, recvPair]
  by_cases first : message.senderId.length ≤ maxMsgLen
  · have done := recvMsg_sendMsg ((sendMsg message.binaryMessage).flatten ++ frames rest) first
    have large : maxMsgLen < message.binaryMessage.length :=
      Nat.lt_of_not_le fun second => refused ⟨first, second⟩
    rw [Reader.bind_done done, Reader.bind_apply, recvMsg_oversize _ fits.2 large]
    rfl
  · rw [Reader.bind_apply, recvMsg_oversize _ fits.1 (Nat.lt_of_not_le first)]
    rfl

private theorem sendMsg_cancel {first second : Bytes} {front back : Bytes}
    (small : first.length < 256 ^ 8) (little : second.length < 256 ^ 8)
    (same : (sendMsg first).flatten ++ front = (sendMsg second).flatten ++ back) :
    first = second ∧ front = back := by
  simp only [sendMsg, List.flatten_cons, List.flatten_nil, List.append_nil,
    List.append_assoc] at same
  rcases List.append_inj same (by simp) with ⟨heads, tails⟩
  have lengths := congrArg (fun head => LittleEndian.decodeLE (head.drop 4)) heads
  simp only [packedMsgHead_len small, packedMsgHead_len little] at lengths
  exact List.append_inj tails lengths

/-- A stream carries one list of messages only. -/
theorem frames_injective {first second : List Message} (left : ∀ message ∈ first, Fits message)
    (right : ∀ message ∈ second, Fits message) (same : frames first = frames second) :
    first = second := by
  induction first generalizing second with
  | nil =>
      cases second with
      | nil => rfl
      | cons message rest => exact absurd same.symm (frames_ne_nil message rest)
  | cons message rest ih =>
      cases second with
      | nil => exact absurd same (frames_ne_nil message rest)
      | cons other others =>
          rw [frames_cons, frames_cons] at same
          have fits := left message (by simp)
          have fits' := right other (by simp)
          rcases sendMsg_cancel fits.1 fits'.1 same with ⟨ids, same⟩
          rcases sendMsg_cancel fits.2 fits'.2 same with ⟨bodies, same⟩
          have tails := ih (fun item member => left item (List.mem_cons_of_mem _ member))
            (fun item member => right item (List.mem_cons_of_mem _ member)) same
          cases message
          cases other
          simp_all

end UdpForwarder.Ipc
