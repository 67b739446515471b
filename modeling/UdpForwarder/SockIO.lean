import UdpForwarder.Common
import UdpForwarder.Lib.LittleEndian
import UdpForwarder.Lib.Reader

/-! `rlib::sockIO`: the retry loops around `send` and `recv`, and messages with a head. -/

namespace UdpForwarder.SockIO

open LittleEndian

/-- What one `send` call reports: bytes written, -1 with EINTR, or -1 with any other errno. -/
inductive SendResult where
  | sent (nwritten : Nat)
  | interrupted
  | failed
  deriving DecidableEq, Repr

inductive SendLoop where
  | again (rest : Bytes)
  | returned (ok : Bool)
  deriving DecidableEq, Repr

/-- The body of `sendn`'s loop; `rest` is what `ptr` and `nleft` describe. -/
def sendnBody (rest : Bytes) : SendResult → SendLoop
  | .sent nwritten =>
    if nwritten = 0 then .returned false
    else if rest.drop nwritten = [] then .returned true
    else .again (rest.drop nwritten)
  | .interrupted => .again rest
  | .failed => .returned false

def transmitted (rest : Bytes) : SendResult → List Bytes
  | .sent nwritten => if nwritten = 0 then [] else [rest.take nwritten]
  | .interrupted => []
  | .failed => []

/-- `sendn`, driven by the results of its `send` calls: the chunks handed to the kernel, and the
return value once the loop has ended. An empty buffer never enters the loop. -/
def sendn (buf : Bytes) : List SendResult → List Bytes × Option Bool
  | [] => if buf = [] then ([], some true) else ([], none)
  | result :: results =>
    if buf = [] then ([], some true)
    else match sendnBody buf result with
      | .returned ok => (transmitted buf result, some ok)
      | .again rest =>
        let later := sendn rest results
        (transmitted buf result ++ later.1, later.2)

/-- What one `recv` call on a stream reports; no bytes at all mean end of file. -/
inductive RecvResult where
  | received (bytes : Bytes)
  | interrupted
  | failed
  deriving DecidableEq, Repr

inductive RecvLoop where
  | again (got : Bytes)
  | returned (result : Option Bytes)
  deriving DecidableEq, Repr

/-- The body of `recvn`'s loop; `got` is what already stands in the buffer of `n` bytes. -/
def recvnBody (n : Nat) (got : Bytes) : RecvResult → RecvLoop
  | .received bytes =>
    if bytes = [] then .returned none
    else if (got ++ bytes).length < n then .again (got ++ bytes)
    else .returned (some (got ++ bytes))
  | .interrupted => .again got
  | .failed => .returned none

/-- `recvn` on a stream that neither fails nor ends. -/
def recvn (n : Nat) : Reader Exn UInt8 Bytes := Reader.exactly n

def packedMsgMagic : Nat := 0x19990823

def sizeofPackedMsgHead : Nat := 12

/-- `struct packed_msg_head`: a `uint32_t` and a `uint64_t`, packed. -/
def packedMsgHead (len : Nat) : Bytes := encodeLE 4 packedMsgMagic ++ encodeLE 8 len

/-- `1024ull*1024*1024*2` -/
def maxMsgLen : Nat := 1024 * 1024 * 1024 * 2

def recvMsg : Reader Exn UInt8 Bytes := do
  let head ← recvn sizeofPackedMsgHead
  if decodeLE (head.take 4) ≠ packedMsgMagic then
    Reader.throw (.runtimeError "Invalid magic received.")
  else if maxMsgLen < decodeLE (head.drop 4) then
    Reader.throw (.runtimeError "Message len is greater than 2GiB. Refuse to alloc space.")
  else recvn (decodeLE (head.drop 4))

/-- The buffers `send_msg` passes to `sendn_ex`, in order. -/
def sendMsg (dat : Bytes) : List Bytes := [packedMsgHead dat.length, dat]

@[simp] theorem packedMsgHead_length (len : Nat) :
    (packedMsgHead len).length = sizeofPackedMsgHead := by
  simp [packedMsgHead, sizeofPackedMsgHead]

theorem packedMsgHead_magic (len : Nat) :
    decodeLE ((packedMsgHead len).take 4) = packedMsgMagic := by
  rw [packedMsgHead, List.take_left' (by simp), decodeLE_encodeLE (by decide)]

theorem packedMsgHead_len {len : Nat} (fits : len < 256 ^ 8) :
    decodeLE ((packedMsgHead len).drop 4) = len := by
  rw [packedMsgHead, List.drop_left' (by simp), decodeLE_encodeLE fits]

theorem packedMsgHead_of_magic {head : Bytes} (size : head.length = sizeofPackedMsgHead)
    (magic : decodeLE (head.take 4) = packedMsgMagic) :
    head = packedMsgHead (decodeLE (head.drop 4)) := by
  have four : (head.take 4).length = 4 := by
    rw [List.length_take, size]
    rfl
  have eight : (head.drop 4).length = 8 := by
    rw [List.length_drop, size]
    rfl
  have front := encodeLE_decodeLE (head.take 4)
  rw [four, magic] at front
  have back := encodeLE_decodeLE (head.drop 4)
  rw [eight] at back
  rw [packedMsgHead, front, back, List.take_append_drop]

theorem lawful_recvMsg : Reader.Lawful recvMsg := by
  apply (Reader.lawful_exactly _).bind
  intro head
  split
  · exact Reader.lawful_throw _
  · split
    · exact Reader.lawful_throw _
    · exact Reader.lawful_exactly _

/-- The head decides between the errors and the length of a message. -/
theorem recvMsg_head {head : Bytes} (size : head.length = sizeofPackedMsgHead) (rest : Bytes) :
    recvMsg (head ++ rest) =
      if decodeLE (head.take 4) ≠ packedMsgMagic then
        .fail (.runtimeError "Invalid magic received.")
      else if maxMsgLen < decodeLE (head.drop 4) then
        .fail (.runtimeError "Message len is greater than 2GiB. Refuse to alloc space.")
      else recvn (decodeLE (head.drop 4)) rest := by
  have read : recvn sizeofPackedMsgHead (head ++ rest) = .done head rest := by
    rw [recvn, ← size]
    exact Reader.exactly_append head rest
  rw [recvMsg, Reader.bind_done read]
  split
  · rfl
  · split <;> rfl

theorem recvMsg_sent {dat : Bytes} (rest : Bytes) (fits : dat.length < 256 ^ 8) :
    recvMsg ((sendMsg dat).flatten ++ rest) =
      if maxMsgLen < dat.length then
        .fail (.runtimeError "Message len is greater than 2GiB. Refuse to alloc space.")
      else recvn dat.length (dat ++ rest) := by
  have stream : (sendMsg dat).flatten ++ rest = packedMsgHead dat.length ++ (dat ++ rest) := by
    simp [sendMsg]
  rw [stream, recvMsg_head (packedMsgHead_length dat.length), packedMsgHead_magic,
    packedMsgHead_len fits, if_neg (by simp)]

theorem recvMsg_sendMsg {dat : Bytes} (rest : Bytes) (small : dat.length ≤ maxMsgLen) :
    recvMsg ((sendMsg dat).flatten ++ rest) = .done dat rest := by
  have fits : dat.length < 256 ^ 8 := Nat.lt_of_le_of_lt small (by decide)
  rw [recvMsg_sent rest fits, if_neg (Nat.not_lt.mpr small)]
  exact Reader.exactly_append dat rest

/-- A message over the limit stops the reader at its head. -/
theorem recvMsg_oversize {dat : Bytes} (rest : Bytes) (fits : dat.length < 256 ^ 8)
    (large : maxMsgLen < dat.length) :
    recvMsg ((sendMsg dat).flatten ++ rest) =
      .fail (.runtimeError "Message len is greater than 2GiB. Refuse to alloc space.") := by
  rw [recvMsg_sent rest fits, if_pos large]

end UdpForwarder.SockIO
