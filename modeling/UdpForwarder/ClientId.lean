import UdpForwarder.Common
import UdpForwarder.Lib.LittleEndian

/-! `SockAddr` as the object representation that `memcpy` sees, and the ids made from it. -/

namespace UdpForwarder.ClientId

open LittleEndian

def sizeofSockaddrStorage : Nat := 128

/-- 128 bytes of union, a 4-byte `socklen_t`, 4 bytes of padding up to the alignment of 8. -/
def sizeofSockAddr : Nat := 136

structure SockAddr where
  storage : Bytes
  len : Nat
  padding : Bytes
  storage_length : storage.length = sizeofSockaddrStorage
  len_lt : len < 256 ^ 4
  padding_length : padding.length = 4

/-- The bytes a local `SockAddr` holds before anything is written to it: its default member
initialiser sets `len` and leaves the union and the padding as the stack had them. -/
structure Leftover where
  storage : Bytes
  padding : Bytes
  storage_length : storage.length = sizeofSockaddrStorage
  padding_length : padding.length = 4
  deriving DecidableEq

/-- A source address as the kernel reports it. `sockaddr_storage` is large enough for one of
every supported address family. -/
structure SourceAddr where
  bytes : Bytes
  fits : bytes.length ≤ sizeofSockaddrStorage
  deriving DecidableEq

/-- `SockAddr clientAddr;` followed by a `recvfrom` that reports `source`. -/
def recvfromAddr (source : SourceAddr) (leftover : Leftover) : SockAddr where
  storage := source.bytes ++ leftover.storage.drop source.bytes.length
  len := source.bytes.length
  padding := leftover.padding
  storage_length := by
    have fits := source.fits
    simp only [List.length_append, List.length_drop, leftover.storage_length]
    omega
  len_lt := Nat.lt_of_le_of_lt source.fits (by decide)
  padding_length := leftover.padding_length

def makeClientId (osStruct : SockAddr) : Bytes :=
  osStruct.storage ++ encodeLE 4 osStruct.len ++ osStruct.padding

def parseClientIdError : Exn :=
  .invalidArgument "parseClientId, invalid input binary string length."

def parseClientId (clientId : Bytes) : Except Exn SockAddr :=
  if size : clientId.length = sizeofSockAddr then
    .ok {
      storage := clientId.take sizeofSockaddrStorage
      len := decodeLE ((clientId.drop sizeofSockaddrStorage).take 4)
      padding := clientId.drop (sizeofSockaddrStorage + 4)
      storage_length := by simp [size, sizeofSockAddr, sizeofSockaddrStorage]
      len_lt := by
        have bound := decodeLE_lt ((clientId.drop sizeofSockaddrStorage).take 4)
        simpa [size, sizeofSockAddr, sizeofSockaddrStorage] using bound
      padding_length := by simp [size, sizeofSockAddr, sizeofSockaddrStorage] }
  else .error parseClientIdError

/-- The address `sendto` is given: `clientAddr.len` bytes from `&clientAddr.addr`. -/
def SockAddr.destination (clientAddr : SockAddr) : Bytes := clientAddr.storage.take clientAddr.len

def clientId (source : SourceAddr) (leftover : Leftover) : Bytes :=
  makeClientId (recvfromAddr source leftover)

theorem makeClientId_length (osStruct : SockAddr) :
    (makeClientId osStruct).length = sizeofSockAddr := by
  simp [makeClientId, osStruct.storage_length, osStruct.padding_length, sizeofSockaddrStorage,
    sizeofSockAddr]

theorem parseClientId_makeClientId (osStruct : SockAddr) :
    parseClientId (makeClientId osStruct) = .ok osStruct := by
  rcases osStruct with ⟨storage, len, padding, storage_length, len_lt, padding_length⟩
  have size := makeClientId_length ⟨storage, len, padding, storage_length, len_lt, padding_length⟩
  have front : (makeClientId ⟨storage, len, padding, storage_length, len_lt, padding_length⟩).take
      sizeofSockaddrStorage = storage := by
    rw [makeClientId, List.append_assoc, List.take_left' storage_length]
  have middle : decodeLE (((makeClientId ⟨storage, len, padding, storage_length, len_lt,
      padding_length⟩).drop sizeofSockaddrStorage).take 4) = len := by
    rw [makeClientId, List.append_assoc, List.drop_left' storage_length,
      List.take_left' (encodeLE_length 4 len), decodeLE_encodeLE len_lt]
  have back : (makeClientId ⟨storage, len, padding, storage_length, len_lt, padding_length⟩).drop
      (sizeofSockaddrStorage + 4) = padding := by
    rw [makeClientId, List.drop_left' (by simp [storage_length])]
  simp only [parseClientId, size, dif_pos, front, middle, back]

theorem makeClientId_injective {first second : SockAddr}
    (same : makeClientId first = makeClientId second) : first = second := by
  have left := parseClientId_makeClientId first
  rw [same, parseClientId_makeClientId second] at left
  exact (Except.ok.inj left).symm

theorem clientId_length (source : SourceAddr) (leftover : Leftover) :
    (clientId source leftover).length = sizeofSockAddr :=
  makeClientId_length _

theorem destination_recvfromAddr (source : SourceAddr) (leftover : Leftover) :
    (recvfromAddr source leftover).destination = source.bytes := by
  simp [SockAddr.destination, recvfromAddr]

/-- Two leftovers agree on what a `recvfrom` reporting `source` does not overwrite. -/
def LeftoverAgrees (source : SourceAddr) (first second : Leftover) : Prop :=
  first.storage.drop source.bytes.length = second.storage.drop source.bytes.length ∧
    first.padding = second.padding

theorem clientId_source {first second : SourceAddr} {one two : Leftover}
    (same : clientId first one = clientId second two) : first = second := by
  have equal := congrArg SockAddr.destination (makeClientId_injective same)
  rw [destination_recvfromAddr, destination_recvfromAddr] at equal
  cases first
  cases second
  simp_all

/-- One source address gives one id exactly when the bytes around the written ones agree. -/
theorem clientId_eq_iff (source : SourceAddr) (first second : Leftover) :
    clientId source first = clientId source second ↔ LeftoverAgrees source first second := by
  constructor
  · intro same
    have equal := makeClientId_injective same
    have storage := congrArg SockAddr.storage equal
    have padding := congrArg SockAddr.padding equal
    exact ⟨List.append_cancel_left storage, padding⟩
  · rintro ⟨storage, padding⟩
    simp only [clientId, makeClientId, recvfromAddr, storage, padding]

end UdpForwarder.ClientId
