import UdpForwarder.ClientId
import UdpForwarder.Ipc
import UdpForwarder.Lib.PartialMap
import Mathlib.Data.Finset.Erase
import Mathlib.Data.Finset.Insert

/-! The state the two listeners act on, and the calls their handlers make. -/

namespace UdpForwarder

/-- `Protocols::InjectiveConnectionMapping` -/
structure InjectiveConnectionMapping (ClientIdT ServerIdT : Type) where
  client2server : PartialMap ClientIdT ServerIdT
  server2client : PartialMap ServerIdT ClientIdT

namespace InjectiveConnectionMapping

variable {ClientIdT ServerIdT : Type} [DecidableEq ClientIdT] [DecidableEq ServerIdT]
  (mapping : InjectiveConnectionMapping ClientIdT ServerIdT)

omit [DecidableEq ClientIdT] [DecidableEq ServerIdT] in
def empty : InjectiveConnectionMapping ClientIdT ServerIdT := ⟨.empty, .empty⟩

def add (clientId : ClientIdT) (serverId : ServerIdT) :
    InjectiveConnectionMapping ClientIdT ServerIdT where
  client2server := mapping.client2server.assign clientId serverId
  server2client := mapping.server2client.assign serverId clientId

/-- `operator[]` inserts a default value for an absent key. -/
def delClient [Inhabited ServerIdT] (clientId : ClientIdT) :
    InjectiveConnectionMapping ClientIdT ServerIdT :=
  let serverId := (mapping.client2server clientId).getD default
  let client2server := mapping.client2server.assign clientId serverId
  ⟨client2server.erase clientId, mapping.server2client.erase serverId⟩

def delServer [Inhabited ClientIdT] (serverId : ServerIdT) :
    InjectiveConnectionMapping ClientIdT ServerIdT :=
  let clientId := (mapping.server2client serverId).getD default
  let server2client := mapping.server2client.assign serverId clientId
  ⟨mapping.client2server.erase clientId, server2client.erase serverId⟩

theorem delServer_eq [Inhabited ClientIdT] {clientId : ClientIdT} {serverId : ServerIdT}
    (known : mapping.server2client serverId = some clientId) :
    mapping.delServer serverId =
      ⟨mapping.client2server.erase clientId, mapping.server2client.erase serverId⟩ := by
  simp [delServer, known]

/-- The table that `PlainOutbound` relies on. -/
def MutuallyInverse : Prop :=
  PartialMap.MutuallyInverse mapping.client2server mapping.server2client

end InjectiveConnectionMapping

/-- What the process exchanged with its peers. `opened` is a `quick_connect` made for a client. -/
inductive Event where
  | taken (source : ClientId.SourceAddr) (leftover : ClientId.Leftover) (datagram : Bytes)
  | opened (clientId : Bytes) (connFd : Fd)
  | sent (connFd : Fd) (datagram : Bytes)
  | received (connFd : Fd) (datagram : Bytes)
  | delivered (address : Bytes) (datagram : Bytes)
  deriving DecidableEq

/-- `outboundSet` is the interest list of the epoll instance of `PlainOutbound`, and `trace` the
events so far, the oldest first. -/
structure Process where
  openFds : Finset Fd
  outboundSet : Finset Fd
  connectionMap : InjectiveConnectionMapping Bytes Fd
  trace : List Event

/-- An exception leaves the state as the statements before it made it. -/
abbrev Handler := EStateM Exn Process

namespace Process

def record (process : Process) (event : Event) : Process :=
  { process with trace := process.trace ++ [event] }

/-- The state after a connected fd has been registered and entered in the map. -/
def connect (process : Process) (clientId : Bytes) (connFd : Fd) : Process where
  openFds := insert connFd process.openFds
  outboundSet := insert connFd process.outboundSet
  connectionMap := process.connectionMap.add clientId connFd
  trace := process.trace ++ [.opened clientId connFd]

/-- The state after the fd of a client has been closed and its pair deleted. -/
def retire (process : Process) (clientId : Bytes) (connFd : Fd) : Process where
  openFds := process.openFds.erase connFd
  outboundSet := process.outboundSet.erase connFd
  connectionMap := ⟨process.connectionMap.client2server.erase clientId,
    process.connectionMap.server2client.erase connFd⟩
  trace := process.trace

/-- The state after `sendn` sent a buffer as one datagram; an empty one is never sent. -/
def emit (process : Process) (connFd : Fd) (datagram : Bytes) : Process :=
  if datagram = [] then process else process.record (.sent connFd datagram)

@[simp] theorem record_trace (process : Process) (event : Event) :
    (process.record event).trace = process.trace ++ [event] := rfl

@[simp] theorem record_connectionMap (process : Process) (event : Event) :
    (process.record event).connectionMap = process.connectionMap := rfl

@[simp] theorem emit_connectionMap (process : Process) (connFd : Fd) (datagram : Bytes) :
    (process.emit connFd datagram).connectionMap = process.connectionMap := by
  rw [emit]
  split <;> rfl

theorem emit_trace (process : Process) (connFd : Fd) (datagram : Bytes) :
    (process.emit connFd datagram).trace =
      process.trace ++ if datagram = [] then [] else [.sent connFd datagram] := by
  rw [emit]
  split
  · rw [List.append_nil]
  · rfl

@[simp] theorem connect_trace (process : Process) (clientId : Bytes) (connFd : Fd) :
    (process.connect clientId connFd).trace = process.trace ++ [.opened clientId connFd] := rfl

end Process

namespace Handler

open SockIO

def record (event : Event) : Handler Unit := modify fun process => process.record event

def dynamicAssert (expr : Bool) (msg : String) : Handler Unit :=
  if expr then pure () else throw (.dynamicAssert msg)

def epollError : Exn := .runtimeError "epoll_ctl failed."

/-- `epoll_add_fd`; `done` is false when `epoll_ctl` returns -1. -/
def epollAddFd (done : Bool) (fd : Fd) : Handler Unit :=
  if done then modify fun process => { process with outboundSet := insert fd process.outboundSet }
  else throw epollError

def epollDelFd (done : Bool) (fd : Fd) : Handler Unit :=
  if done then modify fun process => { process with outboundSet := process.outboundSet.erase fd }
  else throw epollError

/-- `quick_connect`, which returns a new fd or throws a `runtime_error`. -/
def quickConnect (outcome : Except String Fd) : Handler Fd :=
  match outcome with
  | .ok connFd => do
    modify fun process => { process with openFds := insert connFd process.openFds }
    return connFd
  | .error what => throw (.runtimeError what)

/-- `close_ex`; a failure carries the text of its errno. -/
def closeEx (failure : Option String) (fd : Fd) : Handler Unit :=
  match failure with
  | none => modify fun process => { process with openFds := process.openFds.erase fd }
  | some code => throw (.runtimeError ("close failed. error code: " ++ code))

/-- How the `send` calls of one `sendn` on a connected UDP socket go: some number of EINTR, then
the datagram is taken whole or the call fails with an errno. -/
structure SendScript where
  interrupts : Nat
  failure : Option String

def SendScript.results (script : SendScript) (buf : Bytes) : List SendResult :=
  List.replicate script.interrupts .interrupted ++
    [match script.failure with
      | none => .sent buf.length
      | some _ => .failed]

def sendError (script : SendScript) : Exn :=
  .runtimeError ("sendn failed. " ++ script.failure.getD "")

/-- `quick_send` on a connected UDP socket: every chunk handed to the kernel is a datagram. -/
def quickSend (script : SendScript) (connFd : Fd) (data : Bytes) : Handler Unit := do
  let (chunks, returned) := sendn data (script.results data)
  for chunk in chunks do
    record (.sent connFd chunk)
  match returned with
  | some true => pure ()
  | _ => throw (sendError script)

/-- The result of a filter, as a string the language can hold. -/
def converted (outcome : Option Bytes) : Handler Bytes :=
  match outcome with
  | none => throw .undefinedBehaviour
  | some result => if result.length ≤ stringMaxSize then pure result else throw .lengthError

theorem sendn_interrupted (buf : Bytes) (interrupts : Nat) (results : List SendResult) :
    sendn buf (List.replicate interrupts .interrupted ++ results) = sendn buf results := by
  by_cases nothing : buf = []
  · cases interrupts <;> cases results <;> simp [List.replicate_succ, sendn, nothing]
  · induction interrupts with
    | zero => rfl
    | succ interrupts ih =>
        simp only [List.replicate_succ, List.cons_append, sendn, nothing, if_false, sendnBody,
          transmitted, ih, List.nil_append]

theorem sendn_script (script : SendScript) (buf : Bytes) :
    sendn buf (script.results buf) =
      if buf = [] then ([], some true)
      else match script.failure with
        | none => ([buf], some true)
        | some _ => ([], some false) := by
  rw [SendScript.results, sendn_interrupted]
  by_cases nothing : buf = []
  · simp [sendn, nothing]
  · have positive : buf.length ≠ 0 := by simpa using nothing
    cases script.failure with
    | none => simp [sendn, sendnBody, transmitted, nothing, positive]
    | some text => simp [sendn, sendnBody, transmitted, nothing]

/-- A `quick_send` only fails where it makes a call at all. -/
theorem quickSend_run (script : SendScript) (connFd : Fd) (data : Bytes) (process : Process) :
    (quickSend script connFd data).run process =
      if data ≠ [] ∧ script.failure.isSome then .error (sendError script) process
      else .ok () (process.emit connFd data) := by
  rw [quickSend, sendn_script, Process.emit]
  by_cases nothing : data = []
  · have taken : ¬ (data ≠ [] ∧ script.failure.isSome = true) := fun failed => failed.1 nothing
    rw [if_neg taken]
    simp only [nothing, if_true]
    rfl
  · simp only [nothing, if_false]
    cases script.failure with
    | none =>
        rw [if_neg (by simp)]
        rfl
    | some text =>
        rw [if_pos ⟨nothing, rfl⟩]
        rfl

end Handler

end UdpForwarder
