import Mathlib.Algebra.Group.Nat.Defs
import Mathlib.Data.List.Basic

/-! The types and constants every part of the forwarder shares. -/

namespace UdpForwarder

/-- A `std::string`, which the forwarder uses for text and for binary data alike. -/
abbrev Bytes := List UInt8

/-- `sockfd_t` and `fd_t` on POSIX. -/
abbrev Fd := Int

def epollMaxEvents : Nat := 32

def dgramBufferSize : Nat := 20480

/-- `std::string::max_size()` with 64-bit sizes. -/
def stringMaxSize : Nat := 2 ^ 62 - 1

def ascii (text : String) : Bytes := text.toList.map fun c => UInt8.ofNat c.toNat

/-- What a thread can throw. `dynamicAssert` is the `runtime_error` of `dynamic_assert` with the
message it logs; `undefinedBehaviour` is no exception, but the point from which the language
says nothing about the process any more. -/
inductive Exn where
  | runtimeError (what : String)
  | dynamicAssert (msg : String)
  | invalidArgument (what : String)
  | outOfRange
  | lengthError
  | undefinedBehaviour
  deriving DecidableEq, Repr

end UdpForwarder
