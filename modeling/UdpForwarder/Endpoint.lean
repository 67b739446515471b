import UdpForwarder.Filters
import UdpForwarder.Lib.Numeral

/-! The `method@addr@port` configurations of `PlainInbound` and `PlainOutbound`. -/

namespace UdpForwarder

structure PlainInbound where
  listenAddr : Bytes
  listenPort : UInt16
  deriving DecidableEq

structure PlainOutbound where
  serverAddr : Bytes
  serverPort : UInt16
  deriving DecidableEq

end UdpForwarder

namespace UdpForwarder.Endpoint

open Numeral Filters

/-- `std::stoul` in base 10, for an `unsigned long` of 64 bits: a minus sign negates the result in
that type. -/
def stoul (str : Bytes) : Except Exn Nat :=
  let (negative, digits) := scan str
  if digits = [] then .error (.invalidArgument "stoul")
  else if 2 ^ 64 ≤ value digits then .error .outOfRange
  else if negative then .ok ((2 ^ 64 - value digits) % 2 ^ 64)
  else .ok (value digits)

/-- `rlib::string::as<unsigned long>` -/
def asUnsignedLong (str : Bytes) : Except Exn Nat :=
  if str = [] then .ok 0 else stoul str

/-- `rlib::string::as<uint16_t>`: a `static_cast` of the conversion to `unsigned long`. -/
def asUInt16 (str : Bytes) : Except Exn UInt16 := do
  let number ← asUnsignedLong str
  return UInt16.ofNat number

def wrongParameter : Exn := .invalidArgument
  "Wrong parameter string for protocol 'plain'. Example:    plain@fe00:1e10:ce95:1@10809"

def parse (config : Bytes) : Except Exn (Bytes × UInt16) :=
  match split 0x40 config with
  | [_, addr, port] => do
    let number ← asUInt16 port
    return (addr, number)
  | _ => .error wrongParameter

end UdpForwarder.Endpoint

namespace UdpForwarder

def PlainInbound.loadConfig (config : Bytes) : Except Exn PlainInbound := do
  let (addr, port) ← Endpoint.parse config
  return { listenAddr := addr, listenPort := port }

def PlainOutbound.loadConfig (config : Bytes) : Except Exn PlainOutbound := do
  let (addr, port) ← Endpoint.parse config
  return { serverAddr := addr, serverPort := port }

end UdpForwarder

namespace UdpForwarder.Endpoint

open Numeral Filters

def IsSplit (config method addr port : Bytes) : Prop :=
  0x40 ∉ method ∧ 0x40 ∉ addr ∧ 0x40 ∉ port ∧
    config = method ++ 0x40 :: (addr ++ 0x40 :: port)

def IsPort (port : Bytes) : Prop := IsNumeral port ∧ value port ≤ 65535

def Unreadable (port : Bytes) : Prop := (scan port).2 = [] ∨ 2 ^ 64 ≤ value (scan port).2

/-- Exact parsing of one string: the endpoints that are written in it are loaded, and a string
without one is refused. -/
def Exact (loadConfig : Bytes → Except Exn (Bytes × UInt16)) (config : Bytes) : Prop :=
  (∀ method addr port, IsSplit config method addr port → IsPort port →
    loadConfig config = .ok (addr, UInt16.ofNat (value port))) ∧
  ((¬ ∃ method addr port, IsSplit config method addr port ∧ IsPort port) →
    ∃ exn, loadConfig config = .error exn)

theorem split_eq_three_iff {config method addr port : Bytes} :
    split 0x40 config = [method, addr, port] ↔ IsSplit config method addr port := by
  rw [split_eq_iff, IsSplit]
  simp [List.intercalate, List.intersperse, and_assoc]

theorem parse_split {config method addr port : Bytes}
    (parts : IsSplit config method addr port) :
    parse config = (asUInt16 port).map fun number => (addr, number) := by
  rw [parse, split_eq_three_iff.mpr parts]
  change (do let number ← asUInt16 port; return (addr, number)) = _
  cases asUInt16 port <;> rfl

theorem parse_unsplit {config : Bytes}
    (unsplit : ¬ ∃ method addr port, IsSplit config method addr port) :
    parse config = .error wrongParameter := by
  rw [parse]
  split
  · rename_i method addr port parts
    exact absurd ⟨method, addr, port, split_eq_three_iff.mp parts⟩ unsplit
  · rfl

theorem IsSplit.unique {config method addr port method' addr' port' : Bytes}
    (one : IsSplit config method addr port) (two : IsSplit config method' addr' port') :
    addr = addr' ∧ port = port' := by
  have first := split_eq_three_iff.mpr one
  rw [split_eq_three_iff.mpr two] at first
  simp only [List.cons.injEq] at first
  exact ⟨first.2.1.symm, first.2.2.1.symm⟩

theorem asUInt16_isPort {port : Bytes} (isPort : IsPort port) :
    asUInt16 port = .ok (UInt16.ofNat (value port)) := by
  obtain ⟨numeral, small⟩ := isPort
  have fits : ¬ 2 ^ 64 ≤ value port := by omega
  have read : stoul port = .ok (value port) := by
    simp only [stoul, scan_numeral numeral, numeral.1, fits, if_false, Bool.false_eq_true]
  rw [asUInt16, asUnsignedLong, if_neg numeral.1, read]
  rfl

theorem stoul_error_iff (str : Bytes) : (∃ exn, stoul str = .error exn) ↔ Unreadable str := by
  rw [stoul, Unreadable]
  obtain ⟨negative, digits⟩ := scan str
  by_cases none : digits = []
  · simp [none]
  · by_cases large : 2 ^ 64 ≤ value digits
    · simp only [none, large, if_false, if_true, or_true, iff_true]
      exact ⟨_, rfl⟩
    · simp only [none, large, if_false, or_self, iff_false]
      rintro ⟨exn, thrown⟩
      cases negative <;> cases thrown

/-- The conversion throws only where `stoul` is called and throws. -/
theorem asUInt16_error_iff (port : Bytes) :
    (∃ exn, asUInt16 port = .error exn) ↔ port ≠ [] ∧ Unreadable port := by
  rw [asUInt16, asUnsignedLong, ← stoul_error_iff]
  by_cases empty : port = []
  · rw [if_pos empty]
    constructor
    · rintro ⟨exn, thrown⟩
      cases thrown
    · rintro ⟨nonempty, _⟩
      exact absurd empty nonempty
  · rw [if_neg empty]
    cases stoul port with
    | ok number => simp [bind, Except.bind, pure, Except.pure]
    | error exn =>
        simp only [ne_eq, empty, not_false_eq_true, true_and]
        exact ⟨fun _ => ⟨exn, rfl⟩, fun _ => ⟨exn, rfl⟩⟩

/-- A string is parsed exactly unless it has a port that is no port and is converted all the
same. -/
theorem exact_parse_iff (config : Bytes) :
    Exact parse config ↔ ∀ method addr port, IsSplit config method addr port →
      IsPort port ∨ (port ≠ [] ∧ Unreadable port) := by
  constructor
  · intro exact method addr port parts
    by_cases isPort : IsPort port
    · exact .inl isPort
    · right
      apply (asUInt16_error_iff port).mp
      have none : ¬ ∃ method addr port, IsSplit config method addr port ∧ IsPort port := by
        rintro ⟨method', addr', port', other, otherPort⟩
        exact isPort ((parts.unique other).2 ▸ otherPort)
      obtain ⟨exn, refused⟩ := exact.2 none
      rw [parse_split parts] at refused
      cases converted : asUInt16 port with
      | ok number =>
          rw [converted] at refused
          cases refused
      | error exn => exact ⟨exn, rfl⟩
  · intro condition
    constructor
    · intro method addr port parts isPort
      rw [parse_split parts, asUInt16_isPort isPort]
      rfl
    · intro none
      by_cases unsplit : ∃ method addr port, IsSplit config method addr port
      · obtain ⟨method, addr, port, parts⟩ := unsplit
        rcases condition method addr port parts with isPort | unreadable
        · exact absurd ⟨method, addr, port, parts, isPort⟩ none
        · obtain ⟨exn, thrown⟩ := (asUInt16_error_iff port).mpr unreadable
          rw [parse_split parts, thrown]
          exact ⟨exn, rfl⟩
      · exact ⟨_, parse_unsplit unsplit⟩

def inboundEndpoint (config : Bytes) : Except Exn (Bytes × UInt16) :=
  (PlainInbound.loadConfig config).map fun inbound => (inbound.listenAddr, inbound.listenPort)

def outboundEndpoint (config : Bytes) : Except Exn (Bytes × UInt16) :=
  (PlainOutbound.loadConfig config).map fun outbound => (outbound.serverAddr, outbound.serverPort)

theorem inboundEndpoint_eq : inboundEndpoint = parse := by
  funext config
  rw [inboundEndpoint, PlainInbound.loadConfig]
  cases parse config <;> rfl

theorem outboundEndpoint_eq : outboundEndpoint = parse := by
  funext config
  rw [outboundEndpoint, PlainOutbound.loadConfig]
  cases parse config <;> rfl

/-- Both configurations are parsed exactly for the strings whose port, if they have one, is a
decimal numeral up to 65535 or something that `std::stoul` throws at. -/
theorem loadConfig_exact_iff (config : Bytes) :
    (Exact inboundEndpoint config ∧ Exact outboundEndpoint config) ↔
      ∀ method addr port, IsSplit config method addr port →
        IsPort port ∨ (port ≠ [] ∧ Unreadable port) := by
  rw [inboundEndpoint_eq, outboundEndpoint_eq, and_self]
  exact exact_parse_iff config

/-- A port out of range, a negative one, none, and one with something behind it. -/
theorem wrong_ports_accepted :
    PlainInbound.loadConfig (ascii "plain@::1@65537") = .ok ⟨ascii "::1", 1⟩ ∧
    PlainOutbound.loadConfig (ascii "plain@::1@-1") = .ok ⟨ascii "::1", 65535⟩ ∧
    PlainInbound.loadConfig (ascii "plain@::1@") = .ok ⟨ascii "::1", 0⟩ ∧
    PlainOutbound.loadConfig (ascii "plain@::1@80x") = .ok ⟨ascii "::1", 80⟩ := by
  decide

end UdpForwarder.Endpoint
