import UdpForwarder.Forwarder
import UdpForwarder.Process

/-! `quick_listen` and `quick_connect` with the calls they make for every candidate address, and
what they leave behind in the process. -/

namespace UdpForwarder.Sockets

open Forwarder

structure Hints where
  useUdp : Bool
  passive : Bool
  deriving DecidableEq

structure AddrInfo where
  family : Int
  socktype : Int
  protocol : Int
  addr : Bytes
  deriving DecidableEq

/-- What the calls for one candidate return: `socket` is `none` for -1, the others are false
where they fail. `established` is `bind` or `connect`. -/
structure Answers where
  socket : Option Fd
  reuseAddr : Bool
  reusePort : Bool
  established : Bool
  deriving DecidableEq

/-- `getaddrinfo` returns an error code or allocates a list; `listen` fails with the text of its
errno. -/
structure Calls where
  getaddrinfo : Hints → Except Int (List (AddrInfo × Answers))
  listen : Option String

/-- The sockets of the process with the address they are bound or connected to, and the number of
address lists that nobody has freed. -/
structure Resources where
  openFds : Finset Fd
  established : PartialMap Fd AddrInfo
  addrLists : Nat

abbrev SocketCall := EStateM Exn Resources

namespace Resources

def opened (resources : Resources) (fd : Fd) : Resources :=
  { resources with openFds := insert fd resources.openFds }

def closed (resources : Resources) (fd : Fd) : Resources :=
  { resources with
    openFds := resources.openFds.erase fd, established := resources.established.erase fd }

def establishedAt (resources : Resources) (fd : Fd) (info : AddrInfo) : Resources :=
  { resources with established := resources.established.assign fd info }

def allocated (resources : Resources) : Resources :=
  { resources with addrLists := resources.addrLists + 1 }

def freed (resources : Resources) : Resources :=
  { resources with addrLists := resources.addrLists - 1 }

end Resources

/-- `rlib_defer`: the destructor of the guard runs however its scope is left. -/
def deferred {Value : Type} (undo : Resources → Resources) (scope : SocketCall Value) :
    SocketCall Value := fun resources =>
  match scope resources with
  | .ok value resources => .ok value (undo resources)
  | .error exn resources => .error exn (undo resources)

def setsockoptFailed (option : String) : Exn :=
  .runtimeError ("setsockopt(" ++ option ++ ") failed")

/-- The loop over the candidates, up to its `break`; `none` is `!success`. -/
def tryCandidates : List (AddrInfo × Answers) → SocketCall (Option Fd)
  | [] => return none
  | (info, answers) :: candidates =>
    match answers.socket with
    | none => tryCandidates candidates
    | some fd => do
      modify (·.opened fd)
      if !answers.reuseAddr then throw (setsockoptFailed "SO_REUSEADDR")
      if !answers.reusePort then throw (setsockoptFailed "SO_REUSEPORT")
      if answers.established then
        modify (·.establishedAt fd info)
        return some fd
      modify (·.closed fd)
      tryCandidates candidates

def listenUnresolved (code : Int) : Exn := .runtimeError
  ("Failed to getaddrinfo. returnval=" ++ toString code ++
    ", check `man getaddrinfo`'s return value.")

def bindFailed (addr : Bytes) (port : UInt16) : Exn := .runtimeError
  ("Failed to bind " ++ shown addr ++ ":" ++ toString port.toNat ++ ".")

def listenFailed (errno : String) : Exn := .runtimeError ("listen failed. " ++ errno)

def connectUnresolved (addr : Bytes) (port : UInt16) (code : Int) : Exn := .runtimeError
  ("getaddrinfo failed. Check network connection to " ++ shown addr ++ ":" ++
    toString port.toNat ++ "; returnval=" ++ toString code ++
    ", check `man getaddrinfo`'s return value.")

def connectFailed : Exn := .runtimeError "Failed to connect to any of these addr."

/-- The guard that frees the list is only made behind everything that can throw. -/
def quickListen (addr : Bytes) (port : UInt16) (useUdp : Bool) (calls : Calls) : SocketCall Fd := do
  match calls.getaddrinfo ⟨useUdp, true⟩ with
  | .error code => throw (listenUnresolved code)
  | .ok psaddr =>
    modify (·.allocated)
    match ← tryCandidates psaddr with
    | none => throw (bindFailed addr port)
    | some listenfd =>
      if !useUdp then
        if let some errno := calls.listen then throw (listenFailed errno)
      deferred (·.freed) (return listenfd)

def quickConnect (addr : Bytes) (port : UInt16) (useUdp : Bool) (calls : Calls) :
    SocketCall Fd := do
  match calls.getaddrinfo ⟨useUdp, false⟩ with
  | .error code => throw (connectUnresolved addr port code)
  | .ok paddr =>
    modify (·.allocated)
    deferred (·.freed) do
      match ← tryCandidates paddr with
      | none => throw connectFailed
      | some sockfd => return sockfd

/-- How a candidate ends the loop: by an exception, or as the result. -/
inductive Decision where
  | refused (fd : Fd) (option : String)
  | taken (fd : Fd)
  deriving DecidableEq

/-- `none` for a candidate that leaves no trace and is followed by the next one. -/
def Answers.decision (answers : Answers) : Option Decision :=
  answers.socket.bind fun fd =>
    if answers.reuseAddr = false then some (.refused fd "SO_REUSEADDR")
    else if answers.reusePort = false then some (.refused fd "SO_REUSEPORT")
    else if answers.established then some (.taken fd)
    else none

def decided (candidates : List (AddrInfo × Answers)) : Option (AddrInfo × Decision) :=
  candidates.findSome? fun (info, answers) => answers.decision.map fun decision => (info, decision)

namespace Resources

def Tidy (resources : Resources) : Prop :=
  ∀ fd, fd ∉ resources.openFds → resources.established fd = none

/-- `socket` returns numbers that are not open. -/
def Fresh (resources : Resources) (candidates : List (AddrInfo × Answers)) : Prop :=
  ∀ candidate ∈ candidates, ∀ fd, candidate.2.socket = some fd → fd ∉ resources.openFds

variable {resources : Resources}

theorem Tidy.established (tidy : resources.Tidy) (fd : Fd) (info : AddrInfo) :
    ((resources.opened fd).establishedAt fd info).Tidy := by
  intro other closed
  have apart : other ∉ insert fd resources.openFds := closed
  rw [Finset.mem_insert, not_or] at apart
  exact (PartialMap.assign_other _ _ apart.1).trans (tidy other apart.2)

theorem closed_opened (tidy : resources.Tidy) {fd : Fd} (fresh : fd ∉ resources.openFds) :
    (resources.opened fd).closed fd = resources := by
  have fds : (insert fd resources.openFds).erase fd = resources.openFds :=
    Finset.erase_insert fresh
  have map : resources.established.erase fd = resources.established :=
    PartialMap.erase_absent (tidy fd fresh)
  rw [closed, opened, fds, map]

end Resources

open Resources

variable {resources after : Resources} {candidates : List (AddrInfo × Answers)} {calls : Calls}
  {addr : Bytes} {port : UInt16} {useUdp : Bool} {fd : Fd} {exn : Exn}

/-- The loop with its opening and closing is a search for the first candidate that decides. -/
theorem tryCandidates_run (tidy : resources.Tidy) (fresh : resources.Fresh candidates) :
    (tryCandidates candidates).run resources =
      match decided candidates with
      | none => .ok none resources
      | some (_, .refused fd option) =>
        .error (setsockoptFailed option) (resources.opened fd)
      | some (info, .taken fd) =>
        .ok (some fd) ((resources.opened fd).establishedAt fd info) := by
  induction candidates with
  | nil => rfl
  | cons candidate rest ih =>
      obtain ⟨info, ⟨socket, reuseAddr, reusePort, established⟩⟩ := candidate
      have later : (tryCandidates rest).run resources = _ :=
        ih fun other member => fresh other (List.mem_cons_of_mem _ member)
      cases socket with
      | none => exact later
      | some fd =>
          have new : fd ∉ resources.openFds := fresh _ List.mem_cons_self fd rfl
          cases reuseAddr with
          | false => rfl
          | true =>
              cases reusePort with
              | false => rfl
              | true =>
                  cases established with
                  | true => rfl
                  | false =>
                      have back := closed_opened tidy new
                      have skipped : (tryCandidates ((info, ⟨some fd, true, true, false⟩) ::
                          rest)).run resources =
                            (tryCandidates rest).run ((resources.opened fd).closed fd) := rfl
                      rw [skipped, back]
                      exact later

theorem allocated_run (resources : Resources) :
    (modify (·.allocated) : SocketCall Unit).run resources = .ok () resources.allocated := rfl

theorem deferred_run {Value : Type} (undo : Resources → Resources) (scope : SocketCall Value)
    (resources : Resources) : (deferred undo scope).run resources =
      match scope.run resources with
      | .ok value resources => .ok value (undo resources)
      | .error exn resources => .error exn (undo resources) := rfl

theorem quickConnect_run (tidy : resources.Tidy)
    (fresh : ∀ candidates, calls.getaddrinfo ⟨useUdp, false⟩ = .ok candidates →
      resources.Fresh candidates) :
    (quickConnect addr port useUdp calls).run resources =
      match calls.getaddrinfo ⟨useUdp, false⟩ with
      | .error code => .error (connectUnresolved addr port code) resources
      | .ok candidates => match decided candidates with
        | none => .error connectFailed resources
        | some (_, .refused fd option) =>
          .error (setsockoptFailed option) (resources.opened fd)
        | some (info, .taken fd) => .ok fd ((resources.opened fd).establishedAt fd info) := by
  rw [quickConnect]
  cases resolved : calls.getaddrinfo ⟨useUdp, false⟩ with
  | error code => rfl
  | ok candidates =>
      have tidy' : resources.allocated.Tidy := tidy
      have fresh' : resources.allocated.Fresh candidates := fresh candidates resolved
      simp only [EStateM.run_bind, allocated_run, deferred_run, tryCandidates_run tidy' fresh']
      cases decided candidates with
      | none => rfl
      | some choice =>
          obtain ⟨info, decision⟩ := choice
          cases decision <;> rfl

/-- What `quick_listen` comes to: what it throws with an address list, it throws without freeing
it. -/
theorem quickListen_run (tidy : resources.Tidy)
    (fresh : ∀ candidates, calls.getaddrinfo ⟨useUdp, true⟩ = .ok candidates →
      resources.Fresh candidates) :
    (quickListen addr port useUdp calls).run resources =
      match calls.getaddrinfo ⟨useUdp, true⟩ with
      | .error code => .error (listenUnresolved code) resources
      | .ok candidates => match decided candidates with
        | none => .error (bindFailed addr port) resources.allocated
        | some (_, .refused fd option) =>
          .error (setsockoptFailed option) (resources.opened fd).allocated
        | some (info, .taken fd) =>
          match (if useUdp then none else calls.listen) with
          | some errno => .error (listenFailed errno)
              ((resources.opened fd).establishedAt fd info).allocated
          | none => .ok fd ((resources.opened fd).establishedAt fd info) := by
  rw [quickListen]
  cases resolved : calls.getaddrinfo ⟨useUdp, true⟩ with
  | error code => rfl
  | ok candidates =>
      have tidy' : resources.allocated.Tidy := tidy
      have fresh' : resources.allocated.Fresh candidates := fresh candidates resolved
      simp only [EStateM.run_bind, allocated_run, tryCandidates_run tidy' fresh']
      cases decided candidates with
      | none => rfl
      | some choice =>
          obtain ⟨info, decision⟩ := choice
          cases decision with
          | refused fd option => rfl
          | taken fd =>
              cases useUdp with
              | true => rfl
              | false => cases calls.listen <;> rfl

theorem decision_taken {answers : Answers} (taken : answers.decision = some (.taken fd)) :
    answers = ⟨some fd, true, true, true⟩ := by
  obtain ⟨socket, reuseAddr, reusePort, established⟩ := answers
  obtain ⟨fd', opened, rest⟩ := Option.bind_eq_some_iff.mp taken
  simp only at opened
  subst opened
  cases reuseAddr <;> cases reusePort <;> cases established <;> simp_all

theorem decision_refused {answers : Answers} {option : String}
    (refused : answers.decision = some (.refused fd option)) : answers.socket = some fd := by
  obtain ⟨fd', opened, rest⟩ := Option.bind_eq_some_iff.mp refused
  rw [opened]
  split at rest
  · cases rest
    rfl
  · split at rest
    · cases rest
      rfl
    · split at rest <;> cases rest

theorem decided_split {info : AddrInfo} {decision : Decision}
    (found : decided candidates = some (info, decision)) :
    ∃ front answers back, candidates = front ++ (info, answers) :: back ∧
      (∀ earlier ∈ front, earlier.2.decision = none) ∧ answers.decision = some decision := by
  obtain ⟨front, ⟨info', answers⟩, back, split, at_, others⟩ := List.findSome?_eq_some_iff.mp found
  obtain ⟨decision', decides, same⟩ := Option.map_eq_some_iff.mp at_
  obtain ⟨rfl, rfl⟩ := Prod.mk.inj same
  refine ⟨front, answers, back, split, fun earlier member => ?_, decides⟩
  exact Option.map_eq_none_iff.mp (others earlier member)

/-- One new socket, at the first address where everything works, and nothing else. -/
structure Obtained (candidates : List (AddrInfo × Answers)) (before : Resources) (fd : Fd)
    (after : Resources) : Prop where
  new : fd ∉ before.openFds
  openFds : after.openFds = insert fd before.openFds
  addrLists : after.addrLists = before.addrLists
  tidy : after.Tidy
  first : ∃ front info back,
    candidates = front ++ (info, ⟨some fd, true, true, true⟩) :: back ∧
      (∀ earlier ∈ front, earlier.2.decision = none) ∧ after.established fd = some info

theorem obtained_of_decided {info : AddrInfo} (tidy : resources.Tidy)
    (fresh : resources.Fresh candidates)
    (found : decided candidates = some (info, .taken fd)) :
    Obtained candidates resources fd ((resources.opened fd).establishedAt fd info) := by
  obtain ⟨front, answers, back, rfl, others, taken⟩ := decided_split found
  obtain rfl := decision_taken taken
  have new : fd ∉ resources.openFds :=
    fresh _ (List.mem_append_right _ List.mem_cons_self) fd rfl
  exact ⟨new, rfl, rfl, tidy.established fd info, front, info, back, rfl, others,
    PartialMap.assign_self _ _ _⟩

theorem new_of_refused {info : AddrInfo} {option : String} (fresh : resources.Fresh candidates)
    (found : decided candidates = some (info, .refused fd option)) :
    insert fd resources.openFds ≠ resources.openFds := by
  obtain ⟨front, answers, back, rfl, _, refused⟩ := decided_split found
  have new := fresh _ (List.mem_append_right _ List.mem_cons_self) fd (decision_refused refused)
  exact fun same => new (Finset.insert_eq_self.mp same)

/-- `quick_connect` leaks no address list, and a socket only where `setsockopt` fails. -/
theorem quickConnect_accounted (tidy : resources.Tidy)
    (fresh : ∀ candidates, calls.getaddrinfo ⟨useUdp, false⟩ = .ok candidates →
      resources.Fresh candidates) :
    (∀ fd after, (quickConnect addr port useUdp calls).run resources = .ok fd after →
      ∃ candidates, calls.getaddrinfo ⟨useUdp, false⟩ = .ok candidates ∧
        Obtained candidates resources fd after) ∧
    ∀ exn after, (quickConnect addr port useUdp calls).run resources = .error exn after →
      after.addrLists = resources.addrLists ∧
      (after.openFds = resources.openFds ↔ ¬ ∃ candidates info fd option,
        calls.getaddrinfo ⟨useUdp, false⟩ = .ok candidates ∧
          decided candidates = some (info, .refused fd option)) := by
  rw [quickConnect_run tidy fresh]
  cases resolved : calls.getaddrinfo ⟨useUdp, false⟩ with
  | error code => simp
  | ok candidates =>
      cases found : decided candidates with
      | none => simp [found]
      | some choice =>
          obtain ⟨info, fd | fd⟩ := choice
          · simp [found, Resources.opened, new_of_refused (fresh _ resolved) found]
          · have obtained := obtained_of_decided tidy (fresh _ resolved) found
            simpa [found] using obtained

/-- The call that `PlainOutbound` makes for a new client is one of the outcomes that its handler is
given, with a number that is not open. -/
theorem quickConnect_refines (tidy : resources.Tidy)
    (fresh : ∀ candidates, calls.getaddrinfo ⟨useUdp, false⟩ = .ok candidates →
      resources.Fresh candidates) (process : Process)
    (same : process.openFds = resources.openFds) :
    ∃ outcome : Except String Fd, (∀ connFd, outcome = .ok connFd → connFd ∉ process.openFds) ∧
      match (quickConnect addr port useUdp calls).run resources with
      | .ok connFd after => (Handler.quickConnect outcome).run process =
          .ok connFd { process with openFds := after.openFds }
      | .error exn _ => (Handler.quickConnect outcome).run process = .error exn process := by
  rw [quickConnect_run tidy fresh]
  cases resolved : calls.getaddrinfo ⟨useUdp, false⟩ with
  | error code => exact ⟨.error _, nofun, rfl⟩
  | ok candidates =>
      cases found : decided candidates with
      | none =>
          simp only [found]
          exact ⟨.error _, nofun, rfl⟩
      | some choice =>
          obtain ⟨info, ⟨fd, option⟩ | fd⟩ := choice
          · simp only [found]
            exact ⟨.error _, nofun, rfl⟩
          · have obtained := obtained_of_decided tidy (fresh _ resolved) found
            refine ⟨.ok fd, ?_, ?_⟩
            · intro connFd returned
              cases returned
              rw [same]
              exact obtained.new
            · simp only [found, obtained.openFds, ← same]
              rfl

/-- A socket of the process, the first candidate without an address family it knows, the second
one refused. -/
def secondWorks : Calls where
  getaddrinfo _ := .ok [(⟨10, 2, 17, [1]⟩, ⟨none, true, true, true⟩),
    (⟨10, 2, 17, [2]⟩, ⟨some 3, true, true, false⟩), (⟨2, 2, 17, [3]⟩, ⟨some 3, true, true, true⟩)]
  listen := none

def standardFds : Resources := ⟨{0, 1, 2}, .empty, 0⟩

theorem fresh_secondWorks (hints : Hints) : ∀ candidates,
    secondWorks.getaddrinfo hints = .ok candidates → standardFds.Fresh candidates := by
  rintro candidates ⟨⟩ candidate member fd socket
  simp only [List.mem_cons, List.not_mem_nil, or_false] at member
  rcases member with rfl | rfl | rfl <;> cases socket <;> decide

theorem quickConnect_accounted_third : ∃ candidates after,
    Obtained candidates standardFds 3 after ∧ candidates.length = 3 := by
  have tidy : standardFds.Tidy := fun _ _ => rfl
  obtain ⟨candidates, resolved, obtained⟩ := (quickConnect_accounted tidy
    (fresh_secondWorks ⟨true, false⟩)).1 3 _ (rfl : (quickConnect (ascii "::1") 1194 true
      secondWorks).run standardFds = .ok 3 _)
  cases resolved
  exact ⟨_, _, obtained, rfl⟩

/-- `quick_listen` leaks the address list whenever it throws behind `getaddrinfo`, and a socket
where `setsockopt` or `listen` fails. -/
theorem quickListen_accounted (tidy : resources.Tidy)
    (fresh : ∀ candidates, calls.getaddrinfo ⟨useUdp, true⟩ = .ok candidates →
      resources.Fresh candidates) :
    (∀ fd after, (quickListen addr port useUdp calls).run resources = .ok fd after →
      ∃ candidates, calls.getaddrinfo ⟨useUdp, true⟩ = .ok candidates ∧
        Obtained candidates resources fd after) ∧
    ∀ exn after, (quickListen addr port useUdp calls).run resources = .error exn after →
      (after.addrLists = resources.addrLists ↔
        ∃ code, calls.getaddrinfo ⟨useUdp, true⟩ = .error code) ∧
      (after.openFds = resources.openFds ↔ ∀ candidates,
        calls.getaddrinfo ⟨useUdp, true⟩ = .ok candidates → decided candidates = none) := by
  rw [quickListen_run tidy fresh]
  cases resolved : calls.getaddrinfo ⟨useUdp, true⟩ with
  | error code => simp
  | ok candidates =>
      cases found : decided candidates with
      | none => simp [found, Resources.allocated]
      | some choice =>
          obtain ⟨info, fd | fd⟩ := choice
          · simp [found, Resources.opened, Resources.allocated,
              new_of_refused (fresh _ resolved) found]
          · have obtained := obtained_of_decided tidy (fresh _ resolved) found
            have new : insert fd resources.openFds ≠ resources.openFds :=
              fun same => obtained.new (Finset.insert_eq_self.mp same)
            cases (if useUdp then none else calls.listen) with
            | none => simpa [found] using obtained
            | some errno =>
                simp [found, Resources.opened, Resources.establishedAt, Resources.allocated, new]

theorem quickListen_accounted_third : ∃ candidates after,
    Obtained candidates standardFds 3 after ∧ candidates.length = 3 := by
  have tidy : standardFds.Tidy := fun _ _ => rfl
  obtain ⟨candidates, resolved, obtained⟩ := (quickListen_accounted tidy
    (fresh_secondWorks ⟨true, true⟩)).1 3 _ (rfl : (quickListen (ascii "::1") 1194 true
      secondWorks).run standardFds = .ok 3 _)
  cases resolved
  exact ⟨_, _, obtained, rfl⟩

end UdpForwarder.Sockets
