import UdpForwarder.EndToEnd
import UdpForwarder.Sequence

/-! The same path over a network that loses and repeats nothing and keeps the order of what has
one address: what a user says reaches the application once and in its order. -/

namespace UdpForwarder.Lossless

open ClientId ConnectionTable Delivery EndToEnd Fifo Filters Forwarder Forwarding History Ipc
  Isolation Network Plain Sequence Transition Tunnel

def takenBy (source : SourceAddr) : Event → Option Bytes
  | .taken origin _ datagram => if origin = source then some datagram else none
  | _ => none

def receivedOn (connFd : Fd) : Event → Option Bytes
  | .received fd datagram => if fd = connFd then some datagram else none
  | _ => none

def deliveredTo (address : Bytes) : Event → Option Bytes
  | .delivered destination datagram => if destination = address then some datagram else none
  | _ => none

/-- A socket of the first forwarder gets the oldest datagram for its address. -/
def clientInTurn (link : Link) : Event → Bool
  | .received connFd datagram =>
    match link.bound.lookup connFd with
    | some source =>
      decide (link.toClient.find? (·.1 = source.bytes) = some (source.bytes, datagram))
    | none => false
  | _ => true

/-- The listener of the second one gets the oldest datagram of a source. -/
def serverInTurn (link : Link) : Event → Bool
  | .taken source _ datagram =>
    decide (link.toServer.find? (·.1 = source) = some (source, datagram))
  | _ => true

def ofClient (ours : SourceAddr → Bool) (address : SourceAddr) (link : Link) (event : Event) :
    Option Link :=
  if clientInTurn link event then link.ofClient ours address event else none

def ofServer (link : Link) (event : Event) : Option Link :=
  if serverInTurn link event then link.ofServer event else none

/-- The steps of such a network. -/
def step (path : Path) (network : Network) : Network.Action → Option Network
  | .client address action => do
    let client ← State.step path.client network.client action
    let link ← (news network.client client).foldlM (ofClient path.ours address) network.link
    return { network with client, link }
  | .server action => do
    let server ← State.step path.server network.server action
    let link ← (news network.server server).foldlM ofServer network.link
    return { network with server, link }
  | .foreign source datagram => Network.step path network (.foreign source datagram)
  | .loseToServer _ | .loseToClient _ | .repeatToServer _ | .repeatToClient _ => none

/-- For every socket of the first forwarder: what it sent was taken by the second one or is on its
way, in the order it was sent, and so is what was sent to it. -/
structure Conserved (link : Link) (sent served : List Event) : Prop where
  requests : ∀ socket ∈ link.bound, sent.filterMap (sentOn socket.1) =
    served.filterMap (takenBy socket.2) ++ heldFor link.toServer socket.2
  answers : ∀ socket ∈ link.bound, served.filterMap (deliveredTo socket.2.bytes) =
    sent.filterMap (receivedOn socket.1) ++ heldFor link.toClient socket.2.bytes

section Link

variable {path : Path} {link link' : Link} {sent served later : List Event} {event : Event}
  {address : SourceAddr} {filter filter' : BaseFilter}

theorem conserved_start : Conserved ⟨[], [], []⟩ [] [] :=
  ⟨fun _ member => absurd member List.not_mem_nil,
    fun _ member => absurd member List.not_mem_nil⟩

theorem filterMap_snoc_none {Value : Type} {select : Event → Option Value} (trace : List Event)
    (other : select event = none) :
    (trace ++ [event]).filterMap select = trace.filterMap select := by
  rw [List.filterMap_append, List.filterMap_cons_none other, List.filterMap_nil, List.append_nil]

theorem filterMap_snoc_some {Value : Type} {select : Event → Option Value} (trace : List Event)
    {value : Value} (selected : select event = some value) :
    (trace ++ [event]).filterMap select = trace.filterMap select ++ [value] := by
  rw [List.filterMap_append, List.filterMap_cons_some selected, List.filterMap_nil]

theorem Conserved.sent_other (conserved : Conserved link sent served)
    (unsent : ∀ connFd, sentOn connFd event = none)
    (unreceived : ∀ connFd, receivedOn connFd event = none) :
    Conserved link (sent ++ [event]) served := by
  constructor
  · intro socket member
    rw [filterMap_snoc_none sent (unsent _)]
    exact conserved.requests socket member
  · intro socket member
    rw [filterMap_snoc_none sent (unreceived _)]
    exact conserved.answers socket member

theorem Conserved.served_other (conserved : Conserved link sent served)
    (untaken : ∀ source, takenBy source event = none)
    (undelivered : ∀ address, deliveredTo address event = none) :
    Conserved link sent (served ++ [event]) := by
  constructor
  · intro socket member
    rw [filterMap_snoc_none served (untaken _)]
    exact conserved.requests socket member
  · intro socket member
    rw [filterMap_snoc_none served (undelivered _)]
    exact conserved.answers socket member

theorem sockets_differ (linked : Linked path link sent served) (own : link.OwnAddresses)
    {first second : Fd × SourceAddr} (one : first ∈ link.bound) (two : second ∈ link.bound) :
    first.1 = second.1 ↔ first.2 = second.2 := by
  constructor
  · intro same
    exact congrArg Prod.snd (List.inj_on_of_nodup_map linked.sockets one two same)
  · intro same
    exact congrArg Prod.fst (List.inj_on_of_nodup_map own one two same)

theorem unserved (linked : Linked path link sent served)
    (explained : Explained (Justified filter) served) (inside : path.ours address = true)
    (free : address ∉ link.bound.map Prod.snd) (datagram : Bytes) :
    .delivered address.bytes datagram ∉ served := by
  intro delivered
  rcases List.append_of_mem delivered with ⟨before, after, split⟩
  rcases explained before _ after split with
    ⟨source, leftover, bytes, connFd, content, _, opened, _⟩
  have known : .opened (clientId source leftover) connFd ∈ served := by
    rw [split]
    exact List.mem_append_left _ opened
  rcases known_of_opened explained known with ⟨origin, rest, first, taken, same⟩
  rw [← clientId_source same, ← eq_of_bytes bytes] at taken
  rcases linked.taken address rest first taken inside with ⟨socket, member, _⟩
  exact free (List.mem_map_of_mem (f := Prod.snd) member)

theorem Conserved.open (linked : Linked path link sent served)
    (conserved : Conserved link sent served) {id : Bytes} {connFd : Fd}
    (explained : Explained (Justified filter) sent)
    (explained' : Explained (Justified filter') served)
    (never : ∀ other, .opened other connFd ∉ sent) (inside : path.ours address = true)
    (free : address ∉ link.bound.map Prod.snd) :
    Conserved { link with bound := (connFd, address) :: link.bound }
      (sent ++ [.opened id connFd]) served := by
  have before : Conserved link (sent ++ [.opened id connFd]) served :=
    conserved.sent_other (fun _ => rfl) fun _ => rfl
  -- no packet can have the address or the socket of this connection already
  have unbound : ∀ socket, (socket, address) ∉ link.bound := fun socket member =>
    free (List.mem_map_of_mem (f := Prod.snd) member)
  have unknown : ∀ source, (connFd, source) ∉ link.bound := by
    intro source member
    rcases (linked.opened connFd).mp (List.mem_map_of_mem (f := Prod.fst) member) with
      ⟨other, opened⟩
    exact never other opened
  constructor
  · intro socket member
    rcases List.mem_cons.mp member with rfl | earlier
    · have unsent : (sent ++ [Event.opened id connFd]).filterMap (sentOn connFd) = [] := by
        rw [filterMap_snoc_none sent rfl]
        apply List.filterMap_eq_nil_iff.mpr
        intro event present
        cases sends : sentOn connFd event with
        | none => rfl
        | some datagram =>
            rw [sentOn_eq_some sends] at present
            rcases List.append_of_mem present with ⟨front, back, split⟩
            rcases explained front _ back split with ⟨_, other, opened, _⟩
            apply absurd _ (never other)
            rw [split]
            exact List.mem_append_left _ opened
      have untaken : served.filterMap (takenBy address) = [] := by
        apply List.filterMap_eq_nil_iff.mpr
        intro event present
        cases event with
        | taken origin leftover datagram =>
            by_cases same : origin = address
            · rw [same] at present
              rcases linked.taken address leftover datagram present inside with
                ⟨socket, member, _⟩
              exact absurd member (unbound socket)
            · exact if_neg same
        | opened | sent | received | delivered => rfl
      have nothing : heldFor link.toServer address = [] := by
        apply heldFor_nil_of
        rintro packet present rfl
        rcases linked.toServer packet present inside with ⟨socket, member, _⟩
        exact unbound socket member
      rw [unsent, untaken, nothing, List.append_nil]
    · exact before.requests socket earlier
  · intro socket member
    rcases List.mem_cons.mp member with rfl | earlier
    · have undelivered : served.filterMap (deliveredTo address.bytes) = [] := by
        apply List.filterMap_eq_nil_iff.mpr
        intro event present
        cases event with
        | delivered destination datagram =>
            by_cases same : destination = address.bytes
            · rw [same] at present
              exact absurd present (unserved linked explained' inside free datagram)
            · exact if_neg same
        | taken | opened | sent | received => rfl
      have unreceived : (sent ++ [Event.opened id connFd]).filterMap (receivedOn connFd) = [] := by
        rw [filterMap_snoc_none sent rfl]
        apply List.filterMap_eq_nil_iff.mpr
        intro event present
        cases event with
        | received fd datagram =>
            by_cases same : fd = connFd
            · rw [same] at present
              rcases linked.received connFd datagram present with ⟨source, member, _⟩
              exact absurd member (unknown source)
            · exact if_neg same
        | taken | opened | sent | delivered => rfl
      have nothing : heldFor link.toClient address.bytes = [] := by
        apply heldFor_nil_of
        rintro packet present same
        have delivered := linked.toClient packet present
        rw [same] at delivered
        exact unserved linked explained' inside free _ delivered
      rw [undelivered, unreceived, nothing, List.append_nil]
    · exact before.answers socket earlier

theorem Conserved.send (linked : Linked path link sent served) (own : link.OwnAddresses)
    (conserved : Conserved link sent served) {connFd : Fd} {source : SourceAddr}
    (found : (connFd, source) ∈ link.bound) (datagram : Bytes) :
    Conserved { link with toServer := link.toServer ++ [(source, datagram)] }
      (sent ++ [.sent connFd datagram]) served := by
  constructor
  · intro socket member
    rw [heldFor_append, heldFor_single, ← List.append_assoc, ← conserved.requests socket member]
    by_cases same : connFd = socket.1
    · have sends : sentOn socket.1 (.sent connFd datagram) = some datagram := if_pos same
      rw [filterMap_snoc_some sent sends,
        if_pos ((sockets_differ linked own found member).mp same)]
    · have unsent : sentOn socket.1 (.sent connFd datagram) = none := if_neg same
      have different : source ≠ socket.2 := fun equal =>
        same ((sockets_differ linked own found member).mpr equal)
      rw [filterMap_snoc_none sent unsent, if_neg different, List.append_nil]
  · intro socket member
    rw [filterMap_snoc_none sent rfl]
    exact conserved.answers socket member

theorem Conserved.receive (linked : Linked path link sent served) (own : link.OwnAddresses)
    (conserved : Conserved link sent served) {connFd : Fd} {source : SourceAddr}
    {datagram : Bytes} (found : (connFd, source) ∈ link.bound)
    (oldest : link.toClient.find? (·.1 = source.bytes) = some (source.bytes, datagram)) :
    Conserved { link with toClient := link.toClient.erase (source.bytes, datagram) }
      (sent ++ [.received connFd datagram]) served := by
  constructor
  · intro socket member
    rw [filterMap_snoc_none sent rfl]
    exact conserved.requests socket member
  · intro socket member
    dsimp only
    rw [conserved.answers socket member]
    by_cases same : connFd = socket.1
    · have gets : receivedOn socket.1 (.received connFd datagram) = some datagram :=
        if_pos same
      have address := (sockets_differ linked own found member).mp same
      simp only at address
      rw [filterMap_snoc_some sent gets, ← address, heldFor_erase_first oldest,
        List.append_assoc, List.singleton_append]
    · have other : receivedOn socket.1 (.received connFd datagram) = none := if_neg same
      have different : source.bytes ≠ socket.2.bytes := fun equal =>
        same ((sockets_differ linked own found member).mpr (eq_of_bytes equal))
      rw [filterMap_snoc_none sent other, heldFor_erase_other different]

theorem Conserved.take (conserved : Conserved link sent served) {source : SourceAddr}
    {datagram : Bytes} (leftover : Leftover)
    (oldest : link.toServer.find? (·.1 = source) = some (source, datagram)) :
    Conserved { link with toServer := link.toServer.erase (source, datagram) } sent
      (served ++ [.taken source leftover datagram]) := by
  constructor
  · intro socket member
    dsimp only
    rw [conserved.requests socket member]
    by_cases same : source = socket.2
    · have takes : takenBy socket.2 (.taken source leftover datagram) = some datagram :=
        if_pos same
      rw [filterMap_snoc_some served takes, ← same, heldFor_erase_first oldest,
        List.append_assoc, List.singleton_append]
    · have other : takenBy socket.2 (.taken source leftover datagram) = none := if_neg same
      rw [filterMap_snoc_none served other, heldFor_erase_other same]
  · intro socket member
    rw [filterMap_snoc_none served rfl]
    exact conserved.answers socket member

theorem Conserved.deliver (conserved : Conserved link sent served)
    (destination datagram : Bytes) :
    Conserved { link with toClient := link.toClient ++ [(destination, datagram)] } sent
      (served ++ [.delivered destination datagram]) := by
  constructor
  · intro socket member
    rw [filterMap_snoc_none served rfl]
    exact conserved.requests socket member
  · intro socket member
    rw [heldFor_append, heldFor_single, ← List.append_assoc, ← conserved.answers socket member]
    by_cases same : destination = socket.2.bytes
    · have delivers : deliveredTo socket.2.bytes (.delivered destination datagram) =
          some datagram := if_pos same
      rw [filterMap_snoc_some served delivers, if_pos same]
    · have other : deliveredTo socket.2.bytes (.delivered destination datagram) = none :=
        if_neg same
      rw [filterMap_snoc_none served other, if_neg same, List.append_nil]

theorem own_of_ofClient (moved : link.ofClient path.ours address event = some link')
    (own : link'.OwnAddresses) : link.OwnAddresses := by
  cases event with
  | taken | delivered =>
      injection moved with same
      exact same ▸ own
  | opened id connFd =>
      simp only [Link.ofClient, Option.ite_none_right_eq_some, Option.some.injEq] at moved
      rcases moved with ⟨_, rfl⟩
      exact (List.nodup_cons.mp own).2
  | sent connFd datagram =>
      simp only [Link.ofClient] at moved
      split at moved
      · injection moved with same
        subst same
        exact own
      · cases moved
  | received connFd datagram =>
      simp only [Link.ofClient] at moved
      split at moved
      · simp only [Option.ite_none_right_eq_some, Option.some.injEq] at moved
        rcases moved with ⟨_, rfl⟩
        exact own
      · cases moved

theorem own_of_ofServer (moved : link.ofServer event = some link') (own : link'.OwnAddresses) :
    link.OwnAddresses := by
  cases event with
  | opened | sent | received | delivered =>
      injection moved with same
      subst same
      exact own
  | taken source leftover datagram =>
      simp only [Link.ofServer, Option.ite_none_right_eq_some, Option.some.injEq] at moved
      rcases moved with ⟨_, rfl⟩
      exact own

theorem Conserved.ofClient (linked : Linked path link sent served)
    (conserved : Conserved link sent served) (own : link'.OwnAddresses)
    (explained : Explained (Justified filter) (sent ++ [event]))
    (explained' : Explained (Justified filter') served)
    (inTurn : clientInTurn link event = true)
    (moved : link.ofClient path.ours address event = some link') :
    Conserved link' (sent ++ [event]) served := by
  cases event with
  | taken source leftover datagram =>
      injection moved with same
      exact same ▸ conserved.sent_other (fun _ => rfl) fun _ => rfl
  | delivered destination datagram =>
      injection moved with same
      exact same ▸ conserved.sent_other (fun _ => rfl) fun _ => rfl
  | opened id connFd =>
      simp only [Link.ofClient, Option.ite_none_right_eq_some, Option.some.injEq] at moved
      rcases moved with ⟨inside, rfl⟩
      have never := (explained sent _ [] rfl).2.1
      have free := (List.nodup_cons.mp own).1
      exact conserved.open linked explained.of_append explained' never inside free
  | sent connFd datagram =>
      simp only [Link.ofClient] at moved
      split at moved
      · rename_i source found
        injection moved with same
        subst same
        exact conserved.send linked own (mem_of_lookup found) datagram
      · cases moved
  | received connFd datagram =>
      simp only [Link.ofClient, clientInTurn] at moved inTurn
      split at moved
      · rename_i source found
        rw [found] at inTurn
        simp only [Option.ite_none_right_eq_some, Option.some.injEq] at moved
        rcases moved with ⟨_, rfl⟩
        exact conserved.receive linked own (mem_of_lookup found) (of_decide_eq_true inTurn)
      · cases moved

theorem Conserved.ofServer (conserved : Conserved link sent served)
    (inTurn : serverInTurn link event = true) (moved : link.ofServer event = some link') :
    Conserved link' sent (served ++ [event]) := by
  cases event with
  | opened id connFd =>
      injection moved with same
      exact same ▸ conserved.served_other (fun _ => rfl) fun _ => rfl
  | sent connFd datagram =>
      injection moved with same
      exact same ▸ conserved.served_other (fun _ => rfl) fun _ => rfl
  | received connFd datagram =>
      injection moved with same
      exact same ▸ conserved.served_other (fun _ => rfl) fun _ => rfl
  | delivered destination datagram =>
      injection moved with same
      exact same ▸ conserved.deliver destination datagram
  | taken source leftover datagram =>
      simp only [Link.ofServer, Option.ite_none_right_eq_some, Option.some.injEq] at moved
      rcases moved with ⟨_, rfl⟩
      exact conserved.take leftover (of_decide_eq_true inTurn)

theorem Conserved.clientNews (linked : Linked path link sent served)
    (conserved : link.OwnAddresses → Conserved link sent served)
    (explained : Explained (Justified filter) (sent ++ later))
    (explained' : Explained (Justified filter') served)
    (moved : later.foldlM (Lossless.ofClient path.ours address) link = some link') :
    link'.OwnAddresses → Conserved link' (sent ++ later) served := by
  have both : Linked path link' (sent ++ later) served ∧
      (link'.OwnAddresses → Conserved link' (sent ++ later) served) := by
    apply foldlM_history (fun link sent => Linked path link sent served ∧
      (link.OwnAddresses → Conserved link sent served)) ⟨linked, conserved⟩ _ moved
    intro past event future link link' split kept first
    obtain ⟨linked, conserved⟩ := kept
    simp only [Lossless.ofClient, Option.ite_none_right_eq_some] at first
    obtain ⟨inTurn, first⟩ := first
    have known : Explained (Justified filter) (past ++ [event]) := by
      rw [split, ← List.singleton_append, ← List.append_assoc] at explained
      exact explained.of_append
    have fresh : ∀ id connFd, event = .opened id connFd →
        ∀ other, .opened other connFd ∉ past := by
      intro id connFd opening
      rw [opening] at split
      exact (explained past _ future split).2.1
    refine ⟨linked.ofClient first fresh, fun own => ?_⟩
    have before := conserved (own_of_ofClient first own)
    exact before.ofClient linked own known explained' inTurn first
  exact both.2

theorem Conserved.serverNews (conserved : link.OwnAddresses → Conserved link sent served)
    (moved : later.foldlM Lossless.ofServer link = some link') :
    link'.OwnAddresses → Conserved link' sent (served ++ later) := by
  apply foldlM_history (fun link served => link.OwnAddresses → Conserved link sent served)
    conserved _ moved
  intro past event future link link' _ kept first own
  simp only [Lossless.ofServer, Option.ite_none_right_eq_some] at first
  exact (kept (own_of_ofServer first.2 own)).ofServer first.1 first.2

end Link

variable {path : Path} {network network' : Network}

/-- An account of a network that loses nothing, as long as every socket has its own address. -/
structure Exact (path : Path) (network : Network) : Prop where
  reached : Reachable (Network.step path) (Network.start path) network
  accounted : Accounted path network
  conserved : network.link.OwnAddresses →
    Conserved network.link network.client.process.trace network.server.process.trace

theorem exact_start (path : Path) : Exact path (Network.start path) :=
  ⟨Reachable.refl, accounted_start path, fun _ => conserved_start⟩

/-- A step of this network is one of the network that may also fail. -/
theorem Exact.step {action : Network.Action} (kept : Exact path network)
    (taken : Lossless.step path network action = some network') : Exact path network' := by
  have accounted := kept.accounted
  have opening := (account accounted.client).1
  have serving := (account accounted.server).1
  cases action with
  | client address action =>
      simp only [Lossless.step, Option.bind_eq_bind, Option.bind_eq_some_iff] at taken
      rcases taken with ⟨client, stepped, link, moved, same⟩
      injection same with same
      have grown := trace_grows accounted.client stepped
      have explained := (account (accounted.client.next action stepped)).1
      rw [grown] at explained
      have plain := foldlM_guarded moved
      have conserved := Conserved.clientNews accounted.linked kept.conserved explained serving moved
      have network : Network.step path network (.client address action) = some network' := by
        simp only [Network.step, stepped, Option.bind_eq_bind, Option.bind_some, plain]
        exact congrArg some same
      refine ⟨kept.reached.next _ network, accounted.step network, ?_⟩
      rw [← same, grown]
      exact conserved
  | server action =>
      simp only [Lossless.step, Option.bind_eq_bind, Option.bind_eq_some_iff] at taken
      rcases taken with ⟨server, stepped, link, moved, same⟩
      injection same with same
      have grown := trace_grows accounted.server stepped
      have plain := foldlM_guarded moved
      have conserved := Conserved.serverNews kept.conserved moved
      have network : Network.step path network (.server action) = some network' := by
        simp only [Network.step, stepped, Option.bind_eq_bind, Option.bind_some, plain]
        exact congrArg some same
      refine ⟨kept.reached.next _ network, accounted.step network, ?_⟩
      rw [← same, grown]
      exact conserved
  | foreign source datagram =>
      have network : Network.step path network (.foreign source datagram) = some network' := taken
      refine ⟨kept.reached.next _ network, accounted.step network, ?_⟩
      simp only [Network.step] at network
      split at network
      · cases network
      · rename_i outside
        injection network with same
        subst same
        intro own
        refine ⟨fun socket member => ?_, (kept.conserved own).answers⟩
        have other : source ≠ socket.2 := by
          rintro rfl
          exact outside (accounted.linked.ours socket member)
        rw [heldFor_append, heldFor_single, if_neg other, List.append_nil]
        exact (kept.conserved own).requests socket member
  | loseToServer | loseToClient | repeatToServer | repeatToClient => cases taken

theorem exact_reachable (reached : Reachable (step path) (Network.start path) network) :
    Exact path network := by
  apply reached.invariant (exact_start path)
  intro before action after _ kept taken
  exact kept.step taken

/-- The address in the id of a client. -/
def addressOf (id : Bytes) : Option Bytes :=
  match parseClientId id with
  | .ok clientAddr => some clientAddr.destination
  | .error _ => none

/-- A connection was opened for a client with this address. -/
def connectedFor (trace : List Event) (address : Bytes) (connFd : Fd) : Bool :=
  trace.any fun
    | .opened id fd => decide (fd = connFd ∧ addressOf id = some address)
    | _ => false

/-- What was received on them. -/
def answersFor (trace : List Event) (address : Bytes) : List Bytes :=
  ((allReceived trace).filter fun input => connectedFor trace address input.1).map Prod.snd

section Stages

variable {filter : BaseFilter} {trace : List Event} {messages : List Message} {id : Bytes}
  {connFd : Fd}

theorem addressOf_clientId (source : SourceAddr) (leftover : Leftover) :
    addressOf (clientId source leftover) = some source.bytes := by
  rw [addressOf, clientId, parseClientId_makeClientId]
  exact congrArg some (destination_recvfromAddr source leftover)

theorem connectedFor_iff {address : Bytes} : connectedFor trace address connFd = true ↔
    ∃ id, .opened id connFd ∈ trace ∧ addressOf id = some address := by
  rw [connectedFor, List.any_eq_true]
  constructor
  · rintro ⟨event, member, selected⟩
    cases event with
    | opened id fd =>
        rcases of_decide_eq_true selected with ⟨rfl, address⟩
        exact ⟨id, member, address⟩
    | taken | sent | received | delivered => cases selected
  · rintro ⟨id, member, address⟩
    exact ⟨_, member, decide_eq_true ⟨rfl, address⟩⟩

theorem selected_eq {Part Value : Type} {part : Event → Option Part} {chosen : Part → Bool}
    {value : Part → Value} {select : Event → Option Value} (trace : List Event)
    (same : ∀ event, ((part event).filter chosen).map value = select event) :
    ((trace.filterMap part).filter chosen).map value = trace.filterMap select := by
  rw [List.filter_filterMap, List.map_filterMap]
  exact List.filterMap_congr fun event _ => same event

theorem receivedOn_eq (trace : List Event) (connFd : Fd) :
    ((allReceived trace).filter fun input => input.1 = connFd).map Prod.snd =
      trace.filterMap (receivedOn connFd) := by
  apply selected_eq
  intro event
  cases event with
  | received fd datagram =>
      by_cases same : fd = connFd
      · simp [receivedPart, receivedOn, same]
      · simp [receivedPart, receivedOn, same]
  | taken | opened | sent | delivered => rfl

theorem deliveredTo_eq (trace : List Event) (address : Bytes) :
    ((allDelivered trace).filter fun output => output.1 = address).map Prod.snd =
      trace.filterMap (deliveredTo address) := by
  apply selected_eq
  intro event
  cases event with
  | delivered destination datagram =>
      by_cases same : destination = address
      · simp [deliveredPart, deliveredTo, same]
      · simp [deliveredPart, deliveredTo, same]
  | taken | opened | sent | received => rfl

theorem delivered_prefix (carried : Backward filter trace messages)
    {chosen : Fd × Bytes → Bool} {between : Message → Bool} {goes : Bytes × Bytes → Bool}
    (enters : ∀ {input message}, Answers filter trace input message →
      (chosen input ↔ between message))
    (exits : ∀ {message output}, ReturnedTo message output → (between message ↔ goes output)) :
    ∃ pending, pending.length = (messages.filter between).length ∧
      ((allDelivered trace).filter goes).map Prod.snd ++ pending =
        (((allReceived trace).filter chosen).map Prod.snd).map fun datagram =>
          (filter.convertBackward (datagram.take dgramBufferSize)).getD [] := by
  have selected := carried.select enters exits
  rw [List.map_map]
  apply selected.prefix
  · intro _ _ _ _
    rfl
  · rintro input message output _ ⟨_, converted⟩ ⟨_, _, rfl⟩
    rw [Function.comp_apply, converted]
    rfl

theorem addressOf_returned {message : Message} {output : Bytes × Bytes}
    (returned : ReturnedTo message output) : addressOf message.senderId = some output.1 := by
  rcases returned with ⟨clientAddr, parsed, rfl⟩
  rw [addressOf, parsed]

theorem address_prefix (carried : Backward filter trace messages)
    (explained : Explained (Justified filter) trace) (address : Bytes) :
    ∃ pending, pending.length =
        (messages.filter fun message => addressOf message.senderId = some address).length ∧
      trace.filterMap (deliveredTo address) ++ pending = (answersFor trace address).map
        fun datagram => (filter.convertBackward (datagram.take dgramBufferSize)).getD [] := by
  rw [← deliveredTo_eq]
  apply delivered_prefix carried
  · rintro input message ⟨known, _⟩
    rw [connectedFor_iff, decide_eq_true_eq]
    constructor
    · rintro ⟨other, also, same⟩
      rw [opened_once_fd explained known also]
      exact same
    · intro same
      exact ⟨message.senderId, known, same⟩
  · intro message output returned
    simp only [addressOf_returned returned, Option.some.injEq]

theorem user_prefix (carried : Backward filter trace messages)
    (explained : Explained (Justified filter) trace) (opened : .opened id connFd ∈ trace)
    {address : Bytes} (user : addressOf id = some address)
    (only : ∀ other fd, .opened other fd ∈ trace → addressOf other = some address → other = id) :
    ∃ pending, pending.length =
        (messages.filter fun message => addressOf message.senderId = some address).length ∧
      trace.filterMap (deliveredTo address) ++ pending =
        (trace.filterMap (receivedOn connFd)).map fun datagram =>
          (filter.convertBackward (datagram.take dgramBufferSize)).getD [] := by
  rw [← deliveredTo_eq, ← receivedOn_eq]
  apply delivered_prefix carried
  · rintro input message ⟨known, _⟩
    rw [decide_eq_true_eq, decide_eq_true_eq]
    constructor
    · intro same
      rw [same] at known
      rw [opened_once_fd explained known opened]
      exact user
    · intro same
      rw [only _ _ known same] at known
      exact opened_once_id explained known opened
  · intro message output returned
    simp only [addressOf_returned returned, Option.some.injEq]

end Stages

section ExactlyOnce

variable {hash : Bytes → UInt64} {psks : List Bytes} {client server : BaseFilter}

theorem fits_returns (accepted : ptrFilter hash (aesConfigs psks) = .ok client)
    (mirror : ptrFilter hash (mirrored (aesConfigs psks)) = .ok server) {datagram : Bytes}
    (fits : Fits psks datagram) : ∃ wire,
      server.convertBackward (datagram.take dgramBufferSize) = some wire ∧
      client.convertBackward (wire.take dgramBufferSize) = some datagram := by
  rcases layers_of_ptrFilter accepted mirror with ⟨keys, count, rfl, rfl⟩
  rcases fits_layers count fits with ⟨wire, forward, whole⟩
  refine ⟨wire, ?_, ?_⟩
  · rw [whole_take fits.1]
    exact forward
  · rw [whole_take whole]
    exact layers_undone keys forward

/-- The answers to a user with a single connection: what it was given, followed by what is on its
way back, is what the application said on the connections of its socket, in the order the second
forwarder received it and each once. -/
theorem answers_exactly_once
    (accepted : ptrFilter hash (aesConfigs psks) = .ok path.client.filter)
    (mirror : ptrFilter hash (mirrored (aesConfigs psks)) = .ok path.server.filter)
    (reached : Reachable (Lossless.step path) (Network.start path) network)
    (own : network.link.OwnAddresses) (running : network.client.fault = none)
    (running' : network.server.fault = none)
    {id user : Bytes} {socket : Fd} {source : SourceAddr}
    (opened : .opened id socket ∈ network.client.process.trace)
    (bound : (socket, source) ∈ network.link.bound) (address : addressOf id = some user)
    (only : ∀ other fd, .opened other fd ∈ network.client.process.trace →
      addressOf other = some user → other = id)
    (fits : ∀ datagram ∈ answersFor network.server.process.trace source.bytes,
      Fits psks datagram) :
    ∃ messages messages' pending, InTransitBack network.client messages ∧
      InTransitBack network.server messages' ∧
      network.client.process.trace.filterMap (deliveredTo user) ++ pending =
        answersFor network.server.process.trace source.bytes ∧
      pending.length =
        (messages.filter fun message => addressOf message.senderId = some user).length +
        (heldFor network.link.toClient source.bytes).length +
        (messages'.filter fun message =>
          addressOf message.senderId = some source.bytes).length := by
  have kept := exact_reachable reached
  have accounted := kept.accounted
  rcases (sequenced accounted.client running).2 with ⟨messages, pending, backward⟩
  rcases (sequenced accounted.server running').2 with ⟨messages', pending', backward'⟩
  have opening := (account accounted.client).1
  have serving := (account accounted.server).1
  rcases address_prefix backward' serving source.bytes with ⟨first, firstCount, said⟩
  -- what was said to the address and its socket has not received is in the network
  have carried := (kept.conserved own).answers _ bound
  simp only at carried
  rw [carried, List.append_assoc] at said
  rcases user_prefix backward opening opened address only with ⟨last, lastCount, given⟩
  have undone : ∀ datagram ∈ answersFor network.server.process.trace source.bytes,
      (path.client.filter.convertBackward (((path.server.filter.convertBackward
        (datagram.take dgramBufferSize)).getD []).take dgramBufferSize)).getD [] = datagram := by
    intro datagram member
    rcases fits_returns accepted mirror (fits datagram member) with ⟨wire, there, back⟩
    rw [there, Option.getD_some, back, Option.getD_some]
  refine ⟨messages, messages', _, pending, pending',
    restored_in_series (fun wire =>
      (path.client.filter.convertBackward (wire.take dgramBufferSize)).getD []) said given undone,
    ?_⟩
  rw [List.length_append, List.length_map, List.length_append, firstCount, lastCount]
  omega

end ExactlyOnce

/-- A request of one byte and its answer. -/
def exchange : List Network.Action :=
  (takesFrom loopback [1] 16 ++ handlesWith (succeeding 8 []) 16).map (.client socketAddr) ++
    (takesFrom socketAddr wires.1 1 ++ handlesWith (succeeding 8 []) 1 ++ answersWith [2] 16 ++
      deliversWith 16).map .server ++
    (answersWith wires.2 1 ++ deliversWith 1).map (.client socketAddr)

private theorem exchange_run :
    (run (Lossless.step testPath) (Network.start testPath) exchange).map (fun network =>
      ((network.client.fault, network.server.fault), network.client.process.trace,
        network.server.process.trace, network.link)) =
    some ((none, none),
      [.taken loopback (filled 0) [1], .opened (clientId loopback (filled 0)) 8,
        .sent 8 wires.1, .received 8 wires.2, .delivered loopback.bytes [2]],
      [.taken socketAddr (filled 0) wires.1, .opened (clientId socketAddr (filled 0)) 8,
        .sent 8 [1], .received 8 [2], .delivered socketAddr.bytes wires.2],
      ⟨[(8, socketAddr)], [], []⟩) := by
  decide +kernel

theorem answers_exactly_once_one : ∃ network pending,
    Reachable (Lossless.step testPath) (Network.start testPath) network ∧
      answersFor network.server.process.trace socketAddr.bytes = [[2]] ∧
      network.client.process.trace.filterMap (deliveredTo loopback.bytes) = [[2]] ∧
      network.client.process.trace.filterMap (deliveredTo loopback.bytes) ++ pending = [[2]] := by
  rcases reachable_of_observed _ _ exchange_run with ⟨network, reached, seen⟩
  rcases Prod.mk.inj seen with ⟨faults, rest⟩
  rcases Prod.mk.inj faults with ⟨running, running'⟩
  rcases Prod.mk.inj rest with ⟨trace, rest⟩
  rcases Prod.mk.inj rest with ⟨served, link⟩
  rcases ptrFilter_mirrored test_accepted with ⟨accepted, mirror⟩
  have said : answersFor network.server.process.trace socketAddr.bytes = [[2]] := by
    rw [served]
    decide +kernel
  have fits : ∀ datagram ∈ answersFor network.server.process.trace socketAddr.bytes,
      Fits [testPsk] datagram := by
    rw [said]
    decide
  have opened : .opened (clientId loopback (filled 0)) 8 ∈ network.client.process.trace := by
    rw [trace]
    simp
  have bound : (8, socketAddr) ∈ network.link.bound := by
    rw [link]
    simp
  have own : network.link.OwnAddresses := by
    rw [link]
    exact List.nodup_singleton _
  have only : ∀ other fd, .opened other fd ∈ network.client.process.trace →
      addressOf other = some loopback.bytes → other = clientId loopback (filled 0) := by
    intro other fd present _
    rw [trace] at present
    simp only [List.mem_cons, List.not_mem_nil, or_false, reduceCtorEq, false_or,
      Event.opened.injEq] at present
    exact present.1
  rcases answers_exactly_once accepted mirror reached own running running' opened bound
    (addressOf_clientId loopback (filled 0)) only fits with ⟨_, _, pending, _, _, exact, _⟩
  refine ⟨network, pending, reached, said, ?_, exact.trans said⟩
  rw [trace]
  decide +kernel

end UdpForwarder.Lossless
