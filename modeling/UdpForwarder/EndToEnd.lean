import UdpForwarder.Network
import UdpForwarder.Tunnel

/-! From the clients to the UDP application and back, through two forwarders: whose datagrams come
out where, whatever the network does to those it carries. -/

namespace UdpForwarder.EndToEnd

open ClientId ConnectionTable Delivery Filters Forwarder Forwarding History Ipc Isolation Network
  Plain Refinement Relay Transition Tunnel

section News

variable {setup : Setup} {relay relay' : Relay} {state state' : State} {action : State.Action}

theorem grows_emit {process process' : Process} {message : Message}
    (emitted : Emitted process message process') : process.trace <+: process'.trace := by
  cases emitted with
  | known entry =>
      rw [Process.emit_trace]
      exact List.prefix_append _ _
  | new absent fresh =>
      rw [Process.emit_trace, Process.connect_trace, List.append_assoc]
      exact List.prefix_append _ _

theorem grows_move (move : Move setup relay relay') :
    relay.process.trace <+: relay'.process.trace := by
  cases move with
  | take taken =>
      cases taken
      exact List.prefix_append _ _
  | deliver queue delivered =>
      cases delivered
      exact List.prefix_append _ _
  | receive received =>
      cases received
      exact List.prefix_append _ _
  | emit queue emitted => exact grows_emit emitted
  | notTaken threw =>
      cases threw with
      | failed => exact List.prefix_refl _
      | unconverted => exact List.prefix_append _ _
  | notDelivered queue threw => cases threw <;> exact List.prefix_refl _
  | notReceived threw =>
      cases threw with
      | failed => exact List.prefix_refl _
      | kept | retired => exact List.prefix_append _ _
  | notEmitted queue threw =>
      cases threw with
      | untouched => exact List.prefix_refl _
      | halfOpened | connected => exact List.prefix_append _ _
  | broken => exact List.prefix_refl _

theorem trace_grows (reached : Reachable (State.step setup) (State.start setup) state)
    (taken : State.step setup state action = some state') :
    state'.process.trace = state.process.trace ++ news state state' := by
  have growth : state.process.trace <+: state'.process.trace := by
    rcases refines_reachable reached with ⟨relay, abstract, refines⟩
    rcases refines.step abstract taken with ⟨relay', same | ⟨choice, moved⟩, refines'⟩
    · rw [refines'.process, same, ← refines.process]
    · rcases step_move (Relay.tied_reachable abstract) moved with ⟨_, move⟩
      rw [refines'.process, refines.process]
      exact grows_move move
  rw [news]
  exact List.prefix_append_drop growth

end News

/-- A socket of the first forwarder with this address sent the datagram. -/
def SentFrom (bound : List (Fd × SourceAddr)) (sent : List Event) (source : SourceAddr)
    (datagram : Bytes) : Prop :=
  ∃ connFd, (connFd, source) ∈ bound ∧ .sent connFd datagram ∈ sent

/-- The second forwarder sent the datagram to the address of this socket. -/
def ServedTo (bound : List (Fd × SourceAddr)) (served : List Event) (connFd : Fd)
    (datagram : Bytes) : Prop :=
  ∃ source, (connFd, source) ∈ bound ∧ .delivered source.bytes datagram ∈ served

/-- What the network carries, and what it has brought, comes from the forwarders; the sockets it
knows are the connections of the first one. -/
structure Linked (path : Path) (link : Link) (sent served : List Event) : Prop where
  sockets : (link.bound.map Prod.fst).Nodup
  ours : ∀ socket ∈ link.bound, path.ours socket.2 = true
  opened : ∀ connFd, connFd ∈ link.bound.map Prod.fst ↔ ∃ id, .opened id connFd ∈ sent
  toServer : ∀ packet ∈ link.toServer, path.ours packet.1 = true →
    SentFrom link.bound sent packet.1 packet.2
  toClient : ∀ packet ∈ link.toClient, .delivered packet.1 packet.2 ∈ served
  taken : ∀ source leftover datagram, .taken source leftover datagram ∈ served →
    path.ours source = true → SentFrom link.bound sent source datagram
  received : ∀ connFd datagram, .received connFd datagram ∈ sent →
    ServedTo link.bound served connFd datagram

section Link

variable {path : Path} {link link' : Link} {sent served later : List Event} {event : Event}
  {address : SourceAddr} {bound bound' : List (Fd × SourceAddr)}

theorem SentFrom.mono {source : SourceAddr} {datagram : Bytes}
    (origin : SentFrom bound sent source datagram) (kept : bound ⊆ bound') (later : List Event) :
    SentFrom bound' (sent ++ later) source datagram := by
  rcases origin with ⟨connFd, socket, member⟩
  exact ⟨connFd, kept socket, List.mem_append_left _ member⟩

theorem ServedTo.mono {connFd : Fd} {datagram : Bytes}
    (origin : ServedTo bound served connFd datagram) (kept : bound ⊆ bound')
    (later : List Event) : ServedTo bound' (served ++ later) connFd datagram := by
  rcases origin with ⟨source, socket, member⟩
  exact ⟨source, kept socket, List.mem_append_left _ member⟩

theorem mem_of_lookup {connFd : Fd} {source : SourceAddr}
    (found : bound.lookup connFd = some source) : (connFd, source) ∈ bound := by
  rcases List.lookup_eq_some_iff.mp found with ⟨front, back, rfl, _⟩
  exact List.mem_append_right _ List.mem_cons_self

theorem linked_start (path : Path) : Linked path ⟨[], [], []⟩ [] [] := by
  constructor <;> simp

theorem Linked.sent_other (linked : Linked path link sent served)
    (unopened : ∀ id connFd, event ≠ .opened id connFd)
    (unreceived : ∀ connFd datagram, event ≠ .received connFd datagram) :
    Linked path link (sent ++ [event]) served := by
  refine ⟨linked.sockets, linked.ours, ?_, ?_, linked.toClient, ?_, ?_⟩
  · intro connFd
    rw [linked.opened connFd]
    simp [(unopened _ connFd).symm]
  · intro packet member inside
    exact (linked.toServer packet member inside).mono (List.Subset.refl _) _
  · intro source leftover datagram member inside
    exact (linked.taken source leftover datagram member inside).mono (List.Subset.refl _) _
  · intro connFd datagram member
    have earlier : .received connFd datagram ∈ sent := by
      simpa [(unreceived connFd datagram).symm] using member
    exact linked.received connFd datagram earlier

theorem Linked.served_other (linked : Linked path link sent served)
    (untaken : ∀ source leftover datagram, event ≠ .taken source leftover datagram) :
    Linked path link sent (served ++ [event]) := by
  refine ⟨linked.sockets, linked.ours, linked.opened, linked.toServer, ?_, ?_, ?_⟩
  · intro packet member
    exact List.mem_append_left _ (linked.toClient packet member)
  · intro source leftover datagram member inside
    have earlier : .taken source leftover datagram ∈ served := by
      simpa [(untaken source leftover datagram).symm] using member
    exact linked.taken source leftover datagram earlier inside
  · intro connFd datagram member
    exact (linked.received connFd datagram member).mono (List.Subset.refl _) _

theorem Linked.open (linked : Linked path link sent served) {id : Bytes} {connFd : Fd}
    (never : ∀ other, .opened other connFd ∉ sent) (inside : path.ours address = true) :
    Linked path { link with bound := (connFd, address) :: link.bound }
      (sent ++ [.opened id connFd]) served := by
  have kept : link.bound ⊆ (connFd, address) :: link.bound := List.subset_cons_self _ _
  refine ⟨?_, ?_, ?_, ?_, linked.toClient, ?_, ?_⟩
  · rw [List.map_cons, List.nodup_cons]
    refine ⟨fun present => ?_, linked.sockets⟩
    rcases (linked.opened connFd).mp present with ⟨other, before⟩
    exact never other before
  · intro socket member
    rcases List.mem_cons.mp member with rfl | earlier
    · exact inside
    · exact linked.ours socket earlier
  · intro other
    rw [List.map_cons, List.mem_cons, linked.opened other]
    by_cases same : other = connFd
    · simp [same]
    · simp [same]
  · intro packet member ours
    exact (linked.toServer packet member ours).mono kept _
  · intro source leftover datagram member ours
    exact (linked.taken source leftover datagram member ours).mono kept _
  · intro other datagram member
    have earlier : .received other datagram ∈ sent := by simpa using member
    have origin := (linked.received other datagram earlier).mono kept []
    rwa [List.append_nil] at origin

theorem Linked.ofClient (linked : Linked path link sent served)
    (moved : link.ofClient path.ours address event = some link')
    (fresh : ∀ id connFd, event = .opened id connFd → ∀ other, .opened other connFd ∉ sent) :
    Linked path link' (sent ++ [event]) served := by
  cases event with
  | taken source leftover datagram =>
      injection moved with same
      exact same ▸ linked.sent_other (by simp) (by simp)
  | delivered destination datagram =>
      injection moved with same
      exact same ▸ linked.sent_other (by simp) (by simp)
  | opened id connFd =>
      simp only [Link.ofClient, Option.ite_none_right_eq_some, Option.some.injEq] at moved
      rcases moved with ⟨inside, rfl⟩
      exact linked.open (fresh id connFd rfl) inside
  | sent connFd datagram =>
      simp only [Link.ofClient] at moved
      split at moved
      · rename_i source found
        injection moved with same
        subst same
        have before : Linked path link (sent ++ [.sent connFd datagram]) served :=
          linked.sent_other (by simp) (by simp)
        refine ⟨before.sockets, before.ours, before.opened, ?_,
          before.toClient, before.taken, before.received⟩
        intro packet member inside
        rcases List.mem_append.mp member with earlier | last
        · exact before.toServer packet earlier inside
        · rw [List.mem_singleton.mp last]
          exact ⟨connFd, mem_of_lookup found,
            List.mem_append_right _ (List.mem_singleton_self _)⟩
      · cases moved
  | received connFd datagram =>
      simp only [Link.ofClient] at moved
      split at moved
      · rename_i source found
        simp only [Option.ite_none_right_eq_some, Option.some.injEq] at moved
        rcases moved with ⟨present, rfl⟩
        have delivered := linked.toClient _ present
        refine ⟨linked.sockets, linked.ours, ?_, ?_, ?_, ?_, ?_⟩
        · intro other
          rw [linked.opened other]
          simp
        · intro packet member inside
          exact (linked.toServer packet member inside).mono (List.Subset.refl _) _
        · intro packet member
          exact linked.toClient packet (List.mem_of_mem_erase member)
        · intro origin leftover content member inside
          exact (linked.taken origin leftover content member inside).mono (List.Subset.refl _) _
        · intro other content member
          rcases List.mem_append.mp member with earlier | last
          · exact linked.received other content earlier
          · rcases Event.received.inj (List.mem_singleton.mp last) with ⟨rfl, rfl⟩
            exact ⟨source, mem_of_lookup found, delivered⟩
      · cases moved

theorem Linked.ofServer (linked : Linked path link sent served)
    (moved : link.ofServer event = some link') : Linked path link' sent (served ++ [event]) := by
  cases event with
  | opened id connFd =>
      injection moved with same
      exact same ▸ linked.served_other (by simp)
  | sent connFd datagram =>
      injection moved with same
      exact same ▸ linked.served_other (by simp)
  | received connFd datagram =>
      injection moved with same
      exact same ▸ linked.served_other (by simp)
  | delivered destination datagram =>
      injection moved with same
      subst same
      have before : Linked path link sent (served ++ [.delivered destination datagram]) :=
        linked.served_other (by simp)
      refine ⟨before.sockets, before.ours, before.opened, before.toServer, ?_,
        before.taken, before.received⟩
      intro packet member
      rcases List.mem_append.mp member with earlier | last
      · exact before.toClient packet earlier
      · rw [List.mem_singleton.mp last]
        exact List.mem_append_right _ (List.mem_singleton_self _)
  | taken source leftover datagram =>
      simp only [Link.ofServer, Option.ite_none_right_eq_some, Option.some.injEq] at moved
      rcases moved with ⟨present, rfl⟩
      refine ⟨linked.sockets, linked.ours, linked.opened, ?_, ?_, ?_, ?_⟩
      · intro packet member
        exact linked.toServer packet (List.mem_of_mem_erase member)
      · intro packet member
        exact List.mem_append_left _ (linked.toClient packet member)
      · intro origin rest content member inside
        rcases List.mem_append.mp member with earlier | last
        · exact linked.taken origin rest content earlier inside
        · rcases Event.taken.inj (List.mem_singleton.mp last) with ⟨rfl, _, rfl⟩
          exact linked.toServer _ present inside
      · intro connFd content member
        exact (linked.received connFd content member).mono (List.Subset.refl _) _

theorem Linked.carry (linked : Linked path link sent served)
    {toServer : List (SourceAddr × Bytes)} {toClient : List (Bytes × Bytes)}
    (forward : ∀ packet ∈ toServer, packet ∈ link.toServer ∨ path.ours packet.1 = false)
    (backward : toClient ⊆ link.toClient) :
    Linked path { link with toServer, toClient } sent served := by
  refine ⟨linked.sockets, linked.ours, linked.opened, ?_, ?_, linked.taken,
    linked.received⟩
  · intro packet member inside
    rcases forward packet member with known | foreign
    · exact linked.toServer packet known inside
    · rw [foreign] at inside
      cases inside
  · intro packet member
    exact linked.toClient packet (backward member)

theorem Linked.clientNews {filter : BaseFilter} (linked : Linked path link sent served)
    (moved : later.foldlM (Link.ofClient path.ours address) link = some link')
    (explained : Explained (Justified filter) (sent ++ later)) :
    Linked path link' (sent ++ later) served := by
  apply foldlM_history (fun link sent => Linked path link sent served) linked _ moved
  intro past event future link link' split kept first
  have fresh : ∀ id connFd, event = .opened id connFd → ∀ other, .opened other connFd ∉ past := by
    intro id connFd opening
    rw [opening] at split
    exact (explained past _ future split).2.1
  exact kept.ofClient first fresh

theorem Linked.serverNews (linked : Linked path link sent served)
    (moved : later.foldlM Link.ofServer link = some link') :
    Linked path link' sent (served ++ later) := by
  apply foldlM_history (fun link served => Linked path link sent served) linked _ moved
  intro past event future link link' _ kept first
  exact kept.ofServer first

end Link

/-- Both forwarders run as they do alone, and the network accounts for what they exchange. -/
structure Accounted (path : Path) (network : Network) : Prop where
  client : Reachable (State.step path.client) (State.start path.client) network.client
  server : Reachable (State.step path.server) (State.start path.server) network.server
  linked : Linked path network.link network.client.process.trace network.server.process.trace

variable {path : Path} {network network' : Network}

theorem accounted_start (path : Path) : Accounted path (Network.start path) :=
  ⟨Reachable.refl, Reachable.refl, linked_start path⟩

theorem step_client {address : SourceAddr} {action : State.Action}
    (taken : Network.step path network (.client address action) = some network') :
    ∃ client link, State.step path.client network.client action = some client ∧
      (news network.client client).foldlM (Link.ofClient path.ours address) network.link =
        some link ∧ network' = ⟨client, network.server, link⟩ := by
  simp only [Network.step, Option.bind_eq_bind, Option.bind_eq_some_iff] at taken
  rcases taken with ⟨client, stepped, link, moved, same⟩
  injection same with same
  exact ⟨client, link, stepped, moved, same.symm⟩

theorem step_server {action : State.Action}
    (taken : Network.step path network (.server action) = some network') :
    ∃ server link, State.step path.server network.server action = some server ∧
      (news network.server server).foldlM Link.ofServer network.link = some link ∧
      network' = ⟨network.client, server, link⟩ := by
  simp only [Network.step, Option.bind_eq_bind, Option.bind_eq_some_iff] at taken
  rcases taken with ⟨server, stepped, link, moved, same⟩
  injection same with same
  exact ⟨server, link, stepped, moved, same.symm⟩

theorem Accounted.carry (accounted : Accounted path network)
    {toServer : List (SourceAddr × Bytes)} {toClient : List (Bytes × Bytes)}
    (forward : ∀ packet ∈ toServer, packet ∈ network.link.toServer ∨ path.ours packet.1 = false)
    (backward : toClient ⊆ network.link.toClient) :
    Accounted path ⟨network.client, network.server, ⟨network.link.bound, toServer, toClient⟩⟩ :=
  ⟨accounted.client, accounted.server, accounted.linked.carry forward backward⟩

theorem Accounted.step {action : Network.Action} (accounted : Accounted path network)
    (taken : Network.step path network action = some network') : Accounted path network' := by
  cases action with
  | client address action =>
      rcases step_client taken with ⟨client, link, stepped, moved, rfl⟩
      have grown := trace_grows accounted.client stepped
      have reached := accounted.client.next action stepped
      refine ⟨reached, accounted.server, ?_⟩
      have explained := (account reached).1
      rw [grown] at explained ⊢
      exact accounted.linked.clientNews moved explained
  | server action =>
      rcases step_server taken with ⟨server, link, stepped, moved, rfl⟩
      have grown := trace_grows accounted.server stepped
      refine ⟨accounted.client, accounted.server.next action stepped, ?_⟩
      rw [grown]
      exact accounted.linked.serverNews moved
  | foreign source datagram =>
      simp only [Network.step] at taken
      split at taken
      · cases taken
      · rename_i outside
        injection taken with same
        subst same
        apply accounted.carry _ (List.Subset.refl _)
        intro packet member
        rcases List.mem_append.mp member with earlier | last
        · exact Or.inl earlier
        · rw [List.mem_singleton.mp last]
          exact Or.inr (by simpa using outside)
  | loseToServer index =>
      injection taken with same
      subst same
      apply accounted.carry _ (List.Subset.refl _)
      intro packet member
      exact Or.inl (List.mem_of_mem_eraseIdx member)
  | loseToClient index =>
      injection taken with same
      subst same
      apply accounted.carry (fun packet member => Or.inl member)
      intro packet member
      exact List.mem_of_mem_eraseIdx member
  | repeatToServer index =>
      simp only [Network.step, Option.bind_eq_bind, Option.bind_eq_some_iff] at taken
      rcases taken with ⟨packet, present, same⟩
      injection same with same
      subst same
      apply accounted.carry _ (List.Subset.refl _)
      intro other member
      rcases List.mem_append.mp member with earlier | last
      · exact Or.inl earlier
      · rw [List.mem_singleton.mp last]
        exact Or.inl (List.mem_of_getElem? present)
  | repeatToClient index =>
      simp only [Network.step, Option.bind_eq_bind, Option.bind_eq_some_iff] at taken
      rcases taken with ⟨packet, present, same⟩
      injection same with same
      subst same
      apply accounted.carry (fun packet member => Or.inl member)
      intro other member
      rcases List.mem_append.mp member with earlier | last
      · exact earlier
      · rw [List.mem_singleton.mp last]
        exact List.mem_of_getElem? present

theorem accounted_reachable
    (reached : Reachable (Network.step path) (Network.start path) network) :
    Accounted path network := by
  apply reached.invariant (accounted_start path)
  intro before action after _ accounted taken
  exact accounted.step taken

/-- The connection the second forwarder has for a socket that the first one has for a user. -/
def Session (network : Network) (connFd : Fd) (user : Bytes) : Prop :=
  ∃ socket source, (socket, source) ∈ network.link.bound ∧
    OpenedFor network.client.process.trace socket user ∧
    OpenedFor network.server.process.trace connFd source.bytes

/-- The session of this user, and of nobody else. -/
def OwnSession (network : Network) (connFd : Fd) (user : Bytes) : Prop :=
  Session network connFd user ∧ ∀ other, Session network connFd other → other = user

theorem eq_of_bound {bound : List (Fd × SourceAddr)} (nodup : (bound.map Prod.snd).Nodup)
    {first second : Fd × SourceAddr} (one : first ∈ bound) (two : second ∈ bound)
    (same : first.2 = second.2) : first = second :=
  List.inj_on_of_nodup_map nodup one two same

theorem eq_of_bytes {first second : SourceAddr} (same : first.bytes = second.bytes) :
    first = second := by
  cases first
  cases second
  simp_all

/-- A connection to the application belongs to one user, if no two sockets share an address. -/
theorem Accounted.session_unique (accounted : Accounted path network)
    (own : network.link.OwnAddresses) {connFd : Fd} {first second : Bytes}
    (one : Session network connFd first) (two : Session network connFd second) :
    first = second := by
  rcases one with ⟨socket, source, bound, forUser, forSource⟩
  rcases two with ⟨socket', source', bound', forUser', forSource'⟩
  have bytes := openedFor_unique (account accounted.server).1 forSource forSource'
  have equal := eq_of_bound own bound bound' (eq_of_bytes bytes)
  rw [(Prod.mk.inj equal).1] at forUser
  exact openedFor_unique (account accounted.client).1 forUser forUser'

theorem Accounted.own_session (accounted : Accounted path network)
    (own : network.link.OwnAddresses) {connFd : Fd} {user : Bytes}
    (session : Session network connFd user) : OwnSession network connFd user :=
  ⟨session, fun _ other => accounted.session_unique own other session⟩

/-- What the application gets on a connection comes from another host, or from the one user of
the connection. -/
theorem Accounted.request (accounted : Accounted path network) {connFd : Fd} {request : Bytes}
    (sent : .sent connFd request ∈ network.server.process.trace) :
    (∃ source, OpenedFor network.server.process.trace connFd source.bytes ∧
        path.ours source = false) ∨
      ∃ source leftover datagram wire, Session network connFd source.bytes ∧
        .taken source leftover datagram ∈ network.client.process.trace ∧
        conversion path.client.filter datagram = some wire ∧
        conversion path.server.filter wire = some request := by
  have served := (account accounted.server).1
  have opening := (account accounted.client).1
  rcases List.append_of_mem sent with ⟨before, after, split⟩
  rcases served before _ after split with
    ⟨_, id, opened, source, leftover, wire, taken, same, converted⟩
  simp only at same
  subst same
  have known : .opened (clientId source leftover) connFd ∈ network.server.process.trace := by
    rw [split]
    exact List.mem_append_left _ opened
  have got : .taken source leftover wire ∈ network.server.process.trace := by
    rw [split]
    exact List.mem_append_left _ taken
  have forSource := openedFor_of_opened served known
  cases inside : path.ours source with
  | false => exact Or.inl ⟨source, forSource, inside⟩
  | true =>
      rcases accounted.linked.taken source leftover wire got inside with ⟨socket, bound, wired⟩
      rcases List.append_of_mem wired with ⟨before', after', split'⟩
      rcases opening before' _ after' split' with
        ⟨_, id', opened', user, leftover', datagram, taken', same', converted'⟩
      simp only at same'
      subst same'
      have known' : .opened (clientId user leftover') socket ∈ network.client.process.trace := by
        rw [split']
        exact List.mem_append_left _ opened'
      refine Or.inr ⟨user, leftover', datagram, wire, ⟨socket, source, bound,
        openedFor_of_opened opening known', forSource⟩, ?_, converted', converted⟩
      rw [split']
      exact List.mem_append_left _ taken'

/-- What a user gets is what the application said on a connection of that user. -/
theorem Accounted.reply (accounted : Accounted path network) {user answer : Bytes}
    (delivered : .delivered user answer ∈ network.client.process.trace) :
    ∃ connFd datagram wire, Session network connFd user ∧
      .received connFd datagram ∈ network.server.process.trace ∧
      path.server.filter.convertBackward (datagram.take dgramBufferSize) = some wire ∧
      path.client.filter.convertBackward (wire.take dgramBufferSize) = some answer := by
  have served := (account accounted.server).1
  have opening := (account accounted.client).1
  rcases List.append_of_mem delivered with ⟨before, after, split⟩
  rcases opening before _ after split with
    ⟨source, leftover, rfl, socket, wire, got, opened, converted⟩
  have got' : .received socket wire ∈ network.client.process.trace := by
    rw [split]
    exact List.mem_append_left _ got
  have known : .opened (clientId source leftover) socket ∈ network.client.process.trace := by
    rw [split]
    exact List.mem_append_left _ opened
  rcases accounted.linked.received socket wire got' with ⟨bound, member, wired⟩
  rcases List.append_of_mem wired with ⟨before', after', split'⟩
  rcases served before' _ after' split' with
    ⟨origin, leftover', bytes, connFd, datagram, received, opened', converted'⟩
  have known' : .opened (clientId origin leftover') connFd ∈ network.server.process.trace := by
    rw [split']
    exact List.mem_append_left _ opened'
  have forSource := openedFor_of_opened served known'
  rw [← bytes] at forSource
  refine ⟨connFd, datagram, wire, ⟨socket, bound, member, openedFor_of_opened opening known,
    forSource⟩, ?_, converted', converted⟩
  rw [split']
  exact List.mem_append_left _ received

theorem Accounted.session_ours (accounted : Accounted path network) {connFd : Fd} {user : Bytes}
    {source : SourceAddr} (session : Session network connFd user)
    (origin : OpenedFor network.server.process.trace connFd source.bytes) :
    path.ours source = true := by
  rcases session with ⟨socket, bound, member, _, forBound⟩
  have bytes := openedFor_unique (account accounted.server).1 origin forBound
  rw [eq_of_bytes bytes]
  exact accounted.linked.ours _ member

/-- No datagram leaves its session: whatever the network loses, repeats and reorders, and whoever
else sends to the second forwarder, the application hears one user of the first forwarder on a
connection, and a user hears only what was said on one of its own connections, as long as the
kernel gives every connection of the first forwarder an address of its own. -/
theorem sessions_isolated (reached : Reachable (Network.step path) (Network.start path) network)
    (own : network.link.OwnAddresses) :
    (∀ connFd first second, Session network connFd first → Session network connFd second →
      first = second) ∧
    (∀ connFd user source, Session network connFd user →
      OpenedFor network.server.process.trace connFd source.bytes → path.ours source = true) ∧
    (∀ connFd request, .sent connFd request ∈ network.server.process.trace →
      (∃ source, OpenedFor network.server.process.trace connFd source.bytes ∧
        path.ours source = false) ∨
      ∃ source leftover datagram wire, Session network connFd source.bytes ∧
        .taken source leftover datagram ∈ network.client.process.trace ∧
        conversion path.client.filter datagram = some wire ∧
        conversion path.server.filter wire = some request) ∧
    ∀ user answer, .delivered user answer ∈ network.client.process.trace →
      ∃ connFd datagram wire, Session network connFd user ∧
        .received connFd datagram ∈ network.server.process.trace ∧
        path.server.filter.convertBackward (datagram.take dgramBufferSize) = some wire ∧
        path.client.filter.convertBackward (wire.take dgramBufferSize) = some answer := by
  have accounted := accounted_reachable reached
  exact ⟨fun _ _ _ => accounted.session_unique own, fun _ _ _ => accounted.session_ours,
    fun _ _ => accounted.request, fun _ _ => accounted.reply⟩

def socketAddr : SourceAddr :=
  ⟨[2, 0, 156, 64, 10, 0, 0, 2, 0, 0, 0, 0, 0, 0, 0, 0], by decide⟩

def testPath : Path where
  client := withFilter (chainedFilters (layers [testFilter]))
  server := withFilter (reversedFilter (chainedFilters (layers [testFilter])))
  ours source := decide (source = socketAddr)

def takesFrom (source : SourceAddr) (datagram : Bytes) (size : Nat) : List State.Action :=
  [.epollWait (some [5]), .event ⟨some (source, datagram), filled 0, true⟩, .send 12, .send 136,
    .send 12, .send size].map .inbound

def handlesWith (calls : OutboundCalls) (size : Nat) : List State.Action :=
  [.epollWait (some [4]), .event calls, .recv 12 calls, .recv 136 calls, .recv 12 calls,
    .recv size calls].map .outbound

def answersOn (connFd : Fd) (datagram : Bytes) (size : Nat) : List State.Action :=
  [.epollWait (some [connFd]), .event (succeeding (connFd + 1) datagram), .send 12, .send 136,
    .send 12, .send size].map .outbound

def answersWith : Bytes → Nat → List State.Action := answersOn 8

def deliversWith (size : Nat) : List State.Action :=
  let calls := fromLoopback 0
  [.epollWait (some [3]), .event calls, .recv 12 calls, .recv 136 calls, .recv 12 calls,
    .recv size calls].map .inbound

/-- A request and its answer; the network repeats the request. -/
def roundTrip : List Network.Action :=
  (takesFrom loopback [1] 16 ++ handlesWith (succeeding 8 []) 16).map (.client socketAddr) ++
    [.repeatToServer 0] ++
    (takesFrom socketAddr wires.1 1 ++ handlesWith (succeeding 8 []) 1 ++ answersWith [2] 16 ++
      deliversWith 16).map .server ++
    (answersWith wires.2 1 ++ deliversWith 1).map (.client socketAddr)

private theorem round_trip_run :
    (run (Network.step testPath) (Network.start testPath) roundTrip).map (fun network =>
      (network.client.process.trace, network.server.process.trace, network.link)) =
    some ([.taken loopback (filled 0) [1], .opened (clientId loopback (filled 0)) 8,
        .sent 8 wires.1, .received 8 wires.2, .delivered loopback.bytes [2]],
      [.taken socketAddr (filled 0) wires.1, .opened (clientId socketAddr (filled 0)) 8,
        .sent 8 [1], .received 8 [2], .delivered socketAddr.bytes wires.2],
      ⟨[(8, socketAddr)], [(socketAddr, wires.1)], []⟩) := by
  decide +kernel

theorem sessions_isolated_round : ∃ network connFd datagram,
    Reachable (Network.step testPath) (Network.start testPath) network ∧
      Session network connFd loopback.bytes ∧
      .received connFd datagram ∈ network.server.process.trace := by
  rcases reachable_of_observed _ _ round_trip_run with ⟨network, reached, seen⟩
  rcases Prod.mk.inj seen with ⟨trace, rest⟩
  have own : network.link.OwnAddresses := by
    rw [(Prod.mk.inj rest).2]
    exact List.nodup_singleton _
  rcases (sessions_isolated reached own).2.2.2 loopback.bytes [2] (by rw [trace]; simp) with
    ⟨connFd, datagram, _, session, received, _, _⟩
  exact ⟨network, connFd, datagram, reached, session, received⟩

def neighbour : SourceAddr :=
  ⟨[2, 0, 42, 58, 127, 0, 0, 1, 0, 0, 0, 0, 0, 0, 0, 0], by decide⟩

def plainPath : Path := { testPath with client := firstSetup, server := firstSetup }

/-- Two users, whose sockets the kernel binds to one address, and the answer to the first. -/
def strayAnswer : List Network.Action :=
  (takesFrom loopback [1] 1 ++ handlesWith (succeeding 8 []) 1 ++ takesFrom neighbour [2] 1 ++
      handlesWith (succeeding 9 []) 1).map (.client socketAddr) ++
    (takesFrom socketAddr [1] 1 ++ handlesWith (succeeding 8 []) 1 ++ answersWith [3] 1 ++
      deliversWith 1).map .server ++
    (answersOn 9 [3] 1 ++ deliversWith 1).map (.client socketAddr)

private theorem stray_answer_run :
    (run (Network.step plainPath) (Network.start plainPath) strayAnswer).map (fun network =>
      (network.client.process.trace, network.server.process.trace, network.link.bound)) =
    some ([.taken loopback (filled 0) [1], .opened (clientId loopback (filled 0)) 8,
        .sent 8 [1], .taken neighbour (filled 0) [2], .opened (clientId neighbour (filled 0)) 9,
        .sent 9 [2], .received 9 [3], .delivered neighbour.bytes [3]],
      [.taken socketAddr (filled 0) [1], .opened (clientId socketAddr (filled 0)) 8,
        .sent 8 [1], .received 8 [3], .delivered socketAddr.bytes [3]],
      [(9, socketAddr), (8, socketAddr)]) := by
  decide +kernel

/-- With one address for two sockets the neighbour is given what the application, which has only
heard of the first user, said to that one. -/
theorem answer_strays : ∃ network,
    Reachable (Network.step plainPath) (Network.start plainPath) network ∧
      ¬ network.link.OwnAddresses ∧
      (∀ connFd request, .sent connFd request ∈ network.server.process.trace → request = [1]) ∧
      .received 8 [3] ∈ network.server.process.trace ∧
      .delivered neighbour.bytes [3] ∈ network.client.process.trace := by
  rcases reachable_of_observed _ _ stray_answer_run with ⟨network, reached, seen⟩
  rcases Prod.mk.inj seen with ⟨trace, rest⟩
  rcases Prod.mk.inj rest with ⟨served, bound⟩
  refine ⟨network, reached, ?_, ?_, ?_, ?_⟩
  · rw [Link.OwnAddresses, bound]
    decide
  · rw [served]
    simp
  · rw [served]
    simp
  · rw [trace]
    simp

/-- A datagram that passes through so many layers uncut. -/
def Fits (psks : List Bytes) (datagram : Bytes) : Prop :=
  Whole datagram ∧
    (psks = [] ∨ 16 * (datagram.length / 16 + psks.length) ≤ dgramBufferSize)

instance (psks : List Bytes) (datagram : Bytes) : Decidable (Fits psks datagram) := by
  unfold Fits
  infer_instance

section Transparent

variable {hash : Bytes → UInt64} {psks : List Bytes} {client server : BaseFilter}

theorem layers_of_ptrFilter (accepted : ptrFilter hash (aesConfigs psks) = .ok client)
    (mirror : ptrFilter hash (mirrored (aesConfigs psks)) = .ok server) :
    ∃ keys, keys.length = psks.length ∧ client = chainedFilters (layers keys) ∧
      server = reversedFilter (chainedFilters (layers keys)) := by
  cases created : createFilters hash (aesConfigs psks) with
  | error exn =>
      rw [ptrFilter, created] at accepted
      cases accepted
  | ok filters =>
      rcases ptrFilter_mirrored created with ⟨first, second⟩
      rcases layers_of_accepted created with ⟨keys, rfl, count⟩
      rw [first] at accepted
      rw [second] at mirror
      exact ⟨keys, count, (Except.ok.inj accepted).symm, (Except.ok.inj mirror).symm⟩

theorem fits_layers {keys : List AESFilter} {datagram : Bytes}
    (count : keys.length = psks.length) (fits : Fits psks datagram) :
    ∃ wire, (chainedFilters (layers keys)).convertForward datagram = some wire ∧ Whole wire := by
  apply layers_whole fits.1
  rcases fits.2 with rfl | few
  · exact Or.inl (List.eq_nil_of_length_eq_zero count)
  · exact Or.inr (count ▸ few)

theorem request_restored (accepted : ptrFilter hash (aesConfigs psks) = .ok client)
    (mirror : ptrFilter hash (mirrored (aesConfigs psks)) = .ok server)
    {datagram wire request : Bytes} (fits : Fits psks datagram)
    (there : conversion client datagram = some wire)
    (back : conversion server wire = some request) : request = datagram := by
  rcases layers_of_ptrFilter accepted mirror with ⟨keys, count, rfl, rfl⟩
  rcases fits_layers count fits with ⟨cipher, forward, whole⟩
  rw [conversion, whole_take fits.1, forward, Option.some.injEq] at there
  subst there
  have undone := layers_undone keys forward
  rw [conversion, whole_take whole] at back
  have same : some datagram = some request := undone.symm.trans back
  exact (Option.some.inj same).symm

theorem answer_restored (accepted : ptrFilter hash (aesConfigs psks) = .ok client)
    (mirror : ptrFilter hash (mirrored (aesConfigs psks)) = .ok server)
    {datagram wire answer : Bytes} (fits : Fits psks datagram)
    (there : server.convertBackward (datagram.take dgramBufferSize) = some wire)
    (back : client.convertBackward (wire.take dgramBufferSize) = some answer) :
    answer = datagram := by
  rcases layers_of_ptrFilter accepted mirror with ⟨keys, count, rfl, rfl⟩
  rcases fits_layers count fits with ⟨cipher, forward, whole⟩
  rw [whole_take fits.1] at there
  have same : some cipher = some wire := forward.symm.trans there
  obtain rfl := Option.some.inj same
  rw [whole_take whole, layers_undone keys forward] at back
  exact (Option.some.inj back).symm

theorem request_transparent
    (accepted : ptrFilter hash (aesConfigs psks) = .ok path.client.filter)
    (mirror : ptrFilter hash (mirrored (aesConfigs psks)) = .ok path.server.filter)
    (reached : Reachable (Network.step path) (Network.start path) network)
    (own : network.link.OwnAddresses) {connFd : Fd} {request : Bytes}
    (sent : .sent connFd request ∈ network.server.process.trace) :
    (∃ source, OpenedFor network.server.process.trace connFd source.bytes ∧
      path.ours source = false) ∨
    ∃ source leftover datagram, OwnSession network connFd source.bytes ∧
      .taken source leftover datagram ∈ network.client.process.trace ∧
      (Fits psks datagram → request = datagram) := by
  have accounted := accounted_reachable reached
  rcases accounted.request sent with outside |
    ⟨source, leftover, datagram, wire, session, taken, there, back⟩
  · exact Or.inl outside
  · exact Or.inr ⟨source, leftover, datagram, accounted.own_session own session, taken,
      fun fits => request_restored accepted mirror fits there back⟩

theorem answer_transparent
    (accepted : ptrFilter hash (aesConfigs psks) = .ok path.client.filter)
    (mirror : ptrFilter hash (mirrored (aesConfigs psks)) = .ok path.server.filter)
    (reached : Reachable (Network.step path) (Network.start path) network)
    (own : network.link.OwnAddresses) {user answer : Bytes}
    (delivered : .delivered user answer ∈ network.client.process.trace) :
    ∃ connFd datagram, OwnSession network connFd user ∧
      .received connFd datagram ∈ network.server.process.trace ∧
      (Fits psks datagram → answer = datagram) := by
  have accounted := accounted_reachable reached
  rcases accounted.reply delivered with
    ⟨connFd, datagram, wire, session, received, there, back⟩
  exact ⟨connFd, datagram, accounted.own_session own session, received,
    fun fits => answer_restored accepted mirror fits there back⟩

/-- Layers of `aes@` filters and their mirror image make the tunnel transparent over any such
network: what fits comes out at the other end as the user or the application sent it, in a session
that is the user's alone. -/
theorem tunnel_transparent
    (accepted : ptrFilter hash (aesConfigs psks) = .ok path.client.filter)
    (mirror : ptrFilter hash (mirrored (aesConfigs psks)) = .ok path.server.filter)
    (reached : Reachable (Network.step path) (Network.start path) network)
    (own : network.link.OwnAddresses) :
    (∀ connFd request, .sent connFd request ∈ network.server.process.trace →
      (∃ source, OpenedFor network.server.process.trace connFd source.bytes ∧
        path.ours source = false) ∨
      ∃ source leftover datagram, OwnSession network connFd source.bytes ∧
        .taken source leftover datagram ∈ network.client.process.trace ∧
        (Fits psks datagram → request = datagram)) ∧
    ∀ user answer, .delivered user answer ∈ network.client.process.trace →
      ∃ connFd datagram, OwnSession network connFd user ∧
        .received connFd datagram ∈ network.server.process.trace ∧
        (Fits psks datagram → answer = datagram) := by
  constructor
  · intro connFd request sent
    exact request_transparent accepted mirror reached own sent
  · intro user answer delivered
    exact answer_transparent accepted mirror reached own delivered

end Transparent

theorem tunnel_transparent_round : ∃ network connFd datagram,
    Reachable (Network.step testPath) (Network.start testPath) network ∧
      OwnSession network connFd loopback.bytes ∧
      .received connFd datagram ∈ network.server.process.trace ∧
      Fits [testPsk] datagram ∧ [2] = datagram := by
  rcases reachable_of_observed _ _ round_trip_run with ⟨network, reached, seen⟩
  rcases Prod.mk.inj seen with ⟨trace, rest⟩
  rcases Prod.mk.inj rest with ⟨served, link⟩
  have own : network.link.OwnAddresses := by
    rw [link]
    exact List.nodup_singleton _
  rcases ptrFilter_mirrored test_accepted with ⟨accepted, mirror⟩
  rcases (tunnel_transparent accepted mirror reached own).2 loopback.bytes [2]
    (by rw [trace]; simp) with ⟨connFd, datagram, session, received, restored⟩
  have only : datagram = [2] := by
    rw [served] at received
    simp only [List.mem_cons, List.not_mem_nil, or_false, reduceCtorEq, false_or,
      Event.received.injEq] at received
    exact received.2
  have fits : Fits [testPsk] datagram := by
    rw [only]
    decide
  exact ⟨network, connFd, datagram, reached, session, received, fits, restored fits⟩

end UdpForwarder.EndToEnd
