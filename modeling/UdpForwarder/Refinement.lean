import UdpForwarder.Isolation

/-! The two threads and their pipe refine the relay: at any time the bytes read, in the pipe and
yet to be written are the frames of the messages on their way. -/

namespace UdpForwarder.Refinement

open ClientId Exchange Filters Ipc Isolation Listener Plain Transition

structure Refines (setup : Setup) (state : State) (relay : Relay) : Prop where
  process : state.process = relay.process
  fault : state.fault = relay.fault
  toInbound : state.fault = none →
    state.inbound.pc.got ++ state.toInbound ++ state.outbound.pc.unsent = frames relay.backward
  toOutbound : state.fault = none →
    state.outbound.pc.got ++ state.toOutbound ++ state.inbound.pc.unsent = frames relay.forward
  inboundEvents : state.fault = none →
    ∀ fd ∈ state.inbound.events, fd ∈ setup.inbound.interest state.process
  outboundEvents : state.fault = none →
    ∀ fd ∈ state.outbound.events, fd ∈ setup.outbound.interest state.process

variable {setup : Setup} {state state' : State} {relay : Relay}

theorem refines_start (setup : Setup) : Refines setup (State.start setup) (Relay.start setup) where
  process := rfl
  fault := rfl
  toInbound _ := rfl
  toOutbound _ := rfl
  inboundEvents _ := by simp [State.start]
  outboundEvents _ := by simp [State.start]

theorem Refines.showsInbound (refines : Refines setup state relay) (running : state.fault = none) :
    Shows setup.inbound state.inboundView state.outbound.pc.got state.outbound.pc.unsent
      relay.inbound :=
  ⟨refines.process, refines.toInbound running, refines.toOutbound running,
    refines.inboundEvents running⟩

theorem Refines.showsOutbound (refines : Refines setup state relay) (running : state.fault = none) :
    Shows setup.outbound state.outboundView state.inbound.pc.got state.inbound.pc.unsent
      relay.outbound :=
  ⟨refines.process, refines.toOutbound running, refines.toInbound running,
    refines.outboundEvents running⟩

theorem keeps_inbound (setup : Setup) : Keeps setup.inbound where
  onMessage _ _ _ _ _ _ := Finset.Subset.refl _
  onPipeMessage _ _ _ _ _ _ := Finset.Subset.refl _

theorem keeps_outbound (setup : Setup) : Keeps setup.outbound where
  onMessage calls activeFd process messages process' ran := by
    rcases outbound_onMessage_ok ran with ⟨message, _, received⟩
    cases received
    exact Finset.Subset.refl _
  onPipeMessage calls message process process' legal ran := by
    cases PlainOutbound.onPipeMessage_ok (of_decide_eq_true legal) ran with
    | known entry =>
        rw [Process.emit]
        split <;> exact Finset.Subset.refl _
    | new absent fresh =>
        rw [Process.emit]
        split <;> exact Finset.subset_insert _ _

theorem inbound_frame {exchange exchange' : Exchange} {choice : Choice InboundCalls}
    (taken : Exchange.step setup.inbound exchange choice = some (exchange', none)) :
    exchange'.process.outboundSet = exchange.process.outboundSet := by
  cases Exchange.step_pass _ taken with
  | message registered other legal ran =>
      rw [inbound_listens registered other] at ran
      rcases inbound_onMessage_ok ran with ⟨message, _, taken⟩
      cases taken
      rfl
  | handle queue accepted legal ran =>
      cases PlainInbound.onPipeMessage_ok ran
      rfl

theorem fits_forward (sound : Sound setup relay) (running : relay.fault = none) :
    ∀ message ∈ relay.forward, Fits message := by
  intro message member
  rcases sound.forward running message member with ⟨origin, bound⟩
  rcases origin.known with ⟨source, leftover, _, _, same⟩
  refine ⟨?_, Nat.lt_of_le_of_lt bound (by decide)⟩
  rw [same, clientId_length]
  decide

theorem fits_backward (sound : Sound setup relay) (running : relay.fault = none) :
    ∀ message ∈ relay.backward, Fits message := by
  intro message member
  rcases sound.backward running message member with ⟨⟨connFd, _, _, opened, _⟩, bound⟩
  rcases known_of_opened sound.explained opened with ⟨source, leftover, _, _, same⟩
  refine ⟨?_, Nat.lt_of_le_of_lt bound (by decide)⟩
  rw [same, clientId_length]
  decide

/-- One step of a thread is a step of the relay, or none. -/
theorem Refines.step {action : State.Action}
    (reached : Reachable (Relay.step setup) (Relay.start setup) relay)
    (refines : Refines setup state relay)
    (taken : State.step setup state action = some state') :
    ∃ relay', (relay' = relay ∨ ∃ choice, Relay.step setup relay choice = some relay') ∧
      Refines setup state' relay' := by
  have sound := sound_reachable reached
  simp only [State.step] at taken
  split at taken
  · cases taken
  · rename_i alive
    have running : state.fault = none := by simpa using alive
    have running' : relay.fault = none := refines.fault ▸ running
    cases action with
    | inbound action =>
        rcases Option.map_eq_some_iff.mp taken with ⟨⟨view, fault⟩, stepped, same⟩
        subst same
        rcases (refines.showsInbound running).step (keeps_inbound setup)
          (fits_backward sound running') stepped with
          ⟨none, shows⟩ | ⟨choice, exchange', moved, same, shows⟩
        · refine ⟨relay, Or.inl rfl, shows.process, none.trans running'.symm,
            fun _ => shows.incoming, fun _ => shows.outgoing, fun _ => shows.events, fun _ => ?_⟩
          have unchanged : view.process = state.process :=
            shows.process.trans refines.process.symm
          simpa only [unchanged] using refines.outboundEvents running
        · refine ⟨⟨exchange'.process, exchange'.outgoing, exchange'.incoming, fault⟩,
            Or.inr ⟨.inbound choice, ?_⟩, same, rfl, fun none => (shows none).incoming,
            fun none => (shows none).outgoing, fun none => (shows none).events, fun none => ?_⟩
          · simp [Relay.step, running', moved]
          · have clear : fault = Option.none := none
            rw [clear] at moved
            have frame := inbound_frame moved
            have events := refines.outboundEvents running
            simp only [Setup.outbound, refines.process] at events ⊢
            rw [same, frame]
            exact events
    | outbound action =>
        rcases Option.map_eq_some_iff.mp taken with ⟨⟨view, fault⟩, stepped, same⟩
        subst same
        rcases (refines.showsOutbound running).step (keeps_outbound setup)
          (fits_forward sound running') stepped with
          ⟨none, shows⟩ | ⟨choice, exchange', moved, same, shows⟩
        · exact ⟨relay, Or.inl rfl, shows.process, none.trans running'.symm,
            fun _ => shows.outgoing, fun _ => shows.incoming,
            fun _ => refines.inboundEvents running, fun _ => shows.events⟩
        · refine ⟨⟨exchange'.process, exchange'.incoming, exchange'.outgoing, fault⟩,
            Or.inr ⟨.outbound choice, ?_⟩, same, rfl, fun none => (shows none).outgoing,
            fun none => (shows none).incoming, fun _ => refines.inboundEvents running,
            fun none => (shows none).events⟩
          simp [Relay.step, running', moved]

/-- Every run of the threads is a run of the relay. -/
theorem refines_reachable (reached : Reachable (State.step setup) (State.start setup) state) :
    ∃ relay, Reachable (Relay.step setup) (Relay.start setup) relay ∧
      Refines setup state relay := by
  apply reached.simulated (refines_start setup)
  intro before action after relay earlier refines taken
  rcases refines.step earlier taken with ⟨relay', same | ⟨choice, moved⟩, refines'⟩
  · exact ⟨relay', same ▸ Reachable.refl, refines'⟩
  · exact ⟨relay', Reachable.single choice moved, refines'⟩

end UdpForwarder.Refinement
