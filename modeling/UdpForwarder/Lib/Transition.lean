import Mathlib.Logic.Relation

/-! Executable transition systems: a step function over the choices of an environment. -/

namespace UdpForwarder.Transition

variable {State Action : Type*}

def Step (step : State → Action → Option State) (before after : State) : Prop :=
  ∃ action, step before action = some after

def Reachable (step : State → Action → Option State) : State → State → Prop :=
  Relation.ReflTransGen (Step step)

/-- A run under a given list of choices, refused at the first disabled one. -/
def run (step : State → Action → Option State) (start : State) : List Action → Option State
  | [] => some start
  | action :: rest =>
    match step start action with
    | some next => run step next rest
    | none => none

variable {step : State → Action → Option State} {start middle finish : State}

theorem Reachable.refl : Reachable step start start := Relation.ReflTransGen.refl

theorem Reachable.trans (first : Reachable step start middle)
    (second : Reachable step middle finish) : Reachable step start finish :=
  Relation.ReflTransGen.trans first second

theorem Reachable.next (before : Reachable step start middle) (action : Action)
    (taken : step middle action = some finish) : Reachable step start finish :=
  Relation.ReflTransGen.tail before ⟨action, taken⟩

theorem Reachable.single (action : Action) (taken : step start action = some finish) :
    Reachable step start finish :=
  Reachable.refl.next action taken

theorem reachable_of_run (actions : List Action) (ran : run step start actions = some finish) :
    Reachable step start finish := by
  induction actions generalizing start with
  | nil =>
      simp only [run, Option.some.injEq] at ran
      subst ran
      exact Reachable.refl
  | cons action rest ih =>
      simp only [run] at ran
      split at ran
      · rename_i next taken
        exact (Reachable.single action taken).trans (ih ran)
      · cases ran

theorem reachable_of_observed {Value : Type*} {value : Value} (observe : State → Value)
    (actions : List Action) (ran : (run step start actions).map observe = some value) :
    ∃ finish, Reachable step start finish ∧ observe finish = value := by
  rcases Option.map_eq_some_iff.mp ran with ⟨finish, ended, seen⟩
  exact ⟨finish, reachable_of_run actions ended, seen⟩

/-- The induction every safety result rests on: what one step preserves, a run preserves.
The step case may use that the state before it is reachable. -/
theorem Reachable.invariant {Inv : State → Prop} (reached : Reachable step start finish)
    (initial : Inv start)
    (preserved : ∀ before action after, Reachable step start before → Inv before →
      step before action = some after → Inv after) : Inv finish := by
  induction reached with
  | refl => exact initial
  | tail earlier last ih =>
      rcases last with ⟨action, taken⟩
      exact preserved _ action _ earlier ih taken

/-- What is demanded of every step of a run, up to the first choice that is disabled. -/
def Throughout (step : State → Action → Option State) (Good : State → Action → Prop) :
    State → List Action → Prop
  | _, [] => True
  | state, action :: rest => Good state action ∧
      ∀ next, step state action = some next → Throughout step Good next rest

section Throughout

variable {Good : State → Action → Prop} {actions : List Action}

theorem throughout_of_all {Demand : Action → Prop} (all : ∀ action ∈ actions, Demand action) :
    Throughout step (fun _ => Demand) start actions := by
  induction actions generalizing start with
  | nil => trivial
  | cons action rest ih =>
      refine ⟨all action List.mem_cons_self, fun next _ => ?_⟩
      exact ih fun other member => all other (List.mem_cons_of_mem _ member)

theorem Throughout.mono {Other : State → Action → Prop}
    (good : Throughout step Good start actions)
    (weaker : ∀ state action, Good state action → Other state action) :
    Throughout step Other start actions := by
  induction actions generalizing start with
  | nil => trivial
  | cons action rest ih => exact ⟨weaker _ _ good.1, fun next taken => ih (good.2 next taken)⟩

instance decidableThroughout [∀ state action, Decidable (Good state action)] :
    ∀ start actions, Decidable (Throughout step Good start actions)
  | _, [] => isTrue trivial
  | start, action :: rest =>
    match taken : step start action with
    | none => decidable_of_iff (Good start action) (by simp [Throughout, taken])
    | some next =>
      have := decidableThroughout next rest
      decidable_of_iff (Good start action ∧ Throughout step Good next rest)
        (by simp [Throughout, taken])

theorem Throughout.invariant {Inv : State → Prop} (good : Throughout step Good start actions)
    (ran : run step start actions = some finish) (initial : Inv start)
    (preserved : ∀ before action after, Reachable step start before → Inv before →
      Good before action → step before action = some after → Inv after) : Inv finish := by
  induction actions generalizing start with
  | nil =>
      simp only [run, Option.some.injEq] at ran
      exact ran ▸ initial
  | cons action rest ih =>
      simp only [run] at ran
      split at ran
      · rename_i next taken
        have first := Reachable.single action taken
        apply ih (good.2 next taken) ran (preserved _ _ _ Reachable.refl initial good.1 taken)
        intro before action after reached
        exact preserved before action after (first.trans reached)
      · cases ran

/-- Two demands that agree wherever an invariant holds agree on whole runs, if the first keeps the
invariant. -/
theorem throughout_iff {Other : State → Action → Prop} {Inv : State → Prop} (initial : Inv start)
    (same : ∀ state action, Inv state → (Good state action ↔ Other state action))
    (preserved : ∀ before action after, Inv before → Good before action →
      step before action = some after → Inv after) :
    Throughout step Good start actions ↔ Throughout step Other start actions := by
  induction actions generalizing start with
  | nil => exact Iff.rfl
  | cons action rest ih =>
      rw [Throughout, Throughout, ← same start action initial]
      apply and_congr_right
      intro good
      apply forall_congr'
      intro next
      apply imp_congr_right
      intro taken
      exact ih (preserved start action next initial good taken)

theorem exists_of_not_throughout (bad : ¬ Throughout step Good start actions)
    (ran : run step start actions = some finish) :
    ∃ before action after, Reachable step start before ∧ ¬ Good before action ∧
      step before action = some after ∧ Reachable step after finish := by
  induction actions generalizing start with
  | nil => exact absurd trivial bad
  | cons action rest ih =>
      simp only [run] at ran
      split at ran
      · rename_i next taken
        by_cases good : Good start action
        · have later : ¬ Throughout step Good next rest := by
            intro later
            apply bad
            refine ⟨good, fun other again => ?_⟩
            rw [taken, Option.some.injEq] at again
            exact again ▸ later
          rcases ih later ran with ⟨before, action', after, reached, rest⟩
          exact ⟨before, action', after, (Reachable.single action taken).trans reached, rest⟩
        · exact ⟨start, action, next, Reachable.refl, good, taken, reachable_of_run rest ran⟩
      · cases ran

end Throughout

section Simulation

variable {Abstract Choice : Type*} {specStep : Abstract → Choice → Option Abstract}
  {specStart : Abstract}

/-- Forward simulation with stuttering: each concrete step is matched by some abstract run. The
match may use that the abstract state is reachable, and so every invariant of it. -/
theorem Reachable.simulated {Rel : State → Abstract → Prop}
    (reached : Reachable step start finish) (initial : Rel start specStart)
    (matched : ∀ before action after abstract, Reachable specStep specStart abstract →
      Rel before abstract → step before action = some after →
      ∃ abstract', Reachable specStep abstract abstract' ∧ Rel after abstract') :
    ∃ abstract, Reachable specStep specStart abstract ∧ Rel finish abstract := by
  induction reached with
  | refl => exact ⟨specStart, Reachable.refl, initial⟩
  | tail _ last ih =>
      rcases last with ⟨action, taken⟩
      rcases ih with ⟨abstract, earlier, related⟩
      rcases matched _ action _ abstract earlier related taken with ⟨abstract', later, related'⟩
      exact ⟨abstract', earlier.trans later, related'⟩

/-- Simulation by a set of abstract states, for abstract systems with a parameter that the concrete
one fixes on its way: each state that can stand for the concrete one after a step, under some
parameter, is reached from one that could before it, under the same parameter. -/
theorem Reachable.possible {Parameter : Type*}
    {specStep : Parameter → Abstract → Choice → Option Abstract}
    {Rel : State → (Parameter → Abstract → Prop) → Prop} {Begin : Parameter → Abstract → Prop}
    (reached : Reachable step start finish) (initial : Rel start Begin)
    (matched : ∀ before action after Before, Rel before Before →
      step before action = some after → ∃ After, Rel after After ∧
        ∀ parameter abstract', After parameter abstract' →
          ∃ abstract, Before parameter abstract ∧
            Reachable (specStep parameter) abstract abstract') :
    ∃ After, Rel finish After ∧ ∀ parameter abstract', After parameter abstract' →
      ∃ abstract, Begin parameter abstract ∧
        Reachable (specStep parameter) abstract abstract' := by
  induction reached with
  | refl => exact ⟨Begin, initial, fun _ abstract begins => ⟨abstract, begins, Reachable.refl⟩⟩
  | tail _ last ih =>
      rcases last with ⟨action, taken⟩
      rcases ih with ⟨Before, related, earlier⟩
      rcases matched _ action _ Before related taken with ⟨After, related', back⟩
      refine ⟨After, related', fun parameter abstract' stands => ?_⟩
      rcases back parameter abstract' stands with ⟨abstract, stood, later⟩
      rcases earlier parameter abstract stood with ⟨first, begins, sooner⟩
      exact ⟨first, begins, sooner.trans later⟩

end Simulation

end UdpForwarder.Transition
