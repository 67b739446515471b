import UdpForwarder.Lib.Transition
import Mathlib.Order.WellFounded

/-! Systems that come to rest: their runs end, and where they end nothing is possible any more. -/

namespace UdpForwarder.Transition

variable {State Action : Type*}

def AtRest (step : State → Action → Option State) (state : State) : Prop :=
  ∀ action, step state action = none

/-- No run goes on for ever. -/
def Settles (step : State → Action → Option State) (start : State) : Prop :=
  Acc (fun after before => Step step before after) start

variable {step : State → Action → Option State} {start finish : State}

theorem AtRest.settles (rest : AtRest step start) : Settles step start := by
  constructor
  rintro after ⟨action, taken⟩
  rw [rest action] at taken
  cases taken

theorem Settles.exists_rest (settles : Settles step start) :
    ∃ rest, Reachable step start rest ∧ AtRest step rest := by
  induction settles with
  | intro start _ ih =>
      by_cases rest : AtRest step start
      · exact ⟨start, Reachable.refl, rest⟩
      · rcases not_forall.mp rest with ⟨action, enabled⟩
        rcases Option.ne_none_iff_exists'.mp enabled with ⟨after, taken⟩
        rcases ih after ⟨action, taken⟩ with ⟨last, reached, rest⟩
        exact ⟨last, (Reachable.single action taken).trans reached, rest⟩

/-- The rule for such systems: a step makes a measure smaller, or nothing comes after it. -/
theorem settles_of_measure {Measure : Type*} [LT Measure] [WellFoundedLT Measure]
    (measure : State → Measure)
    (decreases : ∀ before action after, step before action = some after →
      AtRest step after ∨ measure after < measure before) (start : State) :
    Settles step start := by
  have all : ∀ size state, measure state = size → Settles step state := by
    intro size
    induction size using WellFoundedLT.induction with
    | ind size ih =>
        rintro state rfl
        constructor
        rintro after ⟨action, taken⟩
        rcases decreases state action after taken with rest | smaller
        · exact rest.settles
        · exact ih _ smaller after rfl
  exact all _ start rfl

end UdpForwarder.Transition
