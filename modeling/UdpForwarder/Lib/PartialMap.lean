import Mathlib.Logic.Basic

/-! Partial maps as functions into `Option`, and pairs of them that are inverse to each other. -/

namespace UdpForwarder

def PartialMap (Key Value : Type) : Type := Key → Option Value

end UdpForwarder

namespace UdpForwarder.PartialMap

variable {Key Value : Type} [DecidableEq Key] [DecidableEq Value]

def empty : PartialMap Key Value := fun _ => none

def assign (map : PartialMap Key Value) (key : Key) (value : Value) : PartialMap Key Value :=
  fun other => if other = key then some value else map other

def erase (map : PartialMap Key Value) (key : Key) : PartialMap Key Value :=
  fun other => if other = key then none else map other

omit [DecidableEq Key] [DecidableEq Value] in
@[simp] theorem empty_apply (key : Key) : (empty : PartialMap Key Value) key = none := rfl

omit [DecidableEq Value] in
@[simp] theorem assign_self (map : PartialMap Key Value) (key : Key) (value : Value) :
    map.assign key value key = some value := by
  simp [assign]

omit [DecidableEq Value] in
theorem assign_other (map : PartialMap Key Value) {key other : Key} (value : Value)
    (different : other ≠ key) : map.assign key value other = map other := by
  simp [assign, different]

omit [DecidableEq Value] in
@[simp] theorem erase_self (map : PartialMap Key Value) (key : Key) : map.erase key key = none := by
  simp [erase]

omit [DecidableEq Value] in
theorem erase_other (map : PartialMap Key Value) {key other : Key} (different : other ≠ key) :
    map.erase key other = map other := by
  simp [erase, different]

omit [DecidableEq Value] in
@[simp] theorem erase_assign (map : PartialMap Key Value) (key : Key) (value : Value) :
    (map.assign key value).erase key = map.erase key := by
  funext other
  by_cases same : other = key
  · rw [same, erase_self, erase_self]
  · rw [erase_other _ same, erase_other _ same, assign_other _ _ same]

omit [DecidableEq Value] in
theorem assign_present {map : PartialMap Key Value} {key : Key} {value : Value}
    (present : map key = some value) : map.assign key value = map := by
  funext other
  by_cases same : other = key
  · rw [same, assign_self, present]
  · rw [assign_other _ _ same]

omit [DecidableEq Value] in
theorem erase_absent {map : PartialMap Key Value} {key : Key} (absent : map key = none) :
    map.erase key = map := by
  funext other
  by_cases same : other = key
  · rw [same, erase_self, absent]
  · rw [erase_other _ same]

/-- Two maps that hold the same pairs, read in opposite directions. -/
def MutuallyInverse (forward : PartialMap Key Value) (backward : PartialMap Value Key) : Prop :=
  ∀ key value, forward key = some value ↔ backward value = some key

variable {forward : PartialMap Key Value} {backward : PartialMap Value Key}

omit [DecidableEq Key] [DecidableEq Value] in
theorem mutuallyInverse_empty :
    MutuallyInverse (empty : PartialMap Key Value) (empty : PartialMap Value Key) := by
  intro key value
  simp

omit [DecidableEq Key] [DecidableEq Value] in
theorem MutuallyInverse.symm (inverse : MutuallyInverse forward backward) :
    MutuallyInverse backward forward := fun value key => (inverse key value).symm

omit [DecidableEq Key] [DecidableEq Value] in
theorem MutuallyInverse.injective (inverse : MutuallyInverse forward backward) {first second : Key}
    {value : Value} (one : forward first = some value) (two : forward second = some value) :
    first = second := by
  have left := (inverse first value).mp one
  have right := (inverse second value).mp two
  exact Option.some.inj (left.symm.trans right)

theorem MutuallyInverse.assign (inverse : MutuallyInverse forward backward) {key : Key}
    {value : Value} (freshKey : forward key = none) (freshValue : backward value = none) :
    MutuallyInverse (forward.assign key value) (backward.assign value key) := by
  intro other image
  by_cases sameKey : other = key
  · subst sameKey
    by_cases sameValue : image = value
    · simp [sameValue]
    · rw [assign_self, assign_other backward other sameValue]
      have absent : backward image ≠ some other := by
        intro present
        simp [(inverse other image).mpr present] at freshKey
      simp [absent, Ne.symm sameValue]
  · rw [assign_other forward value sameKey]
    by_cases sameValue : image = value
    · subst sameValue
      have absent : forward other ≠ some image := by
        intro present
        simp [(inverse other image).mp present] at freshValue
      simp [absent, Ne.symm sameKey]
    · rw [assign_other backward key sameValue]
      exact inverse other image

theorem MutuallyInverse.erase (inverse : MutuallyInverse forward backward) {key : Key}
    {value : Value} (pair : forward key = some value) :
    MutuallyInverse (forward.erase key) (backward.erase value) := by
  have back : backward value = some key := (inverse key value).mp pair
  intro other image
  by_cases sameKey : other = key
  · subst sameKey
    by_cases sameValue : image = value
    · simp [sameValue]
    · rw [erase_self, erase_other backward sameValue]
      have absent : backward image ≠ some other := by
        intro present
        have equal := (inverse other image).mpr present
        exact sameValue (Option.some.inj (equal.symm.trans pair))
      simp [absent]
  · rw [erase_other forward sameKey]
    by_cases sameValue : image = value
    · subst sameValue
      have absent : forward other ≠ some image := by
        intro present
        exact sameKey (inverse.injective present pair)
      simp [absent]
    · rw [erase_other backward sameValue]
      exact inverse other image

/-- A pair can be entered exactly when neither side is in use, or when it is there already. -/
theorem MutuallyInverse.assign_iff (inverse : MutuallyInverse forward backward) (key : Key)
    (value : Value) :
    MutuallyInverse (forward.assign key value) (backward.assign value key) ↔
      (forward key = none ∧ backward value = none) ∨ forward key = some value := by
  constructor
  · intro entered
    cases image : forward key with
    | some held =>
        refine .inr (congrArg some ?_)
        by_cases same : held = value
        · exact same
        · -- the old partner still points back to `key`
          have back : backward.assign value key held = some key := by
            rw [assign_other _ _ same]
            exact (inverse key held).mp image
          have again := (entered key held).mpr back
          rw [assign_self, Option.some.injEq] at again
          exact again.symm
    | none =>
        refine .inl ⟨rfl, ?_⟩
        cases holder : backward value with
        | none => rfl
        | some other =>
            have pair := (inverse other value).mpr holder
            have different : other ≠ key := by
              intro same
              rw [same, image] at pair
              cases pair
            have stays : forward.assign key value other = some value := by
              rw [assign_other _ _ different]
              exact pair
            have again := (entered other value).mp stays
            rw [assign_self, Option.some.injEq] at again
            exact absurd again.symm different
  · rintro (⟨freshKey, freshValue⟩ | present)
    · exact inverse.assign freshKey freshValue
    · rw [assign_present present, assign_present ((inverse key value).mp present)]
      exact inverse

/-- Erasing an absent key together with some value breaks the pair of that value, if it has one. -/
theorem MutuallyInverse.erase_iff (inverse : MutuallyInverse forward backward) {key : Key}
    (absent : forward key = none) (value : Value) :
    MutuallyInverse (forward.erase key) (backward.erase value) ↔ backward value = none := by
  rw [erase_absent absent]
  constructor
  · intro erased
    cases holder : backward value with
    | none => rfl
    | some other =>
        have gone := (erased other value).mp ((inverse other value).mpr holder)
        rw [erase_self] at gone
        cases gone
  · intro unused
    rw [erase_absent unused]
    exact inverse

end UdpForwarder.PartialMap
