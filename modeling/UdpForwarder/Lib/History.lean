import Mathlib.Data.List.Basic

/-! Histories: chronological lists of events, each of which the ones before it must justify. -/

namespace UdpForwarder.History

variable {Event : Type*} (Justified : List Event → Event → Prop)

/-- Every event of the history is justified by the events that precede it. -/
def Explained (history : List Event) : Prop :=
  ∀ past event future, history = past ++ event :: future → Justified past event

variable {Justified}

theorem explained_nil : Explained Justified [] := by
  intro past event future split
  simp at split

theorem explained_snoc {history : List Event} {event : Event}
    (earlier : Explained Justified history) (last : Justified history event) :
    Explained Justified (history ++ [event]) := by
  intro past item future split
  rcases List.eq_nil_or_concat future with rfl | ⟨front, final, rfl⟩
  · rcases List.append_inj' split (by simp) with ⟨rfl, equal⟩
    simp only [List.cons.injEq, and_true] at equal
    exact equal ▸ last
  · rw [List.concat_eq_append, ← List.cons_append, ← List.append_assoc] at split
    rcases List.append_inj' split (by simp) with ⟨body, -⟩
    exact earlier past item front body

theorem Explained.of_append {history later : List Event}
    (whole : Explained Justified (history ++ later)) : Explained Justified history := by
  intro past event future split
  exact whole past event (future ++ later) (by rw [split]; simp)

theorem ordered_of_mem {history : List Event} {first second : Event} (one : first ∈ history)
    (two : second ∈ history) (different : first ≠ second) :
    (∃ past future, history = past ++ second :: future ∧ first ∈ past) ∨
      ∃ past future, history = past ++ first :: future ∧ second ∈ past := by
  induction history with
  | nil => cases one
  | cons event history ih =>
      rcases List.mem_cons.mp one with same | inFirst
      · subst same
        rcases List.append_of_mem ((List.mem_cons.mp two).resolve_left different.symm) with
          ⟨past, future, split⟩
        exact Or.inl ⟨first :: past, future, by rw [split]; rfl, by simp⟩
      · rcases List.mem_cons.mp two with same | inSecond
        · subst same
          rcases List.append_of_mem inFirst with ⟨past, future, split⟩
          exact Or.inr ⟨second :: past, future, by rw [split]; rfl, by simp⟩
        · rcases ih inFirst inSecond with ⟨past, future, split, before⟩ |
            ⟨past, future, split, before⟩
          · exact Or.inl ⟨event :: past, future, by rw [split]; rfl, List.mem_cons_of_mem _ before⟩
          · exact Or.inr ⟨event :: past, future, by rw [split]; rfl, List.mem_cons_of_mem _ before⟩

/-- Events that only happen where no event related to them happened before happen once. -/
theorem Explained.unique {history : List Event} (whole : Explained Justified history)
    (Related : Event → Event → Prop) {first second : Event}
    (once : ∀ past early late, Related early late → Justified past late → early ∉ past)
    (one : first ∈ history) (two : second ∈ history) (related : Related first second)
    (back : Related second first) : first = second := by
  by_contra different
  rcases ordered_of_mem one two different with ⟨past, future, split, before⟩ |
    ⟨past, future, split, before⟩
  · exact once past first second related (whole past second future split) before
  · exact once past second first back (whole past first future split) before

section Advance

variable {State : Type*} {advance : State → Event → Option State} {later : List Event}
  {state state' : State}

/-- What holds of a state and its history, and is kept by every event, holds after the events of a
whole list, each of which may refuse to happen. -/
theorem foldlM_history (Invariant : State → List Event → Prop) {history : List Event}
    (first : Invariant state history)
    (keeps : ∀ past event future state state', history ++ later = past ++ event :: future →
      Invariant state past → advance state event = some state' →
        Invariant state' (past ++ [event]))
    (advanced : later.foldlM advance state = some state') :
    Invariant state' (history ++ later) := by
  induction later generalizing history state with
  | nil =>
      rw [List.foldlM_nil] at advanced
      injection advanced with same
      rw [List.append_nil]
      exact same ▸ first
  | cons event later ih =>
      rw [List.foldlM_cons] at advanced
      rcases Option.bind_eq_some_iff.mp advanced with ⟨middle, happened, rest⟩
      have next := keeps history event later state middle rfl first happened
      have split : history ++ event :: later = (history ++ [event]) ++ later := by
        rw [List.append_assoc, List.singleton_append]
      rw [split] at keeps ⊢
      exact ih next keeps rest

theorem foldlM_guarded {allowed : State → Event → Bool}
    (advanced : later.foldlM (fun state event =>
      if allowed state event then advance state event else none) state = some state') :
    later.foldlM advance state = some state' := by
  induction later generalizing state with
  | nil => exact advanced
  | cons event later ih =>
      rw [List.foldlM_cons] at advanced ⊢
      rcases Option.bind_eq_some_iff.mp advanced with ⟨middle, happened, rest⟩
      simp only [Option.ite_none_right_eq_some] at happened
      rw [happened.2]
      exact ih rest

end Advance

end UdpForwarder.History
