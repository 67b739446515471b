import Mathlib.Data.List.Basic

/-! Resumable readers. A reader blocked on a stream is its input so far: it is run again on
the longer input whenever more symbols arrive. -/

namespace UdpForwarder.Reader

inductive Demand (Error Symbol Value : Type) where
  | need (count : Nat)
  | fail (error : Error)
  | done (value : Value) (unread : List Symbol)
  deriving DecidableEq, Repr

end UdpForwarder.Reader

namespace UdpForwarder

open Reader

def Reader (Error Symbol Value : Type) : Type := List Symbol → Demand Error Symbol Value

end UdpForwarder

namespace UdpForwarder.Reader

variable {Error Symbol Value Result : Type}

instance : Monad (Reader Error Symbol) where
  pure value := fun input => .done value input
  bind reader next := fun input =>
    match reader input with
    | .need count => .need count
    | .fail error => .fail error
    | .done value unread => next value unread

def throw (error : Error) : Reader Error Symbol Value := fun _ => .fail error

/-- Exactly `count` symbols; until they are there, at most the missing ones are asked for. -/
def exactly (count : Nat) : Reader Error Symbol (List Symbol) := fun input =>
  if input.length < count then .need (count - input.length)
  else .done (input.take count) (input.drop count)

theorem pure_apply (value : Value) (input : List Symbol) :
    (pure value : Reader Error Symbol Value) input = .done value input := rfl

theorem bind_apply (reader : Reader Error Symbol Value)
    (next : Value → Reader Error Symbol Result) (input : List Symbol) :
    (reader >>= next) input =
      match reader input with
      | .need count => .need count
      | .fail error => .fail error
      | .done value unread => next value unread := rfl

theorem bind_done {reader : Reader Error Symbol Value} {next : Value → Reader Error Symbol Result}
    {input unread : List Symbol} {value : Value} (finished : reader input = .done value unread) :
    (reader >>= next) input = next value unread := by
  rw [bind_apply, finished]

theorem exactly_append (block rest : List Symbol) :
    (exactly block.length : Reader Error Symbol (List Symbol)) (block ++ rest) =
      .done block rest := by
  simp [exactly]

/-- What a reader must satisfy to be run by resumption: what it decided stays decided when
more input arrives, and it never asks for symbols it will not consume. -/
structure Lawful (reader : Reader Error Symbol Value) : Prop where
  done_append : ∀ input value unread more, reader input = .done value unread →
    reader (input ++ more) = .done value (unread ++ more)
  fail_append : ∀ input error more, reader input = .fail error →
    reader (input ++ more) = .fail error
  need_pos : ∀ input count, reader input = .need count → 0 < count
  need_append : ∀ input count more, reader input = .need count → more.length < count →
    reader (input ++ more) = .need (count - more.length)
  need_exact : ∀ input count more value unread, reader input = .need count →
    more.length ≤ count → reader (input ++ more) = .done value unread → unread = []
  unread_le : ∀ input value unread, reader input = .done value unread →
    unread.length ≤ input.length

theorem lawful_pure (value : Value) : Lawful (pure value : Reader Error Symbol Value) := by
  constructor <;> simp +contextual [pure_apply]

theorem lawful_throw (error : Error) : Lawful (throw error : Reader Error Symbol Value) := by
  constructor <;> simp +contextual [throw]

theorem lawful_exactly (count : Nat) :
    Lawful (exactly count : Reader Error Symbol (List Symbol)) := by
  constructor
  · intro input value unread more finished
    by_cases short : input.length < count
    · simp [exactly, short] at finished
    · have enough : count ≤ input.length := Nat.le_of_not_lt short
      have longer : ¬ (input ++ more).length < count := by simp; omega
      simp only [exactly, short, if_false, Demand.done.injEq] at finished
      rcases finished with ⟨rfl, rfl⟩
      simp only [exactly, longer, if_false]
      rw [List.take_append_of_le_length enough, List.drop_append_of_le_length enough]
  · intro input error more failed
    simp only [exactly] at failed
    split at failed <;> cases failed
  · intro input asked wanted
    simp only [exactly] at wanted
    split at wanted
    · injection wanted with equal
      omega
    · cases wanted
  · intro input asked more wanted few
    simp only [exactly] at wanted
    split at wanted
    · injection wanted with equal
      have short : (input ++ more).length < count := by simp; omega
      simp only [exactly]
      rw [if_pos short, List.length_append]
      congr 1
      omega
    · cases wanted
  · intro input asked more value unread wanted few finished
    simp only [exactly] at wanted finished
    split at wanted
    · injection wanted with equal
      split at finished
      · cases finished
      · injection finished with _ rest
        rw [← rest]
        apply List.drop_eq_nil_of_le
        simp only [List.length_append]
        omega
    · cases wanted
  · intro input value unread finished
    simp only [exactly] at finished
    split at finished
    · cases finished
    · injection finished with _ rest
      rw [← rest]
      simp

theorem Lawful.bind {reader : Reader Error Symbol Value}
    {next : Value → Reader Error Symbol Result} (first : Lawful reader)
    (second : ∀ value, Lawful (next value)) : Lawful (reader >>= next) := by
  constructor
  · intro input value unread more finished
    rw [bind_apply] at finished ⊢
    cases outcome : reader input with
    | need count => simp [outcome] at finished
    | fail error => simp [outcome] at finished
    | done middle rest =>
        rw [first.done_append input middle rest more outcome]
        simp only [outcome] at finished
        exact (second middle).done_append rest value unread more finished
  · intro input error more failed
    rw [bind_apply] at failed ⊢
    cases outcome : reader input with
    | need count => simp [outcome] at failed
    | fail reason =>
        rw [first.fail_append input reason more outcome]
        simpa [outcome] using failed
    | done middle rest =>
        rw [first.done_append input middle rest more outcome]
        simp only [outcome] at failed
        exact (second middle).fail_append rest error more failed
  · intro input count wanted
    rw [bind_apply] at wanted
    cases outcome : reader input with
    | need asked =>
        simp only [outcome, Demand.need.injEq] at wanted
        exact wanted ▸ first.need_pos input asked outcome
    | fail error => simp [outcome] at wanted
    | done middle rest =>
        simp only [outcome] at wanted
        exact (second middle).need_pos rest count wanted
  · intro input count more wanted few
    rw [bind_apply] at wanted ⊢
    cases outcome : reader input with
    | need asked =>
        simp only [outcome, Demand.need.injEq] at wanted
        subst wanted
        rw [first.need_append input asked more outcome few]
    | fail error => simp [outcome] at wanted
    | done middle rest =>
        rw [first.done_append input middle rest more outcome]
        simp only [outcome] at wanted
        exact (second middle).need_append rest count more wanted few
  · intro input count more value unread wanted few finished
    rw [bind_apply] at wanted finished
    cases outcome : reader input with
    | need asked =>
        simp only [outcome, Demand.need.injEq] at wanted
        subst wanted
        cases later : reader (input ++ more) with
        | need count => simp [later] at finished
        | fail error => simp [later] at finished
        | done middle rest =>
            simp only [later] at finished
            have nothing := first.need_exact input asked more middle rest outcome few later
            subst nothing
            have bound := (second middle).unread_le [] value unread finished
            exact List.eq_nil_of_length_eq_zero (Nat.le_zero.mp bound)
    | fail error => simp [outcome] at wanted
    | done middle rest =>
        rw [first.done_append input middle rest more outcome] at finished
        simp only [outcome] at wanted
        exact (second middle).need_exact rest count more value unread wanted few finished
  · intro input value unread finished
    rw [bind_apply] at finished
    cases outcome : reader input with
    | need count => simp [outcome] at finished
    | fail error => simp [outcome] at finished
    | done middle rest =>
        simp only [outcome] at finished
        exact Nat.le_trans ((second middle).unread_le rest value unread finished)
          (first.unread_le input middle rest outcome)

/-- On a proper prefix of a complete input a lawful reader waits, for no more than is missing. -/
theorem Lawful.needs_of_prefix {reader : Reader Error Symbol Value} (lawful : Lawful reader)
    {part rest : List Symbol} {value : Value} (whole : reader (part ++ rest) = .done value [])
    (missing : rest ≠ []) : ∃ count, reader part = .need count ∧ count ≤ rest.length := by
  cases outcome : reader part with
  | need count =>
      refine ⟨count, rfl, ?_⟩
      by_contra more
      rw [lawful.need_append part count rest outcome (by omega)] at whole
      cases whole
  | fail error =>
      rw [lawful.fail_append part error rest outcome] at whole
      cases whole
  | done early unread =>
      rw [lawful.done_append part early unread rest outcome] at whole
      injection whole with _ nothing
      exact absurd (List.append_eq_nil_iff.mp nothing).2 missing

end UdpForwarder.Reader
