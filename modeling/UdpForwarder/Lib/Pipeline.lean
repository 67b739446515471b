import Mathlib.Data.List.Basic

/-! Pipelines of partial conversions, and the pipelines that undo them. -/

namespace UdpForwarder.Pipeline

variable {Stage Datum : Type*}

/-- Every stage acts on what the stage before it returned; the first failure is the result. -/
def along (act : Stage → Datum → Option Datum) (stages : List Stage) (datum : Datum) :
    Option Datum :=
  stages.foldlM (fun datum stage => act stage datum) datum

variable {act undo : Stage → Datum → Option Datum}

@[simp] theorem along_nil (datum : Datum) : along act [] datum = some datum := rfl

@[simp] theorem along_cons (stage : Stage) (stages : List Stage) (datum : Datum) :
    along act (stage :: stages) datum = (act stage datum).bind (along act stages) := by
  simp only [along, List.foldlM_cons]
  rfl

theorem along_append (front back : List Stage) (datum : Datum) :
    along act (front ++ back) datum = (along act front datum).bind (along act back) := by
  induction front generalizing datum with
  | nil => rfl
  | cons stage front ih =>
      rw [List.cons_append, along_cons, along_cons, Option.bind_assoc]
      congr 1
      funext middle
      exact ih middle

/-- Stages that are undone one by one are undone together in the opposite order. -/
theorem along_undone {stages : List Stage}
    (undone : ∀ stage ∈ stages, ∀ datum, (act stage datum).bind (undo stage) = some datum)
    (datum : Datum) : (along act stages datum).bind (along undo stages.reverse) = some datum := by
  induction stages generalizing datum with
  | nil => rfl
  | cons stage stages ih =>
      have head := undone stage (by simp) datum
      rcases Option.bind_eq_some_iff.mp head with ⟨middle, converted, back⟩
      have rest := ih (fun other member => undone other (List.mem_cons_of_mem _ member)) middle
      rcases Option.bind_eq_some_iff.mp rest with ⟨last, forward, backward⟩
      have single : along undo [stage] middle = some datum := by
        rw [along_cons, back]
        rfl
      rw [along_cons, converted, Option.bind_some, forward, Option.bind_some, List.reverse_cons,
        along_append, backward, Option.bind_some, single]

theorem along_grows {size : Datum → ℕ} {growth : ℕ} {stages : List Stage}
    (grows : ∀ stage ∈ stages, ∀ datum, ∃ result, act stage datum = some result ∧
      size result ≤ size datum + growth) (datum : Datum) :
    ∃ result, along act stages datum = some result ∧
      size result ≤ size datum + growth * stages.length := by
  induction stages generalizing datum with
  | nil => exact ⟨datum, rfl, Nat.le_add_right _ _⟩
  | cons stage stages ih =>
      rcases grows stage List.mem_cons_self datum with ⟨middle, converted, first⟩
      rcases ih (fun other member => grows other (List.mem_cons_of_mem _ member)) middle with
        ⟨result, rest, later⟩
      refine ⟨result, ?_, ?_⟩
      · rw [along_cons, converted, Option.bind_some, rest]
      · rw [List.length_cons, Nat.mul_succ]
        omega

theorem along_map {Other : Type*} (rename : Other → Stage) (stages : List Other) (datum : Datum) :
    along act (stages.map rename) datum = along (fun stage => act (rename stage)) stages datum := by
  rw [along, along, List.foldlM_map]

end UdpForwarder.Pipeline
