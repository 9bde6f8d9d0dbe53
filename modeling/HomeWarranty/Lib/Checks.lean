/-
HomeWarranty.Lib.Checks — a conjunction of conditions and the chain that
says which of them fails.

A condition may raise, and both stop at the first one that does not hold:
`allHold` is the conjunction, `firstFailure` the chain with a message for
each condition and nothing at its end. Where the chain begins with the
conditions of the conjunction, a conjunction that fails makes the chain
name the first condition that is not met, in its own order:
`firstFailure_of_allHold`.
-/
import Mathlib.Data.List.Basic

namespace HomeWarranty.Lib

section
variable {ρ ε μ : Type} (holds : ρ → Except ε Bool)

/-- `a && b && …`. -/
def allHold : List ρ → Except ε Bool
  | [] => .ok true
  | r :: rs =>
      match holds r with
      | .ok true => allHold rs
      | .ok false => .ok false
      | .error e => .error e

/-- `if !a … elsif !b … end`. -/
def firstFailure : List (ρ × μ) → Except ε (Option μ)
  | [] => .ok none
  | (r, m) :: rs =>
      match holds r with
      | .ok true => firstFailure rs
      | .ok false => .ok (some m)
      | .error e => .error e

/-- The message for the first condition that is not met. -/
def firstUnmet (met : ρ → Bool) (rs : List (ρ × μ)) : Option μ :=
  (rs.find? fun r => !met r.1).map Prod.snd

variable {holds}

theorem allHold_true_iff {rs : List ρ} :
    allHold holds rs = .ok true ↔ ∀ r ∈ rs, holds r = .ok true := by
  induction rs with
  | nil => simp [allHold]
  | cons r rs ih =>
      rw [allHold, List.forall_mem_cons]
      cases hr : holds r with
      | error e => simp
      | ok b =>
          cases b with
          | false => simp
          | true => simp [ih]

/-- A conjunction that does not raise has asked its first condition. -/
theorem holds_of_allHold {r : ρ} {rs : List ρ} {b : Bool} (h : allHold holds (r :: rs) = .ok b) :
    ∃ b', holds r = .ok b' := by
  rw [allHold] at h
  cases hr : holds r with
  | error e =>
      rw [hr] at h
      cases h
  | ok b' => exact ⟨b', rfl⟩

/-- Where no condition raises, the conjunction is that of what is met. -/
theorem allHold_of_ok {met : ρ → Bool} {rs : List ρ} (h : ∀ r ∈ rs, holds r = .ok (met r)) :
    allHold holds rs = .ok (rs.all met) := by
  induction rs with
  | nil => rfl
  | cons r rs ih =>
      obtain ⟨hr, hrs⟩ := List.forall_mem_cons.mp h
      rw [allHold, hr, List.all_cons]
      cases met r with
      | false => rfl
      | true => exact ih hrs

/-- A conjunction that fails at its front fails. -/
theorem allHold_append_false {rs : List ρ} (h : allHold holds rs = .ok false) (more : List ρ) :
    allHold holds (rs ++ more) = .ok false := by
  induction rs with
  | nil => cases h
  | cons r rs ih =>
      rw [allHold] at h
      rw [List.cons_append, allHold]
      cases hr : holds r with
      | error e =>
          rw [hr] at h
          cases h
      | ok b =>
          cases b with
          | false => rfl
          | true =>
              rw [hr] at h
              exact ih h

/-- Conditions that hold are passed. -/
theorem allHold_append {rs : List ρ} (h : ∀ r ∈ rs, holds r = .ok true) (more : List ρ) :
    allHold holds (rs ++ more) = allHold holds more := by
  induction rs with
  | nil => rfl
  | cons r rs ih =>
      obtain ⟨hr, hrs⟩ := List.forall_mem_cons.mp h
      rw [List.cons_append, allHold, hr]
      exact ih hrs

section
variable {met : ρ → Bool} (hmet : ∀ r b, holds r = .ok b → met r = b)
include hmet

theorem firstFailure_of_allHold {rs : List (ρ × μ)}
    (h : allHold holds (rs.map Prod.fst) = .ok false) (more : List (ρ × μ)) :
    ∃ m, firstUnmet met (rs ++ more) = some m ∧ firstFailure holds (rs ++ more) = .ok (some m) := by
  induction rs with
  | nil => cases h
  | cons r rs ih =>
      obtain ⟨r, m⟩ := r
      rw [List.map_cons, allHold] at h
      rw [List.cons_append, firstFailure]
      cases hr : holds r with
      | error e =>
          rw [hr] at h
          cases h
      | ok b =>
          have hb := hmet r b hr
          cases b with
          | false => exact ⟨m, by simp [firstUnmet, hb], rfl⟩
          | true =>
              rw [hr] at h
              obtain ⟨m', hunmet, hfailure⟩ := ih h
              refine ⟨m', ?_, hfailure⟩
              rw [← hunmet]
              simp [firstUnmet, hb]

end

end

end HomeWarranty.Lib
