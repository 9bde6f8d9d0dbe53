/-
HomeWarranty.Lib.Loop — `while` loops.

`whileLoop` runs a loop for a number of rounds at most and is `none` when
these are not enough; a loop that `Returns` a state does so from some
number of rounds on, and returns no other (`Returns.unique`).

There is one rule for each way a loop can go. A variant that decreases
under an invariant bounds the rounds, so the loop returns and the
invariant holds where it does (`returns_of_variant`); an invariant under
which the condition holds keeps it from returning (`not_returns`).
-/
import Mathlib.Data.Nat.Init

namespace HomeWarranty.Lib

section
variable {σ : Type} (cond : σ → Bool) (body : σ → σ)

/-- `while cond do body end`, for a number of rounds at most. -/
def whileLoop : Nat → σ → Option σ
  | 0, s => if cond s then none else some s
  | rounds + 1, s => if cond s then whileLoop rounds (body s) else some s

def Returns (s t : σ) : Prop := ∃ rounds, whileLoop cond body rounds s = some t

variable {cond body} {s t u : σ}

theorem whileLoop_of_false (h : cond s = false) (rounds : Nat) :
    whileLoop cond body rounds s = some s := by
  cases rounds with
  | zero => rw [whileLoop, h, if_neg Bool.false_ne_true]
  | succ rounds => rw [whileLoop, h, if_neg Bool.false_ne_true]

theorem whileLoop_succ_of_true (h : cond s = true) (rounds : Nat) :
    whileLoop cond body (rounds + 1) s = whileLoop cond body rounds (body s) := by
  rw [whileLoop, if_pos h]

theorem returns_of_false (h : cond s = false) : Returns cond body s s :=
  ⟨0, whileLoop_of_false h 0⟩

/-- One round more. -/
theorem returns_of_true (h : cond s = true) (hreturns : Returns cond body (body s) t) :
    Returns cond body s t := by
  obtain ⟨rounds, hrounds⟩ := hreturns
  exact ⟨rounds + 1, by rw [whileLoop_succ_of_true h, hrounds]⟩

/-- More rounds change nothing. -/
theorem whileLoop_more {m n : Nat} (hle : m ≤ n) (h : whileLoop cond body m s = some t) :
    whileLoop cond body n s = some t := by
  induction m generalizing n s with
  | zero =>
      cases hcond : cond s with
      | false => rwa [whileLoop_of_false hcond] at h ⊢
      | true =>
          rw [whileLoop, if_pos hcond] at h
          cases h
  | succ m ih =>
      cases hcond : cond s with
      | false => rwa [whileLoop_of_false hcond] at h ⊢
      | true =>
          obtain ⟨n, rfl⟩ : ∃ k, n = k + 1 := ⟨n - 1, by omega⟩
          rw [whileLoop_succ_of_true hcond] at h ⊢
          exact ih (Nat.le_of_succ_le_succ hle) h

theorem Returns.unique (ht : Returns cond body s t) (hu : Returns cond body s u) : t = u := by
  obtain ⟨m, hm⟩ := ht
  obtain ⟨n, hn⟩ := hu
  have hm' := whileLoop_more (Nat.le_max_left m n) hm
  have hn' := whileLoop_more (Nat.le_max_right m n) hn
  exact Option.some.inj (hm'.symm.trans hn')

/-! ## Rules -/

section
variable (I : σ → Prop)

/-- A loop whose variant decreases under its invariant returns. -/
theorem returns_of_variant (variant : σ → Nat)
    (hround : ∀ s, I s → cond s = true → I (body s) ∧ variant (body s) < variant s) (h : I s) :
    ∃ t, Returns cond body s t ∧ I t ∧ cond t = false := by
  induction hv : variant s using Nat.strongRecOn generalizing s with
  | ind v ih =>
  cases hcond : cond s with
  | false => exact ⟨s, returns_of_false hcond, h, hcond⟩
  | true =>
      obtain ⟨hinv, hless⟩ := hround s h hcond
      obtain ⟨t, hreturns, hend⟩ := ih (variant (body s)) (hv ▸ hless) hinv rfl
      exact ⟨t, returns_of_true hcond hreturns, hend⟩

/-- A loop whose condition always holds does not return. -/
theorem not_returns (hround : ∀ s, I s → cond s = true ∧ I (body s)) (h : I s) :
    ¬ ∃ t, Returns cond body s t := by
  rintro ⟨t, rounds, hrounds⟩
  induction rounds generalizing s with
  | zero =>
      rw [whileLoop, if_pos (hround s h).1] at hrounds
      cases hrounds
  | succ rounds ih =>
      rw [whileLoop_succ_of_true (hround s h).1] at hrounds
      exact ih (hround s h).2 hrounds

end

end

end HomeWarranty.Lib
