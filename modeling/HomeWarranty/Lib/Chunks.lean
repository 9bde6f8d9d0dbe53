/-
HomeWarranty.Lib.Chunks — a list cut into runs of `n` elements, and the
runs put together again with a separator between them.

The runs are the list, and all but the last one are full (`cut_chunks`).
With separators they are the list only if there is one run at most
(`spread_eq_self_iff`), and a list that is too long for one run is too
long for one afterwards (`length_le_spread`), so spreading it again makes
it longer again.
-/
import Mathlib.Data.List.Basic

namespace HomeWarranty.Lib

section
variable {α : Type}

/-- Runs of `n` elements; the last one may be shorter. -/
def chunks (n : Nat) (l : List α) : List (List α) :=
  if _h : n = 0 ∨ l = [] then [] else l.take n :: chunks n (l.drop n)
termination_by l.length
decreasing_by
  have hl := List.length_pos_of_ne_nil (not_or.mp _h).2
  rw [List.length_drop]
  omega

/-- The parts make up the list; they have `n` elements, the last one may
have fewer. -/
structure Cut (n : Nat) (l : List α) (parts : List (List α)) : Prop where
  flatten : parts.flatten = l
  length : ∀ part ∈ parts, part ≠ [] ∧ part.length ≤ n
  full : ∀ part ∈ parts.dropLast, part.length = n

/-- The runs with a separator between them. -/
def spread (sep : α) (n : Nat) (l : List α) : List α := [sep].intercalate (chunks n l)

theorem chunks_nil (n : Nat) : chunks n ([] : List α) = [] := by
  rw [chunks]
  simp

section
variable {n : Nat} (hn : 0 < n)
include hn

theorem chunks_cons {l : List α} (hl : l ≠ []) : chunks n l = l.take n :: chunks n (l.drop n) := by
  rw [chunks, dif_neg]
  rw [not_or]
  exact ⟨by omega, hl⟩

theorem chunks_of_length_le {l : List α} (hl : l ≠ []) (h : l.length ≤ n) : chunks n l = [l] := by
  rw [chunks_cons hn hl, List.take_of_length_le h, List.drop_of_length_le h, chunks_nil]

/-- What holds of the empty list, and of a list when it holds of what
follows its first run, holds of every list. -/
theorem chunks_induction {P : List α → Prop} (nil : P [])
    (cons : ∀ l, l ≠ [] → P (l.drop n) → P l) (l : List α) : P l := by
  induction hlen : l.length using Nat.strongRecOn generalizing l with
  | ind k ih =>
  by_cases hl : l = []
  · rwa [hl]
  · have hpos := List.length_pos_of_ne_nil hl
    refine cons l hl (ih _ ?_ _ rfl)
    rw [List.length_drop]
    omega

/-- Nothing is lost. -/
theorem flatten_chunks (l : List α) : (chunks n l).flatten = l := by
  induction l using chunks_induction hn with
  | nil =>
      rw [chunks_nil]
      rfl
  | cons l hl ih => rw [chunks_cons hn hl, List.flatten_cons, ih, List.take_append_drop]

theorem chunks_ne_nil {l : List α} (hl : l ≠ []) : chunks n l ≠ [] := by
  rw [chunks_cons hn hl]
  exact List.cons_ne_nil _ _

/-- No run is empty or too long. -/
theorem length_of_mem_chunks (l : List α) : ∀ run ∈ chunks n l, run ≠ [] ∧ run.length ≤ n := by
  induction l using chunks_induction hn with
  | nil => simp [chunks_nil]
  | cons l hl ih =>
      rw [chunks_cons hn hl, List.forall_mem_cons]
      refine ⟨⟨?_, List.length_take_le n l⟩, ih⟩
      rw [Ne, List.take_eq_nil_iff, not_or]
      exact ⟨by omega, hl⟩

/-- Only the last run may be short. -/
theorem length_of_mem_dropLast_chunks (l : List α) :
    ∀ run ∈ (chunks n l).dropLast, run.length = n := by
  induction l using chunks_induction hn with
  | nil => simp [chunks_nil]
  | cons l hl ih =>
      rw [chunks_cons hn hl]
      by_cases hrest : l.drop n = []
      · simp [hrest, chunks_nil]
      · rw [List.dropLast_cons_of_ne_nil (chunks_ne_nil hn hrest), List.forall_mem_cons]
        have hlong := List.length_pos_of_ne_nil hrest
        rw [List.length_drop] at hlong
        exact ⟨List.length_take_of_le (by omega), ih⟩

theorem cut_chunks (l : List α) : Cut n l (chunks n l) :=
  ⟨flatten_chunks hn l, length_of_mem_chunks hn l, length_of_mem_dropLast_chunks hn l⟩

/-- A longer list has more than one run. -/
theorem one_lt_length_chunks {l : List α} (h : n < l.length) : 1 < (chunks n l).length := by
  have hl : l ≠ [] := List.ne_nil_of_length_pos (by omega)
  have hrest : l.drop n ≠ [] := List.ne_nil_of_length_pos (by rw [List.length_drop]; omega)
  rw [chunks_cons hn hl, chunks_cons hn hrest]
  simp

end

theorem length_intercalate (sep : α) (ls : List (List α)) :
    ([sep].intercalate ls).length = ls.flatten.length + (ls.length - 1) := by
  induction ls with
  | nil => rfl
  | cons l ls ih =>
      cases ls with
      | nil => simp [List.intercalate]
      | cons m ls =>
          rw [List.intercalate_cons_cons, List.length_append, List.length_append, ih]
          simp only [List.flatten_cons, List.length_append, List.length_cons, List.length_nil]
          omega

section
variable {n : Nat} (hn : 0 < n) (sep : α)
include hn

theorem length_spread (l : List α) :
    (spread sep n l).length = l.length + ((chunks n l).length - 1) := by
  rw [spread, length_intercalate, flatten_chunks hn]

theorem length_le_spread (l : List α) : l.length ≤ (spread sep n l).length := by
  rw [length_spread hn]
  omega

/-- A list that fits into one run is left as it is, and no other. -/
theorem spread_eq_self_iff (l : List α) : spread sep n l = l ↔ l.length ≤ n := by
  constructor
  · intro h
    by_contra hlong
    have hlen := length_spread hn sep l
    have hmore := one_lt_length_chunks hn (Nat.not_le.mp hlong)
    rw [h] at hlen
    omega
  · intro h
    by_cases hl : l = []
    · rw [hl, spread, chunks_nil]
      rfl
    · rw [spread, chunks_of_length_le hn hl h]
      simp

end

end

end HomeWarranty.Lib
