/-
HomeWarranty.Lib.Interleave — processes that share a state, under every
schedule.

A process step reads and writes the shared state and moves the process
on; `none` says that the process has ended. A schedule is the list of
process numbers in the order in which they take their steps, so a
theorem about every schedule is a theorem about every interleaving.

The rules the module is for are CONSERVATION and its weaker form, a
BOUND (`exec_le`). When each step of a schedule changes a quantity of the
shared state by exactly what it adds to a quantity of the process that
takes it, the shared quantity is its initial value plus what the
processes have added (`conserve_of_steps`).

What at most one process may hold is `Exclusive`; a step keeps it when
what its process takes hold of is held by no other.

A process that runs without interruption (`alone`) is one of the
schedules (`exec_replicate`).
-/
import Mathlib.Algebra.BigOperators.Group.List.Basic
import Mathlib.Tactic.Abel
import HomeWarranty.Lib.Run

namespace HomeWarranty.Lib

universe u v

variable {σ : Type u} {π : Type v}

/-! ## Systems and schedules -/

/-- A shared state and the processes that run on it. -/
structure Sys (σ : Type u) (π : Type v) where
  shared : σ
  procs : List π

/-- Process `i` takes one step; nothing happens when there is no such
process or when it has ended. -/
def Sys.stepAt (step : σ → π → Option (σ × π)) (sys : Sys σ π) (i : Nat) :
    Sys σ π :=
  match sys.procs[i]? with
  | none => sys
  | some p =>
      match step sys.shared p with
      | none => sys
      | some (s', p') => { shared := s', procs := sys.procs.set i p' }

/-- The system after a schedule. -/
def Sys.exec (step : σ → π → Option (σ × π)) (sys : Sys σ π)
    (schedule : List Nat) : Sys σ π :=
  run (Sys.stepAt step) sys schedule

theorem Sys.stepAt_eq_self {step : σ → π → Option (σ × π)} {sys : Sys σ π}
    {i : Nat} (h : ∀ p, sys.procs[i]? = some p → step sys.shared p = none) :
    sys.stepAt step i = sys := by
  unfold Sys.stepAt
  cases hp : sys.procs[i]? with
  | none => rfl
  | some p => simp only [h p hp]

theorem Sys.stepAt_of_step {step : σ → π → Option (σ × π)} {sys : Sys σ π}
    {i : Nat} {p q : π} {t : σ} (hp : sys.procs[i]? = some p)
    (hs : step sys.shared p = some (t, q)) :
    sys.stepAt step i = { shared := t, procs := sys.procs.set i q } := by
  simp only [Sys.stepAt, hp, hs]

/-- Every scheduled step either does nothing or is a step of one
process. -/
theorem Sys.stepAt_cases (step : σ → π → Option (σ × π)) (sys : Sys σ π)
    (i : Nat) :
    sys.stepAt step i = sys ∨
      ∃ p s' p', sys.procs[i]? = some p ∧ step sys.shared p = some (s', p') ∧
        sys.stepAt step i = { shared := s', procs := sys.procs.set i p' } := by
  cases hp : sys.procs[i]? with
  | none => exact Or.inl (Sys.stepAt_eq_self (by simp [hp]))
  | some p =>
      cases hs : step sys.shared p with
      | none =>
          refine Or.inl (Sys.stepAt_eq_self fun q hq => ?_)
          rw [hp] at hq
          cases hq
          exact hs
      | some sp =>
          exact Or.inr ⟨p, sp.1, sp.2, rfl, hs, Sys.stepAt_of_step hp hs⟩

/-! ## A process on its own -/

/-- Up to `k` steps of one process with nothing in between. -/
def alone (step : σ → π → Option (σ × π)) : Nat → σ → π → σ × π
  | 0, s, p => (s, p)
  | k + 1, s, p =>
      match step s p with
      | none => (s, p)
      | some (s', p') => alone step k s' p'

theorem alone_succ {step : σ → π → Option (σ × π)} {s t : σ} {p q : π} (k : Nat)
    (h : step s p = some (t, q)) : alone step (k + 1) s p = alone step k t q := by
  simp only [alone, h]

theorem alone_of_ended {step : σ → π → Option (σ × π)} {s : σ} {p : π}
    (h : step s p = none) : ∀ k, alone step k s p = (s, p)
  | 0 => rfl
  | k + 1 => by simp only [alone, h]

/-- What every step keeps, a process on its own keeps. -/
theorem alone_invariant {step : σ → π → Option (σ × π)} (I : σ → π → Prop)
    (hstep : ∀ s p s' p', I s p → step s p = some (s', p') → I s' p') :
    ∀ (k : Nat) (s : σ) (p : π), I s p → I (alone step k s p).1 (alone step k s p).2 := by
  intro k
  induction k with
  | zero => intro s p h; exact h
  | succ k ih =>
      intro s p h
      cases hs : step s p with
      | none => rw [alone_of_ended hs]; exact h
      | some sp =>
          rw [alone_succ k hs]
          exact ih sp.1 sp.2 (hstep s p sp.1 sp.2 h hs)

/-- A schedule may run a process on its own. -/
theorem Sys.exec_replicate (step : σ → π → Option (σ × π)) :
    ∀ (k : Nat) (sys : Sys σ π) (i : Nat) (p : π), sys.procs[i]? = some p →
      sys.exec step (List.replicate k i) =
        { shared := (alone step k sys.shared p).1,
          procs := sys.procs.set i (alone step k sys.shared p).2 } := by
  intro k
  induction k with
  | zero =>
      intro sys i p h
      obtain ⟨hlt, hp⟩ := List.getElem?_eq_some_iff.mp h
      subst hp
      simp [Sys.exec, alone]
  | succ k ih =>
      intro sys i p h
      obtain ⟨hlt, hp⟩ := List.getElem?_eq_some_iff.mp h
      rw [List.replicate_succ]
      cases hs : step sys.shared p with
      | none =>
          have hself : sys.stepAt step i = sys := by
            refine Sys.stepAt_eq_self fun q hq => ?_
            rw [h] at hq
            cases hq
            exact hs
          have hrest := ih sys i p h
          rw [alone_of_ended hs] at hrest ⊢
          simp only [Sys.exec, run_cons, hself] at hrest ⊢
          exact hrest
      | some sp =>
          have hstep := Sys.stepAt_of_step (q := sp.2) (t := sp.1) h hs
          have hrest := ih
            { shared := sp.1, procs := sys.procs.set i sp.2 } i sp.2 (by simp [hlt])
          rw [alone_succ k hs]
          simp only [Sys.exec, run_cons, hstep] at hrest ⊢
          rw [hrest]
          simp

/-! ## Invariants -/

/-- One scheduled step keeps a shared invariant and an invariant of the
processes, when a process step keeps both for all of them. -/
theorem Sys.stepAt_invariant {step : σ → π → Option (σ × π)}
    {I : σ → Prop} {J : σ → π → Prop}
    (hstep : ∀ s p s' p', I s → J s p → step s p = some (s', p') →
      I s' ∧ J s' p' ∧ ∀ q, J s q → J s' q)
    (sys : Sys σ π) (i : Nat)
    (h : I sys.shared ∧ ∀ p ∈ sys.procs, J sys.shared p) :
    I (sys.stepAt step i).shared ∧
      ∀ p ∈ (sys.stepAt step i).procs, J (sys.stepAt step i).shared p := by
  obtain ⟨hI, hJ⟩ := h
  rcases Sys.stepAt_cases step sys i with h | ⟨p, s', p', hp, hs, h⟩
  · rw [h]; exact ⟨hI, hJ⟩
  · obtain ⟨h1, h2, h3⟩ :=
      hstep sys.shared p s' p' hI (hJ p (List.mem_of_getElem? hp)) hs
    rw [h]
    refine ⟨h1, fun q hq => ?_⟩
    rcases List.mem_or_eq_of_mem_set hq with hq | rfl
    · exact h3 q (hJ q hq)
    · exact h2

/-! ## Exclusion -/

/-- No two processes hold the same thing. -/
def Exclusive {κ : Type*} (holds : π → Option κ) (ps : List π) : Prop :=
  ∀ (i j : Nat) (p q : π), ps[i]? = some p → ps[j]? = some q →
    ∀ k, holds p = some k → holds q = some k → i = j

theorem exclusive_of_none {κ : Type*} {holds : π → Option κ} {ps : List π}
    (h : ∀ p ∈ ps, holds p = none) : Exclusive holds ps := by
  intro i j p q hp _ k hk _
  rw [h p (List.mem_of_getElem? hp)] at hk
  cases hk

theorem getElem?_set_cases {ps : List π} {i j : Nat} {p' q : π}
    (h : (ps.set i p')[j]? = some q) : (j = i ∧ q = p') ∨ (j ≠ i ∧ ps[j]? = some q) := by
  rw [List.getElem?_set] at h
  split at h
  · rename_i hij
    split at h
    · exact Or.inl ⟨hij.symm, (Option.some.inj h).symm⟩
    · cases h
  · rename_i hij
    exact Or.inr ⟨fun e => hij e.symm, h⟩

/-- A process may keep what it holds and take hold of what nobody
holds. -/
theorem Exclusive.set {κ : Type*} {holds : π → Option κ} {ps : List π}
    (h : Exclusive holds ps) {i : Nat} {p p' : π} (hi : ps[i]? = some p)
    (hnew : ∀ k, holds p' = some k → holds p = some k ∨ ∀ q ∈ ps, holds q ≠ some k) :
    Exclusive holds (ps.set i p') := by
  -- what the process at `i` holds now against what a process elsewhere holds
  have key : ∀ (j : Nat) (q : π), j ≠ i → ps[j]? = some q →
      ∀ k, holds p' = some k → holds q ≠ some k := by
    intro j q hj hq k hk hqk
    rcases hnew k hk with hold | hfree
    · exact hj (h j i q p hq hi k hqk hold)
    · exact hfree q (List.mem_of_getElem? hq) hqk
  intro a b x y hx hy k hkx hky
  rcases getElem?_set_cases hx with ⟨rfl, rfl⟩ | ⟨ha, hxa⟩ <;>
    rcases getElem?_set_cases hy with ⟨rfl, rfl⟩ | ⟨hb, hyb⟩
  · rfl
  · exact absurd hky (key b y hb hyb k hkx)
  · exact absurd hkx (key a x ha hxa k hky)
  · exact h a b x y hxa hyb k hkx hky

/-! ## Conservation -/

variable {M : Type*} [AddCommMonoid M]

/-- Replacing one summand. -/
theorem sum_map_set (c : π → M) (ps : List π) (i : Nat) (p p' : π)
    (h : ps[i]? = some p) :
    ((ps.set i p').map c).sum + c p = (ps.map c).sum + c p' := by
  induction ps generalizing i with
  | nil => simp at h
  | cons q ps ih =>
      cases i with
      | zero =>
          simp only [List.getElem?_cons_zero, Option.some.injEq] at h
          subst h
          simp only [List.set_cons_zero, List.map_cons, List.sum_cons]
          abel
      | succ i =>
          simp only [List.getElem?_cons_succ] at h
          simp only [List.set_cons_succ, List.map_cons, List.sum_cons, add_assoc]
          rw [ih i h]

variable [IsCancelAdd M]

/-- **Conservation under a condition**: when every scheduled step that
meets `ok` moves the shared quantity by what it adds to its process, the
two totals stay in balance along every schedule all of whose steps meet
`ok`. -/
theorem Sys.conserve_of_steps {step : σ → π → Option (σ × π)} {q : σ → M}
    {c : π → M} (ok : σ → π → Prop)
    (hstep : ∀ s p s' p', ok s p → step s p = some (s', p') →
      q s' + c p = q s + c p')
    (sys : Sys σ π) (schedule : List Nat)
    (hok : StepsOk (Sys.stepAt step)
      (fun t i => ∀ p, t.procs[i]? = some p → ok t.shared p) sys schedule) :
    q (sys.exec step schedule).shared + (sys.procs.map c).sum =
      q sys.shared + ((sys.exec step schedule).procs.map c).sum := by
  refine run_invariant_of_steps
    (fun t : Sys σ π =>
      q t.shared + (sys.procs.map c).sum = q sys.shared + (t.procs.map c).sum)
    ?_ schedule sys hok rfl
  intro t i hinv hi
  rcases Sys.stepAt_cases step t i with h | ⟨p, s', p', hp, hs, h⟩
  · rw [h]; exact hinv
  · have hq := hstep t.shared p s' p' (hi p hp) hs
    have hc := sum_map_set c t.procs i p p' hp
    rw [h]
    -- both sides agree after adding `c p`, and `M` cancels
    refine add_right_cancel (b := c p) ?_
    calc q s' + (sys.procs.map c).sum + c p
        = (q s' + c p) + (sys.procs.map c).sum := by abel
      _ = (q t.shared + (sys.procs.map c).sum) + c p' := by rw [hq]; abel
      _ = q sys.shared + ((t.procs.map c).sum + c p') := by rw [hinv]; abel
      _ = q sys.shared + ((t.procs.set i p').map c).sum + c p := by
          rw [← hc]; abel

/-! ## Bounds -/

/-- **Bound**: each process holds what it may still add to a shared
quantity, and every step adds at most what its process gives up. Then
the quantity stays below its initial value plus what the processes held
at the start. -/
theorem Sys.exec_le {step : σ → π → Option (σ × π)} {I : σ → Prop} {J : σ → π → Prop}
    {q : σ → Nat} {c : π → Nat}
    (hinv : ∀ s p s' p', I s → J s p → step s p = some (s', p') →
      I s' ∧ J s' p' ∧ ∀ r, J s r → J s' r)
    (hstep : ∀ s p s' p', I s → J s p → step s p = some (s', p') →
      q s' + c p' ≤ q s + c p)
    (sys : Sys σ π) (schedule : List Nat)
    (h : I sys.shared ∧ ∀ p ∈ sys.procs, J sys.shared p) :
    q (sys.exec step schedule).shared ≤ q sys.shared + (sys.procs.map c).sum := by
  suffices hall : (I (sys.exec step schedule).shared ∧
      ∀ p ∈ (sys.exec step schedule).procs, J (sys.exec step schedule).shared p) ∧
      q (sys.exec step schedule).shared + ((sys.exec step schedule).procs.map c).sum
        ≤ q sys.shared + (sys.procs.map c).sum from
    Nat.le_trans (Nat.le_add_right _ _) hall.2
  refine run_invariant
    (fun t : Sys σ π => (I t.shared ∧ ∀ p ∈ t.procs, J t.shared p) ∧
      q t.shared + (t.procs.map c).sum ≤ q sys.shared + (sys.procs.map c).sum)
    ?_ schedule sys ⟨h, Nat.le_refl _⟩
  intro t i ⟨ht, hle⟩
  refine ⟨Sys.stepAt_invariant hinv t i ht, ?_⟩
  rcases Sys.stepAt_cases step t i with hs | ⟨p, s', p', hp, hstep', hs⟩
  · rw [hs]; exact hle
  · have h1 := hstep t.shared p s' p' ht.1 (ht.2 p (List.mem_of_getElem? hp)) hstep'
    have h2 := sum_map_set c t.procs i p p' hp
    rw [hs]
    show q s' + ((t.procs.set i p').map c).sum ≤ _
    omega

end HomeWarranty.Lib
