/-
HomeWarranty.Claims.StatusFilter — the statuses that the claims dashboard
shows.

They are kept in the session. A click on a status turns it on or off, two
links turn all on or off, and the first visit of the dashboard turns all
on that are active at that time. The statuses themselves may change
meanwhile; what the session holds does not follow them.

`shown_by_toggles` says what a staff member sees after any run of clicks:
the claims whose status was on at the last time all statuses were set and
was clicked an even number of times since, or was off and was clicked an
odd number of times.
-/
import Mathlib.Algebra.Group.Nat.Even
import Mathlib.Logic.Lemmas
import HomeWarranty.Admin.Paginator

namespace HomeWarranty.Claims

open Lib Ruby Admin

/-! ## The session -/

/-- The statuses, and the numbers that the session holds. -/
structure StatusFilter where
  statuses : Table StatusRow
  chosen : Option (List (Option Int))

/-- `Claim.statuses.collect { |k,v| v }`. -/
def StatusFilter.active (s : StatusFilter) : List (Option Int) :=
  (s.statuses.rows.filter fun r => r.active == some true).map StatusRow.csid

inductive FilterRequest where
  | dashboard
  | toggle (statusId : Option String)
  | select (type : Option String)
  /-- The statuses are edited. -/
  | edit (statuses : Table StatusRow)

/-- `current_active_statuses`. -/
def toggle (k : Int) (chosen : List (Option Int)) : List (Option Int) :=
  (if chosen.contains (some k) then chosen.filter (· != some k) else chosen ++ [some k]).eraseDups

/-- `ClaimsController`. -/
def StatusFilter.step (s : StatusFilter) : FilterRequest → StatusFilter
  | .dashboard => { s with chosen := some (s.chosen.getD s.active) }
  | .toggle statusId => { s with chosen := some (toggle (toIOpt statusId) (s.chosen.getD [])) }
  | .select type =>
      if type = some "select_all" then { s with chosen := some s.active }
      else if type = some "unselect_all" then { s with chosen := some [] }
      else s
  | .edit statuses => { s with statuses := statuses }

/-- What the dashboard lists, over all of its pages. -/
def StatusFilter.dashboardClaims {δ : Type} (s : StatusFilter) (o : Arrangement (ListedClaim δ))
    (claims : List (ListedClaim δ)) : List (ListedClaim δ) :=
  o.order (claims.filter fun c =>
    c.statusCode.isSome && (s.chosen.getD s.active).contains c.statusCode)

/-! ## One click -/

theorem mem_toggle {k j : Int} {chosen : List (Option Int)} :
    some j ∈ toggle k chosen ↔ if j = k then some j ∉ chosen else some j ∈ chosen := by
  unfold toggle
  rw [List.mem_eraseDups]
  by_cases hin : chosen.contains (some k)
  · rw [if_pos hin, List.mem_filter]
    by_cases hj : j = k
    · subst hj
      simpa using hin
    · simp [hj]
  · rw [if_neg hin, List.mem_append]
    by_cases hj : j = k
    · subst hj
      simpa using hin
    · simp [hj]

/-! ## Runs -/

/-- What a request sets all statuses to, if it does. -/
def FilterRequest.sets (s : StatusFilter) : FilterRequest → Option (List (Option Int))
  | .dashboard => if s.chosen = none then some s.active else none
  | .toggle _ => none
  | .select type =>
      if type = some "select_all" then some s.active
      else if type = some "unselect_all" then some []
      else none
  | .edit _ => none

/-- A request that cannot set all statuses once the session has some. -/
def FilterRequest.Gradual : FilterRequest → Prop
  | .select type => type ≠ some "select_all" ∧ type ≠ some "unselect_all"
  | _ => True

/-- The clicks on a status. -/
def clicks (k : Int) (es : List FilterRequest) : Nat :=
  es.countP fun e =>
    match e with
    | .toggle statusId => toIOpt statusId == k
    | _ => false

theorem chosen_of_sets {s : StatusFilter} {e : FilterRequest} {base : List (Option Int)}
    (h : e.sets s = some base) : (s.step e).chosen = some base := by
  cases e with
  | dashboard =>
      cases hchosen : s.chosen with
      | none => simpa [FilterRequest.sets, StatusFilter.step, hchosen] using h
      | some l => simp [FilterRequest.sets, hchosen] at h
  | toggle statusId => cases h
  | select type =>
      simp only [FilterRequest.sets] at h
      simp only [StatusFilter.step]
      split_ifs at h ⊢ with hall hnone
      · exact h
      · exact h
  | edit statuses => cases h

/-- One step: the status is on as before, unless it was clicked. -/
theorem mem_step {s : StatusFilter} {chosen : List (Option Int)} (hs : s.chosen = some chosen)
    {e : FilterRequest} (he : e.Gradual) (k : Int) :
    ∃ after, (s.step e).chosen = some after ∧
      (some k ∈ after ↔ (some k ∈ chosen ↔ Even (clicks k [e]))) := by
  cases e with
  | dashboard => exact ⟨chosen, by simp [StatusFilter.step, hs], by simp [clicks]⟩
  | toggle statusId =>
      refine ⟨toggle (toIOpt statusId) chosen, by simp [StatusFilter.step, hs], ?_⟩
      rw [mem_toggle]
      by_cases hk : k = toIOpt statusId
      · simp [clicks, hk]
      · simp [clicks, hk, Ne.symm hk]
  | select type =>
      refine ⟨chosen, ?_, by simp [clicks]⟩
      rw [StatusFilter.step, if_neg he.1, if_neg he.2, hs]
  | edit statuses => exact ⟨chosen, hs, by simp [clicks]⟩

theorem clicks_cons (k : Int) (e : FilterRequest) (es : List FilterRequest) :
    clicks k (e :: es) = clicks k [e] + clicks k es := by
  rw [clicks, ← List.singleton_append, List.countP_append]
  rfl

/-- A run: a status is on when it was on at first and was clicked an
even number of times, or was off and was clicked an odd number. -/
theorem mem_run {s : StatusFilter} {chosen : List (Option Int)} (hs : s.chosen = some chosen)
    {es : List FilterRequest} (hes : ∀ e ∈ es, e.Gradual) (k : Int) :
    ∃ after, (run StatusFilter.step s es).chosen = some after ∧
      (some k ∈ after ↔ (some k ∈ chosen ↔ Even (clicks k es))) := by
  induction es generalizing s chosen with
  | nil => exact ⟨chosen, hs, by simp [clicks]⟩
  | cons e es ih =>
      obtain ⟨between, hbetween, hstep⟩ := mem_step hs (hes e (by simp)) k
      obtain ⟨after, hafter, hrest⟩ := ih hbetween fun d hd => hes d (by simp [hd])
      refine ⟨after, hafter, ?_⟩
      rw [hrest, hstep, clicks_cons k e es, Nat.even_add]
      exact iff_assoc

/-- After all statuses were set, and whatever was clicked and edited
since, the dashboard lists a claim exactly when its status was set and
clicked an even number of times, or not set and clicked an odd one. -/
theorem shown_by_toggles {δ : Type} {s : StatusFilter} {first : FilterRequest}
    {base : List (Option Int)} (hfirst : first.sets s = some base) {es : List FilterRequest}
    (hes : ∀ e ∈ es, e.Gradual) (o : Arrangement (ListedClaim δ)) (claims : List (ListedClaim δ)) :
    ∀ c ∈ claims,
      c ∈ (run StatusFilter.step s (first :: es)).dashboardClaims o claims ↔
        ∃ k : Int, c.statusCode = some k ∧ (some k ∈ base ↔ Even (clicks k es)) := by
  intro c hc
  have hmem : c ∈ (run StatusFilter.step s (first :: es)).dashboardClaims o claims ↔
      c.statusCode.isSome = true ∧
        c.statusCode ∈ ((run StatusFilter.step s (first :: es)).chosen.getD
          (run StatusFilter.step s (first :: es)).active) := by
    rw [StatusFilter.dashboardClaims, (o.perm _).mem_iff, List.mem_filter, Bool.and_eq_true,
      List.contains_iff_mem]
    exact and_iff_right hc
  rw [hmem]
  cases hcode : c.statusCode with
  | none => simp
  | some k =>
      obtain ⟨after, hafter, hk⟩ := mem_run (chosen_of_sets hfirst) hes k
      rw [run_cons, hafter]
      simp [hk]

/-- Two statuses, and one that is not in use. -/
def claimStatuses : Table StatusRow :=
  .ofRows [⟨0, some 4, some "Disp", some "Contractor Dispatched", some true, none⟩,
    ⟨0, some 12, some "Paid", some "Paid", some true, none⟩,
    ⟨0, some 15, some "Ineffective", some "Ineffective", some false, none⟩]

/-- The dashboard is opened, and one status is clicked twice, the other
once. -/
theorem paid_claims_hidden :
    (⟨1, some 4, ()⟩ : ListedClaim Unit) ∈ (run StatusFilter.step ⟨claimStatuses, none⟩
        [.dashboard, .toggle (some "4"), .toggle (some "12"), .toggle (some "4")]).dashboardClaims
      (asTheyStand _) [⟨1, some 4, ()⟩, ⟨2, some 12, ()⟩] ∧
    (⟨2, some 12, ()⟩ : ListedClaim Unit) ∉ (run StatusFilter.step ⟨claimStatuses, none⟩
        [.dashboard, .toggle (some "4"), .toggle (some "12"), .toggle (some "4")]).dashboardClaims
      (asTheyStand _) [⟨1, some 4, ()⟩, ⟨2, some 12, ()⟩] := by
  have hshown := @shown_by_toggles Unit ⟨claimStatuses, none⟩ .dashboard [some 4, some 12] rfl
    [.toggle (some "4"), .toggle (some "12"), .toggle (some "4")]
    (by simp [FilterRequest.Gradual]) (asTheyStand _) [⟨1, some 4, ()⟩, ⟨2, some 12, ()⟩]
  constructor
  · exact (hshown _ (by simp)).mpr ⟨4, rfl, by decide +kernel⟩
  · intro hpaid
    obtain ⟨k, hk, hiff⟩ := (hshown _ (by simp)).mp hpaid
    obtain rfl := Option.some.inj hk
    exact absurd hiff (by decide +kernel)

end HomeWarranty.Claims
