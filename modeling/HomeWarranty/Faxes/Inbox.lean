/-
HomeWarranty.Faxes.Inbox — which faxes the inbox lists after any history.

The inbox lists the faxes without a row in the join table. As an assign
writes its fax and its kind of record but no record (see `Assignment`),
the rows of a fax are only counted: an assign that finds its fax and its
record adds one, and the one request that takes a row away is an unassign
without a record, whose NULL is the NULL that is stored.

`inbox_iff`: a fax is listed exactly when the two counts of its history
are zero. A fax that was assigned is in no list of any customer or
contractor and not in the inbox either, until it is unassigned as often
without naming anybody.
-/
import HomeWarranty.Faxes.Assignment

namespace HomeWarranty.Faxes

open Lib

/-! ## Counts -/

/-- What happens to a count; zero stays zero. -/
inductive Tally where
  | filed
  | unfiled

def Tally.apply (n : Nat) : Tally → Nat
  | .filed => n + 1
  | .unfiled => n - 1

/-- The rows of a fax and a kind of record. -/
def Filing.filedAs (st : Filing) (fax : Nat) (type : AssignableType) : List FaxAssignableJoin :=
  st.joins.rows.filter fun j => j.faxId == some fax && j.assignableType == type

/-- What a request does to the count of a fax that stays. -/
def FaxRequest.tally (known : AssignableType → Nat → Bool) (fax : Nat) (type : AssignableType) :
    FaxRequest → Option Tally
  | .assign fax' type' i =>
      if fax' = fax ∧ type' = type ∧ known type' i = true then some .filed else none
  | .unassign fax' type' i => if fax' = fax ∧ type' = type ∧ i = none then some .unfiled else none
  | .destroy _ => none

/-! ## One request -/

section
variable (known : AssignableType → Nat → Bool)

/-- The rows name a fax and no record, and the fax is there. -/
structure Filing.Nameless (fax : Nat) (st : Filing) : Prop where
  live : (st.faxes.find? fax).isSome = true
  noRecord : ∀ j ∈ st.joins.rows, j.assignableId = none
  hasFax : ∀ j ∈ st.joins.rows, j.faxId ≠ none

variable {known} {st : Filing} {fax : Nat}

/-- A row that is written names its fax. -/
theorem faxId_step {r : FaxRequest} (h : ∀ j ∈ st.joins.rows, j.faxId ≠ none) :
    ∀ j ∈ (st.step known r).joins.rows, j.faxId ≠ none := by
  intro j hj
  cases r with
  | assign fax type i =>
      simp only [Filing.step, Filing.asyncAssign] at hj
      split at hj
      · rw [Table.rows_insert, List.mem_append, List.mem_singleton] at hj
        rcases hj with hj | rfl
        · exact h j hj
        · exact Option.some_ne_none _
      · exact h j hj
  | unassign fax type i =>
      simp only [Filing.step, Filing.asyncUnassign] at hj
      split at hj
      · exact h j hj
      · split at hj
        · exact h j hj
        · exact h j (Table.mem_delete.mp hj).1
  | destroy fax =>
      simp only [Filing.step, Filing.destroy] at hj
      split at hj
      · exact h j hj
      · exact h j (mem_foldl_delete _ st.joins hj)

/-- Only its own destroy takes a fax away. -/
theorem live_step {r : FaxRequest} (h : (st.faxes.find? fax).isSome = true)
    (hr : r ≠ .destroy fax) : ((st.step known r).faxes.find? fax).isSome = true := by
  cases r with
  | assign fax' type i =>
      simp only [Filing.step, Filing.asyncAssign]
      split <;> exact h
  | unassign fax' type i =>
      simp only [Filing.step, Filing.asyncUnassign]
      split
      · exact h
      · split <;> exact h
  | destroy fax' =>
      simp only [Filing.step, Filing.destroy]
      split
      · exact h
      · rwa [Table.find?_delete_ne st.faxes fun heq => hr (by rw [heq])]

theorem Filing.Nameless.step (h : st.Nameless fax) {r : FaxRequest} (hr : r ≠ .destroy fax) :
    (st.step known r).Nameless fax where
  live := live_step h.live hr
  noRecord := by
    intro j hj
    rcases mem_joins_step known hj with hj | ⟨_, hnone⟩
    · exact h.noRecord j hj
    · exact hnone
  hasFax := faxId_step h.hasFax

/-- Removing a row takes one from the count it is in. -/
theorem length_filter_delete {ρ : Type} [Record ρ] (t : Table ρ) {r : ρ} (hr : r ∈ t.rows)
    (p : ρ → Bool) :
    ((t.delete (Record.key r)).rows.filter p).length
      = if p r then (t.rows.filter p).length - 1 else (t.rows.filter p).length := by
  classical
  have hfilter : (t.delete (Record.key r)).rows.filter p
      = (t.rows.filter p).filter fun s => s != r := by
    show (t.rows.filter _).filter p = _
    rw [List.filter_comm]
    refine List.filter_congr fun s hs => ?_
    rw [Bool.eq_iff_iff, bne_iff_ne, bne_iff_ne]
    refine not_congr ⟨fun hkey => ?_, fun heq => by rw [heq]⟩
    exact t.eq_of_key_eq (List.mem_filter.mp hs).1 hr hkey
  have hnodup : (t.rows.filter p).Nodup := t.nodup_rows.filter p
  rw [hfilter, ← hnodup.erase_eq_filter]
  split_ifs with hp
  · exact List.length_erase_of_mem (List.mem_filter.mpr ⟨hr, hp⟩)
  · rw [List.erase_of_not_mem fun hmem => hp (List.mem_filter.mp hmem).2]

/-- Another fax keeps its rows when one is destroyed. -/
theorem filter_deleteJoins (joins : Table FaxAssignableJoin) {fax' : Nat} (hne : fax' ≠ fax)
    (type : AssignableType) :
    (deleteJoins joins fax').rows.filter (fun j => j.faxId == some fax && j.assignableType == type)
      = joins.rows.filter fun j => j.faxId == some fax && j.assignableType == type := by
  have hall : ∀ (js : List FaxAssignableJoin) (t : Table FaxAssignableJoin),
      (∀ j ∈ t.rows, j.faxId = some fax → j ∉ js) → (∀ j ∈ js, j ∈ joins.rows) →
      (∀ j ∈ t.rows, j ∈ joins.rows) →
      (js.foldl (fun t j => t.delete j.id) t).rows.filter
          (fun j => j.faxId == some fax && j.assignableType == type)
        = t.rows.filter fun j => j.faxId == some fax && j.assignableType == type := by
    intro js
    induction js with
    | nil => intro t _ _ _; rfl
    | cons k js ih =>
        intro t hapart hjs ht
        have hkeep : (t.delete k.id).rows.filter
            (fun j => j.faxId == some fax && j.assignableType == type)
            = t.rows.filter fun j => j.faxId == some fax && j.assignableType == type := by
          show (t.rows.filter _).filter _ = _
          rw [List.filter_filter]
          refine List.filter_congr fun j hj => ?_
          rw [Bool.and_eq_left_iff_imp, Bool.and_eq_true, beq_iff_eq, bne_iff_ne]
          rintro ⟨hfax, -⟩ hkey
          have heq := joins.eq_of_key_eq (ht j hj) (hjs k (by simp)) hkey
          exact hapart j hj hfax (by simp [heq])
        rw [List.foldl_cons, ih, hkeep]
        · intro j hj hfax hmem
          exact hapart j (Table.mem_delete.mp hj).1 hfax (by simp [hmem])
        · exact fun j hj => hjs j (by simp [hj])
        · exact fun j hj => ht j (Table.mem_delete.mp hj).1
  refine hall _ joins (fun j _ hfax hmem => ?_) (fun j hj => (List.mem_filter.mp hj).1)
    fun j hj => hj
  have hother := eq_of_beq (List.mem_filter.mp hmem).2
  exact hne (Option.some.inj (hother.symm.trans hfax))

/-- One request counts as it should. -/
theorem length_filedAs_step (h : st.Nameless fax) {r : FaxRequest} (hr : r ≠ .destroy fax)
    (type : AssignableType) :
    ((st.step known r).filedAs fax type).length
      = ((r.tally known fax type).map (Tally.apply (st.filedAs fax type).length)).getD
        (st.filedAs fax type).length := by
  cases r with
  | destroy fax' =>
      simp only [Filing.step, Filing.destroy, FaxRequest.tally]
      split
      · rfl
      · exact congrArg List.length (filter_deleteJoins st.joins (fun heq => hr (by rw [heq])) type)
  | assign fax' type' i =>
      simp only [Filing.step, Filing.asyncAssign, FaxRequest.tally]
      by_cases hmatch : fax' = fax ∧ type' = type ∧ known type' i = true
      · obtain ⟨rfl, rfl, hknown⟩ := hmatch
        have hboth : st.findsBoth known fax' type' i = true := by
          simp [Filing.findsBoth, h.live, hknown]
        simp [hboth, hknown, Filing.filedAs, Record.withKey, Tally.apply]
      · rw [if_neg hmatch]
        by_cases hboth : st.findsBoth known fax' type' i = true
        · have hother : fax' = fax → ¬ type' = type := fun hfax htype =>
            hmatch ⟨hfax, htype, ((Bool.and_eq_true _ _).mp hboth).2⟩
          rw [if_pos hboth]
          simpa [Filing.filedAs, Record.withKey] using hother
        · rw [if_neg hboth]
          rfl
  | unassign fax' type' i =>
      simp only [Filing.step, Filing.asyncUnassign, FaxRequest.tally]
      cases hfind : st.faxes.find? fax' with
      | none =>
          have hne : fax' ≠ fax := by
            rintro rfl
            have := h.live
            rw [hfind] at this
            cases this
          rw [if_neg fun hmatch => hne hmatch.1]
          rfl
      | some f =>
          simp only
          cases hfirst : st.joins.firstWhere fun j =>
              j.faxId == some fax' && j.assignableId == i && j.assignableType == type' with
          | none =>
              by_cases hmatch : fax' = fax ∧ type' = type ∧ i = none
              · obtain ⟨rfl, rfl, rfl⟩ := hmatch
                -- nothing was filed
                have hempty : st.filedAs fax' type' = [] := by
                  refine List.filter_eq_nil_iff.mpr fun j hj hmatch => ?_
                  have hno := List.find?_eq_none.mp hfirst j hj
                  rw [h.noRecord j hj] at hno
                  rw [Bool.and_eq_true] at hmatch
                  simp [hmatch.1, hmatch.2] at hno
                simp [hempty, Tally.apply]
              · rw [if_neg hmatch]
                rfl
          | some j =>
              have hj : j ∈ st.joins.rows := List.mem_of_find?_eq_some hfirst
              have hcond := List.find?_some hfirst
              simp only [Bool.and_eq_true, beq_iff_eq] at hcond
              obtain ⟨⟨hfax, hid⟩, htype⟩ := hcond
              rw [h.noRecord j hj] at hid
              have hcount := length_filter_delete st.joins hj
                fun j => j.faxId == some fax && j.assignableType == type
              refine hcount.trans ?_
              rw [hfax, htype, ← hid]
              by_cases hmatch : fax' = fax ∧ type' = type
              · simp [hmatch, Tally.apply, Filing.filedAs]
              · have hother : ((some fax' == some fax) && type' == type) = false := by
                  rw [Bool.and_eq_false_imp, beq_iff_eq, Option.some.injEq, beq_eq_false_iff_ne]
                  exact fun hfax htype => hmatch ⟨hfax, htype⟩
                rw [hother, if_neg Bool.false_ne_true, if_neg fun hall => hmatch ⟨hall.1, hall.2.1⟩]
                rfl

/-! ## Histories -/

theorem nameless_start {faxes : Table Fax} (h : (faxes.find? fax).isSome = true) :
    (Filing.start faxes).Nameless fax where
  live := h
  noRecord := fun _ hj => by cases hj
  hasFax := fun _ hj => by cases hj

/-- A fax that is there in the end was not destroyed on the way. -/
theorem stepsOk_of_live {faxes : Table Fax} {reqs : List FaxRequest}
    (h : ((run (Filing.step known) (Filing.start faxes) reqs).faxes.find? fax).isSome = true) :
    StepsOk (Filing.step known) (fun _ r => r ≠ .destroy fax) (Filing.start faxes) reqs := by
  refine stepsOk_of_forall fun pre r post heq hr => ?_
  rw [heq, hr, run_append, run_cons] at h
  have hthen := find?_faxes_run known post _ h
  simp only [Filing.step, Filing.destroy] at hthen
  cases hfind : (run (Filing.step known) (Filing.start faxes) pre).faxes.find? fax with
  | none =>
      rw [hfind] at hthen
      simp [hfind] at hthen
  | some f =>
      rw [hfind] at hthen
      simp [Table.find?_delete_self] at hthen

/-- The rows of a fax that is there are as many as its history says. -/
theorem length_filedAs_run {faxes : Table Fax} {reqs : List FaxRequest}
    (h : ((run (Filing.step known) (Filing.start faxes) reqs).faxes.find? fax).isSome = true)
    (type : AssignableType) :
    ((run (Filing.step known) (Filing.start faxes) reqs).filedAs fax type).length
      = run Tally.apply 0 (reqs.filterMap (FaxRequest.tally known fax type)) :=
  run_follows (fun st => (st.filedAs fax type).length)
    (FaxRequest.tally known fax type) (Filing.Nameless fax)
    (fun _ _ hst hr => hst.step hr) (fun _ _ hst hr => length_filedAs_step hst hr type) reqs
    (Filing.start faxes) (nameless_start (find?_faxes_run known reqs _ h)) (stepsOk_of_live h)

/-- A fax has no row when it has none of either kind. -/
theorem mem_unassigned_iff (h : ∀ j ∈ st.joins.rows, j.faxId ≠ none) {f : Fax}
    (hf : f ∈ st.faxes.rows) : f ∈ st.unassigned ↔ ∀ type, (st.filedAs f.id type).length = 0 := by
  have hnull : (st.joins.rows.any fun j => j.faxId.isNone) = false := by
    refine List.any_eq_false.mpr fun j hj hnone => h j hj (Option.isNone_iff_eq_none.mp hnone)
  unfold Filing.unassigned Filing.filedAs
  rw [hnull, if_neg Bool.false_ne_true, List.mem_filter, Bool.not_eq_true', List.any_eq_false]
  simp only [hf, true_and, List.length_eq_zero_iff, List.filter_eq_nil_iff, Bool.and_eq_true,
    not_and, beq_iff_eq]
  exact ⟨fun hno type j hj hfax => absurd hfax (hno j hj), fun hno j hj hfax => hno _ j hj hfax rfl⟩

/-- In every history, from faxes that are assigned to nobody: no
customer and no contractor has a fax, and the inbox lists a fax that is
there just when it was unassigned, without naming anybody, at least as
often as it was assigned to each kind, counting from the last time that
nothing was left. -/
theorem inbox_iff (known : AssignableType → Nat → Bool) (faxes : Table Fax)
    (reqs : List FaxRequest) :
    (∀ type i, (run (Filing.step known) (Filing.start faxes) reqs).forRecord type i = []) ∧
      ∀ f ∈ (run (Filing.step known) (Filing.start faxes) reqs).faxes.rows,
        f ∈ (run (Filing.step known) (Filing.start faxes) reqs).unassigned ↔
          ∀ type, run Tally.apply 0 (reqs.filterMap (FaxRequest.tally known f.id type)) = 0 := by
  refine ⟨fun type i => List.eq_nil_iff_forall_not_mem.mpr fun f => ?_, fun f hf => ?_⟩
  · exact not_mem_forRecord (assignableId_run known faxes reqs) f type i
  · have hlive : ((run (Filing.step known) (Filing.start faxes) reqs).faxes.find? f.id).isSome
        = true := by
      have hfind := Table.find?_key _ hf
      exact Option.isSome_iff_exists.mpr ⟨f, hfind⟩
    have hfax : ∀ j ∈ (run (Filing.step known) (Filing.start faxes) reqs).joins.rows,
        j.faxId ≠ none := by
      refine run_invariant (fun st : Filing => ∀ j ∈ st.joins.rows, j.faxId ≠ none)
        (fun st r hst => faxId_step hst) reqs _ ?_
      intro j hj
      cases hj
    rw [mem_unassigned_iff hfax hf]
    exact forall_congr' fun type => by rw [length_filedAs_run hlive]

end

end HomeWarranty.Faxes
