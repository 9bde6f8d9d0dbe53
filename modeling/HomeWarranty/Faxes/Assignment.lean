/-
HomeWarranty.Faxes.Assignment — faxes assigned to customers and
contractors, through the join table.

`async_assign` writes the id of the record with a comma at the end of the
line. Ruby reads the next line as a second value, so what is assigned to
`assignable_id` is an ARRAY of the id and the type, and an integer column
keeps nothing of an array. The type is written all the same: every row
of the join table names a fax and a kind of record, and no record.

* `forRecord` — the scopes `for_customer` and `for_contractor`;
  `assignables` and `unassigned` read the same table.
* `assignments_iff` — over every history, the three readers agree with
  the last request for each fax and record exactly when no `async_assign`
  of the history finds its fax and its record.

Which customers and contractors exist does not change here.
-/
import HomeWarranty.Lib.Run
import HomeWarranty.Faxes.Source

namespace HomeWarranty.Faxes

open Lib

/-! ## The join table -/

inductive AssignableType where
  | customer
  | contractor
  deriving DecidableEq, Repr

structure FaxAssignableJoin where
  id : Nat
  faxId : Option Nat
  assignableId : Option Nat
  assignableType : AssignableType
  deriving DecidableEq, Repr

instance : Record FaxAssignableJoin where
  key := FaxAssignableJoin.id
  withKey n j := { j with id := n }
  key_withKey := fun _ _ => rfl

/-- A value on the right of `assignable_id =`. -/
inductive AssignedValue where
  | number (n : Nat)
  | array (n : Nat) (type : AssignableType)

/-- What an integer column keeps of it: `value.to_i rescue nil`. An array
has no `to_i`. -/
def AssignedValue.toColumn : AssignedValue → Option Nat
  | .number n => some n
  | .array _ _ => none

structure Filing where
  faxes : Table Fax
  joins : Table FaxAssignableJoin

def Filing.start (faxes : Table Fax) : Filing := ⟨faxes, Table.empty⟩

/-! ## The readers -/

/-- `Fax.for_customer(i)`, `Fax.for_contractor(i)`. -/
def Filing.forRecord (st : Filing) (type : AssignableType) (i : Nat) : List Fax :=
  st.faxes.rows.filter fun f => st.joins.rows.any fun j =>
    j.faxId == some f.id && j.assignableId == some i && j.assignableType == type

/-- `Fax.unassigned`: NOT IN a list with a NULL is never true. -/
def Filing.unassigned (st : Filing) : List Fax :=
  if st.joins.rows.any fun j => j.faxId.isNone then []
  else st.faxes.rows.filter fun f => !st.joins.rows.any fun j => j.faxId == some f.id

section
variable (known : AssignableType → Nat → Bool)

/-- `fax_assignable_join.assignable`. -/
def FaxAssignableJoin.assignable (j : FaxAssignableJoin) : Option (AssignableType × Nat) :=
  match j.assignableId with
  | none => none
  | some i => if known j.assignableType i then some (j.assignableType, i) else none

/-- `fax.assignables`. -/
def Filing.assignables (st : Filing) (fax : Nat) : List (Option (AssignableType × Nat)) :=
  (st.joins.rows.filter fun j => j.faxId == some fax).map (FaxAssignableJoin.assignable known)

/-! ## The requests -/

inductive FaxRequest where
  | assign (fax : Nat) (type : AssignableType) (i : Nat)
  /-- `params[:assignable_id]` may be missing. -/
  | unassign (fax : Nat) (type : AssignableType) (i : Option Nat)
  | destroy (fax : Nat)
  deriving DecidableEq, Repr

/-- Both `find`s of `async_assign` go through. -/
def Filing.findsBoth (st : Filing) (fax : Nat) (type : AssignableType) (i : Nat) : Bool :=
  (st.faxes.find? fax).isSome && known type i

/-- `async_assign`, with the comma. -/
def Filing.asyncAssign (st : Filing) (fax : Nat) (type : AssignableType) (i : Nat) : Filing :=
  if st.findsBoth known fax type i then
    { st with
      joins := st.joins.insert
        { id := 0, faxId := some fax, assignableId := (AssignedValue.array i type).toColumn,
          assignableType := type } }
  else st

/-- `async_unassign`; nothing is written when there is no row. -/
def Filing.asyncUnassign (st : Filing) (fax : Nat) (type : AssignableType) (i : Option Nat) :
    Filing :=
  match st.faxes.find? fax with
  | none => st
  | some _ =>
      match st.joins.firstWhere fun j =>
          j.faxId == some fax && j.assignableId == i && j.assignableType == type with
      | none => st
      | some j => { st with joins := st.joins.delete j.id }

/-- `has_many :fax_assignable_joins, :dependent => :destroy`. -/
def deleteJoins (joins : Table FaxAssignableJoin) (fax : Nat) : Table FaxAssignableJoin :=
  (joins.rows.filter fun j => j.faxId == some fax).foldl (fun t j => t.delete j.id) joins

/-- `destroy`. -/
def Filing.destroy (st : Filing) (fax : Nat) : Filing :=
  match st.faxes.find? fax with
  | none => st
  | some _ => { faxes := st.faxes.delete fax, joins := deleteJoins st.joins fax }

def Filing.step (st : Filing) : FaxRequest → Filing
  | .assign fax type i => st.asyncAssign known fax type i
  | .unassign fax type i => st.asyncUnassign fax type i
  | .destroy fax => st.destroy fax

/-! ## What the readers should say -/

/-- The last request of the history for this fax and this record is an
assign, the record exists, and the fax is still there. -/
def Assigned (st : Filing) (reqs : List FaxRequest) (fax : Nat) (type : AssignableType)
    (i : Nat) : Prop :=
  (st.faxes.find? fax).isSome = true ∧ known type i = true ∧
    ∃ pre post, reqs = pre ++ .assign fax type i :: post ∧
      .unassign fax type (some i) ∉ post

/-- The readers agree with the history. -/
structure ReadsAssigned (st : Filing) (reqs : List FaxRequest) : Prop where
  forRecord : ∀ (f : Fax) type i, f ∈ st.forRecord type i ↔
    f ∈ st.faxes.rows ∧ Assigned known st reqs f.id type i
  assignables : ∀ f ∈ st.faxes.rows, ∀ type i, some (type, i) ∈ st.assignables known f.id ↔
    Assigned known st reqs f.id type i
  unassigned : ∀ f ∈ st.faxes.rows, f ∈ st.unassigned ↔
    ∀ type i, ¬ Assigned known st reqs f.id type i

/-- The request is not an assign that finds its fax and its record. -/
def FaxRequest.idle (st : Filing) : FaxRequest → Prop
  | .assign fax type i => st.findsBoth known fax type i = false
  | .unassign _ _ _ => True
  | .destroy _ => True

/-! ## What a request does -/

theorem mem_foldl_delete {j : FaxAssignableJoin} (js : List FaxAssignableJoin)
    (joins : Table FaxAssignableJoin)
    (h : j ∈ (js.foldl (fun t j => t.delete j.id) joins).rows) : j ∈ joins.rows := by
  induction js generalizing joins with
  | nil => exact h
  | cons k js ih => exact (Table.mem_delete.mp (ih _ h)).1

/-- A row of the join table after a request was there before, or was
written by an assign that found its fax and its record. -/
theorem mem_joins_step {st : Filing} {r : FaxRequest} {j : FaxAssignableJoin}
    (h : j ∈ (st.step known r).joins.rows) :
    j ∈ st.joins.rows ∨ (¬ r.idle known st ∧ j.assignableId = none) := by
  cases r with
  | assign fax type i =>
      simp only [Filing.step, Filing.asyncAssign] at h
      split at h
      · rename_i hboth
        rw [Table.rows_insert, List.mem_append, List.mem_singleton] at h
        rcases h with h | rfl
        · exact Or.inl h
        · exact Or.inr ⟨by simp [FaxRequest.idle, hboth], rfl⟩
      · exact Or.inl h
  | unassign fax type i =>
      simp only [Filing.step, Filing.asyncUnassign] at h
      split at h
      · exact Or.inl h
      · split at h
        · exact Or.inl h
        · exact Or.inl (Table.mem_delete.mp h).1
  | destroy fax =>
      simp only [Filing.step, Filing.destroy] at h
      split at h
      · exact Or.inl h
      · exact Or.inl (mem_foldl_delete _ st.joins h)

/-- A fax that is there after a request was there before. -/
theorem find?_faxes_step {st : Filing} {r : FaxRequest} {fax : Nat}
    (h : ((st.step known r).faxes.find? fax).isSome = true) :
    (st.faxes.find? fax).isSome = true := by
  cases r with
  | assign fax' type i =>
      simp only [Filing.step, Filing.asyncAssign] at h
      split at h
      · exact h
      · exact h
  | unassign fax' type i =>
      simp only [Filing.step, Filing.asyncUnassign] at h
      split at h
      · exact h
      · split at h
        · exact h
        · exact h
  | destroy fax' =>
      simp only [Filing.step, Filing.destroy] at h
      split at h
      · exact h
      · rename_i f hf
        by_cases hfax : fax = fax'
        · rw [hfax, hf]
          rfl
        · rw [← Table.find?_delete_ne st.faxes hfax]
          exact h

theorem find?_faxes_run (reqs : List FaxRequest) (st : Filing) {fax : Nat}
    (h : ((run (Filing.step known) st reqs).faxes.find? fax).isSome = true) :
    (st.faxes.find? fax).isSome = true := by
  induction reqs generalizing st with
  | nil => exact h
  | cons r reqs ih => exact find?_faxes_step known (ih _ h)

/-- No row of the join table names a record. -/
theorem assignableId_run (faxes : Table Fax) (reqs : List FaxRequest) :
    ∀ j ∈ (run (Filing.step known) (Filing.start faxes) reqs).joins.rows,
      j.assignableId = none := by
  refine run_invariant
    (fun st : Filing => ∀ j ∈ st.joins.rows, j.assignableId = none) ?_ reqs _ ?_
  · intro st r hst j hj
    rcases mem_joins_step known hj with hj | ⟨_, hnone⟩
    · exact hst j hj
    · exact hnone
  · intro j hj
    cases hj

/-- Without an assign that finds both, the join table stays empty. -/
theorem joins_run_of_idle (faxes : Table Fax) (reqs : List FaxRequest)
    (hok : StepsOk (Filing.step known) (fun st r => r.idle known st) (Filing.start faxes) reqs) :
    (run (Filing.step known) (Filing.start faxes) reqs).joins.rows = [] := by
  refine run_invariant_of_steps (fun st : Filing => st.joins.rows = []) ?_ reqs _ hok rfl
  intro st r hst hidle
  refine List.eq_nil_iff_forall_not_mem.mpr fun j hj => ?_
  rcases mem_joins_step known hj with hj | ⟨hno, _⟩
  · rw [hst] at hj
    cases hj
  · exact hno hidle

/-! ## The readers and the history -/

theorem not_mem_forRecord {st : Filing} (h : ∀ j ∈ st.joins.rows, j.assignableId = none)
    (f : Fax) (type : AssignableType) (i : Nat) : f ∉ st.forRecord type i := by
  intro hf
  obtain ⟨_, hany⟩ := List.mem_filter.mp hf
  obtain ⟨j, hj, hmatch⟩ := List.any_eq_true.mp hany
  simp [h j hj] at hmatch

/-- An empty table is read as: nothing is assigned. -/
theorem readsAssigned_of_empty {st : Filing} {reqs : List FaxRequest}
    (hempty : st.joins.rows = [])
    (hnone : ∀ fax type i, ¬ Assigned known st reqs fax type i) :
    ReadsAssigned known st reqs where
  forRecord := by
    intro f type i
    have hno : f ∉ st.forRecord type i := not_mem_forRecord (by simp [hempty]) f type i
    exact ⟨fun h => absurd h hno, fun h => absurd h.2 (hnone f.id type i)⟩
  assignables := by
    intro f _ type i
    simp [Filing.assignables, hempty, hnone f.id type i]
  unassigned := by
    intro f hf
    simp [Filing.unassigned, hempty, hf, hnone f.id]

/-- Right after an assign that finds its fax and its record, the scope
should return the fax and does not. -/
theorem not_readsAssigned_of_assign {faxes : Table Fax} {pre : List FaxRequest} {fax : Nat}
    {type : AssignableType} {i : Nat}
    (hboth : Filing.findsBoth known (run (Filing.step known) (Filing.start faxes) pre) fax type i
      = true) :
    ¬ ReadsAssigned known
      (run (Filing.step known) (Filing.start faxes) (pre ++ [.assign fax type i]))
      (pre ++ [.assign fax type i]) := by
  intro hread
  obtain ⟨hfax, hknown⟩ := (Bool.and_eq_true _ _).mp hboth
  obtain ⟨f, hf⟩ := Option.isSome_iff_exists.mp hfax
  have hafter : (run (Filing.step known) (Filing.start faxes)
      (pre ++ [.assign fax type i])).faxes.find? fax = some f := by
    rw [run_snoc]
    simp only [Filing.step, Filing.asyncAssign, hboth, if_true]
    exact hf
  have hid : f.id = fax := Table.key_of_find? hafter
  have hassigned : Assigned known (run (Filing.step known) (Filing.start faxes)
      (pre ++ [.assign fax type i])) (pre ++ [.assign fax type i]) f.id type i := by
    rw [hid]
    exact ⟨by rw [hafter]; rfl, hknown, pre, [], rfl, by simp⟩
  have hmem := (hread.forRecord f type i).mpr ⟨Table.mem_of_find? hafter, hassigned⟩
  exact not_mem_forRecord (assignableId_run known faxes _) f type i hmem

/-- Where no assign finds its fax and its record, nothing is assigned: a
fax that is still there was there when the assign came. -/
theorem not_assigned_of_idle {faxes : Table Fax} {reqs : List FaxRequest}
    (hok : StepsOk (Filing.step known) (fun st r => r.idle known st) (Filing.start faxes) reqs)
    (fax : Nat) (type : AssignableType) (i : Nat) :
    ¬ Assigned known (run (Filing.step known) (Filing.start faxes) reqs) reqs fax type i := by
  rintro ⟨hlive, hknown, pre, post, rfl, _⟩
  have hno : Filing.findsBoth known (run (Filing.step known) (Filing.start faxes) pre)
      fax type i = false := hok.at
  have hthen : ((run (Filing.step known) (Filing.start faxes) pre).faxes.find? fax).isSome
      = true := by
    rw [run_append] at hlive
    exact find?_faxes_run known _ _ hlive
  rw [Filing.findsBoth, hthen, hknown] at hno
  cases hno

/-- **Assignment**: in every history, from faxes that are assigned to
nobody, the scopes, `assignables` and `unassigned` say after every
request what the history says, exactly when no assign in it finds its
fax and its record. -/
theorem assignments_iff (faxes : Table Fax) (reqs : List FaxRequest) :
    (∀ n, ReadsAssigned known (run (Filing.step known) (Filing.start faxes) (reqs.take n))
        (reqs.take n)) ↔
      StepsOk (Filing.step known) (fun st r => r.idle known st) (Filing.start faxes) reqs := by
  constructor
  · intro hall
    refine stepsOk_of_forall fun pre r post hreqs => ?_
    cases r with
    | unassign fax type i => trivial
    | destroy fax => trivial
    | assign fax type i =>
        show Filing.findsBoth known _ fax type i = false
        by_contra hboth
        rw [Bool.not_eq_false] at hboth
        have htake : reqs.take (pre.length + 1) = pre ++ [.assign fax type i] := by
          rw [hreqs, List.take_append]
          simp
        have hread := hall (pre.length + 1)
        rw [htake] at hread
        exact not_readsAssigned_of_assign known hboth hread
  · intro hok n
    exact readsAssigned_of_empty known (joins_run_of_idle known faxes _ (hok.first n))
      (not_assigned_of_idle known (hok.first n))

end

/-- A fax with nobody to see it. -/
def someFax : Fax where
  id := 0
  sourceId := some 1
  messageId := some 501
  receivedAt := none
  senderFaxNumber := some "2125550100"
  path := none
  objectId := none

/-- One fax is assigned to customer 7, and neither the customer nor the
fax shows it. -/
theorem assign_writes_no_record :
    ¬ ReadsAssigned (fun _ i => i == 7)
        (run (Filing.step fun _ i => i == 7) (Filing.start (.ofRows [someFax]))
          [.assign 1 .customer 7])
        [.assign 1 .customer 7] := by
  intro h
  have hiff := h.forRecord { someFax with id := 1 } .customer 7
  have hassigned : Assigned (fun _ i => i == 7)
      (run (Filing.step fun _ i => i == 7) (Filing.start (.ofRows [someFax]))
        [.assign 1 .customer 7])
      [.assign 1 .customer 7] 1 .customer 7 :=
    ⟨by decide, rfl, [], [], rfl, by simp⟩
  have hmem := hiff.mpr ⟨by decide, hassigned⟩
  revert hmem
  decide

end HomeWarranty.Faxes
