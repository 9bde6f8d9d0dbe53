/-
HomeWarranty.Claims.Payment — repairs and the payments that mirror them,
over every run of requests.

`Repair#after_save` is taken as the hook that runs after every save of a
repair, and the authorization as the number the code compares it with
(`numberColumn`). The hook does one of four things to the payments: it
overwrites the payment of an authorized repair, creates it when there is
none, removes the unpaid payment of a repair that is not authorized, or
leaves a paid one alone. Each keeps the invariant (`inv_overwrite`,
`inv_create`, `inv_retract`, `inv_leave`).

Only the last of the four looks at whether the payment was paid. A save
of an authorized repair overwrites a paid payment like any other, and a
save with an empty amount writes NULL to the payment where the repair
gets 0. `payments_consistent` says that these two are the only ways in
which repairs and payments come apart. The amounts of both are FLOAT
columns, which keep the same of one number.
-/
import HomeWarranty.Claims.Repair

namespace HomeWarranty.Claims

open Lib Ruby

/-! ## The tables -/

structure Payment where
  id : Nat
  repairId : Option Nat
  contractorId : Option Int
  amount : Option ℚ
  paidAt : Option Date
  deriving DecidableEq

instance : Record Payment where
  key := Payment.id
  withKey n p := { p with id := n }
  key_withKey := fun _ _ => rfl

/-- `paid?`. -/
def Payment.paid (p : Payment) : Bool := p.paidAt.isSome

structure Ledger where
  repairs : Table Repair
  payments : Table Payment

def Ledger.empty : Ledger where
  repairs := Table.empty
  payments := Table.empty

/-- `repair.payment`. -/
def Ledger.paymentOf (l : Ledger) (n : Nat) : Option Payment :=
  l.payments.firstWhere fun p => p.repairId == some n

/-- `claim.repair`. -/
def Ledger.repairOf (l : Ledger) (claimId : Nat) : Option Repair :=
  l.repairs.firstWhere fun r => r.claimId == some claimId

/-! ## Saves -/

/-- The payment is given the amount and the contractor of the repair. -/
def Ledger.overwrite (l : Ledger) (k : Nat) (r : Repair) : Ledger :=
  { l with
    payments := l.payments.update k
      (fun q => { q with amount := r.amount, contractorId := r.contractorId })
      (fun _ => rfl) }

/-- `Repair#after_save`. -/
def Ledger.afterSave (l : Ledger) (r : Repair) : Ledger :=
  match l.paymentOf r.id with
  | some p =>
      if r.authorized then l.overwrite p.id r
      else if p.paid then l
      else { l with payments := l.payments.delete p.id }
  | none =>
      if r.authorized then
        { l with
          payments := l.payments.insert
            { id := 0, repairId := some r.id, contractorId := r.contractorId,
              amount := r.amount, paidAt := none } }
      else l

/-- An object is written to the row it was loaded from. -/
def Ledger.writeRow (l : Ledger) (o : Repair) : Ledger :=
  { l with
    repairs := l.repairs.update o.id (fun r => { o.reload numberColumn with id := r.id })
      (fun _ => rfl) }

/-- An object loaded from a row is saved, and the hook runs on it. -/
def Ledger.saveRepair (l : Ledger) (o : Repair) : Ledger := (l.writeRow o).afterSave o

/-- A new object is saved, and the hook runs on it. -/
def Ledger.createRepair (l : Ledger) (o : Repair) : Ledger :=
  { l with repairs := l.repairs.insert (o.reload numberColumn) }.afterSave
    { o with id := l.repairs.nextKey }

inductive LedgerEvent where
  /-- `async_update_claim_or_repair`. -/
  | request (claimId : Nat) (p : RepairParams)
  /-- `async_toggle_authorization`. -/
  | toggleAuthorization (id : Nat)
  /-- `async_toggle_status`. -/
  | toggleStatus (id : Nat)
  /-- `complete`. -/
  | complete (id : Nat)
  /-- `async_unassign_contractor_for_claim`. -/
  | unassign (claimId : Nat)
  /-- A payment is marked as paid. -/
  | pay (id : Nat) (date : Date)

/-- The object of an existing repair that an event saves, if any. -/
def Ledger.objectOf [Numbers] (l : Ledger) : LedgerEvent → Option Repair
  | .request n p =>
      match l.repairOf n, (requestAttributes p).stored with
      | some r, some a => some (r.assign numberColumn a)
      | _, _ => none
  | .toggleAuthorization id =>
      (l.repairs.find? id).map fun r => r.assign numberColumn r.toggledAuthorization
  | .toggleStatus id =>
      (l.repairs.find? id).map fun r => r.assign numberColumn r.toggledStatus
  | .complete id =>
      (l.repairs.find? id).map fun r =>
        r.assign numberColumn { Attributes.none with status := some (some 1) }
  | .unassign n =>
      (l.repairOf n).map fun r =>
        r.assign numberColumn { Attributes.none with contractorId := some none }
  | .pay _ _ => none

/-- The object of a new repair that a request saves, if any. -/
def Ledger.newObjectOf [Numbers] (l : Ledger) (n : Nat) (p : RepairParams) : Option Repair :=
  match l.repairOf n, (requestAttributes p).stored with
  | none, some a => createdRepair numberColumn n a
  | _, _ => none

def Ledger.step [Numbers] (l : Ledger) (e : LedgerEvent) : Ledger :=
  match l.objectOf e with
  | some o => l.saveRepair o
  | none =>
      match e with
      | .request n p =>
          match l.newObjectOf n p with
          | some o => l.createRepair o
          | none => l
      | .pay id date =>
          { l with
            payments := l.payments.update id (fun p => { p with paidAt := some date })
              (fun _ => rfl) }
      | _ => l

/-! ## Consistency -/

/-- The payments of a repair. -/
def Ledger.paymentsOf (l : Ledger) (n : Nat) : List Payment :=
  l.payments.rows.filter fun p => p.repairId == some n

/-- An authorized repair has exactly one payment, which carries its
amount and contractor while it is unpaid; a repair that is not
authorized has no unpaid payment. -/
def Ledger.Consistent (l : Ledger) : Prop :=
  ∀ r ∈ l.repairs.rows,
    (r.authorized = true → ∃ p, l.paymentsOf r.id = [p] ∧
      (p.paid = false → p.amount = r.amount ∧ p.contractorId = r.contractorId)) ∧
    (r.authorized = false → ∀ p ∈ l.paymentsOf r.id, p.paid = true)

/-- Payments that were paid are there, with their amount and
contractor. -/
def PaidKept (l l' : Ledger) : Prop :=
  ∀ k p, l.payments.find? k = some p → p.paid = true →
    ∃ p', l'.payments.find? k = some p' ∧ p'.paid = true ∧ p'.amount = p.amount ∧
      p'.contractorId = p.contractorId

/-- What is asked of the object when it is authorized, by the payment it
has: the amount and the contractor of a paid one, and otherwise an
amount. -/
def MirrorOk (o : Repair) : Option Payment → Prop
  | none => o.amount ≠ none
  | some p =>
      (p.paid = true → p.amount = o.amount ∧ p.contractorId = o.contractorId) ∧
        (p.paid = false → o.amount ≠ none)

instance (o : Repair) : ∀ p, Decidable (MirrorOk o p)
  | none => inferInstanceAs (Decidable (_ ≠ _))
  | some _ => inferInstanceAs (Decidable ((_ → _) ∧ (_ → _)))

/-- The condition on a save. -/
def SaveOk (l : Ledger) (o : Repair) : Prop :=
  o.authorized = true → MirrorOk o (l.paymentOf o.id)

instance (l : Ledger) (o : Repair) : Decidable (SaveOk l o) :=
  inferInstanceAs (Decidable (_ → _))

/-- The condition on an event. -/
def LedgerOk [Numbers] (l : Ledger) (e : LedgerEvent) : Prop := ∀ o ∈ l.objectOf e, SaveOk l o

instance [Numbers] (l : Ledger) (e : LedgerEvent) : Decidable (LedgerOk l e) :=
  inferInstanceAs (Decidable (∀ o ∈ l.objectOf e, SaveOk l o))

/-! ## The invariant -/

/-- Two payments of one repair. -/
def SameRepair (p q : Payment) : Prop := p.repairId = q.repairId

/-- The payments mirror this row. -/
def Mirrored (ps : List Payment) (r : Repair) : Prop :=
  (r.authorized = true → ∃ p ∈ ps, p.repairId = some r.id ∧
    (p.paid = false → p.amount = r.amount ∧ p.contractorId = r.contractorId)) ∧
  (r.authorized = false → ∀ p ∈ ps, p.repairId = some r.id → p.paid = true)

/-- What a run keeps, but for the mirroring of repair `n`: payments
belong to different repairs that exist, and authorizations are numbers. -/
structure Ledger.InvBut (l : Ledger) (n : Nat) : Prop where
  single : l.payments.Apart SameRepair
  known : ∀ p ∈ l.payments.rows, ∀ m ∈ p.repairId, m < l.repairs.nextKey
  numbers : ∀ r ∈ l.repairs.rows, r.authorization.number = r.authorization
  mirrored : ∀ r ∈ l.repairs.rows, r.id ≠ n → Mirrored l.payments.rows r

/-- What a run keeps. -/
structure Ledger.Inv (l : Ledger) : Prop where
  single : l.payments.Apart SameRepair
  known : ∀ p ∈ l.payments.rows, ∀ m ∈ p.repairId, m < l.repairs.nextKey
  numbers : ∀ r ∈ l.repairs.rows, r.authorization.number = r.authorization
  mirrored : ∀ r ∈ l.repairs.rows, Mirrored l.payments.rows r

theorem Ledger.InvBut.inv {l : Ledger} {n : Nat} (h : l.InvBut n)
    (hn : ∀ r ∈ l.repairs.rows, r.id = n → Mirrored l.payments.rows r) : l.Inv where
  single := h.single
  known := h.known
  numbers := h.numbers
  mirrored := by
    intro r hr
    by_cases hid : r.id = n
    · exact hn r hr hid
    · exact h.mirrored r hr hid

theorem Ledger.Inv.consistent {l : Ledger} (h : l.Inv) : l.Consistent := by
  intro r hr
  obtain ⟨hauth, hun⟩ := h.mirrored r hr
  refine ⟨fun ha => ?_, fun ha p hp => ?_⟩
  · obtain ⟨p, hp, hpr, hcarry⟩ := hauth ha
    refine ⟨p, l.payments.filter_eq_singleton hp (by simp [hpr]) ?_, hcarry⟩
    intro q hq hqr
    have : q.repairId = some r.id := by simpa using hqr
    exact h.single q hq p hp (this.trans hpr.symm)
  · obtain ⟨hmem, hpr⟩ := List.mem_filter.mp hp
    exact hun ha p hmem (by simpa using hpr)

/-! ## The hook -/

theorem Ledger.paymentOf_eq_some {l : Ledger} {n : Nat} {p : Payment}
    (h : l.paymentOf n = some p) : p ∈ l.payments.rows ∧ p.repairId = some n := by
  refine ⟨List.mem_of_find?_eq_some h, ?_⟩
  simpa using List.find?_some h

theorem Ledger.paymentOf_eq_none {l : Ledger} {n : Nat} (h : l.paymentOf n = none) :
    ∀ p ∈ l.payments.rows, p.repairId ≠ some n := by
  intro p hp
  simpa using List.find?_eq_none.mp h p hp

/-- A row that mirrors the object that was saved as it. -/
def SavedAs (o r : Repair) : Prop :=
  r.authorized = o.authorized ∧ r.amount = some (o.amount.getD 0) ∧
    r.contractorId = o.contractorId

/-- The payment the hook writes for an authorized object mirrors the row
of that object. -/
theorem SavedAs.carries {o r : Repair} (h : SavedAs o r) (ho : o.amount ≠ none) :
    o.amount = r.amount ∧ o.contractorId = r.contractorId := by
  obtain ⟨a, ha⟩ := Option.ne_none_iff_exists'.mp ho
  rw [h.2.1, h.2.2, ha]
  simp

theorem Ledger.mem_overwrite {l : Ledger} {k : Nat} {o : Repair} {q : Payment} :
    q ∈ (l.overwrite k o).payments.rows ↔ ∃ s ∈ l.payments.rows,
      (s.id = k ∧ q = { s with amount := o.amount, contractorId := o.contractorId }) ∨
        (s.id ≠ k ∧ q = s) := by
  unfold Ledger.overwrite
  rw [Table.mem_update]
  rfl

/-- The hook overwrites the payment of an authorized repair. -/
theorem inv_overwrite {l : Ledger} {o : Repair} {p : Payment} (h : l.InvBut o.id)
    (hrow : ∀ r ∈ l.repairs.rows, r.id = o.id → SavedAs o r)
    (hp : l.paymentOf o.id = some p) (ha : o.authorized = true)
    (hok : MirrorOk o (some p)) :
    (l.overwrite p.id o).Inv := by
  obtain ⟨hmem, hpr⟩ := Ledger.paymentOf_eq_some hp
  have hsame : ∀ q ∈ l.payments.rows, q.id = p.id → q = p :=
    fun q hq hid => l.payments.eq_of_key_eq hq hmem hid
  refine Ledger.InvBut.inv (n := o.id) ⟨?_, ?_, h.numbers, ?_⟩ ?_
  · show (l.payments.update p.id (fun q => { q with
      amount := o.amount, contractorId := o.contractorId }) (fun _ => rfl)).Apart SameRepair
    refine Table.Apart.update (fun _ _ e => Eq.symm e) h.single ?_
    intro q hq hqk s hs hsk hsr
    exact hsk ((h.single s hs q hq hsr).trans hqk)
  · intro q hq m hm
    obtain ⟨s, hs, ⟨_, rfl⟩ | ⟨_, rfl⟩⟩ := Ledger.mem_overwrite.mp hq
    · exact h.known s hs m hm
    · exact h.known q hs m hm
  · intro r hr hne
    obtain ⟨hauth, hun⟩ := h.mirrored r hr hne
    refine ⟨fun hra => ?_, fun hra q hq hqr => ?_⟩
    · obtain ⟨q, hq, hqr, hcarry⟩ := hauth hra
      refine ⟨q, Ledger.mem_overwrite.mpr ⟨q, hq, .inr ⟨fun hid => ?_, rfl⟩⟩, hqr, hcarry⟩
      rw [hsame q hq hid, hpr, Option.some.injEq] at hqr
      exact hne hqr.symm
    · obtain ⟨s, hs, ⟨hsk, rfl⟩ | ⟨_, rfl⟩⟩ := Ledger.mem_overwrite.mp hq
      · rw [hsame s hs hsk] at hqr
        exact absurd (Option.some.inj (hqr.symm.trans hpr)) hne
      · exact hun hra q hs hqr
  · intro r hr hid
    have hsaved := hrow r hr hid
    refine ⟨fun _ => ?_, fun hra => ?_⟩
    · refine ⟨_, Ledger.mem_overwrite.mpr ⟨p, hmem, .inl ⟨rfl, rfl⟩⟩, by simp [hpr, hid], ?_⟩
      intro hunpaid
      exact hsaved.carries (hok.2 hunpaid)
    · rw [hsaved.1, ha] at hra
      cases hra

/-- The hook removes the unpaid payment of a repair that is not
authorized. -/
theorem inv_retract {l : Ledger} {o : Repair} {p : Payment} (h : l.InvBut o.id)
    (hrow : ∀ r ∈ l.repairs.rows, r.id = o.id → SavedAs o r)
    (hp : l.paymentOf o.id = some p) (ha : o.authorized = false) :
    ({ l with payments := l.payments.delete p.id } : Ledger).Inv := by
  obtain ⟨hmem, hpr⟩ := Ledger.paymentOf_eq_some hp
  refine Ledger.InvBut.inv (n := o.id) ⟨h.single.delete p.id, ?_, h.numbers, ?_⟩ ?_
  · intro q hq
    exact h.known q (Table.mem_delete.mp hq).1
  · intro r hr hne
    obtain ⟨hauth, hun⟩ := h.mirrored r hr hne
    refine ⟨fun hra => ?_, fun hra q hq hqr => hun hra q (Table.mem_delete.mp hq).1 hqr⟩
    obtain ⟨q, hq, hqr, hcarry⟩ := hauth hra
    refine ⟨q, Table.mem_delete.mpr ⟨hq, fun hid => ?_⟩, hqr, hcarry⟩
    rw [l.payments.eq_of_key_eq hq hmem hid, hpr, Option.some.injEq] at hqr
    exact hne hqr.symm
  · intro r hr hid
    refine ⟨fun hra => ?_, fun _ q hq hqr => ?_⟩
    · rw [(hrow r hr hid).1, ha] at hra
      cases hra
    · obtain ⟨hqm, hqk⟩ := Table.mem_delete.mp hq
      rw [hid] at hqr
      exact absurd (h.single q hqm p hmem (hqr.trans hpr.symm)) hqk

/-- The hook leaves the payments alone. -/
theorem inv_leave {l : Ledger} {o : Repair} (h : l.InvBut o.id)
    (hrow : ∀ r ∈ l.repairs.rows, r.id = o.id → SavedAs o r) (ha : o.authorized = false)
    (hpaid : ∀ p ∈ l.payments.rows, p.repairId = some o.id → p.paid = true) : l.Inv := by
  refine h.inv fun r hr hid => ⟨fun hra => ?_, fun _ p hp hpr => ?_⟩
  · rw [(hrow r hr hid).1, ha] at hra
    cases hra
  · rw [hid] at hpr
    exact hpaid p hp hpr

/-- The hook creates the payment of an authorized repair. -/
theorem inv_create {l : Ledger} {o : Repair} (h : l.InvBut o.id)
    (hrow : ∀ r ∈ l.repairs.rows, r.id = o.id → SavedAs o r)
    (hlt : o.id < l.repairs.nextKey) (hp : l.paymentOf o.id = none)
    (ha : o.authorized = true) (hok : o.amount ≠ none) :
    ({ l with
        payments := l.payments.insert
          { id := 0, repairId := some o.id, contractorId := o.contractorId,
            amount := o.amount, paidAt := none } } : Ledger).Inv := by
  have hnone := Ledger.paymentOf_eq_none hp
  refine Ledger.InvBut.inv (n := o.id) ⟨?_, ?_, h.numbers, ?_⟩ ?_
  · refine h.single.insert (fun _ _ e => Eq.symm e) fun q hq hsame => ?_
    exact hnone q hq hsame
  · intro q hq m hm
    rcases List.mem_append.mp hq with hq | hq
    · exact h.known q hq m hm
    · rw [List.mem_singleton.mp hq] at hm
      simp only [Record.withKey, Option.mem_some] at hm
      rw [← hm]
      exact hlt
  · intro r hr hne
    obtain ⟨hauth, hun⟩ := h.mirrored r hr hne
    refine ⟨fun hra => ?_, fun hra q hq hqr => ?_⟩
    · obtain ⟨q, hq, hrest⟩ := hauth hra
      exact ⟨q, List.mem_append_left _ hq, hrest⟩
    · rcases List.mem_append.mp hq with hq | hq
      · exact hun hra q hq hqr
      · rw [List.mem_singleton.mp hq] at hqr
        exact absurd (Option.some.inj hqr).symm hne
  · intro r hr hid
    have hsaved := hrow r hr hid
    refine ⟨fun _ => ?_, fun hra => ?_⟩
    · refine ⟨_, List.mem_append_right _ (List.mem_singleton_self _), ?_, ?_⟩
      · simp [Record.withKey, hid]
      · intro _
        exact hsaved.carries hok
    · rw [hsaved.1, ha] at hra
      cases hra

/-- The hook restores the mirror of the repair it runs on. -/
theorem inv_afterSave {l : Ledger} {o : Repair} (h : l.InvBut o.id)
    (hrow : ∀ r ∈ l.repairs.rows, r.id = o.id → SavedAs o r)
    (hlt : o.id < l.repairs.nextKey) (hok : SaveOk l o) : (l.afterSave o).Inv := by
  unfold Ledger.afterSave
  cases hp : l.paymentOf o.id with
  | none =>
      cases ha : o.authorized with
      | true =>
          have hmirror := hok ha
          rw [hp] at hmirror
          simpa [ha] using inv_create h hrow hlt hp ha hmirror
      | false =>
          have hnone := Ledger.paymentOf_eq_none hp
          simpa [ha] using inv_leave h hrow ha fun p hm hpr => absurd hpr (hnone p hm)
  | some p =>
      cases ha : o.authorized with
      | true =>
          have hmirror := hok ha
          rw [hp] at hmirror
          simpa [ha] using inv_overwrite h hrow hp ha hmirror
      | false =>
          cases hpaid : p.paid with
          | true =>
              obtain ⟨hmem, hpr⟩ := Ledger.paymentOf_eq_some hp
              have hall : ∀ q ∈ l.payments.rows, q.repairId = some o.id → q.paid = true := by
                intro q hq hqr
                have hid := h.single q hq p hmem (hqr.trans hpr.symm)
                rw [l.payments.eq_of_key_eq hq hmem hid]
                exact hpaid
              simpa [ha, hpaid] using inv_leave h hrow ha hall
          | false => simpa [ha, hpaid] using inv_retract h hrow hp ha

/-- The hook keeps what was paid. -/
theorem paidKept_afterSave {l : Ledger} {o : Repair} (hok : SaveOk l o) :
    PaidKept l (l.afterSave o) := by
  intro k q hq hpaid
  unfold Ledger.afterSave
  cases hp : l.paymentOf o.id with
  | none =>
      cases ha : o.authorized with
      | true => exact ⟨q, by simpa [ha] using Table.find?_insert_of_find? hq _, hpaid, rfl, rfl⟩
      | false => exact ⟨q, by simpa [ha] using hq, hpaid, rfl, rfl⟩
  | some p =>
      obtain ⟨hmem, _⟩ := Ledger.paymentOf_eq_some hp
      have hself : l.payments.find? p.id = some p := l.payments.find?_key hmem
      cases ha : o.authorized with
      | true =>
          have hmirror := hok ha
          rw [hp] at hmirror
          simp only [if_true, Ledger.overwrite, Table.find?_update, hq]
          split
          · rename_i hk
            rw [hk, hself, Option.some.injEq] at hq
            subst hq
            obtain ⟨hamt, hcon⟩ := hmirror.1 hpaid
            exact ⟨_, rfl, hpaid, hamt.symm, hcon.symm⟩
          · exact ⟨q, rfl, hpaid, rfl, rfl⟩
      | false =>
          cases hpp : p.paid with
          | true => exact ⟨q, by simpa [ha, hpp] using hq, hpaid, rfl, rfl⟩
          | false =>
              have hne : k ≠ p.id := by
                rintro rfl
                rw [hself, Option.some.injEq] at hq
                rw [hq, hpaid] at hpp
                cases hpp
              refine ⟨q, ?_, hpaid, rfl, rfl⟩
              simpa [ha, hpp, Table.find?_delete_ne _ hne] using hq

/-! ## Events -/

@[simp] theorem number_number (a : Authorization) : a.number.number = a.number := by
  cases a <;> rfl

/-- An object whose authorization is a number is saved as it is. -/
theorem savedAs_reload {o : Repair} (h : o.authorization.number = o.authorization) (n : Nat) :
    SavedAs o { o.reload numberColumn with id := n } := by
  refine ⟨?_, rfl, rfl⟩
  simp [Repair.authorized, Repair.reload, numberColumn, h]

/-- Assigning keeps the authorization a number. -/
theorem number_assign {r : Repair} (h : r.authorization.number = r.authorization)
    (a : Attributes) : (r.assign numberColumn a).authorization.number
      = (r.assign numberColumn a).authorization := by
  cases ha : a.authorization with
  | none => simpa [Repair.assign, ha] using h
  | some x => simp [Repair.assign, ha, numberColumn]

theorem Ledger.mem_writeRow {l : Ledger} {o r : Repair} :
    r ∈ (l.writeRow o).repairs.rows ↔ ∃ s ∈ l.repairs.rows,
      (s.id = o.id ∧ r = { o.reload numberColumn with id := s.id }) ∨
        (s.id ≠ o.id ∧ r = s) := by
  unfold Ledger.writeRow
  rw [Table.mem_update]
  rfl

theorem inv_saveRepair {l : Ledger} {o : Repair} (h : l.Inv)
    (hex : ∃ r ∈ l.repairs.rows, r.id = o.id)
    (hnum : o.authorization.number = o.authorization) (hok : SaveOk l o) :
    (l.saveRepair o).Inv := by
  obtain ⟨r₀, hr₀, hid₀⟩ := hex
  refine inv_afterSave ⟨h.single, h.known, ?_, ?_⟩ ?_ ?_ hok
  · intro r hr
    obtain ⟨s, hs, ⟨_, rfl⟩ | ⟨_, rfl⟩⟩ := Ledger.mem_writeRow.mp hr
    · simp [Repair.reload, numberColumn]
    · exact h.numbers r hs
  · intro r hr hne
    obtain ⟨s, hs, ⟨hk, rfl⟩ | ⟨_, rfl⟩⟩ := Ledger.mem_writeRow.mp hr
    · exact absurd hk hne
    · exact h.mirrored r hs
  · intro r hr hid
    obtain ⟨s, hs, ⟨_, rfl⟩ | ⟨hk, rfl⟩⟩ := Ledger.mem_writeRow.mp hr
    · exact savedAs_reload hnum s.id
    · exact absurd hid hk
  · show o.id < l.repairs.nextKey
    rw [← hid₀]
    exact l.repairs.fresh r₀ hr₀

theorem saveOk_new {l : Ledger} (h : l.Inv) {o : Repair} (hid : o.id = l.repairs.nextKey)
    (ho : o.amount ≠ none) : SaveOk l o := by
  intro _
  have hnone : l.paymentOf o.id = none := by
    refine List.find?_eq_none.mpr fun p hp => ?_
    intro hpr
    have hlt := h.known p hp o.id (by simpa using hpr)
    omega
  rw [hnone]
  exact ho

theorem inv_createRepair {l : Ledger} {o : Repair} (h : l.Inv)
    (hnum : o.authorization.number = o.authorization) (ho : o.amount ≠ none) :
    (l.createRepair o).Inv := by
  have hold : ∀ r ∈ l.repairs.rows, r.id ≠ l.repairs.nextKey :=
    fun r hr => Nat.ne_of_lt (l.repairs.fresh r hr)
  refine inv_afterSave ⟨h.single, ?_, ?_, ?_⟩ ?_ ?_ (saveOk_new h rfl ho)
  · intro p hp m hm
    exact Nat.lt_succ_of_lt (h.known p hp m hm)
  · intro r hr
    rcases List.mem_append.mp hr with hr | hr
    · exact h.numbers r hr
    · rw [List.mem_singleton.mp hr]
      simp [Record.withKey, Repair.reload, numberColumn]
  · intro r hr hne
    rcases List.mem_append.mp hr with hr | hr
    · exact h.mirrored r hr
    · rw [List.mem_singleton.mp hr] at hne
      exact absurd rfl hne
  · intro r hr hid
    rcases List.mem_append.mp hr with hr | hr
    · exact absurd hid (hold r hr)
    · rw [List.mem_singleton.mp hr]
      exact savedAs_reload hnum l.repairs.nextKey
  · exact Nat.lt_succ_self _

theorem paidKept_createRepair {l : Ledger} {o : Repair} (h : l.Inv) (ho : o.amount ≠ none) :
    PaidKept l (l.createRepair o) := by
  have hok : SaveOk { l with repairs := l.repairs.insert (o.reload numberColumn) }
      { o with id := l.repairs.nextKey } :=
    saveOk_new (l := l) h rfl ho
  exact paidKept_afterSave hok

theorem inv_pay {l : Ledger} (h : l.Inv) (k : Nat) (date : Date) :
    ({ l with
        payments := l.payments.update k (fun p => { p with paidAt := some date })
          (fun _ => rfl) } : Ledger).Inv where
  single := by
    show (l.payments.update k (fun p => { p with paidAt := some date })
      (fun _ => rfl)).Apart SameRepair
    refine Table.Apart.update (fun _ _ e => Eq.symm e) h.single ?_
    intro q hq hqk s hs hsk hsr
    exact hsk ((h.single s hs q hq hsr).trans hqk)
  known := by
    intro p hp m hm
    simp only [Table.mem_update] at hp
    obtain ⟨s, hs, ⟨_, rfl⟩ | ⟨_, rfl⟩⟩ := hp
    · exact h.known s hs m hm
    · exact h.known p hs m hm
  numbers := h.numbers
  mirrored := by
    intro r hr
    obtain ⟨hauth, hun⟩ := h.mirrored r hr
    refine ⟨fun hra => ?_, fun hra p hp hpr => ?_⟩
    · obtain ⟨p, hp, hpr, hcarry⟩ := hauth hra
      by_cases hk : p.id = k
      · -- paid now, so nothing is asked of it any more
        refine ⟨{ p with paidAt := some date }, ?_, hpr, fun hpaid => by cases hpaid⟩
        simp only [Table.mem_update]
        exact ⟨p, hp, .inl ⟨hk, rfl⟩⟩
      · refine ⟨p, ?_, hpr, hcarry⟩
        simp only [Table.mem_update]
        exact ⟨p, hp, .inr ⟨hk, rfl⟩⟩
    · simp only [Table.mem_update] at hp
      obtain ⟨s, hs, ⟨_, rfl⟩ | ⟨_, rfl⟩⟩ := hp
      · rfl
      · exact hun hra p hs hpr

theorem paidKept_pay (l : Ledger) (k : Nat) (date : Date) :
    PaidKept l { l with
      payments := l.payments.update k (fun p => { p with paidAt := some date })
        (fun _ => rfl) } := by
  intro j p hp hpaid
  simp only [Table.find?_update, hp]
  split
  · exact ⟨_, rfl, rfl, rfl, rfl⟩
  · exact ⟨p, rfl, hpaid, rfl, rfl⟩

/-- An event that saves an existing repair saves an object of one. -/
theorem objectOf_spec [Numbers] {l : Ledger} (h : l.Inv) {e : LedgerEvent} {o : Repair}
    (ho : l.objectOf e = some o) :
    (∃ r ∈ l.repairs.rows, r.id = o.id) ∧ o.authorization.number = o.authorization := by
  have hassign : ∀ (r : Repair) (a : Attributes), r ∈ l.repairs.rows →
      r.assign numberColumn a = o →
      (∃ r ∈ l.repairs.rows, r.id = o.id) ∧ o.authorization.number = o.authorization := by
    rintro r a hr rfl
    exact ⟨⟨r, hr, rfl⟩, number_assign (h.numbers r hr) a⟩
  cases e with
  | request n p =>
      simp only [Ledger.objectOf] at ho
      split at ho
      · rename_i r a hr _
        exact hassign r a (List.mem_of_find?_eq_some hr) (Option.some.inj ho)
      · cases ho
  | toggleAuthorization id =>
      obtain ⟨r, hr, heq⟩ := Option.map_eq_some_iff.mp ho
      exact hassign r _ (Table.mem_of_find? hr) heq
  | toggleStatus id =>
      obtain ⟨r, hr, heq⟩ := Option.map_eq_some_iff.mp ho
      exact hassign r _ (Table.mem_of_find? hr) heq
  | complete id =>
      obtain ⟨r, hr, heq⟩ := Option.map_eq_some_iff.mp ho
      exact hassign r _ (Table.mem_of_find? hr) heq
  | unassign n =>
      obtain ⟨r, hr, heq⟩ := Option.map_eq_some_iff.mp ho
      exact hassign r _ (List.mem_of_find?_eq_some hr) heq
  | pay k date => cases ho

theorem PaidKept.refl (l : Ledger) : PaidKept l l :=
  fun _ p hp hpaid => ⟨p, hp, hpaid, rfl, rfl⟩

theorem PaidKept.trans {l₁ l₂ l₃ : Ledger} (h₁ : PaidKept l₁ l₂) (h₂ : PaidKept l₂ l₃) :
    PaidKept l₁ l₃ := by
  intro k p hp hpaid
  obtain ⟨q, hq, hqpaid, hamt, hcon⟩ := h₁ k p hp hpaid
  obtain ⟨q', hq', hq'paid, hamt', hcon'⟩ := h₂ k q hq hqpaid
  exact ⟨q', hq', hq'paid, hamt'.trans hamt, hcon'.trans hcon⟩

/-- A created object is one with an amount. -/
theorem createdRepair_spec {n : Nat} {a : Attributes} {o : Repair}
    (h : createdRepair numberColumn n a = some o) :
    o.amount ≠ none ∧ o.authorization.number = o.authorization := by
  unfold createdRepair at h
  simp only at h
  split at h
  · cases h
  · rename_i hne
    obtain rfl := Option.some.inj h
    exact ⟨hne, number_assign rfl a⟩

theorem newObjectOf_spec [Numbers] {l : Ledger} {n : Nat} {p : RepairParams} {o : Repair}
    (h : l.newObjectOf n p = some o) :
    o.amount ≠ none ∧ o.authorization.number = o.authorization := by
  unfold Ledger.newObjectOf at h
  split at h
  · exact createdRepair_spec h
  · cases h

/-- The step lemma. -/
theorem inv_step [Numbers] {l : Ledger} {e : LedgerEvent} (h : l.Inv) (hok : LedgerOk l e) :
    (l.step e).Inv ∧ PaidKept l (l.step e) := by
  unfold Ledger.step
  cases ho : l.objectOf e with
  | some o =>
      obtain ⟨hex, hnum⟩ := objectOf_spec h ho
      have hsave := hok o ho
      exact ⟨inv_saveRepair h hex hnum hsave, paidKept_afterSave (l := l.writeRow o) hsave⟩
  | none =>
      cases e with
      | request n p =>
          simp only
          cases hc : l.newObjectOf n p with
          | none => exact ⟨h, .refl l⟩
          | some o =>
              obtain ⟨hamt, hnum⟩ := newObjectOf_spec hc
              exact ⟨inv_createRepair h hnum hamt, paidKept_createRepair h hamt⟩
      | pay k date => exact ⟨inv_pay h k date, paidKept_pay l k date⟩
      | toggleAuthorization _ | toggleStatus _ | complete _ | unassign _ =>
          exact ⟨h, .refl l⟩

/-- What was paid stays as it is along a good run. -/
theorem paidKept_run [Numbers] {es : List LedgerEvent} {l : Ledger} (h : l.Inv)
    (hok : StepsOk Ledger.step LedgerOk l es) : PaidKept l (run Ledger.step l es) := by
  induction es generalizing l with
  | nil => exact .refl l
  | cons e es ih =>
      obtain ⟨hinv, hkept⟩ := inv_step h hok.1
      exact hkept.trans (ih hinv hok.2)

theorem inv_run [Numbers] {es : List LedgerEvent}
    (hok : StepsOk Ledger.step LedgerOk Ledger.empty es) :
    (run Ledger.step Ledger.empty es).Inv := by
  refine run_invariant_of_steps Ledger.Inv (fun l e h he => (inv_step h he).1) es
    Ledger.empty hok ⟨Table.apart_empty _, ?_, ?_, ?_⟩
  · intro p hp
    cases hp
  · intro r hr
    cases hr
  · intro r hr
    cases hr

/-- **Repairs and payments.** In every run of creations, edits, toggles,
unassignments and markings as paid whose saves meet their condition: in
every state on the way an authorized repair has exactly one payment,
which carries its amount and contractor while it is unpaid, a repair
that is not authorized has no unpaid payment, and a payment that has
been paid keeps its amount and its contractor ever after. -/
theorem payments_consistent [Numbers] (es : List LedgerEvent)
    (hok : StepsOk Ledger.step LedgerOk Ledger.empty es) :
    (∀ k, (run Ledger.step Ledger.empty (es.take k)).Consistent) ∧
      ∀ j k, j ≤ k → PaidKept (run Ledger.step Ledger.empty (es.take j))
        (run Ledger.step Ledger.empty (es.take k)) := by
  refine ⟨fun k => (inv_run (hok.first k)).consistent, fun j k hjk => ?_⟩
  have hsplit : es.take k = es.take j ++ (es.take k).drop j := by
    conv_lhs => rw [← List.take_append_drop j (es.take k)]
    rw [List.take_take, Nat.min_eq_left hjk]
  have hk := hok.first k
  rw [hsplit] at hk ⊢
  rw [run_append]
  exact paidKept_run (inv_run (hok.first j)) hk.drop

/-- A request that posts these fields. -/
def repairRequest (contractorId amount : Option String) : RepairParams where
  contractorId := contractorId
  authorization := none
  amount := amount
  status := none
  serviceCharge := none

section
attribute [local instance] Numbers.exact

/-- A repair for 50 is created, paid, and completed. -/
def paidRepair : List LedgerEvent :=
  [.request 1 (repairRequest (some "7") (some "50")), .pay 1 ⟨2016, 6, 1⟩, .toggleStatus 1]

theorem payments_consistent_paid :
    StepsOk Ledger.step LedgerOk Ledger.empty paidRepair ∧
      (run Ledger.step Ledger.empty (paidRepair.take 3)).Consistent := by
  have hok : StepsOk Ledger.step LedgerOk Ledger.empty paidRepair := by decide +kernel
  exact ⟨hok, (payments_consistent paidRepair hok).1 3⟩

/-- The amount of a repair is changed after its payment was paid, and
the payment changes with it. -/
theorem paid_payment_overwritten :
    ¬ PaidKept
      (run Ledger.step Ledger.empty
        [.request 1 (repairRequest (some "7") (some "50")), .pay 1 ⟨2016, 6, 1⟩])
      (run Ledger.step Ledger.empty
        [.request 1 (repairRequest (some "7") (some "50")), .pay 1 ⟨2016, 6, 1⟩,
          .request 1 (repairRequest none (some "80"))]) := by
  intro h
  obtain ⟨p, hp, _, hamt, _⟩ := h 1
    { id := 1, repairId := some 1, contractorId := some 7, amount := some 50,
      paidAt := some ⟨2016, 6, 1⟩ } (by decide +kernel) rfl
  have hafter : ((run Ledger.step Ledger.empty
      [.request 1 (repairRequest (some "7") (some "50")), .pay 1 ⟨2016, 6, 1⟩,
        .request 1 (repairRequest none (some "80"))]).payments.find? 1).map Payment.amount
      = some (some 80) := by decide +kernel
  rw [hp] at hafter
  simp only [Option.map_some, hamt, Option.some.injEq] at hafter
  norm_num at hafter

end

end HomeWarranty.Claims
