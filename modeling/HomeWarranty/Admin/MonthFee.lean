/-
HomeWarranty.Admin.MonthFee — the months that a customer has free, and
the end of the renewal that they move.

A request to `customers#async_update` that posts a `month_fee` takes the
old months off the end of a renewal and adds the new ones. The renewal
is `customer.renewals.last`. The association is ordered by
`created_at DESC`, so this is the OLDEST one; the renewal that counts,
`customer.renewals.first` in `contract_term_years`, is another one as
soon as there are two. And `Date#>>` clips the day to the month it comes
to, twice at every request, so that a date that went through a short
month does not come back.

`path_independent_iff` says for which runs of such requests none of this
can be seen: `FeeEditOk` at every step.
-/
import HomeWarranty.Admin.CustomerEdit
import HomeWarranty.Ruby.Calendar

namespace HomeWarranty.Admin

open Lib Ruby

/-! ## Requests -/

/-- `customer.renewals.first`: the renewal that was created last. -/
def currentRenewal (t : Table RenewalRow) (id : Nat) : Option RenewalRow :=
  ((renewalsOf t id).insertionSort fun a b => b.createdAt ≤ a.createdAt).head?

/-- `customer.month_fee`. -/
def monthFee (t : Table CustomerRow) (id : Nat) : Option Int :=
  (t.find? id).bind fun c => c.columns .monthFee

/-- A request that sets the months of a customer. -/
structure FeeEdit where
  editor : Editor
  form : CustomerForm
  months : Nat
  posted : form.present .monthFee = true
  months_eq : toI ((form.value .monthFee).getD "") = months
  /-- Nothing else in the form stops the request before the months are
  set. -/
  readable : ∀ c, ∃ prepared, form.prepare editor c = .ok prepared

section
variable (fold : Char → Char) (castOther : CustomerColumn → Option String → Option String)

/-- The database after a request. -/
def editFee (id : Nat) (s : Desk) (e : FeeEdit) : Desk :=
  (asyncUpdate fold castOther s id e.editor (some e.form)).2

end

/-- The customer is there, and valid. -/
def ValidCustomer (id : Nat) (s : Desk) : Prop :=
  ∃ c, s.customers.find? id = some c ∧ c.valid s.customers = true

instance (id : Nat) (s : Desk) : Decidable (ValidCustomer id s) :=
  decidable_of_iff ((s.customers.find? id).any (fun c => c.valid s.customers) = true)
    (Option.any_eq_true _ _)

/-- What is to be seen of the renewals after the months were set to
`months`, and once `s₀` was the database and `r` the current renewal. -/
structure MovedAtOnce (id : Nat) (s₀ : Desk) (r : RenewalRow) (months : Nat) (s : Desk) :
    Prop where
  current : (s.renewals.find? r.id).map RenewalRow.endsAt
    = some (r.shiftedEnd (monthFee s₀.customers id) months)
  others : ∀ k ≠ r.id, s.renewals.find? k = s₀.renewals.find? k
  restored : (months : Int) = (monthFee s₀.customers id).getD 0 →
    (s.renewals.find? r.id).map RenewalRow.endsAt = some r.endsAt

/-- The months are set to what they are, and the month on the way has the
day. -/
def Untouched (d : Date) (fee months : Int) : Prop :=
  months = fee ∧ dayIn (d.monthIndex - fee) d.day = d.day

/-- The date `d` with `fee` months can take the place of the first date
`d₀` with the first `fee₀`: it is as far from it as the months are, the
new end is a date that the column can hold, and `d` has not lost days
that the new end has. If these are the first months again, then no day
was lost at all. -/
def OnCourse (d₀ : Date) (fee₀ : Int) (d : Date) (fee months : Int) : Prop :=
  let base := d₀.monthIndex - fee₀
  let newEnd := dateIn (base + months) (dayIn base d₀.day)
  d.monthIndex - fee = base ∧ newEnd.inColumn = true ∧ newEnd.day ≤ d.day ∧
    (months = fee₀ → dayIn base d₀.day = d₀.day)

instance (d : Date) (fee months : Int) : Decidable (Untouched d fee months) :=
  inferInstanceAs (Decidable (_ ∧ _))

instance (d₀ : Date) (fee₀ : Int) (d : Date) (fee months : Int) :
    Decidable (OnCourse d₀ fee₀ d fee months) :=
  inferInstanceAs (Decidable (_ ∧ _ ∧ _ ∧ _))

/-- The condition for one request, in the state before it. -/
def FeeEditOk (id : Nat) (s₀ : Desk) (r : RenewalRow) (s : Desk) (e : FeeEdit) : Prop :=
  let fee₀ := (monthFee s₀.customers id).getD 0
  let fee := (monthFee s.customers id).getD 0
  let moved := (lastRenewal s.renewals id).bind RenewalRow.endsAt
  if lastRenewal s₀.renewals id = some r then
    ∀ d₀ ∈ r.endsAt, ∀ d ∈ moved, OnCourse d₀ fee₀ d fee e.months
  else (∀ d₀ ∈ r.endsAt, Untouched d₀ fee₀ e.months) ∧ ∀ d ∈ moved, Untouched d fee e.months

instance (id : Nat) (s₀ : Desk) (r : RenewalRow) (s : Desk) (e : FeeEdit) :
    Decidable (FeeEditOk id s₀ r s e) :=
  inferInstanceAs (Decidable (ite (lastRenewal s₀.renewals id = some r) _ _))

/-! ## What one request does to the renewals -/

/-- Only the end of one renewal is written. -/
def setEnd (t : Table RenewalRow) (k : Nat) (d : Option Date) : Table RenewalRow :=
  t.update k (fun r => { r with endsAt := d }) (fun _ => rfl)

theorem find?_setEnd (t : Table RenewalRow) (k j : Nat) (d : Option Date) :
    (setEnd t k d).find? j
      = if j = k then (t.find? j).map (fun r => { r with endsAt := d }) else t.find? j := by
  unfold setEnd
  rw [Table.find?_update]

theorem setEnd_setEnd (t : Table RenewalRow) (k : Nat) (d d' : Option Date) :
    setEnd (setEnd t k d) k d' = setEnd t k d' := by
  unfold setEnd Table.update
  congr 1
  rw [List.map_map]
  refine List.map_congr_left fun r _ => ?_
  by_cases h : Record.key r = k
  · have hk : Record.key { r with endsAt := d } = k := h
    simp [h, hk]
  · simp [h]

theorem setEnd_eq_self {t : Table RenewalRow} {r : RenewalRow} (h : r ∈ t.rows) :
    setEnd t r.id r.endsAt = t := by
  unfold setEnd
  rw [Table.update_eq_self]
  intro r' hr'
  obtain rfl := Option.some.inj ((t.find?_key h).symm.trans hr')
  rfl

/-- The order of the renewals does not change. -/
theorem lastRenewal_setEnd (t : Table RenewalRow) (k id : Nat) (d : Option Date) :
    lastRenewal (setEnd t k d) id
      = (lastRenewal t id).map fun r => if r.id = k then { r with endsAt := d } else r := by
  have hof : renewalsOf (setEnd t k d) id
      = (renewalsOf t id).map fun r => if r.id = k then { r with endsAt := d } else r := by
    unfold renewalsOf setEnd
    rw [Table.rows_update, List.filter_map]
    congr 1
    refine List.filter_congr fun r _ => ?_
    simp only [Function.comp]
    split <;> rfl
  unfold lastRenewal
  have hsort := List.map_insertionSort (fun a b : RenewalRow => b.createdAt ≤ a.createdAt)
    (fun a b : RenewalRow => b.createdAt ≤ a.createdAt)
    (fun r => if r.id = k then { r with endsAt := d } else r) (renewalsOf t id) (by
      intro a _ b _
      split <;> split <;> rfl)
  rw [hof, ← hsort, List.getLast?_map]

/-- The months that are posted come through the preparation of the
form. -/
theorem value_prepare {form prepared : CustomerForm} {editor : Editor} {c : CustomerRow}
    (h : form.prepare editor c = .ok prepared) :
    prepared.value .monthFee = form.value .monthFee := by
  have hset : ∀ (f : CustomerForm) (col : CustomerColumn) (v : Option String),
      col ≠ .monthFee → (f.set col v).value .monthFee = f.value .monthFee := by
    intro f col v hne
    simp [CustomerForm.value, CustomerForm.set, hne.symm]
  have hread : ∀ f g : CustomerForm, f.readPurchaseDate = .ok g →
      g.value .monthFee = f.value .monthFee := by
    intro f g hg
    unfold CustomerForm.readPurchaseDate at hg
    split at hg
    · split at hg
      · cases hg
      · obtain rfl := Except.ok.inj hg
        exact hset f _ _ (by decide)
    · obtain rfl := Except.ok.inj hg
      rfl
  have hhome : form.emptyHomeType.value .monthFee = form.value .monthFee := by
    unfold CustomerForm.emptyHomeType
    split
    · exact hset form _ _ (by decide)
    · rfl
  unfold CustomerForm.prepare at h
  cases hu : updateLastChangeField editor
      ((form.emptyHomeType.set .ccBy (some "admin")).nameOr c) with
  | error e => simp [hu, bind, Except.bind] at h
  | ok by_ =>
      simp only [hu, bind, Except.bind] at h
      rw [hread _ _ h, hset _ _ _ (by decide), hset _ _ _ (by decide), hhome]

theorem copyEmail_renewals (fold : Char → Char) (s : Desk) (o : CustomerObject)
    (form : CustomerForm) : (copyEmail fold s o form).renewals = s.renewals := by
  unfold copyEmail
  split <;> rfl

/-- A request moves the end of the oldest renewal by the difference. -/
theorem editFee_renewals (fold : Char → Char)
    (castOther : CustomerColumn → Option String → Option String) {id : Nat} {s : Desk}
    (hv : ValidCustomer id s) {old : RenewalRow} (hold : lastRenewal s.renewals id = some old)
    (e : FeeEdit) :
    (editFee fold castOther id s e).renewals
      = setEnd s.renewals old.id (old.writtenEnd (monthFee s.customers id) e.months) := by
  obtain ⟨c, hc, hvalid⟩ := hv
  obtain rfl : c.id = id := Table.key_of_find? hc
  obtain ⟨prepared, hp⟩ := e.readable c
  have hvalue := value_prepare hp
  have hposted : prepared.present .monthFee = true := by
    unfold CustomerForm.present
    rw [hvalue]
    exact e.posted
  have hfee : prepared.assignPresent castOther earlyColumns c.columns .monthFee
      = c.columns .monthFee := assignPresent_of_notMem (by decide)
  have hmonth : monthFee s.customers c.id = c.columns .monthFee := by
    unfold monthFee
    rw [hc]
    rfl
  have hshift : (saveEarly castOther s c prepared).1.renewals
      = setEnd s.renewals old.id (old.writtenEnd (monthFee s.customers c.id) e.months) := by
    rw [saveEarly_of_valid hvalid]
    simp only [shiftRenewal, hposted, if_true, hold, CustomerObject.valid,
      (valid_early castOther s.customers prepared c).1, hvalid, hfee, hvalue, e.months_eq, hmonth,
      setEnd]
  rw [← hshift]
  simp only [editFee, asyncUpdate, hc, hp, updateAttributes]
  cases prepared.raises with
  | true => rfl
  | false => exact copyEmail_renewals fold _ _ _

/-! ## Dates -/

/-- A date that is stored comes through the column as it is. -/
theorem writtenEnd_eq {r : RenewalRow} {d : Date} (hr : r.endsAt = some d) (hd : d.Storable)
    (fee : Option Int) (months : Int) :
    r.writtenEnd fee months
      = storeDate ((d.addMonths (-(fee.getD 0))).addMonths months) := by
  have hshift : r.shiftedEnd fee months
      = some ((d.addMonths (-(fee.getD 0))).addMonths months) := by
    rw [RenewalRow.shiftedEnd, hr]
    rfl
  rw [RenewalRow.writtenEnd, hshift, hr]
  split
  · rename_i heq
    rw [Option.some.inj heq, storeDate_eq_some_iff.mpr ⟨rfl, hd.column⟩]
  · rfl

/-- A date stays what it is. -/
theorem addMonths_eq_self_iff {d : Date} (hd : d.Storable) (fee months : Int) :
    (d.addMonths (-fee)).addMonths months = d ↔ Untouched d fee months := by
  conv_lhs => rhs; rw [← hd.eq_dateIn]
  rw [addMonths_addMonths, dateIn_eq_iff, hd.day]
  unfold Untouched
  constructor
  · rintro ⟨hindex, hclip⟩
    have hfirst := dayIn_le (d.monthIndex - fee) d.day
    have hsecond := dayIn_le (d.monthIndex - fee + months) (dayIn (d.monthIndex - fee) d.day)
    exact ⟨by omega, by omega⟩
  · rintro ⟨rfl, hday⟩
    rw [Int.sub_add_cancel, hday, hd.day]
    exact ⟨rfl, rfl⟩

theorem storeDate_eq_self_iff {d : Date} (hd : d.Storable) (fee months : Int) :
    storeDate ((d.addMonths (-fee)).addMonths months) = some d ↔ Untouched d fee months := by
  rw [← addMonths_eq_self_iff hd, storeDate_eq_some_iff, and_iff_left hd.column]

/-- The end of the renewal is where one step from the first end leads. -/
theorem moved_iff_onCourse {d₀ d : Date} (h₀ : d₀.Storable) (hday : d.day ≤ d₀.day)
    (fee₀ fee months : Int) :
    (storeDate ((d.addMonths (-fee)).addMonths months)
        = some ((d₀.addMonths (-fee₀)).addMonths months) ∧
      (months = fee₀ → (d₀.addMonths (-fee₀)).addMonths months = d₀)) ↔
      OnCourse d₀ fee₀ d fee months := by
  have hback : (months = fee₀ → (d₀.addMonths (-fee₀)).addMonths months = d₀) ↔
      (months = fee₀ → dayIn (d₀.monthIndex - fee₀) d₀.day = d₀.day) := by
    refine forall_congr' fun hm => ?_
    rw [addMonths_eq_self_iff h₀, Untouched, and_iff_right hm]
  rw [hback, storeDate_eq_some_iff, addMonths_addMonths, addMonths_addMonths, dateIn_eq_iff]
  unfold OnCourse
  constructor
  · rintro ⟨⟨⟨hindex, hclip⟩, hcolumn⟩, hrest⟩
    have hbase : d.monthIndex - fee = d₀.monthIndex - fee₀ := by omega
    rw [hbase] at hclip
    exact ⟨hbase, hcolumn, (dayIn_dayIn_eq_iff _ _ hday).mp hclip, hrest⟩
  · rintro ⟨hbase, hcolumn, hlost, hrest⟩
    rw [hbase]
    exact ⟨⟨⟨rfl, (dayIn_dayIn_eq_iff _ _ hday).mpr hlost⟩, hcolumn⟩, hrest⟩

/-! ## Runs -/

section
variable {fold : Char → Char} {castOther : CustomerColumn → Option String → Option String}
  {id : Nat} {s₀ s : Desk} {r old : RenewalRow}

/-- What is to be seen, with one renewal. -/
theorem movedAtOnce_only {d : Option Date} (hr : r ∈ s₀.renewals.rows)
    (hs : s.renewals = setEnd s₀.renewals r.id d) (m : Nat) :
    MovedAtOnce id s₀ r m s ↔ d = r.shiftedEnd (monthFee s₀.customers id) m ∧
      ((m : Int) = (monthFee s₀.customers id).getD 0 → d = r.endsAt) := by
  have hread : (s.renewals.find? r.id).map RenewalRow.endsAt = some d := by
    have hfind : s₀.renewals.find? r.id = some r := s₀.renewals.find?_key hr
    rw [hs, find?_setEnd, if_pos rfl, hfind]
    rfl
  constructor
  · rintro ⟨hcurrent, _, hrestored⟩
    rw [hread, Option.some.injEq] at hcurrent hrestored
    exact ⟨hcurrent, hrestored⟩
  · rintro ⟨hcurrent, hrestored⟩
    constructor
    · rw [hread, hcurrent]
    · intro k hk
      rw [hs, find?_setEnd, if_neg hk]
    · intro hm
      rw [hread, hrestored hm]

/-- What is to be seen, with more than one: nothing. -/
theorem movedAtOnce_several {d : Option Date} (hr : r ∈ s₀.renewals.rows)
    (hold : old ∈ s₀.renewals.rows) (hne : old ≠ r)
    (hs : s.renewals = setEnd s₀.renewals old.id d) (m : Nat) :
    MovedAtOnce id s₀ r m s ↔
      r.endsAt = r.shiftedEnd (monthFee s₀.customers id) m ∧ d = old.endsAt := by
  have hids : r.id ≠ old.id := fun h => hne (s₀.renewals.eq_of_key_eq hold hr h.symm)
  have hread : (s.renewals.find? r.id).map RenewalRow.endsAt = some r.endsAt := by
    have hfind : s₀.renewals.find? r.id = some r := s₀.renewals.find?_key hr
    rw [hs, find?_setEnd, if_neg hids, hfind]
    rfl
  have hfind : s₀.renewals.find? old.id = some old := s₀.renewals.find?_key hold
  have hmoved : s.renewals.find? old.id = some { old with endsAt := d } := by
    rw [hs, find?_setEnd, if_pos rfl, hfind]
    rfl
  constructor
  · rintro ⟨hcurrent, hothers, _⟩
    have hother := hothers old.id hids.symm
    rw [hmoved, hfind, Option.some.injEq] at hother
    exact ⟨Option.some.inj (hread.symm.trans hcurrent), congrArg RenewalRow.endsAt hother⟩
  · rintro ⟨hcurrent, rfl⟩
    rw [setEnd_eq_self hold] at hs
    constructor
    · rw [hread, hcurrent]
    · intro k _
      rw [hs]
    · intro _
      exact hread

/-- An end that is there is not lost, and gains no days. -/
def EndKept : Option Date → Option Date → Prop
  | none, d => d = none
  | some d₀, d => ∃ x, d = some x ∧ x.Storable ∧ x.day ≤ d₀.day

/-- A state that a good run can be in: at most the oldest renewal was
moved, and if it is not the current one it is back where it was. -/
def Fit (s₀ : Desk) (r old : RenewalRow) (s : Desk) : Prop :=
  ∃ d, s.renewals = setEnd s₀.renewals old.id d ∧
    if old = r then EndKept r.endsAt d else d = old.endsAt

/-- The oldest renewal now. -/
theorem lastRenewal_of_setEnd {d : Option Date} (hold : lastRenewal s₀.renewals id = some old)
    (hs : s.renewals = setEnd s₀.renewals old.id d) :
    lastRenewal s.renewals id = some { old with endsAt := d } := by
  rw [hs, lastRenewal_setEnd, hold]
  simp

/-- The renewals after one more request. -/
theorem editFee_of_setEnd (fold : Char → Char)
    (castOther : CustomerColumn → Option String → Option String) {d : Option Date}
    (hold : lastRenewal s₀.renewals id = some old)
    (hs : s.renewals = setEnd s₀.renewals old.id d) (hv : ValidCustomer id s) (e : FeeEdit) :
    (editFee fold castOther id s e).renewals = setEnd s₀.renewals old.id
      (RenewalRow.writtenEnd { old with endsAt := d } (monthFee s.customers id) e.months) := by
  rw [editFee_renewals fold castOther hv (lastRenewal_of_setEnd hold hs), hs, setEnd_setEnd]

/-- With one renewal, a request does what it is to do when the end is on
course. -/
theorem movedAtOnce_iff_only (hr : r ∈ s₀.renewals.rows)
    (hstored : ∀ d ∈ r.endsAt, d.Storable) (hlast : lastRenewal s₀.renewals id = some r)
    (hfit : Fit s₀ r r s) (hv : ValidCustomer id s) (e : FeeEdit) :
    MovedAtOnce id s₀ r e.months (editFee fold castOther id s e) ↔ FeeEditOk id s₀ r s e := by
  obtain ⟨d, hs, hkept⟩ := hfit
  rw [if_pos rfl] at hkept
  rw [movedAtOnce_only hr (editFee_of_setEnd fold castOther hlast hs hv e)]
  simp only [FeeEditOk, hlast, if_true, lastRenewal_of_setEnd hlast hs, Option.bind_some]
  cases hend : r.endsAt with
  | none =>
      rw [hend] at hkept
      obtain rfl : d = none := hkept
      simp [RenewalRow.writtenEnd, RenewalRow.shiftedEnd, hend]
  | some d₀ =>
      rw [hend] at hkept
      obtain ⟨x, rfl, hx, hday⟩ := hkept
      have hwritten := writtenEnd_eq (r := { r with endsAt := some x }) rfl hx
      have hshift : r.shiftedEnd (monthFee s₀.customers id) e.months
          = some ((d₀.addMonths (-((monthFee s₀.customers id).getD 0))).addMonths e.months) := by
        rw [RenewalRow.shiftedEnd, hend]
        rfl
      simp only [hwritten, hshift, Option.mem_some_iff, forall_eq']
      rw [← moved_iff_onCourse (hstored d₀ hend) hday]
      refine and_congr_right fun hmoved => ?_
      rw [hmoved, Option.some.injEq]

/-- And leaves a fit state behind. -/
theorem fit_of_movedAtOnce_only (hr : r ∈ s₀.renewals.rows)
    (hlast : lastRenewal s₀.renewals id = some r)
    (hfit : Fit s₀ r r s) (hv : ValidCustomer id s) {e : FeeEdit}
    (hmoved : MovedAtOnce id s₀ r e.months (editFee fold castOther id s e)) :
    Fit s₀ r r (editFee fold castOther id s e) := by
  obtain ⟨d, hs, hkept⟩ := hfit
  rw [if_pos rfl] at hkept
  have hnext := editFee_of_setEnd fold castOther hlast hs hv e
  have hend := ((movedAtOnce_only hr hnext _).mp hmoved).1
  refine ⟨_, hnext, ?_⟩
  rw [if_pos rfl]
  cases hfirst : r.endsAt with
  | none =>
      rw [hend, RenewalRow.shiftedEnd, hfirst]
      rfl
  | some d₀ =>
      rw [hfirst] at hkept
      obtain ⟨x, rfl, hx, _⟩ := hkept
      rw [RenewalRow.shiftedEnd, hfirst, Option.map_some, addMonths_addMonths] at hend
      have hwritten := writtenEnd_eq (r := { r with endsAt := some x }) rfl hx
        (monthFee s.customers id) e.months
      have hcolumn := (storeDate_eq_some_iff.mp (hwritten.symm.trans hend)).2
      refine ⟨_, hend, storable_dateIn hcolumn, ?_⟩
      rw [day_dateIn]
      exact (dayIn_le _ _).trans (dayIn_le _ _)

/-- With more renewals, a request does what it is to do when it does
nothing. -/
theorem movedAtOnce_iff_several (hr : r ∈ s₀.renewals.rows)
    (hold : old ∈ s₀.renewals.rows) (hne : old ≠ r)
    (hstored : ∀ r ∈ s₀.renewals.rows, ∀ d ∈ r.endsAt, d.Storable)
    (hlast : lastRenewal s₀.renewals id = some old)
    (hfit : Fit s₀ r old s) (hv : ValidCustomer id s) (e : FeeEdit) :
    MovedAtOnce id s₀ r e.months (editFee fold castOther id s e) ↔ FeeEditOk id s₀ r s e := by
  obtain ⟨d, hs, hkept⟩ := hfit
  rw [if_neg hne] at hkept
  subst hkept
  have hnot : lastRenewal s₀.renewals id ≠ some r := by
    rw [hlast]
    simpa using hne
  rw [movedAtOnce_several hr hold hne (editFee_of_setEnd fold castOther hlast hs hv e)]
  simp only [FeeEditOk, if_neg hnot, lastRenewal_of_setEnd hlast hs, Option.bind_some]
  refine and_congr ?_ ?_
  · cases hend : r.endsAt with
    | none => simp [RenewalRow.shiftedEnd, hend]
    | some d₀ =>
        simp only [RenewalRow.shiftedEnd, hend, Option.map_some, Option.some.injEq,
          Option.mem_some_iff, forall_eq']
        rw [eq_comm, addMonths_eq_self_iff (hstored r hr d₀ hend)]
  · cases hend : old.endsAt with
    | none => simp [RenewalRow.writtenEnd, RenewalRow.shiftedEnd]
    | some d =>
        rw [writtenEnd_eq (r := { old with endsAt := some d }) rfl (hstored old hold d hend)]
        simp only [Option.mem_some_iff, forall_eq']
        rw [storeDate_eq_self_iff (hstored old hold d hend)]

theorem fit_of_movedAtOnce_several (hr : r ∈ s₀.renewals.rows)
    (hold : old ∈ s₀.renewals.rows) (hne : old ≠ r)
    (hlast : lastRenewal s₀.renewals id = some old)
    (hfit : Fit s₀ r old s) (hv : ValidCustomer id s) {e : FeeEdit}
    (hmoved : MovedAtOnce id s₀ r e.months (editFee fold castOther id s e)) :
    Fit s₀ r old (editFee fold castOther id s e) := by
  obtain ⟨d, hs, _⟩ := hfit
  have hnext := editFee_of_setEnd fold castOther hlast hs hv e
  refine ⟨_, hnext, ?_⟩
  rw [if_neg hne]
  exact ((movedAtOnce_several hr hold hne hnext _).mp hmoved).2

/-- Every customer with a current renewal has an oldest one. -/
theorem exists_lastRenewal {t : Table RenewalRow} (h : currentRenewal t id = some r) :
    r ∈ t.rows ∧ ∃ old, lastRenewal t id = some old ∧ old ∈ t.rows := by
  have hmem : r ∈ renewalsOf t id := (List.mem_insertionSort _).mp (List.mem_of_head? h)
  refine ⟨(List.mem_filter.mp hmem).1, ?_⟩
  cases hl : lastRenewal t id with
  | none =>
      rw [lastRenewal, List.getLast?_eq_none_iff] at hl
      rw [currentRenewal, hl] at h
      cases h
  | some old => exact ⟨old, rfl, (List.mem_filter.mp (mem_renewalsOf_of_last hl)).1⟩

end

/-- **Edits of the free months are path independent** exactly when every
one of them finds the end of the only renewal on course; or, with more
renewals than one, when none of them changes a date. -/
theorem path_independent_iff (fold : Char → Char)
    (castOther : CustomerColumn → Option String → Option String) (s₀ : Desk) (id : Nat)
    (r : RenewalRow) (hr : currentRenewal s₀.renewals id = some r)
    (hstored : ∀ r ∈ s₀.renewals.rows, ∀ d ∈ r.endsAt, d.Storable) (es : List FeeEdit)
    (hvalid : StepsOk (editFee fold castOther id) (fun s _ => ValidCustomer id s) s₀ es) :
    (∀ pre e post, es = pre ++ e :: post →
      MovedAtOnce id s₀ r e.months (run (editFee fold castOther id) s₀ (pre ++ [e]))) ↔
      StepsOk (editFee fold castOther id) (FeeEditOk id s₀ r) s₀ es := by
  obtain ⟨hmem, old, hlast, hold⟩ := exists_lastRenewal hr
  have hstart : Fit s₀ r old s₀ := by
    refine ⟨old.endsAt, (setEnd_eq_self hold).symm, ?_⟩
    split
    · rename_i heq
      subst heq
      cases hend : old.endsAt with
      | none => rfl
      | some d => exact ⟨d, rfl, hstored old hold d hend, le_refl _⟩
    · rfl
  refine forall_events_iff_stepsOk (Fit s₀ r old) (fun e s => MovedAtOnce id s₀ r e.months s)
    ?_ ?_ es s₀ hstart hvalid
  · intro s e hfit hv
    by_cases hne : old = r
    · subst hne
      exact movedAtOnce_iff_only hmem (hstored old hmem) hlast hfit hv e
    · exact movedAtOnce_iff_several hmem hold hne hstored hlast hfit hv e
  · intro s e hfit hv hmoved
    by_cases hne : old = r
    · subst hne
      exact fit_of_movedAtOnce_only hmem hlast hfit hv hmoved
    · exact fit_of_movedAtOnce_several hmem hold hne hlast hfit hv hmoved

/-! ## A customer with two renewals, and one with one -/

/-- An agent sets the months of a customer. -/
def setMonths (text : String) (months : Nat)
    (h : presentOpt (some text) = true ∧ toI text = months) : FeeEdit where
  editor := .named (some "Agent")
  form := formOf [(.monthFee, text)]
  months := months
  posted := h.1
  months_eq := h.2
  readable := fun _ => ⟨_, rfl⟩

/-- A customer without free months, and some renewals. -/
def renewedDesk (ends : List (Option Date)) : Desk where
  customers := .ofRows [⟨1, annColumns⟩]
  renewals := .ofRows (ends.zipIdx.map fun e => ⟨0, some 1, none, e.1, none, some 1, e.2⟩)
  accounts := .empty

/-- The second renewal is the current one; three free months go to the
first. -/
theorem second_renewal_not_moved :
    ¬ ∀ (fold : Char → Char) (castOther : CustomerColumn → Option String → Option String)
        (s₀ : Desk) (id : Nat) (r : RenewalRow),
      currentRenewal s₀.renewals id = some r →
      (∀ r ∈ s₀.renewals.rows, ∀ d ∈ r.endsAt, d.Storable) → ∀ es : List FeeEdit,
      StepsOk (editFee fold castOther id) (fun s _ => ValidCustomer id s) s₀ es →
      ∀ pre e post, es = pre ++ e :: post →
        MovedAtOnce id s₀ r e.months (run (editFee fold castOther id) s₀ (pre ++ [e])) := by
  intro hall
  have h := hall Char.toLower castText
    (renewedDesk [some ⟨2014, 1, 15⟩, some ⟨2015, 1, 15⟩]) 1
    ⟨2, some 1, none, some ⟨2015, 1, 15⟩, none, some 1, 1⟩ (by decide +kernel)
    (by decide +kernel)
    [setMonths "3" 3 (by decide +kernel)] ⟨⟨_, rfl, by decide +kernel⟩, trivial⟩ [] _ [] rfl
  have hend := h.current
  revert hend
  decide +kernel

/-- The renewal of a customer who has one. -/
def onlyRenewal (d : Date) : RenewalRow := ⟨1, some 1, none, some d, none, some 1, 0⟩

/-- Three months, none and five. -/
def someEdits : List FeeEdit :=
  [setMonths "3" 3 (by decide +kernel), setMonths "0" 0 (by decide +kernel),
    setMonths "5" 5 (by decide +kernel)]

/-- On a day that all months have. -/
theorem fifteenth_moved_at_once :
    StepsOk (editFee Char.toLower castText 1)
        (FeeEditOk 1 (renewedDesk [some ⟨2014, 1, 15⟩]) (onlyRenewal ⟨2014, 1, 15⟩))
        (renewedDesk [some ⟨2014, 1, 15⟩]) someEdits ∧
      ∀ pre e post, someEdits = pre ++ e :: post →
        MovedAtOnce 1 (renewedDesk [some ⟨2014, 1, 15⟩]) (onlyRenewal ⟨2014, 1, 15⟩) e.months
          (run (editFee Char.toLower castText 1) (renewedDesk [some ⟨2014, 1, 15⟩])
            (pre ++ [e])) := by
  have hok : StepsOk (editFee Char.toLower castText 1)
      (FeeEditOk 1 (renewedDesk [some ⟨2014, 1, 15⟩]) (onlyRenewal ⟨2014, 1, 15⟩))
      (renewedDesk [some ⟨2014, 1, 15⟩]) someEdits := by decide +kernel
  exact ⟨hok, (path_independent_iff Char.toLower castText _ 1 _ (by decide +kernel)
    (by decide +kernel) someEdits (by decide +kernel)).mpr hok⟩

end HomeWarranty.Admin
