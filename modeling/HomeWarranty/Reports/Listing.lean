/-
HomeWarranty.Reports.Listing — the two reports of `ReportsController`
that list customers: those of a state and a status, and the completed
ones without a renewal.

The first reads the customers together with their addresses in one query,
and the condition on the state leaves only the addresses in that state.
So `addresses.last` in the file is a property in the state that was asked
for, and there always is one (`customer_report`).

The second is a table of its own that a task fills: it empties the table
and goes through the customers, newest first. A customer whose amounts
cannot be added ends the task, with the rows before him written and the
others not (`missing_renewal_dates`).
-/
import HomeWarranty.Reports.Export

namespace HomeWarranty.Reports

open Lib Ruby Admin

/-! ## Customers of a state -/

/-- `String#downcase`, ASCII letters only. -/
def downcase (s : String) : String := s.map Char.toLower

structure ReportParams where
  propertyState : Option String
  status : Option String
  fullPropertyInfo : Option String

/-- The state and the status that are asked for. -/
def ReportParams.asked (params : ReportParams) : String × Int :=
  if presentOpt params.propertyState ∧ presentOpt params.status then
    (shown params.propertyState, toI (shown params.status))
  else ("AL", 0)

def ReportParams.full (params : ReportParams) : Bool := params.fullPropertyInfo == some "true"

section
variable {F : Type} (env : Environment F)

/-- The condition of `with_state`. -/
def propertyIn (state : String) (a : ReportAddress) : Bool :=
  sqlEq env.fold a.addressType (some "Property") && sqlEq env.fold a.state (some (downcase state))

/-- A row of `with_state`: the association holds what the condition
leaves of it. -/
def withState (state : String) (c : ReportCustomer F) : Option (ReportCustomer F) :=
  let found := c.addresses.filter (propertyIn env state)
  if found = [] then none else some { c with addresses := found }

/-- `Customer.with_state(state).with_status_id(status)`. -/
def findCustomers (customers : List (ReportCustomer F)) (asked : String × Int) :
    List (ReportCustomer F) :=
  (customers.filter fun c => c.statusId == some asked.2).filterMap (withState env asked.1)

/-- `ReportsController#customer_report` as a file. -/
def customerReport (customers : List (ReportCustomer F)) (params : ReportParams)
    (sep : Csv.Separator) : Except RubyError String :=
  toCsv3 env params.full sep (findCustomers env customers params.asked)

/-- The customers that are asked for. -/
def eligible (asked : String × Int) (c : ReportCustomer F) : Bool :=
  c.statusId == some asked.2 && c.addresses.any (propertyIn env asked.1)

/-- The last property that is asked for. -/
def lastIn (state : String) (c : ReportCustomer F) : Option ReportAddress :=
  (c.addresses.filter (propertyIn env state)).getLast?

/-- What a property is in the file: its street, its city, its state, its
zip code and its country, or its city and its state. -/
def propertyColumns (full : Bool) (c : ReportCustomer F) (a : ReportAddress) : Csv.Row :=
  if full then
    [some (upcase (shown a.address ++ " " ++ shown a.address2 ++ " " ++ shown a.address3)),
      some (upcase (commaFree (shown a.city))), a.state.map upcase,
      some (if c.transactions = [] then shown a.zipCode else upcase (shown a.zipCode)),
      some (upcase (shown a.country))]
  else [some (commaFree (shown a.city)), a.state]

/-- A record of the report for `c`: his number, the label of the status
and the last property of his in the state, from the ninth column on. -/
structure Describes (full : Bool) (asked : String × Int) (c : ReportCustomer F)
    (record : Csv.Row) : Prop where
  id : record[0]? = some (some (toString c.id))
  status : record[5]? = some (some (statusLabel .customer env.statuses (some asked.2)))
  property : ∃ a, lastIn env asked.1 c = some a ∧ a ∈ c.addresses ∧
    propertyIn env asked.1 a = true ∧
    (record.drop 8).take (if full then 5 else 2) = propertyColumns full c a

/-- The city of the last property is there, and so are the approved
amounts if there is more than one. -/
def reportable (state : String) (c : ReportCustomer F) : Prop :=
  (∃ a, lastIn env state c = some a ∧ a.city ≠ none) ∧
    (c.approved.length ≤ 1 ∨ none ∉ c.approved.map ReportTransaction.amount)

/-- The customer as the query returns him. -/
def narrowed (state : String) (c : ReportCustomer F) : ReportCustomer F :=
  { c with addresses := c.addresses.filter (propertyIn env state) }

theorem findCustomers_eq (customers : List (ReportCustomer F)) (asked : String × Int) :
    findCustomers env customers asked
      = (customers.filter (eligible env asked)).map (narrowed env asked.1) := by
  unfold findCustomers
  induction customers with
  | nil => rfl
  | cons c customers ih =>
      cases hstatus : c.statusId == some asked.2 with
      | false => simp [eligible, hstatus, ih]
      | true =>
          cases hany : c.addresses.any (propertyIn env asked.1) with
          | false =>
              have hnone : c.addresses.filter (propertyIn env asked.1) = [] := by
                simpa using hany
              simp [eligible, withState, hstatus, hany, hnone, ih]
          | true =>
              have hsome : c.addresses.filter (propertyIn env asked.1) ≠ [] := by
                simpa using hany
              simp [eligible, withState, narrowed, hstatus, hany, hsome, ih]

theorem exists_last {asked : String × Int} {c : ReportCustomer F} (h : eligible env asked c) :
    ∃ a, lastIn env asked.1 c = some a ∧ a ∈ c.addresses ∧ propertyIn env asked.1 a = true := by
  simp only [eligible, Bool.and_eq_true, List.any_eq_true] at h
  obtain ⟨-, a, ha, hin⟩ := h
  have hne : c.addresses.filter (propertyIn env asked.1) ≠ [] :=
    List.ne_nil_of_mem (List.mem_filter.mpr ⟨ha, hin⟩)
  obtain ⟨hmem, hlast⟩ := List.mem_filter.mp (List.getLast_mem hne)
  exact ⟨_, List.getLast?_eq_getLast_of_ne_nil hne, hmem, hlast⟩

/-- An address in the state has a state. -/
theorem exists_state {state : String} {a : ReportAddress} (h : propertyIn env state a = true) :
    ∃ s, a.state = some s := by
  cases hs : a.state with
  | none => simp [propertyIn, hs] at h
  | some s => exact ⟨s, rfl⟩

/-- The columns about a property whose state is known. -/
theorem csv3Property_of_last (full : Bool) (c : ReportCustomer F) {a : ReportAddress} {s : String}
    (ha : c.addresses.getLast? = some a) (hs : a.state = some s) :
    csv3Property full c = (orRaise a.city).map fun city =>
      if full then
        [some (upcase c.csvPropertyAddress), some (upcase (commaFree city)), some (upcase s),
          some (if c.transactions = [] then c.csvZipcode else upcase c.csvZipcode),
          some (upcase c.csvCountry)]
      else [some (commaFree city), some s] := by
  unfold csv3Property ReportCustomer.custAddressLastCity ReportCustomer.lastState
  rw [ha]
  cases hcity : a.city with
  | none => simp [orRaise, Except.map, bind, Except.bind, hcity]
  | some city =>
      cases full <;> simp [orRaise, Except.map, bind, Except.bind, pure, Except.pure, hs, hcity]

theorem csv3Payments_goes_through_iff (c : ReportCustomer F) :
    (∃ row, csv3Payments env c = .ok row)
      ↔ c.approved.length ≤ 1 ∨ none ∉ c.approved.map ReportTransaction.amount := by
  unfold csv3Payments
  by_cases hnone : c.transactions = []
  · simp [hnone, ReportCustomer.approved]
  · rw [if_neg hnone, ← @List.length_map _ _ c.approved ReportTransaction.amount,
      ← sumAmounts_goes_through_iff env.add]
    simp [map_eq_ok, ReportCustomer.transactionTotalAmountWithSuccess]

/-- When a record goes through. -/
theorem csv3Record_goes_through_iff (full : Bool) {asked : String × Int} {c : ReportCustomer F}
    (h : eligible env asked c = true) :
    (∃ row, csv3Record env full (narrowed env asked.1 c) = .ok row) ↔ reportable env asked.1 c := by
  obtain ⟨a, hlast, -, hin⟩ := exists_last env h
  obtain ⟨s, hs⟩ := exists_state env hin
  have hproperty := csv3Property_of_last full (narrowed env asked.1 c) hlast hs
  have hpayments := csv3Payments_goes_through_iff env (narrowed env asked.1 c)
  rw [reportable, hlast]
  rw [show (narrowed env asked.1 c).approved = c.approved from rfl] at hpayments
  rw [← hpayments]
  simp only [csv3Record, bind_eq_ok, hproperty]
  cases hcity : a.city with
  | none => simp [orRaise, map_eq_ok, hcity]
  | some city => simp [orRaise, map_eq_ok, hcity, pure, Except.pure]

/-- What a record says. -/
theorem describes_of_csv3Record {full : Bool} {asked : String × Int} {c : ReportCustomer F}
    {record : Csv.Row} (h : eligible env asked c = true)
    (hrecord : csv3Record env full (narrowed env asked.1 c) = .ok record) :
    Describes env full asked c record := by
  obtain ⟨a, hlast, hmem, hin⟩ := exists_last env h
  obtain ⟨s, hs⟩ := exists_state env hin
  have hproperty := csv3Property_of_last full (narrowed env asked.1 c) hlast hs
  obtain ⟨property, hok, hrecord⟩ := bind_eq_ok.mp hrecord
  obtain ⟨payments, -, hrecord⟩ := bind_eq_ok.mp hrecord
  rw [hproperty] at hok
  obtain ⟨city, hcity, rfl⟩ := map_eq_ok.mp hok
  have hshown : shown a.city = city := by
    cases hc : a.city with
    | none =>
        rw [hc] at hcity
        cases hcity
    | some x =>
        rw [hc] at hcity
        cases hcity
        rfl
  cases hrecord
  have hstatus : c.statusId = some asked.2 := by
    simpa using (Bool.and_eq_true_iff.mp h).1
  constructor
  · rfl
  · simp [ReportCustomer.cStatus, narrowed, hstatus]
  · refine ⟨a, hlast, hmem, hin, ?_⟩
    have hlast' : (c.addresses.filter (propertyIn env asked.1)).getLast? = some a := hlast
    cases full with
    | false => simp [propertyColumns, hshown, hs]
    | true =>
        simp [propertyColumns, hshown, hs, ReportCustomer.csvPropertyAddress,
          ReportCustomer.csvZipcode, ReportCustomer.csvCountry, ReportCustomer.lastAddress,
          hlast', narrowed]

/-- The report lists the customers of the status with a property in the
state, each once and in their order, with the last of their properties
that are in the state. It fails exactly when one of them is not reportable. -/
theorem customer_report (customers : List (ReportCustomer F)) (params : ReportParams)
    (sep : Csv.Separator) :
    ((∃ text, customerReport env customers params sep = .ok text) ↔
      ∀ c ∈ customers, eligible env params.asked c = true → reportable env params.asked.1 c) ∧
    ∀ text, customerReport env customers params sep = .ok text →
      ∃ records, Csv.read sep text = some ((csv3Header params.full).map some :: records) ∧
        List.Forall₂ (Describes env params.full params.asked)
          (customers.filter (eligible env params.asked)) records := by
  have hread := (read_export env (.customers params.full) sep
    (findCustomers env customers params.asked)).1
  simp only [Export.text, Export.record, Export.header] at hread
  constructor
  · have hgoes : (∃ text, customerReport env customers params sep = .ok text) ↔
        ∃ records, (findCustomers env customers params.asked).mapM (csv3Record env params.full)
          = .ok records := by
      rw [customerReport, toCsv3, generate]
      simp [bind_eq_ok, pure, Except.pure]
    rw [hgoes, mapM_goes_through_iff, findCustomers_eq, List.forall_mem_map]
    simp only [List.mem_filter, and_imp]
    refine forall_congr' fun c => forall_congr' fun _ => forall_congr' fun heligible => ?_
    exact csv3Record_goes_through_iff env params.full heligible
  · intro text htext
    rw [customerReport] at htext
    rw [htext] at hread
    obtain ⟨records, hrecords, hall⟩ := map_eq_ok.mp hread.symm
    refine ⟨records, hall.symm, ?_⟩
    rw [findCustomers_eq] at hrecords
    have hpairs := List.forall₂_map_left_iff.mp (mapM_eq_ok_iff.mp hrecords)
    have hlisted : ∀ c ∈ customers.filter (eligible env params.asked),
        eligible env params.asked c = true := fun c hc => (List.mem_filter.mp hc).2
    have hboth := (List.forall₂_and_left _ _).mpr ⟨hlisted, hpairs⟩
    exact hboth.imp fun c record h => describes_of_csv3Record env h.1 h.2

/-! ## Completed customers without a renewal -/

end

/-- A row of `missing_renewal_dates`. A total that is missing is 0.0. -/
structure MissingRenewal (F : Type) where
  id : Nat
  customerId : Nat
  fullname : String
  customerState : String
  noOfTransaction : Nat
  total : Option F
  cdate : String

instance (F : Type) : Record (MissingRenewal F) where
  key := MissingRenewal.id
  withKey n r := { r with id := n }
  key_withKey := fun _ _ => rfl

section
variable {F : Type} (env : Environment F)

/-- The total of the task; `none` is 0.0. -/
def renewalTotal (c : ReportCustomer F) : Except RubyError (Option F) :=
  if c.transactions = [] then .ok none
  else (sumAmounts env.add (c.transactions.map ReportTransaction.amount)).map fun sum =>
    sum.map env.round2

/-- The row of a customer, as the columns keep it. -/
def missingRow (c : ReportCustomer F) (total : Option F) : MissingRenewal F where
  id := 0
  customerId := c.id
  fullname := textColumn c.custFullname
  customerState := textColumn (c.custState env)
  noOfTransaction := c.transactions.length
  total := total.map env.stored
  cdate := c.createdAt.date.strftimeMdy

def hasRenewal (renewals : Table Renewal) (c : ReportCustomer F) : Bool :=
  renewals.rows.any fun r => r.customerId == c.id

/-- The task `missing_renewal_dates`. The customers come newest first. -/
def missingRenewalDates (renewals : Table Renewal) (customers : List (ReportCustomer F)) :
    Raising (Table (MissingRenewal F)) RubyError PUnit := do
  modify fun t => t.reject fun _ => true
  forM (customers.filter fun c => c.statusId == some 4) fun c =>
    if hasRenewal renewals c then pure ⟨⟩
    else match renewalTotal env c with
      | .error e => throw e
      | .ok total => modify fun t => t.insert (missingRow env c total)

def missingHeader : List String :=
  ["CustomerId", "Fullname", "Customer State", "NumOfPayments", "Total", "CreatedDate"]

def MissingRenewal.fields (r : MissingRenewal F) : Csv.Row :=
  [some (toString r.customerId), some r.fullname, some r.customerState,
    some (toString r.noOfTransaction), some ("$ " ++ (r.total.map env.text).getD "0.0"),
    some r.cdate]

def missingRecord (r : MissingRenewal F) : Except RubyError Csv.Row := .ok (r.fields env)

/-- `order("cdate DESC")`: the column is a text. -/
def byCdate (t : Table (MissingRenewal F)) : List (MissingRenewal F) :=
  t.rows.mergeSort fun r s => decide (s.cdate ≤ r.cdate)

/-- `MissingRenewalDate.to_csv4` of `ReportsController#missing_renewal_dates`. -/
def missingRenewalsFile (sep : Csv.Separator) (t : Table (MissingRenewal F)) :
    Except RubyError String :=
  generate missingHeader (missingRecord env) sep (byCdate t)

/-- The customers the task has a row for, if it gets to them. -/
def lacksRenewal (renewals : Table Renewal) (c : ReportCustomer F) : Bool :=
  c.statusId == some 4 && !hasRenewal renewals c

/-- What the total of a customer raises. -/
def totalRaises (c : ReportCustomer F) : Option RubyError :=
  match renewalTotal env c with
  | .error e => some e
  | .ok _ => none

/-- The row, without its key, that the task writes for a customer. -/
def missingOf (c : ReportCustomer F) : MissingRenewal F :=
  missingRow env c (renewalTotal env c).toOption.join

def MissingRenewal.unkeyed (r : MissingRenewal F) : MissingRenewal F := { r with id := 0 }

/-- One round for a customer without a renewal. -/
theorem exec_missing (c : ReportCustomer F) (t : Table (MissingRenewal F)) :
    exec (match renewalTotal env c with
      | .error e => throw e
      | .ok total => modify fun t => t.insert (missingRow env c total)
        : Raising (Table (MissingRenewal F)) RubyError PUnit) t
      = (raised (totalRaises env c),
          if (totalRaises env c).isNone then t.insert (missingOf env c) else t) := by
  unfold totalRaises missingOf
  cases renewalTotal env c with
  | error e => rfl
  | ok total => rfl

theorem unkeyed_foldl_insert (cs : List (ReportCustomer F)) (t : Table (MissingRenewal F)) :
    (cs.foldl (fun t c => t.insert (missingOf env c)) t).rows.map MissingRenewal.unkeyed
      = t.rows.map MissingRenewal.unkeyed ++ cs.map (missingOf env) := by
  induction cs generalizing t with
  | nil => simp
  | cons c cs ih =>
      rw [List.foldl_cons, ih]
      simp [Table.insert, Record.withKey, MissingRenewal.unkeyed, missingOf, missingRow]

/-- The rows the task leaves, and what it raises. -/
theorem exec_missingRenewalDates (renewals : Table Renewal) (customers : List (ReportCustomer F))
    (t : Table (MissingRenewal F)) :
    let wanted := customers.filter (lacksRenewal renewals)
    exec (missingRenewalDates env renewals customers) t =
      (raised (wanted.findSome? (totalRaises env)),
        (wanted.takeWhile fun c => (totalRaises env c).isNone).foldl
          (fun t c => t.insert (missingOf env c)) (t.reject fun _ => true)) := by
  intro wanted
  have hwanted : (customers.filter fun c => c.statusId == some 4).filter
      (fun c => !hasRenewal renewals c) = wanted := by
    rw [List.filter_filter]
    exact List.filter_congr fun c _ => Bool.and_comm _ _
  rw [missingRenewalDates, exec_modify_bind, exec_forM_skip (hasRenewal renewals), hwanted]
  exact exec_forM (exec_missing env) wanted _

theorem pairwise_byCdate (t : Table (MissingRenewal F)) :
    (byCdate t).Pairwise fun r s => s.cdate ≤ r.cdate := by
  have hsorted := @List.pairwise_mergeSort _
    (fun r s : MissingRenewal F => decide (s.cdate ≤ r.cdate))
    (fun a b c hab hbc => by simpa using String.le_trans (by simpa using hbc) (by simpa using hab))
    (fun a b => by simpa using String.le_total b.cdate a.cdate) t.rows
  simpa [byCdate] using hsorted

/-- The task replaces the table: it leaves a row for every completed
customer without a renewal that comes before the first whose amounts
cannot be added, and raises what that one raises. The file holds just
these rows, by the text of their dates. -/
theorem missing_renewal_dates (renewals : Table Renewal) (customers : List (ReportCustomer F))
    (t : Table (MissingRenewal F)) (sep : Csv.Separator) :
    let wanted := customers.filter (lacksRenewal renewals)
    let written := wanted.takeWhile fun c => (totalRaises env c).isNone
    let after := exec (missingRenewalDates env renewals customers) t
    after.1 = raised (wanted.findSome? (totalRaises env)) ∧
    after.2.rows.map MissingRenewal.unkeyed = written.map (missingOf env) ∧
    ∃ listed : List (MissingRenewal F), listed.Perm after.2.rows ∧
      listed.Pairwise (fun r s => s.cdate ≤ r.cdate) ∧
      (missingRenewalsFile env sep after.2).map (Csv.read sep)
        = .ok (some (missingHeader.map some :: listed.map (MissingRenewal.fields env))) := by
  intro wanted written after
  have hafter := exec_missingRenewalDates env renewals customers t
  refine ⟨congrArg Prod.fst hafter, ?_, byCdate after.2, List.mergeSort_perm _ _,
    pairwise_byCdate after.2, ?_⟩
  · have hrows := unkeyed_foldl_insert env written (t.reject fun _ => true)
    rw [show after.2 = _ from congrArg Prod.snd hafter, hrows]
    simp [Table.reject]
  · have hrecords : (byCdate after.2).mapM (missingRecord env)
        = .ok ((byCdate after.2).map (MissingRenewal.fields env)) := by
      rw [mapM_eq_ok_iff, List.forall₂_map_right_iff]
      exact List.forall₂_same.mpr fun _ _ => rfl
    rw [missingRenewalsFile, read_generate (by decide) (fun r row h => by cases h; rfl), hrecords]
    rfl

end

end HomeWarranty.Reports
