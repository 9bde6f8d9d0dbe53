/-
HomeWarranty.Admin.CustomerEdit — `customers#async_update`, and what it
leaves behind when its last save is refused.

The action saves a customer twice. It first assigns eight columns one by
one, moves the end of a renewal when a month fee is posted, and saves;
then it assigns the whole form and saves again; last it copies the
e-mail of the object in memory to the customer's web account. Nothing is
undone when the second save is refused, and the account is written to in
that case too. `leaves_no_trace_iff` says for which requests this cannot
be seen: `Traceless`.

A row is a function of its columns, each of which has the values of its
type in `db/schema.rb`. What Rails and MySQL make of a text that is
posted for a column of a type other than string, text, integer and
boolean (dates, times, floats, decimals) is the parameter `castOther`.
The timestamps of the rows are left out, but for the time a renewal was
created, which orders the renewals of a customer.
-/
import Mathlib.Data.List.Sort
import HomeWarranty.Lib.Run
import HomeWarranty.Records

namespace HomeWarranty.Admin

open Lib Ruby

/-! ## Columns -/

inductive ColumnType where
  | string
  | text
  | integer
  | boolean
  | other
  deriving DecidableEq

/-- The values of a column; `none` is NULL. -/
def ColumnType.Val : ColumnType → Type
  | .string => Option String
  | .text => Option String
  | .integer => Option Int
  | .boolean => Option Bool
  | .other => Option String

instance : (t : ColumnType) → DecidableEq t.Val
  | .string => inferInstanceAs (DecidableEq (Option String))
  | .text => inferInstanceAs (DecidableEq (Option String))
  | .integer => inferInstanceAs (DecidableEq (Option Int))
  | .boolean => inferInstanceAs (DecidableEq (Option Bool))
  | .other => inferInstanceAs (DecidableEq (Option String))

/-- The value an attribute has after a text was assigned to it. -/
def ColumnType.cast (castOther : Option String → Option String) :
    (t : ColumnType) → Option String → t.Val
  | .string, v => v
  | .text, v => v
  | .integer, v => castInteger v
  | .boolean, v => castBoolean v
  | .other, v => castOther v

/-- What the column holds of a value that is written to it. -/
def ColumnType.store : (t : ColumnType) → t.Val → t.Val
  | .string, v => Option.map textColumn v
  | .text, v => v
  | .integer, v => Option.map storeInt v
  | .boolean, v => v
  | .other, v => v

/-- What the column holds after a save: a value that did not change is
not written. -/
def ColumnType.write (t : ColumnType) (old new : t.Val) : t.Val :=
  if new = old then old else t.store new

/-- The columns of `customers`. -/
inductive CustomerColumn where
  | email
  | firstName
  | lastName
  | customerAddress
  | customerCity
  | customerState
  | customerZip
  | customerPhone
  | coverageType
  | coverageAddon
  | homeType
  | payAmount
  | numPayments
  | disabled
  | coverageEnd
  | coverageEndsAt
  | subscriptionId
  | validated
  | customerComment
  | creditCardNumberHash
  | expirationDate
  | statusId
  | timestamp
  | ip
  | billingFirstName
  | billingLastName
  | billingAddress
  | billingCity
  | billingState
  | billingZip
  | agentId
  | discountId
  | cancellationReasonId
  | icontactId
  | from
  | serviceFeeTextOverride
  | serviceFeeAmtOverride
  | waitPeriodTextOverride
  | waitPeriodDaysOverride
  | numPaymentsOverride
  | paymentScheduleOverride
  | notesOverride
  | homeSizeCode
  | homeOccupancyCode
  | workPhone
  | mobilePhone
  | callBackOn
  | partnerId
  | leadid
  | datetimestamp
  | isShowCreditCard
  | ccBy
  | customerFrom
  | updateBy
  | subAffiliateId
  | subid
  | contractStatusId
  | leadStatusId
  | contractStartDate
  | contractDuration
  | totalBilled
  | monthFee
  | policySigned
  | year
  | merchantName
  | gatewayId
  | purchaseDate
  deriving DecidableEq

/-- The type of a column in the schema. -/
def CustomerColumn.type : CustomerColumn → ColumnType
  | .creditCardNumberHash => .text
  | .coverageType | .numPayments | .disabled | .coverageEnd | .validated | .statusId
  | .timestamp | .agentId | .discountId | .cancellationReasonId | .icontactId
  | .waitPeriodDaysOverride | .numPaymentsOverride | .homeSizeCode | .homeOccupancyCode
  | .partnerId | .subAffiliateId | .contractStatusId | .leadStatusId | .contractDuration
  | .monthFee | .year | .gatewayId => .integer
  | .isShowCreditCard | .policySigned => .boolean
  | .coverageEndsAt | .serviceFeeAmtOverride | .callBackOn | .datetimestamp
  | .contractStartDate | .totalBilled => .other
  | _ => .string

/-- The columns that `attr_accessible` lets a form write. The writer
`billing_address=` is that of the association, not of the column. -/
def CustomerColumn.accessible : CustomerColumn → Bool
  | .statusId | .agentId | .discountId | .cancellationReasonId | .icontactId | .partnerId
  | .subAffiliateId | .billingAddress => false
  | _ => true

/-- A value for every column. -/
def Columns : Type := (c : CustomerColumn) → c.type.Val

/-! ## Rows -/

structure CustomerRow where
  id : Nat
  columns : Columns

instance : Record CustomerRow where
  key := CustomerRow.id
  withKey n c := { c with id := n }
  key_withKey := fun _ _ => rfl

def CustomerRow.email (c : CustomerRow) : Option String := c.columns .email

def CustomerRow.leadid (c : CustomerRow) : Option String := c.columns .leadid

/-- The validations of `Customer`. -/
def CustomerRow.valid (t : Table CustomerRow) (c : CustomerRow) : Bool :=
  presentOpt (c.columns .firstName) && presentOpt (c.columns .lastName)
    && presentOpt (c.columns .customerPhone) && presentOpt c.email
    && (blankOpt c.leadid || !t.rows.any (fun r => r.leadid == c.leadid && r.id != c.id))

/-- They are the validations of `Records.Customer`. -/
theorem CustomerRow.valid_eq {t : Table CustomerRow} {u : Table Customer} {c : CustomerRow}
    {d : Customer}
    (htables : t.rows.map (fun r => (r.id, r.leadid)) = u.rows.map fun r => (r.id, r.leadid))
    (hid : c.id = d.id) (hfirst : c.columns .firstName = d.firstName)
    (hlast : c.columns .lastName = d.lastName) (hphone : c.columns .customerPhone = d.customerPhone)
    (hemail : c.email = d.email) (hlead : c.leadid = d.leadid) :
    c.valid t = d.valid u := by
  have htaken : ∀ (l : Option String) (k : Nat),
      t.rows.any (fun r => r.leadid == l && r.id != k)
        = u.rows.any (fun r => r.leadid == l && r.id != k) := by
    intro l k
    have h := congrArg (fun rows => rows.any fun r : Nat × Option String => r.2 == l && r.1 != k)
      htables
    simpa only [List.any_map, Function.comp_def] using h
  unfold CustomerRow.valid Customer.valid
  rw [hfirst, hlast, hphone, hemail, hlead, hid, htaken]

/-- A row of `renewals`. -/
structure RenewalRow where
  id : Nat
  customerId : Option Nat
  startsAt : Option Date
  endsAt : Option Date
  amount : Option ℚ
  years : Option Int
  createdAt : Nat
  deriving DecidableEq

instance : Record RenewalRow where
  key := RenewalRow.id
  withKey n r := { r with id := n }
  key_withKey := fun _ _ => rfl

/-- What the action reads and writes. -/
structure Desk where
  customers : Table CustomerRow
  renewals : Table RenewalRow
  accounts : Table Account

/-- The renewals of a customer, in key order. -/
def renewalsOf (t : Table RenewalRow) (id : Nat) : List RenewalRow :=
  t.rows.filter fun r => r.customerId == some id

/-- `customer.renewals.last`: the association is ordered by
`created_at DESC`. -/
def lastRenewal (t : Table RenewalRow) (id : Nat) : Option RenewalRow :=
  ((renewalsOf t id).insertionSort fun a b => b.createdAt ≤ a.createdAt).getLast?

/-! ## A customer in memory -/

/-- A loaded customer: its columns when it was last read or saved, and
its attributes now. -/
structure CustomerObject where
  id : Nat
  saved : Columns
  now : Columns

def CustomerObject.valid (t : Table CustomerRow) (o : CustomerObject) : Bool :=
  CustomerRow.valid t ⟨o.id, o.now⟩

/-- `UPDATE` of the columns that changed. -/
def CustomerObject.write (o : CustomerObject) (stored : Columns) : Columns :=
  fun c => if o.now c = o.saved c then stored c else c.type.store (o.now c)

/-- `customer.save`. -/
def CustomerObject.save (t : Table CustomerRow) (o : CustomerObject) :
    Bool × Table CustomerRow × CustomerObject :=
  if o.valid t then
    (true, t.update o.id (fun r => { r with columns := o.write r.columns }) (fun _ => rfl),
      { o with saved := o.now })
  else (false, t, o)

/-- `params[:customer]`. A key may be missing, and its value may be
`nil`. -/
structure CustomerForm where
  columns : CustomerColumn → Option (Option String)
  /-- What `coverages=` makes of the list of add-ons. -/
  coverages : Option String
  /-- What `credit_card_number=` makes of the number. -/
  creditCardNumber : Option String
  /-- Something in the form cannot be assigned: a nested property that
  is not there, a billing address that is not a record, a number that
  cannot be encrypted. -/
  raises : Bool

/-- `params[:customer][key]`. -/
def CustomerForm.value (form : CustomerForm) (c : CustomerColumn) : Option String :=
  (form.columns c).join

/-- `params[:customer][key].present?`. -/
def CustomerForm.present (form : CustomerForm) (c : CustomerColumn) : Bool :=
  presentOpt (form.value c)

/-- `params[:customer][key] = v`. -/
def CustomerForm.set (form : CustomerForm) (c : CustomerColumn) (v : Option String) :
    CustomerForm :=
  { form with columns := fun d => if d = c then some v else form.columns d }

/-- `update_last_change_field`: who is logged in. -/
inductive Editor where
  /-- The account of an agent, a customer or a contractor, with the name
  of its parent. -/
  | named (name : Option String)
  /-- Such an account whose parent is gone. -/
  | orphan
  | other

def updateLastChangeField (editor : Editor) (default : Option String) :
    Except RubyError (Option String) :=
  match editor with
  | .named name => .ok name
  | .orphan => .error .noMethodError
  | .other => .ok default

/-- The name that is written when nobody else's is. -/
def CustomerForm.nameOr (form : CustomerForm) (c : CustomerRow) : Option String :=
  if form.present .firstName then form.value .firstName else c.columns .firstName

/-- `home_type` is `nil` when it is empty. -/
def CustomerForm.emptyHomeType (form : CustomerForm) : CustomerForm :=
  if form.value .homeType = some "" then form.set .homeType none else form

/-- `purchase_date` as it is read and printed again. -/
def CustomerForm.readPurchaseDate (form : CustomerForm) : Except RubyError CustomerForm :=
  if form.present .purchaseDate then
    match strptimeMdy ((form.value .purchaseDate).getD "") with
    | none => .error .argumentError
    | some d => .ok (form.set .purchaseDate (some d.strftimeMdy))
  else .ok form

/-- What `async_update` makes of its parameters. The date of the call
back is a matter of `castOther`. -/
def CustomerForm.prepare (form : CustomerForm) (editor : Editor) (c : CustomerRow) :
    Except RubyError CustomerForm := do
  let form := form.emptyHomeType.set .ccBy (some "admin")
  let updatedBy ← updateLastChangeField editor (form.nameOr c)
  (form.set .updateBy updatedBy).readPurchaseDate

section
variable (fold : Char → Char) (castOther : CustomerColumn → Option String → Option String)

/-- The value an attribute has after a text was assigned to it. -/
def CustomerColumn.cast (c : CustomerColumn) (v : Option String) : c.type.Val :=
  c.type.cast (castOther c) v

/-- `customer.x = params[:customer][:x] if params[:customer][:x].present?`,
for each of some columns. -/
def CustomerForm.assignPresent (form : CustomerForm) (cols : List CustomerColumn)
    (attrs : Columns) : Columns := fun c =>
  if c ∈ cols ∧ form.present c = true then c.cast castOther (form.value c) else attrs c

/-- `customer.attributes = params[:customer]`. -/
def CustomerForm.massAssign (form : CustomerForm) (attrs : Columns) : Columns := fun c =>
  match c, form.coverages, form.creditCardNumber with
  | .coverageAddon, some addons, _ => some addons
  | .creditCardNumberHash, _, some hash => some hash
  | c, _, _ =>
      match form.columns c with
      | none => attrs c
      | some v => if c.accessible then c.cast castOther v else attrs c

/-- The columns that are assigned before a renewal is looked at. -/
def earlyColumns : List CustomerColumn :=
  [.cancellationReasonId, .agentId, .statusId, .subscriptionId, .contractStatusId,
    .policySigned, .year]

/-- The end of a renewal after the month fee changed. -/
def RenewalRow.shiftedEnd (r : RenewalRow) (oldFee : Option Int) (newFee : Int) : Option Date :=
  r.endsAt.map fun d => (d.addMonths (-(oldFee.getD 0))).addMonths newFee

/-- What the column holds of it. -/
def RenewalRow.writtenEnd (r : RenewalRow) (oldFee : Option Int) (newFee : Int) : Option Date :=
  if r.shiftedEnd oldFee newFee = r.endsAt then r.endsAt
  else (r.shiftedEnd oldFee newFee).bind storeDate

/-- The part of `async_update` about the renewal. -/
def shiftRenewal (s : Desk) (o : CustomerObject) (form : CustomerForm) : Table RenewalRow :=
  if form.present .monthFee then
    match lastRenewal s.renewals o.id with
    | none => s.renewals
    | some r =>
        if o.valid s.customers then
          s.renewals.update r.id
            (fun r' => { r' with
              endsAt := r.writtenEnd (o.now .monthFee) (toI ((form.value .monthFee).getD "")) })
            (fun _ => rfl)
        else s.renewals
  else s.renewals

/-- `async_update` up to the first save. -/
def saveEarly (s : Desk) (c : CustomerRow) (form : CustomerForm) : Desk × CustomerObject :=
  let o : CustomerObject := ⟨c.id, c.columns, form.assignPresent castOther earlyColumns c.columns⟩
  let renewals := shiftRenewal s o form
  let o := { o with now := form.assignPresent castOther [.monthFee] o.now }
  let (_, customers, o) := o.save s.customers
  ({ s with customers := customers, renewals := renewals }, o)

/-- `customer.update_attributes(params[:customer])`. -/
def updateAttributes (s : Desk) (o : CustomerObject) (form : CustomerForm) :
    Except RubyError (Bool × Desk × CustomerObject) :=
  if form.raises then .error .externalError
  else
    let (updated, customers, o) :=
      CustomerObject.save s.customers { o with now := form.massAssign castOther o.now }
    .ok (updated, { s with customers := customers }, o)

/-- What a string column holds of a text that is assigned to it. -/
def writtenText (old new : Option String) : Option String :=
  if new = old then old else new.map textColumn

@[simp] theorem writtenText_self (text : Option String) : writtenText text text = text := if_pos rfl

/-- `account.update_attributes({:email => email})`. -/
def updateAccountEmail (t : Table Account) (a : Account) (email : Option String) :
    Table Account :=
  if ({ a with email := email } : Account).valid t then
    t.update a.id (fun r => { r with email := writtenText a.email email }) (fun _ => rfl)
  else t

/-- The account of a customer gets the e-mail of the object in memory. -/
def copyEmail (s : Desk) (o : CustomerObject) (form : CustomerForm) : Desk :=
  match form.value .email, accountFor fold s.accounts "Customer" o.id with
  | some _, some a => { s with accounts := updateAccountEmail s.accounts a (o.now .email) }
  | _, _ => s

/-- What comes of a request. -/
inductive EditOutcome where
  | raised (e : RubyError)
  /-- The request goes through; `updated` is what `update_attributes`
  returned. -/
  | finished (updated : Bool)
  deriving DecidableEq

/-- `customers#async_update`. -/
def asyncUpdate (s : Desk) (id : Nat) (editor : Editor) (form : Option CustomerForm) :
    EditOutcome × Desk :=
  match s.customers.find? id, form with
  | none, _ => (.raised .recordNotFound, s)
  | some _, none => (.raised .noMethodError, s)
  | some c, some form =>
      match form.prepare editor c with
      | .error e => (.raised e, s)
      | .ok form =>
          let (s, o) := saveEarly castOther s c form
          match updateAttributes castOther s o form with
          | .error e => (.raised e, s)
          | .ok (updated, s, o) => (.finished updated, copyEmail fold s o form)

end

/-! ## What can be seen of a refused edit -/

section
variable (fold : Char → Char) (castOther : CustomerColumn → Option String → Option String)

/-- The attributes with which the first save is tried. -/
def CustomerForm.earlyAttrs (form : CustomerForm) (c : CustomerRow) : Columns :=
  form.assignPresent castOther [.monthFee] (form.assignPresent castOther earlyColumns c.columns)

/-- The attributes with which the second save is tried. -/
def CustomerForm.lateAttrs (form : CustomerForm) (c : CustomerRow) : Columns :=
  form.massAssign castOther (form.earlyAttrs castOther c)

/-- If the last save is refused, the customer, its renewals and its
account are as they were. -/
def NoTrace (s : Desk) (id : Nat) (editor : Editor) (form : Option CustomerForm) : Prop :=
  (asyncUpdate fold castOther s id editor form).1 = .finished false →
    let s' := (asyncUpdate fold castOther s id editor form).2
    s'.customers.find? id = s.customers.find? id ∧
      renewalsOf s'.renewals id = renewalsOf s.renewals id ∧
      accountFor fold s'.accounts "Customer" id = accountFor fold s.accounts "Customer" id

/-- Of the columns that the first save writes, each one that is posted
holds what is posted. -/
def EarlyKeeps (c : CustomerRow) (form : CustomerForm) : Prop :=
  ∀ col ∈ CustomerColumn.monthFee :: earlyColumns, form.present col = true →
    col.type.write (c.columns col) (col.cast castOther (form.value col)) = c.columns col

/-- The month fee that is posted does not move the end of the renewal. -/
def RenewalKeeps (s : Desk) (c : CustomerRow) (form : CustomerForm) : Prop :=
  form.present .monthFee = true → ∀ r ∈ lastRenewal s.renewals c.id,
    r.writtenEnd (c.columns .monthFee) (toI ((form.value .monthFee).getD "")) = r.endsAt

/-- The account refuses the e-mail that is posted, or has it. -/
def AccountKeeps (s : Desk) (c : CustomerRow) (form : CustomerForm) : Prop :=
  ∀ e, form.value .email = some e → ∀ a ∈ accountFor fold s.accounts "Customer" c.id,
    ({ a with email := some e } : Account).valid s.accounts = true →
      writtenText a.email (some e) = a.email

/-- The request raises, the edit is not refused, or there is nothing to
be seen of it: the row in the table is not valid itself, or the first
save changes nothing; and neither does the copy of the e-mail. -/
def Traceless (s : Desk) (c : CustomerRow) (form : CustomerForm) : Prop :=
  form.raises = true ∨ CustomerRow.valid s.customers ⟨c.id, form.lateAttrs castOther c⟩ = true ∨
    (c.valid s.customers = false ∨ EarlyKeeps castOther c form ∧ RenewalKeeps s c form) ∧
      AccountKeeps fold s c form

end

section
variable {fold : Char → Char} {castOther : CustomerColumn → Option String → Option String}

/-! ## The two saves -/

theorem assignPresent_of_notMem {form : CustomerForm} {cols : List CustomerColumn}
    {attrs : Columns} {c : CustomerColumn} (h : c ∉ cols) :
    form.assignPresent castOther cols attrs c = attrs c := by
  simp [CustomerForm.assignPresent, h]

/-- A column that the first save does not assign. -/
theorem earlyAttrs_of_notMem {form : CustomerForm} {c : CustomerRow} {col : CustomerColumn}
    (h : col ∉ CustomerColumn.monthFee :: earlyColumns) :
    form.earlyAttrs castOther c col = c.columns col := by
  rw [List.mem_cons, not_or] at h
  unfold CustomerForm.earlyAttrs
  rw [assignPresent_of_notMem (by simpa using h.1), assignPresent_of_notMem h.2]

/-- A column that the first save assigns. -/
theorem earlyAttrs_of_mem {form : CustomerForm} {c : CustomerRow} {col : CustomerColumn}
    (h : col ∈ CustomerColumn.monthFee :: earlyColumns) :
    form.earlyAttrs castOther c col
      = if form.present col = true then col.cast castOther (form.value col)
        else c.columns col := by
  unfold CustomerForm.earlyAttrs
  rcases List.mem_cons.mp h with rfl | h
  · simp [CustomerForm.assignPresent, earlyColumns]
  · have hne : col ∉ [CustomerColumn.monthFee] := by
      intro hm
      rw [List.mem_singleton] at hm
      subst hm
      revert h
      decide
    rw [assignPresent_of_notMem hne]
    simp [CustomerForm.assignPresent, h]

/-- Validity is a matter of five columns. -/
theorem valid_congr {t : Table CustomerRow} {id : Nat} {a b : Columns}
    (h : ∀ col ∈ [CustomerColumn.firstName, .lastName, .customerPhone, .email, .leadid],
      a col = b col) :
    CustomerRow.valid t ⟨id, a⟩ = CustomerRow.valid t ⟨id, b⟩ := by
  simp [CustomerRow.valid, CustomerRow.email, CustomerRow.leadid, h .firstName, h .lastName,
    h .customerPhone, h .email, h .leadid]

/-- Writing to other columns than the lead id makes nobody invalid. -/
theorem valid_update {t : Table CustomerRow} {k : Nat} {f : CustomerRow → CustomerRow}
    (hlead : ∀ r, (f r).leadid = r.leadid) (hf : ∀ r, Record.key (f r) = Record.key r)
    (c : CustomerRow) : CustomerRow.valid (t.update k f hf) c = CustomerRow.valid t c := by
  have hsame : ∀ r, (if Record.key r = k then f r else r).leadid = r.leadid ∧
      (if Record.key r = k then f r else r).id = r.id := by
    intro r
    split
    · exact ⟨hlead r, hf r⟩
    · exact ⟨rfl, rfl⟩
  unfold CustomerRow.valid
  rw [Table.rows_update, List.any_map]
  simp only [Function.comp_def, hsame]

/-- The first save asks what the row in the table would answer. -/
theorem valid_early (castOther : CustomerColumn → Option String → Option String)
    (t : Table CustomerRow) (form : CustomerForm) (c : CustomerRow) :
    CustomerRow.valid t ⟨c.id, form.assignPresent castOther earlyColumns c.columns⟩ = c.valid t ∧
      CustomerRow.valid t ⟨c.id, form.earlyAttrs castOther c⟩ = c.valid t := by
  refine ⟨valid_congr fun col hcol => assignPresent_of_notMem ?_,
    valid_congr fun col hcol => earlyAttrs_of_notMem ?_⟩
  · revert col
    decide
  · revert col
    decide

theorem save_of_invalid {t : Table CustomerRow} {id : Nat} {saved now : Columns}
    (h : CustomerRow.valid t ⟨id, now⟩ = false) :
    CustomerObject.save t ⟨id, saved, now⟩ = (false, t, ⟨id, saved, now⟩) := by
  simp [CustomerObject.save, CustomerObject.valid, h]

theorem save_of_valid {t : Table CustomerRow} {id : Nat} {saved now : Columns}
    (h : CustomerRow.valid t ⟨id, now⟩ = true) :
    CustomerObject.save t ⟨id, saved, now⟩
      = (true, t.update id (fun r => { r with
            columns := CustomerObject.write ⟨id, saved, now⟩ r.columns }) (fun _ => rfl),
          ⟨id, now, now⟩) := by
  simp [CustomerObject.save, CustomerObject.valid, h]

/-- The first save is one of the early attributes. -/
theorem saveEarly_eq (s : Desk) (c : CustomerRow) (form : CustomerForm) :
    saveEarly castOther s c form
      = ({ s with
            customers := (CustomerObject.save s.customers
              ⟨c.id, c.columns, form.earlyAttrs castOther c⟩).2.1
            renewals := shiftRenewal s
              ⟨c.id, c.columns, form.assignPresent castOther earlyColumns c.columns⟩ form },
          (CustomerObject.save s.customers
            ⟨c.id, c.columns, form.earlyAttrs castOther c⟩).2.2) := rfl

/-- A row that is not valid comes through the first save as it is. -/
theorem saveEarly_of_invalid {s : Desk} {c : CustomerRow} {form : CustomerForm}
    (h : c.valid s.customers = false) :
    saveEarly castOther s c form = (s, ⟨c.id, c.columns, form.earlyAttrs castOther c⟩) := by
  obtain ⟨hearly, hall⟩ := valid_early castOther s.customers form c
  rw [h] at hearly hall
  have hshift : shiftRenewal s
      ⟨c.id, c.columns, form.assignPresent castOther earlyColumns c.columns⟩ form = s.renewals := by
    unfold shiftRenewal
    split
    · cases lastRenewal s.renewals c.id with
      | none => rfl
      | some r => simp [CustomerObject.valid, hearly]
    · rfl
  rw [saveEarly_eq, hshift, save_of_invalid hall]

/-- A valid row gets the attributes of the first save. -/
theorem saveEarly_of_valid {s : Desk} {c : CustomerRow} {form : CustomerForm}
    (h : c.valid s.customers = true) :
    saveEarly castOther s c form
      = ({ s with
            customers := s.customers.update c.id
              (fun r => { r with
                columns := CustomerObject.write ⟨c.id, c.columns, form.earlyAttrs castOther c⟩
                  r.columns }) (fun _ => rfl)
            renewals := shiftRenewal s
              ⟨c.id, c.columns, form.assignPresent castOther earlyColumns c.columns⟩ form },
          ⟨c.id, form.earlyAttrs castOther c, form.earlyAttrs castOther c⟩) := by
  obtain ⟨_, hall⟩ := valid_early castOther s.customers form c
  rw [h] at hall
  rw [saveEarly_eq, save_of_valid hall]

/-- The second save asks the same table: the first one wrote no lead
id. -/
theorem valid_saveEarly (castOther : CustomerColumn → Option String → Option String) (s : Desk)
    (c : CustomerRow) (form : CustomerForm) (x : CustomerRow) :
    x.valid (saveEarly castOther s c form).1.customers = x.valid s.customers := by
  cases h : c.valid s.customers with
  | false => rw [saveEarly_of_invalid h]
  | true =>
      rw [saveEarly_of_valid h]
      have hlead : form.earlyAttrs castOther c .leadid = c.columns .leadid :=
        earlyAttrs_of_notMem (by decide)
      have hkeep : ∀ r : CustomerRow, CustomerRow.leadid { r with
          columns := CustomerObject.write ⟨c.id, c.columns, form.earlyAttrs castOther c⟩
            r.columns } = r.leadid :=
        fun _ => if_pos hlead
      exact valid_update hkeep (fun _ => rfl) x

/-- The object keeps its id, and holds the early attributes. -/
theorem saveEarly_object (castOther : CustomerColumn → Option String → Option String) (s : Desk)
    (c : CustomerRow) (form : CustomerForm) :
    ∃ saved, saved .email = c.email ∧
      (saveEarly castOther s c form).2 = ⟨c.id, saved, form.earlyAttrs castOther c⟩ := by
  cases h : c.valid s.customers with
  | false => exact ⟨c.columns, rfl, by rw [saveEarly_of_invalid h]⟩
  | true =>
      exact ⟨form.earlyAttrs castOther c, earlyAttrs_of_notMem (by decide),
        by rw [saveEarly_of_valid h]⟩

theorem save_fst (t : Table CustomerRow) (id : Nat) (saved now : Columns) :
    (CustomerObject.save t ⟨id, saved, now⟩).1 = CustomerRow.valid t ⟨id, now⟩ := by
  cases h : CustomerRow.valid t ⟨id, now⟩ with
  | false => rw [save_of_invalid h]
  | true => rw [save_of_valid h]

/-- A request that comes to the second save. -/
theorem asyncUpdate_eq (fold : Char → Char)
    (castOther : CustomerColumn → Option String → Option String) {s : Desk} {id : Nat}
    {c : CustomerRow} {editor : Editor} {form prepared : CustomerForm}
    (hc : s.customers.find? id = some c)
    (hp : form.prepare editor c = .ok prepared) (hr : prepared.raises = false) :
    ∃ saved, saved .email = c.email ∧ asyncUpdate fold castOther s id editor (some form)
      = (.finished (CustomerRow.valid s.customers ⟨c.id, prepared.lateAttrs castOther c⟩),
          copyEmail fold
            { (saveEarly castOther s c prepared).1 with
              customers := (CustomerObject.save (saveEarly castOther s c prepared).1.customers
                ⟨c.id, saved, prepared.lateAttrs castOther c⟩).2.1 }
            (CustomerObject.save (saveEarly castOther s c prepared).1.customers
              ⟨c.id, saved, prepared.lateAttrs castOther c⟩).2.2 prepared) := by
  obtain ⟨saved, hemail, hobject⟩ := saveEarly_object castOther s c prepared
  have hlate : updateAttributes castOther (saveEarly castOther s c prepared).1
      ⟨c.id, saved, prepared.earlyAttrs castOther c⟩ prepared
        = .ok (CustomerObject.save (saveEarly castOther s c prepared).1.customers
              ⟨c.id, saved, prepared.lateAttrs castOther c⟩ |>.1,
            { (saveEarly castOther s c prepared).1 with
              customers := (CustomerObject.save (saveEarly castOther s c prepared).1.customers
                ⟨c.id, saved, prepared.lateAttrs castOther c⟩).2.1 },
            (CustomerObject.save (saveEarly castOther s c prepared).1.customers
              ⟨c.id, saved, prepared.lateAttrs castOther c⟩).2.2) := by
    simp [updateAttributes, hr, CustomerForm.lateAttrs]
  refine ⟨saved, hemail, ?_⟩
  simp only [asyncUpdate, hc, hp, hobject, hlate]
  rw [save_fst, valid_saveEarly]

/-! ## What is left -/

/-- Of the row: nothing, if none of the columns that are posted changes. -/
theorem row_kept_iff {s : Desk} {c : CustomerRow} (form : CustomerForm)
    (hc : s.customers.find? c.id = some c) :
    (saveEarly castOther s c form).1.customers.find? c.id = s.customers.find? c.id ↔
      c.valid s.customers = false ∨ EarlyKeeps castOther c form := by
  cases h : c.valid s.customers with
  | false => simp [saveEarly_of_invalid h]
  | true =>
      rw [saveEarly_of_valid h, hc]
      simp only [Bool.true_eq_false, false_or]
      rw [Table.find?_update_self s.customers hc, Option.some.injEq]
      -- a row is its columns, and only the early ones can have changed
      constructor
      · intro heq col hcol hp
        have hcolumns := congrFun (congrArg CustomerRow.columns heq) col
        simpa [CustomerObject.write, ColumnType.write, earlyAttrs_of_mem hcol, hp] using hcolumns
      · intro hkeep
        have hcolumns : CustomerObject.write ⟨c.id, c.columns, form.earlyAttrs castOther c⟩
            c.columns = c.columns := by
          funext col
          by_cases hcol : col ∈ CustomerColumn.monthFee :: earlyColumns
          · by_cases hp : form.present col = true
            · have hcolkeep := hkeep col hcol hp
              simpa [CustomerObject.write, ColumnType.write, earlyAttrs_of_mem hcol, hp]
                using hcolkeep
            · simp [CustomerObject.write, earlyAttrs_of_mem hcol, hp]
          · simp [CustomerObject.write, earlyAttrs_of_notMem hcol]
        rw [hcolumns]

/-- The renewal that is moved is one of the customer's. -/
theorem mem_renewalsOf_of_last {t : Table RenewalRow} {id : Nat} {r : RenewalRow}
    (h : lastRenewal t id = some r) : r ∈ renewalsOf t id := by
  have hmem := List.mem_of_getLast? h
  exact (List.mem_insertionSort _).mp hmem

/-- A new end for one of the renewals shows, unless it is the old one. -/
theorem renewalsOf_update_iff {t : Table RenewalRow} {id : Nat} {r : RenewalRow}
    (hr : r ∈ renewalsOf t id) (d : Option Date) :
    renewalsOf (t.update r.id (fun r' => { r' with endsAt := d }) (fun _ => rfl)) id
        = renewalsOf t id ↔ d = r.endsAt := by
  obtain ⟨hmem, hid⟩ := List.mem_filter.mp hr
  constructor
  · intro heq
    have hnew : { r with endsAt := d } ∈
        renewalsOf (t.update r.id (fun r' => { r' with endsAt := d }) (fun _ => rfl)) id :=
      List.mem_filter.mpr ⟨Table.mem_update.mpr ⟨r, hmem, Or.inl ⟨rfl, rfl⟩⟩, hid⟩
    rw [heq] at hnew
    have hsame : { r with endsAt := d } = r :=
      t.eq_of_key_eq (List.mem_filter.mp hnew).1 hmem rfl
    exact congrArg RenewalRow.endsAt hsame
  · rintro rfl
    rw [t.update_eq_self]
    intro r' hr'
    obtain rfl := Option.some.inj ((t.find?_key hmem).symm.trans hr')
    rfl

/-- Of the renewals: nothing, if the end of the one that is moved stays. -/
theorem renewals_kept_iff {s : Desk} {c : CustomerRow} (form : CustomerForm) :
    renewalsOf (saveEarly castOther s c form).1.renewals c.id = renewalsOf s.renewals c.id ↔
      c.valid s.customers = false ∨ RenewalKeeps s c form := by
  cases h : c.valid s.customers with
  | false => simp [saveEarly_of_invalid h]
  | true =>
      have hearly := (valid_early castOther s.customers form c).1
      have hfee : form.assignPresent castOther earlyColumns c.columns .monthFee
          = c.columns .monthFee := assignPresent_of_notMem (by decide)
      rw [saveEarly_of_valid h]
      simp only [Bool.true_eq_false, false_or, shiftRenewal, RenewalKeeps]
      by_cases hp : form.present .monthFee = true
      · cases hl : lastRenewal s.renewals c.id with
        | none => simp [hp]
        | some r =>
            simp only [hp, if_true, CustomerObject.valid, hearly, h, hfee, Option.mem_some_iff,
              forall_eq', forall_const]
            exact renewalsOf_update_iff (mem_renewalsOf_of_last hl) _
      · simp [hp]

/-- The account after its e-mail was assigned. -/
theorem accountFor_updateAccountEmail {t : Table Account} {parentType : String} {id : Nat}
    {a : Account} (ha : accountFor fold t parentType id = some a) (email : Option String) :
    accountFor fold (updateAccountEmail t a email) parentType id
      = some (if ({ a with email := email } : Account).valid t = true then
          { a with email := writtenText a.email email } else a) := by
  unfold updateAccountEmail
  split
  · unfold accountFor at ha ⊢
    rw [Table.firstWhere_update, ha]
    · simp [Record.key]
    · intro r
      rfl
  · exact ha

/-- The e-mail of the object in memory is the one that was posted, if
one was. -/
theorem lateAttrs_email (form : CustomerForm) (c : CustomerRow) :
    form.lateAttrs castOther c .email = (form.columns .email).getD c.email := by
  have hearly : form.earlyAttrs castOther c .email = c.email := earlyAttrs_of_notMem (by decide)
  show (match form.columns .email with
    | none => form.earlyAttrs castOther c .email
    | some v => v) = _
  cases form.columns .email with
  | none => exact hearly
  | some v => rfl

/-- Of the account: nothing, if it refuses the e-mail or has it. -/
theorem account_kept_iff {s : Desk} {c : CustomerRow} {form : CustomerForm} {saved : Columns} :
    accountFor fold
        (copyEmail fold s ⟨c.id, saved, form.lateAttrs castOther c⟩ form).accounts "Customer" c.id
      = accountFor fold s.accounts "Customer" c.id ↔ AccountKeeps fold s c form := by
  unfold copyEmail AccountKeeps
  cases he : form.value .email with
  | none => simp
  | some e =>
      have hemail : form.lateAttrs castOther c .email = some e := by
        rw [lateAttrs_email, Option.join_eq_some_iff.mp he]
        rfl
      cases ha : accountFor fold s.accounts "Customer" c.id with
      | none => simp [ha]
      | some a =>
          simp only [hemail, accountFor_updateAccountEmail ha, Option.some.injEq, forall_eq',
            Option.mem_some_iff]
          by_cases hv : ({ a with email := some e } : Account).valid s.accounts = true
          · simp only [hv, if_true, forall_const]
            constructor
            · intro heq
              exact congrArg Account.email heq
            · intro heq
              rw [heq]
          · simp [hv]

/-! ## The theorem -/

/-- A request that comes to the second save, and is refused there. -/
theorem asyncUpdate_refused (fold : Char → Char)
    (castOther : CustomerColumn → Option String → Option String) {s : Desk} {id : Nat}
    {c : CustomerRow} {editor : Editor} {form prepared : CustomerForm}
    (hc : s.customers.find? id = some c) (hp : form.prepare editor c = .ok prepared)
    (hr : prepared.raises = false)
    (hv : CustomerRow.valid s.customers ⟨c.id, prepared.lateAttrs castOther c⟩ = false) :
    ∃ saved, asyncUpdate fold castOther s id editor (some form)
      = (.finished false, copyEmail fold (saveEarly castOther s c prepared).1
          ⟨c.id, saved, prepared.lateAttrs castOther c⟩ prepared) := by
  obtain ⟨saved, _, heq⟩ := asyncUpdate_eq fold castOther hc hp hr
  rw [hv, save_of_invalid ((valid_saveEarly castOther s c prepared _).trans hv)] at heq
  exact ⟨saved, heq⟩

/-- A request whose parameters could be read. -/
theorem noTrace_iff_traceless {s : Desk} {c : CustomerRow} {editor : Editor}
    {form prepared : CustomerForm} (hc : s.customers.find? c.id = some c)
    (hp : form.prepare editor c = .ok prepared) :
    NoTrace fold castOther s c.id editor (some form) ↔ Traceless fold castOther s c prepared := by
  unfold NoTrace Traceless
  cases hr : prepared.raises with
  | true => simp [asyncUpdate, hc, hp, updateAttributes, hr]
  | false =>
      cases hv : CustomerRow.valid s.customers ⟨c.id, prepared.lateAttrs castOther c⟩ with
      | true =>
          obtain ⟨saved, _, heq⟩ := asyncUpdate_eq fold castOther hc hp hr
          rw [heq, hv]
          simp
      | false =>
          obtain ⟨saved, heq⟩ := asyncUpdate_refused fold castOther hc hp hr hv
          rw [heq]
          simp only [true_imp_iff, Bool.false_eq_true, false_or]
          -- the copy of the e-mail writes to the accounts only
          have hcopy : (copyEmail fold (saveEarly castOther s c prepared).1
                ⟨c.id, saved, prepared.lateAttrs castOther c⟩ prepared).customers
                = (saveEarly castOther s c prepared).1.customers ∧
              (copyEmail fold (saveEarly castOther s c prepared).1
                ⟨c.id, saved, prepared.lateAttrs castOther c⟩ prepared).renewals
                = (saveEarly castOther s c prepared).1.renewals := by
            unfold copyEmail
            split
            · exact ⟨rfl, rfl⟩
            · exact ⟨rfl, rfl⟩
          rw [hcopy.1, hcopy.2, row_kept_iff prepared hc, renewals_kept_iff]
          have haccount : accountFor fold s.accounts "Customer" c.id
              = accountFor fold (saveEarly castOther s c prepared).1.accounts "Customer" c.id := rfl
          rw [haccount, account_kept_iff]
          show _ ∧ _ ∧ AccountKeeps fold s c prepared ↔ _
          tauto

/-- Texts for the columns of other types as they are. -/
def castText (_ : CustomerColumn) (v : Option String) : Option String := v

/-- A customer with a web account. -/
def annColumns : Columns
  | .firstName => some "Ann"
  | .lastName => some "Lee"
  | .customerPhone => some "2125550100"
  | .email => some "ann@example.com"
  | .statusId => some (4 : Int)
  | c => c.cast castText none

def annDesk : Desk where
  customers := .ofRows [⟨1, annColumns⟩]
  renewals := .empty
  accounts := .ofRows [⟨1, some 1, some "Customer", some "ann@example.com", none, none, none⟩]

/-- A form with a few keys. -/
def formOf (keys : List (CustomerColumn × String)) : CustomerForm where
  columns c := (keys.lookup c).map some
  coverages := none
  creditCardNumber := none
  raises := false

end

end HomeWarranty.Admin
