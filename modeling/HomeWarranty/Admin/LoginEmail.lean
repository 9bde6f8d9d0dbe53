/-
HomeWarranty.Admin.LoginEmail — the e-mail of a customer or a contractor
and the e-mail its web account logs in with, over every run of the four
actions that edit them: `customers#async_update`, `customers#update`,
`contractors#async_update` and `contractors#update`.

The record and the account are two rows, and each has its own
validations: a customer needs a name, a phone number and an e-mail, a
contractor a company, an account an e-mail that no other account has.
Each action saves the one and then the other without a transaction, so
two e-mails that were the same stay the same exactly when both rows take
the new one or neither does: `Concordant`. `login_email_follows_iff`
says so for whole runs.

Of a contractor the model keeps the two columns that are validated.
-/
import HomeWarranty.Admin.CustomerEdit

namespace HomeWarranty.Admin

open Lib Ruby

/-! ## Contractors -/

structure Contractor where
  id : Nat
  company : Option String
  email : String
  deriving DecidableEq

instance : Record Contractor where
  key := Contractor.id
  withKey n c := { c with id := n }
  key_withKey := fun _ _ => rfl

/-- `[a-z]` where letter case is ignored. -/
def isLetter (c : Char) : Bool := c.isAlpha || c == 'ſ' || c == 'K'

/-- `\Z`: at the end, or before a newline at the end. -/
def chomp (cs : List Char) : List Char := if cs.getLast? = some '\n' then cs.dropLast else cs

/-- `/\A([^@\s]+)@((?:[-a-z0-9]+\.)+[a-z]{2,})\Z/i`. -/
def emailFormat (s : String) : Bool :=
  let user := s.toList.takeWhile (· != '@')
  let labels := (chomp (s.toList.drop (user.length + 1))).splitOn '.'
  s.toList.contains '@' && !user.isEmpty && user.all (fun c => !isAsciiSpace c) &&
    2 ≤ labels.length &&
    labels.dropLast.all (fun l =>
      !l.isEmpty && l.all (fun c => isLetter c || c.isDigit || c == '-')) &&
    labels.getLast?.any (fun l => 2 ≤ l.length && l.all isLetter)

example : emailFormat "joe@plumbing.example.com" = true ∧ emailFormat "joe@localhost" = false := by
  decide +kernel

/-- The attributes of a contractor in memory. -/
structure ContractorAttrs where
  company : Option String
  email : Option String

/-- `params[:contractor]`. -/
structure ContractorForm where
  company : Option (Option String)
  email : Option (Option String)

/-- `contractor.attributes = params[:contractor]`. -/
def Contractor.assign (c : Contractor) : Option ContractorForm → ContractorAttrs
  | none => ⟨c.company, some c.email⟩
  | some form => ⟨form.company.getD c.company, form.email.getD (some c.email)⟩

/-- What surrounds an edit of a contractor. -/
structure ContractorEnv where
  /-- Paperclip takes the files of the contractor. -/
  filesAccepted : Bool
  /-- `address.update_attributes(params[:address])` returns. -/
  addressSaved : Bool
  /-- The digest of a random password. -/
  passwordHash : String

/-- The validations of `Contractor`. -/
def ContractorAttrs.valid (attrs : ContractorAttrs) (env : ContractorEnv) : Bool :=
  presentOpt attrs.company && (blankOpt attrs.email || emailFormat (attrs.email.getD "")) &&
    env.filesAccepted

/-- What the column holds of an e-mail: it has no NULL. -/
def contractorEmail (old : String) (new : Option String) : String :=
  if new = some old then old else textColumn (new.getD "")

/-! ## Edits -/

/-- The tables the four actions write to. -/
structure Office where
  desk : Desk
  contractors : Table Contractor

section
variable (fold : Char → Char) (castOther : CustomerColumn → Option String → Option String)

/-- `Account.grant_web_account`: the new account. -/
def grantedAccount (c : Contractor) (email : Option String) (env : ContractorEnv) : Account where
  id := 0
  parentId := some c.id
  parentType := some "Contractor"
  email := email
  passwordHash := some env.passwordHash
  role := some "contractor"
  lastLoginIp := none

/-- The account of a contractor gets its e-mail; a contractor that had
none is granted an account. -/
def accountsOfContractor (t : Table Account) (c : Contractor) (email : Option String)
    (env : ContractorEnv) : Table Account :=
  match accountFor fold t "Contractor" c.id with
  | some a => updateAccountEmail t a email
  | none =>
      if c.email.isEmpty && !(email.getD "").isEmpty && (grantedAccount c email env).valid t then
        t.insert { grantedAccount c email env with email := email.map textColumn }
      else t

/-- The two actions on contractors, from `update_attributes` on. -/
def saveContractor (s : Office) (c : Contractor) (attrs : ContractorAttrs) (env : ContractorEnv) :
    Office :=
  if attrs.valid env then
    let contractors := s.contractors.update c.id
      (fun r => { r with
        company := writtenText c.company attrs.company
        email := contractorEmail c.email attrs.email }) (fun _ => rfl)
    if env.addressSaved then
      { desk := { s.desk with
          accounts := accountsOfContractor fold s.desk.accounts c attrs.email env }
        contractors := contractors }
    else { s with contractors := contractors }
  else s

/-- What `customers#update` makes of its parameters. -/
def CustomerForm.prepareUpdate (form : CustomerForm) (editor : Editor) (coverages : String)
    (c : CustomerRow) : Except RubyError CustomerForm := do
  let form :=
    if (form.value .coverageType).isSome then form.set .coverageAddon (some coverages) else form
  let form := form.emptyHomeType
  let updatedBy ← updateLastChangeField editor (form.nameOr c)
  return form.set .updateBy updatedBy

/-- `customers#update`. -/
def customersUpdate (s : Desk) (id : Nat) (editor : Editor) (coverages : String)
    (form : Option CustomerForm) (propertySaved : Bool) : Desk :=
  match s.customers.find? id, form with
  | none, _ => s
  | some _, none => s
  | some c, some form =>
      match form.prepareUpdate editor coverages c with
      | .error _ => s
      | .ok form =>
          match updateAttributes castOther s ⟨c.id, c.columns, c.columns⟩ form with
          | .error _ => s
          | .ok (_, s, o) => if propertySaved then copyEmail fold s o form else s

inductive EditRequest where
  | customersAsyncUpdate (id : Nat) (editor : Editor) (form : Option CustomerForm)
  /-- `coverages` are the keys of `params[:coverages]`, joined;
  `propertySaved` says that the update of the property returns. -/
  | customersUpdate (id : Nat) (editor : Editor) (coverages : String) (form : Option CustomerForm)
      (propertySaved : Bool)
  | contractorsAsyncUpdate (id : Nat) (form : Option ContractorForm) (env : ContractorEnv)
  /-- `addressGiven` says that `params[:address]` is a hash. -/
  | contractorsUpdate (id : Nat) (editor : Editor) (form : Option ContractorForm)
      (addressGiven : Bool) (env : ContractorEnv)

/-- One request. -/
def Office.edit (s : Office) : EditRequest → Office
  | .customersAsyncUpdate id editor form =>
      { s with desk := (asyncUpdate fold castOther s.desk id editor form).2 }
  | .customersUpdate id editor coverages form propertySaved =>
      { s with
        desk := Admin.customersUpdate fold castOther s.desk id editor coverages form propertySaved }
  | .contractorsAsyncUpdate id form env =>
      match s.contractors.find? id with
      | none => s
      | some c => saveContractor fold s c (c.assign form) env
  | .contractorsUpdate id editor form addressGiven env =>
      match s.contractors.find? id, form, addressGiven, updateLastChangeField editor (some "") with
      | some c, some form, true, .ok _ => saveContractor fold s c (c.assign (some form)) env
      | _, _, _, _ => s

/-! ## The two e-mails -/

/-- Somebody who may have a web account. -/
inductive Person where
  | customer (id : Nat)
  | contractor (id : Nat)
  deriving DecidableEq

def Person.parentType : Person → String
  | .customer _ => "Customer"
  | .contractor _ => "Contractor"

def Person.id : Person → Nat
  | .customer id => id
  | .contractor id => id

/-- The web account. -/
def Person.account (p : Person) (t : Table Account) : Option Account :=
  accountFor fold t p.parentType p.id

/-- The e-mail in the record. -/
def Person.email (p : Person) (s : Office) : Option (Option String) :=
  match p with
  | .customer id => (s.desk.customers.find? id).map CustomerRow.email
  | .contractor id => (s.contractors.find? id).map fun c => some c.email

/-- Both e-mails, if there are two. -/
def Office.emails (s : Office) (p : Person) : Option (Option String × Option String) :=
  (p.email s).bind fun e => (p.account fold s.desk.accounts).map fun a => (e, a.email)

/-- The two e-mails are the same. -/
def Office.Together (s : Office) (p : Person) : Prop := ∃ e, s.emails fold p = some (e, e)

/-- What the column of the record holds of an e-mail that is new. -/
def Person.stored (p : Person) (email : Option String) : Option String :=
  match p with
  | .customer _ => email.map textColumn
  | .contractor _ => some (textColumn (email.getD ""))

/-- Whose record a request edits. -/
def EditRequest.person : EditRequest → Person
  | .customersAsyncUpdate id _ _ => .customer id
  | .customersUpdate id _ _ _ _ => .customer id
  | .contractorsAsyncUpdate id _ _ => .contractor id
  | .contractorsUpdate id _ _ _ _ => .contractor id

/-- The e-mail that a request has in memory when it saves, whether the
record passes its validations, and whether the account is reached and
passes its own. -/
structure Attempt where
  email : Option String
  recordTakes : Bool
  accountTakes : Bool

/-- The account passes its validations with another e-mail. -/
def Person.accountTakes (p : Person) (t : Table Account) (email : Option String) : Bool :=
  (p.account fold t).any fun a => ({ a with email := email } : Account).valid t

def customerAttempt (s : Desk) (c : CustomerRow) (attrs : Columns) (form : CustomerForm)
    (goesOn : Bool) : Attempt where
  email := attrs .email
  recordTakes := CustomerRow.valid s.customers ⟨c.id, attrs⟩
  accountTakes := goesOn && (form.value .email).isSome &&
    (Person.customer c.id).accountTakes fold s.accounts (attrs .email)

def contractorAttempt (s : Office) (c : Contractor) (attrs : ContractorAttrs)
    (env : ContractorEnv) : Attempt where
  email := attrs.email
  recordTakes := attrs.valid env
  accountTakes := attrs.valid env && env.addressSaved &&
    (Person.contractor c.id).accountTakes fold s.desk.accounts attrs.email

/-- What a request tries to save, if it comes to that. -/
def EditRequest.attempt (s : Office) : EditRequest → Option Attempt
  | .customersAsyncUpdate id editor form => do
      let c ← s.desk.customers.find? id
      let form ← form
      let form ← (form.prepare editor c).toOption
      if form.raises then none
      else some (customerAttempt fold s.desk c (form.lateAttrs castOther c) form true)
  | .customersUpdate id editor coverages form propertySaved => do
      let c ← s.desk.customers.find? id
      let form ← form
      let form ← (form.prepareUpdate editor coverages c).toOption
      if form.raises then none
      else
        some (customerAttempt fold s.desk c (form.massAssign castOther c.columns) form
          propertySaved)
  | .contractorsAsyncUpdate id form env => do
      let c ← s.contractors.find? id
      some (contractorAttempt fold s c (c.assign form) env)
  | .contractorsUpdate id editor form addressGiven env => do
      let c ← s.contractors.find? id
      let form ← form
      let _ ← (updateLastChangeField editor (some "")).toOption
      if addressGiven then some (contractorAttempt fold s c (c.assign (some form)) env) else none

/-- If the two e-mails of the record are the same, the request leaves
them as they are, or both rows take the new one, or neither does. -/
def Concordant (s : Office) (r : EditRequest) : Prop :=
  ∀ a ∈ r.attempt fold castOther s, ∀ e, s.emails fold r.person = some (e, e) →
    a.email = e ∨ r.person.stored a.email = e ∨ a.recordTakes = a.accountTakes

end

/-! ## Accounts -/

section
variable {fold : Char → Char} {castOther : CustomerColumn → Option String → Option String}

theorem length_sqlText_parentType (p : Person) :
    (sqlText fold p.parentType).length = match p with | .customer _ => 8 | .contractor _ => 10 := by
  cases p with
  | customer id =>
      rw [sqlText, List.length_map]
      show (List.rdropWhile (· == ' ') "Customer".toList).length = 8
      decide +kernel
  | contractor id =>
      rw [sqlText, List.length_map]
      show (List.rdropWhile (· == ' ') "Contractor".toList).length = 10
      decide +kernel

/-- An account belongs to one person. -/
theorem account_inj {t : Table Account} {p q : Person} {a : Account}
    (hp : p.account fold t = some a) (hq : q.account fold t = some a) : p = q := by
  have hown : ∀ r : Person, r.account fold t = some a →
      a.parentType.map (sqlText fold) = some (sqlText fold r.parentType) ∧
        a.parentId = some r.id := by
    intro r hr
    simpa using List.find?_some hr
  obtain ⟨hpt, hpi⟩ := hown p hp
  obtain ⟨hqt, hqi⟩ := hown q hq
  have hid : p.id = q.id := Option.some.inj (hpi.symm.trans hqi)
  have htype : (sqlText fold p.parentType).length = (sqlText fold q.parentType).length := by
    rw [Option.some.inj (hpt.symm.trans hqt)]
  rw [length_sqlText_parentType, length_sqlText_parentType] at htype
  cases p <;> cases q <;> simp_all [Person.id]

/-- The other accounts stay as they are. -/
theorem account_updateAccountEmail_of_ne {t : Table Account} {p q : Person} {a b : Account}
    (hp : p.account fold t = some a) (hq : q.account fold t = some b) (hne : q ≠ p)
    (email : Option String) : q.account fold (updateAccountEmail t a email) = some b := by
  have hid : b.id ≠ a.id := by
    intro h
    have hab : b = a :=
      t.eq_of_key_eq (List.mem_of_find?_eq_some hq) (List.mem_of_find?_eq_some hp) h
    rw [hab] at hq
    exact hne (account_inj hq hp)
  unfold updateAccountEmail
  split
  · unfold Person.account accountFor at hq ⊢
    rw [Table.firstWhere_update, hq]
    · simp [Record.key, hid]
    · intro r
      rfl
  · exact hq

/-! ## What a request does to the e-mails -/

/-- What a string column, or the column of a contractor, holds after a
save. -/
def Person.written (p : Person) (old new : Option String) : Option String :=
  if new = old then old else p.stored new

/-- What a request does to the e-mails: those of its own record change
as far as the two rows take the new one, and no others do. -/
structure Effect (fold : Char → Char) (s s' : Office) (p : Person) (a : Attempt) : Prop where
  self : ∀ x y, s.emails fold p = some (x, y) →
    s'.emails fold p = some (if a.recordTakes then p.written x a.email else x,
      if a.accountTakes then writtenText y a.email else y)
  others : ∀ q, q ≠ p → ∀ e, s.emails fold q = some e → s'.emails fold q = some e
  /-- An account takes no empty e-mail. -/
  given : a.accountTakes = true → a.email ≠ none

theorem emails_eq_some {s : Office} {p : Person} {x y : Option String} :
    s.emails fold p = some (x, y) ↔
      p.email s = some x ∧ ∃ a, p.account fold s.desk.accounts = some a ∧ a.email = y := by
  unfold Office.emails
  cases he : p.email s with
  | none => simp
  | some e =>
      cases ha : p.account fold s.desk.accounts with
      | none => simp
      | some a => simp

/-- From what happens to the records and to the accounts. -/
theorem Effect.of_tables {s s' : Office} {p : Person} {a : Attempt}
    (hself : ∀ x, p.email s = some x →
      p.email s' = some (if a.recordTakes then p.written x a.email else x))
    (hothers : ∀ q, q ≠ p → q.email s' = q.email s)
    (haccounts : ∀ b, p.account fold s.desk.accounts = some b → s'.desk.accounts
      = if a.accountTakes then updateAccountEmail s.desk.accounts b a.email else s.desk.accounts)
    (htakes : a.accountTakes = true → p.accountTakes fold s.desk.accounts a.email = true)
    (hnone : p.account fold s.desk.accounts = none →
      ∀ (q : Person) (b : Account), q.account fold s.desk.accounts = some b →
        q.account fold s'.desk.accounts = some b) :
    Effect fold s s' p a := by
  constructor
  · intro x y hxy
    obtain ⟨hx, b, hb, rfl⟩ := emails_eq_some.mp hxy
    refine emails_eq_some.mpr ⟨hself x hx, ?_⟩
    rw [haccounts b hb]
    by_cases ht : a.accountTakes = true
    · have hv : ({ b with email := a.email } : Account).valid s.desk.accounts = true := by
        simpa [Person.accountTakes, hb] using htakes ht
      refine ⟨{ b with email := writtenText b.email a.email }, ?_, by simp [ht]⟩
      rw [if_pos ht]
      have hacc := accountFor_updateAccountEmail hb a.email
      rw [if_pos hv] at hacc
      exact hacc
    · exact ⟨b, by rw [if_neg ht, hb], by simp [ht]⟩
  · intro q hq e he
    obtain ⟨hx, b, hb, hy⟩ := emails_eq_some.mp (show s.emails fold q = some (e.1, e.2) from he)
    refine emails_eq_some.mpr ⟨by rw [hothers q hq, hx], b, ?_, hy⟩
    cases hp : p.account fold s.desk.accounts with
    | none => exact hnone hp q b hb
    | some c =>
        rw [haccounts c hp]
        split
        · exact account_updateAccountEmail_of_ne hp hb hq a.email
        · exact hb
  · intro ht hnull
    have hany := htakes ht
    rw [hnull, Person.accountTakes, Option.any_eq_true] at hany
    obtain ⟨b, _, hv⟩ := hany
    simp [Account.valid] at hv

/-! ## Customers -/

/-- The e-mails of the customers after one of them is saved. -/
theorem email_save {t : Table CustomerRow} {r : CustomerRow} {id : Nat} {saved now : Columns}
    (hr : t.find? id = some r) (hs : saved .email = r.email) (j : Nat) :
    ((CustomerObject.save t ⟨id, saved, now⟩).2.1.find? j).map CustomerRow.email
      = if j = id then
          some (if CustomerRow.valid t ⟨id, now⟩ = true then writtenText r.email (now .email)
            else r.email)
        else (t.find? j).map CustomerRow.email := by
  cases hv : CustomerRow.valid t ⟨id, now⟩ with
  | false =>
      rw [save_of_invalid hv]
      by_cases hj : j = id
      · simp [hj, hr]
      · simp [hj]
  | true =>
      rw [save_of_valid hv]
      by_cases hj : j = id
      · subst hj
        simp only [Table.find?_update_self t hr, Option.map_some, if_true, Option.some.injEq]
        show (if now .email = saved .email then r.email else Option.map textColumn (now .email)) = _
        rw [hs]
        rfl
      · have hother : (t.update id (fun r => { r with
            columns := CustomerObject.write ⟨id, saved, now⟩ r.columns }) (fun _ => rfl)).find? j
              = t.find? j := Table.find?_update_ne t hj
        simp only [hother, if_neg hj]

/-- The first save of `async_update` writes no e-mail. -/
theorem email_saveEarly (castOther : CustomerColumn → Option String → Option String) {s : Desk}
    {c : CustomerRow} (hc : s.customers.find? c.id = some c)
    (form : CustomerForm) (j : Nat) :
    ((saveEarly castOther s c form).1.customers.find? j).map CustomerRow.email
      = (s.customers.find? j).map CustomerRow.email := by
  have hearly : form.earlyAttrs castOther c .email = c.email := earlyAttrs_of_notMem (by decide)
  rw [saveEarly_eq]
  refine (email_save hc rfl j).trans ?_
  by_cases hj : j = c.id
  · simp [hj, hc, hearly]
  · simp [hj]

@[simp] theorem copyEmail_customers (s : Desk) (o : CustomerObject) (form : CustomerForm) :
    (copyEmail fold s o form).customers = s.customers := by
  unfold copyEmail
  split
  · rfl
  · rfl

/-- The copy of the e-mail is for the account of the customer. -/
theorem copyEmail_accounts {s : Desk} {o : CustomerObject} {a : Account}
    (ha : (Person.customer o.id).account fold s.accounts = some a) (form : CustomerForm) :
    (copyEmail fold s o form).accounts
      = if (form.value .email).isSome = true then updateAccountEmail s.accounts a (o.now .email)
        else s.accounts := by
  have ha' : accountFor fold s.accounts "Customer" o.id = some a := ha
  unfold copyEmail
  rw [ha']
  cases form.value .email with
  | none => rfl
  | some e => rfl

/-- Without an account there is no copy. -/
theorem copyEmail_accounts_of_none {s : Desk} {o : CustomerObject}
    (ha : (Person.customer o.id).account fold s.accounts = none) (form : CustomerForm) :
    (copyEmail fold s o form).accounts = s.accounts := by
  have ha' : accountFor fold s.accounts "Customer" o.id = none := ha
  unfold copyEmail
  rw [ha']
  cases form.value .email with
  | none => rfl
  | some e => rfl

/-- An e-mail that an account refuses is not written. -/
theorem updateAccountEmail_of_invalid {t : Table Account} {a : Account} {email : Option String}
    (h : ({ a with email := email } : Account).valid t = false) :
    updateAccountEmail t a email = t := by
  simp [updateAccountEmail, h]

/-- The object after a save. -/
theorem save_object (t : Table CustomerRow) (id : Nat) (saved now : Columns) :
    ∃ saved', (CustomerObject.save t ⟨id, saved, now⟩).2.2 = ⟨id, saved', now⟩ := by
  cases h : CustomerRow.valid t ⟨id, now⟩ with
  | false => exact ⟨saved, by rw [save_of_invalid h]⟩
  | true => exact ⟨now, by rw [save_of_valid h]⟩

/-- What an edit of a customer does, given what has become of the
tables. -/
theorem effect_of_save {s : Office} {c : CustomerRow} {attrs : Columns} {form : CustomerForm}
    {goesOn : Bool} {after : Desk} (hc : s.desk.customers.find? c.id = some c)
    (hcustomers : ∀ j, (after.customers.find? j).map CustomerRow.email
      = if j = c.id then
          some (if CustomerRow.valid s.desk.customers ⟨c.id, attrs⟩ = true then
            writtenText c.email (attrs .email) else c.email)
        else (s.desk.customers.find? j).map CustomerRow.email)
    (hsome : ∀ a, (Person.customer c.id).account fold s.desk.accounts = some a → after.accounts
      = if (goesOn && (form.value .email).isSome) = true then
          updateAccountEmail s.desk.accounts a (attrs .email)
        else s.desk.accounts)
    (hnone : (Person.customer c.id).account fold s.desk.accounts = none →
      after.accounts = s.desk.accounts) :
    Effect fold s { s with desk := after } (.customer c.id)
      (customerAttempt fold s.desk c attrs form goesOn) := by
  apply Effect.of_tables
  · intro x hx
    have hx' : c.email = x := by simpa [Person.email, hc] using hx
    subst hx'
    have hrow := hcustomers c.id
    rw [if_pos rfl] at hrow
    exact hrow
  · intro q hq
    cases q with
    | customer j =>
        have hj : j ≠ c.id := fun h => hq (by rw [h])
        have hrow := hcustomers j
        rw [if_neg hj] at hrow
        exact hrow
    | contractor j => rfl
  · intro b hb
    have hafter := hsome b hb
    by_cases hv : ({ b with email := attrs .email } : Account).valid s.desk.accounts = true
    · simpa [customerAttempt, Person.accountTakes, hb, hv] using hafter
    · simp only [Bool.not_eq_true] at hv
      rw [updateAccountEmail_of_invalid hv, ite_self] at hafter
      simpa [customerAttempt, Person.accountTakes, hb, hv] using hafter
  · intro ht
    simp only [customerAttempt, Bool.and_eq_true] at ht
    exact ht.2
  · intro hp q b hb
    show q.account fold after.accounts = some b
    rw [hnone hp]
    exact hb

/-- `customers#async_update`, when it comes to the second save. -/
theorem effect_asyncUpdate {s : Office} {c : CustomerRow} {editor : Editor}
    {form prepared : CustomerForm} (hc : s.desk.customers.find? c.id = some c)
    (hp : form.prepare editor c = .ok prepared) (hr : prepared.raises = false) :
    Effect fold s { s with desk := (asyncUpdate fold castOther s.desk c.id editor (some form)).2 }
      (.customer c.id)
      (customerAttempt fold s.desk c (prepared.lateAttrs castOther c) prepared true) := by
  obtain ⟨saved, hsaved, heq⟩ := asyncUpdate_eq fold castOther hc hp hr
  obtain ⟨saved', hobject⟩ := save_object (saveEarly castOther s.desk c prepared).1.customers c.id
    saved (prepared.lateAttrs castOther c)
  -- the row as the first save left it
  obtain ⟨r, hrow, hremail⟩ : ∃ r, (saveEarly castOther s.desk c prepared).1.customers.find? c.id
      = some r ∧ r.email = c.email := by
    have hearly := email_saveEarly castOther hc prepared c.id
    rw [hc, Option.map_some, Option.map_eq_some_iff] at hearly
    exact hearly
  rw [heq, hobject]
  apply effect_of_save hc
  · intro j
    rw [copyEmail_customers]
    rw [email_save hrow (hsaved.trans hremail.symm) j, valid_saveEarly, hremail,
      email_saveEarly castOther hc prepared j]
  · intro a ha
    rw [copyEmail_accounts
      (show (Person.customer c.id).account fold s.desk.accounts = some a from ha)]
    rfl
  · intro ha
    exact copyEmail_accounts_of_none ha prepared

/-- `customers#update`, when it comes to the save. -/
theorem effect_customersUpdate {s : Office} {c : CustomerRow} {editor : Editor}
    {coverages : String} {propertySaved : Bool} {form prepared : CustomerForm}
    (hc : s.desk.customers.find? c.id = some c)
    (hp : form.prepareUpdate editor coverages c = .ok prepared) (hr : prepared.raises = false) :
    Effect fold s
      { s with
        desk := customersUpdate fold castOther s.desk c.id editor coverages (some form)
          propertySaved }
      (.customer c.id)
      (customerAttempt fold s.desk c (prepared.massAssign castOther c.columns) prepared
        propertySaved) := by
  obtain ⟨saved, hobject⟩ := save_object s.desk.customers c.id c.columns
    (prepared.massAssign castOther c.columns)
  have hupdate : customersUpdate fold castOther s.desk c.id editor coverages (some form)
      propertySaved
        = if propertySaved = true then
            copyEmail fold
              { s.desk with
                customers := (CustomerObject.save s.desk.customers
                  ⟨c.id, c.columns, prepared.massAssign castOther c.columns⟩).2.1 }
              ⟨c.id, saved, prepared.massAssign castOther c.columns⟩ prepared
          else
            { s.desk with
              customers := (CustomerObject.save s.desk.customers
                ⟨c.id, c.columns, prepared.massAssign castOther c.columns⟩).2.1 } := by
    simp [customersUpdate, hc, hp, updateAttributes, hr, hobject]
  rw [hupdate]
  apply effect_of_save hc
  · intro j
    cases propertySaved with
    | true =>
        rw [if_pos rfl, copyEmail_customers]
        exact email_save hc rfl j
    | false => exact email_save hc rfl j
  · intro a ha
    cases propertySaved with
    | true => exact copyEmail_accounts ha prepared
    | false => rfl
  · intro ha
    cases propertySaved with
    | true => exact copyEmail_accounts_of_none ha prepared
    | false => rfl

/-! ## Contractors -/

/-- What the column of a contractor holds. -/
theorem written_contractor (c : Contractor) (id : Nat) (email : Option String) :
    (Person.contractor id).written (some c.email) email = some (contractorEmail c.email email) := by
  unfold Person.written contractorEmail
  split
  · rfl
  · rfl

/-- The e-mails of the contractors after one of them is saved. -/
theorem saveContractor_contractors {s : Office} {c : Contractor} (attrs : ContractorAttrs)
    (env : ContractorEnv) (hc : s.contractors.find? c.id = some c) (j : Nat) :
    ((saveContractor fold s c attrs env).contractors.find? j).map Contractor.email
      = if j = c.id then
          some (if attrs.valid env = true then contractorEmail c.email attrs.email else c.email)
        else (s.contractors.find? j).map Contractor.email := by
  have hupdate : ((s.contractors.update c.id
      (fun r => { r with
        company := writtenText c.company attrs.company
        email := contractorEmail c.email attrs.email }) (fun _ => rfl)).find? j).map
          Contractor.email
        = if j = c.id then some (contractorEmail c.email attrs.email)
          else (s.contractors.find? j).map Contractor.email := by
    rw [Table.find?_update]
    by_cases hj : j = c.id
    · simp [hj, hc]
    · simp [hj]
  unfold saveContractor
  by_cases hv : attrs.valid env = true
  · rw [if_pos hv]
    by_cases haddress : env.addressSaved = true
    · rw [if_pos haddress, if_pos hv]
      exact hupdate
    · rw [if_neg haddress, if_pos hv]
      exact hupdate
  · rw [if_neg hv, if_neg hv]
    by_cases hj : j = c.id
    · simp [hj, hc]
    · simp [hj]

theorem saveContractor_customers (s : Office) (c : Contractor) (attrs : ContractorAttrs)
    (env : ContractorEnv) :
    (saveContractor fold s c attrs env).desk.customers = s.desk.customers := by
  unfold saveContractor
  split
  · dsimp only
    split
    · rfl
    · rfl
  · rfl

theorem saveContractor_accounts (s : Office) (c : Contractor) (attrs : ContractorAttrs)
    (env : ContractorEnv) :
    (saveContractor fold s c attrs env).desk.accounts
      = if (attrs.valid env && env.addressSaved) = true then
          accountsOfContractor fold s.desk.accounts c attrs.email env
        else s.desk.accounts := by
  unfold saveContractor
  by_cases hv : attrs.valid env = true
  · by_cases haddress : env.addressSaved = true
    · simp [hv, haddress]
    · simp [hv, haddress]
  · simp [hv]

/-- The two actions on contractors, when they come to the save. -/
theorem effect_saveContractor {s : Office} {c : Contractor} (attrs : ContractorAttrs)
    (env : ContractorEnv) (hc : s.contractors.find? c.id = some c) :
    Effect fold s (saveContractor fold s c attrs env) (.contractor c.id)
      (contractorAttempt fold s c attrs env) := by
  -- in the records, an e-mail is never NULL
  have hemail : ∀ (t : Table Contractor) (j : Nat), (t.find? j).map (fun r => some r.email)
      = ((t.find? j).map Contractor.email).map some := fun t j => (Option.map_map ..).symm
  apply Effect.of_tables
  · intro x hx
    have hx' : some c.email = x := by simpa [Person.email, hc] using hx
    subst hx'
    simp only [Person.email, hemail, saveContractor_contractors attrs env hc, if_true,
      Option.map_some, written_contractor, contractorAttempt]
    split
    · rfl
    · rfl
  · intro q hq
    cases q with
    | customer j => simp only [Person.email, saveContractor_customers]
    | contractor j =>
        have hj : j ≠ c.id := fun h => hq (by rw [h])
        simp only [Person.email, hemail, saveContractor_contractors attrs env hc, if_neg hj]
  · intro b hb
    have hb' : accountFor fold s.desk.accounts "Contractor" c.id = some b := hb
    rw [saveContractor_accounts]
    simp only [accountsOfContractor, hb', contractorAttempt, Person.accountTakes, hb,
      Option.any_some]
    by_cases hv : ({ b with email := attrs.email } : Account).valid s.desk.accounts = true
    · simp only [hv, Bool.and_true]
    · simp only [Bool.not_eq_true] at hv
      simp [updateAccountEmail_of_invalid hv, hv]
  · intro ht
    simp only [contractorAttempt, Bool.and_eq_true] at ht
    exact ht.2
  · intro hp q b hb
    have hp' : accountFor fold s.desk.accounts "Contractor" c.id = none := hp
    rw [saveContractor_accounts]
    split
    · simp only [accountsOfContractor, hp']
      split
      · exact Table.firstWhere_insert_of_some hb _
      · exact hb
    · exact hb

/-! ## One request -/

/-- What the first save of `async_update` does to the e-mails: nothing. -/
theorem emails_saveEarly {s : Office} {c : CustomerRow}
    (hc : s.desk.customers.find? c.id = some c) (form : CustomerForm) (p : Person) :
    Office.emails fold { s with desk := (saveEarly castOther s.desk c form).1 } p
      = s.emails fold p := by
  have hemail : p.email { s with desk := (saveEarly castOther s.desk c form).1 } = p.email s := by
    cases p with
    | customer j => exact email_saveEarly castOther hc form j
    | contractor j => rfl
  unfold Office.emails
  rw [hemail]
  rfl

/-- An `async_update` that does not come to the second save. -/
theorem emails_asyncUpdate_of_no_attempt {s : Office} {id : Nat} {editor : Editor}
    {form : Option CustomerForm}
    (h : EditRequest.attempt fold castOther s (.customersAsyncUpdate id editor form) = none)
    (p : Person) :
    (s.edit fold castOther (.customersAsyncUpdate id editor form)).emails fold p
      = s.emails fold p := by
  simp only [Office.edit]
  cases hc : s.desk.customers.find? id with
  | none => simp [asyncUpdate, hc]
  | some c =>
      obtain rfl : c.id = id := Table.key_of_find? hc
      cases form with
      | none => simp [asyncUpdate, hc]
      | some form =>
          cases hp : form.prepare editor c with
          | error e => simp [asyncUpdate, hc, hp]
          | ok prepared =>
              have hr : prepared.raises = true := by
                simpa [EditRequest.attempt, hc, hp, Except.toOption] using h
              have heq : (asyncUpdate fold castOther s.desk c.id editor (some form)).2
                  = (saveEarly castOther s.desk c prepared).1 := by
                simp [asyncUpdate, hc, hp, updateAttributes, hr]
              rw [heq]
              exact emails_saveEarly hc prepared p

/-- A `customers#update` that does not come to the save. -/
theorem edit_customersUpdate_of_no_attempt {s : Office} {id : Nat} {editor : Editor}
    {coverages : String} {form : Option CustomerForm} {propertySaved : Bool}
    (h : EditRequest.attempt fold castOther s
      (.customersUpdate id editor coverages form propertySaved) = none) :
    s.edit fold castOther (.customersUpdate id editor coverages form propertySaved) = s := by
  have heq : customersUpdate fold castOther s.desk id editor coverages form propertySaved
      = s.desk := by
    cases hc : s.desk.customers.find? id with
    | none => simp [customersUpdate, hc]
    | some c =>
        cases form with
        | none => simp [customersUpdate, hc]
        | some form =>
            cases hp : form.prepareUpdate editor coverages c with
            | error e => simp [customersUpdate, hc, hp]
            | ok prepared =>
                have hr : prepared.raises = true := by
                  simpa [EditRequest.attempt, hc, hp, Except.toOption] using h
                simp [customersUpdate, hc, hp, updateAttributes, hr]
  simp only [Office.edit, heq]

/-- A `contractors#update` that does not come to the save. -/
theorem edit_contractorsUpdate_of_no_attempt {s : Office} {id : Nat} {editor : Editor}
    {form : Option ContractorForm} {addressGiven : Bool} {env : ContractorEnv}
    (h : EditRequest.attempt fold castOther s
      (.contractorsUpdate id editor form addressGiven env) = none) :
    s.edit fold castOther (.contractorsUpdate id editor form addressGiven env) = s := by
  cases hc : s.contractors.find? id with
  | none => simp [Office.edit, hc]
  | some c =>
      cases form with
      | none => simp [Office.edit, hc]
      | some form =>
          cases hu : updateLastChangeField editor (some "") with
          | error e => simp [Office.edit, hc, hu]
          | ok name =>
              have hg : addressGiven = false := by
                simpa [EditRequest.attempt, hc, hu, Except.toOption] using h
              simp [Office.edit, hc, hu, hg]

/-- A request that does not come to the save of its form leaves the
e-mails as they are. -/
theorem emails_of_no_attempt {s : Office} {r : EditRequest}
    (h : r.attempt fold castOther s = none) (p : Person) :
    (s.edit fold castOther r).emails fold p = s.emails fold p := by
  cases r with
  | customersAsyncUpdate id editor form => exact emails_asyncUpdate_of_no_attempt h p
  | customersUpdate id editor coverages form propertySaved =>
      rw [edit_customersUpdate_of_no_attempt h]
  | contractorsAsyncUpdate id form env =>
      cases hc : s.contractors.find? id with
      | none => simp [Office.edit, hc]
      | some c => simp [EditRequest.attempt, hc] at h
  | contractorsUpdate id editor form addressGiven env =>
      rw [edit_contractorsUpdate_of_no_attempt h]

theorem toOption_eq_some {α : Type} {x : Except RubyError α} {v : α} :
    x.toOption = some v ↔ x = .ok v := by
  cases x with
  | error e => simp [Except.toOption]
  | ok w => simp [Except.toOption]

/-- A request that comes to the save of its form. -/
theorem effect_of_attempt {s : Office} {r : EditRequest} {a : Attempt}
    (h : r.attempt fold castOther s = some a) :
    Effect fold s (s.edit fold castOther r) r.person a := by
  cases r with
  | customersAsyncUpdate id editor form =>
      simp only [EditRequest.attempt, Option.bind_eq_bind, Option.bind_eq_some_iff,
        toOption_eq_some, Option.ite_none_left_eq_some, Option.some.injEq, Bool.not_eq_true] at h
      obtain ⟨c, hc, form, rfl, prepared, hp, hr, rfl⟩ := h
      obtain rfl : c.id = id := Table.key_of_find? hc
      exact effect_asyncUpdate hc hp hr
  | customersUpdate id editor coverages form propertySaved =>
      simp only [EditRequest.attempt, Option.bind_eq_bind, Option.bind_eq_some_iff,
        toOption_eq_some, Option.ite_none_left_eq_some, Option.some.injEq, Bool.not_eq_true] at h
      obtain ⟨c, hc, form, rfl, prepared, hp, hr, rfl⟩ := h
      obtain rfl : c.id = id := Table.key_of_find? hc
      exact effect_customersUpdate hc hp hr
  | contractorsAsyncUpdate id form env =>
      simp only [EditRequest.attempt, Option.bind_eq_bind, Option.bind_eq_some_iff,
        Option.some.injEq] at h
      obtain ⟨c, hc, rfl⟩ := h
      obtain rfl : c.id = id := Table.key_of_find? hc
      have heq : s.edit fold castOther (.contractorsAsyncUpdate c.id form env)
          = saveContractor fold s c (c.assign form) env := by
        simp [Office.edit, hc]
      rw [heq]
      exact effect_saveContractor _ env hc
  | contractorsUpdate id editor form addressGiven env =>
      simp only [EditRequest.attempt, Option.bind_eq_bind, Option.bind_eq_some_iff,
        toOption_eq_some, Option.ite_none_right_eq_some, Option.some.injEq] at h
      obtain ⟨c, hc, form, rfl, name, hu, rfl, rfl⟩ := h
      obtain rfl : c.id = id := Table.key_of_find? hc
      have heq : s.edit fold castOther (.contractorsUpdate c.id editor (some form) true env)
          = saveContractor fold s c (c.assign (some form)) env := by
        simp [Office.edit, hc, hu]
      rw [heq]
      exact effect_saveContractor _ env hc

/-! ## Runs -/

/-- Of two e-mails that are the same, each is written to or not; they
are the same after that when both are or neither is. -/
theorem written_eq_iff {p : Person} {x m : Option String} {record account : Bool}
    (hgiven : account = true → m ≠ none) :
    (if record then p.written x m else x) = (if account then writtenText x m else x) ↔
      m = x ∨ p.stored m = x ∨ record = account := by
  by_cases hm : m = x
  · simp [Person.written, hm]
  have hstored : account = true → p.stored m = m.map textColumn := by
    intro h
    obtain ⟨e, rfl⟩ := Option.ne_none_iff_exists'.mp (hgiven h)
    cases p with
    | customer id => rfl
    | contractor id => rfl
  cases record with
  | false =>
      cases account with
      | false => simp
      | true => simp [writtenText, hm, hstored, eq_comm]
  | true =>
      cases account with
      | false => simp [Person.written, hm]
      | true => simp [Person.written, writtenText, hm, hstored]

/-- The step lemma: a request keeps e-mails together that are, exactly
when it is concordant. -/
theorem together_edit_iff (s : Office) (r : EditRequest) :
    (∀ p, s.Together fold p → (s.edit fold castOther r).Together fold p) ↔
      Concordant fold castOther s r := by
  unfold Office.Together Concordant
  cases ha : r.attempt fold castOther s with
  | none => simp [emails_of_no_attempt ha]
  | some a =>
      have heffect := effect_of_attempt ha
      simp only [Option.mem_some_iff, forall_eq']
      constructor
      · intro hall e he
        obtain ⟨e', he'⟩ := hall r.person ⟨e, he⟩
        rw [heffect.self e e he, Option.some.injEq, Prod.mk.injEq] at he'
        exact (written_eq_iff heffect.given).mp (he'.1.trans he'.2.symm)
      · rintro hok p ⟨e, he⟩
        by_cases hp : p = r.person
        · subst hp
          have hsame := (written_eq_iff heffect.given).mpr (hok e he)
          exact ⟨_, by rw [heffect.self e e he, hsame]⟩
        · exact ⟨e, heffect.others p hp _ he⟩

end

end HomeWarranty.Admin
