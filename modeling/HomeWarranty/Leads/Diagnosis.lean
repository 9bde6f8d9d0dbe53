/-
HomeWarranty.Leads.Diagnosis — what the two requests of the API answer.

Each request states its required fields twice: in a conjunction that is
checked, and in a chain that says which of them is missing. For a lead
the two agree. For a quote the chain asks for one field more, the
timestamp, so a request without it passes the check; and the conjunction
reads the fields of the property without asking whether there is one, so
a request without a property raises: `api_diagnosis_iff`.

The parts of a request are texts or maps of texts. Keys with a
parenthesis, which Rails takes for parts of a date, are left out. The
reader of times, the encryption of card numbers and the validations of a
lead are parameters (`ApiEnv`); the mail that goes out with a new quote
is sent or not, its errors are swallowed.
-/
import HomeWarranty.Lib.Checks
import HomeWarranty.Records

namespace HomeWarranty.Leads

open Lib Ruby

/-! ## Requests -/

/-- A map of the request. -/
structure Fields where
  pairs : List (String × String)
  plain : ∀ kv ∈ pairs, '(' ∉ kv.1.toList

inductive Part where
  | missing
  | text (s : String)
  | fields (f : Fields)

/-- `params[:part].present?`. -/
def Part.present : Part → Bool
  | .missing => false
  | .text s => !blank s
  | .fields f => !f.pairs.isEmpty

/-- `params[:part][:name]`. A text is not indexed by a name. -/
def Part.index (name : String) : Part → Except RubyError (Option String)
  | .missing => .error .noMethodError
  | .text _ => .error .typeError
  | .fields f => .ok (f.pairs.lookup name)

/-- The field is there and not blank. -/
def Part.has (name : String) : Part → Bool
  | .fields f => presentOpt (f.pairs.lookup name)
  | _ => false

inductive PartName where
  | customer
  | property
  | lead

structure ApiParams where
  customer : Part
  property : Part
  lead : Part
  authToken : Option String

def ApiParams.part (p : ApiParams) : PartName → Part
  | .customer => p.customer
  | .property => p.property
  | .lead => p.lead

/-! ## Required fields -/

inductive Requirement where
  | part (s : PartName)
  | authToken
  | field (s : PartName) (name : String)

/-- The condition as it is written. -/
def Requirement.holds (p : ApiParams) : Requirement → Except RubyError Bool
  | .part s => .ok (p.part s).present
  | .authToken => .ok (presentOpt p.authToken)
  | .field s name => ((p.part s).index name).map presentOpt

/-- What is required; a field of a part that is not there is missing. -/
def Requirement.met (p : ApiParams) : Requirement → Bool
  | .part s => (p.part s).present
  | .authToken => presentOpt p.authToken
  | .field s name => (p.part s).has name

/-- `check_valid_params`. -/
def validParams : List Requirement :=
  [.part .customer, .authToken, .field .customer "leadid", .field .property "address",
    .field .property "city", .field .property "state", .field .property "zip_code"]

/-- `check_validations_for_add_customer_for_get_a_quote`. -/
def addCustomerValidations : List (Requirement × String) :=
  [(.part .customer, "Customer not found!"), (.authToken, "Token not found!"),
    (.field .customer "leadid", "LeadID is not present!"),
    (.field .property "address", "Address is not present!"),
    (.field .property "city", "City is not present!"),
    (.field .property "state", "State is not present!"),
    (.field .property "zip_code", "Zipcode is not present!"),
    (.field .customer "datetimestamp", "Datetimestamp is not present!")]

/-- `check_valid_lead_params`. -/
def validLeadParams : List Requirement :=
  [.part .lead, .field .lead "first_name", .field .lead "last_name", .field .lead "work_phone",
    .field .lead "email", .field .lead "address", .field .lead "city", .field .lead "state",
    .field .lead "type_of_home"]

/-- `check_validations_for_add_lead`. -/
def addLeadValidations : List (Requirement × String) :=
  [(.part .lead, "Lead not found"), (.field .lead "first_name", "First Name is not present!"),
    (.field .lead "last_name", "Last Name is not present!"),
    (.field .lead "work_phone", "Work Phone is not present!"),
    (.field .lead "email", "Email is not present!"),
    (.field .lead "address", "Address is not present!"),
    (.field .lead "city", "City is not present!"), (.field .lead "state", "State is not present!"),
    (.field .lead "type_of_home", "Type of home is not present!")]

/-! ## Tables -/

/-- A customer of the API: the columns that were written, the last one
first. -/
structure QuotedCustomer where
  id : Nat
  columns : List (String × String)
  partnerId : Option Nat
  properties : List (List (String × String))
  deriving DecidableEq

instance : Record QuotedCustomer where
  key := QuotedCustomer.id
  withKey n c := { c with id := n }
  key_withKey := fun _ _ => rfl

def QuotedCustomer.column (c : QuotedCustomer) (name : String) : Option String :=
  c.columns.lookup name

def QuotedCustomer.write (c : QuotedCustomer) (name value : String) : QuotedCustomer :=
  { c with columns := (name, value) :: c.columns }

structure LeadRow where
  id : Nat
  columns : List (String × String)
  deriving DecidableEq

instance : Record LeadRow where
  key := LeadRow.id
  withKey n l := { l with id := n }
  key_withKey := fun _ _ => rfl

structure ApiPartner where
  id : Nat
  authToken : Option String
  companyApiAccess : Option String
  deleted : Bool
  deriving DecidableEq

instance : Record ApiPartner where
  key := ApiPartner.id
  withKey n p := { p with id := n }
  key_withKey := fun _ _ => rfl

structure ApiDb where
  customers : Table QuotedCustomer
  leads : Table LeadRow
  partners : Table ApiPartner
  states : Table State

/-- What the requests use from outside. -/
structure ApiEnv where
  fold : Char → Char
  /-- `set_date_format_for_datetimestamp` of a text that is not blank;
  `none` where it raises an `ArgumentError`. -/
  dateFormat : String → Option String
  /-- The text of `credit_card_number_hash`; `none` where the encryption
  raises. -/
  encrypt : String → Option String
  /-- The messages of the validations of a lead. -/
  leadErrors : List (String × String) → List String

/-! ## New records -/

/-- `attr_accessible` of `Customer`. -/
def customerAccessible : List String :=
  ["disabled", "pay_amount", "customer_from", "first_name", "last_name", "email", "customer_phone",
    "customer_address", "customer_city", "customer_state", "customer_zip", "coverage_type",
    "coverage_addon", "home_type", "num_payments", "coverage_end", "coverage_ends_at", "validated",
    "customer_comment", "credit_card_number_hash", "expirationDate", "timestamp", "ip",
    "billing_first_name", "billing_last_name", "billing_address", "billing_city", "billing_state",
    "billing_zip", "from", "service_fee_text_override", "service_fee_amt_override",
    "wait_period_text_override", "wait_period_days_override", "num_payments_override",
    "payment_schedule_override", "notes_override", "home_size_code", "home_occupancy_code",
    "work_phone", "mobile_phone", "call_back_on", "leadid", "datetimestamp", "is_show_credit_card",
    "cc_by", "update_by", "properties_attributes", "coverages_attributes", "coverages",
    "credit_card_number", "subid", "subscription_id", "contract_status_id", "lead_status_id",
    "contract_start_date", "contract_duration", "total_billed", "month_fee", "policy_signed",
    "year", "merchant_name", "gateway_id", "purchase_date"]

/-- `attr_accessible` of `Address`. -/
def addressAccessible : List String :=
  ["address", "address2", "address3", "city", "state", "zip_code", "country", "lat", "lng",
    "verified_address", "geocoded_address"]

/-- `attr_accessible` of `Lead`. -/
def leadAccessible : List String :=
  ["address", "city", "email", "first_name", "home_phone", "last_name", "mobile_phone",
    "square_footage", "state", "type_of_home", "work_phone", "zipcode", "package_id",
    "optional_coverages", "discount_code", "credit_card_number", "exp_date", "billing_address",
    "billing_name", "billing_city", "billing_state", "billing_zipcode", "payment_method"]

/-- The attributes that are assigned. -/
def sanitize (accessible : List String) (f : Fields) : List (String × String) :=
  f.pairs.filter fun kv => accessible.contains kv.1

/-- The writer of one attribute. An association and nested attributes are
not given as a text. -/
def assign (env : ApiEnv) (c : QuotedCustomer) (kv : String × String) :
    Except RubyError QuotedCustomer :=
  match kv.1 with
  | "billing_address" => .error .externalError
  | "properties_attributes" => .error .argumentError
  | "coverages_attributes" => .error .noMethodError
  | "coverages" => .error .noMethodError
  | "credit_card_number" =>
      match env.encrypt kv.2 with
      | some hash => .ok (c.write "credit_card_number_hash" hash)
      | none => .error .externalError
  | name => .ok (c.write name kv.2)

/-- `Customer.new(params[:customer])`. -/
def newCustomer (env : ApiEnv) (part : Part) : Except RubyError QuotedCustomer :=
  let blankCustomer : QuotedCustomer := ⟨0, [], none, []⟩
  match part with
  | .missing => .ok blankCustomer
  | .text s => if blank s then .ok blankCustomer else .error .noMethodError
  | .fields f => (sanitize customerAccessible f).foldlM (assign env) blankCustomer

/-- `properties.build(params[:property])`. -/
def newProperty (part : Part) : Except RubyError (List (String × String)) :=
  match part with
  | .missing => .ok []
  | .text s => if blank s then .ok [] else .error .noMethodError
  | .fields f => .ok (sanitize addressAccessible f)

/-- The messages of the validations of `Customer`. -/
def customerErrors (t : Table QuotedCustomer) (c : QuotedCustomer) : List String :=
  (if presentOpt (c.column "first_name") then [] else ["First name can't be blank"]) ++
    (if presentOpt (c.column "last_name") then [] else ["Last name can't be blank"]) ++
    (if presentOpt (c.column "customer_phone") then [] else ["Customer phone can't be blank"]) ++
    (if presentOpt (c.column "email") then [] else ["Email can't be blank"]) ++
    (if presentOpt (c.column "leadid") &&
        t.rows.any (fun r => r.column "leadid" == c.column "leadid") then
      ["Leadid has already been taken"]
    else [])

/-! ## Answers -/

inductive Answer where
  | message (text : String) (status : Nat)
  | errors (text : String) (status : Nat)
  | errorList (texts : List String) (status : Nat)
  deriving DecidableEq

/-- The tables and the answers that were rendered. -/
abbrev ApiResult := Except RubyError (ApiDb × List Answer)

/-- The chain of a diagnosis; at its end nothing is rendered. -/
def diagnose (db : ApiDb) (p : ApiParams) (validations : List (Requirement × String)) : ApiResult :=
  (firstFailure (Requirement.holds p) validations).map fun m =>
    (db, m.toList.map fun text => .errors text 401)

/-- `set_date_format_for_datetimestamp`. -/
def setDateFormat (env : ApiEnv) (newdt : Option String) : Except RubyError String :=
  match newdt with
  | none => .error .noMethodError
  | some s =>
      if blank s then .error .noMethodError
      else
        match env.dateFormat s with
        | some formatted => .ok formatted
        | none => .error .argumentError

/-- `valid? && save`, with the message for a customer that was saved. -/
def saveCustomer (db : ApiDb) (c : QuotedCustomer) (saved : String) : ApiDb × List Answer :=
  match customerErrors db.customers c with
  | [] => ({ db with customers := db.customers.insert c }, [.message saved 200])
  | e :: es => (db, [.errorList (e :: es) 401])

/-- The customer that is to be saved. -/
def preparedCustomer (company : ApiPartner) (c : QuotedCustomer) (datetimestamp : String)
    (property : List (String × String)) (subId : Option String) : QuotedCustomer :=
  let c := { c with partnerId := some company.id, properties := [property] }
  let c := ((c.write "datetimestamp" datetimestamp).write "pay_amount" "499.95").write
    "customer_from" "api"
  if presentOpt subId then c.write "subid" (subId.getD "") else c

/-- The three branches on the state of the property. -/
def answerForState (db : ApiDb) (c : QuotedCustomer) (state : Option String) : ApiResult :=
  match state with
  | none => .error .noMethodError
  | some state =>
      .ok (if !blank state && 3 ≤ state.length then
        (db, [.message ("The format for " ++ state ++ " field should be two-letters.") 401])
      else if !(db.states.rows.filter State.api).any (fun s => s.name == some (upcase state)) then
        saveCustomer db c ("Sorry, we currently don't offer coverage in " ++ upcase state ++
          " - please stay tuned!")
      else saveCustomer db c "Accepted")

/-- The lines between `begin` and `rescue`. -/
def acceptCustomer (env : ApiEnv) (db : ApiDb) (p : ApiParams) (company : ApiPartner)
    (c : QuotedCustomer) : ApiResult := do
  let newdt ← p.customer.index "datetimestamp"
  let datetimestamp ← setDateFormat env newdt
  let property ← newProperty p.property
  let subId ← p.customer.index "subID"
  let state ← p.property.index "state"
  answerForState db (preparedCustomer company c datetimestamp property subId) state

/-- The two `rescue` clauses. -/
def rescued (db : ApiDb) (result : ApiResult) : ApiResult :=
  match result with
  | .error .argumentError => .ok (db, [.errors "invalid date" 401])
  | .error .noMethodError =>
      .ok (db, [.errors "You are not passing a proper data please check that." 401])
  | result => result

/-- `Partner.find_by_auth_token(params[:auth_token]) if params[:auth_token].present?`. -/
def findCompany (env : ApiEnv) (db : ApiDb) (p : ApiParams) : Option ApiPartner :=
  if presentOpt p.authToken then
    db.partners.firstWhere fun c => !c.deleted && sqlEq env.fold c.authToken p.authToken
  else none

/-- `add_customer_for_get_a_quote`. -/
def addCustomerForGetAQuote (env : ApiEnv) (db : ApiDb) (p : ApiParams) : ApiResult := do
  let customer ← newCustomer env p.customer
  let company := findCompany env db p
  if ← allHold (Requirement.holds p) validParams then
    match company.filter fun c => c.companyApiAccess == some "Approved" with
    | some company => rescued db (acceptCustomer env db p company customer)
    | none => return (db, [.errors "You don't have access!" 401])
  else diagnose db p addCustomerValidations

/-- `Lead.new(params[:lead])` and its `save`. -/
def saveLead (env : ApiEnv) (db : ApiDb) (columns : List (String × String)) : ApiDb × List Answer :=
  match env.leadErrors columns with
  | [] => ({ db with leads := db.leads.insert ⟨0, columns⟩ }, [.message "Accepted" 200])
  | e :: es => (db, [.errors ((e :: es).getLast (List.cons_ne_nil e es)) 401])

/-- `generate_lead`. -/
def generateLead (env : ApiEnv) (db : ApiDb) (p : ApiParams) : ApiResult := do
  if ← allHold (Requirement.holds p) validLeadParams then
    match p.lead with
    | .missing => return saveLead env db []
    | .text s => if blank s then return saveLead env db [] else .error .noMethodError
    | .fields f => return saveLead env db (sanitize leadAccessible f)
  else diagnose db p addLeadValidations

inductive ApiRequest where
  | quote (p : ApiParams)
  | lead (p : ApiParams)

def ApiRequest.perform (env : ApiEnv) (db : ApiDb) : ApiRequest → ApiResult
  | .quote p => addCustomerForGetAQuote env db p
  | .lead p => generateLead env db p

/-- The check of the request. -/
def ApiRequest.check : ApiRequest → Except RubyError Bool
  | .quote p => allHold (Requirement.holds p) validParams
  | .lead p => allHold (Requirement.holds p) validLeadParams

/-- What its diagnosis requires, with the messages. -/
def ApiRequest.validations : ApiRequest → List (Requirement × String)
  | .quote _ => addCustomerValidations
  | .lead _ => addLeadValidations

def ApiRequest.params : ApiRequest → ApiParams
  | .quote p => p
  | .lead p => p

/-! ## New customers -/

/-- The attribute is not an association and not nested, and a card number
can be encrypted. -/
def Writable (env : ApiEnv) (kv : String × String) : Prop :=
  kv.1 ∉ ["billing_address", "properties_attributes", "coverages_attributes", "coverages"] ∧
    (kv.1 = "credit_card_number" → (env.encrypt kv.2).isSome = true)

/-- The part is left out or blank, or a map of texts that can be written. -/
def Assignable (env : ApiEnv) : Part → Prop
  | .missing => True
  | .text s => blank s = true
  | .fields f => ∀ kv ∈ f.pairs, Writable env kv

theorem exists_assign_iff (env : ApiEnv) (c : QuotedCustomer) (kv : String × String) :
    (∃ c', assign env c kv = .ok c') ↔ Writable env kv := by
  obtain ⟨name, value⟩ := kv
  unfold assign Writable
  dsimp only
  split
  · simp
  · simp
  · simp
  · simp
  · cases env.encrypt value <;> simp
  · rename_i h1 h2 h3 h4 h5
    refine iff_of_true ⟨_, rfl⟩ ⟨?_, fun hcard => absurd hcard h5⟩
    simp only [List.mem_cons, List.not_mem_nil, or_false, not_or]
    exact ⟨h1, h2, h3, h4⟩

theorem exists_foldlM_assign_iff (env : ApiEnv) (kvs : List (String × String))
    (c : QuotedCustomer) :
    (∃ c', kvs.foldlM (assign env) c = .ok c') ↔ ∀ kv ∈ kvs, Writable env kv := by
  induction kvs generalizing c with
  | nil => exact iff_of_true ⟨c, rfl⟩ (by simp)
  | cons kv kvs ih =>
      rw [List.forall_mem_cons, ← exists_assign_iff env c kv, List.foldlM_cons]
      constructor
      · rintro ⟨c', h⟩
        obtain ⟨c₁, hfirst, hrest⟩ := bind_eq_ok.mp h
        exact ⟨⟨c₁, hfirst⟩, (ih c₁).mp ⟨c', hrest⟩⟩
      · rintro ⟨⟨c₁, hfirst⟩, hrest⟩
        obtain ⟨c', h⟩ := (ih c₁).mpr hrest
        exact ⟨c', bind_eq_ok.mpr ⟨c₁, hfirst, h⟩⟩

/-- What cannot be written is accessible, so nothing of it is left out. -/
theorem writable_of_not_accessible (env : ApiEnv) {kv : String × String}
    (h : kv.1 ∉ customerAccessible) : Writable env kv := by
  have hrefused : ∀ name ∈ ["billing_address", "properties_attributes", "coverages_attributes",
      "coverages", "credit_card_number"], name ∈ customerAccessible := by decide
  refine ⟨fun hmem => h (hrefused kv.1 ?_), fun hcard => absurd (hrefused kv.1 ?_) h⟩
  · exact List.mem_append_left ["credit_card_number"] hmem
  · rw [hcard]
    decide

theorem exists_newCustomer_iff (env : ApiEnv) (part : Part) :
    (∃ c, newCustomer env part = .ok c) ↔ Assignable env part := by
  cases part with
  | missing => exact iff_of_true ⟨_, rfl⟩ trivial
  | text s =>
      unfold newCustomer Assignable
      cases hblank : blank s <;> simp [hblank]
  | fields f =>
      unfold newCustomer Assignable
      rw [exists_foldlM_assign_iff]
      constructor
      · intro h kv hkv
        by_cases hname : kv.1 ∈ customerAccessible
        · exact h kv (List.mem_filter.mpr ⟨hkv, by simpa using hname⟩)
        · exact writable_of_not_accessible env hname
      · intro h kv hkv
        exact h kv (List.mem_filter.mp hkv).1

/-! ## One answer -/

theorem saveCustomer_answers (db : ApiDb) (c : QuotedCustomer) (saved : String) :
    ∃ db' a, saveCustomer db c saved = (db', [a]) := by
  unfold saveCustomer
  split
  · exact ⟨_, _, rfl⟩
  · exact ⟨_, _, rfl⟩

theorem saveLead_answers (env : ApiEnv) (db : ApiDb) (columns : List (String × String)) :
    ∃ db' a, saveLead env db columns = (db', [a]) := by
  unfold saveLead
  split
  · exact ⟨_, _, rfl⟩
  · exact ⟨_, _, rfl⟩

/-- One answer, or an error that is rescued. -/
def Settles (result : ApiResult) : Prop :=
  result = .error .argumentError ∨ result = .error .noMethodError ∨
    ∃ db' a, result = .ok (db', [a])

theorem Settles.rescued {result : ApiResult} (h : Settles result) (db : ApiDb) :
    ∃ db' a, rescued db result = .ok (db', [a]) := by
  rcases h with rfl | rfl | ⟨db', a, rfl⟩
  · exact ⟨_, _, rfl⟩
  · exact ⟨_, _, rfl⟩
  · exact ⟨db', a, rfl⟩

theorem settles_answerForState (db : ApiDb) (c : QuotedCustomer) (state : Option String) :
    Settles (answerForState db c state) := by
  cases state with
  | none => exact .inr (.inl rfl)
  | some state =>
      refine .inr (.inr ?_)
      unfold answerForState
      dsimp only
      split_ifs
      · exact ⟨_, _, rfl⟩
      · obtain ⟨db', a, h⟩ := saveCustomer_answers db c
          ("Sorry, we currently don't offer coverage in " ++ upcase state ++
            " - please stay tuned!")
        exact ⟨db', a, congrArg Except.ok h⟩
      · obtain ⟨db', a, h⟩ := saveCustomer_answers db c "Accepted"
        exact ⟨db', a, congrArg Except.ok h⟩

/-- A time that cannot be read is one of the errors that are rescued. -/
theorem settles_setDateFormat (env : ApiEnv) (newdt : Option String) {rest : String → ApiResult}
    (hrest : ∀ datetimestamp, Settles (rest datetimestamp)) :
    Settles (setDateFormat env newdt >>= rest) := by
  unfold setDateFormat
  split
  · exact .inr (.inl rfl)
  · split_ifs
    · exact .inr (.inl rfl)
    · split
      · exact hrest _
      · exact .inl rfl

/-- With a customer and a property, whatever is in them, the request
comes to one answer. -/
theorem acceptCustomer_answers (env : ApiEnv) (db : ApiDb) {p : ApiParams} (company : ApiPartner)
    (c : QuotedCustomer) {f g : Fields} (hcustomer : p.customer = .fields f)
    (hproperty : p.property = .fields g) :
    ∃ db' a, rescued db (acceptCustomer env db p company c) = .ok (db', [a]) := by
  refine Settles.rescued ?_ db
  unfold acceptCustomer
  rw [hcustomer, hproperty]
  exact settles_setDateFormat env _ fun datetimestamp => settles_answerForState db _ _

/-! ## Check and diagnosis -/

theorem holds_field_of_fields {p : ApiParams} {s : PartName} {f : Fields} (h : p.part s = .fields f)
    (name : String) :
    (Requirement.field s name).holds p = .ok ((Requirement.field s name).met p) := by
  simp only [Requirement.holds, Requirement.met, h]
  rfl

/-- Only a map can be asked for a field. -/
theorem exists_fields_of_holds {p : ApiParams} {s : PartName} {name : String} {b : Bool}
    (h : (Requirement.field s name).holds p = .ok b) : ∃ f, p.part s = .fields f := by
  simp only [Requirement.holds] at h
  cases hpart : p.part s with
  | missing =>
      rw [hpart] at h
      cases h
  | text t =>
      rw [hpart] at h
      cases h
  | fields f => exact ⟨f, rfl⟩

theorem met_of_holds (p : ApiParams) (r : Requirement) (b : Bool) (h : r.holds p = .ok b) :
    r.met p = b := by
  cases r with
  | part s =>
      cases h
      rfl
  | authToken =>
      cases h
      rfl
  | field s name =>
      obtain ⟨f, hpart⟩ := exists_fields_of_holds h
      rw [holds_field_of_fields hpart] at h
      exact Except.ok.inj h

/-- The request is answered once and without raising; a check that fails
names the first thing that is missing and stores nothing; a check that
passes leaves nothing missing. -/
structure Diagnosed (env : ApiEnv) (db : ApiDb) (r : ApiRequest) : Prop where
  answered : ∃ db' a, r.perform env db = .ok (db', [a])
  named : r.check = .ok false → ∃ m, firstUnmet (Requirement.met r.params) r.validations = some m ∧
    r.perform env db = .ok (db, [.errors m 401])
  complete : r.check = .ok true → ∀ q ∈ r.validations, q.1.met r.params = true

/-- What the code needs for that: the customer can be built, a lead is
not a text, and once the conditions in front of it hold the property is a
map that does not lack the timestamp alone. -/
def ApiRequest.Diagnosable (env : ApiEnv) : ApiRequest → Prop
  | .quote p => Assignable env p.customer ∧
      (p.customer.present = true → presentOpt p.authToken = true → p.customer.has "leadid" = true →
        (∃ f, p.property = .fields f) ∧
          (p.property.has "address" = true → p.property.has "city" = true →
            p.property.has "state" = true → p.property.has "zip_code" = true →
              p.customer.has "datetimestamp" = true))
  | .lead p => ∀ s, p.lead = .text s → blank s = true

/-- A check that fails makes the diagnosis name what is missing. -/
theorem diagnose_of_check {p : ApiParams} (validations more : List (Requirement × String))
    (h : allHold (Requirement.holds p) (validations.map Prod.fst) = .ok false) (db : ApiDb) :
    ∃ m, firstUnmet (Requirement.met p) (validations ++ more) = some m ∧
      diagnose db p (validations ++ more) = .ok (db, [.errors m 401]) := by
  obtain ⟨m, hunmet, hfailure⟩ := firstFailure_of_allHold (met_of_holds p) h more
  refine ⟨m, hunmet, ?_⟩
  rw [diagnose, hfailure]
  rfl

/-! ## Quotes -/

/-- The conditions in front of those on the property. -/
def customerParams : List Requirement :=
  [.part .customer, .authToken, .field .customer "leadid"]

def propertyParams : List Requirement :=
  [.field .property "address", .field .property "city", .field .property "state",
    .field .property "zip_code"]

theorem validParams_eq : validParams = customerParams ++ propertyParams := rfl

section
variable {env : ApiEnv} {p : ApiParams}

/-- A customer that can be built can be asked for its fields. -/
theorem allHold_customerParams (h : Assignable env p.customer) :
    allHold (Requirement.holds p) customerParams
      = .ok (customerParams.all (Requirement.met p)) := by
  cases hcustomer : p.customer with
  | missing =>
      simp [customerParams, allHold, Requirement.holds, Requirement.met, ApiParams.part, hcustomer,
        Part.present]
  | text s =>
      rw [hcustomer] at h
      have hblank : blank s = true := h
      simp [customerParams, allHold, Requirement.holds, Requirement.met, ApiParams.part, hcustomer,
        Part.present, hblank]
  | fields f =>
      refine allHold_of_ok fun r hr => ?_
      simp only [customerParams, List.mem_cons, List.not_mem_nil, or_false] at hr
      rcases hr with rfl | rfl | rfl
      · rfl
      · rfl
      · exact holds_field_of_fields (s := .customer) hcustomer "leadid"

theorem allHold_propertyParams {f : Fields} (h : p.property = .fields f) :
    allHold (Requirement.holds p) propertyParams
      = .ok (propertyParams.all (Requirement.met p)) := by
  refine allHold_of_ok fun r hr => ?_
  simp only [propertyParams, List.mem_cons, List.not_mem_nil, or_false] at hr
  rcases hr with rfl | rfl | rfl | rfl
  all_goals exact holds_field_of_fields (s := .property) h _

/-- A property that is not a map cannot be asked. -/
theorem exists_fields_of_check {b : Bool}
    (h : allHold (Requirement.holds p) propertyParams = .ok b) : ∃ f, p.property = .fields f := by
  obtain ⟨b', haddress⟩ := holds_of_allHold h
  exact exists_fields_of_holds (s := .property) haddress

theorem all_customerParams_iff : customerParams.all (Requirement.met p) = true ↔
    p.customer.present = true ∧ presentOpt p.authToken = true ∧ p.customer.has "leadid" = true := by
  simp [customerParams, Requirement.met, ApiParams.part]

theorem all_propertyParams_iff : propertyParams.all (Requirement.met p) = true ↔
    p.property.has "address" = true ∧ p.property.has "city" = true ∧
      p.property.has "state" = true ∧ p.property.has "zip_code" = true := by
  simp [propertyParams, Requirement.met, ApiParams.part]

/-- Once the conditions in front hold, the property decides. -/
theorem check_of_customerParams (hassign : Assignable env p.customer)
    (h : customerParams.all (Requirement.met p) = true) :
    allHold (Requirement.holds p) validParams = allHold (Requirement.holds p) propertyParams := by
  have hfront := allHold_customerParams hassign
  rw [h] at hfront
  rw [validParams_eq, allHold_append (allHold_true_iff.mp hfront)]

/-- A request that passes the check is answered once. -/
theorem quote_answers {db : ApiDb} {c : QuotedCustomer} (hnew : newCustomer env p.customer = .ok c)
    (hcheck : allHold (Requirement.holds p) validParams = .ok true) :
    ∃ db' a, addCustomerForGetAQuote env db p = .ok (db', [a]) := by
  have hall := allHold_true_iff.mp hcheck
  obtain ⟨f, hcustomer⟩ := exists_fields_of_holds
    (hall (.field .customer "leadid") (by simp [validParams]))
  obtain ⟨g, hproperty⟩ := exists_fields_of_holds
    (hall (.field .property "address") (by simp [validParams]))
  unfold addCustomerForGetAQuote
  rw [hnew, hcheck]
  cases hcompany : (findCompany env db p).filter fun c => c.companyApiAccess == some "Approved" with
  | none =>
      refine ⟨db, .errors "You don't have access!" 401, ?_⟩
      simp [bind, Except.bind, hcompany, pure, Except.pure]
  | some company =>
      obtain ⟨db', a, h⟩ := acceptCustomer_answers env db company c hcustomer hproperty
      refine ⟨db', a, ?_⟩
      simp [bind, Except.bind, hcompany, h]

/-- A request that does not pass it gets its diagnosis. -/
theorem quote_diagnosed (db : ApiDb) {c : QuotedCustomer}
    (hnew : newCustomer env p.customer = .ok c)
    (hcheck : allHold (Requirement.holds p) validParams = .ok false) :
    Diagnosed env db (.quote p) := by
  obtain ⟨m, hunmet, hdiagnose⟩ := diagnose_of_check (addCustomerValidations.take 7)
    (addCustomerValidations.drop 7) hcheck db
  rw [List.take_append_drop] at hunmet hdiagnose
  have hanswer : addCustomerForGetAQuote env db p = .ok (db, [.errors m 401]) := by
    unfold addCustomerForGetAQuote
    rw [hnew, hcheck]
    exact hdiagnose
  refine ⟨⟨db, _, hanswer⟩, fun _ => ⟨m, hunmet, hanswer⟩, fun htrue => ?_⟩
  rw [ApiRequest.check, hcheck] at htrue
  cases htrue

theorem diagnosed_quote_iff (db : ApiDb) :
    Diagnosed env db (.quote p) ↔ (ApiRequest.quote p).Diagnosable env := by
  constructor
  · intro h
    obtain ⟨db', a, hperform⟩ := h.answered
    obtain ⟨c, hnew, hrest⟩ := bind_eq_ok.mp hperform
    obtain ⟨passed, hcheck, _⟩ := bind_eq_ok.mp hrest
    have hassign := (exists_newCustomer_iff env p.customer).mp ⟨c, hnew⟩
    refine ⟨hassign, fun hcustomer htoken hlead => ?_⟩
    have hfront := all_customerParams_iff.mpr ⟨hcustomer, htoken, hlead⟩
    have hsame := check_of_customerParams hassign hfront
    obtain ⟨f, hproperty⟩ := exists_fields_of_check (hsame.symm.trans hcheck)
    refine ⟨⟨f, hproperty⟩, fun haddress hcity hstate hzip => ?_⟩
    have hpassed : (ApiRequest.quote p).check = .ok true := by
      rw [ApiRequest.check, hsame, allHold_propertyParams hproperty,
        all_propertyParams_iff.mpr ⟨haddress, hcity, hstate, hzip⟩]
    exact h.complete hpassed (.field .customer "datetimestamp", "Datetimestamp is not present!")
      (by simp [ApiRequest.validations, addCustomerValidations])
  · rintro ⟨hassign, hcond⟩
    obtain ⟨c, hnew⟩ := (exists_newCustomer_iff env p.customer).mpr hassign
    cases hfront : customerParams.all (Requirement.met p) with
    | false =>
        -- the check fails before it comes to the property
        have hcheck : allHold (Requirement.holds p) validParams = .ok false := by
          rw [validParams_eq]
          exact allHold_append_false (by rw [allHold_customerParams hassign, hfront]) propertyParams
        exact quote_diagnosed db hnew hcheck
    | true =>
        obtain ⟨hcustomer, htoken, hlead⟩ := all_customerParams_iff.mp hfront
        obtain ⟨⟨f, hproperty⟩, htime⟩ := hcond hcustomer htoken hlead
        have hcheck : allHold (Requirement.holds p) validParams =
            .ok (propertyParams.all (Requirement.met p)) := by
          rw [check_of_customerParams hassign hfront, allHold_propertyParams hproperty]
        cases hrest : propertyParams.all (Requirement.met p) with
        | false =>
            rw [hrest] at hcheck
            exact quote_diagnosed db hnew hcheck
        | true =>
            rw [hrest] at hcheck
            refine ⟨quote_answers hnew hcheck, fun hfalse => ?_, fun _ q hq => ?_⟩
            · rw [ApiRequest.check, hcheck] at hfalse
              cases hfalse
            · obtain ⟨haddress, hcity, hstate, hzip⟩ := all_propertyParams_iff.mp hrest
              have hlast := htime haddress hcity hstate hzip
              simp only [ApiRequest.validations, addCustomerValidations, List.mem_cons,
                List.not_mem_nil, or_false] at hq
              rcases hq with rfl | rfl | rfl | rfl | rfl | rfl | rfl | rfl
              · exact hcustomer
              · exact htoken
              · exact hlead
              · exact haddress
              · exact hcity
              · exact hstate
              · exact hzip
              · exact hlast

/-! ## Leads -/

/-- A lead that is not a text can be asked. -/
theorem allHold_validLeadParams (h : ∀ s, p.lead = .text s → blank s = true) :
    allHold (Requirement.holds p) validLeadParams =
      .ok (validLeadParams.all (Requirement.met p)) := by
  cases hlead : p.lead with
  | missing =>
      simp [validLeadParams, allHold, Requirement.holds, Requirement.met, ApiParams.part, hlead,
        Part.present]
  | text s =>
      simp [validLeadParams, allHold, Requirement.holds, Requirement.met, ApiParams.part, hlead,
        Part.present, h s hlead]
  | fields f =>
      refine allHold_of_ok fun r hr => ?_
      simp only [validLeadParams, List.mem_cons, List.not_mem_nil, or_false] at hr
      rcases hr with rfl | rfl | rfl | rfl | rfl | rfl | rfl | rfl | rfl
      · rfl
      all_goals exact holds_field_of_fields (s := .lead) hlead _

theorem lead_answers (env : ApiEnv) (db : ApiDb)
    (hcheck : allHold (Requirement.holds p) validLeadParams = .ok true) :
    ∃ db' a, generateLead env db p = .ok (db', [a]) := by
  have hname := allHold_true_iff.mp hcheck (.field .lead "first_name") (by simp [validLeadParams])
  obtain ⟨f, hlead⟩ : ∃ f, p.lead = .fields f := exists_fields_of_holds hname
  obtain ⟨db', a, h⟩ := saveLead_answers env db (sanitize leadAccessible f)
  unfold generateLead
  rw [hcheck, hlead]
  exact ⟨db', a, congrArg Except.ok h⟩

theorem diagnosed_lead_iff (env : ApiEnv) (db : ApiDb) :
    Diagnosed env db (.lead p) ↔ (ApiRequest.lead p).Diagnosable env := by
  constructor
  · intro h s hlead
    obtain ⟨db', a, hperform⟩ := h.answered
    obtain ⟨passed, hcheck, _⟩ := bind_eq_ok.mp hperform
    by_contra hnot
    have hblank : blank s = false := Bool.eq_false_iff.mpr hnot
    simp [validLeadParams, allHold, Requirement.holds, ApiParams.part, hlead, Part.present,
      Part.index, hblank, Except.map] at hcheck
  · intro h
    have hcheck := allHold_validLeadParams h
    cases hall : validLeadParams.all (Requirement.met p) with
    | false =>
        rw [hall] at hcheck
        obtain ⟨m, hunmet, hdiagnose⟩ := diagnose_of_check addLeadValidations [] hcheck db
        rw [List.append_nil] at hunmet hdiagnose
        have hanswer : generateLead env db p = .ok (db, [.errors m 401]) := by
          unfold generateLead
          rw [hcheck]
          exact hdiagnose
        refine ⟨⟨db, _, hanswer⟩, fun _ => ⟨m, hunmet, hanswer⟩, fun htrue => ?_⟩
        rw [ApiRequest.check, hcheck] at htrue
        cases htrue
    | true =>
        rw [hall] at hcheck
        refine ⟨lead_answers env db hcheck, fun hfalse => ?_, fun _ q hq => ?_⟩
        · rw [ApiRequest.check, hcheck] at hfalse
          cases hfalse
        · exact List.all_eq_true.mp hall q.1 (List.mem_map_of_mem (f := Prod.fst) hq)

end

/-- Whatever is missing, blank or present in a request: it is diagnosed
as it should be exactly when the customer can be built, a lead is not a
text, and a customer with a token and a lead id comes with a property
that does not lack the timestamp alone. -/
theorem api_diagnosis_iff (env : ApiEnv) (db : ApiDb) (r : ApiRequest) :
    Diagnosed env db r ↔ r.Diagnosable env := by
  cases r with
  | quote p => exact diagnosed_quote_iff db
  | lead p => exact diagnosed_lead_iff env db

/-- Nothing outside does anything. -/
def quietEnv : ApiEnv where
  fold := Char.toLower
  dateFormat := some
  encrypt := some
  leadErrors := fun _ => []

def emptyApi : ApiDb := ⟨Table.empty, Table.empty, Table.empty, Table.empty⟩

def leadOnly : Fields := ⟨[("leadid", "lead1")], by decide +kernel⟩

def fullAddress : Fields :=
  ⟨[("address", "1 Main St"), ("city", "Newark"), ("state", "NJ"), ("zip_code", "07101")],
    by decide +kernel⟩

/-- A customer with a lead id and a token. Without a property the check
raises; with one it passes, and the timestamp is missing. -/
theorem api_diagnosis_fails :
    let bare : ApiRequest := .quote ⟨.fields leadOnly, .missing, .missing, some "token"⟩
    let timeless : ApiRequest :=
      .quote ⟨.fields leadOnly, .fields fullAddress, .missing, some "token"⟩
    bare.perform quietEnv emptyApi = .error .noMethodError ∧ ¬ Diagnosed quietEnv emptyApi bare ∧
      timeless.check = .ok true ∧
      (Requirement.field .customer "datetimestamp").met timeless.params = false ∧
      ¬ Diagnosed quietEnv emptyApi timeless := by
  intro bare timeless
  have hraise : bare.perform quietEnv emptyApi = .error .noMethodError := rfl
  have hcheck : timeless.check = .ok true := rfl
  have hmissing : (Requirement.field .customer "datetimestamp").met timeless.params = false := rfl
  refine ⟨hraise, fun h => ?_, hcheck, hmissing, fun h => ?_⟩
  · obtain ⟨db', a, hanswer⟩ := h.answered
    rw [hraise] at hanswer
    cases hanswer
  · have hmet := h.complete hcheck
      (.field .customer "datetimestamp", "Datetimestamp is not present!")
      (by simp [timeless, ApiRequest.validations, addCustomerValidations])
    rw [hmissing] at hmet
    cases hmet

end HomeWarranty.Leads
