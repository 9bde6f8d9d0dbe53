/-
HomeWarranty.Reports.Export — the tables that the reports hand out as
files: `Customer.to_csv` to `Customer.to_csv5`.

A file is a header and one record for every customer, written with a
comma (`.csv`) or a tab (`.xls`). It is written in one go, so one
customer whose fields cannot be computed takes the whole file with him.
Names, streets and notes hold what people typed, separators, quotes and
line ends included; `read_export` says that a file reads back as the
records it was written from.

Amounts are floats. Their sum and the text of a float are parameters, so
nothing here depends on how floats round.
-/
import HomeWarranty.Lib.Csv
import HomeWarranty.Lib.Raise
import HomeWarranty.Admin.Status
import HomeWarranty.Billing.ContractNumber

namespace HomeWarranty.Reports

open Lib Ruby Admin Billing

/-! ## What the reports read -/

/-- A time in UTC, to the second. -/
structure DateTime where
  date : Date
  hour : Nat
  min : Nat
  sec : Nat
  deriving DecidableEq

def digits2 (n : Nat) : String := rjust (toString n) 2 '0'

/-- `strftime("%m-%d-%y")`. -/
def DateTime.mdyDashed (t : DateTime) : String :=
  digits2 t.date.month ++ "-" ++ digits2 t.date.day ++ "-" ++ digits2 (t.date.year % 100).toNat

/-- `strftime("%m/%d/%y %H:%M")`. -/
def DateTime.mdyMinutes (t : DateTime) : String :=
  digits2 t.date.month ++ "/" ++ digits2 t.date.day ++ "/" ++ digits2 (t.date.year % 100).toNat
    ++ " " ++ digits2 t.hour ++ ":" ++ digits2 t.min

/-- `to_s`. -/
def DateTime.text (t : DateTime) : String :=
  rjust (toString t.date.year) 4 '0' ++ "-" ++ digits2 t.date.month ++ "-" ++ digits2 t.date.day
    ++ " " ++ digits2 t.hour ++ ":" ++ digits2 t.min ++ ":" ++ digits2 t.sec ++ " UTC"

structure ReportAddress where
  address : Option String
  address2 : Option String
  address3 : Option String
  city : Option String
  state : Option String
  zipCode : Option String
  country : Option String
  addressType : Option String
  deriving DecidableEq

structure ReportTransaction (F : Type) where
  responseCode : Option Int
  amount : Option F
  createdAt : DateTime

/-- A customer with its addresses and, newest first, its transactions. -/
structure ReportCustomer (F : Type) where
  id : Nat
  leadid : Option String
  subid : Option String
  firstName : Option String
  lastName : Option String
  email : Option String
  customerPhone : Option String
  workPhone : Option String
  mobilePhone : Option String
  customerAddress : Option String
  customerCity : Option String
  customerState : Option String
  customerZip : Option String
  homeType : Option String
  statusId : Option Int
  ip : Option String
  updateBy : Option String
  datetimestamp : Option DateTime
  createdAt : DateTime
  updatedAt : DateTime
  addresses : List ReportAddress
  transactions : List (ReportTransaction F)

/-- What the reports rest on: the collation and the statuses of the
database, and what the language does with floats. -/
structure Environment (F : Type) where
  fold : Char → Char
  statuses : Table StatusRow
  add : F → F → F
  round2 : F → F
  text : F → String
  /-- What a float column keeps. -/
  stored : F → F

/-! ## Fields -/

/-- `"#{s}"`. -/
def shown (s : Option String) : String := s.getD ""

/-- `gsub(",", " ")`. -/
def commaFree (s : String) : String := s.map fun c => if c = ',' then ' ' else c

/-- A method of a value that may be `nil`. -/
def orRaise {α : Type} : Option α → Except RubyError α
  | some a => .ok a
  | none => .error .noMethodError

/-- `sum(&:amount)`. Without rows it is the integer 0, and so it is for
one row without an amount. -/
def sumAmounts {F : Type} (add : F → F → F) : List (Option F) → Except RubyError (Option F)
  | [] => .ok none
  | first :: rest =>
      rest.foldlM (fun sum amount =>
        match sum, amount with
        | none, _ => .error .noMethodError
        | some _, none => .error .typeError
        | some a, some b => .ok (some (add a b))) first

/-- Adding up goes through when there is nothing to add, or nothing
missing. -/
theorem sumAmounts_goes_through_iff {F : Type} (add : F → F → F) (amounts : List (Option F)) :
    (∃ sum, sumAmounts add amounts = .ok sum) ↔ amounts.length ≤ 1 ∨ none ∉ amounts := by
  cases amounts with
  | nil => simp [sumAmounts]
  | cons first rest =>
      cases rest with
      | nil => simp [sumAmounts, pure, Except.pure]
      | cons second rest =>
          have hlong : ¬ (first :: second :: rest).length ≤ 1 := by simp
          rw [or_iff_right hlong]
          cases first with
          | none => simp [sumAmounts, bind, Except.bind]
          | some a =>
              simp only [sumAmounts, List.mem_cons, reduceCtorEq, false_or]
              rw [← List.mem_cons]
              generalize second :: rest = others
              -- the sum so far is a number as long as none was missing
              induction others generalizing a with
              | nil => simp [pure, Except.pure]
              | cons x others ih =>
                  cases x with
                  | none => simp [bind, Except.bind]
                  | some b => simpa [bind, Except.bind] using ih (add a b)

section
variable {F : Type} (env : Environment F)

namespace ReportCustomer

def custFullname (c : ReportCustomer F) : String :=
  commaFree (shown c.firstName ++ " " ++ shown c.lastName)

def custCity (c : ReportCustomer F) : String :=
  if presentOpt c.customerCity then commaFree (shown c.customerCity) else ""

/-- `cust_addres`. -/
def custAddres (c : ReportCustomer F) : String :=
  if presentOpt c.customerAddress then commaFree (shown c.customerAddress) else ""

def cStatus (c : ReportCustomer F) : String := statusLabel .customer env.statuses c.statusId

/-- `addresses.last` within `addresses.present?`, as text. -/
def lastAddress (c : ReportCustomer F) (text : ReportAddress → String) : String :=
  (c.addresses.getLast?.map text).getD ""

def csvPropertyAddress (c : ReportCustomer F) : String :=
  c.lastAddress fun a => shown a.address ++ " " ++ shown a.address2 ++ " " ++ shown a.address3

def csvZipcode (c : ReportCustomer F) : String := c.lastAddress fun a => shown a.zipCode

def csvCountry (c : ReportCustomer F) : String := c.lastAddress fun a => shown a.country

def custAddressLastCity (c : ReportCustomer F) : Except RubyError String :=
  match c.addresses.getLast? with
  | none => .ok ""
  | some a => (orRaise a.city).map commaFree

/-- `addresses.last.state`. -/
def lastState (c : ReportCustomer F) : Except RubyError (Option String) :=
  (orRaise c.addresses.getLast?).map ReportAddress.state

def properties (c : ReportCustomer F) : List ReportAddress :=
  c.addresses.filter fun a => sqlEq env.fold a.addressType (some "Property")

def lastPropertyState (c : ReportCustomer F) : String :=
  let last := (c.properties env).getLast?.bind ReportAddress.state
  let first := (c.properties env).head?.bind ReportAddress.state
  if presentOpt last then upcase (shown last)
  else if presentOpt first then upcase (shown first)
  else ""

def custState (c : ReportCustomer F) : String :=
  if presentOpt c.customerState then upcase (shown c.customerState) else c.lastPropertyState env

/-- `zip_code`. -/
def zipCode (c : ReportCustomer F) : Option String :=
  match c.properties env with
  | [] => some ""
  | a :: _ => a.zipCode

def lastUpdatedInfo (c : ReportCustomer F) : String :=
  -- the format ends with a blank where somebody else has made the change
  if presentOpt c.updateBy then c.updatedAt.mdyMinutes ++ "  (" ++ shown c.updateBy ++ ")"
  else c.updatedAt.mdyMinutes ++ " (" ++ shown c.firstName ++ ")"

def totalTransactionAmount (c : ReportCustomer F) : Except RubyError String :=
  if c.transactions = [] then .ok "$ 0.0"
  else (sumAmounts env.add (c.transactions.map ReportTransaction.amount)).map fun sum =>
    "$ " ++ (sum.map fun a => env.text (env.round2 a)).getD "0.0"

/-- `transactions.where("transactions.response_code = 1")`. -/
def approved (c : ReportCustomer F) : List (ReportTransaction F) :=
  c.transactions.filter fun t => t.responseCode == some 1

def transactionTotalAmountWithSuccess (c : ReportCustomer F) : Except RubyError String :=
  (sumAmounts env.add (c.approved.map ReportTransaction.amount)).map fun sum =>
    (sum.map env.text).getD "0"

/-- The minutes come first: the format is `%M:%H:%S`. -/
def transactionFirstApproveDate (c : ReportCustomer F) : String :=
  match c.approved with
  | [] => " "
  | t :: _ => t.createdAt.mdyDashed ++ " " ++ digits2 t.createdAt.min ++ ":"
      ++ digits2 t.createdAt.hour ++ ":" ++ digits2 t.createdAt.sec

end ReportCustomer

/-! ## The files -/

/-- `CSV.generate` with a header and a record for every row. -/
def generate {ρ : Type} (header : List String) (record : ρ → Except RubyError Csv.Row)
    (sep : Csv.Separator) (rows : List ρ) : Except RubyError String := do
  let records ← rows.mapM record
  return Csv.write sep (header.map some :: records)

open ReportCustomer

def csvHeader : List String :=
  ["SHW#", "LeadId", "SubId", "Fullname", "Address", "City", "State", "Zip", "Phone", "Email",
    "Status", "Created-At"]

def csvRecord (c : ReportCustomer F) : Except RubyError Csv.Row :=
  .ok [some (toString c.id), c.leadid, c.subid, some c.custFullname, some c.custAddres,
    some c.custCity, c.customerState, c.customerZip, c.customerPhone, c.email,
    some (c.cStatus env), some c.createdAt.date.strftimeMdy]

/-- `Customer.to_csv`. -/
def toCsv : Csv.Separator → List (ReportCustomer F) → Except RubyError String :=
  generate csvHeader (csvRecord env)

def csv2Header : List String :=
  ["LeadId", "SubId", "First Name", "Last Name", "Phone", "Email", "Address", "City", "State",
    "Zip", "IP", "TimeStamp"]

def csv2Record (c : ReportCustomer F) : Except RubyError Csv.Row :=
  .ok [c.leadid, c.subid, some (shown c.firstName), some (shown c.lastName), c.customerPhone,
    c.email, c.customerAddress, c.customerCity, c.customerState, c.customerZip, c.ip,
    c.datetimestamp.map DateTime.text]

/-- `Customer.to_csv2`. -/
def toCsv2 : Csv.Separator → List (ReportCustomer F) → Except RubyError String :=
  generate csv2Header csv2Record

def csv3Header (full : Bool) : List String :=
  if full then
    ["Id", "Email", "First Name", "Last Name", "Phone Number", "Status ID", "Created At",
      "Updated At", "ADDRESS", "CITY", "STATE", "ZIPCODE", "COUNTRY", "# of Transactions",
      "Total Transactions", "Transaction Date"]
  else
    ["Id", "Email", "First Name", "Last Name", "Phone Number", "Status ID", "Created At",
      "Updated At", "City", "State", "# of Transactions", "Total Transactions",
      "Transaction Date"]

/-- The columns about the property. The zip code is in upper case only
for a customer with transactions. -/
def csv3Property (full : Bool) (c : ReportCustomer F) : Except RubyError Csv.Row := do
  let city ← c.custAddressLastCity
  let state ← c.lastState
  if full then
    let state ← orRaise state
    let zip := if c.transactions = [] then c.csvZipcode else upcase c.csvZipcode
    return [some (upcase c.csvPropertyAddress), some (upcase city), some (upcase state),
      some zip, some (upcase c.csvCountry)]
  else
    return [some city, state]

def csv3Payments (c : ReportCustomer F) : Except RubyError Csv.Row :=
  if c.transactions = [] then .ok [some "", some ""]
  else c.transactionTotalAmountWithSuccess env |>.map fun total =>
    [some total, some c.transactionFirstApproveDate]

def csv3Record (full : Bool) (c : ReportCustomer F) : Except RubyError Csv.Row := do
  let property ← csv3Property full c
  let payments ← csv3Payments env c
  return [some (toString c.id), c.email, some (shown c.firstName), some (shown c.lastName),
    c.customerPhone, some (c.cStatus env), some c.createdAt.mdyDashed, some c.updatedAt.mdyDashed]
      ++ property ++ [some (toString c.transactions.length)] ++ payments

/-- `Customer.to_csv3`. -/
def toCsv3 (full : Bool) : Csv.Separator → List (ReportCustomer F) → Except RubyError String :=
  generate (csv3Header full) (csv3Record env full)

def csv4Header : List String :=
  ["CustomerId", "Fullname", "Customer State", "NumOfPayments", "Total", "CreatedDate"]

def csv4Record (c : ReportCustomer F) : Except RubyError Csv.Row :=
  (c.totalTransactionAmount env).map fun total =>
    [some (toString c.id), some c.custFullname, some (c.custState env),
      some (toString c.transactions.length), some total, some c.createdAt.date.strftimeMdy]

/-- `Customer.to_csv4`. -/
def toCsv4 : Csv.Separator → List (ReportCustomer F) → Except RubyError String :=
  generate csv4Header (csv4Record env)

def csv5Header : List String :=
  ["Contract #", "Fullname", "Email", "Address", "City", "State", "Zip", "Customer Phone",
    "Home Type", "Status", "IP Address", "Work Phone", "Mobile Phone", "Updated By", "Created At"]

def csv5Record (c : ReportCustomer F) : Except RubyError Csv.Row :=
  .ok [some (contractNumber c.id), some c.custFullname, c.email, c.customerAddress,
    c.customerCity, some (c.custState env), c.zipCode env, c.customerPhone, c.homeType,
    some (c.cStatus env), c.ip, c.workPhone, c.mobilePhone, some c.lastUpdatedInfo,
    some c.createdAt.date.strftimeMdy]

/-- `Customer.to_csv5`. -/
def toCsv5 : Csv.Separator → List (ReportCustomer F) → Except RubyError String :=
  generate csv5Header (csv5Record env)

/-! ## Reading a file back -/

/-- The files that list customers. -/
inductive Export where
  | affiliateLeads
  | partnerLeads
  | customers (full : Bool)
  | payments
  | search

def Export.header : Export → List String
  | .affiliateLeads => csvHeader
  | .partnerLeads => csv2Header
  | .customers full => csv3Header full
  | .payments => csv4Header
  | .search => csv5Header

def Export.record : Export → ReportCustomer F → Except RubyError Csv.Row
  | .affiliateLeads => csvRecord env
  | .partnerLeads => csv2Record
  | .customers full => csv3Record env full
  | .payments => csv4Record env
  | .search => csv5Record env

def Export.text : Export → Csv.Separator → List (ReportCustomer F) → Except RubyError String
  | .affiliateLeads => toCsv env
  | .partnerLeads => toCsv2
  | .customers full => toCsv3 env full
  | .payments => toCsv4 env
  | .search => toCsv5 env

theorem text_eq_generate (e : Export) (sep : Csv.Separator) (cs : List (ReportCustomer F)) :
    e.text env sep cs = generate e.header (e.record env) sep cs := by
  cases e with
  | affiliateLeads => rfl
  | partnerLeads => rfl
  | customers full => rfl
  | payments => rfl
  | search => rfl

theorem csv3Property_length {full : Bool} {c : ReportCustomer F} {row : Csv.Row}
    (h : csv3Property full c = .ok row) : row.length = if full then 5 else 2 := by
  obtain ⟨city, -, h⟩ := bind_eq_ok.mp h
  obtain ⟨state, -, h⟩ := bind_eq_ok.mp h
  cases full with
  | false =>
      cases h
      rfl
  | true =>
      obtain ⟨upper, -, h⟩ := bind_eq_ok.mp h
      cases h
      rfl

theorem csv3Payments_length {c : ReportCustomer F} {row : Csv.Row}
    (h : csv3Payments env c = .ok row) : row.length = 2 := by
  unfold csv3Payments at h
  split_ifs at h with hnone
  · cases h
    rfl
  · obtain ⟨total, -, rfl⟩ := map_eq_ok.mp h
    rfl

/-- A record has a field for every column. -/
theorem record_length {e : Export} {c : ReportCustomer F} {row : Csv.Row}
    (h : e.record env c = .ok row) : row.length = e.header.length := by
  cases e with
  | affiliateLeads =>
      cases h
      rfl
  | partnerLeads =>
      cases h
      rfl
  | customers full =>
      obtain ⟨property, hproperty, h⟩ := bind_eq_ok.mp h
      obtain ⟨payments, hpayments, h⟩ := bind_eq_ok.mp h
      cases h
      have hwidth := csv3Property_length hproperty
      have htwo := csv3Payments_length env hpayments
      cases full <;> simp [hwidth, htwo, Export.header, csv3Header]
  | payments =>
      obtain ⟨total, -, rfl⟩ := map_eq_ok.mp h
      rfl
  | search =>
      cases h
      rfl

theorem header_width (e : Export) : 1 < e.header.length := by
  cases e with
  | customers full => cases full <;> decide
  | _ => decide

/-- A generated file reads back as its header and its records. -/
theorem read_generate {ρ : Type} {header : List String} {record : ρ → Except RubyError Csv.Row}
    (hheader : 1 < header.length)
    (hwidth : ∀ r row, record r = .ok row → row.length = header.length)
    (sep : Csv.Separator) (rows : List ρ) :
    (generate header record sep rows).map (Csv.read sep)
      = (rows.mapM record).map fun records => some (header.map some :: records) := by
  unfold generate
  cases hrecords : rows.mapM record with
  | error e => rfl
  | ok records =>
      refine congrArg Except.ok (Csv.read_write fun row hrow => ?_)
      rcases List.mem_cons.mp hrow with rfl | hrow
      · exact Csv.ne_single_of_width (List.length_map some) hheader
      · obtain ⟨r, -, hr⟩ := exists_of_mem_mapM hrecords hrow
        exact Csv.ne_single_of_width (hwidth r row hr) hheader

/-- Whatever the customers' fields hold, a file reads back as its header
and one record for each of them, each with a field for every column. It
is not written exactly when a record raises. -/
theorem read_export (e : Export) (sep : Csv.Separator) (cs : List (ReportCustomer F)) :
    (e.text env sep cs).map (Csv.read sep)
        = (cs.mapM (e.record env)).map (fun records => some (e.header.map some :: records)) ∧
      ∀ records, cs.mapM (e.record env) = .ok records →
        records.length = cs.length ∧ ∀ row ∈ records, row.length = e.header.length := by
  refine ⟨?_, fun records h => ⟨?_, fun row hrow => ?_⟩⟩
  · rw [text_eq_generate]
    exact read_generate (header_width e) (fun c row => record_length env) sep cs
  · exact (mapM_eq_ok_iff.mp h).length_eq.symm
  · obtain ⟨c, -, hc⟩ := exists_of_mem_mapM h hrow
    exact record_length env hc

end

end HomeWarranty.Reports
