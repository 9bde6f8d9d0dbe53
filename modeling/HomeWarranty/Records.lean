/-
HomeWarranty.Records — the rows of the database tables the modelled
actions read and write (`db/schema.rb`), the associations that are read
through a row, and the model methods that only read one.

`Option` is NULL. Text that no modelled action compares is kept as it
is. An association that belongs to one row and is never read from
anywhere else is part of that row: a customer carries its properties and
its billing address.

The columns of `customers` that no modelled action touches (timestamps,
the contract overrides, the icontact id) are left out.
-/
import HomeWarranty.Lib.Table
import HomeWarranty.Ruby.Number

namespace HomeWarranty

open Lib Ruby

/-! ## Customers -/

/-- `customers.pay_amount` is a varchar that the code fills from posted
text and from floats. A float is kept as the number it is: the text
MySQL stores for it reads back as the same float. -/
inductive PayAmount where
  | text (s : String)
  | float (q : ℚ)
  deriving DecidableEq

/-- `pay_amount.to_f`; `nil.to_f` is 0. -/
def PayAmount.toF [Numbers] : Option PayAmount → ℚ
  | none => 0
  | some (.text s) => Numbers.toF s
  | some (.float q) => q

/-- What the column keeps of it; the text of a float is short. -/
def PayAmount.kept : PayAmount → PayAmount
  | .text s => .text (textColumn s)
  | .float q => .float q

structure Address where
  address : Option String
  city : Option String
  state : Option String
  zipCode : Option String
  deriving DecidableEq

structure Customer where
  id : Nat
  email : Option String
  firstName : Option String
  lastName : Option String
  customerPhone : Option String
  customerAddress : Option String
  customerCity : Option String
  customerState : Option String
  customerZip : Option String
  coverageAddon : Option String
  homeType : Option String
  homeSizeCode : Option Int
  payAmount : Option PayAmount
  numPayments : Option Int
  coverageEndsAt : Option Date
  subscriptionId : Option String
  creditCardNumberHash : Option String
  expirationDate : Option String
  statusId : Option Int
  ip : Option String
  billingFirstName : Option String
  billingLastName : Option String
  agentId : Option Nat
  partnerId : Option Nat
  leadid : Option String
  referredFrom : Option String
  ccBy : Option String
  customerFrom : Option String
  updateBy : Option String
  subid : Option String
  merchantName : Option String
  gatewayId : Option Nat
  properties : List Address
  billingAddress : Option Address
  deriving DecidableEq

/-- A new row: the schema's column defaults. -/
def Customer.new : Customer where
  id := 0
  email := none
  firstName := none
  lastName := none
  customerPhone := none
  customerAddress := none
  customerCity := none
  customerState := none
  customerZip := none
  coverageAddon := none
  homeType := none
  homeSizeCode := none
  payAmount := none
  numPayments := some 0
  coverageEndsAt := none
  subscriptionId := none
  creditCardNumberHash := none
  expirationDate := none
  statusId := some 0
  ip := none
  billingFirstName := none
  billingLastName := none
  agentId := none
  partnerId := none
  leadid := none
  referredFrom := none
  ccBy := some ""
  customerFrom := some ""
  updateBy := none
  subid := none
  merchantName := none
  gatewayId := none
  properties := []
  billingAddress := none

instance : Record Customer where
  key := Customer.id
  withKey n c := { c with id := n }
  key_withKey := fun _ _ => rfl

/-- `Customer#state`: the state of the first property. -/
def Customer.state (c : Customer) : Option String :=
  match c.properties with
  | [] => some ""
  | p :: _ => p.state

/-- `Customer#name`. -/
def Customer.name (c : Customer) : String :=
  c.firstName.getD "" ++ " " ++ c.lastName.getD ""

/-- The validations of `Customer`: four fields must be present, and a
lead id that is not blank must not be taken by another customer. -/
def Customer.valid (t : Table Customer) (c : Customer) : Bool :=
  presentOpt c.firstName && presentOpt c.lastName
    && presentOpt c.customerPhone && presentOpt c.email
    && (blankOpt c.leadid
        || !t.rows.any (fun r => r.leadid == c.leadid && r.id != c.id))

/-! ## Transactions, subscriptions, renewals, accounts -/

structure Transaction where
  id : Nat
  responseCode : Option Int
  responseReasonText : Option String
  authCode : Option String
  amount : Option ℚ
  transactionId : Option Int
  customerId : Option Nat
  subscriptionId : Option Int
  subscriptionPaynum : Option Int
  originalAgentId : Option Nat
  paymentType : Option String
  subId : Option Nat
  subscriptionid : Option String
  transactionid : Option String
  refund : Option ℚ
  merchantNickname : Option String
  gatewayId : Option Nat
  deriving DecidableEq

/-- A new row: the schema's column defaults. -/
def Transaction.new : Transaction where
  id := 0
  responseCode := none
  responseReasonText := none
  authCode := none
  amount := none
  transactionId := none
  customerId := none
  subscriptionId := none
  subscriptionPaynum := none
  originalAgentId := none
  paymentType := some "Auth.net"
  subId := none
  subscriptionid := none
  transactionid := none
  refund := some 0
  merchantNickname := none
  gatewayId := none

instance : Record Transaction where
  key := Transaction.id
  withKey n t := { t with id := n }
  key_withKey := fun _ _ => rfl

/-- `Transaction#approved?`, which is also the scope `approved`. -/
def Transaction.approved (t : Transaction) : Bool := t.responseCode == some 1

structure Subscription where
  id : Nat
  creditCardId : Nat
  customerId : Nat
  startDate : Option Date
  endDate : Option Date
  amount : ℚ
  interval : Option String
  period : Option String
  status : Option String
  noEndDate : Bool
  isCancelSubscription : Bool
  deriving DecidableEq

instance : Record Subscription where
  key := Subscription.id
  withKey n s := { s with id := n }
  key_withKey := fun _ _ => rfl

structure Renewal where
  id : Nat
  customerId : Nat
  years : Int
  amount : ℚ
  startsAt : Date
  endsAt : Date
  deriving DecidableEq

instance : Record Renewal where
  key := Renewal.id
  withKey n r := { r with id := n }
  key_withKey := fun _ _ => rfl

structure Account where
  id : Nat
  parentId : Option Nat
  parentType : Option String
  email : Option String
  passwordHash : Option String
  role : Option String
  lastLoginIp : Option String
  deriving DecidableEq

instance : Record Account where
  key := Account.id
  withKey n a := { a with id := n }
  key_withKey := fun _ _ => rfl

/-- The validations of `Account`: an e-mail that no other account has. -/
def Account.valid (t : Table Account) (a : Account) : Bool :=
  presentOpt a.email && !t.rows.any (fun r => r.email == a.email && r.id != a.id)

/-- `customer?`. -/
def Account.customer (a : Account) : Bool := a.parentType == some "Customer"

/-- `empty?`. -/
def Account.isEmpty (a : Account) : Bool := a.email == some "empty"

/-- `has_one :account, :as => :parent`. -/
def accountFor (fold : Char → Char) (t : Table Account) (parentType : String) (id : Nat) :
    Option Account :=
  t.firstWhere fun a => sqlEq fold a.parentType (some parentType) && a.parentId == some id

/-! ## Merchants -/

structure Gateway where
  id : Nat
  loginId : Option String
  password : Option String
  transactionKey : Option String
  merchantName : Option String
  isDefault : Bool
  deriving DecidableEq

instance : Record Gateway where
  key := Gateway.id
  withKey n g := { g with id := n }
  key_withKey := fun _ _ => rfl

/-- `Gateway.default_gateway`: the last one flagged default. -/
def defaultGateway (t : Table Gateway) : Option Gateway :=
  (t.rows.filter Gateway.isDefault).getLast?

structure MerchantAccount where
  id : Nat
  merchantName : Option String
  isDefault : Bool
  deriving DecidableEq

instance : Record MerchantAccount where
  key := MerchantAccount.id
  withKey n m := { m with id := n }
  key_withKey := fun _ _ => rfl

/-- A row of `states`: where the site sells, and through whom. -/
structure State where
  id : Nat
  name : Option String
  gaq : Bool
  affiliate : Bool
  api : Bool
  merchantAccountId : Option Nat
  gatewayId : Option Nat
  deriving DecidableEq

instance : Record State where
  key := State.id
  withKey n s := { s with id := n }
  key_withKey := fun _ _ => rfl

/-! ## Partners -/

structure Partner where
  id : Nat
  provider : Option String
  uid : Option String
  companyName : Option String
  authToken : Option String
  discountCode : Option String
  deleted : Bool
  deriving DecidableEq

instance : Record Partner where
  key := Partner.id
  withKey n p := { p with id := n }
  key_withKey := fun _ _ => rfl

/-! ## Finders -/

/-- `find_by_id`: the text is cast to an integer. -/
def findByIdText {ρ : Type} [Record ρ] (t : Table ρ) (id : String) : Option ρ :=
  t.firstWhere fun r => decide ((Record.key r : Int) = toI id)

/-- `find`, which raises when there is no row. -/
def findRecord {ρ : Type} [Record ρ] (t : Table ρ) (id : Option String) : Except RubyError ρ :=
  match id.bind (findByIdText t) with
  | some r => .ok r
  | none => .error .recordNotFound

/-- A text that reads as a key finds the row with that key. -/
theorem findByIdText_eq {ρ : Type} [Record ρ] (t : Table ρ) {id : String} {k : Nat}
    (h : toI id = k) : findByIdText t id = t.find? k := by
  unfold findByIdText Table.firstWhere Table.find?
  congr 1
  funext r
  rw [h]
  by_cases hk : Record.key r = k
  · simp [hk]
  · simp [hk]

theorem findRecord_toString {ρ : Type} [Record ρ] {t : Table ρ} {k : Nat} {r : ρ}
    (h : t.find? k = some r) : findRecord t (some (toString k)) = .ok r := by
  rw [findRecord, Option.bind_some, findByIdText_eq t (toI_toString k), h]

theorem find?_of_findRecord {ρ : Type} [Record ρ] {t : Table ρ} {id : Option String} {r : ρ}
    (h : findRecord t id = .ok r) : t.find? (Record.key r) = some r := by
  cases id with
  | none => cases h
  | some id =>
      rw [findRecord, Option.bind_some] at h
      cases hfind : findByIdText t id with
      | none =>
          rw [hfind] at h
          cases h
      | some s =>
          rw [hfind] at h
          cases h
          exact t.find?_key (List.mem_of_find?_eq_some hfind)

/-! ## The database -/

/-- The tables, and the collation its text columns compare under. -/
structure Db where
  fold : Char → Char
  customers : Table Customer
  transactions : Table Transaction
  subscriptions : Table Subscription
  renewals : Table Renewal
  accounts : Table Account
  gateways : Table Gateway
  merchantAccounts : Table MerchantAccount
  states : Table State
  partners : Table Partner

/-- No rows, and MySQL's default collation: letter case is ignored. -/
def Db.empty : Db where
  fold := Char.toLower
  customers := Table.empty
  transactions := Table.empty
  subscriptions := Table.empty
  renewals := Table.empty
  accounts := Table.empty
  gateways := Table.empty
  merchantAccounts := Table.empty
  states := Table.empty
  partners := Table.empty

/-- `State.find_by_name`. -/
def Db.findStateByName (db : Db) (name : Option String) : Option State :=
  db.states.firstWhere (fun s => sqlEq db.fold s.name name)

end HomeWarranty
