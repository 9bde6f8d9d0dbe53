/-
HomeWarranty.Nmi.GwApi — the NMI gateway client (`lib/gw_api.rb`) and
the two charges that store what the gateway answers
(`CreditCard#charge_cents2!` and `#charge_cents3!`).

A query is a text built with `String#+`, which accepts a string and
raises a TypeError for anything else; an argument is therefore a
`Value`, and a query is built in `Except`. What the gateway answers, and
whether the post comes back at all, is up to the environment: an answer
of `none` is an exception (a timeout, an answer that does not parse, or
a sale query with a missing field).

The queries of the two sales are in `SaleQuery`: nothing that is stored
depends on their text, and here every way they can fail is the answer
`none`.

The amount of a transaction is a FLOAT column, and the dates of a
subscription are DATETIME columns: a date that is assigned to one is
midnight of the server's clock, and is read in the configured zone, where
it can be the day before.
-/
import HomeWarranty.Billing.ContractNumber
import HomeWarranty.Ruby.Number

namespace HomeWarranty.Nmi

open Lib Ruby
open Billing (CreditCard)

/-! ## Queries -/

/-- An argument that is spliced into a query. -/
inductive Value where
  | text (s : String)
  | int (n : Int)
  deriving DecidableEq

/-- `String#+`. -/
def concat (s : String) : Value → Except RubyError String
  | .text t => .ok (s ++ t)
  | .int _ => .error .typeError

/-- `URI.escape`, which raises for `nil`. -/
def escaped : Option String → Except RubyError String
  | none => .error .noMethodError
  | some s => .ok (uriEscape s)

/-- What `setLogin` keeps. -/
structure Login where
  username : Option String
  password : Option String
  deriving DecidableEq

/-- The first two fields of every query. -/
def loginQuery (l : Login) : Except RubyError String := do
  let username ← escaped l.username
  let password ← escaped l.password
  return "username=" ++ username ++ "&" ++ "password=" ++ password ++ "&"

def cancelSubscription (l : Login) (subscriptionId : Value) : Except RubyError String := do
  let query ← loginQuery l
  concat (query ++ "recurring=" ++ "delete_subscription" ++ "&" ++ "subscription_id=")
    subscriptionId

def refundQuery (l : Login) (transactionId amount : Value) : Except RubyError String := do
  let query ← loginQuery l
  let query ← concat (query ++ "type=" ++ "refund" ++ "&" ++ "transactionid=") transactionId
  concat (query ++ "&" ++ "amount=") amount

def doVoid (l : Login) (transactionId : Value) : Except RubyError String := do
  let query ← loginQuery l
  let query ← concat (query ++ "type=" ++ "void" ++ "&" ++ "transactionid=") transactionId
  return query ++ "&"

/-- The fields of an answer that the application reads. -/
structure Response where
  response : Option String
  responsetext : Option String
  authcode : Option String
  transactionid : Option String
  subscriptionId : Option String
  deriving DecidableEq

/-- `nmi_res['response'] == '1'`, for a post that came back. -/
def approves : Option Response → Bool
  | none => false
  | some r => r.response == some "1"

/-! ## Merchants -/

/-- The last merchant account flagged default. -/
def defaultMerchantAccount (t : Table MerchantAccount) : Option MerchantAccount :=
  (t.rows.filter MerchantAccount.isDefault).getLast?

/-- `Subscription.nmi_login`. A state that names a merchant account
raises: `State` has no association of that name. -/
def nmiLogin (db : Db) (state : Option String) :
    Except RubyError (Option MerchantAccount) :=
  match db.findStateByName state with
  | none => .ok (defaultMerchantAccount db.merchantAccounts)
  | some s =>
      match s.merchantAccountId with
      | none => .ok (defaultMerchantAccount db.merchantAccounts)
      | some _ => .error .noMethodError

/-- `Gateway.first`, as the login of a client. -/
def firstLogin (db : Db) : Except RubyError Login :=
  match db.gateways.rows with
  | [] => .error .noMethodError
  | g :: _ => .ok { username := g.loginId, password := g.password }

/-! ## Charges -/

/-- A date parameter: absent or blank, present and unreadable, or a
date. -/
inductive DateParam where
  | blank
  | unreadable
  | date (d : Date)
  deriving DecidableEq

/-- `present? ? to_date : nil`. -/
def DateParam.toDate : DateParam → Except RubyError (Option Date)
  | .blank => .ok none
  | .unreadable => .error .argumentError
  | .date d => .ok (some d)

structure ChargeParams where
  startDate : DateParam
  endDate : DateParam
  occurances : Option String
  interval : Option String
  period : Option String
  noEndDate : Option String
  deriving DecidableEq

/-- What a charge meets outside the database. -/
structure ChargeEnv where
  /-- The server's date. -/
  today : Date
  /-- The date in the configured zone. -/
  zoneToday : Date
  /-- The date in the configured zone at midnight of the server's
  clock. -/
  inZone : Date → Date
  answer : Option Response

/-- The status a subscription is stored with. -/
def statusOf (r : Response) : Option String :=
  if r.response = some "1" then some "Approved"
  else if r.response = some "2" then some "Declined"
  else if r.response = some "3" then some "Error"
  else none

/-- `Subscription#update_occuranges`, the callback after creation. -/
def updateOccuranges (env : ChargeEnv) (s : Subscription) : Subscription :=
  let s := if s.startDate.isSome || s.endDate.isSome then s
    else
      { s with
        startDate := some (env.inZone env.today)
        endDate := some (env.inZone env.today)
        interval := if presentOpt s.interval then s.interval else some "1" }
  { s with period := if presentOpt s.period then s.period else some "Day" }

/-- The row both charges store of an answer, with the amount that its
column keeps. -/
def saleRow (c : Customer) (amount : ℚ) (r : Response) : Transaction :=
  { Transaction.new with
    responseCode := integerColumn r.response
    responseReasonText := if presentOpt r.responsetext then r.responsetext else some "Error"
    authCode := r.authcode
    amount := some amount
    transactionid := r.transactionid
    subscriptionid := r.subscriptionId
    customerId := some c.id
    subscriptionId := integerColumn r.subscriptionId
    originalAgentId := c.agentId
    paymentType := some "NMI" }

/-- What a charge has stored: the row and the subscription, when there
are any, and the answer they are from. -/
structure Sale where
  row : Nat
  sub : Option Nat
  response : Response
  deriving DecidableEq

/-- The customer and the client's login, past the guards both charges
begin with; `none` without a merchant account. -/
def beginCharge (db : Db) (card : CreditCard) : Except RubyError (Option Customer) := do
  let some c := db.customers.find? card.customerId | .error .noMethodError
  let some _ ← nmiLogin db c.state | return none
  let _ ← firstLogin db
  return some c

/-- The subscription `charge_cents2!` saves, after its callback, as its
columns give it back. The amount is a text column, which keeps a
Float. -/
def newSubscription (card : CreditCard) (c : Customer) (amount : ℚ) (params : ChargeParams)
    (startDate endDate : Option Date) (env : ChargeEnv) (r : Response) : Subscription :=
  updateOccuranges env
    { id := 0
      creditCardId := card.id
      customerId := c.id
      startDate := startDate.map env.inZone
      endDate := endDate.map env.inZone
      amount := amount
      interval := some (if presentOpt params.interval then params.interval.getD "" else "")
      period := some (if presentOpt params.period then params.period.getD "" else "")
      status := statusOf r
      noEndDate := params.noEndDate == some "true"
      isCancelSubscription := false }

/-- The part of `charge_cents2!` before the post. -/
def prepareCharge2 (card : CreditCard) (params : ChargeParams) :
    Except RubyError (Option Date × Option Date) := do
  let startDate ← params.startDate.toDate
  let endDate ← params.endDate.toDate
  -- `occurances` adds months to a start date that may be missing
  if presentOpt params.occurances && startDate.isNone then .error .noMethodError
  if card.address.isNone then .error .noMethodError
  return (startDate, endDate)

/-- `CreditCard#charge_cents2!`: a sale with a subscription. The
transaction is stored only when the subscription starts today. An amount
that no column takes, which is Infinity, ends the charge where it is to
be stored first. -/
def chargeCents2 [Numbers] (db : Db) (card : CreditCard) (cents : ℚ) (params : ChargeParams)
    (env : ChargeEnv) : Db × Option Sale :=
  let amount := Numbers.div cents 100
  match beginCharge db card, prepareCharge2 card params, env.answer, Numbers.float amount with
  | .ok (some c), .ok (startDate, endDate), some r, some kept =>
      let s := newSubscription card c amount params startDate endDate env r
      let db' := { db with subscriptions := db.subscriptions.insert s }
      -- without a start date the comparison raises
      if s.startDate = some env.zoneToday then
        let row := { saleRow c kept r with subId := some db.subscriptions.nextKey }
        ({ db' with transactions := db.transactions.insert row },
          some { row := db.transactions.nextKey, sub := some db.subscriptions.nextKey,
                 response := r })
      else (db', none)
  | _, _, _, _ => (db, none)

/-- `CreditCard#charge_cents3!`: a sale without a subscription. -/
def chargeCents3 [Numbers] (db : Db) (card : CreditCard) (cents : ℚ) (params : ChargeParams)
    (env : ChargeEnv) : Db × Option Sale :=
  match beginCharge db card, params.startDate.toDate, card.address, env.answer,
      Numbers.float (Numbers.div cents 100) with
  | .ok (some c), .ok _, some _, some r, some kept =>
      ({ db with transactions := db.transactions.insert (saleRow c kept r) },
        some { row := db.transactions.nextKey, sub := none, response := r })
  | _, _, _, _, _ => (db, none)

end HomeWarranty.Nmi
