/-
HomeWarranty.Site.Billing — `SiteController#billing`, the purchase.

The action is a process that takes one step between each two points at
which another request can come between: it reads the cookie and loads
the customer, writes the billing name and address and looks up the
gateway, creates the two profiles, asks for the recurring subscription,
and, when that was approved, writes the customer, the renewal and the
account, sends the mails and writes the plan. Three plans are in play:

* the one that is STORED when the customer is loaded — it is charged,
  and it is the amount of the renewal;
* the one that is POSTED — it is written at the end as it is, or
* for twelve payments, the stored amount divided by twelve.

The customer object is loaded once and carried through the steps, and a
save writes the attributes that differ from what was loaded.

An exception ends the request where it is: what was written stays, and
the deletion of the cookie, which is a header of the answer, is lost.
What the gateway, the mail server and the encryption do is up to the
environment.
-/
import HomeWarranty.Lib.Interleave
import HomeWarranty.Billing.ContractNumber

namespace HomeWarranty.Site

open Lib Ruby Billing

/-! ## Requests -/

/-- The part of `params[:customer]` that the action reads. -/
structure PlanParams where
  payAmount : Option String
  numPayments : Option String
  billingFirstName : Option String
  billingLastName : Option String
  deriving DecidableEq

/-- A request to `billing`, with the cookies it carries. -/
structure BillingRequest where
  isPost : Bool
  customerCookie : Option Nat
  affiliateCookie : Bool
  customer : Option PlanParams
  billingAddress : Option Address
  date : Option (String × String)
  creditCardNumber : Option String
  contractLength : Option String
  remoteIp : String
  deriving DecidableEq

/-- What `gateway.recurring` comes back with. -/
inductive RecurringAnswer where
  | approved (subscriptionId : Option String)
  | declined
  | raised
  deriving DecidableEq

/-- What the request meets outside the database. `profiles` and
`cardHash` are `none` when the call raises. -/
structure BillingEnv where
  profiles : Option (Option String × Option String)
  answer : RecurringAnswer
  cardHash : Option String
  startDate : Date
  passwordHash : String
  mailed : Bool
  cardStored : Bool
  deriving DecidableEq

/-- A call of `gateway.recurring`. -/
structure Recurring where
  customerId : Nat
  cents : ℚ
  intervalMonths : Int
  occurrences : Int
  created : Bool
  deriving DecidableEq

/-- The database and the calls of `gateway.recurring` so far. -/
structure Shop where
  db : Db
  recurrings : List Recurring

/-! ## The parts of the action -/

/-- The plan the request computes for the final update; a request
without a plan computes none, and none is what it writes. The quotient is
exact: what a Float loses of it shows at most in the third decimal. -/
def planOf [Numbers] (c : Customer) (p : PlanParams) : Option PayAmount × Option Int :=
  match p.payAmount, p.numPayments with
  | some amount, some n =>
      (some (if n = "12" then .float (roundTo3 (PayAmount.toF c.payAmount / toI n))
             else .text amount),
        some (toI n))
  | _, _ => (none, none)

/-- The customer of the cookie, when the request is a POST. Without a
number of payments the total raises. -/
def loadCustomer (db : Db) (req : BillingRequest) : Option Customer :=
  match req.customerCookie with
  | none => none
  | some id =>
      match db.customers.find? id with
      | none => none
      | some c => if c.numPayments.isSome && req.isPost then some c else none

/-- The customer object with the posted billing name and address. -/
def withBilling (c : Customer) (p : PlanParams) (a : Address) : Customer :=
  { c with
    billingFirstName := p.billingFirstName
    billingLastName := p.billingLastName
    billingAddress := some a }

/-- The name is an update of the customer and needs a valid one; the
address is a row of its own. -/
def writeBilling (db : Db) (c : Customer) (p : PlanParams) (a : Address) : Db :=
  let names := c.valid db.customers
  { db with
    customers := db.customers.update c.id
      (fun r => { r with
        billingFirstName :=
          if names then writeAttribute c.billingFirstName p.billingFirstName r.billingFirstName
          else r.billingFirstName
        billingLastName :=
          if names then writeAttribute c.billingLastName p.billingLastName r.billingLastName
          else r.billingLastName
        billingAddress := some a })
      (fun _ => rfl) }

/-- The gateway of the customer's state has a login. -/
def gatewayReady (db : Db) (c : Customer) : Bool :=
  match selectGateway db c.state with
  | .ok (some g) => (credentials g).isOk
  | _ => false

/-- The subscription asked for: the plan as it was loaded. -/
def recurringOf [Numbers] (c : Customer) (answer : RecurringAnswer) : Recurring where
  customerId := c.id
  cents := PayAmount.toF c.payAmount * 100
  intervalMonths :=
    let n := c.numPayments.getD 0
    Int.fdiv 12 (if n = 0 then 1 else n)
  occurrences := c.numPayments.getD 0
  created :=
    match answer with
    | .approved _ => true
    | _ => false

/-- The customer object after an approved subscription. -/
def withSubscription (c : Customer) (subscriptionId : Option String) (hash : String)
    (date : String × String) : Customer :=
  { c with
    subscriptionId := subscriptionId
    creditCardNumberHash := some hash
    expirationDate := some (date.2 ++ "-" ++ date.1) }

def writeSubscription (db : Db) (c : Customer) (subscriptionId : Option String)
    (hash : String) (date : String × String) : Db :=
  let c' := withSubscription c subscriptionId hash date
  if c.valid db.customers then
    { db with
      customers := db.customers.update c.id
        (fun r => { r with
          subscriptionId := writeAttribute c.subscriptionId c'.subscriptionId r.subscriptionId
          creditCardNumberHash :=
            writeAttribute c.creditCardNumberHash c'.creditCardNumberHash r.creditCardNumberHash
          expirationDate := writeAttribute c.expirationDate c'.expirationDate r.expirationDate })
        (fun _ => rfl) }
  else db

/-- The renewal: what its column keeps of the stored amount, and two
months more for a customer who came through an affiliate. -/
def newRenewal (c : Customer) (kept : ℚ) (req : BillingRequest) (env : BillingEnv) :
    Renewal where
  id := 0
  customerId := c.id
  years := storeInt (toIOpt req.contractLength)
  amount := kept
  startsAt := env.startDate
  endsAt := env.startDate.addMonths
    (toIOpt req.contractLength * 12 + if req.affiliateCookie then 2 else 0)

def writeRenewal (db : Db) (c : Customer) (kept : ℚ) (req : BillingRequest)
    (env : BillingEnv) : Db :=
  { db with renewals := db.renewals.insert (newRenewal c kept req env) }

def newAccount (c : Customer) (req : BillingRequest) (env : BillingEnv) : Account where
  id := 0
  parentId := some c.id
  parentType := some "Customer"
  email := c.email
  passwordHash := some env.passwordHash
  role := some "customer"
  lastLoginIp := some req.remoteIp

def writeAccount (db : Db) (c : Customer) (req : BillingRequest) (env : BillingEnv) : Db :=
  if (newAccount c req env).valid db.accounts then
    { db with accounts := db.accounts.insert (newAccount c req env) }
  else db

/-- The final update: the plan the request computed. -/
def writePlan [Numbers] (db : Db) (c : Customer) (p : PlanParams) : Db :=
  if c.valid db.customers then
    { db with
      customers := db.customers.update c.id
        (fun r => { r with
          ccBy := writeAttribute c.ccBy (some "customer") r.ccBy
          payAmount :=
            if (planOf c p).1 = c.payAmount then r.payAmount
            else (planOf c p).1.map PayAmount.kept
          numPayments :=
            if (planOf c p).2 = c.numPayments then r.numPayments
            else (planOf c p).2.map storeInt })
        (fun _ => rfl) }
  else db

/-! ## The process -/

/-- Where a request stands, with the customer object it carries. -/
inductive BillingPc where
  | start
  | loaded (c : Customer)
  | prepared (c : Customer)
  | profiled (c : Customer) (profileId paymentProfileId : Option String)
  | charged (c : Customer) (subscriptionId : Option String)
  | recorded (c : Customer)
  | renewed (c : Customer)
  | accounted (c : Customer)
  | mailed (c : Customer)
  | finished (cookieDeleted : Bool)
  deriving DecidableEq

structure BillingProc where
  req : BillingRequest
  env : BillingEnv
  pc : BillingPc
  deriving DecidableEq

/-- A request that has not begun. -/
def BillingProc.begin (req : BillingRequest) (env : BillingEnv) : BillingProc :=
  ⟨req, env, .start⟩

/-- The process moves on. -/
def BillingProc.goto (p : BillingProc) (pc : BillingPc) : BillingProc := { p with pc := pc }

/-- One step of a request; an exception ends it. -/
def billingStep [Numbers] (shop : Shop) (p : BillingProc) : Option (Shop × BillingProc) :=
  match p.pc with
  | .start =>
      match loadCustomer shop.db p.req with
      | none => some (shop, p.goto (.finished false))
      | some c => some (shop, p.goto (.loaded c))
  | .loaded c =>
      match p.req.customer, p.req.billingAddress with
      | some params, some a =>
          let shop' := { shop with db := writeBilling shop.db c params a }
          if gatewayReady shop'.db (withBilling c params a) then
            some (shop', p.goto (.prepared (withBilling c params a)))
          else some (shop', p.goto (.finished false))
      | _, _ => some (shop, p.goto (.finished false))
  | .prepared c =>
      match p.env.profiles, p.req.date with
      | some (profile, paymentProfile), some _ =>
          some (shop, p.goto (.profiled c profile paymentProfile))
      | _, _ => some (shop, p.goto (.finished false))
  | .profiled c profile paymentProfile =>
      if presentOpt profile && presentOpt paymentProfile then
        let shop' := { shop with
          recurrings := shop.recurrings ++ [recurringOf c p.env.answer] }
        match p.env.answer with
        | .approved subscriptionId => some (shop', p.goto (.charged c subscriptionId))
        | _ => some (shop', p.goto (.finished false))
      else some (shop, p.goto (.finished false))
  | .charged c subscriptionId =>
      match p.env.cardHash, p.req.date with
      | some hash, some date =>
          some ({ shop with db := writeSubscription shop.db c subscriptionId hash date },
            p.goto (.recorded (withSubscription c subscriptionId hash date)))
      | _, _ => some (shop, p.goto (.finished false))
  | .recorded c =>
      match Numbers.float (PayAmount.toF c.payAmount) with
      | some kept =>
          some ({ shop with db := writeRenewal shop.db c kept p.req p.env }, p.goto (.renewed c))
      | none => some (shop, p.goto (.finished false))
  | .renewed c =>
      some ({ shop with db := writeAccount shop.db c p.req p.env }, p.goto (.accounted c))
  | .accounted c =>
      if p.env.mailed then some (shop, p.goto (.mailed c))
      else some (shop, p.goto (.finished false))
  | .mailed c =>
      match p.req.customer with
      | some params =>
          some ({ shop with db := writePlan shop.db c params },
            p.goto (.finished p.env.cardStored))
      | none => some (shop, p.goto (.finished false))
  | .finished _ => none

/-- The request on its own: nine steps reach its end. -/
def billing [Numbers] (shop : Shop) (req : BillingRequest) (env : BillingEnv) : Shop :=
  (alone billingStep 9 shop (BillingProc.begin req env)).1

end HomeWarranty.Site
