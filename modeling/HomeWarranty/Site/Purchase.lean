/-
HomeWarranty.Site.Purchase — `SiteController#purchase` and one browser's
way through the site.

`purchase` is two actions in one. Without the marker of the second form
it is the INTRO (`perform_payment_get`): it creates the customer, sets
the cookie, and only then looks at the state and at the size of the home.
With the marker it is the PLAN (`perform_payment_post`): it takes the
customer of the cookie, turns away one whose status is no longer 0, and
stores what was posted. `billing` looks at the cookie alone.

The cookie is signed, so a browser can only send what the server gave it
— the last cookie, or one from before that it has kept. An exception
loses the headers of the answer: the row of the customer stays, the
cookie is not set.

Mass assignment drops the attributes that are not accessible; a posted
`status_id`, `partner_id` or `agent_id` has no effect. The nested
attributes of the properties, which no modelled guard reads, are left
out, and a text is written as it was posted: no guard turns on what a
column cuts.
-/
import HomeWarranty.Site.Billing

namespace HomeWarranty.Site

open Lib Ruby Billing

/-! ## Mass assignment -/

/-- The columns a posted `customer` hash can name. -/
inductive CustomerAttr where
  | email | firstName | lastName | customerPhone
  | customerAddress | customerCity | customerState | customerZip
  | coverageAddon | homeType | homeSizeCode | payAmount | numPayments
  | subscriptionId | expirationDate | ip
  | billingFirstName | billingLastName
  | leadid | referredFrom | ccBy | customerFrom | updateBy | subid
  | merchantName | gatewayId
  | statusId | agentId | partnerId
  deriving DecidableEq

/-- `attr_accessible`. -/
def CustomerAttr.accessible : CustomerAttr → Bool
  | .statusId => false
  | .agentId => false
  | .partnerId => false
  | _ => true

/-- A posted value is cast to its column. -/
def setAttr (c : Customer) (a : CustomerAttr) (s : String) : Customer :=
  match a with
  | .email => { c with email := some s }
  | .firstName => { c with firstName := some s }
  | .lastName => { c with lastName := some s }
  | .customerPhone => { c with customerPhone := some s }
  | .customerAddress => { c with customerAddress := some s }
  | .customerCity => { c with customerCity := some s }
  | .customerState => { c with customerState := some s }
  | .customerZip => { c with customerZip := some s }
  | .coverageAddon => { c with coverageAddon := some s }
  | .homeType => { c with homeType := some s }
  | .homeSizeCode => { c with homeSizeCode := integerColumn (some s) }
  | .payAmount => { c with payAmount := some (.text s) }
  | .numPayments => { c with numPayments := integerColumn (some s) }
  | .subscriptionId => { c with subscriptionId := some s }
  | .expirationDate => { c with expirationDate := some s }
  | .ip => { c with ip := some s }
  | .billingFirstName => { c with billingFirstName := some s }
  | .billingLastName => { c with billingLastName := some s }
  | .leadid => { c with leadid := some s }
  | .referredFrom => { c with referredFrom := some s }
  | .ccBy => { c with ccBy := some s }
  | .customerFrom => { c with customerFrom := some s }
  | .updateBy => { c with updateBy := some s }
  | .subid => { c with subid := some s }
  | .merchantName => { c with merchantName := some s }
  | .gatewayId => { c with gatewayId := (integerColumn (some s)).map Int.toNat }
  | .statusId => { c with statusId := integerColumn (some s) }
  | .agentId => { c with agentId := (integerColumn (some s)).map Int.toNat }
  | .partnerId => { c with partnerId := (integerColumn (some s)).map Int.toNat }

/-- Assign a posted hash, without what is not accessible. -/
def massAssign (c : Customer) (attrs : List (CustomerAttr × String)) : Customer :=
  (attrs.filter fun a => a.1.accessible).foldl (fun c a => setAttr c a.1 a.2) c

/-! ## Requests -/

/-- A request to `purchase`. `fromAffiliate` is whether the referrer
contains "affiliate", `secondForm` the marker of the plan form. -/
structure PurchaseForm where
  fromAffiliate : Bool
  affiliate : Bool
  secondForm : Bool
  customer : Option (List (CustomerAttr × String))
  property : Option Address
  propertyId : Option String
  typeOfHome : Option String
  discountcode : Option String
  subid : Option String
  coverages : List String
  remoteIp : String
  accountName : Option String
  coverageEndsAt : Date
  deriving DecidableEq

/-- Where the answer leads. -/
inductive Page where
  | quote
  | affiliate
  | purchaseForm
  | restrictedState
  | pleaseCall
  | plan
  | billing
  | error
  deriving DecidableEq

/-- What a browser holds of the site. -/
structure Browser where
  customerCookie : Option Nat
  affiliateCookie : Bool
  sessionState : Option String
  deriving DecidableEq

/-! ## The intro -/

/-- `Partner.find_by_discount_code`: deleted partners are out of scope. -/
def findPartnerByDiscountCode (db : Db) (code : Option String) : Option Partner :=
  db.partners.firstWhere fun p => !p.deleted && sqlEq db.fold p.discountCode code

/-- The site's codes for the types of home. -/
def mappedHomeType : Option String → Option String
  | some "Single Family" => some "single"
  | some "2 Family" => some "duplex"
  | some "3 Family" => some "triplex"
  | some "4 Family" => some "fourplex"
  | some "Condominium" => some "condo"
  | _ => none

/-- The first name as it was posted. -/
def postedFirstName (attrs : List (CustomerAttr × String)) : String :=
  match attrs.find? fun a => a.1 = .firstName with
  | some (_, s) => if blank s then "" else s
  | none => ""

/-- The new customer: what was posted, then what the action fills in,
then the partner of the discount code and, with it, where the customer
came from. -/
def newCustomer (db : Db) (form : PurchaseForm) (attrs : List (CustomerAttr × String))
    (a : Address) : Customer :=
  let c := massAssign Customer.new attrs
  let c := { c with
    homeType := mappedHomeType form.typeOfHome
    customerAddress := a.address
    customerCity := a.city
    customerState := a.state
    customerZip := a.zipCode
    customerFrom := some "customer"
    ip := some form.remoteIp
    payAmount := some (.float (49995 / 100))
    subid := form.subid
    updateBy := some (form.accountName.getD (postedFirstName attrs)) }
  match findPartnerByDiscountCode db form.discountcode with
  | none => c
  | some p =>
      { c with
        partnerId := some p.id
        referredFrom := some (p.companyName.getD "" ++ ": " ++ c.leadid.getD "") }

/-- The names of the states that are sold to. -/
def activeStates (db : Db) (fromAffiliate : Bool) : List (Option String) :=
  (db.states.rows.filter fun s => if fromAffiliate then s.affiliate else s.gaq).map State.name

/-- A new property row; a missing field is the empty text. -/
def newProperty (a : Address) : Address where
  address := some (a.address.getD "")
  city := some (a.city.getD "")
  state := some (a.state.getD "")
  zipCode := some (a.zipCode.getD "")

def addProperty (db : Db) (n : Nat) (a : Address) : Db :=
  { db with
    customers := db.customers.update n
      (fun r => { r with properties := r.properties ++ [newProperty a] }) (fun _ => rfl) }

/-- The database with the new customer and the property. -/
def storeCustomer (db : Db) (c : Customer) (a : Address) : Db :=
  addProperty { db with customers := db.customers.insert c } db.customers.nextKey a

/-- `perform_payment_get`. -/
def performPaymentGet (db : Db) (browser : Browser) (form : PurchaseForm) :
    Db × Browser × Page :=
  match form.customer with
  | none => (db, browser, .quote)
  | some attrs =>
      match form.property with
      | none => (db, browser, .error)
      | some a =>
          let c := newCustomer db form attrs a
          if c.valid db.customers then
            let db' := storeCustomer db c a
            let browser' := { browser with
              customerCookie := some db.customers.nextKey
              affiliateCookie := form.affiliate }
            match a.state with
            | none => (db', browser, .error)
            | some s =>
                if some (upcase s) ∈ activeStates db form.fromAffiliate then
                  if c.homeSizeCode = some 1 then (db', browser', .pleaseCall)
                  else (db', browser', .plan)
                else (db', { browser' with sessionState := some s }, .restrictedState)
          else (db, browser, .purchaseForm)

/-- The intro stores the new customer or nothing. -/
theorem performPaymentGet_db (db : Db) (browser : Browser) (form : PurchaseForm) :
    (performPaymentGet db browser form).1 = db ∨
      ∃ attrs a, (performPaymentGet db browser form).1
        = storeCustomer db (newCustomer db form attrs a) a := by
  unfold performPaymentGet
  cases form.customer with
  | none => exact Or.inl rfl
  | some attrs =>
      cases form.property with
      | none => exact Or.inl rfl
      | some a =>
          simp only
          split
          · refine Or.inr ⟨attrs, a, ?_⟩
            cases a.state with
            | none => rfl
            | some s =>
                simp only
                split
                · split <;> rfl
                · rfl
          · exact Or.inl rfl

/-! ## The plan -/

theorem id_setAttr (c : Customer) (a : CustomerAttr) (s : String) : (setAttr c a s).id = c.id := by
  cases a <;> rfl

theorem id_massAssign (attrs : List (CustomerAttr × String)) (c : Customer) :
    (massAssign c attrs).id = c.id := by
  unfold massAssign
  induction attrs.filter (fun a => a.1.accessible) generalizing c with
  | nil => rfl
  | cons a l ih => rw [List.foldl_cons, ih, id_setAttr]

/-- The customer with the posted plan. -/
def withPlan (form : PurchaseForm) (attrs : List (CustomerAttr × String)) (c : Customer) :
    Customer :=
  { massAssign c attrs with
    coverageAddon := some (", ".intercalate form.coverages)
    coverageEndsAt := some form.coverageEndsAt }

theorem id_withPlan (form : PurchaseForm) (attrs : List (CustomerAttr × String))
    (c : Customer) : (withPlan form attrs c).id = c.id := id_massAssign attrs c

/-- The update of the plan step, when the customer stays valid. -/
def storePlan (db : Db) (form : PurchaseForm) (attrs : List (CustomerAttr × String))
    (c : Customer) : Db :=
  if (withPlan form attrs c).valid db.customers then
    { db with
      customers := db.customers.update c.id (withPlan form attrs) (id_withPlan form attrs) }
  else db

/-- `perform_payment_post`. -/
def performPaymentPost (db : Db) (browser : Browser) (form : PurchaseForm) : Db × Page :=
  match form.customer with
  | none => (db, .error)
  | some attrs =>
      match browser.customerCookie with
      | none => (db, if form.affiliate then .affiliate else .quote)
      | some n =>
          match db.customers.find? n with
          | none => (db, .error)
          | some c =>
              if c.statusId = some 0 then
                let db' := storePlan db form attrs c
                if toIOpt form.propertyId = 0 then
                  (addProperty db' n (form.property.getD ⟨none, none, none, none⟩), .billing)
                else (db', .billing)
              else (db, .pleaseCall)

/-- `purchase`. From an affiliate's page, a sub id without a customer
raises. -/
def purchasePage (db : Db) (browser : Browser) (form : PurchaseForm) : Db × Browser × Page :=
  if form.fromAffiliate && presentOpt form.subid && form.customer.isNone then
    (db, browser, .error)
  else if form.secondForm then
    ((performPaymentPost db browser form).1, browser, (performPaymentPost db browser form).2)
  else performPaymentGet db browser form

/-! ## A visit -/

/-- What the server has answered to the browser, customer by customer:
whose state was active at the intro, who was turned away, whose plan was
accepted. -/
structure Answers where
  active : List Nat
  turnedAway : List Nat
  accepted : List Nat
  deriving DecidableEq

/-- One browser at the site: the customers it was given a cookie of, and
the page `purchase` has led it to with the cookie it has now. -/
structure Visit where
  shop : Shop
  browser : Browser
  issued : List Nat
  page : Option Page
  answers : Answers

/-- What can happen: the browser's requests, in any order and with any
parameters; the browser going back to a cookie it was given, or dropping
the one it has; and staff changing a customer's status. -/
inductive SiteEvent where
  | purchase (form : PurchaseForm)
  | billing (req : BillingRequest) (env : BillingEnv)
  | restore (id : Nat)
  | forget
  | staff (id : Nat) (status : Option Int)

/-- The answer to an intro is about the customer the cookie was set to;
the answer to a plan is about the customer of the cookie. -/
def Answers.note (ans : Answers) (customer : Option Nat) (secondForm : Bool) (page : Page) :
    Answers :=
  match customer with
  | none => ans
  | some n =>
      match page with
      | .plan => { ans with active := n :: ans.active }
      | .restrictedState => { ans with turnedAway := n :: ans.turnedAway }
      | .pleaseCall =>
          { ans with
            active := if secondForm then ans.active else n :: ans.active
            turnedAway := n :: ans.turnedAway }
      | .billing => { ans with accepted := n :: ans.accepted }
      | _ => ans

/-- The browser sends its own cookies. -/
def withCookies (browser : Browser) (req : BillingRequest) : BillingRequest :=
  { req with
    customerCookie := browser.customerCookie
    affiliateCookie := browser.affiliateCookie }

/-- Whether the answer of `billing` deletes the cookie. -/
def deletesCookie [Numbers] (shop : Shop) (req : BillingRequest) (env : BillingEnv) : Bool :=
  (alone billingStep 9 shop (BillingProc.begin req env)).2.pc = .finished true

def setStatus (db : Db) (id : Nat) (status : Option Int) : Db :=
  { db with
    customers := db.customers.update id (fun r => { r with statusId := status })
      (fun _ => rfl) }

def Visit.step [Numbers] (v : Visit) : SiteEvent → Visit
  | .purchase form =>
      let (db', browser', page) := purchasePage v.shop.db v.browser form
      { shop := { v.shop with db := db' }
        browser := browser'
        issued := browser'.customerCookie.toList ++ v.issued
        page := some page
        answers := v.answers.note browser'.customerCookie form.secondForm page }
  | .billing req env =>
      let req := withCookies v.browser req
      { v with
        shop := billing v.shop req env
        browser :=
          if deletesCookie v.shop req env then { v.browser with customerCookie := none }
          else v.browser }
  | .restore id =>
      if id ∈ v.issued then
        { v with
          browser := { v.browser with customerCookie := some id }
          page := none }
      else v
  | .forget => { v with browser := { v.browser with customerCookie := none }, page := none }
  | .staff id status => { v with shop := { v.shop with db := setStatus v.shop.db id status } }

/-- A browser that has not been here. -/
def Visit.arrive (db : Db) : Visit where
  shop := ⟨db, []⟩
  browser := ⟨none, false, none⟩
  issued := []
  page := none
  answers := ⟨[], [], []⟩

end HomeWarranty.Site
