/-
HomeWarranty.Affiliate.Partner — partners, their tokens and their
discount codes (`app/models/partner.rb`).

A partner's discount code is the first six characters of its token, and
it is set before EVERY save. The token of a new partner is drawn before
the row is created, which is after that: so the code of a new partner is
made from whatever token it had so far. From the registration form that
is the posted one, and the code is NULL when neither was posted; from a
sign-up with another site it is the empty text. The next save puts it
right.

What the validations, the mail of a changed access and the recaptcha
come to is part of the event (`saves`); so are the texts that are drawn.
The sign-in that follows a registration is a save of its own.
-/
import HomeWarranty.Site.Purchase

namespace HomeWarranty.Affiliate

open Lib Ruby Site

/-! ## Callbacks -/

/-- A new row: the schema's column defaults. -/
def newPartner : Partner where
  id := 0
  provider := none
  uid := none
  companyName := none
  authToken := none
  discountCode := none
  deleted := false

/-- `generate_discount_code`, before every save. -/
def generateDiscountCode (p : Partner) : Partner :=
  match p.authToken with
  | none => p
  | some token => { p with discountCode := some (String.ofList (token.toList.take 6)) }

/-- `Partner.find_by_auth_token`. -/
def findPartnerByAuthToken (db : Db) (token : String) : Option Partner :=
  db.partners.firstWhere fun p => !p.deleted && sqlEq db.fold p.authToken (some token)

/-- `generate_unique_token`: the second text is drawn when the first one is
NOT taken. -/
def generateUniqueToken (db : Db) (draws : String × String) : String :=
  if (findPartnerByAuthToken db draws.1).isNone then draws.2 else draws.1

/-- The row as the columns hold it. -/
def storedPartner (p : Partner) : Partner :=
  { p with
    authToken := p.authToken.map textColumn
    discountCode := p.discountCode.map textColumn }

theorem id_generateDiscountCode (p : Partner) : (generateDiscountCode p).id = p.id := by
  unfold generateDiscountCode
  split <;> rfl

/-! ## Creating and saving -/

/-- The row `Partner#save` creates. -/
def createdPartner (db : Db) (p : Partner) (draws : String × String) : Partner :=
  storedPartner
    { generateDiscountCode p with authToken := some (generateUniqueToken db draws) }

def createPartner (db : Db) (p : Partner) (draws : String × String) (saves : Bool) : Db :=
  if saves then { db with partners := db.partners.insert (createdPartner db p draws) } else db

/-- A change of a partner's attributes; it does not move the row. -/
structure PartnerChange where
  apply : Partner → Partner
  id_apply : ∀ p, (apply p).id = p.id

/-- The row `Partner#save` writes. -/
def savedPartner (change : PartnerChange) (p : Partner) : Partner :=
  storedPartner (generateDiscountCode (change.apply p))

theorem id_savedPartner (change : PartnerChange) (p : Partner) :
    (savedPartner change p).id = p.id :=
  (id_generateDiscountCode _).trans (change.id_apply p)

/-- Find a partner, change it and save it. Deleted partners are out of
scope. -/
def savePartner (db : Db) (id : Nat) (change : PartnerChange) (saves : Bool) : Db :=
  match db.partners.find? id with
  | none => db
  | some p =>
      if !p.deleted && saves then
        { db with
          partners := db.partners.update id (savedPartner change) (id_savedPartner change) }
      else db

/-- The accessible attributes a posted `partner` hash can name, of those
that are modelled. A key may be missing, and its value may be `nil`. -/
structure PartnerParams where
  companyName : Option (Option String)
  authToken : Option (Option String)
  discountCode : Option (Option String)
  deriving DecidableEq

/-- `update_attributes`. -/
def PartnerParams.change (posted : PartnerParams) : PartnerChange where
  apply p := { p with
    companyName := posted.companyName.getD p.companyName
    authToken := posted.authToken.getD p.authToken
    discountCode := posted.discountCode.getD p.discountCode }
  id_apply _ := rfl

/-- What `from_omniauth` sets; a missing token becomes the empty text. -/
def omniauthChange (provider uid : String) : PartnerChange where
  apply p := { p with
    provider := some provider
    uid := some uid
    authToken := some (if presentOpt p.authToken then p.authToken.getD "" else "") }
  id_apply _ := rfl

def tokenChange (token : String) : PartnerChange where
  apply p := { p with authToken := some token }
  id_apply _ := rfl

/-! ## The actions -/

/-- Registration with the form. -/
def register (db : Db) (posted : PartnerParams) (draws : String × String) (saves : Bool) : Db :=
  createPartner db (posted.change.apply newPartner) draws saves

/-- The partner of an account at another site. -/
def findOmniauth (db : Db) (provider uid : String) : Option Partner :=
  db.partners.firstWhere fun p =>
    !p.deleted && sqlEq db.fold p.provider (some provider) && sqlEq db.fold p.uid (some uid)

/-- `Partner.from_omniauth`. -/
def fromOmniauth (db : Db) (provider uid : String) (draws : String × String) (saves : Bool) :
    Db :=
  match findOmniauth db provider uid with
  | some p => savePartner db p.id (omniauthChange provider uid) saves
  | none => createPartner db ((omniauthChange provider uid).apply newPartner) draws saves

/-- `generate_api_key`. -/
def generateApiKey (db : Db) (id : Nat) (draws : String × String) (saves : Bool) : Db :=
  savePartner db id (tokenChange (generateUniqueToken db draws)) saves

/-- `destroy`: the row stays, out of scope. -/
def destroyPartner (db : Db) (id : Nat) : Db :=
  { db with
    partners := db.partners.update id (fun p => { p with deleted := true }) (fun _ => rfl) }

/-- What happens to partners, and the requests for a quote. -/
inductive PartnerEvent where
  | register (posted : PartnerParams) (draws : String × String) (saves : Bool)
  | omniauth (provider uid : String) (draws : String × String) (saves : Bool)
  | update (id : Nat) (posted : PartnerParams) (saves : Bool)
  | generateApiKey (id : Nat) (draws : String × String) (saves : Bool)
  | destroy (id : Nat)
  | quote (browser : Browser) (form : PurchaseForm)

def partnerStep (db : Db) : PartnerEvent → Db
  | .register posted draws saves => register db posted draws saves
  | .omniauth provider uid draws saves => fromOmniauth db provider uid draws saves
  | .update id posted saves => savePartner db id posted.change saves
  | .generateApiKey id draws saves => generateApiKey db id draws saves
  | .destroy id => destroyPartner db id
  | .quote browser form => (performPaymentGet db browser form).1

/-- A database before the first partner. -/
def withoutPartners (db : Db) : Db := { db with partners := Table.empty }

end HomeWarranty.Affiliate
