/-
HomeWarranty.Claims.Repair — repairs, their authorization and the
payments of their contractors.

A repair is authorized when its `authorization` is the NUMBER 1, and a
toggle asks whether it is the number 0. The column is a string column
whose default is the text "unauthorized": an object keeps the number it
was given until it is loaded again, and then it has a text. Which value
an object has is therefore a Ruby value (`Authorization`), and what the
column does to it is a parameter (`AuthorizationColumn`), with two
instances: the column of the schema, and the column of numbers the code
is written for.

`ClaimsController#async_update_claim_or_repair` cleans the posted amount
of everything but digits and points, authorizes amounts up to 100 and
refuses to authorize 0. It creates the repair of a claim that has none.
An amount that is empty after the cleaning is NULL: an INSERT of it is
refused, an UPDATE stores 0 (the column is NOT NULL and the server is
not in strict mode).

`amount` and `service_charge` are FLOAT columns. The action decides on
the posted number and the row has what the column keeps of it, which can
be 0 for a number above 0 and 100 for one above 100; a number that a
column does not take ends the request with an exception. Nothing reads
an amount of an object before its row is read again, so an object has
the amounts of its row.

`Repair#after_save` mirrors an authorized repair in a payment and
removes the unpaid payment of a repair that is not authorized.
-/
import HomeWarranty.Lib.Run
import HomeWarranty.Lib.Table
import HomeWarranty.Ruby.Number

namespace HomeWarranty.Claims

open Lib Ruby

/-! ## Authorization -/

/-- The value of the attribute in an object. -/
inductive Authorization where
  | int (n : Int)
  | text (s : String)
  deriving DecidableEq

/-- What a column does to the attribute. -/
structure AuthorizationColumn where
  /-- The value of a new object. -/
  default : Authorization
  /-- The value an object has after it was assigned. -/
  cast : Authorization → Authorization
  /-- The value the next object loads after it was saved. -/
  reload : Authorization → Authorization

/-- The column of the schema, which keeps texts. -/
def schemaColumn : AuthorizationColumn where
  default := .text "unauthorized"
  cast := id
  reload
    | .int n => .text (textColumn (toString n))
    | .text s => .text (textColumn s)

/-- A value as a number. -/
def Authorization.number : Authorization → Authorization
  | .int n => .int n
  | .text s => .int (toI s)

/-- The column the code is written for, which keeps numbers. -/
def numberColumn : AuthorizationColumn where
  default := .int 0
  cast := Authorization.number
  reload := Authorization.number

/-! ## Repairs -/

structure Repair where
  id : Nat
  claimId : Option Nat
  contractorId : Option Int
  authorization : Authorization
  amount : Option ℚ
  status : Option Int
  serviceCharge : Option ℚ
  deriving DecidableEq

instance : Record Repair where
  key := Repair.id
  withKey n r := { r with id := n }
  key_withKey := fun _ _ => rfl

/-- `authorized?`. -/
def Repair.authorized (r : Repair) : Bool := r.authorization == .int 1

/-- `formatted_authorization`; `none` is `nil`. -/
def Repair.formattedAuthorization (r : Repair) : Option String :=
  if r.authorization = .int 0 then some "Unauthorized"
  else if r.authorization = .int 1 then some "Authorized"
  else none

/-- Attributes that are assigned together; `none` leaves one alone. -/
structure Attributes where
  contractorId : Option (Option Int)
  authorization : Option Authorization
  amount : Option (Option ℚ)
  status : Option (Option Int)
  serviceCharge : Option (Option ℚ)
  deriving DecidableEq

def Attributes.none : Attributes where
  contractorId := Option.none
  authorization := Option.none
  amount := Option.none
  status := Option.none
  serviceCharge := Option.none

/-- The object after an assignment. -/
def Repair.assign (col : AuthorizationColumn) (r : Repair) (a : Attributes) : Repair :=
  { r with
    contractorId := a.contractorId.getD r.contractorId
    authorization := (a.authorization.map col.cast).getD r.authorization
    amount := a.amount.getD r.amount
    status := a.status.getD r.status
    serviceCharge := a.serviceCharge.getD r.serviceCharge }

/-- A new repair of a claim: the defaults of the schema. -/
def Repair.new (col : AuthorizationColumn) (claimId : Nat) : Repair where
  id := 0
  claimId := some claimId
  contractorId := none
  authorization := col.default
  amount := some 0
  status := some 0
  serviceCharge := some 60

/-- The object the next request loads after this one was saved. -/
def Repair.reload (col : AuthorizationColumn) (r : Repair) : Repair :=
  { r with
    authorization := col.reload r.authorization
    amount := some (r.amount.getD 0) }

/-- The attributes `toggle_authorization!` assigns. -/
def Repair.toggledAuthorization (r : Repair) : Attributes :=
  { Attributes.none with
    authorization := some (if r.authorization = .int 0 then .int 1 else .int 0) }

/-- The attributes `toggle_status!` assigns. -/
def Repair.toggledStatus (r : Repair) : Attributes :=
  { Attributes.none with status := some (some (if r.status = some 0 then 1 else 0)) }

/-! ## The request -/

/-- `params[:repair]`; `none` is a field that is not posted. -/
structure RepairParams where
  contractorId : Option String
  authorization : Option Authorization
  amount : Option String
  status : Option String
  serviceCharge : Option String
  deriving DecidableEq

/-- `gsub!(/[^\d\.]/, '')`. -/
def cleaned (s : String) : String :=
  String.ofList (s.toList.filter fun c => c.isDigit || c == '.')

/-- The amount is posted, and at most this much. -/
def postedAtMost [Numbers] (p : RepairParams) (limit : ℚ) : Bool :=
  match p.amount.map cleaned with
  | none => false
  | some s => !blank s && decide (Numbers.toF s ≤ limit)

/-- The parameters as the action passes them on. -/
def requestAttributes [Numbers] (p : RepairParams) : Attributes where
  contractorId := p.contractorId.map fun s => integerColumn (some s)
  status := p.status.map fun s => integerColumn (some s)
  serviceCharge := p.serviceCharge.map fun s => castFloat (some (cleaned s))
  amount :=
    if postedAtMost p 0 then some (some 0)
    else p.amount.map fun s => castFloat (some (cleaned s))
  authorization :=
    if postedAtMost p 0 then some (.int 0)
    else if postedAtMost p 100 then some (.int 1)
    else p.authorization

/-- What the columns keep of the attributes, unless one is refused. -/
def Attributes.stored [Numbers] (a : Attributes) : Option Attributes := do
  let amount ← a.amount.mapM storeFloat
  let serviceCharge ← a.serviceCharge.mapM storeFloat
  return { a with amount := amount, serviceCharge := serviceCharge }

/-- `claim.create_repair`: the object, unless the INSERT is refused. -/
def createdRepair (col : AuthorizationColumn) (claimId : Nat) (a : Attributes) :
    Option Repair :=
  let r := (Repair.new col claimId).assign col a
  if r.amount = none then none else some r

/-- `async_update_claim_or_repair` on the repair of a claim: the object
it saves, if it saves one. -/
def savedRepair [Numbers] (col : AuthorizationColumn) (claimId : Nat) (repair : Option Repair)
    (p : RepairParams) : Option Repair := do
  let a ← (requestAttributes p).stored
  match repair with
  | some r => some (r.assign col a)
  | none => createdRepair col claimId a

/-- The repair of the claim after the request, as the next one loads
it. -/
def asyncUpdateClaimOrRepair [Numbers] (col : AuthorizationColumn) (claimId : Nat)
    (repair : Option Repair) (p : RepairParams) : Option Repair :=
  match savedRepair col claimId repair p with
  | some r => some (r.reload col)
  | none => repair

end HomeWarranty.Claims
