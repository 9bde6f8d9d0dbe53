/-
HomeWarranty.Billing.SilentPost — `TransactionsController#authorize_silent_post`,
the gateway's notification of a charge.

The action looks for the customer in four places, in order of accuracy:
the invoice number, the customer id, the subscription id and the e-mail
(the last two with LIKE). It stores one transaction row for EVERY post,
with or without a customer. A void first looks for a row with the same
transaction id and sets that row's response code to -3; credits and
voids are themselves stored with the codes -1 and -2.

Two things of the source that leave no trace in the rows: the update of
`merchant_nickname` on the customer (not an accessible attribute, so the
mass assignment drops it), and `Transaction#after_save`, which this
Rails version does not call.

The gateway writes an amount as a short decimal, which its FLOAT column
takes; no result reads it back. `Notice` is a notification as the gateway
sends it: a sale or a void with a decimal transaction id and a decimal
response reason code.
-/
import HomeWarranty.Lib.Run
import HomeWarranty.Billing.ContractNumber

namespace HomeWarranty.Billing

open Lib Ruby

/-! ## The post -/

/-- A posted value: a form gives text, a JSON body can give a boolean. -/
inductive Param where
  | text (s : String)
  | bool (b : Bool)
  deriving DecidableEq

structure SilentPost where
  xTestRequest : Option Param
  xTransId : Option String
  xInvoiceNum : Option String
  xCustId : Option String
  xSubscriptionId : Option String
  xEmail : Option String
  xResponseReasonCode : Option String
  xResponseReasonText : Option String
  xAuthCode : Option String
  xAmount : Option String
  xSubscriptionPaynum : Option String
  xType : Option String
  deriving DecidableEq

/-! ## Whose transaction is it -/

/-- `status_id != 2` in SQL: NULL does not satisfy it. -/
def notDeleted (c : Customer) : Bool :=
  match c.statusId with
  | none => false
  | some s => s != 2

/-- `status_id != 2 AND column LIKE '%text%'`, when the text is not
blank. -/
def findLike (db : Db) (column : Customer → Option String) (text : Option String) :
    Option Customer :=
  match text with
  | none => none
  | some s =>
      if blank s then none
      else db.customers.firstWhere fun c =>
        notDeleted c && sqlLikeOpt db.fold ("%" ++ s ++ "%") (column c)

/-- The customer of a contract number that may be missing. -/
def findByContract (db : Db) (s : Option String) : Option Customer :=
  match s with
  | none => none
  | some s => withContractNumber db.customers s

/-- The four stages, in order of accuracy. -/
def deduceCustomer (db : Db) (p : SilentPost) : Option Customer :=
  match findByContract db p.xInvoiceNum with
  | some c => some c
  | none =>
      match findByContract db p.xCustId with
      | some c => some c
      | none =>
          match findLike db Customer.subscriptionId p.xSubscriptionId with
          | some c => some c
          | none => findLike db Customer.email p.xEmail

/-! ## The row -/

/-- The response code the post is stored with. -/
def postedCode (p : SilentPost) : Option Int :=
  if p.xType = some "void" then some (-2)
  else if p.xType = some "credit" then some (-1)
  else integerColumn p.xResponseReasonCode

/-- The row, before a customer is assigned to it. -/
def postedRow (p : SilentPost) : Transaction :=
  { Transaction.new with
    responseCode := postedCode p
    responseReasonText := p.xResponseReasonText
    authCode := p.xAuthCode
    amount := floatColumn p.xAmount
    transactionId := some (storeInt (toIOpt p.xTransId))
    subscriptionId := integerColumn p.xSubscriptionId
    subscriptionPaynum := integerColumn p.xSubscriptionPaynum }

/-- The customer's id, gateway and agent go on the row. -/
def assignCustomer (t : Transaction) : Option Customer → Transaction
  | none => t
  | some c =>
      { t with
        customerId := some c.id
        merchantNickname :=
          if c.gatewayId.isSome then
            some (if presentOpt c.merchantName then c.merchantName.getD "" else "")
          else t.merchantNickname
        gatewayId := if c.gatewayId.isSome then c.gatewayId else t.gatewayId
        originalAgentId := if c.agentId.isSome then c.agentId else t.originalAgentId }

/-- `Transaction.find_by_transaction_id` on the number as posted. -/
def hasTransactionId (p : SilentPost) (r : Transaction) : Bool :=
  r.transactionId == some (toIOpt p.xTransId)

/-- A void marks the first row with its transaction id. -/
def markVoided (db : Db) (p : SilentPost) : Db :=
  if p.xType = some "void" ∧ presentOpt p.xTransId = true then
    { db with
      transactions := db.transactions.updateFirst (hasTransactionId p)
        (fun r => { r with responseCode := some (-3) }) (fun _ => rfl) }
  else db

/-- `authorize_silent_post`: the database after it and the row it saved. -/
def authorizeSilentPost (db : Db) (p : SilentPost) : Db × Option Transaction :=
  if p.xTestRequest = some (.bool true) then (db, none)
  else
    match p.xTransId with
    | none => (db, none)
    | some _ =>
        let row := assignCustomer (postedRow p) (deduceCustomer db p)
        let db' := markVoided db p
        ({ db' with transactions := db'.transactions.insert row },
          some { row with id := db'.transactions.nextKey })

/-! ## Notifications -/

/-- A notification of a sale or a void, as the gateway posts it. -/
structure Notice where
  post : SilentPost
  transId : Nat
  code : Nat
  live : post.xTestRequest ≠ some (.bool true)
  trans : post.xTransId = some (toString transId)
  reason : post.xResponseReasonCode = some (toString code)
  notCredit : post.xType ≠ some "credit"

/-- A void, as opposed to a sale. -/
def Notice.isVoid (n : Notice) : Bool := n.post.xType == some "void"

/-- One notification arrives. -/
def receive (db : Db) (n : Notice) : Db := (authorizeSilentPost db n.post).1

/-- Notifications arrive, in the order of the list. -/
def receiveAll (db : Db) (ns : List Notice) : Db := run receive db ns

end HomeWarranty.Billing
