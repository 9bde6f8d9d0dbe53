/-
HomeWarranty.Nmi.Operations — the staff operations on a stored sale
(`Admin::SubscriptionsController`): `refund`, `void_transaction`,
`del_subscription` and `delete_subscription`.

`refund` is given in its three parts, in the order in which the action
runs them: `loadRefund` reads the row and passes the guards, the query
goes to the gateway, `recordRefund` writes the total it computed from
the row it LOADED. A request on its own runs them in a row (`refund`);
requests at the same time interleave them (`refundStep`).

The amount is checked only for being present and not negative. The
upper bound of the source is commented out, and the model follows the
code that runs. The stored total is a FLOAT column: what the next request
loads is what the column keeps of the sum.

Notes, mails and redirects leave no trace in the modelled tables.
-/
import HomeWarranty.Lib.Interleave
import HomeWarranty.Nmi.GwApi

namespace HomeWarranty.Nmi

open Lib Ruby

/-! ## Refunds -/

/-- A posted refund: the transaction, the amount as text, and what the
gateway will answer. -/
structure RefundRequest where
  id : Nat
  amount : Option String
  answer : Option Response
  deriving DecidableEq

/-- `params[:amount].to_f`. -/
def RefundRequest.value [Numbers] (r : RefundRequest) : ℚ := Numbers.toF (r.amount.getD "")

/-- The check on the amount. -/
def RefundRequest.valid [Numbers] (r : RefundRequest) : Bool :=
  presentOpt r.amount && decide (0 ≤ r.value)

/-- The customer of a row, the merchant account of the customer's state,
the login of the first gateway; `none` without a merchant account. -/
def merchantLogin (db : Db) (customerId : Option Nat) :
    Except RubyError (Option Login) := do
  let some id := customerId | .error .recordNotFound
  let some c := db.customers.find? id | .error .recordNotFound
  let some _ ← nmiLogin db c.state | return none
  let login ← firstLogin db
  return some login

/-- `refund` up to the gateway call: the row and the query, or `none`
when the action ends without one. -/
def loadRefund [Numbers] (db : Db) (req : RefundRequest) :
    Except RubyError (Option (Transaction × String)) := do
  let some t := db.transactions.find? req.id | .error .recordNotFound
  let some login ← merchantLogin db t.customerId | return none
  if req.valid then
    let query ← refundQuery login (.text (t.transactionid.getD ""))
      (.text (req.amount.getD ""))
    return some (t, query)
  else return none

/-- The `refund` of a row after the total that follows from the loaded
value was written to it: nothing is written when that is the loaded value
again, or when the column does not take it. -/
def writeRefund [Numbers] (loaded stored : Option ℚ) (amount : ℚ) : Option ℚ :=
  if some (Numbers.add (loaded.getD 0) amount) = loaded then stored
  else
    match Numbers.float (Numbers.add (loaded.getD 0) amount) with
    | some kept => some kept
    | none => stored

/-- `update_attributes(:refund => @transaction.refund.to_f + amount)` on
the row as it was loaded. -/
def recordRefund [Numbers] (db : Db) (t : Transaction) (amount : ℚ) : Db :=
  { db with
    transactions := db.transactions.update t.id
      (fun r => { r with refund := writeRefund t.refund r.refund amount })
      (fun _ => rfl) }

/-- One refund request on its own: the database after it, and the query
that went to the gateway. -/
def refund [Numbers] (db : Db) (req : RefundRequest) : Db × Option String :=
  match loadRefund db req with
  | .ok (some (t, query)) =>
      (if approves req.answer then recordRefund db t req.value else db, some query)
  | _ => (db, none)

/-! ## Refunds at the same time -/

/-- Where a refund request stands. -/
inductive RefundPc where
  | start
  | loaded (row : Transaction)
  | approved (row : Transaction)
  /-- With an approval, or without. -/
  | finished (wrote : Bool)
  deriving DecidableEq

structure RefundProc where
  req : RefundRequest
  pc : RefundPc
  deriving DecidableEq

/-- A request that has not begun. -/
def RefundProc.begin (req : RefundRequest) : RefundProc := ⟨req, .start⟩

/-- One step of a request. -/
def refundStep [Numbers] (db : Db) (p : RefundProc) : Option (Db × RefundProc) :=
  match p.pc with
  | .start =>
      match loadRefund db p.req with
      | .ok (some (t, _)) => some (db, { p with pc := .loaded t })
      | _ => some (db, { p with pc := .finished false })
  | .loaded t =>
      if approves p.req.answer then some (db, { p with pc := .approved t })
      else some (db, { p with pc := .finished false })
  | .approved t => some (recordRefund db t p.req.value, { p with pc := .finished true })
  | .finished _ => none

/-! ## Voids and cancellations -/

/-- `Subscription#transaction`: the first row that points to it. -/
def transactionOf (db : Db) (sub : Nat) : Option Transaction :=
  db.transactions.firstWhere (fun t => t.subId == some sub)

/-- `void_transaction` up to the gateway call. The row's own key, a
number, is what it passes on. -/
def loadVoid (db : Db) (id : Nat) : Except RubyError String := do
  let some t := db.transactions.find? id | .error .recordNotFound
  let login ← firstLogin db
  doVoid login (.int t.id)

/-- `delete_subscription` up to the gateway call: it logs in with the
gateway's demonstration account. -/
def loadDelete (db : Db) (sub : Nat) : Except RubyError String := do
  let some s := db.subscriptions.find? sub | .error .recordNotFound
  let some _ := db.customers.find? s.customerId | .error .recordNotFound
  let some t := transactionOf db s.id | .error .noMethodError
  cancelSubscription ⟨some "demo", some "password"⟩ (.text (t.subscriptionid.getD ""))

/-- `del_subscription` up to the gateway call. -/
def loadDel (db : Db) (sub : Nat) : Except RubyError (Option String) := do
  let some s := db.subscriptions.find? sub | .error .recordNotFound
  let some login ← merchantLogin db (some s.customerId) | return none
  let some t := transactionOf db s.id | return none
  if presentOpt t.subscriptionid then
    let query ← cancelSubscription login (.text (t.subscriptionid.getD ""))
    return some query
  else return none

/-- An approved cancellation is flagged on the subscription. -/
def flagCancelled (db : Db) (sub : Nat) : Db :=
  { db with
    subscriptions := db.subscriptions.update sub
      (fun s => { s with isCancelSubscription := true }) (fun _ => rfl) }

/-- The operations and what they are asked for: a refund and a void name
a row, a cancellation names a subscription. -/
inductive StaffOp where
  | refund (row : Nat) (amount : Option String)
  | void (row : Nat)
  | delSubscription (sub : Nat)
  | deleteSubscription (sub : Nat)
  deriving DecidableEq

/-- The query an operation sends to the gateway, if it sends one. -/
def posted [Numbers] (db : Db) : StaffOp → Option String
  | .refund row amount =>
      match loadRefund db ⟨row, amount, none⟩ with
      | .ok (some (_, query)) => some query
      | _ => none
  | .void row => (loadVoid db row).toOption
  | .delSubscription sub => (loadDel db sub).toOption.join
  | .deleteSubscription sub => (loadDelete db sub).toOption

/-- The flag is set when the query was sent and approved. -/
def cancel (db : Db) (sub : Nat) (query : Option String) (answer : Option Response) : Db :=
  if query.isSome && approves answer then flagCancelled db sub else db

/-- The database after an operation, given what the gateway answers. -/
def operate [Numbers] (db : Db) (op : StaffOp) (answer : Option Response) : Db :=
  match op with
  | .refund row amount => (refund db ⟨row, amount, answer⟩).1
  | .void _ => db
  | .delSubscription sub => cancel db sub (posted db op) answer
  | .deleteSubscription sub => cancel db sub (posted db op) answer

end HomeWarranty.Nmi
