/-
HomeWarranty.Billing.ContractNumber — contract numbers, the charge that
sends them out and the scope that reads them back.

`Customer#contract_number` is `#`, the invoice prefix and the id padded
to five digits. `CreditCard#charge_cents!` sends it to the gateway
without the `#`, twice (order id and customer id). The gateway returns
it in its notification, where `Customer.with_contract_number` matches
`/SHW1(\d{1,})$/` against it and looks the digits up as an id.

The pattern is not anchored on the left, its prefix itself ends in a
digit, and `$` also matches before a line break, so `matchInvoice` scans
for the LEFTMOST place where the prefix is followed by digits up to the
end of a line. `withContractNumber_orderId` is the round trip: the scan
stops at position 0 and the padded digits read back as the id, for every
id and not only those of at most five digits.
-/
import Mathlib.Data.List.TakeWhile
import HomeWarranty.Records

namespace HomeWarranty.Billing

open Lib Ruby

/-! ## The encoder -/

/-- `$installation.invoice_prefix`. -/
def invoicePrefix : String := "SHW1"

/-- `Customer#contract_number`. -/
def contractNumber (id : Nat) : String :=
  "#" ++ invoicePrefix ++ rjust (toString id) 5 '0'

/-- `contract_number[1..-1]`, what the gateway gets. -/
def orderId (id : Nat) : String :=
  String.ofList ((contractNumber id).toList.drop 1)

/-! ## The decoder -/

/-- `$`: the end of the text or of a line. -/
def endOfLine : List Char → Bool
  | [] => true
  | c :: _ => c == '\n'

/-- The pattern tried at one position. The digits are taken greedily;
giving one back would leave a digit where `$` has to match, so no
shorter choice succeeds when the longest fails. -/
def invoiceAt (cs : List Char) : Option (List Char) :=
  if invoicePrefix.toList.isPrefixOf cs then
    let rest := cs.drop invoicePrefix.toList.length
    let digits := rest.takeWhile Char.isDigit
    if digits ≠ [] ∧ endOfLine (rest.dropWhile Char.isDigit) then some digits
    else none
  else none

/-- `s.match(/SHW1(\d{1,})$/)[1]`, leftmost position first. -/
def matchInvoice : List Char → Option (List Char)
  | [] => none
  | c :: cs =>
      match invoiceAt (c :: cs) with
      | some digits => some digits
      | none => matchInvoice cs

/-- `Customer.with_contract_number(s).first`. Text that does not match
raises on `nil[1]`; both callers rescue that and go on with no
customer. -/
def withContractNumber (t : Table Customer) (s : String) : Option Customer :=
  match matchInvoice s.toList with
  | none => none
  | some digits => t.find? (digitsValue digits)

/-! ## The charge -/

/-- A row of `credit_cards`, with the address it points to. -/
structure CreditCard where
  id : Nat
  customerId : Nat
  number : Option String
  month : Option Int
  year : Option Int
  firstName : Option String
  lastName : Option String
  phone : Option String
  address : Option Address
  deriving DecidableEq

/-- What `gateway.purchase` is called with. -/
structure PurchaseRequest where
  login : String
  transactionKey : String
  cents : ℚ
  card : CreditCard
  orderId : String
  custId : String
  deriving DecidableEq

/-- The gateway of a customer's state, or the default one. A state that
names a gateway which is gone raises. -/
def selectGateway (db : Db) (state : Option String) :
    Except RubyError (Option Gateway) :=
  match db.findStateByName state with
  | none => .ok (defaultGateway db.gateways)
  | some s =>
      match s.gatewayId with
      | none => .ok (defaultGateway db.gateways)
      | some g =>
          match db.gateways.find? g with
          | none => .error .noMethodError
          | some gateway => .ok (some gateway)

/-- `gateway.login_id.strip` and `gateway.transaction_key.strip`. -/
def credentials (g : Gateway) : Except RubyError (String × String) :=
  match g.loginId, g.transactionKey with
  | some login, some key => .ok (strip login, strip key)
  | _, _ => .error .noMethodError

/-- The gateway stamped on the customer before the charge. -/
def stampGateway (db : Db) (c : Customer) (g : Gateway) : Db :=
  let merchant := some (if presentOpt g.merchantName then g.merchantName.getD "" else "")
  if c.valid db.customers then
    { db with
      customers := db.customers.update c.id
        (fun r => { r with merchantName := merchant, gatewayId := some g.id })
        (fun _ => rfl) }
  else db

/-- `CreditCard#charge_cents!`: the database after it and the request
that goes to the gateway, if any. -/
def chargeCents (db : Db) (card : CreditCard) (cents : ℚ) :
    Db × Except RubyError (Option PurchaseRequest) :=
  match db.customers.find? card.customerId with
  | none => (db, .error .noMethodError)
  | some c =>
      match selectGateway db c.state with
      | .error e => (db, .error e)
      | .ok none => (db, .ok none)
      | .ok (some g) =>
          let db' := stampGateway db c g
          match credentials g with
          | .error e => (db', .error e)
          | .ok (login, key) =>
              (db', .ok (some
                { login := login, transactionKey := key, cents := cents,
                  card := card, orderId := orderId c.id, custId := orderId c.id }))

/-! ## The round trip -/

/-- The padded id. -/
def paddedId (id : Nat) : List Char := (rjust (toString id) 5 '0').toList

theorem isDigit_of_mem_paddedId (id : Nat) :
    ∀ c ∈ paddedId id, c.isDigit = true := by
  refine isDigit_of_mem_rjust fun c hc => ?_
  rw [toList_toString] at hc
  exact isDigit_of_mem_toDigits hc

theorem digitsValue_paddedId (id : Nat) : digitsValue (paddedId id) = id := by
  unfold paddedId
  rw [digitsValue_rjust, toList_toString, digitsValue_toDigits]

theorem paddedId_ne_nil (id : Nat) : paddedId id ≠ [] := by
  refine rjust_ne_nil ?_
  rw [toList_toString]
  exact Nat.toDigits_ne_nil

theorem toList_orderId (id : Nat) :
    (orderId id).toList = invoicePrefix.toList ++ paddedId id := by
  simp [orderId, contractNumber, paddedId, String.toList_append]

/-- Digits up to the end of the text are matched whole. -/
theorem invoiceAt_digits {ds : List Char} (hd : ∀ c ∈ ds, c.isDigit = true)
    (hne : ds ≠ []) : invoiceAt (invoicePrefix.toList ++ ds) = some ds := by
  have hpre : invoicePrefix.toList.isPrefixOf (invoicePrefix.toList ++ ds) = true := by
    rw [List.isPrefixOf_iff_prefix]
    exact List.prefix_append ..
  have htake : ds.takeWhile Char.isDigit = ds := List.takeWhile_eq_self_iff.mpr hd
  have hdrop : ds.dropWhile Char.isDigit = [] := List.dropWhile_eq_nil_iff.mpr hd
  simp only [invoiceAt, hpre, if_true, List.drop_left, htake, hdrop]
  simp [hne, endOfLine]

theorem matchInvoice_orderId (id : Nat) :
    matchInvoice (orderId id).toList = some (paddedId id) := by
  have hat := invoiceAt_digits (isDigit_of_mem_paddedId id) (paddedId_ne_nil id)
  rw [toList_orderId]
  -- the scan already succeeds at its first position
  have hcons : invoicePrefix.toList ++ paddedId id
      = 'S' :: (['H', 'W', '1'] ++ paddedId id) := rfl
  rw [hcons] at hat ⊢
  simp only [matchInvoice, hat]

/-- **The round trip**: what the charge sends is decoded to the customer
it was sent for. -/
theorem withContractNumber_orderId (t : Table Customer) (id : Nat) :
    withContractNumber t (orderId id) = t.find? id := by
  unfold withContractNumber
  rw [matchInvoice_orderId]
  simp only [digitsValue_paddedId]

/-- Two customers never share a contract number. -/
theorem orderId_injective {m n : Nat} (h : orderId m = orderId n) : m = n := by
  have hm := matchInvoice_orderId m
  rw [h, matchInvoice_orderId n, Option.some.injEq] at hm
  rw [← digitsValue_paddedId m, ← digitsValue_paddedId n, hm]

/-- A request that reaches the gateway carries the number of the card's
customer in both places. -/
theorem chargeCents_orderId {db db' : Db} {card : CreditCard} {cents : ℚ}
    {req : PurchaseRequest} (h : chargeCents db card cents = (db', .ok (some req))) :
    req.orderId = orderId card.customerId ∧ req.custId = orderId card.customerId := by
  unfold chargeCents at h
  cases hc : db.customers.find? card.customerId with
  | none => simp [hc] at h
  | some c =>
      have hid : c.id = card.customerId := Table.key_of_find? hc
      simp only [hc] at h
      cases hg : selectGateway db c.state with
      | error e => simp [hg] at h
      | ok g =>
          cases g with
          | none => simp [hg] at h
          | some g =>
              simp only [hg] at h
              cases hcr : credentials g with
              | error e => simp [hcr] at h
              | ok lk =>
                  simp only [hcr, Prod.mk.injEq, Except.ok.injEq,
                    Option.some.injEq] at h
                  obtain ⟨_, rfl⟩ := h
                  exact ⟨by rw [hid], by rw [hid]⟩

end HomeWarranty.Billing
