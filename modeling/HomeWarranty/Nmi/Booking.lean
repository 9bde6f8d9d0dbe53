/-
HomeWarranty.Nmi.Booking — `SubscriptionsController#bill_subscription_nmi`
and what of an approved charge ends up in the tables.

A blank date is filled in at three places that do not agree. Before the
call a blank start date is today in the configured zone; the new
subscription keeps it blank; the callback after creation puts the
server's date in its place, but only when BOTH dates are blank. The
transaction is stored when the start date of the subscription, read back
after all this, is today in the configured zone, and reading a start
date that is still missing raises. What is read back is the date in that
zone at midnight of the server's clock.

`nmi_charge_booked_iff` says which accepted parameter maps come out of
this with the approved charge on the books.
-/
import HomeWarranty.Nmi.GwApi

namespace HomeWarranty.Nmi

open Lib Ruby
open Billing (CreditCard)

/-! ## The action -/

/-- The parameters the action and the charge read. -/
structure BillParams where
  amount : Option String
  startDate : Option String
  endDate : Option String
  occurances : Option String
  interval : Option String
  period : Option String
  noEndDate : Option String
  deriving DecidableEq

/-- A date parameter as the charge reads it; `read` is `String#to_date`,
which raises for a text that is not a date. -/
def dateParam (read : String → Option Date) (s : Option String) : DateParam :=
  if presentOpt s then
    match read (s.getD "") with
    | none => .unreadable
    | some d => .date d
  else .blank

def BillParams.toCharge (read : String → Option Date) (p : BillParams) : ChargeParams where
  startDate := dateParam read p.startDate
  endDate := dateParam read p.endDate
  occurances := p.occurances
  interval := p.interval
  period := p.period
  noEndDate := p.noEndDate

/-- `params[:amount].to_f`. -/
def BillParams.amountF [Numbers] (p : BillParams) : ℚ :=
  match p.amount with
  | none => 0
  | some s => Numbers.toF s

/-- The dollars that are charged, and stored: `cents.to_f/100`, where the
action passed `amount * 100.0`. -/
def BillParams.charged [Numbers] (p : BillParams) : ℚ :=
  Numbers.div (Numbers.mul p.amountF 100) 100

/-- An end date is asked for and none is given. -/
def BillParams.invalidEndDate (p : BillParams) : Bool :=
  presentOpt p.noEndDate && p.noEndDate == some "false" && p.endDate.getD "" == ""

/-- The action lets the parameters through to the charge. -/
def BillParams.accepted [Numbers] (p : BillParams) : Bool :=
  !p.invalidEndDate && decide (0 < p.amountF)

/-- `bill_subscription_nmi`. -/
def billSubscriptionNmi [Numbers] (read : String → Option Date) (db : Db) (card : CreditCard)
    (p : BillParams) (env : ChargeEnv) : Db × Option Sale :=
  if p.invalidEndDate then (db, none)
  else if 0 < p.amountF then
    chargeCents2 db card (Numbers.mul p.amountF 100) (p.toCharge read) env
  else (db, none)

/-! ## The books -/

/-- The charge gets as far as the gateway, and this is its answer. -/
structure Answered (read : String → Option Date) (db : Db) (card : CreditCard)
    (p : BillParams) (env : ChargeEnv) (c : Customer) (r : Response) : Prop where
  customer : beginCharge db card = .ok (some c)
  prepared : (prepareCharge2 card (p.toCharge read)).isOk = true
  answer : env.answer = some r

/-- Exactly one subscription and exactly one transaction are new, both
of the customer, and the transaction is approved, with the amount that
was asked for and the id of the answer. The subscription has the amount
that was charged. -/
def Booked (db db' : Db) (c : Customer) (charged amount : ℚ) (r : Response) : Prop :=
  (∃ s, db'.subscriptions.rows = db.subscriptions.rows ++ [s] ∧ s.customerId = c.id ∧
    s.amount = charged) ∧
  ∃ t, db'.transactions.rows = db.transactions.rows ++ [t] ∧ t.customerId = some c.id ∧
    t.responseCode = some 1 ∧ t.amount = some amount ∧
    t.transactionid = r.transactionid

/-! ## Which charges are booked -/

/-- Dates that get past the preparation are the dates it returns. -/
theorem prepareCharge2_ok {card : CreditCard} {params : ChargeParams}
    (h : (prepareCharge2 card params).isOk = true) :
    ∃ s e, prepareCharge2 card params = .ok (s, e) ∧
      params.startDate.toDate = .ok s ∧ params.endDate.toDate = .ok e := by
  cases hp : prepareCharge2 card params with
  | error e =>
      rw [hp] at h
      cases h
  | ok se =>
      obtain ⟨s, e⟩ := se
      refine ⟨s, e, rfl, ?_⟩
      simp only [prepareCharge2, bind_eq_ok] at hp
      obtain ⟨s', hs, e', he, hp⟩ := hp
      cases hocc : (presentOpt params.occurances && s'.isNone) with
      | true => simp [hocc, bind, Except.bind] at hp
      | false =>
          cases haddr : card.address.isNone with
          | true => simp [hocc, haddr, bind, Except.bind] at hp
          | false =>
              simp only [hocc, haddr, Bool.false_eq_true, if_false, pure, Except.pure,
                Except.ok.injEq, Prod.mk.injEq] at hp
              obtain ⟨rfl, rfl⟩ := hp
              exact ⟨hs, he⟩

/-- The callback supplies a start date only when both dates are
missing. -/
theorem startDate_newSubscription (card : CreditCard) (c : Customer) (amount : ℚ)
    (params : ChargeParams) (s e : Option Date) (env : ChargeEnv) (r : Response) :
    (newSubscription card c amount params s e env r).startDate
      = (if s = none ∧ e = none then some env.today else s).map env.inZone := by
  cases s with
  | some d => simp [newSubscription, updateOccuranges]
  | none =>
      cases e with
      | some d => simp [newSubscription, updateOccuranges]
      | none => simp [newSubscription, updateOccuranges]

theorem updateOccuranges_customerId (env : ChargeEnv) (s : Subscription) :
    (updateOccuranges env s).customerId = s.customerId := by
  cases h : (s.startDate.isSome || s.endDate.isSome) <;> simp [updateOccuranges, h]

theorem updateOccuranges_amount (env : ChargeEnv) (s : Subscription) :
    (updateOccuranges env s).amount = s.amount := by
  cases h : (s.startDate.isSome || s.endDate.isSome) <;> simp [updateOccuranges, h]

theorem customerId_newSubscription (card : CreditCard) (c : Customer) (amount : ℚ)
    (params : ChargeParams) (s e : Option Date) (env : ChargeEnv) (r : Response) :
    (newSubscription card c amount params s e env r).customerId = c.id ∧
      (newSubscription card c amount params s e env r).amount = amount := by
  unfold newSubscription
  rw [updateOccuranges_customerId, updateOccuranges_amount]
  exact ⟨rfl, rfl⟩

/-- A charge that is answered is booked just when the start date its
subscription ends up with is today in the configured zone and the column
gives back the amount that was asked for. -/
theorem booked_iff_startDate [Numbers] {db : Db} {card : CreditCard} (cents amount : ℚ)
    {params : ChargeParams} {env : ChargeEnv} {c : Customer} {s e : Option Date} {r : Response}
    (hc : beginCharge db card = .ok (some c)) (hp : prepareCharge2 card params = .ok (s, e))
    (hr : env.answer = some r) (happroved : r.response = some "1") :
    Booked db (chargeCents2 db card cents params env).1 c (Numbers.div cents 100) amount r ↔
      (if s = none ∧ e = none then some env.today else s).map env.inZone = some env.zoneToday ∧
        Numbers.float (Numbers.div cents 100) = some amount := by
  have hsub := customerId_newSubscription card c (Numbers.div cents 100) params s e env r
  rw [← startDate_newSubscription card c (Numbers.div cents 100) params s e env r]
  cases hk : Numbers.float (Numbers.div cents 100) with
  | none =>
      -- nothing is stored
      simp only [chargeCents2, hc, hp, hr, hk]
      refine iff_of_false ?_ (by simp)
      rintro ⟨_, t, ht, _⟩
      simp at ht
  | some kept =>
      by_cases hstart : (newSubscription card c (Numbers.div cents 100) params s e env r).startDate
          = some env.zoneToday
      · simp only [chargeCents2, hc, hp, hr, hk, hstart, if_true, true_and, Option.some.injEq]
        constructor
        · rintro ⟨_, t, ht, _, _, hamount, _⟩
          rw [Table.rows_insert] at ht
          rw [← List.singleton_inj.mp (List.append_cancel_left ht)] at hamount
          exact Option.some.inj hamount
        · rintro rfl
          refine ⟨⟨_, Table.rows_insert _ _, hsub⟩, _, Table.rows_insert _ _, rfl, ?_, rfl, rfl⟩
          simp only [Record.withKey, saleRow, happroved]
          decide +kernel
      · simp only [chargeCents2, hc, hp, hr, hk, hstart, if_false, false_and, iff_false]
        rintro ⟨_, t, ht, _⟩
        -- the transactions table is as it was
        simp at ht

/-- **An approved charge on the books.** For every parameter map the
action accepts and whose subscription starts today (the start date is
blank or is today in the configured zone), when the gateway approves the
charge: exactly one subscription and one transaction are stored for it,
exactly when the column of the amount gives back what was asked for, and
either the start date was given and is read back as itself, or both dates
are blank and the server's date is read back as the date in the
configured zone. -/
theorem nmi_charge_booked_iff [Numbers] (read : String → Option Date) (db : Db)
    (card : CreditCard) (p : BillParams) (env : ChargeEnv) (c : Customer) (r : Response)
    (haccepted : p.accepted = true)
    (htoday : presentOpt p.startDate = false ∨
      dateParam read p.startDate = .date env.zoneToday)
    (hanswer : Answered read db card p env c r) (happroved : r.response = some "1") :
    Booked db (billSubscriptionNmi read db card p env).1 c p.charged p.amountF r ↔
      Numbers.float p.charged = some p.amountF ∧
        if presentOpt p.startDate then env.inZone env.zoneToday = env.zoneToday
        else presentOpt p.endDate = false ∧ env.inZone env.today = env.zoneToday := by
  obtain ⟨s, e, hp, hs, he⟩ := prepareCharge2_ok hanswer.prepared
  simp only [BillParams.accepted, Bool.and_eq_true, Bool.not_eq_true', decide_eq_true_eq]
    at haccepted
  have hbill : billSubscriptionNmi read db card p env
      = chargeCents2 db card (Numbers.mul p.amountF 100) (p.toCharge read) env := by
    simp [billSubscriptionNmi, haccepted.1, haccepted.2]
  have hbooked := booked_iff_startDate (Numbers.mul p.amountF 100) p.amountF hanswer.customer hp
    hanswer.answer happroved
  rw [hbill, BillParams.charged, hbooked, and_comm]
  refine and_congr Iff.rfl ?_
  simp only [BillParams.toCharge] at hs he
  cases hps : presentOpt p.startDate with
  | true =>
      rw [hps] at htoday
      have hdate := htoday.resolve_left (by simp)
      rw [hdate] at hs
      obtain rfl : some env.zoneToday = s := by simpa [DateParam.toDate] using hs
      simp
  | false =>
      obtain rfl : none = s := by simpa [dateParam, hps, DateParam.toDate] using hs
      cases hpe : presentOpt p.endDate with
      | false =>
          obtain rfl : none = e := by simpa [dateParam, hpe, DateParam.toDate] using he
          simp
      | true =>
          have hsome : ∃ d, e = some d := by
            simp only [dateParam, hpe, if_true] at he
            cases hread : read (p.endDate.getD "") with
            | none => simp [hread, DateParam.toDate] at he
            | some d =>
                refine ⟨d, ?_⟩
                simpa [hread, DateParam.toDate] using he.symm
          obtain ⟨d, rfl⟩ := hsome
          simp

/-! ## Two forms -/

section
attribute [local instance] Numbers.exact

/-- A customer, a merchant account and a gateway to log in with. -/
def shop : Db :=
  { Db.empty with
    customers := Table.empty.insert Customer.new
    merchantAccounts := Table.empty.insert
      { id := 0, merchantName := none, isDefault := true }
    gateways := Table.empty.insert
      { id := 0, loginId := some "login", password := some "secret", transactionKey := none,
        merchantName := none, isDefault := true } }

def shopCard : CreditCard where
  id := 1
  customerId := 1
  number := some "4111111111111111"
  month := some 1
  year := some 2030
  firstName := some "Ann"
  lastName := some "Lee"
  phone := none
  address := some ⟨some "1 Main St", some "Austin", some "TX", some "78701"⟩

/-- The gateway approves on the first of June, in both zones, which are
the same. -/
def approvedInJune : ChargeEnv where
  today := ⟨2016, 6, 1⟩
  zoneToday := ⟨2016, 6, 1⟩
  inZone := id
  answer := some
    { response := some "1", responsetext := some "SUCCESS", authcode := some "123456",
      transactionid := some "281719471", subscriptionId := some "2636861515" }

/-- `String#to_date` on the two texts the forms below post. -/
def readDate (s : String) : Option Date :=
  if s = "2016-06-01" then some ⟨2016, 6, 1⟩
  else if s = "2016-12-31" then some ⟨2016, 12, 31⟩
  else none

/-- A form with these dates and a fixed number of dollars. -/
def datesForm (startDate endDate : Option String) : BillParams where
  amount := some "45.00"
  startDate := startDate
  endDate := endDate
  occurances := none
  interval := some "1"
  period := some "Month"
  noEndDate := some "false"

theorem answered_datesForm {startDate endDate : Option String} {r : Response}
    (hr : approvedInJune.answer = some r)
    (hp : (prepareCharge2 shopCard
      ((datesForm startDate endDate).toCharge readDate)).isOk = true) :
    Answered readDate shop shopCard (datesForm startDate endDate) approvedInJune
      { Customer.new with id := 1 } r :=
  ⟨by decide +kernel, hp, hr⟩

theorem nmi_charge_booked_given_start : ∃ r, approvedInJune.answer = some r ∧
    Booked shop (billSubscriptionNmi readDate shop shopCard
      (datesForm (some "2016-06-01") (some "2016-12-31")) approvedInJune).1
      { Customer.new with id := 1 } 45 45 r := by
  refine ⟨_, rfl, ?_⟩
  have hamount : (datesForm (some "2016-06-01") (some "2016-12-31")).amountF = 45 := by
    decide +kernel
  have hcharged : (datesForm (some "2016-06-01") (some "2016-12-31")).charged = 45 := by
    decide +kernel
  have hbooked := (nmi_charge_booked_iff readDate shop shopCard
    (datesForm (some "2016-06-01") (some "2016-12-31")) approvedInJune _ _
    (by decide +kernel) (.inr (by decide +kernel))
    (answered_datesForm rfl (by decide +kernel)) rfl).mpr ⟨by decide +kernel, by decide +kernel⟩
  rwa [hamount, hcharged] at hbooked

/-- The start date is left blank and an end date is given: the approved
charge leaves a subscription and no transaction. -/
theorem nmi_charge_not_booked_blank_start : ∃ r,
    (datesForm none (some "2016-12-31")).accepted = true ∧
    Answered readDate shop shopCard (datesForm none (some "2016-12-31")) approvedInJune
      { Customer.new with id := 1 } r ∧
    r.response = some "1" ∧
    ¬ Booked shop (billSubscriptionNmi readDate shop shopCard
      (datesForm none (some "2016-12-31")) approvedInJune).1 { Customer.new with id := 1 }
      (datesForm none (some "2016-12-31")).charged
      (datesForm none (some "2016-12-31")).amountF r := by
  refine ⟨_, by decide +kernel, answered_datesForm rfl (by decide +kernel), rfl, ?_⟩
  rintro ⟨_, t, ht, _⟩
  have hnone : (billSubscriptionNmi readDate shop shopCard
      (datesForm none (some "2016-12-31")) approvedInJune).1.transactions.rows = [] := by
    decide +kernel
  rw [hnone] at ht
  simp at ht

end

end HomeWarranty.Nmi
