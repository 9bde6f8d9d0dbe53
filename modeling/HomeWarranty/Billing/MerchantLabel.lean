/-
HomeWarranty.Billing.MerchantLabel — which merchant a transaction is
labelled with, under every interleaving of charges, changes of the
gateways and notifications.

`CreditCard#charge_cents!` writes the gateway it goes through on the
CUSTOMER; the notification of the charge arrives later, in a request of
its own, and copies the gateway that stands on the customer by then. The
label of one charge therefore travels through a field that every other
charge of the same customer writes too.

A charge is a process of four steps, one for each access to the
database: the customer, the state, the gateway, and the write of the
stamp, after which the request goes out. `alone_chargeStep` says that the
four steps with nothing between them are `chargeCents`. Two things of
the write matter here. It is refused when the customer does not pass its
validations, and the charge goes on all the same; and it writes only
what differs from the object as it was LOADED, so that a gateway another
charge has stored in the meantime stays.

`charges_labelled` is the result: transactions carry the gateway of
their charge in every run in which each charge finds, or puts, its own
gateway on the customer and overwrites no other that is still waited
for.
-/
import HomeWarranty.Lib.Interleave
import HomeWarranty.Billing.SilentPostTheorems

namespace HomeWarranty.Billing

open Lib Ruby

/-! ## A charge, step by step -/

inductive Charge where
  /-- Called, nothing read yet. -/
  | start (card : CreditCard) (cents : ℚ)
  /-- The customer is loaded. -/
  | loaded (card : CreditCard) (cents : ℚ) (c : Customer)
  /-- Its state is looked up. -/
  | stateFound (card : CreditCard) (cents : ℚ) (c : Customer) (s : Option State)
  /-- The gateway is chosen. -/
  | selected (card : CreditCard) (cents : ℚ) (c : Customer) (g : Gateway)
  /-- The request went out through `g`; its notification is awaited. -/
  | sent (customerId : Nat) (g : Gateway) (req : PurchaseRequest)
  /-- The notification came and was saved under this key, if at all. -/
  | posted (g : Gateway) (row : Option Nat)
  /-- Nothing went out. -/
  | ended (e : Option RubyError)

/-- `update_attributes` of the stamp on the customer as it was loaded. -/
def saveStamp (db : Db) (c : Customer) (g : Gateway) : Db :=
  let merchant := some (if presentOpt g.merchantName then g.merchantName.getD "" else "")
  if c.valid db.customers then
    { db with
      customers := db.customers.update c.id
        (fun r => { r with
          merchantName := writeAttribute c.merchantName merchant r.merchantName
          gatewayId := writeAttribute c.gatewayId (some g.id) r.gatewayId })
        (fun _ => rfl) }
  else db

/-- The charge goes on with the default gateway, if there is one. -/
def withDefault (db : Db) (card : CreditCard) (cents : ℚ) (c : Customer) : Charge :=
  match defaultGateway db.gateways with
  | none => .ended none
  | some g => .selected card cents c g

/-- One step of a charge. -/
def chargeStep (db : Db) : Charge → Option (Db × Charge)
  | .start card cents =>
      match db.customers.find? card.customerId with
      | none => some (db, .ended (some .noMethodError))
      | some c => some (db, .loaded card cents c)
  | .loaded card cents c =>
      some (db, .stateFound card cents c (db.findStateByName c.state))
  | .stateFound card cents c none => some (db, withDefault db card cents c)
  | .stateFound card cents c (some s) =>
      match s.gatewayId with
      | none => some (db, withDefault db card cents c)
      | some g =>
          match db.gateways.find? g with
          | none => some (db, .ended (some .noMethodError))
          | some gateway => some (db, .selected card cents c gateway)
  | .selected card cents c g =>
      match credentials g with
      | .error e => some (saveStamp db c g, .ended (some e))
      | .ok (login, key) =>
          some (saveStamp db c g, .sent c.id g
            { login := login, transactionKey := key, cents := cents,
              card := card, orderId := orderId c.id, custId := orderId c.id })
  | .sent _ _ _ => none
  | .posted _ _ => none
  | .ended _ => none

/-- A charge that went out, or did not, as `chargeCents` reports it. -/
def Charge.outcome (customerId : Nat) : Charge → Except RubyError (Option PurchaseRequest) → Prop
  | .sent n _ req, r => n = customerId ∧ r = .ok (some req)
  | .ended none, r => r = .ok none
  | .ended (some e), r => r = .error e
  | _, _ => False

/-- Written right after loading, the stamp is the whole stamp. -/
theorem saveStamp_loaded {db : Db} {c : Customer} (g : Gateway)
    (h : db.customers.find? c.id = some c) : saveStamp db c g = stampGateway db c g := by
  cases hv : c.valid db.customers with
  | false => simp [saveStamp, stampGateway, hv]
  | true =>
      simp only [saveStamp, stampGateway, hv, if_true]
      refine congrArg (fun t => { db with customers := t }) (Table.update_congr _ ?_)
      intro r hr
      rw [h, Option.some.injEq] at hr
      subst hr
      simp

/-- A process that ends so has done what the charge does. -/
def EndsAsCharge (db : Db) (card : CreditCard) (cents : ℚ) (x : Db × Charge) : Prop :=
  x.1 = (chargeCents db card cents).1 ∧
    x.2.outcome card.customerId (chargeCents db card cents).2

/-- The last step, whichever gateway was chosen. -/
theorem alone_selected {db : Db} {card : CreditCard} {cents : ℚ} {c : Customer} {g : Gateway}
    (hc : db.customers.find? card.customerId = some c)
    (hg : selectGateway db c.state = .ok (some g)) :
    EndsAsCharge db card cents (alone chargeStep 1 db (.selected card cents c g)) := by
  have hid : c.id = card.customerId := Table.key_of_find? hc
  have hload : db.customers.find? c.id = some c := by rw [hid]; exact hc
  unfold EndsAsCharge
  cases hcr : credentials g with
  | error e =>
      simp [alone, chargeStep, chargeCents, hc, hg, hcr, saveStamp_loaded g hload,
        Charge.outcome]
  | ok lk =>
      simp [alone, chargeStep, chargeCents, hc, hg, hcr, saveStamp_loaded g hload,
        Charge.outcome, hid]

/-- The last step when the choice fell to the default gateway. -/
theorem alone_withDefault {db : Db} {card : CreditCard} {cents : ℚ} {c : Customer}
    (hc : db.customers.find? card.customerId = some c)
    (hsel : selectGateway db c.state = .ok (defaultGateway db.gateways)) :
    EndsAsCharge db card cents (alone chargeStep 1 db (withDefault db card cents c)) := by
  unfold withDefault
  cases hd : defaultGateway db.gateways with
  | none =>
      rw [hd] at hsel
      simp [EndsAsCharge, alone, chargeStep, chargeCents, hc, hsel, Charge.outcome]
  | some g => exact alone_selected hc (hsel.trans (by rw [hd]))

/-- **The process is the charge**: its four steps with nothing in between
are `chargeCents`. -/
theorem alone_chargeStep (db : Db) (card : CreditCard) (cents : ℚ) :
    EndsAsCharge db card cents (alone chargeStep 4 db (.start card cents)) := by
  cases hc : db.customers.find? card.customerId with
  | none => simp [EndsAsCharge, alone, chargeStep, chargeCents, hc, Charge.outcome]
  | some c =>
      rw [alone_succ (t := db) (q := .loaded card cents c) 3 (by simp [chargeStep, hc]),
        alone_succ (t := db) (q := .stateFound card cents c (db.findStateByName c.state)) 2 rfl]
      cases hs : db.findStateByName c.state with
      | none =>
          rw [alone_succ (t := db) (q := withDefault db card cents c) 1 rfl]
          exact alone_withDefault hc (by simp [selectGateway, hs])
      | some s =>
          cases hsg : s.gatewayId with
          | none =>
              rw [alone_succ (t := db) (q := withDefault db card cents c) 1
                (by simp [chargeStep, hsg])]
              exact alone_withDefault hc (by simp [selectGateway, hs, hsg])
          | some n =>
              cases hfind : db.gateways.find? n with
              | none =>
                  simp [EndsAsCharge, alone, chargeStep, chargeCents, hc, selectGateway, hs,
                    hsg, hfind, Charge.outcome]
              | some g =>
                  rw [alone_succ (t := db) (q := .selected card cents c g) 1
                    (by simp [chargeStep, hsg, hfind])]
                  exact alone_selected hc (by simp [selectGateway, hs, hsg, hfind])

/-! ## Charges, changes of the gateways and notifications -/

inductive LabelEvent where
  /-- Somebody charges a card. -/
  | begin (card : CreditCard) (cents : ℚ)
  /-- Charge `i` takes its next step. -/
  | step (i : Nat)
  /-- The notification of charge `i` arrives. -/
  | post (i : Nat) (p : SilentPost)
  /-- Staff change the states and the gateways. -/
  | configure (states : Table State) (gateways : Table Gateway)

/-- The notification of a request names the numbers the request was sent
with; everything else in it is up to the gateway. -/
def notificationOf (req : PurchaseRequest) (p : SilentPost) : SilentPost :=
  { p with xInvoiceNum := some req.orderId, xCustId := some req.custId }

def labelStep (s : Sys Db Charge) : LabelEvent → Sys Db Charge
  | .begin card cents => { s with procs := s.procs ++ [.start card cents] }
  | .step i => s.stepAt chargeStep i
  | .post i p =>
      match s.procs[i]? with
      | some (.sent _ g req) =>
          let out := authorizeSilentPost s.shared (notificationOf req p)
          { shared := out.1, procs := s.procs.set i (.posted g (out.2.map Transaction.id)) }
      | _ => s
  | .configure states gateways =>
      { s with shared := { s.shared with states := states, gateways := gateways } }

/-- Nobody has been charged yet. -/
def noCharges (db : Db) : Sys Db Charge := { shared := db, procs := [] }

/-- The row saved for a charge carries the gateway of the charge. -/
def RowLabelled (db : Db) : Charge → Prop
  | .posted g (some k) =>
      ∃ t, db.transactions.find? k = some t ∧ t.gatewayId = some g.id
  | _ => True

/-- Every transaction of a charge is labelled with the gateway the
charge went through. -/
def Labelled (s : Sys Db Charge) : Prop := ∀ q ∈ s.procs, RowLabelled s.shared q

/-! ## The condition -/

/-- The stamp reaches the row: the object is valid and its gateway, as
loaded, is another one. -/
def Stamps (db : Db) (c : Customer) (g : Gateway) : Prop :=
  c.valid db.customers = true ∧ c.gatewayId ≠ some g.id

instance (db : Db) (c : Customer) (g : Gateway) : Decidable (Stamps db c g) :=
  inferInstanceAs (Decidable (_ ∧ _))

/-- The row of the customer already carries the gateway. -/
def Carries (db : Db) (n : Nat) (g : Gateway) : Prop :=
  (db.customers.find? n).map Customer.gatewayId = some (some g.id)

instance (db : Db) (n : Nat) (g : Gateway) : Decidable (Carries db n g) :=
  inferInstanceAs (Decidable (_ = _))

/-- A charge whose notification is still awaited for this customer went
through the same gateway. -/
def AwaitsSame (n : Nat) (g : Gateway) : Charge → Prop
  | .sent m g' _ => m = n → g'.id = g.id
  | _ => True

instance (n : Nat) (g : Gateway) : ∀ q, Decidable (AwaitsSame n g q)
  | .sent m g' _ => inferInstanceAs (Decidable (m = n → g'.id = g.id))
  | .start _ _ | .loaded _ _ _ | .stateFound _ _ _ _ | .selected _ _ _ _ | .posted _ _
  | .ended _ => inferInstanceAs (Decidable True)

/-- When a charge writes its stamp: the request that follows needs the
stamp to reach the row or to stand there already, and a stamp that
reaches the row must not replace the gateway of a charge that is still
awaited. -/
def StampOk (s : Sys Db Charge) : Charge → Prop
  | .selected _ _ c g =>
      ((credentials g).isOk = true → Stamps s.shared c g ∨ Carries s.shared c.id g) ∧
        (Stamps s.shared c g → ∀ q ∈ s.procs, AwaitsSame c.id g q)
  | _ => True

instance (s : Sys Db Charge) : ∀ q, Decidable (StampOk s q)
  | .selected _ _ c g =>
      inferInstanceAs (Decidable
        (((credentials g).isOk = true → Stamps s.shared c g ∨ Carries s.shared c.id g) ∧
          (Stamps s.shared c g → ∀ q ∈ s.procs, AwaitsSame c.id g q)))
  | .start _ _ | .loaded _ _ _ | .stateFound _ _ _ _ | .sent _ _ _ | .posted _ _
  | .ended _ => inferInstanceAs (Decidable True)

/-- The condition on one event. -/
def LabelOk (s : Sys Db Charge) : LabelEvent → Prop
  | .step i => ∀ q ∈ s.procs[i]?, StampOk s q
  | _ => True

instance (s : Sys Db Charge) : ∀ e, Decidable (LabelOk s e)
  | .step i => inferInstanceAs (Decidable (∀ q ∈ s.procs[i]?, StampOk s q))
  | .begin _ _ | .post _ _ | .configure _ _ => inferInstanceAs (Decidable True)

/-! ## What a run keeps -/

/-- What is known of a charge at each of its stages. -/
def Charge.Kept (db : Db) : Charge → Prop
  | .loaded _ _ c | .stateFound _ _ c _ | .selected _ _ c _ =>
      ∃ r, db.customers.find? c.id = some r
  | .sent n g req => req.orderId = orderId n ∧ Carries db n g
  | .posted g row => RowLabelled db (.posted g row)
  | .start _ _ | .ended _ => True

/-- A change of the database that keeps the customers, or writes to one
of them a gateway nobody else waits for, and keeps the gateways of the
transactions. -/
theorem Charge.Kept.frame {db db' : Db} {q : Charge} (h : q.Kept db)
    (hrow : ∀ n, (∃ r, db.customers.find? n = some r) → ∃ r, db'.customers.find? n = some r)
    (hsent : ∀ n g req, q = .sent n g req → Carries db n g → Carries db' n g)
    (htrans : ∀ k t, db.transactions.find? k = some t →
      ∃ t', db'.transactions.find? k = some t' ∧ t'.gatewayId = t.gatewayId) :
    q.Kept db' := by
  cases q with
  | start card cents => trivial
  | loaded card cents c => exact hrow c.id h
  | stateFound card cents c s => exact hrow c.id h
  | selected card cents c g => exact hrow c.id h
  | sent n g req => exact ⟨h.1, hsent n g req rfl h.2⟩
  | posted g row =>
      cases row with
      | none => trivial
      | some k =>
          obtain ⟨t, ht, hg⟩ := h
          obtain ⟨t', ht', hg'⟩ := htrans k t ht
          exact ⟨t', ht', hg'.trans hg⟩
  | ended e => trivial

theorem customers_saveStamp_find? (db : Db) (c : Customer) (g : Gateway) (n : Nat) :
    ((saveStamp db c g).customers.find? n).map Customer.gatewayId
      = if n = c.id ∧ Stamps db c g then (db.customers.find? n).map (fun _ => some g.id)
        else (db.customers.find? n).map Customer.gatewayId := by
  unfold saveStamp Stamps
  by_cases hv : c.valid db.customers = true
  · simp only [hv, if_true, true_and]
    rw [Table.find?_update]
    by_cases hn : n = c.id
    · by_cases hg : c.gatewayId = some g.id
      · simp [hn, hg, writeAttribute, Function.comp_def]
      · have hne : ¬ some g.id = c.gatewayId := fun h => hg h.symm
        simp [hn, hg, hne, writeAttribute, Function.comp_def]
    · simp [hn]
  · simp [hv]

/-- A stamp keeps what is known of every charge that does not wait for
another gateway. -/
theorem kept_saveStamp {db : Db} {c : Customer} {g : Gateway} {q : Charge}
    (hq : Stamps db c g → AwaitsSame c.id g q) (h : q.Kept db) :
    q.Kept (saveStamp db c g) := by
  have hfind := customers_saveStamp_find? db c g
  refine h.frame ?_ ?_ ?_
  · intro n hn
    obtain ⟨r, hr⟩ := hn
    have := hfind n
    rw [hr] at this
    cases hs : (saveStamp db c g).customers.find? n with
    | none =>
        rw [hs] at this
        split at this <;> simp at this
    | some r' => exact ⟨r', rfl⟩
  · intro n g' req hsent hcarries
    unfold Carries at hcarries ⊢
    rw [hfind n]
    split
    · rename_i hn
      -- the stamp is written over the same gateway
      have hsame := hq hn.2
      rw [hsent] at hsame
      obtain ⟨r, hr, _⟩ := Option.map_eq_some_iff.mp hcarries
      simp [hr, hsame hn.1]
    · exact hcarries
  · intro k t ht
    refine ⟨t, ?_, rfl⟩
    cases hv : c.valid db.customers with
    | true => simpa [saveStamp, hv] using ht
    | false => simpa [saveStamp, hv] using ht

theorem transactions_markVoided {db : Db} {p : SilentPost} {k : Nat} {t : Transaction}
    (h : db.transactions.find? k = some t) :
    ∃ t', (markVoided db p).transactions.find? k = some t' ∧ t'.gatewayId = t.gatewayId := by
  unfold markVoided
  split
  · unfold Table.updateFirst
    cases hf : db.transactions.firstWhere (hasTransactionId p) with
    | none => exact ⟨t, h, rfl⟩
    | some r =>
        simp only [Table.find?_update, h]
        split
        · exact ⟨_, rfl, rfl⟩
        · exact ⟨t, rfl, rfl⟩
  · exact ⟨t, h, rfl⟩

theorem customers_markVoided (db : Db) (p : SilentPost) :
    (markVoided db p).customers = db.customers := by
  unfold markVoided
  split <;> rfl

/-- A notification keeps what is known of every charge. -/
theorem kept_authorizeSilentPost {db : Db} {q : Charge} (p : SilentPost) (h : q.Kept db) :
    q.Kept (authorizeSilentPost db p).1 := by
  have hcust : (authorizeSilentPost db p).1.customers = db.customers := by
    unfold authorizeSilentPost
    split
    · rfl
    · split
      · rfl
      · exact customers_markVoided db p
  refine h.frame ?_ ?_ ?_
  · intro n hn
    rw [hcust]
    exact hn
  · intro n g req _ hcarries
    unfold Carries at hcarries ⊢
    rw [hcust]
    exact hcarries
  · intro k t ht
    unfold authorizeSilentPost
    split
    · exact ⟨t, ht, rfl⟩
    · split
      · exact ⟨t, ht, rfl⟩
      · obtain ⟨t', ht', hg⟩ := transactions_markVoided (p := p) ht
        exact ⟨t', Table.find?_insert_of_find? ht' _, hg⟩

/-- The row saved for a customer with a gateway carries that gateway. -/
theorem rowLabelled_of_carries {db : Db} {p : SilentPost} {n : Nat} {g : Gateway}
    (hn : p.xInvoiceNum = some (orderId n)) (h : Carries db n g) :
    RowLabelled (authorizeSilentPost db p).1
      (.posted g ((authorizeSilentPost db p).2.map Transaction.id)) := by
  obtain ⟨r, hr, hg⟩ := Option.map_eq_some_iff.mp h
  have hfind : findByContract db p.xInvoiceNum = some r := by
    rw [hn]
    simp only [findByContract]
    rw [withContractNumber_orderId, hr]
  have hded := deduceCustomer_of_invoice hfind
  unfold authorizeSilentPost
  split
  · trivial
  · split
    · trivial
    · refine ⟨_, Table.find?_insert_new _ _, ?_⟩
      rw [hded]
      simp [Record.withKey, assignCustomer, hg]

/-- The step that stamps and sends. -/
theorem kept_selected {db db' : Db} {card : CreditCard} {cents : ℚ} {c : Customer}
    {g : Gateway} {q : Charge} (hrow : ∃ r, db.customers.find? c.id = some r)
    (hok : (credentials g).isOk = true → Stamps db c g ∨ Carries db c.id g)
    (hs : chargeStep db (.selected card cents c g) = some (db', q)) :
    db' = saveStamp db c g ∧ q.Kept db' := by
  unfold chargeStep at hs
  cases hcr : credentials g with
  | error e =>
      simp only [hcr, Option.some.injEq, Prod.mk.injEq] at hs
      obtain ⟨rfl, rfl⟩ := hs
      exact ⟨rfl, trivial⟩
  | ok lk =>
      simp only [hcr, Option.some.injEq, Prod.mk.injEq] at hs
      obtain ⟨rfl, rfl⟩ := hs
      refine ⟨rfl, rfl, ?_⟩
      obtain ⟨r, hr⟩ := hrow
      unfold Carries
      rw [customers_saveStamp_find?]
      rcases hok (by rw [hcr]; rfl) with hstamps | hcarries
      · simp [hstamps, hr]
      · split
        · simp [hr]
        · exact hcarries

/-- Every other step only reads. -/
theorem kept_reads {db db' : Db} {p q : Charge} (hp : p.Kept db)
    (hsel : ∀ card cents c g, p ≠ .selected card cents c g)
    (hs : chargeStep db p = some (db', q)) : db' = db ∧ q.Kept db := by
  have hdefault : ∀ card cents c, (∃ r, db.customers.find? c.id = some r) →
      (withDefault db card cents c).Kept db := by
    intro card cents c hrow
    unfold withDefault
    cases defaultGateway db.gateways with
    | none => trivial
    | some g => exact hrow
  cases p with
  | start card cents =>
      cases hc : db.customers.find? card.customerId with
      | none =>
          simp only [chargeStep, hc, Option.some.injEq, Prod.mk.injEq] at hs
          obtain ⟨rfl, rfl⟩ := hs
          exact ⟨rfl, trivial⟩
      | some c =>
          simp only [chargeStep, hc, Option.some.injEq, Prod.mk.injEq] at hs
          obtain ⟨rfl, rfl⟩ := hs
          exact ⟨rfl, c, Table.find?_key _ (Table.mem_of_find? hc)⟩
  | loaded card cents c =>
      simp only [chargeStep, Option.some.injEq, Prod.mk.injEq] at hs
      obtain ⟨rfl, rfl⟩ := hs
      exact ⟨rfl, hp⟩
  | stateFound card cents c s =>
      cases s with
      | none =>
          simp only [chargeStep, Option.some.injEq, Prod.mk.injEq] at hs
          obtain ⟨rfl, rfl⟩ := hs
          exact ⟨rfl, hdefault card cents c hp⟩
      | some s =>
          cases hg : s.gatewayId with
          | none =>
              simp only [chargeStep, hg, Option.some.injEq, Prod.mk.injEq] at hs
              obtain ⟨rfl, rfl⟩ := hs
              exact ⟨rfl, hdefault card cents c hp⟩
          | some n =>
              cases hf : db.gateways.find? n with
              | none =>
                  simp only [chargeStep, hg, hf, Option.some.injEq, Prod.mk.injEq] at hs
                  obtain ⟨rfl, rfl⟩ := hs
                  exact ⟨rfl, trivial⟩
              | some g =>
                  simp only [chargeStep, hg, hf, Option.some.injEq, Prod.mk.injEq] at hs
                  obtain ⟨rfl, rfl⟩ := hs
                  exact ⟨rfl, hp⟩
  | selected card cents c g => exact absurd rfl (hsel card cents c g)
  | sent n g req => simp [chargeStep] at hs
  | posted g row => simp [chargeStep] at hs
  | ended e => simp [chargeStep] at hs

/-- What is known of every charge. -/
def AllKept (s : Sys Db Charge) : Prop := ∀ q ∈ s.procs, q.Kept s.shared

/-- The run lemma's step. -/
theorem allKept_labelStep {s : Sys Db Charge} {e : LabelEvent} (h : AllKept s)
    (hok : LabelOk s e) : AllKept (labelStep s e) := by
  cases e with
  | begin card cents =>
      intro q hq
      rcases List.mem_append.mp hq with hq | hq
      · exact h q hq
      · rw [List.mem_singleton.mp hq]
        trivial
  | step i =>
      rcases Sys.stepAt_cases chargeStep s i with hs | ⟨p, db', p', hp, hs, heq⟩
      · simp only [labelStep, hs]
        exact h
      · have hpk := h p (List.mem_of_getElem? hp)
        have hstep : p'.Kept db' ∧ ∀ q ∈ s.procs, q.Kept db' := by
          by_cases hsel : ∃ card cents c g, p = .selected card cents c g
          · obtain ⟨card, cents, c, g, rfl⟩ := hsel
            have hst : StampOk s (.selected card cents c g) := hok _ hp
            obtain ⟨rfl, hp'⟩ := kept_selected hpk hst.1 hs
            exact ⟨hp', fun q hq => kept_saveStamp (fun hw => hst.2 hw q hq) (h q hq)⟩
          · push Not at hsel
            obtain ⟨rfl, hp'⟩ := kept_reads hpk hsel hs
            exact ⟨hp', h⟩
        simp only [labelStep, heq]
        intro q hq
        rcases List.mem_or_eq_of_mem_set hq with hq | rfl
        · exact hstep.2 q hq
        · exact hstep.1
  | post i p =>
      cases hi : s.procs[i]? with
      | none => simpa only [labelStep, hi] using h
      | some c =>
          cases c with
          | sent n g req =>
              simp only [labelStep, hi]
              obtain ⟨hreq, hcarries⟩ := h _ (List.mem_of_getElem? hi)
              intro q hq
              rcases List.mem_or_eq_of_mem_set hq with hq | rfl
              · exact kept_authorizeSilentPost _ (h q hq)
              · refine rowLabelled_of_carries (n := n) ?_ hcarries
                simp [notificationOf, hreq]
          | start _ _ | loaded _ _ _ | stateFound _ _ _ _ | selected _ _ _ _ | posted _ _
          | ended _ => simpa only [labelStep, hi] using h
  | configure states gateways =>
      intro q hq
      refine (h q hq).frame (fun n hn => hn) (fun n g req _ hc => hc) ?_
      exact fun k t ht => ⟨t, ht, rfl⟩

theorem labelled_of_allKept {s : Sys Db Charge} (h : AllKept s) : Labelled s := by
  intro q hq
  cases q with
  | posted g row => exact h _ hq
  | start _ _ | loaded _ _ _ | stateFound _ _ _ _ | selected _ _ _ _ | sent _ _ _
  | ended _ => trivial

/-- **Merchant labelling.** In every interleaving of charges, changes of
the gateways and notifications in which each stamp meets its condition,
in every state on the way, the transaction saved for a charge carries
the gateway through which that charge was made. -/
theorem charges_labelled (db : Db) (es : List LabelEvent)
    (hok : StepsOk labelStep LabelOk (noCharges db) es) (k : Nat) :
    Labelled (run labelStep (noCharges db) (es.take k)) := by
  refine labelled_of_allKept ?_
  refine run_invariant_of_steps AllKept (fun s e h he => allKept_labelStep h he)
    (es.take k) (noCharges db) (hok.first k) ?_
  intro q hq
  cases hq

/-- One customer, and one default gateway. -/
def oneGateway : Db :=
  { Db.empty with
    customers := Table.empty.insert
      { Customer.new with
        firstName := some "Ann", lastName := some "Lee", customerPhone := some "2125550100",
        email := some "ann@example.com" }
    gateways := Table.empty.insert
      { id := 0, loginId := some "login1", password := none, transactionKey := some "key1",
        merchantName := some "First", isDefault := true } }

/-- Staff add a second gateway and make it the default one. -/
def newDefault : LabelEvent :=
  .configure Table.empty
    ((oneGateway.gateways.update 1 (fun g => { g with isDefault := false })
      (fun _ => rfl)).insert
      { id := 0, loginId := some "login2", password := none, transactionKey := some "key2",
        merchantName := some "Second", isDefault := true })

def annsCard : CreditCard where
  id := 1
  customerId := 1
  number := some "4111111111111111"
  month := some 1
  year := some 2030
  firstName := some "Ann"
  lastName := some "Lee"
  phone := none
  address := none

/-- Charge `i` from its call to its request. -/
def wholeCharge (i : Nat) : List LabelEvent :=
  [.begin annsCard 4500, .step i, .step i, .step i, .step i]

/-- The notification of a sale, but for the contract number. -/
def saleNotice : SilentPost where
  xTestRequest := none
  xTransId := some "7"
  xInvoiceNum := none
  xCustId := none
  xSubscriptionId := none
  xEmail := none
  xResponseReasonCode := some "1"
  xResponseReasonText := none
  xAuthCode := none
  xAmount := some "45.00"
  xSubscriptionPaynum := none
  xType := some "auth_capture"

/-- Each notification arrives before the gateway changes. -/
def chargesInTurn : List LabelEvent :=
  wholeCharge 0 ++ [.post 0 saleNotice, newDefault] ++ wholeCharge 1 ++ [.post 1 saleNotice]

theorem charges_labelled_in_turn :
    StepsOk labelStep LabelOk (noCharges oneGateway) chargesInTurn ∧
      Labelled (run labelStep (noCharges oneGateway) (chargesInTurn.take 13)) := by
  have hok : StepsOk labelStep LabelOk (noCharges oneGateway) chargesInTurn := by
    decide +kernel
  exact ⟨hok, charges_labelled oneGateway chargesInTurn hok 13⟩

/-- The notification of the first charge arrives after the second
charge. -/
def chargesCrossed : List LabelEvent :=
  wholeCharge 0 ++ [newDefault] ++ wholeCharge 1 ++ [.post 0 saleNotice]

/-- The first charge went through gateway 1; its transaction says 2. -/
theorem charge_labelled_with_another_gateway :
    ¬ Labelled (run labelStep (noCharges oneGateway) chargesCrossed) := by
  intro h
  have hrow : (run labelStep (noCharges oneGateway) chargesCrossed).procs.any
      (fun q => match q with
        | .posted g (some k) =>
            g.id == 1 && ((run labelStep (noCharges oneGateway)
              chargesCrossed).shared.transactions.find? k).map Transaction.gatewayId
                == some (some 2)
        | _ => false) = true := by decide +kernel
  obtain ⟨q, hq, hbad⟩ := List.any_eq_true.mp hrow
  have hl := h q hq
  cases q with
  | posted g row =>
      cases row with
      | none => simp at hbad
      | some k =>
          obtain ⟨t, ht, hg⟩ := hl
          simp [ht, hg] at hbad
          omega
  | start _ _ | loaded _ _ _ | stateFound _ _ _ _ | selected _ _ _ _ | sent _ _ _
  | ended _ => simp at hbad

end HomeWarranty.Billing
