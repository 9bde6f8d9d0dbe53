/-
HomeWarranty.Site.BillingTheorems — what purchases do, alone and
together.

`BillingMove` says once what a step can do; the facts about runs are
derived from it.

* Together: nothing a request looks at is changed by another one in a
  way that stops it, so a request that would be approved on its own is
  approved in every interleaving. `double_billing_iff`: a customer is
  billed at most once under every schedule exactly when at most one of
  the requests would be approved.
* Alone: the plan is charged as it was STORED and written as it was
  POSTED, and the renewal has what its FLOAT column keeps of the amount.
  `plan_recorded_iff` says for which stored and posted plans these agree
  at the end of the request.
-/
import HomeWarranty.Site.Billing

namespace HomeWarranty.Site

open Lib Ruby Billing

/-! ## One step -/

/-- Everything one step can do. -/
inductive BillingMove [Numbers] (shop : Shop) (p : BillingProc) : Shop → BillingPc → Prop where
  | giveUp : BillingMove shop p shop (.finished false)
  | load {c : Customer} (hpc : p.pc = .start) (hc : loadCustomer shop.db p.req = some c) :
      BillingMove shop p shop (.loaded c)
  | noGateway {c : Customer} {params : PlanParams} {a : Address} (hpc : p.pc = .loaded c) :
      BillingMove shop p { shop with db := writeBilling shop.db c params a } (.finished false)
  | prepare {c : Customer} {params : PlanParams} {a : Address} (hpc : p.pc = .loaded c)
      (hparams : p.req.customer = some params) (ha : p.req.billingAddress = some a)
      (hg : gatewayReady (writeBilling shop.db c params a) (withBilling c params a) = true) :
      BillingMove shop p { shop with db := writeBilling shop.db c params a }
        (.prepared (withBilling c params a))
  | profile {c : Customer} {x y : Option String} (hpc : p.pc = .prepared c)
      (hxy : p.env.profiles = some (x, y)) (hdate : p.req.date.isSome = true) :
      BillingMove shop p shop (.profiled c x y)
  | charge {c : Customer} {x y subscriptionId : Option String} (hpc : p.pc = .profiled c x y)
      (hxy : (presentOpt x && presentOpt y) = true)
      (hans : p.env.answer = .approved subscriptionId) :
      BillingMove shop p
        { shop with recurrings := shop.recurrings ++ [recurringOf c p.env.answer] }
        (.charged c subscriptionId)
  | decline {c : Customer} {x y : Option String} (hpc : p.pc = .profiled c x y)
      (hans : (recurringOf c p.env.answer).created = false) :
      BillingMove shop p
        { shop with recurrings := shop.recurrings ++ [recurringOf c p.env.answer] }
        (.finished false)
  | record {c : Customer} {subscriptionId : Option String} {hash : String}
      {date : String × String} (hpc : p.pc = .charged c subscriptionId)
      (hhash : p.env.cardHash = some hash) (hdate : p.req.date = some date) :
      BillingMove shop p { shop with db := writeSubscription shop.db c subscriptionId hash date }
        (.recorded (withSubscription c subscriptionId hash date))
  | renew {c : Customer} {kept : ℚ} (hpc : p.pc = .recorded c)
      (hkept : Numbers.float (PayAmount.toF c.payAmount) = some kept) :
      BillingMove shop p { shop with db := writeRenewal shop.db c kept p.req p.env } (.renewed c)
  | account {c : Customer} (hpc : p.pc = .renewed c) :
      BillingMove shop p { shop with db := writeAccount shop.db c p.req p.env } (.accounted c)
  | mail {c : Customer} (hpc : p.pc = .accounted c) (hmail : p.env.mailed = true) :
      BillingMove shop p shop (.mailed c)
  | plan {c : Customer} {params : PlanParams} (hpc : p.pc = .mailed c)
      (hparams : p.req.customer = some params) :
      BillingMove shop p { shop with db := writePlan shop.db c params }
        (.finished p.env.cardStored)

theorem billingMove_of_step [Numbers] {shop shop' : Shop} {p p' : BillingProc}
    (h : billingStep shop p = some (shop', p')) :
    ∃ pc, p' = p.goto pc ∧ BillingMove shop p shop' pc := by
  unfold billingStep at h
  cases hpc : p.pc with
  | start =>
      simp only [hpc] at h
      cases hc : loadCustomer shop.db p.req with
      | none =>
          simp only [hc] at h
          cases h
          exact ⟨_, rfl, .giveUp⟩
      | some c =>
          simp only [hc] at h
          cases h
          exact ⟨_, rfl, .load hpc hc⟩
  | loaded c =>
      simp only [hpc] at h
      split at h
      · rename_i params a hparams ha
        split at h
        · rename_i hg
          cases h
          exact ⟨_, rfl, .prepare hpc hparams ha hg⟩
        · cases h
          exact ⟨_, rfl, .noGateway hpc⟩
      · cases h
        exact ⟨_, rfl, .giveUp⟩
  | prepared c =>
      simp only [hpc] at h
      split at h
      · rename_i x y date hxy hdate
        cases h
        exact ⟨_, rfl, .profile hpc hxy (by rw [hdate]; rfl)⟩
      · cases h
        exact ⟨_, rfl, .giveUp⟩
  | profiled c x y =>
      simp only [hpc] at h
      split at h
      · rename_i hxy
        cases hans : p.env.answer with
        | approved subscriptionId =>
            simp only [hans] at h
            cases h
            exact ⟨_, rfl, hans ▸ .charge hpc hxy hans⟩
        | declined =>
            simp only [hans] at h
            cases h
            exact ⟨_, rfl, hans ▸ .decline hpc (by rw [hans]; rfl)⟩
        | raised =>
            simp only [hans] at h
            cases h
            exact ⟨_, rfl, hans ▸ .decline hpc (by rw [hans]; rfl)⟩
      · cases h
        exact ⟨_, rfl, .giveUp⟩
  | charged c subscriptionId =>
      simp only [hpc] at h
      split at h
      · rename_i hash date hhash hdate
        cases h
        exact ⟨_, rfl, .record hpc hhash hdate⟩
      · cases h
        exact ⟨_, rfl, .giveUp⟩
  | recorded c =>
      simp only [hpc] at h
      split at h
      · rename_i kept hkept
        cases h
        exact ⟨_, rfl, .renew hpc hkept⟩
      · cases h
        exact ⟨_, rfl, .giveUp⟩
  | renewed c =>
      simp only [hpc] at h
      cases h
      exact ⟨_, rfl, .account hpc⟩
  | accounted c =>
      simp only [hpc] at h
      split at h
      · rename_i hmail
        cases h
        exact ⟨_, rfl, .mail hpc hmail⟩
      · cases h
        exact ⟨_, rfl, .giveUp⟩
  | mailed c =>
      simp only [hpc] at h
      split at h
      · rename_i params hparams
        cases h
        exact ⟨_, rfl, .plan hpc hparams⟩
      · cases h
        exact ⟨_, rfl, .giveUp⟩
  | finished b => simp [hpc] at h

/-! ## Requests together: what they look at -/

/-- The request would be approved, were it alone: its customer is there
with a number of payments, it is a complete POST, there is a gateway, and
the gateway creates the profiles and approves. -/
def approvable [Numbers] (db : Db) (req : BillingRequest) (env : BillingEnv) : Bool :=
  match loadCustomer db req with
  | none => false
  | some c =>
      req.customer.isSome && req.billingAddress.isSome && gatewayReady db c
        && req.date.isSome
        && (match env.profiles with
            | some (x, y) => presentOpt x && presentOpt y
            | none => false)
        && (recurringOf c env.answer).created

/-- What `db` shows to a request it already showed in `db₀`. -/
structure GuardsFrom (db₀ db : Db) : Prop where
  fold : db.fold = db₀.fold
  states : db.states = db₀.states
  gateways : db.gateways = db₀.gateways
  customers : ∀ id c, db.customers.find? id = some c →
    ∃ c₀, db₀.customers.find? id = some c₀ ∧ c₀.properties = c.properties ∧
      (c.numPayments.isSome = true → c₀.numPayments.isSome = true)

theorem GuardsFrom.refl (db : Db) : GuardsFrom db db :=
  ⟨rfl, rfl, rfl, fun _ c hc => ⟨c, hc, rfl, fun h => h⟩⟩

theorem state_congr {c d : Customer} (h : c.properties = d.properties) :
    c.state = d.state := by
  unfold Customer.state
  rw [h]

/-- The gateway depends on the state alone, and on tables no request
writes. -/
theorem gatewayReady_congr {db₀ db : Db} (h : GuardsFrom db₀ db) {c d : Customer}
    (hcd : c.properties = d.properties) : gatewayReady db c = gatewayReady db₀ d := by
  unfold gatewayReady selectGateway Db.findStateByName
  rw [h.fold, h.states, h.gateways, state_congr hcd]

/-- An update that keeps the properties, and the number of payments of a
customer who had none. -/
theorem GuardsFrom.update {db₀ db : Db} (h : GuardsFrom db₀ db) {k : Nat}
    {f : Customer → Customer} {hf : ∀ r, Record.key (f r) = Record.key r}
    (hprop : ∀ r, (f r).properties = r.properties)
    (hnum : (∀ r, (f r).numPayments = r.numPayments) ∨
      ∃ c₀, db₀.customers.find? k = some c₀ ∧ c₀.numPayments.isSome = true) :
    GuardsFrom db₀ { db with customers := db.customers.update k f hf } where
  fold := h.fold
  states := h.states
  gateways := h.gateways
  customers := by
    intro id c hc
    simp only [Table.find?_update] at hc
    split at hc
    · rename_i hid
      subst hid
      obtain ⟨r, hr, rfl⟩ := Option.map_eq_some_iff.mp hc
      obtain ⟨c₀, hc₀, hp, hn⟩ := h.customers id r hr
      refine ⟨c₀, hc₀, hp.trans (hprop r).symm, fun hsome => ?_⟩
      rcases hnum with hnum | ⟨c₁, hc₁, hn₁⟩
      · exact hn (by rw [← hnum r]; exact hsome)
      · rw [hc₀] at hc₁
        cases hc₁
        exact hn₁
    · exact h.customers id c hc

theorem GuardsFrom.writeBilling {db₀ db : Db} (h : GuardsFrom db₀ db) (c : Customer)
    (params : PlanParams) (a : Address) : GuardsFrom db₀ (writeBilling db c params a) :=
  h.update (fun _ => rfl) (Or.inl fun _ => rfl)

/-- The request carries the cookie of `c`, and `c` was there with a
number of payments from the beginning. -/
def Started (db₀ : Db) (p : BillingProc) (c : Customer) : Prop :=
  p.req.customerCookie = some c.id ∧ p.req.isPost = true ∧
    ∃ c₀, db₀.customers.find? c.id = some c₀ ∧ c₀.properties = c.properties ∧
      c₀.numPayments.isSome = true

/-- The request is past the gateway's login. -/
def Ready (db₀ : Db) (p : BillingProc) (c : Customer) : Prop :=
  p.req.customer.isSome = true ∧ p.req.billingAddress.isSome = true ∧
    gatewayReady db₀ c = true

/-- What the place a request has reached says about it. -/
def Traced [Numbers] (db₀ : Db) (p : BillingProc) : Prop :=
  match p.pc with
  | .start => True
  | .loaded c => Started db₀ p c
  | .prepared c => Started db₀ p c ∧ Ready db₀ p c
  | .profiled c x y => Started db₀ p c ∧ Ready db₀ p c ∧ p.req.date.isSome = true ∧
      p.env.profiles = some (x, y)
  | .charged c _ => Started db₀ p c ∧ approvable db₀ p.req p.env = true
  | .recorded c => Started db₀ p c ∧ approvable db₀ p.req p.env = true
  | .renewed c => Started db₀ p c
  | .accounted c => Started db₀ p c
  | .mailed c => Started db₀ p c
  | .finished _ => True

theorem started_of_load {db₀ db : Db} (h : GuardsFrom db₀ db) {p : BillingProc} {c : Customer}
    (hc : loadCustomer db p.req = some c) : Started db₀ p c := by
  unfold loadCustomer at hc
  cases hid : p.req.customerCookie with
  | none => simp [hid] at hc
  | some id =>
      cases hf : db.customers.find? id with
      | none => simp [hid, hf] at hc
      | some c' =>
          simp only [hid, hf, Option.ite_none_right_eq_some, Option.some.injEq,
            Bool.and_eq_true] at hc
          obtain ⟨⟨hn, hpost⟩, rfl⟩ := hc
          have hkey : c'.id = id := Table.key_of_find? hf
          obtain ⟨c₀, hc₀, hp, hn₀⟩ := h.customers id c' hf
          exact ⟨by rw [hid, hkey], hpost, c₀, by rw [hkey]; exact hc₀, hp, hn₀ hn⟩

/-- A request whose customer was there is loaded from the beginning. -/
theorem loadCustomer_of_started {db₀ : Db} {p : BillingProc} {c : Customer}
    (h : Started db₀ p c) :
    ∃ c₀, loadCustomer db₀ p.req = some c₀ ∧ c₀.properties = c.properties := by
  obtain ⟨hid, hpost, c₀, hc₀, hp, hn⟩ := h
  exact ⟨c₀, by simp [loadCustomer, hid, hc₀, hn, hpost], hp⟩

/-- A request that is about to be charged would have been approved. -/
theorem approvable_of_charge [Numbers] {db₀ : Db} {p : BillingProc} {c : Customer}
    {x y subscriptionId : Option String} (hpc : p.pc = .profiled c x y)
    (hp : Traced db₀ p) (hxy : (presentOpt x && presentOpt y) = true)
    (hans : p.env.answer = .approved subscriptionId) :
    Started db₀ p c ∧ approvable db₀ p.req p.env = true := by
  simp only [Traced, hpc] at hp
  obtain ⟨hstart, ⟨hcust, haddr, hgate⟩, hdate, hprof⟩ := hp
  obtain ⟨c₀, hload, hprop⟩ := loadCustomer_of_started hstart
  have hg : gatewayReady db₀ c₀ = true :=
    (gatewayReady_congr (GuardsFrom.refl db₀) hprop).trans hgate
  refine ⟨hstart, ?_⟩
  simp only [approvable, hload, hcust, haddr, hg, hdate, hprof, hxy, recurringOf, hans]
  rfl

/-- Steps keep what requests look at, and where they stand keeps saying
what it says. -/
theorem traced_step [Numbers] {db₀ : Db} {shop shop' : Shop} {p p' : BillingProc}
    (hg : GuardsFrom db₀ shop.db) (hp : Traced db₀ p)
    (h : billingStep shop p = some (shop', p')) :
    GuardsFrom db₀ shop'.db ∧ Traced db₀ p' := by
  obtain ⟨pc, rfl, hmove⟩ := billingMove_of_step h
  cases hmove with
  | giveUp => exact ⟨hg, trivial⟩
  | load hpc hc => exact ⟨hg, started_of_load hg hc⟩
  | noGateway hpc => exact ⟨hg.writeBilling _ _ _, trivial⟩
  | @prepare c params a hpc hparams ha hready =>
      have hg' := hg.writeBilling c params a
      simp only [Traced, hpc] at hp
      refine ⟨hg', hp, ?_, ?_, ?_⟩
      · simp [BillingProc.goto, hparams]
      · simp [BillingProc.goto, ha]
      · rw [← gatewayReady_congr hg' rfl]
        exact hready
  | profile hpc hxy hdate =>
      simp only [Traced, hpc] at hp
      exact ⟨hg, hp.1, hp.2, hdate, hxy⟩
  | charge hpc hxy hans =>
      have happ := approvable_of_charge hpc hp hxy hans
      exact ⟨hg, happ⟩
  | decline hpc hans => exact ⟨hg, trivial⟩
  | @record c subscriptionId hash date hpc hhash hdate =>
      simp only [Traced, hpc] at hp
      refine ⟨?_, hp⟩
      show GuardsFrom db₀ (writeSubscription shop.db c subscriptionId hash date)
      unfold writeSubscription
      split
      · exact hg.update (fun _ => rfl) (Or.inl fun _ => rfl)
      · exact hg
  | renew hpc =>
      simp only [Traced, hpc] at hp
      exact ⟨⟨hg.fold, hg.states, hg.gateways, hg.customers⟩, hp.1⟩
  | @account c hpc =>
      simp only [Traced, hpc] at hp
      refine ⟨?_, hp⟩
      show GuardsFrom db₀ (writeAccount shop.db c p.req p.env)
      unfold writeAccount
      split
      · exact ⟨hg.fold, hg.states, hg.gateways, hg.customers⟩
      · exact hg
  | mail hpc hmail =>
      simp only [Traced, hpc] at hp
      exact ⟨hg, hp⟩
  | @plan c params hpc hparams =>
      simp only [Traced, hpc] at hp
      refine ⟨?_, trivial⟩
      obtain ⟨_, _, c₀, hc₀, _, hn⟩ := hp
      show GuardsFrom db₀ (writePlan shop.db c params)
      unfold writePlan
      split
      · exact hg.update (fun _ => rfl) (Or.inr ⟨c₀, hc₀, hn⟩)
      · exact hg

/-! ## Requests together: how often they bill -/

/-- How far a request has come. -/
def BillingPc.rank : BillingPc → Nat
  | .start => 0
  | .loaded _ => 1
  | .prepared _ => 2
  | .profiled .. => 3
  | .charged .. => 4
  | .recorded _ => 5
  | .renewed _ => 6
  | .accounted _ => 7
  | .mailed _ => 8
  | .finished _ => 9

/-- Subscriptions created at the gateway for customer `n`. -/
def subscriptionsOf (n : Nat) (shop : Shop) : Nat :=
  shop.recurrings.countP (fun r => r.created && r.customerId == n)

/-- Renewal rows of customer `n`. -/
def renewalsOf (n : Nat) (db : Db) : Nat :=
  db.renewals.rows.countP (fun r => r.customerId == n)

/-- The request is for customer `n` and would be approved. -/
def approvableFor [Numbers] (db : Db) (n : Nat) (req : BillingRequest) (env : BillingEnv) : Bool :=
  req.customerCookie == some n && approvable db req env

/-- What a request may still add for customer `n` before it reaches
place `k`. -/
def holds [Numbers] (db₀ : Db) (n k : Nat) (p : BillingProc) : Nat :=
  if p.pc.rank < k && approvableFor db₀ n p.req p.env then 1 else 0

theorem holds_goto_le [Numbers] (db₀ : Db) (n k : Nat) {p : BillingProc} {pc : BillingPc}
    (h : p.pc.rank ≤ pc.rank) : holds db₀ n k (p.goto pc) ≤ holds db₀ n k p := by
  unfold holds BillingProc.goto
  by_cases hk : pc.rank < k
  · have : p.pc.rank < k := by omega
    simp [hk, this]
  · simp [hk]

theorem BillingMove.rank_le [Numbers] {shop shop' : Shop} {p : BillingProc} {pc : BillingPc}
    (h : BillingMove shop p shop' pc) : p.pc.rank ≤ pc.rank := by
  have h9 : ∀ q : BillingPc, q.rank ≤ 9 := by
    intro q
    cases q <;> simp [BillingPc.rank]
  cases h with
  | giveUp => exact h9 _
  | load hpc hc => simp [hpc, BillingPc.rank]
  | noGateway hpc => exact h9 _
  | prepare hpc => simp [hpc, BillingPc.rank]
  | profile hpc => simp [hpc, BillingPc.rank]
  | charge hpc => simp [hpc, BillingPc.rank]
  | decline hpc => exact h9 _
  | record hpc => simp [hpc, BillingPc.rank]
  | renew hpc => simp [hpc, BillingPc.rank]
  | account hpc => simp [hpc, BillingPc.rank]
  | mail hpc => simp [hpc, BillingPc.rank]
  | plan hpc => exact h9 _

/-- The step lemma for subscriptions: the charge adds one, and only for a
request that held one. -/
theorem subscriptions_step [Numbers] {db₀ : Db} {shop shop' : Shop} {p p' : BillingProc} (n : Nat)
    (hp : Traced db₀ p) (h : billingStep shop p = some (shop', p')) :
    subscriptionsOf n shop' + holds db₀ n 4 p' ≤ subscriptionsOf n shop + holds db₀ n 4 p := by
  obtain ⟨pc, rfl, hmove⟩ := billingMove_of_step h
  have hle := holds_goto_le db₀ n 4 hmove.rank_le
  cases hmove with
  | @charge c x y subscriptionId hpc hxy hans =>
      obtain ⟨⟨hid, _⟩, happ⟩ := approvable_of_charge hpc hp hxy hans
      have hafter : holds db₀ n 4 (p.goto (.charged c subscriptionId)) = 0 := rfl
      rw [hafter]
      by_cases hn : c.id = n
      · have hbefore : holds db₀ n 4 p = 1 := by
          simp [holds, hpc, BillingPc.rank, approvableFor, hid, hn, happ]
        rw [hbefore]
        simp [subscriptionsOf, List.countP_append, recurringOf, hans, hn]
      · simp [subscriptionsOf, List.countP_append, recurringOf, hn]
  | @decline c x y hpc hans =>
      have hsame : subscriptionsOf n
          { shop with recurrings := shop.recurrings ++ [recurringOf c p.env.answer] }
            = subscriptionsOf n shop := by
        simp [subscriptionsOf, List.countP_append, hans]
      rw [hsame]
      exact Nat.add_le_add_left hle _
  | giveUp => exact Nat.add_le_add_left hle _
  | load => exact Nat.add_le_add_left hle _
  | noGateway => exact Nat.add_le_add_left hle _
  | prepare => exact Nat.add_le_add_left hle _
  | profile => exact Nat.add_le_add_left hle _
  | record => exact Nat.add_le_add_left hle _
  | renew => exact Nat.add_le_add_left hle _
  | account => exact Nat.add_le_add_left hle _
  | mail => exact Nat.add_le_add_left hle _
  | plan => exact Nat.add_le_add_left hle _

theorem renewals_writeSubscription (db : Db) (c : Customer) (subscriptionId : Option String)
    (hash : String) (date : String × String) :
    (writeSubscription db c subscriptionId hash date).renewals = db.renewals := by
  unfold writeSubscription
  split <;> rfl

theorem renewals_writeAccount (db : Db) (c : Customer) (req : BillingRequest)
    (env : BillingEnv) : (writeAccount db c req env).renewals = db.renewals := by
  unfold writeAccount
  split <;> rfl

theorem renewals_writePlan [Numbers] (db : Db) (c : Customer) (params : PlanParams) :
    (writePlan db c params).renewals = db.renewals := by
  unfold writePlan
  split <;> rfl

/-- The step lemma for renewals. -/
theorem renewals_step [Numbers] {db₀ : Db} {shop shop' : Shop} {p p' : BillingProc} (n : Nat)
    (hp : Traced db₀ p) (h : billingStep shop p = some (shop', p')) :
    renewalsOf n shop'.db + holds db₀ n 6 p' ≤ renewalsOf n shop.db + holds db₀ n 6 p := by
  obtain ⟨pc, rfl, hmove⟩ := billingMove_of_step h
  have hle := holds_goto_le db₀ n 6 hmove.rank_le
  cases hmove with
  | @renew c kept hpc hkept =>
      simp only [Traced, hpc] at hp
      obtain ⟨⟨hid, _⟩, happ⟩ := hp
      have hafter : holds db₀ n 6 (p.goto (.renewed c)) = 0 := rfl
      rw [hafter]
      by_cases hn : c.id = n
      · have hbefore : holds db₀ n 6 p = 1 := by
          simp [holds, hpc, BillingPc.rank, approvableFor, hid, hn, happ]
        rw [hbefore]
        simp [renewalsOf, writeRenewal, List.countP_append, newRenewal, Record.withKey, hn]
      · simp [renewalsOf, writeRenewal, List.countP_append, newRenewal, Record.withKey, hn]
  | record =>
      simp only [renewalsOf, renewals_writeSubscription]
      exact Nat.add_le_add_left hle _
  | account =>
      simp only [renewalsOf, renewals_writeAccount]
      exact Nat.add_le_add_left hle _
  | plan =>
      simp only [renewalsOf, renewals_writePlan]
      exact Nat.add_le_add_left hle _
  | giveUp => exact Nat.add_le_add_left hle _
  | load => exact Nat.add_le_add_left hle _
  | noGateway => exact Nat.add_le_add_left hle _
  | prepare => exact Nat.add_le_add_left hle _
  | profile => exact Nat.add_le_add_left hle _
  | charge => exact Nat.add_le_add_left hle _
  | decline => exact Nat.add_le_add_left hle _
  | mail => exact Nat.add_le_add_left hle _

/-- The requests, none of which has begun, before any subscription. -/
def billingSys (db : Db) (reqs : List (BillingRequest × BillingEnv)) : Sys Shop BillingProc :=
  ⟨⟨db, []⟩, reqs.map fun r => BillingProc.begin r.1 r.2⟩

/-- The requests for customer `n` that would be approved. -/
def approvableCount [Numbers] (db : Db) (n : Nat) (reqs : List (BillingRequest × BillingEnv)) :
    Nat :=
  reqs.countP fun r => approvableFor db n r.1 r.2

theorem sum_holds [Numbers] (db : Db) (n k : Nat) (hk : 0 < k)
    (reqs : List (BillingRequest × BillingEnv)) :
    (((billingSys db reqs).procs).map (holds db n k)).sum = approvableCount db n reqs := by
  induction reqs with
  | nil => rfl
  | cons r reqs ih =>
      simp only [billingSys, List.map_cons, List.sum_cons] at ih ⊢
      rw [ih, approvableCount, approvableCount, List.countP_cons]
      have hrank : BillingPc.start.rank < k := hk
      cases happ : approvableFor db n r.1 r.2 with
      | true =>
          have hone : holds db n k (BillingProc.begin r.1 r.2) = 1 := by
            simp [holds, hrank, BillingProc.begin, happ]
          rw [hone]
          simp [Nat.add_comm]
      | false =>
          have hnone : holds db n k (BillingProc.begin r.1 r.2) = 0 := by
            simp [holds, BillingProc.begin, happ]
          rw [hnone]
          simp

/-- The run lemma: under every schedule, no more subscriptions and no
more renewals than requests that would be approved. -/
theorem billed_le [Numbers] (db : Db) (n : Nat) (reqs : List (BillingRequest × BillingEnv))
    (schedule : List Nat) :
    subscriptionsOf n ((billingSys db reqs).exec billingStep schedule).shared
      ≤ approvableCount db n reqs ∧
    renewalsOf n ((billingSys db reqs).exec billingStep schedule).shared.db
      ≤ renewalsOf n db + approvableCount db n reqs := by
  have hinv : ∀ (s : Shop) (p : BillingProc) (s' : Shop) (p' : BillingProc),
      GuardsFrom db s.db → Traced db p → billingStep s p = some (s', p') →
      GuardsFrom db s'.db ∧ Traced db p' ∧ ∀ r, Traced db r → Traced db r :=
    fun s p s' p' hg hp h => ⟨(traced_step hg hp h).1, (traced_step hg hp h).2, fun _ hr => hr⟩
  have hstart : GuardsFrom db (billingSys db reqs).shared.db ∧
      ∀ p ∈ (billingSys db reqs).procs, Traced db p := by
    refine ⟨GuardsFrom.refl db, fun p hp => ?_⟩
    obtain ⟨r, _, rfl⟩ := List.mem_map.mp hp
    trivial
  have hsubs := Sys.exec_le (q := subscriptionsOf n) (c := holds db n 4) hinv
    (fun s p s' p' _ hp h => subscriptions_step n hp h) (billingSys db reqs) schedule hstart
  have hrens := Sys.exec_le (q := fun s => renewalsOf n s.db) (c := holds db n 6) hinv
    (fun s p s' p' _ hp h => renewals_step n hp h) (billingSys db reqs) schedule hstart
  rw [sum_holds db n 4 (by omega)] at hsubs
  rw [sum_holds db n 6 (by omega)] at hrens
  exact ⟨by simpa [billingSys, subscriptionsOf] using hsubs, hrens⟩

/-! ## Requests together: two that would be approved -/

theorem approvable_iff [Numbers] {db : Db} {req : BillingRequest} {env : BillingEnv} :
    approvable db req env = true ↔
      ∃ c params a date x y subscriptionId, loadCustomer db req = some c ∧
        req.customer = some params ∧ req.billingAddress = some a ∧
        gatewayReady db c = true ∧ req.date = some date ∧ env.profiles = some (x, y) ∧
        (presentOpt x && presentOpt y) = true ∧ env.answer = .approved subscriptionId := by
  constructor
  · intro h
    unfold approvable at h
    cases hc : loadCustomer db req with
    | none => simp [hc] at h
    | some c =>
        simp only [hc, Bool.and_eq_true, Option.isSome_iff_exists] at h
        obtain ⟨⟨⟨⟨⟨⟨params, hparams⟩, a, ha⟩, hg⟩, date, hdate⟩, hprof⟩, hans⟩ := h
        cases hxy : env.profiles with
        | none => simp [hxy] at hprof
        | some xy =>
            cases hA : env.answer with
            | approved subscriptionId =>
                exact ⟨c, params, a, date, xy.1, xy.2, subscriptionId, rfl, hparams, ha, hg,
                  hdate, rfl, by simpa [hxy] using hprof, rfl⟩
            | declined => simp [recurringOf, hA] at hans
            | raised => simp [recurringOf, hA] at hans
  · intro ⟨c, params, a, date, x, y, subscriptionId, hc, hparams, ha, hg, hdate, hxy, hp, hans⟩
    simp [approvable, hc, hparams, ha, hg, hdate, hxy, hp, hans, recurringOf]

theorem loadCustomer_writeBilling {db : Db} {req : BillingRequest} {d : Customer}
    (h : loadCustomer db req = some d) (c : Customer) (params : PlanParams) (a : Address) :
    ∃ d', loadCustomer (writeBilling db c params a) req = some d' ∧
      d'.properties = d.properties := by
  unfold loadCustomer at h ⊢
  cases hid : req.customerCookie with
  | none => simp [hid] at h
  | some id =>
      cases hf : db.customers.find? id with
      | none => simp [hid, hf] at h
      | some r =>
          simp only [hid, hf, Option.ite_none_right_eq_some, Option.some.injEq] at h
          obtain ⟨hok, rfl⟩ := h
          simp only [writeBilling, Table.find?_update, hf, Option.map_some]
          split
          · rename_i hsome
            split at hsome
            · cases hsome
            · cases hsome
          · rename_i r' hsome
            split at hsome
            · cases hsome
              refine ⟨_, if_pos hok, ?_⟩
              rfl
            · cases hsome
              exact ⟨_, if_pos hok, rfl⟩

/-- Writing a billing name stops no other request. -/
theorem approvable_writeBilling [Numbers] {db : Db} {req : BillingRequest} {env : BillingEnv}
    (h : approvable db req env = true) (c : Customer) (params : PlanParams) (a : Address) :
    approvable (writeBilling db c params a) req env = true := by
  obtain ⟨d, q, b, date, x, y, subscriptionId, hd, hq, hb, hg, rest⟩ := approvable_iff.mp h
  obtain ⟨d', hd', hprop⟩ := loadCustomer_writeBilling hd c params a
  have hguards := (GuardsFrom.refl db).writeBilling c params a
  exact approvable_iff.mpr ⟨d', q, b, date, x, y, subscriptionId, hd', hq, hb,
    (gatewayReady_congr hguards hprop).trans hg, rest⟩

/-- The customer object a request that is on its way to its charge
carries, and what it has written. -/
theorem alone_charge [Numbers] {shop : Shop} {req : BillingRequest} {env : BillingEnv}
    (happ : approvable shop.db req env = true) :
    ∃ c params a date subscriptionId, loadCustomer shop.db req = some c ∧
      req.customer = some params ∧ req.date = some date ∧
      env.answer = .approved subscriptionId ∧
      ∀ k, alone billingStep (k + 4) shop (BillingProc.begin req env) =
        alone billingStep k
          { db := writeBilling shop.db c params a
            recurrings := shop.recurrings ++ [recurringOf (withBilling c params a) env.answer] }
          ((BillingProc.begin req env).goto
            (.charged (withBilling c params a) subscriptionId)) := by
  obtain ⟨c, params, a, date, x, y, subscriptionId, hc, hparams, ha, hg, hdate, hxy, hp, hans⟩ :=
    approvable_iff.mp happ
  have hg' : gatewayReady (writeBilling shop.db c params a) (withBilling c params a) = true :=
    (gatewayReady_congr ((GuardsFrom.refl shop.db).writeBilling c params a) rfl).trans hg
  refine ⟨c, params, a, date, subscriptionId, hc, hparams, hdate, hans, fun k => ?_⟩
  rw [alone_succ (k + 3) (t := shop) (q := (BillingProc.begin req env).goto (.loaded c))
    (by simp [billingStep, BillingProc.begin, hc])]
  rw [alone_succ (k + 2) (t := ⟨writeBilling shop.db c params a, shop.recurrings⟩)
    (q := (BillingProc.begin req env).goto (.prepared (withBilling c params a)))
    (by simp [billingStep, BillingProc.begin, BillingProc.goto, hparams, ha, hg'])]
  rw [alone_succ (k + 1) (t := ⟨writeBilling shop.db c params a, shop.recurrings⟩)
    (q := (BillingProc.begin req env).goto (.profiled (withBilling c params a) x y))
    (by simp [billingStep, BillingProc.begin, BillingProc.goto, hxy, hdate])]
  rw [alone_succ k
    (t := ⟨writeBilling shop.db c params a,
      shop.recurrings ++ [recurringOf (withBilling c params a) env.answer]⟩)
    (q := (BillingProc.begin req env).goto
      (.charged (withBilling c params a) subscriptionId))
    (by simp [billingStep, BillingProc.begin, BillingProc.goto, hp, hans])]

/-- The charge of a request that runs without interruption. -/
theorem exec_charge [Numbers] {sys : Sys Shop BillingProc} {i n : Nat} {req : BillingRequest}
    {env : BillingEnv} (hi : sys.procs[i]? = some (BillingProc.begin req env))
    (happ : approvableFor sys.shared.db n req env = true) :
    ∃ p', (sys.exec billingStep (List.replicate 4 i)).procs = sys.procs.set i p' ∧
      subscriptionsOf n (sys.exec billingStep (List.replicate 4 i)).shared
        = subscriptionsOf n sys.shared + 1 ∧
      ∀ req' env', approvableFor sys.shared.db n req' env' = true →
        approvableFor (sys.exec billingStep (List.replicate 4 i)).shared.db n req' env'
          = true := by
  simp only [approvableFor, Bool.and_eq_true, beq_iff_eq] at happ ⊢
  obtain ⟨hcookie, happ⟩ := happ
  obtain ⟨c, params, a, _, subscriptionId, hc, _, _, hans, halone⟩ := alone_charge happ
  have hid : c.id = n := by
    have := (started_of_load (p := BillingProc.begin req env)
      (GuardsFrom.refl sys.shared.db) hc).1
    rw [show (BillingProc.begin req env).req.customerCookie = some n from hcookie] at this
    exact (Option.some.inj this).symm
  rw [Sys.exec_replicate billingStep 4 sys i _ hi, halone 0]
  refine ⟨_, rfl, ?_, fun req' env' h => ⟨h.1, approvable_writeBilling h.2 c params a⟩⟩
  simp [alone, subscriptionsOf, List.countP_append, recurringOf, withBilling, hid, hans]

theorem exists_two_of_countP {α : Type} {p : α → Bool} {l : List α} (h : 2 ≤ l.countP p) :
    ∃ (i j : Nat) (a b : α), i ≠ j ∧ l[i]? = some a ∧ l[j]? = some b ∧
      p a = true ∧ p b = true := by
  induction l with
  | nil => simp at h
  | cons x l ih =>
      rw [List.countP_cons] at h
      by_cases hx : p x = true
      · -- the head is one of the two; the other is in the tail
        rw [if_pos hx] at h
        have hpos : 0 < l.countP p := by omega
        obtain ⟨b, hb, hpb⟩ := List.countP_pos_iff.mp hpos
        obtain ⟨j, hj⟩ := List.mem_iff_getElem?.mp hb
        exact ⟨0, j + 1, x, b, by omega, rfl, by simpa using hj, hx, hpb⟩
      · obtain ⟨i, j, a, b, hij, ha, hb, hpa, hpb⟩ := ih (by simpa [hx] using h)
        exact ⟨i + 1, j + 1, a, b, by omega, by simpa using ha, by simpa using hb, hpa, hpb⟩

/-- Under every schedule, at most one subscription is created at the
gateway for customer `n`, and at most one renewal row. -/
def NoDoubleBilling [Numbers] (db : Db) (n : Nat) (reqs : List (BillingRequest × BillingEnv)) :
    Prop :=
  ∀ schedule : List Nat,
    subscriptionsOf n ((billingSys db reqs).exec billingStep schedule).shared ≤ 1 ∧
    renewalsOf n ((billingSys db reqs).exec billingStep schedule).shared.db
      ≤ renewalsOf n db + 1

/-- **Double billing.** For any number of requests with a customer's
cookie: every interleaving of them bills the customer at most once if and
only if at most one of them would be approved on its own. -/
theorem double_billing_iff [Numbers] (db : Db) (n : Nat)
    (reqs : List (BillingRequest × BillingEnv)) :
    NoDoubleBilling db n reqs ↔ approvableCount db n reqs ≤ 1 := by
  constructor
  · intro h
    by_contra hcount
    have htwo : 2 ≤ reqs.countP fun r => approvableFor db n r.1 r.2 :=
      Nat.lt_of_not_le hcount
    obtain ⟨i, j, a, b, hij, ha, hb, happa, happb⟩ := exists_two_of_countP htwo
    -- one of the two runs up to its charge, then the other does
    have hi : (billingSys db reqs).procs[i]? = some (BillingProc.begin a.1 a.2) := by
      simp [billingSys, ha]
    obtain ⟨p', hprocs, hsubs, hkeep⟩ := exec_charge hi happa
    have hj : ((billingSys db reqs).exec billingStep (List.replicate 4 i)).procs[j]?
        = some (BillingProc.begin b.1 b.2) := by
      rw [hprocs, List.getElem?_set_ne hij]
      simp [billingSys, hb]
    obtain ⟨_, _, hsubs', _⟩ := exec_charge hj (hkeep b.1 b.2 happb)
    have hone := (h (List.replicate 4 i ++ List.replicate 4 j)).1
    rw [Sys.exec, run_append] at hone
    change subscriptionsOf n (((billingSys db reqs).exec billingStep
      (List.replicate 4 i)).exec billingStep (List.replicate 4 j)).shared ≤ 1 at hone
    have hnone : subscriptionsOf n (billingSys db reqs).shared = 0 := rfl
    omega
  · intro hcount schedule
    obtain ⟨hsubs, hrens⟩ := billed_le db n reqs schedule
    exact ⟨by omega, by omega⟩

/-- One quoted customer, with the amount and the number of payments the
plan page left, and one gateway. -/
def quoted (payAmount : PayAmount) (numPayments : Int) : Db :=
  { Db.empty with
    customers := Table.empty.insert
      { Customer.new with
        firstName := some "Ann"
        lastName := some "Lee"
        customerPhone := some "555"
        email := some "ann@example.com"
        payAmount := some payAmount
        numPayments := some numPayments }
    gateways := Table.empty.insert
      { id := 0, loginId := some "shop", password := none, transactionKey := some "key",
        merchantName := none, isDefault := true } }

/-- A purchase by the first customer. -/
def purchase (payAmount numPayments : String) : BillingRequest where
  isPost := true
  customerCookie := some 1
  affiliateCookie := false
  customer := some ⟨some payAmount, some numPayments, some "Ann", some "Lee"⟩
  billingAddress := some ⟨some "1 Main St", some "Newark", some "NJ", some "07101"⟩
  date := some ("1", "2030")
  creditCardNumber := some "4111111111111111"
  contractLength := some "1"
  remoteIp := "10.0.0.1"

/-- A gateway that approves, and everything else in order. -/
def smooth : BillingEnv where
  profiles := some (some "11", some "22")
  answer := .approved (some "33")
  cardHash := some "hash"
  startDate := ⟨2016, 5, 8⟩
  passwordHash := "password"
  mailed := true
  cardStored := true

section
attribute [local instance] Numbers.exact

/-- A form submitted twice: two subscriptions. -/
theorem double_submit_bills_twice :
    ¬ NoDoubleBilling (quoted (.float 500) 1) 1
      [(purchase "500" "1", smooth), (purchase "500" "1", smooth)] := by
  intro h
  have := (h [0, 0, 0, 0, 1, 1, 1, 1]).1
  revert this
  decide +kernel

end

/-! ## One request alone: the plan -/

/-- The plan of a customer row. -/
def planRow (db : Db) (n : Nat) : Option (Option PayAmount × Option Int) :=
  (db.customers.find? n).map fun c => (c.payAmount, c.numPayments)

theorem planRow_update {db : Db} {k n : Nat} {f : Customer → Customer}
    {hf : ∀ r, Record.key (f r) = Record.key r} (ha : ∀ r, (f r).payAmount = r.payAmount)
    (hn : ∀ r, (f r).numPayments = r.numPayments) :
    planRow { db with customers := db.customers.update k f hf } n = planRow db n := by
  simp only [planRow, Table.find?_update]
  split
  · rw [Option.map_map]
    congr 1
    funext r
    simp [ha, hn]
  · rfl

theorem planRow_writeBilling (db : Db) (c : Customer) (params : PlanParams) (a : Address)
    (n : Nat) : planRow (writeBilling db c params a) n = planRow db n :=
  planRow_update (fun _ => rfl) (fun _ => rfl)

theorem planRow_writeSubscription (db : Db) (c : Customer) (subscriptionId : Option String)
    (hash : String) (date : String × String) (n : Nat) :
    planRow (writeSubscription db c subscriptionId hash date) n = planRow db n := by
  unfold writeSubscription
  split
  · exact planRow_update (fun _ => rfl) (fun _ => rfl)
  · rfl

theorem planRow_writeAccount (db : Db) (c : Customer) (req : BillingRequest)
    (env : BillingEnv) (n : Nat) : planRow (writeAccount db c req env) n = planRow db n := by
  unfold writeAccount
  split <;> rfl

/-- Whether a customer is valid depends on the lead ids in the table. -/
theorem valid_update {t : Table Customer} {k : Nat} {f : Customer → Customer}
    {hf : ∀ r, Record.key (f r) = Record.key r} (hlead : ∀ r, (f r).leadid = r.leadid)
    (c : Customer) : c.valid (t.update k f hf) = c.valid t := by
  unfold Customer.valid
  have hid : ∀ r : Customer, (f r).id = r.id := hf
  have hany : (t.update k f hf).rows.any (fun r => r.leadid == c.leadid && r.id != c.id)
      = t.rows.any (fun r => r.leadid == c.leadid && r.id != c.id) := by
    rw [Table.rows_update, List.any_map]
    congr 1
    funext r
    simp only [Function.comp]
    split
    · rw [hlead, hid]
    · rfl
  rw [hany]

theorem valid_writeSubscription (db : Db) (c : Customer) (subscriptionId : Option String)
    (hash : String) (date : String × String) (d : Customer) :
    d.valid (writeSubscription db c subscriptionId hash date).customers
      = d.valid db.customers := by
  simp only [writeSubscription]
  split
  · rw [valid_update]
    intro r
    rfl
  · rfl

theorem customers_writeAccount (db : Db) (c : Customer) (req : BillingRequest)
    (env : BillingEnv) : (writeAccount db c req env).customers = db.customers := by
  unfold writeAccount
  split <;> rfl

/-- What is written between the charge and the mails. -/
def afterCharge (db : Db) (c : Customer) (kept : ℚ) (subscriptionId : Option String)
    (hash : String) (date : String × String) (req : BillingRequest) (env : BillingEnv) : Db :=
  let c' := withSubscription c subscriptionId hash date
  writeAccount (writeRenewal (writeSubscription db c subscriptionId hash date) c' kept req env)
    c' req env

/-- The database at the end of a request whose charge was approved: an
exception in the encryption, in the renewal or in the mails ends it
early. -/
def endOfCharge [Numbers] (db : Db) (c : Customer) (params : PlanParams)
    (subscriptionId : Option String)
    (date : String × String) (req : BillingRequest) (env : BillingEnv) : Db :=
  match env.cardHash with
  | none => db
  | some hash =>
      match Numbers.float (PayAmount.toF c.payAmount) with
      | none => writeSubscription db c subscriptionId hash date
      | some kept =>
          if env.mailed then
            writePlan (afterCharge db c kept subscriptionId hash date req env)
              (withSubscription c subscriptionId hash date) params
          else afterCharge db c kept subscriptionId hash date req env

theorem alone_after_charge [Numbers] {shop : Shop} {req : BillingRequest} {env : BillingEnv}
    {c : Customer} {params : PlanParams} {date : String × String}
    {subscriptionId : Option String} (hparams : req.customer = some params)
    (hdate : req.date = some date) :
    (alone billingStep 5 shop
        ((BillingProc.begin req env).goto (.charged c subscriptionId))).1 =
      { shop with db := endOfCharge shop.db c params subscriptionId date req env } := by
  unfold endOfCharge
  cases hh : env.cardHash with
  | none => simp [alone, billingStep, BillingProc.goto, BillingProc.begin, hh]
  | some hash =>
      have hpay : (withSubscription c subscriptionId hash date).payAmount = c.payAmount := rfl
      cases hkept : Numbers.float (PayAmount.toF c.payAmount) with
      | none =>
          simp [alone, billingStep, BillingProc.goto, BillingProc.begin, hh, hdate, hpay, hkept]
      | some kept =>
          cases hm : env.mailed with
          | false =>
              simp [alone, billingStep, BillingProc.goto, BillingProc.begin, hh, hdate, hpay,
                hkept, hm, afterCharge]
          | true =>
              simp [alone, billingStep, BillingProc.goto, BillingProc.begin, hh, hdate, hpay,
                hkept, hm, hparams, afterCharge]

theorem planRow_afterCharge (db : Db) (c : Customer) (kept : ℚ)
    (subscriptionId : Option String) (hash : String) (date : String × String)
    (req : BillingRequest) (env : BillingEnv) (n : Nat) :
    planRow (afterCharge db c kept subscriptionId hash date req env) n = planRow db n := by
  unfold afterCharge
  rw [planRow_writeAccount]
  exact planRow_writeSubscription db c subscriptionId hash date n

theorem valid_afterCharge (db : Db) (c : Customer) (kept : ℚ) (subscriptionId : Option String)
    (hash : String) (date : String × String) (req : BillingRequest) (env : BillingEnv)
    (d : Customer) :
    d.valid (afterCharge db c kept subscriptionId hash date req env).customers
      = d.valid db.customers := by
  unfold afterCharge
  rw [customers_writeAccount]
  exact valid_writeSubscription db c subscriptionId hash date d

/-- Nothing a request writes on its way makes its customer invalid. -/
theorem valid_afterCharge_billing (db : Db) (c : Customer) (params : PlanParams) (a : Address)
    (kept : ℚ) (subscriptionId : Option String) (hash : String) (date : String × String)
    (req : BillingRequest) (env : BillingEnv) :
    (withSubscription (withBilling c params a) subscriptionId hash date).valid
      (afterCharge (writeBilling db c params a) (withBilling c params a) kept subscriptionId
        hash date req env).customers = c.valid db.customers := by
  rw [valid_afterCharge]
  simp only [writeBilling]
  rw [valid_update]
  · rfl
  · intro r; rfl

/-- The renewals after the charge: one more. -/
theorem renewals_afterCharge (db : Db) (c : Customer) (kept : ℚ)
    (subscriptionId : Option String) (hash : String) (date : String × String)
    (req : BillingRequest) (env : BillingEnv) :
    (afterCharge db c kept subscriptionId hash date req env).renewals.rows =
      db.renewals.rows ++ [Record.withKey db.renewals.nextKey
        (newRenewal (withSubscription c subscriptionId hash date) kept req env)] := by
  unfold afterCharge
  rw [renewals_writeAccount]
  simp only [writeRenewal, renewals_writeSubscription, Table.rows_insert]

/-- The plan of the row after the final update: a posted text is kept as
far as its column holds it. -/
def writtenPlan [Numbers] (c : Customer) (p : PlanParams) : Option PayAmount × Option Int :=
  (if (planOf c p).1 = c.payAmount then c.payAmount else (planOf c p).1.map PayAmount.kept,
    (planOf c p).2)

/-- The final update, on a row that still holds the plan that was
loaded. -/
theorem planRow_writePlan [Numbers] {db : Db} {c : Customer} {params : PlanParams}
    (hrow : planRow db c.id = some (c.payAmount, c.numPayments))
    (hvalid : c.valid db.customers = true)
    (hstore : (planOf c params).2.map storeInt = (planOf c params).2) :
    planRow (writePlan db c params) c.id = some (writtenPlan c params) := by
  simp only [planRow, Option.map_eq_some_iff, Prod.mk.injEq] at hrow
  obtain ⟨r, hr, ha, hn⟩ := hrow
  simp only [planRow, writePlan, hvalid, if_true, Table.find?_update, hr, Option.map_some,
    Option.some.injEq]
  rw [ha, hn, hstore]
  refine Prod.ext rfl ?_
  show (if (planOf c params).2 = c.numPayments then c.numPayments else (planOf c params).2)
    = (planOf c params).2
  split
  · rename_i h; exact h.symm
  · rfl

/-- The subscription created for customer `n` is the plan stored at the
end of the request, up to the rounding to three decimals, and a renewal
created has the amount charged. -/
def PlanKept [Numbers] (shop : Shop) (req : BillingRequest) (env : BillingEnv) (n : Nat) : Prop :=
  ∃ r amount num,
    (billing shop req env).recurrings = shop.recurrings ++ [r] ∧ r.created = true ∧
    planRow (billing shop req env).db n = some (amount, num) ∧
    roundTo3 (r.cents / 100) = roundTo3 (PayAmount.toF amount) ∧
    num = some r.occurrences ∧
    ∀ w ∈ (billing shop req env).db.renewals.rows, w ∉ shop.db.renewals.rows →
      w.amount = r.cents / 100

/-- The renewal gets as far as its column, and the column keeps the
amount as it is. -/
def AmountKept [Numbers] (c : Customer) (env : BillingEnv) : Prop :=
  env.cardHash.isSome = true → ∀ kept, Numbers.float (PayAmount.toF c.payAmount) = some kept →
    kept = PayAmount.toF c.payAmount

/-- The final update takes place: the card is encrypted, the renewal is
written, the mails go out, and the customer is valid. -/
def planRewritten [Numbers] (db : Db) (c : Customer) (env : BillingEnv) : Bool :=
  env.cardHash.isSome && (Numbers.float (PayAmount.toF c.payAmount)).isSome && env.mailed &&
    c.valid db.customers

/-- The posted plan and the stored one agree: as many payments, and for
twelve payments an amount that rounds to nothing, otherwise the amount
posted, as far as the column holds its text. -/
def PlansAgree [Numbers] (c : Customer) (amount np : String) : Prop :=
  c.numPayments = some (toI np) ∧
    if np = "12" then |PayAmount.toF c.payAmount| < 1 / 2000
    else c.payAmount = some (.text amount) ∨
      roundTo3 (PayAmount.toF c.payAmount) = roundTo3 (Numbers.toF (textColumn amount))

/-- The plan on the row of the customer at the end. -/
theorem planRow_endOfCharge [Numbers] {db : Db} {c : Customer} {params : PlanParams} (a : Address)
    (subscriptionId : Option String) (date : String × String) (req : BillingRequest)
    (env : BillingEnv) (hc : db.customers.find? c.id = some c)
    (hstore : (planOf c params).2.map storeInt = (planOf c params).2) :
    planRow (endOfCharge (writeBilling db c params a) (withBilling c params a) params
        subscriptionId date req env) c.id =
      some (if planRewritten db c env then writtenPlan c params
            else (c.payAmount, c.numPayments)) := by
  have hrow : planRow (writeBilling db c params a) c.id = some (c.payAmount, c.numPayments) := by
    rw [planRow_writeBilling, planRow, hc]
    rfl
  have hpay : (withBilling c params a).payAmount = c.payAmount := rfl
  unfold endOfCharge planRewritten
  rw [hpay]
  cases hh : env.cardHash with
  | none => simpa using hrow
  | some hash =>
      cases hkept : Numbers.float (PayAmount.toF c.payAmount) with
      | none => simpa [planRow_writeSubscription] using hrow
      | some kept =>
          have hpost : planRow (afterCharge (writeBilling db c params a)
              (withBilling c params a) kept subscriptionId hash date req env) c.id
                = some (c.payAmount, c.numPayments) := by
            rw [planRow_afterCharge, hrow]
          cases hm : env.mailed with
          | false => simpa using hpost
          | true =>
              have hvalid :=
                valid_afterCharge_billing db c params a kept subscriptionId hash date req env
              simp only [if_true, Option.isSome_some, Bool.true_and]
              cases hv : c.valid db.customers with
              | false =>
                  rw [hv] at hvalid
                  simpa [writePlan, hvalid] using hpost
              | true =>
                  rw [hv] at hvalid
                  exact planRow_writePlan
                    (c := withSubscription (withBilling c params a) subscriptionId hash date)
                    hpost hvalid hstore

/-- The renewals that are new at the end have the amount that was
charged, exactly when the column keeps it. -/
theorem renewals_endOfCharge_iff [Numbers] (db : Db) (c : Customer) {params : PlanParams}
    {subscriptionId : Option String} {date : String × String} {req : BillingRequest}
    {env : BillingEnv} :
    (∀ w ∈ (endOfCharge db c params subscriptionId date req env).renewals.rows,
        w ∉ db.renewals.rows → w.amount = PayAmount.toF c.payAmount) ↔ AmountKept c env := by
  unfold endOfCharge AmountKept
  cases hh : env.cardHash with
  | none => exact ⟨fun _ hno => (by cases hno), fun _ w hw hnew => absurd hw hnew⟩
  | some hash =>
      cases hkept : Numbers.float (PayAmount.toF c.payAmount) with
      | none =>
          simp only [renewals_writeSubscription]
          exact ⟨fun _ _ _ hno => (by cases hno), fun _ w hw hnew => absurd hw hnew⟩
      | some kept =>
          have hrows : (if env.mailed then
                writePlan (afterCharge db c kept subscriptionId hash date req env)
                  (withSubscription c subscriptionId hash date) params
              else afterCharge db c kept subscriptionId hash date req env).renewals.rows =
              db.renewals.rows ++ [Record.withKey db.renewals.nextKey
                (newRenewal (withSubscription c subscriptionId hash date) kept req env)] := by
            rw [← renewals_afterCharge]
            split
            · rw [renewals_writePlan]
            · rfl
          simp only [hrows, List.mem_append, List.mem_singleton]
          constructor
          · intro h _ kept' hkept'
            cases hkept'
            refine h _ (Or.inr rfl) fun hold => ?_
            -- the new row has a key of its own
            have hlt := db.renewals.fresh _ hold
            rw [Record.key_withKey] at hlt
            exact Nat.lt_irrefl _ hlt
          · intro h w hw hnew
            obtain rfl := hw.resolve_left hnew
            exact h rfl kept rfl

/-- The end of an approved request, in terms of what was loaded. -/
theorem billing_plan [Numbers] {shop : Shop} {req : BillingRequest} {env : BillingEnv} {n : Nat}
    {c : Customer} {params : PlanParams} (hc : shop.db.customers.find? n = some c)
    (happ : approvableFor shop.db n req env = true) (hparams : req.customer = some params)
    (hstore : (planOf c params).2.map storeInt = (planOf c params).2) :
    (∃ r, (billing shop req env).recurrings = shop.recurrings ++ [r] ∧ r.created = true ∧
      r.cents = PayAmount.toF c.payAmount * 100 ∧ r.occurrences = c.numPayments.getD 0) ∧
    planRow (billing shop req env).db n =
      some (if planRewritten shop.db c env then writtenPlan c params
            else (c.payAmount, c.numPayments)) ∧
    ((∀ w ∈ (billing shop req env).db.renewals.rows, w ∉ shop.db.renewals.rows →
      w.amount = PayAmount.toF c.payAmount) ↔ AmountKept c env) := by
  simp only [approvableFor, Bool.and_eq_true, beq_iff_eq] at happ
  obtain ⟨hcookie, happ⟩ := happ
  obtain ⟨c', params', a, date, subscriptionId, hload, hparams', hdate, hans, halone⟩ :=
    alone_charge happ
  have hcc : c' = c := by
    simp only [loadCustomer, hcookie, hc, Option.ite_none_right_eq_some,
      Option.some.injEq] at hload
    exact hload.2.symm
  have hpp : params' = params := Option.some.inj (hparams'.symm.trans hparams)
  subst hcc hpp
  have hbilling : billing shop req env = _ :=
    (congrArg Prod.fst (halone 5)).trans (alone_after_charge hparams hdate)
  obtain rfl : c'.id = n := Table.key_of_find? hc
  rw [hbilling]
  refine ⟨⟨_, rfl, by simp [recurringOf, hans], rfl, rfl⟩, ?_, ?_⟩
  · exact planRow_endOfCharge a subscriptionId date req env hc hstore
  · exact renewals_endOfCharge_iff (writeBilling shop.db c' params' a) (withBilling c' params' a)

/-- The two plans agree exactly when the one that is written is the
stored one, up to the rounding. -/
theorem plansAgree_iff [Numbers] {c : Customer} {params : PlanParams} {amount np : String} {k : Int}
    (hamount : params.payAmount = some amount) (hnp : params.numPayments = some np)
    (hk : c.numPayments = some k) :
    PlansAgree c amount np ↔
      roundTo3 (PayAmount.toF c.payAmount) = roundTo3 (PayAmount.toF (writtenPlan c params).1) ∧
        (writtenPlan c params).2 = some k := by
  have hplanOf : planOf c params =
      (some (if np = "12" then .float (roundTo3 (PayAmount.toF c.payAmount / toI np))
             else .text amount), some (toI np)) := by
    simp only [planOf, hamount, hnp]
  unfold writtenPlan PlansAgree
  rw [hplanOf, hk, and_comm, eq_comm (a := some k)]
  refine and_congr ?_ Iff.rfl
  by_cases h12 : np = "12"
  · have htwelve : (toI np : ℚ) = 12 := by
      have : toI np = 12 := by rw [h12]; rfl
      rw [this]; rfl
    have hvalue : ∀ q, PayAmount.toF (if some (.float q) = c.payAmount then c.payAmount
        else (some (PayAmount.float q)).map PayAmount.kept) = q := by
      intro q
      split
      · rename_i hsame
        rw [← hsame]
        rfl
      · rfl
    simp only [if_pos h12, htwelve, hvalue]
    rw [← roundTo3_div_twelve_iff, roundTo3_roundTo3]
  · simp only [if_neg h12]
    split
    · rename_i hsame
      exact ⟨fun _ => rfl, fun _ => Or.inl hsame.symm⟩
    · rename_i hchanged
      refine ⟨fun h => h.resolve_left fun hsame => hchanged hsame.symm, Or.inr⟩

/-- The subscription of an approved request is known; what is left is
whether the row and the renewal agree with it. -/
theorem planKept_iff [Numbers] {shop : Shop} {req : BillingRequest} {env : BillingEnv} {n : Nat}
    {c : Customer} {params : PlanParams} {k : Int}
    (hc : shop.db.customers.find? n = some c)
    (happ : approvableFor shop.db n req env = true) (hparams : req.customer = some params)
    (hstore : (planOf c params).2.map storeInt = (planOf c params).2)
    (hk : c.numPayments = some k) :
    PlanKept shop req env n ↔ AmountKept c env ∧ ∃ x num,
      planRow (billing shop req env).db n = some (x, num) ∧
      roundTo3 (PayAmount.toF c.payAmount) = roundTo3 (PayAmount.toF x) ∧ num = some k := by
  obtain ⟨⟨r, hr, hcreated, hcents, hocc⟩, _, hrenewals⟩ := billing_plan hc happ hparams hstore
  have hcharged : r.cents / 100 = PayAmount.toF c.payAmount := by rw [hcents]; ring
  rw [hk, Option.getD_some] at hocc
  rw [← hrenewals]
  constructor
  · intro ⟨r', x, num, hr', _, hrow', hround, hnum, hamounts⟩
    have hrr : r' = r := by
      rw [hr] at hr'
      exact (List.singleton_inj.mp (List.append_cancel_left hr')).symm
    rw [hrr, hcharged] at hround hamounts
    rw [hrr, hocc] at hnum
    exact ⟨hamounts, x, num, hrow', hround, hnum⟩
  · intro ⟨hamounts, x, num, hrow', hround, hnum⟩
    refine ⟨r, x, num, hr, hcreated, hrow', ?_, ?_, fun w hw hnew => ?_⟩
    · rw [hcharged]; exact hround
    · rw [hocc]; exact hnum
    · rw [hcharged]; exact hamounts w hw hnew

/-- **The plan.** For every customer, whatever plan is stored, and every
POST that carries a plan of one or of twelve payments and is approved:
the plan charged is the plan recorded if and only if the renewal's column
keeps the amount, and the request ends before its final update or the
posted plan agrees with the stored one. -/
theorem plan_recorded_iff [Numbers] (shop : Shop) (req : BillingRequest) (env : BillingEnv)
    (n : Nat)
    (c : Customer) (params : PlanParams) (amount np : String)
    (hc : shop.db.customers.find? n = some c)
    (happ : approvableFor shop.db n req env = true)
    (hparams : req.customer = some params) (hamount : params.payAmount = some amount)
    (hnp : params.numPayments = some np) (hplan : toI np = 1 ∨ toI np = 12) :
    PlanKept shop req env n ↔
      AmountKept c env ∧ (planRewritten shop.db c env = false ∨ PlansAgree c amount np) := by
  have hstore : (planOf c params).2.map storeInt = (planOf c params).2 := by
    simp only [planOf, hamount, hnp]
    rcases hplan with h | h <;> rw [h] <;> rfl
  obtain ⟨k, hk⟩ : ∃ k, c.numPayments = some k := by
    simp only [approvableFor, Bool.and_eq_true, beq_iff_eq] at happ
    obtain ⟨c', _, _, _, _, _, _, hload, _⟩ := approvable_iff.mp happ.2
    simp only [loadCustomer, happ.1, hc, Option.ite_none_right_eq_some, Bool.and_eq_true] at hload
    exact Option.isSome_iff_exists.mp hload.1.1
  obtain ⟨_, hrow, _⟩ := billing_plan hc happ hparams hstore
  rw [planKept_iff hc happ hparams hstore hk, hrow]
  refine and_congr Iff.rfl ?_
  cases hre : planRewritten shop.db c env with
  | false =>
      refine ⟨fun _ => Or.inl rfl, fun _ => ⟨c.payAmount, c.numPayments, ?_, rfl, hk⟩⟩
      simp
  | true =>
      simp only [if_true, Option.some.injEq, Bool.true_eq_false, false_or,
        plansAgree_iff hamount hnp hk]
      constructor
      · intro ⟨x, num, hpair, hround, hnum⟩
        rw [hpair]
        exact ⟨hround, hnum⟩
      · intro ⟨hround, hnum⟩
        exact ⟨_, _, rfl, hround, hnum⟩

section
attribute [local instance] Numbers.exact

/-- One payment of the amount that is stored. -/
theorem plan_recorded_single :
    PlanKept ⟨quoted (.float 500) 1, []⟩ (purchase "500" "1") smooth 1 := by
  refine (plan_recorded_iff ⟨quoted (.float 500) 1, []⟩ (purchase "500" "1") smooth 1
    { Customer.new with
      id := 1
      firstName := some "Ann"
      lastName := some "Lee"
      customerPhone := some "555"
      email := some "ann@example.com"
      payAmount := some (.float 500)
      numPayments := some 1 }
    ⟨some "500", some "1", some "Ann", some "Lee"⟩ "500" "1" (by decide +kernel)
    (by decide +kernel) rfl rfl rfl (Or.inl (by decide +kernel))).mpr
      ⟨fun _ kept h => (Option.some.inj h).symm, Or.inr ⟨?_, ?_⟩⟩
  · decide +kernel
  · decide +kernel

/-- The monthly choice of a customer quoted 600 for the year: one charge
of 600 at the gateway, twelve payments of 50 on the record. -/
theorem plan_not_recorded_monthly :
    ¬ PlanKept ⟨quoted (.float 600) 1, []⟩ (purchase "50" "12") smooth 1 := by
  intro ⟨r, amount, num, hr, _, hrow, _, hnum, _⟩
  have hcalls : (billing ⟨quoted (.float 600) 1, []⟩ (purchase "50" "12") smooth).recurrings
      = [⟨1, 60000, 12, 1, true⟩] := by decide +kernel
  have hplan : planRow (billing ⟨quoted (.float 600) 1, []⟩ (purchase "50" "12") smooth).db 1
      = some (some (.float 50), some 12) := by decide +kernel
  rw [hcalls] at hr
  cases hr
  rw [hplan] at hrow
  cases hrow
  revert hnum
  decide +kernel

end

end HomeWarranty.Site
