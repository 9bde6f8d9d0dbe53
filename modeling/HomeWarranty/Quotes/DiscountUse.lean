/-
HomeWarranty.Quotes.DiscountUse — how a customer comes by a discount.

`async_validate` goes through the discounts by their keys and takes the
first with the posted code that is valid now. A monthly discount has a
code made of the month and the percentage, so two of them may share one;
the code of another is its name, and where the name is NULL a request
without a code has it. A discount that cannot be asked, because it lacks
its value or its start, ends the search.

Nothing else writes `customers.discount_id`: it is not accessible, so the
hidden field that the forms post is dropped. `discount_provenance` says
what follows over every run: who has a discount was given it by a request
with its code, at a time within its dates, while it was the first such
discount there was.

Times are counted in seconds, the days by the Julian day number. What a float makes
of `(value * 100).to_i` is the parameter `percent`.
-/
import HomeWarranty.Ruby.Calendar
import HomeWarranty.Lib.Run
import HomeWarranty.Quotes.DiscountEntry
import HomeWarranty.Billing.ContractNumber

namespace HomeWarranty.Quotes

open Lib Ruby Billing

/-! ## Codes and dates -/

/-- `strftime("%b").upcase`. -/
def monthText (month : Nat) : String :=
  (["JAN", "FEB", "MAR", "APR", "MAY", "JUN", "JUL", "AUG", "SEP", "OCT", "NOV",
    "DEC"][month - 1]?).getD ""

/-- `code`. -/
def Discount.code (percent : ℚ → Int) (d : Discount) : Except RubyError (Option String) :=
  if d.isMonthly = some true then
    match d.value with
    | none => .error .noMethodError
    | some value =>
        .ok (some (invoicePrefix ++ ((d.startsAt.map fun t => monthText t.date.month).getD "")
          ++ toString (percent value)))
  else .ok d.name

def Moment.seconds (t : Moment) : Int := t.date.jd * 86400 + t.second

/-- `is_valid?`. -/
def Discount.isValid (now : Int) (d : Discount) : Except RubyError Bool :=
  match d.startsAt with
  | none => .error .argumentError
  | some startsAt =>
      .ok (decide (startsAt.seconds ≤ now) &&
        match d.endsAt with
        | none => true
        | some endsAt => decide (now ≤ endsAt.seconds))

/-- `params[:discount_code] == discount.code and discount.is_valid?`. -/
def Discount.applies (percent : ℚ → Int) (code : Option String) (now : Int) (d : Discount) :
    Except RubyError Bool := do
  let own ← d.code percent
  if code = own then d.isValid now else return false

/-- The first discount that applies. -/
def firstThatApplies (percent : ℚ → Int) (code : Option String) (now : Int) :
    List Discount → Except RubyError (Option Discount)
  | [] => .ok none
  | d :: ds => do
      if ← d.applies percent code now then return some d
      else firstThatApplies percent code now ds

/-! ## Customers -/

/-- A customer, whether he passes his validations, and his discount. -/
structure DiscountedCustomer where
  id : Nat
  valid : Bool
  discountId : Option Nat
  deriving DecidableEq

instance : Record DiscountedCustomer where
  key := DiscountedCustomer.id
  withKey n c := { c with id := n }
  key_withKey := fun _ _ => rfl

structure Shop where
  discounts : Table Discount
  customers : Table DiscountedCustomer

inductive ShopEvent where
  | enter (r : DiscountRequest)
  | destroy (id : Option String)
  | validate (code : Option String) (id : Option String) (now : Int)
  /-- Any other request: it saves customers, makes new ones and destroys
  some, but has no access to their discounts. -/
  | others (customers : Table DiscountedCustomer)

/-- The customer of an `async_validate`. -/
def giveDiscount (t : Table DiscountedCustomer) (id : Option String) (d : Discount) :
    Except RubyError (Table DiscountedCustomer) :=
  if presentOpt id then
    (findRecord t id).map fun c =>
      if c.valid then t.update c.id (fun c => { c with discountId := some d.id }) fun _ => rfl
      else t
  else .ok t

/-- The answer of `async_validate`, and the customers after it. -/
def asyncValidate (percent : ℚ → Int) (s : Shop) (code id : Option String) (now : Int) :
    Except RubyError (Option (Option ℚ × Nat) × Table DiscountedCustomer) := do
  match ← firstThatApplies percent code now s.discounts.rows with
  | none => return (none, s.customers)
  | some d =>
      let customers ← giveDiscount s.customers id d
      return (some (d.value, d.id), customers)

/-- The customers of `t'` have the discounts that they had in `t`. -/
def KeepsDiscounts (t t' : Table DiscountedCustomer) : Prop :=
  ∀ c ∈ t'.rows, c.discountId = none ∨ ∃ d ∈ t.rows, d.id = c.id ∧ d.discountId = c.discountId

def Shop.step (percent : ℚ → Int) (castTime : String → Option Moment) (s : Shop) : ShopEvent → Shop
  | .enter r =>
      match r.perform castTime s.discounts with
      | .error _ => s
      | .ok (discounts, _) => { s with discounts := discounts }
  | .destroy id =>
      match findRecord s.discounts id with
      | .error _ => s
      | .ok d => { s with discounts := s.discounts.delete d.id }
  | .validate code id now =>
      match asyncValidate percent s code id now with
      | .error _ => s
      | .ok (_, customers) => { s with customers := customers }
  | .others customers => { s with customers := customers }

/-! ## Which discount is found -/

/-- A discount that has the code, at a time within its dates. -/
structure Discount.Usable (percent : ℚ → Int) (code : Option String) (now : Int) (d : Discount) :
    Prop where
  code : d.code percent = .ok code
  started : ∃ startsAt, d.startsAt = some startsAt ∧ startsAt.seconds ≤ now
  notEnded : ∀ endsAt, d.endsAt = some endsAt → now ≤ endsAt.seconds

section
variable {percent : ℚ → Int} {code : Option String} {now : Int}

theorem isValid_iff {d : Discount} :
    d.isValid now = .ok true ↔
      (∃ startsAt, d.startsAt = some startsAt ∧ startsAt.seconds ≤ now) ∧
        ∀ endsAt, d.endsAt = some endsAt → now ≤ endsAt.seconds := by
  unfold Discount.isValid
  cases d.startsAt with
  | none => simp
  | some startsAt => cases d.endsAt <;> simp

theorem applies_iff {d : Discount} :
    d.applies percent code now = .ok true ↔ d.Usable percent code now := by
  have hcode : d.applies percent code now = .ok true ↔
      d.code percent = .ok code ∧ d.isValid now = .ok true := by
    unfold Discount.applies
    rw [bind_eq_ok]
    constructor
    · rintro ⟨own, hown, h⟩
      split_ifs at h with hsame
      · exact ⟨hsame ▸ hown, h⟩
      · cases h
    · rintro ⟨hown, hvalid⟩
      exact ⟨code, hown, by rwa [if_pos rfl]⟩
  rw [hcode, isValid_iff]
  exact ⟨fun h => ⟨h.1, h.2.1, h.2.2⟩, fun h => ⟨h.code, h.started, h.notEnded⟩⟩

/-- The first of the discounts that is usable, where all before it could
be asked. -/
def FirstUsable (percent : ℚ → Int) (code : Option String) (now : Int) (ds : List Discount)
    (d : Discount) : Prop :=
  ∃ pre post, ds = pre ++ d :: post ∧ d.Usable percent code now ∧
    ∀ x ∈ pre, x.applies percent code now = .ok false

theorem firstThatApplies_iff {ds : List Discount} {d : Discount} :
    firstThatApplies percent code now ds = .ok (some d) ↔ FirstUsable percent code now ds d := by
  induction ds with
  | nil => simp [firstThatApplies, FirstUsable]
  | cons x ds ih =>
      rw [firstThatApplies, bind_eq_ok]
      constructor
      · rintro ⟨applies, happlies, h⟩
        cases applies with
        | true =>
            cases h
            exact ⟨[], ds, rfl, applies_iff.mp happlies, by simp⟩
        | false =>
            obtain ⟨pre, post, rfl, husable, hpre⟩ := ih.mp h
            refine ⟨x :: pre, post, rfl, husable, fun y hy => ?_⟩
            rcases List.mem_cons.mp hy with rfl | hy
            · exact happlies
            · exact hpre y hy
      · rintro ⟨pre, post, heq, husable, hpre⟩
        cases pre with
        | nil =>
            obtain ⟨rfl, rfl⟩ := List.cons.inj heq
            exact ⟨true, applies_iff.mpr husable, rfl⟩
        | cons y pre =>
            obtain ⟨rfl, rfl⟩ := List.cons.inj heq
            refine ⟨false, hpre x (by simp), ?_⟩
            exact ih.mpr ⟨pre, post, rfl, husable, fun z hz => hpre z (by simp [hz])⟩

end

/-! ## Where a discount comes from -/

section
variable {percent : ℚ → Int} {castTime : String → Option Moment}

/-- The others do as they are supposed to. -/
def ShopEvent.Fair (s : Shop) : ShopEvent → Prop
  | .others customers => KeepsDiscounts s.customers customers
  | _ => True

/-- Customer `a.1` has the discount `a.2`. -/
def Shop.Has (s : Shop) (a : Nat × Nat) : Prop :=
  ∃ c ∈ s.customers.rows, c.id = a.1 ∧ c.discountId = some a.2

/-- A request that gives `a.1` the discount `a.2`. -/
def Shop.Grants (percent : ℚ → Int) (s : Shop) (e : ShopEvent) (a : Nat × Nat) : Prop :=
  ∃ code id now, e = .validate code (some id) now ∧ toI id = a.1 ∧
    ∃ d, FirstUsable percent code now s.discounts.rows d ∧ d.id = a.2

/-- The text that found a row reads as its key. -/
theorem toI_of_findRecord {ρ : Type} [Record ρ] {t : Table ρ} {id : Option String} {r : ρ}
    (h : findRecord t id = .ok r) : ∃ text, id = some text ∧ toI text = Record.key r := by
  cases id with
  | none => cases h
  | some text =>
      rw [findRecord, Option.bind_some] at h
      cases hfind : findByIdText t text with
      | none =>
          rw [hfind] at h
          cases h
      | some s =>
          rw [hfind] at h
          cases h
          unfold findByIdText Table.firstWhere at hfind
          have hkey := List.find?_some hfind
          exact ⟨text, rfl, (of_decide_eq_true hkey).symm⟩

/-- What one request adds. -/
theorem mem_giveDiscount {t t' : Table DiscountedCustomer} {id : Option String} {d : Discount}
    (h : giveDiscount t id d = .ok t') {c : DiscountedCustomer} (hc : c ∈ t'.rows) :
    c ∈ t.rows ∨ (∃ text, id = some text ∧ toI text = c.id) ∧ c.discountId = some d.id := by
  unfold giveDiscount at h
  split_ifs at h with hid
  · obtain ⟨found, hfound, rfl⟩ := map_eq_ok.mp h
    split_ifs at hc with hvalid
    · obtain ⟨old, hold, ⟨hkey, rfl⟩ | ⟨-, rfl⟩⟩ := Table.mem_update.mp hc
      · obtain ⟨text, hid, htext⟩ := toI_of_findRecord hfound
        refine .inr ⟨⟨text, hid, htext.trans ?_⟩, rfl⟩
        exact congrArg Nat.cast hkey.symm
      · exact .inl hold
    · exact .inl hc
  · cases h
    exact .inl hc

theorem has_step {s : Shop} {e : ShopEvent} {a : Nat × Nat} (he : e.Fair s)
    (h : (s.step percent castTime e).Has a) : s.Has a ∨ s.Grants percent e a := by
  cases e with
  | enter r =>
      simp only [Shop.step] at h
      split at h <;> exact .inl h
  | destroy id =>
      simp only [Shop.step] at h
      split at h <;> exact .inl h
  | others customers =>
      obtain ⟨c, hc, hid, hdiscount⟩ := h
      rcases he c hc with hnone | ⟨old, hold, holdid, hsame⟩
      · rw [hnone] at hdiscount
        cases hdiscount
      · exact .inl ⟨old, hold, holdid.trans hid, hsame.trans hdiscount⟩
  | validate code id now =>
      simp only [Shop.step] at h
      cases hanswer : asyncValidate percent s code id now with
      | error e =>
          rw [hanswer] at h
          exact .inl h
      | ok r =>
          rw [hanswer] at h
          obtain ⟨found, hfound, hrest⟩ := bind_eq_ok.mp hanswer
          cases found with
          | none =>
              cases hrest
              exact .inl h
          | some d =>
              obtain ⟨customers, hgive, hrest⟩ := bind_eq_ok.mp hrest
              cases hrest
              obtain ⟨c, hc, hid, hdiscount⟩ := h
              rcases mem_giveDiscount hgive hc with hold | ⟨⟨text, rfl, htext⟩, hnew⟩
              · exact .inl ⟨c, hold, hid, hdiscount⟩
              · refine .inr ⟨code, text, now, rfl, by rw [htext, hid], d,
                  firstThatApplies_iff.mp hfound, ?_⟩
                rw [hnew] at hdiscount
                exact Option.some.inj hdiscount

/-- Over every run in which nobody else touches the discounts of the
customers: who has a discount that he did not have at the start was given
it by a request with his number and its code, at a time within its dates,
when it was the first usable one and all before it could be asked. -/
theorem discount_provenance (s : Shop) (es : List ShopEvent)
    (h : StepsOk (Shop.step percent castTime) ShopEvent.Fair s es) :
    ∀ c ∈ (run (Shop.step percent castTime) s es).customers.rows, ∀ k, c.discountId = some k →
      s.Has (c.id, k) ∨ ∃ pre code id now post, es = pre ++ .validate code (some id) now :: post ∧
        toI id = c.id ∧ ∃ d, d.id = k ∧
          FirstUsable percent code now
            (run (Shop.step percent castTime) s pre).discounts.rows d := by
  intro c hc k hk
  have hhas : (run (Shop.step percent castTime) s es).Has (c.id, k) := ⟨c, hc, rfl, hk⟩
  refine (run_provenance (fun s e a he => has_step he) h hhas).imp_right ?_
  rintro ⟨pre, e, post, rfl, code, id, now, rfl, hid, d, hfirst, hd⟩
  exact ⟨pre, code, id, now, post, rfl, hid, d, hd, hfirst⟩

/-! ## An order with a discount -/

/-- A tenth off in the spring of 2014. -/
def springDiscount : Discount where
  id := 1
  isMonthly := some false
  startsAt := some (.midnight ⟨2014, 3, 1⟩)
  endsAt := some (.midnight ⟨2014, 5, 31⟩)
  value := some (1 / 10)
  name := some "SPRING"

def springShop : Shop where
  discounts := .ofRows [springDiscount]
  customers := .ofRows [⟨0, true, none⟩]

/-- Noon of the first of April. -/
def firstOfApril : Int := Moment.seconds ⟨⟨2014, 4, 1⟩, 43200⟩

def springOrder : List ShopEvent := [.validate (some "SPRING") (some "1") firstOfApril]

theorem discount_provenance_spring :
    (run (Shop.step (fun _ => 10) fun _ => none) springShop springOrder).customers.rows
        = [⟨1, true, some 1⟩] ∧
      ∀ c ∈ (run (Shop.step (fun _ => 10) fun _ => none) springShop springOrder).customers.rows,
        ∀ k, c.discountId = some k →
        springShop.Has (c.id, k) ∨ ∃ pre code id now post,
          springOrder = pre ++ .validate code (some id) now :: post ∧
          toI id = c.id ∧ ∃ d, d.id = k ∧ FirstUsable (fun _ => 10) code now
            (run (Shop.step (fun _ => 10) fun _ => none) springShop pre).discounts.rows d :=
  ⟨by decide +kernel, discount_provenance springShop springOrder ⟨trivial, trivial⟩⟩

end

end HomeWarranty.Quotes
