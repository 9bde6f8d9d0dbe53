/-
HomeWarranty.Quotes.Total — the total of a quote, in the browser and on
the billing page.

`updatePlanTotal` adds the package and the chosen coverages, multiplies
by the years, takes the discount off a one-year plan that is not paid in
twelve parts, and divides by the number of payments; the amount goes to
the server as `pay_amount`. The billing page starts from `list_price`
and a subtotal that is 100 too high, and takes off the discount and the
100. A discount of at most 1 is a fraction, a greater one an amount.

Only the billing page stops at zero, so the two totals of a one-year plan
with a single payment part where an amount is greater than the price
(`quote_agrees_iff`).

Numbers are exact; `round(2)` of the browser is left to a parameter.
-/
import Mathlib.Algebra.Order.BigOperators.Group.List
import HomeWarranty.Quotes.Coverages

namespace HomeWarranty.Quotes

open Lib Ruby

/-! ## The browser -/

/-- What is chosen on the page. -/
structure Choice where
  packagePrice : ℚ
  /-- The values of the checked boxes. -/
  addons : List ℚ
  contractLength : Nat
  /-- `payment_plan_select`. -/
  paymentPlan : Nat
  /-- `gDiscountAmount`. -/
  discountAmount : ℚ

structure PlanTotal where
  totalPrice : ℚ
  savings : ℚ
  numPayments : Nat
  deriving DecidableEq

/-- `updatePlanTotal`, up to the rounding. -/
def updatePlanTotal (c : Choice) : PlanTotal :=
  let totalPrice := c.addons.foldl (· + ·) c.packagePrice * c.contractLength
  if c.contractLength = 1 then
    if c.discountAmount ≤ 0 then
      { totalPrice := totalPrice, savings := 0, numPayments := c.paymentPlan }
    else if c.paymentPlan ≠ 12 then
      { totalPrice :=
          if c.discountAmount ≤ 1 then totalPrice * (1 - c.discountAmount)
          else totalPrice - c.discountAmount
        savings := 0
        numPayments := c.paymentPlan }
    else { totalPrice := totalPrice, savings := 0, numPayments := c.paymentPlan }
  else { totalPrice := totalPrice, savings := totalPrice * (13 / 100), numPayments := 1 }

/-- Each payment before it is rounded. -/
def PlanTotal.exactPayment (t : PlanTotal) : ℚ := (t.totalPrice - t.savings) / t.numPayments

/-- What is put into `customer_pay_amount`. -/
def PlanTotal.payAmount (round2 : ℚ → ℚ) (t : PlanTotal) : ℚ := round2 t.exactPayment

/-- One year, one payment. -/
def singlePayment (packagePrice : ℚ) (addons : List ℚ) (discount : Option ℚ) : Choice where
  packagePrice := packagePrice
  addons := addons
  contractLength := 1
  paymentPlan := 1
  discountAmount := discount.getD 0

/-! ## The billing page -/

/-- `get_discount_amount`. -/
def getDiscountAmount (totalPrice discountVal : ℚ) : ℚ :=
  if discountVal > 1 then discountVal + 100 else totalPrice * discountVal + 100

/-- `total_amount` of the billing page. -/
def billingTotal (listPrice : ℚ) (discount : Option ℚ) : ℚ :=
  let discountAmount :=
    match discount with
    | none => 100
    | some value => getDiscountAmount listPrice value
  let totalAmount := listPrice + 100 - discountAmount
  if totalAmount < 0 then 0 else totalAmount

/-- The total of a customer. -/
def Policy.billingTotal (c : Policy) (t : Table Coverage) (discount : Option ℚ) :
    Except RubyError ℚ :=
  (c.listPrice t).map fun listPrice => Quotes.billingTotal listPrice discount

/-! ## One rule, twice -/

theorem foldl_add (p : ℚ) (ps : List ℚ) : ps.foldl (· + ·) p = p + ps.sum := by
  induction ps generalizing p with
  | nil => simp
  | cons q ps ih => rw [List.foldl_cons, ih, List.sum_cons, add_assoc]

/-- The price after the discount, before any stop at zero. -/
def discounted (price : ℚ) : Option ℚ → ℚ
  | none => price
  | some d => if d ≤ 1 then price * (1 - d) else price - d

/-- The browser takes the discount off. -/
theorem exactPayment_singlePayment {p : ℚ} {ps : List ℚ} {discount : Option ℚ}
    (h : ∀ d, discount = some d → 0 ≤ d) :
    (updatePlanTotal (singlePayment p ps discount)).exactPayment =
      discounted (p + ps.sum) discount := by
  cases discount with
  | none => simp [updatePlanTotal, singlePayment, PlanTotal.exactPayment, discounted, foldl_add]
  | some d =>
      rcases (h d rfl).eq_or_lt with rfl | hpos
      · simp [updatePlanTotal, singlePayment, PlanTotal.exactPayment, discounted, foldl_add]
      · have hnot : ¬ d ≤ 0 := not_le.mpr hpos
        simp [updatePlanTotal, singlePayment, PlanTotal.exactPayment, discounted, foldl_add, hnot]

/-- The billing page takes it off and stops at zero. -/
theorem billingTotal_eq (price : ℚ) (discount : Option ℚ) :
    billingTotal price discount = max (discounted price discount) 0 := by
  have hstop : ∀ x : ℚ, (if x < 0 then 0 else x) = max x 0 := by
    intro x
    split
    · rw [max_eq_right (by linarith)]
    · rw [max_eq_left (by linarith)]
  cases discount with
  | none => simp only [billingTotal, discounted, hstop, add_sub_cancel_right]
  | some d =>
      simp only [billingTotal, discounted, getDiscountAmount, hstop, gt_iff_lt]
      by_cases hd : d ≤ 1
      · rw [if_neg (not_lt.mpr hd), if_pos hd]
        ring_nf
      · rw [if_pos (not_le.mp hd), if_neg hd]
        ring_nf

/-- A discounted price is negative only for an amount greater than it. -/
theorem discounted_nonneg_iff {price : ℚ} {discount : Option ℚ} (hprice : 0 ≤ price)
    (h : ∀ d, discount = some d → 0 ≤ d) :
    0 ≤ discounted price discount ↔ ∀ d, discount = some d → d ≤ 1 ∨ d ≤ price := by
  cases discount with
  | none => simpa [discounted] using hprice
  | some d =>
      have hd := h d rfl
      simp only [discounted, Option.some.injEq, forall_eq']
      by_cases hone : d ≤ 1
      · rw [if_pos hone]
        exact iff_of_true (mul_nonneg hprice (by linarith)) (Or.inl hone)
      · rw [if_neg hone]
        constructor
        · intro hle
          exact Or.inr (by linarith)
        · rintro (hle | hle)
          · exact absurd hle hone
          · linarith

/-- The two totals of a one-year plan with a single payment are the same
and not negative exactly when the discount is a fraction, or an amount
that is at most the price. -/
theorem quote_agrees_iff (t : Table Coverage) (c : Policy) (p : ℚ) (ps : List ℚ)
    (discount : Option ℚ) (hpackage : c.packagePrice = .ok p)
    (haddons : (c.coverages t).map Coverage.price = ps.map some) (hp : 0 ≤ p)
    (hps : ∀ q ∈ ps, 0 ≤ q) (hd : ∀ d, discount = some d → 0 ≤ d) :
    (∃ total, c.billingTotal t discount = .ok total ∧
      (updatePlanTotal (singlePayment p ps discount)).exactPayment = total ∧ 0 ≤ total ∧
      0 ≤ (updatePlanTotal (singlePayment p ps discount)).exactPayment) ↔
    ∀ d, discount = some d → d ≤ 1 ∨ d ≤ p + ps.sum := by
  have hprice : 0 ≤ p + ps.sum := add_nonneg hp (List.sum_nonneg hps)
  have hlist : c.billingTotal t discount =
      .ok (max (discounted (p + ps.sum) discount) 0) := by
    rw [Policy.billingTotal, Policy.listPrice, hpackage, haddons, sumPrices_some,
      ← billingTotal_eq]
    rfl
  rw [hlist, exactPayment_singlePayment hd, ← discounted_nonneg_iff hprice hd]
  constructor
  · rintro ⟨_, _, _, _, hbrowser⟩
    exact hbrowser
  · intro hnonneg
    exact ⟨_, rfl, (max_eq_left hnonneg).symm, le_max_right _ _, hnonneg⟩

/-- A discount of 500 dollars on a condo for 380: the browser asks for
-120, the billing page for nothing. -/
theorem quote_parts :
    samplePolicy.billingTotal sampleCoverages (some 500) = .ok 0 ∧
    (updatePlanTotal (singlePayment 380 [] (some 500))).exactPayment = -120 ∧
    ¬ ∃ total, samplePolicy.billingTotal sampleCoverages (some 500) = .ok total ∧
      (updatePlanTotal (singlePayment 380 [] (some 500))).exactPayment = total ∧ 0 ≤ total ∧
      0 ≤ (updatePlanTotal (singlePayment 380 [] (some 500))).exactPayment := by
  have hbrowser : (updatePlanTotal (singlePayment 380 [] (some 500))).exactPayment = -120 := by
    decide +kernel
  refine ⟨by decide +kernel, hbrowser, ?_⟩
  rintro ⟨_, _, _, _, hnonneg⟩
  rw [hbrowser] at hnonneg
  norm_num at hnonneg

/-- A tenth off the condo. -/
theorem quote_agrees_tenth :
    ∃ total, samplePolicy.billingTotal sampleCoverages (some (1 / 10)) = .ok total ∧
      (updatePlanTotal (singlePayment 380 [] (some (1 / 10)))).exactPayment = total ∧ 0 ≤ total ∧
      0 ≤ (updatePlanTotal (singlePayment 380 [] (some (1 / 10)))).exactPayment := by
  refine (quote_agrees_iff sampleCoverages samplePolicy 380 [] (some (1 / 10)) rfl rfl
    (by norm_num) (by simp) ?_).mpr ?_
  · rintro d ⟨⟩
    norm_num
  · rintro d ⟨⟩
    exact Or.inl (by norm_num)

end HomeWarranty.Quotes
