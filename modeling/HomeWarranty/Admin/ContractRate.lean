/-
HomeWarranty.Admin.ContractRate — the rate that is printed on a contract.

How often a customer pays is not stored. `rate_mode` and
`formatted_annual_rate` infer it from the number of payments, as a
remainder modulo the months of the term. For a term of one year this is
the number of payments per year; for a longer term it is a multiple of
it, and only monthly payments are recognised: `contract_rate_iff`.

The term comes from the newest renewal. A renewal with a negative number
of years is taken for one with dates, and raises when a date is missing.
-/
import HomeWarranty.Records
import HomeWarranty.Ruby.Calendar

namespace HomeWarranty.Admin

open Lib Ruby

/-! ## The term -/

/-- The columns of a renewal that make its length. -/
structure RenewalTerm where
  years : Option Int
  startsAt : Option Date
  endsAt : Option Date
  deriving DecidableEq

/-- `Renewal#duration`. -/
def RenewalTerm.duration (r : RenewalTerm) : Except RubyError Int :=
  if (r.years = none ∨ r.years = some 0) ∧ (r.endsAt = none ∨ r.startsAt = none) then .ok 0
  else if 0 < r.years.getD 0 then .ok (r.years.getD 0)
  else
    match r.endsAt, r.startsAt with
    | some endsAt, some startsAt => .ok (|endsAt.jd - startsAt.jd| / 365)
    | _, _ => .error .noMethodError

/-- `contract_term_years`; the renewals are in the order of the
association, the newest first. -/
def contractTermYears (renewals : List RenewalTerm) : Except RubyError Int :=
  match renewals with
  | [] => .ok 1
  | first :: _ => first.duration.map fun duration => if 0 < duration then duration else 1

/-! ## The rate -/

section
variable (c : Customer) (renewals : List RenewalTerm)

/-- `num_payments.to_i % (contract_term_years * 12)`. -/
def rateRemainder : Except RubyError Int :=
  (contractTermYears renewals).map fun term => c.numPayments.getD 0 % (term * 12)

/-- `rate_mode`. -/
def rateMode : Except RubyError String :=
  (rateRemainder c renewals).map fun remainder =>
    if remainder = 0 then "MONTHLY"
    else if remainder = 1 then "ANNUAL"
    else if remainder = 4 then "QUARTERLY"
    else "SEMI-ANNUAL"

/-- The number that `formatted_annual_rate` formats; the product is
exact. -/
def annualRate [Numbers] : Except RubyError ℚ :=
  (rateRemainder c renewals).map fun remainder =>
    if remainder = 0 then PayAmount.toF c.payAmount * 12
    else PayAmount.toF c.payAmount * c.numPayments.getD 0

/-- `formatted_annual_rate`. -/
def formattedAnnualRate [Numbers] : Except RubyError String :=
  (annualRate c renewals).map fun rate => "$" ++ Numbers.format2 rate

end

/-- The frequencies, by the number of payments in a year. -/
inductive Frequency where
  | annual
  | semiAnnual
  | quarterly
  | monthly
  deriving DecidableEq

def Frequency.perYear : Frequency → Int
  | .annual => 1
  | .semiAnnual => 2
  | .quarterly => 4
  | .monthly => 12

def Frequency.name : Frequency → String
  | .annual => "ANNUAL"
  | .semiAnnual => "SEMI-ANNUAL"
  | .quarterly => "QUARTERLY"
  | .monthly => "MONTHLY"

/-! ## When the term is known -/

/-- Neither the years nor the dates of the renewal say how long it is. -/
def RenewalTerm.Unreadable (r : RenewalTerm) : Prop :=
  (∃ years, r.years = some years ∧ years < 0) ∧ (r.endsAt = none ∨ r.startsAt = none)

/-- Years that are neither left out nor positive are negative. -/
theorem negative {years : Option Int} {missing : Prop}
    (hblank : ¬ ((years = none ∨ years = some 0) ∧ missing)) (hpos : ¬ 0 < years.getD 0)
    (hmissing : missing) : ∃ n, years = some n ∧ n < 0 := by
  cases years with
  | none => exact absurd ⟨.inl rfl, hmissing⟩ hblank
  | some n =>
      rw [Option.getD_some] at hpos
      refine ⟨n, rfl, ?_⟩
      by_contra hn
      exact hblank ⟨.inr (by rw [Option.some.injEq]; omega), hmissing⟩

theorem exists_duration_iff (r : RenewalTerm) : (∃ d, r.duration = .ok d) ↔ ¬ r.Unreadable := by
  unfold RenewalTerm.duration RenewalTerm.Unreadable
  split_ifs with hblank hyears
  · -- no years, and no dates to count
    refine iff_of_true ⟨0, rfl⟩ fun h => ?_
    obtain ⟨years, hsome, hneg⟩ := h.1
    rw [hsome] at hblank
    rcases hblank.1 with hnone | hzero
    · cases hnone
    · rw [Option.some.injEq] at hzero
      omega
  · refine iff_of_true ⟨_, rfl⟩ fun h => ?_
    obtain ⟨years, hsome, hneg⟩ := h.1
    rw [hsome, Option.getD_some] at hyears
    omega
  · -- the dates are read
    cases hends : r.endsAt with
    | some endsAt =>
        cases hstarts : r.startsAt with
        | some startsAt => exact iff_of_true ⟨_, rfl⟩ (by simp)
        | none =>
            exact iff_of_false (by simp)
              (not_not.mpr ⟨negative hblank hyears (.inr hstarts), .inr rfl⟩)
    | none =>
        exact iff_of_false (by simp) (not_not.mpr ⟨negative hblank hyears (.inl hends), .inl rfl⟩)

theorem one_le_term {renewals : List RenewalTerm} {t : Int}
    (h : contractTermYears renewals = .ok t) : 1 ≤ t := by
  cases renewals with
  | nil =>
      cases h
      decide
  | cons first rest =>
      obtain ⟨d, _, rfl⟩ := map_eq_ok.mp h
      split_ifs <;> omega

theorem exists_term_iff (renewals : List RenewalTerm) :
    (∃ t, contractTermYears renewals = .ok t ∧ 1 ≤ t) ↔ ∀ r ∈ renewals.head?, ¬ r.Unreadable := by
  cases renewals with
  | nil => simp [contractTermYears]
  | cons first rest =>
      have hfirst : (∀ r ∈ (first :: rest).head?, ¬ r.Unreadable) ↔ ¬ first.Unreadable := by
        simp [List.head?_cons]
      rw [hfirst, ← exists_duration_iff]
      constructor
      · rintro ⟨t, h, _⟩
        obtain ⟨d, hd, _⟩ := map_eq_ok.mp h
        exact ⟨d, hd⟩
      · rintro ⟨d, hd⟩
        have hterm : contractTermYears (first :: rest) = .ok (if 0 < d then d else 1) :=
          map_eq_ok.mpr ⟨d, hd, rfl⟩
        exact ⟨_, hterm, one_le_term hterm⟩

/-! ## When the rate is right -/

/-- The frequency is named, and a year's rate makes up the term's
payments. -/
structure RateRight [Numbers] (c : Customer) (renewals : List RenewalTerm) (f : Frequency)
    (t : Int) : Prop where
  mode : rateMode c renewals = .ok f.name
  rate : ∃ rate, annualRate c renewals = .ok rate ∧
    rate * t = PayAmount.toF c.payAmount * (f.perYear * t : Int)

theorem perYear_bounds {f : Frequency} (hf : f ≠ .monthly) : 0 < f.perYear ∧ f.perYear < 12 := by
  cases f with
  | monthly => exact absurd rfl hf
  | annual | semiAnnual | quarterly => decide

section
variable {t : Int} (ht : 1 ≤ t)
include ht

/-- Only a year of monthly payments is a year's months. -/
theorem perYear_emod (f : Frequency) :
    f.perYear * t % (t * 12) = if f = .monthly then 0 else f.perYear * t := by
  split_ifs with hf
  · rw [hf, Frequency.perYear, Int.mul_comm, Int.emod_self]
  · obtain ⟨hpos, hlt⟩ := perYear_bounds hf
    refine Int.emod_eq_of_lt (Int.mul_nonneg (by omega) (by omega)) ?_
    rw [Int.mul_comm t]
    exact Int.mul_lt_mul_of_pos_right hlt (by omega)

section
variable {c : Customer} {renewals : List RenewalTerm} {f : Frequency}
  (hterm : contractTermYears renewals = .ok t) (hc : c.numPayments = some (f.perYear * t))
include hterm hc

theorem rateRemainder_eq :
    rateRemainder c renewals = .ok (if f = .monthly then 0 else f.perYear * t) := by
  rw [rateRemainder, hterm, hc, ← perYear_emod ht]
  rfl

theorem rateMode_iff :
    rateMode c renewals = .ok f.name ↔ f = .monthly ∨ t = 1 ∨ (f = .semiAnnual ∧ t ≠ 2) := by
  rw [rateMode, rateRemainder_eq ht hterm hc]
  cases f with
  | monthly => simp [Except.map, Frequency.name]
  | annual | semiAnnual | quarterly =>
      rw [if_neg (by decide), Frequency.perYear]
      simp only [Except.map, Except.ok.injEq, Frequency.name]
      split_ifs <;> simp <;> omega

/-- The rate of a year is that of the whole term, unless it is monthly. -/
theorem annualRate_eq [Numbers] :
    annualRate c renewals = .ok (PayAmount.toF c.payAmount *
      (if f = .monthly then 12 else (f.perYear * t : Int))) := by
  have hpos : 0 < f.perYear * t := by
    cases f <;> simp only [Frequency.perYear] <;> omega
  rw [annualRate, rateRemainder_eq ht hterm hc, hc]
  by_cases hf : f = .monthly
  · rw [if_pos hf, if_pos hf]
    rfl
  · rw [if_neg hf, if_neg hf]
    simp only [Except.map, Option.getD_some]
    rw [if_neg (by omega)]

/-- Taking the term's payments for a year's is right for one year, or for
nothing. -/
theorem rate_iff [Numbers] :
    (∃ rate, annualRate c renewals = .ok rate ∧
      rate * t = PayAmount.toF c.payAmount * (f.perYear * t : Int)) ↔
      f = .monthly ∨ t = 1 ∨ PayAmount.toF c.payAmount = 0 := by
  have hpos : (f.perYear * t : Int) ≠ 0 := by
    cases f <;> simp only [Frequency.perYear] <;> omega
  simp only [annualRate_eq ht hterm hc, Except.ok.injEq, exists_eq_left']
  by_cases hf : f = .monthly
  · rw [if_pos hf, hf, Frequency.perYear]
    refine iff_of_true ?_ (.inl rfl)
    push_cast
    ring
  · have hsame : PayAmount.toF c.payAmount * (f.perYear * t : Int) * t =
        PayAmount.toF c.payAmount * (f.perYear * t : Int) ↔
          PayAmount.toF c.payAmount * (f.perYear * t : Int) = 0 ∨ (t : ℚ) = 1 := by
      rw [mul_right_eq_self₀, or_comm]
    rw [if_neg hf, hsame, mul_eq_zero, Int.cast_eq_zero, Int.cast_eq_one]
    tauto

end

end

/-- The term is known exactly when the newest renewal can be read. Then
the printed rate is right exactly for monthly payments and for terms of
one year; without an amount any rate is right, and two payments a year
are the case that nothing else matches. -/
theorem contract_rate_iff [Numbers] (renewals : List RenewalTerm) :
    ((∃ t, contractTermYears renewals = .ok t ∧ 1 ≤ t) ↔ ∀ r ∈ renewals.head?, ¬ r.Unreadable) ∧
    ∀ (t : Int) (f : Frequency) (c : Customer), contractTermYears renewals = .ok t →
      c.numPayments = some (f.perYear * t) →
      (RateRight c renewals f t ↔
        f = .monthly ∨ t = 1 ∨ (f = .semiAnnual ∧ t ≠ 2 ∧ PayAmount.toF c.payAmount = 0)) := by
  refine ⟨exists_term_iff renewals, fun t f c hterm hc => ?_⟩
  have ht := one_le_term hterm
  have hmode := rateMode_iff ht hterm hc
  have hrate := rate_iff ht hterm hc
  constructor
  · rintro ⟨hm, hr⟩
    rcases hmode.mp hm with hmonthly | hone | ⟨hsemi, htwo⟩
    · exact .inl hmonthly
    · exact .inr (.inl hone)
    · rcases hrate.mp hr with hmonthly | hone | hfree
      · exact .inl hmonthly
      · exact .inr (.inl hone)
      · exact .inr (.inr ⟨hsemi, htwo, hfree⟩)
  · rintro (hmonthly | hone | ⟨hsemi, htwo, hfree⟩)
    · exact ⟨hmode.mpr (.inl hmonthly), hrate.mpr (.inl hmonthly)⟩
    · exact ⟨hmode.mpr (.inr (.inl hone)), hrate.mpr (.inr (.inl hone))⟩
    · exact ⟨hmode.mpr (.inr (.inr ⟨hsemi, htwo⟩)), hrate.mpr (.inr (.inr hfree))⟩

/-- A customer who pays a hundred dollars each time. -/
def payer (n : Int) : Customer :=
  { Customer.new with payAmount := some (.float 100), numPayments := some n }

section
attribute [local instance] Numbers.exact

theorem contract_rate_monthly :
    contractTermYears [⟨some 3, none, none⟩] = .ok 3 ∧
      RateRight (payer 36) [⟨some 3, none, none⟩] .monthly 3 := by
  have hterm : contractTermYears [⟨some 3, none, none⟩] = .ok 3 := by decide
  exact ⟨hterm, ((contract_rate_iff [⟨some 3, none, none⟩]).2 3 .monthly (payer 36) hterm rfl).mpr
    (.inl rfl)⟩

/-- Two years of one payment each: a rate of two payments a year. And a
renewal of minus one year without dates has no term. -/
theorem contract_rate_wrong :
    contractTermYears [⟨some 2, none, none⟩] = .ok 2 ∧
      rateMode (payer 2) [⟨some 2, none, none⟩] = .ok "SEMI-ANNUAL" ∧
      annualRate (payer 2) [⟨some 2, none, none⟩] = .ok 200 ∧
      ¬ RateRight (payer 2) [⟨some 2, none, none⟩] .annual 2 ∧
      contractTermYears [⟨some (-1), none, none⟩] = .error .noMethodError := by
  have hmode : rateMode (payer 2) [⟨some 2, none, none⟩] = .ok "SEMI-ANNUAL" := by decide
  refine ⟨by decide, hmode, ?_, fun h => ?_, by decide⟩
  · have hremainder : rateRemainder (payer 2) [⟨some 2, none, none⟩] = .ok 2 := by decide
    rw [annualRate, hremainder]
    simp [Except.map, payer, PayAmount.toF]
    norm_num
  · have := h.mode
    rw [hmode] at this
    revert this
    decide

end

end HomeWarranty.Admin
