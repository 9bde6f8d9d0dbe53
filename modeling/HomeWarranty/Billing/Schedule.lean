/-
HomeWarranty.Billing.Schedule — how often a customer is charged, as the
gateway is told and as the staff is shown.

`billing` sends the gateway an interval in months and a number of
charges. The interval is twelve divided by the number of payments,
rounded down, where a number of zero counts as one; the number of charges
is the number of payments itself. Together they make a year exactly when
the number of payments divides twelve: `recurring_covers_year_iff`.

A subscription at the other gateway is stored with a number of charges
that is computed from its dates. The earlier date is where the later one
should be, so the number is never positive, and neither the period nor
the interval is looked at: `occurances_never_count`.

The number of charges is stored as a text and kept here as the number.
The clock is read once.
-/
import Mathlib.Data.Set.Card
import HomeWarranty.Ruby.Calendar
import HomeWarranty.Site.BillingTheorems

namespace HomeWarranty.Billing

open Lib Ruby Site

/-! ## What the gateway is told -/

/-- The charges are a month apart or more, there is one, and together
they make a year. -/
structure CoversYear (r : Recurring) : Prop where
  interval : 1 ≤ r.intervalMonths
  occurrences : 1 ≤ r.occurrences
  year : r.intervalMonths * r.occurrences = 12

/-- The schedule for a number of payments. -/
def Recurring.ScheduledFor (r : Recurring) (numPayments : Option Int) : Prop :=
  r.intervalMonths = Int.fdiv 12 (if numPayments.getD 0 = 0 then 1 else numPayments.getD 0) ∧
    r.occurrences = numPayments.getD 0

/-- The number of payments that a request carries from its start up to
the gateway. -/
def CarriesPayments (numPayments : Option Int) (shop : Shop) (p : BillingProc) : Prop :=
  match p.pc with
  | .start => ∀ c, loadCustomer shop.db p.req = some c → c.numPayments = numPayments
  | .loaded c => c.numPayments = numPayments
  | .prepared c => c.numPayments = numPayments
  | .profiled c _ _ => c.numPayments = numPayments
  | _ => True

/-- What was sent since the calls `before`. -/
def SentSince (numPayments : Option Int) (before : List Recurring) (shop : Shop) : Prop :=
  ∃ sent, shop.recurrings = before ++ sent ∧ ∀ r ∈ sent, Recurring.ScheduledFor r numPayments

section
variable {numPayments : Option Int} {before : List Recurring} {shop shop' : Shop}
  {p p' : BillingProc}

theorem SentSince.append [Numbers] (h : SentSince numPayments before shop) {c : Customer}
    (hc : c.numPayments = numPayments) (answer : RecurringAnswer) :
    SentSince numPayments before
      { shop with recurrings := shop.recurrings ++ [recurringOf c answer] } := by
  obtain ⟨sent, hrecurrings, hall⟩ := h
  refine ⟨sent ++ [recurringOf c answer], by rw [hrecurrings, List.append_assoc], fun r hr => ?_⟩
  rcases List.mem_append.mp hr with hr | hr
  · exact hall r hr
  · obtain rfl := List.mem_singleton.mp hr
    rw [← hc]
    exact ⟨rfl, rfl⟩

/-- A step sends at most the schedule of the number it carries. -/
theorem sent_step [Numbers] (hcarries : CarriesPayments numPayments shop p)
    (hsent : SentSince numPayments before shop) (h : billingStep shop p = some (shop', p')) :
    CarriesPayments numPayments shop' p' ∧ SentSince numPayments before shop' := by
  obtain ⟨pc, rfl, hmove⟩ := billingMove_of_step h
  cases hmove with
  | giveUp => exact ⟨trivial, hsent⟩
  | load hpc hc =>
      simp only [CarriesPayments, hpc] at hcarries
      exact ⟨hcarries _ hc, hsent⟩
  | noGateway hpc => exact ⟨trivial, hsent⟩
  | prepare hpc hparams ha hg =>
      simp only [CarriesPayments, hpc] at hcarries
      exact ⟨hcarries, hsent⟩
  | profile hpc hxy hdate =>
      simp only [CarriesPayments, hpc] at hcarries
      exact ⟨hcarries, hsent⟩
  | charge hpc hxy hans =>
      simp only [CarriesPayments, hpc] at hcarries
      exact ⟨trivial, hsent.append hcarries _⟩
  | decline hpc hans =>
      simp only [CarriesPayments, hpc] at hcarries
      exact ⟨trivial, hsent.append hcarries _⟩
  | record hpc hhash hdate => exact ⟨trivial, hsent⟩
  | renew hpc => exact ⟨trivial, hsent⟩
  | account hpc => exact ⟨trivial, hsent⟩
  | mail hpc hmail => exact ⟨trivial, hsent⟩
  | plan hpc hparams => exact ⟨trivial, hsent⟩

end

/-- A whole request sends the schedule of the number that is stored. -/
theorem sent_billing [Numbers] (shop : Shop) (req : BillingRequest) (env : BillingEnv) {n : Nat}
    {c : Customer} (hcookie : req.customerCookie = some n)
    (hc : shop.db.customers.find? n = some c) :
    SentSince c.numPayments shop.recurrings (billing shop req env) := by
  have hload : CarriesPayments c.numPayments shop (BillingProc.begin req env) := by
    intro c' hc'
    have hloaded : loadCustomer shop.db req = some c' := hc'
    simp only [loadCustomer, hcookie, hc, Option.ite_none_right_eq_some,
      Option.some.injEq] at hloaded
    rw [← hloaded.2]
  have hrun := alone_invariant
    (fun shop' p => CarriesPayments c.numPayments shop' p ∧
      SentSince c.numPayments shop.recurrings shop')
    (fun _ _ _ _ h hstep => sent_step h.1 h.2 hstep) 9 shop (BillingProc.begin req env)
    ⟨hload, [], (List.append_nil _).symm, by simp⟩
  exact hrun.2

theorem coversYear_iff {r : Recurring} {k : Nat} (h : Recurring.ScheduledFor r (some (k : Int))) :
    CoversYear r ↔ k ∣ 12 := by
  obtain ⟨hinterval, hoccurrences⟩ := h
  rw [Option.getD_some] at hinterval hoccurrences
  rcases Nat.eq_zero_or_pos k with rfl | hk
  · refine iff_of_false (fun hcovers => ?_) (by decide)
    have := hcovers.occurrences
    rw [hoccurrences] at this
    omega
  · rw [if_neg (by omega), Int.fdiv_eq_ediv_of_nonneg _ (by omega)] at hinterval
    have hcast : r.intervalMonths = ((12 / k : Nat) : Int) := by
      rw [hinterval]
      norm_cast
    constructor
    · intro hcovers
      have hyear := hcovers.year
      rw [hcast, hoccurrences] at hyear
      have hmul : 12 / k * k = 12 := by exact_mod_cast hyear
      exact Dvd.intro_left _ hmul
    · intro hdvd
      have hmul := Nat.div_mul_cancel hdvd
      have hpos : 1 ≤ 12 / k := Nat.div_pos (Nat.le_of_dvd (by decide) hdvd) hk
      refine ⟨?_, ?_, ?_⟩
      · rw [hcast]
        exact_mod_cast hpos
      · rw [hoccurrences]
        exact_mod_cast hk
      · rw [hcast, hoccurrences]
        exact_mod_cast hmul

/-- Whatever number of payments is stored, each schedule that the request
sends makes a year exactly when the number divides twelve. -/
theorem recurring_covers_year_iff [Numbers] (shop : Shop) (req : BillingRequest)
    (env : BillingEnv) (n k : Nat) (c : Customer) (sent : List Recurring) (r : Recurring)
    (hcookie : req.customerCookie = some n) (hc : shop.db.customers.find? n =
      some c) (hk : c.numPayments = some (k : Int))
    (hsent : (billing shop req env).recurrings = shop.recurrings ++ sent) (hr : r ∈ sent) :
    CoversYear r ↔ k ∣ 12 := by
  obtain ⟨sent', hsent', hall⟩ := sent_billing shop req env hcookie hc
  obtain rfl : sent' = sent := List.append_cancel_left (hsent'.symm.trans hsent)
  exact coversYear_iff (hk ▸ hall r hr)

section
attribute [local instance] Numbers.exact

/-- Four payments, three months apart. -/
theorem recurring_covers_year_quarterly :
    (billing ⟨quoted (.float 150) 4, []⟩ (purchase "150" "4") smooth).recurrings =
        [⟨1, 15000, 3, 4, true⟩] ∧
      CoversYear ⟨1, 15000, 3, 4, true⟩ := by
  have hsent : (billing ⟨quoted (.float 150) 4, []⟩ (purchase "150" "4") smooth).recurrings =
      [⟨1, 15000, 3, 4, true⟩] := by decide +kernel
  refine ⟨hsent, (recurring_covers_year_iff ⟨quoted (.float 150) 4, []⟩ (purchase "150" "4") smooth
    1 4 _ _ _ rfl rfl rfl hsent (List.mem_singleton.mpr rfl)).mpr (by decide)⟩

/-- Five payments every second month, and no payment at all. -/
theorem recurring_misses_year :
    (billing ⟨quoted (.float 120) 5, []⟩ (purchase "120" "5") smooth).recurrings =
        [⟨1, 12000, 2, 5, true⟩] ∧
      ¬ CoversYear ⟨1, 12000, 2, 5, true⟩ ∧
      (billing ⟨quoted (.float 600) 0, []⟩ (purchase "600" "0") smooth).recurrings =
        [⟨1, 60000, 12, 0, true⟩] ∧
      ¬ CoversYear ⟨1, 60000, 12, 0, true⟩ := by
  refine ⟨by decide +kernel, fun h => ?_, by decide +kernel, fun h => ?_⟩
  · exact absurd h.year (by decide)
  · exact absurd h.occurrences (by decide)

end

/-! ## What the staff is shown -/

/-- The columns of a subscription that its schedule is made of. -/
structure SubscriptionPlan where
  startDate : Option Date
  endDate : Option Date
  interval : Option String
  period : Option String
  occurances : Option Int
  deriving DecidableEq

/-- `update_occuranges`. -/
def SubscriptionPlan.updateOccuranges (s : SubscriptionPlan) (today : Date) : SubscriptionPlan :=
  let startDate := s.startDate.getD today
  let endDate := s.endDate.getD today
  let diff := startDate.jd - endDate.jd
  let s := { s with occurances := some (diff / 6) }
  let s :=
    if s.startDate.isSome ∨ s.endDate.isSome then s
    else
      { s with
        startDate := some startDate
        endDate := some endDate
        interval := if presentOpt s.interval then s.interval else some "1" }
  if presentOpt s.period then s else { s with period := some "Day" }

/-- `Subscription::PERIOD`. -/
inductive Period where
  | day
  | week
  | month
  | year
  deriving DecidableEq

/-- The day number of a date and so many periods. -/
def Period.after (period : Period) (start : Date) (n : Nat) : Int :=
  match period with
  | .day => start.jd + n
  | .week => start.jd + 7 * n
  | .month => (start.addMonths n).jd
  | .year => (start.addMonths (12 * n)).jd

/-- The billing dates up to the end, by their number. -/
def billingDates (start endDate : Date) (period : Period) (interval : Nat) : Set ℕ :=
  { i | period.after start (i * interval) ≤ endDate.jd }

theorem addMonths_zero {d : Date} (h : d.Storable) : d.addMonths 0 = d := by
  rw [addMonths_eq, Int.add_zero, h.eq_dateIn]

/-- The start is a billing date. -/
theorem zero_mem_billingDates {start endDate : Date} (h : start.Storable)
    (hle : start.jd ≤ endDate.jd) (period : Period) (interval : Nat) :
    0 ∈ billingDates start endDate period interval := by
  have hzero : period.after start (0 * interval) = start.jd := by
    rw [Nat.zero_mul]
    cases period with
    | day => exact Int.add_zero _
    | week => exact Int.add_zero _
    | month => exact congrArg Date.jd (addMonths_zero h)
    | year => exact congrArg Date.jd (addMonths_zero h)
  show period.after start (0 * interval) ≤ endDate.jd
  rwa [hzero]

theorem occurances_updateOccuranges {s : SubscriptionPlan} {start endDate : Date}
    (hstart : s.startDate = some start) (hend : s.endDate = some endDate) (today : Date) :
    (s.updateOccuranges today).occurances = some ((start.jd - endDate.jd) / 6) := by
  simp only [SubscriptionPlan.updateOccuranges, hstart, hend, Option.isSome_some, true_or, if_true,
    Option.getD_some]
  split_ifs <;> rfl

/-- Whatever the dates, the period and the interval are, the number that
is stored is not the number of billing dates: it is never positive. -/
theorem occurances_never_count (s : SubscriptionPlan) (today start endDate : Date) (period : Period)
    (interval : Nat) (hstart : s.startDate = some start) (hend : s.endDate = some endDate)
    (hdate : start.Storable) (hle : start.jd ≤ endDate.jd) :
    (¬ ∃ n : ℕ, (s.updateOccuranges today).occurances = some (n : Int) ∧
      (billingDates start endDate period interval).encard = n) ∧
    ¬ ∃ n : Int, (s.updateOccuranges today).occurances = some n ∧ 0 < n := by
  have hstored := occurances_updateOccuranges hstart hend today
  have hneg : (start.jd - endDate.jd) / 6 ≤ 0 := by omega
  constructor
  · rintro ⟨n, hn, hcard⟩
    rw [hstored, Option.some.injEq] at hn
    have hzero : n = 0 := by omega
    rw [hzero, Nat.cast_zero, Set.encard_eq_zero] at hcard
    have hmem := zero_mem_billingDates hdate hle period interval
    rw [hcard] at hmem
    exact hmem
  · rintro ⟨n, hn, hpositive⟩
    rw [hstored, Option.some.injEq] at hn
    omega

/-- January, monthly: one charge, and minus five are stored. -/
def january : SubscriptionPlan where
  startDate := some ⟨2016, 1, 1⟩
  endDate := some ⟨2016, 1, 31⟩
  interval := some "1"
  period := some "Month"
  occurances := none

theorem occurances_never_count_january :
    ¬ ∃ n : ℕ, (january.updateOccuranges ⟨2016, 1, 1⟩).occurances = some (n : Int) ∧
      (billingDates ⟨2016, 1, 1⟩ ⟨2016, 1, 31⟩ .month 1).encard = n :=
  (occurances_never_count january ⟨2016, 1, 1⟩ ⟨2016, 1, 1⟩ ⟨2016, 1, 31⟩ .month 1 rfl rfl
    (by decide) (by decide)).1

theorem occurances_january :
    (january.updateOccuranges ⟨2016, 1, 1⟩).occurances = some (-5) ∧
      0 ∈ billingDates ⟨2016, 1, 1⟩ ⟨2016, 1, 31⟩ .month 1 ∧
      ¬ ∃ n : ℕ, (january.updateOccuranges ⟨2016, 1, 1⟩).occurances = some (n : Int) ∧
        (billingDates ⟨2016, 1, 1⟩ ⟨2016, 1, 31⟩ .month 1).encard = n := by
  have hstored : (january.updateOccuranges ⟨2016, 1, 1⟩).occurances = some (-5) := by decide
  refine ⟨hstored, zero_mem_billingDates (by decide) (by decide) .month 1, ?_⟩
  rintro ⟨n, hn, _⟩
  rw [hstored, Option.some.injEq] at hn
  omega

end HomeWarranty.Billing
