/-
HomeWarranty.Quotes.DiscountEntry — a discount from its form to the price.

The form has an amount and a box that says whether it is a percentage.
The box is not stored: a percentage is divided by a hundred, and a value
of at most 1 is a percentage for every reader. So an amount of a dollar
or less becomes a percentage, and a percentage above a hundred an amount:
`discount_kind_kept_iff`.

Numbers are exact: a value is taken to be given back by its FLOAT column
as it was written, and `amount` shows two decimals of it. What Rails
makes of a text that is assigned to a time column is the parameter
`castTime`; the configured zone is UTC.
-/
import HomeWarranty.Records
import HomeWarranty.Quotes.Total

namespace HomeWarranty.Quotes

open Lib Ruby

/-! ## Discounts -/

/-- A time: its day and the second of the day. -/
structure Moment where
  date : Date
  second : Nat
  deriving DecidableEq

def Moment.midnight (d : Date) : Moment := ⟨d, 0⟩

structure Discount where
  id : Nat
  isMonthly : Option Bool
  startsAt : Option Moment
  endsAt : Option Moment
  value : Option ℚ
  name : Option String
  deriving DecidableEq

instance : Record Discount where
  key := Discount.id
  withKey n d := { d with id := n }
  key_withKey := fun _ _ => rfl

/-- The text of `q.round(2)`; below 10^16 there is no exponent. -/
def roundedText (q : ℚ) : String :=
  let cents := ⌊|q| * 100 + 1 / 2⌋.toNat
  (if q < 0 then "-" else "") ++ toString (cents / 100) ++ "." ++
    if cents % 10 = 0 then toString (cents % 100 / 10) else rjust (toString (cents % 100)) 2 '0'

/-- `is_percentage?`. -/
def Discount.isPercentage (d : Discount) : Bool :=
  match d.value with
  | none => false
  | some value => decide (value ≤ 1)

/-- `amount`; without a value it is the number 0. -/
def Discount.amount (d : Discount) : Option String :=
  match d.value with
  | none => none
  | some value =>
      some (if value ≤ 1 then roundedText (value * 100) ++ "%" else "$" ++ format2 value)

/-! ## The form -/

/-- `params[:discount]`. A key may be missing, and its value may be
`nil`. -/
structure DiscountParams where
  value : Option (Option String)
  isMonthly : Option (Option String)
  startsAt : Option (Option String)
  endsAt : Option (Option String)
  name : Option (Option String)

/-- `value.gsub!(/(\$|\%)/, '')`. -/
def withoutSigns (value : String) : String :=
  String.ofList (value.toList.filter fun c => c != '$' && c != '%')

/-- The value that is assigned: a percentage is a number by then. -/
def enteredValue (isPercentage : Bool) (value : String) : Option ℚ :=
  if isPercentage then some (toF (withoutSigns value) * (1 / 100))
  else floatColumn (some (withoutSigns value))

/-- `Date.strptime(s, "%m/%d/%y")`; `none` where it raises. -/
def strptimeShort (s : String) : Option Date := do
  let (m, cs) ← readDigits 2 s.toList
  let '/' :: cs := cs | none
  let (d, cs) ← readDay cs
  let '/' :: cs := cs | none
  let (y, []) ← readDigits 2 cs | none
  let year : Int := if 69 ≤ y then 1900 + y else 2000 + y
  if validCivil year m d then some ⟨year, m, d⟩ else none

example : strptimeShort "02/29/16" = some ⟨2016, 2, 29⟩ ∧ strptimeShort "02/29/2016" = none := by
  decide +kernel

/-- `create`: the tables and the key of the discount that was saved. -/
def createDiscount (t : Table Discount) (isPercentage : Bool) (p : DiscountParams) :
    Except RubyError (Table Discount × Option Nat) :=
  match p.value.join with
  | none => .error .noMethodError
  | some value =>
      match p.startsAt.join.bind strptimeShort, p.endsAt.join.bind strptimeShort with
      | some startsAt, some endsAt =>
          .ok (t.insert
            { id := 0, isMonthly := castBoolean p.isMonthly.join,
              startsAt := some (.midnight startsAt), endsAt := some (.midnight endsAt),
              value := enteredValue isPercentage value, name := p.name.join.map textColumn },
            some t.nextKey)
      | _, _ => .ok (t, none)

/-- `update_attributes`. -/
def Discount.updateAttributes (castTime : String → Option Moment) (isPercentage : Bool)
    (p : DiscountParams) (value : String) (d : Discount) : Discount :=
  { d with
    isMonthly := (p.isMonthly.map castBoolean).getD d.isMonthly
    startsAt := (p.startsAt.map fun posted => posted.bind castTime).getD d.startsAt
    endsAt := (p.endsAt.map fun posted => posted.bind castTime).getD d.endsAt
    value := enteredValue isPercentage value
    name := (p.name.map (Option.map textColumn)).getD d.name }

/-- The dates are read and saved after the attributes. -/
def Discount.withDates (p : DiscountParams) (d : Discount) : Discount :=
  match p.startsAt.join.bind strptimeShort, p.endsAt.join.bind strptimeShort with
  | some startsAt, some endsAt =>
      { d with startsAt := some (.midnight startsAt), endsAt := some (.midnight endsAt) }
  | _, _ => d

/-- The discount after `update`. -/
def Discount.update (castTime : String → Option Moment) (isPercentage : Bool) (p : DiscountParams)
    (value : String) (d : Discount) : Discount :=
  (d.updateAttributes castTime isPercentage p value).withDates p

/-- The dates are all that is read. -/
theorem withDates_same (p : DiscountParams) (d : Discount) :
    Record.key (d.withDates p) = Record.key d ∧ (d.withDates p).value = d.value := by
  unfold Discount.withDates
  split <;> exact ⟨rfl, rfl⟩

theorem key_update (castTime : String → Option Moment) (isPercentage : Bool) (p : DiscountParams)
    (value : String) (d : Discount) :
    Record.key (d.update castTime isPercentage p value) = Record.key d :=
  (withDates_same p _).1

/-- `update`. -/
def updateDiscount (castTime : String → Option Moment) (t : Table Discount) (id : Option String)
    (isPercentage : Bool) (p : DiscountParams) : Except RubyError (Table Discount × Option Nat) :=
  match p.value.join with
  | none => .error .noMethodError
  | some value =>
      (findRecord t id).map fun found =>
        (t.update found.id (Discount.update castTime isPercentage p value)
          (key_update castTime isPercentage p value), some found.id)

inductive DiscountRequest where
  | create (isPercentage : Bool) (p : DiscountParams)
  | update (id : Option String) (isPercentage : Bool) (p : DiscountParams)

def DiscountRequest.perform (castTime : String → Option Moment) (t : Table Discount) :
    DiscountRequest → Except RubyError (Table Discount × Option Nat)
  | .create isPercentage p => createDiscount t isPercentage p
  | .update id isPercentage p => updateDiscount castTime t id isPercentage p

/-- The box. -/
def DiscountRequest.isPercentage : DiscountRequest → Bool
  | .create isPercentage _ => isPercentage
  | .update _ isPercentage _ => isPercentage

def DiscountRequest.params : DiscountRequest → DiscountParams
  | .create _ p => p
  | .update _ _ p => p

/-! ## Amounts as they are written -/

/-- A decimal numeral. -/
structure Decimal where
  whole : List Char
  frac : List Char
  ne_nil : whole ++ frac ≠ []
  digits : ∀ c ∈ whole ++ frac, c.isDigit = true

/-- The point is written where there is something behind it. -/
def Decimal.text (n : Decimal) : List Char :=
  n.whole ++ if n.frac.isEmpty then [] else '.' :: n.frac

def Decimal.amount (n : Decimal) : ℚ := digitsValue (n.whole ++ n.frac) / 10 ^ n.frac.length

/-- The text is the numeral, with any signs in it. -/
def Writes (s : String) (n : Decimal) : Prop := (withoutSigns s).toList = n.text

instance (s : String) (n : Decimal) : Decidable (Writes s n) :=
  inferInstanceAs (Decidable ((withoutSigns s).toList = n.text))

theorem Decimal.head_text (n : Decimal) :
    ∃ c cs, n.text = c :: cs ∧ (c.isDigit = true ∨ c = '.') := by
  cases hwhole : n.whole with
  | cons c cs =>
      refine ⟨c, _, by rw [Decimal.text, hwhole]; rfl, .inl (n.digits c ?_)⟩
      rw [hwhole]
      exact List.mem_cons_self
  | nil =>
      have hfrac : n.frac ≠ [] := by
        have := n.ne_nil
        rwa [hwhole, List.nil_append] at this
      refine ⟨'.', n.frac, ?_, .inr rfl⟩
      rw [Decimal.text, hwhole, if_neg (by simpa using hfrac)]
      rfl

theorem Decimal.dropWhile_text (n : Decimal) : n.text.dropWhile isAsciiSpace = n.text := by
  obtain ⟨c, cs, htext, hc⟩ := n.head_text
  have hspace : isAsciiSpace c = false := by
    rcases hc with hd | rfl
    · exact isAsciiSpace_of_isDigit hd
    · rfl
  rw [htext, List.dropWhile_cons_of_neg (by rw [hspace]; decide)]

theorem Decimal.signOf_text (n : Decimal) : signOf n.text = (false, n.text) := by
  obtain ⟨c, cs, htext, hc⟩ := n.head_text
  rw [htext]
  unfold signOf
  split
  · rename_i heq
    obtain rfl := (List.cons.inj heq).1
    exact absurd hc (by decide)
  · rename_i heq
    obtain rfl := (List.cons.inj heq).1
    exact absurd hc (by decide)
  · rfl

theorem Decimal.toF_text (n : Decimal) : toF (String.ofList n.text) = n.amount := by
  have hrest : ∀ c ∈ (if n.frac.isEmpty then [] else '.' :: n.frac).head?,
      c.isDigit = false ∧ c ≠ '_' := by
    intro c hc
    split_ifs at hc
    · cases hc
    · cases hc
      decide
  have hrun : digitRun false n.text = (n.whole, if n.frac.isEmpty then [] else '.' :: n.frac) :=
    digitRun_digits false n.whole _ (fun c hc => n.digits c (List.mem_append_left _ hc)) hrest
  have hfraction : fractionOf (if n.frac.isEmpty then [] else '.' :: n.frac) = (n.frac, []) := by
    cases hfrac : n.frac with
    | nil => rfl
    | cons d ds =>
        have hdigits : digitRun false (d :: ds) = (d :: ds, []) := by
          have := digitRun_digits false (d :: ds) []
            (fun c hc => n.digits c (List.mem_append_right _ (hfrac ▸ hc))) (by simp)
          rwa [List.append_nil] at this
        simp [fractionOf, hdigits]
  simp only [toF, String.toList_ofList, n.dropWhile_text, n.signOf_text, hrun, hfraction,
    exponentOf]
  simp [Decimal.amount]

theorem Writes.toF {s : String} {n : Decimal} (h : Writes s n) :
    toF (withoutSigns s) = n.amount := by
  have htext : withoutSigns s = String.ofList n.text := by
    rw [← h, String.ofList_toList]
  rw [htext, n.toF_text]

theorem Writes.not_blank {s : String} {n : Decimal} (h : Writes s n) :
    blank (withoutSigns s) = false := by
  obtain ⟨c, cs, htext, hc⟩ := n.head_text
  have hspace : isSpace c = false := by
    rcases hc with hd | rfl
    · have := digit_bounds hd
      simp [isSpace]
      omega
    · rfl
  rw [blank, h, htext, List.all_cons, hspace, Bool.false_and]

/-- A percentage is divided by a hundred, an amount is stored as it is. -/
theorem enteredValue_eq {s : String} {n : Decimal} (h : Writes s n) (isPercentage : Bool) :
    enteredValue isPercentage s = some (if isPercentage then n.amount / 100 else n.amount) := by
  cases isPercentage with
  | true =>
      rw [enteredValue, if_pos rfl, if_pos rfl, h.toF, mul_one_div]
  | false =>
      simp only [enteredValue, floatColumn, h.not_blank, h.toF, Bool.false_eq_true, if_false]

/-! ## What is read back -/

/-- Each reader takes the discount for `v` percent or for `v` dollars. -/
structure ReadsAs (d : Discount) (isPercentage : Bool) (v : ℚ) : Prop where
  kind : d.isPercentage = isPercentage
  amount : d.amount = some (if isPercentage then roundedText v ++ "%" else "$" ++ format2 v)
  taken : ∃ value, d.value = some value ∧ ∀ price,
    getDiscountAmount price value - 100 = if isPercentage then price * (v / 100) else v

theorem readsAs_iff {d : Discount} {isPercentage : Bool} {v : ℚ}
    (h : d.value = some (if isPercentage then v / 100 else v)) :
    ReadsAs d isPercentage v ↔ if isPercentage then v ≤ 100 else 1 < v := by
  cases isPercentage with
  | true =>
      simp only [if_true] at h ⊢
      constructor
      · intro hreads
        have hkind := hreads.kind
        simp only [Discount.isPercentage, h, decide_eq_true_iff] at hkind
        linarith
      · intro hle
        have hvalue : v / 100 ≤ 1 := by linarith
        refine ⟨?_, ?_, v / 100, h, fun price => ?_⟩
        · simp only [Discount.isPercentage, h, hvalue, decide_true]
        · simp only [Discount.amount, h, hvalue, if_true]
          rw [div_mul_cancel₀ v (by norm_num)]
        · rw [getDiscountAmount, if_neg (by linarith), if_pos rfl]
          ring
  | false =>
      simp only [Bool.false_eq_true, if_false] at h ⊢
      constructor
      · intro hreads
        have hkind := hreads.kind
        simp only [Discount.isPercentage, h, decide_eq_false_iff_not, not_le] at hkind
        exact hkind
      · intro hlt
        have hvalue : ¬ v ≤ 1 := not_le.mpr hlt
        refine ⟨?_, ?_, v, h, fun price => ?_⟩
        · simp only [Discount.isPercentage, h, hvalue, decide_false]
        · simp only [Discount.amount, h, hvalue, if_false, Bool.false_eq_true]
        · rw [getDiscountAmount, if_pos hlt, if_neg (by decide)]
          ring

/-- A request that saves a discount saves the value that was entered. -/
theorem value_of_perform {castTime : String → Option Moment} {t t' : Table Discount}
    {r : DiscountRequest} {k : Nat} {s : String} (hvalue : r.params.value = some (some s))
    (h : r.perform castTime t = .ok (t', some k)) :
    ∃ d, t'.find? k = some d ∧ d.value = enteredValue r.isPercentage s := by
  cases r with
  | create isPercentage p =>
      have hp : p.value.join = some s := Option.join_eq_some_iff.mpr hvalue
      simp only [DiscountRequest.perform, createDiscount, hp] at h
      split at h
      · cases h
        exact ⟨_, Table.find?_insert_new t _, rfl⟩
      · cases h
  | update id isPercentage p =>
      have hp : p.value.join = some s := Option.join_eq_some_iff.mpr hvalue
      simp only [DiscountRequest.perform, updateDiscount, hp] at h
      obtain ⟨found, hfound, h⟩ := map_eq_ok.mp h
      cases h
      refine ⟨_, @Table.find?_update_self _ _ _ (key_update castTime isPercentage p s) t _ _
        (find?_of_findRecord hfound), ?_⟩
      exact (withDates_same p _).2

/-- A discount that is saved is read back as it was entered exactly when
it is a percentage up to a hundred, or an amount above a dollar. -/
theorem discount_kind_kept_iff (castTime : String → Option Moment) (t t' : Table Discount)
    (r : DiscountRequest) (k : Nat) (s : String) (n : Decimal)
    (hvalue : r.params.value = some (some s)) (hwrites : Writes s n)
    (hsaved : r.perform castTime t = .ok (t', some k)) :
    (∃ d, t'.find? k = some d ∧ ReadsAs d r.isPercentage n.amount) ↔
      if r.isPercentage then n.amount ≤ 100 else 1 < n.amount := by
  obtain ⟨d, hfind, hd⟩ := value_of_perform hvalue hsaved
  rw [enteredValue_eq hwrites] at hd
  rw [← readsAs_iff hd]
  constructor
  · rintro ⟨d', hfind', hreads⟩
    obtain rfl : d' = d := Option.some.inj (hfind'.symm.trans hfind)
    exact hreads
  · intro hreads
    exact ⟨d, hfind, hreads⟩

/-- A discount for the year 2016. -/
def yearDiscount (isPercentage : Bool) (value : String) : DiscountRequest :=
  .create isPercentage ⟨some (some value), some (some "0"), some (some "01/01/16"),
    some (some "12/31/16"), some (some "SAVE")⟩

/-- The row that `yearDiscount` saves. -/
def yearRow (value : ℚ) : Discount where
  id := 1
  isMonthly := some false
  startsAt := some (.midnight ⟨2016, 1, 1⟩)
  endsAt := some (.midnight ⟨2016, 12, 31⟩)
  value := some value
  name := some "SAVE"

def twenty : Decimal := ⟨"20".toList, [], by decide, List.all_eq_true.mp (by decide +kernel)⟩

theorem discount_kind_kept_twenty :
    ∃ t', (yearDiscount true "20%").perform (fun _ => none) Table.empty = .ok (t', some 1) ∧
      ∃ d, t'.find? 1 = some d ∧ ReadsAs d true 20 := by
  have hamount : twenty.amount = 20 := by decide +kernel
  have hsaved : ∃ t', (yearDiscount true "20%").perform (fun _ => none) Table.empty =
      .ok (t', some 1) := ⟨_, rfl⟩
  obtain ⟨t', hsaved⟩ := hsaved
  have hkept := discount_kind_kept_iff (fun _ => none) Table.empty t' (yearDiscount true "20%") 1
    "20%" twenty rfl (by decide +kernel) hsaved
  rw [hamount] at hkept
  exact ⟨t', hsaved, hkept.mpr (by norm_num [yearDiscount, DiscountRequest.isPercentage])⟩

/-- Fifty cents are read back as half of the price. -/
theorem discount_kind_lost :
    ∃ t', (yearDiscount false "$0.50").perform (fun _ => none) Table.empty = .ok (t', some 1) ∧
      t'.find? 1 = some (yearRow (1 / 2)) ∧ (yearRow (1 / 2)).isPercentage = true ∧
      (yearRow (1 / 2)).amount = some "50.0%" ∧ getDiscountAmount 600 (1 / 2) - 100 = 300 ∧
      ¬ ReadsAs (yearRow (1 / 2)) false (1 / 2) := by
  have hkind : (yearRow (1 / 2)).isPercentage = true := by decide +kernel
  refine ⟨_, rfl, by decide +kernel, hkind, by decide +kernel, by decide +kernel, fun h => ?_⟩
  rw [h.kind] at hkind
  cases hkind

end HomeWarranty.Quotes
