/-
HomeWarranty.Ruby.Calendar — months as whole numbers, and what repeated
`Date#>>` does to a date.

A date is a month, counted from January of the year 0, and a day that
the month has: `dateIn`. Adding months adds to the count and clips the
day to the month (`dayIn`). Which days come through two months as another
one does is `dayIn_dayIn_eq_iff`.

`Date.Storable` says that a date column can hold a date. `Date.jd`
numbers the days; dates are compared by it.
-/
import HomeWarranty.Ruby.Column

namespace HomeWarranty.Ruby

/-- The months from January of the year 0. -/
def Date.monthIndex (d : Date) : Int := d.year * 12 + (d.month - 1 : Nat)

/-- The last day of a month that is not after `day`. -/
def dayIn (i : Int) (day : Nat) : Nat := clipDay (i / 12) ((i % 12).toNat + 1) day

/-- A day of a month, clipped to it. -/
def dateIn (i : Int) (day : Nat) : Date where
  year := i / 12
  month := (i % 12).toNat + 1
  day := dayIn i day

theorem addMonths_eq (d : Date) (n : Int) : d.addMonths n = dateIn (d.monthIndex + n) d.day := rfl

@[simp] theorem monthIndex_dateIn (i : Int) (day : Nat) : (dateIn i day).monthIndex = i := by
  simp only [dateIn, Date.monthIndex]
  omega

@[simp] theorem day_dateIn (i : Int) (day : Nat) : (dateIn i day).day = dayIn i day := rfl

/-- Two dates are the same when month and day are. -/
theorem dateIn_eq_iff {i j : Int} {a b : Nat} :
    dateIn i a = dateIn j b ↔ i = j ∧ dayIn i a = dayIn j b := by
  constructor
  · intro h
    have hmonth := congrArg Date.monthIndex h
    rw [monthIndex_dateIn, monthIndex_dateIn] at hmonth
    subst hmonth
    exact ⟨rfl, congrArg Date.day h⟩
  · rintro ⟨rfl, h⟩
    simp only [dateIn, h]

/-- Months back and months forth. -/
theorem addMonths_addMonths (d : Date) (f m : Int) :
    (d.addMonths (-f)).addMonths m
      = dateIn (d.monthIndex - f + m) (dayIn (d.monthIndex - f) d.day) := by
  rw [addMonths_eq, addMonths_eq, monthIndex_dateIn, day_dateIn, Int.sub_eq_add_neg]

/-! ## Clipped days -/

theorem le_daysInMonth (y : Int) (m : Nat) : 28 ≤ daysInMonth y m := by
  unfold daysInMonth
  split <;> (try split) <;> omega

theorem clipDay_le (y : Int) (m day : Nat) : clipDay y m day ≤ day := by
  simp only [clipDay]
  split <;> omega

theorem clipDay_mono (y : Int) (m : Nat) {a b : Nat} (h : a ≤ b) :
    clipDay y m a ≤ clipDay y m b := by
  simp only [clipDay]
  split <;> split <;> omega

@[simp] theorem clipDay_clipDay (y : Int) (m day : Nat) :
    clipDay y m (clipDay y m day) = clipDay y m day := by
  have hlength := le_daysInMonth y m
  simp only [clipDay]
  split_ifs <;> omega

/-- What another month leaves of a day is a day that the month has: the
same day, the end of the other month, which is after the 27th, or the
4th. -/
theorem clipDay_other (y z : Int) (m n day : Nat) :
    clipDay y m (clipDay z n (clipDay y m day)) = clipDay z n (clipDay y m day) := by
  have hfirst := le_daysInMonth y m
  have hsecond := le_daysInMonth z n
  simp only [clipDay]
  split_ifs <;> omega

theorem dayIn_le (i : Int) (day : Nat) : dayIn i day ≤ day := clipDay_le _ _ day

/-- Two days come through two months as the same day exactly when the
earlier one is not before what is left of the later one. -/
theorem dayIn_dayIn_eq_iff (i j : Int) {a b : Nat} (h : a ≤ b) :
    dayIn j (dayIn i a) = dayIn j (dayIn i b) ↔ dayIn j (dayIn i b) ≤ a := by
  have hmono : ∀ {a b : Nat}, a ≤ b → dayIn j (dayIn i a) ≤ dayIn j (dayIn i b) :=
    fun h => clipDay_mono _ _ (clipDay_mono _ _ h)
  have hleft : dayIn j (dayIn i (dayIn j (dayIn i b))) = dayIn j (dayIn i b) :=
    (congrArg (dayIn j) (clipDay_other _ _ _ _ b)).trans (clipDay_clipDay _ _ _)
  constructor
  · intro heq
    rw [← heq]
    exact (dayIn_le j _).trans (dayIn_le i a)
  · intro hle
    have hback := hmono hle
    rw [hleft] at hback
    exact le_antisymm (hmono h) hback

/-! ## Days -/

/-- `Date#jd`: the Julian day number. The calendar is the Gregorian one
from day 2299161 on, which is the 15th of October 1582. -/
def Date.jd (d : Date) : Int :=
  -- the year begins in March
  let late : Int := if d.month ≤ 2 then 1 else 0
  let y := d.year + 4800 - late
  let m := d.month + 12 * late - 3
  let days := d.day + (153 * m + 2) / 5 + 365 * y + y / 4
  let gregorian := days - y / 100 + y / 400 - 32045
  if 2299161 ≤ gregorian then gregorian else days - 32083

example : (Date.mk 2000 1 1).jd = 2451545 ∧ (Date.mk 1582 10 15).jd = 2299161 ∧
    (Date.mk 1582 10 4).jd = 2299160 ∧
    (Date.mk 2016 3 1).jd = (Date.mk 2016 2 29).jd + 1 := by decide

/-- A date that a date column can hold. -/
structure Date.Storable (d : Date) : Prop where
  month_pos : 1 ≤ d.month
  month_le : d.month ≤ 12
  day : dayIn d.monthIndex d.day = d.day
  column : d.inColumn = true

instance (d : Date) : Decidable d.Storable :=
  decidable_of_iff ((1 ≤ d.month ∧ d.month ≤ 12) ∧ dayIn d.monthIndex d.day = d.day ∧
      d.inColumn = true)
    ⟨fun h => ⟨h.1.1, h.1.2, h.2.1, h.2.2⟩, fun h => ⟨⟨h.1, h.2⟩, h.3, h.4⟩⟩

theorem Date.Storable.eq_dateIn {d : Date} (h : d.Storable) : dateIn d.monthIndex d.day = d := by
  have hday := h.day
  obtain ⟨y, m, day⟩ := d
  obtain ⟨h1, h2, _, _⟩ := h
  simp only [Date.monthIndex] at *
  simp only [dateIn, Date.mk.injEq]
  exact ⟨by omega, by omega, hday⟩

theorem storable_dateIn {i : Int} {day : Nat} (h : (dateIn i day).inColumn = true) :
    (dateIn i day).Storable where
  month_pos := by simp [dateIn]
  month_le := by
    simp only [dateIn]
    omega
  day := by
    rw [monthIndex_dateIn, day_dateIn]
    exact clipDay_clipDay _ _ day
  column := h

end HomeWarranty.Ruby
