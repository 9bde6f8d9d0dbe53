/-
HomeWarranty.Site.ExpDateEdit — the expiry date in the form that edits a
card.

The form shows `exp_date`, the month and the year as numbers, and what it
shows is assigned by `exp_date=` when the form comes back. The month is
never checked, and the numbers are shown without the zeros they were
written with: a year of four digits that begins with two zeros comes back
as two digits, which are a year of this century, or as one, which is no
year. `expiry_stable_iff` says of which texts neither is true.
-/
import HomeWarranty.Site.ExpDate

namespace HomeWarranty.Site

open Lib Ruby

/-- `CreditCard#exp_date`. -/
def expDate (date : Int × Int) : String := toString date.1 ++ "/" ++ toString date.2

example : expDate (expDateAssign (some "1/0012")) = "1/12" ∧
    expDateAssign (some "1/12") = (1, 2012) := by decide +kernel

/-! ## The digits that are found -/

/-- The digits of the month and of the year, as the first pattern that
matches finds them. -/
def expiryDigits (string : Option String) : Option (List Char × List Char) :=
  match captured yearFirst string with
  | some [year, month] => some (month, year)
  | _ =>
      match captured monthFirst string with
      | some [month, year] => some (month, year)
      | _ =>
          match captured loose string with
          | some [month, year] => some (month, year)
          | _ => none

/-- Two captured texts. -/
theorem captured_pair {ps : List Piece} {a b : Nat × Nat} (hps : groups ps = [a, b])
    {string : Option String} {captures : List (List Char)}
    (h : captured ps string = some captures) :
    ∃ x y, captures = [x, y] ∧ Fits a x ∧ Fits b y := by
  obtain ⟨s, _, hmatch⟩ := Option.bind_eq_some_iff.mp h
  have hfits := matchLine_fits hmatch
  rw [hps] at hfits
  obtain ⟨x, xs, hx, hxs, rfl⟩ := List.forall₂_cons_left_iff.mp hfits
  obtain ⟨y, ys, hy, hys, rfl⟩ := List.forall₂_cons_left_iff.mp hxs
  rw [List.forall₂_nil_left_iff.mp hys]
  exact ⟨x, y, rfl, hx, hy⟩

/-- What is found are one or two digits for the month and two to four for
the year; they are what is stored, and without them the default is. -/
theorem expDateAssign_digits (string : Option String) :
    (expiryDigits string = none ∧ expDateAssign string = (1, 2099)) ∨
    ∃ month year, expiryDigits string = some (month, year) ∧ Fits (1, 2) month ∧ Fits (2, 4) year ∧
      expDateAssign string = (toI (String.ofList month), toYear year) := by
  have hyear : ∀ {y : List Char}, Fits (4, 4) y → Fits (2, 4) y :=
    fun h => ⟨h.1, (by decide : 2 ≤ 4).trans h.2.1, h.2.2⟩
  unfold expiryDigits expDateAssign
  cases h1 : captured yearFirst string with
  | some captures =>
      obtain ⟨year, month, rfl, hy, hm⟩ := captured_pair rfl h1
      exact .inr ⟨month, year, rfl, hm, hyear hy, rfl⟩
  | none =>
      cases h2 : captured monthFirst string with
      | some captures =>
          obtain ⟨month, year, rfl, hm, hy⟩ := captured_pair rfl h2
          exact .inr ⟨month, year, rfl, hm, hyear hy, rfl⟩
      | none =>
          cases h3 : captured loose string with
          | some captures =>
              obtain ⟨month, year, rfl, hm, hy⟩ := captured_pair rfl h3
              exact .inr ⟨month, year, rfl, hm, hy, rfl⟩
          | none => exact .inl ⟨rfl, rfl⟩

/-! ## Digits and numbers -/

def digitValue (c : Char) : Nat := c.toNat - 48

theorem digitValue_lt {c : Char} (h : c.isDigit = true) : digitValue c < 10 := by
  have := digit_bounds h
  unfold digitValue
  omega

theorem eq_iff_digitValue {c x : Char} (hc : c.isDigit = true) (hx : x.isDigit = true) :
    c = x ↔ digitValue c = digitValue x := by
  have hcb := digit_bounds hc
  have hxb := digit_bounds hx
  unfold digitValue
  rw [← Char.toNat_inj]
  omega

theorem toI_fits {count : Nat × Nat} {ds : List Char} (h : Fits count ds) :
    toI (String.ofList ds) = (digitsValue ds : Int) := by
  rw [toI_digits (by rw [String.toList_ofList]; exact h.1), String.toList_ofList]

theorem digitsValue_two (a b : Char) : digitsValue [a, b] = 10 * digitValue a + digitValue b := by
  simp [digitsValue, Nat.ofDigitChars, digitValue]

/-- Digits that are a month from 1 to 12. -/
def monthDigits : List Char → Bool
  | [a] => a != '0'
  | [a, b] => (a == '0' && b != '0') || (a == '1' && (b == '0' || b == '1' || b == '2'))
  | _ => false

/-- Digits of a year that has three digits or four, or is one of this
century. -/
def yearDigits : List Char → Bool
  | [_, _] => true
  | [a, _, _] => a != '0'
  | [a, b, _, _] => !(a == '0' && b == '0')
  | _ => false

theorem monthDigits_iff {ds : List Char} (h : Fits (1, 2) ds) :
    monthDigits ds = true ↔ 1 ≤ digitsValue ds ∧ digitsValue ds ≤ 12 := by
  obtain ⟨hd, hlo, hhi⟩ := h
  have h0 : digitValue '0' = 0 := rfl
  have h1 : digitValue '1' = 1 := rfl
  have h2 : digitValue '2' = 2 := rfl
  rcases ds with _ | ⟨a, _ | ⟨b, _ | ⟨c, ds⟩⟩⟩
  · cases hlo
  · have ha : a.isDigit = true := hd a (by simp)
    have hlt := digitValue_lt ha
    have hvalue : digitsValue [a] = digitValue a := by
      simp [digitsValue, Nat.ofDigitChars, digitValue]
    simp only [monthDigits, bne_iff_ne, ne_eq, eq_iff_digitValue ha (show '0'.isDigit from rfl), h0,
      hvalue]
    omega
  · have ha : a.isDigit = true := hd a (by simp)
    have hb : b.isDigit = true := hd b (by simp)
    have hblt := digitValue_lt hb
    simp only [monthDigits, Bool.or_eq_true, Bool.and_eq_true, beq_iff_eq, bne_iff_ne, ne_eq,
      eq_iff_digitValue ha (show '0'.isDigit from rfl),
      eq_iff_digitValue hb (show '0'.isDigit from rfl),
      eq_iff_digitValue ha (show '1'.isDigit from rfl),
      eq_iff_digitValue hb (show '1'.isDigit from rfl),
      eq_iff_digitValue hb (show '2'.isDigit from rfl), h0, h1, h2, digitsValue_two]
    omega
  · simp only [List.length_cons] at hhi
    omega

/-- The year that is stored. Written with two digits it is one of this
century. -/
theorem yearDigits_iff {ds : List Char} (h : Fits (2, 4) ds) :
    ∃ year : Nat, toYear ds = year ∧ year < 10000 ∧ (yearDigits ds = true ↔ 100 ≤ year) := by
  have hvalue := toI_fits h
  obtain ⟨hd, hlo, hhi⟩ := h
  have h0 : digitValue '0' = 0 := rfl
  rcases ds with _ | ⟨a, _ | ⟨b, _ | ⟨c, _ | ⟨d, _ | ⟨e, ds⟩⟩⟩⟩⟩
  · cases hlo
  · simp only [List.length_cons, List.length_nil] at hlo
    omega
  · refine ⟨digitsValue [a, b] + 2000, ?_, ?_, ?_⟩
    · rw [toYear, hvalue]
      rfl
    · have ha := digitValue_lt (hd a (by simp))
      have hb := digitValue_lt (hd b (by simp))
      rw [digitsValue_two]
      omega
    · exact iff_of_true rfl (Nat.le_add_left_of_le (by decide))
  · have ha : a.isDigit = true := hd a (by simp)
    have halt := digitValue_lt ha
    have hb := digitValue_lt (hd b (by simp))
    have hc := digitValue_lt (hd c (by simp))
    have hthree : digitsValue [a, b, c] =
        100 * digitValue a + 10 * digitValue b + digitValue c := by
      simp only [digitsValue, Nat.ofDigitChars, digitValue, List.foldl_cons, List.foldl_nil,
        show '0'.toNat = 48 from rfl]
      omega
    refine ⟨digitsValue [a, b, c], ?_, by omega, ?_⟩
    · rw [toYear, hvalue]
      rfl
    · simp only [yearDigits, bne_iff_ne, ne_eq,
        eq_iff_digitValue ha (show '0'.isDigit from rfl), h0]
      omega
  · have ha : a.isDigit = true := hd a (by simp)
    have hb : b.isDigit = true := hd b (by simp)
    have halt := digitValue_lt ha
    have hblt := digitValue_lt hb
    have hc := digitValue_lt (hd c (by simp))
    have hdlt := digitValue_lt (hd d (by simp))
    have hfour : digitsValue [a, b, c, d] =
        1000 * digitValue a + 100 * digitValue b + 10 * digitValue c + digitValue d := by
      simp only [digitsValue, Nat.ofDigitChars, digitValue, List.foldl_cons, List.foldl_nil,
        show '0'.toNat = 48 from rfl]
      omega
    refine ⟨digitsValue [a, b, c, d], ?_, by omega, ?_⟩
    · rw [toYear, hvalue]
      rfl
    · simp only [yearDigits, Bool.not_eq_true', Bool.and_eq_false_iff, beq_eq_false_iff_ne, ne_eq,
        eq_iff_digitValue ha (show '0'.isDigit from rfl),
        eq_iff_digitValue hb (show '0'.isDigit from rfl), h0]
      omega
  · simp only [List.length_cons] at hhi
    omega

/-! ## The form -/

/-- A month and a year as the form shows them. -/
def shown (month year : Nat) : List Char :=
  Nat.toDigits 10 month ++ '/' :: Nat.toDigits 10 year

theorem expDate_natCast (month year : Nat) :
    expDate ((month : Int), (year : Int)) = String.ofList (shown month year) := by
  have hnat : ∀ n : Nat, toString (n : Int) = String.ofList (Nat.toDigits 10 n) := fun _ => rfl
  rw [expDate, hnat, hnat, shown, String.ofList_append, String.append_assoc]
  simp

section
variable {month year : Nat}

theorem digits_toDigits (n : Nat) : ∀ c ∈ Nat.toDigits 10 n, c.isDigit = true :=
  fun _ hc => isDigit_of_mem_toDigits hc

theorem toI_toDigits (n : Nat) : toI (String.ofList (Nat.toDigits 10 n)) = n := by
  rw [toI_digits (by rw [String.toList_ofList]; exact digits_toDigits n), String.toList_ofList,
    digitsValue_toDigits]

theorem length_toDigits_month (h : month ≤ 12) :
    1 ≤ (Nat.toDigits 10 month).length ∧ (Nat.toDigits 10 month).length ≤ 2 :=
  ⟨Nat.length_toDigits_pos, (Nat.length_toDigits_le_iff (by decide) (by decide)).mpr (by omega)⟩

theorem length_toDigits_le {k n : Nat} (hk : 0 < k) :
    (Nat.toDigits 10 n).length ≤ k ↔ n < 10 ^ k :=
  Nat.length_toDigits_le_iff (by decide) hk

theorem newline_notMem_shown (month year : Nat) : '\n' ∉ shown month year := by
  intro h
  rcases List.mem_append.mp h with h | h
  · exact absurd (digits_toDigits month _ h) (by decide)
  · rcases List.mem_cons.mp h with h | h
    · cases h
    · exact absurd (digits_toDigits year _ h) (by decide)

theorem loose_last_leaves {cs : List Char} (h : (cs.takeWhile Char.isDigit).length < 2) :
    matchHere [.digits 2 4] cs = none := by
  refine matchHere_digits_eq_none fun j hlo _ hrun => ?_
  omega

/-- One digit is no year, with or without the slash. -/
theorem loose_leaves {ds es : List Char} (hd : ∀ c ∈ ds, c.isDigit = true) (h2 : ds.length ≤ 2)
    (he : ∀ c ∈ es, c.isDigit = true) (h1 : es.length = 1) :
    matchHere loose (ds ++ '/' :: es) = none := by
  have hstop : NoDigit ('/' :: es) := noDigit_cons rfl es
  have hshort : (es.takeWhile Char.isDigit).length < 2 :=
    lt_of_le_of_lt (List.takeWhile_prefix _).length_le (by omega)
  refine matchHere_digits_eq_none fun j hlo hhi hrun => ?_
  rw [takeWhile_run hd hstop] at hrun
  rcases Nat.lt_or_eq_of_le hrun with hlt | heq
  · -- the month gives a digit back, and one digit more is no year either
    obtain ⟨a, b, rfl⟩ : ∃ a b, ds = [a, b] := List.length_eq_two.mp (by omega)
    obtain rfl : j = 1 := by simp only [List.length_cons, List.length_nil] at hlt; omega
    have hb : b.isDigit = true := hd b (by simp)
    have hslash : b ≠ '/' := by
      rintro rfl
      cases hb
    have hdash : b ≠ '-' := by
      rintro rfl
      cases hb
    have hone : ((b :: '/' :: es).takeWhile Char.isDigit).length < 2 := by
      simp [hb]
    simp only [List.cons_append, List.nil_append, List.drop_succ_cons, List.drop_zero]
    rw [matchHere_maybe_skip (by simpa using hslash), matchHere_maybe_skip (by simpa using hdash)]
    exact loose_last_leaves hone
  · subst heq
    have hdash : es.head? ≠ some '-' := head?_ne_of_digits he rfl
    have hnone : (('/' :: es).takeWhile Char.isDigit).length < 2 := by
      simp
    rw [List.drop_left, matchHere, if_pos (beq_self_eq_true '/'), matchHere_maybe_skip hdash,
      loose_last_leaves hshort, Option.none_or, matchHere_maybe_skip (by simp)]
    exact loose_last_leaves hnone

/-- What the form gives back of a month and a year. -/
theorem expDateAssign_expDate (hm : month ≤ 12) (hy : year < 10000) :
    expDateAssign (some (expDate ((month : Int), (year : Int)))) =
      if year < 10 then (1, 2099)
      else if year < 100 then ((month : Int), (year : Int) + 2000)
      else ((month : Int), (year : Int)) := by
  have hline := newline_notMem_shown month year
  have hlen := length_toDigits_month hm
  have hpos : 0 < (Nat.toDigits 10 year).length := Nat.length_toDigits_pos
  have hone := @length_toDigits_le 1 year (by decide)
  have htwo := @length_toDigits_le 2 year (by decide)
  have hthree := @length_toDigits_le 3 year (by decide)
  have hfour := (@length_toDigits_le 4 year (by decide)).mpr hy
  have hno : matchHere yearFirst (shown month year) = none :=
    yearFirst_leaves (digits_toDigits month) hlen.2 .slash (Nat.toDigits 10 year)
  rw [expDate_natCast]
  by_cases hlong : year < 1000
  · have hno' : matchHere monthFirst (shown month year) = none :=
      monthFirst_leaves (digits_toDigits month) (Nat.lt_succ_of_le (hthree.mpr hlong)) .slash
    by_cases hsingle : year < 10
    · have hnone : matchHere loose (shown month year) = none :=
        loose_leaves (digits_toDigits month) hlen.2 (digits_toDigits year)
          (Nat.le_antisymm (hone.mpr hsingle) hpos)
      rw [if_pos hsingle]
      simp only [expDateAssign, captured_ofList _ hline, hno, hno', hnone]
    · have hlo : 2 ≤ (Nat.toDigits 10 year).length := by omega
      have htake : matchHere loose (shown month year) =
          some [Nat.toDigits 10 month, Nat.toDigits 10 year] :=
        loose_takes (digits_toDigits month) (digits_toDigits year) hlen.1 hlen.2 hlo hfour .slash
      rw [if_neg hsingle, expDateAssign_of_loose hline hno hno' htake, toI_toDigits, toYear,
        toI_toDigits]
      by_cases hshort : year < 100
      · rw [if_pos (by omega), if_pos hshort]
      · rw [if_neg (by omega), if_neg hshort]
  · have hexact : (Nat.toDigits 10 year).length = 4 := by omega
    have htake : matchHere monthFirst (shown month year) =
        some [Nat.toDigits 10 month, Nat.toDigits 10 year] :=
      monthFirst_takes (digits_toDigits month) (digits_toDigits year) hlen.1 hlen.2 hexact .slash
    rw [expDateAssign_of_monthFirst hline hno htake, toI_toDigits, toYear,
      if_neg (by omega), toI_toDigits, if_neg (by omega), if_neg (by omega)]

end

/-- The month is one, and the form gives both back. -/
def ExpiryStable (string : Option String) : Prop :=
  let date := expDateAssign string
  (1 ≤ date.1 ∧ date.1 ≤ 12) ∧ expDateAssign (some (expDate date)) = date

/-- No pattern matches, or the digits that are found are those of a month
and of a year that is written the way it is shown. -/
def ExpirySteady (string : Option String) : Prop :=
  ∀ month year, expiryDigits string = some (month, year) →
    monthDigits month = true ∧ yearDigits year = true

/-- The stored month is one and the form leaves month and year as they
are, exactly for these texts. -/
theorem expiry_stable_iff (string : Option String) : ExpiryStable string ↔ ExpirySteady string := by
  rcases expDateAssign_digits string with ⟨hnone, hdate⟩ | ⟨m, y, hsome, hm, hy, hdate⟩
  · have hdefault : ExpiryStable string := by
      simp only [ExpiryStable, hdate]
      decide +kernel
    refine iff_of_true hdefault fun month year h => ?_
    rw [hnone] at h
    cases h
  · have hsteady : ExpirySteady string ↔ monthDigits m = true ∧ yearDigits y = true := by
      simp [ExpirySteady, hsome]
    obtain ⟨year, hyear, hlt, hyd⟩ := yearDigits_iff hy
    have hmd := monthDigits_iff hm
    rw [toI_fits hm, hyear] at hdate
    rw [hsteady, hyd, hmd, ExpiryStable, hdate]
    generalize digitsValue m = month
    constructor
    · rintro ⟨hmonth, hback⟩
      have hle : month ≤ 12 := by omega
      rw [expDateAssign_expDate hle hlt] at hback
      refine ⟨by omega, ?_⟩
      split_ifs at hback with h10 h100
      · have := congrArg Prod.snd hback
        simp only at this
        omega
      · have := congrArg Prod.snd hback
        simp only at this
        omega
      · omega
    · rintro ⟨hmonth, h100⟩
      refine ⟨by omega, ?_⟩
      rw [expDateAssign_expDate hmonth.2 hlt, if_neg (by omega), if_neg (by omega)]

/-- A thirteenth month is stored, and the year 12 comes back as 2012. -/
theorem expiry_not_stable :
    expDateAssign (some "13/2020") = (13, 2020) ∧ ¬ ExpiryStable (some "13/2020") ∧
    expDateAssign (some (expDate (expDateAssign (some "1/0012")))) = (1, 2012) ∧
    expDateAssign (some "1/0012") = (1, 12) ∧ ¬ ExpiryStable (some "1/0012") := by
  have hmonth : expDateAssign (some "13/2020") = (13, 2020) := by decide +kernel
  have hyear : expDateAssign (some "1/0012") = (1, 12) := by decide +kernel
  have hback : expDateAssign (some (expDate (expDateAssign (some "1/0012")))) = (1, 2012) := by
    decide +kernel
  refine ⟨hmonth, ?_, hback, hyear, ?_⟩
  · intro h
    rw [ExpiryStable, hmonth] at h
    exact absurd h.1.2 (by decide)
  · intro h
    have heq := hback.symm.trans (h.2.trans hyear)
    exact absurd heq (by decide)

end HomeWarranty.Site
