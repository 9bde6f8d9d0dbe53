/-
HomeWarranty.Lib.Luhn — the check digit of card numbers.

Every second digit is doubled, counted from the last one, and nine is
taken off a number of two digits; the sum of them all has to be a
multiple of ten. `alternate` is such a sum from one end of the number,
and `alternate_reverse` relates the two ends: the first digit is doubled
exactly when there is an even number of digits.

Doubling is a permutation of the digits, so one changed digit changes
the sum (`digit_eq_of_sum`). For two neighbours that change places it is
the difference of a digit and its double that counts, and there only 0
and 9 are alike (`neighbours_of_sum`).
-/
import Mathlib.Data.Nat.ModEq

namespace HomeWarranty.Lib.Luhn

def doubled (d : Nat) : Nat := if 9 < 2 * d then 2 * d - 9 else 2 * d

/-- What a digit counts. -/
def weight (double : Bool) (d : Nat) : Nat := if double then doubled d else d

/-- The sum from one end; the flag tells whether the first digit is
doubled. -/
def alternate : Bool → List Nat → Nat
  | _, [] => 0
  | double, d :: ds => weight double d + alternate (!double) ds

/-- Every second digit from the right is doubled. -/
def luhnSum (ds : List Nat) : Nat := alternate false ds.reverse

/-- A number with the right check digit. -/
def Valid (ds : List Nat) : Prop := luhnSum ds % 10 = 0

instance (ds : List Nat) : Decidable (Valid ds) := inferInstanceAs (Decidable (_ = _))

example : Valid [4, 9, 9, 2, 7, 3, 9, 8, 7, 1, 6] ∧ ¬ Valid [4, 9, 9, 2, 7, 3, 9, 8, 7, 1, 7] := by
  decide

/-! ## From either end -/

/-- The flag after a number of digits. -/
def after (double : Bool) : Nat → Bool
  | 0 => double
  | n + 1 => after (!double) n

/-- The next number has the other parity. -/
theorem parity_succ {parity : Nat} (h : parity < 2) (n : Nat) :
    ((n + 1) % 2 == parity) = !(n % 2 == parity) := by
  rw [Bool.eq_iff_iff, Bool.not_eq_true', beq_iff_eq, beq_eq_false_iff_ne]
  omega

theorem even_succ (n : Nat) : ((n + 1) % 2 == 0) = !(n % 2 == 0) := parity_succ (by decide) n

theorem after_eq (double : Bool) (n : Nat) : after double n = (double ^^ !(n % 2 == 0)) := by
  induction n generalizing double with
  | zero => exact (Bool.xor_false double).symm
  | succ n ih =>
      rw [after, ih, even_succ]
      cases double <;> cases n % 2 == 0 <;> rfl

theorem alternate_append (double : Bool) (ds es : List Nat) :
    alternate double (ds ++ es) = alternate double ds + alternate (after double ds.length) es := by
  induction ds generalizing double with
  | nil => simp [alternate, after]
  | cons d ds ih =>
      rw [List.cons_append, alternate, ih, alternate, List.length_cons, after]
      omega

/-- From the left the first digit is doubled when the digits are even in
number. -/
theorem alternate_reverse (ds : List Nat) :
    alternate (ds.length % 2 == 0) ds = luhnSum ds := by
  unfold luhnSum
  induction ds with
  | nil => rfl
  | cons d ds ih =>
      have hflag : after false ds.reverse.length = ((d :: ds).length % 2 == 0) := by
        rw [after_eq, List.length_reverse, List.length_cons, even_succ, Bool.false_xor]
      have hother : (!((d :: ds).length % 2 == 0)) = (ds.length % 2 == 0) := by
        rw [List.length_cons, even_succ, Bool.not_not]
      rw [List.reverse_cons, alternate_append, hflag, alternate, alternate, alternate, hother, ih]
      omega

/-! ## Errors -/

theorem weight_injective (double : Bool) {a b : Nat} (ha : a < 10) (hb : b < 10)
    (h : weight double a % 10 = weight double b % 10) : a = b := by
  cases double with
  | false =>
      simp only [weight, Bool.false_eq_true, if_false] at h
      omega
  | true =>
      simp only [weight, doubled, if_true] at h
      split_ifs at h <;> omega

section
variable {double : Bool} {ds es : List Nat} {a b : Nat}

/-- Two sums that differ in one digit. -/
theorem digit_eq_of_sum (ha : a < 10) (hb : b < 10)
    (h : alternate double (ds ++ a :: es) % 10 = alternate double (ds ++ b :: es) % 10) :
    a = b := by
  rw [alternate_append, alternate_append, alternate, alternate] at h
  have hfront := Nat.ModEq.add_left_cancel' _ h
  exact weight_injective _ ha hb (Nat.ModEq.add_right_cancel' _ hfront)

/-- Two neighbours that count the same in either order. -/
theorem neighbours_eq_iff (double : Bool) (ha : a < 10) (hb : b < 10) :
    (weight double a + weight (!double) b) % 10 = (weight double b + weight (!double) a) % 10 ↔
      a = b ∨ (a = 0 ∧ b = 9) ∨ (a = 9 ∧ b = 0) := by
  cases double with
  | false =>
      simp only [weight, doubled, Bool.not_false, if_true, Bool.false_eq_true, if_false]
      split_ifs <;> omega
  | true =>
      simp only [weight, doubled, Bool.not_true, if_true, Bool.false_eq_true, if_false]
      split_ifs <;> omega

/-- Two sums that differ in the order of two neighbours. -/
theorem neighbours_of_sum (ha : a < 10) (hb : b < 10) :
    alternate double (ds ++ a :: b :: es) % 10 = alternate double (ds ++ b :: a :: es) % 10 ↔
      a = b ∨ (a = 0 ∧ b = 9) ∨ (a = 9 ∧ b = 0) := by
  rw [← neighbours_eq_iff (after double ds.length) ha hb]
  simp only [alternate_append, alternate, Bool.not_not]
  omega

end

end HomeWarranty.Lib.Luhn
