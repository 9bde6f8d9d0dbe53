/-
HomeWarranty.Ruby.Number — Ruby's floats and the FLOAT columns of the
server, as far as a result depends on what they keep.

A Float has 53 binary digits, an underflow to 0 and an Infinity; a FLOAT
column has 24, and what is read back from it has six decimal digits. How
a text becomes a Float and what a column gives back of one is up to the
interpreter and the server, so both are parameters, and so is the
arithmetic. A Float is the number it stands for; Infinity is a number
that is larger than all others. Of `to_f` two facts are part of the
class; where a result needs more, it is a hypothesis with a name.

`Numbers.exact` is the instance in which nothing is lost. It agrees with
the others on short decimals and is what the tests run on.
-/
import HomeWarranty.Ruby.Column

namespace HomeWarranty.Ruby

class Numbers where
  /-- `String#to_f`. -/
  toF : String → ℚ
  /-- The sum of two Floats, which is a Float again. -/
  add : ℚ → ℚ → ℚ
  mul : ℚ → ℚ → ℚ
  div : ℚ → ℚ → ℚ
  /-- The format `%.2f`. -/
  format2 : ℚ → String
  /-- What a FLOAT column gives back of a Float that was written to it;
  `none` when the server refuses the statement, as it does for
  Infinity. -/
  float : ℚ → Option ℚ
  /-- Blank text is no number. -/
  toF_blank : ∀ s, blank s = true → toF s = 0
  /-- The text of the Float 0 is read as it. -/
  toF_zero : toF "0.0" = 0

/-- Nothing is rounded. -/
@[reducible] def Numbers.exact : Numbers where
  toF := Ruby.toF
  add := (· + ·)
  mul := (· * ·)
  div := (· / ·)
  format2 := Ruby.format2
  float := some
  toF_blank := fun _ h => toF_of_blank h
  toF_zero := by decide +kernel

/-- Rounding does not pass a number that the column keeps: neither the
sum of two Floats nor the column does. -/
structure Numbers.Rounding [Numbers] : Prop where
  float_zero : Numbers.float 0 = some 0
  float_float : ∀ {x k}, Numbers.float x = some k → Numbers.float k = some k
  le_add : ∀ {a x y}, Numbers.float a = some a → 0 ≤ x → 0 ≤ y → a ≤ x + y → a ≤ Numbers.add x y
  add_le : ∀ {a x y}, Numbers.float a = some a → 0 ≤ x → 0 ≤ y → x + y ≤ a → Numbers.add x y ≤ a
  le_float : ∀ {a x k}, Numbers.float a = some a → Numbers.float x = some k → a ≤ x → a ≤ k
  float_le : ∀ {a x k}, Numbers.float a = some a → Numbers.float x = some k → x ≤ a → k ≤ a

section
attribute [local instance] Numbers.exact

theorem Numbers.rounding_exact : Numbers.Rounding where
  float_zero := rfl
  float_float := fun _ => rfl
  le_add := fun _ _ _ h => h
  add_le := fun _ _ _ h => h
  le_float := fun _ h hle => Option.some.inj h ▸ hle
  float_le := fun _ h hle => Option.some.inj h ▸ hle

end

/-- ActiveRecord's cast of a string to a float column. -/
def castFloat [Numbers] : Option String → Option ℚ
  | none => none
  | some s => if blank s then none else some (Numbers.toF s)

/-- What a FLOAT column keeps of an assigned value, and NULL of NULL;
`none` when it does not take the value. -/
def storeFloat [Numbers] : Option ℚ → Option (Option ℚ)
  | none => some none
  | some x => (Numbers.float x).map some

end HomeWarranty.Ruby
