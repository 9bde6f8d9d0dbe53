/-
HomeWarranty.Ruby.Text — the string and number methods of Ruby and
ActiveSupport that the application calls.

* `blank`, `present` — ActiveSupport's tests; `nil` is blank.
* `toI` — `String#to_i`: blanks, a sign, digits (one underscore between
  two digits is skipped), everything after them ignored; no digits give 0.
* `toF` — `String#to_f`, with fraction and exponent. A Ruby Float is
  modelled by the EXACT rational it stands for: the value of a numeral
  is its decimal value and `+`, `*`, `/` do not round. The models whose
  results depend on the rounding take it as a parameter (`Ruby.Number`).
* `roundTo3` — `Float#round(3)`, halves away from zero.
* `rjust` — `String#rjust` with a one-character pad.
* `format2` — the format `%.2f` of an exact number, halves to the even
  digit.
* `upcase` — ASCII only, as in this Ruby version.
* `uriEscape` — `URI.escape` with its default set of unsafe characters.

The facts proved here are the ones the encoders and decoders of the
application rest on: decimal numerals read back (`toI_toString`), padding
does not change a numeral's value (`digitsValue_rjust`).
-/
import Mathlib.Data.Rat.Floor
import Mathlib.Algebra.Order.Field.Rat
import Mathlib.Tactic.Linarith
import Mathlib.Tactic.NormNum

namespace HomeWarranty.Ruby

/-- The exceptions the modelled code can raise. -/
inductive RubyError where
  | noMethodError
  | typeError
  | argumentError
  | recordNotFound
  | externalError
  deriving DecidableEq, Repr

/-- A computation that went through went through in both parts. -/
theorem bind_eq_ok {α β : Type} {x : Except RubyError α} {f : α → Except RubyError β}
    {b : β} : (x >>= f) = .ok b ↔ ∃ a, x = .ok a ∧ f a = .ok b := by
  cases x with
  | error e => simp [bind, Except.bind]
  | ok a => simp [bind, Except.bind]

theorem map_eq_ok {α β : Type} {x : Except RubyError α} {f : α → β} {b : β} :
    x.map f = .ok b ↔ ∃ a, x = .ok a ∧ f a = b := by
  cases x with
  | error e => simp [Except.map]
  | ok a => simp [Except.map]

/-! ## Blank and present -/

/-- The POSIX class `[[:space:]]` over Unicode. -/
def isSpace (c : Char) : Bool :=
  (9 ≤ c.toNat && c.toNat ≤ 13) || c.toNat == 0x20 || c.toNat == 0x85
    || c.toNat == 0xA0 || c.toNat == 0x1680
    || (0x2000 ≤ c.toNat && c.toNat ≤ 0x200A)
    || c.toNat == 0x2028 || c.toNat == 0x2029 || c.toNat == 0x202F
    || c.toNat == 0x205F || c.toNat == 0x3000

/-- `String#blank?`. -/
def blank (s : String) : Bool := s.toList.all isSpace

/-- `blank?` of a value that may be `nil`. -/
def blankOpt : Option String → Bool
  | none => true
  | some s => blank s

/-- `present?` of a value that may be `nil`. -/
def presentOpt (s : Option String) : Bool := !blankOpt s

@[simp] theorem blankOpt_none : blankOpt none = true := rfl

@[simp] theorem blankOpt_some (s : String) : blankOpt (some s) = blank s := rfl

@[simp] theorem presentOpt_none : presentOpt none = false := rfl

@[simp] theorem presentOpt_some (s : String) : presentOpt (some s) = !blank s := rfl

/-! ## Numerals -/

/-- The blanks the number parsers skip. -/
def isAsciiSpace (c : Char) : Bool :=
  c.toNat == 0x20 || (9 ≤ c.toNat && c.toNat ≤ 13)

/-- The digits at the front, and what follows them. An underscore is
skipped between two digits and ends the numeral anywhere else. -/
def digitRun (afterDigit : Bool) : List Char → List Char × List Char
  | [] => ([], [])
  | c :: cs =>
      if c.isDigit then
        ((c :: (digitRun true cs).1), (digitRun true cs).2)
      else if c == '_' && afterDigit && cs.head?.any Char.isDigit then
        digitRun false cs
      else ([], c :: cs)

/-- An optional sign: is it negative, and what follows it. -/
def signOf : List Char → Bool × List Char
  | '-' :: cs => (true, cs)
  | '+' :: cs => (false, cs)
  | cs => (false, cs)

/-- The decimal marker `0d` that the integer parser accepts. -/
def dropDecimalMarker : List Char → List Char
  | '0' :: 'd' :: cs => cs
  | '0' :: 'D' :: cs => cs
  | cs => cs

/-- The value of a list of digits. -/
def digitsValue (ds : List Char) : Nat := Nat.ofDigitChars 10 ds 0

/-- `String#to_i`. -/
def toI (s : String) : Int :=
  let (neg, cs) := signOf (s.toList.dropWhile isAsciiSpace)
  let n : Int := digitsValue (digitRun false (dropDecimalMarker cs)).1
  if neg then -n else n

/-- `to_i` of a value that may be `nil`. -/
def toIOpt : Option String → Int
  | none => 0
  | some s => toI s

/-- A decimal point counts only when a digit follows it. -/
def fractionOf : List Char → List Char × List Char
  | '.' :: cs =>
      match (digitRun false cs).1 with
      | [] => ([], '.' :: cs)
      | d :: ds => (d :: ds, (digitRun false cs).2)
  | cs => ([], cs)

/-- An exponent counts only when it has a digit. -/
def exponentOf : List Char → Int
  | c :: cs =>
      if c == 'e' || c == 'E' then
        let (neg, ds) := signOf cs
        let n : Int := digitsValue (digitRun false ds).1
        if neg then -n else n
      else 0
  | [] => 0

/-- `String#to_f`, as an exact rational. -/
def toF (s : String) : ℚ :=
  let (neg, cs) := signOf (s.toList.dropWhile isAsciiSpace)
  let (whole, rest) := digitRun false cs
  let (frac, rest') := fractionOf rest
  let mantissa : ℚ := digitsValue (whole ++ frac) / 10 ^ frac.length
  let value := mantissa * 10 ^ exponentOf rest'
  if neg then -value else value

/-- `Float#round(3)`: to the nearest thousandth, halves away from zero. -/
def roundTo3 (q : ℚ) : ℚ :=
  if 0 ≤ q then (⌊q * 1000 + 1 / 2⌋ : ℚ) / 1000
  else -((⌊-q * 1000 + 1 / 2⌋ : ℚ) / 1000)

/-- Rounding is odd, so its facts are proved for one sign. -/
theorem roundTo3_neg {q : ℚ} (h : 0 ≤ q) : roundTo3 (-q) = -roundTo3 q := by
  rcases h.eq_or_lt with rfl | hpos
  · simp [roundTo3]
    norm_num
  · have hneg : ¬ 0 ≤ -q := by linarith
    simp [roundTo3, hneg, h]

theorem roundTo3_of_nonneg {q : ℚ} (h : 0 ≤ q) :
    roundTo3 q = (⌊q * 1000 + 1 / 2⌋ : ℚ) / 1000 := by
  simp [roundTo3, h]

theorem roundTo3_nonneg {q : ℚ} (h : 0 ≤ q) : 0 ≤ roundTo3 q := by
  rw [roundTo3_of_nonneg h]
  have : (0 : ℤ) ≤ ⌊q * 1000 + 1 / 2⌋ := Int.floor_nonneg.mpr (by linarith)
  have : (0 : ℚ) ≤ (⌊q * 1000 + 1 / 2⌋ : ℚ) := by exact_mod_cast this
  linarith

/-- A rounded number is rounded. -/
theorem roundTo3_roundTo3 (q : ℚ) : roundTo3 (roundTo3 q) = roundTo3 q := by
  have hpos : ∀ x : ℚ, 0 ≤ x → roundTo3 (roundTo3 x) = roundTo3 x := by
    intro x hx
    rw [roundTo3_of_nonneg (roundTo3_nonneg hx), roundTo3_of_nonneg hx]
    have : (⌊x * 1000 + 1 / 2⌋ : ℚ) / 1000 * 1000 + 1 / 2
        = (⌊x * 1000 + 1 / 2⌋ : ℚ) + 1 / 2 := by ring
    rw [this, Int.floor_intCast_add]
    norm_num
  by_cases h : 0 ≤ q
  · exact hpos q h
  · have hq : 0 ≤ -q := by linarith
    have hneg := roundTo3_neg hq
    rw [neg_neg] at hneg
    rw [hneg, roundTo3_neg (roundTo3_nonneg hq), hpos (-q) hq]

/-- A twelfth rounds like the whole only when both round to zero. -/
theorem roundTo3_div_twelve_iff (q : ℚ) :
    roundTo3 q = roundTo3 (q / 12) ↔ |q| < 1 / 2000 := by
  have hpos : ∀ x : ℚ, 0 ≤ x → (roundTo3 x = roundTo3 (x / 12) ↔ x < 1 / 2000) := by
    intro x hx
    rw [roundTo3_of_nonneg hx, roundTo3_of_nonneg (by linarith : (0 : ℚ) ≤ x / 12)]
    constructor
    · intro h
      have hfloor : ⌊x * 1000 + 1 / 2⌋ = ⌊x / 12 * 1000 + 1 / 2⌋ := by
        have : (⌊x * 1000 + 1 / 2⌋ : ℚ) = ⌊x / 12 * 1000 + 1 / 2⌋ := by linarith
        exact_mod_cast this
      have h1 := Int.lt_floor_add_one (x * 1000 + 1 / 2)
      have h2 := Int.floor_le (x / 12 * 1000 + 1 / 2)
      rw [← hfloor] at h2
      -- the common value is below 1, so it is not positive
      have hle : ⌊x * 1000 + 1 / 2⌋ ≤ 0 := by
        by_contra hgt
        have : (1 : ℚ) ≤ (⌊x * 1000 + 1 / 2⌋ : ℚ) := by
          exact_mod_cast (by omega : (1 : ℤ) ≤ ⌊x * 1000 + 1 / 2⌋)
        linarith
      have : (⌊x * 1000 + 1 / 2⌋ : ℚ) ≤ 0 := by exact_mod_cast hle
      linarith
    · intro h
      have h1 : ⌊x * 1000 + 1 / 2⌋ = 0 :=
        Int.floor_eq_zero_iff.mpr ⟨by linarith, by linarith⟩
      have h2 : ⌊x / 12 * 1000 + 1 / 2⌋ = 0 :=
        Int.floor_eq_zero_iff.mpr ⟨by linarith, by linarith⟩
      rw [h1, h2]
  by_cases h : 0 ≤ q
  · rw [hpos q h, abs_of_nonneg h]
  · have hq : 0 ≤ -q := by linarith
    have h1 := roundTo3_neg hq
    have h2 := roundTo3_neg (by linarith : (0 : ℚ) ≤ -q / 12)
    rw [neg_neg] at h1
    rw [show -(-q / 12) = q / 12 by ring] at h2
    rw [h1, h2, neg_inj, hpos (-q) hq, abs_of_neg (by linarith)]

/-! ## Text -/

/-- `String#rjust` with a one-character pad. -/
def rjust (s : String) (width : Nat) (pad : Char) : String :=
  String.ofList (List.replicate (width - s.length) pad ++ s.toList)

/-- The nearest whole number, halves to the even one. -/
def roundHalfEven (q : ℚ) : Nat :=
  let n := ⌊q⌋.toNat
  if q - n < 1 / 2 then n
  else if 1 / 2 < q - n then n + 1
  else if n % 2 = 0 then n
  else n + 1

/-- `"%.2f" % q`. -/
def format2 (q : ℚ) : String :=
  let cents := roundHalfEven (|q| * 100)
  (if q < 0 then "-" else "") ++ toString (cents / 100) ++ "."
    ++ rjust (toString (cents % 100)) 2 '0'

example : format2 45 = "45.00" := by decide +kernel

/-- `String#strip`. -/
def strip (s : String) : String :=
  String.ofList (((s.toList.dropWhile isAsciiSpace).reverse.dropWhile
    (fun c => isAsciiSpace c || c.toNat == 0)).reverse)

/-- `String#upcase`, ASCII letters only. -/
def upcase (s : String) : String := s.map Char.toUpper

/-- The characters `URI.escape` leaves alone. -/
def uriSafe (c : Char) : Bool :=
  c.isAlphanum || "-_.!~*'();/?:@&=+$,[]".toList.contains c

def hexDigit (n : Nat) : Char :=
  ("0123456789ABCDEF".toList)[n]?.getD '0'

/-- `URI.escape`: every byte of an unsafe character becomes `%XX`. -/
def uriEscape (s : String) : String :=
  String.ofList (s.toList.flatMap fun c =>
    if uriSafe c then [c]
    else (String.utf8EncodeChar c).flatMap fun b =>
      ['%', hexDigit (b.toNat / 16), hexDigit (b.toNat % 16)])

/-! ## Numerals read back -/

theorem toList_toString (n : Nat) : (toString n).toList = Nat.toDigits 10 n := by
  rw [show toString n = n.repr from rfl, Nat.toList_repr]

theorem isDigit_of_mem_toDigits {n : Nat} {c : Char}
    (h : c ∈ Nat.toDigits 10 n) : c.isDigit = true :=
  Nat.isDigit_of_mem_toDigits (by decide) (by decide) h

/-- A digit is neither a blank, a sign, an underscore nor a letter. -/
theorem digit_bounds {c : Char} (h : c.isDigit = true) :
    48 ≤ c.toNat ∧ c.toNat ≤ 57 := by
  have := Char.isDigit_iff_toNat.mp h
  simpa using this

theorem isAsciiSpace_of_isDigit {c : Char} (h : c.isDigit = true) :
    isAsciiSpace c = false := by
  have := digit_bounds h
  simp [isAsciiSpace]
  omega

/-- A run of digits followed by no digit and no underscore is read
whole. -/
theorem digitRun_digits (b : Bool) (ds rest : List Char)
    (hd : ∀ c ∈ ds, c.isDigit = true)
    (hr : ∀ c ∈ rest.head?, c.isDigit = false ∧ c ≠ '_') :
    digitRun b (ds ++ rest) = (ds, rest) := by
  induction ds generalizing b with
  | nil =>
      cases hrest : rest with
      | nil => rfl
      | cons c cs =>
          have h := hr c (by simp [hrest])
          simp [digitRun, h.1, h.2]
  | cons d ds ih =>
      have h1 : d.isDigit = true := hd d (by simp)
      have htail := ih true (fun c hc => hd c (by simp [hc]))
      simp [digitRun, h1, htail]

theorem signOf_digits {ds : List Char} (hd : ∀ c ∈ ds, c.isDigit = true) :
    signOf ds = (false, ds) := by
  unfold signOf
  split
  · exact absurd (hd '-' (by simp)) (by decide)
  · exact absurd (hd '+' (by simp)) (by decide)
  · rfl

theorem dropDecimalMarker_digits {ds : List Char}
    (hd : ∀ c ∈ ds, c.isDigit = true) : dropDecimalMarker ds = ds := by
  unfold dropDecimalMarker
  split
  · exact absurd (hd 'd' (by simp)) (by decide)
  · exact absurd (hd 'D' (by simp)) (by decide)
  · rfl

/-- `to_i` of a digit string is its decimal value. -/
theorem toI_digits {s : String} (hd : ∀ c ∈ s.toList, c.isDigit = true) :
    toI s = digitsValue s.toList := by
  have hskip : s.toList.dropWhile isAsciiSpace = s.toList := by
    cases h : s.toList with
    | nil => rfl
    | cons c cs =>
        have hc := isAsciiSpace_of_isDigit (hd c (by simp [h]))
        simp [List.dropWhile, hc]
  have hrun : digitRun false s.toList = (s.toList, []) := by
    simpa using digitRun_digits false s.toList [] hd (by simp)
  simp [toI, hskip, signOf_digits hd, dropDecimalMarker_digits hd, hrun]

/-- `to_i` of text that does not start with a number. -/
theorem toI_eq_zero {s : String} {c : Char} {cs : List Char} (h : s.toList = c :: cs)
    (hspace : isAsciiSpace c = false) (hsign : c ≠ '-' ∧ c ≠ '+') (hdigit : c.isDigit = false) :
    toI s = 0 := by
  have hs : signOf (c :: cs) = (false, c :: cs) := by
    unfold signOf
    split
    · rename_i heq
      cases heq
      exact absurd rfl hsign.1
    · rename_i heq
      cases heq
      exact absurd rfl hsign.2
    · rfl
  have hm : dropDecimalMarker (c :: cs) = c :: cs := by
    unfold dropDecimalMarker
    split
    · rename_i heq
      cases heq
      cases hdigit
    · rename_i heq
      cases heq
      cases hdigit
    · rfl
  simp [toI, h, hspace, hs, hm, digitRun, hdigit, digitsValue]

theorem digitsValue_toDigits (n : Nat) : digitsValue (Nat.toDigits 10 n) = n :=
  Nat.ofDigitChars_toDigits (by decide) (by decide)

/-- The decimal numeral of `n` reads back as `n`. -/
theorem toI_toString (n : Nat) : toI (toString n) = n := by
  have hd : ∀ c ∈ (toString n).toList, c.isDigit = true := by
    intro c hc
    rw [toList_toString] at hc
    exact isDigit_of_mem_toDigits hc
  rw [toI_digits hd, toList_toString, digitsValue_toDigits]

/-- A decimal numeral is not blank. -/
theorem blank_toString (n : Nat) : blank (toString n) = false := by
  unfold blank
  rw [toList_toString]
  cases h : Nat.toDigits 10 n with
  | nil => exact absurd h Nat.toDigits_ne_nil
  | cons c cs =>
      have hc := digit_bounds (isDigit_of_mem_toDigits (n := n) (c := c) (by simp [h]))
      have : isSpace c = false := by simp [isSpace]; omega
      simp [this]

/-- Padding with zeros keeps the value. -/
theorem digitsValue_rjust (s : String) (width : Nat) :
    digitsValue (rjust s width '0').toList = digitsValue s.toList := by
  simp [rjust, digitsValue, Nat.ofDigitChars_append, Nat.ofDigitChars_replicate_zero]

/-- Zeros in front do not count. -/
theorem digitsValue_dropWhile_zero (ds : List Char) :
    digitsValue (ds.dropWhile (· == '0')) = digitsValue ds := by
  induction ds with
  | nil => rfl
  | cons d ds ih =>
      by_cases hd : d = '0'
      · subst hd
        rw [List.dropWhile_cons_of_pos (by rfl), ih]
        rfl
      · rw [List.dropWhile_cons_of_neg (by simpa using hd)]

theorem isDigit_of_mem_rjust {s : String} {width : Nat}
    (hd : ∀ c ∈ s.toList, c.isDigit = true) :
    ∀ c ∈ (rjust s width '0').toList, c.isDigit = true := by
  intro c hc
  simp only [rjust, String.toList_ofList, List.mem_append, List.mem_replicate] at hc
  rcases hc with ⟨_, rfl⟩ | hc
  · decide
  · exact hd c hc

/-- Padding never empties a string. -/
theorem rjust_ne_nil {s : String} {width : Nat} {pad : Char} (h : s.toList ≠ []) :
    (rjust s width pad).toList ≠ [] := by
  simp [rjust, h]

theorem strip_eq_self {s : String}
    (h : ∀ c ∈ s.toList, isAsciiSpace c = false ∧ c.toNat ≠ 0) : strip s = s := by
  have hfront : s.toList.dropWhile isAsciiSpace = s.toList := by
    cases hs : s.toList with
    | nil => rfl
    | cons c cs => simp [(h c (by simp [hs])).1]
  have hback : s.toList.reverse.dropWhile (fun c => isAsciiSpace c || c.toNat == 0)
      = s.toList.reverse := by
    cases hs : s.toList.reverse with
    | nil => rfl
    | cons c cs =>
        have hc := h c (by rw [← List.mem_reverse, hs]; simp)
        simp [hc.1, hc.2]
  rw [strip, hfront, hback, List.reverse_reverse, String.ofList_toList]

/-- Blank text is no number. -/
theorem toF_of_blank {s : String} (h : blank s = true) : toF s = 0 := by
  have hall : ∀ c ∈ s.toList.dropWhile isAsciiSpace, isSpace c = true := by
    intro c hc
    exact List.all_eq_true.mp h c ((List.dropWhile_sublist _).subset hc)
  cases hcs : s.toList.dropWhile isAsciiSpace with
  | nil => simp [toF, hcs, signOf, digitRun, fractionOf, digitsValue]
  | cons c cs =>
      have hc : isSpace c = true := hall c (by simp [hcs])
      have hminus : c ≠ '-' := by rintro rfl; exact absurd hc (by decide)
      have hplus : c ≠ '+' := by rintro rfl; exact absurd hc (by decide)
      have hpoint : c ≠ '.' := by rintro rfl; exact absurd hc (by decide)
      have hdigit : c.isDigit = false := by
        cases hd : c.isDigit with
        | false => rfl
        | true =>
            have hb := digit_bounds hd
            simp [isSpace] at hc
            omega
      have hsign : signOf (c :: cs) = (false, c :: cs) := by simp [signOf, hminus, hplus]
      have hrun : digitRun false (c :: cs) = ([], c :: cs) := by
        simp [digitRun, hdigit]
      have hfrac : fractionOf (c :: cs) = ([], c :: cs) := by simp [fractionOf, hpoint]
      simp [toF, hcs, hsign, hrun, hfrac, digitsValue]

end HomeWarranty.Ruby
