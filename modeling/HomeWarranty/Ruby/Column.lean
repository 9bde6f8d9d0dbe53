/-
HomeWarranty.Ruby.Column — how values reach typed columns, and dates.

Writing a string to an integer column goes through two conversions:
ActiveRecord turns a blank string into NULL and any other into `to_i`
(`castInteger`), and MySQL, in the non-strict mode this Rails version
runs it in, stores a number outside the signed 32-bit range as the
nearest bound (`storeInt`). A LOOKUP does not go through the second
conversion: the number in a WHERE clause is compared as it is.

Text columns compare under the database's collation, which is a setting
of the server and not of the application: it is a parameter, the
function `fold` that identifies the characters the collation does not
distinguish. `sqlEq` is `WHERE column = value` as `find_by_…` writes it
(IS NULL for `nil`); spaces at the end do not count there. `sqlLike` is
LIKE, where they do.

Dates are those of Ruby's calendar, the Julian one until October 1582;
`Date.addMonths` is `Date#>>`, which clips the day to one that the target
month has. MySQL's calendar is the Gregorian one in all years: what a
date column keeps is `storeDate`. `strptimeMdy` reads the one format in
which the forms post a date.
-/
import Mathlib.Data.List.DropRight
import HomeWarranty.Ruby.Text

namespace HomeWarranty.Ruby

/-! ## Integer columns -/

def maxInt : Int := 2147483647

def minInt : Int := -2147483648

/-- MySQL's non-strict store: saturate at the 32-bit bounds. -/
def storeInt (n : Int) : Int := max minInt (min n maxInt)

theorem storeInt_of_mem {n : Int} (h1 : minInt ≤ n) (h2 : n ≤ maxInt) :
    storeInt n = n := by
  simp only [storeInt]
  omega

theorem storeInt_le (n : Int) : storeInt n ≤ maxInt := by
  simp only [storeInt, minInt, maxInt]
  omega

/-- ActiveRecord's cast of a string to an integer column. -/
def castInteger : Option String → Option Int
  | none => none
  | some s => if blank s then none else some (toI s)

/-- The value an integer column holds after a string was written to it. -/
def integerColumn (s : Option String) : Option Int :=
  (castInteger s).map storeInt

/-- ActiveRecord's cast of a string to a float column. The number is the
exact one, which no column keeps in general; the models whose results
depend on that use `Numbers`. -/
def floatColumn : Option String → Option ℚ
  | none => none
  | some s => if blank s then none else some (toF s)

/-- ActiveRecord's cast of a string to a boolean column. -/
def castBoolean : Option String → Option Bool
  | none => none
  | some s =>
      if blank s then none
      else some (["1", "t", "T", "true", "TRUE", "on", "ON"].contains s)

/-- A changed attribute is written, an unchanged one is left alone:
`old` is what the object loaded, `new` what it holds now, `stored` what
the row holds. -/
def writeAttribute {α : Type} [DecidableEq α] (old new stored : α) : α :=
  if new = old then stored else new

@[simp] theorem writeAttribute_self {α : Type} [DecidableEq α] (old new : α) :
    writeAttribute old new old = new := by
  unfold writeAttribute
  split
  · rename_i h; exact h.symm
  · rfl

/-! ## Text columns -/

/-- What a varchar(255) holds of a text. -/
def textColumn (s : String) : String := String.ofList (s.toList.take 255)

theorem textColumn_of_le {s : String} (h : s.toList.length ≤ 255) : textColumn s = s := by
  unfold textColumn
  rw [List.take_of_length_le h, String.ofList_toList]

/-- What a column gave back it keeps. -/
@[simp] theorem textColumn_textColumn (s : String) : textColumn (textColumn s) = textColumn s := by
  unfold textColumn
  rw [String.toList_ofList, List.take_take, Nat.min_self]

/-- What `=` compares of a text. -/
def sqlText (fold : Char → Char) (s : String) : List Char :=
  (s.toList.rdropWhile (· == ' ')).map fold

/-- `WHERE column = value`, or `IS NULL` when the value is `nil`. -/
def sqlEq (fold : Char → Char) (a b : Option String) : Bool :=
  a.map (sqlText fold) == b.map (sqlText fold)

@[simp] theorem sqlEq_iff {fold : Char → Char} {a b : Option String} :
    sqlEq fold a b = true ↔ a.map (sqlText fold) = b.map (sqlText fold) := by
  simp [sqlEq]

/-- LIKE: `%` is any text, `_` any character, a backslash quotes the
character after it. -/
def sqlLike (fold : Char → Char) : List Char → List Char → Bool
  | [], s => s.isEmpty
  | '%' :: ps, s => s.tails.any (sqlLike fold ps)
  | '_' :: ps, s =>
      match s with
      | [] => false
      | _ :: t => sqlLike fold ps t
  | '\\' :: c :: ps, s =>
      match s with
      | [] => false
      | d :: t => fold c == fold d && sqlLike fold ps t
  | c :: ps, s =>
      match s with
      | [] => false
      | d :: t => fold c == fold d && sqlLike fold ps t

/-- LIKE on a column that may be NULL. -/
def sqlLikeOpt (fold : Char → Char) (pattern : String) : Option String → Bool
  | none => false
  | some s => sqlLike fold pattern.toList s.toList

/-! ## Dates -/

structure Date where
  year : Int
  month : Nat
  day : Nat
  deriving DecidableEq, Repr

/-- The years with a leap day: all that four divides, until 1582. -/
def isLeap (y : Int) : Bool :=
  y % 4 == 0 && (decide (y ≤ 1582) || y % 100 != 0 || y % 400 == 0)

def daysInMonth (y : Int) (m : Nat) : Nat :=
  match m with
  | 2 => if isLeap y then 29 else 28
  | 4 => 30
  | 6 => 30
  | 9 => 30
  | 11 => 30
  | _ => 31

/-- The last day of a month that is not after `day`. Ten days are missing
from October 1582. -/
def clipDay (y : Int) (m day : Nat) : Nat :=
  let d := min day (daysInMonth y m)
  if y = 1582 ∧ m = 10 ∧ 5 ≤ d ∧ d ≤ 14 then 4 else d

/-- `Date#>>`: the same day `n` months on, clipped to the month. -/
def Date.addMonths (d : Date) (n : Int) : Date :=
  let total := d.year * 12 + (d.month - 1 : Nat) + n
  let y := total / 12
  let m := (total % 12).toNat + 1
  { year := y, month := m, day := clipDay y m d.day }

/-- `strftime('%Y%m%d')`. -/
def Date.strftimeYmd (d : Date) : String :=
  (if d.year < 0 then "-" else "") ++ rjust (toString d.year.natAbs) 4 '0'
    ++ rjust (toString d.month) 2 '0' ++ rjust (toString d.day) 2 '0'

example : (Date.mk 2016 1 31).addMonths 13 = Date.mk 2017 2 28 ∧
    (Date.mk 1500 1 31).addMonths 1 = Date.mk 1500 2 29 ∧
    (Date.mk 1582 9 10).addMonths 1 = Date.mk 1582 10 4 := by decide

/-- The dates of MySQL: years of four digits, with the leap days of the
Gregorian calendar and none in the year 0. -/
def Date.inColumn (d : Date) : Bool :=
  decide (0 ≤ d.year) && decide (d.year ≤ 9999) &&
    (d.month != 2 || d.day != 29 ||
      d.year != 0 && d.year % 4 == 0 && (d.year % 100 != 0 || d.year % 400 == 0))

/-- MySQL's non-strict store of a date: the column becomes the zero date
in place of one it cannot hold, which reads back as `nil`. -/
def storeDate (d : Date) : Option Date :=
  if d.inColumn then some d else none

theorem storeDate_eq_some_iff {d e : Date} :
    storeDate d = some e ↔ d = e ∧ e.inColumn = true := by
  unfold storeDate
  constructor
  · intro h
    split at h
    · rename_i hd
      obtain rfl := Option.some.inj h
      exact ⟨rfl, hd⟩
    · cases h
  · rintro ⟨rfl, hd⟩
    rw [if_pos hd]

/-- `Date.valid_civil?`. -/
def validCivil (y : Int) (m d : Nat) : Bool :=
  1 ≤ m && m ≤ 12 && 1 ≤ d && clipDay y m d == d

/-- At least one and at most `n` digits at the front. -/
def readDigits (n : Nat) (cs : List Char) : Option (Nat × List Char) :=
  let ds := (cs.take n).takeWhile Char.isDigit
  if ds.isEmpty then none else some (digitsValue ds, cs.drop ds.length)

/-- `%d`: a blank may stand for the first digit. -/
def readDay : List Char → Option (Nat × List Char)
  | ' ' :: cs => readDigits 1 cs
  | cs => readDigits 2 cs

/-- `%Y`: a sign, and all the digits that follow. -/
def readYear : List Char → Option (Int × List Char)
  | '-' :: cs => (readDigits cs.length cs).map fun r => (-r.1, r.2)
  | '+' :: cs => (readDigits cs.length cs).map fun r => (r.1, r.2)
  | cs => (readDigits cs.length cs).map fun r => (r.1, r.2)

/-- `Date.strptime(s, "%m/%d/%Y")`; `none` where it raises. -/
def strptimeMdy (s : String) : Option Date := do
  let (m, cs) ← readDigits 2 s.toList
  let '/' :: cs := cs | none
  let (d, cs) ← readDay cs
  let '/' :: cs := cs | none
  let (y, []) ← readYear cs | none
  if validCivil y m d then some ⟨y, m, d⟩ else none

/-- `strftime('%m/%d/%Y')`. -/
def Date.strftimeMdy (d : Date) : String :=
  rjust (toString d.month) 2 '0' ++ "/" ++ rjust (toString d.day) 2 '0' ++ "/"
    ++ (if d.year < 0 then "-" else "") ++ rjust (toString d.year.natAbs) 4 '0'

example : (strptimeMdy "2/29/2016").map Date.strftimeMdy = some "02/29/2016" := by
  decide +kernel

/-! ## Dates as text -/

/-- `Date.strptime(s, "%d/%m/%Y")`; `none` where it raises. -/
def strptimeDmy (s : String) : Option Date := do
  let (d, cs) ← readDay s.toList
  let '/' :: cs := cs | none
  let (m, cs) ← readDigits 2 cs
  let '/' :: cs := cs | none
  let (y, []) ← readYear cs | none
  if validCivil y m d then some ⟨y, m, d⟩ else none

/-- A number in at least so many digits. -/
def pad (width n : Nat) : List Char := (rjust (toString n) width '0').toList

/-- A year in at least four digits. -/
def yearText (y : Int) : List Char := (if y < 0 then ['-'] else []) ++ pad 4 y.natAbs

theorem toList_strftimeMdy (d : Date) :
    d.strftimeMdy.toList = pad 2 d.month ++ '/' :: (pad 2 d.day ++ '/' :: yearText d.year) := by
  by_cases h : d.year < 0
  · simp [Date.strftimeMdy, yearText, pad, h]
  · simp [Date.strftimeMdy, yearText, pad, h]

theorem isDigit_of_mem_pad {n width : Nat} {c : Char} (hc : c ∈ pad width n) :
    c.isDigit = true := by
  apply isDigit_of_mem_rjust _ c hc
  intro c hc
  rw [toList_toString] at hc
  exact isDigit_of_mem_toDigits hc

@[simp] theorem digitsValue_pad (width n : Nat) : digitsValue (pad width n) = n := by
  rw [pad, digitsValue_rjust, toList_toString, digitsValue_toDigits]

theorem pad_ne_nil (width n : Nat) : pad width n ≠ [] := by
  apply rjust_ne_nil
  rw [toList_toString]
  exact Nat.toDigits_ne_nil

@[simp] theorem takeWhile_pad (width n : Nat) :
    (pad width n).takeWhile Char.isDigit = pad width n :=
  List.takeWhile_eq_self_iff.mpr fun _ => isDigit_of_mem_pad

/-- What a number starts with is no sign and no blank. -/
theorem pad_head {width n : Nat} {c : Char} {cs : List Char} (h : pad width n = c :: cs) :
    c.isDigit = true :=
  isDigit_of_mem_pad (by rw [h]; exact List.mem_cons_self)

theorem length_pad (width n : Nat) :
    (pad width n).length = max width (Nat.toDigits 10 n).length := by
  rw [pad, rjust, String.toList_ofList, List.length_append, List.length_replicate,
    ← String.length_toList, toList_toString]
  omega

theorem length_pad_of_lt {width n : Nat} (hw : 0 < width) (h : n < 10 ^ width) :
    (pad width n).length = width := by
  rw [length_pad, max_eq_left]
  exact (Nat.length_toDigits_le_iff (by decide) hw).mpr h

theorem length_pad_two {n : Nat} (h : n < 100) : (pad 2 n).length = 2 :=
  length_pad_of_lt (by decide) h

/-- A number in two digits is read as that number. -/
theorem readDigits_pad {n : Nat} (h : n < 100) (rest : List Char) :
    readDigits 2 (pad 2 n ++ rest) = some (n, rest) := by
  have htake : (pad 2 n ++ rest).take 2 = pad 2 n := List.take_left' (length_pad_two h)
  unfold readDigits
  simp only [htake, takeWhile_pad, List.drop_left, digitsValue_pad]
  rw [if_neg (by simpa using pad_ne_nil 2 n)]

theorem readDay_pad {n : Nat} (h : n < 100) (rest : List Char) :
    readDay (pad 2 n ++ rest) = some (n, rest) := by
  cases hcs : pad 2 n with
  | nil => exact absurd hcs (pad_ne_nil 2 n)
  | cons c cs =>
      have hc : c ≠ ' ' := by
        rintro rfl
        exact absurd (pad_head hcs) (by decide)
      have hread : readDay (c :: (cs ++ rest)) = readDigits 2 (c :: (cs ++ rest)) := by
        simp [readDay, hc]
      rw [List.cons_append, hread, ← List.cons_append, ← hcs, readDigits_pad h]

theorem readDigits_pad_all (width n : Nat) :
    readDigits (pad width n).length (pad width n) = some (n, []) := by
  unfold readDigits
  simp only [List.take_length, takeWhile_pad, List.drop_length, digitsValue_pad]
  rw [if_neg (by simpa using pad_ne_nil width n)]

theorem readYear_yearText (y : Int) : readYear (yearText y) = some (y, []) := by
  by_cases hy : y < 0
  · have hneg : -(y.natAbs : Int) = y := by omega
    simp only [yearText, hy, if_true, List.singleton_append, readYear, readDigits_pad_all,
      Option.map_some, hneg]
  · have hpos : (y.natAbs : Int) = y := by omega
    simp only [yearText, hy, if_false, List.nil_append]
    cases hcs : pad 4 y.natAbs with
    | nil => exact absurd hcs (pad_ne_nil 4 _)
    | cons c cs =>
        have hminus : c ≠ '-' := by
          rintro rfl
          exact absurd (pad_head hcs) (by decide)
        have hplus : c ≠ '+' := by
          rintro rfl
          exact absurd (pad_head hcs) (by decide)
        have hread : readYear (c :: cs) =
            (readDigits (c :: cs).length (c :: cs)).map fun r => ((r.1 : Int), r.2) := by
          simp [readYear, hminus, hplus]
        rw [hread, ← hcs, readDigits_pad_all, Option.map_some, hpos]

/-- The text of a date is read month first as that date. -/
theorem strptimeMdy_strftimeMdy {d : Date} (hm : d.month < 100) (hd : d.day < 100) :
    strptimeMdy d.strftimeMdy =
      if validCivil d.year d.month d.day then some d else none := by
  simp only [strptimeMdy, toList_strftimeMdy, readDigits_pad hm, readDay_pad hd,
    readYear_yearText, Option.bind_eq_bind, Option.bind_some]

/-- Read day first it is the date with day and month exchanged. -/
theorem strptimeDmy_strftimeMdy {d : Date} (hm : d.month < 100) (hd : d.day < 100) :
    strptimeDmy d.strftimeMdy =
      if validCivil d.year d.day d.month then some ⟨d.year, d.day, d.month⟩ else none := by
  simp only [strptimeDmy, toList_strftimeMdy, readDigits_pad hd, readDay_pad hm,
    readYear_yearText, Option.bind_eq_bind, Option.bind_some]

/-- A number before a slash can be told from the text after it. -/
theorem pad_slash_inj {width m n : Nat} {cs ds : List Char}
    (h : pad width m ++ '/' :: cs = pad width n ++ '/' :: ds) : m = n ∧ cs = ds := by
  have hfront : ∀ (k : Nat) (es : List Char),
      (pad width k ++ '/' :: es).takeWhile Char.isDigit = pad width k := by
    intro k es
    rw [List.takeWhile_append_of_pos fun _ => isDigit_of_mem_pad,
      List.takeWhile_cons_of_neg (by decide), List.append_nil]
  have hpad : pad width m = pad width n := by
    rw [← hfront m cs, h, hfront]
  have hvalue := congrArg digitsValue hpad
  rw [digitsValue_pad, digitsValue_pad] at hvalue
  rw [hpad] at h
  exact ⟨hvalue, (List.cons.inj (List.append_cancel_left h)).2⟩

/-- Different dates have different texts. -/
theorem strftimeMdy_injective {d e : Date} (h : d.strftimeMdy = e.strftimeMdy) : d = e := by
  have hlist := congrArg String.toList h
  rw [toList_strftimeMdy, toList_strftimeMdy] at hlist
  obtain ⟨hmonth, hrest⟩ := pad_slash_inj hlist
  obtain ⟨hday, hyear⟩ := pad_slash_inj hrest
  have hread := congrArg readYear hyear
  rw [readYear_yearText, readYear_yearText] at hread
  cases d
  cases e
  simp only [Option.some.injEq, Prod.mk.injEq, and_true] at hread
  simp_all

end HomeWarranty.Ruby
