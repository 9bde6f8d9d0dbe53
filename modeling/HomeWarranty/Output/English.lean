/-
HomeWarranty.Output.English — `to_english` of
`config/initializers/number_to_english.rb`, the amount in words on a work
order.

The words are put together from the digits: the hundreds with a blank on
either side, then the tens, a hyphen and the ones. The blank and the
hyphen are there also when nothing stands next to them, so a hundred and
a single digit read `one hundred -five`, and a full hundred ends in a
blank. Four digits and more give no words at all. `english_iff` says that
every other number is right.
-/
import Mathlib.Data.List.TakeWhile
import HomeWarranty.Ruby.Text

namespace HomeWarranty.Output

open Ruby

/-! ## The words of the source -/

def TENS_PLACE_ENGLISH : List (Option String) :=
  [none, none, some "twenty", some "thirty", some "forty", some "fifty", some "sixty",
    some "seventy", some "eighty", some "ninety"]

def TEENS_ENGLISH : List String :=
  ["ten", "eleven", "twelve", "thirteen", "fourteen", "fifteen", "sixteen", "seventeen", "eighteen",
    "nineteen", "twenty"]

def ONES_PLACE_ENGLISH : List String :=
  ["zero", "one", "two", "three", "four", "five", "six", "seven", "eight", "nine"]

/-- The branch for two digits. -/
def twoPlaces (string : List Char) : List (Option String) :=
  let last := string.drop (string.length - 1)
  if string.take 1 = ['1'] then [TEENS_ENGLISH[digitsValue last]?]
  else
    TENS_PLACE_ENGLISH[digitsValue (string.take 1)]?.join ::
      (if last = ['0'] then [] else [some "-", ONES_PLACE_ENGLISH[digitsValue last]?])

/-- `english.compact.join('')`. -/
def joined (english : List (Option String)) : String := String.join (english.filterMap id)

/-- `Fixnum#to_english`. -/
def fixnumToEnglish (n : Nat) : String :=
  let string := (toString n).toList
  if string.length = 3 then
    joined (ONES_PLACE_ENGLISH[digitsValue (string.take 1)]? :: some " hundred " ::
      twoPlaces (string.drop 1))
  else if string.length = 2 then joined (twoPlaces string)
  else if string.length = 1 then joined [ONES_PLACE_ENGLISH[digitsValue (string.take 1)]?]
  else joined []

/-- `to_english`; `Bignum` starts at 2 ^ 62 and has no words. -/
def toEnglish (n : Nat) : String := if n < 2 ^ 62 then fixnumToEnglish n else ""

example : toEnglish 42 = "forty-two" ∧ toEnglish 115 = "one hundred fifteen" ∧
    toEnglish 105 = "one hundred -five" ∧ toEnglish 200 = "two hundred " ∧ toEnglish 1500 = "" := by
  decide +kernel

/-! ## English -/

/-- The numbers below twenty. -/
def smallWords : List String :=
  ["zero", "one", "two", "three", "four", "five", "six", "seven", "eight", "nine", "ten", "eleven",
    "twelve", "thirteen", "fourteen", "fifteen", "sixteen", "seventeen", "eighteen", "nineteen"]

def tensWords : List String :=
  ["", "", "twenty", "thirty", "forty", "fifty", "sixty", "seventy", "eighty", "ninety"]

/-- A number below a hundred. -/
def belowHundred (n : Nat) : String :=
  if n < 20 then smallWords.getD n ""
  else if n % 10 = 0 then tensWords.getD (n / 10) ""
  else tensWords.getD (n / 10) "" ++ "-" ++ smallWords.getD (n % 10) ""

/-- A number below a thousand, word by word. -/
def belowThousand (n : Nat) : List String :=
  (if n < 100 then [] else [smallWords.getD (n / 100) "", "hundred"]) ++
    (if n % 100 = 0 then [] else [belowHundred (n % 100)])

/-- The words of `n` times the `k`-th power of a thousand. -/
def thousands (scale : Nat → String) (k n : Nat) : List String :=
  if n = 0 then []
  else
    thousands scale (k + 1) (n / 1000) ++
      (if n % 1000 = 0 then [] else belowThousand (n % 1000) ++ (if k = 0 then [] else [scale k]))
termination_by n
decreasing_by omega

/-- Any number in words; `scale` has the names of the powers of a
thousand. -/
def inWords (scale : Nat → String) (n : Nat) : String :=
  if n = 0 then "zero" else String.join ((thousands scale 0 n).intersperse " ")

/-- Blanks and hyphens stand alone and between words; the flag tells
whether a word stands before. -/
def neatFrom : Bool → List Char → Bool
  | word, [] => word
  | word, c :: cs => if c == ' ' || c == '-' then word && neatFrom false cs else neatFrom true cs

/-- Words with one blank or hyphen between them, and at least one. -/
def neat (s : String) : Bool := neatFrom false s.toList

/-- The words are right and no other number has them. -/
def EnglishRight (scale : Nat → String) (n : Nat) : Prop :=
  toEnglish n = inWords scale n ∧ neat (toEnglish n) = true ∧ ∀ m, toEnglish m = toEnglish n → m = n

/-! ## By the number of digits -/

/-- What the source writes behind the hundreds. -/
def behindHundred (r : Nat) : String :=
  joined (twoPlaces [Nat.digitChar (r / 10), Nat.digitChar (r % 10)])

theorem digits_hundreds {a r : Nat} (ha : 0 < a) (ha' : a < 10) (hr : r < 100) :
    (toString (100 * a + r)).toList =
      [Nat.digitChar a, Nat.digitChar (r / 10), Nat.digitChar (r % 10)] := by
  have hones : (100 * a + r) % 10 = r % 10 := by omega
  have htens : (100 * a + r) / 10 % 10 = r / 10 := by omega
  have hhundreds : (100 * a + r) / 10 / 10 = a := by omega
  rw [toList_toString, Nat.toDigits_of_base_le (by decide) (by omega),
    Nat.toDigits_of_base_le (by decide) (show 10 ≤ (100 * a + r) / 10 by omega), hones, htens,
    hhundreds, Nat.toDigits_of_lt_base ha']
  rfl

theorem toEnglish_of_thousand_le {n : Nat} (h : 1000 ≤ n) : toEnglish n = "" := by
  have hlen : 3 < (toString n).toList.length := by
    rw [toList_toString, ← Nat.not_le, Nat.length_toDigits_le_iff (by decide) (by decide)]
    omega
  have h1 : (toString n).toList.length ≠ 1 := by omega
  have h2 : (toString n).toList.length ≠ 2 := by omega
  have h3 : (toString n).toList.length ≠ 3 := by omega
  rw [toEnglish, fixnumToEnglish, if_neg h3, if_neg h2, if_neg h1]
  exact ite_self _

/-- The digit of the hundreds is looked up as it is written. -/
theorem ones_digitChar : ∀ a < 10,
    ONES_PLACE_ENGLISH[digitsValue [Nat.digitChar a]]? = some (smallWords.getD a "") := by
  decide

theorem toEnglish_hundreds {a r : Nat} (ha : 0 < a) (ha' : a < 10) (hr : r < 100) :
    toEnglish (100 * a + r) = smallWords.getD a "" ++ " hundred " ++ behindHundred r := by
  have hsmall : 100 * a + r < 2 ^ 62 := by omega
  have hjoin : ∀ (x : String) (xs : List (Option String)),
      joined (some x :: some " hundred " :: xs) = x ++ " hundred " ++ joined xs := by
    intro x xs
    simp [joined, String.join_cons, String.append_assoc]
  rw [toEnglish, if_pos hsmall, fixnumToEnglish, digits_hundreds ha ha' hr]
  simp only [List.length_cons, List.length_nil, if_pos, List.take_succ_cons, List.take_zero,
    List.drop_succ_cons, List.drop_zero]
  rw [ones_digitChar a ha', hjoin, behindHundred]

theorem behindHundred_two_digits : ∀ r < 100, 10 ≤ r → behindHundred r = belowHundred r := by
  decide +kernel

theorem toEnglish_belowHundred {n : Nat} (h : n < 100) : toEnglish n = belowHundred n := by
  have hsmall : n < 2 ^ 62 := by omega
  rw [toEnglish, if_pos hsmall, fixnumToEnglish, toList_toString]
  by_cases htwo : 10 ≤ n
  · rw [Nat.toDigits_of_base_le (by decide) htwo,
      Nat.toDigits_of_lt_base (show n / 10 < 10 by omega)]
    exact behindHundred_two_digits n h htwo
  · have hdigit : n < 10 := by omega
    rw [Nat.toDigits_of_lt_base hdigit]
    have hword := congrArg (fun w => joined [w]) (ones_digitChar n hdigit)
    rw [belowHundred, if_pos (show n < 20 by omega)]
    exact hword.trans String.empty_append

/-! ## Different words -/

/-- The value of a word, and nothing for no word. -/
def wordValue (w : List Char) : Nat :=
  if (smallWords.map String.toList).contains w then (smallWords.map String.toList).idxOf w
  else if w = [] then 0
  else 10 * (tensWords.map String.toList).idxOf w

/-- A number below a hundred, read back from its words. -/
def readBelowHundred (cs : List Char) : Nat :=
  wordValue (cs.takeWhile (· != '-')) + wordValue ((cs.dropWhile (· != '-')).drop 1)

/-- A word is letters. -/
def letters (w : List Char) : Bool := w.all fun c => c != ' ' && c != '-'

theorem smallWords_spec : ∀ n < 20, (letters (smallWords.getD n "").toList = true ∧
    (smallWords.getD n "").toList ≠ []) ∧ wordValue (smallWords.getD n "").toList = n := by
  decide

theorem tensWords_spec : ∀ t < 10, 2 ≤ t → (letters (tensWords.getD t "").toList = true ∧
    (tensWords.getD t "").toList ≠ []) ∧ wordValue (tensWords.getD t "").toList = 10 * t := by
  decide

theorem ne_of_letters {w : List Char} (h : letters w = true) {c : Char} (hc : c ∈ w) :
    c ≠ ' ' ∧ c ≠ '-' := by
  simpa using List.all_eq_true.mp h c hc

theorem readBelowHundred_word {w : List Char} (h : letters w = true) :
    readBelowHundred w = wordValue w := by
  have hnone : w.takeWhile (· != '-') = w := by
    rw [List.takeWhile_eq_self_iff]
    intro c hc
    simpa using (ne_of_letters h hc).2
  have hdrop : w.dropWhile (· != '-') = [] := by
    rw [List.dropWhile_eq_nil_iff]
    intro c hc
    simpa using (ne_of_letters h hc).2
  rw [readBelowHundred, hnone, hdrop]
  rfl

theorem readBelowHundred_pair {w : List Char} (h : letters w = true) (v : List Char) :
    readBelowHundred (w ++ '-' :: v) = wordValue w + wordValue v := by
  have hall : ∀ c ∈ w, (c != '-') = true := by
    intro c hc
    simpa using (ne_of_letters h hc).2
  rw [readBelowHundred, List.takeWhile_append_of_pos hall, List.dropWhile_append_of_pos hall]
  simp

theorem toList_pair (t s : String) : (t ++ "-" ++ s).toList = t.toList ++ '-' :: s.toList := by
  simp [String.toList_append]

theorem readBelowHundred_belowHundred {n : Nat} (h : n < 100) :
    readBelowHundred (belowHundred n).toList = n := by
  unfold belowHundred
  split_ifs with hsmall hround
  · obtain ⟨hword, hvalue⟩ := smallWords_spec n hsmall
    rw [readBelowHundred_word hword.1, hvalue]
  · obtain ⟨hword, hvalue⟩ := tensWords_spec (n / 10) (by omega) (by omega)
    rw [readBelowHundred_word hword.1, hvalue]
    omega
  · obtain ⟨hword, hvalue⟩ := tensWords_spec (n / 10) (by omega) (by omega)
    rw [toList_pair, readBelowHundred_pair hword.1, hvalue, (smallWords_spec (n % 10) (by omega)).2]
    omega

/-- Below a hundred there is one word, or two with a hyphen. -/
theorem belowHundred_words {n : Nat} (h : n < 100) :
    ∃ w, (letters w = true ∧ w ≠ []) ∧ ((belowHundred n).toList = w ∨
      ∃ v, (letters v = true ∧ v ≠ []) ∧ (belowHundred n).toList = w ++ '-' :: v) := by
  unfold belowHundred
  split_ifs with hsmall hround
  · exact ⟨_, (smallWords_spec n hsmall).1, .inl rfl⟩
  · exact ⟨_, (tensWords_spec (n / 10) (by omega) (by omega)).1, .inl rfl⟩
  · exact ⟨_, (tensWords_spec (n / 10) (by omega) (by omega)).1,
      .inr ⟨_, (smallWords_spec (n % 10) (by omega)).1, toList_pair _ _⟩⟩

/-- A digit behind the hundreds has the hyphen and nothing before it. -/
theorem behindHundred_digit : ∀ r < 10, behindHundred r =
    if r = 0 then "" else "-" ++ smallWords.getD r "" := by
  decide

theorem readBelowHundred_behindHundred {r : Nat} (h : r < 100) :
    readBelowHundred (behindHundred r).toList = r := by
  by_cases htwo : 10 ≤ r
  · rw [behindHundred_two_digits r h htwo, readBelowHundred_belowHundred h]
  · rw [behindHundred_digit r (by omega)]
    split_ifs with hzero
    · subst hzero
      rfl
    · have hlist : ("-" ++ smallWords.getD r "").toList
          = [] ++ '-' :: (smallWords.getD r "").toList := by
        simp [String.toList_append]
      rw [hlist, readBelowHundred_pair rfl, (smallWords_spec r (by omega)).2]
      exact Nat.zero_add r

theorem toList_hundreds (w s : String) :
    (w ++ " hundred " ++ s).toList =
      w.toList ++ ' ' :: (['h', 'u', 'n', 'd', 'r', 'e', 'd', ' '] ++ s.toList) := by
  simp [String.toList_append]

theorem blank_notMem_belowHundred {n : Nat} (h : n < 100) : ' ' ∉ (belowHundred n).toList := by
  obtain ⟨w, hw, hlist | ⟨v, hv, hlist⟩⟩ := belowHundred_words h
  · rw [hlist]
    exact fun hc => (ne_of_letters hw.1 hc).1 rfl
  · rw [hlist, List.mem_append, List.mem_cons]
    rintro (hc | hc | hc)
    · exact (ne_of_letters hw.1 hc).1 rfl
    · cases hc
    · exact (ne_of_letters hv.1 hc).1 rfl

/-- No two numbers of up to three digits have the same words. -/
theorem toEnglish_injective {m n : Nat} (hm : m < 1000) (hn : n < 1000)
    (h : toEnglish m = toEnglish n) : m = n := by
  -- the words of the hundreds end at the first blank, and below a hundred there is none
  have hsplit : ∀ k, 100 ≤ k → k < 1000 → ∃ a r, k = 100 * a + r ∧ a < 20 ∧ r < 100 ∧
      (toEnglish k).toList = (smallWords.getD a "").toList ++ ' ' ::
        (['h', 'u', 'n', 'd', 'r', 'e', 'd', ' '] ++ (behindHundred r).toList) := by
    intro k hlo hhi
    refine ⟨k / 100, k % 100, by omega, by omega, by omega, ?_⟩
    have hk : toEnglish (100 * (k / 100) + k % 100) = _ :=
      toEnglish_hundreds (by omega) (by omega) (by omega)
    rw [show 100 * (k / 100) + k % 100 = k by omega] at hk
    rw [hk, toList_hundreds]
  have hmixed : ∀ {i j}, i < 100 → 100 ≤ j → j < 1000 → toEnglish i ≠ toEnglish j := by
    intro i j hi hj hj' heq
    obtain ⟨a, r, _, _, _, hlist⟩ := hsplit j hj hj'
    apply blank_notMem_belowHundred hi
    rw [← toEnglish_belowHundred hi, heq, hlist]
    simp
  by_cases hm' : m < 100
  · by_cases hn' : n < 100
    · rw [toEnglish_belowHundred hm', toEnglish_belowHundred hn'] at h
      rw [← readBelowHundred_belowHundred hm', h, readBelowHundred_belowHundred hn']
    · exact absurd h (hmixed hm' (by omega) hn)
  · by_cases hn' : n < 100
    · exact absurd h.symm (hmixed hn' (by omega) hm)
    · obtain ⟨a, r, rfl, ha, hr, hlist⟩ := hsplit m (by omega) hm
      obtain ⟨b, q, rfl, hb, hq, hlist'⟩ := hsplit n (by omega) hn
      rw [h, hlist'] at hlist
      have hword : ∀ k < 20, ∀ tail : List Char,
          ((smallWords.getD k "").toList ++ ' ' :: tail).takeWhile (· != ' ') =
            (smallWords.getD k "").toList := by
        intro k hk tail
        rw [List.takeWhile_append_of_pos]
        · simp
        · intro c hc
          simpa using (ne_of_letters (smallWords_spec k hk).1.1 hc).1
      have hab := congrArg (List.takeWhile (· != ' ')) hlist
      rw [hword b hb, hword a ha] at hab
      obtain rfl : b = a := by
        rw [← (smallWords_spec b hb).2, hab, (smallWords_spec a ha).2]
      have hbehind := List.append_cancel_left (List.cons.inj (List.append_cancel_left hlist)).2
      rw [← readBelowHundred_behindHundred hr, ← hbehind, readBelowHundred_behindHundred hq]

/-! ## Neat words -/

theorem neatFrom_letters {w : List Char} (h : letters w = true) (hne : w ≠ []) (word : Bool)
    (cs : List Char) : neatFrom word (w ++ cs) = neatFrom true cs := by
  induction w generalizing word with
  | nil => exact absurd rfl hne
  | cons c w ih =>
      have hc := ne_of_letters h List.mem_cons_self
      have hw : letters w = true := by
        rw [letters, List.all_cons, Bool.and_eq_true] at h
        exact h.2
      have hcs : neatFrom word (c :: (w ++ cs)) = neatFrom true (w ++ cs) := by
        simp [neatFrom, hc.1, hc.2]
      rw [List.cons_append, hcs]
      cases w with
      | nil => rfl
      | cons d w => exact ih hw (by simp) true

theorem neat_belowHundred {n : Nat} (h : n < 100) : neat (belowHundred n) = true := by
  have hend :
      ∀ {w : List Char} (word : Bool), letters w = true ∧ w ≠ [] → neatFrom word w = true := by
    intro w word hw
    rw [← List.append_nil w, neatFrom_letters hw.1 hw.2]
    rfl
  obtain ⟨w, hw, hlist | ⟨v, hv, hlist⟩⟩ := belowHundred_words h
  · rw [neat, hlist, hend false hw]
  · rw [neat, hlist, neatFrom_letters hw.1 hw.2]
    exact hend false hv

theorem neat_hundreds {a : Nat} (ha : a < 20) (s : String) :
    neat (smallWords.getD a "" ++ " hundred " ++ s) = neat s := by
  rw [neat, toList_hundreds, neatFrom_letters (smallWords_spec a ha).1.1
    (smallWords_spec a ha).1.2]
  rfl

theorem not_neat_digit {r : Nat} (h : r < 10) : neat (behindHundred r) = false := by
  rw [behindHundred_digit r h]
  split_ifs
  · rfl
  · rw [neat, String.toList_append]
    rfl

/-! ## Which numbers are right -/

theorem inWords_of_lt (scale : Nat → String) {n : Nat} (hpos : 0 < n) (h : n < 1000) :
    inWords scale n = String.join ((belowThousand n).intersperse " ") := by
  have hrest : n / 1000 = 0 := by omega
  have hmod : n % 1000 = n := by omega
  have hnone : thousands scale 1 0 = [] := by
    rw [thousands]
    rfl
  rw [inWords, if_neg (by omega), thousands, if_neg (by omega), hrest, hmod, hnone,
    if_neg (by omega)]
  simp

theorem inWords_belowHundred (scale : Nat → String) {n : Nat} (h : n < 100) :
    inWords scale n = belowHundred n := by
  by_cases hzero : n = 0
  · subst hzero
    rfl
  · rw [inWords_of_lt scale (by omega) (by omega), belowThousand, if_pos h, if_neg (by omega),
      Nat.mod_eq_of_lt h]
    rfl

theorem inWords_hundreds (scale : Nat → String) {a r : Nat} (ha : 0 < a) (ha' : a < 10)
    (hr : 0 < r) (hr' : r < 100) :
    inWords scale (100 * a + r) = smallWords.getD a "" ++ " hundred " ++ belowHundred r := by
  have hdiv : (100 * a + r) / 100 = a := by omega
  have hmod : (100 * a + r) % 100 = r := by omega
  rw [inWords_of_lt scale (by omega) (by omega), belowThousand, if_neg (by omega), hdiv, hmod,
    if_neg (by omega)]
  simp [String.join_cons, ← String.append_assoc]

/-- The words of a number are the English ones, neat and its own exactly
below a hundred, and below a thousand where the last two digits are ten or
more. -/
theorem english_iff (scale : Nat → String) (n : Nat) :
    EnglishRight scale n ↔ n < 100 ∨ (n < 1000 ∧ 10 ≤ n % 100) := by
  constructor
  · rintro ⟨_, hneat, _⟩
    by_cases hsmall : n < 100
    · exact .inl hsmall
    · by_cases hlarge : 1000 ≤ n
      · rw [toEnglish_of_thousand_le hlarge] at hneat
        cases hneat
      · refine .inr ⟨by omega, ?_⟩
        by_contra hdigit
        have hn : toEnglish (100 * (n / 100) + n % 100) = _ :=
          toEnglish_hundreds (by omega) (by omega) (by omega)
        rw [show 100 * (n / 100) + n % 100 = n by omega] at hn
        rw [hn, neat_hundreds (by omega), not_neat_digit (by omega)] at hneat
        cases hneat
  · intro h
    have hlt : n < 1000 := by omega
    have hwords : toEnglish n = inWords scale n ∧ neat (toEnglish n) = true := by
      by_cases hsmall : n < 100
      · rw [toEnglish_belowHundred hsmall, inWords_belowHundred scale hsmall]
        exact ⟨rfl, neat_belowHundred hsmall⟩
      · have hten : 10 ≤ n % 100 := by omega
        obtain ⟨a, r, rfl, ha, ha', hr, hr'⟩ : ∃ a r, n = 100 * a + r ∧ 0 < a ∧ a < 10 ∧ 10 ≤ r ∧
            r < 100 := ⟨n / 100, n % 100, by omega, by omega, by omega, hten, by omega⟩
        rw [toEnglish_hundreds ha ha' hr', inWords_hundreds scale ha ha' (by omega) hr',
          behindHundred_two_digits r hr' hr, neat_hundreds (by omega)]
        exact ⟨rfl, neat_belowHundred hr'⟩
    refine ⟨hwords.1, hwords.2, ?_⟩
    intro m hm
    by_cases hlarge : 1000 ≤ m
    · rw [← hm, toEnglish_of_thousand_le hlarge] at hwords
      cases hwords.2
    · exact toEnglish_injective (by omega) hlt hm

/-- A full hundred ends in a blank, a single digit behind it has a stray
hyphen, and a thousand has no words. -/
theorem english_not_right :
    toEnglish 100 = "one hundred " ∧ toEnglish 105 = "one hundred -five" ∧ toEnglish 1000 = "" ∧
    toEnglish 2000 = "" ∧ ¬ ∀ scale n, EnglishRight scale n := by
  have hhundred : toEnglish 100 = "one hundred " ∧ toEnglish 105 = "one hundred -five" ∧
      neat "one hundred " = false := by decide +kernel
  refine ⟨hhundred.1, hhundred.2.1, toEnglish_of_thousand_le (by decide),
    toEnglish_of_thousand_le (by decide), ?_⟩
  intro h
  have hneat := (h (fun _ => "thousand") 100).2.1
  rw [hhundred.1, hhundred.2.2] at hneat
  cases hneat

end HomeWarranty.Output
