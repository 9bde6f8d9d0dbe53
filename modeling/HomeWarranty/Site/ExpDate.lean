/-
HomeWarranty.Site.ExpDate — `CreditCard#exp_date=`, and the expiry date
that a purchase gives to the card.

Three patterns are tried in order: the year first, the month first with
a year of four digits, and the month first with anything from two to
four digits and separators that may be missing. They overlap, and each
one may take fewer digits than there are. `expiry_spellings_agree` says
that no spelling of a date is taken by a pattern meant for another: the
month and the year come back from all of them.

It says so of the text that `billing` writes too: whatever other requests
do in between, the customer object that the card is made from carries
the year and the month of its own request.
-/
import HomeWarranty.Admin.CreditCard
import HomeWarranty.Ruby.Regex
import HomeWarranty.Site.BillingTheorems

namespace HomeWarranty.Site

open Lib Ruby

/-! ## The setter -/

/-- `^(\d{4})`, a slash or a dash, `(\d{1,2})`. -/
def yearFirst : List Piece := [.digits 4 4, .oneOf ['/', '-'], .digits 1 2]

/-- `^(\d{1,2})`, a slash or a dash, `(\d{4})`. -/
def monthFirst : List Piece := [.digits 1 2, .oneOf ['/', '-'], .digits 4 4]

/-- `^(\d{1,2})\/?-?(\d{2,4})`. -/
def loose : List Piece := [.digits 1 2, .maybe '/', .maybe '-', .digits 2 4]

/-- `to_year`: two digits are a year of this century. -/
def toYear (s : List Char) : Int :=
  if s.length = 2 then toI (String.ofList s) + 2000 else toI (String.ofList s)

/-- `string =~ pattern`; `nil` matches nothing. -/
def captured (ps : List Piece) (string : Option String) : Option (List (List Char)) :=
  string.bind fun s => matchLine ps s.toList

/-- `CreditCard#exp_date=`: the month and the year. -/
def expDateAssign (string : Option String) : Int × Int :=
  match captured yearFirst string with
  | some [year, month] => (toI (String.ofList month), toYear year)
  | _ =>
      match captured monthFirst string with
      | some [month, year] => (toI (String.ofList month), toYear year)
      | _ =>
          match captured loose string with
          | some [month, year] => (toI (String.ofList month), toYear year)
          | _ => (1, 2099)

example : expDateAssign (some "2019/7") = (7, 2019) ∧ expDateAssign (some "0719") = (7, 2019) ∧
    expDateAssign (some "719") = (7, 2019) ∧ expDateAssign (some "July") = (1, 2099) := by
  decide +kernel

/-- `add_for_customer_credit_card`, up to the save: the card, whose
columns are written if it is valid. `number` is what
`credit_card_number` reads of the customer. The address that a saved card
gets is left out. -/
def addForCustomerCreditCard (cipher : Admin.Cipher) (number : Option String) (today : Date)
    (c : Customer) : Admin.CardRow :=
  let number := if blankOpt number then "1234123412340000" else number.getD ""
  let date := expDateAssign (some (c.expirationDate.getD
    (String.ofList (pad 2 today.month ++ '/' :: pad 2 today.day))))
  { id := 0
    cryptedNumber := some (cipher.seal number)
    last4 := Admin.lastFour number
    firstName := c.firstName
    lastName := c.lastName
    phone := c.customerPhone
    customerId := some c.id
    month := some (storeInt date.1)
    year := some (storeInt date.2)
    addressId := none
    cvv := none }

/-! ## Spellings -/

inductive Separator where
  | slash
  | dash
  deriving DecidableEq

def Separator.char : Separator → Char
  | .slash => '/'
  | .dash => '-'

/-- The ways to write a month and a year; `wide` is the month in two
digits. -/
inductive Spelling where
  | yearMonth (sep : Separator) (wide : Bool)
  | monthYear (sep : Separator) (wide : Bool)
  | packed
  | shortYear (sep : Separator) (wide : Bool)
  | shortPacked
  deriving DecidableEq

def monthText (wide : Bool) (month : Nat) : List Char := pad (if wide then 2 else 1) month

def Spelling.text (month year : Nat) : Spelling → List Char
  | .yearMonth sep wide => pad 4 year ++ sep.char :: monthText wide month
  | .monthYear sep wide => monthText wide month ++ sep.char :: pad 4 year
  | .packed => monthText true month ++ pad 4 year
  | .shortYear sep wide => monthText wide month ++ sep.char :: pad 2 (year - 2000)
  | .shortPacked => monthText true month ++ pad 2 (year - 2000)

/-- The years that the spelling can write. -/
def Spelling.covers (year : Nat) : Spelling → Bool
  | .shortYear _ _ => decide (year ≤ 2099)
  | .shortPacked => decide (year ≤ 2099)
  | _ => true

/-! ## Which pattern takes which text -/

section Patterns

variable {ds es : List Char}

theorem Separator.mem (sep : Separator) : sep.char ∈ ['/', '-'] := by
  cases sep <;> decide

theorem Separator.noDigit (sep : Separator) (cs : List Char) : NoDigit (sep.char :: cs) := by
  apply noDigit_cons
  cases sep <;> decide

theorem separators_no_digits : ∀ x ∈ ['/', '-'], x.isDigit = false := by
  intro x hx
  rcases List.mem_cons.mp hx with rfl | hx
  · rfl
  · rw [List.mem_singleton.mp hx]
    rfl

theorem matchHere_last {least most : Nat} (hd : ∀ c ∈ ds, c.isDigit = true)
    (hlo : least ≤ ds.length) (hhi : ds.length ≤ most) :
    matchHere [.digits least most] ds = some [ds] := by
  have hnil : matchHere [] [] = some [] := rfl
  have h := matchHere_digits hd hlo hhi (Or.inr noDigit_nil) hnil
  rwa [List.append_nil] at h

theorem yearFirst_takes (hd : ∀ c ∈ ds, c.isDigit = true) (he : ∀ c ∈ es, c.isDigit = true)
    (h1 : 1 ≤ ds.length) (h2 : ds.length ≤ 2) (h4 : es.length = 4) (sep : Separator) :
    matchHere yearFirst (es ++ sep.char :: ds) = some [es, ds] := by
  refine matchHere_digits he h4.ge h4.le (Or.inl h4) ?_
  rw [matchHere_oneOf sep.mem]
  exact matchHere_last hd h1 h2

/-- A month is too short to be a year. -/
theorem yearFirst_leaves (hd : ∀ c ∈ ds, c.isDigit = true) (h2 : ds.length ≤ 2)
    (sep : Separator) (cs : List Char) : matchHere yearFirst (ds ++ sep.char :: cs) = none := by
  refine matchHere_run_eq_none hd (sep.noDigit cs) separators_no_digits fun h4 => ?_
  omega

/-- Digits alone have no separator after them. -/
theorem separated_leaves_digits {least most : Nat} {ps : List Piece}
    (hd : ∀ c ∈ ds, c.isDigit = true) :
    matchHere (.digits least most :: .oneOf ['/', '-'] :: ps) ds = none := by
  rw [← List.append_nil ds]
  exact matchHere_run_eq_none hd noDigit_nil separators_no_digits fun _ _ => rfl

theorem monthFirst_takes (hd : ∀ c ∈ ds, c.isDigit = true) (he : ∀ c ∈ es, c.isDigit = true)
    (h1 : 1 ≤ ds.length) (h2 : ds.length ≤ 2) (h4 : es.length = 4) (sep : Separator) :
    matchHere monthFirst (ds ++ sep.char :: es) = some [ds, es] := by
  refine matchHere_digits hd h1 h2 (Or.inr (sep.noDigit es)) ?_
  rw [matchHere_oneOf sep.mem]
  exact matchHere_last he h4.ge h4.le

/-- Fewer digits are too short to be a year of four. -/
theorem monthFirst_leaves (hd : ∀ c ∈ ds, c.isDigit = true) (h4 : es.length < 4)
    (sep : Separator) : matchHere monthFirst (ds ++ sep.char :: es) = none := by
  refine matchHere_run_eq_none hd (sep.noDigit es) separators_no_digits fun _ _ => ?_
  rw [matchHere_oneOf sep.mem]
  refine matchHere_digits_eq_none fun j hj _ hrun => ?_
  have hle : (es.takeWhile Char.isDigit).length ≤ es.length :=
    (List.takeWhile_sublist _).length_le
  omega

theorem head?_ne_of_digits (hd : ∀ c ∈ ds, c.isDigit = true) {x : Char} (hx : x.isDigit = false) :
    ds.head? ≠ some x := by
  intro h
  rw [hd x (List.mem_of_mem_head? h)] at hx
  cases hx

/-- What comes after the month is a year, with or without a separator. -/
theorem loose_year (he : ∀ c ∈ es, c.isDigit = true) (h2 : 2 ≤ es.length) (h4 : es.length ≤ 4) :
    matchHere [.maybe '-', .digits 2 4] es = some [es] ∧
      matchHere [.maybe '/', .maybe '-', .digits 2 4] es = some [es] := by
  have hlast := matchHere_last he h2 h4
  have hdash : matchHere [.maybe '-', .digits 2 4] es = some [es] := by
    rw [matchHere_maybe_skip (head?_ne_of_digits he (by decide)), hlast]
  refine ⟨hdash, ?_⟩
  rw [matchHere_maybe_skip (head?_ne_of_digits he (by decide)), hdash]

theorem loose_takes (hd : ∀ c ∈ ds, c.isDigit = true) (he : ∀ c ∈ es, c.isDigit = true)
    (h1 : 1 ≤ ds.length) (h2 : ds.length ≤ 2) (h2' : 2 ≤ es.length) (h4 : es.length ≤ 4)
    (sep : Separator) : matchHere loose (ds ++ sep.char :: es) = some [ds, es] := by
  have hyear := loose_year he h2' h4
  refine matchHere_digits hd h1 h2 (Or.inr (sep.noDigit es)) ?_
  cases sep with
  | slash => exact matchHere_maybe_take hyear.1
  | dash =>
      rw [matchHere_maybe_skip (by simp [Separator.char])]
      exact matchHere_maybe_take (matchHere_last he h2' h4)

theorem loose_takes_packed (hd : ∀ c ∈ ds, c.isDigit = true) (he : ∀ c ∈ es, c.isDigit = true)
    (h2 : ds.length = 2) (h2' : 2 ≤ es.length) (h4 : es.length ≤ 4) :
    matchHere loose (ds ++ es) = some [ds, es] :=
  matchHere_digits hd (by omega) h2.le (Or.inl h2) (loose_year he h2' h4).2

end Patterns

/-! ## Reading a spelling -/

theorem toI_pad (width n : Nat) : toI (String.ofList (pad width n)) = n := by
  have hd : ∀ c ∈ (String.ofList (pad width n)).toList, c.isDigit = true := by
    rw [String.toList_ofList]
    exact fun c hc => isDigit_of_mem_pad hc
  rw [toI_digits hd, String.toList_ofList, digitsValue_pad]

theorem toYear_four {year : Nat} (h : year < 10000) : toYear (pad 4 year) = year := by
  rw [toYear, length_pad_of_lt (by decide) h, if_neg (by decide), toI_pad]

theorem toYear_two {year : Nat} (h : 2000 ≤ year) (h' : year ≤ 2099) :
    toYear (pad 2 (year - 2000)) = year := by
  rw [toYear, length_pad_two (by omega), if_pos rfl, toI_pad]
  omega

theorem length_monthText {month : Nat} (h : month ≤ 12) (wide : Bool) :
    1 ≤ (monthText wide month).length ∧ (monthText wide month).length ≤ 2 := by
  have hshort : (Nat.toDigits 10 month).length ≤ 2 :=
    (Nat.length_toDigits_le_iff (by decide) (by decide)).mpr (by omega)
  rw [monthText, length_pad]
  cases wide with
  | true =>
      rw [if_pos rfl]
      omega
  | false =>
      rw [if_neg (by decide)]
      have hpos : 0 < (Nat.toDigits 10 month).length := Nat.length_toDigits_pos
      omega

theorem newline_notMem_pad (width n : Nat) : '\n' ∉ pad width n :=
  fun h => absurd (isDigit_of_mem_pad h) (by decide)

theorem newline_notMem_text (month year : Nat) (s : Spelling) : '\n' ∉ s.text month year := by
  have hsep : ∀ sep : Separator, '\n' ≠ sep.char := by
    intro sep
    cases sep <;> decide
  cases s <;> simp [Spelling.text, monthText, newline_notMem_pad, hsep]

theorem captured_ofList (ps : List Piece) {cs : List Char} (h : '\n' ∉ cs) :
    captured ps (some (String.ofList cs)) = matchHere ps cs := by
  rw [captured, Option.bind_some, String.toList_ofList, matchLine_eq ps h]

theorem expDateAssign_of_yearFirst {cs month year : List Char} (hline : '\n' ∉ cs)
    (h : matchHere yearFirst cs = some [year, month]) :
    expDateAssign (some (String.ofList cs)) = (toI (String.ofList month), toYear year) := by
  simp only [expDateAssign, captured_ofList _ hline, h]

theorem expDateAssign_of_monthFirst {cs month year : List Char} (hline : '\n' ∉ cs)
    (hno : matchHere yearFirst cs = none) (h : matchHere monthFirst cs = some [month, year]) :
    expDateAssign (some (String.ofList cs)) = (toI (String.ofList month), toYear year) := by
  simp only [expDateAssign, captured_ofList _ hline, hno, h]

theorem expDateAssign_of_loose {cs month year : List Char} (hline : '\n' ∉ cs)
    (hno : matchHere yearFirst cs = none) (hno' : matchHere monthFirst cs = none)
    (h : matchHere loose cs = some [month, year]) :
    expDateAssign (some (String.ofList cs)) = (toI (String.ofList month), toYear year) := by
  simp only [expDateAssign, captured_ofList _ hline, hno, hno', h]

theorem digits_monthText {wide : Bool} {month : Nat} :
    ∀ c ∈ monthText wide month, c.isDigit = true :=
  fun _ hc => isDigit_of_mem_pad hc

theorem digits_pad {width n : Nat} : ∀ c ∈ pad width n, c.isDigit = true :=
  fun _ hc => isDigit_of_mem_pad hc

/-- A month and a year without a separator are for the third pattern. -/
theorem expDateAssign_packed {month width n : Nat} (hm : month ≤ 12)
    (h2 : 2 ≤ (pad width n).length) (h4 : (pad width n).length ≤ 4) :
    expDateAssign (some (String.ofList (monthText true month ++ pad width n))) =
      ((month : Int), toYear (pad width n)) := by
  have hall : ∀ c ∈ monthText true month ++ pad width n, c.isDigit = true := by
    intro c hc
    exact (List.mem_append.mp hc).elim (digits_monthText c) (digits_pad c)
  have hline : '\n' ∉ monthText true month ++ pad width n :=
    fun h => absurd (hall _ h) (by decide)
  have hwide : (monthText true month).length = 2 := length_pad_two (by omega)
  rw [expDateAssign_of_loose hline (separated_leaves_digits hall) (separated_leaves_digits hall)
    (loose_takes_packed digits_monthText digits_pad hwide h2 h4), monthText, toI_pad]

theorem expDateAssign_text {month year : Nat} (hm : month ≤ 12) (hy : 2000 ≤ year)
    (hy' : year ≤ 9999) (s : Spelling) (hs : s.covers year = true) :
    expDateAssign (some (String.ofList (s.text month year))) = ((month : Int), (year : Int)) := by
  have hline := newline_notMem_text month year s
  have hlen := length_monthText hm
  have hfour : (pad 4 year).length = 4 := length_pad_of_lt (by decide) (by omega)
  have hmonth : ∀ wide, toI (String.ofList (monthText wide month)) = month :=
    fun wide => toI_pad _ month
  have hyear : toYear (pad 4 year) = year := toYear_four (by omega)
  cases s with
  | yearMonth sep wide =>
      have htake :=
        yearFirst_takes digits_monthText digits_pad (hlen wide).1 (hlen wide).2 hfour sep
      rw [expDateAssign_of_yearFirst hline htake, hmonth, hyear]
  | monthYear sep wide =>
      have hleave := yearFirst_leaves digits_monthText (hlen wide).2 sep (pad 4 year)
      have htake :=
        monthFirst_takes digits_monthText digits_pad (hlen wide).1 (hlen wide).2 hfour sep
      rw [expDateAssign_of_monthFirst hline hleave htake, hmonth, hyear]
  | packed =>
      rw [Spelling.text, expDateAssign_packed hm (by omega) (by omega), hyear]
  | shortYear sep wide =>
      have hshort : year ≤ 2099 := by simpa [Spelling.covers] using hs
      have htwo : (pad 2 (year - 2000)).length = 2 := length_pad_two (by omega)
      have hleave := yearFirst_leaves digits_monthText (hlen wide).2 sep (pad 2 (year - 2000))
      have hshorter : (pad 2 (year - 2000)).length < 4 := by omega
      have hleave' := monthFirst_leaves (@digits_monthText wide month) hshorter sep
      have htake := loose_takes digits_monthText digits_pad (hlen wide).1 (hlen wide).2 htwo.ge
        hshorter.le sep
      rw [expDateAssign_of_loose hline hleave hleave' htake, hmonth, toYear_two hy hshort]
  | shortPacked =>
      have hshort : year ≤ 2099 := by simpa [Spelling.covers] using hs
      have htwo : (pad 2 (year - 2000)).length = 2 := length_pad_two (by omega)
      rw [Spelling.text, expDateAssign_packed hm (by omega) (by omega), toYear_two hy hshort]

/-! ## The customer object of a purchase -/

/-- Once the purchase is recorded, the customer object has the year and
the month of the request. -/
def CarriesDate (p : BillingProc) : Prop :=
  match p.pc with
  | .recorded c | .renewed c | .accounted c | .mailed c =>
      ∃ date, p.req.date = some date ∧ c.expirationDate = some (date.2 ++ "-" ++ date.1)
  | _ => True

theorem carriesDate_step [Numbers] {shop shop' : Shop} {p p' : BillingProc} (hp : CarriesDate p)
    (h : billingStep shop p = some (shop', p')) : CarriesDate p' := by
  obtain ⟨pc, rfl, hmove⟩ := billingMove_of_step h
  cases hmove with
  | record hpc hhash hdate => exact ⟨_, hdate, rfl⟩
  | renew hpc hkept =>
      rw [CarriesDate, hpc] at hp
      exact hp
  | account hpc =>
      rw [CarriesDate, hpc] at hp
      exact hp
  | mail hpc hmail =>
      rw [CarriesDate, hpc] at hp
      exact hp
  | _ => trivial

theorem carriesDate_exec [Numbers] (db : Db) (reqs : List (BillingRequest × BillingEnv))
    (schedule : List Nat) :
    ∀ p ∈ ((billingSys db reqs).exec billingStep schedule).procs, CarriesDate p := by
  refine (run_invariant (fun t : Sys Shop BillingProc => True ∧ ∀ p ∈ t.procs, CarriesDate p)
    ?_ schedule (billingSys db reqs) ⟨trivial, ?_⟩).2
  · intro t i ht
    exact Sys.stepAt_invariant (I := fun _ => True) (J := fun _ p => CarriesDate p)
      (fun _ _ _ _ _ hp hs => ⟨trivial, carriesDate_step hp hs, fun _ hq => hq⟩) t i ht
  · intro p hp
    obtain ⟨r, _, rfl⟩ := List.mem_map.mp hp
    trivial

/-- Every spelling of a month and a year makes `exp_date=` store them,
and so does, in every interleaving of purchases, the text of the request
from which the card is made at its end. -/
theorem expiry_spellings_agree [Numbers] {month year : Nat} (hm : 1 ≤ month ∧ month ≤ 12)
    (hy : 2000 ≤ year ∧ year ≤ 9999) :
    (∀ s : Spelling, s.covers year = true →
      expDateAssign (some (String.ofList (s.text month year))) = ((month : Int), (year : Int))) ∧
    ∀ (db : Db) (reqs : List (BillingRequest × BillingEnv)) (schedule : List Nat)
      (p : BillingProc) (c : Customer) (wide : Bool) (cipher : Admin.Cipher)
      (number : Option String) (today : Date),
      p ∈ ((billingSys db reqs).exec billingStep schedule).procs → p.pc = .mailed c →
      p.req.date = some (String.ofList (monthText wide month), String.ofList (pad 4 year)) →
      (addForCustomerCreditCard cipher number today c).month = some (month : Int) ∧
        (addForCustomerCreditCard cipher number today c).year = some (year : Int) := by
  refine ⟨fun s hs => expDateAssign_text hm.2 hy.1 hy.2 s hs, ?_⟩
  intro db reqs schedule p c wide cipher number today hmem hpc hdate
  have hcarries := carriesDate_exec db reqs schedule p hmem
  rw [CarriesDate, hpc] at hcarries
  obtain ⟨date, hdate', hexp⟩ := hcarries
  rw [hdate, Option.some_inj] at hdate'
  subst hdate'
  have htext : c.expirationDate =
      some (String.ofList ((Spelling.yearMonth .dash wide).text month year)) := by
    rw [hexp, Spelling.text, Separator.char, String.ofList_append]
    simp [String.append_assoc]
  have hread := expDateAssign_text hm.2 hy.1 hy.2 (.yearMonth .dash wide) rfl
  have hsmall : ∀ n : Nat, n ≤ 9999 → storeInt n = n := by
    intro n hn
    exact storeInt_of_mem (by unfold minInt; omega) (by unfold maxInt; omega)
  simp only [addForCustomerCreditCard, htext, Option.getD_some, hread, hsmall month (by omega),
    hsmall year hy.2]
  trivial

section
attribute [local instance] Numbers.exact

/-- The steps of a purchase up to the place where its card is made. -/
def purchased : Sys Shop BillingProc :=
  (billingSys (quoted (.float 500) 1) [(purchase "500" "1", smooth)]).exec billingStep
    [0, 0, 0, 0, 0, 0, 0, 0]

/-- The purchase with the date 2030 and 1 gets to its card. -/
theorem expiry_spellings_agree_purchase :
    expDateAssign (some (String.ofList (Spelling.shortPacked.text 1 2030))) = (1, 2030) ∧
    ∃ p ∈ purchased.procs, ∃ c, p.pc = .mailed c ∧
      (addForCustomerCreditCard ⟨id, some⟩ none ⟨2016, 5, 1⟩ c).month = some 1 ∧
      (addForCustomerCreditCard ⟨id, some⟩ none ⟨2016, 5, 1⟩ c).year = some 2030 := by
  have hreached : purchased.procs.any (fun p => match p.pc with
      | .mailed _ => p.req.date == some ("1", "2030")
      | _ => false) = true := by decide +kernel
  obtain ⟨p, hp, hpc⟩ := List.any_eq_true.mp hreached
  have hagree := @expiry_spellings_agree Numbers.exact 1 2030 (by decide) (by decide)
  refine ⟨hagree.1 .shortPacked rfl, p, hp, ?_⟩
  cases hc : p.pc with
  | mailed c =>
      rw [hc, beq_iff_eq] at hpc
      exact ⟨c, rfl, hagree.2 _ _ _ p c false _ _ _ hp hc hpc⟩
  | _ =>
      rw [hc] at hpc
      cases hpc

end

end HomeWarranty.Site
