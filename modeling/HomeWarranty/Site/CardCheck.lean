/-
HomeWarranty.Site.CardCheck — the two checks of a card number on the
billing page.

`checkLuhn` runs when the field loses the focus. It goes through the
number from the left and doubles the digits whose place has the parity of
the length; for a number of digits that is the check of `Lib.Luhn`
(`checkLuhn_eq`), and so it finds every wrong digit and every exchange of
two neighbours but 0 and 9 (`luhn_detects_errors`).

`valid_credit_card` runs when the order is submitted. It goes from the
right and should double every second digit, but the flag that tells them
apart only changes where it is set already, and the function returns
inside the loop, after one digit. It accepts every number of digits, and
agrees with the other check on the right ones only
(`card_checks_agree_iff`).

A number of JavaScript that is not one is `none`.
-/
import HomeWarranty.Lib.Luhn
import HomeWarranty.Site.ExpDateEdit

namespace HomeWarranty.Site

open Lib

/-! ## The checks -/

/-- `parseInt` of one character. -/
def parseInt (c : Char) : Option Nat := if c.isDigit then some (digitValue c) else none

/-- The loop of `checkLuhn`, from the place `i` on. -/
def luhnLoop (parity : Nat) : Nat → Option Nat → List Char → Option Nat
  | _, sum, [] => sum
  | i, sum, c :: cs =>
      let digit := parseInt c
      let digit := if i % 2 == parity then digit.map (2 * ·) else digit
      let digit := digit.map fun d => if d > 9 then d - 9 else d
      luhnLoop parity (i + 1) (sum.bind fun s => digit.map (s + ·)) cs

/-- `checkLuhn`. -/
def checkLuhn (input : String) : Bool :=
  let numdigits := input.toList.length
  let parity := numdigits % 2
  (luhnLoop parity 0 (some 0) input.toList).any fun sum => sum % 10 == 0

/-- `\s` of JavaScript. -/
def jsSpace (c : Char) : Bool :=
  (9 ≤ c.toNat && c.toNat ≤ 13) || c.toNat == 0x20 || c.toNat == 0xA0 || c.toNat == 0x1680
    || (0x2000 ≤ c.toNat && c.toNat ≤ 0x200A) || c.toNat == 0x2028 || c.toNat == 0x2029
    || c.toNat == 0x202F || c.toNat == 0x205F || c.toNat == 0x3000 || c.toNat == 0xFEFF

/-- The loop of `valid_credit_card` over the digits, the last one first.
The function returns in the body of the loop. -/
def creditCardLoop (nCheck : Nat) (bEven : Bool) : List Char → Option Bool
  | [] => none
  | cDigit :: _ =>
      let nDigit := 2 * digitValue cDigit
      -- the flag is turned over where it is set; nothing reads it any more
      let nCheck := if bEven then nCheck + (if nDigit > 9 then nDigit - 9 else nDigit) else nCheck
      some (nCheck % 10 == 0)

/-- `valid_credit_card`; `none` is `undefined`. -/
def validCreditCard (value : String) : Option Bool :=
  if value.toList.any fun c => !(c.isDigit || c == '-' || jsSpace c) then some false
  else creditCardLoop 0 false (value.toList.filter Char.isDigit).reverse

example : checkLuhn "49927398716" = true ∧ checkLuhn "4992-7398716" = false ∧
    validCreditCard "4111a" = some false ∧ validCreditCard "" = none := by
  decide +kernel

/-! ## The check from the left -/

theorem parseInt_eq_none {c : Char} (h : c.isDigit = false) : parseInt c = none := by
  rw [parseInt, h]
  rfl

/-- A sum that is no number stays none. -/
theorem luhnLoop_none (parity i : Nat) (cs : List Char) : luhnLoop parity i none cs = none := by
  induction cs generalizing i with
  | nil => rfl
  | cons c cs ih =>
      rw [luhnLoop]
      exact ih (i + 1)

/-- One character that is no digit spoils the sum. -/
theorem luhnLoop_of_not_digit {cs : List Char} {c : Char} (hc : c ∈ cs) (h : c.isDigit = false)
    (parity i : Nat) (sum : Option Nat) : luhnLoop parity i sum cs = none := by
  induction cs generalizing i sum with
  | nil => cases hc
  | cons x cs ih =>
      rw [luhnLoop]
      rcases List.mem_cons.mp hc with rfl | hc
      · have hnone : (sum.bind fun _ => (none : Option Nat)) = none := by
          cases sum <;> rfl
        simp only [parseInt_eq_none h, Option.map_none, ite_self, hnone]
        exact luhnLoop_none parity (i + 1) cs
      · exact ih hc _ _

/-- The loop adds up the digits, every second one doubled. -/
theorem luhnLoop_digits {cs : List Char} (h : ∀ c ∈ cs, c.isDigit = true) (parity i s : Nat)
    (hparity : parity < 2) :
    luhnLoop parity i (some s) cs =
      some (s + Luhn.alternate (i % 2 == parity) (cs.map digitValue)) := by
  induction cs generalizing i s with
  | nil => rfl
  | cons c cs ih =>
      obtain ⟨hc, hcs⟩ := List.forall_mem_cons.mp h
      have hdigit : parseInt c = some (digitValue c) := by rw [parseInt, if_pos hc]
      have hlt := digitValue_lt hc
      have hweight : ((if (i % 2 == parity) = true then some (2 * digitValue c)
          else some (digitValue c)).map fun d => if d > 9 then d - 9 else d) =
            some (Luhn.weight (i % 2 == parity) (digitValue c)) := by
        cases i % 2 == parity with
        | true => simp [Luhn.weight, Luhn.doubled]
        | false =>
            have hsmall : ¬ digitValue c > 9 := by omega
            simp [Luhn.weight, hsmall]
      rw [luhnLoop]
      simp only [hdigit, Option.map_some, Option.bind_some]
      rw [hweight, Option.map_some, ih hcs, Luhn.parity_succ hparity, List.map_cons, Luhn.alternate,
        Nat.add_assoc]

/-- On digits it is the check of the library. -/
theorem checkLuhn_eq {s : String} (h : ∀ c ∈ s.toList, c.isDigit = true) :
    checkLuhn s = decide (Luhn.Valid (s.toList.map digitValue)) := by
  have hflag : (0 % 2 == s.toList.length % 2) = ((s.toList.map digitValue).length % 2 == 0) := by
    rw [List.length_map, Nat.zero_mod, Bool.beq_comm]
  rw [checkLuhn, luhnLoop_digits h _ _ _ (Nat.mod_lt _ (by decide)), hflag, Luhn.alternate_reverse,
    Nat.zero_add]
  rfl

theorem checkLuhn_of_not_digit {s : String} {c : Char} (hc : c ∈ s.toList)
    (h : c.isDigit = false) : checkLuhn s = false := by
  rw [checkLuhn, luhnLoop_of_not_digit hc h]
  rfl

/-! ## Typing errors -/

/-- The sum of a number, from the left, for a length that is fixed. -/
theorem valid_iff_alternate {cs : List Char} {n : Nat} (h : cs.length = n) :
    Luhn.Valid (cs.map digitValue) ↔
      Luhn.alternate (n % 2 == 0) (cs.map digitValue) % 10 = 0 := by
  rw [Luhn.Valid, ← Luhn.alternate_reverse, List.length_map, h]

section
variable {s : String} (hdigits : ∀ c ∈ s.toList, c.isDigit = true) (haccepted : checkLuhn s = true)
include hdigits haccepted

/-- Another character in the place of one digit is not accepted. -/
theorem one_digit_changed {pre post : List Char} {a b : Char} (hs : s.toList = pre ++ a :: post)
    (hne : b ≠ a) : checkLuhn (String.ofList (pre ++ b :: post)) = false := by
  by_cases hb : b.isDigit = true
  · have ha : a.isDigit = true := hdigits a (by rw [hs]; simp)
    have hdigits' : ∀ c ∈ (String.ofList (pre ++ b :: post)).toList, c.isDigit = true := by
      intro c hc
      rw [String.toList_ofList, List.mem_append, List.mem_cons] at hc
      rcases hc with hc | rfl | hc
      · exact hdigits c (by rw [hs]; simp [hc])
      · exact hb
      · exact hdigits c (by rw [hs]; simp [hc])
    rw [checkLuhn_eq hdigits, decide_eq_true_iff, valid_iff_alternate rfl] at haccepted
    rw [checkLuhn_eq hdigits', decide_eq_false_iff_not, String.toList_ofList,
      valid_iff_alternate (n := s.toList.length) (by rw [hs]; simp)]
    intro hsum
    rw [hs] at haccepted hsum
    simp only [List.map_append, List.map_cons] at haccepted hsum
    have hvalue := Luhn.digit_eq_of_sum (digitValue_lt hb) (digitValue_lt ha)
      (hsum.trans haccepted.symm)
    exact hne ((eq_iff_digitValue hb ha).mpr hvalue)
  · exact checkLuhn_of_not_digit (c := b) (by simp) (Bool.eq_false_iff.mpr hb)

/-- Two neighbours in the other order are accepted when they are 0 and
9. -/
theorem neighbours_exchanged {pre post : List Char} {a b : Char}
    (hs : s.toList = pre ++ a :: b :: post) (hne : a ≠ b) :
    checkLuhn (String.ofList (pre ++ b :: a :: post)) = true ↔
      (a = '0' ∧ b = '9') ∨ (a = '9' ∧ b = '0') := by
  have ha : a.isDigit = true := hdigits a (by rw [hs]; simp)
  have hb : b.isDigit = true := hdigits b (by rw [hs]; simp)
  have hdigits' : ∀ c ∈ (String.ofList (pre ++ b :: a :: post)).toList, c.isDigit = true := by
    intro c hc
    rw [String.toList_ofList] at hc
    refine hdigits c ?_
    rw [hs]
    simp only [List.mem_append, List.mem_cons] at hc ⊢
    tauto
  rw [checkLuhn_eq hdigits, decide_eq_true_iff, valid_iff_alternate rfl] at haccepted
  rw [checkLuhn_eq hdigits', decide_eq_true_iff, String.toList_ofList,
    valid_iff_alternate (n := s.toList.length) (by rw [hs]; simp)]
  have hneighbours := @Luhn.neighbours_of_sum (s.toList.length % 2 == 0) (pre.map digitValue)
    (post.map digitValue) _ _ (digitValue_lt hb) (digitValue_lt ha)
  have hzero : ∀ {c : Char}, c.isDigit = true → (c = '0' ↔ digitValue c = 0) :=
    fun hc => eq_iff_digitValue hc rfl
  have hnine : ∀ {c : Char}, c.isDigit = true → (c = '9' ↔ digitValue c = 9) :=
    fun hc => eq_iff_digitValue hc rfl
  have hother : digitValue a ≠ digitValue b := fun h => hne ((eq_iff_digitValue ha hb).mpr h)
  have hlist : s.toList.map digitValue =
      pre.map digitValue ++ digitValue a :: digitValue b :: post.map digitValue := by
    rw [hs, List.map_append, List.map_cons, List.map_cons]
  rw [hlist] at haccepted
  rw [haccepted] at hneighbours
  rw [List.map_append, List.map_cons, List.map_cons, hneighbours, hzero ha, hnine ha, hzero hb,
    hnine hb]
  omega

end

/-- Of a number that is accepted, no number with one digit changed is
accepted, and none with two different neighbours exchanged unless these
are 0 and 9. -/
theorem luhn_detects_errors (s : String) (hdigits : ∀ c ∈ s.toList, c.isDigit = true)
    (haccepted : checkLuhn s = true) :
    (∀ pre a b post, s.toList = pre ++ a :: post → b ≠ a →
      checkLuhn (String.ofList (pre ++ b :: post)) = false) ∧
    ∀ pre a b post, s.toList = pre ++ a :: b :: post → a ≠ b →
      (checkLuhn (String.ofList (pre ++ b :: a :: post)) = true ↔
        (a = '0' ∧ b = '9') ∨ (a = '9' ∧ b = '0')) :=
  ⟨fun _ _ _ _ hs hne => one_digit_changed hdigits haccepted hs hne,
    fun _ _ _ _ hs hne => neighbours_exchanged hdigits haccepted hs hne⟩

theorem luhn_detects_errors_4111 :
    checkLuhn "4111111111111111" = true ∧ checkLuhn "4111111111111112" = false ∧
      checkLuhn "1411111111111111" = false := by
  have haccepted : checkLuhn "4111111111111111" = true := by decide +kernel
  have hdigits : ∀ c ∈ "4111111111111111".toList, c.isDigit = true :=
    List.all_eq_true.mp (by decide +kernel)
  have h := luhn_detects_errors "4111111111111111" hdigits haccepted
  refine ⟨haccepted, h.1 "411111111111111".toList '1' '2' [] rfl (by decide), ?_⟩
  rw [← Bool.not_eq_true]
  exact fun htrue => absurd ((h.2 [] '4' '1' "11111111111111".toList rfl (by decide)).mp htrue)
    (by decide)

/-! ## The check that returns at once -/

/-- The last digit counts nothing, and it is the only one that is looked
at. -/
theorem validCreditCard_of_digits {s : String} (hne : s.toList ≠ [])
    (hdigits : ∀ c ∈ s.toList, c.isDigit = true) : validCreditCard s = some true := by
  have hclean : (s.toList.any fun c => !(c.isDigit || c == '-' || jsSpace c)) = false := by
    rw [List.any_eq_false]
    intro c hc
    simp [hdigits c hc]
  rw [validCreditCard, hclean, List.filter_eq_self.mpr hdigits]
  cases hlist : s.toList.reverse with
  | nil => exact absurd (List.reverse_eq_nil_iff.mp hlist) hne
  | cons c cs => rfl

/-- The two checks agree on a number of digits exactly when its check
digit is right. -/
theorem card_checks_agree_iff (s : String) (hne : s.toList ≠ [])
    (hdigits : ∀ c ∈ s.toList, c.isDigit = true) :
    (validCreditCard s = some true ↔ checkLuhn s = true) ↔
      Luhn.Valid (s.toList.map digitValue) := by
  rw [validCreditCard_of_digits hne hdigits, checkLuhn_eq hdigits, decide_eq_true_iff]
  simp

theorem card_checks_agree_on_4111 :
    Luhn.Valid ("4111111111111111".toList.map digitValue) ∧
      (validCreditCard "4111111111111111" = some true ↔ checkLuhn "4111111111111111" = true) := by
  have hvalid : Luhn.Valid ("4111111111111111".toList.map digitValue) := by decide +kernel
  have hdigits : ∀ c ∈ "4111111111111111".toList, c.isDigit = true :=
    List.all_eq_true.mp (by decide +kernel)
  exact ⟨hvalid, (card_checks_agree_iff _ (by decide +kernel) hdigits).mpr hvalid⟩

/-- The last digit is wrong: one check says so, the other accepts it. -/
theorem card_checks_disagree :
    validCreditCard "4111111111111112" = some true ∧ checkLuhn "4111111111111112" = false ∧
      ¬ ∀ s : String, s.toList ≠ [] → (∀ c ∈ s.toList, c.isDigit = true) →
        (validCreditCard s = some true ↔ checkLuhn s = true) := by
  have hvalid : validCreditCard "4111111111111112" = some true := by decide +kernel
  have hluhn : checkLuhn "4111111111111112" = false := by decide +kernel
  have hdigits : ∀ c ∈ "4111111111111112".toList, c.isDigit = true :=
    List.all_eq_true.mp (by decide +kernel)
  refine ⟨hvalid, hluhn, fun h => ?_⟩
  have htrue := (h "4111111111111112" (by decide +kernel) hdigits).mp hvalid
  rw [hluhn] at htrue
  cases htrue

end HomeWarranty.Site
