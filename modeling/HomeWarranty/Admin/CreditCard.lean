/-
HomeWarranty.Admin.CreditCard — `credit_cards#update`, and whether the
last four digits that are shown of a card are those of its number.

A card has its number in one column, encrypted, and the last four digits
in another. A number that has digits only is written in two saves: the
first one writes `last_4`, or '0000' for a number of less than four
digits; the second one writes the number, unless the card validator
returns `nil`. `last_four_agree_iff` says which runs of updates keep the
two columns together: `UpdateOk` at every step.

The encryption of `attr_encrypted` is the parameter `Cipher`; what is
used of it is `Cipher.Lawful`.
-/
import HomeWarranty.Admin.CustomerEdit

namespace HomeWarranty.Admin

open Lib Ruby

/-! ## Cards -/

/-- A row of `credit_cards`. -/
structure CardRow where
  id : Nat
  cryptedNumber : Option String
  last4 : Option String
  firstName : Option String
  lastName : Option String
  phone : Option String
  customerId : Option Nat
  month : Option Int
  year : Option Int
  addressId : Option Int
  cvv : Option Int
  deriving DecidableEq

instance : Record CardRow where
  key := CardRow.id
  withKey n r := { r with id := n }
  key_withKey := fun _ _ => rfl

/-- The validations of `CreditCard`. -/
def CardRow.valid (c : CardRow) : Bool := presentOpt c.firstName && presentOpt c.lastName

/-- The encryption of numbers, with the key of the class. A text that is
not a ciphertext cannot be decrypted. -/
structure Cipher where
  encrypt : String → String
  decrypt : String → Option String

/-- `number=`: an empty number is not encrypted. -/
def Cipher.seal (c : Cipher) (number : String) : String :=
  if number = "" then "" else c.encrypt number

/-- `number`. -/
def Cipher.read (c : Cipher) : Option String → Option String
  | none => none
  | some text => if text = "" then some "" else c.decrypt text

/-- `s[-4..-1]`. -/
def lastFour (s : String) : Option String :=
  if 4 ≤ s.toList.length then some (String.ofList (s.toList.drop (s.toList.length - 4))) else none

/-- `s.gsub(/[\D]/, '')`. -/
def onlyDigits (s : String) : String := String.ofList (s.toList.filter Char.isDigit)

example : lastFour "4111111111111111" = some "1111" ∧ lastFour "123" = none := by decide +kernel

/-! ## The action -/

/-- `params[:card]`, without `last_4`. A key may be missing, and its
value may be `nil`. -/
structure CardForm where
  number : String
  firstName : Option (Option String)
  lastName : Option (Option String)
  phone : Option (Option String)
  addressId : Option (Option String)
  cvv : Option (Option String)
  /-- The month and the year that `exp_date=` makes of a date. -/
  expDate : Option (Int × Int)
  /-- A key is posted for which there is no writer:
  `credit_card_number`. -/
  unknown : Bool

/-- What comes of `CreditCardValidator::Validator.valid?`. -/
inductive Verdict where
  | raised
  | answer (valid : Option Bool)
  deriving DecidableEq

structure CardUpdate where
  form : CardForm
  verdict : Verdict

/-- `card.attributes = params[:card]`. -/
def CardForm.assign (form : CardForm) (c : CardRow) : CardRow :=
  { c with
    firstName := form.firstName.getD c.firstName
    lastName := form.lastName.getD c.lastName
    phone := form.phone.getD c.phone
    addressId := (form.addressId.map castInteger).getD c.addressId
    cvv := (form.cvv.map castInteger).getD c.cvv
    month := (form.expDate.map fun d => some d.1).getD c.month
    year := (form.expDate.map fun d => some d.2).getD c.year }

/-- What a column holds after a save: one that did not change is not
written. -/
def writeColumn {α : Type} [DecidableEq α] (store : α → α) (saved now row : Option α) : Option α :=
  if now = saved then row else now.map store

/-- `UPDATE` of the columns that changed. -/
def CardRow.write (row saved now : CardRow) : CardRow :=
  { row with
    cryptedNumber := writeColumn textColumn saved.cryptedNumber now.cryptedNumber row.cryptedNumber
    last4 := writeColumn textColumn saved.last4 now.last4 row.last4
    firstName := writeColumn textColumn saved.firstName now.firstName row.firstName
    lastName := writeColumn textColumn saved.lastName now.lastName row.lastName
    phone := writeColumn textColumn saved.phone now.phone row.phone
    month := writeColumn storeInt saved.month now.month row.month
    year := writeColumn storeInt saved.year now.year row.year
    addressId := writeColumn storeInt saved.addressId now.addressId row.addressId
    cvv := writeColumn storeInt saved.cvv now.cvv row.cvv }

/-- `card.save`: the row, and what the object takes for saved. -/
def CardRow.save (row saved now : CardRow) : CardRow × CardRow :=
  if now.valid then (row.write saved now, now) else (row, saved)

/-- The attributes of the first save: `last_4`, and not the number. -/
def CardForm.withLast4 (form : CardForm) (c : CardRow) : CardRow :=
  { form.assign c with last4 := some ((lastFour form.number).getD "0000") }

/-- The attributes of the second save. -/
def CardForm.withNumber (cipher : Cipher) (form : CardForm) (c : CardRow) : CardRow :=
  { form.withLast4 c with cryptedNumber := some (cipher.seal form.number) }

/-- `credit_cards#update`; the address of the card is another row. -/
def updateCard (cipher : Cipher) (row : CardRow) (u : CardUpdate) :
    Except RubyError Unit × CardRow :=
  if u.form.unknown then (.error .externalError, row)
  else if u.form.number = onlyDigits u.form.number then
    let (row', saved) := row.save row (u.form.withLast4 row)
    match u.verdict with
    | .raised => (.error .externalError, row')
    | .answer none => (.ok (), row')
    | .answer (some _) => (.ok (), (row'.save saved (u.form.withNumber cipher row)).1)
  else (.ok (), (row.save row (u.form.assign row)).1)

/-! ## What is to be seen of a card -/

section
variable (cipher : Cipher)

/-- The card after a request. -/
def cardStep (row : CardRow) (u : CardUpdate) : CardRow := (updateCard cipher row u).2

/-- `last_4` is the last four characters of the number. -/
def Agrees (row : CardRow) : Prop :=
  ∃ n four, cipher.read row.cryptedNumber = some n ∧ lastFour n = some four ∧
    row.last4 = some four

/-- The request writes `last_4`: the number has digits only, and the
card can be saved. -/
def WritesLastFour (row : CardRow) (form : CardForm) : Prop :=
  form.unknown = false ∧ form.number = onlyDigits form.number ∧ (form.assign row).valid = true

/-- The condition for one request. If the number is written too, then it
has four digits and its ciphertext fits into the column, or is there
already. If it is not, its last four digits are those of the card. -/
def UpdateOk (row : CardRow) (u : CardUpdate) : Prop :=
  WritesLastFour row u.form →
    match u.verdict with
    | .answer (some _) => 4 ≤ u.form.number.toList.length ∧
        ((cipher.encrypt u.form.number).toList.length ≤ 255 ∨
          row.cryptedNumber = some (cipher.encrypt u.form.number))
    | _ => some ((lastFour u.form.number).getD "0000") = row.last4

/-- What is used of the encryption: a number comes back, and a
ciphertext that was cut off cannot be decrypted (it is not a whole number
of blocks). -/
structure Cipher.Lawful : Prop where
  decrypt_encrypt : ∀ n, n = onlyDigits n → n ≠ "" → cipher.decrypt (cipher.encrypt n) = some n
  encrypt_ne : ∀ n, n ≠ "" → cipher.encrypt n ≠ ""
  decrypt_cut : ∀ n, n = onlyDigits n → n ≠ "" → 255 < (cipher.encrypt n).toList.length →
    cipher.decrypt (textColumn (cipher.encrypt n)) = none

end

/-! ## What one request writes -/

section
variable {cipher : Cipher} {row : CardRow} {u : CardUpdate}

@[simp] theorem writeColumn_self {α : Type} [DecidableEq α] (store : α → α)
    (saved row : Option α) : writeColumn store saved saved row = row := by
  simp [writeColumn]

theorem length_lastFour {s four : String} (h : lastFour s = some four) :
    four.toList.length = 4 := by
  unfold lastFour at h
  split at h
  · obtain rfl := Option.some.inj h
    simp only [String.toList_ofList, List.length_drop]
    omega
  · cases h

/-- `last_4` fits into its column. -/
theorem writeColumn_last4 (s : String) (saved : Option String) :
    writeColumn textColumn saved (some ((lastFour s).getD "0000")) saved
      = some ((lastFour s).getD "0000") := by
  have hfits : textColumn ((lastFour s).getD "0000") = (lastFour s).getD "0000" := by
    cases h : lastFour s with
    | none => exact textColumn_of_le (by decide)
    | some four =>
        refine textColumn_of_le ?_
        have hlength := length_lastFour h
        simp only [Option.getD_some]
        omega
  unfold writeColumn
  split
  · rename_i heq
    exact heq.symm
  · rw [Option.map_some, hfits]

theorem save_of_unnamed {row saved now : CardRow} (h : now.valid = false) :
    row.save saved now = (row, saved) := by
  simp [CardRow.save, h]

theorem save_of_named {row saved now : CardRow} (h : now.valid = true) :
    row.save saved now = (row.write saved now, now) := by
  simp [CardRow.save, h]

/-- A request that does not write `last_4` does not write the number. -/
theorem cardStep_of_not_writes (cipher : Cipher) (h : ¬ WritesLastFour row u.form) :
    (cardStep cipher row u).cryptedNumber = row.cryptedNumber ∧
      (cardStep cipher row u).last4 = row.last4 := by
  unfold cardStep updateCard
  cases hu : u.form.unknown with
  | true => simp
  | false =>
      by_cases hn : u.form.number = onlyDigits u.form.number
      · have hv : (u.form.assign row).valid = false := by
          by_contra hv
          exact h ⟨hu, hn, by simpa using hv⟩
        have hfirst : (u.form.withLast4 row).valid = false := hv
        have hsecond : (u.form.withNumber cipher row).valid = false := hv
        simp only [Bool.false_eq_true, if_false, if_pos hn, save_of_unnamed hfirst]
        cases u.verdict with
        | raised => simp
        | answer valid =>
            cases valid with
            | none => simp
            | some b => simp [save_of_unnamed hsecond]
      · simp only [Bool.false_eq_true, if_false, if_neg hn, CardRow.save]
        split
        · simp [CardRow.write, CardForm.assign]
        · simp

/-- The first save. -/
theorem write_withLast4 (row : CardRow) (form : CardForm) :
    (row.write row (form.withLast4 row)).cryptedNumber = row.cryptedNumber ∧
      (row.write row (form.withLast4 row)).last4
        = some ((lastFour form.number).getD "0000") := by
  refine ⟨?_, writeColumn_last4 form.number row.last4⟩
  simp [CardRow.write, CardForm.withLast4, CardForm.assign]

/-- A request that writes both, or `last_4` only. -/
theorem cardStep_of_writes (cipher : Cipher) (h : WritesLastFour row u.form) :
    (cardStep cipher row u).last4 = some ((lastFour u.form.number).getD "0000") ∧
      (cardStep cipher row u).cryptedNumber =
        match u.verdict with
        | .answer (some _) => writeColumn textColumn row.cryptedNumber
            (some (cipher.seal u.form.number)) row.cryptedNumber
        | _ => row.cryptedNumber := by
  obtain ⟨hu, hn, hv⟩ := h
  have hfirst : (u.form.withLast4 row).valid = true := hv
  have hsecond : (u.form.withNumber cipher row).valid = true := hv
  obtain ⟨hcrypted, hlast⟩ := write_withLast4 row u.form
  unfold cardStep updateCard
  simp only [hu, Bool.false_eq_true, if_false, if_pos hn, save_of_named hfirst]
  cases u.verdict with
  | raised => exact ⟨hlast, hcrypted⟩
  | answer valid =>
      cases valid with
      | none => exact ⟨hlast, hcrypted⟩
      | some b =>
          simp only [save_of_named hsecond]
          refine ⟨?_, ?_⟩
          · exact (writeColumn_self _ _ _).trans hlast
          · show writeColumn textColumn row.cryptedNumber (some (cipher.seal u.form.number))
              (row.write row (u.form.withLast4 row)).cryptedNumber = _
            rw [hcrypted]

/-! ## Runs -/

theorem lastFour_eq_none_iff {s : String} : lastFour s = none ↔ ¬ 4 ≤ s.toList.length := by
  simp [lastFour]

/-- A number of four digits agrees with its last four. -/
theorem exists_lastFour_iff {n : String} :
    (∃ four, lastFour n = some four ∧ some ((lastFour n).getD "0000") = some four) ↔
      4 ≤ n.toList.length := by
  cases h : lastFour n with
  | none =>
      simp [lastFour_eq_none_iff.mp h]
  | some four =>
      have hlength : 4 ≤ n.toList.length := by
        by_contra hshort
        rw [lastFour_eq_none_iff.mpr hshort] at h
        cases h
      simp [hlength]

/-- A number is read back if its ciphertext was not cut off. -/
theorem read_written (hl : cipher.Lawful) {n : String} (hdigits : n = onlyDigits n)
    (hne : n ≠ "") (crypted : Option String)
    [Decidable ((cipher.encrypt n).toList.length ≤ 255 ∨ crypted = some (cipher.encrypt n))] :
    cipher.read (writeColumn textColumn crypted (some (cipher.seal n)) crypted)
      = if (cipher.encrypt n).toList.length ≤ 255 ∨ crypted = some (cipher.encrypt n) then some n
        else none := by
  have hwhole : cipher.read (some (cipher.encrypt n)) = some n := by
    simp only [Cipher.read, if_neg (hl.encrypt_ne n hne)]
    exact hl.decrypt_encrypt n hdigits hne
  have hseal : cipher.seal n = cipher.encrypt n := if_neg hne
  rw [hseal]
  unfold writeColumn
  by_cases hsame : crypted = some (cipher.encrypt n)
  · simp [hsame, hwhole]
  · rw [if_neg (Ne.symm hsame), Option.map_some]
    by_cases hfits : (cipher.encrypt n).toList.length ≤ 255
    · rw [if_pos (Or.inl hfits), textColumn_of_le hfits, hwhole]
    · rw [if_neg (by simp [hsame, hfits])]
      have hcut : textColumn (cipher.encrypt n) ≠ "" := by
        intro hempty
        have hlength : min 255 (cipher.encrypt n).toList.length = 0 := by
          simpa [textColumn] using congrArg (fun s => s.toList.length) hempty
        omega
      simp only [Cipher.read, if_neg hcut]
      exact hl.decrypt_cut n hdigits hne (by omega)

/-- One request keeps the columns together exactly when it meets its
condition. -/
theorem agrees_step_iff (hl : cipher.Lawful) (h : Agrees cipher row) :
    Agrees cipher (cardStep cipher row u) ↔ UpdateOk cipher row u := by
  classical
  by_cases hw : WritesLastFour row u.form
  · obtain ⟨hlast, hcrypted⟩ := cardStep_of_writes cipher hw
    have hkept : some ((lastFour u.form.number).getD "0000") = row.last4 ↔
        ∃ n four, cipher.read row.cryptedNumber = some n ∧ lastFour n = some four ∧
          some ((lastFour u.form.number).getD "0000") = some four := by
      obtain ⟨n, four, hn, hfour, hrow⟩ := h
      simp [hn, hfour, hrow, eq_comm]
    unfold Agrees UpdateOk
    rw [hlast, hcrypted]
    cases u.verdict with
    | raised => simp only [hw, forall_const, hkept]
    | answer valid =>
        cases valid with
        | none => simp only [hw, forall_const, hkept]
        | some b =>
            simp only [hw, forall_const]
            by_cases hempty : u.form.number = ""
            · have hread : cipher.read (writeColumn textColumn row.cryptedNumber
                  (some (cipher.seal "")) row.cryptedNumber) = some "" := by
                simp only [writeColumn, Cipher.seal, if_true, Option.map_some]
                split
                · rename_i heq
                  rw [← heq]
                  rfl
                · rfl
              rw [hempty, hread]
              simp [lastFour]
            · rw [read_written hl hw.2.1 hempty]
              by_cases hwhole : (cipher.encrypt u.form.number).toList.length ≤ 255 ∨
                  row.cryptedNumber = some (cipher.encrypt u.form.number)
              · simpa [hwhole] using exists_lastFour_iff (n := u.form.number)
              · simp [hwhole]
  · obtain ⟨hcrypted, hlast⟩ := cardStep_of_not_writes cipher hw
    unfold Agrees at h ⊢
    rw [hcrypted, hlast]
    simp only [h, true_iff]
    intro hwrites
    exact absurd hwrites hw

end

/-- **A card and its last four digits agree** along a run of updates
exactly when every update meets its condition. -/
theorem last_four_agree_iff (cipher : Cipher) (hl : cipher.Lawful) (row : CardRow)
    (h : Agrees cipher row) (us : List CardUpdate) :
    (∀ k, Agrees cipher (run (cardStep cipher) row (us.take k))) ↔
      StepsOk (cardStep cipher) (UpdateOk cipher) row us :=
  forall_take_iff_stepsOk (Agrees cipher) (fun _ _ h => agrees_step_iff hl h) us row h

/-! ## A cipher, a card that is kept and one that is not -/

/-- Three numbers and what `attr_encrypted` makes of them. -/
def knownTexts : List (String × String) :=
  [("4111111111111111", "GJwsKT8LKhf+ppfB6qCzvxEjYqYZxykKBzoAoMi/lXo=\n"),
    ("4242424242424242", "uXHr8wFYPvlaLWkB7hMltzex60ZtINOMH7EDB+/uSZU=\n"),
    ("123", "rgwwcumjyjSqW52bMHSvuA==\n")]

/-- Other numbers get a mark at the end, which is lost when the text is
cut off. -/
def tableCipher : Cipher where
  encrypt n := (knownTexts.lookup n).getD (n.push '~')
  decrypt s :=
    match knownTexts.find? (fun e => e.2 == s) with
    | some e => some e.1
    | none =>
        if s.toList.getLast? = some '~' then some (String.ofList s.toList.dropLast) else none

theorem tableCipher_of_known {n : String} (h : n ∈ knownTexts.map Prod.fst) :
    tableCipher.decrypt (tableCipher.encrypt n) = some n ∧ tableCipher.encrypt n ≠ "" ∧
      (tableCipher.encrypt n).toList.length ≤ 255 := by
  revert n
  decide +kernel

theorem tableCipher_of_unknown {n : String} (h : n ∉ knownTexts.map Prod.fst) :
    tableCipher.encrypt n = n.push '~' := by
  have hnone : knownTexts.lookup n = none := by
    refine List.lookup_eq_none_iff.mpr fun e he => bne_iff_ne.mpr ?_
    rintro rfl
    exact h (List.mem_map_of_mem he)
  simp [tableCipher, hnone]

/-- A text without the newline of a ciphertext at its end is not in the
table. -/
theorem find?_knownTexts {s : String} (h : s.toList.getLast? ≠ some '\n') :
    knownTexts.find? (fun e => e.2 == s) = none := by
  refine List.find?_eq_none.mpr fun e he heq => ?_
  have hlast : ∀ e ∈ knownTexts, e.2.toList.getLast? = some '\n' := by decide +kernel
  rw [beq_iff_eq] at heq
  rw [← heq] at h
  exact h (hlast e he)

theorem isDigit_of_mem {n : String} (h : n = onlyDigits n) {c : Char} (hc : c ∈ n.toList) :
    c.isDigit = true := by
  rw [h, onlyDigits, String.toList_ofList] at hc
  exact (List.mem_filter.mp hc).2

theorem tableCipher_decrypt_encrypt (n : String) :
    tableCipher.decrypt (tableCipher.encrypt n) = some n := by
  by_cases hk : n ∈ knownTexts.map Prod.fst
  · exact (tableCipher_of_known hk).1
  · rw [tableCipher_of_unknown hk]
    simp [tableCipher, find?_knownTexts]

theorem tableCipher_lawful : tableCipher.Lawful := by
  constructor
  · intro n _ _
    exact tableCipher_decrypt_encrypt n
  · intro n _
    by_cases hk : n ∈ knownTexts.map Prod.fst
    · exact (tableCipher_of_known hk).2.1
    · rw [tableCipher_of_unknown hk]
      intro hempty
      simpa using congrArg String.toList hempty
  · intro n hdigits hne hlong
    by_cases hk : n ∈ knownTexts.map Prod.fst
    · have hshort := (tableCipher_of_known hk).2.2
      omega
    · rw [tableCipher_of_unknown hk] at hlong ⊢
      have hlength : 255 ≤ n.toList.length := by
        simp at hlong
        omega
      -- the mark is cut off, and a digit stands at the end
      have hcut : (textColumn (n.push '~')).toList = n.toList.take 255 := by
        simp [textColumn, List.take_append_of_le_length hlength]
      have hlast : ∀ c, c.isDigit = false → (n.toList.take 255).getLast? ≠ some c := by
        intro c hc heq
        have hdigit := isDigit_of_mem hdigits (List.mem_of_mem_take (List.mem_of_getLast? heq))
        rw [hc] at hdigit
        cases hdigit
      simp only [tableCipher]
      rw [find?_knownTexts (by rw [hcut]; exact hlast '\n' (by decide)), hcut]
      simp [hlast '~' (by decide)]

def visaCard : CardRow where
  id := 1
  cryptedNumber := some "GJwsKT8LKhf+ppfB6qCzvxEjYqYZxykKBzoAoMi/lXo=\n"
  last4 := some "1111"
  firstName := some "Ann"
  lastName := some "Lee"
  phone := none
  customerId := some 1
  month := some 1
  year := some 2020
  addressId := none
  cvv := some 123

/-- Only a number is posted. -/
def newNumber (number : String) (verdict : Verdict) : CardUpdate where
  form := ⟨number, none, none, none, none, none, none, false⟩
  verdict := verdict

theorem visaCard_agrees : Agrees tableCipher visaCard :=
  ⟨"4111111111111111", "1111", by decide +kernel, by decide +kernel, rfl⟩

/-- A number of three digits that the validator refuses is stored, and
'0000' with it. -/
theorem three_digits_do_not_agree :
    ¬ ∀ (cipher : Cipher), cipher.Lawful → ∀ row : CardRow, Agrees cipher row →
      ∀ (us : List CardUpdate) (k : Nat),
        Agrees cipher (run (cardStep cipher) row (us.take k)) := by
  intro hall
  obtain ⟨n, four, hn, hfour, hlast⟩ := hall tableCipher tableCipher_lawful visaCard visaCard_agrees
    [newNumber "123" (.answer (some false))] 1
  have hread : tableCipher.read (run (cardStep tableCipher) visaCard
      ([newNumber "123" (.answer (some false))].take 1)).cryptedNumber = some "123" := by
    decide +kernel
  rw [hread] at hn
  obtain rfl := Option.some.inj hn
  revert hfour
  rw [show lastFour "123" = none by decide +kernel]
  simp

/-- A new number that is accepted, and a text that is not a number. -/
theorem new_number_agrees :
    StepsOk (cardStep tableCipher) (UpdateOk tableCipher) visaCard
        [newNumber "4242424242424242" (.answer (some true)), newNumber "none" .raised] ∧
      ∀ k, Agrees tableCipher (run (cardStep tableCipher) visaCard
        ([newNumber "4242424242424242" (.answer (some true)),
          newNumber "none" .raised].take k)) := by
  have hok : StepsOk (cardStep tableCipher) (UpdateOk tableCipher) visaCard
      [newNumber "4242424242424242" (.answer (some true)), newNumber "none" .raised] := by
    refine ⟨fun _ => ⟨by decide +kernel, Or.inl (by decide +kernel)⟩, fun hw => ?_, trivial⟩
    exact absurd hw.2.1 (by decide +kernel)
  exact ⟨hok,
    (last_four_agree_iff tableCipher tableCipher_lawful visaCard visaCard_agrees _).mpr hok⟩

end HomeWarranty.Admin
