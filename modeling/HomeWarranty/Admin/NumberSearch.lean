/-
HomeWarranty.Admin.NumberSearch — contract numbers as the program prints
them, entered into the searches of the office.

A number is printed in four forms, with or without `#` and with or
without a dash. Three actions read what is entered: `smart_search` by
id, the search for the assignment of a fax, and the dashboard of claims.
Each has its own cascade of tests, and none was written with all forms
in mind. The prefix ends in a digit, which the dashboard takes for a part
of the number, and so do the others behind a dash. `printed_number_found_iff`
goes through all twelve cases.

The rows of `addresses` that are read are the properties of a customer.
Results are given whole: pages and their order are left out.
-/
import Mathlib.Data.List.SplitBy
import HomeWarranty.Ruby.Scan
import HomeWarranty.Billing.ContractNumber

namespace HomeWarranty.Admin

open Lib Ruby
open Billing (contractNumber paddedId endOfLine)

/-! ## Printing -/

/-- `s.split(/(\d+)/)`: the digits are kept, and nothing empty is left
at the end. -/
def splitAtDigits (cs : List Char) : List (List Char) :=
  (if cs.head?.any Char.isDigit then [[]] else []) ++
    cs.splitBy fun a b => a.isDigit == b.isDigit

/-- `dashed_contract_number`. -/
def dashedContractNumber (id : Nat) : String :=
  String.ofList (['-'].intercalate (splitAtDigits (contractNumber id).toList))

/-- `s.delete('#')`. -/
def withoutHash (s : String) : String := String.ofList (s.toList.filter (· != '#'))

/-- The forms of a number. -/
inductive PrintedForm where
  | contractNumber
  | bareContractNumber
  | dashedContractNumber
  | bareDashedContractNumber
  deriving DecidableEq

def PrintedForm.print (id : Nat) : PrintedForm → String
  | .contractNumber => Billing.contractNumber id
  | .bareContractNumber => withoutHash (Billing.contractNumber id)
  | .dashedContractNumber => Admin.dashedContractNumber id
  | .bareDashedContractNumber => withoutHash (Admin.dashedContractNumber id)

example : PrintedForm.print 42 .dashedContractNumber = "#SHW-100042" := by decide +kernel

/-! ## Tables -/

structure SearchClaim where
  id : Nat
  customerId : Option Nat
  statusCode : Option Int
  deriving DecidableEq

instance : Record SearchClaim where
  key := SearchClaim.id
  withKey n r := { r with id := n }
  key_withKey := fun _ _ => rfl

structure SearchContractor where
  id : Nat
  fax : Option String
  company : Option String
  deriving DecidableEq

instance : Record SearchContractor where
  key := SearchContractor.id
  withKey n r := { r with id := n }
  key_withKey := fun _ _ => rfl

structure SearchDb where
  customers : Table Customer
  claims : Table SearchClaim
  contractors : Table SearchContractor

/-- The customer with an id that was read from a text. -/
def findByInt (t : Table Customer) : Int → Option Customer
  | .ofNat n => t.find? n
  | .negSucc _ => none

/-- The marks that are taken out of a telephone number. -/
def phoneMark (c : Char) : Bool := c == '(' || c == ')' || c == '-' || c == '.'

/-- `REPLACE` of the marks and of blanks. -/
def replaceMarks (s : String) : String :=
  String.ofList (s.toList.filter fun c => !(phoneMark c || c == ' '))

/-- The same with every kind of space, before the query. -/
def stripMarks (s : String) : String :=
  String.ofList (s.toList.filter fun c => !(phoneMark c || regexSpace c))

/-- A dash and digits up to the end of a line. -/
def claimNumberAt (_ : Option Char) : List Char → Option (List Char)
  | '-' :: cs =>
      let digits := cs.takeWhile Char.isDigit
      if digits ≠ [] ∧ endOfLine (cs.dropWhile Char.isDigit) = true then some digits else none
  | _ => none

/-- A house number, space and a word at the start of a line. -/
def streetAt (prev : Option Char) (cs : List Char) : Option Unit :=
  let rest := cs.dropWhile Char.isDigit
  if lineStart prev && cs.head?.any Char.isDigit && rest.head?.any regexSpace &&
      (rest.dropWhile regexSpace).head?.any regexWord then some () else none

section
variable (fold : Char → Char)

/-- A text anywhere in the column. -/
def sqlContains (s : String) (column : Option String) : Bool :=
  sqlLikeOpt fold ("%" ++ s ++ "%") column

/-- `with_claim_number`. -/
def withClaimNumber (db : SearchDb) (id : Nat) : List Customer :=
  db.customers.rows.filter fun c =>
    db.claims.rows.any fun k => k.id == id && k.customerId == some c.id

/-- `smart_search` with the parameter `id`. -/
def smartSearchById (db : SearchDb) (query : String) : List Customer :=
  let q := strip query
  let customers := db.customers.rows
  if 5 ≤ query.toList.length ∧ toI q ≠ 0 then
    match findByInt db.customers (toI q) with
    | some c => [c]
    | none => (findByInt db.customers (toI (String.ofList (q.toList.drop 1)))).toList
  else if '@' ∈ q.toList then
    customers.filter fun c => sqlLikeOpt fold q c.email
  else if toI q = 0 ∧ q.toList.length = 2 then
    customers.filter fun c => c.properties.any fun a =>
      sqlEq fold a.state (some (q.map Char.toLower))
  else
    match scan claimNumberAt none q.toList with
    | some digits => withClaimNumber db (digitsValue digits)
    | none =>
        if found (digitsAtStart 10) q.toList || found (digitsAtStart 4) q.toList then
          customers.filter fun c =>
            sqlLikeOpt fold (stripMarks q) (c.customerPhone.map replaceMarks)
        else if found streetAt q.toList then
          customers.filter fun c => c.properties.any fun a => sqlContains fold q a.address
        else if found (wordDigits "SHW1".toList 5) q.toList then
          (findByInt db.customers
            (toI (String.ofList (removeAll (wordAt "SHW1".toList) none 0 q.toList)))).toList
        else if found (wordDigits "shw1".toList 5) q.toList then
          (findByInt db.customers
            (toI (String.ofList (removeAll (wordAt "shw1".toList) none 0 q.toList)))).toList
        else (findByInt db.customers (toI q)).toList

/-! ## Faxes -/

inductive Hit where
  | customer (c : Customer)
  | contractor (k : SearchContractor)
  deriving DecidableEq

/-- `'%' << s.split(' ').join('%') << '%'`. -/
def likePattern (s : String) : String :=
  String.ofList ('%' :: (['%'].intercalate
    ((s.toList.splitOnP isAsciiSpace).filter (· ≠ []))) ++ ['%'])

/-- `CONCAT_WS(' ', first_name, last_name)`. -/
def fullName (c : Customer) : String :=
  String.intercalate " " ([c.firstName, c.lastName].filterMap id)

/-- `with_name_like`. -/
def nameLike (s : String) (c : Customer) : Bool :=
  sqlLikeOpt fold (likePattern s) (some (fullName c))

/-- `with_company_like`. -/
def companyLike (s : String) (k : SearchContractor) : Bool :=
  sqlLikeOpt fold (likePattern s) k.company

/-- A letter where letter case is ignored; `ſ` is an `s` then. -/
def sameLetter (x c : Char) : Bool := c.toLower == x || (x == 's' && c == 'ſ')

/-- `/^#*(shw1)/i`; the length of the match. -/
def headerAt (prev : Option Char) (cs : List Char) : Option Nat :=
  let hashes := cs.takeWhile (· == '#')
  match cs.drop hashes.length with
  | a :: b :: c :: d :: _ =>
      if lineStart prev && sameLetter 's' a && sameLetter 'h' b && sameLetter 'w' c && d == '1' then
        some (hashes.length + 4)
      else none
  | _ => none

/-- `faxes#async_assignment_search`. -/
def asyncAssignmentSearch (db : SearchDb) (q : String) : List Hit :=
  if strip q = "" then []
  else
    let stripped := q.toList.filter Char.isDigit
    let looksLikeFax := q.toList.head? == some '#' || q.toList.contains '-' ||
      q.toList.contains '(' || q.toList.contains '.'
    let isFax := looksLikeFax && 0 < digitsValue stripped && stripped.length == 10
    let q := if isFax then String.ofList stripped else q
    if isFax then
      (db.contractors.rows.filter fun k =>
        sqlEq fold (k.fax.map replaceMarks) (some (stripMarks q))).map .contractor
    else if toI q ≠ 0 then
      match findByInt db.customers (toI q) with
      | some c => [.customer c]
      | none =>
          ((findByInt db.customers (toI (String.ofList (q.toList.drop 1)))).map Hit.customer).toList
    else
      let rest := String.ofList (removeAll headerAt none 0 q.toList)
      if 0 < toI rest then ((findByInt db.customers (toI rest)).map Hit.customer).toList
      else (db.customers.rows.filter (nameLike fold q)).map .customer ++
        (db.contractors.rows.filter (companyLike fold q)).map .contractor

end

/-! ## Claims -/

/-- The claims with a status that is shown. -/
def activeClaims (db : SearchDb) (active : List Int) : List SearchClaim :=
  db.claims.rows.filter fun k => k.statusCode.any fun code => active.contains code

/-- Those that are joined to a customer. -/
def shownClaims (db : SearchDb) (active : List Int) : List SearchClaim :=
  (activeClaims db active).filter fun k =>
    k.customerId.any fun id => (db.customers.find? id).isSome

/-- `claims#dashboard` with a `contract_id`; `active` are the statuses in
the session. Without a condition nothing is joined. -/
def dashboard (db : SearchDb) (active : List Int) (contractId : String) : List SearchClaim :=
  if blank contractId then activeClaims db active
  else (shownClaims db active).filter fun k =>
    k.customerId == some (digitsValue (contractId.toList.filter Char.isDigit))

/-! ## Printed numbers -/

/-- What stands before the digits. -/
def PrintedForm.head : PrintedForm → List Char
  | .contractNumber => "#SHW".toList
  | .bareContractNumber => "SHW".toList
  | .dashedContractNumber => "#SHW-".toList
  | .bareDashedContractNumber => "SHW-".toList

/-- The digits, with that of the prefix. -/
def printedDigits (id : Nat) : List Char := '1' :: paddedId id

/-- The id that is read where the digit of the prefix is kept. -/
def misread (id : Nat) : Nat := digitsValue (printedDigits id)

theorem isDigit_of_mem_printedDigits (id : Nat) : ∀ c ∈ printedDigits id, c.isDigit = true := by
  intro c hc
  rcases List.mem_cons.mp hc with rfl | hc
  · rfl
  · exact Billing.isDigit_of_mem_paddedId id c hc

theorem misread_eq (id : Nat) : misread id = 10 ^ (paddedId id).length + id := by
  have hpad : Nat.ofDigitChars 10 (paddedId id) 0 = id := Billing.digitsValue_paddedId id
  rw [misread, printedDigits, digitsValue, Nat.ofDigitChars_cons,
    Nat.ofDigitChars_eq_ofDigitChars_zero, hpad]
  simp

theorem misread_pos (id : Nat) : 0 < misread id := by
  have : 0 < 10 ^ (paddedId id).length := Nat.pow_pos (by decide)
  rw [misread_eq]
  omega

theorem misread_ne (id : Nat) : misread id ≠ id := by
  have : 0 < 10 ^ (paddedId id).length := Nat.pow_pos (by decide)
  rw [misread_eq]
  omega

theorem toList_contractNumber (id : Nat) :
    (contractNumber id).toList = "#SHW".toList ++ printedDigits id := by
  simp [contractNumber, Billing.invoicePrefix, printedDigits, paddedId, String.toList_append]

theorem splitAtDigits_contractNumber (id : Nat) :
    splitAtDigits (contractNumber id).toList = ["#SHW".toList, printedDigits id] := by
  have hletters : ("#SHW".toList).splitBy (fun a b => a.isDigit == b.isDigit)
      = ["#SHW".toList] := by decide
  have hdigits : (printedDigits id).splitBy (fun a b => a.isDigit == b.isDigit)
      = [printedDigits id] := by
    refine List.splitBy_of_isChain (List.cons_ne_nil _ _) (List.Pairwise.isChain ?_)
    refine List.pairwise_of_forall_mem_list fun a ha b hb => ?_
    simp [isDigit_of_mem_printedDigits id a ha, isDigit_of_mem_printedDigits id b hb]
  rw [toList_contractNumber]
  unfold splitAtDigits
  rw [List.splitBy_append (by simp [printedDigits]), hletters, hdigits]
  rfl

theorem toList_dashedContractNumber (id : Nat) :
    (dashedContractNumber id).toList = "#SHW-".toList ++ printedDigits id := by
  unfold dashedContractNumber
  rw [splitAtDigits_contractNumber]
  simp [List.intercalate, List.intersperse]

theorem toList_withoutHash {s : String} {head : List Char} {id : Nat}
    (h : s.toList = '#' :: head ++ printedDigits id) (hhead : '#' ∉ head) :
    (withoutHash s).toList = head ++ printedDigits id := by
  have hdigits : '#' ∉ printedDigits id := fun hc =>
    absurd (isDigit_of_mem_printedDigits id '#' hc) (by decide)
  rw [withoutHash, h, String.toList_ofList, List.cons_append, List.filter_cons_of_neg (by decide)]
  refine List.filter_eq_self.mpr fun c hc => ?_
  rw [bne_iff_ne]
  rintro rfl
  rcases List.mem_append.mp hc with hc | hc
  · exact hhead hc
  · exact hdigits hc

/-- Every form is its head and the digits. -/
theorem toList_print (id : Nat) (f : PrintedForm) :
    (f.print id).toList = f.head ++ printedDigits id := by
  cases f with
  | contractNumber => exact toList_contractNumber id
  | bareContractNumber => exact toList_withoutHash (toList_contractNumber id) (by decide)
  | dashedContractNumber => exact toList_dashedContractNumber id
  | bareDashedContractNumber =>
      exact toList_withoutHash (toList_dashedContractNumber id) (by decide)

theorem mem_print {id : Nat} {f : PrintedForm} {c : Char} (h : c ∈ (f.print id).toList) :
    c ∈ "#SHW-".toList ∨ c.isDigit = true := by
  rw [toList_print, List.mem_append] at h
  rcases h with h | h
  · left
    cases f with
    | contractNumber => exact List.mem_append_left ['-'] h
    | bareContractNumber => exact List.mem_cons_of_mem '#' (List.mem_append_left ['-'] h)
    | dashedContractNumber => exact h
    | bareDashedContractNumber => exact List.mem_cons_of_mem '#' h
  · exact Or.inr (isDigit_of_mem_printedDigits id c h)

theorem not_mem_print (id : Nat) (f : PrintedForm) {c : Char} (h : c ∉ "#SHW-".toList)
    (hd : c.isDigit = false) : c ∉ (f.print id).toList := by
  intro hc
  rcases mem_print hc with hc | hc
  · exact h hc
  · rw [hd] at hc
    cases hc

/-- A printed number starts with a mark or a letter. -/
theorem print_eq_cons (id : Nat) (f : PrintedForm) :
    ∃ c cs, (f.print id).toList = c :: cs ∧ (c = '#' ∨ c = 'S') := by
  rw [toList_print]
  cases f with
  | contractNumber => exact ⟨'#', _, rfl, Or.inl rfl⟩
  | bareContractNumber => exact ⟨'S', _, rfl, Or.inr rfl⟩
  | dashedContractNumber => exact ⟨'#', _, rfl, Or.inl rfl⟩
  | bareDashedContractNumber => exact ⟨'S', _, rfl, Or.inr rfl⟩

theorem toI_print (id : Nat) (f : PrintedForm) : toI (f.print id) = 0 := by
  obtain ⟨c, cs, hcs, rfl | rfl⟩ := print_eq_cons id f
  · exact toI_eq_zero hcs (by decide) (by decide) (by decide)
  · exact toI_eq_zero hcs (by decide) (by decide) (by decide)

theorem strip_print (id : Nat) (f : PrintedForm) : strip (f.print id) = f.print id := by
  have hmarks : ("#SHW-".toList.all fun c => !isAsciiSpace c && c.toNat != 0) = true := rfl
  refine strip_eq_self fun c hc => ?_
  rcases mem_print hc with h | h
  · have := List.all_eq_true.mp hmarks c h
    simpa using this
  · refine ⟨isAsciiSpace_of_isDigit h, ?_⟩
    have := (digit_bounds h).1
    omega

theorem five_le_length_print (id : Nat) (f : PrintedForm) : 5 ≤ (f.print id).toList.length := by
  have hpad : 0 < (paddedId id).length := List.length_pos_iff.mpr (Billing.paddedId_ne_nil id)
  have hhead : 3 ≤ f.head.length := by cases f <;> decide
  rw [toList_print, List.length_append, printedDigits, List.length_cons]
  omega

/-- A pattern for a line that starts with a digit is not found. -/
theorem found_print_eq_false {α : Type} {p : Option Char → List Char → Option α}
    (hline : ∀ prev cs, lineStart prev = false → p prev cs = none)
    (hfirst : ∀ c cs, c.isDigit = false → p none (c :: cs) = none) (id : Nat) (f : PrintedForm) :
    found p (f.print id).toList = false := by
  obtain ⟨c, cs, hcs, hc⟩ := print_eq_cons id f
  have hdigit : c.isDigit = false := by rcases hc with rfl | rfl <;> rfl
  unfold found
  rw [scan_of_lineStart hline (not_mem_print id f (by decide) rfl), hcs, hfirst c cs hdigit]
  rfl

theorem found_digitsAtStart_print (id : Nat) (f : PrintedForm) {least : Nat} (h : 0 < least) :
    found (digitsAtStart least) (f.print id).toList = false := by
  refine found_print_eq_false (fun prev cs hp => ?_) (fun c cs hc => ?_) id f
  · simp [digitsAtStart, hp]
  · simp [digitsAtStart, hc, h.ne']

theorem found_streetAt_print (id : Nat) (f : PrintedForm) :
    found streetAt (f.print id).toList = false := by
  refine found_print_eq_false (fun prev cs hp => ?_) (fun c cs hc => ?_) id f
  · simp [streetAt, hp]
  · simp [streetAt, hc]

/-! ## Smart search -/

theorem five_le_length_paddedId (id : Nat) : 5 ≤ (paddedId id).length := by
  simp only [paddedId, rjust, String.toList_ofList, List.length_append, List.length_replicate,
    String.length_toList]
  omega

theorem not_mem_printedDigits (id : Nat) {c : Char} (h : c.isDigit = false) :
    c ∉ printedDigits id := by
  intro hc
  rw [isDigit_of_mem_printedDigits id c hc] at h
  cases h

theorem wordDigits_printed (prev : Option Char) (id : Nat) :
    wordDigits "SHW1".toList 5 prev ('S' :: 'H' :: 'W' :: printedDigits id)
      = some (paddedId id) := by
  have htake : (paddedId id).takeWhile Char.isDigit = paddedId id :=
    List.takeWhile_eq_self_iff.mpr (Billing.isDigit_of_mem_paddedId id)
  simp [wordDigits, printedDigits, List.isPrefixOf, htake, five_le_length_paddedId]

theorem removeAll_word (prev : Option Char) (id : Nat) :
    removeAll (wordAt "SHW1".toList) prev 0 ('S' :: 'H' :: 'W' :: printedDigits id)
      = paddedId id := by
  have hS : 'S' ∉ paddedId id := fun h =>
    absurd (Billing.isDigit_of_mem_paddedId id 'S' h) (by decide)
  have hat : wordAt "SHW1".toList prev ('S' :: 'H' :: 'W' :: printedDigits id) = some 4 := by
    simp [wordAt, printedDigits, List.isPrefixOf]
  rw [removeAll, hat]
  simp only [printedDigits, removeAll]
  exact removeAll_eq_self (fun prev cs => wordAt_eq_none prev cs) hS _

theorem toI_paddedId (id : Nat) : toI (String.ofList (paddedId id)) = id := by
  rw [toI_digits (by rw [String.toList_ofList]; exact Billing.isDigit_of_mem_paddedId id),
    String.toList_ofList, Billing.digitsValue_paddedId]

theorem scan_claimNumberAt_eq_none {cs : List Char} (h : '-' ∉ cs) :
    scan claimNumberAt none cs = none := by
  refine scan_eq_none (fun prev cs hcs => ?_) h none
  cases cs with
  | nil => rfl
  | cons c cs =>
      unfold claimNumberAt
      split
      · rename_i heq
        cases heq
        exact absurd rfl hcs
      · rfl

theorem claimNumberAt_dash (prev : Option Char) (id : Nat) :
    claimNumberAt prev ('-' :: printedDigits id) = some (printedDigits id) := by
  have hd := isDigit_of_mem_printedDigits id
  have htake : (printedDigits id).takeWhile Char.isDigit = printedDigits id :=
    List.takeWhile_eq_self_iff.mpr hd
  have hdrop : (printedDigits id).dropWhile Char.isDigit = [] :=
    List.dropWhile_eq_nil_iff.mpr hd
  simp only [claimNumberAt, htake, hdrop]
  rw [if_pos ⟨List.cons_ne_nil _ _, rfl⟩]

/-- Behind a dash the digits are taken for the number of a claim. -/
theorem scan_claimNumberAt_dash {front : List Char} (h : '-' ∉ front) (prev : Option Char)
    (id : Nat) :
    scan claimNumberAt prev (front ++ '-' :: printedDigits id) = some (printedDigits id) := by
  induction front generalizing prev with
  | nil => exact scan_cons_of_some (claimNumberAt_dash prev id)
  | cons c cs ih =>
      rw [List.mem_cons, not_or] at h
      rw [List.cons_append, scan_cons_of_none, ih h.2]
      unfold claimNumberAt
      split
      · rename_i heq
        cases heq
        exact absurd rfl h.1
      · rfl

section
variable (fold : Char → Char)

/-- The tests that no printed number passes. -/
theorem smartSearchById_print (db : SearchDb) (id : Nat) (f : PrintedForm) :
    smartSearchById fold db (f.print id) =
      match scan claimNumberAt none (f.print id).toList with
      | some digits => withClaimNumber db (digitsValue digits)
      | none =>
          if found (wordDigits "SHW1".toList 5) (f.print id).toList then
            (findByInt db.customers (toI (String.ofList
              (removeAll (wordAt "SHW1".toList) none 0 (f.print id).toList)))).toList
          else if found (wordDigits "shw1".toList 5) (f.print id).toList then
            (findByInt db.customers (toI (String.ofList
              (removeAll (wordAt "shw1".toList) none 0 (f.print id).toList)))).toList
          else (findByInt db.customers (toI (f.print id))).toList := by
  have hlen := five_le_length_print id f
  have hmail : '@' ∉ (f.print id).toList := not_mem_print id f (by decide) rfl
  simp only [smartSearchById, strip_print]
  rw [if_neg (fun h => h.2 (toI_print id f)), if_neg hmail, if_neg (by omega),
    found_digitsAtStart_print id f (by decide), found_digitsAtStart_print id f (by decide),
    found_streetAt_print]
  simp only [Bool.or_self, Bool.false_eq_true, if_false]

theorem smartSearchById_contractNumber (db : SearchDb) (id : Nat) :
    smartSearchById fold db (PrintedForm.contractNumber.print id)
      = (db.customers.find? 0).toList := by
  have hnodash : '-' ∉ '#' :: 'S' :: 'H' :: 'W' :: printedDigits id := by
    simpa using not_mem_printedDigits id rfl
  have hfound : found (wordDigits "SHW1".toList 5) ('#' :: 'S' :: 'H' :: 'W' :: printedDigits id)
      = true := by
    have hmark : wordDigits "SHW1".toList 5 none ('#' :: 'S' :: 'H' :: 'W' :: printedDigits id)
        = none := by simp [wordDigits, List.isPrefixOf]
    rw [found, scan_cons_of_none hmark, scan_cons_of_some (wordDigits_printed _ id)]
    rfl
  have hremove : removeAll (wordAt "SHW1".toList) none 0
      ('#' :: 'S' :: 'H' :: 'W' :: printedDigits id) = '#' :: paddedId id := by
    have hmark : wordAt "SHW1".toList none ('#' :: 'S' :: 'H' :: 'W' :: printedDigits id)
        = none := by simp [wordAt, List.isPrefixOf]
    rw [removeAll, hmark]
    simp only
    rw [removeAll_word]
  have hlist : (PrintedForm.contractNumber.print id).toList
      = '#' :: 'S' :: 'H' :: 'W' :: printedDigits id := toList_print id _
  have hzero : toI (String.ofList ('#' :: paddedId id)) = 0 :=
    toI_eq_zero (String.toList_ofList) (by decide) (by decide) (by decide)
  rw [smartSearchById_print, hlist, scan_claimNumberAt_eq_none hnodash]
  simp only
  rw [hfound, if_pos rfl, hremove, hzero]
  rfl

theorem smartSearchById_bareContractNumber (db : SearchDb) (id : Nat) :
    smartSearchById fold db (PrintedForm.bareContractNumber.print id)
      = (db.customers.find? id).toList := by
  have hnodash : '-' ∉ 'S' :: 'H' :: 'W' :: printedDigits id := by
    simpa using not_mem_printedDigits id rfl
  have hfound : found (wordDigits "SHW1".toList 5) ('S' :: 'H' :: 'W' :: printedDigits id)
      = true := by
    rw [found, scan_cons_of_some (wordDigits_printed _ id)]
    rfl
  have hlist : (PrintedForm.bareContractNumber.print id).toList
      = 'S' :: 'H' :: 'W' :: printedDigits id := toList_print id _
  rw [smartSearchById_print, hlist, scan_claimNumberAt_eq_none hnodash]
  simp only
  rw [hfound, if_pos rfl, removeAll_word, toI_paddedId]
  rfl

/-- With a dash the customer of a claim is looked up. -/
theorem smartSearchById_dashed (db : SearchDb) (id : Nat) {f : PrintedForm} (front : List Char)
    (h : f.head = front ++ ['-']) (hfront : '-' ∉ front) :
    smartSearchById fold db (f.print id) = withClaimNumber db (misread id) := by
  have hlist : (f.print id).toList = front ++ '-' :: printedDigits id := by
    rw [toList_print, h, List.append_assoc]
    rfl
  rw [smartSearchById_print, hlist, scan_claimNumberAt_dash hfront]
  rfl

/-! ## Assignment search -/

theorem filter_isDigit_print (id : Nat) (f : PrintedForm) :
    (f.print id).toList.filter Char.isDigit = printedDigits id := by
  have hhead : f.head.filter Char.isDigit = [] := by cases f <;> rfl
  rw [toList_print, List.filter_append, hhead,
    List.filter_eq_self.mpr (isDigit_of_mem_printedDigits id)]
  rfl

theorem length_printedDigits_eq_ten_iff (id : Nat) :
    (printedDigits id).length = 10 ↔ 10 ^ 8 ≤ id ∧ id < 10 ^ 9 := by
  have hle : (toString id).toList.length ≤ 9 ↔ id < 10 ^ 9 := by
    rw [toList_toString]
    exact Nat.length_toDigits_le_iff (by decide) (by decide)
  have hle' : (toString id).toList.length ≤ 8 ↔ id < 10 ^ 8 := by
    rw [toList_toString]
    exact Nat.length_toDigits_le_iff (by decide) (by decide)
  have hlen : (printedDigits id).length
      = (5 - (toString id).toList.length) + (toString id).toList.length + 1 := by
    simp only [printedDigits, List.length_cons, paddedId, rjust, String.toList_ofList,
      List.length_append, List.length_replicate, String.length_toList]
  omega

theorem headerAt_of_not_lineStart (prev : Option Char) (cs : List Char)
    (h : lineStart prev = false) : headerAt prev cs = none := by
  unfold headerAt
  simp only [h, Bool.false_and]
  split <;> rfl

/-- What looks like a fax number by its marks. -/
theorem looksLikeFax_print (id : Nat) (f : PrintedForm) :
    ((f.print id).toList.head? == some '#' || (f.print id).toList.contains '-' ||
      (f.print id).toList.contains '(' || (f.print id).toList.contains '.')
      = decide (f ≠ .bareContractNumber) := by
  have hround : (f.print id).toList.contains '(' = false := by
    simpa using not_mem_print id f (c := '(') (by decide) rfl
  have hdot : (f.print id).toList.contains '.' = false := by
    simpa using not_mem_print id f (c := '.') (by decide) rfl
  have hdash := not_mem_printedDigits id (c := '-') rfl
  rw [hround, hdot, toList_print]
  cases f with
  | contractNumber => rfl
  | bareContractNumber => simp [PrintedForm.head, hdash]
  | dashedContractNumber => rfl
  | bareDashedContractNumber => simp [PrintedForm.head]

/-- A number of ten digits and a mark is taken for a fax number. -/
theorem asyncAssignmentSearch_print (db : SearchDb) (id : Nat) (f : PrintedForm) :
    asyncAssignmentSearch fold db (f.print id) =
      if f ≠ .bareContractNumber ∧ (printedDigits id).length = 10 then
        (db.contractors.rows.filter fun k => sqlEq fold (k.fax.map replaceMarks)
          (some (stripMarks (String.ofList (printedDigits id))))).map .contractor
      else if 0 < toI (String.ofList (removeAll headerAt none 0 (f.print id).toList)) then
        ((findByInt db.customers (toI (String.ofList
          (removeAll headerAt none 0 (f.print id).toList)))).map Hit.customer).toList
      else (db.customers.rows.filter (nameLike fold (f.print id))).map .customer ++
        (db.contractors.rows.filter (companyLike fold (f.print id))).map .contractor := by
  have hne : f.print id ≠ "" := by
    intro h
    have := five_le_length_print id f
    rw [h] at this
    exact absurd this (by decide)
  have hpos : 0 < digitsValue (printedDigits id) := misread_pos id
  unfold asyncAssignmentSearch
  rw [strip_print, if_neg hne]
  simp only [looksLikeFax_print, filter_isDigit_print, hpos]
  by_cases hfax : f ≠ .bareContractNumber ∧ (printedDigits id).length = 10
  · rw [if_pos hfax]
    simp [hfax.1, hfax.2]
  · have hmark : (decide (f ≠ .bareContractNumber) && decide True &&
        ((printedDigits id).length == 10)) = false := by
      rw [Bool.and_eq_false_iff]
      simpa [Classical.or_iff_not_imp_left] using hfax
    rw [if_neg hfax, hmark]
    simp [toI_print]

theorem removeAll_headerAt_rest (prev : Char) (hprev : prev ≠ '\n') (id : Nat) :
    removeAll headerAt (some prev) 0 (paddedId id) = paddedId id := by
  refine removeAll_of_lineStart headerAt_of_not_lineStart hprev fun h => ?_
  exact absurd (Billing.isDigit_of_mem_paddedId id _ h) (by decide)

theorem removeAll_headerAt_contractNumber (id : Nat) :
    removeAll headerAt none 0 ('#' :: 'S' :: 'H' :: 'W' :: printedDigits id) = paddedId id := by
  have hat : headerAt none ('#' :: 'S' :: 'H' :: 'W' :: printedDigits id) = some 5 := rfl
  rw [removeAll, hat]
  simp only [printedDigits, removeAll]
  exact removeAll_headerAt_rest '1' (by decide) id

theorem removeAll_headerAt_bareContractNumber (id : Nat) :
    removeAll headerAt none 0 ('S' :: 'H' :: 'W' :: printedDigits id) = paddedId id := by
  have hat : headerAt none ('S' :: 'H' :: 'W' :: printedDigits id) = some 4 := rfl
  rw [removeAll, hat]
  simp only [printedDigits, removeAll]
  exact removeAll_headerAt_rest '1' (by decide) id

/-- The header is not recognized before a dash. -/
theorem removeAll_headerAt_dashed (id : Nat) {f : PrintedForm}
    (h : headerAt none (f.print id).toList = none) :
    removeAll headerAt none 0 (f.print id).toList = (f.print id).toList := by
  have hline : '\n' ∉ (f.print id).toList := not_mem_print id f (by decide) rfl
  obtain ⟨c, cs, hcs, -⟩ := print_eq_cons id f
  rw [hcs, List.mem_cons, not_or] at hline
  rw [hcs] at h ⊢
  rw [removeAll, h]
  simp only
  rw [removeAll_of_lineStart headerAt_of_not_lineStart (Ne.symm hline.1) hline.2]

theorem asyncAssignmentSearch_bareContractNumber (db : SearchDb) {id : Nat} (h : 1 ≤ id) :
    asyncAssignmentSearch fold db (PrintedForm.bareContractNumber.print id)
      = ((db.customers.find? id).map Hit.customer).toList := by
  have hlist : (PrintedForm.bareContractNumber.print id).toList
      = 'S' :: 'H' :: 'W' :: printedDigits id := toList_print id _
  rw [asyncAssignmentSearch_print, if_neg (fun h => h.1 rfl), hlist,
    removeAll_headerAt_bareContractNumber, toI_paddedId, if_pos (by omega)]
  rfl

theorem asyncAssignmentSearch_contractNumber (db : SearchDb) {id : Nat} (h : 1 ≤ id)
    (hlen : (printedDigits id).length ≠ 10) :
    asyncAssignmentSearch fold db (PrintedForm.contractNumber.print id)
      = ((db.customers.find? id).map Hit.customer).toList := by
  have hlist : (PrintedForm.contractNumber.print id).toList
      = '#' :: 'S' :: 'H' :: 'W' :: printedDigits id := toList_print id _
  rw [asyncAssignmentSearch_print, if_neg (fun h => hlen h.2), hlist,
    removeAll_headerAt_contractNumber, toI_paddedId, if_pos (by omega)]
  rfl

/-- With a dash the number is looked up as a name. -/
theorem asyncAssignmentSearch_dashed (db : SearchDb) {id : Nat} {f : PrintedForm}
    (hf : headerAt none (f.print id).toList = none) (hlen : (printedDigits id).length ≠ 10) :
    asyncAssignmentSearch fold db (f.print id)
      = (db.customers.rows.filter (nameLike fold (f.print id))).map .customer ++
        (db.contractors.rows.filter (companyLike fold (f.print id))).map .contractor := by
  rw [asyncAssignmentSearch_print, if_neg (fun h => hlen h.2), removeAll_headerAt_dashed id hf,
    String.ofList_toList, toI_print, if_neg (by decide)]

/-- A search for a fax number finds no customer. -/
theorem asyncAssignmentSearch_fax (db : SearchDb) {id : Nat} {f : PrintedForm}
    (hf : f ≠ .bareContractNumber) (hlen : (printedDigits id).length = 10) (c : Customer) :
    asyncAssignmentSearch fold db (f.print id) ≠ [.customer c] := by
  rw [asyncAssignmentSearch_print, if_pos ⟨hf, hlen⟩]
  intro h
  have hmem : Hit.customer c ∈ (db.contractors.rows.filter fun k =>
      sqlEq fold (k.fax.map replaceMarks)
        (some (stripMarks (String.ofList (printedDigits id))))).map Hit.contractor := by
    rw [h]
    exact List.mem_singleton_self _
  obtain ⟨k, -, hk⟩ := List.mem_map.mp hmem
  cases hk

end

/-! ## Which searches find it -/

/-- The searches that a number is entered in. -/
inductive NumberSearch where
  | smartSearch
  | asyncAssignmentSearch
  | dashboard
  deriving DecidableEq

/-- Exactly the customer is selected, or exactly the claims of the
customer that the dashboard shows. -/
def Selects (fold : Char → Char) (db : SearchDb) (active : List Int) (c : Customer)
    (q : String) : NumberSearch → Prop
  | .smartSearch => smartSearchById fold db q = [c]
  | .asyncAssignmentSearch => asyncAssignmentSearch fold db q = [.customer c]
  | .dashboard => dashboard db active q
      = (shownClaims db active).filter fun k => k.customerId == some c.id

/-- When a form of the number leads to the customer. -/
def Searchable (fold : Char → Char) (db : SearchDb) (active : List Int) (c : Customer) :
    PrintedForm → NumberSearch → Prop
  | .contractNumber, .smartSearch => False
  | .contractNumber, .asyncAssignmentSearch => ¬ (10 ^ 8 ≤ c.id ∧ c.id < 10 ^ 9)
  | .bareContractNumber, .smartSearch => True
  | .bareContractNumber, .asyncAssignmentSearch => True
  | _, .smartSearch => ∃ k ∈ db.claims.rows, k.id = misread c.id ∧ k.customerId = some c.id
  | f, .asyncAssignmentSearch =>
      ¬ (10 ^ 8 ≤ c.id ∧ c.id < 10 ^ 9) ∧
        (∀ d ∈ db.customers.rows, nameLike fold (f.print c.id) d = true ↔ d = c) ∧
        ∀ k ∈ db.contractors.rows, companyLike fold (f.print c.id) k = false
  | _, .dashboard => ∀ k ∈ shownClaims db active,
      k.customerId ≠ some c.id ∧ k.customerId ≠ some (misread c.id)

theorem withClaimNumber_eq_singleton_iff {db : SearchDb} {c : Customer}
    (hc : c ∈ db.customers.rows) (id : Nat) :
    withClaimNumber db id = [c] ↔
      ∃ k ∈ db.claims.rows, k.id = id ∧ k.customerId = some c.id := by
  have hof : ∀ d : Customer, (db.claims.rows.any fun k => k.id == id && k.customerId == some d.id)
      = true ↔ ∃ k ∈ db.claims.rows, k.id = id ∧ k.customerId = some d.id := by
    intro d
    simp [List.any_eq_true]
  constructor
  · intro h
    have hmem : c ∈ withClaimNumber db id := by
      rw [h]
      exact List.mem_singleton_self c
    exact (hof c).mp (List.mem_filter.mp hmem).2
  · rintro ⟨k, hk, hid, hcust⟩
    refine db.customers.filter_eq_singleton hc ((hof c).mpr ⟨k, hk, hid, hcust⟩) ?_
    intro d _ hd
    obtain ⟨k', hk', hid', hcust'⟩ := (hof d).mp hd
    -- a claim has one customer
    obtain rfl := db.claims.eq_of_key_eq hk' hk (hid'.trans hid.symm)
    rw [hcust, Option.some.injEq] at hcust'
    exact hcust'.symm

theorem hits_eq_singleton_iff {db : SearchDb} {c : Customer} (hc : c ∈ db.customers.rows)
    {p : Customer → Bool} {q : SearchContractor → Bool} :
    (db.customers.rows.filter p).map Hit.customer ++
        (db.contractors.rows.filter q).map Hit.contractor = [.customer c] ↔
      (∀ d ∈ db.customers.rows, p d = true ↔ d = c) ∧
        ∀ k ∈ db.contractors.rows, q k = false := by
  constructor
  · intro h
    have hcustomer : ∀ d, d ∈ db.customers.rows ∧ p d = true ↔ d = c := by
      intro d
      have hmem : Hit.customer d ∈ (db.customers.rows.filter p).map Hit.customer ++
          (db.contractors.rows.filter q).map Hit.contractor ↔ Hit.customer d = .customer c := by
        rw [h, List.mem_singleton]
      simpa using hmem
    have hcontractor : ∀ k, ¬ (k ∈ db.contractors.rows ∧ q k = true) := by
      intro k
      have hmem : Hit.contractor k ∈ (db.customers.rows.filter p).map Hit.customer ++
          (db.contractors.rows.filter q).map Hit.contractor ↔ Hit.contractor k = .customer c := by
        rw [h, List.mem_singleton]
      simpa using hmem
    refine ⟨fun d hd => ⟨fun hp => (hcustomer d).mp ⟨hd, hp⟩, fun hdc => ?_⟩, fun k hk => ?_⟩
    · exact ((hcustomer d).mpr hdc).2
    · exact Bool.eq_false_iff.mpr fun hq => hcontractor k ⟨hk, hq⟩
  · rintro ⟨hp, hq⟩
    have hone : db.customers.rows.filter p = [c] :=
      db.customers.filter_eq_singleton hc ((hp c hc).mpr rfl)
        fun d hd hpd => congrArg Record.key ((hp d hd).mp hpd)
    have hnone : db.contractors.rows.filter q = [] := by
      rw [List.filter_eq_nil_iff]
      intro k hk
      rw [hq k hk]
      exact Bool.false_ne_true
    rw [hone, hnone]
    rfl

theorem dashboard_print (db : SearchDb) (active : List Int) (id : Nat) (f : PrintedForm) :
    dashboard db active (f.print id)
      = (shownClaims db active).filter fun k => k.customerId == some (misread id) := by
  have hblank : blank (f.print id) = false := by
    obtain ⟨c, cs, hcs, hc⟩ := print_eq_cons id f
    have hspace : isSpace c = false := by rcases hc with rfl | rfl <;> decide
    simp [blank, hcs, hspace]
  unfold dashboard
  rw [if_neg (by rw [hblank]; exact Bool.false_ne_true), filter_isDigit_print]
  rfl

/-- The rows of two customers are the same only where there are none. -/
theorem filter_customer_eq_iff {l : List SearchClaim} {m n : Nat} (h : m ≠ n) :
    (l.filter (fun k => k.customerId == some m) = l.filter fun k => k.customerId == some n) ↔
      ∀ k ∈ l, k.customerId ≠ some n ∧ k.customerId ≠ some m := by
  constructor
  · intro heq k hk
    have hmem : k ∈ l.filter (fun k => k.customerId == some m) ↔
        k ∈ l.filter fun k => k.customerId == some n := by rw [heq]
    simp only [List.mem_filter, hk, true_and, beq_iff_eq] at hmem
    constructor
    · intro hn
      have hm := hmem.mpr hn
      rw [hn, Option.some.injEq] at hm
      exact h hm.symm
    · intro hm
      have hn := hmem.mp hm
      rw [hm, Option.some.injEq] at hn
      exact h hn
  · intro hall
    refine List.filter_congr fun k hk => ?_
    rw [beq_eq_false_iff_ne.mpr (hall k hk).1, beq_eq_false_iff_ne.mpr (hall k hk).2]

section
variable (fold : Char → Char) (db : SearchDb) (active : List Int) {c : Customer}

theorem smartSearch_selects_iff (hc : db.customers.find? c.id = some c) (hid : 1 ≤ c.id)
    (f : PrintedForm) :
    Selects fold db active c (f.print c.id) .smartSearch ↔
      Searchable fold db active c f .smartSearch := by
  have hmem := Table.mem_of_find? hc
  cases f with
  | contractNumber =>
      refine iff_of_false (fun h => ?_) id
      simp only [Selects, smartSearchById_contractNumber] at h
      cases hzero : db.customers.find? 0 with
      | none => simp [hzero] at h
      | some d =>
          have hd : d.id = 0 := Table.key_of_find? hzero
          simp only [hzero, Option.toList_some, List.cons.injEq, and_true] at h
          rw [← h] at hid
          omega
  | bareContractNumber =>
      refine iff_of_true ?_ trivial
      simp only [Selects, smartSearchById_bareContractNumber, hc]
      rfl
  | dashedContractNumber =>
      simp only [Selects]
      rw [smartSearchById_dashed fold db c.id "#SHW".toList rfl (by decide)]
      exact withClaimNumber_eq_singleton_iff hmem _
  | bareDashedContractNumber =>
      simp only [Selects]
      rw [smartSearchById_dashed fold db c.id "SHW".toList rfl (by decide)]
      exact withClaimNumber_eq_singleton_iff hmem _

theorem assignmentSearch_dashed_iff (hc : c ∈ db.customers.rows) {f : PrintedForm}
    (hf : f ≠ .bareContractNumber) (hat : headerAt none (f.print c.id).toList = none) :
    asyncAssignmentSearch fold db (f.print c.id) = [.customer c] ↔
      ¬ (10 ^ 8 ≤ c.id ∧ c.id < 10 ^ 9) ∧
        (∀ d ∈ db.customers.rows, nameLike fold (f.print c.id) d = true ↔ d = c) ∧
        ∀ k ∈ db.contractors.rows, companyLike fold (f.print c.id) k = false := by
  rw [← length_printedDigits_eq_ten_iff]
  by_cases hlen : (printedDigits c.id).length = 10
  · exact iff_of_false (asyncAssignmentSearch_fax fold db hf hlen c) fun h => h.1 hlen
  · rw [asyncAssignmentSearch_dashed fold db hat hlen, hits_eq_singleton_iff hc]
    exact (and_iff_right hlen).symm

theorem assignmentSearch_selects_iff (hc : db.customers.find? c.id = some c) (hid : 1 ≤ c.id)
    (f : PrintedForm) :
    Selects fold db active c (f.print c.id) .asyncAssignmentSearch ↔
      Searchable fold db active c f .asyncAssignmentSearch := by
  have hmem := Table.mem_of_find? hc
  cases f with
  | contractNumber =>
      simp only [Selects, Searchable]
      rw [← length_printedDigits_eq_ten_iff]
      by_cases hlen : (printedDigits c.id).length = 10
      · exact iff_of_false (asyncAssignmentSearch_fax fold db (by decide) hlen c) (· hlen)
      · refine iff_of_true ?_ hlen
        rw [asyncAssignmentSearch_contractNumber fold db hid hlen, hc]
        rfl
  | bareContractNumber =>
      refine iff_of_true ?_ trivial
      simp only [Selects, asyncAssignmentSearch_bareContractNumber fold db hid, hc]
      rfl
  | dashedContractNumber =>
      refine assignmentSearch_dashed_iff fold db hmem (by decide) ?_
      rw [toList_print]
      rfl
  | bareDashedContractNumber =>
      refine assignmentSearch_dashed_iff fold db hmem (by decide) ?_
      rw [toList_print]
      rfl

theorem dashboard_selects_iff (f : PrintedForm) :
    Selects fold db active c (f.print c.id) .dashboard ↔
      Searchable fold db active c f .dashboard := by
  simp only [Selects, dashboard_print]
  rw [filter_customer_eq_iff (misread_ne c.id)]
  cases f <;> exact Iff.rfl

/-- **When a printed number is found**, for every form and every
search. -/
theorem printed_number_found_iff (hc : db.customers.find? c.id = some c) (hid : 1 ≤ c.id)
    (f : PrintedForm) (s : NumberSearch) :
    Selects fold db active c (f.print c.id) s ↔ Searchable fold db active c f s := by
  cases s with
  | smartSearch => exact smartSearch_selects_iff fold db active hc hid f
  | asyncAssignmentSearch => exact assignmentSearch_selects_iff fold db active hc hid f
  | dashboard => exact dashboard_selects_iff fold db active f

end

/-- One customer with a claim, and one contractor. -/
def smallOffice : SearchDb where
  customers := Table.ofRows [{ Customer.new with firstName := some "Ann", lastName := some "Lee" }]
  claims := Table.ofRows [⟨0, some 1, some 0⟩]
  contractors := Table.ofRows [⟨0, some "555-123-4567", some "Cooling Inc"⟩]

/-- Ann is found by the number without the mark, in two searches. -/
theorem ann_found_without_mark :
    let ann := { Customer.new with id := 1, firstName := some "Ann", lastName := some "Lee" }
    PrintedForm.print 1 .bareContractNumber = "SHW100001" ∧
      Selects Char.toLower smallOffice [0] ann "SHW100001" .smartSearch ∧
      Selects Char.toLower smallOffice [0] ann "SHW100001" .asyncAssignmentSearch := by
  intro ann
  have hprint : PrintedForm.print ann.id .bareContractNumber = "SHW100001" := by decide +kernel
  have hann : smallOffice.customers.find? ann.id = some ann := by decide +kernel
  refine ⟨hprint, ?_, ?_⟩
  · rw [← hprint]
    exact (printed_number_found_iff Char.toLower smallOffice [0] hann (by decide)
      .bareContractNumber .smartSearch).mpr trivial
  · rw [← hprint]
    exact (printed_number_found_iff Char.toLower smallOffice [0] hann (by decide)
      .bareContractNumber .asyncAssignmentSearch).mpr trivial

/-- With the mark she is not found by `smart_search`, and the dashboard
does not show her claim. -/
theorem ann_not_found_with_mark :
    let ann := { Customer.new with id := 1, firstName := some "Ann", lastName := some "Lee" }
    smallOffice.customers.find? 1 = some ann ∧
      PrintedForm.print 1 .contractNumber = "#SHW100001" ∧
      ¬ Selects Char.toLower smallOffice [0] ann "#SHW100001" .smartSearch ∧
      ¬ Selects Char.toLower smallOffice [0] ann "#SHW100001" .dashboard := by
  intro ann
  refine ⟨by decide +kernel, by decide +kernel, ?_, ?_⟩
  · have hnobody : smartSearchById Char.toLower smallOffice "#SHW100001" = [] := by decide +kernel
    simp [Selects, hnobody]
  · have hnothing : dashboard smallOffice [0] "#SHW100001" = [] := by decide +kernel
    have hclaim : (shownClaims smallOffice [0]).filter (fun k => k.customerId == some ann.id)
        = [⟨1, some 1, some 0⟩] := by decide +kernel
    simp [Selects, hnothing, hclaim]

end HomeWarranty.Admin
