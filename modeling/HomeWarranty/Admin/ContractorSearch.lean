/-
HomeWarranty.Admin.ContractorSearch — finding a contractor by a telephone
number and by the number that is printed on work orders.

`find_by_location` compares numbers as they are shown. Ten characters at
most are shown, the marks around them stand at fixed distances, and so
two numbers that are shown alike are alike (`formatDid_inj`): the search
finds the contractors with the number and no others.

The printed number is the id behind `33`, and `index` takes every `33`
out of what is entered. An id that holds one itself is not found under
its own number: `printed_number_selects_iff`.
-/
import HomeWarranty.Admin.SqlFilter
import HomeWarranty.Output.Phone

namespace HomeWarranty.Admin

open Lib Ruby
open Output (cleanDid toList_cleanDid)

/-! ## Contractors -/

/-- The columns are not NULL. -/
structure ListedContractor where
  id : Nat
  company : String
  phone : String
  fax : String
  email : String
  deriving DecidableEq

instance : Record ListedContractor where
  key := ListedContractor.id
  withKey n c := { c with id := n }
  key_withKey := fun _ _ => rfl

/-- `format_did`. A part that is not there is shown as nothing. -/
def formatDid (did : String) : String :=
  String.ofList ("(".toList ++ did.toList.take 3 ++ ") ".toList ++ (did.toList.drop 3).take 3 ++
    "-".toList ++ (did.toList.drop 6).take 4)

/-- `phone_number` and `fax_number`, of their column. -/
def shownNumber (column : String) : String :=
  if column.isEmpty then column else formatDid (cleanDid column)

/-- `phone_number`. -/
def ListedContractor.phoneNumber (c : ListedContractor) : String := shownNumber c.phone

/-- `fax_number`. -/
def ListedContractor.faxNumber (c : ListedContractor) : String := shownNumber c.fax

/-- `contractor_id_with_cr`. -/
def ListedContractor.contractorIdWithCr (c : ListedContractor) : String := "33" ++ toString c.id

/-! ## The search by a text -/

inductive LocationAnswer (α : Type) where
  | byLocation (addresses : α)
  | byText (contractors : List ListedContractor) (location findDescription : String)
  | error (location : String)

/-- `find_by_location`. `addressesWithin` asks a geocoder, and is `none`
when that raises. -/
def findByLocation [Numbers] {α : Type} (addressesWithin : ℚ → String → Option α)
    (fold : Char → Char) (contractors : Table ListedContractor)
    (radius location : Option String) :
    Except RubyError (LocationAnswer α) :=
  match location with
  | none => .error .noMethodError
  | some location =>
      if location.toList.all Char.isDigit then
        if location.length = 5 then
          match addressesWithin ((radius.map Numbers.toF).getD 0) location with
          | some addresses => .ok (.byLocation addresses)
          | none => .ok (.error location)
        else if location.length = 10 then
          .ok (.byText
            (contractors.rows.filter fun contractor =>
              contractor.phoneNumber == formatDid location ||
                contractor.faxNumber == formatDid location)
            (formatDid location) "Phone/Fax number")
        else .ok (.error location)
      else if location.toList.contains '@' then
        .ok (.byText (contractors.rows.filter fun c => sqlEq fold (some c.email) (some location))
          location "Email")
      else
        .ok (.byText
          (contractors.rows.filter fun c =>
            sqlLike fold ('%' :: (location.toList ++ ['%'])) c.company.toList)
          location "Company")

/-! ## The search by the printed number -/

inductive IndexAnswer where
  | elsewhere (path : String)
  /-- A redirect to `/admin/contractors/edit/` with this id. -/
  | edit (id : String)
  /-- The list, with its conditions. -/
  | list (query : List String) (page : String)

/-- `index`. -/
def contractorsIndex (role : Option String) (contractors : Table ListedContractor)
    (p : ContractorsParams) (page : Option String) : IndexAnswer :=
  if role = some "customer" then .elsewhere "/admin/customers/claims"
  else if role = some "sales" then .elsewhere "/admin/sales/dashboard"
  else
    let id := (contractorIdParam p.contractorId).getD ""
    if !blank id && (findByIdText contractors id).isSome then .edit id
    else .list (contractorsQuery p) (page.getD "0")

/-- The contractor that `edit` shows. -/
def contractorsEdit (contractors : Table ListedContractor) (id : String) :
    Except RubyError ListedContractor :=
  if toI id = 0 then
    match contractors.rows.head? with
    | some first => .ok first
    | none => .error .noMethodError
  else findRecord contractors (some id)

/-- The contractor an answer leads to. -/
def IndexAnswer.selected (contractors : Table ListedContractor) :
    IndexAnswer → Except RubyError (Option ListedContractor)
  | .edit id => (contractorsEdit contractors id).map some
  | .elsewhere _ => .ok none
  | .list _ _ => .ok none

/-! ## Numbers that are shown alike -/

theorem toList_formatDid (did : String) :
    (formatDid did).toList = '(' :: (did.toList.take 3 ++ (')' :: ' ' ::
      ((did.toList.drop 3).take 3 ++ '-' :: (did.toList.drop 6).take 4))) := by
  rw [formatDid, String.toList_ofList]
  simp

/-- Ten characters are the three parts together. -/
theorem parts_eq {cs : List Char} (h : cs.length ≤ 10) :
    cs.take 3 ++ ((cs.drop 3).take 3 ++ (cs.drop 6).take 4) = cs := by
  have hlast : (cs.drop 6).take 4 = (cs.drop 3).drop 3 := by
    rw [List.drop_drop, List.take_of_length_le]
    rw [List.length_drop]
    omega
  rw [hlast, List.take_append_drop, List.take_append_drop]

theorem formatDid_inj {a b : String} (ha : a.toList.length ≤ 10) (hb : b.toList.length ≤ 10) :
    formatDid a = formatDid b ↔ a = b := by
  refine ⟨fun h => ?_, fun h => congrArg formatDid h⟩
  have hshown := congrArg String.toList h
  rw [toList_formatDid, toList_formatDid] at hshown
  have hlen := congrArg List.length hshown
  simp only [List.length_cons, List.length_append, List.length_take, List.length_drop] at hlen
  obtain ⟨hfirst, hrest⟩ := List.append_inj (List.cons.inj hshown).2 (by
    rw [List.length_take, List.length_take]
    omega)
  obtain ⟨hsecond, hlast⟩ := List.append_inj (List.cons.inj (List.cons.inj hrest).2).2 (by
    rw [List.length_take, List.length_take, List.length_drop, List.length_drop]
    omega)
  apply String.toList_injective
  rw [← parts_eq ha, ← parts_eq hb, hfirst, hsecond, (List.cons.inj hlast).2]

theorem length_cleanDid_le (did : String) : (cleanDid did).toList.length ≤ 10 := by
  rw [toList_cleanDid]
  exact List.length_take_le 10 _

theorem formatDid_cleanDid_iff (p : String) {d : String} (hten : d.toList.length = 10) :
    formatDid (cleanDid p) = formatDid d ↔ cleanDid p = d :=
  formatDid_inj (length_cleanDid_le p) (Nat.le_of_eq hten)

theorem shownNumber_iff (column : String) {d : String} (hten : d.toList.length = 10) :
    shownNumber column = formatDid d ↔ cleanDid column = d := by
  unfold shownNumber
  split_ifs with hempty
  · -- nothing is shown, and nothing is left of it
    obtain rfl : column = "" := String.isEmpty_iff.mp hempty
    have hclean : cleanDid "" = "" := rfl
    refine iff_of_false (fun h => ?_) fun h => ?_
    · have := congrArg String.toList h
      rw [toList_formatDid] at this
      cases this
    · rw [← h, hclean] at hten
      cases hten
  · exact formatDid_cleanDid_iff column hten

/-- Ten digits find the contractors whose telephone or fax number they
are, and the comparison of what is shown is the comparison of the
numbers. -/
theorem find_by_number_exact [Numbers] {α : Type} (addressesWithin : ℚ → String → Option α)
    (fold : Char → Char) (contractors : Table ListedContractor) (radius : Option String)
    (d : String) (hten : d.length = 10) (hdigits : ∀ c ∈ d.toList, c.isDigit = true) :
    findByLocation addressesWithin fold contractors radius (some d) =
      .ok (.byText (contractors.rows.filter fun c => cleanDid c.phone = d ∨ cleanDid c.fax = d)
        (formatDid d) "Phone/Fax number") ∧
    ∀ p : String, formatDid (cleanDid p) = formatDid d ↔ cleanDid p = d := by
  have hlist : d.toList.length = 10 := by rw [String.length_toList, hten]
  refine ⟨?_, fun p => formatDid_cleanDid_iff p hlist⟩
  have hall : d.toList.all Char.isDigit = true := List.all_eq_true.mpr hdigits
  simp only [findByLocation, hall, hten, if_true]
  rw [if_neg (by decide)]
  refine congrArg (fun found => Except.ok (LocationAnswer.byText found _ _)) ?_
  refine List.filter_congr fun c _ => ?_
  simp only [ListedContractor.phoneNumber, ListedContractor.faxNumber, Bool.decide_or,
    beq_eq_decide, shownNumber_iff _ hlist]

/-- One number as a telephone number, as a fax number and with dots. -/
def threeContractors : Table ListedContractor :=
  Table.ofRows [⟨0, "Acme", "(973) 201-1333", "", "a@acme.com"⟩,
    ⟨0, "Best", "201-1333", "973 201 1333 x5", "b@best.com"⟩,
    ⟨0, "Cool", "9732011334", "973.201.1333", "c@cool.com"⟩]

section
attribute [local instance] Numbers.exact

theorem find_by_number_spellings :
    findByLocation (fun _ _ => (none : Option Unit)) Char.toLower threeContractors none
      (some "9732011333") =
        .ok (.byText [⟨1, "Acme", "(973) 201-1333", "", "a@acme.com"⟩,
          ⟨2, "Best", "201-1333", "973 201 1333 x5", "b@best.com"⟩]
          "(973) 201-1333" "Phone/Fax number") := by
  have hdigits : ∀ c ∈ "9732011333".toList, c.isDigit = true :=
    List.all_eq_true.mp (by decide +kernel)
  have hfound : (threeContractors.rows.filter fun c =>
      cleanDid c.phone = "9732011333" ∨ cleanDid c.fax = "9732011333") =
      [⟨1, "Acme", "(973) 201-1333", "", "a@acme.com"⟩,
        ⟨2, "Best", "201-1333", "973 201 1333 x5", "b@best.com"⟩] := by decide +kernel
  have hshown : formatDid "9732011333" = "(973) 201-1333" := by decide +kernel
  rw [(find_by_number_exact _ Char.toLower threeContractors none "9732011333" rfl hdigits).1,
    hfound, hshown]

end

/-! ## Printed numbers -/

/-- Taking a word out is `gsub` by nothing. -/
theorem removeAll_wordAt {word : List Char} (hword : word ≠ []) (prev : Option Char) (n : Nat)
    (cs : List Char) : removeAll (wordAt word) prev n cs = gsubFrom word [] n cs := by
  obtain ⟨x, word, rfl⟩ := List.exists_cons_of_ne_nil hword
  induction cs generalizing prev n with
  | nil => cases n <;> rfl
  | cons c cs ih =>
      cases n with
      | succ n => exact ih (some c) n
      | zero =>
          unfold removeAll gsubFrom wordAt
          split_ifs with h
          · exact ih (some c) word.length
          · exact congrArg (c :: ·) (ih (some c) 0)

theorem contractorIdParam_printed (n : Nat) :
    contractorIdParam (some ("33" ++ toString n)) =
      some (String.ofList (gsub "33".toList [] (Nat.toDigits 10 n))) := by
  have hpresent : presentOpt (some ("33" ++ toString n)) = true := by
    rw [presentOpt_some, blank, String.toList_append]
    rfl
  have htext : ("33" ++ toString n).toList = "33".toList ++ Nat.toDigits 10 n := by
    rw [String.toList_append, toList_toString]
  rw [contractorIdParam, if_pos hpresent, Option.getD_some, htext,
    removeAll_wordAt (by decide), ← gsub, gsub_match (by decide), List.nil_append]

theorem digitsValue_lt {ds : List Char} (h : ∀ c ∈ ds, c.isDigit = true) :
    digitsValue ds < 10 ^ ds.length := by
  induction ds using List.reverseRecOn with
  | nil => decide
  | append_singleton ds c ih =>
      have hds := ih fun x hx => h x (List.mem_append_left _ hx)
      have hc := digit_bounds (h c (by simp))
      rw [digitsValue, Nat.ofDigitChars_append, List.length_append, List.length_singleton, pow_succ]
      simp only [digitsValue] at hds
      rw [Nat.ofDigitChars_cons, Nat.ofDigitChars_nil]
      have h0 : '0'.toNat = 48 := rfl
      omega

/-- An id that loses digits becomes a smaller one. -/
theorem toI_shortened {n : Nat} {ds : List Char} (hsub : ds.Sublist (Nat.toDigits 10 n))
    (hlt : ds.length < (Nat.toDigits 10 n).length) (hne : ds ≠ []) :
    toI (String.ofList ds) < n := by
  have hdigits : ∀ c ∈ ds, c.isDigit = true := fun c hc => isDigit_of_mem_toDigits (hsub.mem hc)
  have hvalue := digitsValue_lt hdigits
  have hpow : 10 ^ ds.length ≤ n := by
    have hpos := List.length_pos_of_ne_nil hne
    by_contra hbig
    have hle := (Nat.length_toDigits_le_iff (by decide) hpos).mpr (Nat.not_le.mp hbig)
    omega
  rw [toI_digits (by rwa [String.toList_ofList]), String.toList_ofList]
  exact_mod_cast hvalue.trans_le hpow

/-- What `edit` shows for a text that is smaller than an id is another
contractor. -/
theorem contractorsEdit_ne {contractors : Table ListedContractor} {id : String}
    {c : ListedContractor} (hfound : (findByIdText contractors id).isSome = true)
    (hsmall : toI id < c.id) : contractorsEdit contractors id ≠ .ok c := by
  obtain ⟨s, hs⟩ := Option.isSome_iff_exists.mp hfound
  have hkey : (s.id : Int) = toI id := by
    have := List.find?_some hs
    exact of_decide_eq_true this
  intro h
  unfold contractorsEdit at h
  split_ifs at h with hzero
  · -- the first contractor has no larger id than the one that was found
    cases hrows : contractors.rows with
    | nil =>
        rw [hrows] at h
        cases h
    | cons first rest =>
        rw [hrows] at h
        cases h
        have hmem := List.mem_of_find?_eq_some hs
        have hincreasing := contractors.increasing
        rw [hrows] at hmem hincreasing
        rcases List.mem_cons.mp hmem with rfl | hmem
        · omega
        · have hlt : c.id < s.id := (List.pairwise_cons.mp hincreasing).1 s hmem
          omega
  · rw [findRecord, Option.bind_some, hs] at h
    cases h
    omega

/-- The printed number of a contractor leads to that contractor exactly
when its id holds no `33`. -/
theorem printed_number_selects_iff (role : Option String) (contractors : Table ListedContractor)
    (c : ListedContractor) (p : ContractorsParams) (page : Option String)
    (hrole : role ≠ some "customer" ∧ role ≠ some "sales") (hid : 1 ≤ c.id)
    (hc : c ∈ contractors.rows) (hp : p.contractorId = some c.contractorIdWithCr) :
    (contractorsIndex role contractors p page).selected contractors = .ok (some c) ↔
      ¬ "33".toList <:+: (toString c.id).toList := by
  have hparam := contractorIdParam_printed c.id
  rw [← ListedContractor.contractorIdWithCr, ← hp] at hparam
  simp only [contractorsIndex, hrole.1, hrole.2, if_false, hparam, Option.getD_some,
    toList_toString]
  by_cases hhas : "33".toList <:+: Nat.toDigits 10 c.id
  · refine iff_of_false (fun hselected => ?_) (not_not.mpr hhas)
    split_ifs at hselected with hfound
    · rw [Bool.and_eq_true] at hfound
      have hne : gsub "33".toList [] (Nat.toDigits 10 c.id) ≠ [] := by
        intro hnil
        rw [hnil] at hfound
        exact absurd hfound.1 (by decide)
      have hsmall := toI_shortened (gsub_nil_sublist _ _) (length_gsub_nil_lt (by decide) hhas) hne
      obtain ⟨d, hedit, hd⟩ := map_eq_ok.mp hselected
      cases hd
      exact contractorsEdit_ne hfound.2 hsmall hedit
    · cases hselected
  · refine iff_of_true ?_ hhas
    have hfind : contractors.find? c.id = some c := contractors.find?_key hc
    have hback : String.ofList (gsub "33".toList [] (Nat.toDigits 10 c.id)) = toString c.id := by
      rw [gsub_eq_self hhas, ← toList_toString, String.ofList_toList]
    have hbyId : findByIdText contractors (toString c.id) = some c := by
      rw [findByIdText_eq contractors (toI_toString c.id), hfind]
    have hnonzero : ¬ toI (toString c.id) = 0 := by
      rw [toI_toString]
      omega
    rw [hback, blank_toString, hbyId, if_pos (by rfl), IndexAnswer.selected, contractorsEdit,
      if_neg hnonzero, findRecord_toString hfind]
    rfl

/-- Contractors 1 and 133. -/
def twoContractors : Table ListedContractor :=
  ((Table.empty.insert ⟨0, "Acme", "", "", ""⟩).skip 131).insert ⟨0, "Best", "", "", ""⟩

theorem printed_number_selects_one :
    (contractorsIndex (some "admin") twoContractors ⟨some "331", none, none, none⟩ none).selected
      twoContractors = .ok (some ⟨1, "Acme", "", "", ""⟩) :=
  (printed_number_selects_iff (some "admin") twoContractors ⟨1, "Acme", "", "", ""⟩
    ⟨some "331", none, none, none⟩ none (by decide) (by decide) (by decide) (by decide +kernel)).mpr
      (by decide +kernel)

/-- The number of contractor 133 leads to contractor 1. -/
theorem printed_number_selects_other :
    (⟨133, "Best", "", "", ""⟩ : ListedContractor) ∈ twoContractors.rows ∧
      (⟨133, "Best", "", "", ""⟩ : ListedContractor).contractorIdWithCr = "33133" ∧
      (contractorsIndex (some "admin") twoContractors ⟨some "33133", none, none, none⟩
        none).selected
        twoContractors = .ok (some ⟨1, "Acme", "", "", ""⟩) := by
  refine ⟨by decide, by decide +kernel, ?_⟩
  have hparam : contractorIdParam (some "33133") = some "1" := by decide +kernel
  simp only [contractorsIndex, hparam]
  rfl

end HomeWarranty.Admin
