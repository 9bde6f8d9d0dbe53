/-
HomeWarranty.Output.Phone — telephone numbers: how they are shown, how
they are compared.

`clean_phone_number` and `clean_did` take four kinds of marks out and
keep ten characters of what is left. The queries take five kinds out: the
dot is among them. A dot in front of a digit therefore takes the place of
a digit in what is shown, while the searches find the number in every
spelling: `phone_normalisers_iff`.

A number that is too short to be shown in three groups is shown as it was
entered, and a number that is shown already stays as it is:
`clean_phone_number_idempotent`.
-/
import HomeWarranty.Admin.NumberSearch
import HomeWarranty.Ruby.Gsub

namespace HomeWarranty.Output

open Ruby
open Admin (SearchContractor phoneMark replaceMarks stripMarks)

/-! ## What is shown -/

/-- The four rewrites that both functions begin with. -/
def withoutMarks (did : List Char) : List Char :=
  gsub ['-'] [] (gsub [' '] [] (gsub [')'] [] (gsub ['('] [] did)))

/-- `clean_did`. -/
def cleanDid (did : String) : String :=
  let formattedDid := withoutMarks did.toList
  String.ofList (if formattedDid.length ≠ 10 then formattedDid.take 10 else formattedDid)

/-- `String#insert`, which fails behind the end. -/
def insert (i : Nat) (c : Char) (cs : List Char) : Option (List Char) :=
  if i ≤ cs.length then some (cs.take i ++ c :: cs.drop i) else none

/-- `clean_phone_number`: the same two lines, and the dashes. What cannot
be formatted is given back, `nil` too. -/
def cleanPhoneNumber (did : Option String) : Option String :=
  match did with
  | none => none
  | some s =>
      match (insert 6 '-' (cleanDid s).toList).bind (insert 3 '-') with
      | some formattedDid => some (String.ofList formattedDid)
      | none => some s

example : cleanPhoneNumber (some "(973) 201-1333 x5") = some "973-201-1333" ∧
    cleanPhoneNumber (some "973.201.1333") = some "973-.20-1.13" ∧
    cleanPhoneNumber (some "(911)") = some "(911)" := by decide +kernel

/-- The marks that are taken out. -/
def shownMark (c : Char) : Bool := c == '(' || c == ')' || c == ' ' || c == '-'

theorem withoutMarks_eq (did : List Char) :
    withoutMarks did = did.filter fun c => !shownMark c := by
  simp only [withoutMarks, gsub_delete, List.filter_filter]
  congr 1
  funext c
  simp only [shownMark, bne, Bool.not_or]
  cases c == '(' <;> cases c == ')' <;> cases c == ' ' <;> cases c == '-' <;> rfl

theorem toList_cleanDid (did : String) :
    (cleanDid did).toList = (did.toList.filter fun c => !shownMark c).take 10 := by
  rw [cleanDid, String.toList_ofList, withoutMarks_eq]
  split_ifs with h
  · rfl
  · rw [List.take_of_length_le (Nat.le_of_eq (not_not.mp h))]

/-- Three groups with dashes between them. -/
def grouped (cs : List Char) : List Char :=
  cs.take 3 ++ '-' :: ((cs.drop 3).take 3 ++ '-' :: cs.drop 6)

theorem insert_dashes (cs : List Char) :
    (insert 6 '-' cs).bind (insert 3 '-') = if 6 ≤ cs.length then some (grouped cs) else none := by
  unfold insert
  split_ifs with h
  · have hlen : 3 ≤ (cs.take 6 ++ '-' :: cs.drop 6).length := by
      simp only [List.length_append, List.length_take, List.length_cons]
      omega
    have hsix : 3 ≤ (cs.take 6).length := by
      rw [List.length_take]
      omega
    have htake : (cs.take 6 ++ '-' :: cs.drop 6).take 3 = cs.take 3 := by
      rw [List.take_append_of_le_length hsix, List.take_take]
      rfl
    have hdrop :
        (cs.take 6 ++ '-' :: cs.drop 6).drop 3 = (cs.drop 3).take 3 ++ '-' :: cs.drop 6 := by
      rw [List.drop_append_of_le_length hsix, List.drop_take]
    rw [Option.bind_some, if_pos hlen, htake, hdrop, grouped]
  · rfl

theorem cleanPhoneNumber_some (s : String) :
    cleanPhoneNumber (some s) = some (if 6 ≤ (cleanDid s).toList.length
      then String.ofList (grouped (cleanDid s).toList) else s) := by
  rw [cleanPhoneNumber, insert_dashes]
  split_ifs <;> rfl

/-- The dashes are taken out again. -/
theorem filter_grouped {cs : List Char} (h : ∀ c ∈ cs, shownMark c = false) :
    (grouped cs).filter (fun c => !shownMark c) = cs := by
  have hkeep : ∀ {l : List Char}, (∀ c ∈ l, c ∈ cs) → l.filter (fun c => !shownMark c) = l := by
    intro l hl
    rw [List.filter_eq_self]
    intro c hc
    rw [h c (hl c hc)]
    rfl
  have hdash : shownMark '-' = true := rfl
  have hparts : cs.take 3 ++ ((cs.drop 3).take 3 ++ cs.drop 6) = cs := by
    rw [show cs.drop 6 = (cs.drop 3).drop 3 by rw [List.drop_drop], List.take_append_drop,
      List.take_append_drop]
  simp only [grouped, List.filter_append, List.filter_cons, hdash]
  rw [hkeep fun c hc => List.mem_of_mem_take hc,
    hkeep fun c hc => List.mem_of_mem_drop (List.mem_of_mem_take hc),
    hkeep fun c hc => List.mem_of_mem_drop hc]
  simpa using hparts

/-- What is shown is shown again as it is. -/
theorem clean_phone_number_idempotent (did : Option String) :
    cleanPhoneNumber (cleanPhoneNumber did) = cleanPhoneNumber did := by
  cases did with
  | none => rfl
  | some s =>
      rw [cleanPhoneNumber_some]
      by_cases h : 6 ≤ (cleanDid s).toList.length
      · have hmarks : ∀ c ∈ (cleanDid s).toList, shownMark c = false := by
          intro c hc
          rw [toList_cleanDid] at hc
          simpa using (List.mem_filter.mp (List.mem_of_mem_take hc)).2
        have hlen : (cleanDid s).toList.length ≤ 10 := by
          rw [toList_cleanDid]
          exact List.length_take_le 10 _
        have hagain : (cleanDid (String.ofList (grouped (cleanDid s).toList))).toList =
            (cleanDid s).toList := by
          rw [toList_cleanDid, String.toList_ofList, filter_grouped hmarks,
            List.take_of_length_le hlen]
        rw [if_pos h, cleanPhoneNumber_some, hagain, if_pos h]
      · -- too short: the number itself is shown, and is too short again
        rw [if_neg h, cleanPhoneNumber_some, if_neg h]

/-! ## What is compared -/

section
variable (fold : Char → Char)

/-- `Customer.telecom_number_strip_condition`, on one column. -/
def telecomNumberStripCondition (column : Option String) (value : String) : Bool :=
  sqlEq fold (column.map replaceMarks) (some (stripMarks value))

/-- `Customer.with_phone`. -/
def withPhone (customers : List Customer) (p : String) : List Customer :=
  customers.filter fun c => sqlLikeOpt fold (stripMarks p) (c.customerPhone.map replaceMarks)

/-- `Contractor.with_fax`. -/
def withFax (contractors : List SearchContractor) (f : String) : List SearchContractor :=
  contractors.filter fun k => sqlEq fold (k.fax.map replaceMarks) (some (stripMarks f))

end

/-- The digits of a number. -/
def phoneDigits (s : String) : List Char := s.toList.filter Char.isDigit

/-- Digits and separators, ten of them digits. -/
def PhoneSpelling (s : String) : Prop :=
  (∀ c ∈ s.toList, c.isDigit = true ∨ c ∈ ['(', ')', '.', '-', ' ']) ∧ (phoneDigits s).length = 10

instance (s : String) : Decidable (PhoneSpelling s) :=
  @instDecidableAnd _ _ (List.decidableBAll _ s.toList) inferInstance

/-- Every normaliser finds the ten digits, and the searches find the
number in every spelling. -/
structure PhoneNormalised (s : String) : Prop where
  cleanDid : (cleanDid s).toList = phoneDigits s
  shown : cleanPhoneNumber (some s) = some (String.ofList (grouped (phoneDigits s)))
  replaced : (replaceMarks s).toList = phoneDigits s
  stripped : (stripMarks s).toList = phoneDigits s
  condition : ∀ fold q, PhoneSpelling q → phoneDigits q = phoneDigits s →
    telecomNumberStripCondition fold (some s) q = true
  withPhone : ∀ fold customers q, PhoneSpelling q → phoneDigits q = phoneDigits s →
    ∀ c ∈ customers, c.customerPhone = some s → c ∈ withPhone fold customers q
  withFax : ∀ fold contractors q, PhoneSpelling q → phoneDigits q = phoneDigits s →
    ∀ k ∈ contractors, k.fax = some s → k ∈ withFax fold contractors q

/-- No dot has a digit behind it. -/
def NoDotBeforeDigit (s : String) : Prop :=
  ∀ pre post, s.toList = pre ++ '.' :: post → ∀ c ∈ post, c.isDigit = false

section
variable {s : String}

theorem digit_ne {c : Char} (h : c.isDigit = true) (x : Char) (hx : x.isDigit = false) : c ≠ x := by
  rintro rfl
  rw [h] at hx
  cases hx

theorem digit_not_mark {c : Char} (h : c.isDigit = true) :
    phoneMark c = false ∧ regexSpace c = false ∧ shownMark c = false ∧ c ≠ ' ' := by
  simp [phoneMark, regexSpace, shownMark, digit_ne h]

/-- A filter that drops the separators and keeps the digits. -/
theorem filter_spelling (h : PhoneSpelling s) {keep : Char → Bool}
    (hdigit : ∀ c, c.isDigit = true → keep c = true)
    (hmark : ∀ c ∈ ['(', ')', '.', '-', ' '], keep c = false) :
    s.toList.filter keep = phoneDigits s := by
  refine List.filter_congr fun c hc => ?_
  rcases h.1 c hc with hd | hm
  · rw [hd, hdigit c hd]
  · have hnodigit : c.isDigit = false := by
      simp only [List.mem_cons, List.not_mem_nil, or_false] at hm
      rcases hm with rfl | rfl | rfl | rfl | rfl <;> rfl
    rw [hmark c hm, hnodigit]

theorem toList_replaceMarks (h : PhoneSpelling s) : (replaceMarks s).toList = phoneDigits s := by
  rw [replaceMarks, String.toList_ofList]
  refine filter_spelling h ?_ ?_
  · intro c hc
    obtain ⟨hmark, _, _, hblank⟩ := digit_not_mark hc
    simp [hmark, hblank]
  · intro c hc
    simp only [List.mem_cons, List.not_mem_nil, or_false] at hc
    rcases hc with rfl | rfl | rfl | rfl | rfl <;> rfl

theorem toList_stripMarks (h : PhoneSpelling s) : (stripMarks s).toList = phoneDigits s := by
  rw [stripMarks, String.toList_ofList]
  refine filter_spelling h ?_ ?_
  · intro c hc
    obtain ⟨hmark, hspace, _, _⟩ := digit_not_mark hc
    simp [hmark, hspace]
  · intro c hc
    simp only [List.mem_cons, List.not_mem_nil, or_false] at hc
    rcases hc with rfl | rfl | rfl | rfl | rfl <;> rfl

/-- A text of digits is LIKE itself. -/
theorem sqlLike_digits (fold : Char → Char) {ds : List Char} (h : ∀ c ∈ ds, c.isDigit = true) :
    sqlLike fold ds ds = true := by
  induction ds with
  | nil => rfl
  | cons c ds ih =>
      obtain ⟨hc, hds⟩ := List.forall_mem_cons.mp h
      rw [sqlLike]
      · simp [ih hds]
      · exact digit_ne hc '%' rfl
      · exact digit_ne hc '_' rfl
      · intro d ps hbackslash
        exact absurd hbackslash (digit_ne hc '\\' rfl)

/-- Two spellings of one number are the same for every query. -/
theorem marks_eq (hs : PhoneSpelling s) {q : String} (hq : PhoneSpelling q)
    (heq : phoneDigits q = phoneDigits s) : stripMarks q = replaceMarks s := by
  apply String.toList_injective
  rw [toList_stripMarks hq, toList_replaceMarks hs, heq]

/-- What `clean_did` and `clean_phone_number` keep: a dot stays. -/
def keptChar (c : Char) : Bool := c.isDigit || c == '.'

theorem toList_cleanDid_spelling (h : PhoneSpelling s) :
    (cleanDid s).toList = (s.toList.filter keptChar).take 10 := by
  rw [toList_cleanDid]
  congr 1
  refine List.filter_congr fun c hc => ?_
  rcases h.1 c hc with hd | hm
  · rw [(digit_not_mark hd).2.2.1, keptChar, hd]
    rfl
  · simp only [List.mem_cons, List.not_mem_nil, or_false] at hm
    rcases hm with rfl | rfl | rfl | rfl | rfl <;> rfl

/-- The first characters that are kept are the digits where no dot comes
in between. -/
theorem take_kept_iff (cs : List Char) :
    (cs.filter keptChar).take (cs.filter Char.isDigit).length = cs.filter Char.isDigit ↔
      ∀ pre post, cs = pre ++ '.' :: post → ∀ c ∈ post, c.isDigit = false := by
  induction cs with
  | nil => simp
  | cons c cs ih =>
      have htail : (∀ pre post, c :: cs = pre ++ '.' :: post → ∀ x ∈ post, x.isDigit = false) ↔
          (c = '.' → ∀ x ∈ cs, x.isDigit = false) ∧
            ∀ pre post, cs = pre ++ '.' :: post → ∀ x ∈ post, x.isDigit = false := by
        constructor
        · intro h
          refine ⟨fun hc => h [] cs (by rw [hc]; rfl), fun pre post heq => ?_⟩
          exact h (c :: pre) post (by rw [heq]; rfl)
        · rintro ⟨hfirst, hrest⟩ pre post heq
          cases pre with
          | nil =>
              obtain ⟨hc, rfl⟩ := List.cons.inj heq
              exact hfirst hc
          | cons p pre => exact hrest pre post (List.cons.inj heq).2
      rw [htail, ← ih]
      by_cases hd : c.isDigit = true
      · simp [keptChar, hd, digit_ne hd '.' rfl]
      · by_cases hdot : c = '.'
        · subst hdot
          have hkept : ('.' :: cs).filter keptChar = '.' :: cs.filter keptChar := rfl
          have hdigits : ('.' :: cs).filter Char.isDigit = cs.filter Char.isDigit := rfl
          rw [hkept, hdigits]
          -- a digit behind the dot would have to stand in its place
          cases hlist : cs.filter Char.isDigit with
          | nil =>
              have hnone : ∀ x ∈ cs, x.isDigit = false := by
                intro x hx
                simpa using List.filter_eq_nil_iff.mp hlist x hx
              exact iff_of_true rfl ⟨fun _ => hnone, rfl⟩
          | cons x ds =>
              have hx : x ∈ cs.filter Char.isDigit := hlist ▸ List.mem_cons_self
              obtain ⟨hmem, hxd⟩ := List.mem_filter.mp hx
              refine iff_of_false ?_ ?_
              · intro heq
                rw [List.length_cons, List.take_succ_cons] at heq
                rw [← (List.cons.inj heq).1] at hxd
                cases hxd
              · rintro ⟨hfirst, _⟩
                rw [hfirst rfl x hmem] at hxd
                cases hxd
        · simp [keptChar, hd, hdot]

theorem cleanDid_iff (h : PhoneSpelling s) :
    (cleanDid s).toList = phoneDigits s ↔ NoDotBeforeDigit s := by
  rw [toList_cleanDid_spelling h, ← h.2]
  exact take_kept_iff s.toList

end

/-- The normalisers agree, and every search finds the number, exactly when
no dot stands before a digit. -/
theorem phone_normalisers_iff {s : String} (h : PhoneSpelling s) :
    PhoneNormalised s ↔ NoDotBeforeDigit s := by
  refine ⟨fun hall => (cleanDid_iff h).mp hall.cleanDid, fun hdot => ?_⟩
  have hclean := (cleanDid_iff h).mpr hdot
  have hten : 6 ≤ (phoneDigits s).length := by
    rw [h.2]
    decide
  constructor
  · exact hclean
  · rw [cleanPhoneNumber_some, hclean, if_pos hten]
  · exact toList_replaceMarks h
  · exact toList_stripMarks h
  · intro fold q hq heq
    rw [telecomNumberStripCondition, marks_eq h hq heq, sqlEq_iff, Option.map_some]
  · intro fold customers q hq heq c hc hphone
    refine List.mem_filter.mpr ⟨hc, ?_⟩
    rw [hphone, marks_eq h hq heq, Option.map_some, sqlLikeOpt, toList_replaceMarks h]
    exact sqlLike_digits fold fun c hc => (List.mem_filter.mp hc).2
  · intro fold contractors q hq heq k hk hfax
    refine List.mem_filter.mpr ⟨hk, ?_⟩
    rw [hfax, marks_eq h hq heq, sqlEq_iff, Option.map_some]

theorem phone_normalisers_iff_dashed :
    PhoneSpelling "(973) 201-1333" ∧ PhoneNormalised "(973) 201-1333" := by
  have hspelling : PhoneSpelling "(973) 201-1333" := by decide +kernel
  refine ⟨hspelling, (phone_normalisers_iff hspelling).mpr ?_⟩
  intro pre post heq
  have hmem : '.' ∈ "(973) 201-1333".toList := by
    rw [heq]
    simp
  exact absurd hmem (by decide +kernel)

/-- Two dots take the place of two digits. -/
theorem phone_normalisers_dotted :
    PhoneSpelling "973.201.1333" ∧ cleanDid "973.201.1333" = "973.201.13" ∧
    cleanPhoneNumber (some "973.201.1333") = some "973-.20-1.13" ∧
    ¬ PhoneNormalised "973.201.1333" := by
  have hclean : cleanDid "973.201.1333" = "973.201.13" := by decide +kernel
  refine ⟨by decide +kernel, hclean, by decide +kernel, fun h => ?_⟩
  have hdigits := h.cleanDid
  rw [hclean] at hdigits
  revert hdigits
  decide +kernel

end HomeWarranty.Output
