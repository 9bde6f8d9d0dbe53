/-
HomeWarranty.Leads.Duplicates — the task that deletes duplicate leads.

`change_duplicate_records_status_with_delete` reads the customers that
are not deleted, and for each of them asks again for those with his
e-mail; where there is more than one, all of them are deleted. The
outer list is read once and goes stale: a group is visited once for each
member it had, and shrinks at the first visit to the members that cannot
be saved.

`change_duplicates`: what the visits leave is one pass over the table as
it was. A customer is deleted just when he passes his validations and
shares his e-mail with another who is not deleted. No copy of a lead is
kept, and a second run changes nothing.
-/
import HomeWarranty.Records

namespace HomeWarranty.Leads

open Lib Ruby

/-! ## The task -/

/-- The status "Deleted". -/
def deletedStatus : Int := 2

/-- `status_id != 2`: NULL is neither equal nor unequal. -/
def notDeleted (c : Customer) : Bool :=
  match c.statusId with
  | none => false
  | some status => status != deletedStatus

/-- `status_id != 2 AND email = ?`: nothing is equal to NULL. -/
def hasEmail (fold : Char → Char) (email : Option String) (c : Customer) : Bool :=
  notDeleted c && email.isSome && sqlEq fold c.email email

def setDeleted (c : Customer) : Customer := { c with statusId := some deletedStatus }

/-- `s.status_id = 2; s.save` on a customer that was loaded as `s`. -/
def saveDeleted (t : Table Customer) (s : Customer) : Table Customer :=
  if (setDeleted s).valid t then t.update s.id setDeleted fun _ => rfl else t

/-- One round of the task, for one e-mail. -/
def deleteEmail (fold : Char → Char) (t : Table Customer) (email : Option String) :
    Table Customer :=
  let customers := t.rows.filter (hasEmail fold email)
  if 1 < customers.length then customers.foldl saveDeleted t else t

/-- `change_duplicate_records_status_with_delete`. -/
def changeDuplicates (fold : Char → Char) (t : Table Customer) : Table Customer :=
  ((t.rows.filter notDeleted).map Customer.email).foldl (deleteEmail fold) t

/-! ## What is deleted -/

/-- More than one customer has the e-mail of this one. -/
def crowded (fold : Char → Char) (t : Table Customer) (c : Customer) : Bool :=
  decide (1 < (t.rows.filter (hasEmail fold c.email)).length)

/-- The customers that the task deletes. -/
def duplicate (fold : Char → Char) (t : Table Customer) (c : Customer) : Bool :=
  notDeleted c && c.valid t && crowded fold t c

/-- The table with some of its customers deleted. -/
def marked (t : Table Customer) (p : Customer → Bool) : Table Customer :=
  t.updateAll p setDeleted fun _ => rfl

section
variable {t : Table Customer} {p q : Customer → Bool}

theorem rows_marked :
    (marked t p).rows = t.rows.map fun r => if p r then setDeleted r else r := rfl

theorem marked_congr (h : ∀ r ∈ t.rows, p r = q r) : marked t p = marked t q := by
  unfold marked Table.updateAll
  congr 1
  exact List.map_congr_left fun r hr => by rw [h r hr]

theorem marked_none (h : ∀ r ∈ t.rows, p r = false) : marked t p = t := by
  unfold marked Table.updateAll
  congr 1
  conv_rhs => rw [← List.map_id t.rows]
  exact List.map_congr_left fun r hr => by simp [h r hr]

/-- Deleting changes no one's validations. -/
theorem valid_marked (c : Customer) : c.valid (marked t p) = c.valid t := by
  unfold Customer.valid
  rw [rows_marked, List.any_map]
  congr 4
  funext r
  simp only [Function.comp]
  split <;> rfl

theorem hasEmail_setDeleted (fold : Char → Char) (email : Option String) (c : Customer) :
    hasEmail fold email (setDeleted c) = false := rfl

/-- Those with an e-mail are those that had it and were not deleted. -/
theorem filter_marked (fold : Char → Char) (email : Option String) :
    (marked t p).rows.filter (hasEmail fold email)
      = t.rows.filter fun r => hasEmail fold email r && !p r := by
  rw [rows_marked]
  induction t.rows with
  | nil => rfl
  | cons r rs ih =>
      cases hp : p r <;> simp [hp, ih, List.filter_cons, hasEmail_setDeleted]

/-- One save more. -/
theorem saveDeleted_marked (s : Customer) :
    saveDeleted (marked t p) s = marked t fun r => p r || (r.id == s.id && s.valid t) := by
  have hvalid : (setDeleted s).valid (marked t p) = s.valid t := valid_marked s
  unfold saveDeleted
  rw [hvalid]
  cases s.valid t with
  | false => simp
  | true =>
      show (marked t p).update s.id setDeleted (fun _ => rfl) = _
      unfold marked Table.updateAll Table.update
      congr 1
      simp only [List.map_map]
      refine List.map_congr_left fun r _ => ?_
      have hkey : Record.key (if p r then setDeleted r else r) = r.id := by split <;> rfl
      simp only [Function.comp, hkey]
      by_cases hid : r.id = s.id <;> by_cases hp : p r = true <;> simp [hid, hp, setDeleted]

theorem foldl_saveDeleted_marked (l : List Customer) :
    l.foldl saveDeleted (marked t p)
      = marked t fun r => p r || l.any fun s => r.id == s.id && s.valid t := by
  induction l generalizing p with
  | nil => simp
  | cons s l ih =>
      rw [List.foldl_cons, saveDeleted_marked, ih]
      exact marked_congr fun r _ => by rw [List.any_cons, Bool.or_assoc]

/-- A row of the table is in a list of its rows when its key is. -/
theorem any_filter_id (t : Table Customer) {r : Customer} (hr : r ∈ t.rows)
    (has ok : Customer → Bool) :
    ((t.rows.filter has).any fun s => r.id == s.id && ok s) = (has r && ok r) := by
  rw [Bool.eq_iff_iff, List.any_eq_true, Bool.and_eq_true]
  constructor
  · rintro ⟨s, hs, h⟩
    obtain ⟨hid, hok⟩ := (Bool.and_eq_true _ _).mp h
    obtain ⟨hs, hhas⟩ := List.mem_filter.mp hs
    obtain rfl := t.eq_of_key_eq hr hs (eq_of_beq hid)
    exact ⟨hhas, hok⟩
  · rintro ⟨hhas, hok⟩
    exact ⟨r, List.mem_filter.mpr ⟨hr, hhas⟩, by simp [hok]⟩

/-- One round more. -/
theorem deleteEmail_marked (fold : Char → Char) (email : Option String) :
    deleteEmail fold (marked t p) email
      = marked t fun r => p r || (hasEmail fold email r && r.valid t &&
          decide (1 < (t.rows.filter fun r => hasEmail fold email r && !p r).length)) := by
  unfold deleteEmail
  simp only [filter_marked]
  split_ifs with hlen
  · rw [foldl_saveDeleted_marked]
    refine marked_congr fun r hr => ?_
    rw [any_filter_id t hr]
    cases hp : p r <;> simp [hlen]
  · refine marked_congr fun r hr => ?_
    simp [hlen]

end

/-! ## The rounds together -/

section
variable {fold : Char → Char} {t : Table Customer} {p : Customer → Bool}

theorem hasEmail_iff {email : Option String} {c : Customer} :
    hasEmail fold email c = true ↔
      notDeleted c = true ∧ email ≠ none ∧ sqlEq fold c.email email = true := by
  unfold hasEmail
  rw [Bool.and_eq_true, Bool.and_eq_true, Option.isSome_iff_ne_none, and_assoc]

/-- Two that have one e-mail have each other's. -/
theorem hasEmail_iff_of_hasEmail {email : Option String} {r s : Customer}
    (hr : hasEmail fold email r = true) : hasEmail fold r.email s = hasEmail fold email s := by
  obtain ⟨-, hsome, heq⟩ := hasEmail_iff.mp hr
  rw [sqlEq_iff] at heq
  rw [Bool.eq_iff_iff, hasEmail_iff, hasEmail_iff, sqlEq_iff, sqlEq_iff, heq]
  refine and_congr_right fun _ => and_congr_left fun _ => iff_of_true ?_ hsome
  intro hnone
  rw [hnone] at heq
  cases email with
  | none => exact hsome rfl
  | some email => cases heq

/-- After some rounds: only duplicates are deleted, and of one e-mail
all of them or none. -/
structure Swept (fold : Char → Char) (t : Table Customer) (p : Customer → Bool) : Prop where
  sound : ∀ r, p r = true → duplicate fold t r = true
  together : ∀ r s, p s = true → duplicate fold t r = true → hasEmail fold s.email r = true →
    p r = true

theorem hasEmail_self {c : Customer} (hnot : notDeleted c = true) (hemail : c.email ≠ none) :
    hasEmail fold c.email c = true :=
  hasEmail_iff.mpr ⟨hnot, hemail, sqlEq_iff.mpr rfl⟩

theorem duplicate_iff {c : Customer} :
    duplicate fold t c = true ↔
      notDeleted c = true ∧ c.valid t = true ∧
        1 < (t.rows.filter (hasEmail fold c.email)).length := by
  unfold duplicate crowded
  rw [Bool.and_eq_true, Bool.and_eq_true, decide_eq_true_iff, and_assoc]

/-- Who passes his validations has an e-mail. -/
theorem email_ne_none_of_valid {c : Customer} (h : c.valid t = true) : c.email ≠ none := by
  intro hnone
  unfold Customer.valid at h
  rw [hnone] at h
  simp [presentOpt] at h

/-- What one round adds is what it would add to the table as it was. -/
theorem Swept.round_iff (h : Swept fold t p) {email : Option String} {r : Customer} :
    (p r || (hasEmail fold email r && r.valid t &&
        decide (1 < (t.rows.filter fun r => hasEmail fold email r && !p r).length))) = true ↔
      p r = true ∨ (hasEmail fold email r = true ∧ duplicate fold t r = true) := by
  rw [Bool.or_eq_true, Bool.and_eq_true, Bool.and_eq_true, decide_eq_true_iff]
  refine or_congr_right' fun hp => ?_
  have hgroup (hr : hasEmail fold email r = true) :
      t.rows.filter (hasEmail fold r.email) = t.rows.filter (hasEmail fold email) := by
    refine List.filter_congr fun s _ => hasEmail_iff_of_hasEmail hr
  constructor
  · rintro ⟨⟨hr, hvalid⟩, hlen⟩
    refine ⟨hr, duplicate_iff.mpr ⟨(hasEmail_iff.mp hr).1, hvalid, ?_⟩⟩
    rw [hgroup hr]
    refine lt_of_lt_of_le hlen (List.Sublist.length_le ?_)
    refine List.monotone_filter_right t.rows fun s hs => ?_
    exact ((Bool.and_eq_true _ _).mp hs).1
  · rintro ⟨hr, hdup⟩
    obtain ⟨-, hvalid, hlen⟩ := duplicate_iff.mp hdup
    refine ⟨⟨hr, hvalid⟩, ?_⟩
    -- `r` is not deleted yet, so nobody of its e-mail is
    have hnone : ∀ s ∈ t.rows, (hasEmail fold email s && !p s) = hasEmail fold email s := by
      intro s _
      cases hs : hasEmail fold email s with
      | false => rfl
      | true =>
          cases hps : p s with
          | false => rfl
          | true =>
              refine absurd (h.together r s hps hdup ?_) hp
              rwa [hasEmail_iff_of_hasEmail hs]
    rw [List.filter_congr hnone, ← hgroup hr]
    exact hlen

/-- One round keeps it. -/
theorem Swept.round (h : Swept fold t p) (email : Option String) :
    Swept fold t fun r => p r || (hasEmail fold email r && r.valid t &&
      decide (1 < (t.rows.filter fun r => hasEmail fold email r && !p r).length)) where
  sound := by
    intro r hr
    rcases h.round_iff.mp hr with hp | ⟨-, hdup⟩
    · exact h.sound r hp
    · exact hdup
  together := by
    intro r s hs hdup hrs
    rcases h.round_iff.mp hs with hp | ⟨hemail, -⟩
    · exact h.round_iff.mpr (.inl (h.together r s hp hdup hrs))
    · refine h.round_iff.mpr (.inr ⟨?_, hdup⟩)
      rwa [hasEmail_iff_of_hasEmail hemail] at hrs

/-- The rounds delete the duplicates among those they visit. -/
theorem foldl_deleteEmail (h : Swept fold t p) (emails : List (Option String)) :
    emails.foldl (deleteEmail fold) (marked t p)
      = marked t fun r => p r ||
          (duplicate fold t r && emails.any fun email => hasEmail fold email r) := by
  induction emails generalizing p with
  | nil => simp
  | cons email emails ih =>
      rw [List.foldl_cons, deleteEmail_marked, ih (h.round email)]
      refine marked_congr fun r _ => ?_
      rw [Bool.eq_iff_iff, Bool.or_eq_true, h.round_iff]
      simp only [List.any_cons, Bool.or_eq_true, Bool.and_eq_true]
      tauto

theorem changeDuplicates_eq (t : Table Customer) :
    changeDuplicates fold t = marked t (duplicate fold t) := by
  have hswept : Swept fold t fun _ => false :=
    ⟨fun _ h => absurd h Bool.false_ne_true, fun _ _ h => absurd h Bool.false_ne_true⟩
  have hstart : marked t (fun _ => false) = t := marked_none fun _ _ => rfl
  have h := foldl_deleteEmail hswept ((t.rows.filter notDeleted).map Customer.email)
  rw [hstart] at h
  unfold changeDuplicates
  rw [h]
  refine marked_congr fun r hr => ?_
  rw [Bool.false_or, Bool.and_eq_left_iff_imp]
  intro hdup
  obtain ⟨hnot, hvalid, -⟩ := duplicate_iff.mp hdup
  refine List.any_eq_true.mpr ⟨r.email, List.mem_map.mpr ⟨r, ?_, rfl⟩, ?_⟩
  · exact List.mem_filter.mpr ⟨hr, hnot⟩
  · exact hasEmail_self hnot (email_ne_none_of_valid hvalid)

/-- After the task there is no duplicate. -/
theorem duplicate_marked (t : Table Customer) :
    ∀ r ∈ (marked t (duplicate fold t)).rows,
      duplicate fold (marked t (duplicate fold t)) r = false := by
  intro r hr
  rw [rows_marked] at hr
  obtain ⟨s, hs, rfl⟩ := List.mem_map.mp hr
  cases hdup : duplicate fold t s with
  | true => rfl
  | false =>
      rw [Bool.eq_false_iff] at hdup ⊢
      refine fun h => hdup ?_
      obtain ⟨hnot, hvalid, hlen⟩ := duplicate_iff.mp h
      rw [valid_marked] at hvalid
      rw [filter_marked] at hlen
      refine duplicate_iff.mpr ⟨hnot, hvalid, lt_of_lt_of_le hlen (List.Sublist.length_le ?_)⟩
      refine List.monotone_filter_right t.rows fun s hs => ?_
      exact ((Bool.and_eq_true _ _).mp hs).1

/-- The task deletes the customers that pass their validations and share
their e-mail with another who is not deleted, and no others; after it
there are none, and the next run changes nothing. -/
theorem change_duplicates (fold : Char → Char) (t : Table Customer) :
    (changeDuplicates fold t).rows
        = t.rows.map (fun r =>
            if notDeleted r && r.valid t &&
                decide (1 < (t.rows.filter (hasEmail fold r.email)).length)
            then { r with statusId := some 2 } else r) ∧
      changeDuplicates fold (changeDuplicates fold t) = changeDuplicates fold t := by
  refine ⟨by rw [changeDuplicates_eq]; rfl, ?_⟩
  rw [changeDuplicates_eq, changeDuplicates_eq]
  exact marked_none (duplicate_marked t)

end

/-- Two leads with one e-mail: both are deleted. -/
example :
    let lead : Customer := { Customer.new with
      firstName := some "Ann", lastName := some "Lee", customerPhone := some "5550100",
      email := some "ann@example.com" }
    ((changeDuplicates Char.toLower (.ofRows [lead, lead])).rows.map Customer.statusId)
      = [some 2, some 2] := by
  decide +kernel

end HomeWarranty.Leads
