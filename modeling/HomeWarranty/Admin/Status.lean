/-
HomeWarranty.Admin.Status — the statuses of customers and of claims, and
the numbers that customers and claims refer to them by.

A status has a number, `csid`, besides its key. A new status gets the
number after that of the last status there is. So a number comes again
when the last status was destroyed, and whoever still has it gets the
label of the new status. `status_ids_never_reused` says what keeps this
from happening: that whenever a status is created its number is greater
than all numbers there were, `CreatesAbove`.

The numbers there were are not in the database. `Ledger` records them
beside it.
-/
import HomeWarranty.Admin.CustomerEdit

namespace HomeWarranty.Admin

open Lib Ruby

/-! ## Statuses -/

/-- `CustomerStatus` or `ClaimStatus`. -/
inductive StatusKind where
  | customer
  | claim
  deriving DecidableEq

/-- A row of `customer_statuses` or `claim_statuses`. -/
structure StatusRow where
  id : Nat
  csid : Option Int
  code : Option String
  status : Option String
  active : Option Bool
  url : Option String
  deriving DecidableEq

instance : Record StatusRow where
  key := StatusRow.id
  withKey n r := { r with id := n }
  key_withKey := fun _ _ => rfl

/-- The validations: code and status are there, and no other row has
them (`BINARY`). -/
def StatusRow.valid (t : Table StatusRow) (r : StatusRow) : Bool :=
  presentOpt r.code && presentOpt r.status &&
    !t.rows.any fun o => o.id != r.id && (o.status == r.status || o.code == r.code)

/-- The posted attributes, without `csid`. A key may be missing, and its
value may be `nil`. -/
structure StatusForm where
  code : Option (Option String)
  status : Option (Option String)
  active : Option (Option String)
  url : Option (Option String)

/-- `status.attributes = params`. -/
def StatusForm.assign (form : StatusForm) (r : StatusRow) : StatusRow :=
  { r with
    code := form.code.getD r.code
    status := form.status.getD r.status
    active := (form.active.map castBoolean).getD r.active
    url := form.url.getD r.url }

/-- `generate_status_url`, which runs after every save of a customer's
status. -/
def statusUrl (kind : StatusKind) (r : StatusRow) : Option String :=
  if kind = .customer ∧ presentOpt r.url = false then
    some ("/admin/customers/list/" ++
      String.ofList ((r.status.getD "").toList.filter (· != ' ')))
  else r.url

/-- `UPDATE` of the columns that changed. -/
def StatusRow.write (kind : StatusKind) (row now : StatusRow) : StatusRow :=
  { row with
    code := writtenText row.code now.code
    status := writtenText row.status now.status
    active := now.active
    url := writtenText row.url (statusUrl kind now) }

/-- `status.save`. -/
def saveStatus (kind : StatusKind) (t : Table StatusRow) (now : StatusRow) : Table StatusRow :=
  if now.valid t then t.update now.id (fun row => row.write kind now) (fun _ => rfl) else t

/-! ## Requests -/

inductive Toggle where
  | enable
  | disable
  | other
  deriving DecidableEq

inductive StatusRequest where
  | create (form : StatusForm)
  | update (id : Nat) (form : StatusForm)
  | disable (id : Nat) (type : Toggle)
  | destroy (id : Nat)

/-- The number of the next status. Without any status, there is no
number to go by for customers. -/
def nextCsid (kind : StatusKind) (t : Table StatusRow) : Option Int :=
  match t.rows.getLast?, kind with
  | none, .customer => none
  | none, .claim => some 0
  | some last, _ => some (last.csid.getD 0 + 1)

/-- The status that is created. -/
def newStatus (kind : StatusKind) (t : Table StatusRow) (form : StatusForm) (csid : Int) :
    StatusRow :=
  let now := form.assign ⟨t.nextKey, some csid, none, none, none, none⟩
  { now with
    csid := some (storeInt csid)
    code := now.code.map textColumn
    status := now.status.map textColumn
    url := (statusUrl kind now).map textColumn }

/-- The form is accepted. -/
def acceptsNew (t : Table StatusRow) (form : StatusForm) : Bool :=
  StatusRow.valid t (form.assign ⟨t.nextKey, none, none, none, none, none⟩)

/-- The table after a request to `create`, `update`, `disable` or
`destroy`. -/
def statusStep (kind : StatusKind) (t : Table StatusRow) : StatusRequest → Table StatusRow
  | .create form =>
      match nextCsid kind t with
      | none => t
      | some csid => if acceptsNew t form then t.insert (newStatus kind t form csid) else t
  | .update id form =>
      match t.find? id with
      | none => t
      | some r => saveStatus kind t (form.assign r)
  | .disable id type =>
      match t.find? id, type with
      | none, _ => t
      | some r, .disable => saveStatus kind t { r with active := some false }
      | some r, .enable => saveStatus kind t { r with active := some true }
      | some r, .other => saveStatus kind t r
  | .destroy id =>
      match t.find? id with
      | none => t
      | some r => t.delete r.id

/-! ## Labels -/

/-- The status with a number, of those that are active:
`statuses.rassoc(csid)`. A claim without a number has none. -/
def statusFor (kind : StatusKind) (t : Table StatusRow) (csid : Option Int) : Option StatusRow :=
  if kind = .claim ∧ csid = none then none
  else (t.rows.filter fun r => r.active == some true).find? fun r => r.csid == csid

/-- `c_status` of a customer, `status` of a claim. -/
def statusLabel (kind : StatusKind) (t : Table StatusRow) (csid : Option Int) : String :=
  ((statusFor kind t csid).bind StatusRow.status).getD "Unknown Status!"

/-! ## The numbers there were -/

/-- The numbers in a table, each with its status. -/
def numbersIn (t : Table StatusRow) : List (Int × Nat) :=
  t.rows.filterMap fun r => r.csid.map fun k => (k, r.id)

/-- The statuses, and all numbers that a status has or had. -/
structure Ledger where
  statuses : Table StatusRow
  record : List (Int × Nat)

def ledgerStep (kind : StatusKind) (l : Ledger) (e : StatusRequest) : Ledger where
  statuses := statusStep kind l.statuses e
  record := l.record ++ numbersIn (statusStep kind l.statuses e)

def Ledger.start (t : Table StatusRow) : Ledger := ⟨t, numbersIn t⟩

/-- Every number belongs to one status. -/
def OneEach (record : List (Int × Nat)) : Prop :=
  ∀ p ∈ record, ∀ q ∈ record, p.1 = q.1 → p.2 = q.2

/-- A request that edits the text of a status. -/
def Edits (id : Nat) : StatusRequest → Prop
  | .update k form => k = id ∧ form.status ≠ none
  | _ => False

/-- No number comes again: those in the table are distinct, one that was
given to a status is never given to another one, and the labels of
customers and claims change with the text of their status only. -/
structure NeverReused (kind : StatusKind) (t : Table StatusRow) (es : List StatusRequest) :
    Prop where
  distinct : ∀ n, ∀ r ∈ (run (statusStep kind) t (es.take n)).rows,
    ∀ r' ∈ (run (statusStep kind) t (es.take n)).rows, r.csid = r'.csid → r = r'
  assigned : ∀ n, OneEach (run (ledgerStep kind) (.start t) (es.take n)).record
  labels : ∀ pre mid post, es = pre ++ mid ++ post → ∀ k r r',
    statusFor kind (run (statusStep kind) t pre) k = some r →
    statusFor kind (run (statusStep kind) t (pre ++ mid)) k = some r' →
    r.id = r'.id ∧ (r.status = r'.status ∨ ∃ e ∈ mid, Edits r.id e)

/-- The condition for one request: if it creates a status, then the
number of that is greater than all numbers there were. The last status
has the greatest of them, and it is not the greatest integer. -/
def CreatesAbove (kind : StatusKind) (l : Ledger) (e : StatusRequest) : Prop :=
  ∀ form, e = .create form → acceptsNew l.statuses form = true →
    ∀ csid ∈ nextCsid kind l.statuses, ∀ p ∈ l.record, p.1 < storeInt csid

/-- The numbers are 0 up to some number. -/
def GapFree (record : List (Int × Nat)) : Prop :=
  ∀ p ∈ record, 0 ≤ p.1 ∧ ∀ j, 0 ≤ j → j ≤ p.1 → ∃ id, (j, id) ∈ record

/-! ## What one request does -/

section
variable {kind : StatusKind} {t : Table StatusRow} {e : StatusRequest}

/-- A save changes the text of the row that is saved, at most. -/
theorem mem_saveStatus {now r' : StatusRow} (h : r' ∈ (saveStatus kind t now).rows) :
    ∃ r ∈ t.rows, r.id = r'.id ∧ r.csid = r'.csid ∧
      (r.status = r'.status ∨ r.id = now.id ∧ r.status ≠ now.status) := by
  unfold saveStatus at h
  split at h
  · obtain ⟨r, hr, ⟨hk, rfl⟩ | ⟨_, rfl⟩⟩ := Table.mem_update.mp h
    · refine ⟨r, hr, rfl, rfl, ?_⟩
      by_cases hsame : now.status = r.status
      · exact Or.inl (if_pos hsame).symm
      · exact Or.inr ⟨hk, Ne.symm hsame⟩
    · exact ⟨r', hr, rfl, rfl, Or.inl rfl⟩
  · exact ⟨r', h, rfl, rfl, Or.inl rfl⟩

/-- The request creates a status with a number. -/
def CreatesWith (kind : StatusKind) (t : Table StatusRow) (e : StatusRequest) (csid : Int) : Prop :=
  ∃ form, e = .create form ∧ acceptsNew t form = true ∧ nextCsid kind t = some csid

/-- A status that is saved was there before, with its number and, unless
the request edits it, with its text. -/
theorem kept_of_mem_saveStatus {r' r₀ now : StatusRow} {id : Nat}
    (h : r' ∈ (saveStatus kind t now).rows) (hfind : t.find? id = some r₀) (hid : now.id = r₀.id)
    (hedit : now.status ≠ r₀.status → Edits r₀.id e) :
    ∃ r ∈ t.rows, r.id = r'.id ∧ r.csid = r'.csid ∧ (r.status = r'.status ∨ Edits r.id e) := by
  obtain ⟨r, hr, hrid, hcsid, htext⟩ := mem_saveStatus h
  refine ⟨r, hr, hrid, hcsid, htext.imp_right ?_⟩
  rintro ⟨hrnow, hne⟩
  obtain rfl : r = r₀ := t.eq_of_key_eq hr (Table.mem_of_find? hfind) (hrnow.trans hid)
  exact hedit hne.symm

/-- Every status after a request was there before it, with its number
and, unless it was edited, with its text; or it was created. -/
theorem mem_statusStep {r' : StatusRow} (h : r' ∈ (statusStep kind t e).rows) :
    (∃ r ∈ t.rows, r.id = r'.id ∧ r.csid = r'.csid ∧ (r.status = r'.status ∨ Edits r.id e)) ∨
      ∃ csid, CreatesWith kind t e csid ∧ r'.id = t.nextKey ∧ r'.csid = some (storeInt csid) := by
  have hold : r' ∈ t.rows → ∃ r ∈ t.rows, r.id = r'.id ∧ r.csid = r'.csid ∧
      (r.status = r'.status ∨ Edits r.id e) := fun hr => ⟨r', hr, rfl, rfl, Or.inl rfl⟩
  cases e with
  | create form =>
      cases hn : nextCsid kind t with
      | none =>
          simp only [statusStep, hn] at h
          exact Or.inl (hold h)
      | some csid =>
          simp only [statusStep, hn] at h
          split at h
          · rename_i haccept
            rw [Table.rows_insert] at h
            rcases List.mem_append.mp h with hr | hr
            · exact Or.inl (hold hr)
            · obtain rfl := List.mem_singleton.mp hr
              exact Or.inr ⟨csid, ⟨form, rfl, haccept, hn⟩, rfl, rfl⟩
          · exact Or.inl (hold h)
  | update id form =>
      cases hf : t.find? id with
      | none =>
          simp only [statusStep, hf] at h
          exact Or.inl (hold h)
      | some r =>
          simp only [statusStep, hf] at h
          refine Or.inl (kept_of_mem_saveStatus h hf rfl ?_)
          intro hne
          refine ⟨(Table.key_of_find? hf).symm, fun hnone => hne ?_⟩
          simp [StatusForm.assign, hnone]
  | disable id type =>
      cases hf : t.find? id with
      | none =>
          simp only [statusStep, hf] at h
          exact Or.inl (hold h)
      | some r =>
          cases type with
          | enable =>
              simp only [statusStep, hf] at h
              exact Or.inl (kept_of_mem_saveStatus h hf rfl fun hne => absurd rfl hne)
          | disable =>
              simp only [statusStep, hf] at h
              exact Or.inl (kept_of_mem_saveStatus h hf rfl fun hne => absurd rfl hne)
          | other =>
              simp only [statusStep, hf] at h
              exact Or.inl (kept_of_mem_saveStatus h hf rfl fun hne => absurd rfl hne)
  | destroy id =>
      cases hf : t.find? id with
      | none =>
          simp only [statusStep, hf] at h
          exact Or.inl (hold h)
      | some r =>
          simp only [statusStep, hf] at h
          exact Or.inl (hold (Table.mem_delete.mp h).1)

theorem nextKey_saveStatus (now : StatusRow) : (saveStatus kind t now).nextKey = t.nextKey := by
  unfold saveStatus
  split <;> rfl

/-- Keys are not given out again. -/
theorem nextKey_le_statusStep (kind : StatusKind) (t : Table StatusRow) (e : StatusRequest) :
    t.nextKey ≤ (statusStep kind t e).nextKey := by
  cases e with
  | create form =>
      cases hn : nextCsid kind t with
      | none => simp [statusStep, hn]
      | some csid =>
          simp only [statusStep, hn]
          split
          · exact Nat.le_succ _
          · exact Nat.le_refl _
  | update id form =>
      cases hf : t.find? id with
      | none => simp [statusStep, hf]
      | some r => simp [statusStep, hf, nextKey_saveStatus]
  | disable id type =>
      cases hf : t.find? id with
      | none => simp [statusStep, hf]
      | some r => cases type <;> simp [statusStep, hf, nextKey_saveStatus]
  | destroy id =>
      cases hf : t.find? id with
      | none => simp [statusStep, hf]
      | some r => simp [statusStep, hf, Table.delete]

/-- A status that is created has its number. -/
theorem mem_numbersIn_of_creates {csid : Int} (h : CreatesWith kind t e csid) :
    (storeInt csid, t.nextKey) ∈ numbersIn (statusStep kind t e) ∧
      t.nextKey < (statusStep kind t e).nextKey := by
  obtain ⟨form, rfl, haccept, hnext⟩ := h
  simp only [statusStep, hnext, haccept, if_true]
  refine ⟨List.mem_filterMap.mpr ⟨newStatus kind t form csid, ?_, rfl⟩, Nat.lt_succ_self _⟩
  rw [Table.rows_insert]
  exact List.mem_append_right _ (List.mem_singleton.mpr rfl)

theorem mem_numbersIn {k : Int} {id : Nat} :
    (k, id) ∈ numbersIn t ↔ ∃ r ∈ t.rows, r.csid = some k ∧ r.id = id := by
  simp [numbersIn, Option.map_eq_some_iff]

/-! ## The record -/

/-- The record has all numbers in the table, and no status that is still
to come; and no status is without a number. -/
structure Ledger.Sound (l : Ledger) : Prop where
  numbers : ∀ p ∈ numbersIn l.statuses, p ∈ l.record
  keys : ∀ p ∈ l.record, p.2 < l.statuses.nextKey
  numbered : ∀ r ∈ l.statuses.rows, r.csid ≠ none

/-- What a request adds to the record: the number of a status that it
creates. -/
theorem mem_record_step {l : Ledger} (hs : l.Sound) {p : Int × Nat}
    (h : p ∈ (ledgerStep kind l e).record) :
    p ∈ l.record ∨
      ∃ csid, CreatesWith kind l.statuses e csid ∧ p = (storeInt csid, l.statuses.nextKey) := by
  rcases List.mem_append.mp h with hold | hnew
  · exact Or.inl hold
  · obtain ⟨k, id⟩ := p
    obtain ⟨r', hr', hcsid, rfl⟩ := mem_numbersIn.mp hnew
    rcases mem_statusStep hr' with ⟨r, hr, hid, hrcsid, _⟩ | ⟨csid, hcreates, hid, hnum⟩
    · refine Or.inl (hs.numbers _ (mem_numbersIn.mpr ⟨r, hr, hrcsid.trans hcsid, hid⟩))
    · rw [hcsid, Option.some.injEq] at hnum
      exact Or.inr ⟨csid, hcreates, by rw [hid, hnum]⟩

theorem Ledger.Sound.step {l : Ledger} (hs : l.Sound) (e : StatusRequest) :
    (ledgerStep kind l e).Sound := by
  constructor
  · intro p hp
    exact List.mem_append_right _ hp
  · intro p hp
    have hle := nextKey_le_statusStep kind l.statuses e
    rcases mem_record_step hs hp with hold | ⟨csid, hcreates, rfl⟩
    · exact Nat.lt_of_lt_of_le (hs.keys p hold) hle
    · exact (mem_numbersIn_of_creates hcreates).2
  · intro r' hr'
    rcases mem_statusStep hr' with ⟨r, hr, _, hcsid, _⟩ | ⟨csid, _, _, hcsid⟩
    · rw [← hcsid]
      exact hs.numbered r hr
    · rw [hcsid]
      simp

/-- A number above all numbers there were is new. -/
theorem oneEach_step {l : Ledger} (hs : l.Sound) (hone : OneEach l.record)
    (hok : CreatesAbove kind l e) : OneEach (ledgerStep kind l e).record := by
  have hfresh : ∀ csid, CreatesWith kind l.statuses e csid → ∀ p ∈ l.record,
      p.1 ≠ storeInt csid := by
    rintro csid ⟨form, he, haccept, hnext⟩ p hp
    have hlt := hok form he haccept csid hnext p hp
    omega
  intro p hp q hq heq
  rcases mem_record_step hs hp with hp | ⟨c, hc, rfl⟩
  · rcases mem_record_step hs hq with hq | ⟨d, hd, rfl⟩
    · exact hone p hp q hq heq
    · exact absurd heq (hfresh d hd p hp)
  · rcases mem_record_step hs hq with hq | ⟨d, hd, rfl⟩
    · exact absurd heq.symm (hfresh c hc q hq)
    · rfl

/-- The number of the next status, in terms of the record. -/
theorem nextCsid_cases {l : Ledger} (hs : l.Sound) {csid : Int}
    (h : nextCsid kind l.statuses = some csid) :
    csid = 0 ∨ ∃ p ∈ l.record, csid = p.1 + 1 := by
  unfold nextCsid at h
  split at h
  · cases h
  · exact Or.inl (Option.some.inj h).symm
  · rename_i last hlast
    have hmem := List.mem_of_getLast? hlast
    cases hc : last.csid with
    | none => exact absurd hc (hs.numbered last hmem)
    | some k =>
        rw [hc] at h
        refine Or.inr ⟨(k, last.id), hs.numbers _ (mem_numbersIn.mpr ⟨last, hmem, hc, rfl⟩), ?_⟩
        exact (Option.some.inj h).symm

theorem gapFree_step {l : Ledger} (hs : l.Sound) (hgap : GapFree l.record) :
    GapFree (ledgerStep kind l e).record := by
  have hkept : ∀ p ∈ l.record, p ∈ (ledgerStep kind l e).record :=
    fun p hp => List.mem_append_left _ hp
  intro p hp
  rcases mem_record_step hs hp with hold | ⟨csid, hcreates, rfl⟩
  · refine ⟨(hgap p hold).1, fun j h0 hj => ?_⟩
    obtain ⟨id, hid⟩ := (hgap p hold).2 j h0 hj
    exact ⟨id, hkept _ hid⟩
  · obtain ⟨form, he, haccept, hnext⟩ := id hcreates
    rcases nextCsid_cases hs hnext with rfl | ⟨q, hq, rfl⟩
    · refine ⟨show (0 : Int) ≤ storeInt 0 by decide, fun j h0 hj => ⟨l.statuses.nextKey, ?_⟩⟩
      have hj0 : j = storeInt 0 := by
        have hzero : storeInt 0 = 0 := by decide
        simp only [hzero] at hj ⊢
        omega
      rw [hj0]
      exact hp
    · have hqpos := (hgap q hq).1
      have hmax : (0 : Int) ≤ maxInt := by decide
      have hmin : minInt ≤ 0 := by decide
      refine ⟨by simp only [storeInt]; omega, fun j h0 hj => ?_⟩
      by_cases hle : j ≤ q.1
      · obtain ⟨id, hid⟩ := (hgap q hq).2 j h0 hle
        exact ⟨id, hkept _ hid⟩
      · refine ⟨l.statuses.nextKey, ?_⟩
        have hj' : j = storeInt (q.1 + 1) := by
          simp only [storeInt] at hj ⊢
          omega
        rw [hj']
        exact hp

/-- Where the numbers have no gap, a number that is not above all of
them is one of them. -/
theorem createsAbove_of_oneEach {l : Ledger} (hs : l.Sound) (hgap : GapFree l.record)
    (hone : OneEach (ledgerStep kind l e).record) : CreatesAbove kind l e := by
  intro form he haccept csid hnext p hp
  by_contra hnot
  have hcreates : CreatesWith kind l.statuses e csid := ⟨form, he, haccept, hnext⟩
  have hpos : 0 ≤ storeInt csid := by
    have hmax : (0 : Int) ≤ maxInt := by decide
    rcases nextCsid_cases hs hnext with rfl | ⟨q, hq, rfl⟩
    · decide
    · have hqpos := (hgap q hq).1
      simp only [storeInt]
      omega
  obtain ⟨id, hid⟩ := (hgap p hp).2 (storeInt csid) hpos (by omega)
  have hsame := hone (storeInt csid, id) (List.mem_append_left _ hid)
    (storeInt csid, l.statuses.nextKey)
    (List.mem_append_right _ (mem_numbersIn_of_creates hcreates).1) rfl
  have hlt := hs.keys _ hid
  simp only at hsame hlt
  omega

/-! ## Runs -/

theorem statuses_run (es : List StatusRequest) (l : Ledger) :
    (run (ledgerStep kind) l es).statuses = run (statusStep kind) l.statuses es :=
  run_simulates (fun _ _ => rfl) es l

/-- A status that was there at the start of a run has its text, unless
it was edited. -/
theorem traced (es : List StatusRequest) (t : Table StatusRow) {r' : StatusRow}
    (h : r' ∈ (run (statusStep kind) t es).rows) (hkey : r'.id < t.nextKey) :
    ∃ r ∈ t.rows, r.id = r'.id ∧ (r.status = r'.status ∨ ∃ e ∈ es, Edits r.id e) := by
  induction es generalizing t with
  | nil => exact ⟨r', h, rfl, Or.inl rfl⟩
  | cons e es ih =>
      have hkey' := Nat.lt_of_lt_of_le hkey (nextKey_le_statusStep kind t e)
      obtain ⟨r₁, hr₁, hid₁, htext₁⟩ := ih (statusStep kind t e) h hkey'
      rcases mem_statusStep hr₁ with ⟨r, hr, hid, _, htext⟩ | ⟨csid, _, hid, _⟩
      · refine ⟨r, hr, hid.trans hid₁, ?_⟩
        rcases htext with htext | hedit
        · rcases htext₁ with htext₁ | ⟨d, hd, hedit⟩
          · exact Or.inl (htext.trans htext₁)
          · exact Or.inr ⟨d, List.mem_cons_of_mem _ hd, by rwa [hid]⟩
        · exact Or.inr ⟨e, List.mem_cons_self, hedit⟩
      · omega

/-- The record only grows. -/
theorem record_mono (es : List StatusRequest) (l : Ledger) {p : Int × Nat} (h : p ∈ l.record) :
    p ∈ (run (ledgerStep kind) l es).record := by
  induction es generalizing l with
  | nil => exact h
  | cons e es ih => exact ih (ledgerStep kind l e) (List.mem_append_left _ h)

/-- The status that gives a label is in the table, with the number. -/
theorem mem_of_statusFor {k : Option Int} {r : StatusRow} (h : statusFor kind t k = some r) :
    r ∈ t.rows ∧ r.csid = k := by
  unfold statusFor at h
  split at h
  · cases h
  · refine ⟨List.mem_of_mem_filter (List.mem_of_find?_eq_some h), ?_⟩
    simpa using List.find?_some h

theorem sound_run (kind : StatusKind) {l : Ledger} (hs : l.Sound) (es : List StatusRequest) :
    (run (ledgerStep kind) l es).Sound :=
  run_invariant Ledger.Sound (fun _ e hs => hs.step e) es l hs

/-- Where every number belongs to one status, it is the same status that
gives the labels. -/
theorem neverReused_of_assigned {es : List StatusRequest} (hs : (Ledger.start t).Sound)
    (hone : ∀ n, OneEach (run (ledgerStep kind) (.start t) (es.take n)).record) :
    NeverReused kind t es := by
  have hnumber : ∀ (fs : List StatusRequest) {r : StatusRow} {k : Int},
      r ∈ (run (statusStep kind) t fs).rows → r.csid = some k →
      (k, r.id) ∈ (run (ledgerStep kind) (.start t) fs).record := by
    intro fs r k hr hk
    refine (sound_run kind hs fs).numbers _ ?_
    rw [statuses_run]
    exact mem_numbersIn.mpr ⟨r, hr, hk, rfl⟩
  have hnumbered : ∀ (fs : List StatusRequest) {r : StatusRow},
      r ∈ (run (statusStep kind) t fs).rows → r.csid ≠ none := by
    intro fs r hr
    refine (sound_run kind hs fs).numbered r ?_
    rw [statuses_run]
    exact hr
  constructor
  · intro n r hr r' hr' heq
    cases hk : r.csid with
    | none => exact absurd hk (hnumbered _ hr)
    | some k =>
        have hid := hone n _ (hnumber _ hr hk) _ (hnumber _ hr' (heq ▸ hk)) rfl
        exact Table.eq_of_key_eq _ hr hr' hid
  · exact hone
  · intro pre mid post hes k r r' hr hr'
    obtain ⟨hmem, hk⟩ := mem_of_statusFor hr
    obtain ⟨hmem', hk'⟩ := mem_of_statusFor hr'
    cases k with
    | none => exact absurd hk (hnumbered _ hmem)
    | some k =>
        have hlater : (k, r.id) ∈ (run (ledgerStep kind) (.start t) (pre ++ mid)).record := by
          rw [run_append]
          exact record_mono mid _ (hnumber pre hmem hk)
        have hid : r.id = r'.id := by
          have hall := hone (pre ++ mid).length
          rw [hes, List.take_left'] at hall
          · exact hall _ hlater _ (hnumber _ hmem' hk') rfl
          · rfl
        refine ⟨hid, ?_⟩
        rw [run_append] at hmem'
        have hkey := Table.fresh _ r hmem
        obtain ⟨r₁, hr₁, hid₁, htext⟩ := traced mid _ hmem' (by rw [← hid]; exact hkey)
        obtain rfl : r₁ = r := Table.eq_of_key_eq _ hr₁ hmem (hid₁.trans hid.symm)
        exact htext

end

/-- **Status ids are never reused** in a run that creates statuses only
when the last one has the greatest id there was; and where the ids have
no gap to begin with, in no other run. -/
theorem status_ids_never_reused (kind : StatusKind) (t : Table StatusRow)
    (hnumbered : ∀ r ∈ t.rows, r.csid ≠ none) (hdistinct : OneEach (numbersIn t))
    (es : List StatusRequest) :
    (StepsOk (ledgerStep kind) (CreatesAbove kind) (.start t) es → NeverReused kind t es) ∧
      (GapFree (numbersIn t) → NeverReused kind t es →
        StepsOk (ledgerStep kind) (CreatesAbove kind) (.start t) es) := by
  have hs : (Ledger.start t).Sound := by
    refine ⟨fun _ hp => hp, ?_, hnumbered⟩
    rintro ⟨k, id⟩ hp
    obtain ⟨r, hr, _, rfl⟩ := mem_numbersIn.mp hp
    exact t.fresh r hr
  constructor
  · intro hok
    refine neverReused_of_assigned hs fun n => ?_
    exact (run_invariant_of_steps (fun l => l.Sound ∧ OneEach l.record)
      (fun l e h hc => ⟨h.1.step e, oneEach_step h.1 h.2 hc⟩) (es.take n) _ (hok.first n)
      ⟨hs, hdistinct⟩).2
  · intro hgap hnever
    refine (forall_take_iff_stepsOk
      (fun l => l.Sound ∧ GapFree l.record ∧ OneEach l.record) ?_ es _ ⟨hs, hgap, hdistinct⟩).mp ?_
    · rintro l e ⟨hl, hlgap, hlone⟩
      constructor
      · rintro ⟨_, _, hone⟩
        exact createsAbove_of_oneEach hl hlgap hone
      · intro hc
        exact ⟨hl.step e, gapFree_step hl hlgap, oneEach_step hl hlone hc⟩
    · intro n
      have hsound : (run (ledgerStep kind) (.start t) (es.take n)).Sound ∧
          GapFree (run (ledgerStep kind) (.start t) (es.take n)).record :=
        run_invariant (fun l : Ledger => l.Sound ∧ GapFree l.record)
          (fun l e h => ⟨h.1.step e, gapFree_step h.1 h.2⟩) (es.take n) (Ledger.start t)
          ⟨hs, hgap⟩
      exact ⟨hsound.1, hsound.2, hnever.assigned n⟩

/-! ## Two statuses and a third -/

instance (record : List (Int × Nat)) : Decidable (OneEach record) :=
  inferInstanceAs (Decidable (∀ p ∈ record, ∀ q ∈ record, p.1 = q.1 → p.2 = q.2))

def seededStatuses : Table StatusRow :=
  .ofRows [⟨0, some 0, some "New", some "New", some true, some "/admin/customers/list/new"⟩,
    ⟨0, some 1, some "LM", some "Left Message", some true,
      some "/admin/customers/list/leftmessage"⟩]

def newForm (code status : String) : StatusForm :=
  ⟨some (some code), some (some status), some (some "1"), none⟩

/-- The last status is destroyed and another one created: it has the
number of the one that is gone. -/
theorem number_comes_again :
    ¬ ∀ (kind : StatusKind) (t : Table StatusRow), (∀ r ∈ t.rows, r.csid ≠ none) →
      OneEach (numbersIn t) → ∀ es : List StatusRequest, NeverReused kind t es := by
  intro hall
  have h := (hall .customer seededStatuses (by decide +kernel) (by decide +kernel)
    [.destroy 2, .create (newForm "FU" "Follow up")]).assigned 2
  revert h
  decide +kernel

/-- A status is created, the first one is disabled and the new one is
destroyed. -/
theorem third_status_not_reused :
    NeverReused .customer seededStatuses
      [.create (newForm "FU" "Follow up"), .disable 1 .disable, .destroy 3] := by
  refine (status_ids_never_reused .customer seededStatuses (by decide +kernel)
    (by decide +kernel) _).1 ⟨?_, nofun, nofun, trivial⟩
  intro form _ _
  decide +kernel

end HomeWarranty.Admin
