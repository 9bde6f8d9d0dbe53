/-
HomeWarranty.Leads.Uniqueness — one customer for each lead, when several
requests save customers at the same time.

`validates :leadid, uniqueness: true` is a query, and the row is written
after it. No index of the table stands behind it. The API asks twice
(`valid?` and then `save`), every other save asks once, and between the
last query and the write of one save another one may ask and be told
that the lead id is free. `leadStep` cuts the saves at these points.

`one_customer_per_lead`: in every schedule in which no save asks while
another one for the same lead id has its answer and has not written yet,
there is at most one customer for each lead id that is not blank, in
every state on the way. A lead id of more than 255 characters is asked
for as it is and stored cut off, so it is compared by what is stored.
-/
import HomeWarranty.Lib.Interleave
import HomeWarranty.Records

namespace HomeWarranty.Leads

open Lib Ruby

/-! ## Saves -/

/-- An object that is to be saved: a new record, or one loaded from a
row. -/
structure CustomerSave where
  row : Option Nat
  customer : Customer
  /-- The lead id was changed since the row was loaded. -/
  leadChanged : Bool
  deriving DecidableEq

/-- The uniqueness query, over all rows but the object's own; it is
skipped for a blank lead id. -/
def leadFree (t : Table Customer) (row : Option Nat) (leadid : Option String) : Bool :=
  blankOpt leadid || !t.rows.any fun r => r.leadid == leadid && some r.id != row

/-- The validations. -/
def CustomerSave.valid (t : Table Customer) (s : CustomerSave) : Bool :=
  presentOpt s.customer.firstName && presentOpt s.customer.lastName
    && presentOpt s.customer.customerPhone && presentOpt s.customer.email
    && leadFree t s.row s.customer.leadid

/-- For an object that was loaded these are the validations of
`Customer`. -/
theorem CustomerSave.valid_eq (t : Table Customer) (c : Customer) (changed : Bool) :
    CustomerSave.valid t ⟨some c.id, c, changed⟩ = c.valid t := by
  simp [CustomerSave.valid, Customer.valid, leadFree, bne]

/-- What the column holds of the lead id. -/
def CustomerSave.stored (s : CustomerSave) : Option String := s.customer.leadid.map textColumn

/-- INSERT, or UPDATE of the columns that changed. -/
def CustomerSave.write (t : Table Customer) (s : CustomerSave) : Table Customer :=
  match s.row with
  | none => t.insert { s.customer with leadid := s.stored }
  | some k =>
      if s.leadChanged then t.update k (fun r => { r with leadid := s.stored }) (fun _ => rfl)
      else t

/-- The lead id that the save writes, when it is not blank. -/
def CustomerSave.lead (s : CustomerSave) : Option String :=
  if s.row.isNone || s.leadChanged then s.stored.filter fun l => !blank l else none

/-- The column holds less than the query asked for. -/
def CustomerSave.cut (s : CustomerSave) : Bool := s.stored != s.customer.leadid

/-! ## Requests at the same time -/

inductive LeadProc where
  /-- The API, before `valid?`. -/
  | post (c : Customer)
  /-- Before the query of `save`. -/
  | save (s : CustomerSave)
  /-- Between the query and the write. -/
  | writing (s : CustomerSave)
  | done

def leadStep (t : Table Customer) : LeadProc → Option (Table Customer × LeadProc)
  | .post c =>
      if CustomerSave.valid t ⟨none, c, true⟩ then some (t, .save ⟨none, c, true⟩)
      else some (t, .done)
  | .save s => if s.valid t then some (t, .writing s) else some (t, .done)
  | .writing s => some (s.write t, .done)
  | .done => none

/-- The lead id a process has been told is free and has not written
yet. -/
def LeadProc.pending : LeadProc → Option String
  | .writing s => s.lead
  | _ => none

/-- The row a process writes to; `none` for a new one. -/
def LeadProc.row : LeadProc → Option Nat
  | .writing s => s.row
  | _ => none

/-- Two rows with the same lead id. -/
def LeadClash (r s : Customer) : Prop := presentOpt r.leadid = true ∧ r.leadid = s.leadid

theorem LeadClash.symm (r s : Customer) (h : LeadClash r s) : LeadClash s r :=
  ⟨h.2 ▸ h.1, h.2.symm⟩

/-- At most one customer for each lead id that is not blank. -/
def UniqueLeads (t : Table Customer) : Prop := t.Apart LeadClash

/-- When the query of `save` goes through, no other save waits to write
the same lead id to another row; and a lead id that is cut off is not
stored in another row. -/
def LeadProc.AsksAlone (sys : Sys (Table Customer) LeadProc) : LeadProc → Prop
  | .save s => s.valid sys.shared = true → ∀ l ∈ s.lead,
      (s.cut = true → ∀ r ∈ sys.shared.rows, r.leadid = some l → s.row = some r.id) ∧
      ∀ q ∈ sys.procs, q.pending = some l → q.row = s.row ∧ s.row ≠ none
  | .post _ => True
  | .writing _ => True
  | .done => True

instance (sys : Sys (Table Customer) LeadProc) : ∀ p : LeadProc, Decidable (p.AsksAlone sys)
  | .save s => inferInstanceAs (Decidable (s.valid sys.shared = true → ∀ l ∈ s.lead,
      (s.cut = true → ∀ r ∈ sys.shared.rows, r.leadid = some l → s.row = some r.id) ∧
      ∀ q ∈ sys.procs, q.pending = some l → q.row = s.row ∧ s.row ≠ none))
  | .post _ => inferInstanceAs (Decidable True)
  | .writing _ => inferInstanceAs (Decidable True)
  | .done => inferInstanceAs (Decidable True)

def AsksAloneAt (sys : Sys (Table Customer) LeadProc) (i : Nat) : Prop :=
  ∀ p ∈ sys.procs[i]?, p.AsksAlone sys

instance (sys : Sys (Table Customer) LeadProc) (i : Nat) : Decidable (AsksAloneAt sys i) :=
  inferInstanceAs (Decidable (∀ p ∈ sys.procs[i]?, p.AsksAlone sys))

/-! ## What a query and a write do -/

/-- The lead id that is written is present and is what the column
holds. -/
theorem CustomerSave.lead_eq_some {s : CustomerSave} {l : String} :
    s.lead = some l ↔
      (s.row = none ∨ s.leadChanged = true) ∧ s.stored = some l ∧ blank l = false := by
  unfold CustomerSave.lead
  by_cases hw : (s.row.isNone || s.leadChanged) = true
  · rw [if_pos hw, Option.filter_eq_some_iff]
    simp only [Bool.or_eq_true, Option.isNone_iff_eq_none] at hw
    simp [hw]
  · rw [if_neg hw]
    simp only [Bool.or_eq_true, Option.isNone_iff_eq_none] at hw
    simp [hw]

/-- After the query, the lead id is in no row but the save's own. -/
theorem free_of_valid {t : Table Customer} {s : CustomerSave} {l : String}
    (hv : s.valid t = true) (hl : s.lead = some l)
    (hcut : s.cut = true → ∀ r ∈ t.rows, r.leadid = some l → s.row = some r.id) :
    ∀ r ∈ t.rows, r.leadid = some l → s.row = some r.id := by
  intro r hr hrl
  cases hc : s.cut with
  | true => exact hcut hc r hr hrl
  | false =>
      obtain ⟨_, hstored, hblank⟩ := CustomerSave.lead_eq_some.mp hl
      have hlead : s.customer.leadid = some l := by
        have hsame : s.stored = s.customer.leadid := by simpa [CustomerSave.cut] using hc
        rw [← hsame, hstored]
      simp only [CustomerSave.valid, leadFree, hlead, blankOpt_some, hblank, Bool.false_or,
        Bool.and_eq_true, Bool.not_eq_true', List.any_eq_false] at hv
      have hown := hv.2 r hr
      simp only [hrl, beq_self_eq_true, bne_iff_ne, ne_eq] at hown
      by_contra hne
      exact hown ⟨trivial, fun e => hne e.symm⟩

/-- A row after a write was there before, or is the one that was
written. -/
theorem mem_write {t : Table Customer} {s : CustomerSave} {r : Customer}
    (h : r ∈ (s.write t).rows) :
    r ∈ t.rows ∨ ((s.row = none ∨ s.leadChanged = true) ∧ r.leadid = s.stored ∧
      (s.row = none ∨ s.row = some r.id)) := by
  unfold CustomerSave.write at h
  split at h
  · rename_i hrow
    rw [Table.rows_insert, List.mem_append, List.mem_singleton] at h
    rcases h with h | rfl
    · exact Or.inl h
    · exact Or.inr ⟨Or.inl hrow, rfl, Or.inl hrow⟩
  · rename_i k hrow
    split at h
    · rename_i hchanged
      rw [Table.mem_update] at h
      obtain ⟨a, ha, ⟨hk, rfl⟩ | ⟨_, rfl⟩⟩ := h
      · exact Or.inr ⟨Or.inr hchanged, rfl, Or.inr (by rw [hrow]; exact congrArg some hk.symm)⟩
      · exact Or.inl ha
    · exact Or.inl h

/-- A write keeps the lead ids unique when the one it writes is in no
other row. -/
theorem uniqueLeads_write {t : Table Customer} (h : UniqueLeads t) {s : CustomerSave}
    (hfree : ∀ l, s.lead = some l → ∀ r ∈ t.rows, r.leadid = some l → s.row = some r.id) :
    UniqueLeads (s.write t) := by
  -- a row that clashes with what is written is the row that is written to
  have hown : (s.row = none ∨ s.leadChanged = true) → ∀ r ∈ t.rows,
      presentOpt r.leadid = true → r.leadid = s.stored → s.row = some r.id := by
    intro hw r hr hpresent heq
    cases hl : r.leadid with
    | none => rw [hl] at hpresent; cases hpresent
    | some l =>
        rw [hl] at hpresent heq
        refine hfree l ?_ r hr hl
        exact CustomerSave.lead_eq_some.mpr ⟨hw, heq.symm, by simpa using hpresent⟩
  unfold CustomerSave.write
  split
  · rename_i hrow
    refine Table.Apart.insert LeadClash.symm h fun r hr hclash => ?_
    have hself := hown (Or.inl hrow) r hr hclash.1 hclash.2
    rw [hrow] at hself
    cases hself
  · rename_i k hrow
    split
    · rename_i hchanged
      show (t.update k (fun r => { r with leadid := s.stored }) (fun _ => rfl)).Apart LeadClash
      refine Table.Apart.update LeadClash.symm h fun a _ _ r hr hrk hclash => hrk ?_
      have hself := hown (Or.inr hchanged) r hr hclash.1 hclash.2
      rw [hrow] at hself
      exact (Option.some.inj hself).symm
    · exact h

/-! ## The invariant -/

/-- Lead ids are unique; a lead id that is about to be written is in no
row but the one it is written to; and two saves that are about to write
the same one write to the same row. -/
structure LeadInv (sys : Sys (Table Customer) LeadProc) : Prop where
  unique : UniqueLeads sys.shared
  clear : ∀ p ∈ sys.procs, ∀ l, p.pending = some l →
    ∀ r ∈ sys.shared.rows, r.leadid = some l → p.row = some r.id
  apart : ∀ (i j : Nat) (p q : LeadProc), sys.procs[i]? = some p → sys.procs[j]? = some q →
    i ≠ j → ∀ l, p.pending = some l → q.pending = some l → p.row = q.row ∧ p.row ≠ none

/-- What a step can do: nothing that matters to the lead ids, go through
the query of `save`, or write. -/
theorem leadStep_cases {t t' : Table Customer} {p p' : LeadProc}
    (h : leadStep t p = some (t', p')) :
    (t' = t ∧ p'.pending = none) ∨
    (∃ s, p = .save s ∧ s.valid t = true ∧ t' = t ∧ p' = .writing s) ∨
    ∃ s, p = .writing s ∧ t' = s.write t ∧ p' = .done := by
  cases p with
  | post c =>
      simp only [leadStep] at h
      split at h
      · cases h
        exact Or.inl ⟨rfl, rfl⟩
      · cases h
        exact Or.inl ⟨rfl, rfl⟩
  | save s =>
      simp only [leadStep] at h
      split at h
      · rename_i hv
        cases h
        exact Or.inr (Or.inl ⟨s, rfl, hv, rfl, rfl⟩)
      · cases h
        exact Or.inl ⟨rfl, rfl⟩
  | writing s =>
      cases h
      exact Or.inr (Or.inr ⟨s, rfl, rfl, rfl⟩)
  | done => cases h

/-- A step after which nothing waits to be written. -/
theorem LeadInv.set_idle {sys : Sys (Table Customer) LeadProc} (h : LeadInv sys) (i : Nat)
    {p' : LeadProc} (hnone : p'.pending = none) :
    LeadInv ⟨sys.shared, sys.procs.set i p'⟩ := by
  constructor
  · exact h.unique
  · intro q hq l hl
    rcases List.mem_or_eq_of_mem_set hq with hq | rfl
    · exact h.clear q hq l hl
    · rw [hnone] at hl
      cases hl
  · intro a b x y hx hy hab l hxl hyl
    rcases getElem?_set_cases hx with ⟨_, rfl⟩ | ⟨_, hx⟩
    · rw [hnone] at hxl
      cases hxl
    · rcases getElem?_set_cases hy with ⟨_, rfl⟩ | ⟨_, hy⟩
      · rw [hnone] at hyl
        cases hyl
      · exact h.apart a b x y hx hy hab l hxl hyl

/-- A save that goes through its query, and asks alone. -/
theorem LeadInv.set_writing {sys : Sys (Table Customer) LeadProc} (h : LeadInv sys) (i : Nat)
    {s : CustomerSave} (hv : s.valid sys.shared = true)
    (halone : (LeadProc.save s).AsksAlone sys) :
    LeadInv ⟨sys.shared, sys.procs.set i (.writing s)⟩ := by
  constructor
  · exact h.unique
  · intro q hq l hl
    rcases List.mem_or_eq_of_mem_set hq with hq | rfl
    · exact h.clear q hq l hl
    · exact free_of_valid hv hl (halone hv l hl).1
  · intro a b x y hx hy hab l hxl hyl
    rcases getElem?_set_cases hx with ⟨ha, rfl⟩ | ⟨_, hxa⟩ <;>
      rcases getElem?_set_cases hy with ⟨hb, rfl⟩ | ⟨_, hyb⟩
    · exact absurd (ha.trans hb.symm) hab
    · obtain ⟨hrow, hne⟩ := (halone hv l hxl).2 y (List.mem_of_getElem? hyb) hyl
      exact ⟨hrow.symm, hne⟩
    · obtain ⟨hrow, hne⟩ := (halone hv l hyl).2 x (List.mem_of_getElem? hxa) hxl
      exact ⟨hrow, hrow ▸ hne⟩
    · exact h.apart a b x y hxa hyb hab l hxl hyl

theorem LeadProc.blank_of_pending {q : LeadProc} {l : String} (h : q.pending = some l) :
    blank l = false := by
  cases q with
  | writing s => exact (CustomerSave.lead_eq_some.mp h).2.2
  | _ => cases h

/-- A save that writes. -/
theorem LeadInv.set_written {sys : Sys (Table Customer) LeadProc} (h : LeadInv sys) {i : Nat}
    {s : CustomerSave} (hi : sys.procs[i]? = some (.writing s)) :
    LeadInv ⟨s.write sys.shared, sys.procs.set i .done⟩ := by
  constructor
  · exact uniqueLeads_write h.unique (h.clear _ (List.mem_of_getElem? hi))
  · intro q hq l hl r hr hrl
    obtain ⟨j, hj⟩ := List.getElem?_of_mem hq
    rcases getElem?_set_cases hj with ⟨_, rfl⟩ | ⟨hne, hj⟩
    · cases hl
    · rcases mem_write hr with hr | ⟨hw, hstored, hrow⟩
      · exact h.clear q (List.mem_of_getElem? hj) l hl r hr hrl
      · -- `q` waits to write what was just written, so both write to one row
        have hlead : s.lead = some l := CustomerSave.lead_eq_some.mpr
          ⟨hw, by rw [← hstored, hrl], LeadProc.blank_of_pending hl⟩
        obtain ⟨hsame, hold⟩ := h.apart i j _ q hi hj (fun e => hne e.symm) l hlead hl
        rcases hrow with hrow | hrow
        · exact absurd hrow hold
        · exact hsame.symm.trans hrow
  · intro a b x y hx hy hab l hxl hyl
    rcases getElem?_set_cases hx with ⟨_, rfl⟩ | ⟨_, hx⟩
    · cases hxl
    · rcases getElem?_set_cases hy with ⟨_, rfl⟩ | ⟨_, hy⟩
      · cases hyl
      · exact h.apart a b x y hx hy hab l hxl hyl

/-- The step lemma. -/
theorem leadInv_step (sys : Sys (Table Customer) LeadProc) (i : Nat) (h : LeadInv sys)
    (hok : AsksAloneAt sys i) : LeadInv (sys.stepAt leadStep i) := by
  rcases Sys.stepAt_cases leadStep sys i with hself | ⟨p, t', p', hi, hs, hstep⟩
  · rw [hself]
    exact h
  rw [hstep]
  rcases leadStep_cases hs with ⟨rfl, hnone⟩ | ⟨s, rfl, hv, rfl, rfl⟩ | ⟨s, rfl, rfl, rfl⟩
  · exact h.set_idle i hnone
  · exact h.set_writing i hv (hok _ hi)
  · exact h.set_written hi

/-- The posts to the API and the other saves, none of which has begun. -/
def leadSys (t : Table Customer) (posts : List Customer) (saves : List CustomerSave) :
    Sys (Table Customer) LeadProc :=
  ⟨t, posts.map LeadProc.post ++ saves.map LeadProc.save⟩

theorem leadInv_leadSys {t : Table Customer} (h : UniqueLeads t) (posts : List Customer)
    (saves : List CustomerSave) : LeadInv (leadSys t posts saves) := by
  have hnone : ∀ p ∈ (leadSys t posts saves).procs, p.pending = none := by
    intro p hp
    simp only [leadSys, List.mem_append, List.mem_map] at hp
    rcases hp with ⟨c, _, rfl⟩ | ⟨s, _, rfl⟩
    · rfl
    · rfl
  refine ⟨h, fun p hp l hl => ?_, fun i j p q hp _ _ l hl _ => ?_⟩
  · rw [hnone p hp] at hl
    cases hl
  · rw [hnone p (List.mem_of_getElem? hp)] at hl
    cases hl

/-- **One customer per lead**: for every number of posts and other saves
and every schedule in which each save asks alone, at most one customer
has a given lead id in every state on the way. -/
theorem one_customer_per_lead (t : Table Customer) (posts : List Customer)
    (saves : List CustomerSave) (schedule : List Nat) (ht : UniqueLeads t)
    (hok : StepsOk (Sys.stepAt leadStep) AsksAloneAt (leadSys t posts saves) schedule) :
    ∀ k, UniqueLeads ((leadSys t posts saves).exec leadStep (schedule.take k)).shared := by
  intro k
  have hinv := run_invariant_of_steps LeadInv leadInv_step _ _ (hok.first k)
    (leadInv_leadSys ht posts saves)
  exact hinv.unique

/-- A customer as the API makes it. -/
def leadCustomer : Customer :=
  { Customer.new with
    firstName := some "Ann"
    lastName := some "Lee"
    customerPhone := some "2125550100"
    email := some "ann@example.com"
    leadid := some "L-1001" }

/-- A seller posts a lead again after the first post has been saved,
while somebody edits the customer. -/
theorem one_customer_per_lead_retried :
    StepsOk (Sys.stepAt leadStep) AsksAloneAt
        (leadSys Table.empty [leadCustomer, leadCustomer] [⟨some 1, leadCustomer, false⟩])
        [0, 1, 0, 0, 1, 2, 1, 2] ∧
      ∀ k, UniqueLeads ((leadSys Table.empty [leadCustomer, leadCustomer]
        [⟨some 1, leadCustomer, false⟩]).exec leadStep
          (List.take k [0, 1, 0, 0, 1, 2, 1, 2])).shared := by
  have hok : StepsOk (Sys.stepAt leadStep) AsksAloneAt
      (leadSys Table.empty [leadCustomer, leadCustomer] [⟨some 1, leadCustomer, false⟩])
      [0, 1, 0, 0, 1, 2, 1, 2] := by
    decide +kernel
  exact ⟨hok, one_customer_per_lead _ _ _ _ (Table.apart_empty _) hok⟩

/-- Two posts of one lead that both ask before either has written make
two customers. -/
theorem two_customers_for_one_lead :
    ¬ ∀ (t : Table Customer) (posts : List Customer) (saves : List CustomerSave)
        (schedule : List Nat), UniqueLeads t →
      UniqueLeads ((leadSys t posts saves).exec leadStep schedule).shared := by
  intro hall
  have h := hall Table.empty [leadCustomer, leadCustomer] [] [0, 1, 0, 1, 0, 1]
    (Table.apart_empty _)
  have hkeys := h { leadCustomer with id := 1 } (by decide +kernel)
    { leadCustomer with id := 2 } (by decide +kernel) ⟨by decide +kernel, rfl⟩
  cases hkeys

end HomeWarranty.Leads
