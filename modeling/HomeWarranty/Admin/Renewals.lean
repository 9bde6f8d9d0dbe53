/-
HomeWarranty.Admin.Renewals — the renewals that are entered on a
customer's page, and taken back.

`async_create_for_customer` writes one date into both ends of the
renewal. It does not look whether the customer is there. The association
is ordered by `created_at DESC` and `async_remove_for_customer` asks for
`created_at ASC`: Rails puts the second after the first, so what is
removed is the newest renewal, as the form "Remove renewal" says, and not
the oldest.

The renewals of a customer are therefore a stack: `renewals_are_stacks`
says that every run, from renewals that were created one after another,
follows the stack of each customer, and that requests of which each
removal takes back its renewal leave him the terms that he had.
-/
import HomeWarranty.Lib.Run
import HomeWarranty.Admin.MonthFee
import HomeWarranty.Admin.ContractRate
import HomeWarranty.Quotes.DiscountEntry

namespace HomeWarranty.Admin

open Lib Ruby

/-! ## The requests -/

/-- `params[:renewal]`; other keys of the form are not sent. A key may be
missing, and its value may be `nil`. -/
structure RenewalForm where
  endsAt : Option (Option String)
  amount : Option (Option String)
  years : Option (Option String)

/-- An id in an integer column. -/
def columnId (id : Nat) : Nat := (storeInt id).toNat

/-- `Renewal.new(params[:renewal])`. The dates it casts are of blank
texts, or are written over. -/
def RenewalForm.renewal [Numbers] (form : RenewalForm) (id createdAt : Nat) : RenewalRow where
  id := 0
  customerId := some (columnId id)
  startsAt := none
  endsAt := none
  amount := castFloat form.amount.join
  years := (form.years.map integerColumn).getD (some 0)
  createdAt := createdAt

/-- `as_json`; a renewal that was not saved has no id. -/
structure RenewalJson where
  id : Option Nat
  starts : Option String
  ends : Option String
  formattedDuration : String
  formattedAmount : String
  deriving DecidableEq

def RenewalRow.duration (r : RenewalRow) : Except RubyError Int :=
  RenewalTerm.duration ⟨r.years, r.startsAt, r.endsAt⟩

/-- `formatted_duration`. -/
def formattedDuration (duration : Int) : String :=
  toString duration ++ " Year" ++ if 1 < duration then "s" else ""

/-- `as_json`. -/
def RenewalRow.asJson [Numbers] (r : RenewalRow) (id : Option Nat) : Except RubyError RenewalJson :=
  r.duration.map fun duration => {
    id := id
    starts := r.startsAt.map Date.strftimeMdy
    ends := r.endsAt.map Date.strftimeMdy
    formattedDuration := formattedDuration duration
    formattedAmount := "$" ++ Numbers.format2 (r.amount.getD 0) }

/-- `Customer.find(id).renewals`, the newest first. -/
def renewalStack (t : Table RenewalRow) (id : Nat) : List RenewalRow :=
  (renewalsOf t id).insertionSort fun a b => b.createdAt ≤ a.createdAt

/-- `async_get_for_customer`. -/
def asyncGetForCustomer [Numbers] (customers : Table CustomerRow) (t : Table RenewalRow)
    (id : Nat) : Except RubyError (List RenewalJson) :=
  match customers.find? id with
  | none => .error .recordNotFound
  | some _ => (renewalStack t id).mapM fun r => r.asJson (some r.id)

/-- The renewal that `async_create_for_customer` saves, if it saves one. -/
def RenewalForm.saved [Numbers] (form : RenewalForm) (id createdAt : Nat) :
    Except RubyError (Option RenewalRow) :=
  if presentOpt form.endsAt.join then
    match form.endsAt.join.bind Quotes.strptimeShort with
    | none => .error .argumentError
    | some d =>
        .ok (some { form.renewal id createdAt with startsAt := some d, endsAt := some d })
  else .ok none

/-- The row as its columns keep it, unless the amount is refused. -/
def RenewalRow.kept [Numbers] (r : RenewalRow) : Option RenewalRow :=
  (storeFloat r.amount).map fun amount => { r with amount := amount }

/-- The row that a request adds. -/
def savedRenewal [Numbers] (form : Option RenewalForm) (id createdAt : Nat) :
    Option RenewalRow :=
  form.bind fun form => ((form.saved id createdAt).toOption).join.bind RenewalRow.kept

/-- `async_create_for_customer`: the answer, and the renewals. -/
def asyncCreateForCustomer [Numbers] (t : Table RenewalRow) (id : Nat) (form : Option RenewalForm)
    (createdAt : Nat) : Except RubyError RenewalJson × Table RenewalRow :=
  match form with
  | none => (.error .noMethodError, t)
  | some form =>
      match form.saved id createdAt with
      | .error e => (.error e, t)
      | .ok none => ((form.renewal id createdAt).asJson none, t)
      | .ok (some r) =>
          match r.kept with
          | none => (.error .externalError, t)
          | some row => (r.asJson (some t.nextKey), t.insert row)

/-- `async_remove_for_customer`: what is raised is rescued. -/
def asyncRemoveForCustomer (customers : Table CustomerRow) (t : Table RenewalRow) (id : Nat) :
    Table RenewalRow :=
  match customers.find? id with
  | none => t
  | some _ =>
      match currentRenewal t id with
      | none => t
      | some r => t.delete r.id

inductive RenewalRequest where
  | get (id : Nat)
  | create (id : Nat) (form : Option RenewalForm) (createdAt : Nat)
  | remove (id : Nat)

def renewalStep [Numbers] (customers : Table CustomerRow) (t : Table RenewalRow) :
    RenewalRequest → Table RenewalRow
  | .get _ => t
  | .create id form createdAt => (asyncCreateForCustomer t id form createdAt).2
  | .remove id => asyncRemoveForCustomer customers t id

/-! ## The stacks -/

/-- A renewal without its key. -/
def RenewalRow.content (r : RenewalRow) : RenewalRow := { r with id := 0 }

/-- What a request does to the stack of customer `k`. -/
def RenewalRequest.onStack [Numbers] (customers : Table CustomerRow) (k : Nat) :
    RenewalRequest → Option (StackOp RenewalRow)
  | .get _ => none
  | .create id form createdAt =>
      (savedRenewal form id createdAt).bind fun r =>
        if columnId id = k then some (.push r) else none
  | .remove id => if id = k ∧ (customers.find? k).isSome then some .pop else none

/-- The renewals of each customer were created one after another. -/
def Chronological (t : Table RenewalRow) : Prop :=
  t.rows.Pairwise fun a b => a.customerId = b.customerId → a.createdAt < b.createdAt

/-- A renewal that is created is newer than the customer's others. -/
def RenewalRequest.Later (t : Table RenewalRow) : RenewalRequest → Prop
  | .create id _ createdAt =>
      ∀ r ∈ t.rows, r.customerId = some (columnId id) → r.createdAt < createdAt
  | _ => True

instance (t : Table RenewalRow) : ∀ e : RenewalRequest, Decidable (e.Later t)
  | .create id _ createdAt =>
      inferInstanceAs (Decidable (∀ r ∈ t.rows,
        r.customerId = some (columnId id) → r.createdAt < createdAt))
  | .get _ => inferInstanceAs (Decidable True)
  | .remove _ => inferInstanceAs (Decidable True)

section
variable {t : Table RenewalRow}

/-- Sorting what was created in order turns it around. -/
theorem insertionSort_chronological {l : List RenewalRow}
    (h : l.Pairwise fun a b => a.createdAt < b.createdAt) :
    (l.insertionSort fun a b => b.createdAt ≤ a.createdAt) = l.reverse := by
  -- an older renewal goes to the end
  have hlast : ∀ (a : RenewalRow) (m : List RenewalRow), (∀ b ∈ m, a.createdAt < b.createdAt) →
      m.orderedInsert (fun a b => b.createdAt ≤ a.createdAt) a = m ++ [a] := by
    intro a m hm
    induction m with
    | nil => rfl
    | cons b m ih =>
        have hb := hm b (by simp)
        rw [List.orderedInsert_cons, if_neg (by omega), ih fun c hc => hm c (by simp [hc])]
        rfl
  induction l with
  | nil => rfl
  | cons a l ih =>
      obtain ⟨ha, hl⟩ := List.pairwise_cons.mp h
      rw [List.insertionSort_cons, ih hl, List.reverse_cons]
      exact hlast a l.reverse fun b hb => ha b (List.mem_reverse.mp hb)

theorem pairwise_renewalsOf (h : Chronological t) (k : Nat) :
    (renewalsOf t k).Pairwise fun a b => a.createdAt < b.createdAt := by
  have hfilter := h.filter fun r => r.customerId == some k
  refine hfilter.imp_of_mem fun ha hb hab => hab ?_
  have ha := eq_of_beq (List.mem_filter.mp ha).2
  have hb := eq_of_beq (List.mem_filter.mp hb).2
  rw [ha, hb]

theorem renewalStack_eq (h : Chronological t) (k : Nat) :
    renewalStack t k = (renewalsOf t k).reverse :=
  insertionSort_chronological (pairwise_renewalsOf h k)

theorem chronological_delete (h : Chronological t) (k : Nat) : Chronological (t.delete k) :=
  h.filter _

theorem chronological_insert (h : Chronological t) {r : RenewalRow}
    (hr : ∀ s ∈ t.rows, s.customerId = r.customerId → s.createdAt < r.createdAt) :
    Chronological (t.insert r) := by
  refine List.pairwise_append.mpr ⟨h, List.pairwise_singleton .., fun s hs s' hs' => ?_⟩
  rw [List.mem_singleton.mp hs']
  exact hr s hs

theorem renewalsOf_insert (r : RenewalRow) (k : Nat) :
    renewalsOf (t.insert r) k
      = renewalsOf t k ++ if r.customerId = some k then [Record.withKey t.nextKey r] else [] := by
  unfold renewalsOf
  rw [Table.rows_insert, List.filter_append]
  congr 1
  by_cases hk : r.customerId = some k
  · rw [if_pos hk]
    exact List.filter_cons_of_pos (by simpa [Record.withKey] using hk)
  · rw [if_neg hk]
    exact List.filter_cons_of_neg (by simpa [Record.withKey] using hk)

/-- The newest is removed from the stack that it is on. -/
theorem renewalStack_delete (h : Chronological t) {k : Nat} {r : RenewalRow}
    (hr : currentRenewal t k = some r) (j : Nat) :
    renewalStack (t.delete r.id) j
      = if j = k then (renewalStack t j).tail else renewalStack t j := by
  rw [renewalStack_eq (chronological_delete h r.id), renewalStack_eq h]
  have hfilter : renewalsOf (t.delete r.id) j = (renewalsOf t j).filter fun s => s.id != r.id :=
    List.filter_comm ..
  rw [hfilter, ← List.filter_reverse]
  have hhead : (renewalsOf t k).reverse.head? = some r := by
    rw [← renewalStack_eq h]
    exact hr
  obtain ⟨rest, hrest⟩ := List.head?_eq_some_iff.mp hhead
  have hmem : r ∈ renewalsOf t k := List.mem_reverse.mp (hrest ▸ List.mem_cons_self)
  obtain ⟨hrow, hcustomer⟩ := List.mem_filter.mp hmem
  split_ifs with hj
  · subst hj
    have hnodup : (r :: rest).Nodup := by
      rw [← hrest]
      exact List.nodup_reverse.mpr (t.nodup_rows.filter _)
    rw [hrest, List.filter_cons_of_neg (by simp), List.tail_cons]
    refine List.filter_eq_self.mpr fun s hs => ?_
    have hs' : s ∈ renewalsOf t j := List.mem_reverse.mp (hrest ▸ List.mem_cons_of_mem r hs)
    refine bne_iff_ne.mpr fun hid => (List.nodup_cons.mp hnodup).1 ?_
    rwa [← t.eq_of_key_eq (List.mem_filter.mp hs').1 hrow hid]
  · refine List.filter_eq_self.mpr fun s hs => bne_iff_ne.mpr fun hid => hj ?_
    obtain ⟨hs, hcustomer'⟩ := List.mem_filter.mp (List.mem_reverse.mp hs)
    rw [t.eq_of_key_eq hs hrow hid] at hcustomer'
    exact Option.some.inj ((eq_of_beq hcustomer').symm.trans (eq_of_beq hcustomer))

/-- A renewal that is saved is the customer's. -/
theorem savedRenewal_some [Numbers] {form : Option RenewalForm} {id createdAt : Nat}
    {r : RenewalRow} (h : savedRenewal form id createdAt = some r) :
    r.id = 0 ∧ r.customerId = some (columnId id) ∧ r.createdAt = createdAt := by
  obtain ⟨form, -, hsaved⟩ := Option.bind_eq_some_iff.mp h
  obtain ⟨object, hobject, hkept⟩ := Option.bind_eq_some_iff.mp hsaved
  obtain ⟨amount, -, rfl⟩ := Option.map_eq_some_iff.mp hkept
  unfold RenewalForm.saved at hobject
  split_ifs at hobject
  · cases hd : form.endsAt.join.bind Quotes.strptimeShort with
    | none =>
        rw [hd] at hobject
        cases hobject
    | some d =>
        rw [hd] at hobject
        cases hobject
        exact ⟨rfl, rfl, rfl⟩
  · cases hobject

/-- A request to create adds the renewal that it saves. -/
theorem renewalStep_create [Numbers] (customers : Table CustomerRow) (t : Table RenewalRow)
    (id : Nat) (form : Option RenewalForm) (createdAt : Nat) :
    renewalStep customers t (.create id form createdAt)
      = match savedRenewal form id createdAt with
        | none => t
        | some r => t.insert r := by
  show (asyncCreateForCustomer t id form createdAt).2 = _
  cases form with
  | none => rfl
  | some form =>
      simp only [asyncCreateForCustomer, savedRenewal, Option.bind_some]
      cases form.saved id createdAt with
      | error e => rfl
      | ok saved =>
          cases saved with
          | none => rfl
          | some r =>
              simp only [Except.toOption, Option.join_some, Option.bind_some]
              cases r.kept <;> rfl

/-- A request to remove takes the newest. -/
theorem renewalStep_remove [Numbers] (customers : Table CustomerRow) (t : Table RenewalRow)
    (id : Nat) :
    renewalStep customers t (.remove id)
      = match (customers.find? id).bind fun _ => currentRenewal t id with
        | none => t
        | some r => t.delete r.id := by
  show asyncRemoveForCustomer customers t id = _
  unfold asyncRemoveForCustomer
  cases customers.find? id <;> rfl

end

/-! ## Runs -/

section
variable [Numbers] {customers : Table CustomerRow}

theorem chronological_step {t : Table RenewalRow} (h : Chronological t) {e : RenewalRequest}
    (he : e.Later t) : Chronological (renewalStep customers t e) := by
  cases e with
  | get id => exact h
  | create id form createdAt =>
      rw [renewalStep_create]
      cases hsaved : savedRenewal form id createdAt with
      | none => exact h
      | some r =>
          obtain ⟨-, hcustomer, hcreated⟩ := savedRenewal_some hsaved
          refine chronological_insert h fun s hs hsame => ?_
          rw [hcreated]
          exact he s hs (hsame.trans hcustomer)
  | remove id =>
      rw [renewalStep_remove]
      split
      · exact h
      · exact chronological_delete h _

/-- One request does to each stack what it is to do. -/
theorem renewalStack_step {t : Table RenewalRow} (h : Chronological t) {e : RenewalRequest}
    (he : e.Later t) (k : Nat) :
    (renewalStack (renewalStep customers t e) k).map RenewalRow.content
      = ((e.onStack customers k).map
          (StackOp.apply ((renewalStack t k).map RenewalRow.content))).getD
        ((renewalStack t k).map RenewalRow.content) := by
  have hnext : Chronological (renewalStep customers t e) := chronological_step h he
  cases e with
  | get id => rfl
  | create id form createdAt =>
      rw [renewalStep_create] at hnext ⊢
      simp only [RenewalRequest.onStack]
      cases hsaved : savedRenewal form id createdAt with
      | none => rfl
      | some r =>
          rw [hsaved] at hnext
          obtain ⟨hid, hcustomer, -⟩ := savedRenewal_some hsaved
          have hcontent : (Record.withKey t.nextKey r).content = r := by
            cases r
            cases hid
            rfl
          rw [renewalStack_eq hnext, renewalStack_eq h, renewalsOf_insert, hcustomer,
            Option.bind_some]
          by_cases hk : columnId id = k
          · rw [if_pos (congrArg some hk), if_pos hk, List.reverse_append, List.map_append]
            simp [StackOp.apply, hcontent]
          · rw [if_neg fun heq => hk (Option.some.inj heq), if_neg hk, List.append_nil]
            rfl
  | remove id =>
      rw [renewalStep_remove]
      simp only [RenewalRequest.onStack]
      by_cases hk : id = k
      · subst hk
        cases customers.find? id with
        | none => simp
        | some c =>
            rw [Option.bind_some]
            cases hcurrent : currentRenewal t id with
            | none =>
                have hempty : renewalStack t id = [] := List.head?_eq_none_iff.mp hcurrent
                simp [hempty, StackOp.apply]
            | some r => simp [renewalStack_delete h hcurrent, StackOp.apply]
      · rw [if_neg fun hop => hk hop.1]
        cases hcurrent : (customers.find? id).bind fun _ => currentRenewal t id with
        | none => rfl
        | some r =>
            obtain ⟨c, -, hcurrent⟩ := Option.bind_eq_some_iff.mp hcurrent
            simp [renewalStack_delete h hcurrent, Ne.symm hk]

/-- Every run, from renewals that were created one after another, does
to the renewals of each customer what its requests do to a stack, the
newest on the top. If every removal takes back a renewal that was
created before, he has the terms that he had, and his contract the
length that it had. -/
theorem renewals_are_stacks (customers : Table CustomerRow) (t : Table RenewalRow)
    (hstart : Chronological t) (es : List RenewalRequest)
    (h : StepsOk (renewalStep customers) (fun t e => e.Later t) t es) (k : Nat) :
    (renewalStack (run (renewalStep customers) t es) k).map RenewalRow.content
        = run StackOp.apply ((renewalStack t k).map RenewalRow.content)
            (es.filterMap (RenewalRequest.onStack customers k)) ∧
      (Balanced (es.filterMap (RenewalRequest.onStack customers k)) →
        (renewalStack (run (renewalStep customers) t es) k).map RenewalRow.content
          = (renewalStack t k).map RenewalRow.content) := by
  have hfollows := run_follows (fun t => (renewalStack t k).map RenewalRow.content)
    (RenewalRequest.onStack customers k) Chronological
    (fun t e ht he => chronological_step ht he)
    (fun t e ht he => renewalStack_step ht he k) es t hstart h
  exact ⟨hfollows, fun hbalanced => hfollows.trans (run_balanced hbalanced _)⟩

end

/-- A renewal that is entered twice, and taken back once. -/
def enteredTwice : List RenewalRequest :=
  [.create 1 (some ⟨some (some "06/01/15"), none, none⟩) 100,
    .create 1 (some ⟨some (some "06/01/16"), none, none⟩) 200, .remove 1]

section
attribute [local instance] Numbers.exact

theorem renewals_are_stacks_entered_twice :
    (renewalStack (run (renewalStep annDesk.customers) Table.empty enteredTwice) 1).map
        RenewalRow.endsAt = [some ⟨2015, 6, 1⟩] ∧
      (renewalStack (run (renewalStep annDesk.customers) Table.empty enteredTwice) 1).map
          RenewalRow.content
        = run StackOp.apply []
            (enteredTwice.filterMap (RenewalRequest.onStack annDesk.customers 1)) := by
  refine ⟨by decide +kernel, ?_⟩
  exact (renewals_are_stacks annDesk.customers Table.empty List.Pairwise.nil enteredTwice
    (by decide +kernel) 1).1

end

end HomeWarranty.Admin
