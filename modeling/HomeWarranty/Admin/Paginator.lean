/-
HomeWarranty.Admin.Paginator — the lists that are shown in pages, the
totals beside them, and the bulk action on one page.

A paginator shows a page of a collection and the number of its records.
`async_get_customers` counts the scope and shows the part of it that is
not deleted (and, to sales, not completed); `async_claims` binds the text
of the chosen statuses to the count, where it is one literal, and puts it
into the conditions of the list. `paginator_totals_iff` says when the
total is the one of the collection, so that the pages are what the total
promises.

`revert_to_new` acts on a slice of its own: thirty customers, in the
order of their last change, from where the page starts. `async_list`
shows as many as are asked for, in the order of their ids.
`revert_acts_on_shown_iff` compares the two.

An ORDER BY arranges the rows in some order (`Arrangement`); where the
order leaves ties, it is one that MySQL picks. Columns that the actions
do not read stand in one field.
-/
import Mathlib.Data.List.Sort
import HomeWarranty.Admin.StatusSlug
import HomeWarranty.Lib.Page
import HomeWarranty.Ruby.Delimited

namespace HomeWarranty.Admin

open Lib Ruby

/-! ## Collections -/

/-- The answer of a paginator. -/
structure PageAnswer (ρ : Type) where
  page : Nat
  itemCount : Nat
  collection : List ρ

/-- An ORDER BY. -/
structure Arrangement (ρ : Type) where
  order : List ρ → List ρ
  perm : ∀ l, (order l).Perm l

/-- A scope of a model: its conditions, and the order of a list with
them. -/
structure Scope (ρ : Type) extends Arrangement ρ where
  cond : ρ → Bool

/-- `(params[:CIPaginatorItemsPerPage] || default).to_i`. -/
def itemsPerPage (default : Nat) : Option String → Nat
  | none => default
  | some s => (toI s).toNat

/-! ## Customers -/

structure ListedCustomer (δ : Type) where
  id : Nat
  statusId : Option Int
  updatedAt : Int
  rest : δ
  deriving DecidableEq

instance {δ : Type} : Record (ListedCustomer δ) where
  key := ListedCustomer.id
  withKey n c := { c with id := n }
  key_withKey := fun _ _ => rfl

section
variable {δ : Type}

/-- `status_id != k`, which is not true of NULL. -/
def ListedCustomer.statusNot (k : Int) (c : ListedCustomer δ) : Bool :=
  match c.statusId with
  | none => false
  | some s => s != k

/-- The conditions besides the scope. -/
def ListedCustomer.listed (sales : Bool) (c : ListedCustomer δ) : Bool :=
  if sales then c.statusNot 4 && c.statusNot 2 else c.statusNot 2

/-- The collection of `async_get_customers`. -/
def customersShown (scope : Scope (ListedCustomer δ)) (sales : Bool)
    (t : Table (ListedCustomer δ)) : List (ListedCustomer δ) :=
  scope.order (t.rows.filter fun c => c.listed sales && scope.cond c)

/-- `async_get_customers`. -/
def asyncGetCustomers (scope : Scope (ListedCustomer δ)) (sales : Bool) (perPage : Option String)
    (t : Table (ListedCustomer δ)) (page : Nat) : PageAnswer (ListedCustomer δ) where
  page := page
  itemCount := (t.rows.filter scope.cond).length
  collection := Lib.page (itemsPerPage 1 perPage) page (customersShown scope sales t)

end

/-! ## Claims -/

structure ListedClaim (δ : Type) where
  id : Nat
  statusCode : Option Int
  rest : δ

section
variable {δ : Type}

/-- `params[:CIFilterActiveFilters].gsub(/[^\d,]/, '')`. -/
def allowedStatuses (filters : String) : List Char :=
  filters.toList.filter fun c => c.isDigit || c == ','

/-- `status_code IN (…)`. -/
def ListedClaim.statusIn (ns : List Nat) (c : ListedClaim δ) : Bool :=
  match c.statusCode with
  | none => false
  | some s => ns.any fun n => s == n

/-- The collection of `async_claims`, unless its conditions are not
SQL. -/
def claimsShown (o : Arrangement (ListedClaim δ)) (rows : List (ListedClaim δ))
    (filters : String) : Option (List (ListedClaim δ)) :=
  (splicedNumbers (allowedStatuses filters)).map fun ns =>
    o.order (rows.filter (ListedClaim.statusIn ns))

/-- `async_claims`. -/
def asyncClaims (o : Arrangement (ListedClaim δ)) (perPage : Option String)
    (rows : List (ListedClaim δ)) (filters : String) (page : Nat) :
    Except RubyError (PageAnswer (ListedClaim δ)) :=
  match claimsShown o rows filters with
  | none => .error .externalError
  | some shown => .ok {
      page := page
      itemCount := (rows.filter (ListedClaim.statusIn
        [boundNumber (allowedStatuses filters)])).length
      collection := Lib.page (itemsPerPage 15 perPage) page shown }

end

/-! ## Totals -/

/-- The total is the size of the collection, and the pages it makes are
the collection and none of them is empty. -/
structure PagesAgree {ρ : Type} (per : Nat) (shown : List ρ) (answer : Nat → PageAnswer ρ) :
    Prop where
  total : ∀ n, (answer n).itemCount = shown.length
  cover : 0 < per → (List.range (pageCount (answer 1).itemCount per)).flatMap
    (fun i => (answer (i + 1)).collection) = shown
  full : ∀ n, 1 ≤ n → n ≤ pageCount (answer n).itemCount per → (answer n).collection ≠ []

/-- Pages of a collection agree with a total exactly when it is its
size. -/
theorem pagesAgree_iff {ρ : Type} {per : Nat} {shown : List ρ} {answer : Nat → PageAnswer ρ}
    {count : Nat} (hcount : ∀ n, (answer n).itemCount = count)
    (hpage : ∀ n, (answer n).collection = Lib.page per n shown) :
    PagesAgree per shown answer ↔ count = shown.length := by
  constructor
  · intro h
    rw [← hcount 1]
    exact h.total 1
  · intro heq
    refine ⟨fun n => (hcount n).trans heq, fun hper => ?_, fun n hn hle => ?_⟩
    · rw [hcount, heq]
      simp only [hpage]
      exact pages_cover hper shown
    · rw [hpage]
      rw [hcount, heq] at hle
      exact page_ne_nil hn hle

/-- A part of a list has its size exactly when it is all of it. -/
theorem length_filter_and_iff {ρ : Type} {p q : ρ → Bool} {l : List ρ} :
    (l.filter p).length = (l.filter fun a => q a && p a).length ↔
      ∀ a ∈ l, p a = true → q a = true := by
  rw [← List.filter_filter, eq_comm, List.length_filter_eq_length_iff]
  simp only [List.mem_filter, and_imp]

section
variable {δ : Type}

theorem customersShown_total_iff (scope : Scope (ListedCustomer δ)) (sales : Bool)
    (t : Table (ListedCustomer δ)) :
    (t.rows.filter scope.cond).length = (customersShown scope sales t).length ↔
      ∀ c ∈ t.rows, scope.cond c = true → c.listed sales = true := by
  rw [customersShown, (scope.perm _).length_eq, length_filter_and_iff]

/-- The characters of joined numerals are all allowed. -/
theorem allowedStatuses_joinIds (ns : List Nat) :
    allowedStatuses (String.ofList (joinIds (ns.map some))) = joinIds (ns.map some) := by
  rw [allowedStatuses, String.toList_ofList, List.filter_eq_self]
  have hpiece : ∀ n : Nat, ∀ c ∈ idText (some n), (c.isDigit || c == ',') = true := by
    intro n c hc
    rw [idText, toList_toString] at hc
    rw [isDigit_of_mem_toDigits hc, Bool.true_or]
  induction ns with
  | nil => intro c hc; cases hc
  | cons n ns ih =>
      cases ns with
      | nil => exact hpiece n
      | cons m ns =>
          intro c hc
          rw [joinIds, List.map_cons, List.map_cons, List.map_cons, List.map_cons, join,
            List.mem_append, List.mem_append] at hc
          rcases hc with (hc | hc) | hc
          · exact hpiece n c hc
          · rw [List.mem_singleton.mp hc]
            rfl
          · exact ih c hc

/-- The list is the one of all chosen statuses, the total the one of the
first. -/
theorem asyncClaims_joinIds (o : Arrangement (ListedClaim δ)) (perPage : Option String)
    (rows : List (ListedClaim δ)) (n : Nat) (ns : List Nat) (k : Nat) :
    asyncClaims o perPage rows (String.ofList (joinIds ((n :: ns).map some))) k = .ok {
      page := k
      itemCount := (rows.filter (ListedClaim.statusIn [n])).length
      collection := Lib.page (itemsPerPage 15 perPage) k
        (o.order (rows.filter (ListedClaim.statusIn (n :: ns)))) } := by
  have hspliced : splicedNumbers (joinIds ((n :: ns).map some)) = some (n :: ns) :=
    splicedNumbers_some (by simp)
  have hbound : boundNumber (joinIds ((n :: ns).map some)) = n := by
    rw [List.map_cons, boundNumber_joinIds, Option.getD_some]
  simp only [asyncClaims, claimsShown, allowedStatuses_joinIds, hspliced, hbound, Option.map_some]

/-- The total of the first status is the one of all exactly when no claim
has another of them. -/
theorem claims_total_iff (o : Arrangement (ListedClaim δ)) (rows : List (ListedClaim δ)) (n : Nat)
    (ns : List Nat) :
    (rows.filter (ListedClaim.statusIn [n])).length =
        (o.order (rows.filter (ListedClaim.statusIn (n :: ns)))).length ↔
      ∀ c ∈ rows, ∀ m ∈ n :: ns, c.statusCode = some (m : Int) → m = n := by
  have hboth : ∀ c : ListedClaim δ,
      (c.statusIn [n] && c.statusIn (n :: ns)) = c.statusIn [n] := by
    intro c
    cases hs : c.statusCode with
    | none => simp [ListedClaim.statusIn, hs]
    | some s => simp [ListedClaim.statusIn, hs]; tauto
  have hfilter : rows.filter (ListedClaim.statusIn [n]) =
      rows.filter fun c => c.statusIn [n] && c.statusIn (n :: ns) := by
    congr 1
    funext c
    exact (hboth c).symm
  rw [(o.perm _).length_eq, hfilter, eq_comm, length_filter_and_iff]
  constructor
  · intro h c hc m hm hcode
    have hin : c.statusIn (n :: ns) = true := by
      simp only [ListedClaim.statusIn, hcode, List.any_eq_true]
      exact ⟨m, hm, by simp⟩
    have hfirst := h c hc hin
    simpa [ListedClaim.statusIn, hcode] using hfirst
  · intro h c hc hin
    cases hcode : c.statusCode with
    | none => simp [ListedClaim.statusIn, hcode] at hin
    | some s =>
        simp only [ListedClaim.statusIn, hcode, List.any_eq_true, beq_iff_eq] at hin
        obtain ⟨m, hm, rfl⟩ := hin
        have := h c hc m hm hcode
        simp [ListedClaim.statusIn, hcode, this]

theorem listed_iff {sales : Bool} {c : ListedCustomer δ} :
    c.listed sales = true ↔
      c.statusId ≠ none ∧ c.statusId ≠ some 2 ∧ (sales = true → c.statusId ≠ some 4) := by
  cases hs : c.statusId with
  | none => cases sales <;> simp [ListedCustomer.listed, ListedCustomer.statusNot, hs]
  | some s =>
      cases sales with
      | true => simp [ListedCustomer.listed, ListedCustomer.statusNot, hs, and_comm]
      | false => simp [ListedCustomer.listed, ListedCustomer.statusNot, hs]

/-- The total of `async_get_customers` is the one of its collection, with
all that follows for the pages, exactly when the scope has no customer
that is deleted, completed (for sales) or without a status; that of
`async_claims`, for any statuses, exactly when no claim has one of them
but the first. -/
theorem paginator_totals_iff {ε : Type} (scope : Scope (ListedCustomer δ)) (sales : Bool)
    (perPage perPage' : Option String) (t : Table (ListedCustomer δ))
    (o : Arrangement (ListedClaim ε)) (rows : List (ListedClaim ε)) (n : Nat) (ns : List Nat) :
    (PagesAgree (itemsPerPage 1 perPage) (customersShown scope sales t)
        (asyncGetCustomers scope sales perPage t) ↔
      ∀ c ∈ t.rows, scope.cond c = true →
        c.statusId ≠ none ∧ c.statusId ≠ some 2 ∧ (sales = true → c.statusId ≠ some 4)) ∧
    ((∃ shown answer,
        claimsShown o rows (String.ofList (joinIds ((n :: ns).map some))) = some shown ∧
        (∀ k, asyncClaims o perPage' rows (String.ofList (joinIds ((n :: ns).map some))) k =
          .ok (answer k)) ∧
        PagesAgree (itemsPerPage 15 perPage') shown answer) ↔
      ∀ c ∈ rows, ∀ m ∈ n :: ns, c.statusCode = some (m : Int) → m = n) := by
  constructor
  · have hagree : PagesAgree (itemsPerPage 1 perPage) (customersShown scope sales t)
        (asyncGetCustomers scope sales perPage t) ↔
        (t.rows.filter scope.cond).length = (customersShown scope sales t).length :=
      pagesAgree_iff (fun _ => rfl) (fun _ => rfl)
    rw [hagree, customersShown_total_iff]
    simp only [listed_iff]
  · have hshown : claimsShown o rows (String.ofList (joinIds ((n :: ns).map some))) =
        some (o.order (rows.filter (ListedClaim.statusIn (n :: ns)))) := by
      rw [claimsShown, allowedStatuses_joinIds, splicedNumbers_some (by simp), Option.map_some]
    rw [← claims_total_iff o rows n ns]
    constructor
    · rintro ⟨shown, answer, hs, hanswer, hagree⟩
      rw [hshown, Option.some.injEq] at hs
      have hone := hagree.total 1
      have heq := (asyncClaims_joinIds o perPage' rows n ns 1).symm.trans (hanswer 1)
      rw [← Except.ok.inj heq, ← hs] at hone
      exact hone
    · intro hcount
      refine ⟨_, fun k => _, hshown, fun k => asyncClaims_joinIds o perPage' rows n ns k, ?_⟩
      refine (pagesAgree_iff ?_ ?_).mpr hcount
      · intro k
        rfl
      · intro k
        rfl

end

/-- Rows in the order in which they stand. -/
def asTheyStand (ρ : Type) : Arrangement ρ where
  order := id
  perm := fun l => List.Perm.refl l

/-- One customer, who was deleted today, makes a total of one over an
empty list. The statuses 4 and 13 make a total of nothing over a claim
with status 13. -/
theorem paginator_totals_differ :
    (asyncGetCustomers { asTheyStand (ListedCustomer Unit) with cond := fun _ => true } false
        (some "10") (.ofRows [⟨0, some 2, 0, ()⟩]) 1).itemCount = 1 ∧
    customersShown { asTheyStand (ListedCustomer Unit) with cond := fun _ => true } false
        (.ofRows [⟨0, some 2, 0, ()⟩]) = [] ∧
    ¬ PagesAgree 10 (customersShown
          { asTheyStand (ListedCustomer Unit) with cond := fun _ => true } false
          (.ofRows [⟨0, some 2, 0, ()⟩]))
        (asyncGetCustomers { asTheyStand (ListedCustomer Unit) with cond := fun _ => true } false
          (some "10") (.ofRows [⟨0, some 2, 0, ()⟩])) ∧
    (asyncClaims (asTheyStand (ListedClaim Unit)) none [⟨5, some 13, ()⟩] "4,13" 1).map
        (fun a => (a.itemCount, a.collection.length)) = .ok (0, 1) := by
  refine ⟨by decide, by decide, fun h => ?_, by decide +kernel⟩
  have htotal := h.total 1
  exact absurd htotal (by decide)

/-! ## The bulk action -/

/-- `ORDER BY updated_at DESC`. -/
structure UpdateOrder (δ : Type) extends Arrangement (ListedCustomer δ) where
  latestFirst : ∀ l, (order l).Pairwise fun a b => b.updatedAt ≤ a.updatedAt

section
variable {δ : Type}

/-- The customers with a status. -/
def withStatus (t : Table (ListedCustomer δ)) (k : Int) : List (ListedCustomer δ) :=
  t.rows.filter fun c => c.statusId == some k

def ListedCustomer.setStatus (k : Int) (c : ListedCustomer δ) : ListedCustomer δ :=
  { c with statusId := some k }

theorem ListedCustomer.key_setStatus (k : Int) (c : ListedCustomer δ) :
    Record.key (c.setStatus k) = Record.key c := rfl

/-- `async_list`; rows stand in the order of their ids. -/
def asyncList (statuses : Table StatusRow) (slug : Option String) (perPage : Option String)
    (t : Table (ListedCustomer δ)) (page : Nat) :
    Except RubyError (PageAnswer (ListedCustomer δ)) :=
  (idForStatus statuses (slug.getD "new")).map fun k => {
    page := page
    itemCount := (withStatus t k).length
    collection := Lib.page (itemsPerPage 1 perPage) page (withStatus t k).reverse }

/-- `revert_to_new`: the ids that are answered, and the customers. -/
def revertToNew (o : UpdateOrder δ) (statuses : Table StatusRow) (slug page count : String)
    (t : Table (ListedCustomer δ)) : Except RubyError (List Nat × Table (ListedCustomer δ)) := do
  let k ← idForStatus statuses slug
  let offset := (toI page - 1) * toI count
  let ids := (slice offset.toNat 30 (o.order (withStatus t k))).map ListedCustomer.id
  if ids.isEmpty then return (ids, t)
  else
    let new ← idForStatus statuses "new"
    return (ids, t.updateAll (fun c => ids.contains c.id) (ListedCustomer.setStatus new)
      (ListedCustomer.key_setStatus new))

/-- The action sets the customers that are shown to New and changes no
other. -/
def ActsOnShown [DecidableEq δ] (o : UpdateOrder δ) (statuses : Table StatusRow) (slug : String)
    (p c : Nat) (t : Table (ListedCustomer δ)) : Prop :=
  ∀ shown, asyncList statuses (some slug) (some (toString c)) t p = .ok shown →
    ∃ new ids t', idForStatus statuses "new" = .ok new ∧
      revertToNew o statuses slug (toString p) (toString c) t = .ok (ids, t') ∧
      t'.rows = t.rows.map fun r => if r ∈ shown.collection then r.setStatus new else r

/-- The page holds as many as the action takes, and each of them stands
among the thirty from the start of the page in the order of the last
change. -/
def SameSlice [DecidableEq δ] (o : UpdateOrder δ) (l : List (ListedCustomer δ)) (p c : Nat) :
    Prop :=
  (c = 30 ∨ l.length ≤ (p - 1) * c + min c 30) ∧
    ∀ r ∈ page c p l.reverse,
      (p - 1) * c ≤ (o.order l).idxOf r ∧ (o.order l).idxOf r < (p - 1) * c + 30

variable {o : UpdateOrder δ} {statuses : Table StatusRow} {slug : String} {p c : Nat}
  {t : Table (ListedCustomer δ)} {k new : Int}

theorem idForStatus_ok (hk : idForStatus statuses slug = .ok k) (other : String) :
    ∃ n, idForStatus statuses other = .ok n := by
  unfold idForStatus at hk ⊢
  obtain ⟨list, hs, _⟩ := map_eq_ok.mp hk
  exact ⟨_, map_eq_ok.mpr ⟨list, hs, rfl⟩⟩

theorem mem_withStatus {r : ListedCustomer δ} :
    r ∈ withStatus t k ↔ r ∈ t.rows ∧ r.statusId = some k := by
  simp [withStatus]

theorem asyncList_ok (hk : idForStatus statuses slug = .ok k) :
    ∃ shown, asyncList statuses (some slug) (some (toString c)) t p = .ok shown ∧
      shown.collection = page c p (withStatus t k).reverse := by
  refine ⟨_, by simp only [asyncList, Option.getD_some, hk]; rfl, ?_⟩
  simp only [itemsPerPage, toI_toString, Int.toNat_natCast]

theorem offset_eq (hp : 1 ≤ p) :
    ((toI (toString p) - 1) * toI (toString c)).toNat = (p - 1) * c := by
  rw [toI_toString, toI_toString]
  have hcast : ((p : Int) - 1) * (c : Int) = (((p - 1) * c : Nat) : Int) := by
    push_cast [Nat.cast_sub hp]
    rfl
  rw [hcast, Int.toNat_natCast]

/-- A row has an id of the slice exactly when it is in it. -/
theorem contains_slice_iff {offset : Nat} {r : ListedCustomer δ} (hr : r ∈ t.rows) :
    ((slice offset 30 (o.order (withStatus t k))).map ListedCustomer.id).contains r.id = true ↔
      r ∈ slice offset 30 (o.order (withStatus t k)) := by
  rw [List.contains_iff_mem, List.mem_map]
  constructor
  · rintro ⟨q, hq, hid⟩
    have hrow := (mem_withStatus.mp ((o.perm _).subset (mem_of_mem_slice hq))).1
    rwa [← t.eq_of_key_eq hrow hr hid]
  · intro hmem
    exact ⟨r, hmem, rfl⟩

/-- The rows of the slice are set to New. -/
theorem revertToNew_ok [DecidableEq δ] (hp : 1 ≤ p) (hk : idForStatus statuses slug = .ok k)
    (hnew : idForStatus statuses "new" = .ok new) :
    ∃ ids t', revertToNew o statuses slug (toString p) (toString c) t = .ok (ids, t') ∧
      t'.rows = t.rows.map fun r =>
        if r ∈ slice ((p - 1) * c) 30 (o.order (withStatus t k)) then r.setStatus new else r := by
  simp only [revertToNew, hk, hnew, offset_eq hp, bind, Except.bind, pure, Except.pure]
  by_cases hids : ((slice ((p - 1) * c) 30 (o.order (withStatus t k))).map
      ListedCustomer.id).isEmpty = true
  · rw [if_pos hids]
    refine ⟨_, _, rfl, ?_⟩
    rw [List.map_eq_nil_iff.mp (List.isEmpty_iff.mp hids)]
    simp
  · rw [if_neg hids]
    refine ⟨_, _, rfl, List.map_congr_left fun r hr => ?_⟩
    simp only [contains_slice_iff hr]

theorem setStatus_eq_self {r : ListedCustomer δ} : r.setStatus new = r ↔ r.statusId = some new := by
  cases r
  simp [ListedCustomer.setStatus, eq_comm]

/-- The action and the page change the same rows exactly when New is the
status of the page, or they hold the same customers. -/
theorem rows_agree_iff [DecidableEq δ] {picked shown : List (ListedCustomer δ)}
    (hpicked : ∀ r ∈ picked, r ∈ withStatus t k) (hshown : ∀ r ∈ shown, r ∈ withStatus t k) :
    (t.rows.map fun r => if r ∈ picked then r.setStatus new else r) =
        (t.rows.map fun r => if r ∈ shown then r.setStatus new else r) ↔
      k = new ∨ ∀ r, r ∈ shown ↔ r ∈ picked := by
  rw [List.map_inj_left]
  constructor
  · intro h
    by_cases hkn : k = new
    · exact Or.inl hkn
    · right
      -- a row of the page is changed, so the two must agree on it
      have hchange : ∀ r, r ∈ withStatus t k → r.setStatus new ≠ r := by
        intro r hr heq
        rw [setStatus_eq_self, (mem_withStatus.mp hr).2] at heq
        exact hkn (Option.some.inj heq)
      intro r
      constructor
      · intro hs
        by_contra hno
        have heq := h r (mem_withStatus.mp (hshown r hs)).1
        rw [if_neg hno, if_pos hs] at heq
        exact hchange r (hshown r hs) heq.symm
      · intro hs
        by_contra hno
        have heq := h r (mem_withStatus.mp (hpicked r hs)).1
        rw [if_pos hs, if_neg hno] at heq
        exact hchange r (hpicked r hs) heq
  · rintro (rfl | hsame) r _
    · have hkeep : r ∈ withStatus t k → r.setStatus k = r :=
        fun hr => setStatus_eq_self.mpr (mem_withStatus.mp hr).2
      by_cases h1 : r ∈ picked <;> by_cases h2 : r ∈ shown
      · rw [if_pos h1, if_pos h2]
      · rw [if_pos h1, if_neg h2, hkeep (hpicked r h1)]
      · rw [if_neg h1, if_pos h2, hkeep (hshown r h2)]
      · rw [if_neg h1, if_neg h2]
    · simp only [hsame r]

theorem sameSlice_iff [DecidableEq δ] :
    (∀ r, r ∈ page c p (withStatus t k).reverse ↔
        r ∈ slice ((p - 1) * c) 30 (o.order (withStatus t k))) ↔
      SameSlice o (withStatus t k) p c := by
  have hperm : (withStatus t k).reverse.Perm (o.order (withStatus t k)) :=
    (List.reverse_perm _).trans (o.perm _).symm
  have hnodup : (withStatus t k).reverse.Nodup :=
    List.nodup_reverse.mpr (t.nodup_rows.filter _)
  rw [SameSlice, ← List.length_reverse]
  exact slices_agree_iff hperm hnodup

/-- The action leaves the customers that are meant exactly when the
status is New or the slices are the same. -/
theorem reverted_rows_iff [DecidableEq δ] :
    (t.rows.map fun r =>
        if r ∈ slice ((p - 1) * c) 30 (o.order (withStatus t k)) then r.setStatus new else r) =
      (t.rows.map fun r =>
        if r ∈ page c p (withStatus t k).reverse then r.setStatus new else r) ↔
      k = new ∨ SameSlice o (withStatus t k) p c := by
  have hpicked : ∀ r ∈ slice ((p - 1) * c) 30 (o.order (withStatus t k)), r ∈ withStatus t k :=
    fun r hr => (o.perm _).subset (mem_of_mem_slice hr)
  have hshown : ∀ r ∈ page c p (withStatus t k).reverse, r ∈ withStatus t k :=
    fun r hr => List.mem_reverse.mp (mem_of_mem_slice hr)
  rw [rows_agree_iff hpicked hshown, sameSlice_iff]

/-- `revert_to_new` acts on the customers that `async_list` shows exactly
when the list is the one of the new customers, or the page and the slice
of the action hold the same ones. -/
theorem revert_acts_on_shown_iff [DecidableEq δ] (o : UpdateOrder δ) (statuses : Table StatusRow)
    (slug : String) (p c : Nat) (t : Table (ListedCustomer δ)) (hp : 1 ≤ p) :
    ActsOnShown o statuses slug p c t ↔
      ∀ k new, idForStatus statuses slug = .ok k → idForStatus statuses "new" = .ok new →
        k = new ∨ SameSlice o (withStatus t k) p c := by
  constructor
  · intro h k new hk hnew
    obtain ⟨shown, hlist, hcollection⟩ := asyncList_ok (c := c) (p := p) (t := t) hk
    obtain ⟨new', ids, t', hnew', hrevert, hrows⟩ := h shown hlist
    obtain ⟨ids', t'', hrevert', hset⟩ := revertToNew_ok (o := o) (c := c) (t := t) hp hk hnew
    obtain ⟨rfl, rfl⟩ := Prod.mk.inj (Except.ok.inj (hrevert.symm.trans hrevert'))
    obtain rfl := Except.ok.inj (hnew.symm.trans hnew')
    rw [hset, hcollection] at hrows
    exact reverted_rows_iff.mp hrows
  · intro h shown hlist
    cases hk : idForStatus statuses slug with
    | error e => simp [asyncList, hk, Except.map] at hlist
    | ok k =>
        obtain ⟨new, hnew⟩ := idForStatus_ok hk "new"
        obtain ⟨shown', hlist', hcollection⟩ := asyncList_ok (c := c) (p := p) (t := t) hk
        obtain rfl := Except.ok.inj (hlist.symm.trans hlist')
        obtain ⟨ids, t', hrevert, hset⟩ := revertToNew_ok (o := o) (c := c) (t := t) hp hk hnew
        refine ⟨new, ids, t', hnew, hrevert, ?_⟩
        rw [hset, hcollection]
        exact reverted_rows_iff.mpr (h k new hk hnew)

end

/-- The latest change first; of two that were changed together, the one
that stands first. -/
def sortedByUpdate (δ : Type) : UpdateOrder δ where
  order := List.insertionSort fun a b => b.updatedAt ≤ a.updatedAt
  perm := fun l => List.perm_insertionSort _ l
  latestFirst := fun l => by
    have : Std.Total fun a b : ListedCustomer δ => b.updatedAt ≤ a.updatedAt :=
      ⟨fun a b => le_total b.updatedAt a.updatedAt⟩
    have : IsTrans (ListedCustomer δ) fun a b => b.updatedAt ≤ a.updatedAt :=
      ⟨fun _ _ _ hab hbc => le_trans hbc hab⟩
    exact List.pairwise_insertionSort _ l

/-- Two customers who left a message, the first of whom was changed last. -/
def twoCustomers : Table (ListedCustomer Unit) :=
  .ofRows [⟨0, some 1, 20, ()⟩, ⟨0, some 1, 10, ()⟩]

/-- One customer is shown on the page and two are reverted. -/
theorem revert_acts_on_more :
    (asyncList seededStatuses (some "leftmessage") (some "1") twoCustomers 1).map
        (fun a => a.collection.map ListedCustomer.id) = .ok [2] ∧
    (revertToNew (sortedByUpdate Unit) seededStatuses "leftmessage" "1" "1" twoCustomers).map
        (fun r => r.1) = .ok [1, 2] ∧
    ¬ ActsOnShown (sortedByUpdate Unit) seededStatuses "leftmessage" 1 1 twoCustomers := by
  refine ⟨by decide +kernel, by decide +kernel, fun h => ?_⟩
  obtain ⟨new, ids, t', hnew, hrevert, hrows⟩ := h _ rfl
  have hzero : new = 0 := Except.ok.inj (hnew.symm.trans (by decide +kernel))
  have hfirst := congrArg (fun r => r.2.rows.map ListedCustomer.statusId) (Except.ok.inj hrevert)
  rw [hzero] at hrows
  simp only [hrows] at hfirst
  exact absurd hfirst (by decide +kernel)

/-- A page of thirty holds both. -/
theorem revert_acts_on_shown_thirty :
    1 ≤ 1 ∧ ActsOnShown (sortedByUpdate Unit) seededStatuses "leftmessage" 1 30 twoCustomers := by
  refine ⟨le_rfl, (revert_acts_on_shown_iff _ _ _ _ _ _ le_rfl).mpr fun k new hk _ => Or.inr ?_⟩
  have hone : k = 1 := Except.ok.inj (hk.symm.trans (by decide +kernel))
  rw [hone]
  exact ⟨Or.inl rfl, by decide +kernel⟩

end HomeWarranty.Admin
