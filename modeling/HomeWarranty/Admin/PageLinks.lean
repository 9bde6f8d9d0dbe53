/-
HomeWarranty.Admin.PageLinks — which records of a list can be reached by
clicking.

`CIPaginator` makes its links from the total and the page that came with
an answer. It takes two pages more than fit when the last one is not
full, and none more when it is. With less than ten pages in its count it
shows all but the last; otherwise it shows the first three, five around
the page, and the last three.

So all is well where the last page is not full, and from ten pages on.
Of two to nine full pages the last one has no link, and `reached_iff`
says that its records are the only ones that cannot be seen.
-/
import Mathlib.Logic.Relation
import HomeWarranty.Admin.Paginator

namespace HomeWarranty.Admin

open Lib Ruby

/-! ## The links -/

/-- `pages` in `CIPaginator._onGotData`. -/
def linkTotal (count per : Nat) : Nat := count / per + if per ∣ count then 0 else 2

/-- The numbers from `first` to `last`. -/
def upTo (first last : Nat) : List Nat := List.range' first (last + 1 - first)

/-- The numbers on the links. -/
def links (pages page : Nat) : List Nat :=
  if pages < 10 then (List.range pages).filter fun i => i ≠ 0
  else (upTo 1 3 ++ upTo (page - 2) (page + 2) ++ upTo (pages - 2) pages).filter fun i =>
    1 ≤ i ∧ i ≤ pages

theorem mem_upTo {first last i : Nat} : i ∈ upTo first last ↔ first ≤ i ∧ i ≤ last := by
  rw [upTo, List.mem_range'_1]
  omega

theorem mem_links_of_few {pages : Nat} (h : pages < 10) {page i : Nat} :
    i ∈ links pages page ↔ 1 ≤ i ∧ i < pages := by
  rw [links, if_pos h, List.mem_filter, List.mem_range, decide_eq_true_iff]
  omega

theorem mem_links_of_many {pages : Nat} (h : ¬ pages < 10) {page i : Nat} :
    i ∈ links pages page ↔ (i ≤ 3 ∨ (page - 2 ≤ i ∧ i ≤ page + 2) ∨ pages - 2 ≤ i) ∧
      1 ≤ i ∧ i ≤ pages := by
  rw [links, if_neg h, List.mem_filter, List.mem_append, List.mem_append, mem_upTo, mem_upTo,
    mem_upTo, decide_eq_true_iff]
  omega

/-! ## Clicking -/

section
variable {ρ : Type} (per : Nat) (answer : Nat → PageAnswer ρ)

/-- A link of `a` leads to `b`. -/
def Click (a b : PageAnswer ρ) : Prop :=
  ∃ i ∈ links (linkTotal a.itemCount per) a.page, b = answer i

/-- What can be seen from the first page on. -/
def Reached (a : PageAnswer ρ) : Prop :=
  Relation.ReflTransGen (Click per answer) (answer 1) a

/-- The answers are the pages of a collection, and know its size. -/
structure Serves (shown : List ρ) : Prop where
  page : ∀ n, (answer n).page = n
  total : ∀ n, (answer n).itemCount = shown.length
  collection : ∀ n, (answer n).collection = Lib.page per n shown

end

section
variable {ρ : Type} {per : Nat} {answer : Nat → PageAnswer ρ} {shown : List ρ}

/-- The list of customers serves its pages where its total is right. -/
theorem serves_asyncGetCustomers {δ : Type} {scope : Scope (ListedCustomer δ)} {sales : Bool}
    {perPage : Option String} {t : Table (ListedCustomer δ)}
    (h : PagesAgree (itemsPerPage 1 perPage) (customersShown scope sales t)
      (asyncGetCustomers scope sales perPage t)) :
    Serves (itemsPerPage 1 perPage) (asyncGetCustomers scope sales perPage t)
      (customersShown scope sales t) where
  page := fun _ => rfl
  total := h.total
  collection := fun _ => rfl

theorem Serves.click_iff (h : Serves per answer shown) {n : Nat} {b : PageAnswer ρ} :
    Click per answer (answer n) b ↔
      ∃ i ∈ links (linkTotal shown.length per) n, b = answer i := by
  rw [Click, h.page, h.total]

/-- The pages that can be reached. -/
def linked (pages n : Nat) : Prop := n = 1 ∨ (1 ≤ n ∧ if pages < 10 then n < pages else n ≤ pages)

theorem linked_of_mem_links {pages page i : Nat} (h : i ∈ links pages page) : linked pages i := by
  unfold linked
  by_cases hfew : pages < 10
  · rw [if_pos hfew]
    exact .inr ((mem_links_of_few hfew).mp h)
  · rw [if_neg hfew]
    exact .inr ((mem_links_of_many hfew).mp h).2

/-- Page after page, or at once. -/
theorem reached_of_linked (h : Serves per answer shown) {n : Nat}
    (hn : linked (linkTotal shown.length per) n) : Reached per answer (answer n) := by
  by_cases hfew : linkTotal shown.length per < 10
  · simp only [linked, if_pos hfew] at hn
    rcases hn with rfl | hn
    · exact .refl
    · exact .single (h.click_iff.mpr ⟨n, (mem_links_of_few hfew).mpr hn, rfl⟩)
  · simp only [linked, if_neg hfew] at hn
    have hwalk : ∀ n, 1 ≤ n → n ≤ linkTotal shown.length per → Reached per answer (answer n) := by
      intro n hone
      induction n, hone using Nat.le_induction with
      | base => exact fun _ => .refl
      | succ n hone ih =>
          intro hle
          refine (ih (by omega)).tail (h.click_iff.mpr ⟨n + 1, ?_, rfl⟩)
          exact (mem_links_of_many hfew).mpr ⟨.inr (.inl (by omega)), by omega⟩
    rcases hn with rfl | hn
    · exact .refl
    · exact hwalk n hn.1 hn.2

theorem reached_iff_linked (h : Serves per answer shown) {a : PageAnswer ρ} :
    Reached per answer a ↔ ∃ n, linked (linkTotal shown.length per) n ∧ a = answer n := by
  constructor
  · intro hreached
    induction hreached with
    | refl => exact ⟨1, .inl rfl, rfl⟩
    | tail _ hclick ih =>
        obtain ⟨n, -, rfl⟩ := ih
        obtain ⟨i, hi, rfl⟩ := h.click_iff.mp hclick
        exact ⟨i, linked_of_mem_links hi, rfl⟩
  · rintro ⟨n, hn, rfl⟩
    exact reached_of_linked h hn

/-- Two to nine full pages. -/
def FewFullPages (per count : Nat) : Prop := per ∣ count ∧ 2 ≤ count / per ∧ count / per < 10

/-- The page of a record is linked unless it is the last of a few full
ones. -/
theorem linked_page_iff {count i : Nat} (hper : 0 < per) (hi : i < count) :
    linked (linkTotal count per) (i / per + 1) ↔
      ¬ (FewFullPages per count ∧ i / per + 1 = count / per) := by
  have hle : i / per ≤ count / per := Nat.div_le_div_right (Nat.le_of_lt hi)
  by_cases hfull : per ∣ count
  · have hlt : i / per < count / per := by
      obtain ⟨q, rfl⟩ := hfull
      rw [Nat.mul_div_cancel_left q hper]
      exact Nat.div_lt_of_lt_mul hi
    simp only [linkTotal, linked, FewFullPages, hfull, if_true, true_and]
    generalize count / per = pages at *
    generalize i / per = k at *
    split_ifs <;> omega
  · simp only [linkTotal, linked, FewFullPages, hfull, if_false, false_and, not_false_iff,
      iff_true]
    generalize count / per = pages at *
    generalize i / per = k at *
    split_ifs <;> omega

theorem mem_page_iff [DecidableEq ρ] (hnodup : shown.Nodup) {r : ρ} (hr : r ∈ shown) {n : Nat}
    (hper : 0 < per) (hn : 1 ≤ n) :
    r ∈ Lib.page per n shown ↔ shown.idxOf r / per + 1 = n := by
  rw [Lib.page, mem_slice_iff hnodup hr]
  obtain ⟨k, rfl⟩ : ∃ k, n = k + 1 := ⟨n - 1, by omega⟩
  rw [Nat.add_sub_cancel, Nat.add_right_cancel_iff, Nat.div_eq_iff hper]
  omega

/-- Every record can be reached by clicking from the first page, except
those on the last page when there are two to nine full pages. -/
theorem reached_iff (h : Serves per answer shown) (hper : 0 < per) (hnodup : shown.Nodup) :
    ∀ r ∈ shown, (∃ a, Reached per answer a ∧ r ∈ a.collection) ↔
      ¬ (FewFullPages per shown.length ∧ r ∈ Lib.page per (shown.length / per) shown) := by
  classical
  intro r hr
  have hi : shown.idxOf r < shown.length := List.idxOf_lt_length_of_mem hr
  have hseen : (∃ a, Reached per answer a ∧ r ∈ a.collection) ↔
      linked (linkTotal shown.length per) (shown.idxOf r / per + 1) := by
    constructor
    · rintro ⟨a, ha, hmem⟩
      obtain ⟨n, hn, rfl⟩ := (reached_iff_linked h).mp ha
      have hone : 1 ≤ n := by
        unfold linked at hn
        omega
      rw [h.collection, mem_page_iff hnodup hr hper hone] at hmem
      rwa [hmem]
    · intro hlinked
      refine ⟨_, reached_of_linked h hlinked, ?_⟩
      rw [h.collection]
      exact (mem_page_iff hnodup hr hper (Nat.succ_pos _)).mpr rfl
  rw [hseen, linked_page_iff hper hi]
  refine not_congr (and_congr_right fun hfew => ?_)
  have hpages : 1 ≤ shown.length / per := by
    unfold FewFullPages at hfew
    omega
  exact (mem_page_iff hnodup hr hper hpages).symm

def everybody : Scope (ListedCustomer Unit) :=
  { asTheyStand (ListedCustomer Unit) with cond := fun _ => true }

/-- Two customers, each on a page of its own: the second page has no
link. -/
theorem second_page_unreached :
    (∃ a, Reached 1 (asyncGetCustomers everybody false none twoCustomers) a ∧
      ⟨1, some 1, 20, ()⟩ ∈ a.collection) ∧
    ¬ ∃ a, Reached 1 (asyncGetCustomers everybody false none twoCustomers) a ∧
      ⟨2, some 1, 10, ()⟩ ∈ a.collection := by
  have hcount : ∀ n, (asyncGetCustomers everybody false none twoCustomers n).itemCount = 2 :=
    fun _ => rfl
  have hagree : PagesAgree (itemsPerPage 1 none) (customersShown everybody false twoCustomers)
      (asyncGetCustomers everybody false none twoCustomers) :=
    (pagesAgree_iff hcount fun _ => rfl).mpr rfl
  have hreached := reached_iff (serves_asyncGetCustomers hagree) (by decide) (by decide)
  constructor
  · refine (hreached ⟨1, some 1, 20, ()⟩ (by decide)).mpr fun hlast => ?_
    exact absurd hlast.2 (by decide)
  · intro hsecond
    exact (hreached ⟨2, some 1, 10, ()⟩ (by decide)).mp hsecond
      ⟨⟨by decide, by decide, by decide⟩, by decide⟩

end

end HomeWarranty.Admin
