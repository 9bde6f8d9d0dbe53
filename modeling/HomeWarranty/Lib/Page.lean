/-
HomeWarranty.Lib.Page — a list shown in pages.

Page `n` of a list, counted from 1, is a slice of `per` elements. The
first `k` pages put together are the first `k * per` elements
(`flatMap_page`), so as many pages as the length asks for are the whole
list (`pages_cover`), and none of them is empty (`page_ne_nil`).

`slices_agree_iff` compares slices of two arrangements of one list: they
hold the same elements exactly when they are of one length and the
elements of the one have their places in the other.
-/
import Mathlib.Data.List.Basic
import Mathlib.Data.List.Nodup
import Mathlib.Data.List.Perm.Subperm

namespace HomeWarranty.Lib

universe u

variable {α : Type u}

/-- `offset` and `limit`. -/
def slice (offset limit : Nat) (l : List α) : List α := (l.drop offset).take limit

/-- The page `n` of a list, in pages of `per`. -/
def page (per n : Nat) (l : List α) : List α := slice ((n - 1) * per) per l

/-- How many pages so many elements make. -/
def pageCount (count per : Nat) : Nat := (count + per - 1) / per

theorem length_slice (offset limit : Nat) (l : List α) :
    (slice offset limit l).length = min limit (l.length - offset) := by
  simp [slice]

theorem mem_of_mem_slice {offset limit : Nat} {l : List α} {a : α}
    (h : a ∈ slice offset limit l) : a ∈ l :=
  List.mem_of_mem_drop (List.mem_of_mem_take h)

theorem nodup_slice {offset limit : Nat} {l : List α} (h : l.Nodup) :
    (slice offset limit l).Nodup :=
  h.sublist ((List.take_sublist _ _).trans (List.drop_sublist _ _))

/-- The first pages put together are a first part of the list. -/
theorem flatMap_page (per k : Nat) (l : List α) :
    (List.range k).flatMap (fun i => page per (i + 1) l) = l.take (k * per) := by
  induction k with
  | zero => simp
  | succ k ih =>
      rw [List.range_succ, List.flatMap_append, ih, Nat.succ_mul, List.take_add]
      simp [page, slice]

theorem le_pageCount_mul {per : Nat} (h : 0 < per) (count : Nat) :
    count ≤ pageCount count per * per := by
  have hdiv := Nat.div_add_mod (count + per - 1) per
  have hmod := Nat.mod_lt (count + per - 1) h
  unfold pageCount
  rw [Nat.mul_comm]
  omega

/-- All pages together are the list. -/
theorem pages_cover {per : Nat} (h : 0 < per) (l : List α) :
    (List.range (pageCount l.length per)).flatMap (fun i => page per (i + 1) l) = l := by
  rw [flatMap_page, List.take_of_length_le (le_pageCount_mul h l.length)]

/-- No page is empty. -/
theorem page_ne_nil {per n : Nat} {l : List α} (hn : 1 ≤ n)
    (hle : n ≤ pageCount l.length per) : page per n l ≠ [] := by
  have hper : 0 < per := by
    rcases Nat.eq_zero_or_pos per with rfl | hpos
    · simp [pageCount] at hle
      omega
    · exact hpos
  have hbound : n * per ≤ l.length + per - 1 :=
    (Nat.le_div_iff_mul_le hper).mp hle
  have hsplit : n * per = (n - 1) * per + per := by
    rw [Nat.sub_mul, Nat.one_mul, Nat.sub_add_cancel (Nat.le_mul_of_pos_left per hn)]
  intro hnil
  have hlen := length_slice ((n - 1) * per) per l
  rw [show slice ((n - 1) * per) per l = [] from hnil, List.length_nil] at hlen
  omega

/-! ## Places -/

variable [DecidableEq α]

/-- An element is in a slice when its place is. -/
theorem mem_slice_iff {offset limit : Nat} {l : List α} {a : α} (hl : l.Nodup) (ha : a ∈ l) :
    a ∈ slice offset limit l ↔ offset ≤ l.idxOf a ∧ l.idxOf a < offset + limit := by
  have hi : l.idxOf a < l.length := List.idxOf_lt_length_of_mem ha
  constructor
  · intro hmem
    obtain ⟨k, hk⟩ := List.mem_iff_getElem?.mp hmem
    rw [slice, List.getElem?_take] at hk
    split at hk
    · rename_i hlt
      rw [List.getElem?_drop] at hk
      have hat : l[l.idxOf a]? = some a := by
        rw [List.getElem?_eq_getElem hi, List.getElem_idxOf]
      have hsame : offset + k = l.idxOf a :=
        (List.getElem?_inj (List.getElem?_eq_some_iff.mp hk).1 hl).mp (hk.trans hat.symm)
      omega
    · cases hk
  · rintro ⟨hle, hlt⟩
    apply List.mem_iff_getElem?.mpr
    refine ⟨l.idxOf a - offset, ?_⟩
    rw [slice, List.getElem?_take, if_pos (by omega), List.getElem?_drop,
      Nat.add_sub_cancel' hle, List.getElem?_eq_getElem hi, List.getElem_idxOf]

/-- Two slices hold the same elements exactly when they are of one
length and the elements of the first have their place in the second. -/
theorem slices_agree_iff {offset m n : Nat} {k l : List α} (hperm : k.Perm l) (hk : k.Nodup) :
    (∀ a, a ∈ slice offset m k ↔ a ∈ slice offset n l) ↔
      (m = n ∨ k.length ≤ offset + min m n) ∧
        ∀ a ∈ slice offset m k, offset ≤ l.idxOf a ∧ l.idxOf a < offset + n := by
  have hl : l.Nodup := hperm.nodup_iff.mp hk
  have hlen : (m = n ∨ k.length ≤ offset + min m n) ↔
      (slice offset m k).length = (slice offset n l).length := by
    rw [length_slice, length_slice, ← hperm.length_eq]
    omega
  have hsub : (∀ a ∈ slice offset m k, offset ≤ l.idxOf a ∧ l.idxOf a < offset + n) ↔
      slice offset m k ⊆ slice offset n l := by
    constructor
    · intro h a ha
      exact (mem_slice_iff hl (hperm.subset (mem_of_mem_slice ha))).mpr (h a ha)
    · intro h a ha
      exact (mem_slice_iff hl (hperm.subset (mem_of_mem_slice ha))).mp (h ha)
  rw [hlen, hsub]
  constructor
  · intro h
    have heq : (slice offset m k).Perm (slice offset n l) :=
      (List.perm_ext_iff_of_nodup (nodup_slice hk) (nodup_slice hl)).mpr h
    exact ⟨heq.length_eq, heq.subset⟩
  · rintro ⟨hlength, hsubset⟩
    have heq := (List.subperm_of_subset (nodup_slice hk) hsubset).perm_of_length_le
      (Nat.le_of_eq hlength.symm)
    exact fun a => heq.mem_iff

end HomeWarranty.Lib
