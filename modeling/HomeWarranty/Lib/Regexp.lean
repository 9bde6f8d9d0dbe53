/-
HomeWarranty.Lib.Regexp — expressions of classes, repeated classes and
anchors, as a search for a match anywhere in a text.

`ends` are the places where a match can stop, in the order in which they
are tried; an anchor asks how much of the text is in front. `Spans` is
what an expression says, as a relation between the match and what stands
in front of it and behind it, and `mem_ends_iff` relates the two. A
search finds a match when there is one anywhere (`test_iff`).

Anchors bind to the alternative they stand in (`spans_anyOf_iff`): in
`^a|b$` the `b` has to be at the end and the `a` at the start, and
neither has to be both.
-/
import Mathlib.Data.List.TakeWhile
import Mathlib.Tactic.Tauto

namespace HomeWarranty.Lib

inductive Regexp (α : Type) where
  /-- `^`. -/
  | start
  /-- `$`. -/
  | finish
  /-- One element of a class. -/
  | one (p : α → Bool)
  /-- `p{least,most}`. -/
  | many (p : α → Bool) (least : Nat) (most : Option Nat)
  | seq (r s : Regexp α)
  | alt (r s : Regexp α)

namespace Regexp

variable {α : Type}

/-- The numbers of elements that `p{least,most}` takes, the most first. -/
def counts (p : α → Bool) (least : Nat) (most : Option Nat) (cs : List α) : List Nat :=
  ((List.range ((cs.takeWhile p).length + 1)).filter fun k =>
    decide (least ≤ k) && most.all (decide <| k ≤ ·)).reverse

/-- What is left behind a match that starts here, `before` elements after
the start of the text. -/
def ends : Regexp α → Nat → List α → List (List α)
  | start, before, cs => if before = 0 then [cs] else []
  | finish, _, cs => if cs.isEmpty then [cs] else []
  | one _, _, [] => []
  | one p, _, c :: cs => if p c then [cs] else []
  | many p least most, _, cs => (counts p least most cs).map cs.drop
  | seq r s, before, cs =>
      (r.ends before cs).flatMap fun rest => s.ends (before + (cs.length - rest.length)) rest
  | alt r s, before, cs => r.ends before cs ++ s.ends before cs

/-- `cs` has a match. -/
def test (r : Regexp α) (cs : List α) : Bool :=
  (List.range (cs.length + 1)).any fun n => !(r.ends n (cs.drop n)).isEmpty

/-- `mid` is a match between `pre` and `post`. -/
def Spans : Regexp α → List α → List α → List α → Prop
  | start, pre, mid, _ => mid = [] ∧ pre = []
  | finish, _, mid, post => mid = [] ∧ post = []
  | one p, _, mid, _ => ∃ c, mid = [c] ∧ p c = true
  | many p least most, _, mid, _ =>
      least ≤ mid.length ∧ (∀ m ∈ most, mid.length ≤ m) ∧ ∀ c ∈ mid, p c = true
  | seq r s, pre, mid, post =>
      ∃ m₁ m₂, mid = m₁ ++ m₂ ∧ r.Spans pre m₁ (m₂ ++ post) ∧ s.Spans (pre ++ m₁) m₂ post
  | alt r s, pre, mid, post => r.Spans pre mid post ∨ s.Spans pre mid post

/-! ## Matches -/

/-- A class can be repeated over a front of its run. -/
theorem le_length_takeWhile_iff {p : α → Bool} {cs : List α} {k : Nat} :
    k ≤ (cs.takeWhile p).length ↔ k ≤ cs.length ∧ ∀ c ∈ cs.take k, p c = true := by
  induction cs generalizing k with
  | nil => simp
  | cons c cs ih =>
      cases k with
      | zero => simp
      | succ k =>
          rw [List.take_succ_cons, List.forall_mem_cons, List.length_cons, Nat.succ_le_succ_iff]
          cases hc : p c with
          | false => simp [hc]
          | true => simp [hc, ih]

theorem mem_counts_iff {p : α → Bool} {least : Nat} {most : Option Nat} {cs : List α} {k : Nat} :
    k ∈ counts p least most cs ↔ k ≤ cs.length ∧ least ≤ k ∧ (∀ m ∈ most, k ≤ m) ∧
      ∀ c ∈ cs.take k, p c = true := by
  rw [counts, List.mem_reverse, List.mem_filter, List.mem_range, Nat.lt_succ_iff,
    le_length_takeWhile_iff, Bool.and_eq_true, decide_eq_true_iff, Option.all_eq_true]
  simp only [decide_eq_true_iff, Option.mem_def]
  tauto

/-- A place where a match can stop is one that a match reaches. -/
theorem mem_ends_iff (r : Regexp α) (pre cs post : List α) :
    post ∈ r.ends pre.length cs ↔ ∃ mid, cs = mid ++ post ∧ r.Spans pre mid post := by
  induction r generalizing pre cs post with
  | start =>
      cases pre with
      | nil => simp [ends, Spans, eq_comm]
      | cons x pre => simp [ends, Spans]
  | finish =>
      cases cs with
      | nil => simp [ends, Spans]
      | cons c cs =>
          refine iff_of_false (by simp [ends]) ?_
          rintro ⟨mid, hcs, rfl, rfl⟩
          cases hcs
  | one p =>
      cases cs with
      | nil => simp [ends, Spans]
      | cons c cs =>
          rw [ends]
          constructor
          · intro h
            split_ifs at h with hc
            · obtain rfl := List.mem_singleton.mp h
              exact ⟨[c], rfl, c, rfl, hc⟩
            · cases h
          · rintro ⟨mid, hcs, x, rfl, hx⟩
            obtain ⟨rfl, rfl⟩ := List.cons.inj hcs
            rw [if_pos hx]
            exact List.mem_singleton_self _
  | many p least most =>
      rw [ends, List.mem_map]
      constructor
      · rintro ⟨k, hk, rfl⟩
        obtain ⟨hlen, hleast, hmost, hall⟩ := mem_counts_iff.mp hk
        have htake : (cs.take k).length = k := List.length_take_of_le hlen
        refine ⟨cs.take k, (List.take_append_drop k cs).symm, ?_⟩
        rw [Spans, htake]
        exact ⟨hleast, hmost, hall⟩
      · rintro ⟨mid, rfl, hleast, hmost, hall⟩
        refine ⟨mid.length, mem_counts_iff.mpr ⟨?_, hleast, hmost, ?_⟩, List.drop_left⟩
        · rw [List.length_append]
          omega
        · rwa [List.take_left]
  | seq r s ihr ihs =>
      have hplace : ∀ m₁ rest : List α,
          pre.length + ((m₁ ++ rest).length - rest.length) = (pre ++ m₁).length := by
        intro m₁ rest
        rw [List.length_append, List.length_append]
        omega
      rw [ends, List.mem_flatMap]
      constructor
      · rintro ⟨rest, hrest, hpost⟩
        obtain ⟨m₁, rfl, hr⟩ := (ihr pre cs rest).mp hrest
        rw [hplace] at hpost
        obtain ⟨m₂, rfl, hs⟩ := (ihs (pre ++ m₁) rest post).mp hpost
        exact ⟨m₁ ++ m₂, (List.append_assoc _ _ _).symm, m₁, m₂, rfl, hr, hs⟩
      · rintro ⟨mid, rfl, m₁, m₂, rfl, hr, hs⟩
        refine ⟨m₂ ++ post, (ihr pre _ _).mpr ⟨m₁, List.append_assoc _ _ _, hr⟩, ?_⟩
        rw [List.append_assoc, hplace]
        exact (ihs (pre ++ m₁) _ _).mpr ⟨m₂, rfl, hs⟩
  | alt r s ihr ihs =>
      rw [ends, List.mem_append, ihr, ihs, ← exists_or]
      refine exists_congr fun mid => ?_
      rw [← and_or_left, Spans]

theorem test_iff (r : Regexp α) (cs : List α) :
    r.test cs = true ↔ ∃ pre mid post, cs = pre ++ (mid ++ post) ∧ r.Spans pre mid post := by
  rw [test, List.any_eq_true]
  constructor
  · rintro ⟨n, hn, hends⟩
    have hle : n ≤ cs.length := Nat.lt_succ_iff.mp (List.mem_range.mp hn)
    rw [Bool.not_eq_true', List.isEmpty_eq_false_iff] at hends
    obtain ⟨post, hpost⟩ := List.exists_mem_of_ne_nil _ hends
    rw [← List.length_take_of_le hle] at hpost
    obtain ⟨mid, hmid, hspans⟩ := (mem_ends_iff r _ _ post).mp hpost
    rw [List.length_take_of_le hle] at hmid
    exact ⟨cs.take n, mid, post, by rw [← hmid, List.take_append_drop], hspans⟩
  · rintro ⟨pre, mid, post, rfl, hspans⟩
    have hpost := (mem_ends_iff r pre (mid ++ post) post).mpr ⟨mid, rfl, hspans⟩
    refine ⟨pre.length, List.mem_range.mpr ?_, ?_⟩
    · rw [List.length_append]
      omega
    · rw [List.drop_left, Bool.not_eq_true', List.isEmpty_eq_false_iff]
      exact List.ne_nil_of_mem hpost

/-! ## Anchors -/

theorem test_seq_start_iff (r : Regexp α) (cs : List α) :
    (seq start r).test cs = true ↔ ∃ mid post, cs = mid ++ post ∧ r.Spans [] mid post := by
  rw [test_iff]
  constructor
  · rintro ⟨pre, mid, post, rfl, m₁, m₂, rfl, ⟨rfl, rfl⟩, hspans⟩
    exact ⟨m₂, post, rfl, hspans⟩
  · rintro ⟨mid, post, rfl, hspans⟩
    exact ⟨[], mid, post, rfl, [], mid, rfl, ⟨rfl, rfl⟩, hspans⟩

theorem test_seq_finish_iff (r : Regexp α) (cs : List α) :
    (seq r finish).test cs = true ↔ ∃ pre mid, cs = pre ++ mid ∧ r.Spans pre mid [] := by
  rw [test_iff]
  constructor
  · rintro ⟨pre, mid, post, rfl, m₁, m₂, rfl, hspans, rfl, rfl⟩
    exact ⟨pre, m₁, by rw [List.append_nil, List.append_nil], hspans⟩
  · rintro ⟨pre, mid, rfl, hspans⟩
    exact ⟨pre, mid, [], by rw [List.append_nil], mid, [], (List.append_nil mid).symm, hspans,
      rfl, rfl⟩

/-! ## Alternatives -/

/-- `r₁|r₂|…`; of no alternatives there is no match. -/
def anyOf : List (Regexp α) → Regexp α
  | [] => one fun _ => false
  | r :: rs => alt r (anyOf rs)

/-- Each alternative is matched with its own anchors. -/
theorem spans_anyOf_iff {rs : List (Regexp α)} {pre mid post : List α} :
    (anyOf rs).Spans pre mid post ↔ ∃ r ∈ rs, r.Spans pre mid post := by
  induction rs with
  | nil => simp [anyOf, Spans]
  | cons r rs ih => simp [anyOf, Spans, ih]

theorem test_anyOf_iff {rs : List (Regexp α)} {cs : List α} :
    (anyOf rs).test cs = true ↔ ∃ r ∈ rs, r.test cs = true := by
  simp only [test_iff, spans_anyOf_iff]
  constructor
  · rintro ⟨pre, mid, post, hcs, r, hr, hspans⟩
    exact ⟨r, hr, pre, mid, post, hcs, hspans⟩
  · rintro ⟨r, hr, pre, mid, post, hcs, hspans⟩
    exact ⟨pre, mid, post, hcs, r, hr, hspans⟩

end Regexp

end HomeWarranty.Lib
