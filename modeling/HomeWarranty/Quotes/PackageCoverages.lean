/-
HomeWarranty.Quotes.PackageCoverages — the coverages of the packages in
columns of four.

The repository adds a division to arrays: `a / n` pops `n` elements at a
time from the end of a copy until nothing is left, and drops the `nil`s
that come from popping an empty array. One round takes the next run of
the reversed array (`divisionRound_eq`), so a division by one or more
returns the runs of the reversed array without their `nil`s
(`divides_iff`); a division by zero of anything but nothing does not
return.

The settings page reverses the coverages before it divides them, so the
columns show them in their order: `array_division_partitions`.
-/
import Mathlib.Data.List.Count
import Mathlib.Data.List.Nodup
import HomeWarranty.Lib.Chunks
import HomeWarranty.Lib.Loop
import HomeWarranty.Quotes.Coverages

namespace HomeWarranty.Quotes

open Lib

/-! ## Division of arrays -/

section
variable {α : Type}

/-- `set << a.pop`; the end of an empty array is `nil`. -/
def popInto : List (Option α) × List (Option α) → List (Option α) × List (Option α)
  | (a, set) => (a.dropLast, set ++ [a.getLast?.join])

/-- `compact`. -/
def compact (set : List (Option α)) : List (Option α) := set.filter Option.isSome

/-- The variables of the loop. -/
structure Division (α : Type) where
  a : List (Option α)
  sets : List (List (Option α))

/-- The body of the loop. -/
def divisionRound (n : Nat) (s : Division α) : Division α :=
  let (a, set) := popInto^[n] (s.a, [])
  ⟨a, s.sets ++ [compact set]⟩

/-- `not a.empty?`. -/
def Division.unfinished (s : Division α) : Bool := !s.a.isEmpty

/-- `a / n`, for a number of rounds at most. -/
def divide (rounds : Nat) (a : List (Option α)) (n : Nat) : Option (List (List (Option α))) :=
  (whileLoop Division.unfinished (divisionRound n) rounds ⟨a, []⟩).map Division.sets

/-- `a / n` returns these sets. -/
def Divides (a : List (Option α)) (n : Nat) (sets : List (List (Option α))) : Prop :=
  ∃ rounds, divide rounds a n = some sets

/-! ## What a round does -/

/-- Pops from the end are elements from the front of the reversed array,
and `nil`s after its last one. -/
theorem popInto_iterate (n : Nat) (r set : List (Option α)) :
    popInto^[n] (r.reverse, set) =
      ((r.drop n).reverse, set ++ (r.take n ++ List.replicate (n - r.length) none)) := by
  induction n generalizing r set with
  | zero => simp
  | succ n ih =>
      rw [Function.iterate_succ_apply]
      cases r with
      | nil =>
          have hpop : popInto (([] : List (Option α)).reverse, set) = ([].reverse, set ++ [none]) :=
            rfl
          rw [hpop, ih]
          simp [List.replicate_succ]
      | cons x r =>
          have hpop : popInto ((x :: r).reverse, set) = (r.reverse, set ++ [x]) := by
            simp [popInto]
          rw [hpop, ih]
          simp

theorem compact_append_none (set : List (Option α)) (k : Nat) :
    compact (set ++ List.replicate k none) = compact set := by
  rw [compact, List.filter_append, compact]
  simp

/-- A round takes the next run of the reversed array. -/
theorem divisionRound_eq (n : Nat) (s : Division α) :
    divisionRound n s =
      ⟨(s.a.reverse.drop n).reverse, s.sets ++ [compact (s.a.reverse.take n)]⟩ := by
  have hpops := popInto_iterate n s.a.reverse []
  rw [List.reverse_reverse] at hpops
  rw [divisionRound, hpops]
  simp only [List.nil_append, compact_append_none]

/-- The sets that are built, and those of the runs that are left. -/
def Division.outcome (n : Nat) (s : Division α) : List (List (Option α)) :=
  s.sets ++ (chunks n s.a.reverse).map compact

section
variable {n : Nat} (hn : 0 < n)
include hn

theorem outcome_divisionRound {s : Division α} (h : s.unfinished = true) :
    (divisionRound n s).outcome n = s.outcome n := by
  have hne : s.a.reverse ≠ [] := by
    simpa [Division.unfinished] using h
  rw [divisionRound_eq, Division.outcome, Division.outcome, chunks_cons hn hne,
    List.reverse_reverse, List.map_cons, List.append_assoc, List.singleton_append]

theorem length_divisionRound_lt {s : Division α} (h : s.unfinished = true) :
    (divisionRound n s).a.length < s.a.length := by
  have hpos : 0 < s.a.length := by
    simpa [Division.unfinished, List.length_pos_iff] using h
  rw [divisionRound_eq, List.length_reverse, List.length_drop, List.length_reverse]
  omega

/-- The loop returns, with the runs of the reversed array. -/
theorem divides_chunks (a : List (Option α)) :
    Divides a n ((chunks n a.reverse).map compact) := by
  have hloop : ∃ t, Returns Division.unfinished (divisionRound n) ⟨a, []⟩ t ∧
      t.outcome n = (chunks n a.reverse).map compact ∧ t.unfinished = false :=
    returns_of_variant (fun s : Division α => s.outcome n = (chunks n a.reverse).map compact)
      (fun s => s.a.length)
      (fun s hs h => ⟨(outcome_divisionRound hn h).trans hs, length_divisionRound_lt hn h⟩) rfl
  obtain ⟨t, ⟨rounds, hreturns⟩, houtcome, hdone⟩ := hloop
  have hempty : t.a = [] := by
    simpa [Division.unfinished] using hdone
  rw [Division.outcome, hempty, List.reverse_nil, chunks_nil, List.map_nil,
    List.append_nil] at houtcome
  exact ⟨rounds, by rw [divide, hreturns, Option.map_some, houtcome]⟩

theorem divides_iff (a : List (Option α)) (sets : List (List (Option α))) :
    Divides a n sets ↔ sets = (chunks n a.reverse).map compact := by
  constructor
  · rintro ⟨rounds, h⟩
    obtain ⟨rounds', h'⟩ := divides_chunks hn a
    obtain ⟨t, ht, rfl⟩ := Option.map_eq_some_iff.mp h
    obtain ⟨t', ht', heq⟩ := Option.map_eq_some_iff.mp h'
    rw [← heq, Returns.unique ⟨rounds, ht⟩ ⟨rounds', ht'⟩]
  · rintro rfl
    exact divides_chunks hn a

end

/-- Popping nothing leaves the array as it is. -/
theorem not_divides_zero {a : List (Option α)} (ha : a ≠ []) : ¬ ∃ sets, Divides a 0 sets := by
  rintro ⟨sets, rounds, h⟩
  obtain ⟨t, ht, _⟩ := Option.map_eq_some_iff.mp h
  refine not_returns (fun s : Division α => s.a ≠ []) (fun s hs => ⟨?_, ?_⟩) ha ⟨t, rounds, ht⟩
  · simpa [Division.unfinished] using hs
  · rw [divisionRound_eq]
    simpa using hs

theorem compact_eq_self {set : List (Option α)} (h : none ∉ set) : compact set = set := by
  refine List.filter_eq_self.mpr fun x hx => ?_
  cases x with
  | none => exact absurd hx h
  | some x => rfl

/-- Without `nil`s the division returns the runs themselves. -/
theorem divides_iff_of_nil_free {a : List (Option α)} {n : Nat} (hn : 0 < n) (hnil : none ∉ a)
    (sets : List (List (Option α))) : Divides a n sets ↔ sets = chunks n a.reverse := by
  have hsame : ∀ run ∈ chunks n a.reverse, compact run = run := by
    intro run hrun
    refine compact_eq_self fun hnone => hnil ?_
    rw [← List.mem_reverse, ← flatten_chunks hn a.reverse]
    exact List.mem_flatten_of_mem hrun hnone
  rw [divides_iff hn, List.map_congr_left hsame, List.map_id']

end

/-! ## The settings page -/

/-- `Coverage.for_packages`; `before` compares the names as the database
does. -/
def forPackages (before : Coverage → Coverage → Bool) (t : Table Coverage) : List Coverage :=
  (t.rows.filter (·.optional == some 0)).mergeSort before

/-- The sets that `index` shows. -/
def PackageCoverageSets (before : Coverage → Coverage → Bool) (t : Table Coverage)
    (sets : List (List (Option Coverage))) : Prop :=
  Divides ((forPackages before t).reverse.map some) 4 sets

theorem packageCoverageSets_iff (before : Coverage → Coverage → Bool) (t : Table Coverage)
    (sets : List (List (Option Coverage))) :
    PackageCoverageSets before t sets ↔ sets = chunks 4 ((forPackages before t).map some) := by
  have hnil : none ∉ (forPackages before t).reverse.map some := by simp
  rw [PackageCoverageSets, divides_iff_of_nil_free (by decide) hnil, List.map_reverse,
    List.reverse_reverse]

theorem count_forPackages (before : Coverage → Coverage → Bool) {t : Table Coverage} {c : Coverage}
    (hc : c ∈ t.rows) (hoptional : c.optional = some 0) : (forPackages before t).count c = 1 := by
  have hperm := List.mergeSort_perm (t.rows.filter (·.optional == some 0)) before
  rw [forPackages, hperm.count_eq, List.count_filter (by simpa using hoptional)]
  exact List.count_eq_one_of_mem t.nodup_rows hc

/-- Division by one or more returns, and cuts the reversed array; the
settings page shows every coverage of the packages once, in their
order. -/
theorem array_division_partitions {α : Type} (a : List (Option α)) (n : Nat) (hn : 1 ≤ n)
    (hnil : none ∉ a) (before : Coverage → Coverage → Bool) (t : Table Coverage) :
    (∃ sets, (∀ sets', Divides a n sets' ↔ sets' = sets) ∧ Cut n a.reverse sets) ∧
      ∃ sets, (∀ sets', PackageCoverageSets before t sets' ↔ sets' = sets) ∧
        Cut 4 ((forPackages before t).map some) sets ∧
        ∀ c ∈ t.rows, c.optional = some 0 → sets.flatten.count (some c) = 1 := by
  have hcut := cut_chunks (n := 4) (by decide) ((forPackages before t).map some)
  refine ⟨⟨_, divides_iff_of_nil_free hn hnil, cut_chunks hn a.reverse⟩,
    _, packageCoverageSets_iff before t, hcut, fun c hc hoptional => ?_⟩
  rw [hcut.flatten, List.count_map_of_injective _ _ (Option.some_injective _)]
  exact count_forPackages before hc hoptional

/-- Nine elements in sets of four. -/
theorem array_division_partitions_nine :
    Divides ([1, 2, 3, 4, 5, 6, 7, 8, 9].map some) 4
        ([[9, 8, 7, 6], [5, 4, 3, 2], [1]].map (List.map some)) ∧
      Cut 4 ([9, 8, 7, 6, 5, 4, 3, 2, 1].map some)
        ([[9, 8, 7, 6], [5, 4, 3, 2], [1]].map (List.map some)) := by
  have hdivides : Divides ([1, 2, 3, 4, 5, 6, 7, 8, 9].map some) 4
      ([[9, 8, 7, 6], [5, 4, 3, 2], [1]].map (List.map some)) := ⟨3, rfl⟩
  obtain ⟨⟨sets, hsets, hcut⟩, _⟩ := array_division_partitions
    ([1, 2, 3, 4, 5, 6, 7, 8, 9].map some) 4 (by decide) (by decide) (fun _ _ => true)
    (Table.empty : Table Coverage)
  obtain rfl := (hsets _).mp hdivides
  exact ⟨hdivides, hcut⟩

end HomeWarranty.Quotes
