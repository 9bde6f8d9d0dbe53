/-
HomeWarranty.Ruby.Regex — patterns of captured digits and separators.

A pattern is a list of pieces: `(\d{least,most})`, `[…]` and `x?`. A
piece that can match in several ways takes the longest first and gives
way when the rest does not match (`matchHere`), as the engine of Ruby
does by going back. What comes out are the captured digits.

The rules say what a whole RUN of digits does. It is captured when its
length is allowed and the rest matches (`matchHere_digits`), and a
pattern of digits and then a separator that is no digit matches nowhere
but at the end of the run (`matchHere_run_eq_none`), so going back into
the run finds nothing.
-/
import Mathlib.Data.List.TakeWhile
import HomeWarranty.Ruby.Scan

namespace HomeWarranty.Ruby

inductive Piece where
  | digits (least most : Nat)
  | oneOf (xs : List Char)
  | maybe (x : Char)
  deriving DecidableEq

/-- The largest count from `n` down to `least` for which `f` has a
result. -/
def tryCounts {β : Type} (f : Nat → Option β) (least : Nat) : Nat → Option β
  | 0 => if least = 0 then f 0 else none
  | n + 1 => if least ≤ n + 1 then (f (n + 1)).or (tryCounts f least n) else none

example : tryCounts (fun n => if n ≤ 2 then some n else none) 1 4 = some 2 := by simp [tryCounts]

/-- The captures of a match that starts here. -/
def matchHere : List Piece → List Char → Option (List (List Char))
  | [], _ => some []
  | .digits least most :: ps, cs =>
      tryCounts (fun n =>
        if n ≤ (cs.takeWhile Char.isDigit).length then
          (matchHere ps (cs.drop n)).map fun captures => cs.take n :: captures
        else none) least most
  | .oneOf _ :: _, [] => none
  | .oneOf xs :: ps, c :: cs => if xs.contains c then matchHere ps cs else none
  | .maybe _ :: ps, [] => matchHere ps []
  | .maybe x :: ps, c :: cs =>
      if c == x then (matchHere ps cs).or (matchHere ps (c :: cs)) else matchHere ps (c :: cs)

example (xs : List Char) (ps : List Piece) : matchHere (.oneOf xs :: ps) [] = none := by
  rw [matchHere]

/-- `^` and the pattern. -/
def lineMatch (ps : List Piece) (prev : Option Char) (cs : List Char) :
    Option (List (List Char)) :=
  if lineStart prev then matchHere ps cs else none

/-- `s =~ /^…/`, with what was captured. -/
def matchLine (ps : List Piece) (cs : List Char) : Option (List (List Char)) :=
  scan (lineMatch ps) none cs

example : matchLine [.digits 1 2, .maybe '-', .digits 2 4] "12345".toList =
      some ["12".toList, "345".toList] ∧
    matchLine [.digits 1 2, .maybe '-', .digits 2 4] "123".toList =
      some ["1".toList, "23".toList] := by decide

/-- In a text of one line the pattern has to match at its start. -/
theorem matchLine_eq (ps : List Piece) {cs : List Char} (h : '\n' ∉ cs) :
    matchLine ps cs = matchHere ps cs := by
  have hline : ∀ prev cs, lineStart prev = false → lineMatch ps prev cs = none := by
    intro prev cs hprev
    simp [lineMatch, hprev]
  rw [matchLine, scan_of_lineStart hline h]
  rfl

/-! ## Counts -/

section
variable {β : Type} {f : Nat → Option β} {least n : Nat}

theorem tryCounts_eq_some {k : Nat} {b : β} (hlo : least ≤ k) (hk : k ≤ n) (hb : f k = some b)
    (hno : ∀ j, k < j → j ≤ n → f j = none) : tryCounts f least n = some b := by
  induction n with
  | zero =>
      have hzero : k = 0 := by omega
      subst hzero
      simp [tryCounts, hb, show least = 0 by omega]
  | succ n ih =>
      rw [tryCounts, if_pos (by omega)]
      rcases Nat.lt_or_eq_of_le hk with hlt | heq
      · rw [hno (n + 1) hlt (by omega), Option.none_or]
        exact ih (by omega) fun j hj hle => hno j hj (by omega)
      · rw [← heq, hb, Option.some_or]

theorem tryCounts_eq_none (h : ∀ j, least ≤ j → j ≤ n → f j = none) :
    tryCounts f least n = none := by
  induction n with
  | zero =>
      by_cases hzero : least = 0
      · simp [tryCounts, hzero, h 0 (by omega) (by omega)]
      · simp [tryCounts, hzero]
  | succ n ih =>
      by_cases hlo : least ≤ n + 1
      · rw [tryCounts, if_pos hlo, h (n + 1) hlo (by omega), Option.none_or]
        exact ih fun j hj hle => h j hj (by omega)
      · rw [tryCounts, if_neg hlo]

theorem exists_of_tryCounts {b : β} (h : tryCounts f least n = some b) :
    ∃ k, least ≤ k ∧ k ≤ n ∧ f k = some b := by
  induction n with
  | zero =>
      rw [tryCounts] at h
      split_ifs at h with hzero
      exact ⟨0, hzero.le, Nat.le_refl 0, h⟩
  | succ n ih =>
      rw [tryCounts] at h
      split_ifs at h with hlo
      rcases Option.or_eq_some_iff.mp h with hfirst | ⟨_, hrest⟩
      · exact ⟨n + 1, hlo, Nat.le_refl _, hfirst⟩
      · obtain ⟨k, hk, hkn, hb⟩ := ih hrest
        exact ⟨k, hk, Nat.le_succ_of_le hkn, hb⟩

end

/-! ## Pieces -/

section
variable {ps : List Piece} {xs ds cs rest : List Char} {captures : List (List Char)}
  {least most : Nat}

/-- The text does not go on with a digit. -/
def NoDigit (cs : List Char) : Prop := ∀ c, cs.head? = some c → c.isDigit = false

theorem noDigit_nil : NoDigit [] := fun _ h => (by cases h)

theorem noDigit_cons {c : Char} (h : c.isDigit = false) (cs : List Char) : NoDigit (c :: cs) := by
  intro d hd
  rw [← Option.some.inj hd, h]

theorem takeWhile_run (hd : ∀ c ∈ ds, c.isDigit = true) (hrest : NoDigit rest) :
    (ds ++ rest).takeWhile Char.isDigit = ds := by
  rw [List.takeWhile_append_of_pos hd]
  cases rest with
  | nil => simp
  | cons c cs => rw [List.takeWhile_cons_of_neg (by simp [hrest c rfl]), List.append_nil]

/-- A run of digits is captured when it is as long as it may be or
nothing of it is left. -/
theorem matchHere_digits (hd : ∀ c ∈ ds, c.isDigit = true) (hlo : least ≤ ds.length)
    (hhi : ds.length ≤ most) (hend : ds.length = most ∨ NoDigit rest)
    (h : matchHere ps rest = some captures) :
    matchHere (.digits least most :: ps) (ds ++ rest) = some (ds :: captures) := by
  have hrun : ds.length ≤ ((ds ++ rest).takeWhile Char.isDigit).length := by
    rw [List.takeWhile_append_of_pos hd, List.length_append]
    omega
  rw [matchHere]
  refine tryCounts_eq_some hlo hhi ?_ ?_
  · rw [if_pos hrun, List.drop_left, h, Option.map_some, List.take_left]
  · intro j hj hle
    rcases hend with heq | hrest
    · omega
    · rw [if_neg]
      rw [takeWhile_run hd hrest]
      omega

theorem matchHere_digits_eq_none
    (h : ∀ j, least ≤ j → j ≤ most → j ≤ (cs.takeWhile Char.isDigit).length →
      matchHere ps (cs.drop j) = none) :
    matchHere (.digits least most :: ps) cs = none := by
  rw [matchHere]
  refine tryCounts_eq_none fun j hlo hhi => ?_
  by_cases hrun : j ≤ (cs.takeWhile Char.isDigit).length
  · rw [if_pos hrun, h j hlo hhi hrun, Option.map_none]
  · rw [if_neg hrun]

theorem matchHere_oneOf {x : Char} (hx : x ∈ xs) :
    matchHere (.oneOf xs :: ps) (x :: cs) = matchHere ps cs := by
  rw [matchHere, if_pos (by simpa using hx)]

theorem matchHere_oneOf_eq_none (h : ∀ c, cs.head? = some c → c ∉ xs) :
    matchHere (.oneOf xs :: ps) cs = none := by
  cases cs with
  | nil => rfl
  | cons c cs => rw [matchHere, if_neg (by simpa using h c rfl)]

/-- Digits and then a separator match at the end of the run or not at
all. -/
theorem matchHere_run_eq_none (hd : ∀ c ∈ ds, c.isDigit = true) (hrest : NoDigit rest)
    (hxs : ∀ x ∈ xs, x.isDigit = false)
    (h : least ≤ ds.length → ds.length ≤ most → matchHere (.oneOf xs :: ps) rest = none) :
    matchHere (.digits least most :: .oneOf xs :: ps) (ds ++ rest) = none := by
  refine matchHere_digits_eq_none fun j hlo hhi hrun => ?_
  rw [takeWhile_run hd hrest] at hrun
  rcases Nat.lt_or_eq_of_le hrun with hlt | heq
  · -- inside the run the next character is a digit
    refine matchHere_oneOf_eq_none fun c hc hmem => ?_
    rw [List.drop_append_of_le_length hrun, List.head?_append, List.head?_drop,
      List.getElem?_eq_getElem hlt, Option.some_or, Option.some_inj] at hc
    have hdigit := hd _ (List.getElem_mem hlt)
    rw [hc, hxs c hmem] at hdigit
    cases hdigit
  · subst heq
    rw [List.drop_left]
    exact h hlo hhi

theorem matchHere_maybe_skip {x : Char} (h : cs.head? ≠ some x) :
    matchHere (.maybe x :: ps) cs = matchHere ps cs := by
  cases cs with
  | nil => rfl
  | cons c cs => rw [matchHere, if_neg (by simpa using h)]

theorem matchHere_maybe_take {x : Char} (h : matchHere ps cs = some captures) :
    matchHere (.maybe x :: ps) (x :: cs) = some captures := by
  simp [matchHere, h]

end

/-! ## What is captured -/

/-- How many digits each group of the pattern may have. -/
def groups (ps : List Piece) : List (Nat × Nat) :=
  ps.filterMap fun
    | .digits least most => some (least, most)
    | _ => none

/-- The captured text of a group. -/
def Fits (count : Nat × Nat) (ds : List Char) : Prop :=
  (∀ c ∈ ds, c.isDigit = true) ∧ count.1 ≤ ds.length ∧ ds.length ≤ count.2

theorem matchHere_fits {ps : List Piece} {cs : List Char} {captures : List (List Char)}
    (h : matchHere ps cs = some captures) : List.Forall₂ Fits (groups ps) captures := by
  induction ps generalizing cs captures with
  | nil =>
      obtain rfl := Option.some.inj h
      exact List.Forall₂.nil
  | cons p ps ih =>
      cases p with
      | digits least most =>
          rw [matchHere] at h
          obtain ⟨k, hlo, hhi, hk⟩ := exists_of_tryCounts h
          split_ifs at hk with hrun
          obtain ⟨more, hmore, rfl⟩ := Option.map_eq_some_iff.mp hk
          have hlen : (cs.take k).length = k :=
            List.length_take_of_le (hrun.trans (List.takeWhile_prefix _).length_le)
          have hin : cs.take k <+: cs.takeWhile Char.isDigit :=
            List.prefix_of_prefix_length_le (List.take_prefix k cs) (List.takeWhile_prefix _)
              (hlen.le.trans hrun)
          refine List.Forall₂.cons ⟨?_, by omega, by omega⟩ (ih hmore)
          intro c hc
          exact List.mem_takeWhile_imp (hin.subset hc)
      | oneOf xs =>
          cases cs with
          | nil => cases h
          | cons c cs =>
              rw [matchHere] at h
              split_ifs at h
              exact ih h
      | maybe x =>
          cases cs with
          | nil => exact ih h
          | cons c cs =>
              rw [matchHere] at h
              split_ifs at h
              · rcases Option.or_eq_some_iff.mp h with htaken | ⟨_, hskipped⟩
                · exact ih htaken
                · exact ih hskipped
              · exact ih h

theorem matchLine_fits {ps : List Piece} {cs : List Char} {captures : List (List Char)}
    (h : matchLine ps cs = some captures) : List.Forall₂ Fits (groups ps) captures := by
  obtain ⟨prev, rest, hrest⟩ := exists_of_scan h
  rw [lineMatch] at hrest
  split_ifs at hrest
  exact matchHere_fits hrest

end HomeWarranty.Ruby
