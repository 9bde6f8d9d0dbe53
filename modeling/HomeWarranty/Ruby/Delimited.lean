/-
HomeWarranty.Ruby.Delimited — `Array#join` and `String#split`.

`split` cuts a text at every place where the separator stands, from left
to right, and drops the empty pieces at the end. `split_join` says when
the pieces that were joined come back: none of them is empty and none
holds the character the separator starts with.

A list of ids joined by commas reaches MySQL in two ways. Put into the
text of a statement it is a list of numbers (`splicedNumbers`). Bound to
`IN (?)` it is ONE quoted text, and an integer column is compared with
the number this text starts with (`boundNumber`).
-/
import Mathlib.Data.List.DropRight
import HomeWarranty.Ruby.Text

namespace HomeWarranty.Ruby

/-- `pieces.join(sep)`. -/
def join (sep : List Char) : List (List Char) → List Char
  | [] => []
  | [p] => p
  | p :: q :: rest => p ++ sep ++ join sep (q :: rest)

/-- The pieces between the separators. `skip` characters of a separator
are still to be passed, `piece` holds what was read since the last one. -/
def cut (sep : List Char) : Nat → List Char → List Char → List (List Char)
  | _, piece, [] => [piece]
  | skip + 1, piece, _ :: cs => cut sep skip piece cs
  | 0, piece, c :: cs =>
      if sep.isPrefixOf (c :: cs) then piece :: cut sep (sep.length - 1) [] cs
      else cut sep 0 (piece ++ [c]) cs

/-- `text.split(sep)`. -/
def split (sep cs : List Char) : List (List Char) := (cut sep 0 [] cs).rdropWhile List.isEmpty

example : split ", ".toList "4, 12, , ".toList = ["4".toList, "12".toList] := by decide

/-! ## What was joined is split again -/

theorem cut_skip (sep piece cs : List Char) (n : Nat) (h : n ≤ cs.length) :
    cut sep n piece cs = cut sep 0 piece (cs.drop n) := by
  induction cs generalizing n with
  | nil =>
      cases n with
      | zero => rfl
      | succ n => simp at h
  | cons c cs ih =>
      cases n with
      | zero => rfl
      | succ n =>
          rw [cut, List.drop_succ_cons]
          exact ih n (by simpa using h)

/-- Characters that cannot start the separator belong to the piece. -/
theorem cut_piece {x : Char} {sep : List Char} {p : List Char} (h : x ∉ p) (piece cs : List Char) :
    cut (x :: sep) 0 piece (p ++ cs) = cut (x :: sep) 0 (piece ++ p) cs := by
  induction p generalizing piece with
  | nil => simp
  | cons c p ih =>
      rw [List.mem_cons, not_or] at h
      have hno : (x :: sep).isPrefixOf (c :: (p ++ cs)) = false := by
        simp [List.isPrefixOf, h.1]
      rw [List.cons_append, cut, hno, if_neg (by simp), ih h.2]
      simp

theorem cut_sep (x : Char) (sep piece cs : List Char) :
    cut (x :: sep) 0 piece (x :: sep ++ cs) = piece :: cut (x :: sep) 0 [] cs := by
  have hyes : (x :: sep).isPrefixOf (x :: (sep ++ cs)) = true := by
    simp [List.isPrefixOf]
  rw [List.cons_append, cut, if_pos hyes, List.length_cons, Nat.add_sub_cancel,
    cut_skip _ _ _ _ (by simp), List.drop_left]

theorem cut_join {x : Char} {sep : List Char} {p : List Char} {ps : List (List Char)}
    (h : ∀ q ∈ p :: ps, x ∉ q) :
    cut (x :: sep) 0 [] (join (x :: sep) (p :: ps)) = p :: ps := by
  induction ps generalizing p with
  | nil =>
      have := @cut_piece x sep p (h p (by simp)) [] []
      simpa [join, cut] using this
  | cons q ps ih =>
      have hp := @cut_piece x sep p (h p (by simp)) [] (x :: sep ++ join (x :: sep) (q :: ps))
      rw [join, List.append_assoc, hp, cut_sep, List.nil_append]
      rw [ih fun r hr => h r (by simp [List.mem_cons.mp hr])]

/-- Pieces that are not empty and do not hold the first character of the
separator come back as they were. -/
theorem split_join {x : Char} {sep : List Char} {ps : List (List Char)}
    (h : ∀ p ∈ ps, p ≠ [] ∧ x ∉ p) : split (x :: sep) (join (x :: sep) ps) = ps := by
  have hkeep : ps.rdropWhile List.isEmpty = ps := by
    rw [List.rdropWhile_eq_self_iff]
    intro hne
    simpa using (h _ (List.getLast_mem hne)).1
  cases ps with
  | nil => rfl
  | cons p ps =>
      rw [split, cut_join fun q hq => (h q hq).2, hkeep]

/-! ## Ids in a statement -/

/-- `id.to_s`; that of `nil` is empty. -/
def idText : Option Nat → List Char
  | none => []
  | some n => (toString n).toList

/-- `ids.join(",")`. -/
def joinIds (ids : List (Option Nat)) : List Char := join [','] (ids.map idText)

/-- `IN (…)` around the text: its numbers, or `none` where MySQL finds a
syntax error. -/
def splicedNumbers (cs : List Char) : Option (List Nat) :=
  (cut [','] 0 [] cs).mapM fun p => if p.isEmpty then none else some (digitsValue p)

/-- The number that an integer column is compared with when the text is
bound to `IN (?)`: the digits it starts with. -/
def boundNumber (cs : List Char) : Nat := digitsValue (cs.takeWhile Char.isDigit)

example : splicedNumbers (joinIds [some 4, some 12]) = some [4, 12] ∧
    boundNumber (joinIds [some 4, some 12]) = 4 ∧
    splicedNumbers (joinIds [some 4, none]) = none := by decide

theorem comma_notMem_idText (id : Option Nat) : ',' ∉ idText id := by
  cases id with
  | none => simp [idText]
  | some n =>
      rw [idText, toList_toString]
      exact fun h => absurd (isDigit_of_mem_toDigits h) (by decide)

/-- Ids that are all there are read as they are. -/
theorem mapM_id_eq_some_iff (ids : List (Option Nat)) (ns : List Nat) :
    ids.mapM id = some ns ↔ ids = ns.map some := by
  induction ids generalizing ns with
  | nil => cases ns <;> simp
  | cons i is ih =>
      cases i with
      | none => cases ns <;> simp
      | some n =>
          cases ns with
          | nil => simp [Option.bind_eq_some_iff]
          | cons m ns => simp [Option.bind_eq_some_iff, ih, and_comm]

theorem mapM_id_eq_none_iff (ids : List (Option Nat)) : ids.mapM id = none ↔ none ∈ ids := by
  induction ids with
  | nil => simp
  | cons i is ih =>
      cases i with
      | none => simp
      | some n =>
          rw [List.mem_cons, ← ih]
          cases hrest : is.mapM id with
          | none => simp [hrest]
          | some ns => simp [hrest]

/-- Ids put into a statement are those numbers, unless one is missing. -/
theorem splicedNumbers_joinIds {ids : List (Option Nat)} (h : ids ≠ []) :
    splicedNumbers (joinIds ids) = ids.mapM id := by
  have hcut : cut [','] 0 [] (joinIds ids) = ids.map idText := by
    cases ids with
    | nil => exact absurd rfl h
    | cons i is =>
        refine cut_join fun p hp => ?_
        rw [← List.map_cons] at hp
        obtain ⟨j, _, rfl⟩ := List.mem_map.mp hp
        exact comma_notMem_idText j
  have hread : ∀ i : Option Nat,
      (if (idText i).isEmpty then none else some (digitsValue (idText i))) = i := by
    intro i
    cases i with
    | none => rfl
    | some n =>
        have hne : (idText (some n)).isEmpty = false := by
          rw [idText, toList_toString, List.isEmpty_eq_false_iff]
          exact Nat.toDigits_ne_nil
        rw [hne, if_neg (by simp), idText, toList_toString, digitsValue_toDigits]
  rw [splicedNumbers, hcut, List.mapM_map]
  congr 1
  funext i
  exact hread i

theorem splicedNumbers_some {ns : List Nat} (h : ns ≠ []) :
    splicedNumbers (joinIds (ns.map some)) = some ns := by
  rw [splicedNumbers_joinIds (by simpa using h), mapM_id_eq_some_iff]

/-- Ids that are bound are compared as the first of them; a missing one
counts as zero. -/
theorem boundNumber_joinIds (i : Option Nat) (is : List (Option Nat)) :
    boundNumber (joinIds (i :: is)) = i.getD 0 := by
  have hdigits : ∀ c ∈ idText i, c.isDigit = true := by
    intro c hc
    cases i with
    | none => cases hc
    | some n =>
        rw [idText, toList_toString] at hc
        exact isDigit_of_mem_toDigits hc
  have hvalue : digitsValue (idText i) = i.getD 0 := by
    cases i with
    | none => rfl
    | some n => rw [idText, toList_toString, digitsValue_toDigits, Option.getD_some]
  have hfront : (joinIds (i :: is)).takeWhile Char.isDigit = idText i := by
    cases is with
    | nil => exact List.takeWhile_eq_self_iff.mpr hdigits
    | cons j is =>
        rw [joinIds, List.map_cons, List.map_cons, join, List.append_assoc,
          List.takeWhile_append_of_pos hdigits, List.singleton_append,
          List.takeWhile_cons_of_neg (by decide), List.append_nil]
  rw [boundNumber, hfront, hvalue]

theorem idText_eq_nil_iff (id : Option Nat) : idText id = [] ↔ id = none := by
  cases id with
  | none => simp [idText]
  | some n =>
      rw [idText, toList_toString]
      simp

/-- The text of ids without repetition is empty when there is no id but
`nil`. -/
theorem joinIds_eraseDups_eq_nil_iff (ids : List (Option Nat)) :
    joinIds ids.eraseDups = [] ↔ ∀ n, some n ∉ ids := by
  cases ids with
  | nil => simp [joinIds, join]
  | cons i is =>
      rw [List.eraseDups_cons]
      cases hrest : (is.filter fun b => !b == i).eraseDups with
      | nil =>
          have hall : ∀ j ∈ is, j = i := by
            intro j hj
            by_contra hne
            have : j ∈ (is.filter fun b => !b == i).eraseDups := by
              simpa using ⟨hj, hne⟩
            rw [hrest] at this
            cases this
          rw [joinIds, List.map_singleton, join, idText_eq_nil_iff]
          constructor
          · rintro rfl n hn
            rcases List.mem_cons.mp hn with h | h
            · cases h
            · cases hall _ h
          · intro h
            cases i with
            | none => rfl
            | some n => exact absurd List.mem_cons_self (h n)
      | cons j js =>
          have hj : j ∈ is ∧ j ≠ i := by
            have : j ∈ (is.filter fun b => !b == i).eraseDups := by
              rw [hrest]
              exact List.mem_cons_self
            simpa using this
          constructor
          · intro h
            simp [joinIds, join] at h
          · intro h
            cases i with
            | some n => exact absurd List.mem_cons_self (h n)
            | none =>
                cases j with
                | none => exact absurd rfl hj.2
                | some n => exact absurd (List.mem_cons_of_mem _ hj.1) (h n)

end HomeWarranty.Ruby
