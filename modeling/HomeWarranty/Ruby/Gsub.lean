/-
HomeWarranty.Ruby.Gsub — `gsub` of a text by a text.

`gsub` goes through a string from left to right and puts the replacement
where the pattern stands; what was put in is not looked at again. Given
as an argument the replacement may bring in the match or the text around
it by a backslash (`gsubText`); without one it stands for itself.

A pattern of ONE character is a rewrite of every character on its own
(`gsub_char`). A table of such rewrites is run one after the other over
the whole string, so a later one sees what an earlier one put in. Where
no replacement holds the target of a later one, the rounds do not
interfere: `rewriteAll_eq_onePass`. Where no replacement holds any target
at all, none is left, and a second run finds nothing to do.
-/
import Mathlib.Data.List.Basic

namespace HomeWarranty.Ruby

/-- What is left to do; `skip` characters of a match are still to be
passed. -/
def gsubFrom (pat rep : List Char) : Nat → List Char → List Char
  | _, [] => []
  | skip + 1, _ :: cs => gsubFrom pat rep skip cs
  | 0, c :: cs =>
      if pat.isPrefixOf (c :: cs) then rep ++ gsubFrom pat rep (pat.length - 1) cs
      else c :: gsubFrom pat rep 0 cs

/-- `text.gsub(pat) { rep }`. -/
def gsub (pat rep cs : List Char) : List Char := gsubFrom pat rep 0 cs

example : gsub "||".toList "-".toList "a|||b||".toList = "a-|b-".toList := by decide

/-- A character that is not in the front of a text stands behind it. -/
theorem exists_append_of_notMem {x : Char} {front cs pre post : List Char} (h : x ∉ front)
    (heq : front ++ cs = pre ++ x :: post) : ∃ more, cs = more ++ x :: post := by
  rcases List.append_eq_append_iff.mp heq with ⟨more, _, hcs⟩ | ⟨more, hfront, hpost⟩
  · exact ⟨more, hcs⟩
  · cases more with
    | nil => exact ⟨[], hpost.symm⟩
    | cons y more =>
        rw [List.cons_append, List.cons.injEq] at hpost
        rw [hfront, hpost.1] at h
        exact absurd (List.mem_append_right _ List.mem_cons_self) h

section
variable {pat rep cs : List Char}

theorem gsubFrom_skip (pat rep : List Char) (n : Nat) (cs : List Char) :
    gsubFrom pat rep n cs = gsub pat rep (cs.drop n) := by
  induction cs generalizing n with
  | nil => cases n <;> simp [gsubFrom, gsub]
  | cons c cs ih =>
      cases n with
      | zero => rfl
      | succ n =>
          rw [gsubFrom, List.drop_succ_cons]
          exact ih n

theorem gsub_cons_of_no_match {c : Char} (h : ¬ pat <+: c :: cs) :
    gsub pat rep (c :: cs) = c :: gsub pat rep cs := by
  have hno : pat.isPrefixOf (c :: cs) = false := by
    rw [← Bool.not_eq_true, List.isPrefixOf_iff_prefix]
    exact h
  simp [gsub, gsubFrom, hno]

theorem gsub_match (h : pat ≠ []) (rep cs : List Char) :
    gsub pat rep (pat ++ cs) = rep ++ gsub pat rep cs := by
  cases pat with
  | nil => exact absurd rfl h
  | cons x pat =>
      have hyes : (x :: pat).isPrefixOf (x :: (pat ++ cs)) = true := by
        simp [List.isPrefixOf_iff_prefix]
      rw [gsub, List.cons_append, gsubFrom, if_pos hyes, List.length_cons, Nat.add_sub_cancel,
        gsubFrom_skip, List.drop_left]

/-- Text without the first character of the pattern is passed. -/
theorem gsub_append_of_notMem {x : Char} {p l : List Char} (h : x ∉ l) (rep cs : List Char) :
    gsub (x :: p) rep (l ++ cs) = l ++ gsub (x :: p) rep cs := by
  induction l with
  | nil => rfl
  | cons c l ih =>
      rw [List.mem_cons, not_or] at h
      have hno : ¬ x :: p <+: c :: (l ++ cs) := by
        rw [List.cons_prefix_cons]
        exact fun hp => h.1 hp.1
      rw [List.cons_append, gsub_cons_of_no_match hno, ih h.2, List.cons_append]

/-- A pattern of one character rewrites every character on its own. -/
theorem gsub_char (x : Char) (rep cs : List Char) :
    gsub [x] rep cs = cs.flatMap fun c => if c = x then rep else [c] := by
  induction cs with
  | nil => rfl
  | cons c cs ih =>
      by_cases hc : c = x
      · subst hc
        have := gsub_match (show [c] ≠ [] by simp) rep cs
        rw [List.singleton_append] at this
        simp [this, ih]
      · have hno : ¬ [x] <+: c :: cs := by
          rw [List.cons_prefix_cons]
          exact fun hp => hc hp.1.symm
        simp [gsub_cons_of_no_match hno, ih, hc]

theorem gsub_delete (x : Char) (cs : List Char) : gsub [x] [] cs = cs.filter (· != x) := by
  rw [gsub_char]
  induction cs with
  | nil => rfl
  | cons c cs ih =>
      rw [List.flatMap_cons, ih]
      by_cases hc : c = x <;> simp [hc]

/-- A text without the pattern stays. -/
theorem gsub_eq_self (h : ¬ pat <:+: cs) : gsub pat rep cs = cs := by
  induction cs with
  | nil => rfl
  | cons c cs ih =>
      rw [List.infix_cons_iff, not_or] at h
      rw [gsub_cons_of_no_match h.1, ih h.2]

/-- Taking the pattern out leaves a part of the text. -/
theorem gsub_nil_sublist (pat cs : List Char) : (gsub pat [] cs).Sublist cs := by
  have hfrom : ∀ n, (gsubFrom pat [] n cs).Sublist cs := by
    induction cs with
    | nil =>
        intro n
        cases n <;> exact List.Sublist.refl []
    | cons c cs ih =>
        intro n
        cases n with
        | succ n => exact (ih n).trans (List.sublist_cons_self c cs)
        | zero =>
            rw [gsubFrom]
            split_ifs
            · exact (ih _).trans (List.sublist_cons_self c cs)
            · exact (ih 0).cons_cons c
  exact hfrom 0

/-- A text with the pattern gets shorter. -/
theorem length_gsub_nil_lt (hpat : pat ≠ []) (h : pat <:+: cs) :
    (gsub pat [] cs).length < cs.length := by
  induction cs with
  | nil => exact absurd (List.infix_nil.mp h) hpat
  | cons c cs ih =>
      by_cases hfront : pat <+: c :: cs
      · obtain ⟨rest, hrest⟩ := hfront
        rw [← hrest, gsub_match hpat, List.nil_append, List.length_append]
        have hle := (gsub_nil_sublist pat rest).length_le
        have hpos := List.length_pos_of_ne_nil hpat
        omega
      · rw [gsub_cons_of_no_match hfront]
        have hlater : pat <:+: cs := (List.infix_cons_iff.mp h).resolve_left hfront
        simpa using ih hlater

end

/-! ## Replacement texts -/

/-- What a replacement text stands for at a match: a backslash brings in
the match or the text around it. Groups are empty, and a group by its
name is an error. -/
def expand (before found after : List Char) : List Char → Option (List Char)
  | [] => some []
  | '\\' :: c :: cs =>
      if c == 'k' && cs.head? == some '<' then none
      else
        (expand before found after cs).map
          ((if c == '0' || c == '&' then found
            else if c.isDigit then []
            else if c == '\x60' then before
            else if c == '\'' then after
            else if c == '\\' then ['\\']
            else ['\\', c]) ++ ·)
  | c :: cs => (expand before found after cs).map (c :: ·)

/-- What is left to do, with the text before it. -/
def gsubTextFrom (pat rep : List Char) : List Char → Nat → List Char → Option (List Char)
  | _, _, [] => some []
  | before, skip + 1, c :: cs => gsubTextFrom pat rep (before ++ [c]) skip cs
  | before, 0, c :: cs =>
      if pat.isPrefixOf (c :: cs) then
        (expand before pat ((c :: cs).drop pat.length) rep).bind fun put =>
          (gsubTextFrom pat rep (before ++ [c]) (pat.length - 1) cs).map (put ++ ·)
      else (gsubTextFrom pat rep (before ++ [c]) 0 cs).map (c :: ·)

/-- `text.gsub(pat, rep)`. -/
def gsubText (pat rep cs : List Char) : Option (List Char) := gsubTextFrom pat rep [] 0 cs

example : gsubText "b".toList "<\\0\\'>".toList "abc".toList = some "a<bc>c".toList := by decide

theorem expand_plain {rep : List Char} (h : '\\' ∉ rep) (before found after : List Char) :
    expand before found after rep = some rep := by
  induction rep with
  | nil => rfl
  | cons c rep ih =>
      rw [List.mem_cons, not_or] at h
      rw [expand, ih h.2]
      · rfl
      · rintro _ _ rfl
        exact absurd rfl h.1

/-- A replacement without backslashes stands for itself. -/
theorem gsubText_plain {rep : List Char} (h : '\\' ∉ rep) (pat cs : List Char) :
    gsubText pat rep cs = some (gsub pat rep cs) := by
  have hfrom : ∀ (cs before : List Char) (n : Nat),
      gsubTextFrom pat rep before n cs = some (gsubFrom pat rep n cs) := by
    intro cs
    induction cs with
    | nil => exact fun before n => by cases n <;> rfl
    | cons c cs ih =>
        intro before n
        cases n with
        | succ n => exact ih _ n
        | zero =>
            rw [gsubTextFrom, gsubFrom, expand_plain h, ih, ih]
            split_ifs <;> rfl
  exact hfrom cs [] 0

/-! ## Tables of rewrites -/

/-- The rounds of a table, one after the other. -/
def rewriteAll (table : List (Char × List Char)) (cs : List Char) : List Char :=
  table.foldl (fun cs e => gsub [e.1] e.2 cs) cs

/-- A character, looked up in the table once. -/
def onePass (table : List (Char × List Char)) (c : Char) : List Char :=
  (table.lookup c).getD [c]

/-- No replacement holds the target of a later rewrite, and no target
comes twice. -/
def Independent (table : List (Char × List Char)) : Prop :=
  table.Pairwise fun a b => b.1 ∉ a.2 ∧ a.1 ≠ b.1

instance (table : List (Char × List Char)) : Decidable (Independent table) :=
  inferInstanceAs (Decidable (List.Pairwise _ _))

theorem onePass_cons (x : Char) (rep : List Char) (table : List (Char × List Char)) (c : Char) :
    onePass ((x, rep) :: table) c = if c = x then rep else onePass table c := by
  by_cases hc : c = x
  · simp [onePass, hc]
  · have hno : (c == x) = false := by simpa using hc
    simp [onePass, List.lookup_cons, hno, hc]

theorem onePass_of_notMem {table : List (Char × List Char)} {c : Char}
    (h : ∀ e ∈ table, e.1 ≠ c) : onePass table c = [c] := by
  induction table with
  | nil => rfl
  | cons e table ih =>
      obtain ⟨x, rep⟩ := e
      rw [onePass_cons, if_neg (Ne.symm (h (x, rep) List.mem_cons_self))]
      exact ih fun e' he' => h e' (List.mem_cons_of_mem _ he')

/-- Text without targets is left as it is. -/
theorem onePass_eq_self {table : List (Char × List Char)} {cs : List Char}
    (h : ∀ e ∈ table, e.1 ∉ cs) :
    cs.flatMap (onePass table) = cs := by
  have hone : ∀ c ∈ cs, onePass table c = [c] := fun c hc =>
    onePass_of_notMem fun e he heq => h e he (heq ▸ hc)
  rw [List.flatMap_congr hone]
  simp

/-- Rounds that do not interfere are one pass over the characters. -/
theorem rewriteAll_eq_onePass {table : List (Char × List Char)} (h : Independent table)
    (cs : List Char) : rewriteAll table cs = cs.flatMap (onePass table) := by
  induction table generalizing cs with
  | nil =>
      have hone : onePass [] = fun c => [c] := rfl
      simp [rewriteAll, hone]
  | cons e table ih =>
      obtain ⟨x, rep⟩ := e
      obtain ⟨hfirst, hrest⟩ := List.pairwise_cons.mp h
      -- what the first round puts in is left alone by the others
      have hkept : rep.flatMap (onePass table) = rep :=
        onePass_eq_self fun e he => (hfirst e he).1
      have hround : rewriteAll ((x, rep) :: table) cs = rewriteAll table (gsub [x] rep cs) := rfl
      rw [hround, ih hrest, gsub_char, List.flatMap_assoc]
      congr 1
      funext c
      rw [onePass_cons]
      by_cases hc : c = x
      · rw [if_pos hc, if_pos hc, hkept]
      · rw [if_neg hc, if_neg hc, List.flatMap_singleton]

section
variable {table : List (Char × List Char)}

theorem onePass_cases (table : List (Char × List Char)) (c : Char) :
    (∃ e ∈ table, e.1 = c ∧ onePass table c = e.2) ∨
      (∀ e ∈ table, e.1 ≠ c) ∧ onePass table c = [c] := by
  induction table with
  | nil => exact .inr ⟨by simp, rfl⟩
  | cons e table ih =>
      obtain ⟨x, rep⟩ := e
      rw [onePass_cons]
      by_cases hc : c = x
      · exact .inl ⟨(x, rep), List.mem_cons_self, hc.symm, if_pos hc⟩
      · rw [if_neg hc]
        rcases ih with ⟨e, he, hx, heq⟩ | ⟨hno, heq⟩
        · exact .inl ⟨e, List.mem_cons_of_mem _ he, hx, heq⟩
        · refine .inr ⟨?_, heq⟩
          intro e he
          rcases List.mem_cons.mp he with rfl | he
          · exact Ne.symm hc
          · exact hno e he

/-- After a pass whose replacements hold no target, no target is left. -/
theorem notMem_onePass (h : ∀ a ∈ table, ∀ b ∈ table, b.1 ∉ a.2) {b : Char × List Char}
    (hb : b ∈ table) (cs : List Char) : b.1 ∉ cs.flatMap (onePass table) := by
  intro hmem
  obtain ⟨c, _, hc⟩ := List.mem_flatMap.mp hmem
  rcases onePass_cases table c with ⟨a, ha, _, heq⟩ | ⟨hno, heq⟩
  · rw [heq] at hc
    exact h a ha b hb hc
  · rw [heq, List.mem_singleton] at hc
    exact hno b hb hc

end

end HomeWarranty.Ruby
