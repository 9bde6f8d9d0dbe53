/-
HomeWarranty.Ruby.Pattern — patterns with lazy groups, matched as the
engine of Ruby does: by going back.

A pattern is a list of atoms. `matchAtoms` tries it where the text starts and
returns the first way it finds: `p*` takes as much as it can and gives
back, `(p+?)` takes as little as it can and goes on. What follows an atom
is its continuation, so going back needs no position to be kept.

For a lazy group the rules say when there is a match at all
(`lazyFrom_isSome_iff`), what a match looks like (`lazyFrom_eq_some`), and
that the first place where the rest can go on is taken
(`lazyFrom_of_first`).

`parts` is the text as `gsub` sees it: characters that are kept, and
matches.
-/
import Mathlib.Data.List.TakeWhile
import HomeWarranty.Ruby.Scan

namespace HomeWarranty.Ruby

/-- What was matched, and the captured groups. -/
structure Match where
  text : List Char
  groups : List (List Char)
  deriving DecidableEq

/-- One more character in front. -/
def Match.after (c : Char) (m : Match) : Match := { m with text := c :: m.text }

/-- A group in front. -/
def Match.grouped (g : List Char) (m : Match) : Match := ⟨g ++ m.text, g :: m.groups⟩

/-- One more character in front of the first group. -/
def Match.extend (c : Char) (m : Match) : Match :=
  ⟨c :: m.text, match m.groups with
    | [] => []
    | g :: gs => (c :: g) :: gs⟩

inductive Atom where
  /-- One character. -/
  | one (p : Char → Bool)
  /-- `p*`. -/
  | star (p : Char → Bool)
  /-- `(p+?)`. -/
  | group (p : Char → Bool)
  /-- `$`. -/
  | endOfLine

/-- `.`. -/
def anyChar (c : Char) : Bool := c != '\n'

/-- As many characters as possible, fewer if the rest does not match. -/
def starFrom (p : Char → Bool) (rest : List Char → Option Match) : List Char → Option Match
  | [] => rest []
  | c :: cs =>
      if p c then ((starFrom p rest cs).map (.after c)).or (rest (c :: cs)) else rest (c :: cs)

/-- A character, and more if the rest does not match. -/
def lazyFrom (p : Char → Bool) (rest : List Char → Option Match) : List Char → Option Match
  | [] => none
  | c :: cs =>
      if p c then ((rest cs).map (.grouped [c])).or ((lazyFrom p rest cs).map (.extend c)) else none

/-- The match of a pattern that starts here. -/
def matchAtoms : List Atom → List Char → Option Match
  | [], _ => some ⟨[], []⟩
  | .one _ :: _, [] => none
  | .one p :: atoms, c :: cs => if p c then (matchAtoms atoms cs).map (.after c) else none
  | .star p :: atoms, cs => starFrom p (matchAtoms atoms) cs
  | .group p :: atoms, cs => lazyFrom p (matchAtoms atoms) cs
  | .endOfLine :: atoms, cs => if cs.head?.all (· == '\n') then matchAtoms atoms cs else none

/-- The leftmost match. -/
def searchAtoms (atoms : List Atom) (cs : List Char) : Option Match :=
  scan (fun _ cs => matchAtoms atoms cs) none cs

example : searchAtoms [.one (· == '<'), .group anyChar, .one (· == '>')] "a <>b> c>".toList =
    some ⟨"<>b>".toList, [">b".toList]⟩ := by decide

/-! ## Lazy groups -/

section
variable {p : Char → Bool} {rest : List Char → Option Match}

theorem lazyFrom_cons {c : Char} (h : p c = true) (cs : List Char) :
    lazyFrom p rest (c :: cs) =
      ((rest cs).map (.grouped [c])).or ((lazyFrom p rest cs).map (.extend c)) := by
  rw [lazyFrom, if_pos h]

theorem extend_grouped (c : Char) (g : List Char) (m : Match) :
    (m.grouped g).extend c = m.grouped (c :: g) := rfl

/-- A match of the group and the rest. -/
theorem lazyFrom_eq_some {cs : List Char} {m : Match} (h : lazyFrom p rest cs = some m) :
    ∃ g tail m', cs = g ++ tail ∧ g ≠ [] ∧ (∀ c ∈ g, p c = true) ∧ rest tail = some m' ∧
      m = m'.grouped g := by
  induction cs generalizing m with
  | nil => cases h
  | cons c cs ih =>
      rw [lazyFrom] at h
      split_ifs at h with hc
      rcases Option.or_eq_some_iff.mp h with hstop | ⟨_, hmore⟩
      · obtain ⟨m', hm', rfl⟩ := Option.map_eq_some_iff.mp hstop
        exact ⟨[c], cs, m', rfl, by simp, by simpa using hc, hm', rfl⟩
      · obtain ⟨m₁, hm₁, rfl⟩ := Option.map_eq_some_iff.mp hmore
        obtain ⟨g, tail, m', rfl, _, hg, hm', rfl⟩ := ih hm₁
        exact ⟨c :: g, tail, m', rfl, by simp, List.forall_mem_cons.mpr ⟨hc, hg⟩, hm', rfl⟩

/-- The group ends at the first place where the rest can go on. -/
theorem lazyFrom_of_first {g tail : List Char} {m : Match} (hne : g ≠ [])
    (hg : ∀ c ∈ g, p c = true) (hm : rest tail = some m)
    (hfirst : ∀ a b, g = a ++ b → a ≠ [] → b ≠ [] → rest (b ++ tail) = none) :
    lazyFrom p rest (g ++ tail) = some (m.grouped g) := by
  induction g with
  | nil => exact absurd rfl hne
  | cons c g ih =>
      obtain ⟨hc, hg⟩ := List.forall_mem_cons.mp hg
      rw [List.cons_append, lazyFrom_cons hc]
      cases g with
      | nil => rw [List.nil_append, hm, Option.map_some, Option.some_or]
      | cons d g =>
          have hnone : rest ((d :: g) ++ tail) = none :=
            hfirst [c] (d :: g) rfl (by simp) (by simp)
          rw [hnone, Option.map_none, Option.none_or, ih (by simp) hg, Option.map_some,
            extend_grouped]
          intro a b hab ha hb
          exact hfirst (c :: a) b (by rw [hab]; rfl) (by simp) hb

theorem lazyFrom_isSome_iff {cs : List Char} :
    (lazyFrom p rest cs).isSome ↔
      ∃ g tail, cs = g ++ tail ∧ g ≠ [] ∧ (∀ c ∈ g, p c = true) ∧ (rest tail).isSome := by
  constructor
  · intro h
    obtain ⟨m, hm⟩ := Option.isSome_iff_exists.mp h
    obtain ⟨g, tail, m', hcs, hne, hg, hm', _⟩ := lazyFrom_eq_some hm
    exact ⟨g, tail, hcs, hne, hg, by rw [hm']; rfl⟩
  · rintro ⟨g, tail, rfl, hne, hg, hrest⟩
    induction g with
    | nil => exact absurd rfl hne
    | cons c g ih =>
        obtain ⟨hc, hg⟩ := List.forall_mem_cons.mp hg
        rw [List.cons_append, lazyFrom_cons hc, Option.isSome_or, Option.isSome_map,
          Option.isSome_map, Bool.or_eq_true]
        cases g with
        | nil => exact .inl hrest
        | cons d g => exact .inr (ih (by simp) hg)

end

/-! ## Repetition -/

section
variable {p : Char → Bool} {rest : List Char → Option Match}

/-- A run is taken as a whole if the rest matches behind it. -/
theorem starFrom_run {front tail : List Char} {m : Match} (hfront : ∀ c ∈ front, p c = true)
    (htail : ∀ c, tail.head? = some c → p c = false) (hm : rest tail = some m) :
    starFrom p rest (front ++ tail) = some ⟨front ++ m.text, m.groups⟩ := by
  induction front with
  | nil =>
      cases tail with
      | nil => exact hm
      | cons c tail =>
          rw [List.nil_append, starFrom, htail c rfl]
          exact hm
  | cons c front ih =>
      obtain ⟨hc, hfront⟩ := List.forall_mem_cons.mp hfront
      rw [List.cons_append, starFrom, if_pos hc, ih hfront]
      rfl

/-- A match is a part of the text and a match of the rest. -/
theorem starFrom_eq_some {cs : List Char} {m : Match} (h : starFrom p rest cs = some m) :
    ∃ front tail m', cs = front ++ tail ∧ rest tail = some m' ∧
      m = ⟨front ++ m'.text, m'.groups⟩ := by
  induction cs generalizing m with
  | nil => exact ⟨[], [], m, rfl, h, rfl⟩
  | cons c cs ih =>
      rw [starFrom] at h
      split_ifs at h with hc
      · rcases Option.or_eq_some_iff.mp h with hmore | ⟨_, hstop⟩
        · obtain ⟨m₁, hm₁, rfl⟩ := Option.map_eq_some_iff.mp hmore
          obtain ⟨front, tail, m', rfl, hm', rfl⟩ := ih hm₁
          exact ⟨c :: front, tail, m', rfl, hm', rfl⟩
        · exact ⟨[], c :: cs, m, rfl, hstop, rfl⟩
      · exact ⟨[], c :: cs, m, rfl, h, rfl⟩

end

/-- `(.+?)$` takes the line. -/
theorem matchAtoms_line {c : Char} (hc : c ≠ '\n') (cs : List Char) :
    matchAtoms [.group anyChar, .endOfLine] (c :: cs) =
      some ⟨(c :: cs).takeWhile anyChar, [(c :: cs).takeWhile anyChar]⟩ := by
  have hany : anyChar c = true := by simpa [anyChar] using hc
  have hend : ((c :: cs).dropWhile anyChar).head?.all (· == '\n') = true := by
    rw [Option.all_eq_true]
    intro d hd
    have hstop := List.head?_dropWhile_not anyChar (c :: cs)
    rw [hd] at hstop
    simpa [anyChar] using hstop
  have hline : lazyFrom anyChar (matchAtoms [.endOfLine])
      ((c :: cs).takeWhile anyChar ++ (c :: cs).dropWhile anyChar) =
        some (Match.grouped ((c :: cs).takeWhile anyChar) ⟨[], []⟩) := by
    refine lazyFrom_of_first (by simp [hany]) (fun d hd => List.mem_takeWhile_imp hd) ?_ ?_
    · rw [matchAtoms, if_pos hend]
      rfl
    · rintro a (_ | ⟨d, b⟩) hab _ hb
      · exact absurd rfl hb
      · -- inside the line no line ends
        have hd : anyChar d = true := by
          refine List.mem_takeWhile_imp (l := c :: cs) ?_
          rw [hab]
          simp
        have hne : (d == '\n') = false := by simpa [anyChar] using hd
        simp [matchAtoms, hne]
  rw [List.takeWhile_append_dropWhile] at hline
  rw [matchAtoms, hline, Match.grouped, List.append_nil]

/-! ## Parts of a text -/

/-- A character that is kept, or the groups of a match. -/
inductive Part where
  | kept (c : Char)
  | found (groups : List (List Char))
  deriving DecidableEq

/-- The parts of a text, from left to right; `skip` characters of a match
are still to be passed. -/
def partsFrom (here : List Char → Option Match) : Nat → List Char → List Part
  | _, [] => []
  | skip + 1, _ :: cs => partsFrom here skip cs
  | 0, c :: cs =>
      match here (c :: cs) with
      | some m => .found m.groups :: partsFrom here (m.text.length - 1) cs
      | none => .kept c :: partsFrom here 0 cs

def parts (here : List Char → Option Match) (cs : List Char) : List Part := partsFrom here 0 cs

section
variable {here : List Char → Option Match}

theorem partsFrom_skip (n : Nat) (cs : List Char) :
    partsFrom here n cs = parts here (cs.drop n) := by
  induction cs generalizing n with
  | nil => cases n <;> rfl
  | cons c cs ih =>
      cases n with
      | zero => rfl
      | succ n =>
          rw [partsFrom, List.drop_succ_cons]
          exact ih n

@[simp] theorem parts_nil : parts here [] = [] := rfl

theorem parts_cons_of_none {c : Char} {cs : List Char} (h : here (c :: cs) = none) :
    parts here (c :: cs) = .kept c :: parts here cs := by
  rw [parts, partsFrom, h]
  rfl

/-- A match is one part, and the text goes on behind it. -/
theorem parts_of_some {m : Match} {tail : List Char} (hne : m.text ≠ [])
    (h : here (m.text ++ tail) = some m) :
    parts here (m.text ++ tail) = .found m.groups :: parts here tail := by
  cases htext : m.text with
  | nil => exact absurd htext hne
  | cons c text =>
      rw [htext] at h
      rw [List.cons_append] at h ⊢
      rw [parts, partsFrom, h]
      have hlen : m.text.length - 1 = text.length := by rw [htext]; rfl
      simp only [hlen, partsFrom_skip, List.drop_left]

end

end HomeWarranty.Ruby
