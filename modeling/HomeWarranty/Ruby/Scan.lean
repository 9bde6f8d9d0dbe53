/-
HomeWarranty.Ruby.Scan — looking for a pattern in a text.

A pattern is a function that tries one place: it gets the character
before the place, if there is one, and the text from there on. `scan`
tries the places from left to right, as `=~` and `match` do, and
`removeAll` takes out every match, as `gsub(pattern, '')` does.

A pattern that has to start with a character finds nothing where that
character is missing (`scan_eq_none`), and one that is anchored to the
start of a line is tried once in a text of one line
(`scan_of_lineStart`).
-/
import HomeWarranty.Ruby.Text

namespace HomeWarranty.Ruby

/-- The leftmost match, if there is one. -/
def scan {α : Type} (p : Option Char → List Char → Option α) :
    Option Char → List Char → Option α
  | prev, [] => p prev []
  | prev, c :: cs =>
      match p prev (c :: cs) with
      | some a => some a
      | none => scan p (some c) cs

/-- `s =~ pattern`. -/
def found {α : Type} (p : Option Char → List Char → Option α) (cs : List Char) : Bool :=
  (scan p none cs).isSome

/-- The text without its matches; the pattern returns the length of the
match. `skip` characters of a match are still to be dropped. -/
def removeAll (p : Option Char → List Char → Option Nat) :
    Option Char → Nat → List Char → List Char
  | _, _, [] => []
  | _, skip + 1, c :: cs => removeAll p (some c) skip cs
  | prev, 0, c :: cs =>
      match p prev (c :: cs) with
      | some (n + 1) => removeAll p (some c) n cs
      | _ => c :: removeAll p (some c) 0 cs

/-- `^`. -/
def lineStart : Option Char → Bool
  | none => true
  | some c => c == '\n'

/-- `\s`, as it was before Ruby 2.2. -/
def regexSpace (c : Char) : Bool := c == ' ' || c == '\t' || c == '\n' || c == '\x0c' || c == '\r'

/-- `\w`. -/
def regexWord (c : Char) : Bool := c.isAlphanum || c == '_'

/-- A word at the place, and at least so many digits after it. -/
def wordDigits (word : List Char) (least : Nat) (_ : Option Char) (cs : List Char) :
    Option (List Char) :=
  if word.isPrefixOf cs then
    let digits := (cs.drop word.length).takeWhile Char.isDigit
    if least ≤ digits.length then some digits else none
  else none

/-- A word at the place. -/
def wordAt (word : List Char) (_ : Option Char) (cs : List Char) : Option Nat :=
  if word.isPrefixOf cs then some word.length else none

/-- `^\d{n}`. -/
def digitsAtStart (least : Nat) (prev : Option Char) (cs : List Char) : Option Unit :=
  if lineStart prev && least ≤ (cs.takeWhile Char.isDigit).length then some () else none

example : found (wordDigits "SHW1".toList 5) "#SHW100042".toList = true ∧
    String.ofList (removeAll (wordAt "SHW1".toList) none 0 "#SHW100042".toList) = "#00042" := by
  decide +kernel

/-! ## Places -/

section
variable {α : Type} {p : Option Char → List Char → Option α}

theorem scan_cons_of_some {prev : Option Char} {c : Char} {cs : List Char} {a : α}
    (h : p prev (c :: cs) = some a) : scan p prev (c :: cs) = some a := by
  simp [scan, h]

theorem scan_cons_of_none {prev : Option Char} {c : Char} {cs : List Char}
    (h : p prev (c :: cs) = none) : scan p prev (c :: cs) = scan p (some c) cs := by
  simp [scan, h]

theorem exists_of_scan {prev : Option Char} {cs : List Char} {a : α} (h : scan p prev cs = some a) :
    ∃ prev' cs', p prev' cs' = some a := by
  induction cs generalizing prev with
  | nil => exact ⟨prev, [], h⟩
  | cons c cs ih =>
      cases hc : p prev (c :: cs) with
      | some b =>
          rw [scan_cons_of_some hc] at h
          exact ⟨prev, c :: cs, hc.trans h⟩
      | none =>
          rw [scan_cons_of_none hc] at h
          exact ih h

/-- Nothing is found where the first character of the pattern is
missing. -/
theorem scan_eq_none {x : Char} (hp : ∀ prev cs, cs.head? ≠ some x → p prev cs = none)
    {cs : List Char} (h : x ∉ cs) (prev : Option Char) : scan p prev cs = none := by
  induction cs generalizing prev with
  | nil => exact hp prev [] (by simp)
  | cons c cs ih =>
      rw [List.mem_cons, not_or] at h
      rw [scan_cons_of_none (hp prev (c :: cs) (by simpa using Ne.symm h.1))]
      exact ih h.2 (some c)

/-- A pattern that starts a line is tried at the start of the text. -/
theorem scan_of_lineStart (hp : ∀ prev cs, lineStart prev = false → p prev cs = none)
    {cs : List Char} (h : '\n' ∉ cs) : scan p none cs = p none cs := by
  have hlater : ∀ (cs : List Char) (prev : Char), '\n' ∉ cs → prev ≠ '\n' →
      scan p (some prev) cs = none := by
    intro cs
    induction cs with
    | nil =>
        intro prev _ hprev
        exact hp _ _ (by simpa [lineStart] using hprev)
    | cons c cs ih =>
        intro prev hcs hprev
        rw [List.mem_cons, not_or] at hcs
        rw [scan_cons_of_none (hp _ _ (by simpa [lineStart] using hprev))]
        exact ih c hcs.2 (Ne.symm hcs.1)
  cases cs with
  | nil => rfl
  | cons c cs =>
      rw [List.mem_cons, not_or] at h
      cases hc : p none (c :: cs) with
      | some a => exact scan_cons_of_some hc
      | none =>
          rw [scan_cons_of_none hc]
          exact hlater cs c h.2 (Ne.symm h.1)

end

/-! ## Taking matches out -/

/-- Nothing is taken out where the first character of the pattern is
missing. -/
theorem removeAll_eq_self {p : Option Char → List Char → Option Nat} {x : Char}
    (hp : ∀ prev cs, cs.head? ≠ some x → p prev cs = none) {cs : List Char} (h : x ∉ cs)
    (prev : Option Char) : removeAll p prev 0 cs = cs := by
  induction cs generalizing prev with
  | nil => rfl
  | cons c cs ih =>
      rw [List.mem_cons, not_or] at h
      rw [removeAll, hp prev (c :: cs) (by simpa using Ne.symm h.1)]
      simp only
      rw [ih h.2]

/-- Past the start of a line, nothing is taken out up to its end. -/
theorem removeAll_of_lineStart {p : Option Char → List Char → Option Nat}
    (hp : ∀ prev cs, lineStart prev = false → p prev cs = none) {cs : List Char} {prev : Char}
    (hprev : prev ≠ '\n') (h : '\n' ∉ cs) : removeAll p (some prev) 0 cs = cs := by
  induction cs generalizing prev with
  | nil => rfl
  | cons c cs ih =>
      rw [List.mem_cons, not_or] at h
      rw [removeAll, hp _ _ (by simpa [lineStart] using hprev)]
      simp only
      rw [ih (Ne.symm h.1) h.2]

theorem head?_of_isPrefixOf {x : Char} {word cs : List Char}
    (h : (x :: word).isPrefixOf cs = true) : cs.head? = some x := by
  cases cs with
  | nil => cases h
  | cons c cs =>
      simp only [List.isPrefixOf, Bool.and_eq_true, beq_iff_eq] at h
      rw [← h.1]
      rfl

theorem wordAt_eq_none {x : Char} {word : List Char} (prev : Option Char) (cs : List Char)
    (h : cs.head? ≠ some x) : wordAt (x :: word) prev cs = none := by
  unfold wordAt
  rw [if_neg fun hpre => h (head?_of_isPrefixOf hpre)]

end HomeWarranty.Ruby
