/-
HomeWarranty.Lib.JsLiteral — string literals of JavaScript.

A literal is read from its opening quote on: `readLiteral` returns the
code units that it stands for and the text behind its closing quote. What
a literal may hold has changed over the editions of the language, so the
reader takes a `Dialect`; no result here depends on which one it is.

An escape passes no quote and no backslash after its first character, and
stands for no more code units than it has itself (`escaped_spec`).
-/
import HomeWarranty.Ruby.Literal

namespace HomeWarranty.Lib.Js

open Ruby

/-- What differs between the editions and modes of the language. -/
structure Dialect where
  /-- May U+2028 and U+2029 stand in a literal as they are (from 2019 on)? -/
  separators : Bool
  /-- Are octal escapes read (outside strict mode)? -/
  octal : Bool
  /-- Are code points in braces read (from 2015 on)? -/
  braces : Bool
  deriving DecidableEq

/-! ## Code units -/

/-- A code point in UTF-16. -/
def codeUnits (n : Nat) : List UInt16 :=
  if n < 0x10000 then [UInt16.ofNat n]
  else
    [UInt16.ofNat (0xd800 + (n - 0x10000) / 0x400), UInt16.ofNat (0xdc00 + (n - 0x10000) % 0x400)]

def utf16 (cs : List Char) : List UInt16 := cs.flatMap fun c => codeUnits c.toNat

@[simp] theorem utf16_nil : utf16 [] = [] := rfl

@[simp] theorem utf16_cons (c : Char) (cs : List Char) :
    utf16 (c :: cs) = codeUnits c.toNat ++ utf16 cs := rfl

@[simp] theorem utf16_append (cs ds : List Char) : utf16 (cs ++ ds) = utf16 cs ++ utf16 ds :=
  List.flatMap_append

theorem codeUnits_length (n : Nat) : 0 < (codeUnits n).length ∧ (codeUnits n).length ≤ 2 := by
  unfold codeUnits
  split_ifs <;> simp

theorem length_le_utf16 (cs : List Char) : cs.length ≤ (utf16 cs).length := by
  induction cs with
  | nil => exact Nat.le_refl 0
  | cons c cs ih =>
      have := (codeUnits_length c.toNat).1
      simp only [List.length_cons, utf16_cons, List.length_append]
      omega

/-! ## Escapes -/

def lineTerminator (c : Char) : Bool :=
  c == '\n' || c == '\r' || c == '\u2028' || c == '\u2029'

/-- The letters that stand for a control character. -/
def singleEscape : Char → Option Nat
  | 'b' => some 8
  | 't' => some 9
  | 'n' => some 10
  | 'v' => some 11
  | 'f' => some 12
  | 'r' => some 13
  | _ => none

/-- A digit behind a backslash. Zero on its own is the null character;
every other number is octal and read outside strict mode only. -/
def digitEscape (d : Dialect) (c : Char) (cs : List Char) : Option (List UInt16 × Nat) :=
  if c == '0' && !(cs.head?.any Char.isDigit) then some ([0], 1)
  else if !d.octal then none
  else if isOctal c then
    let ds := (cs.take (if c ≤ '3' then 2 else 1)).takeWhile isOctal
    some ([UInt16.ofNat (octalValue (c :: ds))], ds.length + 1)
  else some (codeUnits c.toNat, 1)

/-- As many hexadecimal digits as are asked for. -/
def hexEscape (count : Nat) (cs : List Char) : Option (List UInt16 × Nat) :=
  let ds := (cs.take count).takeWhile isHex
  if ds.length = count then some ([UInt16.ofNat (hexNumber ds)], ds.length + 1) else none

/-- What follows `\u{`. -/
def bracedEscape (cs : List Char) : Option (List UInt16 × Nat) :=
  let ds := cs.takeWhile isHex
  if ds ≠ [] ∧ hexNumber ds ≤ 0x10ffff ∧ (cs.drop ds.length).head? = some '}' then
    some (codeUnits (hexNumber ds), ds.length + 3)
  else none

def unicodeEscape (d : Dialect) (cs : List Char) : Option (List UInt16 × Nat) :=
  match cs with
  | '{' :: rest => if d.braces then bracedEscape rest else none
  | _ => hexEscape 4 cs

/-- What follows a backslash: the code units, and how many characters
they take. The end of a line stands for nothing. -/
def escaped (d : Dialect) : List Char → Option (List UInt16 × Nat)
  | [] => none
  | c :: cs =>
      if lineTerminator c then some ([], if c == '\r' && cs.head? == some '\n' then 2 else 1)
      else if c == 'x' then hexEscape 2 cs
      else if c == 'u' then unicodeEscape d cs
      else if c.isDigit then digitEscape d c cs
      else some (((singleEscape c).map fun n => [UInt16.ofNat n]).getD (codeUnits c.toNat), 1)

/-- The characters that a literal or an escape can end at. -/
def special (c : Char) : Bool := c == '\'' || c == '"' || c == '\\'

/-- A class without the two quotes and the backslash. -/
theorem not_special_of_class {p : Char → Bool} (hsingle : p '\'' = false) (hdouble : p '"' = false)
    (hbackslash : p '\\' = false) {c : Char} (h : p c = true) : special c = false := by
  rw [Bool.eq_false_iff]
  intro hs
  simp only [special, Bool.or_eq_true, beq_iff_eq] at hs
  rcases hs with (rfl | rfl) | rfl
  · exact absurd h (Bool.eq_false_iff.mp hsingle)
  · exact absurd h (Bool.eq_false_iff.mp hdouble)
  · exact absurd h (Bool.eq_false_iff.mp hbackslash)

theorem isHex_not_special {c : Char} (h : isHex c = true) : special c = false :=
  not_special_of_class (by decide) (by decide) (by decide) h

theorem isOctal_not_special {c : Char} (h : isOctal c = true) : special c = false :=
  not_special_of_class (by decide) (by decide) (by decide) h

/-- An escape took its first character and `pre`. -/
structure EscapeTook (c : Char) (cs : List Char) (r : List UInt16 × Nat)
    (pre : List Char) : Prop where
  front : pre <+: cs
  took : r.2 = pre.length + 1
  plain : ∀ x ∈ pre, special x = false
  short : r.1.length ≤ (utf16 (c :: pre)).length

theorem EscapeTook.alone {c : Char} {cs : List Char} {units : List UInt16}
    (h : units.length ≤ (codeUnits c.toNat).length) : EscapeTook c cs (units, 1) [] where
  front := List.nil_prefix
  took := rfl
  plain := by simp
  short := by simpa using h

theorem EscapeTook.one {c : Char} {cs pre : List Char} (unit : UInt16) (hfront : pre <+: cs)
    (hplain : ∀ x ∈ pre, special x = false) : EscapeTook c cs ([unit], pre.length + 1) pre where
  front := hfront
  took := rfl
  plain := hplain
  short := by
    have := length_le_utf16 (c :: pre)
    exact (Nat.succ_le_succ (Nat.zero_le _)).trans this

theorem takeWhile_take_front (p : Char → Bool) (n : Nat) (cs : List Char) :
    (cs.take n).takeWhile p <+: cs :=
  (List.takeWhile_prefix p).trans (List.take_prefix n cs)

theorem hexEscape_took {c : Char} {count : Nat} {cs : List Char} {r : List UInt16 × Nat}
    (h : hexEscape count cs = some r) : ∃ pre, EscapeTook c cs r pre := by
  simp only [hexEscape] at h
  split_ifs at h
  obtain rfl := Option.some.inj h
  exact ⟨_, EscapeTook.one _ (takeWhile_take_front isHex count cs)
    fun x hx => isHex_not_special (List.mem_takeWhile_imp hx)⟩

theorem bracedEscape_took {c : Char} {cs : List Char} {r : List UInt16 × Nat}
    (h : bracedEscape cs = some r) : ∃ pre, EscapeTook c ('{' :: cs) r pre := by
  simp only [bracedEscape] at h
  split_ifs at h with hok
  obtain rfl := Option.some.inj h
  obtain ⟨_, _, hclose⟩ := hok
  obtain ⟨rest, hrest⟩ := List.head?_eq_some_iff.mp hclose
  have hcs : cs = cs.takeWhile isHex ++ '}' :: rest := by
    rw [← hrest, List.prefix_iff_eq_append.mp (List.takeWhile_prefix isHex)]
  refine ⟨'{' :: (cs.takeWhile isHex ++ ['}']), ?_, ?_, ?_, ?_⟩
  · refine List.cons_prefix_cons.mpr ⟨rfl, rest, ?_⟩
    rw [List.append_assoc, List.singleton_append]
    exact hcs.symm
  · simp
  · intro x hx
    rw [List.mem_cons, List.mem_append, List.mem_singleton] at hx
    rcases hx with rfl | hx | rfl
    · rfl
    · exact isHex_not_special (List.mem_takeWhile_imp hx)
    · rfl
  · have hlen := length_le_utf16 (c :: '{' :: (cs.takeWhile isHex ++ ['}']))
    have := (codeUnits_length (hexNumber (cs.takeWhile isHex))).2
    simp only [List.length_cons, List.length_append, List.length_nil] at hlen
    exact this.trans (le_trans (by omega) hlen)

theorem digitEscape_took {d : Dialect} {c : Char} {cs : List Char} {r : List UInt16 × Nat}
    (h : digitEscape d c cs = some r) : ∃ pre, EscapeTook c cs r pre := by
  simp only [digitEscape] at h
  split_ifs at h
  · obtain rfl := Option.some.inj h
    exact ⟨[], EscapeTook.alone (codeUnits_length _).1⟩
  all_goals obtain rfl := Option.some.inj h
  · exact ⟨_, EscapeTook.one _ (takeWhile_take_front isOctal _ cs)
      fun x hx => isOctal_not_special (List.mem_takeWhile_imp hx)⟩
  · exact ⟨_, EscapeTook.one _ (takeWhile_take_front isOctal _ cs)
      fun x hx => isOctal_not_special (List.mem_takeWhile_imp hx)⟩
  · exact ⟨[], EscapeTook.alone (Nat.le_refl _)⟩

/-- An escape passes plain characters only and stands for no more than it
has itself. -/
theorem escaped_spec {d : Dialect} {c : Char} {cs : List Char} {r : List UInt16 × Nat}
    (h : escaped d (c :: cs) = some r) : ∃ pre, EscapeTook c cs r pre := by
  rw [escaped] at h
  split_ifs at h with hline hcrlf hx hu hdigit
  · -- a line feed behind a carriage return goes with it
    obtain rfl := Option.some.inj h
    simp only [Bool.and_eq_true, beq_iff_eq] at hcrlf
    obtain ⟨rest, rfl⟩ := List.head?_eq_some_iff.mp hcrlf.2
    refine ⟨['\n'], List.cons_prefix_cons.mpr ⟨rfl, List.nil_prefix⟩, rfl, ?_, Nat.zero_le _⟩
    intro x hx
    rw [List.mem_singleton.mp hx]
    rfl
  · obtain rfl := Option.some.inj h
    exact ⟨[], EscapeTook.alone (Nat.zero_le _)⟩
  · exact hexEscape_took h
  · unfold unicodeEscape at h
    split at h
    · split_ifs at h
      exact bracedEscape_took h
    · exact hexEscape_took h
  · exact digitEscape_took h
  · obtain rfl := Option.some.inj h
    refine ⟨[], EscapeTook.alone ?_⟩
    cases hs : singleEscape c with
    | none => exact Nat.le_refl _
    | some n => exact (codeUnits_length _).1

/-- A quote or a backslash behind a backslash is meant as it is. -/
theorem escaped_special (d : Dialect) {c : Char} (h : special c = true) (cs : List Char) :
    escaped d (c :: cs) = some (codeUnits c.toNat, 1) := by
  simp only [special, Bool.or_eq_true, beq_iff_eq] at h
  rcases h with (rfl | rfl) | rfl <;> rfl

/-! ## Literals -/

/-- A line may not end in a literal. -/
def Dialect.endsLine (d : Dialect) (c : Char) : Bool :=
  c == '\n' || c == '\r' || (!d.separators && (c == '\u2028' || c == '\u2029'))

/-- The body of a literal that ends at `q`; `skip` characters belong to
an escape that was read. -/
def readFrom (d : Dialect) (q : Char) : Nat → List Char → Option (List UInt16 × List Char)
  | _, [] => none
  | skip + 1, _ :: cs => readFrom d q skip cs
  | 0, c :: cs =>
      if c == q then some ([], cs)
      else if c == '\\' then
        match escaped d cs with
        | none => none
        | some (units, n) => (readFrom d q n cs).map fun r => (units ++ r.1, r.2)
      else if d.endsLine c then none
      else (readFrom d q 0 cs).map fun r => (codeUnits c.toNat ++ r.1, r.2)

/-- A literal from its opening quote on. -/
def readLiteral (d : Dialect) : List Char → Option (List UInt16 × List Char)
  | [] => none
  | q :: cs => if q == '\'' || q == '"' then readFrom d q 0 cs else none

example : readLiteral ⟨true, false, true⟩ "'a\\x41\\u{42}\\\n\\''b".toList =
    some (utf16 "aAB'".toList, ['b']) := by decide +kernel

section
variable {d : Dialect} {q : Char}

theorem readFrom_skip (n : Nat) (cs : List Char) :
    readFrom d q n cs = readFrom d q 0 (cs.drop n) := by
  induction cs generalizing n with
  | nil => cases n <;> rfl
  | cons c cs ih =>
      cases n with
      | zero => rfl
      | succ n =>
          rw [readFrom, List.drop_succ_cons]
          exact ih n

theorem readFrom_quote (cs : List Char) : readFrom d q 0 (q :: cs) = some ([], cs) := by
  simp [readFrom]

theorem readFrom_plain {c : Char} (hq : c ≠ q) (hb : c ≠ '\\') (hl : d.endsLine c = false)
    (cs : List Char) :
    readFrom d q 0 (c :: cs) =
      (readFrom d q 0 cs).map fun r => (codeUnits c.toNat ++ r.1, r.2) := by
  simp [readFrom, hq, hb, hl]

theorem readFrom_endsLine {c : Char} (hq : c ≠ q) (hb : c ≠ '\\') (hl : d.endsLine c = true)
    (cs : List Char) : readFrom d q 0 (c :: cs) = none := by
  simp [readFrom, hq, hb, hl]

theorem readFrom_backslash (hq : '\\' ≠ q) (cs : List Char) :
    readFrom d q 0 ('\\' :: cs) = (escaped d cs).bind fun r =>
      (readFrom d q 0 (cs.drop r.2)).map fun t => (r.1 ++ t.1, t.2) := by
  cases he : escaped d cs with
  | none => simp [readFrom, hq, he]
  | some r =>
      obtain ⟨units, n⟩ := r
      simp [readFrom, hq, he, readFrom_skip n]

/-- A character that is escaped for safety. -/
theorem readFrom_escaped (hq : '\\' ≠ q) {c : Char} (hc : special c = true) (cs : List Char) :
    readFrom d q 0 ('\\' :: c :: cs) =
      (readFrom d q 0 cs).map fun r => (codeUnits c.toNat ++ r.1, r.2) := by
  rw [readFrom_backslash hq, escaped_special d hc]
  rfl

/-- What follows a literal is shorter than the literal with it. -/
theorem readFrom_shorter {n : Nat} {cs : List Char} {r : List UInt16 × List Char}
    (h : readFrom d q n cs = some r) : r.2.length < cs.length := by
  induction cs generalizing n r with
  | nil => cases n <;> cases h
  | cons c cs ih =>
      have hmap : ∀ {m : Nat} {units : List UInt16},
          ((readFrom d q m cs).map fun r => (units ++ r.1, r.2)) = some r →
            r.2.length < (c :: cs).length := by
        intro m units hm
        obtain ⟨r', hr', rfl⟩ := Option.map_eq_some_iff.mp hm
        have hr : r'.2.length < cs.length := ih hr'
        exact Nat.lt_succ_of_lt hr
      cases n with
      | succ n => exact Nat.lt_succ_of_lt (ih h)
      | zero =>
          simp only [readFrom] at h
          split_ifs at h
          · obtain rfl := Option.some.inj h
            exact Nat.lt_succ_self _
          · cases he : escaped d cs with
            | none => simp [he] at h
            | some e =>
                simp only [he] at h
                exact hmap h
          · exact hmap h

end

end HomeWarranty.Lib.Js
