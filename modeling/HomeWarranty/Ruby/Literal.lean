/-
HomeWarranty.Ruby.Literal — the text of a double-quoted literal, as the
parser of Ruby 2.1 reads it.

`readBody` starts behind the opening quote. It returns the text up to the
closing quote, the bytes that the literal stands for and what follows. A
backslash starts an escape, and `#` starts code where a brace or the name
of a variable follows it; the value of a literal with code in it is not
known before it runs, so nothing is returned for it.

An escape is always longer than what it stands for (`escapeAt_length_le`).
A literal therefore stands for its own text exactly where that text is
`plain`: `readBody_of_plain` and `plain_of_readBody`.

Line ends are dealt with before anything else: `foldLines`.
-/
import Mathlib.Data.List.TakeWhile
import HomeWarranty.Lib.FormQuery
import HomeWarranty.Ruby.Scan

namespace HomeWarranty.Ruby

open Lib

/-! ## Bytes -/

/-- The bytes of a code point, also of one that no character has. -/
def codePointBytes (n : Nat) : List UInt8 :=
  if 0xd800 ≤ n ∧ n < 0xe000 then
    [0xed, UInt8.ofNat (0x80 + n / 0x40 % 0x40), UInt8.ofNat (0x80 + n % 0x40)]
  else String.utf8EncodeChar (Char.ofNat n)

/-- A code point of `k` hexadecimal digits has at most `k` bytes. -/
theorem codePointBytes_length_le {n k : Nat} (hk : 0 < k) (h : n < 16 ^ k) :
    (codePointBytes n).length ≤ k := by
  have hlt : ∀ j, 16 ^ j ≤ n → j < k := fun j hj =>
    (Nat.pow_lt_pow_iff_right (by decide)).mp (hj.trans_lt h)
  have hcode : (Char.ofNat n).val.toNat ≤ n := by
    by_cases hvalid : n.isValidChar
    · rw [Char.ofNat, dif_pos hvalid]
      exact Nat.le_refl n
    · rw [Char.ofNat, dif_neg hvalid]
      exact Nat.zero_le n
  unfold codePointBytes
  split_ifs with hsurrogate
  · exact (hlt 3 (by omega)).le
  · rw [String.length_utf8EncodeChar]
    simp only [Char.utf8Size]
    split_ifs with h1 h2 h3
    · exact hk
    · rw [UInt32.le_iff_toNat_le, Nat.not_le] at h1
      exact hlt 1 (le_trans (by decide) (h1.le.trans hcode))
    · rw [UInt32.le_iff_toNat_le, Nat.not_le] at h2
      exact hlt 2 (le_trans (by decide) (h2.le.trans hcode))
    · rw [UInt32.le_iff_toNat_le, Nat.not_le] at h3
      exact (hlt 3 (le_trans (by decide) (h3.le.trans hcode)))

/-! ## Escapes -/

def isAscii (c : Char) : Bool := c.toNat < 0x80

def isHex (c : Char) : Bool := (hexValue c).isSome

def isOctal (c : Char) : Bool := '0' ≤ c && c ≤ '7'

def hexNumber (ds : List Char) : Nat := ds.foldl (fun n c => 16 * n + (hexValue c).getD 0) 0

def octalValue (ds : List Char) : Nat := ds.foldl (fun n c => 8 * n + (c.toNat - 48)) 0

/-- The letters that stand for a control character, and that for a
blank. -/
def simpleEscape : Char → Option Nat
  | 'n' => some 10
  | 't' => some 9
  | 'r' => some 13
  | 'f' => some 12
  | 'v' => some 11
  | 'a' => some 7
  | 'e' => some 27
  | 'b' => some 8
  | 's' => some 32
  | _ => none

/-- The escapes of one byte, behind the backslash: the byte, and how many
characters it takes. The flags tell which modifiers were read before
it. -/
def readEscape (metaBit control : Bool) : List Char → Option (Nat × Nat)
  | [] => none
  | 'x' :: cs =>
      let ds := (cs.take 2).takeWhile isHex
      if ds = [] then none else some (hexNumber ds, ds.length + 1)
  | 'M' :: '-' :: '\\' :: cs =>
      if metaBit || cs.head? == some 'u' then none
      else (readEscape true control cs).map fun r => (r.1 ||| 0x80, r.2 + 3)
  | 'M' :: '-' :: c :: _ =>
      if metaBit || !isAscii c then none else some (c.toNat ||| 0x80, 3)
  | 'M' :: _ => none
  | 'C' :: '-' :: '\\' :: cs =>
      if control || cs.head? == some 'u' then none
      else (readEscape metaBit true cs).map fun r => (r.1 &&& 0x9f, r.2 + 3)
  | 'C' :: '-' :: c :: _ =>
      if control then none
      else if c == '?' then some (127, 3)
      else if isAscii c then some (c.toNat &&& 0x9f, 3) else none
  | 'C' :: _ => none
  | 'c' :: '\\' :: cs =>
      if control || cs.head? == some 'u' then none
      else (readEscape metaBit true cs).map fun r => (r.1 &&& 0x9f, r.2 + 2)
  | 'c' :: c :: _ =>
      if control then none
      else if c == '?' then some (127, 2)
      else if isAscii c then some (c.toNat &&& 0x9f, 2) else none
  | 'c' :: [] => none
  | c :: cs =>
      match simpleEscape c with
      | some b => some (b, 1)
      | none =>
          if isOctal c then
            let ds := (cs.take 2).takeWhile isOctal
            some (octalValue (c :: ds), ds.length + 1)
          else if isAscii c then some (c.toNat, 1) else none

/-- The code points between braces. -/
def codePoints : Nat → List Char → Option (List UInt8 × Nat)
  | 0, _ => none
  | fuel + 1, cs =>
      let ds := (cs.take 6).takeWhile isHex
      if ds = [] ∨ 0x10ffff < hexNumber ds then none
      else
        match cs.drop ds.length with
        | [] => none
        | c :: rest =>
            if c == '}' then some (codePointBytes (hexNumber ds), ds.length + 1)
            else if c == ' ' || c == '\t' then
              (codePoints fuel rest).map fun r =>
                (codePointBytes (hexNumber ds) ++ r.1, ds.length + 1 + r.2)
            else none

/-- What follows `\u`. -/
def unicodeAt : List Char → Option (List UInt8 × Nat)
  | '{' :: cs => (codePoints cs.length cs).map fun r => (r.1, r.2 + 1)
  | cs =>
      let ds := (cs.take 4).takeWhile isHex
      if ds.length = 4 then some (codePointBytes (hexNumber ds), 4) else none

/-- What follows a backslash: the bytes, and how many characters they
take. The end of a line stands for nothing, and a character that is not
ASCII stands for itself. -/
def escapeAt : List Char → Option (List UInt8 × Nat)
  | [] => none
  | '\n' :: _ => some ([], 1)
  | 'u' :: cs => (unicodeAt cs).map fun r => (r.1, r.2 + 1)
  | c :: cs =>
      if isAscii c then (readEscape false false (c :: cs)).map fun r => ([UInt8.ofNat r.1], r.2)
      else some ([], 0)

theorem hexValue_getD_lt (c : Char) : (hexValue c).getD 0 < 16 := by
  unfold hexValue
  split_ifs with h1 h2 h3
  · have := digit_bounds h1
    have : '0'.toNat = 48 := rfl
    simp only [Option.getD_some]
    omega
  · have : 'A'.toNat = 65 ∧ 'F'.toNat = 70 := ⟨rfl, rfl⟩
    simp only [Option.getD_some]
    omega
  · have : 'a'.toNat = 97 ∧ 'f'.toNat = 102 := ⟨rfl, rfl⟩
    simp only [Option.getD_some]
    omega
  · exact Nat.zero_lt_succ 15

theorem hexNumber_lt (ds : List Char) : hexNumber ds < 16 ^ ds.length := by
  have hfold : ∀ (ds : List Char) (n k : Nat), n < 16 ^ k →
      ds.foldl (fun n c => 16 * n + (hexValue c).getD 0) n < 16 ^ (k + ds.length) := by
    intro ds
    induction ds with
    | nil => exact fun n k hn => hn
    | cons c ds ih =>
        intro n k hn
        have hc := hexValue_getD_lt c
        have hnext : 16 * n + (hexValue c).getD 0 < 16 ^ (k + 1) := by
          rw [Nat.pow_succ]
          omega
        have := ih _ (k + 1) hnext
        simpa [Nat.add_assoc, Nat.add_comm 1] using this
  simpa [hexNumber] using hfold ds 0 0 (by decide)

theorem codePointBytes_hexNumber_length_le {ds : List Char} (hne : ds ≠ []) :
    (codePointBytes (hexNumber ds)).length ≤ ds.length :=
  codePointBytes_length_le (List.length_pos_iff.mpr hne) (hexNumber_lt ds)

theorem readEscape_pos {metaBit control : Bool} {cs : List Char} {r : Nat × Nat}
    (h : readEscape metaBit control cs = some r) : 0 < r.2 := by
  have hsome : ∀ {b n : Nat}, some (b, n + 1) = some r → 0 < r.2 := by
    rintro b n h
    obtain rfl := Option.some.inj h
    exact Nat.succ_pos n
  have hmap : ∀ {g : Nat × Nat → Nat × Nat} {o : Option (Nat × Nat)}, (∀ r, 0 < (g r).2) →
      o.map g = some r → 0 < r.2 := by
    intro g o hg h
    obtain ⟨r', -, rfl⟩ := Option.map_eq_some_iff.mp h
    exact hg r'
  unfold readEscape at h
  split at h
  · cases h
  · -- hexadecimal
    simp only at h
    split_ifs at h
    exact hsome h
  · split_ifs at h
    exact hmap (fun _ => Nat.succ_pos _) h
  · split_ifs at h
    exact hsome h
  · cases h
  · split_ifs at h
    exact hmap (fun _ => Nat.succ_pos _) h
  · split_ifs at h
    · exact hsome h
    · exact hsome h
  · cases h
  · split_ifs at h
    exact hmap (fun _ => Nat.succ_pos _) h
  · split_ifs at h
    · exact hsome h
    · exact hsome h
  · cases h
  · split at h
    · exact hsome h
    · simp only at h
      split_ifs at h
      · exact hsome h
      · exact hsome h

theorem codePoints_length_le {fuel : Nat} {cs : List Char} {r : List UInt8 × Nat}
    (h : codePoints fuel cs = some r) : r.1.length ≤ r.2 := by
  induction fuel generalizing cs r with
  | zero => cases h
  | succ fuel ih =>
      simp only [codePoints] at h
      split_ifs at h with hds
      rw [not_or] at hds
      have hlen := codePointBytes_hexNumber_length_le hds.1
      cases hdrop : cs.drop ((cs.take 6).takeWhile isHex).length with
      | nil => simp [hdrop] at h
      | cons c rest =>
          simp only [hdrop] at h
          split_ifs at h
          · obtain rfl := Option.some.inj h
            exact Nat.le_succ_of_le hlen
          · obtain ⟨r', hr', rfl⟩ := Option.map_eq_some_iff.mp h
            have := ih hr'
            simp only [List.length_append]
            omega

theorem unicodeAt_length_le {cs : List Char} {r : List UInt8 × Nat} (h : unicodeAt cs = some r) :
    r.1.length ≤ r.2 := by
  unfold unicodeAt at h
  split at h
  · obtain ⟨r', hr', rfl⟩ := Option.map_eq_some_iff.mp h
    exact Nat.le_succ_of_le (codePoints_length_le hr')
  · simp only at h
    split_ifs at h with hlen
    obtain rfl := Option.some.inj h
    have hne : (List.takeWhile isHex (cs.take 4)) ≠ [] := by
      intro hnil
      rw [hnil] at hlen
      cases hlen
    have := codePointBytes_hexNumber_length_le hne
    rwa [hlen] at this

/-- An escape takes at least as many characters as it stands for bytes. -/
theorem escapeAt_length_le {cs : List Char} {r : List UInt8 × Nat} (h : escapeAt cs = some r) :
    r.1.length ≤ r.2 := by
  unfold escapeAt at h
  split at h
  · cases h
  · obtain rfl := Option.some.inj h
    exact Nat.zero_le _
  · obtain ⟨r', hr', rfl⟩ := Option.map_eq_some_iff.mp h
    exact Nat.le_succ_of_le (unicodeAt_length_le hr')
  · split_ifs at h
    · obtain ⟨r', hr', rfl⟩ := Option.map_eq_some_iff.mp h
      exact readEscape_pos hr'
    · obtain rfl := Option.some.inj h
      exact Nat.le_refl _

/-! ## Code -/

def nameStart (c : Char) : Bool := !isAscii c || c == '_' || c.isAlpha

/-- The globals that have no letter in their name. -/
def globalMark (c : Char) : Bool := c.isDigit || "~*$?!@/\\;,.=:<>\"&`'+".toList.contains c

/-- A name behind the sign of a variable; after `mark` only a proper name
will do. -/
def variableAt (mark : Char) (marked : Char → Bool) : List Char → Bool
  | [] => false
  | c :: cs => if c == mark then cs.head?.any nameStart else marked c || nameStart c

/-- Is what follows a `#` code: braces, or the name of a global or of an
instance or class variable? -/
def codeAt : List Char → Bool
  | [] => false
  | c :: cs => c == '{' || (c == '$' && variableAt '-' globalMark cs) ||
      (c == '@' && variableAt '@' (fun _ => false) cs)

example : codeAt "$1".toList = true ∧ codeAt "@mail".toList = true ∧ codeAt "1".toList = false := by
  decide

theorem variableAt_append {mark : Char} (hmark : mark ≠ '"') (marked : Char → Bool)
    (cs rest : List Char) :
    variableAt mark marked (cs ++ '"' :: rest) = variableAt mark marked (cs ++ ['"']) := by
  rcases cs with _ | ⟨c, _ | ⟨d, cs⟩⟩
  · simp [variableAt, hmark.symm]
  · rfl
  · rfl

/-- A quote ends the name that is looked for. -/
theorem codeAt_append (cs rest : List Char) :
    codeAt (cs ++ '"' :: rest) = codeAt (cs ++ ['"']) := by
  cases cs with
  | nil => rfl
  | cons c cs =>
      simp only [List.cons_append, codeAt]
      rw [variableAt_append (by decide) globalMark, variableAt_append (by decide) fun _ => false]

/-! ## Literals -/

/-- What is read: the text, the bytes that it stands for, and what follows
the closing quote. -/
structure LiteralText where
  source : List Char
  value : List UInt8
  rest : List Char
  deriving DecidableEq

/-- One more character in front. -/
def LiteralText.after (c : Char) (value : List UInt8) (t : LiteralText) : LiteralText where
  source := c :: t.source
  value := value ++ t.value
  rest := t.rest

/-- The body of a literal; `skip` characters belong to an escape that was
read. -/
def readBody : Nat → List Char → Option LiteralText
  | _, [] => none
  | skip + 1, c :: cs => (readBody skip cs).map (.after c [])
  | 0, c :: cs =>
      if c == '"' then some ⟨[], [], cs⟩
      else if c == '\\' then
        match escapeAt cs with
        | none => none
        | some (value, n) => (readBody n cs).map (.after c value)
      else if c == '#' && codeAt cs then none
      else (readBody 0 cs).map (.after c (String.utf8EncodeChar c))

/-- What one character does: it belongs to an escape, ends the literal,
starts an escape, or stands for itself. -/
theorem readBody_cons {skip : Nat} {c : Char} {cs : List Char} {t : LiteralText}
    (h : readBody skip (c :: cs) = some t) :
    (∃ n t', skip = n + 1 ∧ readBody n cs = some t' ∧ t = t'.after c []) ∨
    (skip = 0 ∧ c = '"' ∧ t = ⟨[], [], cs⟩) ∨
    (skip = 0 ∧ ∃ r t', escapeAt cs = some r ∧ readBody r.2 cs = some t' ∧ t = t'.after c r.1) ∨
    (skip = 0 ∧ c ≠ '"' ∧ c ≠ '\\' ∧ (c == '#' && codeAt cs) = false ∧
      ∃ t', readBody 0 cs = some t' ∧ t = t'.after c (String.utf8EncodeChar c)) := by
  cases skip with
  | succ n =>
      obtain ⟨t', ht', rfl⟩ := Option.map_eq_some_iff.mp h
      exact Or.inl ⟨n, t', rfl, ht', rfl⟩
  | zero =>
      simp only [readBody] at h
      split_ifs at h with hq hb hcode
      · exact Or.inr (Or.inl ⟨rfl, by simpa using hq, (Option.some.inj h).symm⟩)
      · cases he : escapeAt cs with
        | none => simp [he] at h
        | some r =>
            simp only [he] at h
            obtain ⟨t', ht', rfl⟩ := Option.map_eq_some_iff.mp h
            exact Or.inr (Or.inr (Or.inl ⟨rfl, r, t', rfl, ht', rfl⟩))
      · obtain ⟨t', ht', rfl⟩ := Option.map_eq_some_iff.mp h
        exact Or.inr (Or.inr (Or.inr ⟨rfl, by simpa using hq, by simpa using hb,
          by simpa using hcode, t', ht', rfl⟩))

/-- The text that was read, put together again. -/
theorem readBody_source {skip : Nat} {cs : List Char} {t : LiteralText}
    (h : readBody skip cs = some t) : cs = t.source ++ '"' :: t.rest := by
  induction cs generalizing skip t with
  | nil => cases skip <;> cases h
  | cons c cs ih =>
      have hafter : ∀ {n : Nat} {t' : LiteralText} (value : List UInt8), readBody n cs = some t' →
          c :: cs = (t'.after c value).source ++ '"' :: (t'.after c value).rest := by
        intro n t' value ht'
        rw [ih ht']
        rfl
      obtain ⟨n, t', -, ht', rfl⟩ | ⟨-, rfl, rfl⟩ | ⟨-, r, t', -, ht', rfl⟩ |
        ⟨-, -, -, -, t', ht', rfl⟩ := readBody_cons h
      · exact hafter _ ht'
      · rfl
      · exact hafter _ ht'
      · exact hafter _ ht'

/-- A literal stands for no more bytes than it has. -/
theorem readBody_length {skip : Nat} {cs : List Char} {t : LiteralText}
    (h : readBody skip cs = some t) : t.value.length + skip ≤ (utf8 t.source).length := by
  induction cs generalizing skip t with
  | nil => cases skip <;> cases h
  | cons c cs ih =>
      have hc := length_utf8_cons_pos c
      obtain ⟨n, t', rfl, ht', rfl⟩ | ⟨rfl, -, rfl⟩ | ⟨rfl, r, t', he, ht', rfl⟩ |
        ⟨rfl, -, -, -, t', ht', rfl⟩ := readBody_cons h
      · have := ih ht'
        simp only [LiteralText.after, utf8_cons, List.length_append, List.length_nil]
        omega
      · exact Nat.le_refl _
      · have := ih ht'
        have := escapeAt_length_le he
        simp only [LiteralText.after, utf8_cons, List.length_append]
        omega
      · have := ih ht'
        simp only [LiteralText.after, utf8_cons, List.length_append]
        omega

/-! ## Text that stands for itself -/

/-- No quote, no backslash and no code. -/
def plain : List Char → Bool
  | [] => true
  | c :: cs => c != '"' && c != '\\' && !(c == '#' && codeAt (cs ++ ['"'])) && plain cs

theorem not_mem_of_plain {cs : List Char} (h : plain cs = true) : '"' ∉ cs := by
  induction cs with
  | nil => exact List.not_mem_nil
  | cons c cs ih =>
      simp only [plain, Bool.and_eq_true, bne_iff_ne] at h
      rw [List.mem_cons, not_or]
      exact ⟨Ne.symm h.1.1.1, ih h.2⟩

/-- Plain text is read whole, and stands for itself. -/
theorem readBody_of_plain {cs : List Char} (h : plain cs = true) (rest : List Char) :
    readBody 0 (cs ++ '"' :: rest) = some ⟨cs, utf8 cs, rest⟩ := by
  induction cs with
  | nil => rfl
  | cons c cs ih =>
      simp only [plain, Bool.and_eq_true, bne_iff_ne, Bool.not_eq_true'] at h
      obtain ⟨⟨⟨hq, hb⟩, hcode⟩, hcs⟩ := h
      rw [← codeAt_append cs rest] at hcode
      rw [List.cons_append, readBody, if_neg (by simpa using hq), if_neg (by simpa using hb),
        if_neg (by rw [hcode]; exact Bool.false_ne_true), ih hcs]
      rfl

/-- Only plain text stands for itself: an escape would be shorter. -/
theorem plain_of_readBody {cs : List Char} {t : LiteralText} (h : readBody 0 cs = some t)
    (hvalue : t.value = utf8 t.source) : plain t.source = true := by
  induction cs generalizing t with
  | nil => cases h
  | cons c cs ih =>
      obtain ⟨n, t', hn, -, -⟩ | ⟨-, -, rfl⟩ | ⟨-, r, t', he, ht', rfl⟩ |
        ⟨-, hq, hb, hcode, t', ht', rfl⟩ := readBody_cons h
      · cases hn
      · rfl
      · exfalso
        have hlen := congrArg List.length hvalue
        have := readBody_length ht'
        have := escapeAt_length_le he
        have := length_utf8_cons_pos c
        simp only [LiteralText.after, utf8_cons, List.length_append] at hlen
        omega
      · have hrest := ih ht' (List.append_cancel_left hvalue)
        rw [readBody_source ht', codeAt_append] at hcode
        simp only [LiteralText.after, plain, Bool.and_eq_true, bne_iff_ne, Bool.not_eq_true']
        exact ⟨⟨⟨hq, hb⟩, hcode⟩, hrest⟩

/-! ## Line ends -/

/-- The two characters of a line end are read as one. -/
def foldLines : List Char → List Char
  | [] => []
  | c :: cs => if c == '\r' && cs.head? == some '\n' then foldLines cs else c :: foldLines cs

theorem mem_of_mem_foldLines {x : Char} {cs : List Char} (h : x ∈ foldLines cs) : x ∈ cs := by
  induction cs with
  | nil => exact h
  | cons c cs ih =>
      unfold foldLines at h
      split_ifs at h
      · exact List.mem_cons_of_mem c (ih h)
      · rcases List.mem_cons.mp h with rfl | h
        · exact List.mem_cons_self
        · exact List.mem_cons_of_mem c (ih h)

theorem foldLines_append (cs : List Char) {rest : List Char} (h : rest.head? ≠ some '\n') :
    foldLines (cs ++ rest) = foldLines cs ++ foldLines rest := by
  induction cs with
  | nil => rfl
  | cons c cs ih =>
      have hhead : (c == '\r' && (cs ++ rest).head? == some '\n')
          = (c == '\r' && cs.head? == some '\n') := by
        cases cs with
        | nil => simp [h]
        | cons d cs => rfl
      rw [List.cons_append, foldLines, foldLines, hhead, ih]
      split_ifs <;> rfl

theorem foldLines_cons {c : Char} (h : c ≠ '\r') (cs : List Char) :
    foldLines (c :: cs) = c :: foldLines cs := by
  rw [foldLines, beq_eq_false_iff_ne.mpr h, Bool.false_and]
  rfl

theorem foldLines_append_of_not_mem {cs : List Char} (h : '\r' ∉ cs) (rest : List Char) :
    foldLines (cs ++ rest) = cs ++ foldLines rest := by
  induction cs with
  | nil => rfl
  | cons c cs ih =>
      rw [List.mem_cons, not_or] at h
      rw [List.cons_append, foldLines_cons (Ne.symm h.1), ih h.2]
      rfl

theorem length_foldLines_le (cs : List Char) : (foldLines cs).length ≤ cs.length := by
  induction cs with
  | nil => exact Nat.le_refl _
  | cons c cs ih =>
      unfold foldLines
      split_ifs
      · exact Nat.le_succ_of_le ih
      · exact Nat.succ_le_succ ih

theorem foldLines_eq_self_iff (cs : List Char) :
    foldLines cs = cs ↔ ¬ ['\r', '\n'] <:+: cs := by
  induction cs with
  | nil => exact iff_of_true rfl (by decide)
  | cons c cs ih =>
      rw [List.infix_cons_iff, not_or, ← ih]
      have hpre : ['\r', '\n'] <+: c :: cs ↔ (c == '\r' && cs.head? == some '\n') = true := by
        rw [List.cons_prefix_cons, Bool.and_eq_true, beq_iff_eq, beq_iff_eq]
        refine and_congr eq_comm ?_
        cases cs with
        | nil => simp
        | cons d cs => simp [List.cons_prefix_cons, eq_comm]
      rw [foldLines]
      split_ifs with hc
      · refine iff_of_false (fun heq => ?_) fun hno => hno.1 (hpre.mpr hc)
        have := length_foldLines_le cs
        have hlen := congrArg List.length heq
        rw [List.length_cons] at hlen
        omega
      · rw [List.cons.injEq]
        exact ⟨fun heq => ⟨fun hp => hc (hpre.mp hp), heq.2⟩, fun hno => ⟨rfl, hno.2⟩⟩

/-- The first place of a character cuts a text in one way. -/
theorem append_cons_inj {x : Char} {a b c d : List Char} (ha : x ∉ a) (hb : x ∉ b)
    (h : a ++ x :: c = b ++ x :: d) : a = b ∧ c = d := by
  induction a generalizing b with
  | nil =>
      cases b with
      | nil => exact ⟨rfl, (List.cons.inj h).2⟩
      | cons y b =>
          obtain rfl : x = y := (List.cons.inj h).1
          exact absurd List.mem_cons_self hb
  | cons y a ih =>
      cases b with
      | nil =>
          obtain rfl : y = x := (List.cons.inj h).1
          exact absurd List.mem_cons_self ha
      | cons z b =>
          rw [List.mem_cons, not_or] at ha hb
          obtain ⟨rfl, hrest⟩ := List.cons.inj h
          obtain ⟨rfl, rfl⟩ := ih ha.2 hb.2 hrest
          exact ⟨rfl, rfl⟩

/-- Text that can be put between quotes as it is. -/
def Quotable (cs : List Char) : Prop := plain cs = true ∧ ¬ ['\r', '\n'] <:+: cs

instance (cs : List Char) : Decidable (Quotable cs) :=
  inferInstanceAs (Decidable (_ ∧ _))

/-- A text between quotes is read as itself exactly where it is quotable. -/
theorem readBody_foldLines_iff (cs rest rest' : List Char) :
    readBody 0 (foldLines cs ++ '"' :: rest) = some ⟨cs, utf8 cs, rest'⟩ ↔
      Quotable cs ∧ rest' = rest := by
  constructor
  · intro h
    have hplain := plain_of_readBody h rfl
    have hquote := not_mem_of_plain hplain
    have hfold : '"' ∉ foldLines cs := fun hmem => hquote (mem_of_mem_foldLines hmem)
    have hsource := readBody_source h
    obtain ⟨heq, hrest⟩ := append_cons_inj hfold hquote hsource
    exact ⟨⟨hplain, (foldLines_eq_self_iff cs).mp heq⟩, hrest.symm⟩
  · rintro ⟨⟨hplain, hline⟩, rfl⟩
    rw [(foldLines_eq_self_iff cs).mpr hline]
    exact readBody_of_plain hplain rest'

end HomeWarranty.Ruby
