/-
HomeWarranty.Ruby.SqlText — how MySQL cuts the text of a condition into
tokens.

Literals stand between single or double quotes; a quote in them is
doubled, and a backslash escapes the character after it, but stays where
that is `%` or `_`. Numbers are integers, decimals, numbers with an
exponent and those in base 16 or 2. Comments and blanks separate tokens.
Names between backquotes are not used by the application and are read
character by character.

A token keeps the text that it was read from. Two texts with the same
tokens are therefore cut in the same way: a literal with the text of a
value is that value, and not a part of it.

`lexSql_quoted_iff` and `lexSql_number_iff` say when a text put between
quotes, or put into the condition as it is, is read as the one token that
was meant.
-/
import HomeWarranty.Ruby.Literal

namespace HomeWarranty.Ruby

inductive SqlToken where
  | word (text : List Char)
  | number (text : List Char)
  | literal (quote : Char) (text value : List Char)
  | mark (c : Char)
  deriving DecidableEq

/-! ## Literals -/

/-- What a character behind a backslash stands for. -/
def sqlEscape (c : Char) : List Char :=
  if c == '%' || c == '_' then ['\\', c]
  else if c == 'n' then ['\n']
  else if c == 't' then ['\t']
  else if c == 'r' then ['\r']
  else if c == 'b' then ['\x08']
  else if c == '0' then ['\x00']
  else if c == 'Z' then ['\x1a']
  else [c]

/-- A literal behind its opening quote: the text up to the closing one,
and what it stands for. -/
def readQuoted (q : Char) : List Char → Option (List Char × List Char)
  | [] => none
  | [c] => if c == q then some ([], []) else none
  | c :: d :: cs =>
      if c == '\\' then (readQuoted q cs).map fun r => (c :: d :: r.1, sqlEscape d ++ r.2)
      else if c == q then
        if d == q then (readQuoted q cs).map fun r => (c :: d :: r.1, q :: r.2) else some ([], [])
      else (readQuoted q (d :: cs)).map fun r => (c :: r.1, c :: r.2)

example : readQuoted '\'' "O\\'Brien' and".toList
    = some ("O\\'Brien".toList, "O'Brien".toList) := by
  decide

/-! ## Numbers -/

def identChar (c : Char) : Bool := c.isAlphanum || c == '_' || c == '$' || !isAscii c

/-- The length of an exponent. -/
def exponentLength : List Char → Nat
  | [] => 0
  | c :: cs =>
      if c == 'e' || c == 'E' then
        let sign := if cs.head? == some '+' || cs.head? == some '-' then 1 else 0
        let ds := (cs.drop sign).takeWhile Char.isDigit
        if ds = [] then 0 else 1 + sign + ds.length
      else 0

/-- The length of a number in another base. -/
def radixLength (mark : Char) (digit : Char → Bool) : List Char → Nat
  | c :: d :: cs =>
      let ds := cs.takeWhile digit
      if c == '0' && d == mark && ds ≠ [] && !(cs.dropWhile digit).head?.any identChar then
        2 + ds.length
      else 0
  | _ => 0

/-- The length of a number with a decimal point or an exponent, or of a
whole number; a letter right after a whole number makes it a name. -/
def decimalLength (cs : List Char) : Nat :=
  let whole := cs.takeWhile Char.isDigit
  let rest := cs.dropWhile Char.isDigit
  if rest.head? == some '.' then
    let fraction := rest.tail.takeWhile Char.isDigit
    let rest := rest.tail.dropWhile Char.isDigit
    if whole = [] ∧ fraction = [] then 0
    else if rest.head?.any (fun c => c == 'e' || c == 'E') && exponentLength rest == 0 then 0
    else whole.length + 1 + fraction.length + exponentLength rest
  else if whole = [] then 0
  else if exponentLength rest ≠ 0 then whole.length + exponentLength rest
  else if rest.head?.any identChar then 0
  else whole.length

/-- The number at the front, if there is one. No number has a blank in
it. -/
def numberText (cs : List Char) : List Char :=
  let run := cs.takeWhile fun c => !isAsciiSpace c
  let hex := radixLength 'x' isHex run
  let bin := radixLength 'b' (fun c => c == '0' || c == '1') run
  run.take (if hex ≠ 0 then hex else if bin ≠ 0 then bin else decimalLength run)

example : numberText "12 and".toList = "12".toList ∧ numberText "1.5e3,".toList = "1.5e3".toList ∧
    numberText "12th".toList = [] := by decide

/-! ## Tokens -/

/-- The length of a comment up to its end. -/
def blockComment : List Char → Option Nat
  | [] => none
  | [_] => none
  | c :: d :: cs => if c == '*' && d == '/' then some 2 else (blockComment (d :: cs)).map (· + 1)

def lineComment (cs : List Char) : Nat := (cs.takeWhile (· != '\n')).length

/-- What starts at a place: a token, or a blank or a comment, and its
length. Nothing is returned where a quote or a comment has no end. -/
def tokenAt (cs : List Char) : Option (List SqlToken × Nat) :=
  let number := numberText cs
  if number ≠ [] then some ([.number number], number.length)
  else
    match cs with
    | [] => none
    | c :: rest =>
        if isAsciiSpace c then some ([], 1)
        else if c == '#' then some ([], 1 + lineComment rest)
        else if c == '-' && rest.head? == some '-' &&
            rest.tail.head?.all (fun d => d.toNat ≤ 32) then
          some ([], 1 + lineComment rest)
        else if c == '/' && rest.head? == some '*' then
          (blockComment rest.tail).map fun n => ([], n + 2)
        else if c == '\'' || c == '"' then
          (readQuoted c rest).map fun r => ([.literal c r.1 r.2], r.1.length + 2)
        else if identChar c then
          let word := (c :: rest).takeWhile identChar
          some ([.word word], word.length)
        else some ([.mark c], 1)

/-- The tokens of a text; `skip` characters belong to the last one. -/
def lexFrom : Nat → List Char → Option (List SqlToken)
  | _, [] => some []
  | skip + 1, _ :: cs => lexFrom skip cs
  | 0, c :: cs =>
      match tokenAt (c :: cs) with
      | none => none
      | some (tokens, n) => (lexFrom (n - 1) cs).map (tokens ++ ·)

def lexSql (cs : List Char) : Option (List SqlToken) := lexFrom 0 cs

example : lexSql "email = 'a' and id = 3".toList
    = some [.word "email".toList, .mark '=', .literal '\'' ['a'] ['a'], .word "and".toList,
        .word "id".toList, .mark '=', .number ['3']] := by
  decide +kernel

/-! ## Literals that are read as they are written -/

/-- No quote, and no backslash but before `%` and `_`. -/
def sqlPlain (q : Char) : List Char → Bool
  | [] => true
  | [c] => c != '\\' && c != q
  | c :: d :: cs =>
      if c == '\\' then (d == '%' || d == '_') && sqlPlain q cs else c != q && sqlPlain q (d :: cs)

/-- A backslash that stays, or an escape that is shorter. -/
theorem sqlEscape_eq_or (c : Char) :
    ((c == '%' || c == '_') = true ∧ sqlEscape c = ['\\', c]) ∨ (sqlEscape c).length = 1 := by
  unfold sqlEscape
  split_ifs with h
  · exact Or.inl ⟨h, rfl⟩
  all_goals exact Or.inr rfl

/-- A literal stands for no more characters than it has, and for its own
text only where that is plain. -/
theorem readQuoted_spec {q : Char} {cs : List Char} {r : List Char × List Char}
    (h : readQuoted q cs = some r) :
    r.2.length ≤ r.1.length ∧ (r.2 = r.1 → sqlPlain q r.1 = true) := by
  induction cs using readQuoted.induct q generalizing r with
  | case1 => cases h
  | case2 c hc =>
      rw [readQuoted, if_pos hc] at h
      obtain rfl := Option.some.inj h
      exact ⟨Nat.le_refl _, fun _ => rfl⟩
  | case3 c hc =>
      rw [readQuoted, if_neg hc] at h
      cases h
  | case4 c d cs hc ih =>
      -- an escape: either it stays as it is, or it gets shorter
      rw [readQuoted, if_pos hc] at h
      obtain ⟨r', hr', rfl⟩ := Option.map_eq_some_iff.mp h
      obtain ⟨hle, hplain⟩ := ih hr'
      rcases sqlEscape_eq_or d with ⟨hd, hescape⟩ | hescape
      · simp only [hescape, List.cons_append, List.nil_append, List.length_cons, List.cons.injEq]
        refine ⟨by omega, fun hvalue => ?_⟩
        rw [sqlPlain, if_pos hc, hd, hplain hvalue.2.2]
        rfl
      · refine ⟨?_, fun hvalue => ?_⟩
        · simp only [List.length_append, hescape, List.length_cons]
          omega
        · have hlen := congrArg List.length hvalue
          simp only [List.length_append, hescape, List.length_cons] at hlen
          omega
  | case5 c d cs hb hc hd ih =>
      rw [readQuoted, if_neg hb, if_pos hc, if_pos hd] at h
      obtain ⟨r', hr', rfl⟩ := Option.map_eq_some_iff.mp h
      obtain ⟨hle, -⟩ := ih hr'
      refine ⟨Nat.succ_le_succ (Nat.le_succ_of_le hle), fun hvalue => ?_⟩
      have hlen := congrArg List.length hvalue
      simp only [List.length_cons] at hlen
      omega
  | case6 c d cs hb hc hd =>
      rw [readQuoted, if_neg hb, if_pos hc, if_neg hd] at h
      obtain rfl := Option.some.inj h
      exact ⟨Nat.le_refl _, fun _ => rfl⟩
  | case7 c d cs hb hc ih =>
      rw [readQuoted, if_neg hb, if_neg hc] at h
      obtain ⟨r', hr', rfl⟩ := Option.map_eq_some_iff.mp h
      obtain ⟨hle, hplain⟩ := ih hr'
      refine ⟨Nat.succ_le_succ hle, fun hvalue => ?_⟩
      have hplain := hplain (List.cons.inj hvalue).2
      cases htext : r'.1 with
      | nil => simpa [sqlPlain, htext] using ⟨by simpa using hb, by simpa using hc⟩
      | cons e text =>
          rw [htext] at hplain
          rw [sqlPlain, if_neg hb, hplain, Bool.and_true]
          simpa using hc

theorem readQuoted_quote {q : Char} (hq : q ≠ '\\') {rest : List Char}
    (hrest : rest.head? ≠ some q) : readQuoted q (q :: rest) = some ([], []) := by
  cases rest with
  | nil => simp [readQuoted]
  | cons d rest =>
      have hd : d ≠ q := fun h => hrest (by rw [h]; rfl)
      simp [readQuoted, hq, hd]

/-- Plain text is read up to its quote, and stands for itself. -/
theorem readQuoted_of_sqlPlain {q : Char} (hq : q ≠ '\\') {cs rest : List Char}
    (h : sqlPlain q cs = true) (hrest : rest.head? ≠ some q) :
    readQuoted q (cs ++ q :: rest) = some (cs, cs) := by
  induction cs using sqlPlain.induct with
  | case1 => exact readQuoted_quote hq hrest
  | case2 c =>
      simp only [sqlPlain, Bool.and_eq_true, bne_iff_ne] at h
      simp [readQuoted, h.1, h.2, readQuoted_quote hq hrest]
  | case3 c d cs hc ih =>
      simp only [sqlPlain, if_pos hc, Bool.and_eq_true] at h
      obtain rfl : c = '\\' := by simpa using hc
      simp [readQuoted, ih h.2, sqlEscape, h.1]
  | case4 c d cs hc ih =>
      simp only [sqlPlain, if_neg hc, Bool.and_eq_true, bne_iff_ne] at h
      have hb : c ≠ '\\' := by simpa using hc
      have := ih h.2
      rw [List.cons_append] at this
      simp [readQuoted, hb, h.1, this]

theorem sqlPlain_of_not_mem {q : Char} {cs : List Char} (hq : q ∉ cs) (hb : '\\' ∉ cs) :
    sqlPlain q cs = true := by
  induction cs using sqlPlain.induct with
  | case1 => rfl
  | case2 c =>
      rw [List.mem_singleton] at hq hb
      simp [sqlPlain, Ne.symm hq, Ne.symm hb]
  | case3 c d cs hc ih => simp_all
  | case4 c d cs hc ih =>
      rw [List.mem_cons, not_or] at hq hb
      rw [sqlPlain, if_neg hc, ih hq.2 hb.2, Bool.and_true, bne_iff_ne]
      exact Ne.symm hq.1

/-! ## Going on behind a token -/

theorem lexFrom_append (a rest : List Char) : lexFrom a.length (a ++ rest) = lexSql rest := by
  induction a with
  | nil => rfl
  | cons c a ih => exact ih

theorem lexSql_of_tokenAt {a rest : List Char} {tokens : List SqlToken} (ha : a ≠ [])
    (h : tokenAt (a ++ rest) = some (tokens, a.length)) :
    lexSql (a ++ rest) = (lexSql rest).map (tokens ++ ·) := by
  cases a with
  | nil => exact absurd rfl ha
  | cons c a =>
      rw [List.cons_append] at h ⊢
      rw [lexSql, lexFrom, h]
      simp only [List.length_cons, Nat.add_sub_cancel]
      rw [lexFrom_append]

theorem map_append_eq_some_iff {o : Option (List SqlToken)} {a b : List SqlToken} :
    o.map (a ++ ·) = some (a ++ b) ↔ o = some b := by
  rw [Option.map_eq_some_iff]
  constructor
  · rintro ⟨c, rfl, hc⟩
    rw [List.append_cancel_left hc]
  · rintro rfl
    exact ⟨b, rfl, rfl⟩

/-! ## Numbers that are read as they are written -/

/-- How a number starts. -/
def numberStart (c : Char) : Bool := c.isDigit || c == '.'

theorem head?_of_radixLength {mark : Char} {digit : Char → Bool} {cs : List Char}
    (h : radixLength mark digit cs ≠ 0) : cs.head?.any numberStart = true := by
  unfold radixLength at h
  split at h
  · simp only at h
    split_ifs at h with hc
    · simp only [Bool.and_eq_true, beq_iff_eq] at hc
      rw [hc.1.1.1]
      rfl
    · exact absurd rfl h
  · exact absurd rfl h

theorem head?_of_decimalLength {cs : List Char} (h : decimalLength cs ≠ 0) :
    cs.head?.any numberStart = true := by
  cases cs with
  | nil => exact absurd rfl h
  | cons c cs =>
      by_contra hc
      simp only [List.head?_cons, Option.any_some, numberStart, Bool.or_eq_true, beq_iff_eq,
        not_or, Bool.not_eq_true] at hc
      refine h ?_
      simp [decimalLength, hc.1, hc.2]

theorem head?_of_numberText {cs : List Char} (h : numberText cs ≠ []) :
    cs.head?.any numberStart = true := by
  have hrun : (cs.takeWhile fun c => !isAsciiSpace c).head?.any numberStart = true := by
    unfold numberText at h
    simp only at h
    split_ifs at h with hhex hbin
    · exact head?_of_radixLength hhex
    · exact head?_of_radixLength hbin
    · refine head?_of_decimalLength fun hzero => h ?_
      rw [hzero]
      rfl
  cases cs with
  | nil => exact hrun
  | cons c cs =>
      rw [List.takeWhile_cons] at hrun
      split_ifs at hrun
      · exact hrun
      · cases hrun

theorem numberText_cons_eq_nil {c : Char} (h : numberStart c = false) (cs : List Char) :
    numberText (c :: cs) = [] := by
  by_contra hne
  have := head?_of_numberText hne
  rw [List.head?_cons, Option.any_some, h] at this
  cases this

theorem tokenAt_quote (cs : List Char) :
    tokenAt ('\'' :: cs)
      = (readQuoted '\'' cs).map fun r => ([.literal '\'' r.1 r.2], r.1.length + 2) := by
  unfold tokenAt
  rw [numberText_cons_eq_nil rfl]
  rfl

/-- **A text between quotes** is read as the literal that was meant
exactly where it is plain. -/
theorem lexSql_quoted_iff {body rest : List Char} {tokens : List SqlToken}
    (hrest : rest.head? ≠ some '\'') :
    lexSql ('\'' :: (body ++ '\'' :: rest)) = some (.literal '\'' body body :: tokens) ↔
      sqlPlain '\'' body = true ∧ lexSql rest = some tokens := by
  have hskip : lexFrom (body.length + 1) (body ++ '\'' :: rest) = lexSql rest := by
    rw [List.append_cons, ← lexFrom_append (body ++ ['\'']) rest]
    simp
  cases hread : readQuoted '\'' (body ++ '\'' :: rest) with
  | none =>
      refine iff_of_false (fun h => ?_) fun h => ?_
      · rw [lexSql, lexFrom, tokenAt_quote, hread] at h
        cases h
      · rw [readQuoted_of_sqlPlain (by decide) h.1 hrest] at hread
        cases hread
  | some r =>
      have hlex : lexSql ('\'' :: (body ++ '\'' :: rest))
          = (lexFrom (r.1.length + 1) (body ++ '\'' :: rest)).map
            ([SqlToken.literal '\'' r.1 r.2] ++ ·) := by
        rw [lexSql, lexFrom, tokenAt_quote, hread]
        rfl
      rw [hlex]
      constructor
      · intro h
        obtain ⟨later, hlater, heq⟩ := Option.map_eq_some_iff.mp h
        simp only [List.singleton_append, List.cons.injEq, SqlToken.literal.injEq, true_and] at heq
        obtain ⟨⟨htext, hvalue⟩, rfl⟩ := heq
        refine ⟨?_, ?_⟩
        · rw [← htext]
          exact (readQuoted_spec hread).2 (hvalue.trans htext.symm)
        · rw [htext, hskip] at hlater
          exact hlater
      · rintro ⟨hplain, hlater⟩
        rw [readQuoted_of_sqlPlain (by decide) hplain hrest] at hread
        obtain rfl := Option.some.inj hread
        rw [hskip, hlater]
        rfl

/-- The blanks and the end of the text end a number. -/
theorem numberText_append {cs rest : List Char} (hcs : ∀ c ∈ cs, isAsciiSpace c = false)
    (hrest : ∀ c ∈ rest.head?, isAsciiSpace c = true) :
    numberText (cs ++ rest) = numberText cs := by
  have hrun : (cs ++ rest).takeWhile (fun c => !isAsciiSpace c)
      = cs.takeWhile (fun c => !isAsciiSpace c) := by
    rw [List.takeWhile_append_of_pos (by simpa using hcs)]
    have hcs' : cs.takeWhile (fun c => !isAsciiSpace c) = cs :=
      List.takeWhile_eq_self_iff.mpr (by simpa using hcs)
    rw [hcs']
    cases rest with
    | nil => simp
    | cons c rest => simp [hrest c (by simp)]
  unfold numberText
  rw [hrun]

theorem not_space_of_mem_numberText {cs : List Char} {c : Char} (h : c ∈ numberText cs) :
    isAsciiSpace c = false := by
  have := List.mem_takeWhile_imp (List.mem_of_mem_take h)
  simpa using this

theorem numberStart_of_numberText {cs w : List Char} {c : Char} (h : numberText cs = c :: w) :
    numberStart c = true := by
  have hhead := head?_of_numberText (h ▸ List.cons_ne_nil c w)
  have hpre : c :: w <+: cs := h ▸ (List.take_prefix _ _).trans (List.takeWhile_prefix _)
  obtain ⟨rest, rfl⟩ := hpre
  exact hhead

theorem numberText_of_mem_tokenAt {cs : List Char} {r : List SqlToken × Nat} {w : List Char}
    (h : tokenAt cs = some r) (hw : .number w ∈ r.1) : numberText cs = w ∧ w ≠ [] := by
  unfold tokenAt at h
  simp only at h
  split_ifs at h with hne
  · obtain rfl := Option.some.inj h
    obtain rfl := SqlToken.number.inj (List.mem_singleton.mp hw)
    exact ⟨rfl, hne⟩
  · exfalso
    cases cs with
    | nil => cases h
    | cons c cs =>
        simp only at h
        split_ifs at h
        · obtain rfl := Option.some.inj h
          cases hw
        · obtain rfl := Option.some.inj h
          cases hw
        · obtain rfl := Option.some.inj h
          cases hw
        · obtain ⟨n, -, rfl⟩ := Option.map_eq_some_iff.mp h
          cases hw
        · obtain ⟨t, -, rfl⟩ := Option.map_eq_some_iff.mp h
          cases List.mem_singleton.mp hw
        · obtain rfl := Option.some.inj h
          cases List.mem_singleton.mp hw
        · obtain rfl := Option.some.inj h
          cases List.mem_singleton.mp hw

/-- Every number among the tokens was read as one. -/
theorem numberText_of_mem_lexFrom {skip : Nat} {cs : List Char} {tokens : List SqlToken}
    {w : List Char} (h : lexFrom skip cs = some tokens) (hw : .number w ∈ tokens) :
    ∃ cs, numberText cs = w ∧ w ≠ [] := by
  induction cs generalizing skip tokens with
  | nil =>
      obtain rfl : tokens = [] := by cases skip <;> exact (Option.some.inj h).symm
      cases hw
  | cons c cs ih =>
      cases skip with
      | succ skip => exact ih h hw
      | zero =>
          rw [lexFrom] at h
          cases hat : tokenAt (c :: cs) with
          | none => simp [hat] at h
          | some r =>
              simp only [hat] at h
              obtain ⟨later, hlater, rfl⟩ := Option.map_eq_some_iff.mp h
              rcases List.mem_append.mp hw with hw | hw
              · exact ⟨c :: cs, numberText_of_mem_tokenAt hat hw⟩
              · exact ih hlater hw

/-- A text that is one number. -/
def IsNumber (cs : List Char) : Prop := numberText cs = cs ∧ cs ≠ []

instance (cs : List Char) : Decidable (IsNumber cs) :=
  inferInstanceAs (Decidable (_ ∧ _))

theorem IsNumber.not_space {cs : List Char} (h : IsNumber cs) :
    ∀ c ∈ cs, isAsciiSpace c = false := by
  intro c hc
  rw [← h.1] at hc
  exact not_space_of_mem_numberText hc

theorem tokenAt_number {cs : List Char} (h : numberText cs ≠ []) :
    tokenAt cs = some ([.number (numberText cs)], (numberText cs).length) := by
  unfold tokenAt
  exact if_pos h

/-- Where a number could start, there is a token. -/
theorem tokenAt_numberStart {c : Char} {cs : List Char} {r : List SqlToken × Nat}
    (hc : numberStart c = true) (h : tokenAt (c :: cs) = some r) : r.1 ≠ [] := by
  have hother : isAsciiSpace c = false ∧ c ≠ '#' ∧ c ≠ '-' ∧ c ≠ '/' ∧ c ≠ '\'' ∧ c ≠ '"' := by
    simp only [numberStart, Bool.or_eq_true, beq_iff_eq] at hc
    rcases hc with hc | rfl
    · refine ⟨isAsciiSpace_of_isDigit hc, ?_, ?_, ?_, ?_, ?_⟩ <;> rintro rfl <;> cases hc
    · decide
  obtain ⟨hspace, hhash, hdash, hslash, hquote, hquote'⟩ := hother
  unfold tokenAt at h
  simp only [hspace, beq_eq_false_iff_ne.mpr hhash, beq_eq_false_iff_ne.mpr hdash,
    beq_eq_false_iff_ne.mpr hslash, beq_eq_false_iff_ne.mpr hquote,
    beq_eq_false_iff_ne.mpr hquote', Bool.false_and, Bool.or_self, if_false,
    Bool.false_eq_true] at h
  split_ifs at h
  all_goals
    obtain rfl := Option.some.inj h
    exact List.cons_ne_nil _ _

theorem lexSql_of_isNumber {cs rest : List Char} (h : IsNumber cs)
    (hrest : ∀ c ∈ rest.head?, isAsciiSpace c = true) :
    lexSql (cs ++ rest) = (lexSql rest).map ([SqlToken.number cs] ++ ·) := by
  have htext : numberText (cs ++ rest) = cs := by
    rw [numberText_append h.not_space hrest, h.1]
  refine lexSql_of_tokenAt h.2 ?_
  rw [tokenAt_number (by rw [htext]; exact h.2), htext]

/-- The first token is a number with the whole text only where the text
is one. -/
theorem isNumber_of_lexSql {cs rest : List Char} {tokens : List SqlToken}
    (hrest : ∀ c ∈ rest.head?, isAsciiSpace c = true)
    (h : lexSql (cs ++ rest) = some (.number cs :: tokens)) : IsNumber cs := by
  -- the token was read somewhere, which says how the text starts
  obtain ⟨cs', hcs', hne⟩ := numberText_of_mem_lexFrom h List.mem_cons_self
  have hspace : ∀ c ∈ cs, isAsciiSpace c = false := by
    intro c hc
    rw [← hcs'] at hc
    exact not_space_of_mem_numberText hc
  cases cs with
  | nil => exact absurd rfl hne
  | cons c cs =>
      have hstart := numberStart_of_numberText hcs'
      rw [List.cons_append, lexSql, lexFrom] at h
      cases hat : tokenAt (c :: (cs ++ rest)) with
      | none => simp [hat] at h
      | some r =>
          simp only [hat] at h
          obtain ⟨later, -, heq⟩ := Option.map_eq_some_iff.mp h
          cases hfirst : r.1 with
          | nil => exact absurd hfirst (tokenAt_numberStart hstart hat)
          | cons t ts =>
              rw [hfirst, List.cons_append, List.cons.injEq] at heq
              have hmem : SqlToken.number (c :: cs) ∈ r.1 := by
                rw [hfirst, heq.1]
                exact List.mem_cons_self
              have htext := (numberText_of_mem_tokenAt hat hmem).1
              rw [← List.cons_append, numberText_append hspace hrest] at htext
              exact ⟨htext, hne⟩

/-- **A text that is put in as it is** is read as the number that was
meant exactly where it is one. -/
theorem lexSql_number_iff {cs rest : List Char} {tokens : List SqlToken}
    (hrest : ∀ c ∈ rest.head?, isAsciiSpace c = true) :
    lexSql (cs ++ rest) = some (.number cs :: tokens) ↔
      IsNumber cs ∧ lexSql rest = some tokens := by
  constructor
  · intro h
    have hcs := isNumber_of_lexSql hrest h
    rw [lexSql_of_isNumber hcs hrest] at h
    exact ⟨hcs, map_append_eq_some_iff.mp h⟩
  · rintro ⟨hcs, hlater⟩
    rw [lexSql_of_isNumber hcs hrest, hlater]
    rfl

/-! ## Signs -/

def isSign (c : Char) : Bool := c == '-' || c == '+'

def unsigned : List Char → List Char
  | [] => []
  | c :: cs => if isSign c then cs else c :: cs

/-- A number with its sign. -/
def numeralTokens : List Char → List SqlToken
  | [] => [.number []]
  | c :: cs => if isSign c then [.mark c, .number cs] else [.number (c :: cs)]

/-- A number, with a sign or without one. -/
def Numeral (cs : List Char) : Prop := IsNumber (unsigned cs)

instance (cs : List Char) : Decidable (Numeral cs) := inferInstanceAs (Decidable (IsNumber _))

theorem lexSql_sign {c : Char} (hc : isSign c = true) {cs : List Char}
    (hcs : ∀ d ∈ cs.head?, numberStart d = true) :
    lexSql (c :: cs) = (lexSql cs).map ([SqlToken.mark c] ++ ·) := by
  have hdash : cs.head? ≠ some '-' := fun h => absurd (hcs '-' h) (by decide)
  have hat : tokenAt (c :: cs) = some ([.mark c], 1) := by
    simp only [isSign, Bool.or_eq_true, beq_iff_eq] at hc
    unfold tokenAt
    rcases hc with rfl | rfl
    · rw [numberText_cons_eq_nil rfl]
      simp [isAsciiSpace, identChar, isAscii, hdash]
    · rw [numberText_cons_eq_nil rfl]
      rfl
  exact lexSql_of_tokenAt (List.cons_ne_nil c []) hat

theorem lexSql_numeral_iff {cs rest : List Char} {tokens : List SqlToken}
    (hrest : ∀ c ∈ rest.head?, isAsciiSpace c = true) :
    lexSql (cs ++ rest) = some (numeralTokens cs ++ tokens) ↔
      Numeral cs ∧ lexSql rest = some tokens := by
  cases cs with
  | nil => exact lexSql_number_iff hrest
  | cons c cs =>
      by_cases hc : isSign c = true
      · have hsign : ∀ cs', numberText cs' = cs → cs ≠ [] →
            lexSql (c :: (cs ++ rest)) = (lexSql (cs ++ rest)).map ([SqlToken.mark c] ++ ·) := by
          intro cs' hcs' hne
          refine lexSql_sign hc fun d hd => ?_
          cases cs with
          | nil => exact absurd rfl hne
          | cons e cs =>
              obtain rfl : e = d := Option.some.inj hd
              exact numberStart_of_numberText hcs'
        simp only [numeralTokens, Numeral, unsigned, if_pos hc, List.cons_append, List.nil_append]
        rw [← lexSql_number_iff hrest]
        constructor
        · intro h
          have hmem : SqlToken.number cs ∈ SqlToken.mark c :: .number cs :: tokens :=
            List.mem_cons_of_mem _ List.mem_cons_self
          obtain ⟨cs', hcs', hne⟩ := numberText_of_mem_lexFrom h hmem
          rw [hsign cs' hcs' hne] at h
          exact map_append_eq_some_iff.mp h
        · intro h
          obtain ⟨cs', hcs', hne⟩ := numberText_of_mem_lexFrom h List.mem_cons_self
          rw [hsign cs' hcs' hne, h]
          rfl
      · simp only [numeralTokens, Numeral, unsigned, if_neg hc, List.singleton_append]
        exact lexSql_number_iff hrest

theorem radixLength_of_digits (mark : Char) (hmark : mark.isDigit = false) (digit : Char → Bool)
    {cs : List Char} (h : ∀ c ∈ cs, c.isDigit = true) : radixLength mark digit cs = 0 := by
  unfold radixLength
  split
  · rename_i c d cs
    have hd : d ≠ mark := by
      rintro rfl
      rw [h d (by simp)] at hmark
      cases hmark
    simp [hd]
  · rfl

theorem numeral_of_digits {cs : List Char} (h : ∀ c ∈ cs, c.isDigit = true) (hne : cs ≠ []) :
    Numeral cs := by
  have hunsigned : unsigned cs = cs := by
    cases cs with
    | nil => rfl
    | cons c cs =>
        refine if_neg fun hc => ?_
        simp only [isSign, Bool.or_eq_true, beq_iff_eq] at hc
        rcases hc with rfl | rfl
        · exact absurd (h '-' List.mem_cons_self) (by decide)
        · exact absurd (h '+' List.mem_cons_self) (by decide)
  have hrun : cs.takeWhile (fun c => !isAsciiSpace c) = cs := by
    refine List.takeWhile_eq_self_iff.mpr fun c hc => ?_
    rw [isAsciiSpace_of_isDigit (h c hc)]
    rfl
  have hlen : decimalLength cs = cs.length := by
    have htake : cs.takeWhile Char.isDigit = cs := List.takeWhile_eq_self_iff.mpr h
    have hdrop : cs.dropWhile Char.isDigit = [] := List.dropWhile_eq_nil_iff.mpr h
    simp [decimalLength, htake, hdrop, hne, exponentLength]
  unfold Numeral
  rw [hunsigned]
  refine ⟨?_, hne⟩
  simp only [numberText, hrun, radixLength_of_digits 'x' rfl isHex h,
    radixLength_of_digits 'b' rfl _ h, hlen]
  exact List.take_length

/-! ## Fixed text -/

/-- The text is read as these tokens, whatever follows it. -/
def Closes (text : List Char) (tokens : List SqlToken) : Prop :=
  ∀ rest, lexSql (text ++ rest) = (lexSql rest).map (tokens ++ ·)

theorem Closes.append {a b : List Char} {s t : List SqlToken} (ha : Closes a s) (hb : Closes b t) :
    Closes (a ++ b) (s ++ t) := by
  intro rest
  rw [List.append_assoc, ha, hb, Option.map_map]
  congr 1
  funext tokens
  exact (List.append_assoc s t tokens).symm

theorem closes_nil : Closes [] [] := by
  intro rest
  simp

theorem closes_blank : Closes [' '] [] := by
  intro rest
  refine lexSql_of_tokenAt (List.cons_ne_nil ' ' []) ?_
  unfold tokenAt
  rw [List.singleton_append, numberText_cons_eq_nil rfl]
  rfl

/-- A character that is a token by itself. -/
def isMark (c : Char) : Bool := c == '=' || c == '(' || c == ')' || c == '.'

theorem lexSql_mark {c : Char} (hc : isMark c = true) {rest : List Char}
    (h : numberText (c :: rest) = []) :
    lexSql (c :: rest) = (lexSql rest).map ([SqlToken.mark c] ++ ·) := by
  refine lexSql_of_tokenAt (List.cons_ne_nil c []) ?_
  unfold tokenAt
  rw [List.singleton_append, h]
  simp only [isMark, Bool.or_eq_true, beq_iff_eq] at hc
  rcases hc with ((rfl | rfl) | rfl) | rfl <;> rfl

/-- A point is no number where no digit follows it. -/
theorem numberText_point {cs : List Char} (h : ∀ c ∈ cs.head?, c.isDigit = false) :
    numberText ('.' :: cs) = [] := by
  have hdigits : ((cs.takeWhile fun c => !isAsciiSpace c).takeWhile Char.isDigit) = [] := by
    cases cs with
    | nil => rfl
    | cons c cs =>
        rw [List.takeWhile_cons]
        split_ifs
        · rw [List.takeWhile_cons, h c (by simp)]
          rfl
        · rfl
  have hrun : ('.' :: cs).takeWhile (fun c => !isAsciiSpace c)
      = '.' :: cs.takeWhile fun c => !isAsciiSpace c := rfl
  have hradix : ∀ (mark : Char) (digit : Char → Bool) (cs : List Char),
      radixLength mark digit ('.' :: cs) = 0 := by
    intro mark digit cs
    cases cs <;> simp [radixLength]
  have hzero : decimalLength ('.' :: cs.takeWhile fun c => !isAsciiSpace c) = 0 := by
    simp [decimalLength, hdigits]
  simp [numberText, hrun, hradix, hzero]

/-- A name or a keyword. -/
def nameText : List Char → Bool
  | [] => false
  | c :: cs => !numberStart c && identChar c && cs.all identChar

theorem not_space_of_identChar {c : Char} (h : identChar c = true) : isAsciiSpace c = false := by
  by_contra hspace
  simp only [isAsciiSpace, Bool.not_eq_false, Bool.or_eq_true, beq_iff_eq, Bool.and_eq_true,
    decide_eq_true_eq] at hspace
  have hcode : c.toNat = 32 ∨ c.toNat = 9 ∨ c.toNat = 10 ∨ c.toNat = 11 ∨ c.toNat = 12 ∨
      c.toNat = 13 := by omega
  rw [← Char.ofNat_toNat c] at h
  rcases hcode with hcode | hcode | hcode | hcode | hcode | hcode <;>
    · rw [hcode] at h
      revert h
      decide

theorem lexSql_name {w : List Char} (hw : nameText w = true) {rest : List Char}
    (hrest : ∀ c ∈ rest.head?, identChar c = false) :
    lexSql (w ++ rest) = (lexSql rest).map ([SqlToken.word w] ++ ·) := by
  cases w with
  | nil => cases hw
  | cons c cs =>
      simp only [nameText, Bool.and_eq_true, Bool.not_eq_true', List.all_eq_true] at hw
      obtain ⟨⟨hstart, hc⟩, hcs⟩ := hw
      have hword : (c :: (cs ++ rest)).takeWhile identChar = c :: cs := by
        rw [List.takeWhile_cons, if_pos hc, List.takeWhile_append_of_pos hcs]
        cases rest with
        | nil => simp
        | cons d rest => simp [hrest d (by simp)]
      have hother : c ≠ '#' ∧ c ≠ '-' ∧ c ≠ '/' ∧ c ≠ '\'' ∧ c ≠ '"' := by
        refine ⟨?_, ?_, ?_, ?_, ?_⟩ <;> rintro rfl <;> revert hc <;> decide
      obtain ⟨hhash, hdash, hslash, hquote, hquote'⟩ := hother
      refine lexSql_of_tokenAt (List.cons_ne_nil c cs) ?_
      unfold tokenAt
      rw [List.cons_append, numberText_cons_eq_nil hstart]
      simp [not_space_of_identChar hc, hhash, hdash, hslash, hquote, hquote', hc, hword]

theorem closes_name_blank {w : List Char} (hw : nameText w = true) :
    Closes (w ++ [' ']) [.word w] := by
  intro rest
  rw [List.append_assoc, lexSql_name hw (by simp [identChar, isAscii]), closes_blank]
  simp

theorem closes_equals : Closes ['=', ' '] [.mark '='] := by
  intro rest
  rw [List.cons_append, lexSql_mark rfl (numberText_cons_eq_nil rfl _), closes_blank]
  simp

theorem head?_of_nameText {w : List Char} (hw : nameText w = true) (rest : List Char) :
    ∀ c ∈ (w ++ rest).head?, c.isDigit = false := by
  cases w with
  | nil => cases hw
  | cons d w =>
      intro c hc
      obtain rfl : d = c := Option.some.inj hc
      simp only [nameText, numberStart, Bool.and_eq_true, Bool.not_eq_true',
        Bool.or_eq_false_iff] at hw
      exact hw.1.1.1

/-- A name with the name of its table. -/
theorem closes_qualified {v w : List Char} (hv : nameText v = true) (hw : nameText w = true) :
    Closes (v ++ '.' :: (w ++ [' '])) [.word v, .mark '.', .word w] := by
  intro rest
  rw [List.append_assoc, lexSql_name hv (by simp [identChar, isAscii]), List.cons_append,
    List.append_assoc, lexSql_mark rfl (numberText_point (head?_of_nameText hw _)),
    ← List.append_assoc, closes_name_blank hw, Option.map_map, Option.map_map]
  rfl

/-- A function of a column. -/
theorem closes_apply {v w : List Char} (hv : nameText v = true) (hw : nameText w = true) :
    Closes (v ++ '(' :: (w ++ [')', ' '])) [.word v, .mark '(', .word w, .mark ')'] := by
  intro rest
  rw [List.append_assoc, lexSql_name hv (by simp [identChar, isAscii]), List.cons_append,
    lexSql_mark rfl (numberText_cons_eq_nil rfl _), List.append_assoc,
    lexSql_name hw (by simp [identChar, isAscii]), List.cons_append,
    lexSql_mark rfl (numberText_cons_eq_nil rfl _), closes_blank, Option.map_map, Option.map_map,
    Option.map_map, Option.map_map]
  rfl

end HomeWarranty.Ruby
