/-
HomeWarranty.Output.SafeJson — `Safe.json` of `lib/safe.rb`, read back as
a string literal of JavaScript.

`Safe.json` puts a backslash before every quote of either kind. The
backslash itself is left as it is, and so are the ends of lines. A text
that has neither is read back exactly (`readsAs_of_harmless`). With an
end of line the literal is none. A backslash takes what follows it: the
closing quote, the backslash of an escaped quote, or characters of the
text; in each case the literal ends elsewhere or is too short for one of
the two kinds of quotes.
-/
import HomeWarranty.Lib.JsLiteral
import HomeWarranty.Output.Safe

namespace HomeWarranty.Output

open Ruby Lib.Js

/-! ## The table -/

def Safe.JSON : List (String × String) := [("'", "\\'"), ("\"", "\\\"")]

def Safe.json (s : String) : String := Safe.replace Safe.JSON s

example : Safe.json "it's \"5\\\"" = "it\\'s \\\"5\\\\\"" := by decide +kernel

/-- The quotes and what is put in for them. -/
def quotes : List (Char × List Char) := [('\'', ['\\', '\'']), ('"', ['\\', '"'])]

def IsQuote (c : Char) : Prop := c = '\'' ∨ c = '"'

instance (c : Char) : Decidable (IsQuote c) := inferInstanceAs (Decidable (_ ∨ _))

/-- The text with a backslash before every quote. -/
def quoteEscaped (cs : List Char) : List Char := cs.flatMap (onePass quotes)

theorem toList_json (s : String) : (Safe.json s).toList = quoteEscaped s.toList := by
  have htable : Safe.JSON = asStrings quotes := rfl
  rw [Safe.json, htable, toList_replace_onePass (by decide), quoteEscaped]

@[simp] theorem quoteEscaped_nil : quoteEscaped [] = [] := rfl

theorem quoteEscaped_cons (c : Char) (cs : List Char) :
    quoteEscaped (c :: cs) = (if IsQuote c then ['\\', c] else [c]) ++ quoteEscaped cs := by
  have hone : onePass quotes c = if IsQuote c then ['\\', c] else [c] := by
    rcases onePass_cases quotes c with ⟨e, he, rfl, heq⟩ | ⟨hno, heq⟩
    · rw [heq]
      simp only [quotes, List.mem_cons, List.not_mem_nil, or_false] at he
      rcases he with rfl | rfl <;> rfl
    · rw [heq, if_neg]
      rintro (rfl | rfl)
      · exact hno ('\'', ['\\', '\'']) (by simp [quotes]) rfl
      · exact hno ('"', ['\\', '"']) (by simp [quotes]) rfl
  rw [quoteEscaped, List.flatMap_cons, hone, quoteEscaped]

theorem quoteEscaped_quote {c : Char} (h : IsQuote c) (cs : List Char) :
    quoteEscaped (c :: cs) = '\\' :: c :: quoteEscaped cs := by
  rw [quoteEscaped_cons, if_pos h]
  rfl

theorem quoteEscaped_other {c : Char} (h : ¬ IsQuote c) (cs : List Char) :
    quoteEscaped (c :: cs) = c :: quoteEscaped cs := by
  rw [quoteEscaped_cons, if_neg h]
  rfl

/-! ## Reading it back -/

theorem special_of_isQuote {c : Char} (h : IsQuote c) : special c = true := by
  rcases h with rfl | rfl <;> rfl

theorem backslash_ne {q : Char} (h : IsQuote q) : '\\' ≠ q := by
  rcases h with rfl | rfl <;> decide

theorem endsLine_of_isQuote (d : Dialect) {c : Char} (h : IsQuote c) : d.endsLine c = false := by
  rcases h with rfl | rfl <;> simp [Dialect.endsLine]

section
variable {d : Dialect} {q : Char} {rest : List Char}

/-- What the literal stands for and what follows it, if it is read. -/
def ReadsAs (d : Dialect) (q : Char) (cs rest : List Char) (units : List UInt16) : Prop :=
  readFrom d q 0 (quoteEscaped cs ++ q :: rest) = some (units, rest)

/-- A harmless character is read as itself, whatever follows. -/
theorem readFrom_harmless (hq : IsQuote q) {c : Char} (hb : c ≠ '\\') (hl : d.endsLine c = false)
    (cs : List Char) :
    readFrom d q 0 (quoteEscaped (c :: cs) ++ q :: rest) =
      (readFrom d q 0 (quoteEscaped cs ++ q :: rest)).map
        fun r => (codeUnits c.toNat ++ r.1, r.2) := by
  by_cases hc : IsQuote c
  · rw [quoteEscaped_quote hc]
    exact readFrom_escaped (backslash_ne hq) (special_of_isQuote hc) _
  · have hcq : c ≠ q := fun h => hc (h ▸ hq)
    rw [quoteEscaped_other hc]
    exact readFrom_plain hcq hb hl _

/-- A text without backslashes and ends of lines is read back. -/
theorem readsAs_of_harmless (hq : IsQuote q) {cs : List Char}
    (h : ∀ c ∈ cs, c ≠ '\\' ∧ d.endsLine c = false) : ReadsAs d q cs rest (utf16 cs) := by
  induction cs with
  | nil => exact readFrom_quote rest
  | cons c cs ih =>
      obtain ⟨hc, hcs⟩ := List.forall_mem_cons.mp h
      have hrest : readFrom d q 0 (quoteEscaped cs ++ q :: rest) = some (utf16 cs, rest) := ih hcs
      rw [ReadsAs, readFrom_harmless hq hc.1 hc.2, hrest]
      rfl

theorem readsAs_cons (hq : IsQuote q) {c : Char} (hb : c ≠ '\\') (hl : d.endsLine c = false)
    {cs : List Char} {units : List UInt16} (h : ReadsAs d q (c :: cs) rest units) :
    ∃ more, ReadsAs d q cs rest more ∧ units = codeUnits c.toNat ++ more := by
  rw [ReadsAs, readFrom_harmless hq hb hl] at h
  obtain ⟨⟨more, rest'⟩, hmore, heq⟩ := Option.map_eq_some_iff.mp h
  obtain ⟨hunits, hrest⟩ := Prod.mk.injEq .. ▸ heq
  subst hrest
  exact ⟨more, hmore, hunits.symm⟩

theorem not_readsAs_endsLine (hq : IsQuote q) {c : Char} (hl : d.endsLine c = true)
    (cs : List Char) (units : List UInt16) : ¬ ReadsAs d q (c :: cs) rest units := by
  have hc : ¬ IsQuote c := fun hc => by
    rw [endsLine_of_isQuote d hc] at hl
    cases hl
  have hcq : c ≠ q := fun h => hc (h ▸ hq)
  have hb : c ≠ '\\' := by
    rintro rfl
    simp [Dialect.endsLine] at hl
  intro h
  rw [ReadsAs, quoteEscaped_other hc, List.cons_append, readFrom_endsLine hcq hb hl] at h
  cases h

/-! ## Backslashes -/

/-- Plain characters at the front of the escaped text stand at the front
of the text. -/
theorem exists_append_of_front (hq : IsQuote q) {pre cs : List Char}
    (hplain : ∀ x ∈ pre, special x = false) (h : pre <+: quoteEscaped cs ++ q :: rest) :
    ∃ cs', cs = pre ++ cs' ∧ quoteEscaped cs = pre ++ quoteEscaped cs' := by
  induction pre generalizing cs with
  | nil => exact ⟨cs, rfl, rfl⟩
  | cons x pre ih =>
      obtain ⟨hx, hpre⟩ := List.forall_mem_cons.mp hplain
      cases cs with
      | nil =>
          have hxq : x = q := (List.cons_prefix_cons.mp h).1
          rw [hxq, special_of_isQuote hq] at hx
          cases hx
      | cons c cs =>
          by_cases hc : IsQuote c
          · rw [quoteEscaped_quote hc, List.cons_append] at h
            rw [(List.cons_prefix_cons.mp h).1] at hx
            cases hx
          · rw [quoteEscaped_other hc, List.cons_append] at h
            obtain ⟨rfl, hrest⟩ := List.cons_prefix_cons.mp h
            obtain ⟨cs', rfl, heq⟩ := ih hpre hrest
            exact ⟨cs', rfl, by rw [quoteEscaped_other hc, heq]; rfl⟩

/-- A backslash before the closing quote hides it. -/
theorem not_readsAs_last (hq : IsQuote q) (units : List UInt16) :
    ¬ ReadsAs d q ['\\'] rest units := by
  intro h
  have hrest : readFrom d q 0 ('\\' :: q :: rest) = some (units, rest) := h
  rw [readFrom_escaped (backslash_ne hq) (special_of_isQuote hq)] at hrest
  obtain ⟨r, hr, heq⟩ := Option.map_eq_some_iff.mp hrest
  have hlt := readFrom_shorter hr
  rw [(Prod.mk.inj heq).2] at hlt
  exact Nat.lt_irrefl _ hlt

/-- A backslash before the closing kind of quote takes the backslash that
should protect it. -/
theorem not_readsAs_unprotected (hq : IsQuote q) (cs : List Char) (units : List UInt16) :
    ¬ ReadsAs d q ('\\' :: q :: cs) rest units := by
  intro h
  rw [ReadsAs, quoteEscaped_other (by decide), quoteEscaped_quote hq, List.cons_append,
    List.cons_append, readFrom_escaped (backslash_ne hq) rfl, List.cons_append, readFrom_quote] at h
  obtain ⟨_, hrest⟩ := Prod.mk.inj (Option.some.inj h)
  have hlen := congrArg List.length hrest
  simp only [List.length_append, List.length_cons] at hlen
  omega

/-- Any other character behind a backslash is taken with it, with plain
characters that follow. -/
theorem readsAs_backslash (hq : IsQuote q) {c : Char} (hc : ¬ IsQuote c) {cs : List Char}
    {units : List UInt16} (h : ReadsAs d q ('\\' :: c :: cs) rest units) :
    ∃ pre cs' front more, cs = pre ++ cs' ∧ units = front ++ more ∧
      front.length ≤ (utf16 (c :: pre)).length ∧ ReadsAs d q cs' rest more := by
  rw [ReadsAs, quoteEscaped_other (by decide), quoteEscaped_other hc, List.cons_append,
    readFrom_backslash (backslash_ne hq)] at h
  obtain ⟨r, hr, hread⟩ := Option.bind_eq_some_iff.mp h
  obtain ⟨pre, took⟩ := escaped_spec hr
  obtain ⟨cs', rfl, heq⟩ := exists_append_of_front hq took.plain took.front
  obtain ⟨⟨more, rest'⟩, hmore, hpair⟩ := Option.map_eq_some_iff.mp hread
  obtain ⟨hunits, hrest⟩ := Prod.mk.inj hpair
  subst hrest
  refine ⟨pre, cs', r.1, more, rfl, hunits.symm, took.short, ?_⟩
  rwa [took.took, heq, List.cons_append, List.drop_succ_cons, List.append_assoc,
    List.drop_left] at hmore

/-- A backslash before the other kind of quote stands for itself. -/
theorem readsAs_other_quote (hq : IsQuote q) {c : Char} (hc : IsQuote c) (hne : c ≠ q)
    {cs : List Char} {units : List UInt16} (h : ReadsAs d q ('\\' :: c :: cs) rest units) :
    ∃ more, ReadsAs d q cs rest more ∧ units = utf16 ['\\', c] ++ more := by
  have hb : c ≠ '\\' := (backslash_ne hc).symm
  rw [ReadsAs, quoteEscaped_other (by decide), quoteEscaped_quote hc, List.cons_append,
    List.cons_append, readFrom_escaped (backslash_ne hq) rfl, List.cons_append,
    readFrom_plain hne hb (endsLine_of_isQuote d hc)] at h
  obtain ⟨r, hr, hpair⟩ := Option.map_eq_some_iff.mp h
  obtain ⟨⟨more, rest'⟩, hmore, rfl⟩ := Option.map_eq_some_iff.mp hr
  obtain ⟨hunits, hrest⟩ := Prod.mk.inj hpair
  subst hrest
  exact ⟨more, hmore, by simpa using hunits.symm⟩

/-- A literal that ends where it should stands for no more than the
text. -/
theorem readsAs_length (hq : IsQuote q) {cs : List Char} {units : List UInt16}
    (h : ReadsAs d q cs rest units) : units.length ≤ (utf16 cs).length := by
  -- an escape takes several characters at once, so the induction is on the length
  induction hn : cs.length using Nat.strong_induction_on generalizing cs units with
  | _ n ih =>
  cases cs with
  | nil =>
      obtain ⟨rfl, _⟩ := Prod.mk.inj (Option.some.inj ((readFrom_quote rest).symm.trans h))
      exact Nat.le_refl 0
  | cons c cs =>
      subst hn
      by_cases hb : c = '\\'
      · subst hb
        cases cs with
        | nil => exact absurd h (not_readsAs_last hq units)
        | cons x cs =>
            by_cases hx : IsQuote x
            · by_cases hxq : x = q
              · exact absurd (hxq ▸ h) (not_readsAs_unprotected hq cs units)
              · obtain ⟨more, hmore, rfl⟩ := readsAs_other_quote hq hx hxq h
                have := ih cs.length (by simp only [List.length_cons]; omega) hmore rfl
                simp only [utf16_cons, utf16_nil, List.length_append, List.length_nil]
                omega
            · obtain ⟨pre, cs', front, more, rfl, rfl, hfront, hmore⟩ := readsAs_backslash hq hx h
              have := ih cs'.length (by simp only [List.length_cons, List.length_append]; omega)
                hmore rfl
              simp only [utf16_cons, utf16_append, List.length_append] at hfront ⊢
              omega
      · by_cases hl : d.endsLine c = true
        · exact absurd h (not_readsAs_endsLine hq hl cs units)
        · obtain ⟨more, hmore, rfl⟩ := readsAs_cons hq hb (by simpa using hl) h
          have := ih cs.length (Nat.lt_succ_self _) hmore rfl
          simp only [utf16_cons, List.length_append]
          omega

/-- A text that starts with a backslash is not read back between one of
the two kinds of quotes. -/
theorem not_readsAs_backslash (d : Dialect) (cs rest : List Char) :
    ∃ q, IsQuote q ∧ ¬ ReadsAs d q ('\\' :: cs) rest (utf16 ('\\' :: cs)) := by
  cases cs with
  | nil => exact ⟨'"', .inr rfl, not_readsAs_last (.inr rfl) _⟩
  | cons x cs =>
      by_cases hx : IsQuote x
      · exact ⟨x, hx, not_readsAs_unprotected hx cs _⟩
      · refine ⟨'"', .inr rfl, ?_⟩
        intro h
        obtain ⟨pre, cs', front, more, rfl, hunits, hfront, hmore⟩ :=
          readsAs_backslash (.inr rfl) hx h
        have hmore := readsAs_length (.inr rfl) hmore
        have hlen := congrArg List.length hunits
        have hbackslash := (codeUnits_length '\\'.toNat).1
        simp only [utf16_cons, utf16_append, List.length_append] at hlen hfront
        omega

end

/-! ## The round trip -/

/-- `json(s)` between two quotes. -/
def jsonLiteral (q : Char) (s : String) : List Char := q :: ((Safe.json s).toList ++ [q])

/-- Between quotes of either kind the text is a literal that ends at the
closing quote and denotes the text. -/
def JsonRoundTrip (d : Dialect) (s : String) (rest : List Char) : Prop :=
  ∀ q, IsQuote q → readLiteral d (jsonLiteral q s ++ rest) = some (utf16 s.toList, rest)

theorem readLiteral_json (d : Dialect) {q : Char} (hq : IsQuote q) (s : String) (rest : List Char) :
    readLiteral d (jsonLiteral q s ++ rest) =
      readFrom d q 0 (quoteEscaped s.toList ++ q :: rest) := by
  have hopen : (q == '\'' || q == '"') = true := by
    rcases hq with rfl | rfl <;> rfl
  rw [jsonLiteral, toList_json, List.cons_append, readLiteral, if_pos hopen, List.append_assoc,
    List.singleton_append]

/-- The text comes back, whatever follows the literal, exactly when it
has no backslash and no end of line. -/
theorem json_round_trip_iff (d : Dialect) (s : String) (rest : List Char) :
    JsonRoundTrip d s rest ↔ ∀ c ∈ s.toList, c ≠ '\\' ∧ d.endsLine c = false := by
  have hreads : JsonRoundTrip d s rest ↔
      ∀ q, IsQuote q → ReadsAs d q s.toList rest (utf16 s.toList) := by
    refine forall₂_congr fun q hq => ?_
    rw [readLiteral_json d hq, ReadsAs]
  rw [hreads]
  constructor
  · intro h
    generalize s.toList = cs at h
    induction cs with
    | nil => simp
    | cons c cs ih =>
        by_cases hb : c = '\\'
        · subst hb
          obtain ⟨q, hq, hnot⟩ := not_readsAs_backslash d cs rest
          exact absurd (h q hq) hnot
        · by_cases hl : d.endsLine c = true
          · exact absurd (h '"' (.inr rfl)) (not_readsAs_endsLine (.inr rfl) hl cs _)
          · rw [Bool.not_eq_true] at hl
            refine List.forall_mem_cons.mpr ⟨⟨hb, hl⟩, ih fun q hq => ?_⟩
            obtain ⟨more, hmore, heq⟩ := readsAs_cons hq hb hl (h q hq)
            rw [utf16_cons] at heq
            rwa [List.append_cancel_left heq]
  · exact fun h q hq => readsAs_of_harmless hq h

/-- A single backslash hides the closing quote: there is no literal. -/
theorem json_backslash_not_read :
    readLiteral ⟨true, true, true⟩ (jsonLiteral '"' "\\") = none ∧
    ¬ JsonRoundTrip ⟨true, true, true⟩ "\\" [] := by
  refine ⟨by decide +kernel, fun h => ?_⟩
  have hread := h '"' (.inr rfl)
  revert hread
  decide +kernel

end HomeWarranty.Output
