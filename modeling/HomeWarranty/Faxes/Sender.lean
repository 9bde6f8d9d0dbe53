/-
HomeWarranty.Faxes.Sender — the sender of a fax against the regular
expressions of the source.

`Faxes.Service` computes the groups of the three expressions directly.
Here the expressions are patterns for the engine of `Ruby.Pattern`, with
its lazy groups and its going back, and the leftmost match of each gives
a candidate. The two agree but for one case: where nothing but blanks
follows `ID:`, the engine goes back and captures a blank
(`callerId_blank`), which has no digit.

`sender_number_deduced` says what comes out: the last ten digits of the
first candidate that has ten, and nothing if there is none.
-/
import HomeWarranty.Faxes.Service
import HomeWarranty.Ruby.Pattern

namespace HomeWarranty.Faxes

open Ruby (Atom Match matchAtoms searchAtoms lazyFrom starFrom anyChar)

/-! ## The expressions -/

/-- `/"(.+?)"/`. -/
def quotedPattern : List Atom := [.one (· == '"'), .group anyChar, .one (· == '"')]

/-- `/ID:\s*(.+?)$/`. -/
def callerIdPattern : List Atom :=
  [.one (· == 'I'), .one (· == 'D'), .one (· == ':'), .star regexSpace, .group anyChar, .endOfLine]

/-- The characters of `(ddd) ddd-dddd`. -/
def phoneClasses : List (Char → Bool) :=
  [(· == '(')] ++ List.replicate 3 Char.isDigit ++ [(· == ')'), regexSpace]
    ++ List.replicate 3 Char.isDigit ++ [(· == '-')] ++ List.replicate 4 Char.isDigit

/-- `/(\(\d{3}\)\s\d{3}-\d{4})/`; the group is the whole match. -/
def phonePattern : List Atom := phoneClasses.map .one

/-- `match[1]`. -/
def firstGroup (m : Match) : List Char := m.groups.headD []

/-- The captured texts of the leftmost matches, in the order in which
they are tried. -/
def candidates (subject : Option String) : List (List Char) :=
  match subject with
  | none => []
  | some s =>
      ((searchAtoms quotedPattern s.toList).map firstGroup).toList ++
        (((searchAtoms callerIdPattern s.toList).map firstGroup).toList ++
          (((searchAtoms phonePattern s.toList).map Match.text).toList ++ []))

def digitsOf (group : List Char) : List Char := group.filter Char.isDigit

/-- The last ten digits of a text that has ten. -/
def lastTen (group : List Char) : String :=
  String.ofList ((digitsOf group).drop ((digitsOf group).length - 10))

/-- `Fax#deduce_sender_fax_number_using_envelope`: the number that is
stored, and what is returned. -/
def faxDeduceSenderFaxNumber (envelope : Envelope) : Option String × Bool :=
  let number := deduceSenderFaxNumberUsingEnvelope envelope
  (number, validSenderFaxNumber number)

example : candidates (some "\"Joe\" ID: 1 973-201-1333\nfrom (973) 201-1334") =
    ["Joe".toList, "1 973-201-1333".toList, "(973) 201-1334".toList] := by decide +kernel

/-! ## Leftmost matches -/

/-- Matchers that agree at every place agree on the leftmost match. -/
theorem searchAtoms_map {atoms : List Atom} {f : Match → List Char}
    {at' : List Char → Option (List Char)} (h : ∀ cs, (matchAtoms atoms cs).map f = at' cs)
    (cs : List Char) : (searchAtoms atoms cs).map f = firstMatch at' cs := by
  have hscan : ∀ (cs : List Char) (prev : Option Char),
      (Ruby.scan (fun _ cs => matchAtoms atoms cs) prev cs).map f = firstMatch at' cs := by
    intro cs
    induction cs with
    | nil => exact fun prev => h []
    | cons c cs ih =>
        intro prev
        rw [firstMatch, ← h]
        cases hm : matchAtoms atoms (c :: cs) with
        | none =>
            rw [Ruby.scan_cons_of_none hm, ih]
            rfl
        | some m =>
            rw [Ruby.scan_cons_of_some hm]
            rfl
  exact hscan cs none

/-! ## Quotation marks -/

theorem matchAtoms_quote (c : Char) (cs : List Char) :
    matchAtoms [.one (· == '"')] (c :: cs) = if c == '"' then some ⟨[c], []⟩ else none := rfl

/-- One more character in front of the captured group. -/
theorem firstGroup_extend (p : Char → Bool) (rest : List Char → Option Match) (c : Char)
    (cs : List Char) :
    ((lazyFrom p rest cs).map (.extend c)).map firstGroup =
      ((lazyFrom p rest cs).map firstGroup).map (c :: ·) := by
  cases hm : lazyFrom p rest cs with
  | none => rfl
  | some m =>
      obtain ⟨g, tail, m', _, _, _, _, rfl⟩ := Ruby.lazyFrom_eq_some hm
      rfl

/-- The lazy group ends at the next quotation mark. -/
theorem lazyFrom_quoted (c : Char) (cs : List Char) :
    (lazyFrom anyChar (matchAtoms [.one (· == '"')]) (c :: cs)).map firstGroup =
      if anyChar c then (quotedTail cs).map (c :: ·) else none := by
  induction cs generalizing c with
  | nil =>
      by_cases hc : anyChar c = true
      · rw [Ruby.lazyFrom_cons hc, if_pos hc]
        rfl
      · rw [lazyFrom, if_neg hc, if_neg hc]
        rfl
  | cons d cs ih =>
      by_cases hc : anyChar c = true
      · rw [Ruby.lazyFrom_cons hc, if_pos hc, matchAtoms_quote, quotedTail]
        by_cases hd : (d == '"') = true
        · rw [if_pos hd, if_pos hd]
          rfl
        · rw [if_neg hd, if_neg hd, Option.map_none, Option.none_or, firstGroup_extend, ih]
          by_cases hn : d = '\n'
          · subst hn
            rfl
          · have hany : anyChar d = true := by simpa [anyChar] using hn
            rw [if_pos hany, if_neg (by simpa using hn)]
      · rw [lazyFrom, if_neg hc, if_neg hc]
        rfl

theorem quotedPattern_eq (cs : List Char) :
    (matchAtoms quotedPattern cs).map firstGroup = quotedAt cs := by
  rcases cs with _ | ⟨q, _ | ⟨c, cs⟩⟩
  · rfl
  · by_cases hq : (q == '"') = true
    · rw [quotedPattern, matchAtoms, if_pos hq]
      rfl
    · rw [quotedPattern, matchAtoms, if_neg hq]
      rfl
  · rw [quotedPattern, matchAtoms, quotedAt]
    by_cases hq : (q == '"') = true
    · have hgroup : (lazyFrom anyChar (matchAtoms [.one (· == '"')]) (c :: cs)).map firstGroup =
          if c != '\n' then (quotedTail cs).map (c :: ·) else none := lazyFrom_quoted c cs
      rw [if_pos hq, hq, Bool.true_and, ← hgroup, Option.map_map]
      rfl
    · rw [if_neg hq, Bool.eq_false_iff.mpr hq]
      rfl

/-! ## Classes -/

theorem phonePattern_eq (cs : List Char) :
    (matchAtoms phonePattern cs).map Match.text = phoneAt cs := by
  have hclasses : ∀ (ps : List (Char → Bool)) (cs : List Char),
      (matchAtoms (ps.map .one) cs).map Match.text = matchClasses ps cs := by
    intro ps
    induction ps with
    | nil => exact fun cs => by cases cs <;> rfl
    | cons p ps ih =>
        intro cs
        cases cs with
        | nil => rfl
        | cons c cs =>
            rw [List.map_cons, matchAtoms, matchClasses, ← ih]
            by_cases hc : p c = true
            · rw [if_pos hc, if_pos hc, Option.map_map, Option.map_map]
              rfl
            · rw [if_neg hc, if_neg hc]
              rfl
  exact hclasses phoneClasses cs

/-! ## Behind `ID:` -/

theorem callerIdPattern_id (cs : List Char) :
    matchAtoms callerIdPattern ('I' :: 'D' :: ':' :: cs) =
      (starFrom regexSpace (matchAtoms [.group anyChar, .endOfLine]) cs).map
        fun m => .after 'I' (.after 'D' (.after ':' m)) := by
  have hthree : matchAtoms callerIdPattern ('I' :: 'D' :: ':' :: cs) =
      (((starFrom regexSpace (matchAtoms [.group anyChar, .endOfLine]) cs).map (.after ':')).map
        (.after 'D')).map (.after 'I') := rfl
  rw [hthree, Option.map_map, Option.map_map]
  rfl

/-- Both need `ID:`. -/
theorem callerId_other {cs : List Char} (h : ∀ tail, cs ≠ 'I' :: 'D' :: ':' :: tail) :
    matchAtoms callerIdPattern cs = none ∧ callerIdAt cs = none := by
  have hat : callerIdAt cs = none := by
    unfold callerIdAt
    split
    · exact absurd rfl (h _)
    · rfl
  refine ⟨?_, hat⟩
  rcases cs with _ | ⟨a, _ | ⟨b, _ | ⟨c, cs⟩⟩⟩
  · rfl
  · by_cases ha : a = 'I' <;> simp [callerIdPattern, matchAtoms, ha]
  · by_cases ha : a = 'I' <;> by_cases hb : b = 'D' <;> simp [callerIdPattern, matchAtoms, ha, hb]
  · by_cases ha : a = 'I' <;> by_cases hb : b = 'D' <;> by_cases hc : c = ':' <;>
      simp [callerIdPattern, matchAtoms, ha, hb, hc]
    exact absurd (by rw [ha, hb, hc]) (h cs)

/-- Something else than blanks follows: the line from there on. -/
theorem callerId_line {cs : List Char} {c : Char} {rest : List Char}
    (h : cs.dropWhile regexSpace = c :: rest) :
    (matchAtoms callerIdPattern ('I' :: 'D' :: ':' :: cs)).map firstGroup =
      callerIdAt ('I' :: 'D' :: ':' :: cs) := by
  have hc : regexSpace c = false := by
    have hstop := List.head?_dropWhile_not regexSpace cs
    rw [h] at hstop
    simpa using hstop
  have hne : c ≠ '\n' := by
    rintro rfl
    cases hc
  have hrun : starFrom regexSpace (matchAtoms [.group anyChar, .endOfLine])
      (cs.takeWhile regexSpace ++ c :: rest) =
        some ⟨cs.takeWhile regexSpace ++ (c :: rest).takeWhile anyChar,
          [(c :: rest).takeWhile anyChar]⟩ :=
    Ruby.starFrom_run (fun d hd => List.mem_takeWhile_imp hd)
      (fun d hd => Option.some.inj hd ▸ hc) (Ruby.matchAtoms_line hne rest)
  rw [← h, List.takeWhile_append_dropWhile] at hrun
  rw [callerIdPattern_id, hrun, callerIdAt, h]
  rfl

/-- Nothing but blanks follows: what is captured is blank. -/
theorem callerId_blank {cs : List Char} (h : cs.dropWhile regexSpace = []) :
    callerIdAt ('I' :: 'D' :: ':' :: cs) = none ∧
    ∀ m, matchAtoms callerIdPattern ('I' :: 'D' :: ':' :: cs) = some m →
      ∀ c ∈ firstGroup m, regexSpace c = true := by
  have hall : ∀ c ∈ cs, regexSpace c = true := List.dropWhile_eq_nil_iff.mp h
  refine ⟨by rw [callerIdAt, h], fun m hm c hc => ?_⟩
  rw [callerIdPattern_id] at hm
  obtain ⟨m₁, hm₁, rfl⟩ := Option.map_eq_some_iff.mp hm
  obtain ⟨front, tail, m₂, rfl, hm₂, rfl⟩ := Ruby.starFrom_eq_some hm₁
  obtain ⟨g, rest, m₃, rfl, _, _, _, rfl⟩ := Ruby.lazyFrom_eq_some hm₂
  exact hall c (List.mem_append_right _ (List.mem_append_left _ hc))

theorem firstMatch_blank {cs : List Char} (h : ∀ c ∈ cs, c ≠ 'I') :
    firstMatch callerIdAt cs = none := by
  induction cs with
  | nil => rfl
  | cons c cs ih =>
      obtain ⟨hc, hcs⟩ := List.forall_mem_cons.mp h
      have hnone : callerIdAt (c :: cs) = none :=
        (callerId_other fun tail heq => hc (List.cons.inj heq).1).2
      rw [firstMatch, hnone, Option.none_or, ih hcs]

theorem lastTenDigits_blank {g : List Char} (h : ∀ c ∈ g, regexSpace c = true) :
    lastTenDigits g = none := by
  have hnone : g.filter Char.isDigit = [] := by
    rw [List.filter_eq_nil_iff]
    intro c hc hd
    have hspace := h c hc
    have hbounds := Ruby.digit_bounds hd
    simp only [regexSpace, Bool.or_eq_true, beq_iff_eq] at hspace
    rcases hspace with (((rfl | rfl) | rfl) | rfl) | hff
    · exact absurd hbounds.1 (by decide)
    · exact absurd hbounds.1 (by decide)
    · exact absurd hbounds.1 (by decide)
    · exact absurd hbounds.1 (by decide)
    · omega
  rw [lastTenDigits, hnone]
  rfl

/-- The leftmost match gives the same digits. -/
theorem callerIdPattern_digits (cs : List Char) :
    ((searchAtoms callerIdPattern cs).map firstGroup).bind lastTenDigits =
      (firstMatch callerIdAt cs).bind lastTenDigits := by
  have hscan : ∀ (cs : List Char) (prev : Option Char),
      ((Ruby.scan (fun _ cs => matchAtoms callerIdPattern cs) prev cs).map firstGroup).bind
        lastTenDigits = (firstMatch callerIdAt cs).bind lastTenDigits := by
    intro cs
    induction cs with
    | nil => exact fun prev => rfl
    | cons c cs ih =>
        intro prev
        by_cases hid : ∃ tail, c :: cs = 'I' :: 'D' :: ':' :: tail
        · obtain ⟨tail, htail⟩ := hid
          obtain ⟨rfl, rfl⟩ := List.cons.inj htail
          cases hdrop : tail.dropWhile regexSpace with
          | cons d rest =>
              have hline := callerId_line hdrop
              cases hm : matchAtoms callerIdPattern ('I' :: 'D' :: ':' :: tail) with
              | none =>
                  rw [hm, callerIdAt, hdrop] at hline
                  cases hline
              | some m =>
                  rw [hm] at hline
                  rw [Ruby.scan_cons_of_some hm, firstMatch, ← hline]
                  rfl
          | nil =>
              obtain ⟨hnone, hblank⟩ := callerId_blank hdrop
              have hall : ∀ x ∈ tail, regexSpace x = true := List.dropWhile_eq_nil_iff.mp hdrop
              have hlater : firstMatch callerIdAt ('D' :: ':' :: tail) = none := by
                refine firstMatch_blank ?_
                intro x hx
                rcases List.mem_cons.mp hx with rfl | hx
                · decide
                · rcases List.mem_cons.mp hx with rfl | hx
                  · decide
                  · rintro rfl
                    cases hall _ hx
              rw [firstMatch, hnone, hlater]
              cases hm : matchAtoms callerIdPattern ('I' :: 'D' :: ':' :: tail) with
              | none =>
                  rw [Ruby.scan_cons_of_none hm, ih, hlater]
                  rfl
              | some m =>
                  rw [Ruby.scan_cons_of_some hm]
                  exact lastTenDigits_blank (hblank m hm)
        · obtain ⟨hm, hat⟩ := callerId_other fun tail heq => hid ⟨tail, heq⟩
          rw [Ruby.scan_cons_of_none hm, firstMatch, hat, Option.none_or]
          exact ih (some c)
  exact hscan cs none

/-! ## The number -/

theorem lastTenDigits_eq (g : List Char) :
    lastTenDigits g = if 10 ≤ (digitsOf g).length then some (lastTen g) else none := rfl

/-- The first of the candidates is tried, then the others. -/
theorem find?_candidate (candidate : Option (List Char)) (others : List (List Char)) :
    ((candidate.toList ++ others).find? fun g => decide (10 ≤ (digitsOf g).length)).map lastTen =
      (candidate.bind lastTenDigits).or
        ((others.find? fun g => decide (10 ≤ (digitsOf g).length)).map lastTen) := by
  cases candidate with
  | none => rfl
  | some g =>
      rw [Option.toList_some, List.singleton_append, List.find?_cons, Option.bind_some,
        lastTenDigits_eq]
      by_cases hten : 10 ≤ (digitsOf g).length
      · rw [decide_eq_true hten, if_pos hten]
        rfl
      · rw [decide_eq_false hten, if_neg hten]
        rfl

theorem deduced_eq_find? (e : Envelope) :
    deduceSenderFaxNumberUsingEnvelope e =
      ((candidates e.subject).find? fun g => decide (10 ≤ (digitsOf g).length)).map lastTen := by
  cases hs : e.subject with
  | none =>
      rw [deduceSenderFaxNumberUsingEnvelope, hs]
      rfl
  | some s =>
      rw [candidates, find?_candidate, find?_candidate, find?_candidate, callerIdPattern_digits,
        searchAtoms_map quotedPattern_eq, searchAtoms_map phonePattern_eq,
        deduceSenderFaxNumberUsingEnvelope, hs]
      simp

/-- For every subject, or none: the number is the last ten digits of the
first candidate that has ten; it is ten digits, it is missing exactly when
no candidate has ten, and the fax is told whether there is one. -/
theorem sender_number_deduced (e : Envelope) :
    deduceSenderFaxNumberUsingEnvelope e =
      ((candidates e.subject).find? fun g => decide (10 ≤ (digitsOf g).length)).map lastTen ∧
    (∀ s, deduceSenderFaxNumberUsingEnvelope e = some s → TenDigits s) ∧
    (deduceSenderFaxNumberUsingEnvelope e = none ↔
      ∀ g ∈ candidates e.subject, (digitsOf g).length < 10) ∧
    (faxDeduceSenderFaxNumber e).1 = deduceSenderFaxNumberUsingEnvelope e ∧
    ((faxDeduceSenderFaxNumber e).2 = true ↔ deduceSenderFaxNumberUsingEnvelope e ≠ none) := by
  refine ⟨deduced_eq_find? e, fun s hs => tenDigits_deduced hs, ?_, rfl, ?_⟩
  · rw [deduced_eq_find?, Option.map_eq_none_iff, List.find?_eq_none]
    simp only [decide_eq_true_eq, Nat.not_le]
  · have hvalid := validSenderFaxNumber_deduced e
    have hflag : (faxDeduceSenderFaxNumber e).2 =
        validSenderFaxNumber (deduceSenderFaxNumberUsingEnvelope e) := rfl
    rw [hflag, hvalid]
    constructor
    · rintro ⟨s, hs, _⟩
      rw [hs]
      exact Option.some_ne_none s
    · intro hne
      obtain ⟨s, hs⟩ := Option.ne_none_iff_exists'.mp hne
      exact ⟨s, hs, tenDigits_deduced hs⟩

end HomeWarranty.Faxes
