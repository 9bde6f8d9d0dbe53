/-
HomeWarranty.Site.IntroForm — the checks of the quote form before it is
sent.

Two scripts check the form, one with MooTools (`Getaquote`) and one with
jQuery (`GetaquoteJquery`), each on its own page. Both test the state
with `gStateRegexp`, an alternation between `^` and `$` without brackets
around it: the `^` binds to the codes with A and the `$` to those with W,
and the others match anywhere (`test_gStateRegexp_iff`). The first script
asks for two characters besides, but of the text without the blanks
around it.

A text of two characters is judged rightly by both, and a text in which
the expression finds no code too; any other text is not
(`state_checks_right_iff`).

A text field holds no line breaks, so `val()` is its text.
-/
import HomeWarranty.Lib.Regexp
import HomeWarranty.Site.CardCheck

namespace HomeWarranty.Site

open Lib

/-! ## Texts -/

/-- `length`, in code units. -/
def jsLength (cs : List Char) : Nat := (cs.map fun c => if c.toNat < 0x10000 then 1 else 2).sum

/-- `replace(/\s+/g, ' ')`; the flag tells whether the run has its blank. -/
def oneBlank : Bool → List Char → List Char
  | _, [] => []
  | inRun, c :: cs =>
      if jsSpace c then (if inRun then oneBlank true cs else ' ' :: oneBlank true cs)
      else c :: oneBlank false cs

/-- `trim`. -/
def trim (cs : List Char) : List Char :=
  ((cs.dropWhile jsSpace).reverse.dropWhile jsSpace).reverse

/-- `clean` of MooTools. -/
def clean (cs : List Char) : List Char := trim (oneBlank false cs)

/-- The text of each field, by its id. -/
abbrev Form := String → String

/-! ## Expressions -/

/-- What the flag `i` compares; no other character is a letter of an
expression. -/
def canonical (c : Char) : Char :=
  if 97 ≤ c.toNat ∧ c.toNat ≤ 122 then Char.ofNat (c.toNat - 32) else c

/-- A class, written in capitals. -/
def anyCase (xs : List Char) (c : Char) : Bool := xs.contains (canonical c)

def capitals : List Char := "ABCDEFGHIJKLMNOPQRSTUVWXYZ".toList

/-- `/^[A-Z0-9._%+-]+@[A-Z0-9.-]+\.[A-Z]{2,4}$/i`. -/
def gEmailRegexp : Regexp Char :=
  .seq .start (.seq (.many (anyCase (capitals ++ "0123456789._%+-".toList)) 1 none)
    (.seq (.one (· == '@')) (.seq (.many (anyCase (capitals ++ "0123456789.-".toList)) 1 none)
      (.seq (.one (· == '.')) (.seq (.many (anyCase capitals) 2 (some 4)) .finish)))))

example : gEmailRegexp.test "ann@acme.co.uk".toList = true ∧
    gEmailRegexp.test "ann@acme".toList = false := by
  decide +kernel

/-- A letter, and the letters that make a code with it. -/
structure CodeGroup where
  first : Char
  seconds : List Char

/-- `A[LKSZRAEP]`. -/
def codesWithA : CodeGroup := ⟨'A', "LKSZRAEP".toList⟩

/-- `C[AOT]|D[EC]|…|V[AIT]`. -/
def codesBetween : List CodeGroup :=
  [⟨'C', "AOT".toList⟩, ⟨'D', "EC".toList⟩, ⟨'F', "LM".toList⟩, ⟨'G', "AU".toList⟩,
    ⟨'H', "I".toList⟩, ⟨'I', "ADLN".toList⟩, ⟨'K', "SY".toList⟩, ⟨'L', "A".toList⟩,
    ⟨'M', "ADEHINOPST".toList⟩, ⟨'N', "CDEHJMVY".toList⟩, ⟨'O', "HKR".toList⟩,
    ⟨'P', "ARW".toList⟩, ⟨'R', "I".toList⟩, ⟨'S', "CD".toList⟩, ⟨'T', "NX".toList⟩,
    ⟨'U', "T".toList⟩, ⟨'V', "AIT".toList⟩]

/-- `W[AIVY]`. -/
def codesWithW : CodeGroup := ⟨'W', "AIVY".toList⟩

def CodeGroup.regexp (g : CodeGroup) : Regexp Char :=
  .seq (.one (anyCase [g.first])) (.one (anyCase g.seconds))

/-- `/^A[LKSZRAEP]|C[AOT]|…|V[AIT]|W[AIVY]$/i`. -/
def gStateRegexp : Regexp Char :=
  .anyOf (.seq .start codesWithA.regexp ::
    (codesBetween.map CodeGroup.regexp ++ [.seq codesWithW.regexp .finish]))

/-! ## Validators -/

structure LengthField where
  id : String
  requiredLength : Nat
  message : String

structure MatchField where
  id : String
  regexp : Regexp Char
  message : String

/-- The message of each field that is not in order, `null` for the
others. -/
def complaints {φ : Type} (inOrder : φ → Bool) (message : φ → String) (fields : List φ) :
    List (Option String) :=
  fields.map fun field => if inOrder field then none else some (message field)

section
variable (value : String → List Char)

def presenceMessages : List (String × String) → List (Option String) :=
  complaints (fun field => jsLength (value field.1) != 0) Prod.snd

def lengthMessages : List LengthField → List (Option String) :=
  complaints (fun field => jsLength (value field.id) == field.requiredLength) LengthField.message

def matchMessages : List MatchField → List (Option String) :=
  complaints (fun field => field.regexp.test (value field.id)) MatchField.message

end

/-- `messages.erase(null)`. -/
def eraseNull (messages : List (Option String)) : List String := messages.filterMap id

namespace Getaquote

/-- `$(id).get('value')`. -/
def getValue (form : Form) (id : String) : List Char := (form id).toList

def validatePresenceOf (form : Form) : List (String × String) → List (Option String) :=
  presenceMessages fun id => clean (getValue form id)

def validateLengthEquals (form : Form) : List LengthField → List (Option String) :=
  lengthMessages fun id => clean (getValue form id)

def validateMatches (form : Form) : List MatchField → List (Option String) :=
  matchMessages (getValue form)

/-- `validateGetAQuoteIntroForm`: the messages; without any the form is
sent. -/
def validateGetAQuoteIntroForm (form : Form) : List String :=
  eraseNull
    (validatePresenceOf form
        [("intro_customer_first_name", "A First Name is required."),
          ("intro_customer_last_name", "A Last Name is required."),
          ("intro_customer_customer_phone", "A Phone Number is required.")] ++
      validateMatches form
        [⟨"intro_customer_email", gEmailRegexp, "A valid Email Address is required."⟩] ++
      validateLengthEquals form
        [⟨"intro_property_zip_code", 5, "A 5-digit Zip Code is required."⟩,
          ⟨"intro_property_state", 2,
            "A valid US State abbreviation (two characters) is required."⟩] ++
      validateMatches form
        [⟨"intro_property_state", gStateRegexp,
          "A valid US State abbreviation (two characters) is required."⟩])

end Getaquote

namespace GetaquoteJquery

/-- `$(selector).val()`, of `#` and an id. -/
def val (form : Form) (selector : String) : List Char :=
  (form (String.ofList (selector.toList.drop 1))).toList

def validatePresenceOf (form : Form) : List (String × String) → List (Option String) :=
  presenceMessages (val form)

def validateLengthEquals (form : Form) : List LengthField → List (Option String) :=
  lengthMessages (val form)

def validateMatches (form : Form) : List MatchField → List (Option String) :=
  matchMessages (val form)

/-- `validateGetAQuoteIntroForm`. -/
def validateGetAQuoteIntroForm (form : Form) : List String :=
  eraseNull
    (validatePresenceOf form
        [("#intro_customer_first_name", "A First Name is required."),
          ("#intro_customer_last_name", "A Last Name is required."),
          ("#intro_customer_customer_phone", "A Phone Number is required.")] ++
      validateMatches form
        [⟨"#intro_customer_email", gEmailRegexp, "A valid Email Address is required."⟩] ++
      validateLengthEquals form
        [⟨"#intro_property_zip_code", 5, "A 5-digit Zip Code is required."⟩] ++
      validateMatches form
        [⟨"#intro_property_state", gStateRegexp,
          "A valid US State abbreviation (two characters) is required."⟩])

end GetaquoteJquery

/-- The state is not among the fields that are complained about. -/
def StatePasses (messages : List String) : Prop :=
  "A valid US State abbreviation (two characters) is required." ∉ messages

instance (messages : List String) : Decidable (StatePasses messages) :=
  inferInstanceAs (Decidable (_ ∉ messages))

/-! ## Codes -/

/-- The two letters, in either case, are a code of the group. -/
def CodeGroup.Has (g : CodeGroup) (x y : Char) : Prop :=
  canonical x = g.first ∧ canonical y ∈ g.seconds

instance (g : CodeGroup) (x y : Char) : Decidable (g.Has x y) :=
  inferInstanceAs (Decidable (_ ∧ _))

def stateCodes : List CodeGroup := codesWithA :: (codesBetween ++ [codesWithW])

/-- Up to the case of its letters the text is one of the codes. -/
def IsStateCode (cs : List Char) : Prop := ∃ g ∈ stateCodes, ∃ x y, cs = [x, y] ∧ g.Has x y

/-- A code with A stands at the start, one with W at the end, or another
one anywhere. -/
def HoldsCode (cs : List Char) : Prop :=
  (∃ x y post, cs = x :: y :: post ∧ codesWithA.Has x y) ∨
    (∃ g ∈ codesBetween, ∃ pre x y post, cs = pre ++ x :: y :: post ∧ g.Has x y) ∨
    ∃ pre x y, cs = pre ++ [x, y] ∧ codesWithW.Has x y

theorem spans_regexp_iff {g : CodeGroup} {pre mid post : List Char} :
    g.regexp.Spans pre mid post ↔ ∃ x y, mid = [x, y] ∧ g.Has x y := by
  simp only [CodeGroup.regexp, Regexp.Spans, anyCase, List.contains_iff_mem, List.mem_singleton]
  constructor
  · rintro ⟨m₁, m₂, rfl, ⟨x, rfl, hx⟩, y, rfl, hy⟩
    exact ⟨x, y, rfl, hx, hy⟩
  · rintro ⟨x, y, rfl, hx, hy⟩
    exact ⟨[x], [y], rfl, ⟨x, rfl, hx⟩, y, rfl, hy⟩

/-- A code may stand anywhere, … -/
theorem test_regexp_iff (g : CodeGroup) (cs : List Char) :
    g.regexp.test cs = true ↔ ∃ pre x y post, cs = pre ++ x :: y :: post ∧ g.Has x y := by
  simp only [Regexp.test_iff, spans_regexp_iff]
  constructor
  · rintro ⟨pre, mid, post, rfl, x, y, rfl, hhas⟩
    exact ⟨pre, x, y, post, rfl, hhas⟩
  · rintro ⟨pre, x, y, post, rfl, hhas⟩
    exact ⟨pre, [x, y], post, rfl, x, y, rfl, hhas⟩

/-- … behind a `^` at the start, … -/
theorem test_start_regexp_iff (g : CodeGroup) (cs : List Char) :
    (Regexp.seq .start g.regexp).test cs = true ↔ ∃ x y post, cs = x :: y :: post ∧ g.Has x y := by
  simp only [Regexp.test_seq_start_iff, spans_regexp_iff]
  constructor
  · rintro ⟨mid, post, rfl, x, y, rfl, hhas⟩
    exact ⟨x, y, post, rfl, hhas⟩
  · rintro ⟨x, y, post, rfl, hhas⟩
    exact ⟨[x, y], post, rfl, x, y, rfl, hhas⟩

/-- … and in front of a `$` at the end. -/
theorem test_regexp_finish_iff (g : CodeGroup) (cs : List Char) :
    (Regexp.seq g.regexp .finish).test cs = true ↔ ∃ pre x y, cs = pre ++ [x, y] ∧ g.Has x y := by
  simp only [Regexp.test_seq_finish_iff, spans_regexp_iff]
  constructor
  · rintro ⟨pre, mid, rfl, x, y, rfl, hhas⟩
    exact ⟨pre, x, y, rfl, hhas⟩
  · rintro ⟨pre, x, y, rfl, hhas⟩
    exact ⟨pre, [x, y], rfl, x, y, rfl, hhas⟩

/-- What the expression looks for. -/
theorem test_gStateRegexp_iff (cs : List Char) : gStateRegexp.test cs = true ↔ HoldsCode cs := by
  rw [gStateRegexp, Regexp.test_anyOf_iff]
  simp only [List.mem_cons, List.mem_append, List.mem_map, List.not_mem_nil, or_false]
  constructor
  · rintro ⟨r, rfl | ⟨g, hg, rfl⟩ | rfl, htest⟩
    · exact .inl ((test_start_regexp_iff codesWithA cs).mp htest)
    · exact .inr (.inl ⟨g, hg, (test_regexp_iff g cs).mp htest⟩)
    · exact .inr (.inr ((test_regexp_finish_iff codesWithW cs).mp htest))
  · rintro (hfirst | ⟨g, hg, hbetween⟩ | hlast)
    · exact ⟨_, .inl rfl, (test_start_regexp_iff codesWithA cs).mpr hfirst⟩
    · exact ⟨_, .inr (.inl ⟨g, hg, rfl⟩), (test_regexp_iff g cs).mpr hbetween⟩
    · exact ⟨_, .inr (.inr rfl), (test_regexp_finish_iff codesWithW cs).mpr hlast⟩

theorem HoldsCode.of_isStateCode {cs : List Char} (h : IsStateCode cs) : HoldsCode cs := by
  obtain ⟨g, hg, x, y, rfl, hhas⟩ := h
  simp only [stateCodes, List.mem_cons, List.mem_append, List.not_mem_nil, or_false] at hg
  rcases hg with rfl | hg | rfl
  · exact .inl ⟨x, y, [], rfl, hhas⟩
  · exact .inr (.inl ⟨g, hg, [], x, y, [], rfl, hhas⟩)
  · exact .inr (.inr ⟨[], x, y, rfl, hhas⟩)

/-- In two characters there is room for the code only. -/
theorem IsStateCode.of_holdsCode {cs : List Char} (h : HoldsCode cs) (hlen : cs.length ≤ 2) :
    IsStateCode cs := by
  rcases h with ⟨x, y, post, rfl, hhas⟩ | ⟨g, hg, pre, x, y, post, rfl, hhas⟩ |
    ⟨pre, x, y, rfl, hhas⟩
  · obtain rfl : post = [] := List.eq_nil_of_length_eq_zero (by simpa using hlen)
    exact ⟨codesWithA, List.mem_cons_self, x, y, rfl, hhas⟩
  · simp only [List.length_append, List.length_cons] at hlen
    obtain rfl : pre = [] := List.eq_nil_of_length_eq_zero (by omega)
    obtain rfl : post = [] := List.eq_nil_of_length_eq_zero (by omega)
    exact ⟨g, List.mem_cons_of_mem _ (List.mem_append_left _ hg), x, y, rfl, hhas⟩
  · obtain rfl : pre = [] := List.eq_nil_of_length_eq_zero (by simpa using hlen)
    exact ⟨codesWithW, List.mem_cons_of_mem _ (List.mem_append_right _ List.mem_cons_self), x, y,
      rfl, hhas⟩

/-! ## Letters -/

def Letter (c : Char) : Prop := (65 ≤ c.toNat ∧ c.toNat ≤ 90) ∨ (97 ≤ c.toNat ∧ c.toNat ≤ 122)

theorem letter_of_capital {c : Char} (h : canonical c ∈ capitals) : Letter c := by
  have hcapital : ∀ d ∈ capitals, 65 ≤ d.toNat ∧ d.toNat ≤ 90 := by
    intro d hd
    have := List.all_eq_true.mp (show capitals.all (fun d => decide (65 ≤ d.toNat ∧ d.toNat ≤ 90)) =
      true from by decide) d hd
    exact of_decide_eq_true this
  have hbounds := hcapital _ h
  unfold canonical at hbounds
  split_ifs at hbounds with hsmall
  · exact .inr hsmall
  · exact .inl hbounds

theorem letters_of_has {g : CodeGroup} (hg : g ∈ stateCodes) {x y : Char} (h : g.Has x y) :
    Letter x ∧ Letter y := by
  have hcapitals := List.all_eq_true.mp (show stateCodes.all (fun g => capitals.contains g.first &&
    g.seconds.all capitals.contains) = true from by decide) g hg
  rw [Bool.and_eq_true, List.contains_iff_mem, List.all_eq_true] at hcapitals
  obtain ⟨hfirst, hseconds⟩ := hcapitals
  refine ⟨letter_of_capital ?_, letter_of_capital ?_⟩
  · rwa [h.1]
  · exact List.contains_iff_mem.mp (hseconds _ h.2)

theorem Letter.not_space {c : Char} (h : Letter c) : jsSpace c = false := by
  unfold Letter at h
  simp [jsSpace]
  omega

theorem length_le_jsLength (cs : List Char) : cs.length ≤ jsLength cs := by
  induction cs with
  | nil => exact Nat.le_refl 0
  | cons c cs ih =>
      rw [jsLength, List.map_cons, List.sum_cons, ← jsLength, List.length_cons]
      split_ifs <;> omega

section
variable {cs : List Char} (h : IsStateCode cs)
include h

theorem IsStateCode.jsLength_eq : jsLength cs = 2 := by
  obtain ⟨g, hg, x, y, rfl, hhas⟩ := h
  obtain ⟨hx, hy⟩ := letters_of_has hg hhas
  unfold Letter at hx hy
  have hx' : x.toNat < 0x10000 := by omega
  have hy' : y.toNat < 0x10000 := by omega
  simp [jsLength, hx', hy']

theorem IsStateCode.clean_eq : clean cs = cs := by
  obtain ⟨g, hg, x, y, rfl, hhas⟩ := h
  obtain ⟨hx, hy⟩ := letters_of_has hg hhas
  simp [clean, oneBlank, trim, hx.not_space, hy.not_space]

end

/-! ## What passes -/

theorem mem_eraseNull {m : String} {messages : List (Option String)} :
    m ∈ eraseNull messages ↔ some m ∈ messages := by
  simp [eraseNull]

theorem mem_complaints {φ : Type} {inOrder : φ → Bool} {message : φ → String} {fields : List φ}
    {m : String} : some m ∈ complaints inOrder message fields ↔
      ∃ field ∈ fields, inOrder field = false ∧ message field = m := by
  rw [complaints, List.mem_map]
  refine exists_congr fun field => and_congr_right fun _ => ?_
  cases inOrder field with
  | false => simp
  | true => simp

/-- The text in the state field. -/
def stateOf (form : Form) : List Char := (form "intro_property_state").toList

/-- The first script asks for two characters and for a code. -/
theorem getaquote_passes_iff (form : Form) :
    StatePasses (Getaquote.validateGetAQuoteIntroForm form) ↔
      jsLength (clean (stateOf form)) = 2 ∧ HoldsCode (stateOf form) := by
  rw [← test_gStateRegexp_iff, StatePasses, Getaquote.validateGetAQuoteIntroForm, mem_eraseNull]
  simp only [List.mem_append, Getaquote.validatePresenceOf, Getaquote.validateLengthEquals,
    Getaquote.validateMatches, presenceMessages, lengthMessages, matchMessages, mem_complaints,
    Getaquote.getValue, stateOf]
  simp

/-- The second one asks for a code. -/
theorem getaquoteJquery_passes_iff (form : Form) :
    StatePasses (GetaquoteJquery.validateGetAQuoteIntroForm form) ↔ HoldsCode (stateOf form) := by
  have hstate : GetaquoteJquery.val form "#intro_property_state" = stateOf form := rfl
  rw [← test_gStateRegexp_iff, StatePasses, GetaquoteJquery.validateGetAQuoteIntroForm,
    mem_eraseNull]
  simp only [List.mem_append, GetaquoteJquery.validatePresenceOf,
    GetaquoteJquery.validateLengthEquals, GetaquoteJquery.validateMatches, presenceMessages,
    lengthMessages, matchMessages, mem_complaints]
  simp [hstate]

/-- The scripts differ on a text with a code and more characters, or fewer,
than two besides the blanks around it. -/
theorem state_checks_agree_iff (form : Form) :
    (StatePasses (Getaquote.validateGetAQuoteIntroForm form) ↔
        StatePasses (GetaquoteJquery.validateGetAQuoteIntroForm form)) ↔
      jsLength (clean (stateOf form)) = 2 ∨ ¬ HoldsCode (stateOf form) := by
  rw [getaquote_passes_iff, getaquoteJquery_passes_iff, and_iff_right_iff_imp, imp_iff_not_or,
    or_comm]

/-- Both scripts let the state pass exactly when it is a code, if the
text has two characters or the expression finds no code in it, and for no
other text. -/
theorem state_checks_right_iff (form : Form) :
    ((StatePasses (Getaquote.validateGetAQuoteIntroForm form) ↔ IsStateCode (stateOf form)) ∧
      (StatePasses (GetaquoteJquery.validateGetAQuoteIntroForm form) ↔
        IsStateCode (stateOf form))) ↔
      jsLength (stateOf form) = 2 ∨ ¬ HoldsCode (stateOf form) := by
  rw [getaquote_passes_iff, getaquoteJquery_passes_iff]
  constructor
  · rintro ⟨_, hjquery⟩
    by_cases hholds : HoldsCode (stateOf form)
    · exact .inl (hjquery.mp hholds).jsLength_eq
    · exact .inr hholds
  · intro hcond
    have hcode : HoldsCode (stateOf form) ↔ IsStateCode (stateOf form) := by
      refine ⟨fun hholds => ?_, HoldsCode.of_isStateCode⟩
      rcases hcond with hlen | hnone
      · exact IsStateCode.of_holdsCode hholds (hlen ▸ length_le_jsLength (stateOf form))
      · exact absurd hholds hnone
    refine ⟨?_, hcode⟩
    rw [hcode]
    refine and_iff_right_of_imp fun h => ?_
    rw [h.clean_eq, h.jsLength_eq]

/-- A form with a state. -/
def formWith (state : String) : Form := fun id => if id = "intro_property_state" then state else "x"

/-- A code with a blank passes, the name of a state passes one script. -/
theorem state_checks_wrong :
    StatePasses (Getaquote.validateGetAQuoteIntroForm (formWith "NJ ")) ∧
      ¬ IsStateCode "NJ ".toList ∧
      ¬ StatePasses (Getaquote.validateGetAQuoteIntroForm (formWith "New Jersey")) ∧
      StatePasses (GetaquoteJquery.validateGetAQuoteIntroForm (formWith "New Jersey")) ∧
      ¬ IsStateCode "New Jersey".toList := by
  refine ⟨by decide +kernel, fun h => ?_, by decide +kernel, by decide +kernel, fun h => ?_⟩
  · exact absurd h.jsLength_eq (by decide)
  · exact absurd h.jsLength_eq (by decide)

end HomeWarranty.Site
