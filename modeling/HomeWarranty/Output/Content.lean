/-
HomeWarranty.Output.Content — the texts of `content` and their
placeholders.

`Content.for` fills in the five placeholders of the installation and
`tos_for` and `tos_for2` four more of the customer, each with one `gsub!`
over the whole text. `tos_placeholders_filled` says that the nine rounds
are one simultaneous substitution, by the rules of `Lib.Placeholders`.

A result of `none` is an exception: a value that is `nil`, or the missing
row of a state's terms.
-/
import HomeWarranty.Lib.Placeholders
import HomeWarranty.Ruby.Number

namespace HomeWarranty.Output

open Lib Ruby

/-! ## Placeholders -/

inductive Placeholder where
  | installationInfoEmail
  | installationFaxNumber
  | installationName
  | installationPhone
  | installationClaimsEmail
  | waitPeriodTextOverride
  | waitPeriodDaysOverride
  | serviceFeeAmtOverride
  | serviceFeeTextOverride
  deriving DecidableEq

def Placeholder.name : Placeholder → String
  | .installationInfoEmail => "INSTALLATION_INFO_EMAIL"
  | .installationFaxNumber => "INSTALLATION_FAX_NUMBER"
  | .installationName => "INSTALLATION_NAME"
  | .installationPhone => "INSTALLATION_PHONE"
  | .installationClaimsEmail => "INSTALLATION_CLAIMS_EMAIL"
  | .waitPeriodTextOverride => "WAIT_PERIOD_TEXT_OVERRIDE!"
  | .waitPeriodDaysOverride => "WAIT_PERIOD_DAYS_OVERRIDE!"
  | .serviceFeeAmtOverride => "SERVICE_FEE_AMT_OVERRIDE!"
  | .serviceFeeTextOverride => "SERVICE_FEE_TEXT_OVERRIDE!"

/-- `escaped_placeholder_tag`. -/
def escapedPlaceholderTag (string : String) : String := "|||" ++ string ++ "|||"

/-- The attributes of the installation that are read. -/
structure Installation where
  name : Option String
  phone : Option String
  fax : Option String
  domain : String

def Installation.infoEmail (i : Installation) : String := "info@" ++ i.domain

def Installation.claimsEmail (i : Installation) : String := "claims@" ++ i.domain

/-- The placeholders of `replace_placeholders`. -/
def Installation.placeholders (i : Installation) : List (Placeholder × Option String) :=
  [(.installationInfoEmail, some i.infoEmail), (.installationFaxNumber, i.fax),
    (.installationName, i.name), (.installationPhone, i.phone),
    (.installationClaimsEmail, some i.claimsEmail)]

/-- The columns of a customer that change the terms. -/
structure Overrides where
  waitPeriodTextOverride : Option String
  waitPeriodDaysOverride : Option Int
  serviceFeeAmtOverride : Option ℚ
  serviceFeeTextOverride : Option String

/-- A text, or the default for `nil` and the empty text. -/
def textOr (default : String) (column : Option String) : String :=
  match column with
  | none => default
  | some s => if s.isEmpty then default else s

/-- A number, or the default for `nil` and zero. -/
def numberOr {α : Type} [DecidableEq α] [Zero α] (default : α) (column : Option α) : α :=
  match column with
  | none => default
  | some n => if n = 0 then default else n

/-- The placeholders of `tos_for`, with the values of
`wait_period_text_override!` and its siblings. -/
def Overrides.placeholders [Numbers] (o : Overrides) : List (Placeholder × Option String) :=
  [(.waitPeriodTextOverride, some (textOr "thirty" o.waitPeriodTextOverride)),
    (.waitPeriodDaysOverride, some (toString (numberOr 30 o.waitPeriodDaysOverride))),
    (.serviceFeeAmtOverride, some (Numbers.format2 (numberOr 60 o.serviceFeeAmtOverride))),
    (.serviceFeeTextOverride, some (textOr "sixty" o.serviceFeeTextOverride))]

/-- `placeholders.each`: one `gsub!` for each. -/
def substitute (placeholders : List (Placeholder × Option String)) (content : List Char) :
    Option (List Char) :=
  placeholders.foldlM (fun content p => p.2.bind fun value =>
    gsubText (escapedPlaceholderTag p.1.name).toList value.toList content) content

/-- `replace_placeholders`. -/
def replacePlaceholders (i : Installation) (content : List Char) : Option (List Char) :=
  substitute i.placeholders content

example : replacePlaceholders ⟨some "Acme", some "1", some "2", "acme.com"⟩
    "|||INSTALLATION_NAME||| |||INSTALLATION_INFO_EMAIL|||".toList =
      some "Acme info@acme.com".toList := by decide +kernel

/-! ## Contents -/

/-- A row of `content`. -/
structure ContentRow where
  id : Nat
  slug : String
  html : String

/-- The columns of `states` that are read. -/
structure StateTos where
  name : Option String
  tos : Option Nat

section
variable (fold : Char → Char) (rows : List ContentRow) (states : List StateTos) (i : Installation)

def findBySlug (slug : String) : Option ContentRow :=
  rows.find? fun r => sqlEq fold (some r.slug) (some slug)

/-- `Content.for`. -/
def contentFor (slug : String) : Option (List Char) :=
  match findBySlug fold rows slug with
  | some c => replacePlaceholders i c.html.toList
  | none => some ("No such slug - " ++ slug).toList

/-- `Content.tos_for`. -/
def tosFor [Numbers] (o : Overrides) : Option (List Char) :=
  (contentFor fold rows i "terms_of_service").bind (substitute o.placeholders)

/-- `Customer#state_wise_tos`; `state` is the state of the first
property. -/
def stateWiseTos (state : Option String) : Option ContentRow :=
  match (states.find? fun s => sqlEq fold s.name state).bind StateTos.tos with
  | some tos => rows.find? fun r => r.id == tos
  | none => findBySlug fold rows "terms_of_service"

/-- `Content.tos_for2`. -/
def tosFor2 [Numbers] (state : Option String) (o : Overrides) : Option (List Char) := do
  let tos ← stateWiseTos fold rows states state
  let content ← contentFor fold rows i tos.slug
  let content ←
    if content.all isSpace then contentFor fold rows i "terms_of_service" else some content
  substitute o.placeholders content

end

/-! ## Filling them in -/

/-- The name as it stands between the bars. -/
def nameChars (p : Placeholder) : List Char := p.name.toList

theorem properNames : ProperNames '|' nameChars where
  nonempty := by
    intro p
    cases p <;> decide +kernel
  noBar := by
    intro p
    cases p <;> decide +kernel
  injective := by
    intro p q h
    have hname : p.name = q.name := String.toList_injective h
    cases p <;> cases q <;> first | rfl | exact absurd hname (by decide +kernel)

theorem toList_escapedPlaceholderTag (p : Placeholder) :
    (escapedPlaceholderTag p.name).toList = tag '|' nameChars p := by
  rw [escapedPlaceholderTag, String.toList_append, String.toList_append, List.append_assoc]
  rfl

section
variable (i : Installation) (o : Overrides)

/-- All nine, in the order of the source. -/
def placeholders [Numbers] : List (Placeholder × Option String) := i.placeholders ++ o.placeholders

/-- The value of a placeholder. -/
def valueChars [Numbers] (p : Placeholder) : List Char :=
  ((((placeholders i o).lookup p).getD none).getD "").toList

/-- The values are texts without bars and backslashes. -/
def PlainValues [Numbers] : Prop :=
  ∀ e ∈ placeholders i o, ∃ v, e.2 = some v ∧ '|' ∉ v.toList ∧ '\\' ∉ v.toList

variable {i o}

theorem valueChars_of_mem [Numbers] {e : Placeholder × Option String} (he : e ∈ placeholders i o) :
    valueChars i o e.1 = (e.2.getD "").toList := by
  have hlookup : (placeholders i o).lookup e.1 = some e.2 := by
    simp only [placeholders, Installation.placeholders, Overrides.placeholders, List.cons_append,
      List.nil_append, List.mem_cons, List.not_mem_nil, or_false] at he
    rcases he with rfl | rfl | rfl | rfl | rfl | rfl | rfl | rfl | rfl <;> rfl
  rw [valueChars, hlookup]
  rfl

theorem mem_names [Numbers] (p : Placeholder) : p ∈ (placeholders i o).map Prod.fst := by
  have hnames : (placeholders i o).map Prod.fst = [.installationInfoEmail, .installationFaxNumber,
      .installationName, .installationPhone, .installationClaimsEmail, .waitPeriodTextOverride,
      .waitPeriodDaysOverride, .serviceFeeAmtOverride, .serviceFeeTextOverride] := rfl
  rw [hnames]
  cases p <;> decide

theorem bar_notMem_valueChars [Numbers] (h : PlainValues i o) (p : Placeholder) :
    '|' ∉ valueChars i o p := by
  obtain ⟨e, he, rfl⟩ := List.mem_map.mp (mem_names (i := i) (o := o) p)
  obtain ⟨v, hv, hbar, _⟩ := h e he
  rw [valueChars_of_mem he, hv]
  exact hbar

/-- Rounds with plain values are the rounds of the library. -/
theorem substitute_eq_rounds [Numbers] (h : PlainValues i o)
    {ps : List (Placeholder × Option String)}
    (hps : ∀ e ∈ ps, e ∈ placeholders i o) (content : List Char) :
    substitute ps content =
      some (rounds '|' nameChars (valueChars i o) (ps.map Prod.fst) content) := by
  induction ps generalizing content with
  | nil => rfl
  | cons e ps ih =>
      obtain ⟨hmem, hrest⟩ := List.forall_mem_cons.mp hps
      obtain ⟨v, hv, _, hbackslash⟩ := h e hmem
      have hvalue : valueChars i o e.1 = v.toList := by
        rw [valueChars_of_mem hmem, hv]
        rfl
      have hround : gsubText (escapedPlaceholderTag e.1.name).toList v.toList content =
          some (gsub (tag '|' nameChars e.1) (valueChars i o e.1) content) := by
        rw [gsubText_plain hbackslash, toList_escapedPlaceholderTag, hvalue]
      rw [substitute, List.foldlM_cons, hv, Option.bind_some, hround]
      exact ih hrest _

/-- The rounds of `replace_placeholders` and then those of the
customer. -/
theorem replacePlaceholders_bind [Numbers] (content : List Char) :
    (replacePlaceholders i content).bind (substitute o.placeholders) =
      substitute (placeholders i o) content := by
  rw [replacePlaceholders, substitute, placeholders, substitute, List.foldlM_append]
  rfl

/-- The rounds fill every placeholder, in whatever order they run. -/
theorem substitute_perm [Numbers] (h : PlainValues i o) {segs : List (Segment Placeholder)}
    (hsegs : NoBars '|' segs) (hfree : ∀ p, ¬ nameChars p <:+: fill (valueChars i o) segs)
    {ps : List (Placeholder × Option String)} (hps : ps.Perm (placeholders i o)) :
    substitute ps (render '|' nameChars segs) = some (fill (valueChars i o) segs) := by
  rw [substitute_eq_rounds h fun e he => hps.mem_iff.mp he,
    rounds_eq_fill properNames (bar_notMem_valueChars h) hsegs hfree]
  intro p _
  exact (hps.map Prod.fst).mem_iff.mpr (mem_names p)

end

/-- A content of plain texts and known placeholders: the rounds of
`replace_placeholders` and of `tos_for` or `tos_for2` give the text with
every placeholder replaced once, in whatever order the rounds run, and no
known placeholder is left. -/
theorem tos_placeholders_filled [Numbers] (fold : Char → Char) (rows : List ContentRow)
    (states : List StateTos) (i : Installation) (o : Overrides) (segs : List (Segment Placeholder))
    (hsegs : NoBars '|' segs) (hvalues : PlainValues i o)
    (hfree : ∀ p, ¬ nameChars p <:+: fill (valueChars i o) segs) :
    (replacePlaceholders i (render '|' nameChars segs)).bind (substitute o.placeholders) =
      some (fill (valueChars i o) segs) ∧
    (∀ row, findBySlug fold rows "terms_of_service" = some row →
      row.html.toList = render '|' nameChars segs →
      tosFor fold rows i o = some (fill (valueChars i o) segs)) ∧
    (∀ state tos row content, stateWiseTos fold rows states state = some tos →
      findBySlug fold rows tos.slug = some row → row.html.toList = render '|' nameChars segs →
      contentFor fold rows i tos.slug = some content →
      tosFor2 fold rows states i state o =
        if content.all isSpace then tosFor fold rows i o else some (fill (valueChars i o) segs)) ∧
    (∀ ps : List (Placeholder × Option String), ps.Perm (placeholders i o) →
      substitute ps (render '|' nameChars segs) = some (fill (valueChars i o) segs)) ∧
    ∀ p : Placeholder,
      ¬ (escapedPlaceholderTag p.name).toList <:+: fill (valueChars i o) segs := by
  have hfilled :
      (replacePlaceholders i (render '|' nameChars segs)).bind (substitute o.placeholders) =
        some (fill (valueChars i o) segs) := by
    rw [replacePlaceholders_bind]
    exact substitute_perm hvalues hsegs hfree (List.Perm.refl _)
  have hcontent : ∀ {slug : String} {row : ContentRow}, findBySlug fold rows slug = some row →
      row.html.toList = render '|' nameChars segs →
      contentFor fold rows i slug = replacePlaceholders i (render '|' nameChars segs) := by
    intro slug row hrow hhtml
    rw [contentFor, hrow, ← hhtml]
  refine ⟨hfilled, ?_, ?_, fun ps hps => substitute_perm hvalues hsegs hfree hps, ?_⟩
  · intro row hrow hhtml
    rw [tosFor, hcontent hrow hhtml, hfilled]
  · intro state tos row content htos hrow hhtml hmid
    rw [tosFor2, htos]
    simp only [Option.bind_eq_bind, Option.bind_some, hmid]
    split_ifs with hblank
    · rfl
    · rw [← hfilled, ← hcontent hrow hhtml, hmid, Option.bind_some]
  · intro p
    rw [toList_escapedPlaceholderTag]
    exact not_tag_infix_fill (bar_notMem_valueChars hvalues) hsegs p

/-- An installation, a customer without overrides, and terms in which the
bars of two placeholders enclose a text. -/
def acme : Installation := ⟨some "Acme", some "1-800", some "1-801", "acme.com"⟩

def noOverrides : Overrides := ⟨none, none, none, none⟩

def acmeTerms : List (Segment Placeholder) :=
  [.text ['b', 'y', ' '], .token .installationName, .text [' ', 'f', 'o', 'r', ' '],
    .token .serviceFeeAmtOverride, .token .waitPeriodDaysOverride]

section
attribute [local instance] Numbers.exact

theorem tos_placeholders_filled_acme :
    NoBars '|' acmeTerms ∧ PlainValues acme noOverrides ∧
    tosFor id [⟨1, "terms_of_service", String.ofList (render '|' nameChars acmeTerms)⟩] acme
      noOverrides = some "by Acme for 60.0030".toList := by
  have hsegs : NoBars '|' acmeTerms := by
    intro cs hcs
    simp only [acmeTerms, List.mem_cons, List.not_mem_nil, or_false, Segment.text.injEq,
      reduceCtorEq, false_or] at hcs
    rcases hcs with rfl | rfl <;> decide
  have hvalues : PlainValues acme noOverrides := by
    intro e he
    simp only [placeholders, Installation.placeholders, Overrides.placeholders, List.cons_append,
      List.nil_append, List.mem_cons, List.not_mem_nil, or_false] at he
    rcases he with rfl | rfl | rfl | rfl | rfl | rfl | rfl | rfl | rfl <;>
      exact ⟨_, rfl, by decide +kernel, by decide +kernel⟩
  have hfree : ∀ p, ¬ nameChars p <:+: fill (valueChars acme noOverrides) acmeTerms := by
    intro p
    cases p <;> decide +kernel
  have hfill : fill (valueChars acme noOverrides) acmeTerms = "by Acme for 60.0030".toList := by
    decide +kernel
  refine ⟨hsegs, hvalues, ?_⟩
  rw [← hfill]
  exact (tos_placeholders_filled id _ [] acme noOverrides acmeTerms hsegs hvalues hfree).2.1 _ rfl
    String.toList_ofList

end

end HomeWarranty.Output
