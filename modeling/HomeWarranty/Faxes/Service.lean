/-
HomeWarranty.Faxes.Service — the sender of a fax, read from the subject of
the message that carries it.

`config/installation.json` names `EFaxFaxService`. Its three regular
expressions are written as matchers on the characters that follow a
position, and `firstMatch` tries the positions from left to right. A
lazy group ends at the first place where the rest of the pattern can go
on, which is what `quotedTail` and `callerIdAt` compute.

`validSenderFaxNumber_deduced` connects the check of `Fax` with what it
is for: a number passes exactly when it is ten digits.
-/
import Mathlib.Data.List.Basic
import HomeWarranty.Ruby.Text

namespace HomeWarranty.Faxes

open Ruby

/-- What the application reads of a message. -/
structure Envelope where
  date : Option String
  subject : Option String
  attachments : Option (List String)
  deriving DecidableEq, Repr

/-! ## Matchers -/

/-- `\s`; the vertical tab is not in it in this Ruby version. -/
def regexSpace (c : Char) : Bool :=
  c == ' ' || c == '\t' || c == '\n' || c == '\r' || c.toNat == 12

/-- The first match, from left to right. -/
def firstMatch (p : List Char → Option (List Char)) : List Char → Option (List Char)
  | [] => p []
  | c :: cs => (p (c :: cs)).or (firstMatch p cs)

/-- Up to the next quotation mark on the line. -/
def quotedTail : List Char → Option (List Char)
  | [] => none
  | c :: cs =>
      if c == '"' then some []
      else if c == '\n' then none
      else (quotedTail cs).map (c :: ·)

/-- `/"(.+?)"/` at a position. The first character of the group may
itself be a quotation mark. -/
def quotedAt : List Char → Option (List Char)
  | q :: c :: cs => if q == '"' && c != '\n' then (quotedTail cs).map (c :: ·) else none
  | _ => none

/-- `/ID:\s*(.+?)$/` at a position. When only blanks follow, the group
is blank or there is no match; either way it holds no digit. -/
def callerIdAt : List Char → Option (List Char)
  | 'I' :: 'D' :: ':' :: cs =>
      match cs.dropWhile regexSpace with
      | [] => none
      | rest => some (rest.takeWhile (· != '\n'))
  | _ => none

/-- One character for each class of the list. -/
def matchClasses : List (Char → Bool) → List Char → Option (List Char)
  | [], _ => some []
  | _ :: _, [] => none
  | p :: ps, c :: cs => if p c then (matchClasses ps cs).map (c :: ·) else none

/-- `/(\(\d{3}\)\s\d{3}-\d{4})/` at a position. -/
def phoneAt : List Char → Option (List Char) :=
  matchClasses
    ([(· == '(')] ++ List.replicate 3 Char.isDigit ++ [(· == ')'), regexSpace]
      ++ List.replicate 3 Char.isDigit ++ [(· == '-')] ++ List.replicate 4 Char.isDigit)

/-- `gsub(/[\D]/, '')` and then `/\d{10}$/`: the last ten digits. -/
def lastTenDigits (group : List Char) : Option String :=
  let digits := group.filter Char.isDigit
  if 10 ≤ digits.length then some (String.ofList (digits.drop (digits.length - 10))) else none

/-- `EFaxFaxService.deduce_sender_fax_number_using_envelope`. -/
def deduceSenderFaxNumberUsingEnvelope (envelope : Envelope) : Option String :=
  match envelope.subject with
  | none => none
  | some subject =>
      ((firstMatch quotedAt subject.toList).bind lastTenDigits).or
        (((firstMatch callerIdAt subject.toList).bind lastTenDigits).or
          ((firstMatch phoneAt subject.toList).bind lastTenDigits))

/-- `valid_sender_fax_number?`: `/^\d{10}$/` matches at 0. -/
def validSenderFaxNumber : Option String → Bool
  | none => false
  | some s =>
      (s.toList.take 10).length == 10 && (s.toList.take 10).all Char.isDigit
        && (s.toList.drop 10).head?.all (· == '\n')

/-- The message is taken for a fax: it has a sender and an attachment. -/
def Envelope.isFax (e : Envelope) : Bool :=
  validSenderFaxNumber (deduceSenderFaxNumberUsingEnvelope e)
    && !(e.attachments.getD []).isEmpty

/-! ## Ten digits -/

/-- Ten digits and nothing else. -/
def TenDigits (s : String) : Prop := s.toList.length = 10 ∧ ∀ c ∈ s.toList, c.isDigit = true

theorem tenDigits_of_lastTenDigits {group : List Char} {s : String}
    (h : lastTenDigits group = some s) : TenDigits s := by
  unfold lastTenDigits at h
  simp only at h
  split at h
  · rename_i hlen
    obtain rfl := Option.some.inj h
    refine ⟨?_, ?_⟩
    · rw [String.toList_ofList, List.length_drop]
      omega
    · intro c hc
      rw [String.toList_ofList] at hc
      exact List.of_mem_filter (List.mem_of_mem_drop hc)
  · cases h

/-- Whatever is deduced is ten digits. -/
theorem tenDigits_deduced {e : Envelope} {s : String}
    (h : deduceSenderFaxNumberUsingEnvelope e = some s) : TenDigits s := by
  have hgroup : ∀ m : Option (List Char), m.bind lastTenDigits = some s → TenDigits s := by
    intro m hm
    obtain ⟨group, _, hlast⟩ := Option.bind_eq_some_iff.mp hm
    exact tenDigits_of_lastTenDigits hlast
  unfold deduceSenderFaxNumberUsingEnvelope at h
  split at h
  · cases h
  · rcases Option.or_eq_some_iff.mp h with h | ⟨_, h⟩
    · exact hgroup _ h
    · rcases Option.or_eq_some_iff.mp h with h | ⟨_, h⟩
      · exact hgroup _ h
      · exact hgroup _ h

theorem validSenderFaxNumber_of_tenDigits {s : String} (h : TenDigits s) :
    validSenderFaxNumber (some s) = true := by
  obtain ⟨hlen, hdigits⟩ := h
  have htake : s.toList.take 10 = s.toList := List.take_of_length_le (by omega)
  have hdrop : s.toList.drop 10 = [] := List.drop_of_length_le (by omega)
  show ((s.toList.take 10).length == 10 && (s.toList.take 10).all Char.isDigit
    && (s.toList.drop 10).head?.all (· == '\n')) = true
  rw [htake, hdrop, hlen]
  simpa using hdigits

/-- The check of the sender asks for a sender of ten digits. -/
theorem validSenderFaxNumber_deduced (e : Envelope) :
    validSenderFaxNumber (deduceSenderFaxNumberUsingEnvelope e) = true ↔
      ∃ s, deduceSenderFaxNumberUsingEnvelope e = some s ∧ TenDigits s := by
  cases h : deduceSenderFaxNumberUsingEnvelope e with
  | none => simp [validSenderFaxNumber]
  | some s =>
      have hten := tenDigits_deduced h
      simp [validSenderFaxNumber_of_tenDigits hten, hten]

/-- The subject yields a sender of ten digits, and something is
attached. -/
def Envelope.CarriesFax (e : Envelope) : Prop :=
  (∃ s, deduceSenderFaxNumberUsingEnvelope e = some s ∧ TenDigits s) ∧
    ∃ a as, e.attachments = some (a :: as)

theorem isFax_iff (e : Envelope) : e.isFax = true ↔ e.CarriesFax := by
  unfold Envelope.CarriesFax
  rw [← validSenderFaxNumber_deduced, Envelope.isFax, Bool.and_eq_true]
  refine and_congr_right fun _ => ?_
  cases e.attachments with
  | none => simp
  | some as =>
      cases as with
      | nil => simp
      | cons a as => simp

example : deduceSenderFaxNumberUsingEnvelope
    { date := none, subject := some "eFax from \"1 973 201-1333\" - 2 page(s)",
      attachments := none } = some "9732011333" := by decide +kernel

end HomeWarranty.Faxes
