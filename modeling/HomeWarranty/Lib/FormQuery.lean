/-
HomeWarranty.Lib.FormQuery — query strings and the form parser that
reads them.

A query is a list of fields `key=text` joined by `&`. The parser splits
at `&`, splits each piece at its first `=`, and decodes both halves:
`+` is a blank and `%` with two hexadecimal digits is a byte. What it
returns are BYTES, so a text is read back when the bytes are those of
its UTF-8 encoding.

A field separates what it is meant to say (`value`) from what is written
into the query for it (`text`). `readsBack_iff` is the rule: every key
occurs once, with its value, exactly when no text holds an `&` and every
text decodes to its value. The one thing it asks of the encoding is that
a text cut off at an `&` never decodes to the whole value. `decode_eq_iff`
says which texts decode to themselves.
-/
import Mathlib.Data.List.Basic
import Mathlib.Data.List.Infix
import Mathlib.Data.List.TakeWhile

namespace HomeWarranty.Lib

/-! ## Decoding -/

/-- The bytes of a text. -/
def utf8 (s : List Char) : List UInt8 := s.flatMap String.utf8EncodeChar

@[simp] theorem utf8_nil : utf8 [] = [] := rfl

@[simp] theorem utf8_cons (c : Char) (s : List Char) :
    utf8 (c :: s) = String.utf8EncodeChar c ++ utf8 s := rfl

@[simp] theorem utf8_append (s t : List Char) : utf8 (s ++ t) = utf8 s ++ utf8 t :=
  List.flatMap_append

/-- The value of a hexadecimal digit. -/
def hexValue (c : Char) : Option Nat :=
  if c.isDigit then some (c.toNat - '0'.toNat)
  else if 'A'.toNat ≤ c.toNat ∧ c.toNat ≤ 'F'.toNat then some (c.toNat - 'A'.toNat + 10)
  else if 'a'.toNat ≤ c.toNat ∧ c.toNat ≤ 'f'.toNat then some (c.toNat - 'a'.toNat + 10)
  else none

/-- The byte two hexadecimal digits stand for. -/
def hexByte (a b : Char) : Option UInt8 :=
  match hexValue a, hexValue b with
  | some x, some y => some (UInt8.ofNat (16 * x + y))
  | _, _ => none

/-- What one character that starts no escape is read as. -/
def plainByte (c : Char) : List UInt8 :=
  if c = '+' then [0x20] else String.utf8EncodeChar c

/-- The byte of the escape a text begins with, if it begins with one. -/
def escapeAt : List Char → Option UInt8
  | c :: a :: b :: _ => if c = '%' then hexByte a b else none
  | _ => none

/-- `+` is a blank, `%XX` is a byte, and everything else is itself. -/
def formDecode : List Char → List UInt8
  | [] => []
  | [c] => plainByte c
  | [c, d] => plainByte c ++ plainByte d
  | c :: a :: b :: rest =>
      match escapeAt (c :: a :: b :: rest) with
      | some x => x :: formDecode rest
      | none => plainByte c ++ formDecode (a :: b :: rest)

@[simp] theorem formDecode_nil : formDecode [] = [] := rfl

/-- Decoding where no escape begins. -/
theorem formDecode_cons {c : Char} {rest : List Char} (h : escapeAt (c :: rest) = none) :
    formDecode (c :: rest) = plainByte c ++ formDecode rest := by
  match rest with
  | [] => simp [formDecode]
  | [d] => simp [formDecode]
  | a :: b :: rest => simp [formDecode, h]

/-- Decoding an escape. -/
theorem formDecode_escape {a b : Char} {x : UInt8} (h : hexByte a b = some x)
    (rest : List Char) : formDecode ('%' :: a :: b :: rest) = x :: formDecode rest := by
  simp [formDecode, escapeAt, h]

/-- Where an escape begins, three characters are one byte. -/
theorem escapeAt_eq_some {s : List Char} {x : UInt8} (h : escapeAt s = some x) :
    ∃ a b rest, s = '%' :: a :: b :: rest ∧ hexByte a b = some x := by
  match s with
  | [] => simp [escapeAt] at h
  | [_] => simp [escapeAt] at h
  | [_, _] => simp [escapeAt] at h
  | c :: a :: b :: rest =>
      by_cases hc : c = '%'
      · subst hc
        exact ⟨a, b, rest, rfl, by simpa [escapeAt] using h⟩
      · simp [escapeAt, hc] at h

theorem escapeAt_of_ne {c : Char} (h : c ≠ '%') (rest : List Char) :
    escapeAt (c :: rest) = none := by
  match rest with
  | [] => rfl
  | [_] => rfl
  | _ :: _ :: _ => simp [escapeAt, h]

/-- The induction that follows the decoder: an escape is taken whole,
any other character by itself. -/
theorem decode_induction {P : List Char → Prop} (nil : P [])
    (escape : ∀ a b x rest, hexByte a b = some x → P rest → P ('%' :: a :: b :: rest))
    (plain : ∀ c rest, escapeAt (c :: rest) = none → P rest → P (c :: rest)) :
    ∀ s, P s := by
  intro s
  induction h : s.length using Nat.strongRecOn generalizing s with
  | ind n ih =>
      cases s with
      | nil => exact nil
      | cons c rest =>
          subst h
          cases he : escapeAt (c :: rest) with
          | none => exact plain c rest he (ih rest.length (by simp) rest rfl)
          | some x =>
              obtain ⟨a, b, rest', heq, hx⟩ := escapeAt_eq_some he
              rw [heq] at ih ⊢
              exact escape a b x rest' hx (ih rest'.length (by simp; omega) rest' rfl)

/-! ## Lengths -/

theorem length_plainByte (c : Char) :
    (plainByte c).length = (String.utf8EncodeChar c).length := by
  unfold plainByte
  split
  · rename_i h
    subst h
    rfl
  · rfl

theorem length_utf8_cons_pos (c : Char) : 0 < (String.utf8EncodeChar c).length :=
  List.length_pos_iff.mpr String.utf8EncodeChar_ne_nil

/-- Decoding never makes a text longer. -/
theorem length_formDecode_le (s : List Char) :
    (formDecode s).length ≤ (utf8 s).length := by
  induction s using decode_induction with
  | nil => simp
  | escape a b x rest hx ih =>
      rw [formDecode_escape hx]
      have hpos := length_utf8_cons_pos '%'
      simp only [utf8_cons, List.length_append, List.length_cons]
      omega
  | plain c rest he ih =>
      rw [formDecode_cons he]
      simp only [utf8_cons, List.length_append, length_plainByte]
      omega

/-! ## Texts that decode to themselves -/

/-- No `+`, and no escape begins anywhere. -/
def Verbatim (s : List Char) : Prop :=
  '+' ∉ s ∧ ∀ t ∈ s.tails, escapeAt t = none

instance (s : List Char) : Decidable (Verbatim s) :=
  inferInstanceAs (Decidable (_ ∧ _))

theorem plainByte_eq_iff (c : Char) : plainByte c = String.utf8EncodeChar c ↔ c ≠ '+' := by
  by_cases h : c = '+'
  · subst h
    decide
  · simp [plainByte, h]

/-- One character read as itself, and the rest as well. -/
theorem plainByte_append_eq_iff {c : Char} {l : List UInt8} {s : List Char} :
    plainByte c ++ l = utf8 (c :: s) ↔ c ≠ '+' ∧ l = utf8 s := by
  rw [utf8_cons, ← plainByte_eq_iff]
  constructor
  · intro h
    exact List.append_inj h (length_plainByte c)
  · rintro ⟨h1, h2⟩
    rw [h1, h2]

/-- A text decodes to its own bytes exactly when it is verbatim. -/
theorem decode_eq_iff (s : List Char) : formDecode s = utf8 s ↔ Verbatim s := by
  induction s using decode_induction with
  | nil => simp [Verbatim, escapeAt]
  | escape a b x rest hx ih =>
      -- an escape loses bytes, and no text gains any
      refine iff_of_false ?_ ?_
      · intro h
        have hlen := congrArg List.length h
        have hle := length_formDecode_le rest
        have ha := length_utf8_cons_pos a
        rw [formDecode_escape hx] at hlen
        simp only [utf8_cons, List.length_append, List.length_cons] at hlen
        have hpct : (String.utf8EncodeChar '%').length = 1 := rfl
        omega
      · rintro ⟨_, h⟩
        have := h ('%' :: a :: b :: rest) (by simp)
        simp [escapeAt, hx] at this
  | plain c rest he ih =>
      rw [formDecode_cons he, plainByte_append_eq_iff, ih]
      have htails : (∀ t ∈ (c :: rest).tails, escapeAt t = none) ↔
          ∀ t ∈ rest.tails, escapeAt t = none := by
        rw [List.tails_cons, List.forall_mem_cons]
        exact and_iff_right he
      have hplus : '+' ∉ c :: rest ↔ c ≠ '+' ∧ '+' ∉ rest := by
        rw [List.mem_cons, not_or, ne_comm]
      rw [Verbatim, Verbatim, hplus, htails, and_assoc]

/-! ## Parsing -/

/-- One piece: the key before the first `=` and the value after it. -/
def parsePair (piece : List Char) : List UInt8 × List UInt8 :=
  (formDecode (piece.takeWhile (· != '=')), formDecode ((piece.dropWhile (· != '=')).drop 1))

/-- The pairs of a query. -/
def parseForm (query : List Char) : List (List UInt8 × List UInt8) :=
  (query.splitOn '&').map parsePair

/-- What a field is called, what it says and what is written for it. -/
structure Field where
  key : List Char
  value : List Char
  text : List Char

def Field.piece (f : Field) : List Char := f.key ++ '=' :: f.text

/-- The fields of a query, joined. -/
def joinFields : List Field → List Char
  | [] => []
  | [f] => f.piece
  | f :: g :: fs => f.piece ++ '&' :: joinFields (g :: fs)

/-- Fields written one after another, each with its `&`. -/
def ampFields (fs : List Field) : List Char := fs.flatMap fun f => f.piece ++ ['&']

@[simp] theorem ampFields_nil : ampFields [] = [] := rfl

@[simp] theorem ampFields_cons (f : Field) (fs : List Field) :
    ampFields (f :: fs) = f.piece ++ '&' :: ampFields fs := by
  simp [ampFields]

@[simp] theorem ampFields_append (fs gs : List Field) :
    ampFields (fs ++ gs) = ampFields fs ++ ampFields gs := by
  simp [ampFields]

/-- The last field goes without one. -/
theorem joinFields_snoc (fs : List Field) (f : Field) :
    joinFields (fs ++ [f]) = ampFields fs ++ f.piece := by
  induction fs with
  | nil => simp [joinFields]
  | cons g fs ih =>
      cases fs with
      | nil => simp [joinFields]
      | cons h fs =>
          simp only [List.cons_append, joinFields, ampFields_cons] at ih ⊢
          simp [ih]

/-- Every field's key occurs once, and with the field's value. -/
def ReadsBack (fs : List Field) (query : List Char) : Prop :=
  ∀ f ∈ fs, (parseForm query).filter (fun kv => kv.1 == utf8 f.key)
    = [(utf8 f.key, utf8 f.value)]

/-- A key without any character the parser treats in a special way. -/
def PlainKey (key : List Char) : Prop :=
  '=' ∉ key ∧ '&' ∉ key ∧ Verbatim key

instance (key : List Char) : Decidable (PlainKey key) :=
  inferInstanceAs (Decidable (_ ∧ _))

/-- A text without the separator is not cut. -/
theorem takeWhile_of_not_mem {sep : Char} {s : List Char} (h : sep ∉ s) :
    s.takeWhile (· != sep) = s := by
  refine List.takeWhile_eq_self_iff.mpr fun c hc => ?_
  have : c ≠ sep := fun e => h (e ▸ hc)
  simp [this]

/-- A text is cut at the first separator. -/
theorem takeWhile_append_sep {sep : Char} {s : List Char} (h : sep ∉ s) (t : List Char) :
    (s ++ sep :: t).takeWhile (· != sep) = s := by
  have hs : ∀ c ∈ s, (c != sep) = true := by
    intro c hc
    have : c ≠ sep := fun e => h (e ▸ hc)
    simp [this]
  rw [List.takeWhile_append_of_pos hs]
  simp

/-- The pairs of joined fields are the pairs of each field in turn. -/
theorem parseForm_joinFields {fs : List Field} (hne : fs ≠ []) :
    parseForm (joinFields fs) = fs.flatMap (fun f => parseForm f.piece) := by
  induction fs with
  | nil => exact absurd rfl hne
  | cons f fs ih =>
      cases fs with
      | nil => simp [joinFields]
      | cons g fs =>
          have htail := ih (by simp)
          simp only [joinFields, parseForm, List.splitOn_append_cons_self, List.map_append]
            at htail ⊢
          rw [htail]
          simp

/-- A field contributes its own pair, read up to the first `&` of its
text, and then whatever that text brings with it. -/
theorem parseForm_piece {f : Field} (hk : PlainKey f.key) :
    ∃ rest, parseForm f.piece
        = (utf8 f.key, formDecode (f.text.takeWhile (· != '&'))) :: rest ∧
      ('&' ∉ f.text → rest = []) := by
  obtain ⟨heq, hamp, hverb⟩ := hk
  have hpair : ∀ t, parsePair (f.key ++ '=' :: t) = (utf8 f.key, formDecode t) := by
    intro t
    have hkey : ∀ c ∈ f.key, (c != '=') = true := by
      intro c hc
      have : c ≠ '=' := fun h => heq (h ▸ hc)
      simp [this]
    unfold parsePair
    rw [List.takeWhile_append_of_pos hkey, List.dropWhile_append_of_pos hkey]
    simp [(decode_eq_iff f.key).mpr hverb]
  by_cases hmem : '&' ∈ f.text
  · obtain ⟨pre, post, htext, hpre⟩ := List.eq_append_cons_of_mem hmem
    have hpiece : f.piece = (f.key ++ '=' :: pre) ++ '&' :: post := by
      simp [Field.piece, htext]
    have hfree : '&' ∉ f.key ++ '=' :: pre := by simp [hamp, hpre]
    refine ⟨parseForm post, ?_, fun h => absurd hmem h⟩
    rw [hpiece, parseForm, List.splitOn_append_cons_self_of_not_mem hfree, htext,
      takeWhile_append_sep hpre]
    simp [hpair, parseForm]
  · have hall : '&' ∉ f.piece := by simp [Field.piece, hamp, hmem]
    refine ⟨[], ?_, fun _ => rfl⟩
    rw [takeWhile_of_not_mem hmem, parseForm, List.splitOn_eq_singleton hall]
    simp [Field.piece, hpair]

/-- Among pairs with different keys each key is found once. -/
theorem filter_key_eq {fs : List Field} (hkeys : (fs.map fun f => utf8 f.key).Nodup)
    {f : Field} (hf : f ∈ fs) :
    (fs.map fun g => (utf8 g.key, utf8 g.value)).filter (fun kv => kv.1 == utf8 f.key)
      = [(utf8 f.key, utf8 f.value)] := by
  induction fs with
  | nil => cases hf
  | cons g fs ih =>
      rw [List.map_cons, List.nodup_cons] at hkeys
      obtain ⟨hg, hrest⟩ := hkeys
      rcases List.mem_cons.mp hf with rfl | hf
      · have hnone : (fs.map fun g => (utf8 g.key, utf8 g.value)).filter
            (fun kv => kv.1 == utf8 f.key) = [] := by
          refine List.filter_eq_nil_iff.mpr ?_
          intro kv hkv
          obtain ⟨g, hgm, rfl⟩ := List.mem_map.mp hkv
          intro h
          refine hg (List.mem_map.mpr ⟨g, hgm, ?_⟩)
          simpa using h
        simp [hnone]
      · have hne : utf8 g.key ≠ utf8 f.key := by
          intro h
          exact hg (List.mem_map.mpr ⟨f, hf, h.symm⟩)
        simp only [List.map_cons, List.filter_cons, beq_iff_eq, hne, if_false]
        exact ih hrest hf

/-- **The rule of the parser.** With different and plain keys, and texts
that do not decode to their values when cut off at an `&`: every key is
read once, with its value, exactly when no text holds an `&` and every
text decodes to its value. -/
theorem readsBack_iff {fs : List Field} (hkeys : (fs.map fun f => utf8 f.key).Nodup)
    (hplain : ∀ f ∈ fs, PlainKey f.key)
    (hcut : ∀ f ∈ fs, '&' ∈ f.text →
      formDecode (f.text.takeWhile (· != '&')) ≠ utf8 f.value) :
    ReadsBack fs (joinFields fs) ↔
      ∀ f ∈ fs, '&' ∉ f.text ∧ formDecode f.text = utf8 f.value := by
  constructor
  · intro h f hf
    obtain ⟨rest, hpiece, _⟩ := parseForm_piece (hplain f hf)
    -- the field's own pair is one of the pairs with its key
    have hmem : (utf8 f.key, formDecode (f.text.takeWhile (· != '&')))
        ∈ (parseForm (joinFields fs)).filter (fun kv => kv.1 == utf8 f.key) := by
      refine List.mem_filter.mpr ⟨?_, by simp⟩
      rw [parseForm_joinFields (List.ne_nil_of_mem hf)]
      refine List.mem_flatMap.mpr ⟨f, hf, ?_⟩
      rw [hpiece]
      exact List.mem_cons_self
    rw [h f hf, List.mem_singleton, Prod.mk.injEq] at hmem
    have hno : '&' ∉ f.text := fun hamp => hcut f hf hamp hmem.2
    rw [takeWhile_of_not_mem hno] at hmem
    exact ⟨hno, hmem.2⟩
  · intro h f hf
    have hpairs : parseForm (joinFields fs)
        = fs.map fun g => (utf8 g.key, utf8 g.value) := by
      rw [parseForm_joinFields (List.ne_nil_of_mem hf), List.map_eq_flatMap]
      refine List.flatMap_congr fun g hg => ?_
      obtain ⟨hno, hdec⟩ := h g hg
      obtain ⟨rest, hpiece, hrest⟩ := parseForm_piece (hplain g hg)
      rw [hpiece, hrest hno, takeWhile_of_not_mem hno, hdec]
    rw [hpairs]
    exact filter_key_eq hkeys hf

end HomeWarranty.Lib
