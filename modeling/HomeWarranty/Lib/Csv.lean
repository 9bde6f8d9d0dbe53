/-
HomeWarranty.Lib.Csv — tables of text as lines of separated values: the
writer, the reader, and that the reader gets back what was written.

A field is a text or missing. A missing field is written as nothing, the
empty text as two quotes, so the two stay apart. A field that holds the
separator, a quote or part of a line end is put in quotes, with its own
quotes doubled.

The reader is a machine that takes one character after another
(`Reader.step`). What it does with one written field is said once
(`read_field`); a row is its fields, and a table its rows.

A row of one missing field is written as an empty line and reads as the
empty row. It is the only row that does not come back (`read_write`).
-/
import Mathlib.Data.List.Basic

namespace HomeWarranty.Lib.Csv

/-- A row of a table. -/
abbrev Row := List (Option String)

/-- A separator is neither the quote nor part of a line end. -/
structure Separator where
  char : Char
  ne_quote : char ≠ '"'
  ne_newline : char ≠ '\n'
  ne_return : char ≠ '\r'

def comma : Separator := ⟨',', by decide, by decide, by decide⟩

def tab : Separator := ⟨'\t', by decide, by decide, by decide⟩

/-! ## The writer -/

/-- The characters that put a field in quotes. -/
def quotable (sep : Separator) (c : Char) : Bool :=
  c == '\r' || c == '\n' || c == sep.char || c == '"'

/-- Every quote twice. -/
def doubled : List Char → List Char
  | [] => []
  | c :: cs => if c = '"' then '"' :: '"' :: doubled cs else c :: doubled cs

def needsQuotes (sep : Separator) (s : String) : Bool :=
  s.toList.isEmpty || s.toList.any (quotable sep)

def writeField (sep : Separator) : Option String → List Char
  | none => []
  | some s => if needsQuotes sep s then '"' :: (doubled s.toList ++ ['"']) else s.toList

def writeRow (sep : Separator) (row : Row) : List Char :=
  [sep.char].intercalate (row.map (writeField sep)) ++ ['\n']

def write (sep : Separator) (rows : List Row) : String :=
  String.ofList (rows.flatMap (writeRow sep))

/-! ## The reader -/

inductive Mode where
  | start
  | plain
  | quoted
  | closed
  deriving DecidableEq

/-- The rows read, the fields of the row that is being read, and the
text of its last field so far. -/
structure Reader where
  rows : List Row
  row : Row
  field : List Char
  mode : Mode

def Reader.init : Reader := ⟨[], [], [], .start⟩

/-- The field, if it ends here. -/
def Reader.value (r : Reader) : Option String :=
  if r.mode = .start then none else some (String.ofList r.field)

def Reader.endField (r : Reader) : Reader :=
  { r with row := r.row ++ [r.value], field := [], mode := .start }

/-- An empty line is a row without fields. -/
def Reader.wholeRow (r : Reader) : Row :=
  if r.row = [] ∧ r.mode = .start then [] else r.row ++ [r.value]

def Reader.endRow (r : Reader) : Reader := ⟨r.rows ++ [r.wholeRow], [], [], .start⟩

/-- A character that is part of a field. A quote opens a field or closes
it, and twice within a field it is a quote. -/
def Reader.take (r : Reader) (c : Char) : Option Reader :=
  match r.mode with
  | .start =>
      if c = '"' then some { r with mode := .quoted }
      else if c = '\r' then none
      else some { r with field := [c], mode := .plain }
  | .plain =>
      if c = '"' ∨ c = '\r' then none else some { r with field := r.field ++ [c] }
  | .quoted =>
      if c = '"' then some { r with mode := .closed } else some { r with field := r.field ++ [c] }
  | .closed =>
      if c = '"' then some { r with field := r.field ++ [c], mode := .quoted } else none

def Reader.step (sep : Separator) (r : Reader) (c : Char) : Option Reader :=
  if r.mode = .quoted then r.take c
  else if c = sep.char then some r.endField
  else if c = '\n' then some r.endRow
  else r.take c

/-- The end of the text. The last line may lack its line end, an open
quote may not stay open. -/
def Reader.finish (r : Reader) : Option (List Row) :=
  if r.mode = .quoted then none
  else if r.row = [] ∧ r.mode = .start then some r.rows
  else some (r.rows ++ [r.row ++ [r.value]])

def Reader.run (sep : Separator) (r : Reader) (cs : List Char) : Option Reader :=
  cs.foldlM (Reader.step sep) r

/-- `none`: the text is malformed. -/
def read (sep : Separator) (text : String) : Option (List Row) :=
  (Reader.init.run sep text.toList).bind Reader.finish

example : read comma "a,,\"\"\n\"x,\"\"y\n\",b\n" =
    some [[some "a", none, some ""], [some "x,\"y\n", some "b"]] := by decide

/-! ## One step -/

section
variable {sep : Separator}

@[simp] theorem run_nil (r : Reader) : r.run sep [] = some r := rfl

theorem run_cons (r : Reader) (c : Char) (cs : List Char) :
    r.run sep (c :: cs) = (r.step sep c).bind fun s => s.run sep cs := by
  rw [Reader.run, List.foldlM_cons]
  rfl

theorem run_append (r : Reader) (cs ds : List Char) :
    r.run sep (cs ++ ds) = (r.run sep cs).bind fun s => s.run sep ds := by
  rw [Reader.run, List.foldlM_append]
  rfl

theorem step_quoted {r : Reader} (h : r.mode = .quoted) (c : Char) : r.step sep c = r.take c := by
  rw [Reader.step, if_pos h]

theorem step_separator {r : Reader} (h : r.mode ≠ .quoted) :
    r.step sep sep.char = some r.endField := by
  rw [Reader.step, if_neg h, if_pos rfl]

theorem step_newline {r : Reader} (h : r.mode ≠ .quoted) : r.step sep '\n' = some r.endRow := by
  rw [Reader.step, if_neg h, if_neg sep.ne_newline.symm, if_pos rfl]

theorem step_other {r : Reader} (c : Char) (hsep : c ≠ sep.char) (hline : c ≠ '\n') :
    r.step sep c = r.take c := by
  rw [Reader.step, if_neg hsep, if_neg hline, ite_self]

/-! ## One field -/

/-- The machine has read `f` and waits for the field to end. -/
def Reader.holding (sep : Separator) (r : Reader) : Option String → Reader
  | none => r
  | some s =>
      { r with
        field := s.toList
        mode := if needsQuotes sep s then .closed else .plain }

theorem holding_mode {r : Reader} (hr : r.mode = .start) (f : Option String) :
    (r.holding sep f).mode ≠ .quoted := by
  cases f with
  | none => simp [Reader.holding, hr]
  | some s => cases hq : needsQuotes sep s <;> simp [Reader.holding, hq]

theorem holding_value {r : Reader} (hr : r.mode = .start) (f : Option String) :
    (r.holding sep f).value = f := by
  cases f with
  | none => simp [Reader.holding, Reader.value, hr]
  | some s => cases hq : needsQuotes sep s <;> simp [Reader.holding, Reader.value, hq]

theorem holding_start {r : Reader} (hr : r.mode = .start) (f : Option String) :
    (r.holding sep f).mode = .start ↔ f = none := by
  cases f with
  | none => simp [Reader.holding, hr]
  | some s => cases hq : needsQuotes sep s <;> simp [Reader.holding, hq]

@[simp] theorem holding_row (r : Reader) (f : Option String) : (r.holding sep f).row = r.row := by
  cases f <;> rfl

@[simp] theorem holding_rows (r : Reader) (f : Option String) :
    (r.holding sep f).rows = r.rows := by
  cases f <;> rfl

/-- Plain characters are taken as they are. -/
theorem run_plain (cs : List Char) {r : Reader} (hr : r.mode = .plain)
    (h : cs.any (quotable sep) = false) :
    r.run sep cs = some { r with field := r.field ++ cs } := by
  induction cs generalizing r with
  | nil => simp
  | cons c cs ih =>
      simp only [List.any_cons, Bool.or_eq_false_iff] at h
      have hc := h.1
      simp only [quotable, Bool.or_eq_false_iff, beq_eq_false_iff_ne, ne_eq] at hc
      obtain ⟨⟨⟨hreturn, hline⟩, hsep⟩, hquote⟩ := hc
      have htake : r.take c = some { r with field := r.field ++ [c] } := by
        simp [Reader.take, hr, hquote, hreturn]
      have hnext : ({ r with field := r.field ++ [c] } : Reader).mode = .plain := hr
      rw [run_cons, step_other c hsep hline, htake, Option.bind_some, ih hnext h.2]
      simp

/-- Within quotes every character is taken, and a doubled quote is one. -/
theorem run_doubled (cs : List Char) {r : Reader} (hr : r.mode = .quoted) :
    r.run sep (doubled cs) = some { r with field := r.field ++ cs } := by
  induction cs generalizing r with
  | nil => simp [doubled]
  | cons c cs ih =>
      have hnext : ({ r with field := r.field ++ [c] } : Reader).mode = .quoted := hr
      by_cases hc : c = '"'
      · subst hc
        have hfirst : r.step sep '"' = some { r with mode := .closed } := by
          rw [step_quoted hr]
          simp [Reader.take, hr]
        have hsecond : ({ r with mode := .closed } : Reader).step sep '"' =
            some { r with field := r.field ++ ['"'] } := by
          rw [step_other '"' sep.ne_quote.symm (by decide)]
          simp [Reader.take, ← hr]
        rw [doubled, if_pos rfl, run_cons, hfirst, Option.bind_some, run_cons, hsecond,
          Option.bind_some, ih hnext]
        simp
      · have hstep : r.step sep c = some { r with field := r.field ++ [c] } := by
          rw [step_quoted hr]
          simp [Reader.take, hr, hc]
        rw [doubled, if_neg hc, run_cons, hstep, Option.bind_some, ih hnext]
        simp

/-- A written field is read back. -/
theorem read_field (f : Option String) {r : Reader} (hmode : r.mode = .start)
    (hfield : r.field = []) : r.run sep (writeField sep f) = some (r.holding sep f) := by
  cases f with
  | none => rfl
  | some s =>
      cases hq : needsQuotes sep s with
      | false =>
          have hplain : s.toList.isEmpty = false ∧ s.toList.any (quotable sep) = false := by
            simpa only [needsQuotes, Bool.or_eq_false_iff] using hq
          cases hs : s.toList with
          | nil => simp [hs] at hplain
          | cons c cs =>
              have hany := hplain.2
              rw [hs, List.any_cons, Bool.or_eq_false_iff] at hany
              have hc := hany.1
              simp only [quotable, Bool.or_eq_false_iff, beq_eq_false_iff_ne, ne_eq] at hc
              obtain ⟨⟨⟨hreturn, hline⟩, hsep⟩, hquote⟩ := hc
              -- the first character leaves the start, the others follow it
              have hfirst : r.step sep c = some { r with field := [c], mode := .plain } := by
                rw [step_other c hsep hline]
                simp [Reader.take, hmode, hquote, hreturn]
              rw [writeField, hq, if_neg Bool.false_ne_true, hs, run_cons, hfirst,
                Option.bind_some, run_plain cs rfl hany.2]
              simp [Reader.holding, hq, hs]
      | true =>
          have hopen : r.step sep '"' = some { r with mode := .quoted } := by
            rw [step_other '"' sep.ne_quote.symm (by decide)]
            simp [Reader.take, hmode]
          rw [writeField, hq, if_pos rfl, run_cons, hopen, Option.bind_some, run_append,
            run_doubled s.toList rfl, Option.bind_some, run_cons, step_quoted rfl]
          simp [Reader.take, Reader.holding, hq, hfield]

/-! ## Rows and tables -/

/-- The text of a row, field by field. -/
theorem writeRow_cons_cons (f g : Option String) (row : Row) :
    writeRow sep (f :: g :: row) = writeField sep f ++ sep.char :: writeRow sep (g :: row) := by
  simp [writeRow, List.intercalate]

theorem writeRow_single (f : Option String) : writeRow sep [f] = writeField sep f ++ ['\n'] := by
  simp [writeRow]

/-- The fields of a row that is not empty, behind those that were read
before. -/
theorem read_fields (f : Option String) (row : Row) {r : Reader} (hmode : r.mode = .start)
    (hfield : r.field = []) (h : r.row = [] → f :: row ≠ [none]) :
    r.run sep (writeRow sep (f :: row)) = some ⟨r.rows ++ [r.row ++ f :: row], [], [], .start⟩ := by
  induction row generalizing f r with
  | nil =>
      have hrow : ¬ (r.row = [] ∧ f = none) := by
        intro hempty
        exact h hempty.1 (by rw [hempty.2])
      rw [writeRow_single, run_append, read_field f hmode hfield, Option.bind_some, run_cons,
        step_newline (holding_mode hmode f)]
      simp [Reader.endRow, Reader.wholeRow, holding_start hmode, holding_value hmode, hrow]
  | cons g row ih =>
      rw [writeRow_cons_cons, run_append, read_field f hmode hfield, Option.bind_some, run_cons,
        step_separator (holding_mode hmode f), Option.bind_some]
      rw [ih g rfl rfl (by simp [Reader.endField])]
      simp [Reader.endField, holding_value hmode]

theorem read_row {row : Row} (h : row ≠ [none]) (rows : List Row) :
    (⟨rows, [], [], .start⟩ : Reader).run sep (writeRow sep row)
      = some ⟨rows ++ [row], [], [], .start⟩ := by
  cases row with
  | nil =>
      have hstep : (⟨rows, [], [], .start⟩ : Reader).step sep '\n'
          = some ⟨rows ++ [[]], [], [], .start⟩ := step_newline Mode.noConfusion
      rw [show writeRow sep [] = ['\n'] from rfl, run_cons, hstep]
      rfl
  | cons f row => exact read_fields f row rfl rfl fun _ => h

theorem read_rows {rows : List Row} (h : ∀ row ∈ rows, row ≠ [none]) (before : List Row) :
    (⟨before, [], [], .start⟩ : Reader).run sep (rows.flatMap (writeRow sep))
      = some ⟨before ++ rows, [], [], .start⟩ := by
  induction rows generalizing before with
  | nil => simp
  | cons row rows ih =>
      rw [List.flatMap_cons, run_append, read_row (h row (by simp)), Option.bind_some,
        ih (fun r hr => h r (by simp [hr]))]
      simp

/-- What was written is read back. -/
theorem read_write {rows : List Row} (h : ∀ row ∈ rows, row ≠ [none]) :
    read sep (write sep rows) = some rows := by
  rw [read, write, String.toList_ofList, Reader.init, read_rows h []]
  simp [Reader.finish]

/-- A row of two fields or more comes back. -/
theorem ne_single_of_width {row : Row} {n : Nat} (h : row.length = n) (hn : 1 < n) :
    row ≠ [none] := by
  intro hrow
  rw [hrow, List.length_singleton] at h
  omega

end

end HomeWarranty.Lib.Csv
