/-
HomeWarranty.Admin.NoteText — the text of a note on its way to its row.

Four actions save a note. They cut its text into runs of a hundred
characters and put a blank between two runs, `update` and
`add_claim_notes` always, `async_create` and `async_update` only when the
text is one word. The blanks they put in are part of the text when the
note is opened again, and a text of more than a hundred characters is
cut again at other places the next time: `note_text_kept_iff`.

An upload that comes with a note is taken to reach its store, and the
column is taken to hold the whole text.
-/
import HomeWarranty.Lib.Chunks
import HomeWarranty.Records

namespace HomeWarranty.Admin

open Lib Ruby

/-! ## Notes -/

/-- A row of `notes`; the `notable` of a note is a claim. -/
structure Note where
  id : Nat
  customerId : Option Int
  noteText : Option String
  agentName : Option String
  notable : Option Nat
  deriving DecidableEq

instance : Record Note where
  key := Note.id
  withKey n r := { r with id := n }
  key_withKey := fun _ _ => rfl

/-- A claim, as far as its notes need it. -/
structure NotedClaim where
  id : Nat
  customerId : Option Int
  deriving DecidableEq

instance : Record NotedClaim where
  key := NotedClaim.id
  withKey n c := { c with id := n }
  key_withKey := fun _ _ => rfl

structure Notebook where
  claims : Table NotedClaim
  customers : Table Customer
  notes : Table Note

/-- `save` of a new note. A note has no validations of its own. -/
def Notebook.build (b : Notebook) (note : Note) : Notebook × Option Nat :=
  ({ b with notes := b.notes.insert note }, some b.notes.nextKey)

def Note.withText (text : String) (n : Note) : Note := { n with noteText := some text }

theorem key_withText (text : String) (n : Note) : Record.key (n.withText text) = Record.key n := rfl

/-- `save` of a note that was found. -/
def Notebook.write (b : Notebook) (k : Nat) (text : String) : Notebook × Option Nat :=
  ({ b with notes := b.notes.update k (Note.withText text) (key_withText text) }, some k)

/-! ## The text -/

/-- `text.scan(/.{1,100}/m).join(" ")`. -/
def cutText (text : String) : String := String.ofList (spread ' ' 100 text.toList)

/-- `text.split(" ").size`. -/
def wordCount (text : String) : Nat :=
  ((text.toList.splitOnP isAsciiSpace).filter fun word => !word.isEmpty).length

/-- The text of the two asynchronous actions. -/
def cutWord (text : String) : String := if wordCount text = 1 then cutText text else text

/-! ## The actions

Each returns the tables and the key of the note it saved. -/

/-- `params[:note]`. -/
structure NoteParams where
  noteText : Option String
  notableType : Option String
  notableId : Option String
  customerId : Option String

/-- What is posted with a note in the browser's form for a claim. -/
structure ClaimNoteParams where
  noteText : Option String
  /-- The content type of the upload. -/
  noteImage : Option String

/-- The uploads that `Attachment` accepts. -/
def acceptedTypes : List String := ["image/jpeg", "image/gif", "image/png", "application/pdf"]

/-- `async_create`; `agent` is `@current_account.parent.name`. -/
def Notebook.asyncCreate (b : Notebook) (agent : String) (note : Option NoteParams) :
    Except RubyError (Notebook × Option Nat) :=
  match note with
  | none => .error .noMethodError
  | some note =>
      match note.noteText with
      | none => .error .noMethodError
      | some entered =>
          let built : Note :=
            { id := 0, customerId := integerColumn note.customerId,
              noteText := some (cutWord entered), agentName := some agent, notable := none }
          if note.notableType = some "claim" ∧ presentOpt note.notableId then
            (findRecord b.claims note.notableId).map fun claim =>
              b.build { built with notable := some claim.id }
          else if note.notableType = some "customer_service" ∧ presentOpt note.notableId then
            -- the note belongs to the customer that was found, and is saved with it
            (findRecord b.customers note.notableId).map fun customer =>
              if customer.valid b.customers then
                b.build { built with customerId := some customer.id }
              else (b, none)
          else if note.notableType = some "billing" ∧ presentOpt note.notableId then .ok (b, none)
          else .ok (b.build built)

/-- `async_update`; `note` is `params[:note]`, with the text in it. -/
def Notebook.asyncUpdate (b : Notebook) (id : Option String) (note : Option (Option String)) :
    Except RubyError (Notebook × Option Nat) := do
  let found ← findRecord b.notes id
  match note with
  | some (some entered) => return b.write found.id (cutWord entered)
  | _ => .error .noMethodError

/-- `update`. -/
def Notebook.update (b : Notebook) (id : Option String) (note : Option (Option String)) :
    Except RubyError (Notebook × Option Nat) := do
  let found ← findRecord b.notes id
  match note with
  | none => return (b, none)
  | some none => .error .noMethodError
  | some (some entered) => return b.write found.id (cutText entered)

/-- `Claim.find(params[:id]) if params[:id].present?`. -/
def Notebook.claimParam (b : Notebook) (id : Option String) :
    Except RubyError (Option NotedClaim) :=
  if presentOpt id then (findRecord b.claims id).map some else .ok none

/-- `add_claim_notes`. -/
def Notebook.addClaimNotes (b : Notebook) (agent : String) (id : Option String)
    (claim : Option ClaimNoteParams) : Except RubyError (Notebook × Option Nat) := do
  let found ← b.claimParam id
  let text := claim.bind ClaimNoteParams.noteText
  let image := claim.bind ClaimNoteParams.noteImage
  match found with
  -- an upload is looked at without a claim, and the answer needs one
  | none => .error .noMethodError
  | some found =>
      if presentOpt text ∨ image.isSome then
        match text with
        | none => .error .noMethodError
        | some entered =>
            -- an upload that is not accepted keeps the note from being saved
            if image.all acceptedTypes.contains then
              return b.build
                { id := 0, customerId := found.customerId, noteText := some (cutText entered),
                  agentName := some agent, notable := some found.id }
            else return (b, none)
      else return (b, none)

inductive NoteRequest where
  | asyncCreate (note : Option NoteParams)
  | asyncUpdate (id : Option String) (note : Option (Option String))
  | update (id : Option String) (note : Option (Option String))
  | addClaimNotes (id : Option String) (claim : Option ClaimNoteParams)

def NoteRequest.perform (agent : String) (b : Notebook) :
    NoteRequest → Except RubyError (Notebook × Option Nat)
  | .asyncCreate note => b.asyncCreate agent note
  | .asyncUpdate id note => b.asyncUpdate id note
  | .update id note => b.update id note
  | .addClaimNotes id claim => b.addClaimNotes agent id claim

/-- The text that was entered. -/
def NoteRequest.entered : NoteRequest → Option String
  | .asyncCreate note => note.bind NoteParams.noteText
  | .asyncUpdate _ note => note.join
  | .update _ note => note.join
  | .addClaimNotes _ claim => claim.bind ClaimNoteParams.noteText

/-- The text that is saved. -/
def NoteRequest.cut : NoteRequest → String → String
  | .asyncCreate _ => cutWord
  | .asyncUpdate _ _ => cutWord
  | .update _ _ => cutText
  | .addClaimNotes _ _ => cutText

/-! ## What a request saves -/

/-- The key is that of a note with this text. -/
def Holds (saved : Notebook × Option Nat) (text : String) : Prop :=
  ∀ k, saved.2 = some k → ∃ note, saved.1.notes.find? k = some note ∧ note.noteText = some text

theorem holds_none (b : Notebook) (text : String) : Holds (b, none) text := by
  intro k hk
  cases hk

theorem holds_build (b : Notebook) {note : Note} {text : String} (h : note.noteText = some text) :
    Holds (b.build note) text := by
  intro k hk
  cases hk
  exact ⟨_, Table.find?_insert_new b.notes note, h⟩

theorem find?_write {b : Notebook} {k : Nat} {note : Note} (h : b.notes.find? k = some note)
    (text : String) : (b.write k text).1.notes.find? k = some (note.withText text) :=
  @Table.find?_update_self _ _ _ (key_withText text) b.notes _ _ h

theorem holds_write {b : Notebook} {id : Option String} {note : Note}
    (h : findRecord b.notes id = .ok note) (text : String) : Holds (b.write note.id text) text := by
  intro k hk
  cases hk
  exact ⟨note.withText text, find?_write (find?_of_findRecord h) text, rfl⟩

section
variable {b : Notebook} {text : String} {saved : Notebook × Option Nat}

theorem holds_asyncCreate {agent : String} {note : Option NoteParams}
    (hentered : note.bind NoteParams.noteText = some text)
    (h : b.asyncCreate agent note = .ok saved) : Holds saved (cutWord text) := by
  obtain ⟨params, rfl, htext⟩ := Option.bind_eq_some_iff.mp hentered
  simp only [Notebook.asyncCreate, htext] at h
  split_ifs at h
  · -- a note of a claim
    obtain ⟨claim, _, rfl⟩ := map_eq_ok.mp h
    exact holds_build b rfl
  · -- a note of a customer, who may not be valid
    obtain ⟨customer, _, rfl⟩ := map_eq_ok.mp h
    split_ifs
    · exact holds_build b rfl
    · exact holds_none b _
  · cases h
    exact holds_none b _
  · cases h
    exact holds_build b rfl

theorem holds_asyncUpdate {id : Option String} {note : Option (Option String)}
    (hentered : note.join = some text) (h : b.asyncUpdate id note = .ok saved) :
    Holds saved (cutWord text) := by
  obtain rfl := Option.join_eq_some_iff.mp hentered
  obtain ⟨found, hfound, h⟩ := bind_eq_ok.mp h
  cases h
  exact holds_write hfound _

theorem holds_update {id : Option String} {note : Option (Option String)}
    (hentered : note.join = some text) (h : b.update id note = .ok saved) :
    Holds saved (cutText text) := by
  obtain rfl := Option.join_eq_some_iff.mp hentered
  obtain ⟨found, hfound, h⟩ := bind_eq_ok.mp h
  cases h
  exact holds_write hfound _

theorem holds_addClaimNotes {agent : String} {id : Option String} {claim : Option ClaimNoteParams}
    (hentered : claim.bind ClaimNoteParams.noteText = some text)
    (h : b.addClaimNotes agent id claim = .ok saved) : Holds saved (cutText text) := by
  obtain ⟨found, _, h⟩ := bind_eq_ok.mp h
  cases found with
  | none => cases h
  | some found =>
      simp only [hentered] at h
      split_ifs at h
      · cases h
        exact holds_build b rfl
      · cases h
        exact holds_none b _
      · cases h
        exact holds_none b _

end

/-- Every request saves the text that was entered, cut in its own way. -/
theorem holds_perform {agent : String} {b : Notebook} {r : NoteRequest} {text : String}
    {saved : Notebook × Option Nat} (hentered : r.entered = some text)
    (h : r.perform agent b = .ok saved) : Holds saved (r.cut text) := by
  cases r with
  | asyncCreate note => exact holds_asyncCreate hentered h
  | asyncUpdate id note => exact holds_asyncUpdate hentered h
  | update id note => exact holds_update hentered h
  | addClaimNotes id claim => exact holds_addClaimNotes hentered h

/-! ## Opening a note and saving it again -/

/-- The text that is stored, with blanks put in between its parts, is the
text that was entered. -/
def BlanksInserted (entered stored : String) : Prop :=
  ∃ runs : List (List Char), runs.flatten = entered.toList ∧
    [' '].intercalate runs = stored.toList

/-- The actions that edit a note. -/
inductive EditPath where
  | asyncUpdate
  | update

/-- The text of a note is posted as it was shown. -/
def EditPath.resave (k : Nat) (text : String) : EditPath → NoteRequest
  | .asyncUpdate => .asyncUpdate (some (toString k)) (some (some text))
  | .update => .update (some (toString k)) (some (some text))

/-- A note that says what was entered, and that no edit without a change
changes. -/
def NoteKept (b : Notebook) (k : Nat) (entered : String) : Prop :=
  ∃ note stored, b.notes.find? k = some note ∧ note.noteText = some stored ∧
    BlanksInserted entered stored ∧
    ∀ (agent : String) (path : EditPath),
      ((path.resave k stored).perform agent b).map (fun saved => saved.1.notes.find? k) =
        .ok (some note)

theorem toList_cutText (text : String) : (cutText text).toList = spread ' ' 100 text.toList :=
  String.toList_ofList

theorem cutText_eq_self_iff (text : String) : cutText text = text ↔ text.toList.length ≤ 100 := by
  rw [← spread_eq_self_iff (by decide) ' ', ← toList_cutText, String.toList_inj]

theorem blanksInserted_self (text : String) : BlanksInserted text text :=
  ⟨[text.toList], by simp, by simp⟩

theorem blanksInserted_cutText (text : String) : BlanksInserted text (cutText text) :=
  ⟨chunks 100 text.toList, flatten_chunks (by decide) _, (toList_cutText text).symm⟩

theorem cutWord_cases (text : String) : cutWord text = cutText text ∨ cutWord text = text := by
  unfold cutWord
  split_ifs
  · exact .inl rfl
  · exact .inr rfl

/-- A request cuts the text or leaves it. -/
theorem cut_cases (r : NoteRequest) (text : String) :
    r.cut text = cutText text ∨ r.cut text = text := by
  cases r with
  | asyncCreate note => exact cutWord_cases text
  | asyncUpdate id note => exact cutWord_cases text
  | update id note => exact .inl rfl
  | addClaimNotes id claim => exact .inl rfl

theorem blanksInserted_cut (r : NoteRequest) (text : String) :
    BlanksInserted text (r.cut text) := by
  rcases cut_cases r text with h | h
  · rw [h]
    exact blanksInserted_cutText text
  · rw [h]
    exact blanksInserted_self text

/-- What is short is left by every request. -/
theorem cut_eq_self (r : NoteRequest) {text : String} (h : text.toList.length ≤ 100) :
    r.cut text = text := by
  rcases cut_cases r text with hcut | hcut
  · rw [hcut, (cutText_eq_self_iff text).mpr h]
  · exact hcut

/-- What is short stays short, and the other way round. -/
theorem length_cut_iff (r : NoteRequest) (text : String) :
    (r.cut text).toList.length ≤ 100 ↔ text.toList.length ≤ 100 := by
  constructor
  · intro h
    rcases cut_cases r text with hcut | hcut
    · rw [hcut, toList_cutText] at h
      exact (length_le_spread (by decide) ' ' _).trans h
    · rwa [hcut] at h
  · intro h
    rwa [cut_eq_self r h]

section
variable {b : Notebook} {k : Nat} {note : Note} (hfind : b.notes.find? k = some note)
include hfind

/-- An edit writes the text that it cuts to the note. -/
theorem perform_resave (agent : String) (path : EditPath) (text : String) :
    ((path.resave k text).perform agent b).map (fun saved => saved.1.notes.find? k) =
      .ok (some (note.withText ((path.resave k text).cut text))) := by
  have hrecord := findRecord_toString hfind
  have hkey : note.id = k := Table.key_of_find? hfind
  have hwrite : ∀ text, (b.write note.id text).1.notes.find? k = some (note.withText text) := by
    intro text
    rw [hkey]
    exact find?_write hfind text
  cases path with
  | asyncUpdate =>
      simp only [EditPath.resave, NoteRequest.perform, Notebook.asyncUpdate, hrecord]
      exact congrArg Except.ok (hwrite _)
  | update =>
      simp only [EditPath.resave, NoteRequest.perform, Notebook.update, hrecord]
      exact congrArg Except.ok (hwrite _)

/-- No edit changes a note when `update` does not. -/
theorem resave_iff {text : String} (htext : note.noteText = some text) :
    (∀ (agent : String) (path : EditPath),
      ((path.resave k text).perform agent b).map (fun saved => saved.1.notes.find? k) =
        .ok (some note)) ↔ text.toList.length ≤ 100 := by
  have hself : ∀ text', note.withText text' = note ↔ text' = text := by
    intro text'
    constructor
    · intro h
      have := congrArg Note.noteText h
      rw [htext] at this
      exact Option.some.inj this
    · rintro rfl
      unfold Note.withText
      rw [← htext]
  simp only [perform_resave hfind, Except.ok.injEq, Option.some.injEq, hself]
  constructor
  · intro h
    exact (cutText_eq_self_iff text).mp (h "" .update)
  · intro h agent path
    exact cut_eq_self _ h

/-- A note that says what was entered is kept when its own text is short. -/
theorem noteKept_iff {entered stored : String} (htext : note.noteText = some stored)
    (hblanks : BlanksInserted entered stored) :
    NoteKept b k entered ↔ stored.toList.length ≤ 100 := by
  rw [← resave_iff hfind htext]
  constructor
  · rintro ⟨note', stored', hfind', htext', _, hagain⟩
    obtain rfl : note' = note := Option.some.inj (hfind'.symm.trans hfind)
    obtain rfl : stored' = stored := Option.some.inj (htext'.symm.trans htext)
    exact hagain
  · intro hagain
    exact ⟨note, stored, hfind, htext, hblanks, hagain⟩

end

/-- The note that a request saves keeps its text when there are a hundred
characters at most, and no longer text. -/
theorem note_text_kept_iff (agent : String) (b b' : Notebook) (r : NoteRequest) (k : Nat)
    (text : String) (hentered : r.entered = some text)
    (hsaved : r.perform agent b = .ok (b', some k)) :
    NoteKept b' k text ↔ text.toList.length ≤ 100 := by
  obtain ⟨note, hfind, htext⟩ := holds_perform hentered hsaved k rfl
  rw [noteKept_iff hfind htext (blanksInserted_cut r text), length_cut_iff]

/-- A claim without notes. -/
def oneClaim : Notebook where
  claims := Table.empty.insert ⟨0, some 7⟩
  customers := Table.empty
  notes := Table.empty

def shortNote : NoteRequest := .addClaimNotes (some "1") (some ⟨some "called back", none⟩)

theorem note_text_kept_short :
    ∃ b', shortNote.perform "Ann" oneClaim = .ok (b', some 1) ∧ NoteKept b' 1 "called back" := by
  refine ⟨_, rfl, (note_text_kept_iff "Ann" oneClaim _ shortNote 1 "called back" rfl rfl).mpr ?_⟩
  decide +kernel

/-- One long word, entered where one word is cut. -/
def longNote : NoteRequest :=
  .asyncCreate (some ⟨some (String.ofList (List.replicate 101 'a')), none, none, some "7"⟩)

/-- The text is cut when it is entered, and at another place when it is
saved again. -/
theorem note_text_changes :
    ∃ b', longNote.perform "Ann" oneClaim = .ok (b', some 1) ∧
      ¬ NoteKept b' 1 (String.ofList (List.replicate 101 'a')) := by
  have hsaved : ∃ b', longNote.perform "Ann" oneClaim = .ok (b', some 1) := ⟨_, rfl⟩
  obtain ⟨b', hsaved⟩ := hsaved
  obtain ⟨note, hfind, htext⟩ := holds_perform rfl hsaved 1 rfl
  refine ⟨b', hsaved, fun hkept => ?_⟩
  have hlen := (noteKept_iff hfind htext (blanksInserted_cut longNote _)).mp hkept
  rw [length_cut_iff, String.toList_ofList, List.length_replicate] at hlen
  omega

end HomeWarranty.Admin
