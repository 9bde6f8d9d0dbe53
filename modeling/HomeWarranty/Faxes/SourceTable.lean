/-
HomeWarranty.Faxes.SourceTable — the fax sources on the settings page.

`sourcesTable` is loaded by `async_list` and posts to `async_update`,
which answers with the source as the request left it in memory, saved or
not. For a user who waits for every answer, and whose texts are accepted
and fit their columns, the table shows what is stored
(`waiting_user_sees_the_sources`).

A password is never shown: its cell has stars, and its editor starts with
them. Whoever saves that cell as it is makes the stars the password
(`stars_saved`).
-/
import HomeWarranty.Admin.CellTable
import HomeWarranty.Admin.CreditCard
import HomeWarranty.Faxes.SourcePassword

namespace HomeWarranty.Faxes

open Lib Ruby Admin

/-! ## The table of the page -/

inductive SourceColumn where
  | name
  | number
  | address
  | key
  | password
  deriving DecidableEq

def SourceColumn.attribute : SourceColumn → SourceAttribute
  | .name => .name
  | .number => .number
  | .address => .address
  | .key => .key
  | .password => .password

/-- `params[:fax_source]` of a cell. -/
def cellForm (p : CellPost SourceColumn) : SourceForm := [(p.column.attribute, some p.value)]

/-- `async_update`, posted with the id of the record. -/
def sourcesServer : CellServer (Table MailboxSource) SourceJson SourceColumn where
  key := SourceJson.id
  post p t :=
    match sourceStep t (.asyncUpdate (some (toString p.id)) (cellForm p)) with
    | (.source j, t) => (some j, t)
    | (_, t) => (none, t)

/-- What `async_list` gives. -/
def listed (t : Table MailboxSource) : List SourceJson := t.rows.map MailboxSource.asJson

/-- The page, loaded. -/
def sourcesPage (t : Table MailboxSource) :
    CellDesk (Table MailboxSource) SourceJson SourceColumn where
  server := t
  table := ⟨listed t, none⟩
  posts := []
  answers := []

/-! ## What a save does -/

/-- The text makes the source a valid one, and fits its column. -/
structure Accepted (p : CellPost SourceColumn) (row : MailboxSource) : Prop where
  valid : (row.assign (cellForm p)).valid = true
  fits : p.value.length ≤ 255

theorem post_of_find? {p : CellPost SourceColumn} {t : Table MailboxSource} {row : MailboxSource}
    (h : t.find? p.id = some row) :
    sourcesServer.post p t
      = (some (row.assign (cellForm p)).asJson, (updateSource t row (cellForm p)).2.2) := by
  simp only [sourcesServer, sourceStep, findRecord_toString h]
  unfold updateSource
  simp only
  split_ifs <;> rfl

theorem id_assign (row : MailboxSource) (form : SourceForm) : (row.assign form).id = row.id := by
  unfold MailboxSource.assign
  induction form generalizing row with
  | nil => rfl
  | cons a form ih =>
      rw [List.foldl_cons, ih]
      obtain ⟨posted, value⟩ := a
      cases posted with
      | password =>
          cases value with
          | none => rfl
          | some s =>
              show (row.setPassword (some s)).id = row.id
              unfold MailboxSource.setPassword
              simp only
              split_ifs <;> rfl
      | _ => rfl

theorem writtenText_of_fits {s : String} (h : s.length ≤ 255) (old : Option String) :
    writtenText old (some s) = some s := by
  unfold writtenText
  split_ifs with hsame
  · exact hsame.symm
  · rw [Option.map_some, textColumn_of_le (by rwa [String.length_toList])]

/-- A source that was accepted is answered as it is stored. -/
theorem asJson_write {p : CellPost SourceColumn} {row : MailboxSource} (h : p.value.length ≤ 255) :
    (row.write (row.assign (cellForm p))).asJson = (row.assign (cellForm p)).asJson := by
  have hid : (row.write (row.assign (cellForm p))).id = (row.assign (cellForm p)).id :=
    (id_assign row (cellForm p)).symm
  obtain ⟨id, column, value⟩ := p
  cases column with
  | password =>
      by_cases hempty : value = "" <;>
        simp [cellForm, SourceColumn.attribute, MailboxSource.assign, MailboxSource.set,
          MailboxSource.setPassword, MailboxSource.write, MailboxSource.asJson, hempty]
  | _ =>
      simp [cellForm, SourceColumn.attribute, MailboxSource.assign, MailboxSource.set,
        MailboxSource.write, MailboxSource.asJson, writtenText_of_fits h]

/-! ## A user who waits -/

/-- What the user saves is accepted. -/
def SavesAccepted (s : CellDesk (Table MailboxSource) SourceJson SourceColumn) :
    CellEvent (Table MailboxSource) SourceColumn → Prop
  | .user (.save value) => ∀ p, s.table.commitChanges SourceJson.id value = some p →
      ∀ row, s.server.find? p.id = some row → Accepted p row
  | _ => True

/-- The table shows what is stored. -/
def InStep (s : Table MailboxSource × CITable SourceJson SourceColumn) : Prop :=
  s.2.data = listed s.1

/-- A text that is accepted is shown in its row as it is stored. -/
theorem inStep_exchange {t : Table MailboxSource} {c : CITable SourceJson SourceColumn}
    (h : InStep (t, c)) {value : String} {p : CellPost SourceColumn}
    (hp : c.commitChanges SourceJson.id value = some p)
    (haccepted : ∀ row, t.find? p.id = some row → Accepted p row) :
    InStep (exchange sourcesServer t c (some p)) := by
  obtain ⟨td, old, htd, hold, heq⟩ := commitChanges_eq_some_iff.mp hp
  have hlisted : c.data = t.rows.map MailboxSource.asJson := h
  rw [hlisted, List.getElem?_map, Option.map_eq_some_iff] at hold
  obtain ⟨row, hrow, rfl⟩ := hold
  have hfind : t.find? p.id = some row := by
    rw [heq]
    exact t.find?_key (List.mem_of_getElem? hrow)
  obtain ⟨hvalid, hfits⟩ := haccepted row hfind
  have hset : (t.update row.id (fun r => r.write (row.assign (cellForm p))) fun _ => rfl).rows
      = t.rows.set td.row (row.write (row.assign (cellForm p))) := t.rows_update_eq_set hrow
  simp only [InStep, exchange, post_of_find? hfind, updateSource, hvalid, if_true,
    CITable.receive, CITable.onPostedData, htd, listed, hset, List.map_set, hlisted,
    asJson_write hfits]

/-- The act of a user whose saves are accepted. -/
theorem inStep_atomically {t : Table MailboxSource} {c : CITable SourceJson SourceColumn}
    (h : InStep (t, c)) {act : CellAct SourceColumn}
    (haccepted : ∀ value, act = .save value → ∀ p,
      c.commitChanges SourceJson.id value = some p → ∀ row, t.find? p.id = some row →
        Accepted p row) :
    InStep (atomically sourcesServer (t, c) act) := by
  cases act with
  | click td => exact (data_onEditCell c td).trans h
  | escape => exact h
  | save value =>
      cases hp : c.commitChanges SourceJson.id value with
      | none =>
          have hnone : (c.act sourcesServer.key (.save value)).2 = none := hp
          rw [atomically, hnone]
          exact h
      | some p =>
          have hsome : (c.act sourcesServer.key (.save value)).2 = some p := hp
          rw [atomically, hsome]
          exact inStep_exchange h hp fun row hrow => haccepted value rfl p hp row hrow

/-- Each step of a user who waits and whose saves are accepted. -/
theorem inStep_step {s : CellDesk (Table MailboxSource) SourceJson SourceColumn} (hs : s.Single)
    (h : InStep (s.settled sourcesServer)) {e : CellEvent (Table MailboxSource) SourceColumn}
    (hwaits : Waits s e) (hsaves : SavesAccepted s e) :
    InStep ((s.step sourcesServer e).settled sourcesServer) := by
  rw [(settled_step hs hwaits).2]
  cases e with
  | user act =>
      have hquiet : s.Quiet := hwaits
      simp only [CellEvent.act?, Option.map_some, Option.getD_some, settled_of_quiet hquiet] at h ⊢
      refine inStep_atomically h ?_
      rintro value rfl
      exact hsaves
  | serve k => exact h
  | arrive k => exact h
  | others server => exact h

/-- For a user who waits for every answer and whose saves are accepted,
while nobody else changes the sources: whenever nothing is on its way,
the table shows the sources as they are stored, and they are what his
saves make of them one after the other. -/
theorem waiting_user_sees_the_sources (t : Table MailboxSource)
    (es : List (CellEvent (Table MailboxSource) SourceColumn))
    (h : StepsOk (CellDesk.step sourcesServer) (fun s e => Waits s e ∧ SavesAccepted s e)
      (sourcesPage t) es)
    (hend : (run (CellDesk.step sourcesServer) (sourcesPage t) es).Quiet) :
    (run (CellDesk.step sourcesServer) (sourcesPage t) es).table.data
        = listed (run (CellDesk.step sourcesServer) (sourcesPage t) es).server ∧
      (run (CellDesk.step sourcesServer) (sourcesPage t) es).server
        = (run (atomically sourcesServer) (t, ⟨listed t, none⟩)
            (es.filterMap CellEvent.act?)).1 := by
  have hstart : (sourcesPage t).Quiet := ⟨rfl, rfl⟩
  constructor
  · have hinvariant := run_invariant_of_steps
      (fun s : CellDesk (Table MailboxSource) SourceJson SourceColumn =>
        s.Single ∧ InStep (s.settled sourcesServer))
      (fun s e hs he => ⟨(settled_step hs.1 he.1).1, inStep_step hs.1 hs.2 he.1 he.2⟩)
      es (sourcesPage t) h ⟨.quiet hstart, by rw [settled_of_quiet hstart]; rfl⟩
    have hsettled := hinvariant.2
    rwa [settled_of_quiet hend] at hsettled
  · have hatomic := waiting_is_atomic sourcesServer (sourcesPage t) hstart es
      (h.imp fun _ _ hok => hok.1) hend
    exact congrArg Prod.fst hatomic

theorem fits_stars : Fits [(.password, some fakePassword)] := by
  intro a ha
  obtain rfl := List.mem_singleton.mp ha
  refine ⟨by decide, fun s hs => ?_⟩
  cases hs
  decide

/-- A Password cell that is saved as it is shown makes the stars the
password. -/
theorem stars_saved (t : Table MailboxSource) {row : MailboxSource} (hrow : row ∈ t.rows)
    (hvalid : row.valid = true) :
    ((sourcesServer.post ⟨row.id, .password, row.asJson.password⟩ t).2.find? row.id).map
      MailboxSource.password = some (utf8 "******".toList) := by
  have hfind : t.find? row.id = some row := t.find?_key hrow
  have hform : cellForm ⟨row.id, .password, row.asJson.password⟩
      = [(.password, some fakePassword)] := rfl
  have hstill : (row.assign [(.password, some fakePassword)]).valid = true := hvalid
  have hupdated : (t.update row.id
      (fun r => r.write (row.assign [(.password, some fakePassword)])) fun _ => rfl).find? row.id
      = some (row.write (row.assign [(.password, some fakePassword)])) :=
    t.find?_update_self hfind
  rw [post_of_find? hfind, hform]
  simp only [updateSource, hstill, if_true, hupdated, Option.map_some,
    password_write fits_stars row]
  show some (stripBytes (utf8 fakePassword.toList)) = _
  decide +kernel

/-! ## Two sources -/

def contractorsSource : MailboxSource :=
  { customersSource with id := 2, name := some "contractor source", key := some "contractors" }

def bothSources : Table MailboxSource := .ofRows [customersSource, contractorsSource]

/-- The first source gets a number, and the user waits. -/
def numberEntered : List (CellEvent (Table MailboxSource) SourceColumn) :=
  [.user (.click ⟨0, .number⟩), .user (.save "555-0100"), .serve 0, .arrive 0]

theorem waiting_user_sees_the_sources_number :
    (run (CellDesk.step sourcesServer) (sourcesPage bothSources) numberEntered).table.data
        = listed
            (run (CellDesk.step sourcesServer) (sourcesPage bothSources) numberEntered).server ∧
      (run (CellDesk.step sourcesServer) (sourcesPage bothSources) numberEntered).server
        = (run (atomically sourcesServer) (bothSources, ⟨listed bothSources, none⟩)
            (numberEntered.filterMap CellEvent.act?)).1 := by
  refine waiting_user_sees_the_sources bothSources numberEntered ?_ ⟨rfl, rfl⟩
  refine ⟨⟨⟨rfl, rfl⟩, trivial⟩, ⟨⟨rfl, rfl⟩, ?_⟩, ⟨trivial, trivial⟩, ⟨trivial, trivial⟩, trivial⟩
  intro p hp row hrow
  obtain ⟨td, old, htd, hold, rfl⟩ := commitChanges_eq_some_iff.mp hp
  cases htd
  cases hold
  cases hrow
  exact ⟨by decide +kernel, by decide⟩

/-- The editor of the second source is opened too early: both rows show
the first. -/
example :
    ((run (CellDesk.step sourcesServer) (sourcesPage bothSources)
      [.user (.click ⟨0, .number⟩), .user (.save "555-0100"), .user (.click ⟨1, .number⟩), .serve 0,
        .arrive 0]).table.shown SourceJson.id) = [1, 1] := by
  decide +kernel

end HomeWarranty.Faxes
