/-
HomeWarranty.Admin.CellTable — tables whose cells are edited in the
browser.

A `CITable` shows a list of records. A click on a cell opens its editor;
`commitChanges` posts the text with the id of the record in that row, and
the action answers with the record as it is then. Nothing tells
`_onPostedData` which request an answer belongs to: it puts the record
into the row whose editor is open when it comes, closes the editor, and
drops the record when no editor is open. Any number of requests can be on
their way, and they are served and answered in any order.

Two results for whatever action a table posts to. The rows go on showing
their own records exactly when no answer comes while the editor of
another record is open (`rows_keep_their_records_iff`). And for a user
who waits for every answer before he goes on, the table and the server do
what they would do if saving took no time (`waiting_is_atomic`).
-/
import HomeWarranty.Lib.Run

namespace HomeWarranty.Admin

open Lib

/-! ## The table -/

structure Cell (γ : Type) where
  row : Nat
  column : γ
  deriving DecidableEq

/-- A table with columns `γ`, and the cell whose editor is open. -/
structure CITable (ρ γ : Type) where
  data : List ρ
  editingHud : Option (Cell γ)

/-- What is posted: the id of a record, and a field with its text. -/
structure CellPost (γ : Type) where
  id : Nat
  column : γ
  value : String

/-- The action a table posts to. It answers with a record, or fails. -/
structure CellServer (σ ρ γ : Type) where
  key : ρ → Nat
  post : CellPost γ → σ → Option ρ × σ

section
variable {σ ρ γ : Type}

def CITable.stopEditing (t : CITable ρ γ) : CITable ρ γ := { t with editingHud := none }

/-- `_onEditCell`. A cell that is not there cannot be clicked. -/
def CITable.onEditCell [DecidableEq γ] (t : CITable ρ γ) (td : Cell γ) : CITable ρ γ :=
  if t.data.length ≤ td.row then t
  else if t.editingHud = some td then t
  else { t.stopEditing with editingHud := some td }

/-- `commitChanges`: the request it sends, if an editor is open. -/
def CITable.commitChanges (key : ρ → Nat) (t : CITable ρ γ) (value : String) :
    Option (CellPost γ) := do
  let td ← t.editingHud
  let oldRecord ← t.data[td.row]?
  return ⟨key oldRecord, td.column, value⟩

/-- `_onPostedData`. The record has all the fields of the old one, so
merging it replaces it. -/
def CITable.onPostedData (t : CITable ρ γ) (newRecord : ρ) : CITable ρ γ :=
  match t.editingHud with
  | none => t
  | some td => { t.stopEditing with data := t.data.set td.row newRecord }

theorem commitChanges_eq_some_iff {key : ρ → Nat} {t : CITable ρ γ} {value : String}
    {p : CellPost γ} :
    t.commitChanges key value = some p ↔
      ∃ td old, t.editingHud = some td ∧ t.data[td.row]? = some old ∧
        p = ⟨key old, td.column, value⟩ := by
  unfold CITable.commitChanges
  simp only [Option.bind_eq_bind, Option.bind_eq_some_iff, Option.pure_def, Option.some.injEq]
  constructor
  · rintro ⟨td, htd, old, hold, rfl⟩
    exact ⟨td, old, htd, hold, rfl⟩
  · rintro ⟨td, old, htd, hold, rfl⟩
    exact ⟨td, htd, old, hold, rfl⟩

/-- The records that the rows show. -/
def CITable.shown (key : ρ → Nat) (t : CITable ρ γ) : List Nat := t.data.map key

/-- The record is not another than that of the row that is edited. -/
def CITable.Takes (key : ρ → Nat) (t : CITable ρ γ) (r : ρ) : Prop :=
  ∀ td, t.editingHud = some td → ∀ old, t.data[td.row]? = some old → key old = key r

/-- Setting a place of a list leaves it when the place has the value. -/
theorem set_eq_self_iff {α : Type} {l : List α} {i : Nat} {a : α} :
    l.set i a = l ↔ ∀ b, l[i]? = some b → b = a := by
  constructor
  · intro h b hb
    have hi : i < l.length := (List.getElem?_eq_some_iff.mp hb).1
    rw [← h, List.getElem?_set_self hi] at hb
    exact (Option.some.inj hb).symm
  · intro h
    refine List.ext_getElem? fun j => ?_
    rw [List.getElem?_set]
    split_ifs with hij hlen
    · subst hij
      rw [List.getElem?_eq_getElem hlen, h _ (List.getElem?_eq_getElem hlen)]
    · subst hij
      rw [List.getElem?_eq_none (Nat.le_of_not_lt hlen)]
    · rfl

theorem shown_onPostedData_iff {key : ρ → Nat} {t : CITable ρ γ} {r : ρ} :
    (t.onPostedData r).shown key = t.shown key ↔ t.Takes key r := by
  unfold CITable.onPostedData CITable.shown CITable.Takes
  cases t.editingHud with
  | none => simp
  | some td =>
      simp only [List.map_set, set_eq_self_iff, List.getElem?_map,
        Option.map_eq_some_iff, Option.some.injEq, forall_eq']
      constructor
      · intro h old hold
        exact h _ ⟨old, hold, rfl⟩
      · rintro h _ ⟨old, hold, rfl⟩
        exact h old hold

/-! ## The table and the server -/

/-- What the user does. -/
inductive CellAct (γ : Type) where
  | click (td : Cell γ)
  | escape
  | save (value : String)

inductive CellEvent (σ γ : Type) where
  | user (act : CellAct γ)
  /-- The `k`-th of the requests on their way is served. -/
  | serve (k : Nat)
  /-- The `k`-th of the answers on their way comes in. -/
  | arrive (k : Nat)
  /-- Somebody else has changed the records. -/
  | others (server : σ)

/-- The server, the table, and what is on its way between them. -/
structure CellDesk (σ ρ γ : Type) where
  server : σ
  table : CITable ρ γ
  posts : List (CellPost γ)
  answers : List ρ

section
variable [DecidableEq γ]

/-- The user's part. -/
def CITable.act (key : ρ → Nat) (t : CITable ρ γ) : CellAct γ → CITable ρ γ × Option (CellPost γ)
  | .click td => (t.onEditCell td, none)
  | .escape => (t.stopEditing, none)
  | .save value => (t, t.commitChanges key value)

def CellDesk.step (m : CellServer σ ρ γ) (s : CellDesk σ ρ γ) : CellEvent σ γ → CellDesk σ ρ γ
  | .user act =>
      let acted := s.table.act m.key act
      { s with table := acted.1, posts := s.posts ++ acted.2.toList }
  | .serve k =>
      match s.posts[k]? with
      | none => s
      | some p =>
          let served := m.post p s.server
          { s with
            server := served.2
            posts := s.posts.eraseIdx k
            answers := s.answers ++ served.1.toList }
  | .arrive k =>
      match s.answers[k]? with
      | none => s
      | some r => { s with table := s.table.onPostedData r, answers := s.answers.eraseIdx k }
  | .others server => { s with server := server }

/-! ## Which record a row shows -/

/-- An answer comes in while no other record is edited. -/
def Undisturbed (m : CellServer σ ρ γ) (s : CellDesk σ ρ γ) : CellEvent σ γ → Prop
  | .arrive k => ∀ r, s.answers[k]? = some r → s.table.Takes m.key r
  | _ => True

theorem data_onEditCell (t : CITable ρ γ) (td : Cell γ) : (t.onEditCell td).data = t.data := by
  unfold CITable.onEditCell
  split_ifs <;> rfl

theorem data_act (key : ρ → Nat) (t : CITable ρ γ) (act : CellAct γ) :
    (t.act key act).1.data = t.data := by
  cases act with
  | click td => exact data_onEditCell t td
  | escape => rfl
  | save value => rfl

/-- A step leaves the rows their records exactly when nothing disturbs
it. -/
theorem shown_step_iff (m : CellServer σ ρ γ) (s : CellDesk σ ρ γ) (e : CellEvent σ γ) :
    (s.step m e).table.shown m.key = s.table.shown m.key ↔ Undisturbed m s e := by
  cases e with
  | user act =>
      refine iff_of_true ?_ trivial
      simp only [CellDesk.step, CITable.shown, data_act]
  | serve k =>
      refine iff_of_true ?_ trivial
      simp only [CellDesk.step]
      split <;> rfl
  | others server => exact iff_of_true rfl trivial
  | arrive k =>
      simp only [CellDesk.step, Undisturbed]
      cases s.answers[k]? with
      | none => simp
      | some r => simpa using shown_onPostedData_iff

/-- In every interleaving the rows go on showing the records that they
showed when the page was loaded exactly when no answer comes while the
editor of another record is open. -/
theorem rows_keep_their_records_iff (m : CellServer σ ρ γ) (s : CellDesk σ ρ γ)
    (es : List (CellEvent σ γ)) :
    (∀ k, (run (CellDesk.step m) s (es.take k)).table.shown m.key = s.table.shown m.key) ↔
      StepsOk (CellDesk.step m) (Undisturbed m) s es := by
  refine forall_take_iff_stepsOk (fun s' => s'.table.shown m.key = s.table.shown m.key) ?_ es s rfl
  intro s' e hs'
  rw [← hs']
  exact shown_step_iff m s' e

/-! ## A user who waits -/

/-- A request that failed has no answer for the table. -/
def CITable.receive (t : CITable ρ γ) : Option ρ → CITable ρ γ
  | none => t
  | some r => t.onPostedData r

/-- The server and the table after a request that takes no time. -/
def exchange (m : CellServer σ ρ γ) (server : σ) (t : CITable ρ γ) :
    Option (CellPost γ) → σ × CITable ρ γ
  | none => (server, t)
  | some p => ((m.post p server).2, t.receive (m.post p server).1)

/-- What the user does, when saving takes no time. -/
def atomically (m : CellServer σ ρ γ) (s : σ × CITable ρ γ) (act : CellAct γ) : σ × CITable ρ γ :=
  exchange m s.1 (s.2.act m.key act).1 (s.2.act m.key act).2

/-- Nothing is on its way. -/
structure CellDesk.Quiet (s : CellDesk σ ρ γ) : Prop where
  posts : s.posts = []
  answers : s.answers = []

/-- The user acts when nothing is on its way, and nobody else does. -/
def Waits (s : CellDesk σ ρ γ) : CellEvent σ γ → Prop
  | .user _ => s.Quiet
  | .others _ => False
  | _ => True

def CellEvent.act? : CellEvent σ γ → Option (CellAct γ)
  | .user act => some act
  | _ => none

/-- Only one request or answer is on its way. -/
inductive CellDesk.Single (s : CellDesk σ ρ γ) : Prop
  | quiet (h : s.Quiet)
  | post (p : CellPost γ) (hposts : s.posts = [p]) (hanswers : s.answers = [])
  | answer (r : ρ) (hposts : s.posts = []) (hanswers : s.answers = [r])

/-- The server and the table, when what is on its way has come in. -/
def CellDesk.settled (m : CellServer σ ρ γ) (s : CellDesk σ ρ γ) : σ × CITable ρ γ :=
  let s' := (s.step m (.serve 0)).step m (.arrive 0)
  (s'.server, s'.table)

section
variable {m : CellServer σ ρ γ} {s : CellDesk σ ρ γ}

theorem settled_of_quiet (h : s.Quiet) : s.settled m = (s.server, s.table) := by
  simp [CellDesk.settled, CellDesk.step, h.posts, h.answers]

theorem settled_of_post {p : CellPost γ} (hposts : s.posts = [p]) (hanswers : s.answers = []) :
    s.settled m = exchange m s.server s.table (some p) := by
  simp only [CellDesk.settled, CellDesk.step, exchange, hposts, hanswers, List.getElem?_cons_zero]
  cases (m.post p s.server).1 <;> rfl

theorem settled_of_answer {r : ρ} (hposts : s.posts = []) (hanswers : s.answers = [r]) :
    s.settled m = (s.server, s.table.onPostedData r) := by
  simp [CellDesk.settled, CellDesk.step, hposts, hanswers]

/-- With one thing on its way there is no second. -/
theorem eq_zero_of_getElem?_singleton {α : Type} {a b : α} {k : Nat} (h : [a][k]? = some b) :
    k = 0 ∧ b = a := by
  cases k with
  | zero => exact ⟨rfl, (Option.some.inj h).symm⟩
  | succ k => cases h

/-- What a user who waits sends is the only thing on its way; serving
and answering it changes nothing that would not come in anyway, and an
act of the user takes effect at once. -/
theorem settled_step (h : s.Single) {e : CellEvent σ γ} (he : Waits s e) :
    (s.step m e).Single ∧
      (s.step m e).settled m = (e.act?.map (atomically m (s.settled m))).getD (s.settled m) := by
  cases e with
  | others server => exact he.elim
  | user act =>
      have hquiet : s.Quiet := he
      simp only [CellEvent.act?, Option.map_some, Option.getD_some, settled_of_quiet hquiet,
        atomically]
      cases hpost : (s.table.act m.key act).2 with
      | none =>
          have hnext : (s.step m (.user act)).Quiet :=
            ⟨by simp [CellDesk.step, hpost, hquiet.posts], hquiet.answers⟩
          exact ⟨.quiet hnext, settled_of_quiet hnext⟩
      | some p =>
          have hposts : (s.step m (.user act)).posts = [p] := by
            simp [CellDesk.step, hpost, hquiet.posts]
          exact ⟨.post p hposts hquiet.answers, settled_of_post hposts hquiet.answers⟩
  | serve k =>
      cases hk : s.posts[k]? with
      | none => simpa [CellDesk.step, CellEvent.act?, hk] using h
      | some p =>
          cases h with
          | quiet h => simp [h.posts] at hk
          | answer r hposts hanswers => simp [hposts] at hk
          | post q hposts hanswers =>
              rw [hposts] at hk
              obtain ⟨rfl, rfl⟩ := eq_zero_of_getElem?_singleton hk
              have hserved : (s.step m (.serve 0)).posts = [] := by
                simp [CellDesk.step, hposts]
              have hanswered : (s.step m (.serve 0)).answers = (m.post p s.server).1.toList := by
                simp [CellDesk.step, hposts, hanswers]
              simp only [CellEvent.act?, Option.map_none, Option.getD_none,
                settled_of_post hposts hanswers, exchange]
              cases hanswer : (m.post p s.server).1 with
              | none =>
                  have hnext : (s.step m (.serve 0)).Quiet :=
                    ⟨hserved, by rw [hanswered, hanswer]; rfl⟩
                  refine ⟨.quiet hnext, (settled_of_quiet hnext).trans ?_⟩
                  simp [CellDesk.step, hposts, CITable.receive]
              | some r =>
                  have hone : (s.step m (.serve 0)).answers = [r] := by
                    rw [hanswered, hanswer]; rfl
                  refine ⟨.answer r hserved hone, (settled_of_answer hserved hone).trans ?_⟩
                  simp [CellDesk.step, hposts, CITable.receive]
  | arrive k =>
      cases hk : s.answers[k]? with
      | none => simpa [CellDesk.step, CellEvent.act?, hk] using h
      | some r =>
          cases h with
          | quiet h => simp [h.answers] at hk
          | post p hposts hanswers => simp [hanswers] at hk
          | answer r' hposts hanswers =>
              rw [hanswers] at hk
              obtain ⟨rfl, rfl⟩ := eq_zero_of_getElem?_singleton hk
              have hnext : (s.step m (.arrive 0)).Quiet := by
                constructor <;> simp [CellDesk.step, hposts, hanswers]
              refine ⟨.quiet hnext, (settled_of_quiet hnext).trans ?_⟩
              simp [CellDesk.step, CellEvent.act?, hanswers, settled_of_answer hposts hanswers]

/-- For a user who waits for every answer before he goes on, while
nobody else changes the records: when nothing is on its way, the server
and the table are what they are when saving takes no time. -/
theorem waiting_is_atomic (m : CellServer σ ρ γ) (s : CellDesk σ ρ γ) (hs : s.Quiet)
    (es : List (CellEvent σ γ)) (hwaits : StepsOk (CellDesk.step m) Waits s es)
    (hend : (run (CellDesk.step m) s es).Quiet) :
    ((run (CellDesk.step m) s es).server, (run (CellDesk.step m) s es).table)
      = run (atomically m) (s.server, s.table) (es.filterMap CellEvent.act?) := by
  rw [← settled_of_quiet hs (m := m), ← settled_of_quiet hend (m := m)]
  refine run_follows (CellDesk.settled m) CellEvent.act? CellDesk.Single
    (fun s e h he => (settled_step h he).1) ?_ es s (.quiet hs) hwaits
  intro s e h he
  exact (settled_step h he).2

end

end

end

end HomeWarranty.Admin
