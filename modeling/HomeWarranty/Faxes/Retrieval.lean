/-
HomeWarranty.Faxes.Retrieval — what a run of `retrieve!` does to the
world.

Of the statements for one message only three write: the save of the row
with its two later updates, and the flag. `lateFailure` is the failure,
if any, of everything between the row and the flag, with the rescues
worked in, and `exec_retrieveMessage` lists what the body of the loop can
do: skip the message, raise before the row, raise between row and flag,
or file the message (`World.file`).

A run in which nothing raises is `exec_retrieve_quiet`: it files the
messages that are due (`World.due`), in order, and moves the scan
position.
-/
import HomeWarranty.Faxes.Source

namespace HomeWarranty.Faxes

open Lib

/-! ## Failures -/

section
variable (o : Outcomes) (n : Nat)

def Outcomes.uploadFailure (b : Bucket) : Option Failure :=
  (o.result n (.upload b)).bind fun _ => o.result n (.refetchToken b)

/-- A failure of ImageMagick is answered with the picture for a corrupt
fax. -/
def Outcomes.rescueImages : Failure → Option Failure
  | .imageMagickError => o.result n .rewriteCorrupt
  | .other => some .other

def Outcomes.imagesFailure : Option Failure :=
  ((o.result n .readImages).or
    (if o.emptyImage n then o.result n .writeCorrupt
    else (o.result n .writePreview).or ((o.uploadFailure n .preview).or
      ((o.result n .writeThumbnail).or (o.uploadFailure n .thumb))))).bind (o.rescueImages n)

/-- From the last write of the row to the flag. -/
def Outcomes.finishFailure : Option Failure :=
  (o.uploadFailure n .main).or ((o.imagesFailure n).or
    ((o.result n .notify).or (o.result n .store)))

/-- From the save of the row to the flag. -/
def Outcomes.lateFailure : Option Failure :=
  (o.result n .writePdf).or ((o.result n .updatePath).or
    ((o.result n .saveObjectId).or (o.finishFailure n)))

theorem idle_check (f : Option Failure) : Idle (check f) f := by
  cases f with
  | none => exact idle_pure
  | some e => exact idle_throw e

theorem idle_call (s : Statement) : Idle (call o n s) (o.result n s) := idle_check _

theorem idle_upload (b : Bucket) : Idle (upload o n b) (o.uploadFailure n b) :=
  (idle_call o n (.upload b)).rescue fun _ => idle_call o n (.refetchToken b)

theorem idle_writeImages : Idle (writeImages o n) (o.imagesFailure n) := by
  refine Idle.rescue (Idle.seq (idle_call o n .readImages) (Idle.ite ?_ ?_)) fun f => ?_
  · exact idle_call o n .writeCorrupt
  · exact (idle_call o n .writePreview).seq ((idle_upload o n .preview).seq
      ((idle_call o n .writeThumbnail).seq (idle_upload o n .thumb)))
  · cases f with
    | imageMagickError => exact idle_call o n .rewriteCorrupt
    | other => exact idle_throw Failure.other

end

/-! ## Filing one message -/

/-- A new row. -/
def World.save (w : World) (r : Fax) : World := { w with faxes := w.faxes.insert r }

/-- The row when its file is written. -/
def writtenFax (w : World) (n : Nat) (e : Envelope) : Fax :=
  { newFax w n e with path := some (pdfPath w.faxes.nextKey) }

/-- The row of a message that was filed. -/
def filedFax (o : Outcomes) (w : World) (n : Nat) (e : Envelope) : Fax :=
  { writtenFax w n e with
    objectId := some (toString (o.random n) ++ toString w.faxes.nextKey) }

/-- The message has its row and its flag. -/
def World.file (o : Outcomes) (w : World) (n : Nat) (e : Envelope) : World :=
  { w.save (filedFax o w n e) with mailbox := store w.mailbox n }

/-- The row that was just saved is changed as if it had been saved
changed. -/
theorem updateFax_save (w : World) (r : Fax) (f : Fax → Fax) (hf : ∀ r, (f r).id = r.id)
    (hid : ∀ k, f { r with id := k } = { f r with id := k }) :
    updateFax (w.save r) w.faxes.nextKey f hf = w.save (f r) := by
  unfold updateFax World.save
  congr 1
  exact Table.update_insert_new w.faxes r (hid w.faxes.nextKey)

/-- The statements for a fax: the points where they can stop, and what
is written by then. -/
theorem exec_fileMessage (o : Outcomes) (n : Nat) (e : Envelope) (w : World) :
    exec (fileMessage o n e) w =
      proceed (o.result n .save) w
        (proceed ((o.result n .writePdf).or (o.result n .updatePath)) (w.save (newFax w n e))
          (proceed (o.result n .saveObjectId) (w.save (writtenFax w n e))
            (proceed (o.finishFailure n) (w.save (filedFax o w n e))
              (raised (o.result n .logFlagged), w.file o n e)))) := by
  have hsave : ({ w with faxes := w.faxes.insert (newFax w n e) } : World)
      = w.save (newFax w n e) := rfl
  have hpath : updateFax (w.save (newFax w n e)) w.faxes.nextKey
      (fun r => { r with path := some (pdfPath w.faxes.nextKey) }) (fun _ => rfl)
      = w.save (writtenFax w n e) :=
    updateFax_save w _ _ _ fun _ => rfl
  have hobject : updateFax (w.save (writtenFax w n e)) w.faxes.nextKey
      (fun r => { r with
        objectId := some (toString (o.random n) ++ toString w.faxes.nextKey) }) (fun _ => rfl)
      = w.save (filedFax o w n e) :=
    updateFax_save w _ _ _ fun _ => rfl
  unfold fileMessage
  rw [(idle_call o n .save).exec_bind]
  simp only [exec_get_bind, exec_modify_bind, hsave]
  rw [(idle_call o n .writePdf).exec_bind, (idle_call o n .updatePath).exec_bind, ← proceed_or]
  simp only [exec_modify_bind, hpath]
  rw [(idle_call o n .saveObjectId).exec_bind]
  simp only [exec_modify_bind, hobject]
  rw [(idle_upload o n .main).exec_bind, (idle_writeImages o n).exec_bind,
    (idle_call o n .notify).exec_bind, (idle_call o n .store).exec_bind]
  simp only [exec_modify_bind, ← proceed_or, Outcomes.finishFailure]
  rw [idle_call o n .logFlagged]
  rfl

/-! ## One message -/

def World.envelopeAt (w : World) (n : Nat) : Option Envelope :=
  (w.mailbox.find? n).map Message.envelope

/-- The message with this number is taken for a fax. -/
def World.isFaxAt (w : World) (n : Nat) : Bool := (w.envelopeAt n).any Envelope.isFax

/-- Before the row. -/
def Outcomes.earlyFailure (o : Outcomes) (n : Nat) : Option Failure :=
  (o.result n .fetch).or (o.result n .parse)

/-- The row is the source's row for message `n`. -/
def OfMessage (w : World) (n : Nat) (r : Fax) : Prop :=
  r.sourceId = some w.source.id ∧ r.messageId = some n

/-- What the body of the loop can do with a message that is there: the
result and the world it leaves. -/
inductive Handled (env : Environment) (o : Outcomes) (w : World) (n : Nat) (e : Envelope) :
    Except Failure Bool × World → Prop where
  /-- It is not a fax. -/
  | skipped (hearly : o.earlyFailure n = none) (hfax : e.isFax = false) :
      Handled env o w n e (.ok false, w)
  /-- Something raised before it was known to be a fax. -/
  | unread {f : Failure} (hearly : o.earlyFailure n = some f) :
      Handled env o w n e (.error f, w)
  /-- The row was not saved. -/
  | unsaved {f : Failure} (hearly : o.earlyFailure n = none) (hfax : e.isFax = true)
      (hsave : o.result n .save = some f) : Handled env o w n e (.error f, w)
  /-- The row was saved and the flag was not. -/
  | unflagged {f : Failure} {r : Fax} (hearly : o.earlyFailure n = none)
      (hfax : e.isFax = true) (hsave : o.result n .save = none)
      (hlate : o.lateFailure n = some f) (hr : OfMessage w n r) :
      Handled env o w n e (.error f, w.save r)
  /-- The message was filed. -/
  | filed (hearly : o.earlyFailure n = none) (hfax : e.isFax = true)
      (hsave : o.result n .save = none) (hlate : o.lateFailure n = none) :
      Handled env o w n e
        (proceed (o.result n .logFlagged) (w.file o n e) (.ok env.fetchesOne, w.file o n e))

theorem exec_fetchMessage (o : Outcomes) {w : World} {n : Nat} {m : Message}
    (hm : w.mailbox.find? n = some m) :
    exec (fetchMessage o n) w = proceed (o.result n .fetch) w (.ok m, w) := by
  unfold fetchMessage
  rw [(idle_call o n .fetch).exec_bind, exec_get_bind, hm]
  rfl

/-- The statements for a fax either stop before the row, or between row
and flag, or go through to the flag. -/
theorem fileMessage_cases (o : Outcomes) (n : Nat) (e : Envelope) (w : World) :
    (∃ f, o.result n .save = some f ∧ exec (fileMessage o n e) w = (.error f, w)) ∨
    (o.result n .save = none ∧ ∃ f r, o.lateFailure n = some f ∧ OfMessage w n r ∧
      exec (fileMessage o n e) w = (.error f, w.save r)) ∨
    (o.result n .save = none ∧ o.lateFailure n = none ∧
      exec (fileMessage o n e) w = (raised (o.result n .logFlagged), w.file o n e)) := by
  rw [exec_fileMessage]
  unfold Outcomes.lateFailure
  rw [← Option.or_assoc]
  cases o.result n .save with
  | some f => exact .inl ⟨f, rfl, rfl⟩
  | none =>
      refine .inr ?_
      cases (o.result n .writePdf).or (o.result n .updatePath) with
      | some f => exact .inl ⟨rfl, f, newFax w n e, rfl, ⟨rfl, rfl⟩, rfl⟩
      | none =>
          cases o.result n .saveObjectId with
          | some f => exact .inl ⟨rfl, f, writtenFax w n e, rfl, ⟨rfl, rfl⟩, rfl⟩
          | none =>
              cases o.finishFailure n with
              | some f => exact .inl ⟨rfl, f, filedFax o w n e, rfl, ⟨rfl, rfl⟩, rfl⟩
              | none => exact .inr ⟨rfl, rfl, rfl⟩

/-- The message is read, and then filed if it is a fax. -/
theorem exec_retrieveMessage_read (env : Environment) (o : Outcomes) {w : World} {n : Nat}
    {m : Message} (hm : w.mailbox.find? n = some m) :
    exec (retrieveMessage env o n) w = proceed (o.earlyFailure n) w
      (exec (if m.envelope.isFax then do
        fileMessage o n m.envelope
        pure env.fetchesOne
      else pure false) w) := by
  unfold retrieveMessage
  rw [exec_bind, exec_fetchMessage o hm, Outcomes.earlyFailure, proceed_or]
  cases o.result n .fetch with
  | some f => rfl
  | none =>
      simp only [proceed_none]
      rw [(idle_call o n .parse).exec_bind]
      unfold Envelope.isFax
      cases validSenderFaxNumber (deduceSenderFaxNumberUsingEnvelope m.envelope) with
      | false => rfl
      | true =>
          cases (m.envelope.attachments.getD []).isEmpty with
          | false => rfl
          | true => rfl

/-- What the body of the loop can do. -/
theorem exec_retrieveMessage (env : Environment) (o : Outcomes) {w : World} {n : Nat}
    {m : Message} (hm : w.mailbox.find? n = some m) :
    Handled env o w n m.envelope (exec (retrieveMessage env o n) w) := by
  rw [exec_retrieveMessage_read env o hm]
  cases he : o.earlyFailure n with
  | some f => exact .unread he
  | none =>
      rw [proceed_none]
      cases hfax : m.envelope.isFax with
      | false => exact .skipped he hfax
      | true =>
          simp only [if_true]
          rw [exec_bind]
          rcases fileMessage_cases o n m.envelope w with
            ⟨f, hsave, hexec⟩ | ⟨hsave, f, r, hlate, hr, hexec⟩ | ⟨hsave, hlate, hexec⟩
          · rw [hexec]
            exact .unsaved he hfax hsave
          · rw [hexec]
            exact .unflagged he hfax hsave hlate hr
          · have hend : Handled env o w n m.envelope (proceed (o.result n .logFlagged)
                (w.file o n m.envelope) (.ok env.fetchesOne, w.file o n m.envelope)) :=
              .filed he hfax hsave hlate
            rw [hexec]
            cases hl : o.result n .logFlagged with
            | none =>
                rw [hl] at hend
                exact hend
            | some f =>
                rw [hl] at hend
                exact hend

/-! ## Rows and flags -/

instance (w : World) (n : Nat) (r : Fax) : Decidable (OfMessage w n r) :=
  inferInstanceAs (Decidable (_ ∧ _))

/-- The rows of a message. -/
def World.faxesOf (w : World) (n : Nat) : List Fax :=
  w.faxes.rows.filter fun r => decide (OfMessage w n r)

def World.flaggedAt (w : World) (n : Nat) : Bool := (w.mailbox.find? n).any Message.flagged

theorem World.length_faxesOf_save {w : World} {n : Nat} {r : Fax} (hr : OfMessage w n r)
    (k : Nat) :
    ((w.save r).faxesOf k).length = (w.faxesOf k).length + if k = n then 1 else 0 := by
  obtain ⟨hsource, hmessage⟩ := hr
  show ((w.faxes.rows ++ [{ r with id := w.faxes.nextKey }]).filter
    fun r => decide (OfMessage w k r)).length = _
  rw [List.filter_append, List.length_append]
  congr 1
  by_cases h : k = n
  · simp [OfMessage, hsource, hmessage, h]
  · simp [OfMessage, hmessage, h, Ne.symm h]

theorem ofMessage_filedFax (o : Outcomes) (w : World) (n : Nat) (e : Envelope) :
    OfMessage w n (filedFax o w n e) := ⟨rfl, rfl⟩

theorem World.length_faxesOf_file (o : Outcomes) (w : World) (n : Nat) (e : Envelope) (k : Nat) :
    ((w.file o n e).faxesOf k).length = (w.faxesOf k).length + if k = n then 1 else 0 :=
  World.length_faxesOf_save (ofMessage_filedFax o w n e) k

theorem World.mem_faxesOf_file {o : Outcomes} {w : World} {n : Nat} {e : Envelope} {k : Nat}
    {r : Fax} : r ∈ (w.file o n e).faxesOf k ↔
      r ∈ w.faxesOf k ∨ (k = n ∧ r = { filedFax o w n e with id := w.faxes.nextKey }) := by
  show r ∈ (w.faxes.rows ++ [{ filedFax o w n e with id := w.faxes.nextKey }]).filter
    (fun r => decide (OfMessage w k r)) ↔ _
  rw [List.filter_append, List.mem_append]
  refine or_congr_right ?_
  rw [List.mem_filter, List.mem_singleton]
  constructor
  · rintro ⟨rfl, hr⟩
    have hmessage := (of_decide_eq_true hr).2
    exact ⟨(Option.some.inj hmessage).symm, rfl⟩
  · rintro ⟨rfl, rfl⟩
    exact ⟨rfl, decide_eq_true ⟨rfl, rfl⟩⟩

theorem find?_store (b : Table Message) (n k : Nat) :
    (store b n).find? k
      = if k = n then (b.find? k).map (fun m => { m with flagged := true }) else b.find? k :=
  Table.find?_update b n k

theorem numbers_store (b : Table Message) (n : Nat) :
    (store b n).rows.map Message.number = b.rows.map Message.number := by
  show (b.rows.map _).map Message.number = _
  rw [List.map_map]
  refine List.map_congr_left fun m _ => ?_
  show Message.number (if _ then _ else _) = _
  split
  · rfl
  · rfl

theorem World.flaggedAt_file (o : Outcomes) {w : World} {n : Nat} {m : Message} (e : Envelope)
    (hm : w.mailbox.find? n = some m) (k : Nat) :
    (w.file o n e).flaggedAt k = (w.flaggedAt k || k == n) := by
  show ((store w.mailbox n).find? k).any Message.flagged = _
  rw [find?_store]
  by_cases h : k = n
  · simp [h, hm]
  · simp [World.flaggedAt, h]

/-- Filing changes no envelope. -/
@[simp] theorem World.envelopeAt_file (o : Outcomes) (w : World) (n : Nat) (e : Envelope)
    (k : Nat) : (w.file o n e).envelopeAt k = w.envelopeAt k := by
  show ((store w.mailbox n).find? k).map Message.envelope = _
  rw [find?_store]
  split
  · unfold World.envelopeAt
    cases w.mailbox.find? k with
    | none => rfl
    | some m => rfl
  · rfl

@[simp] theorem World.isFaxAt_file (o : Outcomes) (w : World) (n : Nat) (e : Envelope) (k : Nat) :
    (w.file o n e).isFaxAt k = w.isFaxAt k := by
  unfold World.isFaxAt
  rw [World.envelopeAt_file]

@[simp] theorem World.source_file (o : Outcomes) (w : World) (n : Nat) (e : Envelope) :
    (w.file o n e).source = w.source := rfl

/-! ## Filing many messages -/

/-- The message with this number is filed. -/
def World.fileAt (o : Outcomes) (w : World) (n : Nat) : World :=
  match w.envelopeAt n with
  | some e => w.file o n e
  | none => w

def World.fileAll (o : Outcomes) (w : World) (ns : List Nat) : World := ns.foldl (World.fileAt o) w

/-- There is a message under each of the numbers. -/
def World.Holds (w : World) (ns : List Nat) : Prop :=
  ∀ n ∈ ns, ∃ m, w.mailbox.find? n = some m

theorem World.fileAt_eq (o : Outcomes) {w : World} {n : Nat} {m : Message}
    (hm : w.mailbox.find? n = some m) : w.fileAt o n = w.file o n m.envelope := by
  simp [World.fileAt, World.envelopeAt, hm]

theorem World.fileAll_cons (o : Outcomes) {w : World} {n : Nat} {m : Message}
    (hm : w.mailbox.find? n = some m) (ns : List Nat) :
    w.fileAll o (n :: ns) = (w.file o n m.envelope).fileAll o ns := by
  show (w.fileAt o n).fileAll o ns = _
  rw [World.fileAt_eq o hm]

theorem World.Holds.file {w : World} {ns : List Nat} (h : w.Holds ns) (o : Outcomes) (n : Nat)
    (e : Envelope) : (w.file o n e).Holds ns := by
  intro k hk
  obtain ⟨m, hm⟩ := h k hk
  show ∃ m, (store w.mailbox n).find? k = some m
  rw [find?_store, hm]
  split
  · exact ⟨_, rfl⟩
  · exact ⟨_, rfl⟩

/-- What filing many messages does, for every number: envelopes and the
source stay, each filed message has one more row and is flagged. -/
theorem World.fileAll_spec (o : Outcomes) (ns : List Nat) (w : World) (h : w.Holds ns) :
    (w.fileAll o ns).source = w.source ∧
    (w.fileAll o ns).mailbox.nextKey = w.mailbox.nextKey ∧
    (w.fileAll o ns).mailbox.rows.map Message.number = w.mailbox.rows.map Message.number ∧
    ∀ k, (w.fileAll o ns).envelopeAt k = w.envelopeAt k ∧
      ((w.fileAll o ns).faxesOf k).length = (w.faxesOf k).length + ns.count k ∧
      (w.fileAll o ns).flaggedAt k = (w.flaggedAt k || decide (k ∈ ns)) := by
  induction ns generalizing w with
  | nil => exact ⟨rfl, rfl, rfl, fun k => ⟨rfl, rfl, by simp [World.fileAll]⟩⟩
  | cons n ns ih =>
      obtain ⟨m, hm⟩ := h n (by simp)
      have hrest : w.Holds ns := fun k hk => h k (by simp [hk])
      obtain ⟨hsource, hnext, hnumbers, hall⟩ :=
        ih (w.file o n m.envelope) (hrest.file o n m.envelope)
      rw [World.fileAll_cons o hm]
      refine ⟨hsource, hnext, hnumbers.trans (numbers_store w.mailbox n), fun k => ?_⟩
      obtain ⟨henv, hlen, hflag⟩ := hall k
      refine ⟨?_, ?_, ?_⟩
      · rw [henv, World.envelopeAt_file]
      · rw [hlen, World.length_faxesOf_file, List.count_cons]
        by_cases hk : k = n
        · simp [hk]
          omega
        · simp [hk, Ne.symm hk]
      · rw [hflag, World.flaggedAt_file o m.envelope hm, Bool.or_assoc]
        congr 1
        by_cases hk : k = n
        · simp [hk]
        · simp [hk, beq_eq_false_iff_ne.mpr hk]

/-- A row under key `j` or beyond is there after filing just when it was
there before or its message was filed. -/
theorem World.exists_row_fileAll (o : Outcomes) (ns : List Nat) (w : World) (h : w.Holds ns)
    {j : Nat} (hj : j ≤ w.faxes.nextKey) (k : Nat) :
    (∃ r ∈ (w.fileAll o ns).faxesOf k, j ≤ r.id) ↔
      (∃ r ∈ w.faxesOf k, j ≤ r.id) ∨ k ∈ ns := by
  induction ns generalizing w with
  | nil => simp [World.fileAll]
  | cons n ns ih =>
      obtain ⟨m, hm⟩ := h n (by simp)
      have hrest : w.Holds ns := fun k hk => h k (by simp [hk])
      rw [World.fileAll_cons o hm, ih (w.file o n m.envelope) (hrest.file o n m.envelope)
        (Nat.le_succ_of_le hj : j ≤ w.faxes.nextKey + 1), List.mem_cons, ← or_assoc]
      refine or_congr_left ?_
      constructor
      · rintro ⟨r, hr, hjr⟩
        rcases World.mem_faxesOf_file.mp hr with hr | ⟨hk, _⟩
        · exact .inl ⟨r, hr, hjr⟩
        · exact .inr hk
      · rintro (⟨r, hr, hjr⟩ | hk)
        · exact ⟨r, World.mem_faxesOf_file.mpr (.inl hr), hjr⟩
        · exact ⟨_, World.mem_faxesOf_file.mpr (.inr ⟨hk, rfl⟩), hj⟩

/-! ## A run in which nothing raises -/

structure Outcomes.Quiet (o : Outcomes) : Prop where
  login : o.login = true
  result : ∀ n s, o.result n s = none
  closing : ∀ c, o.closing c = none

/-- The numbers that are faxes at or above the scan position. -/
def World.due (w : World) (ns : List Nat) : List Nat :=
  ns.filter fun n => decide (w.source.lastScannedId ≤ n) && w.isFaxAt n

/-- In development the loop is left after the first fax. -/
def Environment.cut (env : Environment) (ns : List Nat) : List Nat :=
  if env.fetchesOne then ns.take 1 else ns

theorem Environment.mem_of_mem_cut {env : Environment} {ns : List Nat} {n : Nat}
    (h : n ∈ env.cut ns) : n ∈ ns := by
  unfold Environment.cut at h
  split at h
  · exact List.mem_of_mem_take h
  · exact h

/-- `last_scanned_message_no` at the end of the loop. -/
def World.position (env : Environment) (w : World) : List Nat → Nat → Nat
  | [], last => last
  | n :: ns, last =>
      if (n : Int) < w.source.lastScannedId then World.position env w ns last
      else if w.isFaxAt n && env.fetchesOne then n
      else World.position env w ns n

theorem World.due_file (o : Outcomes) (w : World) (n : Nat) (e : Envelope) (ns : List Nat) :
    (w.file o n e).due ns = w.due ns := by
  unfold World.due
  refine List.filter_congr fun k _ => ?_
  rw [World.isFaxAt_file]
  rfl

theorem World.position_file (env : Environment) (o : Outcomes) (w : World) (n : Nat)
    (e : Envelope) (ns : List Nat) (last : Nat) :
    (w.file o n e).position env ns last = w.position env ns last := by
  induction ns generalizing last with
  | nil => rfl
  | cons k ns ih => simp only [World.position, World.isFaxAt_file, World.source_file, ih]

theorem World.isFaxAt_eq {w : World} {n : Nat} {m : Message}
    (hm : w.mailbox.find? n = some m) : w.isFaxAt n = m.envelope.isFax := by
  simp [World.isFaxAt, World.envelopeAt, hm]

theorem Outcomes.Quiet.earlyFailure {o : Outcomes} (h : o.Quiet) (n : Nat) :
    o.earlyFailure n = none := by
  simp [Outcomes.earlyFailure, h.result]

theorem Outcomes.Quiet.lateFailure {o : Outcomes} (h : o.Quiet) (n : Nat) :
    o.lateFailure n = none := by
  simp [Outcomes.lateFailure, Outcomes.finishFailure, Outcomes.imagesFailure,
    Outcomes.uploadFailure, h.result]

/-- The body of the loop when nothing raises. -/
theorem exec_retrieveMessage_quiet (env : Environment) {o : Outcomes} (hq : o.Quiet)
    {w : World} {n : Nat} {m : Message} (hm : w.mailbox.find? n = some m) :
    exec (retrieveMessage env o n) w =
      if w.isFaxAt n then (.ok env.fetchesOne, w.file o n m.envelope) else (.ok false, w) := by
  rw [World.isFaxAt_eq hm]
  have h := exec_retrieveMessage env o hm
  have hearly := hq.earlyFailure n
  have hlate := hq.lateFailure n
  generalize exec (retrieveMessage env o n) w = x at h
  cases h with
  | skipped _ hfax => simp [hfax]
  | unread he => simp [hearly] at he
  | unsaved _ _ hs => simp [hq.result] at hs
  | unflagged _ _ _ hl _ => simp [hlate] at hl
  | filed _ hfax _ _ => simp [hfax, hq.result]

theorem exec_scan_quiet (env : Environment) {o : Outcomes} (hq : o.Quiet) (ns : List Nat)
    (last : Nat) (w : World) (h : w.Holds ns) :
    exec (scan env o ns last) w
      = (.ok (w.position env ns last), w.fileAll o (env.cut (w.due ns))) := by
  induction ns generalizing last w with
  | nil =>
      cases env with
      | production | development | test => rfl
  | cons n ns ih =>
      obtain ⟨m, hm⟩ := h n (by simp)
      have hrest : w.Holds ns := fun k hk => h k (by simp [hk])
      unfold scan
      rw [exec_get_bind, exec_ite]
      by_cases hlow : (n : Int) < w.source.lastScannedId
      · have hdue : w.due (n :: ns) = w.due ns := by
          simp [World.due, hlow]
        rw [if_pos hlow, ih last w hrest, hdue]
        simp [World.position, hlow]
      · rw [if_neg hlow, exec_bind, exec_retrieveMessage_quiet env hq hm]
        cases hfax : w.isFaxAt n with
        | false =>
            have hdue : w.due (n :: ns) = w.due ns := by
              simp [World.due, hfax]
            simp [World.position, hlow, hfax, hdue, ih n w hrest]
        | true =>
            have hdue : w.due (n :: ns) = n :: w.due ns := by
              simp [World.due, hfax, Int.not_lt.mp hlow]
            cases hone : env.fetchesOne with
            | true =>
                simp [World.position, hlow, hfax, hdue, hone, Environment.cut, World.fileAll,
                  World.fileAt_eq o hm]
            | false =>
                have hih := ih n (w.file o n m.envelope) (hrest.file o n m.envelope)
                rw [World.due_file, World.position_file] at hih
                simpa [World.position, hlow, hfax, hdue, hone, Environment.cut,
                  World.fileAll_cons o hm] using hih

/-- The scan position moves up or stays. -/
def World.moveTo (w : World) (last : Nat) : World :=
  if (last : Int) > w.source.lastScannedId then
    { w with source := { w.source with lastScannedId := last } }
  else w

theorem exec_saveLastScanned_quiet {o : Outcomes} (hq : o.Quiet) (last : Nat) (w : World) :
    exec (saveLastScanned o last) w = (.ok ⟨⟩, w.moveTo last) := by
  unfold saveLastScanned World.moveTo
  rw [exec_get_bind, exec_ite]
  split
  · rw [(idle_check _).exec_bind, hq.closing]
    rfl
  · rfl

theorem mem_search {b : Table Message} {n : Nat} :
    n ∈ search b ↔ ∃ m, b.find? n = some m ∧ m.flagged = false := by
  unfold search
  rw [List.mem_map]
  constructor
  · rintro ⟨m, hm, rfl⟩
    obtain ⟨hrow, hflag⟩ := List.mem_filter.mp hm
    exact ⟨m, b.find?_key hrow, by simpa using hflag⟩
  · rintro ⟨m, hm, hflag⟩
    exact ⟨m, List.mem_filter.mpr ⟨Table.mem_of_find? hm, by simp [hflag]⟩, Table.key_of_find? hm⟩

theorem World.holds_search (w : World) : w.Holds (search w.mailbox) := by
  intro n hn
  obtain ⟨m, hm, _⟩ := mem_search.mp hn
  exact ⟨m, hm⟩

/-- The numbers are returned in ascending order. -/
theorem ascending_search (b : Table Message) : (search b).Pairwise (· < ·) := by
  unfold search
  rw [List.pairwise_map]
  exact b.increasing.filter _

theorem nodup_search (b : Table Message) : (search b).Nodup :=
  (ascending_search b).imp fun h => Nat.ne_of_lt h

/-- What is due is an unflagged fax at or above the scan position. -/
theorem mem_due_iff {w : World} {k : Nat} :
    k ∈ w.due (search w.mailbox) ↔ ∃ t ∈ w.mailbox.rows, t.number = k ∧ t.flagged = false ∧
      t.envelope.isFax = true ∧ w.source.lastScannedId ≤ t.number := by
  unfold World.due
  rw [List.mem_filter, mem_search]
  constructor
  · rintro ⟨⟨t, ht, hflag⟩, hp⟩
    have hk : t.number = k := Table.key_of_find? ht
    rw [World.isFaxAt_eq ht] at hp
    simp only [Bool.and_eq_true, decide_eq_true_eq] at hp
    exact ⟨t, Table.mem_of_find? ht, hk, hflag, hp.2, by rw [hk]; exact hp.1⟩
  · rintro ⟨t, ht, rfl, hflag, hfax, hpos⟩
    have hfind : w.mailbox.find? t.number = some t := w.mailbox.find?_key ht
    refine ⟨⟨t, hfind, hflag⟩, ?_⟩
    rw [World.isFaxAt_eq hfind]
    simp [hfax, hpos]

/-- **A run in which nothing raises** files the messages that are due
and moves the scan position. -/
theorem exec_retrieve_quiet (env : Environment) {o : Outcomes} (hq : o.Quiet) (w : World) :
    exec (retrieve env o) w = (.ok ⟨⟩,
      (w.fileAll o (env.cut (w.due (search w.mailbox)))).moveTo
        (w.position env (search w.mailbox) 0)) := by
  unfold retrieve
  rw [hq.login]
  simp only [Bool.not_true, Bool.false_eq_true, if_false]
  rw [(idle_check _).exec_bind, (idle_check _).exec_bind, hq.closing, hq.closing, proceed_none,
    proceed_none, exec_get_bind, exec_bind, exec_scan_quiet env hq _ _ w w.holds_search]
  simp only
  rw [exec_bind, exec_saveLastScanned_quiet hq]
  simp only
  unfold closeMailbox
  rw [(idle_check _).exec_bind, (idle_check _).exec_bind, hq.closing, hq.closing, proceed_none,
    proceed_none, idle_check, hq.closing]
  rfl

/-- Nothing but the position changes. -/
theorem World.moveTo_spec (w : World) (last : Nat) :
    (w.moveTo last).mailbox = w.mailbox ∧ (∀ k, (w.moveTo last).faxesOf k = w.faxesOf k) ∧
      (w.moveTo last).source.lastScannedId = max w.source.lastScannedId last := by
  unfold World.moveTo
  split
  · rename_i h
    exact ⟨rfl, fun _ => rfl, (max_eq_right (Int.le_of_lt h)).symm⟩
  · exact ⟨rfl, fun _ => rfl, (max_eq_left (by omega)).symm⟩

/-- From `w` to `w'` the messages `ns` were filed, nothing else, and the
scan got to `last`. -/
structure Filed (w w' : World) (ns : List Nat) (last : Nat) : Prop where
  nextKey : w'.mailbox.nextKey = w.mailbox.nextKey
  numbers : w'.mailbox.rows.map Message.number = w.mailbox.rows.map Message.number
  envelope : ∀ k, w'.envelopeAt k = w.envelopeAt k
  rows : ∀ k, (w'.faxesOf k).length = (w.faxesOf k).length + ns.count k
  added : ∀ k, (∃ r ∈ w'.faxesOf k, w.faxes.nextKey ≤ r.id) ↔ k ∈ ns
  flag : ∀ k, w'.flaggedAt k = (w.flaggedAt k || decide (k ∈ ns))
  position : w'.source.lastScannedId = max w.source.lastScannedId last

/-- What a run in which nothing raises does, for every number. -/
theorem filed_retrieve (env : Environment) {o : Outcomes} (hq : o.Quiet) (w : World) :
    Filed w (exec (retrieve env o) w).2 (env.cut (w.due (search w.mailbox)))
      (w.position env (search w.mailbox) 0) := by
  have hholds : w.Holds (env.cut (w.due (search w.mailbox))) :=
    fun n hn => w.holds_search n (List.mem_of_mem_filter (Environment.mem_of_mem_cut hn))
  obtain ⟨hsource, hnext, hnumbers, hall⟩ := w.fileAll_spec o _ hholds
  have hold : ∀ k, ¬ ∃ r ∈ w.faxesOf k, w.faxes.nextKey ≤ r.id := by
    rintro k ⟨r, hr, hle⟩
    exact absurd (w.faxes.fresh r (List.mem_of_mem_filter hr)) (Nat.not_lt.mpr hle)
  obtain ⟨hbox, hrows, hmark⟩ := World.moveTo_spec
    (w.fileAll o (env.cut (w.due (search w.mailbox)))) (w.position env (search w.mailbox) 0)
  rw [exec_retrieve_quiet env hq w]
  refine ⟨?_, ?_, fun k => ?_, fun k => ?_, fun k => ?_, fun k => ?_, ?_⟩
  · rw [hbox, hnext]
  · rw [hbox, hnumbers]
  · unfold World.envelopeAt
    rw [hbox]
    exact (hall k).1
  · rw [hrows, (hall k).2.1]
  · rw [hrows, w.exists_row_fileAll o _ hholds (Nat.le_refl _)]
    exact or_iff_right (hold k)
  · unfold World.flaggedAt
    rw [hbox]
    exact (hall k).2.2
  · rw [hmark, hsource]

theorem Filed.isFaxAt {w w' : World} {ns : List Nat} {last : Nat} (h : Filed w w' ns last)
    (k : Nat) : w'.isFaxAt k = w.isFaxAt k := by
  unfold World.isFaxAt
  rw [h.envelope]

end HomeWarranty.Faxes
