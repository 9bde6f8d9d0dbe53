/-
HomeWarranty.Faxes.Source — `FaxSource#retrieve!`, the scan of a mailbox
for faxes, statement by statement.

A run asks the mailbox for the numbers of its unflagged messages and
goes through them. For each message that is taken for a fax it saves a
row, writes files, uploads them, and at last flags the message; the
number it got to is saved on the source when the loop is over. Any
statement on the way may raise, and what was written before stays
written: the program is a `Raising`, and `Outcomes` says which statements
raise in a run. The exceptions that the source rescues are rescued here.

* `retrieveMessage` — the body of the loop for one number.
* `scan` — the loop, with `last_scanned_message_no`.
* `retrieve` — one call of `retrieve!`; `perform` — the worker, with its
  lock.

The pictures, the uploads and the log are not modelled, only that they
may fail. Whether a picture has a first page is the answer of
ImageMagick, so it is part of the outcomes, and so is the random number
in the name of an upload.
-/
import HomeWarranty.Lib.Raise
import HomeWarranty.Lib.Table
import HomeWarranty.Faxes.Service

namespace HomeWarranty.Faxes

open Lib

/-! ## The tables and the mailbox -/

structure Fax where
  id : Nat
  sourceId : Option Nat
  messageId : Option Nat
  receivedAt : Option String
  senderFaxNumber : Option String
  path : Option String
  objectId : Option String
  deriving DecidableEq, Repr

instance : Record Fax where
  key := Fax.id
  withKey n f := { f with id := n }
  key_withKey := fun _ _ => rfl

structure FaxSource where
  id : Nat
  lastScannedId : Int
  lockFlag : Int
  deriving DecidableEq, Repr

structure Message where
  number : Nat
  envelope : Envelope
  flagged : Bool
  deriving DecidableEq, Repr

/-- A mailbox keeps its messages in the order of their numbers and gives
out numbers as a table gives out keys. -/
instance : Record Message where
  key := Message.number
  withKey n m := { m with number := n }
  key_withKey := fun _ _ => rfl

structure World where
  source : FaxSource
  mailbox : Table Message
  faxes : Table Fax

/-- `imap.search(['NOT', 'FLAGGED'])`. -/
def search (b : Table Message) : List Nat :=
  (b.rows.filter fun m => !m.flagged).map Message.number

/-- `imap.store(message_id, "+FLAGS", [:Flagged])`. -/
def store (b : Table Message) (n : Nat) : Table Message :=
  b.update n (fun m => { m with flagged := true }) (fun _ => rfl)

/-! ## What can go wrong -/

/-- The exceptions the loop tells apart. -/
inductive Failure where
  | imageMagickError
  | other
  deriving DecidableEq, Repr

inductive Bucket where
  | main
  | preview
  | thumb
  deriving DecidableEq, Repr

/-- The statements of the loop that may raise. -/
inductive Statement where
  | fetch
  | parse
  | save
  | writePdf
  | updatePath
  | saveObjectId
  | upload (b : Bucket)
  | refetchToken (b : Bucket)
  | readImages
  | writeCorrupt
  | rewriteCorrupt
  | writePreview
  | writeThumbnail
  | notify
  | store
  | logFlagged
  deriving DecidableEq, Repr

/-- The statements around the loop that may raise. -/
inductive Closing where
  | openLog
  | search
  | saveSource
  | logout
  | disconnect
  | notify
  deriving DecidableEq, Repr

/-- How the statements of one run end; `none` is to go through. -/
structure Outcomes where
  login : Bool
  result : Nat → Statement → Option Failure
  closing : Closing → Option Failure
  /-- `list[0] == nil`. -/
  emptyImage : Nat → Bool
  /-- The random number for a fax. -/
  random : Nat → Nat

/-- `Rails.env`. -/
inductive Environment where
  | production
  | development
  | test
  deriving DecidableEq, Repr

/-- `Rails.env.development? or Rails.env.test?`. -/
def Environment.fetchesOne : Environment → Bool
  | .production => false
  | .development => true
  | .test => true

/-! ## One message -/

abbrev Job (α : Type) := Raising World Failure α

def check : Option Failure → Job PUnit
  | none => pure ⟨⟩
  | some f => throw f

section
variable (env : Environment) (o : Outcomes)

/-- A statement of the loop that writes nothing the model keeps. -/
def call (n : Nat) (s : Statement) : Job PUnit := check (o.result n s)

/-- An upload; whatever it raises, the token is fetched again. -/
def upload (n : Nat) (b : Bucket) : Job PUnit :=
  tryCatch (call o n (.upload b)) fun _ => call o n (.refetchToken b)

/-- The preview and the thumbnail. -/
def writeImages (n : Nat) : Job PUnit :=
  tryCatch
    (do
      call o n .readImages
      if o.emptyImage n then call o n .writeCorrupt
      else do
        call o n .writePreview
        upload o n .preview
        call o n .writeThumbnail
        upload o n .thumb)
    fun
      | .imageMagickError => call o n .rewriteCorrupt
      | .other => throw .other

/-- The path of the file, under `Rails.root`. -/
def pdfPath (id : Nat) : String := "faxes/" ++ toString id ++ ".pdf"

/-- Change the row that was just saved. -/
def updateFax (w : World) (id : Nat) (f : Fax → Fax) (hf : ∀ r, (f r).id = r.id) : World :=
  { w with faxes := w.faxes.update id f hf }

/-- `imap.fetch(message_id, 'RFC822')[0]`: there is no first of nothing. -/
def fetchMessage (n : Nat) : Job Message := do
  call o n .fetch
  let w ← get
  match w.mailbox.find? n with
  | none => throw .other
  | some m => pure m

/-- `Fax.new`, with the sender. -/
def newFax (w : World) (n : Nat) (e : Envelope) : Fax where
  id := 0
  sourceId := some w.source.id
  messageId := some n
  receivedAt := e.date
  senderFaxNumber := deduceSenderFaxNumberUsingEnvelope e
  path := none
  objectId := none

/-- A fax is saved, written out, and its message flagged. -/
def fileMessage (n : Nat) (e : Envelope) : Job PUnit := do
  call o n .save
  let w ← get
  let id := w.faxes.nextKey
  modify fun w => { w with faxes := w.faxes.insert (newFax w n e) }
  call o n .writePdf
  call o n .updatePath
  modify fun w => updateFax w id (fun r => { r with path := some (pdfPath id) }) fun _ => rfl
  call o n .saveObjectId
  modify fun w => updateFax w id
    (fun r => { r with objectId := some (toString (o.random n) ++ toString id) }) fun _ => rfl
  upload o n .main
  writeImages o n
  call o n .notify
  call o n .store
  modify fun w => { w with mailbox := store w.mailbox n }
  call o n .logFlagged

/-- The body of the loop. The result is whether the loop is left. -/
def retrieveMessage (n : Nat) : Job Bool := do
  let m ← fetchMessage o n
  call o n .parse
  if !validSenderFaxNumber (deduceSenderFaxNumberUsingEnvelope m.envelope) then pure false
  else if (m.envelope.attachments.getD []).isEmpty then pure false
  else do
    fileMessage o n m.envelope
    pure env.fetchesOne

/-! ## One run -/

/-- The loop; its result is `last_scanned_message_no`. -/
def scan : List Nat → Nat → Job Nat
  | [], last => pure last
  | n :: ns, last => do
      let w ← get
      if (n : Int) < w.source.lastScannedId then scan ns last
      else do
        let leave ← retrieveMessage env o n
        if leave then pure n else scan ns n

/-- The scan position is saved when it moved up. -/
def saveLastScanned (last : Nat) : Job PUnit := do
  let w ← get
  if (last : Int) > w.source.lastScannedId then do
    check (o.closing .saveSource)
    modify fun w => { w with source := { w.source with lastScannedId := last } }
  else pure ⟨⟩

/-- What follows the loop. -/
def closeMailbox : Job PUnit := do
  check (o.closing .logout)
  check (o.closing .disconnect)
  check (o.closing .notify)

/-- `retrieve!`. -/
def retrieve : Job PUnit :=
  if !o.login then pure ⟨⟩
  else do
    check (o.closing .openLog)
    check (o.closing .search)
    let w ← get
    let last ← scan env o (search w.mailbox) 0
    saveLastScanned o last
    closeMailbox o

/-- The worker's lock. -/
def World.setLock (w : World) (flag : Int) : World :=
  { w with source := { w.source with lockFlag := flag } }

/-- `FaxFetchWorker#perform`, for one source: a run that raises keeps
the lock. -/
def perform (w : World) : World :=
  if w.source.lockFlag = 0 then
    match exec (retrieve env o) (w.setLock 1) with
    | (.ok _, w') => w'.setLock 0
    | (.error _, w') => w'
  else w

end

/-! ## Histories -/

/-- A message arrives, unflagged; `gap` numbers are passed over. -/
def World.arrive (w : World) (gap : Nat) (e : Envelope) : World :=
  { w with
    mailbox := (w.mailbox.skip gap).insert { number := 0, envelope := e, flagged := false } }

inductive Event where
  | arrive (gap : Nat) (e : Envelope)
  /-- `retrieve!`, called from the administration. -/
  | retrieve (o : Outcomes)
  /-- The worker comes by. -/
  | perform (o : Outcomes)

def World.step (env : Environment) (w : World) : Event → World
  | .arrive gap e => w.arrive gap e
  | .retrieve o => (exec (retrieve env o) w).2
  | .perform o => perform env o w

end HomeWarranty.Faxes
