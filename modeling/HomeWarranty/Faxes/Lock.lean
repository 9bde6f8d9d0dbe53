/-
HomeWarranty.Faxes.Lock — `lock_flag`, the lock of a fax source, under
jobs and requests that run at the same time.

A job loads all sources, and for each one whose `lock_flag` WAS 0 when
they were loaded it saves the flag 1, calls `retrieve!` and saves the
flag 0. A request from the administration calls `retrieve!` on one
source and does not look at the flag. `faxStep` cuts both at the points
where another process may come in; `performEach` is a job with nothing
in between, and `alone_job` says that it is the same program.

* `exclusive_retrieval` — at most one `retrieve!` runs on a source, in
  every schedule in which a source that is taken is free: its STORED
  flag is 0, and no process has taken it without having said so there.
* `locks_released_iff` — over any sequence of jobs, a source is unlocked
  again after each of them exactly when none of its retrievals raises.
  The save of the flag 0 stands in the same block as `retrieve!`, so an
  exception passes over it, and no later job takes the source.

The one source of `perform` and its mailbox are in `Faxes.Source`;
`perform_lockFlag` says that the lock there is the lock here.
-/
import HomeWarranty.Lib.Interleave
import HomeWarranty.Ruby.Column
import HomeWarranty.Faxes.Retrieval

namespace HomeWarranty.Faxes

open Lib Ruby

/-! ## The table of sources -/

structure SourceRow where
  id : Nat
  name : Option String
  address : Option String
  number : Option String
  key : Option String
  lockFlag : Option Int
  deriving DecidableEq, Repr

instance : Record SourceRow where
  key := SourceRow.id
  withKey n s := { s with id := n }
  key_withKey := fun _ _ => rfl

/-- `validates_presence_of :key, :address, :number, :name`. -/
def SourceRow.valid (s : SourceRow) : Bool :=
  presentOpt s.key && presentOpt s.address && presentOpt s.number && presentOpt s.name

def SourceRow.setLock (flag : Int) (s : SourceRow) : SourceRow :=
  { s with lockFlag := some flag }

/-- `source.lock_flag = flag; source.save`: nothing is written when the
validations fail. -/
def saveLock (t : Table SourceRow) (source : SourceRow) (flag : Int) : Table SourceRow :=
  if source.valid then t.update source.id (SourceRow.setLock flag) (fun _ => rfl) else t

/-- The flag a source has in the database. -/
def flagOf (t : Table SourceRow) (id : Nat) : Option (Option Int) :=
  (t.find? id).map SourceRow.lockFlag

theorem find?_saveLock (t : Table SourceRow) (source : SourceRow) (flag : Int) (id : Nat) :
    (saveLock t source flag).find? id
      = if source.valid = true ∧ id = source.id then
          (t.find? id).map (SourceRow.setLock flag)
        else t.find? id := by
  unfold saveLock
  cases source.valid with
  | false => simp
  | true =>
      simp only [if_true, true_and]
      exact Table.find?_update t source.id id

theorem flagOf_saveLock_self {t : Table SourceRow} {source : SourceRow} (flag : Int)
    (hv : source.valid = true) (hin : flagOf t source.id ≠ none) :
    flagOf (saveLock t source flag) source.id = some (some flag) := by
  unfold flagOf at hin ⊢
  rw [find?_saveLock, if_pos ⟨hv, rfl⟩]
  cases h : t.find? source.id with
  | none => simp [h] at hin
  | some r => rfl

theorem flagOf_saveLock_ne (t : Table SourceRow) {source : SourceRow} (flag : Int) {id : Nat}
    (h : id ≠ source.id) : flagOf (saveLock t source flag) id = flagOf t id := by
  unfold flagOf
  rw [find?_saveLock, if_neg (fun hc => h hc.2)]

theorem flagOf_saveLock_ne_none {t : Table SourceRow} (source : SourceRow) (flag : Int)
    {id : Nat} (h : flagOf t id ≠ none) : flagOf (saveLock t source flag) id ≠ none := by
  unfold flagOf at h ⊢
  rw [find?_saveLock]
  split
  · simpa using h
  · exact h

/-! ## One job after the other -/

/-- How the block around `retrieve!` ends for a source. -/
inductive Ending where
  | returned
  /-- `return` after a failed login. -/
  | badCredentials
  | raised
  deriving DecidableEq, Repr

/-- The body of the loop, for a source as it was loaded. -/
def performOne (endings : Nat → Ending) (t : Table SourceRow) (source : SourceRow) :
    Table SourceRow :=
  if source.lockFlag = some 0 then
    match endings source.id with
    | .raised => saveLock t source 1
    | .returned => saveLock (saveLock t source 1) source 0
    | .badCredentials => saveLock (saveLock t source 1) source 0
  else t

/-- `FaxFetchWorker#perform`, over all sources. -/
def performEach (t : Table SourceRow) (endings : Nat → Ending) : Table SourceRow :=
  t.rows.foldl (performOne endings) t

/-- A job takes the source: its flag is 0 and can be saved. -/
def SourceRow.lockable (s : SourceRow) : Bool := s.lockFlag == some 0 && s.valid

/-- What a job leaves of a source. -/
def SourceRow.afterJob (endings : Nat → Ending) (s : SourceRow) : SourceRow :=
  if s.lockable = true ∧ endings s.id = .raised then s.setLock 1 else s

theorem find?_performOne_ne (endings : Nat → Ending) (t : Table SourceRow) {source : SourceRow}
    {id : Nat} (h : id ≠ source.id) : (performOne endings t source).find? id = t.find? id := by
  have hsave : ∀ (t : Table SourceRow) (flag : Int),
      (saveLock t source flag).find? id = t.find? id := by
    intro t flag
    rw [find?_saveLock, if_neg (fun hc => h hc.2)]
  unfold performOne
  split
  · split
    · exact hsave t 1
    · rw [hsave, hsave]
    · rw [hsave, hsave]
  · rfl

/-- A flag that was 0 and is written back is as it was. -/
theorem SourceRow.setLock_setLock_zero {s : SourceRow} (h : s.lockFlag = some 0) :
    (s.setLock 1).setLock 0 = s := by
  show { s with lockFlag := some 0 } = s
  rw [← h]

theorem find?_performOne_self (endings : Nat → Ending) {t : Table SourceRow} {source : SourceRow}
    (h : t.find? source.id = some source) :
    (performOne endings t source).find? source.id = some (source.afterJob endings) := by
  unfold performOne SourceRow.afterJob SourceRow.lockable
  by_cases hflag : source.lockFlag = some 0
  · cases hv : source.valid with
    | false =>
        -- neither save is written
        have hsave : ∀ (t : Table SourceRow) (flag : Int), saveLock t source flag = t := by
          intro t flag
          simp [saveLock, hv]
        cases he : endings source.id <;> simp [hflag, hsave, h]
    | true =>
        have hback := SourceRow.setLock_setLock_zero hflag
        cases he : endings source.id <;> simp [hflag, find?_saveLock, hv, h, hback]
  · simp [hflag, h]

theorem find?_foldl_performOne (endings : Nat → Ending) (id : Nat) (sources : List SourceRow)
    (hpw : sources.Pairwise fun a b => a.id < b.id) (t : Table SourceRow)
    (h : ∀ s ∈ sources, t.find? s.id = some s) :
    (sources.foldl (performOne endings) t).find? id
      = if ∃ s ∈ sources, s.id = id then (t.find? id).map (SourceRow.afterJob endings)
        else t.find? id := by
  induction sources generalizing t with
  | nil => simp
  | cons s sources ih =>
      obtain ⟨hlt, hrest⟩ := List.pairwise_cons.mp hpw
      have hne : ∀ r ∈ sources, r.id ≠ s.id := fun r hr => Nat.ne_of_gt (hlt r hr)
      -- the sources after this one are still as they were loaded
      have hloaded : ∀ r ∈ sources, (performOne endings t s).find? r.id = some r := by
        intro r hr
        rw [find?_performOne_ne endings t (hne r hr)]
        exact h r (List.mem_cons_of_mem s hr)
      rw [List.foldl_cons, ih hrest _ hloaded]
      by_cases hid : id = s.id
      · subst hid
        have hs := h s (by simp)
        have hno : ¬ ∃ r ∈ sources, r.id = s.id := fun ⟨r, hr, e⟩ => hne r hr e
        rw [if_neg hno, if_pos ⟨s, by simp, rfl⟩, find?_performOne_self endings hs, hs]
        rfl
      · have hid' : ¬ s.id = id := fun e => hid e.symm
        rw [find?_performOne_ne endings t hid]
        simp only [List.mem_cons, exists_eq_or_imp, hid', false_or]

/-- The spec of a job: what each source is afterwards. -/
theorem find?_performEach (t : Table SourceRow) (endings : Nat → Ending) (id : Nat) :
    (performEach t endings).find? id = (t.find? id).map (SourceRow.afterJob endings) := by
  unfold performEach
  rw [find?_foldl_performOne endings id t.rows t.increasing t fun s hs => t.find?_key hs]
  split
  · rfl
  · rename_i hno
    have hnone : t.find? id = none := by
      refine List.find?_eq_none.mpr fun s hs he => ?_
      exact hno ⟨s, hs, eq_of_beq he⟩
    rw [hnone]
    rfl

/-- Over a sequence of jobs each source goes its own way. -/
theorem find?_run_performEach (t : Table SourceRow) (jobs : List (Nat → Ending)) (id : Nat) :
    (run performEach t jobs).find? id
      = run (fun o endings => o.map (SourceRow.afterJob endings)) (t.find? id) jobs := by
  induction jobs generalizing t with
  | nil => rfl
  | cons endings jobs ih => rw [run_cons, run_cons, ih, find?_performEach]

/-- A source that is locked stays as it is. -/
theorem run_afterJob_of_not_lockable {s : SourceRow} (h : s.lockable = false)
    (jobs : List (Nat → Ending)) :
    run (fun o endings => o.map (SourceRow.afterJob endings)) (some s) jobs = some s := by
  induction jobs with
  | nil => rfl
  | cons endings jobs ih =>
      have hsame : s.afterJob endings = s := by simp [SourceRow.afterJob, h]
      rw [run_cons, Option.map_some, hsame, ih]

theorem run_afterJob {s : SourceRow} (h : s.lockable = true) (jobs : List (Nat → Ending)) :
    run (fun o endings => o.map (SourceRow.afterJob endings)) (some s) jobs
      = some (if ∃ endings ∈ jobs, endings s.id = .raised then s.setLock 1 else s) := by
  induction jobs with
  | nil => simp
  | cons endings jobs ih =>
      rw [run_cons, Option.map_some]
      by_cases hr : endings s.id = .raised
      · -- the first exception decides
        have hlocked : (s.setLock 1).lockable = false := rfl
        have hstep : s.afterJob endings = s.setLock 1 := by simp [SourceRow.afterJob, h, hr]
        rw [hstep, run_afterJob_of_not_lockable hlocked, if_pos ⟨endings, by simp, hr⟩]
      · have hstep : s.afterJob endings = s := by simp [SourceRow.afterJob, hr]
        rw [hstep, ih]
        simp only [List.mem_cons, exists_eq_or_imp, hr, false_or]

theorem flagOf_run_performEach {t : Table SourceRow} {s : SourceRow} (hs : s ∈ t.rows)
    (h : s.lockable = true) (jobs : List (Nat → Ending)) :
    flagOf (run performEach t jobs) s.id
      = some (some (if ∃ endings ∈ jobs, endings s.id = .raised then 1 else 0)) := by
  have hflag : s.lockFlag = some 0 := by
    simp only [SourceRow.lockable, Bool.and_eq_true, beq_iff_eq] at h
    exact h.1
  have hfind : t.find? s.id = some s := t.find?_key hs
  unfold flagOf
  rw [find?_run_performEach, hfind, run_afterJob h]
  split
  · rfl
  · rw [Option.map_some, hflag]

/-- Every source that was free to be locked in `t` is unlocked in `t'`. -/
def Released (t t' : Table SourceRow) : Prop :=
  ∀ s ∈ t.rows, s.lockable = true → flagOf t' s.id = some (some 0)

/-- **Release**: over every sequence of jobs, the sources are unlocked
after each job exactly when no job raises on one of them. -/
theorem locks_released_iff (t : Table SourceRow) (jobs : List (Nat → Ending)) :
    (∀ k, Released t (run performEach t (jobs.take k))) ↔
      ∀ endings ∈ jobs, ∀ s ∈ t.rows, s.lockable = true → endings s.id ≠ .raised := by
  constructor
  · intro hall endings he s hs hlock hr
    have hfree := hall jobs.length s hs hlock
    rw [List.take_length, flagOf_run_performEach hs hlock jobs, if_pos ⟨endings, he, hr⟩] at hfree
    cases hfree
  · intro hnone k s hs hlock
    have hno : ¬ ∃ endings ∈ jobs.take k, endings s.id = .raised := by
      rintro ⟨endings, he, hr⟩
      exact hnone endings (List.mem_of_mem_take he) s hs hlock hr
    rw [flagOf_run_performEach hs hlock, if_neg hno]

/-- The two sources the application starts with. -/
def defaultSources : Table SourceRow :=
  .ofRows [
    { id := 0, name := some "customer source", address := some "update@this.com",
      number := some "00000", key := some "customers", lockFlag := some 0 },
    { id := 0, name := some "contractor source", address := some "update@this.com",
      number := some "00000", key := some "contractors", lockFlag := some 0 }]

/-- One exception, and the source is locked after every number of later
jobs. -/
theorem locked_for_good :
    ¬ Released defaultSources (performEach defaultSources fun id =>
        if id = 1 then .raised else .returned) ∧
      ∀ jobs, flagOf (run performEach (performEach defaultSources fun id =>
        if id = 1 then .raised else .returned) jobs) 1 = some (some 1) := by
  have hmem : defaultSources.rows[0] ∈ defaultSources.rows := List.getElem_mem _
  have hall : ∀ jobs, flagOf (run performEach (performEach defaultSources fun id =>
      if id = 1 then .raised else .returned) jobs) 1 = some (some 1) := by
    intro jobs
    have h := flagOf_run_performEach hmem (by decide)
      ((fun id => if id = 1 then Ending.raised else .returned) :: jobs)
    rw [if_pos ⟨_, List.mem_cons_self, rfl⟩] at h
    exact h
  refine ⟨fun h => ?_, hall⟩
  have hfree := h _ hmem (by decide)
  have hid : defaultSources.rows[0].id = 1 := rfl
  have hlocked := hall []
  rw [run_nil] at hlocked
  rw [hid, hlocked] at hfree
  cases hfree

/-! ## The lock and `retrieve!` -/

section
variable (env : Environment) (o : Outcomes)

/-- How `retrieve!` ends for the source of a world. -/
def endingOf (w : World) : Ending :=
  if !o.login then .badCredentials
  else
    match (exec (retrieve env o) (w.setLock 1)).1 with
    | .ok _ => .returned
    | .error _ => .raised

/-- The program does not write the lock. -/
def KeepsLock {α : Type} (flag : Int) (m : Job α) : Prop :=
  Keeps (fun w : World => w.source.lockFlag = flag) m

theorem keepsLock_call (flag : Int) (n : Nat) (s : Statement) : KeepsLock flag (call o n s) :=
  (idle_call o n s).keeps

theorem keepsLock_check (flag : Int) (f : Option Failure) : KeepsLock flag (check f) :=
  (idle_check f).keeps

/-- The writes of `fileMessage` are to the faxes and to the mailbox. -/
theorem keepsLock_modify (flag : Int) {f : World → World}
    (hf : ∀ w, (f w).source.lockFlag = w.source.lockFlag) :
    KeepsLock flag (modify f : Job PUnit) :=
  keeps_modify fun w h => (hf w).trans h

theorem keepsLock_fileMessage (flag : Int) (n : Nat) (e : Envelope) :
    KeepsLock flag (fileMessage o n e) := by
  refine (keepsLock_call o flag n .save).bind fun _ => keeps_get_bind fun w => ?_
  refine (keepsLock_modify flag (by intro w; rfl)).bind fun _ => ?_
  refine (keepsLock_call o flag n .writePdf).bind fun _ => ?_
  refine (keepsLock_call o flag n .updatePath).bind fun _ => ?_
  refine (keepsLock_modify flag (by intro w; rfl)).bind fun _ => ?_
  refine (keepsLock_call o flag n .saveObjectId).bind fun _ => ?_
  refine (keepsLock_modify flag (by intro w; rfl)).bind fun _ => ?_
  refine (idle_upload o n .main).keeps.bind fun _ => ?_
  refine (idle_writeImages o n).keeps.bind fun _ => ?_
  refine (keepsLock_call o flag n .notify).bind fun _ => ?_
  refine (keepsLock_call o flag n .store).bind fun _ => ?_
  refine (keepsLock_modify flag (by intro w; rfl)).bind fun _ => ?_
  exact keepsLock_call o flag n .logFlagged

theorem keepsLock_retrieveMessage (flag : Int) (n : Nat) :
    KeepsLock flag (retrieveMessage env o n) := by
  have hfetch : KeepsLock flag (fetchMessage o n) := by
    refine (keepsLock_call o flag n .fetch).bind fun _ => keeps_get_bind fun w => ?_
    cases w.mailbox.find? n with
    | none => exact keeps_throw _
    | some m => exact keeps_pure m
  refine hfetch.bind fun m => (keepsLock_call o flag n .parse).bind fun _ => ?_
  refine (keeps_pure _).ite ((keeps_pure _).ite ?_)
  exact (keepsLock_fileMessage o flag n m.envelope).bind fun _ => keeps_pure _

theorem keepsLock_scan (flag : Int) (ns : List Nat) (last : Nat) :
    KeepsLock flag (scan env o ns last) := by
  induction ns generalizing last with
  | nil => exact keeps_pure last
  | cons n ns ih =>
      refine keeps_get_bind fun w => (ih last).ite ?_
      exact (keepsLock_retrieveMessage env o flag n).bind fun leave => (keeps_pure n).ite (ih n)

/-- `retrieve!` writes the scan position of the source, never its lock. -/
theorem keepsLock_retrieve (flag : Int) : KeepsLock flag (retrieve env o) := by
  have hsave : ∀ last, KeepsLock flag (saveLastScanned o last) := by
    intro last
    refine keeps_get_bind fun w => Keeps.ite ?_ (keeps_pure _)
    exact (keepsLock_check flag _).bind fun _ => keepsLock_modify flag (by intro w; rfl)
  have hclose : KeepsLock flag (closeMailbox o) :=
    (keepsLock_check flag _).bind fun _ => (keepsLock_check flag _).bind fun _ =>
      keepsLock_check flag _
  refine (keeps_pure _).ite ?_
  refine (keepsLock_check flag _).bind fun _ => (keepsLock_check flag _).bind fun _ => ?_
  refine keeps_get_bind fun w => (keepsLock_scan env o flag _ 0).bind fun last => ?_
  exact (hsave last).bind fun _ => hclose

/-- The worker with one source does to its lock what a job does to the
row of the source. -/
theorem perform_lockFlag {w : World} {s : SourceRow} (hv : s.valid = true)
    (hs : s.lockFlag = some w.source.lockFlag) :
    (s.afterJob fun _ => endingOf env o w).lockFlag
      = some (perform env o w).source.lockFlag := by
  unfold SourceRow.afterJob SourceRow.lockable perform endingOf
  by_cases hlock : w.source.lockFlag = 0
  · have hkeep := keepsLock_retrieve env o 1 (w.setLock 1) rfl
    cases hl : o.login with
    | false =>
        have hret : exec (retrieve env o) (w.setLock 1) = (.ok ⟨⟩, w.setLock 1) := by
          simp [retrieve, hl]
        simp only [hlock, if_true, hret]
        simp [hs, hlock, World.setLock]
    | true =>
        rcases hx : exec (retrieve env o) (w.setLock 1) with ⟨r, w'⟩
        rw [hx] at hkeep
        cases r with
        | ok u => simp [hs, hlock, World.setLock]
        | error e =>
            have hone : w'.source.lockFlag = 1 := hkeep
            simp [hs, hlock, hv, hone, SourceRow.setLock]
  · simp [hs, hlock]

end

/-! ## Jobs and requests at the same time -/

/-- Where a job or a request stands. -/
inductive FaxProc where
  /-- A job that has not begun. -/
  | job (endings : Nat → Ending)
  /-- Before the test of the next source. -/
  | each (endings : Nat → Ending) (sources : List SourceRow)
  /-- Between the test and the save of the flag 1. -/
  | seizing (endings : Nat → Ending) (source : SourceRow) (rest : List SourceRow)
  | seized (endings : Nat → Ending) (source : SourceRow) (rest : List SourceRow)
  /-- In `retrieve!`. -/
  | retrieving (endings : Nat → Ending) (source : SourceRow) (rest : List SourceRow)
  /-- Before the save of the flag 0. -/
  | releasing (endings : Nat → Ending) (source : SourceRow) (rest : List SourceRow)
  /-- A request of the administration, for `FaxSource.customers` or
  `FaxSource.contractors`. -/
  | request (key : String)
  | found (source : SourceRow)
  /-- In `retrieve!`, called by the request. -/
  | serving (source : SourceRow)
  | done

/-- One step of a job or a request; `fold` is the collation of `key`. -/
def faxStep (fold : Char → Char) (t : Table SourceRow) :
    FaxProc → Option (Table SourceRow × FaxProc)
  | .job endings => some (t, .each endings t.rows)
  | .each _ [] => none
  | .each endings (source :: rest) =>
      if source.lockFlag = some 0 then some (t, .seizing endings source rest)
      else some (t, .each endings rest)
  | .seizing endings source rest => some (saveLock t source 1, .seized endings source rest)
  | .seized endings source rest => some (t, .retrieving endings source rest)
  | .retrieving endings source rest =>
      match endings source.id with
      | .raised => some (t, .each endings rest)
      | .returned => some (t, .releasing endings source rest)
      | .badCredentials => some (t, .releasing endings source rest)
  | .releasing endings source rest => some (saveLock t source 0, .each endings rest)
  | .request key =>
      match t.firstWhere fun s => sqlEq fold s.key (some key) with
      | none => some (t, .done)
      | some source => some (t, .found source)
  | .found source => some (t, .serving source)
  | .serving _ => some (t, .done)
  | .done => none

theorem alone_each (fold : Char → Char) (endings : Nat → Ending) (sources : List SourceRow) :
    ∀ t, ∃ k, alone (faxStep fold) k t (.each endings sources)
      = (sources.foldl (performOne endings) t, .each endings []) := by
  induction sources with
  | nil => intro t; exact ⟨0, rfl⟩
  | cons source rest ih =>
      intro t
      obtain ⟨k, hk⟩ := ih (performOne endings t source)
      rw [List.foldl_cons]
      by_cases hflag : source.lockFlag = some 0
      · cases he : endings source.id with
        | raised =>
            refine ⟨k + 4, ?_⟩
            rw [← hk]
            simp [alone, faxStep, performOne, hflag, he]
        | returned =>
            refine ⟨k + 5, ?_⟩
            rw [← hk]
            simp [alone, faxStep, performOne, hflag, he]
        | badCredentials =>
            refine ⟨k + 5, ?_⟩
            rw [← hk]
            simp [alone, faxStep, performOne, hflag, he]
      · refine ⟨k + 1, ?_⟩
        rw [← hk]
        simp [alone, faxStep, performOne, hflag]

/-- A job that nothing interrupts is `performEach`. -/
theorem alone_job (fold : Char → Char) (endings : Nat → Ending) (t : Table SourceRow) :
    ∃ k, alone (faxStep fold) k t (.job endings) = (performEach t endings, .each endings []) := by
  obtain ⟨k, hk⟩ := alone_each fold endings t.rows t
  exact ⟨k + 1, hk⟩

/-! ## What a process has taken -/

/-- The source `retrieve!` runs on. -/
def FaxProc.retrieves : FaxProc → Option Nat
  | .retrieving _ source _ => some source.id
  | .serving source => some source.id
  | _ => none

/-- The source a job has locked in the database. -/
def FaxProc.locked : FaxProc → Option Nat
  | .seized _ source _ => some source.id
  | .retrieving _ source _ => some source.id
  | .releasing _ source _ => some source.id
  | _ => none

/-- The source a process has taken without the flag in the database
saying so. -/
def FaxProc.unmarked : FaxProc → Option Nat
  | .seizing _ source _ => some source.id
  | .serving source => some source.id
  | _ => none

def FaxProc.holds (p : FaxProc) : Option Nat := p.locked.or p.unmarked

/-- The source a job takes in its next step: the flag that was loaded
is 0. -/
def FaxProc.testing : FaxProc → Option SourceRow
  | .each _ (source :: _) => if source.lockFlag = some 0 then some source else none
  | _ => none

/-- The source a request calls `retrieve!` on in its next step. -/
def FaxProc.starting : FaxProc → Option SourceRow
  | .found source => some source
  | _ => none

/-- The stored flag of the source is 0, and no process has taken the
source behind its back. -/
def FreeSource (sys : Sys (Table SourceRow) FaxProc) (id : Nat) : Prop :=
  flagOf sys.shared id = some (some 0) ∧ ∀ q ∈ sys.procs, q.unmarked ≠ some id

instance (sys : Sys (Table SourceRow) FaxProc) (id : Nat) : Decidable (FreeSource sys id) :=
  inferInstanceAs (Decidable (_ ∧ _))

/-- The step of a process takes only a free source, and a job only one
whose flag can be saved. -/
def FaxProc.TakesFree (sys : Sys (Table SourceRow) FaxProc) (p : FaxProc) : Prop :=
  (∀ s ∈ p.testing, s.valid = true ∧ FreeSource sys s.id) ∧
    ∀ s ∈ p.starting, FreeSource sys s.id

instance (sys : Sys (Table SourceRow) FaxProc) (p : FaxProc) : Decidable (p.TakesFree sys) :=
  inferInstanceAs (Decidable (_ ∧ _))

def TakesFreeAt (sys : Sys (Table SourceRow) FaxProc) (i : Nat) : Prop :=
  ∀ p ∈ sys.procs[i]?, p.TakesFree sys

instance (sys : Sys (Table SourceRow) FaxProc) (i : Nat) : Decidable (TakesFreeAt sys i) :=
  inferInstanceAs (Decidable (∀ p ∈ sys.procs[i]?, p.TakesFree sys))

/-! ## Exclusion -/

/-- What a step can do: nothing that matters to the locks, take a source
(as a job or as a request), mark it, or unmark it. -/
theorem faxStep_cases {fold : Char → Char} {t t' : Table SourceRow} {p p' : FaxProc}
    (h : faxStep fold t p = some (t', p')) :
    (t' = t ∧ p'.unmarked = none ∧ (p'.locked = none ∨ p'.locked = p.locked)) ∨
    (∃ e s rest, t' = t ∧ p.testing = some s ∧ p' = .seizing e s rest) ∨
    (∃ s, t' = t ∧ p.starting = some s ∧ p' = .serving s) ∨
    (∃ e s rest, p = .seizing e s rest ∧ t' = saveLock t s 1 ∧ p' = .seized e s rest) ∨
    ∃ e s rest, p = .releasing e s rest ∧ t' = saveLock t s 0 ∧ p' = .each e rest := by
  cases p with
  | job e =>
      cases h
      exact Or.inl ⟨rfl, rfl, Or.inl rfl⟩
  | each e sources =>
      cases sources with
      | nil => cases h
      | cons s rest =>
          simp only [faxStep] at h
          split at h
          · rename_i hflag
            cases h
            exact Or.inr (Or.inl ⟨e, s, rest, rfl, by simp [FaxProc.testing, hflag], rfl⟩)
          · cases h
            exact Or.inl ⟨rfl, rfl, Or.inl rfl⟩
  | seizing e s rest =>
      cases h
      exact Or.inr (Or.inr (Or.inr (Or.inl ⟨e, s, rest, rfl, rfl, rfl⟩)))
  | seized e s rest =>
      cases h
      exact Or.inl ⟨rfl, rfl, Or.inr rfl⟩
  | retrieving e s rest =>
      simp only [faxStep] at h
      cases he : e s.id with
      | raised =>
          rw [he] at h
          cases h
          exact Or.inl ⟨rfl, rfl, Or.inl rfl⟩
      | returned =>
          rw [he] at h
          cases h
          exact Or.inl ⟨rfl, rfl, Or.inr rfl⟩
      | badCredentials =>
          rw [he] at h
          cases h
          exact Or.inl ⟨rfl, rfl, Or.inr rfl⟩
  | releasing e s rest =>
      cases h
      exact Or.inr (Or.inr (Or.inr (Or.inr ⟨e, s, rest, rfl, rfl, rfl⟩)))
  | request key =>
      simp only [faxStep] at h
      split at h
      · cases h
        exact Or.inl ⟨rfl, rfl, Or.inl rfl⟩
      · cases h
        exact Or.inl ⟨rfl, rfl, Or.inl rfl⟩
  | found s =>
      cases h
      exact Or.inr (Or.inr (Or.inl ⟨s, rfl, rfl, rfl⟩))
  | serving s =>
      cases h
      exact Or.inl ⟨rfl, rfl, Or.inl rfl⟩
  | done => cases h

/-- The invariant: a source is held by one process at a time, the flag
of a source that a job has locked is 1, and a job that is about to save
the flag can do so. -/
structure LockInv (sys : Sys (Table SourceRow) FaxProc) : Prop where
  exclusive : Exclusive FaxProc.holds sys.procs
  marked : ∀ p ∈ sys.procs, ∀ id, p.locked = some id → flagOf sys.shared id = some (some 1)
  savable : ∀ p ∈ sys.procs, ∀ e s rest, p = .seizing e s rest →
    s.valid = true ∧ flagOf sys.shared s.id ≠ none

/-- Nobody holds a source that is free. -/
theorem LockInv.not_held {sys : Sys (Table SourceRow) FaxProc} (h : LockInv sys) {id : Nat}
    (hfree : FreeSource sys id) : ∀ q ∈ sys.procs, q.holds ≠ some id := by
  intro q hq hheld
  rcases Option.or_eq_some_iff.mp hheld with hl | ⟨_, hu⟩
  · have hone := h.marked q hq id hl
    rw [hfree.1] at hone
    cases hone
  · exact hfree.2 q hq hu

/-- A job that has locked a source and a process at another place do not
hold the same one. -/
theorem LockInv.apart {sys : Sys (Table SourceRow) FaxProc} (h : LockInv sys) {i : Nat}
    {p : FaxProc} (hi : sys.procs[i]? = some p) {id : Nat} (hp : p.holds = some id)
    {j : Nat} {q : FaxProc} (hj : sys.procs[j]? = some q) (hne : j ≠ i) {id' : Nat}
    (hq : q.holds = some id') : id' ≠ id := by
  rintro rfl
  exact hne (h.exclusive j i q p hj hi id' hq hp)

/-- A process takes hold of a source that is free. -/
theorem LockInv.take {sys : Sys (Table SourceRow) FaxProc} (h : LockInv sys) {i : Nat}
    {p p' : FaxProc} (hi : sys.procs[i]? = some p) {id : Nat} (hfree : FreeSource sys id)
    (hholds : p'.holds = some id) (hlocked : p'.locked = none)
    (hsave : ∀ e s rest, p' = .seizing e s rest → s.valid = true ∧ s.id = id) :
    LockInv { shared := sys.shared, procs := sys.procs.set i p' } where
  exclusive := by
    refine h.exclusive.set hi fun k hk => Or.inr ?_
    rw [hholds] at hk
    cases hk
    exact h.not_held hfree
  marked := by
    intro q hq k hk
    rcases List.mem_or_eq_of_mem_set hq with hq | rfl
    · exact h.marked q hq k hk
    · rw [hlocked] at hk
      cases hk
  savable := by
    intro q hq e s rest hs
    rcases List.mem_or_eq_of_mem_set hq with hq | rfl
    · exact h.savable q hq e s rest hs
    · obtain ⟨hv, hid⟩ := hsave e s rest hs
      exact ⟨hv, by rw [hid, hfree.1]; simp⟩

/-- A process that holds a source saves its flag and goes on; the others
do not notice. -/
theorem LockInv.save {sys : Sys (Table SourceRow) FaxProc} (h : LockInv sys) {i : Nat}
    {p p' : FaxProc} (hi : sys.procs[i]? = some p) {source : SourceRow} {flag : Int}
    (hp : p.holds = some source.id) (hholds : ∀ k, p'.holds = some k → p.holds = some k)
    (hlocked : ∀ k, p'.locked = some k →
      flagOf (saveLock sys.shared source flag) k = some (some 1))
    (hsave : ∀ e s rest, p' ≠ .seizing e s rest) :
    LockInv { shared := saveLock sys.shared source flag, procs := sys.procs.set i p' } where
  exclusive := h.exclusive.set hi fun k hk => Or.inl (hholds k hk)
  marked := by
    intro q hq k hk
    obtain ⟨j, hj⟩ := List.getElem?_of_mem hq
    rcases getElem?_set_cases hj with ⟨rfl, rfl⟩ | ⟨hne, hj'⟩
    · exact hlocked k hk
    · have hheld : q.holds = some k := by simp [FaxProc.holds, hk]
      have hid := h.apart hi hp hj' hne hheld
      show flagOf (saveLock sys.shared source flag) k = some (some 1)
      rw [flagOf_saveLock_ne _ _ hid]
      exact h.marked q (List.mem_of_getElem? hj') k hk
  savable := by
    intro q hq e s rest hs
    rcases List.mem_or_eq_of_mem_set hq with hq | rfl
    · obtain ⟨hv, hin⟩ := h.savable q hq e s rest hs
      exact ⟨hv, flagOf_saveLock_ne_none source flag hin⟩
    · exact absurd hs (hsave e s rest)

/-- The step lemma: a scheduled step that takes only a free source keeps
the invariant. -/
theorem lockInv_step (fold : Char → Char) (sys : Sys (Table SourceRow) FaxProc) (i : Nat)
    (h : LockInv sys) (hok : TakesFreeAt sys i) : LockInv (sys.stepAt (faxStep fold) i) := by
  rcases Sys.stepAt_cases (faxStep fold) sys i with hself | ⟨p, t', p', hi, hs, hstep⟩
  · rw [hself]
    exact h
  obtain ⟨htest, hstart⟩ := hok p hi
  rw [hstep]
  rcases faxStep_cases hs with ⟨rfl, hno, hlocked⟩ | ⟨e, s, rest, rfl, hp, rfl⟩ |
    ⟨s, rfl, hp, rfl⟩ | ⟨e, s, rest, rfl, rfl, rfl⟩ | ⟨e, s, rest, rfl, rfl, rfl⟩
  · have hkept : ∀ k, p'.locked = some k → p.locked = some k := by
      intro k hk
      rcases hlocked with hl | hl
      · rw [hl] at hk
        cases hk
      · exact hl ▸ hk
    refine ⟨h.exclusive.set hi fun k hk => Or.inl ?_, ?_, ?_⟩
    · rw [FaxProc.holds, hno, Option.or_none] at hk
      simp [FaxProc.holds, hkept k hk]
    · intro q hq k hk
      rcases List.mem_or_eq_of_mem_set hq with hq | rfl
      · exact h.marked q hq k hk
      · exact h.marked p (List.mem_of_getElem? hi) k (hkept k hk)
    · intro q hq e s rest hq'
      rcases List.mem_or_eq_of_mem_set hq with hq | rfl
      · exact h.savable q hq e s rest hq'
      · rw [hq'] at hno
        cases hno
  · obtain ⟨hv, hfree⟩ := htest s hp
    refine h.take hi hfree rfl rfl fun e' s' rest' heq => ?_
    cases heq
    exact ⟨hv, rfl⟩
  · exact h.take hi (hstart s hp) rfl rfl fun e' s' rest' heq => by cases heq
  · obtain ⟨hv, hin⟩ := h.savable _ (List.mem_of_getElem? hi) e s rest rfl
    refine h.save hi rfl (fun k hk => hk) (fun k hk => ?_) fun e' s' rest' heq => by cases heq
    cases hk
    exact flagOf_saveLock_self 1 hv hin
  · refine h.save hi rfl (fun k hk => by cases hk) (fun k hk => by cases hk)
      fun e' s' rest' heq => by cases heq

/-- The jobs and requests, none of which has begun. -/
def faxSys (t : Table SourceRow) (jobs : List (Nat → Ending)) (keys : List String) :
    Sys (Table SourceRow) FaxProc :=
  ⟨t, jobs.map FaxProc.job ++ keys.map FaxProc.request⟩

theorem lockInv_faxSys (t : Table SourceRow) (jobs : List (Nat → Ending)) (keys : List String) :
    LockInv (faxSys t jobs keys) := by
  have hbegun : ∀ p ∈ (faxSys t jobs keys).procs,
      (∃ e, p = FaxProc.job e) ∨ ∃ key, p = FaxProc.request key := by
    intro p hp
    simp only [faxSys, List.mem_append, List.mem_map] at hp
    rcases hp with ⟨e, _, rfl⟩ | ⟨key, _, rfl⟩
    · exact Or.inl ⟨e, rfl⟩
    · exact Or.inr ⟨key, rfl⟩
  refine ⟨exclusive_of_none fun p hp => ?_, fun p hp id hl => ?_, fun p hp e s rest hs => ?_⟩
  · rcases hbegun p hp with ⟨e, rfl⟩ | ⟨key, rfl⟩
    · rfl
    · rfl
  · rcases hbegun p hp with ⟨e, rfl⟩ | ⟨key, rfl⟩
    · cases hl
    · cases hl
  · rcases hbegun p hp with ⟨e', rfl⟩ | ⟨key, rfl⟩
    · cases hs
    · cases hs

/-- At most one process is in `retrieve!` on each source. -/
def RetrievesExclusively (sys : Sys (Table SourceRow) FaxProc) : Prop :=
  Exclusive FaxProc.retrieves sys.procs

theorem FaxProc.holds_of_retrieves {p : FaxProc} {id : Nat} (h : p.retrieves = some id) :
    p.holds = some id := by
  cases p with
  | retrieving e s rest => exact h
  | serving s => exact h
  | _ => cases h

/-- **Mutual exclusion**: for every number of jobs and requests and every
schedule in which each step that takes a source takes a free one, at
most one `retrieve!` runs on a source in every state on the way. -/
theorem exclusive_retrieval (fold : Char → Char) (t : Table SourceRow)
    (jobs : List (Nat → Ending)) (keys : List String) (schedule : List Nat)
    (hok : StepsOk (Sys.stepAt (faxStep fold)) TakesFreeAt (faxSys t jobs keys) schedule) :
    ∀ k, RetrievesExclusively ((faxSys t jobs keys).exec (faxStep fold) (schedule.take k)) := by
  intro k i j p q hp hq id hip hiq
  have hinv := run_invariant_of_steps LockInv (lockInv_step fold) _ _ (hok.first k)
    (lockInv_faxSys t jobs keys)
  exact hinv.exclusive i j p q hp hq id (FaxProc.holds_of_retrieves hip)
    (FaxProc.holds_of_retrieves hiq)

/-- A job and a request that do not meet: the request comes for the
contractors' source while the job is at the customers' one. -/
theorem exclusive_retrieval_apart :
    StepsOk (Sys.stepAt (faxStep Char.toLower)) TakesFreeAt
        (faxSys defaultSources [fun _ => .returned] ["contractors"])
        [0, 0, 0, 0, 1, 1, 1, 0, 0, 0, 0, 0, 0, 0] ∧
      ∀ k, RetrievesExclusively
        ((faxSys defaultSources [fun _ => .returned] ["contractors"]).exec
          (faxStep Char.toLower) (List.take k [0, 0, 0, 0, 1, 1, 1, 0, 0, 0, 0, 0, 0, 0])) := by
  have hok : StepsOk (Sys.stepAt (faxStep Char.toLower)) TakesFreeAt
      (faxSys defaultSources [fun _ => .returned] ["contractors"])
      [0, 0, 0, 0, 1, 1, 1, 0, 0, 0, 0, 0, 0, 0] := by
    decide +kernel
  exact ⟨hok, exclusive_retrieval Char.toLower defaultSources _ _ _ hok⟩

/-- Two jobs that both load the sources before either has saved a flag
retrieve from the same source. -/
theorem two_jobs_retrieve_at_once :
    ¬ ∀ (fold : Char → Char) (t : Table SourceRow) (jobs : List (Nat → Ending))
        (keys : List String) (schedule : List Nat),
      RetrievesExclusively ((faxSys t jobs keys).exec (faxStep fold) schedule) := by
  intro hall
  have h := hall Char.toLower defaultSources [fun _ => .returned, fun _ => .returned] []
    [0, 1, 0, 1, 0, 1, 0, 1]
  have h01 : (0 : Nat) = 1 := h 0 1 _ _ rfl rfl 1 rfl rfl
  cases h01

end HomeWarranty.Faxes
