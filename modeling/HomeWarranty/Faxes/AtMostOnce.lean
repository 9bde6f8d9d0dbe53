/-
HomeWarranty.Faxes.AtMostOnce — runs that raise, and are run again.

The row of a message is saved early and its flag is stored late. A run
that stops between the two leaves a row whose message the next run finds
again, and files again. `flagsFollow` says that a run does not stop
there: it follows the loop through the outcomes, as far as the loop gets,
and asks for every row that is saved that everything up to the flag goes
through, with the exceptions that are rescued taken into account. A run
may stop at any OTHER point, any number of times.

`retrieval_at_most_once` says that this is enough, and
`fax_retrieved_twice` is what happens otherwise.
-/
import HomeWarranty.Faxes.ExactlyOnce

namespace HomeWarranty.Faxes

open Lib

/-! ## The condition -/

/-- No row that the loop saves is left without its flag. -/
def flagsFollow (env : Environment) (o : Outcomes) (w : World) : List Nat → Bool
  | [] => true
  | n :: ns =>
      if (n : Int) < w.source.lastScannedId then flagsFollow env o w ns
      else if (o.earlyFailure n).isSome then true
      else if !w.isFaxAt n then flagsFollow env o w ns
      else if (o.result n .save).isSome then true
      else (o.lateFailure n).isNone &&
        ((o.result n .logFlagged).isSome || env.fetchesOne || flagsFollow env o w ns)

/-- The condition on a call of `retrieve!`. -/
def RunOk (env : Environment) (o : Outcomes) (w : World) : Prop :=
  o.login = true → o.closing .openLog = none → o.closing .search = none →
    flagsFollow env o w (search w.mailbox) = true

/-- The condition on an event. -/
def EventOk (env : Environment) (w : World) : Event → Prop
  | .arrive _ _ => True
  | .retrieve o => RunOk env o w
  | .perform o => w.source.lockFlag = 0 → RunOk env o (w.setLock 1)

theorem flagsFollow_file (env : Environment) (o : Outcomes) (w : World) (n : Nat) (e : Envelope)
    (ns : List Nat) : flagsFollow env o (w.file o n e) ns = flagsFollow env o w ns := by
  induction ns with
  | nil => rfl
  | cons k ns ih => simp only [flagsFollow, World.isFaxAt_file, World.source_file, ih]

/-! ## The invariant -/

/-- No message has two rows, and one without a flag has none. -/
structure World.Once (w : World) : Prop where
  single : ∀ k, (w.faxesOf k).length ≤ 1
  flagged : ∀ k, w.flaggedAt k = false → w.faxesOf k = []

theorem World.Once.file {w : World} (h : w.Once) {n : Nat} {m : Message}
    (hm : w.mailbox.find? n = some m) (hflag : m.flagged = false) (o : Outcomes) (e : Envelope) :
    (w.file o n e).Once := by
  have hnone : w.faxesOf n = [] := h.flagged n (by simp [World.flaggedAt, hm, hflag])
  refine ⟨fun k => ?_, fun k hk => ?_⟩
  · rw [World.length_faxesOf_file]
    by_cases hkn : k = n
    · simp [hkn, hnone]
    · simpa [hkn] using h.single k
  · rw [World.flaggedAt_file o e hm, Bool.or_eq_false_iff] at hk
    have hkn : k ≠ n := by simpa using hk.2
    have hlen := World.length_faxesOf_file o w n e k
    rw [h.flagged k hk.1, if_neg hkn] at hlen
    exact List.length_eq_zero_iff.mp hlen

/-- Each of the numbers is that of an unflagged message. -/
def World.Unflagged (w : World) (ns : List Nat) : Prop :=
  ∀ n ∈ ns, ∃ m, w.mailbox.find? n = some m ∧ m.flagged = false

theorem World.Unflagged.file {w : World} {ns : List Nat} (h : w.Unflagged ns) {n : Nat}
    (hn : n ∉ ns) (o : Outcomes) (e : Envelope) : (w.file o n e).Unflagged ns := by
  intro k hk
  obtain ⟨m, hm, hflag⟩ := h k hk
  have hkn : k ≠ n := by
    rintro rfl
    exact hn hk
  refine ⟨m, ?_, hflag⟩
  show (store w.mailbox n).find? k = some m
  rw [find?_store, if_neg hkn, hm]

/-- The loop keeps the invariant, wherever it stops. -/
theorem once_scan (env : Environment) (o : Outcomes) (ns : List Nat) (last : Nat) (w : World)
    (h : w.Once) (hns : w.Unflagged ns) (hnodup : ns.Nodup)
    (hok : flagsFollow env o w ns = true) : (exec (scan env o ns last) w).2.Once := by
  induction ns generalizing last w with
  | nil => exact h
  | cons n ns ih =>
      obtain ⟨m, hm, hflag⟩ := hns n (by simp)
      obtain ⟨hnew, hnodup⟩ := List.nodup_cons.mp hnodup
      have hrest : w.Unflagged ns := fun k hk => hns k (by simp [hk])
      unfold scan
      rw [exec_get_bind, exec_ite]
      unfold flagsFollow at hok
      by_cases hlow : (n : Int) < w.source.lastScannedId
      · rw [if_pos hlow] at hok ⊢
        exact ih last w h hrest hnodup hok
      · rw [if_neg hlow] at hok ⊢
        rw [World.isFaxAt_eq hm] at hok
        rw [exec_bind]
        have hbody := exec_retrieveMessage env o hm
        generalize exec (retrieveMessage env o n) w = x at hbody
        cases hbody with
        | skipped hearly hfax =>
            simp only [hearly, hfax] at hok
            exact ih n w h hrest hnodup hok
        | unread _ => exact h
        | unsaved _ _ _ => exact h
        | unflagged hearly hfax hsave hlate _ => simp [hearly, hfax, hsave, hlate] at hok
        | filed hearly hfax hsave hlate =>
            have hfile := h.file hm hflag o m.envelope
            simp only [hearly, hfax, hsave, hlate] at hok
            cases hlog : o.result n .logFlagged with
            | some f => exact hfile
            | none =>
                cases hone : env.fetchesOne with
                | true => exact hfile
                | false =>
                    refine ih n _ hfile (hrest.file hnew o m.envelope) hnodup ?_
                    rw [flagsFollow_file]
                    simpa [hlog, hone] using hok

/-! ## Runs -/

/-- The records are the same. -/
structure SameRecords (w w' : World) : Prop where
  id : w'.source.id = w.source.id
  mailbox : w'.mailbox = w.mailbox
  faxes : w'.faxes = w.faxes

theorem SameRecords.once {w w' : World} (hs : SameRecords w w') (h : w.Once) : w'.Once := by
  have hrows : ∀ k, w'.faxesOf k = w.faxesOf k := by
    intro k
    unfold World.faxesOf
    rw [hs.faxes]
    refine List.filter_congr fun r _ => decide_eq_decide.mpr ?_
    unfold OfMessage
    rw [hs.id]
  refine ⟨fun k => ?_, fun k hk => ?_⟩
  · rw [hrows]
    exact h.single k
  · rw [hrows]
    refine h.flagged k ?_
    unfold World.flaggedAt at hk ⊢
    rw [← hs.mailbox]
    exact hk

theorem sameRecords_closeMailbox (o : Outcomes) (w : World) :
    SameRecords w (exec (closeMailbox o) w).2 := by
  have hidle : Idle (closeMailbox o) _ :=
    (idle_check (o.closing .logout)).seq
      ((idle_check (o.closing .disconnect)).seq (idle_check (o.closing .notify)))
  rw [hidle w]
  exact ⟨rfl, rfl, rfl⟩

theorem sameRecords_saveLastScanned (o : Outcomes) (last : Nat) (w : World) :
    SameRecords w (exec (saveLastScanned o last) w).2 := by
  unfold saveLastScanned
  rw [exec_get_bind, exec_ite]
  split
  · rw [(idle_check _).exec_bind]
    cases o.closing .saveSource with
    | none => exact ⟨rfl, rfl, rfl⟩
    | some f => exact ⟨rfl, rfl, rfl⟩
  · exact ⟨rfl, rfl, rfl⟩

/-- The run lemma. -/
theorem once_retrieve (env : Environment) (o : Outcomes) {w : World} (h : w.Once)
    (hok : RunOk env o w) : (exec (retrieve env o) w).2.Once := by
  unfold retrieve
  cases hlogin : o.login with
  | false => exact h
  | true =>
      simp only [Bool.not_true, Bool.false_eq_true, if_false]
      rw [(idle_check _).exec_bind, (idle_check _).exec_bind]
      cases hlog : o.closing .openLog with
      | some f => exact h
      | none =>
          cases hsearch : o.closing .search with
          | some f => exact h
          | none =>
              have hns : w.Unflagged (search w.mailbox) := fun n hn => mem_search.mp hn
              have hscan := once_scan env o _ 0 w h hns (nodup_search w.mailbox)
                (hok hlogin hlog hsearch)
              rw [proceed_none, proceed_none, exec_get_bind, exec_bind]
              rcases hx : exec (scan env o (search w.mailbox) 0) w with ⟨r, w₁⟩
              rw [hx] at hscan
              cases r with
              | error f => exact hscan
              | ok last =>
                  have hsave := sameRecords_saveLastScanned o last w₁
                  simp only
                  rw [exec_bind]
                  rcases hy : exec (saveLastScanned o last) w₁ with ⟨r, w₂⟩
                  rw [hy] at hsave
                  cases r with
                  | error f => exact hsave.once hscan
                  | ok u => exact (sameRecords_closeMailbox o w₂).once (hsave.once hscan)

theorem sameRecords_setLock (w : World) (flag : Int) : SameRecords w (w.setLock flag) :=
  ⟨rfl, rfl, rfl⟩

theorem once_perform (env : Environment) (o : Outcomes) {w : World} (h : w.Once)
    (hok : w.source.lockFlag = 0 → RunOk env o (w.setLock 1)) : (perform env o w).Once := by
  unfold perform
  split
  · rename_i hlock
    have hrun := once_retrieve env o ((sameRecords_setLock w 1).once h) (hok hlock)
    rcases hx : exec (retrieve env o) (w.setLock 1) with ⟨r, w'⟩
    rw [hx] at hrun
    cases r with
    | ok u => exact (sameRecords_setLock w' 0).once hrun
    | error f => exact hrun
  · exact h

theorem once_arrive {w : World} (h : w.Once) (gap : Nat) (e : Envelope) :
    (w.arrive gap e).Once := by
  refine ⟨h.single, fun k hk => ?_⟩
  rw [World.flaggedAt_arrive] at hk
  exact h.flagged k hk

/-- The step lemma. -/
theorem once_step {env : Environment} {w : World} {e : Event} (h : w.Once)
    (hok : EventOk env w e) : (w.step env e).Once := by
  cases e with
  | arrive gap e => exact once_arrive h gap e
  | retrieve o => exact once_retrieve env o h hok
  | perform o => exact once_perform env o h hok

/-- **At most once.** In every environment, from every mailbox of a
source with no rows, over every sequence of arrivals and of calls and
workers that raise wherever they raise: if no run stops between the save
of a row and the flag of its message, no message has two rows in any
state on the way. -/
theorem retrieval_at_most_once (env : Environment) (w : World)
    (hw : ∀ r ∈ w.faxes.rows, r.sourceId ≠ some w.source.id) (es : List Event)
    (hok : StepsOk (World.step env) (EventOk env) w es) :
    ∀ j k, ((run (World.step env) w (es.take j)).faxesOf k).length ≤ 1 := by
  intro j k
  have hnone : ∀ k, w.faxesOf k = [] := World.faxesOf_of_unfiled hw
  have honce : w.Once := ⟨fun k => by simp [hnone k], fun k _ => hnone k⟩
  exact (run_invariant_of_steps World.Once (fun _ _ h he => once_step h he) _ w (hok.first j)
    honce).single k

/-- The file of the fax cannot be written. -/
def fullDisk : Outcomes :=
  { quietOutcomes with result := fun _ s => if s = .writePdf then some .other else none }

/-- The message cannot be fetched. -/
def lostConnection : Outcomes :=
  { quietOutcomes with result := fun _ s => if s = .fetch then some .other else none }

/-- A worker loses its connection, and the mailbox is scanned again, by
hand and by a worker. -/
def retriedFetch : List Event :=
  [.arrive 500 faxEnvelope, .perform lostConnection, .retrieve quietOutcomes,
    .perform quietOutcomes]

theorem retrieval_at_most_once_fetch :
    StepsOk (World.step .production) (EventOk .production) emptyWorld retriedFetch ∧
      ((run (World.step .production) emptyWorld (retriedFetch.take 4)).faxesOf 501).length ≤ 1 := by
  have hrun : ∀ o w, flagsFollow .production o w (search w.mailbox) = true →
      RunOk .production o w := fun _ _ h _ _ _ => h
  have hok : StepsOk (World.step .production) (EventOk .production) emptyWorld retriedFetch := by
    refine ⟨trivial, fun _ => hrun _ _ ?_, hrun _ _ ?_, fun _ => hrun _ _ ?_, trivial⟩
    · decide +kernel
    · decide +kernel
    · decide +kernel
  refine ⟨hok, retrieval_at_most_once .production emptyWorld ?_ retriedFetch hok 4 501⟩
  intro r hr
  cases hr

/-- A source as it is created, on a mailbox with 500 other messages. -/
def usedMailbox : World :=
  { emptyWorld with
    mailbox := Table.ofRows (List.replicate 500 ⟨0, otherEnvelope, false⟩) }

/-- The 501st message is a fax, the disk is full when the worker files
it, and the mailbox is scanned again by hand. -/
theorem fax_retrieved_twice :
    ((run (World.step .production) usedMailbox
      [.arrive 0 faxEnvelope, .perform fullDisk, .retrieve quietOutcomes]).faxesOf 501).length
      = 2 := by
  decide +kernel

end HomeWarranty.Faxes
