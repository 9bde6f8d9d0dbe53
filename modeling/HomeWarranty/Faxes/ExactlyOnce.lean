/-
HomeWarranty.Faxes.ExactlyOnce — no fax is lost and none is taken twice,
as long as the numbers of the messages stay as they are.

A run leaves two traces of a message: the FLAG on the message, which
keeps it from being found again, and the scan position, below which no
message is looked at. A message that is not a fax moves the position and
gets no flag, and a fax moves both. `Scanned` is what holds between
runs: the rows of a message are counted by its flag, and an unflagged
fax is still at or above the position, however far the position moved,
because new numbers are beyond every number it ever stood on.

`retrieval_exactly_once` is the result.
-/
import Mathlib.Data.List.Induction
import Mathlib.Data.List.Nodup
import HomeWarranty.Lib.Run
import HomeWarranty.Faxes.Retrieval

namespace HomeWarranty.Faxes

open Lib

/-! ## The invariant -/

/-- What holds between runs, `start` being the scan position at first. -/
structure Scanned (start : Int) (w : World) : Prop where
  rows : ∀ k, (w.faxesOf k).length = if w.flaggedAt k then 1 else 0
  fax : ∀ k, w.flaggedAt k = true → w.isFaxAt k = true
  unread : ∀ k : Nat, w.isFaxAt k = true → w.flaggedAt k = false → start ≤ k →
    w.source.lastScannedId ≤ k
  ahead : ∀ k : Nat, w.mailbox.nextKey ≤ k → start ≤ k → w.source.lastScannedId ≤ k

/-- A source that was never scanned: nothing is flagged and nothing
filed. -/
structure World.Fresh (w : World) : Prop where
  unflagged : ∀ m ∈ w.mailbox.rows, m.flagged = false
  unfiled : ∀ r ∈ w.faxes.rows, r.sourceId ≠ some w.source.id

theorem World.flaggedAt_of_unflagged {w : World}
    (h : ∀ m ∈ w.mailbox.rows, m.flagged = false) (k : Nat) : w.flaggedAt k = false := by
  unfold World.flaggedAt
  cases hm : w.mailbox.find? k with
  | none => rfl
  | some m => simp [h m (Table.mem_of_find? hm)]

theorem World.faxesOf_of_unfiled {w : World}
    (h : ∀ r ∈ w.faxes.rows, r.sourceId ≠ some w.source.id) (k : Nat) : w.faxesOf k = [] := by
  refine List.filter_eq_nil_iff.mpr fun r hr => ?_
  simp [OfMessage, h r hr]

theorem World.Fresh.scanned {w : World} (h : w.Fresh) : Scanned w.source.lastScannedId w where
  rows := by
    intro k
    rw [World.faxesOf_of_unfiled h.unfiled k, World.flaggedAt_of_unflagged h.unflagged k]
    rfl
  fax := by
    intro k hk
    rw [World.flaggedAt_of_unflagged h.unflagged k] at hk
    cases hk
  unread := fun _ _ _ hk => hk
  ahead := fun _ _ hk => hk

/-! ## Arrivals -/

theorem World.find?_arrive (w : World) (gap : Nat) (e : Envelope) (k : Nat) :
    (w.arrive gap e).mailbox.find? k
      = if k = w.mailbox.nextKey + gap
        then some { number := w.mailbox.nextKey + gap, envelope := e, flagged := false }
        else w.mailbox.find? k :=
  Table.find?_insert (w.mailbox.skip gap) _ k

theorem World.flaggedAt_arrive (w : World) (gap : Nat) (e : Envelope) (k : Nat) :
    (w.arrive gap e).flaggedAt k = w.flaggedAt k := by
  unfold World.flaggedAt
  rw [World.find?_arrive]
  split
  · rename_i hk
    rw [w.mailbox.find?_nextKey (by omega : w.mailbox.nextKey ≤ k)]
    rfl
  · rfl

theorem World.isFaxAt_arrive_of_ne (w : World) {gap : Nat} (e : Envelope) {k : Nat}
    (h : k ≠ w.mailbox.nextKey + gap) : (w.arrive gap e).isFaxAt k = w.isFaxAt k := by
  unfold World.isFaxAt World.envelopeAt
  rw [World.find?_arrive, if_neg h]

/-- A flagged message is there, so its number was given out. -/
theorem World.lt_nextKey_of_flaggedAt {w : World} {k : Nat} (h : w.flaggedAt k = true) :
    k < w.mailbox.nextKey := by
  by_contra hge
  unfold World.flaggedAt at h
  rw [w.mailbox.find?_nextKey (Nat.le_of_not_lt hge)] at h
  cases h

theorem scanned_arrive {start : Int} {w : World} (h : Scanned start w) (gap : Nat)
    (e : Envelope) : Scanned start (w.arrive gap e) where
  rows := by
    intro k
    rw [World.flaggedAt_arrive]
    exact h.rows k
  fax := by
    intro k hk
    rw [World.flaggedAt_arrive] at hk
    have hlt := World.lt_nextKey_of_flaggedAt hk
    rw [World.isFaxAt_arrive_of_ne w e (by omega)]
    exact h.fax k hk
  unread := by
    intro k hfax hflag hk
    rw [World.flaggedAt_arrive] at hflag
    show w.source.lastScannedId ≤ k
    by_cases hnew : k = w.mailbox.nextKey + gap
    · exact h.ahead k (by omega) hk
    · rw [World.isFaxAt_arrive_of_ne w e hnew] at hfax
      exact h.unread k hfax hflag hk
  ahead := by
    intro k hnext hk
    have hle : w.mailbox.nextKey + gap + 1 ≤ k := hnext
    exact h.ahead k (by omega) hk

/-! ## Runs -/

/-- The position the loop ends on is one of the numbers. -/
theorem World.position_mem (env : Environment) (w : World) (ns : List Nat) (last : Nat) :
    w.position env ns last ∈ ns ∨ w.position env ns last = last := by
  induction ns generalizing last with
  | nil => exact .inr rfl
  | cons n ns ih =>
      unfold World.position
      split
      · rcases ih last with h | h
        · exact .inl (List.mem_cons_of_mem n h)
        · exact .inr h
      · split
        · exact .inl (by simp)
        · rcases ih n with h | h
          · exact .inl (List.mem_cons_of_mem n h)
          · exact .inl (by simp [h])

/-- An unflagged fax at or above the scan position is due. -/
theorem mem_due_of_unread {w : World} {k : Nat} (hfax : w.isFaxAt k = true)
    (hflag : w.flaggedAt k = false) (hpos : w.source.lastScannedId ≤ k) :
    k ∈ w.due (search w.mailbox) := by
  unfold World.isFaxAt World.envelopeAt at hfax
  unfold World.flaggedAt at hflag
  cases hm : w.mailbox.find? k with
  | none => simp [hm] at hfax
  | some m =>
      obtain rfl : m.number = k := Table.key_of_find? hm
      simp only [hm, Option.map_some, Option.any_some] at hfax hflag
      exact mem_due_iff.mpr ⟨m, Table.mem_of_find? hm, rfl, hflag, hfax, hpos⟩

theorem unread_of_mem_due {w : World} {k : Nat} (h : k ∈ w.due (search w.mailbox)) :
    w.flaggedAt k = false ∧ w.isFaxAt k = true := by
  obtain ⟨m, hm, rfl, hflag, hfax, _⟩ := mem_due_iff.mp h
  have hfind : w.mailbox.find? m.number = some m := w.mailbox.find?_key hm
  refine ⟨?_, ?_⟩
  · simpa [World.flaggedAt, hfind] using hflag
  · rw [World.isFaxAt_eq hfind, hfax]

/-- A position the loop ends on is below every number to come. -/
theorem World.position_le (env : Environment) (w : World) {k : Nat}
    (hk : w.mailbox.nextKey ≤ k) : w.position env (search w.mailbox) 0 ≤ k := by
  rcases w.position_mem env (search w.mailbox) 0 with hmem | hzero
  · obtain ⟨m, hm, _⟩ := mem_search.mp hmem
    have hlt := w.mailbox.fresh m (Table.mem_of_find? hm)
    rw [Table.key_of_find? hm] at hlt
    omega
  · omega

/-- A run in which nothing raises leaves no fax unread. -/
theorem flaggedAt_retrieve {start : Int} {w : World} (h : Scanned start w) {o : Outcomes}
    (hq : o.Quiet) {k : Nat} (hfax : w.isFaxAt k = true) (hk : start ≤ k) :
    (exec (retrieve .production o) w).2.flaggedAt k = true := by
  rw [(filed_retrieve .production hq w).flag]
  cases hold : w.flaggedAt k with
  | true => rfl
  | false =>
      have hdue := mem_due_of_unread hfax hold (h.unread k hfax hold hk)
      simpa [Environment.cut, Environment.fetchesOne] using hdue

theorem scanned_retrieve {start : Int} {w : World} (h : Scanned start w) {o : Outcomes}
    (hq : o.Quiet) : Scanned start (exec (retrieve .production o) w).2 := by
  have hspec := filed_retrieve .production hq w
  have hcut : Environment.production.cut (w.due (search w.mailbox))
      = w.due (search w.mailbox) := rfl
  have hnodup : (w.due (search w.mailbox)).Nodup := (nodup_search w.mailbox).filter _
  rw [hcut] at hspec
  refine ⟨fun k => ?_, fun k hk => ?_, fun k hfax hflag hk => ?_, fun k hnext hk => ?_⟩
  · rw [hspec.rows, h.rows, hspec.flag]
    by_cases hk : k ∈ w.due (search w.mailbox)
    · simp [(unread_of_mem_due hk).1, hk, List.count_eq_one_of_mem hnodup hk]
    · simp [hk, List.count_eq_zero_of_not_mem hk]
  · rw [hspec.flag] at hk
    rw [hspec.isFaxAt]
    rcases Bool.or_eq_true_iff.mp hk with hold | hnew
    · exact h.fax k hold
    · exact (unread_of_mem_due (by simpa using hnew)).2
  · rw [hspec.isFaxAt] at hfax
    rw [flaggedAt_retrieve h hq hfax hk] at hflag
    cases hflag
  · rw [hspec.nextKey] at hnext
    have hold := h.ahead k hnext hk
    have hlast := w.position_le .production hnext
    rw [hspec.position]
    omega

/-! ## Histories -/

/-- Nothing raises in this event. -/
def Event.Quiet : Event → Prop
  | .arrive _ _ => True
  | .retrieve o => o.Quiet
  | .perform o => o.Quiet

/-- The event scans the mailbox in this state. -/
def Event.Scans (w : World) : Event → Prop
  | .arrive _ _ => False
  | .retrieve _ => True
  | .perform _ => w.source.lockFlag = 0

theorem Scanned.setLock {start : Int} {w : World} (h : Scanned start w) (flag : Int) :
    Scanned start (w.setLock flag) := ⟨h.rows, h.fax, h.unread, h.ahead⟩

/-- The worker with the lock is a run. -/
theorem perform_quiet (env : Environment) {o : Outcomes} (hq : o.Quiet) {w : World}
    (hlock : w.source.lockFlag = 0) :
    perform env o w = (exec (retrieve env o) (w.setLock 1)).2.setLock 0 := by
  unfold perform
  rw [if_pos hlock, exec_retrieve_quiet env hq]

/-- The step lemma. -/
theorem scanned_step {start : Int} {w : World} {e : Event} (h : Scanned start w)
    (hq : e.Quiet) : Scanned start (w.step .production e) := by
  cases e with
  | arrive gap e => exact scanned_arrive h gap e
  | retrieve o => exact scanned_retrieve h hq
  | perform o =>
      by_cases hlock : w.source.lockFlag = 0
      · show Scanned start (perform .production o w)
        rw [perform_quiet .production hq hlock]
        exact (scanned_retrieve (h.setLock 1) hq).setLock 0
      · show Scanned start (perform .production o w)
        unfold perform
        rw [if_neg hlock]
        exact h

theorem scanned_run {w : World} (hw : w.Fresh) {es : List Event} (hq : ∀ e ∈ es, e.Quiet) :
    Scanned w.source.lastScannedId (run (World.step .production) w es) := by
  induction es using List.reverseRecOn with
  | nil => exact hw.scanned
  | append_singleton es e ih =>
      rw [run_snoc]
      exact scanned_step (ih fun d hd => hq d (by simp [hd])) (hq e (by simp))

/-- A step that scans leaves no fax unread. -/
theorem flaggedAt_step {start : Int} {w : World} {e : Event} (h : Scanned start w)
    (hq : e.Quiet) (hs : e.Scans w) {k : Nat}
    (hfax : (w.step .production e).isFaxAt k = true) (hk : start ≤ k) :
    (w.step .production e).flaggedAt k = true := by
  cases e with
  | arrive gap e => cases hs
  | retrieve o =>
      have hspec := filed_retrieve .production hq w
      exact flaggedAt_retrieve h hq (hspec.isFaxAt k ▸ hfax) hk
  | perform o =>
      have hspec := filed_retrieve .production hq (w.setLock 1)
      have hperform : w.step .production (.perform o) = _ := perform_quiet .production hq hs
      rw [hperform] at hfax ⊢
      exact flaggedAt_retrieve (h.setLock 1) hq (hspec.isFaxAt k ▸ hfax) hk

/-- **Exactly once.** In production, over every sequence of arrivals and
of runs in which nothing raises, on a mailbox whose numbers are stable
and only grow: after a run, every message whose number is at least the
scan position at first has exactly one row if its subject yields a
sender of ten digits and something is attached to it, and no row
otherwise. -/
theorem retrieval_exactly_once (w : World) (hw : w.Fresh) (es : List Event) (e : Event)
    (hq : ∀ d ∈ es ++ [e], d.Quiet) (hs : e.Scans (run (World.step .production) w es)) :
    ∀ m ∈ (run (World.step .production) w (es ++ [e])).mailbox.rows,
      w.source.lastScannedId ≤ m.number →
      (m.envelope.CarriesFax →
        ∃ r, (run (World.step .production) w (es ++ [e])).faxesOf m.number = [r]) ∧
      (¬ m.envelope.CarriesFax →
        (run (World.step .production) w (es ++ [e])).faxesOf m.number = []) := by
  intro m hm hk
  have hpre : ∀ d ∈ es, d.Quiet := fun d hd => hq d (by simp [hd])
  have hbefore := scanned_run hw hpre
  have hafter := scanned_run hw hq
  have hlen := hafter.rows m.number
  have hfind : (run (World.step .production) w (es ++ [e])).mailbox.find? m.number = some m :=
    Table.find?_key _ hm
  have hfax := World.isFaxAt_eq hfind
  rw [← isFax_iff, ← hfax]
  refine ⟨fun h => ?_, fun h => ?_⟩
  · rw [run_snoc] at h hlen ⊢
    rw [flaggedAt_step hbefore (hq e (by simp)) hs h hk] at hlen
    exact List.length_eq_one_iff.mp hlen
  · have hflag : (run (World.step .production) w (es ++ [e])).flaggedAt m.number = false := by
      cases hf : (run (World.step .production) w (es ++ [e])).flaggedAt m.number with
      | false => rfl
      | true => exact absurd (hafter.fax m.number hf) h
    rw [hflag] at hlen
    exact List.length_eq_zero_iff.mp hlen

/-- A source as it is created, with an empty mailbox. -/
def emptyWorld : World where
  source := { id := 1, lastScannedId := 500, lockFlag := 0 }
  mailbox := Table.empty
  faxes := Table.empty

def faxEnvelope : Envelope where
  date := none
  subject := some "New Fax Message from (732) 555-0142"
  attachments := some ["page"]

def otherEnvelope : Envelope where
  date := none
  subject := some "Your account"
  attachments := none

/-- Every statement goes through. -/
def quietOutcomes : Outcomes where
  login := true
  result := fun _ _ => none
  closing := fun _ => none
  emptyImage := fun _ => false
  random := fun n => n

theorem quiet_quietOutcomes : quietOutcomes.Quiet := ⟨rfl, fun _ _ => rfl, fun _ => rfl⟩

/-- A message that is no fax, a run, and a fax. -/
def faxAfterRun : List Event :=
  [.arrive 500 otherEnvelope, .retrieve quietOutcomes, .arrive 0 faxEnvelope]

theorem retrieval_exactly_once_fax :
    emptyWorld.Fresh ∧ (∀ d ∈ faxAfterRun ++ [.perform quietOutcomes], d.Quiet) ∧
      ∃ r, (run (World.step .production) emptyWorld
        (faxAfterRun ++ [.perform quietOutcomes])).faxesOf 502 = [r] := by
  have hfresh : emptyWorld.Fresh := by
    refine ⟨?_, ?_⟩
    · intro m hm
      cases hm
    · intro r hr
      cases hr
  have hquiet : ∀ d ∈ faxAfterRun ++ [.perform quietOutcomes], d.Quiet := by
    intro d hd
    simp only [faxAfterRun, List.cons_append, List.nil_append, List.mem_cons,
      List.not_mem_nil, or_false] at hd
    rcases hd with rfl | rfl | rfl | rfl
    · trivial
    · exact quiet_quietOutcomes
    · trivial
    · exact quiet_quietOutcomes
  have hm : (⟨502, faxEnvelope, true⟩ : Message) ∈ (run (World.step .production) emptyWorld
      (faxAfterRun ++ [.perform quietOutcomes])).mailbox.rows := by decide +kernel
  have hcarries : faxEnvelope.CarriesFax := (isFax_iff faxEnvelope).mp (by decide +kernel)
  have hscans : Event.Scans (run (World.step .production) emptyWorld faxAfterRun)
      (.perform quietOutcomes) := by
    show (run (World.step .production) emptyWorld faxAfterRun).source.lockFlag = 0
    decide +kernel
  refine ⟨hfresh, hquiet, ?_⟩
  exact (retrieval_exactly_once emptyWorld hfresh faxAfterRun (.perform quietOutcomes) hquiet
    hscans _ hm (by decide)).1 hcarries

end HomeWarranty.Faxes
