/-
HomeWarranty.Faxes.Expunge — the scan of a mailbox from which mail is
deleted.

`imap.search` returns SEQUENCE numbers: the messages of a mailbox are
numbered from 1 without a gap, and when some are deleted the others move
up (`World.expunge`). The scan position is a number too, it is kept from
run to run, and it only grows. After a deletion it can stand beyond
messages that have not arrived yet.

An `Inbox` is a mailbox with how many of its messages, which are the
first ones, were there at the run before. `Inbox.Sound` says that the
numbers are what they are meant to be and that what arrived since is
unflagged. `new_faxes_filed_iff` is the exact condition under which
every fax that arrived since gets its row, and `fax_lost_after_expunge`
a history that does not meet it.
-/
import HomeWarranty.Faxes.AtMostOnce

namespace HomeWarranty.Faxes

open Lib

/-! ## The mailbox -/

/-- The messages with these numbers are deleted, the others move up. -/
def World.expunge (w : World) (ns : List Nat) : World :=
  { w with mailbox := Table.ofRows (w.mailbox.rows.filter fun m => !ns.contains m.number) }

structure Inbox where
  world : World
  /-- How many of the messages were there at the run before. -/
  seen : Nat

inductive MailEvent where
  | arrive (e : Envelope)
  | expunge (ns : List Nat)
  | retrieve (o : Outcomes)

def Inbox.step (env : Environment) (s : Inbox) : MailEvent → Inbox
  | .arrive e => { s with world := s.world.arrive 0 e }
  | .expunge ns =>
      { world := s.world.expunge ns
        seen := ((s.world.mailbox.rows.filter fun m => !ns.contains m.number).filter
          fun m => decide (m.number ≤ s.seen)).length }
  | .retrieve o =>
      { world := (exec (retrieve env o) s.world).2
        seen := s.world.mailbox.rows.length }

/-- The message arrived after the run before. -/
def Inbox.IsNew (s : Inbox) (m : Message) : Prop := s.seen < m.number

instance (s : Inbox) (m : Message) : Decidable (s.IsNew m) :=
  inferInstanceAs (Decidable (_ < _))

structure Inbox.Sound (s : Inbox) : Prop where
  numbers : s.world.mailbox.rows.map Message.number
    = List.range' 1 s.world.mailbox.rows.length
  nextKey : s.world.mailbox.nextKey = 1 + s.world.mailbox.rows.length
  seen : s.seen ≤ s.world.mailbox.rows.length
  unflagged : ∀ m ∈ s.world.mailbox.rows, s.IsNew m → m.flagged = false

/-! ## The numbers stay sequence numbers -/

theorem sound_arrive {s : Inbox} (h : s.Sound) (env : Environment) (e : Envelope) :
    (s.step env (.arrive e)).Sound := by
  have hrows : (s.world.arrive 0 e).mailbox.rows = s.world.mailbox.rows
      ++ [{ number := s.world.mailbox.nextKey, envelope := e, flagged := false }] := rfl
  refine ⟨?_, ?_, ?_, ?_⟩
  · show (s.world.arrive 0 e).mailbox.rows.map Message.number
      = List.range' 1 (s.world.arrive 0 e).mailbox.rows.length
    rw [hrows, List.map_append, h.numbers, List.length_append, List.range'_append_1.symm]
    simp [h.nextKey]
  · show s.world.mailbox.nextKey + 0 + 1 = 1 + (s.world.arrive 0 e).mailbox.rows.length
    rw [hrows, List.length_append, h.nextKey]
    simp
    omega
  · show s.seen ≤ (s.world.arrive 0 e).mailbox.rows.length
    rw [hrows, List.length_append]
    have := h.seen
    omega
  · intro m hm hnew
    have hm : m ∈ (s.world.arrive 0 e).mailbox.rows := hm
    rw [hrows] at hm
    rcases List.mem_append.mp hm with hm | hm
    · exact h.unflagged m hm hnew
    · rw [List.mem_singleton.mp hm]

/-- A mailbox that is numbered from 1 has sequence numbers. -/
theorem sound_ofRows {w : World} {rs : List Message} {k : Nat} (hw : w.mailbox = Table.ofRows rs)
    (hk : k ≤ rs.length) (hflag : ∀ m ∈ w.mailbox.rows, k < m.number → m.flagged = false) :
    (⟨w, k⟩ : Inbox).Sound := by
  have hlen : w.mailbox.rows.length = rs.length := by
    rw [hw]
    exact Table.length_numberFrom 1 rs
  refine ⟨?_, ?_, ?_, hflag⟩
  · show w.mailbox.rows.map Record.key = List.range' 1 w.mailbox.rows.length
    rw [hlen, hw]
    exact Table.keys_numberFrom 1 rs
  · show w.mailbox.nextKey = 1 + w.mailbox.rows.length
    rw [hlen, hw]
    rfl
  · show k ≤ w.mailbox.rows.length
    rw [hlen]
    exact hk

theorem sound_expunge {s : Inbox} (h : s.Sound) (env : Environment) (ns : List Nat) :
    (s.step env (.expunge ns)).Sound := by
  refine sound_ofRows rfl (List.length_filter_le _ _) fun m hm hnew => ?_
  have hlt : (s.step env (.expunge ns)).seen < Record.key m := hnew
  obtain ⟨t, ht, hseen, heq⟩ := Table.numberFrom_beyond (s.world.mailbox.increasing.filter _) hm
    (by rw [Nat.add_comm]; exact hlt)
  rw [heq]
  exact h.unflagged t (List.mem_of_mem_filter ht) hseen

theorem sound_retrieve {s : Inbox} (h : s.Sound) (env : Environment) {o : Outcomes}
    (hq : o.Quiet) : (s.step env (.retrieve o)).Sound := by
  have hspec := filed_retrieve env hq s.world
  have hlen : (exec (retrieve env o) s.world).2.mailbox.rows.length
      = s.world.mailbox.rows.length := by
    simpa using congrArg List.length hspec.numbers
  have hnumbers : (exec (retrieve env o) s.world).2.mailbox.rows.map Message.number
      = List.range' 1 (exec (retrieve env o) s.world).2.mailbox.rows.length := by
    rw [hspec.numbers, h.numbers, hlen]
  refine ⟨hnumbers, ?_, Nat.le_of_eq hlen.symm, ?_⟩
  · show (exec (retrieve env o) s.world).2.mailbox.nextKey
      = 1 + (exec (retrieve env o) s.world).2.mailbox.rows.length
    rw [hspec.nextKey, hlen, h.nextKey]
  · -- nothing is new right after a run
    intro m hm hnew
    have hmem : m.number ∈ (exec (retrieve env o) s.world).2.mailbox.rows.map Message.number :=
      List.mem_map_of_mem hm
    rw [hnumbers, hlen, List.mem_range'_1] at hmem
    have hlt : s.world.mailbox.rows.length < m.number := hnew
    omega

theorem sound_step {s : Inbox} {env : Environment} {e : MailEvent} (h : s.Sound)
    (hq : ∀ o, e = .retrieve o → o.Quiet) : (s.step env e).Sound := by
  cases e with
  | arrive e => exact sound_arrive h env e
  | expunge ns => exact sound_expunge h env ns
  | retrieve o => exact sound_retrieve h env (hq o rfl)

theorem sound_run {s : Inbox} (h : s.Sound) (env : Environment) {es : List MailEvent}
    (hq : ∀ o, .retrieve o ∈ es → o.Quiet) : (run (Inbox.step env) s es).Sound := by
  induction es generalizing s with
  | nil => exact h
  | cons e es ih =>
      refine ih (sound_step h fun o ho => hq o (by simp [ho])) fun o ho => hq o (by simp [ho])

/-! ## What a run reaches -/

/-- The message is at or above the scan position and, where the loop is
left after one fax, no other fax comes first. -/
def World.InReach (env : Environment) (w : World) (m : Message) : Prop :=
  w.source.lastScannedId ≤ m.number ∧
    (env.fetchesOne = true → ∀ t ∈ w.mailbox.rows, t.flagged = false →
      t.envelope.isFax = true → w.source.lastScannedId ≤ t.number → m.number ≤ t.number)

instance (env : Environment) (w : World) (m : Message) : Decidable (w.InReach env m) :=
  inferInstanceAs (Decidable (_ ∧ (_ → ∀ t ∈ w.mailbox.rows, _ → _ → _ → _)))

/-- The first of a list in ascending order is its least. -/
theorem mem_take_one_iff {l : List Nat} (hl : l.Pairwise (· < ·)) {n : Nat} :
    n ∈ l.take 1 ↔ n ∈ l ∧ ∀ k ∈ l, n ≤ k := by
  cases l with
  | nil => simp
  | cons a l =>
      obtain ⟨hlt, _⟩ := List.pairwise_cons.mp hl
      constructor
      · intro h
        obtain rfl : n = a := by simpa using h
        refine ⟨by simp, fun k hk => ?_⟩
        rcases List.mem_cons.mp hk with rfl | hk
        · exact Nat.le_refl _
        · exact Nat.le_of_lt (hlt k hk)
      · rintro ⟨hmem, hleast⟩
        rcases List.mem_cons.mp hmem with rfl | hmem
        · simp
        · have h1 := hlt n hmem
          have h2 := hleast a (by simp)
          omega

/-- A run files an unflagged fax exactly when it is in reach. -/
theorem mem_cut_due_iff (env : Environment) {w : World} {m : Message}
    (hm : m ∈ w.mailbox.rows) (hflag : m.flagged = false) (hfax : m.envelope.isFax = true) :
    m.number ∈ env.cut (w.due (search w.mailbox)) ↔ w.InReach env m := by
  have hdue : m.number ∈ w.due (search w.mailbox) ↔ w.source.lastScannedId ≤ m.number := by
    rw [mem_due_iff]
    constructor
    · rintro ⟨t, _, hnum, _, _, hpos⟩
      rw [← hnum]
      exact hpos
    · exact fun hpos => ⟨m, hm, rfl, hflag, hfax, hpos⟩
  unfold Environment.cut World.InReach
  cases hone : env.fetchesOne with
  | false => simpa using hdue
  | true =>
      simp only [if_true, true_implies]
      have hascending : (w.due (search w.mailbox)).Pairwise (· < ·) :=
        (ascending_search w.mailbox).filter _
      rw [mem_take_one_iff hascending]
      refine and_congr hdue ⟨fun h t ht htf htx htp => ?_, fun h k hk => ?_⟩
      · exact h t.number (mem_due_iff.mpr ⟨t, ht, rfl, htf, htx, htp⟩)
      · obtain ⟨t, ht, rfl, htf, htx, htp⟩ := mem_due_iff.mp hk
        exact h t ht htf htx htp

/-! ## No fax is lost -/

/-- Between `w` and `w'` a row was saved for message `n`. -/
def GetsRow (w w' : World) (n : Nat) : Prop :=
  ∃ r ∈ w'.faxesOf n, w.faxes.nextKey ≤ r.id

instance (w w' : World) (n : Nat) : Decidable (GetsRow w w' n) :=
  inferInstanceAs (Decidable (∃ r ∈ w'.faxesOf n, w.faxes.nextKey ≤ r.id))

/-- The condition on an event: every new fax is in reach. -/
def ReachOk (env : Environment) (s : Inbox) : MailEvent → Prop
  | .retrieve _ => ∀ m ∈ s.world.mailbox.rows, s.IsNew m → m.envelope.isFax = true →
      s.world.InReach env m
  | _ => True

instance (env : Environment) (s : Inbox) : ∀ e, Decidable (ReachOk env s e)
  | .retrieve _ => inferInstanceAs (Decidable (∀ m ∈ s.world.mailbox.rows, _ → _ → _))
  | .arrive _ => inferInstanceAs (Decidable True)
  | .expunge _ => inferInstanceAs (Decidable True)

/-- The run lemma: a new fax gets its row exactly when it is in reach. -/
theorem getsRow_iff {s : Inbox} (h : s.Sound) (env : Environment) {o : Outcomes} (hq : o.Quiet)
    {m : Message} (hm : m ∈ s.world.mailbox.rows) (hnew : s.IsNew m)
    (hfax : m.envelope.isFax = true) :
    GetsRow s.world (s.step env (.retrieve o)).world m.number ↔ s.world.InReach env m := by
  rw [← mem_cut_due_iff env hm (h.unflagged m hm hnew) hfax]
  exact (filed_retrieve env hq s.world).added m.number

/-- **No fax is lost**, exactly as long as none is out of reach. Over
every sequence of arrivals, deletions and runs in which nothing raises:
in each run every fax that arrived since the run before gets a row, if
and only if at the start of each run every such fax has a number at or
above the scan position (and, outside production, is the first). -/
theorem new_faxes_filed_iff (env : Environment) (s : Inbox) (h : s.Sound) (es : List MailEvent)
    (hq : ∀ o, .retrieve o ∈ es → o.Quiet) :
    (∀ pre o post, es = pre ++ .retrieve o :: post →
      ∀ m ∈ (run (Inbox.step env) s pre).world.mailbox.rows,
        (run (Inbox.step env) s pre).IsNew m → m.envelope.CarriesFax →
        GetsRow (run (Inbox.step env) s pre).world
          (run (Inbox.step env) s (pre ++ [.retrieve o])).world m.number) ↔
      StepsOk (Inbox.step env) (ReachOk env) s es := by
  have hstate : ∀ pre e post, es = pre ++ e :: post → (run (Inbox.step env) s pre).Sound := by
    intro pre e post heq
    exact sound_run h env fun o ho => hq o (by rw [heq]; simp [ho])
  constructor
  · intro hall
    refine stepsOk_of_forall fun pre e post heq => ?_
    cases e with
    | arrive e => trivial
    | expunge ns => trivial
    | retrieve o =>
        intro m hm hnew hfax
        have hgets := hall pre o post heq m hm hnew ((isFax_iff m.envelope).mp hfax)
        rw [run_snoc] at hgets
        exact (getsRow_iff (hstate pre _ post heq) env (hq o (by simp [heq])) hm hnew hfax).mp hgets
  · intro hok pre o post heq m hm hnew hcarries
    have hfax := (isFax_iff m.envelope).mpr hcarries
    rw [heq] at hok
    have hreach : ReachOk env (run (Inbox.step env) s pre) (.retrieve o) := hok.at
    rw [run_snoc]
    exact (getsRow_iff (hstate pre _ post heq) env (hq o (by simp [heq])) hm hnew hfax).mpr
      (hreach m hm hnew hfax)

/-- The 500 messages were scanned, a fax arrives and is filed. -/
def filedOnce : List MailEvent := [.arrive faxEnvelope, .retrieve quietOutcomes]

/-- Then ten messages are deleted and the next fax arrives. -/
def arrivedLower : List MailEvent :=
  filedOnce ++ [.expunge (List.range' 1 10), .arrive faxEnvelope]

theorem quiet_filedOnce : ∀ o, .retrieve o ∈ filedOnce → o.Quiet := by
  intro o ho
  obtain rfl : o = quietOutcomes := by simpa [filedOnce] using ho
  exact quiet_quietOutcomes

theorem sound_usedMailbox : (⟨usedMailbox, 500⟩ : Inbox).Sound := by
  refine sound_ofRows rfl (Nat.le_of_eq List.length_replicate.symm) fun m hm _ => ?_
  obtain ⟨t, ht, heq⟩ := Table.mem_numberFrom hm
  rw [heq, List.eq_of_mem_replicate ht]
  rfl

theorem new_faxes_filed_once :
    (⟨usedMailbox, 500⟩ : Inbox).Sound ∧
      GetsRow (run (Inbox.step .production) ⟨usedMailbox, 500⟩ [.arrive faxEnvelope]).world
        (run (Inbox.step .production) ⟨usedMailbox, 500⟩
          ([.arrive faxEnvelope] ++ [.retrieve quietOutcomes])).world 501 := by
  have hok : StepsOk (Inbox.step .production) (ReachOk .production) ⟨usedMailbox, 500⟩
      filedOnce := by decide +kernel
  have hm : (⟨501, faxEnvelope, false⟩ : Message) ∈ (run (Inbox.step .production)
      ⟨usedMailbox, 500⟩ [.arrive faxEnvelope]).world.mailbox.rows := by decide +kernel
  have hnew : (run (Inbox.step .production) ⟨usedMailbox, 500⟩ [.arrive faxEnvelope]).IsNew
      ⟨501, faxEnvelope, false⟩ := by decide +kernel
  have hcarries : faxEnvelope.CarriesFax := (isFax_iff faxEnvelope).mp (by decide +kernel)
  refine ⟨sound_usedMailbox, ?_⟩
  exact (new_faxes_filed_iff .production ⟨usedMailbox, 500⟩ sound_usedMailbox filedOnce
    quiet_filedOnce).mpr hok [.arrive faxEnvelope] quietOutcomes [] rfl
    ⟨501, faxEnvelope, false⟩ hm hnew hcarries

/-- The second fax has number 492, the scan position is 501, and the run
passes it by. -/
theorem fax_lost_after_expunge :
    (⟨492, faxEnvelope, false⟩ : Message)
        ∈ (run (Inbox.step .production) ⟨usedMailbox, 500⟩ arrivedLower).world.mailbox.rows ∧
      (run (Inbox.step .production) ⟨usedMailbox, 500⟩ arrivedLower).IsNew
        ⟨492, faxEnvelope, false⟩ ∧
      faxEnvelope.CarriesFax ∧
      ¬ GetsRow (run (Inbox.step .production) ⟨usedMailbox, 500⟩ arrivedLower).world
        (run (Inbox.step .production) ⟨usedMailbox, 500⟩
          (arrivedLower ++ [.retrieve quietOutcomes])).world 492 := by
  refine ⟨?_, ?_, (isFax_iff faxEnvelope).mp ?_, ?_⟩
  · decide +kernel
  · decide +kernel
  · decide +kernel
  · decide +kernel

end HomeWarranty.Faxes
