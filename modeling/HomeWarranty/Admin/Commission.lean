/-
HomeWarranty.Admin.Commission — what `AgentsController#edit` reports for
a date window: the transactions from which commissions are paid, and the
renewals.

Both scopes collect the customers of the renewals that end in the window,
of all agents, and join their ids by commas. `Transaction` binds this
text to `IN (?)`, where it is one literal and stands for the first id
alone. `Renewal` puts it into the statement, but only when it is not
blank: with no renewal in the window there is no restriction.

`report_exact_iff` says when the report is about the agent's completed
customers with a renewal ending in the window. The renewals are grouped
by customer, so of each customer one is listed (`GroupChoice`: MySQL
picks it).

Dates are counted in days. A scan without an ORDER BY reads the rows in
the order of their keys.
-/
import HomeWarranty.Lib.Table
import HomeWarranty.Ruby.Delimited

namespace HomeWarranty.Admin

open Lib Ruby

/-! ## The tables -/

structure SoldCustomer where
  id : Nat
  agentId : Option Nat
  statusId : Option Int
  deriving DecidableEq

instance : Record SoldCustomer where
  key := SoldCustomer.id
  withKey n c := { c with id := n }
  key_withKey := fun _ _ => rfl

structure SalesAgent where
  id : Nat
  deriving DecidableEq

instance : Record SalesAgent where
  key := SalesAgent.id
  withKey n _ := { id := n }
  key_withKey := fun _ _ => rfl

structure SaleTransaction where
  id : Nat
  customerId : Option Nat
  responseCode : Option Int
  amount : Option ℚ
  deriving DecidableEq

instance : Record SaleTransaction where
  key := SaleTransaction.id
  withKey n t := { t with id := n }
  key_withKey := fun _ _ => rfl

structure SaleRenewal where
  id : Nat
  customerId : Option Nat
  endsAt : Option Int
  deriving DecidableEq

instance : Record SaleRenewal where
  key := SaleRenewal.id
  withKey n r := { r with id := n }
  key_withKey := fun _ _ => rfl

/-- The tables; keys are given out from 1. -/
structure SalesDb where
  customers : Table SoldCustomer
  agents : Table SalesAgent
  transactions : Table SaleTransaction
  renewals : Table SaleRenewal
  customersFromOne : ∀ c ∈ customers.rows, c.id ≠ 0

/-! ## The scopes -/

/-- `agents.id = … and customers.status_id = 4`, behind the joins. -/
def SalesDb.sold (db : SalesDb) (agent : Nat) (customerId : Option Nat) : Bool :=
  match customerId.bind db.customers.find? with
  | none => false
  | some c =>
      ((c.agentId.bind db.agents.find?).any fun a => a.id == agent) && c.statusId == some 4

/-- `ends_at BETWEEN from AND to`. -/
def SaleRenewal.endsBetween (first last : Int) (r : SaleRenewal) : Bool :=
  match r.endsAt with
  | none => false
  | some d => decide (first ≤ d ∧ d ≤ last)

/-- `Renewal.where(…).map(&:customer_id).uniq`. -/
def SalesDb.windowIds (db : SalesDb) (first last : Int) : List (Option Nat) :=
  ((db.renewals.rows.filter (SaleRenewal.endsBetween first last)).map
    SaleRenewal.customerId).eraseDups

/-- `Transaction.for_agent_renewal_between`. -/
def SalesDb.agentTransactions (db : SalesDb) (agent : Nat) (first last : Int) :
    List SaleTransaction :=
  db.transactions.rows.filter fun t =>
    db.sold agent t.customerId &&
      t.customerId == some (boundNumber (joinIds (db.windowIds first last)))

/-- `Renewal.for_agent_renewal_between`; the statement may not be SQL. -/
def SalesDb.agentRenewals (db : SalesDb) (agent : Nat) (first last : Int) :
    Except RubyError (List SaleRenewal) :=
  let ids := joinIds (db.windowIds first last)
  if ids.isEmpty then .ok (db.renewals.rows.filter fun r => db.sold agent r.customerId)
  else
    match splicedNumbers ids with
    | none => .error .externalError
    | some ns => .ok (db.renewals.rows.filter fun r =>
        db.sold agent r.customerId && r.customerId.any ns.contains)

/-! ## The report -/

/-- `GROUP BY`: of every group one row is picked. -/
structure GroupChoice (ρ : Type) where
  pick : List ρ → Option ρ
  picks : ∀ l, l ≠ [] → ∃ r ∈ l, pick l = some r

/-- `group(:customer_id)`. -/
def groupByCustomer (g : GroupChoice SaleRenewal) (l : List SaleRenewal) : List SaleRenewal :=
  ((l.map SaleRenewal.customerId).eraseDups).filterMap fun id =>
    g.pick (l.filter fun r => r.customerId == id)

structure AgentReport where
  allTransactions : List SaleTransaction
  total : ℚ
  /-- The renewals before they are grouped. -/
  scope : List SaleRenewal
  /-- One for each customer; the page shows them by their end, 25 at a
  time. -/
  renewals : List SaleRenewal

/-- `@total`: the amounts of approved transactions, if they have one. -/
def approvedTotal (ts : List SaleTransaction) : ℚ :=
  ((ts.filter fun t => t.responseCode == some 1).filterMap SaleTransaction.amount).sum

/-- `AgentsController#edit` with a window. -/
def SalesDb.edit (g : GroupChoice SaleRenewal) (db : SalesDb) (id : Nat) (first last : Int) :
    Except RubyError AgentReport :=
  match db.agents.find? id with
  | none => .error .recordNotFound
  | some agent =>
      (db.agentRenewals agent.id first last).map fun scope => {
        allTransactions := db.agentTransactions agent.id first last
        total := approvedTotal (db.agentTransactions agent.id first last)
        scope := scope
        renewals := groupByCustomer g scope }

/-! ## What is meant -/

/-- A completed customer of the agent with a renewal ending in the
window. -/
def SalesDb.Entitled (db : SalesDb) (agent : Nat) (first last : Int) (customerId : Option Nat) :
    Prop :=
  customerId ≠ none ∧ db.sold agent customerId = true ∧
    ∃ r ∈ db.renewals.rows, r.customerId = customerId ∧ r.endsBetween first last = true

instance (db : SalesDb) (agent : Nat) (first last : Int) (customerId : Option Nat) :
    Decidable (db.Entitled agent first last customerId) :=
  inferInstanceAs (Decidable (_ ∧ _ ∧ _))

/-- The report has exactly the transactions and the renewals of the
entitled customers: both are about the same customers, the listed
renewals show each of them, and nothing is reported when no renewal ends
in the window. -/
structure ReportExact (g : GroupChoice SaleRenewal) (db : SalesDb) (agent : Nat)
    (first last : Int) (report : AgentReport) : Prop where
  edit : db.edit g agent first last = .ok report
  transactions : report.allTransactions =
    db.transactions.rows.filter fun t => db.Entitled agent first last t.customerId
  scope : report.scope =
    db.renewals.rows.filter fun r => db.Entitled agent first last r.customerId
  customers : ∀ id, (∃ r ∈ report.renewals, r.customerId = id) ↔ db.Entitled agent first last id
  nothing : (∀ r ∈ db.renewals.rows, r.endsBetween first last = false) →
    report.allTransactions = [] ∧ report.renewals = []

/-! ## What the scopes find -/

section Scopes

variable (db : SalesDb) (agent : Nat) (first last : Int)

theorem sold_zero : db.sold agent (some 0) = false := by
  cases hfind : db.customers.find? 0 with
  | none => simp [SalesDb.sold, hfind]
  | some c =>
      have hkey : c.id = 0 := Table.key_of_find? hfind
      exact absurd hkey (db.customersFromOne c (Table.mem_of_find? hfind))

theorem mem_windowIds (id : Option Nat) :
    id ∈ db.windowIds first last ↔
      ∃ r ∈ db.renewals.rows, r.customerId = id ∧ r.endsBetween first last = true := by
  simp only [SalesDb.windowIds, List.mem_eraseDups, List.mem_map, List.mem_filter]
  constructor
  · rintro ⟨r, ⟨hmem, hends⟩, hid⟩
    exact ⟨r, hmem, hid, hends⟩
  · rintro ⟨r, hmem, hid, hends⟩
    exact ⟨r, ⟨hmem, hends⟩, hid⟩

theorem entitled_iff (id : Option Nat) :
    db.Entitled agent first last id ↔
      db.sold agent id = true ∧ id ∈ db.windowIds first last := by
  rw [SalesDb.Entitled, mem_windowIds]
  constructor
  · exact fun h => h.2
  · intro h
    refine ⟨?_, h⟩
    rintro rfl
    cases h.1

theorem head?_windowIds :
    (db.windowIds first last).head? =
      (db.renewals.rows.find? (SaleRenewal.endsBetween first last)).map
        SaleRenewal.customerId := by
  rw [← List.head?_filter, ← List.head?_map, SalesDb.windowIds]
  cases (db.renewals.rows.filter (SaleRenewal.endsBetween first last)).map
      SaleRenewal.customerId with
  | nil => rfl
  | cons i is => rw [List.eraseDups_cons, List.head?_cons, List.head?_cons]

/-- Of a completed customer the text bound to `IN (?)` means the
customer of the first renewal in the window. -/
theorem eq_boundNumber_iff {id : Option Nat} (h : db.sold agent id = true) :
    id = some (boundNumber (joinIds (db.windowIds first last))) ↔
      (db.renewals.rows.find? (SaleRenewal.endsBetween first last)).map
        SaleRenewal.customerId = some id := by
  have hzero : id ≠ some 0 := by
    rintro rfl
    rw [sold_zero] at h
    cases h
  have hnone : id ≠ none := by
    rintro rfl
    cases h
  rw [← head?_windowIds]
  cases db.windowIds first last with
  | nil => exact ⟨fun heq => absurd heq hzero, fun heq => by cases heq⟩
  | cons i is =>
      rw [boundNumber_joinIds, List.head?_cons, Option.some_inj]
      cases i with
      | none => exact ⟨fun heq => absurd heq hzero, fun heq => absurd heq.symm hnone⟩
      | some n => exact eq_comm

end Scopes

/-- Two choices from one list are equal when they agree on its members. -/
theorem filter_eq_filter_iff {α : Type} {p q : α → Bool} {l : List α} :
    l.filter p = l.filter q ↔ ∀ a ∈ l, p a = q a := by
  constructor
  · intro h a ha
    rw [Bool.eq_iff_iff]
    have hmem : a ∈ l.filter p ↔ a ∈ l.filter q := by rw [h]
    simpa [ha] using hmem
  · exact List.filter_congr

section Exact

variable (db : SalesDb) (agent : Nat) (first last : Int)

/-- The transactions are those of the entitled customers when each of
these that has one is the customer of the first renewal in the window. -/
theorem agentTransactions_exact_iff :
    (db.agentTransactions agent first last =
        db.transactions.rows.filter fun t => db.Entitled agent first last t.customerId) ↔
      ∀ t ∈ db.transactions.rows, db.Entitled agent first last t.customerId →
        (db.renewals.rows.find? (SaleRenewal.endsBetween first last)).map
          SaleRenewal.customerId = some t.customerId := by
  rw [SalesDb.agentTransactions, filter_eq_filter_iff]
  refine forall₂_congr fun t _ => ?_
  rw [Bool.eq_iff_iff, Bool.and_eq_true, beq_iff_eq, decide_eq_true_iff, entitled_iff]
  constructor
  · intro h hent
    exact (eq_boundNumber_iff db agent first last hent.1).mp (h.mpr hent).2
  · intro h
    constructor
    · intro hread
      refine ⟨hread.1, List.mem_of_mem_head? ?_⟩
      rw [head?_windowIds]
      exact (eq_boundNumber_iff db agent first last hread.1).mp hread.2
    · intro hent
      exact ⟨hent.1, (eq_boundNumber_iff db agent first last hent.1).mpr (h hent)⟩

/-- Without a customer in the window there is no restriction. -/
theorem agentRenewals_of_no_customer (h : ∀ n, some n ∉ db.windowIds first last) :
    db.agentRenewals agent first last =
      .ok (db.renewals.rows.filter fun r => db.sold agent r.customerId) := by
  have hempty : joinIds (db.windowIds first last) = [] := by
    refine (joinIds_eraseDups_eq_nil_iff _).mpr fun n hn => h n ?_
    rw [SalesDb.windowIds, List.mem_eraseDups]
    exact hn
  rw [SalesDb.agentRenewals, hempty]
  rfl

theorem agentRenewals_of_customer {n : Nat} (h : some n ∈ db.windowIds first last) :
    db.agentRenewals agent first last =
      match (db.windowIds first last).mapM id with
      | none => .error .externalError
      | some ns => .ok (db.renewals.rows.filter fun r =>
          db.sold agent r.customerId && r.customerId.any ns.contains) := by
  have hids : db.windowIds first last ≠ [] := List.ne_nil_of_mem h
  have htext : (joinIds (db.windowIds first last)).isEmpty = false := by
    rw [List.isEmpty_eq_false_iff]
    intro hnil
    refine (joinIds_eraseDups_eq_nil_iff _).mp hnil n ?_
    rwa [SalesDb.windowIds, List.mem_eraseDups] at h
  rw [SalesDb.agentRenewals]
  simp only [htext, splicedNumbers_joinIds hids]
  rfl

/-- With a customer in the window the renewals are those of the entitled
customers, unless a renewal in the window has none. -/
theorem agentRenewals_exact_iff_of_customer {n : Nat} (h : some n ∈ db.windowIds first last) :
    (db.agentRenewals agent first last =
        .ok (db.renewals.rows.filter fun r => db.Entitled agent first last r.customerId)) ↔
      none ∉ db.windowIds first last := by
  rw [agentRenewals_of_customer db agent first last h]
  cases hns : (db.windowIds first last).mapM id with
  | none =>
      -- a missing id leaves an empty piece between the commas
      have hmissing : none ∈ db.windowIds first last := (mapM_id_eq_none_iff _).mp hns
      exact ⟨fun heq => (by cases heq), fun hno => absurd hmissing hno⟩
  | some ns =>
      have hids : db.windowIds first last = ns.map some := (mapM_id_eq_some_iff _ _).mp hns
      have hno : none ∉ db.windowIds first last := by
        rw [hids]
        simp
      refine ⟨fun _ => hno, fun _ => ?_⟩
      refine congrArg Except.ok (filter_eq_filter_iff.mpr fun r _ => ?_)
      rw [Bool.eq_iff_iff, Bool.and_eq_true, decide_eq_true_iff, entitled_iff, hids]
      cases r.customerId with
      | none => simp
      | some m => simp

end Exact

/-! ## The report -/

theorem groupByCustomer_shows (g : GroupChoice SaleRenewal) (l : List SaleRenewal)
    (id : Option Nat) :
    (∃ r ∈ groupByCustomer g l, r.customerId = id) ↔ ∃ r ∈ l, r.customerId = id := by
  -- the row picked for an id is one of that id
  have hpick : ∀ {i : Option Nat} {r : SaleRenewal}, (∃ s ∈ l, s.customerId = i) →
      g.pick (l.filter fun s => s.customerId == i) = some r → r ∈ l ∧ r.customerId = i := by
    intro i r hsome hr
    obtain ⟨s, hs, hid⟩ := hsome
    have hne : (l.filter fun s => s.customerId == i) ≠ [] :=
      List.ne_nil_of_mem (List.mem_filter.mpr ⟨hs, by simpa using hid⟩)
    obtain ⟨r', hr', hpicked⟩ := g.picks _ hne
    rw [hr, Option.some_inj] at hpicked
    subst hpicked
    simpa using hr'
  constructor
  · intro h
    obtain ⟨r, hr, rfl⟩ := h
    obtain ⟨i, hi, hsome⟩ := List.mem_filterMap.mp hr
    have hmem : ∃ s ∈ l, s.customerId = i := by simpa using hi
    exact ⟨r, (hpick hmem hsome).1, rfl⟩
  · intro h
    have hids : id ∈ (l.map SaleRenewal.customerId).eraseDups := by simpa using h
    have hne : (l.filter fun s => s.customerId == id) ≠ [] := by
      obtain ⟨s, hs, hid⟩ := h
      exact List.ne_nil_of_mem (List.mem_filter.mpr ⟨hs, by simpa using hid⟩)
    obtain ⟨r, _, hr⟩ := g.picks _ hne
    exact ⟨r, List.mem_filterMap.mpr ⟨id, hids, hr⟩, (hpick h hr).2⟩

/-- The report is exact as soon as both scopes are: every entitled
customer has a renewal to be listed by. -/
theorem reportExact_iff_scopes (g : GroupChoice SaleRenewal) (db : SalesDb) {agent : SalesAgent}
    (ha : agent ∈ db.agents.rows) (first last : Int) :
    (∃ report, ReportExact g db agent.id first last report) ↔
      db.agentTransactions agent.id first last =
          (db.transactions.rows.filter fun t => db.Entitled agent.id first last t.customerId) ∧
        db.agentRenewals agent.id first last =
          .ok (db.renewals.rows.filter fun r => db.Entitled agent.id first last r.customerId) := by
  have hfind : db.agents.find? agent.id = some agent := db.agents.find?_key ha
  constructor
  · intro h
    obtain ⟨report, h⟩ := h
    have hedit := h.edit
    rw [SalesDb.edit, hfind] at hedit
    obtain ⟨scope, hscope, rfl⟩ := map_eq_ok.mp hedit
    exact ⟨h.transactions, hscope.trans (congrArg Except.ok h.scope)⟩
  · intro h
    have hedit : db.edit g agent.id first last = .ok {
        allTransactions := db.agentTransactions agent.id first last
        total := approvedTotal (db.agentTransactions agent.id first last)
        scope := db.renewals.rows.filter fun r => db.Entitled agent.id first last r.customerId
        renewals := groupByCustomer g (db.renewals.rows.filter fun r =>
          db.Entitled agent.id first last r.customerId) } := by
      rw [SalesDb.edit, hfind]
      simp only [h.2, Except.map]
    refine ⟨_, hedit, h.1, rfl, ?_, ?_⟩
    · intro id
      rw [groupByCustomer_shows]
      constructor
      · intro hmem
        obtain ⟨r, hr, rfl⟩ := hmem
        simpa using (List.mem_filter.mp hr).2
      · intro hent
        obtain ⟨r, hr, hid, _⟩ := hent.2.2
        refine ⟨r, List.mem_filter.mpr ⟨hr, ?_⟩, hid⟩
        rw [hid]
        simpa using hent
    · intro hnone
      have hno : ∀ id, ¬ db.Entitled agent.id first last id := by
        intro id hent
        obtain ⟨r, hr, _, hends⟩ := hent.2.2
        rw [hnone r hr] at hends
        cases hends
      simp [h.1, hno, groupByCustomer]

theorem some_mem_windowIds_iff (db : SalesDb) (first last : Int) :
    (∃ n, some n ∈ db.windowIds first last) ↔
      ∃ r ∈ db.renewals.rows, r.endsBetween first last = true ∧ r.customerId ≠ none := by
  simp only [mem_windowIds]
  constructor
  · intro h
    obtain ⟨n, r, hr, hid, hends⟩ := h
    exact ⟨r, hr, hends, by simp [hid]⟩
  · intro h
    obtain ⟨r, hr, hends, hid⟩ := h
    obtain ⟨n, hn⟩ := Option.ne_none_iff_exists'.mp hid
    exact ⟨n, r, hr, hn, hends⟩

/-- Without a customer in the window the renewals are those of the
entitled customers, of whom there are none, only when the agent's
completed customers have no renewal at all. -/
theorem agentRenewals_exact_iff_of_no_customer {db : SalesDb} {agent : Nat} {first last : Int}
    (h : ∀ n, some n ∉ db.windowIds first last) :
    (db.agentRenewals agent first last =
        .ok (db.renewals.rows.filter fun r => db.Entitled agent first last r.customerId)) ↔
      ∀ r ∈ db.renewals.rows, db.sold agent r.customerId = false := by
  rw [agentRenewals_of_no_customer db agent first last h, Except.ok.injEq, filter_eq_filter_iff]
  refine forall₂_congr fun r _ => ?_
  have hno : ¬ db.Entitled agent first last r.customerId := by
    rw [entitled_iff]
    intro hent
    cases hid : r.customerId with
    | none =>
        rw [hid] at hent
        cases hent.1
    | some n => exact h n (hid ▸ hent.2)
  rw [decide_eq_false hno]

/-- The report is exact when every entitled customer with a transaction
is the customer of the first renewal in the window, the renewals in the
window have all a customer or none has, and where none has, the agent's
completed customers have no renewals. -/
theorem report_exact_iff (g : GroupChoice SaleRenewal) (db : SalesDb) {agent : SalesAgent}
    (ha : agent ∈ db.agents.rows) (first last : Int) :
    (∃ report, ReportExact g db agent.id first last report) ↔
      (∀ t ∈ db.transactions.rows, db.Entitled agent.id first last t.customerId →
          (db.renewals.rows.find? (SaleRenewal.endsBetween first last)).map
            SaleRenewal.customerId = some t.customerId) ∧
        ((∃ r ∈ db.renewals.rows, r.endsBetween first last = true ∧ r.customerId ≠ none) →
          ∀ r ∈ db.renewals.rows, r.endsBetween first last = true → r.customerId ≠ none) ∧
        ((∀ r ∈ db.renewals.rows, r.endsBetween first last = true → r.customerId = none) →
          ∀ r ∈ db.renewals.rows, db.sold agent.id r.customerId = false) := by
  rw [reportExact_iff_scopes g db ha, agentTransactions_exact_iff]
  refine and_congr_right fun _ => ?_
  by_cases hsome : ∃ r ∈ db.renewals.rows, r.endsBetween first last = true ∧ r.customerId ≠ none
  · obtain ⟨n, hn⟩ := (some_mem_windowIds_iff db first last).mpr hsome
    have hnot :
        ¬ ∀ r ∈ db.renewals.rows, r.endsBetween first last = true → r.customerId = none := by
      intro hall
      obtain ⟨r, hr, hends, hid⟩ := hsome
      exact hid (hall r hr hends)
    have hfull : none ∉ db.windowIds first last ↔
        ∀ r ∈ db.renewals.rows, r.endsBetween first last = true → r.customerId ≠ none := by
      rw [mem_windowIds]
      exact ⟨fun h r hr hends hid => h ⟨r, hr, hid, hends⟩,
        fun h hmem => hmem.elim fun r hr => h r hr.1 hr.2.2 hr.2.1⟩
    rw [agentRenewals_exact_iff_of_customer db agent.id first last hn, hfull]
    exact ⟨fun h => ⟨fun _ => h, fun hall => absurd hall hnot⟩, fun h => h.1 hsome⟩
  · have hno : ∀ n, some n ∉ db.windowIds first last :=
      fun n hn => hsome ((some_mem_windowIds_iff db first last).mp ⟨n, hn⟩)
    have hall : ∀ r ∈ db.renewals.rows, r.endsBetween first last = true → r.customerId = none := by
      intro r hr hends
      by_contra hid
      exact hsome ⟨r, hr, hends, hid⟩
    rw [agentRenewals_exact_iff_of_no_customer hno]
    exact ⟨fun h => ⟨fun hex => absurd hex hsome, fun _ => h⟩, fun h => h.2 hall⟩

/-- An agent with two completed customers; the renewals end on the days
10, 10 and 40. -/
def twoSales : SalesDb where
  customers := Table.ofRows [⟨0, some 1, some 4⟩, ⟨0, some 1, some 4⟩]
  agents := Table.ofRows [⟨0⟩]
  transactions := Table.ofRows [⟨0, some 1, some 1, some 300⟩, ⟨0, some 2, some 1, some 450⟩]
  renewals := Table.ofRows [⟨0, some 1, some 10⟩, ⟨0, some 2, some 10⟩, ⟨0, some 2, some 40⟩]
  customersFromOne := by decide +kernel

def pickFirst : GroupChoice SaleRenewal where
  pick := List.head?
  picks := fun l h => by
    cases l with
    | nil => exact absurd rfl h
    | cons r l => exact ⟨r, List.mem_cons_self, rfl⟩

theorem report_exact_one_customer :
    ∃ report, ReportExact pickFirst twoSales 1 35 45 report :=
  have ha : (⟨1⟩ : SalesAgent) ∈ twoSales.agents.rows := by decide +kernel
  (report_exact_iff pickFirst twoSales ha 35 45).mpr (by decide +kernel)

/-- Of the two customers with renewals ending in days 5 to 15 only the
transaction of one is reported, and for days 20 to 30, in which none
ends, all three renewals are listed. -/
theorem report_not_exact :
    (¬ ∃ report, ReportExact pickFirst twoSales 1 5 15 report) ∧
      ¬ ∃ report, ReportExact pickFirst twoSales 1 20 30 report := by
  have ha : (⟨1⟩ : SalesAgent) ∈ twoSales.agents.rows := by decide +kernel
  refine ⟨fun h => ?_, fun h => ?_⟩
  · exact absurd ((reportExact_iff_scopes pickFirst twoSales ha 5 15).mp h).1 (by decide +kernel)
  · exact absurd ((reportExact_iff_scopes pickFirst twoSales ha 20 30).mp h).2 (by decide +kernel)

end HomeWarranty.Admin
