/-
HomeWarranty.Claims.RepairTheorems — the authorization of a repair over
whole runs of requests.

* `auto_authorization_iff` — an authorized repair costs more than 0 and
  at most 100 in every state of a run exactly when every amount that
  leaves the repair authorized is within the limit as its column keeps
  it, and none is empty while the repair is authorized. The action
  authorizes small amounts and never takes an authorization back except
  for an amount of 0; and it looks at the posted number, not at what the
  column makes of it.
* `authorization_not_persistent` — with the column of the schema the
  authorization never comes back from the database as the number the
  code compares it with, so no toggle ever authorizes anything and no
  loaded repair has a readable authorization.
* `repair_amount_written_iff` — what is left of a posted amount decides
  whether an amount is written at all: where the cleaning takes
  everything, neither the authorization of small amounts nor the refusal
  of 0 looks at it, and NULL is passed on. And where the column keeps an
  amount above 0 as 0, the refusal of 0 has already passed.
-/
import HomeWarranty.Claims.Repair

namespace HomeWarranty.Claims

open Lib Ruby

/-! ## The limit -/

/-- The repair, if there is one and it is authorized, costs more than 0
and at most 100. -/
def WithinLimit (repair : Option Repair) : Prop :=
  ∀ r ∈ repair, r.authorization = .text "1" → ∃ a, r.amount = some a ∧ 0 < a ∧ a ≤ 100

/-- The row of a repair says that it is authorized. -/
def AuthorizedRow (repair : Option Repair) : Prop :=
  ∃ r ∈ repair, r.authorization = .text "1"

/-- The posted service charge is a number that its column takes. -/
def ServiceChargeTaken [Numbers] (p : RepairParams) : Prop :=
  ∀ s ∈ p.serviceCharge, blank (cleaned s) = false →
    Numbers.float (Numbers.toF (cleaned s)) ≠ none

/-- What the column keeps of a number, if it takes it, is above 0 and at
most 100. -/
def KeptWithinLimit [Numbers] (x : ℚ) : Prop := ∀ k, Numbers.float x = some k → 0 < k ∧ k ≤ 100

/-- In a request that is not refused for its service charge, an amount
posted for an authorized repair is not empty once it is cleaned, and an
amount above 0 that leaves the repair authorized is kept as one within
the limit. -/
def AmountOk [Numbers] (repair : Option Repair) (p : RepairParams) : Prop :=
  ServiceChargeTaken p → ∀ s ∈ p.amount,
    (AuthorizedRow repair → blank (cleaned s) = false) ∧
      (blank (cleaned s) = false → 0 < Numbers.toF (cleaned s) →
        (Numbers.toF (cleaned s) ≤ 100 ∨ AuthorizedRow repair) →
          KeptWithinLimit (Numbers.toF (cleaned s)))

section
variable [Numbers]

/-- What the action makes of a posted amount: one that is empty once it
is cleaned, none or less, one up to 100, and more. -/
theorem requestAttributes_posted {p : RepairParams} {s : String} (hs : p.amount = some s) :
    (blank (cleaned s) = true ∧ (requestAttributes p).amount = some none ∧
        (requestAttributes p).authorization = p.authorization) ∨
      (blank (cleaned s) = false ∧ Numbers.toF (cleaned s) ≤ 0 ∧
        (requestAttributes p).amount = some (some 0) ∧
        (requestAttributes p).authorization = some (.int 0)) ∨
      (blank (cleaned s) = false ∧ 0 < Numbers.toF (cleaned s) ∧
        Numbers.toF (cleaned s) ≤ 100 ∧
        (requestAttributes p).amount = some (some (Numbers.toF (cleaned s))) ∧
        (requestAttributes p).authorization = some (.int 1)) ∨
      (blank (cleaned s) = false ∧ 100 < Numbers.toF (cleaned s) ∧
        (requestAttributes p).amount = some (some (Numbers.toF (cleaned s))) ∧
        (requestAttributes p).authorization = p.authorization) := by
  cases hb : blank (cleaned s) with
  | true => exact .inl ⟨rfl, by simp [requestAttributes, postedAtMost, hs, hb, castFloat]⟩
  | false =>
      refine .inr ?_
      by_cases h0 : Numbers.toF (cleaned s) ≤ 0
      · exact .inl ⟨rfl, h0, by simp [requestAttributes, postedAtMost, hs, hb, h0]⟩
      · by_cases h100 : Numbers.toF (cleaned s) ≤ 100
        · exact .inr (.inl ⟨rfl, not_le.mp h0, h100, by
            simp [requestAttributes, postedAtMost, hs, hb, h0, h100, castFloat]⟩)
        · exact .inr (.inr ⟨rfl, not_le.mp h100, by
            simp [requestAttributes, postedAtMost, hs, hb, h0, h100, castFloat]⟩)

/-- Where no amount is posted, none is assigned. -/
theorem requestAttributes_not_posted {p : RepairParams} (hs : p.amount = none) :
    (requestAttributes p).amount = none ∧
      (requestAttributes p).authorization = p.authorization := by
  simp [requestAttributes, postedAtMost, hs]

/-! ## What the columns take -/

/-- A request is refused when a column does not take its service
charge. -/
theorem stored_of_charge_refused {p : RepairParams} (h : ¬ ServiceChargeTaken p) :
    (requestAttributes p).stored = none := by
  unfold ServiceChargeTaken at h
  push Not at h
  obtain ⟨s, hs, hblank, hrefused⟩ := h
  rw [Option.mem_def] at hs
  have hcharge : (requestAttributes p).serviceCharge.mapM storeFloat = none := by
    simp [requestAttributes, hs, castFloat, hblank, storeFloat, hrefused]
  simp [Attributes.stored, hcharge]

theorem charge_taken {p : RepairParams} (h : ServiceChargeTaken p) :
    ∃ charge, (requestAttributes p).serviceCharge.mapM storeFloat = some charge := by
  cases hs : p.serviceCharge with
  | none => exact ⟨none, by simp [requestAttributes, hs]⟩
  | some s =>
      cases hb : blank (cleaned s) with
      | true => exact ⟨some none, by simp [requestAttributes, hs, castFloat, hb, storeFloat]⟩
      | false =>
          obtain ⟨k, hk⟩ := Option.ne_none_iff_exists'.mp (h s hs hb)
          exact ⟨some (some k), by simp [requestAttributes, hs, castFloat, hb, storeFloat, hk]⟩

/-- Otherwise it depends on the amount. -/
theorem stored_of_amount {p : RepairParams} (h : ServiceChargeTaken p)
    {amount : Option (Option ℚ)}
    (hamount : (requestAttributes p).amount.mapM storeFloat = some amount) :
    ∃ a, (requestAttributes p).stored = some a ∧ a.amount = amount ∧
      a.authorization = (requestAttributes p).authorization := by
  obtain ⟨charge, hcharge⟩ := charge_taken h
  exact ⟨{ requestAttributes p with amount := amount, serviceCharge := charge },
    by simp [Attributes.stored, hamount, hcharge], rfl, rfl⟩

theorem stored_of_amount_refused {p : RepairParams} {x : ℚ}
    (hamount : (requestAttributes p).amount = some (some x)) (hk : Numbers.float x = none) :
    (requestAttributes p).stored = none := by
  simp [Attributes.stored, hamount, storeFloat, hk]

/-- A request that is refused saves nothing. -/
theorem savedRepair_of_refused {col : AuthorizationColumn} {claimId : Nat}
    {repair : Option Repair} {p : RepairParams} (h : (requestAttributes p).stored = none) :
    savedRepair col claimId repair p = none := by
  simp [savedRepair, h]

/-- The object that either path assigns the attributes to; an INSERT of
NULL is refused. -/
theorem savedRepair_of_stored {col : AuthorizationColumn} {claimId : Nat}
    {repair : Option Repair} {p : RepairParams} {a : Attributes}
    (h : (requestAttributes p).stored = some a) :
    savedRepair col claimId repair p =
      if repair = none ∧ a.amount = some none then none
      else some ((repair.getD (Repair.new col claimId)).assign col a) := by
  cases repair with
  | some r => simp [savedRepair, h]
  | none =>
      have hnull : ((Repair.new col claimId).assign col a).amount = none ↔
          a.amount = some none := by
        cases hamount : a.amount with
        | none => simp [Repair.assign, Repair.new, hamount]
        | some amount => simp [Repair.assign, hamount]
      simp [savedRepair, h, createdRepair, hnull]

/-! ## Requests -/

/-- A request that leaves the authorization to the action. -/
abbrev AmountRequest := { p : RepairParams // p.authorization = none }

/-- One such request on the repair of a claim. -/
def amountStep (claimId : Nat) (repair : Option Repair) (p : AmountRequest) : Option Repair :=
  asyncUpdateClaimOrRepair schemaColumn claimId repair p.1

/-- The repair was loaded from its row. -/
def Loaded (repair : Option Repair) : Prop :=
  ∀ r ∈ repair, schemaColumn.reload r.authorization = r.authorization

omit [Numbers] in
theorem schemaColumn_reload_reload (a : Authorization) :
    schemaColumn.reload (schemaColumn.reload a) = schemaColumn.reload a := by
  cases a with
  | text s => simp [schemaColumn]
  | int n => simp [schemaColumn]

theorem loaded_amountStep {claimId : Nat} {repair : Option Repair} (p : AmountRequest)
    (h : Loaded repair) : Loaded (amountStep claimId repair p) := by
  unfold amountStep asyncUpdateClaimOrRepair
  cases hs : savedRepair schemaColumn claimId repair p.1 with
  | none => exact h
  | some o =>
      intro r hr
      rw [Option.mem_some] at hr
      subst hr
      exact schemaColumn_reload_reload o.authorization

omit [Numbers] in
@[simp] theorem schemaColumn_cast (a : Authorization) : schemaColumn.cast a = a := rfl

omit [Numbers] in
theorem reload_int_zero : schemaColumn.reload (.int 0) = .text "0" := by decide +kernel

omit [Numbers] in
theorem reload_int_one : schemaColumn.reload (.int 1) = .text "1" := by decide +kernel

omit [Numbers] in
theorem reload_default : schemaColumn.reload schemaColumn.default ≠ .text "1" := by
  decide +kernel

/-- A request that is refused leaves the repair alone. -/
theorem amountStep_of_refused {claimId : Nat} {repair : Option Repair} {p : AmountRequest}
    (h : (requestAttributes p.1).stored = none) : amountStep claimId repair p = repair := by
  simp [amountStep, asyncUpdateClaimOrRepair, savedRepair_of_refused h]

/-- The authorization before a request, as the row has it. -/
def authorizationBefore (repair : Option Repair) : Authorization :=
  (repair.map Repair.authorization).getD schemaColumn.default

omit [Numbers] in
theorem authorizationBefore_eq_one {repair : Option Repair} (hload : Loaded repair) :
    schemaColumn.reload (authorizationBefore repair) = .text "1" ↔ AuthorizedRow repair := by
  cases repair with
  | none => simpa [authorizationBefore, AuthorizedRow] using reload_default
  | some r =>
      have hr : schemaColumn.reload r.authorization = r.authorization := hload r rfl
      simp [authorizationBefore, AuthorizedRow, hr]

omit [Numbers] in
theorem authorization_assign (claimId : Nat) (repair : Option Repair) (a : Attributes) :
    ((repair.getD (Repair.new schemaColumn claimId)).assign schemaColumn a).authorization =
      a.authorization.getD (authorizationBefore repair) := by
  cases repair <;> cases hauthorization : a.authorization <;>
    simp [Repair.assign, authorizationBefore, Repair.new, hauthorization]

/-- The repair after a request that assigns an amount. -/
theorem withinLimit_assigned {claimId : Nat} {repair : Option Repair} {p : AmountRequest}
    {a : Attributes} {amount : Option ℚ} (h : (requestAttributes p.1).stored = some a)
    (hamount : a.amount = some amount) (hnull : repair ≠ none ∨ amount ≠ none) :
    WithinLimit (amountStep claimId repair p) ↔
      (schemaColumn.reload (a.authorization.getD (authorizationBefore repair)) = .text "1" →
        0 < amount.getD 0 ∧ amount.getD 0 ≤ 100) := by
  have hsaved : ¬ (repair = none ∧ a.amount = some none) := by
    rintro ⟨hrepair, hnone⟩
    rw [hamount, Option.some.injEq] at hnone
    exact hnull.elim (fun hr => hr hrepair) (fun ha => ha hnone)
  have hstep : amountStep claimId repair p =
      some (((repair.getD (Repair.new schemaColumn claimId)).assign schemaColumn a).reload
        schemaColumn) := by
    simp only [amountStep, asyncUpdateClaimOrRepair, savedRepair_of_stored h, if_neg hsaved]
  rw [hstep]
  simp only [WithinLimit, Option.mem_some, forall_eq', Repair.reload, authorization_assign]
  simp only [Repair.assign, hamount, Option.getD_some, Option.some.injEq, exists_eq_left']

/-- A request that posts no amount keeps the limit. -/
theorem withinLimit_not_posted {claimId : Nat} {repair : Option Repair} {p : AmountRequest}
    {a : Attributes} (h : (requestAttributes p.1).stored = some a) (hamount : a.amount = none)
    (hauth : a.authorization = none) (hload : Loaded repair) (hlimit : WithinLimit repair) :
    WithinLimit (amountStep claimId repair p) := by
  have hstep : amountStep claimId repair p =
      some (((repair.getD (Repair.new schemaColumn claimId)).assign schemaColumn a).reload
        schemaColumn) := by
    simp only [amountStep, asyncUpdateClaimOrRepair, savedRepair_of_stored h, hamount,
      reduceCtorEq, and_false, if_false]
  rw [hstep]
  simp only [WithinLimit, Option.mem_some, forall_eq', Repair.reload, authorization_assign, hauth,
    Option.getD_none, authorizationBefore_eq_one hload]
  rintro ⟨r, rfl, hone⟩
  obtain ⟨x, hx, hrange⟩ := hlimit r rfl hone
  exact ⟨x, by simp [Repair.assign, hamount, hx], hrange⟩

/-- **The step.** A request keeps the limit exactly when its amount meets
the condition. -/
theorem withinLimit_step_iff {claimId : Nat} {repair : Option Repair} (p : AmountRequest)
    (hload : Loaded repair) (h : WithinLimit repair) :
    WithinLimit (amountStep claimId repair p) ↔ AmountOk repair p.1 := by
  by_cases hcharge : ServiceChargeTaken p.1
  swap
  · rw [amountStep_of_refused (stored_of_charge_refused hcharge)]
    exact iff_of_true h fun htaken => absurd htaken hcharge
  simp only [AmountOk, hcharge, forall_true_left]
  cases hs : p.1.amount with
  | none =>
      obtain ⟨hamount, hauth⟩ := requestAttributes_not_posted hs
      obtain ⟨a, hstored, hnone, hkept⟩ := stored_of_amount hcharge (by rw [hamount]; rfl)
      exact iff_of_true
        (withinLimit_not_posted hstored hnone (hkept.trans (hauth.trans p.2)) hload h) (by simp)
  | some s =>
      simp only [Option.mem_some, forall_eq']
      rcases requestAttributes_posted hs with ⟨hb, hamount, hauth⟩ | ⟨hb, hle, hamount, hauth⟩ |
        ⟨hb, hpos, hlimit, hamount, hauth⟩ | ⟨hb, hmore, hamount, hauth⟩
      · -- NULL: an INSERT is refused, an UPDATE stores 0
        obtain ⟨a, hstored, hnull, hkept⟩ := stored_of_amount hcharge (by rw [hamount]; rfl)
        rw [hauth, p.2] at hkept
        cases hrepair : repair with
        | none =>
            refine iff_of_true ?_ (by simp [AuthorizedRow, hb])
            simp [amountStep, asyncUpdateClaimOrRepair, savedRepair_of_stored hstored, hnull,
              WithinLimit]
        | some r =>
            rw [← hrepair, withinLimit_assigned hstored hnull (.inl (by simp [hrepair]))]
            simp [hkept, authorizationBefore_eq_one hload, hb]
      · -- nothing or less, which takes the authorization back
        refine iff_of_true ?_ ⟨fun _ => hb, fun _ hpos => absurd hpos (not_lt.mpr hle)⟩
        cases hk : Numbers.float 0 with
        | none => rwa [amountStep_of_refused (stored_of_amount_refused hamount hk)]
        | some k =>
            obtain ⟨a, hstored, hkeep, hkept⟩ :=
              stored_of_amount hcharge (by rw [hamount]; simp [storeFloat, hk]; rfl)
            rw [withinLimit_assigned hstored hkeep (.inr (by simp))]
            simp [hkept, hauth, reload_int_zero]
      · cases hk : Numbers.float (Numbers.toF (cleaned s)) with
        | none =>
            rw [amountStep_of_refused (stored_of_amount_refused hamount hk)]
            exact iff_of_true h ⟨fun _ => hb, fun _ _ _ k hkept => by simp [hk] at hkept⟩
        | some k =>
            obtain ⟨a, hstored, hkeep, hkept⟩ :=
              stored_of_amount hcharge (by rw [hamount]; simp [storeFloat, hk]; rfl)
            rw [withinLimit_assigned hstored hkeep (.inr (by simp))]
            simp [hkept, hauth, reload_int_one, hb, hpos, hlimit, KeptWithinLimit, hk]
      · have hpos : 0 < Numbers.toF (cleaned s) := by linarith
        cases hk : Numbers.float (Numbers.toF (cleaned s)) with
        | none =>
            rw [amountStep_of_refused (stored_of_amount_refused hamount hk)]
            exact iff_of_true h ⟨fun _ => hb, fun _ _ _ k hkept => by simp [hk] at hkept⟩
        | some k =>
            -- an amount beyond the limit leaves the authorization alone
            obtain ⟨a, hstored, hkeep, hkept⟩ :=
              stored_of_amount hcharge (by rw [hamount]; simp [storeFloat, hk]; rfl)
            rw [withinLimit_assigned hstored hkeep (.inr (by simp))]
            simp [hkept, hauth, p.2, authorizationBefore_eq_one hload, hb, hpos,
              not_le.mpr hmore, KeptWithinLimit, hk]

/-- **The limit of the automatic authorization.** Over every run of
requests on a claim without a repair, none of which posts an
authorization: in every state an authorized repair costs more than 0 and
at most 100, exactly when in every request that its service charge does
not stop an amount posted while the repair is authorized is, once it is
cleaned, not empty, and an amount above 0 that is at most 100, or comes
while the repair is authorized, is kept by its column as one above 0 and
at most 100. -/
theorem auto_authorization_iff (claimId : Nat) (ps : List AmountRequest) :
    (∀ k, WithinLimit (run (amountStep claimId) none (ps.take k))) ↔
      StepsOk (amountStep claimId) (fun repair p => AmountOk repair p.1) none ps := by
  have hnone : WithinLimit none ∧ Loaded none := by simp [WithinLimit, Loaded]
  have hload : ∀ k, Loaded (run (amountStep claimId) none (ps.take k)) := fun k =>
    run_invariant Loaded (fun _ p h => loaded_amountStep p h) (ps.take k) none hnone.2
  rw [← forall_take_iff_stepsOk (fun repair => WithinLimit repair ∧ Loaded repair)]
  · exact forall_congr' fun k => (and_iff_left (hload k)).symm
  · intro repair p h
    rw [and_iff_left (loaded_amountStep p h.2)]
    exact withinLimit_step_iff p h.2 h.1
  · exact hnone

end

/-- A request that posts an amount and nothing else. -/
def amountRequest (amount : String) : AmountRequest :=
  ⟨{ contractorId := none, authorization := none, amount := some amount, status := none,
     serviceCharge := none }, rfl⟩

section
attribute [local instance] Numbers.exact

/-- 50 is authorized, and stays so when the amount is raised to 500. -/
theorem raised_amount_stays_authorized :
    ¬ ∀ k, WithinLimit (run (amountStep 1) none
      ([amountRequest "$50", amountRequest "$500"].take k)) := by
  intro h
  have hrow : (run (amountStep 1) none [amountRequest "$50", amountRequest "$500"]).map
      (fun r => (r.authorization, r.amount)) = some (.text "1", some 500) := by
    decide +kernel
  obtain ⟨r, hr, hval⟩ := Option.map_eq_some_iff.mp hrow
  obtain ⟨hauth, hamt⟩ := Prod.mk.inj hval
  obtain ⟨a, ha, _, hle⟩ := h 2 r hr hauth
  rw [hamt, Option.some.injEq] at ha
  rw [← ha] at hle
  norm_num at hle

end

/-! ## What comes back from the database -/

/-- What can be done to a repair between two looks at it. -/
inductive RepairEvent where
  /-- A request of `async_update_claim_or_repair`. -/
  | request (p : RepairParams)
  /-- `async_toggle_authorization`. -/
  | toggleAuthorization
  /-- Any other save. -/
  | save (a : Attributes)

/-- `toggle_authorization!` on a loaded repair. -/
def Repair.toggleAuthorization (col : AuthorizationColumn) (r : Repair) : Repair :=
  r.assign col r.toggledAuthorization

/-- The object as it was saved last; every request loads it anew. -/
def repairStep [Numbers] (col : AuthorizationColumn) (claimId : Nat) (saved : Option Repair) :
    RepairEvent → Option Repair
  | .request p =>
      match savedRepair col claimId (saved.map (Repair.reload col)) p with
      | some o => some o
      | none => saved
  | .toggleAuthorization => saved.map fun o => (o.reload col).toggleAuthorization col
  | .save a => saved.map fun o => (o.reload col).assign col a

/-- A toggle of the reloaded repair flips whether it is authorized. -/
def Flips (col : AuthorizationColumn) (o : Repair) : Prop :=
  ((o.reload col).toggleAuthorization col).authorized = !(o.reload col).authorized

/-- Two toggles, each of the reloaded repair, restore it. -/
def Restores (col : AuthorizationColumn) (o : Repair) : Prop :=
  ((((o.reload col).toggleAuthorization col).reload col).toggleAuthorization col).authorized
    = (o.reload col).authorized

/-- The reloaded repair is authorized just when the saved one was. -/
def Survives (col : AuthorizationColumn) (o : Repair) : Prop :=
  (o.reload col).authorized = o.authorized

/-- The authorization of the reloaded repair can be shown. -/
def Readable (col : AuthorizationColumn) (o : Repair) : Prop :=
  (o.reload col).formattedAuthorization ≠ none

/-- What a column that keeps the authorization would give. -/
def AuthorizationPersists (col : AuthorizationColumn) (o : Repair) : Prop :=
  Flips col o ∧ Restores col o ∧ Survives col o ∧ Readable col o

/-- A reloaded authorization is a text. -/
theorem reload_eq_text (a : Authorization) : ∃ s, schemaColumn.reload a = .text s := by
  cases a with
  | int n => exact ⟨_, rfl⟩
  | text s => exact ⟨_, rfl⟩

theorem authorized_reload (o : Repair) : (o.reload schemaColumn).authorized = false := by
  obtain ⟨s, hs⟩ := reload_eq_text o.authorization
  simp [Repair.authorized, Repair.reload, hs]

/-- A toggle of a loaded repair takes the authorization away. -/
theorem authorized_toggle_reload (o : Repair) :
    ((o.reload schemaColumn).toggleAuthorization schemaColumn).authorized = false := by
  obtain ⟨s, hs⟩ := reload_eq_text o.authorization
  simp [Repair.authorized, Repair.toggleAuthorization, Repair.toggledAuthorization,
    Repair.reload, Repair.assign, Attributes.none, hs]

/-- **The authorization does not survive.** Of every repair that
creations, saves and toggles lead to: a toggle of the reloaded row never
flips it, two toggles leave it as it is, it comes back as it was saved
only when it was saved unauthorized, and it never has a text to show. -/
theorem authorization_not_persistent [Numbers] (claimId : Nat) (es : List RepairEvent) :
    ∀ o ∈ run (repairStep schemaColumn claimId) none es,
      ¬ AuthorizationPersists schemaColumn o ∧ ¬ Flips schemaColumn o ∧
        Restores schemaColumn o ∧ (Survives schemaColumn o ↔ o.authorized = false) ∧
        ¬ Readable schemaColumn o := by
  intro o _
  have hflips : ¬ Flips schemaColumn o := by
    simp [Flips, authorized_reload, authorized_toggle_reload]
  refine ⟨fun h => hflips h.1, hflips, ?_, ?_, ?_⟩
  · simp only [Restores, authorized_reload, authorized_toggle_reload]
  · simp only [Survives, authorized_reload, eq_comm]
  · obtain ⟨s, hs⟩ := reload_eq_text o.authorization
    simp [Readable, Repair.formattedAuthorization, Repair.reload, hs]

section
attribute [local instance] Numbers.exact

/-- The repair one request for 50 creates. -/
def fiftyDollarRepair : Repair :=
  (Repair.new schemaColumn 1).assign schemaColumn (requestAttributes (amountRequest "50").1)

theorem authorization_not_persistent_fifty :
    run (repairStep schemaColumn 1) none [.request (amountRequest "50").1]
        = some fiftyDollarRepair ∧
      ¬ AuthorizationPersists schemaColumn fiftyDollarRepair := by
  have hrun : run (repairStep schemaColumn 1) none [.request (amountRequest "50").1]
      = some fiftyDollarRepair := by decide +kernel
  exact ⟨hrun, (authorization_not_persistent 1 _ _ hrun).1⟩

/-- The repair for 50 was saved as authorized; loaded again it is not,
and a toggle does not authorize it. -/
theorem authorization_lost_on_reload :
    fiftyDollarRepair.authorized = true ∧
      (fiftyDollarRepair.reload schemaColumn).authorized = false ∧
      ¬ AuthorizationPersists schemaColumn fiftyDollarRepair := by
  refine ⟨by decide +kernel, by decide +kernel, ?_⟩
  rintro ⟨hflips, _⟩
  revert hflips
  unfold Flips
  decide +kernel

end

/-! ## What is written -/

/-- The repair that is saved has an amount, and where that is 0 neither
the object nor its row is authorized. -/
def AmountWritten [Numbers] (claimId : Nat) (repair : Option Repair) (p : RepairParams) : Prop :=
  ∃ r amount, savedRepair schemaColumn claimId repair p = some r ∧ r.amount = some amount ∧
    (amount = 0 → r.authorized = false ∧ (r.reload schemaColumn).authorization ≠ .text "1")

theorem isSpace_of_amountChar {c : Char} (h : c.isDigit = true ∨ c = '.') : isSpace c = false := by
  rcases h with hdigit | rfl
  · have := digit_bounds hdigit
    simp [isSpace]
    omega
  · rfl

/-- Something is left of an amount that has a digit or a point. -/
theorem blank_cleaned_iff (s : String) :
    blank (cleaned s) = false ↔ ∃ c ∈ s.toList, c.isDigit = true ∨ c = '.' := by
  have hkept : ∀ c, c ∈ (cleaned s).toList ↔ c ∈ s.toList ∧ (c.isDigit = true ∨ c = '.') := by
    intro c
    rw [cleaned, String.toList_ofList, List.mem_filter, Bool.or_eq_true, beq_iff_eq]
  rw [blank, List.all_eq_false]
  constructor
  · rintro ⟨c, hc, _⟩
    exact ⟨c, (hkept c).mp hc⟩
  · rintro ⟨c, hc, hamount⟩
    exact ⟨c, (hkept c).mpr ⟨hc, hamount⟩, by simp [isSpace_of_amountChar hamount]⟩

/-- The number that is written for a posted text: 0 for less. -/
def postedAmount [Numbers] (s : String) : ℚ := max 0 (Numbers.toF (cleaned s))

/-- The repair ends up authorized: for a number above 0 and up to 100
always, above 100 when the request or else the repair says so. -/
def EndsAuthorized [Numbers] (repair : Option Repair) (p : RepairParams) (s : String) : Prop :=
  0 < Numbers.toF (cleaned s) ∧ (Numbers.toF (cleaned s) ≤ 100 ∨
    schemaColumn.reload (p.authorization.getD (authorizationBefore repair)) = .text "1")

section
variable [Numbers]

/-- An amount that is not empty is assigned as a number, with the
authorization that goes with it. -/
theorem requestAttributes_amount {p : RepairParams} {s : String} (hs : p.amount = some s)
    (hb : blank (cleaned s) = false) (repair : Option Repair) :
    (requestAttributes p).amount = some (some (postedAmount s)) ∧
      (schemaColumn.reload ((requestAttributes p).authorization.getD
        (authorizationBefore repair)) = .text "1" ↔ EndsAuthorized repair p s) := by
  rcases requestAttributes_posted hs with ⟨hblank, _⟩ | ⟨_, hle, hamount, hauth⟩ |
    ⟨_, hpos, hlimit, hamount, hauth⟩ | ⟨_, hmore, hamount, hauth⟩
  · rw [hb] at hblank
    cases hblank
  · refine ⟨by rw [hamount, postedAmount, max_eq_left hle], ?_⟩
    simp [hauth, reload_int_zero, EndsAuthorized, not_lt.mpr hle]
  · refine ⟨by rw [hamount, postedAmount, max_eq_right hpos.le], ?_⟩
    simp [hauth, reload_int_one, EndsAuthorized, hpos, hlimit]
  · have hpos : 0 < Numbers.toF (cleaned s) := by linarith
    refine ⟨by rw [hamount, postedAmount, max_eq_right hpos.le], ?_⟩
    simp [hauth, EndsAuthorized, hpos, not_le.mpr hmore]

omit [Numbers] in
/-- The authorization of the object and of its row. -/
theorem not_authorized_iff (r : Repair) :
    r.authorized = false ∧ (r.reload schemaColumn).authorization ≠ .text "1" ↔
      schemaColumn.reload r.authorization ≠ .text "1" := by
  refine and_iff_right_of_imp fun hrow => ?_
  by_contra hauth
  rw [Bool.not_eq_false, Repair.authorized, beq_iff_eq] at hauth
  exact hrow (by simp only [Repair.reload, hauth, reload_int_one])

/-- What a posted amount comes to, by what is left of it. -/
theorem amountWritten_iff (claimId : Nat) (repair : Option Repair) {p : RepairParams} {s : String}
    (hs : p.amount = some s) :
    AmountWritten claimId repair p ↔
      blank (cleaned s) = false ∧ ServiceChargeTaken p ∧
        ∃ k, Numbers.float (postedAmount s) = some k ∧ (k = 0 → ¬ EndsAuthorized repair p s) := by
  unfold AmountWritten
  simp only [not_authorized_iff]
  by_cases hcharge : ServiceChargeTaken p
  swap
  · refine iff_of_false ?_ fun h => hcharge h.2.1
    rintro ⟨r, amount, hsaved, _⟩
    rw [savedRepair_of_refused (stored_of_charge_refused hcharge)] at hsaved
    cases hsaved
  cases hb : blank (cleaned s) with
  | true =>
      refine iff_of_false ?_ fun h => by cases h.1
      rintro ⟨r, amount, hsaved, hamount, _⟩
      rcases requestAttributes_posted hs with
        ⟨_, hnull, _⟩ | ⟨hblank, _⟩ | ⟨hblank, _⟩ | ⟨hblank, _⟩
      · obtain ⟨a, hstored, hkeep, _⟩ := stored_of_amount hcharge (by rw [hnull]; rfl)
        rw [savedRepair_of_stored hstored] at hsaved
        split_ifs at hsaved
        rw [← Option.some.inj hsaved, Repair.assign, hkeep] at hamount
        cases hamount
      all_goals
        rw [hb] at hblank
        cases hblank
  | false =>
      obtain ⟨hassigned, hends⟩ := requestAttributes_amount hs hb repair
      simp only [true_and, hcharge]
      cases hk : Numbers.float (postedAmount s) with
      | none =>
          refine iff_of_false ?_ (by simp)
          rintro ⟨r, amount, hsaved, _⟩
          rw [savedRepair_of_refused (stored_of_amount_refused hassigned hk)] at hsaved
          cases hsaved
      | some k =>
          obtain ⟨a, hstored, hkeep, hkept⟩ :=
            stored_of_amount hcharge (by rw [hassigned]; simp [storeFloat, hk]; rfl)
          rw [savedRepair_of_stored hstored, if_neg (by simp [hkeep])]
          have hwritten : ((repair.getD (Repair.new schemaColumn claimId)).assign schemaColumn
              a).amount = some k := by
            simp only [Repair.assign, hkeep, Option.getD_some]
          rw [← hkept, ← authorization_assign claimId] at hends
          constructor
          · rintro ⟨r, amount, hsaved, hamount, hzero⟩
            obtain rfl := Option.some.inj hsaved
            obtain rfl := Option.some.inj (hwritten.symm.trans hamount)
            exact ⟨k, rfl, fun h => mt hends.mpr (hzero h)⟩
          · rintro ⟨_, heq, hzero⟩
            obtain rfl := Option.some.inj heq
            exact ⟨_, k, rfl, hwritten, fun h => mt hends.mp (hzero h)⟩

/-- Whatever else is posted, and whether the claim has a repair: an
amount is written, and none of 0 is authorized, exactly when the posted
text has a digit or a point, the columns take the numbers, and the
amount of a repair that ends up authorized is not kept as 0. -/
theorem repair_amount_written_iff (claimId : Nat) (repair : Option Repair) (p : RepairParams)
    (s : String) :
    AmountWritten claimId repair { p with amount := some s } ↔
      (∃ c ∈ s.toList, c.isDigit = true ∨ c = '.') ∧ ServiceChargeTaken p ∧
        ∃ k, Numbers.float (postedAmount s) = some k ∧ (k = 0 → ¬ EndsAuthorized repair p s) := by
  rw [← blank_cleaned_iff]
  exact amountWritten_iff claimId repair rfl

end

section
attribute [local instance] Numbers.exact

/-- A repair for 50, and a request that says so in words and authorizes
it: NULL is assigned, and the row says 0 and authorized. -/
theorem empty_amount_authorized :
    let request : RepairParams :=
      { contractorId := none, authorization := some (.text "1"), amount := some "n/a",
        status := none, serviceCharge := none }
    (savedRepair schemaColumn 1 (some fiftyDollarRepair) request).map Repair.amount = some none ∧
      (asyncUpdateClaimOrRepair schemaColumn 1 (some fiftyDollarRepair) request).map
        (fun r => (r.authorization, r.amount)) = some (.text "1", some 0) ∧
      savedRepair schemaColumn 1 none request = none ∧
      ¬ AmountWritten 1 (some fiftyDollarRepair) request ∧ ¬ AmountWritten 1 none request := by
  intro request
  have hnull : (savedRepair schemaColumn 1 (some fiftyDollarRepair) request).map Repair.amount =
      some none := by decide +kernel
  have hrefused : savedRepair schemaColumn 1 none request = none := by decide +kernel
  refine ⟨hnull, by decide +kernel, hrefused, ?_, ?_⟩
  · rintro ⟨r, amount, hsaved, hamount, _⟩
    rw [hsaved, Option.map_some, hamount] at hnull
    cases hnull
  · rintro ⟨r, amount, hsaved, _⟩
    rw [hrefused] at hsaved
    cases hsaved

end

end HomeWarranty.Claims
