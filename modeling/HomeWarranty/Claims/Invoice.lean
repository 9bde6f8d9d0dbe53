/-
HomeWarranty.Claims.Invoice — the edits of a claim and the receipt of its
invoice.

`ClaimsController#update` has five branches: the receive date given by
itself, taken back, the invoice status given by itself, taken back, and
the whole form. `async_update_claim_or_repair` writes one field of the
claim (its branch for repairs is in `Claims.Repair`). Each of them ends
in saves of the claim, so its settlement goes through the callback every
time: `update_settlement` says that the action is a run of the
settlement.

The receive date reaches the claim on three ways. `update` reads a date
month first and sets the status with it. `async_update_claim_or_repair`
hands the text to ActiveRecord (`castTime`), which reads it day first or
not at all, and does not touch the status.
`invoice_receipt_one_meaning_iff` says when the three still agree.

Of a time the model keeps the date: nothing reads the rest. The columns
are DATETIME, and a date that is assigned to one is midnight of the
server's clock, read back in the zone of the application; the server is
taken not to be east of that zone, so it is the same date. Keys of the
form that the action does not look at are left out.
-/
import HomeWarranty.Claims.Settlement
import HomeWarranty.Ruby.Column

namespace HomeWarranty.Claims

open Lib Ruby

/-! ## Claims -/

/-- A claim as an object in memory. -/
structure Claim where
  settlement : Settlement
  statusCode : Option Int
  invoiceReceive : Option Date
  invoiceStatus : Option String
  updatedBy : Option String
  releaseReceived : Option Date
  releaseSent : Option Date
  releasePaid : Option Date
  ctrCheckDate : Option Date
  relCheckDate : Option Date
  deriving DecidableEq

/-- `Claim.find`. -/
def Claim.find [Numbers] (c : Claim) : Claim := { c with settlement := c.settlement.step .reload }

/-- `save`. A claim has no validations. -/
def Claim.save [Numbers] (c : Claim) : Claim := { c with settlement := c.settlement.save }

/-- `update_attributes`. -/
def Claim.updateAttributes [Numbers] (c : Claim) (assign : Claim → Claim) : Claim := (assign c).save

/-- `Date.strptime(s, '%m/%d/%Y')`, and with `'%d/%m/%Y'` when that
raises. -/
def parseDay (s : String) : Except RubyError Date :=
  match strptimeMdy s with
  | some d => .ok d
  | none =>
      match strptimeDmy s with
      | some d => .ok d
      | none => .error .argumentError

/-! ## `update` -/

/-- `params[:claim]`: a key may be missing, and its value may be `nil`. -/
structure ClaimForm where
  buyout : Option (Option String)
  reimbursement : Option (Option String)
  releaseReceived : Option (Option String)
  releaseSent : Option (Option String)
  releasePaid : Option (Option String)
  ctrCheckDate : Option (Option String)
  relCheckDate : Option (Option String)
  invoiceReceive : Option (Option String)
  invoiceStatus : Option (Option String)

def ClaimForm.empty : ClaimForm where
  buyout := none
  reimbursement := none
  releaseReceived := none
  releaseSent := none
  releasePaid := none
  ctrCheckDate := none
  relCheckDate := none
  invoiceReceive := none
  invoiceStatus := none

/-- The parameters of `update`; `claim` is `none` when `params[:claim]`
is not present. -/
structure UpdateParams where
  invoiceReceive : Option String
  invoiceStatus : Option String
  claim : Option ClaimForm

/-- A date of the form, as it is written to its column. -/
def formDate (old : Option Date) : Option (Option String) → Except RubyError (Option Date)
  | none => .ok old
  | some v => if presentOpt v then (parseDay (v.getD "")).map storeDate else .ok none

/-- The invoice status that is saved with the form: a new receive date
sets it. -/
def ClaimForm.statusWith (form : ClaimForm) (c : Claim) (received : Option Date) :
    Option (Option String) :=
  match received, c.invoiceReceive with
  | none, _ => form.invoiceStatus
  | some _, none => some (some "Received")
  | some d, some e =>
      if e.strftimeMdy = d.strftimeMdy then form.invoiceStatus else some (some "Received")

/-- `claim_date`, when the form has a receive date. -/
def ClaimForm.receiveDate (form : ClaimForm) : Except RubyError (Option Date) :=
  let v := form.invoiceReceive.getD none
  if presentOpt v then (parseDay (v.getD "")).map some else .ok none

/-- The assignments of the two amounts. -/
def ClaimForm.settlementEvents (form : ClaimForm) : List SettlementEvent :=
  (form.buyout.map SettlementEvent.setBuyout).toList ++
    (form.reimbursement.map SettlementEvent.setReimbursement).toList

section
variable (castTime : String → Option Date) (updatedBy : Option String)

/-- What a text makes of `invoice_receive`. -/
def castReceive : Option String → Option Date
  | none => none
  | some s => if blank s then none else (castTime s).bind storeDate

/-- The last branch of `update`, for a form. -/
def updateForm [Numbers] (c : Claim) (form : ClaimForm) : Except RubyError Claim := do
  let releaseReceived ← formDate c.releaseReceived form.releaseReceived
  let releaseSent ← formDate c.releaseSent form.releaseSent
  let releasePaid ← formDate c.releasePaid form.releasePaid
  let ctrCheckDate ← formDate c.ctrCheckDate form.ctrCheckDate
  let relCheckDate ← formDate c.relCheckDate form.relCheckDate
  let received ← form.receiveDate
  let c := c.updateAttributes fun c => { c with
    settlement := run Settlement.step c.settlement form.settlementEvents
    releaseReceived := releaseReceived
    releaseSent := releaseSent
    releasePaid := releasePaid
    ctrCheckDate := ctrCheckDate
    relCheckDate := relCheckDate
    invoiceReceive := (form.invoiceReceive.map (castReceive castTime)).getD c.invoiceReceive
    invoiceStatus := (form.statusWith c received).getD c.invoiceStatus }
  match received with
  | none => return c
  | some d => return c.updateAttributes fun c => { c with invoiceReceive := storeDate d }

/-- `update`, up to the last save. -/
def updateBranch [Numbers] (c : Claim) (p : UpdateParams) : Except RubyError Claim :=
  if presentOpt p.invoiceReceive then
    (parseDay (p.invoiceReceive.getD "")).map fun d =>
      c.updateAttributes fun c =>
        { c with invoiceReceive := storeDate d, invoiceStatus := some "Received" }
  else if p.claim.isNone && p.invoiceReceive == some "" then
    .ok (c.updateAttributes fun c => { c with invoiceReceive := none })
  else if presentOpt p.invoiceStatus then
    .ok (c.updateAttributes fun c => { c with invoiceStatus := p.invoiceStatus })
  else if p.claim.isNone && p.invoiceStatus.getD "" == "" then
    .ok (c.updateAttributes fun c => { c with invoiceStatus := none })
  else
    match p.claim with
    | none => .ok c.save
    | some form => updateForm castTime c form

/-- `ClaimsController#update`. -/
def claimsUpdate [Numbers] (c : Claim) (p : UpdateParams) : Except RubyError Claim :=
  (updateBranch castTime c.find p).map fun c =>
    c.updateAttributes fun c => { c with updatedBy := updatedBy }

/-! ## `async_update_claim_or_repair` -/

structure AsyncUpdateParams where
  statusCode : Option String
  invoiceStatus : Option String
  invoiceReceive : Option String

/-- `async_update_claim_or_repair` without `params[:repair]`. -/
def Claim.asyncUpdateClaimOrRepair [Numbers] (c : Claim) (p : AsyncUpdateParams) : Claim :=
  match p.statusCode, p.invoiceStatus, p.invoiceReceive with
  | some s, _, _ =>
      (c.find.updateAttributes fun c => { c with statusCode := integerColumn (some s) })
        |>.updateAttributes fun c => { c with updatedBy := updatedBy }
  | none, some s, _ =>
      (c.find.updateAttributes fun c => { c with invoiceStatus := some s })
        |>.updateAttributes fun c => { c with updatedBy := updatedBy }
  | none, none, some s =>
      (c.find.updateAttributes fun c => { c with invoiceReceive := castReceive castTime (some s) })
        |>.updateAttributes fun c => { c with updatedBy := updatedBy }
  | none, none, none => c.find

/-! ## The settlement along an update -/

/-- An edit of the amounts that comes with a form. -/
def FromForm (form : Option ClaimForm) (e : SettlementEvent) : Prop :=
  ∃ f ∈ form, e ∈ f.settlementEvents

theorem updateForm_settlement [Numbers] {c c' : Claim} {form : ClaimForm}
    (h : updateForm castTime c form = .ok c') :
    ∃ es, c'.settlement = run Settlement.step c.settlement es ∧
      ∀ e ∈ es, e = .save ∨ FromForm (some form) e := by
  simp only [updateForm, bind_eq_ok] at h
  obtain ⟨_, _, _, _, _, _, _, _, _, _, received, _, h⟩ := h
  cases received with
  | none =>
      refine ⟨form.settlementEvents ++ [.save], ?_, ?_⟩
      · rw [run_snoc, ← Except.ok.inj h]
        rfl
      · simp +contextual [FromForm, or_comm]
  | some d =>
      refine ⟨form.settlementEvents ++ [.save] ++ [.save], ?_, ?_⟩
      · rw [run_snoc, run_snoc, ← Except.ok.inj h]
        rfl
      · simp +contextual [FromForm, or_comm]

theorem updateBranch_settlement [Numbers] {c c' : Claim} {p : UpdateParams}
    (h : updateBranch castTime c p = .ok c') :
    ∃ es, c'.settlement = run Settlement.step c.settlement es ∧
      ∀ e ∈ es, e = .save ∨ FromForm p.claim e := by
  -- every branch but that of the form writes other columns and saves
  have hsaved : ∀ d : Claim, d.settlement = c.settlement.save → d = c' →
      ∃ es, c'.settlement = run Settlement.step c.settlement es ∧
        ∀ e ∈ es, e = .save ∨ FromForm p.claim e := by
    intro d hd heq
    rw [← heq]
    exact ⟨[.save], hd, fun e he => .inl (List.mem_singleton.mp he)⟩
  unfold updateBranch at h
  split at h
  · obtain ⟨d, _, h⟩ := map_eq_ok.mp h
    exact hsaved _ rfl h
  · split at h
    · exact hsaved _ rfl (Except.ok.inj h)
    · split at h
      · exact hsaved _ rfl (Except.ok.inj h)
      · split at h
        · exact hsaved _ rfl (Except.ok.inj h)
        · split at h
          · exact hsaved _ rfl (Except.ok.inj h)
          · rename_i form hform
            rw [hform]
            exact updateForm_settlement castTime h

/-- What `update` does to the two amounts is a run of edits and saves of
the settlement that starts with the claim being found; the edits are
those of the form. -/
theorem update_settlement [Numbers] {c c' : Claim} {p : UpdateParams}
    (h : claimsUpdate castTime updatedBy c p = .ok c') :
    ∃ es, c'.settlement = run Settlement.step c.settlement (.reload :: es) ∧
      ∀ e ∈ es, e = .save ∨ FromForm p.claim e := by
  unfold claimsUpdate at h
  obtain ⟨b, hb, h⟩ := map_eq_ok.mp h
  obtain ⟨es, hes, hform⟩ := updateBranch_settlement castTime hb
  refine ⟨es ++ [.save], ?_, ?_⟩
  · rw [← List.cons_append, run_snoc, run_cons, ← h]
    exact congrArg Settlement.save hes
  · intro e he
    rcases List.mem_append.mp he with hold | hlast
    · exact hform e hold
    · exact .inl (List.mem_singleton.mp hlast)

/-- So `update` keeps at most one positive amount in the row, when the
form posts none that becomes positive by being cut. -/
theorem update_keeps_inv [Numbers] {c c' : Claim} {p : UpdateParams}
    (h : claimsUpdate castTime updatedBy c p = .ok c') (hinv : c.settlement.Inv)
    (hkept : ∀ e, FromForm p.claim e → e.Kept) : c'.settlement.Inv := by
  obtain ⟨es, hes, hform⟩ := update_settlement castTime updatedBy h
  rw [hes]
  refine Settlement.inv_run hinv fun e he => ?_
  rcases List.mem_cons.mp he with rfl | he
  · trivial
  · rcases hform e he with rfl | hposted
    · trivial
    · exact hkept e hposted

/-! ## The receipt of an invoice -/

/-- The claim with a receive date, as it is meant. -/
def Claim.received [Numbers] (c : Claim) (d : Date) : Claim :=
  { c.find with invoiceReceive := some d, invoiceStatus := some "Received", updatedBy := updatedBy }

/-- The receive date by itself. -/
def topLevelRequest (d : Date) : UpdateParams where
  invoiceReceive := some d.strftimeMdy
  invoiceStatus := none
  claim := none

/-- A form with nothing but the receive date. -/
def receiveForm (d : Date) : ClaimForm :=
  { ClaimForm.empty with invoiceReceive := some (some d.strftimeMdy) }

/-- The receive date in the form. -/
def formRequest (d : Date) : UpdateParams where
  invoiceReceive := none
  invoiceStatus := none
  claim := some (receiveForm d)

/-- The receive date from the list of claims. -/
def asyncRequest (d : Date) : AsyncUpdateParams where
  statusCode := none
  invoiceStatus := none
  invoiceReceive := some d.strftimeMdy

/-- All three ways leave the claim that is meant. -/
structure OneMeaning [Numbers] (c : Claim) (d : Date) : Prop where
  topLevel : claimsUpdate castTime updatedBy c (topLevelRequest d) = .ok (c.received updatedBy d)
  form : claimsUpdate castTime updatedBy c (formRequest d) = .ok (c.received updatedBy d)
  async : c.asyncUpdateClaimOrRepair castTime updatedBy (asyncRequest d) = c.received updatedBy d

/-- ActiveRecord reads a date with slashes day first, or not at all. -/
def DayFirst (castTime : String → Option Date) : Prop :=
  ∀ d : Date, castTime d.strftimeMdy = none ∨
    castTime d.strftimeMdy = strptimeDmy d.strftimeMdy

end

theorem blank_strftimeMdy (d : Date) : blank d.strftimeMdy = false := by
  unfold blank
  rw [toList_strftimeMdy]
  cases hcs : pad 2 d.month with
  | nil => exact absurd hcs (pad_ne_nil 2 _)
  | cons c cs =>
      have hc := digit_bounds (pad_head hcs)
      have : isSpace c = false := by simp [isSpace]; omega
      simp [this]

/-- A date of the calendar is below the bounds of two digits. -/
theorem validCivil_bounds {y : Int} {m d : Nat} (h : validCivil y m d = true) :
    m < 100 ∧ d < 100 := by
  have hdays : daysInMonth y m ≤ 31 := by
    unfold daysInMonth
    split <;> (try split) <;> omega
  simp only [validCivil, clipDay, Bool.and_eq_true, decide_eq_true_eq, beq_iff_eq] at h
  obtain ⟨⟨⟨_, hm⟩, _⟩, hd⟩ := h
  split at hd <;> omega

theorem parseDay_strftimeMdy {d : Date} (h : validCivil d.year d.month d.day = true) :
    parseDay d.strftimeMdy = .ok d := by
  obtain ⟨hm, hd⟩ := validCivil_bounds h
  simp [parseDay, strptimeMdy_strftimeMdy hm hd, h]

section
variable {castTime : String → Option Date} {updatedBy : Option String} {c : Claim} {d : Date}

theorem update_topLevel [Numbers] (h : validCivil d.year d.month d.day = true) :
    claimsUpdate castTime updatedBy c (topLevelRequest d) =
      .ok { c.find with
        invoiceReceive := storeDate d, invoiceStatus := some "Received",
        updatedBy := updatedBy } := by
  have hbranch : updateBranch castTime c.find (topLevelRequest d) =
      .ok { c.find with invoiceReceive := storeDate d, invoiceStatus := some "Received" } := by
    simp only [updateBranch, topLevelRequest, presentOpt_some, blank_strftimeMdy, Bool.not_false,
      if_true, Option.getD_some, parseDay_strftimeMdy h]
    rfl
  rw [claimsUpdate, hbranch]
  rfl

theorem receiveDate_receiveForm (h : validCivil d.year d.month d.day = true) :
    (receiveForm d).receiveDate = .ok (some d) := by
  simp [ClaimForm.receiveDate, receiveForm, blank_strftimeMdy, parseDay_strftimeMdy h, Except.map]

/-- The stored date has another text, so the status is set. -/
theorem statusWith_receiveForm (hne : c.invoiceReceive ≠ some d) :
    (receiveForm d).statusWith c (some d) = some (some "Received") := by
  cases hstored : c.invoiceReceive with
  | none => simp [ClaimForm.statusWith, hstored]
  | some e =>
      have htext : e.strftimeMdy ≠ d.strftimeMdy := by
        intro heq
        rw [strftimeMdy_injective heq] at hstored
        exact hne hstored
      simp [ClaimForm.statusWith, hstored, htext]

/-- The text is written first, then the date that was read from it. -/
theorem updateForm_receiveForm [Numbers] (h : validCivil d.year d.month d.day = true) :
    updateForm castTime c.find (receiveForm d) = .ok { c.find with
      invoiceReceive := storeDate d
      invoiceStatus := ((receiveForm d).statusWith c.find (some d)).getD c.invoiceStatus } := by
  unfold updateForm
  rw [receiveDate_receiveForm h]
  rfl

theorem update_form [Numbers] (h : validCivil d.year d.month d.day = true)
    (hne : c.invoiceReceive ≠ some d) :
    claimsUpdate castTime updatedBy c (formRequest d) =
      .ok { c.find with
        invoiceReceive := storeDate d, invoiceStatus := some "Received",
        updatedBy := updatedBy } := by
  have hbranch : updateBranch castTime c.find (formRequest d) =
      updateForm castTime c.find (receiveForm d) := rfl
  have hstatus : (receiveForm d).statusWith c.find (some d) = some (some "Received") :=
    statusWith_receiveForm hne
  rw [claimsUpdate, hbranch, updateForm_receiveForm h, hstatus]
  rfl

theorem asyncUpdate_receive [Numbers] :
    c.asyncUpdateClaimOrRepair castTime updatedBy (asyncRequest d) =
      { c.find with
        invoiceReceive := (castTime d.strftimeMdy).bind storeDate, updatedBy := updatedBy } := by
  simp only [Claim.asyncUpdateClaimOrRepair, asyncRequest, Claim.updateAttributes, castReceive,
    blank_strftimeMdy]
  rfl

/-- The list of claims leaves the date that is meant exactly when day
and month are the same number and the text is read at all. -/
theorem castTime_eq_iff (hcast : DayFirst castTime) (h : validCivil d.year d.month d.day = true) :
    (castTime d.strftimeMdy).bind storeDate = some d ↔
      d.day = d.month ∧ castTime d.strftimeMdy ≠ none ∧ storeDate d = some d := by
  obtain ⟨hm, hd⟩ := validCivil_bounds h
  rcases hcast d with hnone | hdmy
  · simp [hnone]
  · rw [hdmy, strptimeDmy_strftimeMdy hm hd]
    constructor
    · intro heq
      split at heq
      · have hdate := (storeDate_eq_some_iff.mp heq).1
        have hday : d.day = d.month := congrArg Date.month hdate
        rw [Option.bind_some, hdate] at heq
        exact ⟨hday, by simp_all, heq⟩
      · cases heq
    · rintro ⟨hday, -, hstore⟩
      rw [if_pos (by rw [hday] at h ⊢; exact h), Option.bind_some]
      have hswap : (⟨d.year, d.day, d.month⟩ : Date) = d := by
        cases d
        simp_all
      rw [hswap, hstore]

/-- The three ways to set the receive date leave the same claim exactly
when the status is `Received` already, day and month are the same number,
ActiveRecord reads the text and the column can hold the date. -/
theorem invoice_receipt_one_meaning_iff [Numbers] (hcast : DayFirst castTime)
    (hd : validCivil d.year d.month d.day = true) (hne : c.invoiceReceive ≠ some d) :
    OneMeaning castTime updatedBy c d ↔
      c.invoiceStatus = some "Received" ∧ d.day = d.month ∧
        castTime d.strftimeMdy ≠ none ∧ storeDate d = some d := by
  constructor
  · intro h
    have hasync := h.async
    rw [asyncUpdate_receive] at hasync
    have hdate := congrArg Claim.invoiceReceive hasync
    have hstatus := congrArg Claim.invoiceStatus hasync
    exact ⟨hstatus, (castTime_eq_iff hcast hd).mp hdate⟩
  · rintro ⟨hstatus, hsame⟩
    have hstore := hsame.2.2
    have hdate := (castTime_eq_iff hcast hd).mpr hsame
    refine ⟨?_, ?_, ?_⟩
    · rw [update_topLevel hd, hstore, Claim.received]
    · rw [update_form hd hne, hstore, Claim.received]
    · rw [asyncUpdate_receive, hdate, Claim.received, ← hstatus]
      rfl

end

section
attribute [local instance] Numbers.exact

/-- A claim without an invoice. -/
def blankClaim : Claim where
  settlement := Settlement.load .null .null
  statusCode := some 0
  invoiceReceive := none
  invoiceStatus := none
  updatedBy := none
  releaseReceived := none
  releaseSent := none
  releasePaid := none
  ctrCheckDate := none
  relCheckDate := none

/-- The fourth of March from the list of claims becomes the third of
April, and the status stays empty. -/
theorem invoice_receipt_from_list :
    DayFirst strptimeDmy ∧ blankClaim.invoiceReceive ≠ some ⟨2015, 3, 4⟩ ∧
    (blankClaim.asyncUpdateClaimOrRepair strptimeDmy none
      (asyncRequest ⟨2015, 3, 4⟩)).invoiceReceive
      = some ⟨2015, 4, 3⟩ ∧
    ¬ OneMeaning strptimeDmy none blankClaim ⟨2015, 3, 4⟩ := by
  refine ⟨fun d => .inr rfl, by decide, by decide +kernel, fun h => ?_⟩
  have hstatus := congrArg Claim.invoiceStatus h.async
  exact absurd hstatus (by decide +kernel)

/-- A claim whose invoice was received gets the fifth of May on all
three ways. -/
theorem invoice_receipt_same_number :
    DayFirst strptimeDmy ∧
    OneMeaning strptimeDmy (some "Rita") { blankClaim with invoiceStatus := some "Received" }
      ⟨2015, 5, 5⟩ := by
  have hcast : DayFirst strptimeDmy := fun d => .inr rfl
  refine ⟨hcast, (invoice_receipt_one_meaning_iff hcast (by decide +kernel) (by decide)).mpr ?_⟩
  exact ⟨rfl, rfl, by decide +kernel, rfl⟩

end

end HomeWarranty.Claims
