/-
HomeWarranty.Affiliate.Isolation — whose data a request of the affiliate
pages sees and changes.

The partner of a request is taken from three places in turn: the session
(after a login with another site), the parameter `partner_id`, and
Devise. The parameter is believed: whoever sends it is that partner. Four
actions then look their row up by an id of the request alone, whosever
row it is.

`handle` is one request: the rows it shows or loads, and the tables it
leaves. `Isolated` is what it should be, and `isolated_iff` says when it
is: the session names the partner, or there is nobody to be; and an
action that takes an id is given a row of that partner.

The look for an equal token or sub id, which every save makes over all
rows, is not counted as reading: no row of it is shown. Passwords are
left out; whether the old one was right is part of the request.
-/
import HomeWarranty.Affiliate.Partner

namespace HomeWarranty.Affiliate

open Lib Ruby

/-! ## The rows -/

structure SubAffiliate where
  id : Nat
  partnerId : Option Nat
  subIds : Option String
  subidLabel : Option String
  trackLink : Option String
  deriving DecidableEq

instance : Record SubAffiliate where
  key := SubAffiliate.id
  withKey n s := { s with id := n }
  key_withKey := fun _ _ => rfl

structure AuthToken where
  id : Nat
  partnerId : Option Nat
  authToken : Option String
  deriving DecidableEq

instance : Record AuthToken where
  key := AuthToken.id
  withKey n t := { t with id := n }
  key_withKey := fun _ _ => rfl

/-- The validations of `SubAffiliate`: sub ids that no other row has. -/
def SubAffiliate.valid (t : Table SubAffiliate) (s : SubAffiliate) : Bool :=
  presentOpt s.subIds && !t.rows.any (fun r => r.subIds == s.subIds && r.id != s.id)

structure Desk where
  db : Db
  subAffiliates : Table SubAffiliate
  authTokens : Table AuthToken

/-- A row that a request has loaded. -/
inductive Row where
  | partner (p : Partner)
  | subAffiliate (s : SubAffiliate)
  | authToken (t : AuthToken)
  | lead (c : Customer)
  deriving DecidableEq

/-- The partner a row belongs to. -/
def Row.owner : Row → Option Nat
  | .partner p => some p.id
  | .subAffiliate s => s.partnerId
  | .authToken t => t.partnerId
  | .lead c => c.partnerId

/-! ## The request -/

/-- The accessible attributes of a sub affiliate; `none` is not posted. -/
structure SubAffiliateParams where
  partnerId : Option (Option Nat)
  subIds : Option (Option String)
  subidLabel : Option (Option String)
  trackLink : Option (Option String)

/-- `attributes = params[:sub_affiliate]`. -/
def SubAffiliateParams.assign (q : SubAffiliateParams) (s : SubAffiliate) : SubAffiliate :=
  { s with
    partnerId := q.partnerId.getD s.partnerId
    subIds := q.subIds.getD s.subIds
    subidLabel := q.subidLabel.getD s.subidLabel
    trackLink := q.trackLink.getD s.trackLink }

/-- The row as the columns hold it. -/
def storedSubAffiliate (s : SubAffiliate) : SubAffiliate :=
  { s with
    subIds := s.subIds.map textColumn
    subidLabel := s.subidLabel.map textColumn
    trackLink := s.trackLink.map textColumn }

/-- The actions of `PartnersController` and `SubAffilatesController`. -/
inductive PartnerAction where
  /-- The leads, or those of a stretch of days. -/
  | index (shown : Customer → Bool)
  | generateApiKey (draws : String × String) (saves : Bool)
  | authToken
  | tokenDestroy (id : Nat)
  | myAccount
  | update (posted : PartnerParams) (saves : Bool)
  /-- `accepted`: the old password is right and the new one was typed
  twice. -/
  | changePassword (accepted : Bool) (posted : PartnerParams) (saves : Bool)
  | subIndex
  | subCreate (posted : SubAffiliateParams)
  | subEdit (id : Nat)
  | subUpdate (id : Nat) (posted : SubAffiliateParams)
  | subDestroy (id : Nat)

structure PartnerRequest where
  /-- `session[:partner_id]`. -/
  session : Option Nat
  /-- The partner Devise has signed in. -/
  devise : Option Nat
  /-- `params[:partner_id]`. -/
  partnerId : Option String
  action : PartnerAction

/-! ## Who asks -/

/-- A partner that is not deleted. -/
def livePartner (desk : Desk) (id : Nat) : Option Partner :=
  (desk.db.partners.find? id).filter fun p => !p.deleted

/-- `Partner.find(params[:partner_id])`. -/
def findPartnerParam (desk : Desk) (s : String) : Option Partner :=
  if toI s < 0 then none else livePartner desk (toI s).toNat

/-- `devise_current_partner`. -/
def devisePartner (desk : Desk) (r : PartnerRequest) : Option Partner :=
  r.devise.bind (livePartner desk)

/-- `current_partner`. -/
def currentPartner (desk : Desk) (r : PartnerRequest) : Except RubyError (Option Partner) :=
  match r.session with
  | some id =>
      match livePartner desk id with
      | none => .error .recordNotFound
      | some p => .ok (some p)
  | none =>
      if blankOpt r.partnerId then .ok (devisePartner desk r)
      else
        match findPartnerParam desk (r.partnerId.getD "") with
        | none => .error .recordNotFound
        | some p => .ok (some p)

/-! ## What is done -/

/-- The rows a request has loaded, and what it leaves. -/
structure Answer where
  reads : List Row
  desk : Desk

/-- A sub affiliate is built for the partner, whatever id was posted. -/
def builtSubAffiliate (p : Partner) (posted : SubAffiliateParams) : SubAffiliate :=
  { posted.assign
      { id := 0, partnerId := none, subIds := none, subidLabel := none, trackLink := none } with
    partnerId := some p.id }

/-- An action, for partner `p`. -/
def performAction (desk : Desk) (p : Partner) : PartnerAction → Answer
  | .index shown =>
      ⟨(desk.db.customers.rows.filter fun c => c.partnerId == some p.id && shown c).map .lead,
        desk⟩
  | .generateApiKey draws saves =>
      ⟨[], { desk with db := generateApiKey desk.db p.id draws saves }⟩
  | .authToken =>
      ⟨(desk.authTokens.rows.filter fun t => t.partnerId == some p.id).map .authToken, desk⟩
  | .tokenDestroy id =>
      match desk.authTokens.find? id with
      | none => ⟨[], desk⟩
      | some t => ⟨[.authToken t], { desk with authTokens := desk.authTokens.delete id }⟩
  | .myAccount => ⟨[], desk⟩
  | .update posted saves =>
      ⟨[], { desk with db := savePartner desk.db p.id posted.change saves }⟩
  | .changePassword accepted posted saves =>
      ⟨[], { desk with db := savePartner desk.db p.id posted.change (accepted && saves) }⟩
  | .subIndex =>
      ⟨(desk.subAffiliates.rows.filter fun s => s.partnerId == some p.id).map .subAffiliate,
        desk⟩
  | .subCreate posted =>
      if (builtSubAffiliate p posted).valid desk.subAffiliates then
        ⟨[], { desk with
          subAffiliates :=
            desk.subAffiliates.insert (storedSubAffiliate (builtSubAffiliate p posted)) }⟩
      else ⟨[], desk⟩
  | .subEdit id =>
      match desk.subAffiliates.find? id with
      | none => ⟨[], desk⟩
      | some s => ⟨[.subAffiliate s], desk⟩
  | .subUpdate id posted =>
      match desk.subAffiliates.find? id with
      | none => ⟨[], desk⟩
      | some s =>
          if (posted.assign s).valid desk.subAffiliates then
            ⟨[.subAffiliate s], { desk with
              subAffiliates := desk.subAffiliates.update id
                (fun s => storedSubAffiliate (posted.assign s)) (fun _ => rfl) }⟩
          else ⟨[.subAffiliate s], desk⟩
  | .subDestroy id =>
      match desk.subAffiliates.find? id with
      | none => ⟨[], desk⟩
      | some s =>
          ⟨[.subAffiliate s], { desk with subAffiliates := desk.subAffiliates.delete id }⟩

/-- One request: `authenticate_partner` loads the partner, and the action
runs for it. -/
def handle (desk : Desk) (r : PartnerRequest) : Answer :=
  match currentPartner desk r with
  | .ok (some p) =>
      ⟨.partner p :: (performAction desk p r.action).reads, (performAction desk p r.action).desk⟩
  | .ok none => ⟨[], desk⟩
  | .error _ => ⟨[], desk⟩

/-! ## Isolation -/

/-- The rows that differ belong to partner `p`. -/
structure ChangesOnlyOf (p : Nat) (desk desk' : Desk) : Prop where
  partners : Table.ChangesOnly (fun q : Partner => q.id = p) desk.db.partners desk'.db.partners
  subAffiliates : Table.ChangesOnly (fun s : SubAffiliate => s.partnerId = some p)
    desk.subAffiliates desk'.subAffiliates
  authTokens : Table.ChangesOnly (fun t : AuthToken => t.partnerId = some p)
    desk.authTokens desk'.authTokens
  leads : Table.ChangesOnly (fun c : Customer => c.partnerId = some p)
    desk.db.customers desk'.db.customers

/-- The request acts for a partner that was authenticated, on rows of
that partner, and as it would with any other `partner_id`. -/
structure Isolated (desk : Desk) (r : PartnerRequest) : Prop where
  authenticated : ∀ p, currentPartner desk r = .ok (some p) →
    r.session = some p.id ∨ r.devise = some p.id
  reads : ∀ p, currentPartner desk r = .ok (some p) →
    ∀ row ∈ (handle desk r).reads, row.owner = some p.id
  changes : ∀ p, currentPartner desk r = .ok (some p) →
    ChangesOnlyOf p.id desk (handle desk r).desk
  nobody : (∀ p, currentPartner desk r ≠ .ok (some p)) → handle desk r = ⟨[], desk⟩
  same : ∀ v, handle desk { r with partnerId := v } = handle desk r

/-- The row that an action looks up by an id of the request. -/
def PartnerAction.named (desk : Desk) : PartnerAction → Option Row
  | .tokenDestroy id => (desk.authTokens.find? id).map .authToken
  | .subEdit id => (desk.subAffiliates.find? id).map .subAffiliate
  | .subUpdate id _ => (desk.subAffiliates.find? id).map .subAffiliate
  | .subDestroy id => (desk.subAffiliates.find? id).map .subAffiliate
  | _ => none

/-! ## The actions -/

/-- The row that was named is loaded. -/
theorem mem_reads_of_named {desk : Desk} {p : Partner} {a : PartnerAction} {row : Row}
    (h : a.named desk = some row) : row ∈ (performAction desk p a).reads := by
  cases a with
  | tokenDestroy id =>
      obtain ⟨t, ht, rfl⟩ := Option.map_eq_some_iff.mp h
      simp [performAction, ht]
  | subEdit id =>
      obtain ⟨s, hs, rfl⟩ := Option.map_eq_some_iff.mp h
      simp [performAction, hs]
  | subUpdate id posted =>
      obtain ⟨s, hs, rfl⟩ := Option.map_eq_some_iff.mp h
      simp only [performAction, hs]
      split <;> simp
  | subDestroy id =>
      obtain ⟨s, hs, rfl⟩ := Option.map_eq_some_iff.mp h
      simp [performAction, hs]
  | _ => cases h

/-- Every row that is loaded was named, or belongs to the partner. -/
theorem owner_of_mem_reads {desk : Desk} {p : Partner} {a : PartnerAction} {row : Row}
    (h : row ∈ (performAction desk p a).reads) :
    a.named desk = some row ∨ row.owner = some p.id := by
  cases a with
  | index shown =>
      obtain ⟨c, hc, rfl⟩ := List.mem_map.mp h
      have hkeep := (List.mem_filter.mp hc).2
      simp only [Bool.and_eq_true, beq_iff_eq] at hkeep
      exact Or.inr hkeep.1
  | authToken =>
      obtain ⟨t, ht, rfl⟩ := List.mem_map.mp h
      exact Or.inr (eq_of_beq (List.mem_filter.mp ht).2)
  | subIndex =>
      obtain ⟨s, hs, rfl⟩ := List.mem_map.mp h
      exact Or.inr (eq_of_beq (List.mem_filter.mp hs).2)
  | tokenDestroy id =>
      cases ht : desk.authTokens.find? id with
      | none => simp [performAction, ht] at h
      | some t =>
          simp only [performAction, ht, List.mem_singleton] at h
          exact Or.inl (by simp [PartnerAction.named, ht, h])
  | subEdit id =>
      cases hs : desk.subAffiliates.find? id with
      | none => simp [performAction, hs] at h
      | some s =>
          simp only [performAction, hs, List.mem_singleton] at h
          exact Or.inl (by simp [PartnerAction.named, hs, h])
  | subUpdate id posted =>
      cases hs : desk.subAffiliates.find? id with
      | none => simp [performAction, hs] at h
      | some s =>
          have hrow : row = .subAffiliate s := by
            simp only [performAction, hs] at h
            split at h <;> simpa using h
          exact Or.inl (by simp [PartnerAction.named, hs, hrow])
  | subDestroy id =>
      cases hs : desk.subAffiliates.find? id with
      | none => simp [performAction, hs] at h
      | some s =>
          simp only [performAction, hs, List.mem_singleton] at h
          exact Or.inl (by simp [PartnerAction.named, hs, h])
  | subCreate posted =>
      simp only [performAction] at h
      split at h <;> cases h
  | generateApiKey draws saves => cases h
  | myAccount => cases h
  | update posted saves => cases h
  | changePassword accepted posted saves => cases h

theorem changesOnlyOf_refl (p : Nat) (desk : Desk) : ChangesOnlyOf p desk desk :=
  ⟨Table.changesOnly_refl _ _, Table.changesOnly_refl _ _, Table.changesOnly_refl _ _,
    Table.changesOnly_refl _ _⟩

/-- A save of a partner changes its row and no other. -/
theorem changesOnlyOf_savePartner (desk : Desk) (id : Nat) (change : PartnerChange)
    (saves : Bool) :
    ChangesOnlyOf id desk { desk with db := savePartner desk.db id change saves } := by
  unfold savePartner
  split
  · exact changesOnlyOf_refl id desk
  · split
    · have hrow : Table.ChangesOnly (fun q : Partner => q.id = id) desk.db.partners
          (desk.db.partners.update id (savedPartner change) (id_savedPartner change)) :=
        Table.changesOnly_update _ fun r hr => Table.key_of_find? hr
      exact ⟨hrow, Table.changesOnly_refl _ _, Table.changesOnly_refl _ _,
        Table.changesOnly_refl _ _⟩
    · exact changesOnlyOf_refl id desk

theorem changesOnlyOf_subAffiliates {p : Nat} {desk : Desk} {t : Table SubAffiliate}
    (h : Table.ChangesOnly (fun s : SubAffiliate => s.partnerId = some p) desk.subAffiliates t) :
    ChangesOnlyOf p desk { desk with subAffiliates := t } :=
  ⟨Table.changesOnly_refl _ _, h, Table.changesOnly_refl _ _, Table.changesOnly_refl _ _⟩

/-- An action changes rows of its partner, when the row it was named is
one of them. -/
theorem changesOnlyOf_performAction {desk : Desk} {p : Partner} {a : PartnerAction}
    (h : ∀ row, a.named desk = some row → row.owner = some p.id) :
    ChangesOnlyOf p.id desk (performAction desk p a).desk := by
  cases a with
  | index shown => exact changesOnlyOf_refl _ _
  | authToken => exact changesOnlyOf_refl _ _
  | myAccount => exact changesOnlyOf_refl _ _
  | subIndex => exact changesOnlyOf_refl _ _
  | generateApiKey draws saves => exact changesOnlyOf_savePartner desk p.id _ saves
  | update posted saves => exact changesOnlyOf_savePartner desk p.id _ saves
  | changePassword accepted posted saves => exact changesOnlyOf_savePartner desk p.id _ _
  | tokenDestroy id =>
      cases ht : desk.authTokens.find? id with
      | none =>
          simp only [performAction, ht]
          exact changesOnlyOf_refl _ _
      | some t =>
          have hown := h (.authToken t) (by simp [PartnerAction.named, ht])
          simp only [performAction, ht]
          exact ⟨Table.changesOnly_refl _ _, Table.changesOnly_refl _ _,
            Table.changesOnly_delete _ ht hown, Table.changesOnly_refl _ _⟩
  | subCreate posted =>
      simp only [performAction]
      split
      · exact changesOnlyOf_subAffiliates (Table.changesOnly_insert _ rfl)
      · exact changesOnlyOf_refl _ _
  | subEdit id =>
      cases hs : desk.subAffiliates.find? id with
      | none =>
          simp only [performAction, hs]
          exact changesOnlyOf_refl _ _
      | some s =>
          simp only [performAction, hs]
          exact changesOnlyOf_refl _ _
  | subUpdate id posted =>
      cases hs : desk.subAffiliates.find? id with
      | none =>
          simp only [performAction, hs]
          exact changesOnlyOf_refl _ _
      | some s =>
          have hown := h (.subAffiliate s) (by simp [PartnerAction.named, hs])
          simp only [performAction, hs]
          split
          · refine changesOnlyOf_subAffiliates (Table.changesOnly_update _ fun r hr => ?_)
            rw [hs] at hr
            cases hr
            exact hown
          · exact changesOnlyOf_refl _ _
  | subDestroy id =>
      cases hs : desk.subAffiliates.find? id with
      | none =>
          simp only [performAction, hs]
          exact changesOnlyOf_refl _ _
      | some s =>
          have hown := h (.subAffiliate s) (by simp [PartnerAction.named, hs])
          simp only [performAction, hs]
          exact changesOnlyOf_subAffiliates (Table.changesOnly_delete _ hs hown)

/-! ## Who is believed -/

theorem handle_of_partner {desk : Desk} {r : PartnerRequest} {p : Partner}
    (h : currentPartner desk r = .ok (some p)) :
    handle desk r = ⟨.partner p :: (performAction desk p r.action).reads,
      (performAction desk p r.action).desk⟩ := by
  simp only [handle, h]

theorem handle_of_nobody {desk : Desk} {r : PartnerRequest}
    (h : ∀ p, currentPartner desk r ≠ .ok (some p)) : handle desk r = ⟨[], desk⟩ := by
  unfold handle
  cases hc : currentPartner desk r with
  | error e => rfl
  | ok o =>
      cases o with
      | none => rfl
      | some p => exact absurd hc (h p)

theorem livePartner_eq_some {desk : Desk} {id : Nat} {p : Partner} :
    livePartner desk id = some p ↔ desk.db.partners.find? id = some p ∧ p.deleted = false := by
  unfold livePartner
  rw [Option.filter_eq_some_iff]
  simp

/-- Where nobody is in the session, the parameter decides. -/
theorem currentPartner_param (desk : Desk) {r : PartnerRequest} (hs : r.session = none)
    (id : Nat) (p : Partner) :
    currentPartner desk { r with partnerId := some (toString id) } = .ok (some p) ↔
      livePartner desk id = some p := by
  have hfind : findPartnerParam desk (toString id) = livePartner desk id := by
    unfold findPartnerParam
    rw [toI_toString]
    simp
  have hblank : blankOpt (some (toString id)) = false := blank_toString id
  simp only [currentPartner, hs, hblank, Option.getD_some, hfind, Bool.false_eq_true, if_false]
  cases livePartner desk id with
  | none => simp
  | some q => simp

/-- Where somebody is in the session, the parameter is not read. -/
theorem currentPartner_session (desk : Desk) {r : PartnerRequest} {id : Nat}
    (hs : r.session = some id) (v : Option String) :
    currentPartner desk { r with partnerId := v } = currentPartner desk r := by
  simp only [currentPartner, hs]

theorem handle_session (desk : Desk) {r : PartnerRequest} {id : Nat} (hs : r.session = some id)
    (v : Option String) : handle desk { r with partnerId := v } = handle desk r := by
  unfold handle
  rw [currentPartner_session desk hs v]

theorem id_of_session {desk : Desk} {r : PartnerRequest} {id : Nat} (hs : r.session = some id)
    {p : Partner} (h : currentPartner desk r = .ok (some p)) : p.id = id := by
  simp only [currentPartner, hs] at h
  split at h
  · cases h
  · rename_i q hq
    cases h
    exact Table.key_of_find? (livePartner_eq_some.mp hq).1

/-- Nobody can be the partner of a request without a session when Devise
knows none and all are deleted. -/
theorem nobody_of_no_partners {desk : Desk} {r : PartnerRequest} (hs : r.session = none)
    (hd : devisePartner desk r = none) (hall : ∀ p ∈ desk.db.partners.rows, p.deleted = true)
    (v : Option String) (p : Partner) :
    currentPartner desk { r with partnerId := v } ≠ .ok (some p) := by
  intro h
  simp only [currentPartner, hs] at h
  split at h
  · have hnone := hd.symm.trans (Except.ok.inj h)
    cases hnone
  · split at h
    · cases h
    · rename_i q hq
      unfold findPartnerParam at hq
      split at hq
      · cases hq
      · obtain ⟨hfind, hlive⟩ := livePartner_eq_some.mp hq
        rw [hall q (Table.mem_of_find? hfind)] at hlive
        cases hlive

/-- The session names the partner, or there is nobody to be; and a row
that is named belongs to the partner. -/
def OwnRows (desk : Desk) (r : PartnerRequest) : Prop :=
  (r.session ≠ none ∨
    (devisePartner desk r = none ∧ ∀ p ∈ desk.db.partners.rows, p.deleted = true)) ∧
  ∀ p row, currentPartner desk r = .ok (some p) → r.action.named desk = some row →
    row.owner = some p.id

/-- Without a session an isolated request shows nobody's rows, whatever
id it carries: an id that nobody has shows nothing, and the id may make
no difference. -/
theorem nobody_of_isolated {desk : Desk} {r : PartnerRequest} (h : Isolated desk r)
    (hs : r.session = none) (v : Option String) (p : Partner) :
    currentPartner desk { r with partnerId := v } ≠ .ok (some p) := by
  intro hp
  have hempty : (handle desk r).reads = [] := by
    have hnobody : ∀ p, currentPartner desk
        { r with partnerId := some (toString desk.db.partners.nextKey) } ≠ .ok (some p) := by
      intro p hp
      rw [currentPartner_param desk hs, livePartner_eq_some,
        desk.db.partners.find?_nextKey (Nat.le_refl _)] at hp
      cases hp.1
    rw [← h.same (some (toString desk.db.partners.nextKey)), handle_of_nobody hnobody]
  have hreads := h.same v
  rw [handle_of_partner hp] at hreads
  rw [← hreads] at hempty
  cases hempty

/-- Where every id shows nobody, there is nobody to be. -/
theorem no_partners_of_nobody {desk : Desk} {r : PartnerRequest} (hs : r.session = none)
    (hnobody : ∀ v p, currentPartner desk { r with partnerId := v } ≠ .ok (some p)) :
    devisePartner desk r = none ∧ ∀ p ∈ desk.db.partners.rows, p.deleted = true := by
  constructor
  · cases hd : devisePartner desk r with
    | none => rfl
    | some p =>
        refine absurd ?_ (hnobody none p)
        simp only [currentPartner, hs, blankOpt_none, if_true]
        exact congrArg _ hd
  · intro p hp
    cases hlive : p.deleted with
    | true => rfl
    | false =>
        refine absurd ?_ (hnobody (some (toString p.id)) p)
        rw [currentPartner_param desk hs, livePartner_eq_some]
        exact ⟨desk.db.partners.find?_key hp, hlive⟩

/-- **Isolation**: a request is isolated exactly when the session names
its partner, or there is nobody to be, and the row it names belongs to
that partner. -/
theorem isolated_iff (desk : Desk) (r : PartnerRequest) : Isolated desk r ↔ OwnRows desk r := by
  constructor
  · intro h
    constructor
    · by_cases hs : r.session = none
      · exact Or.inr (no_partners_of_nobody hs (nobody_of_isolated h hs))
      · exact Or.inl hs
    · intro p row hp hrow
      refine h.reads p hp row ?_
      rw [handle_of_partner hp]
      exact List.mem_cons_of_mem _ (mem_reads_of_named hrow)
  · rintro ⟨hwho, hrows⟩
    refine ⟨fun p hp => ?_, fun p hp row hrow => ?_, fun p hp => ?_, handle_of_nobody, fun v => ?_⟩
    · cases hs : r.session with
      | some id => exact Or.inl (by rw [id_of_session hs hp])
      | none =>
          rcases hwho with hne | ⟨hd, hall⟩
          · exact absurd hs hne
          · exact absurd hp (nobody_of_no_partners hs hd hall r.partnerId p)
    · rw [handle_of_partner hp] at hrow
      rcases List.mem_cons.mp hrow with rfl | hrow
      · rfl
      · rcases owner_of_mem_reads hrow with hnamed | hown
        · exact hrows p row hp hnamed
        · exact hown
    · rw [handle_of_partner hp]
      exact changesOnlyOf_performAction fun row hnamed => hrows p row hp hnamed
    · by_cases hs : r.session = none
      · rcases hwho with hne | ⟨hd, hall⟩
        · exact absurd hs hne
        · rw [handle_of_nobody (nobody_of_no_partners hs hd hall v)]
          exact (handle_of_nobody (nobody_of_no_partners hs hd hall r.partnerId)).symm
      · obtain ⟨id, hid⟩ := Option.ne_none_iff_exists'.mp hs
        exact handle_session desk hid v

/-- One partner, and nothing else. -/
def onePartner : Desk where
  db := { Db.empty with partners := .ofRows [{ newPartner with companyName := some "Acme" }] }
  subAffiliates := Table.empty
  authTokens := Table.empty

/-- Nobody is signed in, and `partner_id=1` is sent. -/
def askForPartner : PartnerRequest where
  session := none
  devise := none
  partnerId := some "1"
  action := .myAccount

/-- The account of partner 1 is shown to whoever asks for it. -/
theorem partner_shown_to_anyone : ¬ Isolated onePartner askForPartner := by
  intro h
  have hauth := h.authenticated { newPartner with id := 1, companyName := some "Acme" } rfl
  rcases hauth with hs | hd
  · cases hs
  · cases hd

end HomeWarranty.Affiliate
