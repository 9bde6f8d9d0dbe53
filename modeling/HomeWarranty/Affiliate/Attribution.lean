/-
HomeWarranty.Affiliate.Attribution — which partner a customer is
attributed to.

`perform_payment_get` looks up the partner by the posted discount code,
without asking whether one was posted: no code finds a partner whose code
is NULL, an empty one finds a partner whose code is empty, and both kinds
of partner exist between their creation and their next save. Two partners
can also share a code, since only the tokens are compared when one is
drawn.

`codesApart_step` is the invariant's step: as long as no step gives a partner a
code that another partner has, the codes that are not blank stay apart.
`attribution_of_own_codes` derives from it that every customer is
attributed to the one partner whose code was posted, as long as no
request matches a blank code. `direct_customer_attributed` is a request
that does.
-/
import HomeWarranty.Affiliate.Partner

namespace HomeWarranty.Affiliate

open Lib Ruby Site

/-! ## Codes that stay apart -/

/-- Two partners with the same code, deleted ones and blank codes aside. -/
def Clash (fold : Char → Char) (p q : Partner) : Prop :=
  p.deleted = false ∧ q.deleted = false ∧ presentOpt p.discountCode = true ∧
    presentOpt q.discountCode = true ∧ sqlEq fold p.discountCode q.discountCode = true

theorem Clash.symm {fold : Char → Char} (p q : Partner) (h : Clash fold p q) :
    Clash fold q p := by
  obtain ⟨hp, hq, hpp, hqp, heq⟩ := h
  refine ⟨hq, hp, hqp, hpp, ?_⟩
  rw [sqlEq_iff] at heq ⊢
  exact heq.symm

/-- No two partners share a code that is not blank. -/
def CodesApart (db : Db) : Prop := db.partners.Apart (Clash db.fold)

/-- No partner but number `id` has the code of `p`, unless that is blank. -/
def codeFree (db : Db) (id : Nat) (p : Partner) : Bool :=
  blankOpt p.discountCode || db.partners.rows.all fun q =>
    q.id == id || q.deleted || !sqlEq db.fold q.discountCode p.discountCode

theorem not_clash_of_codeFree {db : Db} {id : Nat} {p q : Partner}
    (h : codeFree db id p = true) (hq : q ∈ db.partners.rows) (hid : q.id ≠ id) :
    ¬ Clash db.fold q p := by
  intro ⟨hlive, _, _, hpresent, heq⟩
  have hblank : blankOpt p.discountCode = false := by simpa [presentOpt] using hpresent
  simp only [codeFree, hblank, Bool.false_or, List.all_eq_true] at h
  have := h q hq
  simp [hid, hlive, heq] at this

theorem codesApart_create {db : Db} (h : CodesApart db) (p : Partner) (draws : String × String)
    (saves : Bool)
    (hfree : saves = true → codeFree db db.partners.nextKey (createdPartner db p draws) = true) :
    CodesApart (createPartner db p draws saves) := by
  unfold createPartner
  cases saves with
  | false => exact h
  | true =>
      refine Table.Apart.insert Clash.symm h fun q hq => ?_
      have hlt := db.partners.fresh q hq
      exact not_clash_of_codeFree (hfree rfl) hq (Nat.ne_of_lt hlt)

theorem codesApart_save {db : Db} (h : CodesApart db) (id : Nat) (change : PartnerChange)
    (saves : Bool)
    (hfree : ∀ p, db.partners.find? id = some p → p.deleted = false → saves = true →
      codeFree db id (savedPartner change p) = true) :
    CodesApart (savePartner db id change saves) := by
  unfold savePartner
  cases hp : db.partners.find? id with
  | none => exact h
  | some p =>
      simp only
      split
      · rename_i hsaves
        simp only [Bool.and_eq_true, Bool.not_eq_true'] at hsaves
        show (db.partners.update id (savedPartner change) (id_savedPartner change)).Apart _
        refine Table.Apart.update Clash.symm h fun r hr hrk q hq hqk => ?_
        have hrp : db.partners.find? id = some r := hrk ▸ db.partners.find?_key hr
        rw [hp] at hrp
        cases hrp
        exact not_clash_of_codeFree (hfree p hp hsaves.1 hsaves.2) hq hqk
      · exact h

theorem codesApart_destroy {db : Db} (h : CodesApart db) (id : Nat) :
    CodesApart (destroyPartner db id) := by
  show (db.partners.update id (fun p => { p with deleted := true }) (fun _ => rfl)).Apart _
  refine Table.Apart.update Clash.symm h fun r hr hrk q hq hqk hclash => ?_
  cases hclash.2.1

/-- A request for a quote leaves the partners alone. -/
theorem performPaymentGet_partners (db : Db) (browser : Browser) (form : PurchaseForm) :
    (performPaymentGet db browser form).1.partners = db.partners ∧
      (performPaymentGet db browser form).1.fold = db.fold := by
  rcases performPaymentGet_db db browser form with h | ⟨attrs, a, h⟩
  · rw [h]; exact ⟨rfl, rfl⟩
  · rw [h]; exact ⟨rfl, rfl⟩

/-- The step gives no partner a code that another one has. -/
def codesFree (db : Db) : PartnerEvent → Bool
  | .register posted draws saves =>
      !saves || codeFree db db.partners.nextKey
        (createdPartner db (posted.change.apply newPartner) draws)
  | .omniauth provider uid draws saves =>
      !saves ||
        (match findOmniauth db provider uid with
        | some p => codeFree db p.id (savedPartner (omniauthChange provider uid) p)
        | none => codeFree db db.partners.nextKey
            (createdPartner db ((omniauthChange provider uid).apply newPartner) draws))
  | .update id posted saves =>
      !saves || (db.partners.find? id).all fun p =>
        p.deleted || codeFree db id (savedPartner posted.change p)
  | .generateApiKey id draws saves =>
      !saves || (db.partners.find? id).all fun p =>
        p.deleted || codeFree db id (savedPartner (tokenChange (generateUniqueToken db draws)) p)
  | .destroy _ => true
  | .quote _ _ => true

/-- The step lemma. -/
theorem codesApart_step (db : Db) (e : PartnerEvent) (h : CodesApart db)
    (hfree : codesFree db e = true) : CodesApart (partnerStep db e) := by
  cases e with
  | register posted draws saves =>
      refine codesApart_create h _ draws saves fun hsaves => ?_
      simpa [codesFree, hsaves] using hfree
  | omniauth provider uid draws saves =>
      show CodesApart (fromOmniauth db provider uid draws saves)
      unfold fromOmniauth
      cases hp : findOmniauth db provider uid with
      | some p =>
          refine codesApart_save h p.id _ saves fun q hq _ hsaves => ?_
          have hpq : db.partners.find? p.id = some p :=
            db.partners.find?_key (List.mem_of_find?_eq_some hp)
          rw [hpq] at hq
          cases hq
          simpa [codesFree, hsaves, hp] using hfree
      | none =>
          refine codesApart_create h _ draws saves fun hsaves => ?_
          simpa [codesFree, hsaves, hp] using hfree
  | update id posted saves =>
      refine codesApart_save h id _ saves fun p hp hlive hsaves => ?_
      simpa [codesFree, hsaves, hp, hlive] using hfree
  | generateApiKey id draws saves =>
      refine codesApart_save h id _ saves fun p hp hlive hsaves => ?_
      simpa [codesFree, hsaves, hp, hlive] using hfree
  | destroy id => exact codesApart_destroy h id
  | quote browser form =>
      obtain ⟨hpartners, hfold⟩ := performPaymentGet_partners db browser form
      show (performPaymentGet db browser form).1.partners.Apart
        (Clash (performPaymentGet db browser form).1.fold)
      rw [hpartners, hfold]
      exact h

/-! ## Attribution -/

theorem partnerId_massAssign (attrs : List (CustomerAttr × String)) (c : Customer) :
    (massAssign c attrs).partnerId = c.partnerId := by
  have hset : ∀ (c : Customer) (a : CustomerAttr) (s : String), a.accessible = true →
      (setAttr c a s).partnerId = c.partnerId := by
    intro c a s ha
    cases a <;> first | rfl | cases ha
  unfold massAssign
  induction attrs generalizing c with
  | nil => rfl
  | cons a attrs ih =>
      rw [List.filter_cons]
      split
      · rename_i ha
        rw [List.foldl_cons, ih, hset c a.1 a.2 ha]
      · exact ih c

/-- A posted `partner_id` has no effect: the partner is the one that was
looked up. -/
theorem partnerId_newCustomer (db : Db) (form : PurchaseForm)
    (attrs : List (CustomerAttr × String)) (a : Address) :
    (newCustomer db form attrs a).partnerId
      = (findPartnerByDiscountCode db form.discountcode).map Partner.id := by
  unfold newCustomer
  cases findPartnerByDiscountCode db form.discountcode with
  | none => exact partnerId_massAssign attrs Customer.new
  | some p => rfl

theorem find?_storeCustomer_new (db : Db) (c : Customer) (a : Address) :
    ∃ d, (storeCustomer db c a).customers.find? db.customers.nextKey = some d ∧
      d.partnerId = c.partnerId := by
  have hinsert := Table.find?_insert_new db.customers c
  simp only [storeCustomer, addProperty, Table.find?_update, hinsert, if_true, Option.map_some]
  exact ⟨_, rfl, rfl⟩

/-- The customer a request creates, if it creates one, has the partner
that was looked up. -/
theorem partnerId_of_quote {db : Db} {browser : Browser} {form : PurchaseForm} {c : Customer}
    (h : (performPaymentGet db browser form).1.customers.find? db.customers.nextKey = some c) :
    c.partnerId = (findPartnerByDiscountCode db form.discountcode).map Partner.id := by
  have hfresh : db.customers.find? db.customers.nextKey ≠ some c := by
    intro hc
    have hlt := db.customers.fresh c (Table.mem_of_find? hc)
    rw [Table.key_of_find? hc] at hlt
    exact Nat.lt_irrefl _ hlt
  rcases performPaymentGet_db db browser form with hdb | ⟨attrs, a, hdb⟩
  · rw [hdb] at h
    exact absurd h hfresh
  · obtain ⟨d, hd, hpartner⟩ := find?_storeCustomer_new db (newCustomer db form attrs a) a
    rw [hdb, hd] at h
    cases h
    rw [hpartner, partnerId_newCustomer]

/-- The attribution of the customer a request creates: a partner is the
one partner that holds the posted code, which is not blank, and without a
code there is none. -/
def QuoteAttributed (db : Db) (browser : Browser) (form : PurchaseForm) : Prop :=
  ∀ c, (performPaymentGet db browser form).1.customers.find? db.customers.nextKey = some c →
    (∀ n, c.partnerId = some n →
      presentOpt form.discountcode = true ∧
      ∃ p ∈ db.partners.rows, p.id = n ∧ p.deleted = false ∧
        sqlEq db.fold p.discountCode form.discountcode = true ∧
        ∀ q ∈ db.partners.rows, q.deleted = false →
          sqlEq db.fold q.discountCode p.discountCode = true → q.id = n) ∧
    (presentOpt form.discountcode = false → c.partnerId = none)

/-- Every request of a run is attributed so. -/
def AttributionHolds (db : Db) (es : List PartnerEvent) : Prop :=
  ∀ pre browser form post, es = pre ++ .quote browser form :: post →
    QuoteAttributed (run partnerStep db pre) browser form

/-- The posted code names a partner: neither it nor a code it finds is
blank. -/
def codeNamed (db : Db) (code : Option String) : Bool :=
  db.partners.rows.all fun p =>
    p.deleted || !sqlEq db.fold p.discountCode code
      || (presentOpt p.discountCode && presentOpt code)

/-- The step keeps the codes apart, and a request names a partner or finds
none. -/
def inOwnCode (db : Db) (e : PartnerEvent) : Bool :=
  codesFree db e &&
    (match e with
    | .quote _ form => codeNamed db form.discountcode
    | _ => true)

/-- The partner a named code finds. -/
theorem findPartner_named {db : Db} {code : Option String} {p : Partner}
    (hnamed : codeNamed db code = true) (h : findPartnerByDiscountCode db code = some p) :
    p ∈ db.partners.rows ∧ p.deleted = false ∧
      sqlEq db.fold p.discountCode code = true ∧
      presentOpt p.discountCode = true ∧ presentOpt code = true := by
  have hmem : p ∈ db.partners.rows := List.mem_of_find?_eq_some h
  have hfound := List.find?_some h
  simp only [Bool.and_eq_true, Bool.not_eq_true'] at hfound
  obtain ⟨hlive, heq⟩ := hfound
  simp only [codeNamed, List.all_eq_true] at hnamed
  have hboth := hnamed p hmem
  simp only [hlive, heq, Bool.not_true, Bool.false_or, Bool.and_eq_true] at hboth
  exact ⟨hmem, hlive, heq, hboth⟩

theorem codeNamed_at {db : Db} {code : Option String} {q : Partner}
    (hnamed : codeNamed db code = true) (hq : q ∈ db.partners.rows) (hlive : q.deleted = false)
    (heq : sqlEq db.fold q.discountCode code = true) : presentOpt q.discountCode = true := by
  simp only [codeNamed, List.all_eq_true] at hnamed
  have hboth := hnamed q hq
  simp only [hlive, heq, Bool.not_true, Bool.false_or, Bool.and_eq_true] at hboth
  exact hboth.1

theorem quoteAttributed_of_named {db : Db} (hapart : CodesApart db) (browser : Browser)
    {form : PurchaseForm} (hnamed : codeNamed db form.discountcode = true) :
    QuoteAttributed db browser form := by
  intro c hc
  have hpartner := partnerId_of_quote hc
  cases hp : findPartnerByDiscountCode db form.discountcode with
  | none =>
      rw [hp] at hpartner
      refine ⟨fun n hn => ?_, fun _ => hpartner⟩
      rw [hpartner] at hn
      cases hn
  | some p =>
      rw [hp] at hpartner
      obtain ⟨hmem, hlive, heq, hcode, hpresent⟩ := findPartner_named hnamed hp
      refine ⟨fun n hn => ⟨hpresent, p, hmem, ?_, hlive, heq, fun q hq hqlive hqp => ?_⟩, ?_⟩
      · exact Option.some.inj (hpartner.symm.trans hn)
      · have hqcode : sqlEq db.fold q.discountCode form.discountcode = true := by
          rw [sqlEq_iff] at heq hqp ⊢
          exact hqp.trans heq
        have hqpresent := codeNamed_at hnamed hq hqlive hqcode
        have hid : q.id = p.id :=
          hapart q hq p hmem ⟨hqlive, hlive, hqpresent, hcode, hqp⟩
        rw [hid]
        exact Option.some.inj (hpartner.symm.trans hn)
      · intro hblank
        rw [hblank] at hpresent
        cases hpresent

/-- **Attribution by one's own code**: in a run that gives no partner the
code of another one, and in which no request matches a blank code, every
customer is attributed to the one partner whose code was posted. -/
theorem attribution_of_own_codes (db : Db) (es : List PartnerEvent)
    (h : StepsOk partnerStep (fun s e => inOwnCode s e = true) (withoutPartners db) es) :
    AttributionHolds (withoutPartners db) es := by
  intro pre browser form post hes
  rw [hes] at h
  have hapart : CodesApart (run partnerStep (withoutPartners db) pre) := by
    refine run_invariant_of_steps CodesApart (fun s e hs hok => ?_) pre (withoutPartners db)
      h.take (Table.apart_empty _)
    simp only [inOwnCode, Bool.and_eq_true] at hok
    exact codesApart_step s e hs hok.1
  have hok := h.at
  simp only [inOwnCode, Bool.and_eq_true] at hok
  exact quoteAttributed_of_named hapart browser hok.2

/-- A request for a quote with a discount code. -/
def quoteWith (code : Option String) : PurchaseForm where
  fromAffiliate := false
  affiliate := false
  secondForm := false
  customer := some [(.firstName, "Ann"), (.lastName, "Lee"), (.customerPhone, "555"),
    (.email, "ann@example.com")]
  property := some ⟨some "1 Main St", some "Newark", some "TX", some "07101"⟩
  propertyId := none
  typeOfHome := some "Condominium"
  discountcode := code
  subid := none
  coverages := []
  remoteIp := "10.0.0.1"
  accountName := none
  coverageEndsAt := ⟨2017, 5, 1⟩

def newBrowser : Browser := ⟨none, false, none⟩

/-- Two texts of `SecureRandom.hex(20)`. -/
def twoDraws : String × String :=
  ("3f9ac1d20e5b8a7714c6f03d92e8ab41d75c6e0f", "77b0e4aa510c2d9f8e36b1a47d5e9062f8c3ab17")

/-- A partner registers, is saved again by the sign-in, and a customer
comes with its code and another one without. -/
theorem attribution_after_sign_in :
    AttributionHolds (withoutPartners Db.empty)
      [.register ⟨some "Acme", none, none⟩ twoDraws true,
        .update 1 ⟨none, none, none⟩ true,
        .quote newBrowser (quoteWith (some "77b0e4")),
        .quote newBrowser (quoteWith (some ""))] :=
  attribution_of_own_codes Db.empty _ (by decide +kernel)

/-- After a sign-up with another site, a customer who came on his own is
attributed to that partner: the page posts the empty code, and the new
partner's code is empty. -/
theorem direct_customer_attributed :
    ¬ AttributionHolds (withoutPartners Db.empty)
      [.omniauth "facebook" "1001" twoDraws true,
        .quote newBrowser (quoteWith (some ""))] := by
  intro h
  have hquote := h [.omniauth "facebook" "1001" twoDraws true]
    newBrowser (quoteWith (some "")) [] rfl
  obtain ⟨c, hc, hpartner⟩ : ∃ c, (performPaymentGet
      (run partnerStep (withoutPartners Db.empty)
        [.omniauth "facebook" "1001" twoDraws true])
      newBrowser (quoteWith (some ""))).1.customers.find? 1 = some c ∧ c.partnerId = some 1 := by
    refine ⟨_, rfl, ?_⟩
    decide +kernel
  have hnone := (hquote c hc).2 (by decide +kernel)
  rw [hpartner] at hnone
  cases hnone

end HomeWarranty.Affiliate
