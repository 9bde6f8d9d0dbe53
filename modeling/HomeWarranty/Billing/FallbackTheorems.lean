/-
HomeWarranty.Billing.FallbackTheorems — whose row a post becomes when
neither its invoice number nor its customer id finds anybody.

The last two stages of `deduceCustomer` put the posted text between two
`%` and take the first row that LIKE accepts. LIKE accepts the row that
holds the text and every row whose value merely contains it, and it
reads a `%`, a `_` or a backslash in the posted text as part of the
pattern. `fallback_attribution_iff` says for which tables and posts the
row taken is nevertheless the right one: the rows the deciding stage
accepts have to be LED by one that holds exactly what was posted.
-/
import HomeWarranty.Billing.SilentPostTheorems

namespace HomeWarranty.Billing

open Lib Ruby

/-! ## The right customer -/

/-- The column holds the posted value itself. -/
def HoldsPosted (column : Customer → Option String) (posted : Option String)
    (c : Customer) : Prop :=
  ∃ s, posted = some s ∧ column c = some s

/-- Some customer who is not deleted has the posted subscription id. -/
def SubscriberStored (db : Db) (p : SilentPost) : Prop :=
  ∃ d ∈ db.customers.rows,
    d.statusId ≠ some 2 ∧ HoldsPosted Customer.subscriptionId p.xSubscriptionId d

/-- A customer a post may be attached to: not deleted, and with the
posted subscription id, or, when nobody has that, with the posted
e-mail. -/
def Rightful (db : Db) (p : SilentPost) (c : Customer) : Prop :=
  c.statusId ≠ some 2 ∧
    (HoldsPosted Customer.subscriptionId p.xSubscriptionId c ∨
      (¬ SubscriberStored db p ∧ HoldsPosted Customer.email p.xEmail c))

/-- A row saved for the post, if it names a customer, names a rightful
one. -/
def AttributedRightly (db : Db) (p : SilentPost) : Prop :=
  ∀ t n, (authorizeSilentPost db p).2 = some t → t.customerId = some n →
    ∃ c, db.customers.find? n = some c ∧ Rightful db p c

/-! ## The two stages as scans -/

/-- What a LIKE stage accepts; a blank text is not looked for. -/
def likeStage (db : Db) (column : Customer → Option String) (text : Option String)
    (c : Customer) : Bool :=
  match text with
  | none => false
  | some s =>
      !blank s && (notDeleted c && sqlLikeOpt db.fold ("%" ++ s ++ "%") (column c))

theorem findLike_eq_firstWhere (db : Db) (column : Customer → Option String)
    (text : Option String) :
    findLike db column text = db.customers.firstWhere (likeStage db column text) := by
  have hnever : db.customers.firstWhere (fun _ => false) = none :=
    List.find?_eq_none.mpr (by simp)
  cases text with
  | none => exact hnever.symm
  | some s =>
      have hstage : likeStage db column (some s) = fun c =>
          !blank s && (notDeleted c && sqlLikeOpt db.fold ("%" ++ s ++ "%") (column c)) := rfl
      cases hb : blank s with
      | true => simp [findLike, hstage, hb, hnever]
      | false => simp [findLike, hstage, hb]

theorem statusId_of_likeStage {db : Db} {column : Customer → Option String}
    {text : Option String} {c : Customer} (h : likeStage db column text c = true) :
    c.statusId ≠ some 2 := by
  intro hdel
  cases text with
  | none => simp [likeStage] at h
  | some s => simp [likeStage, notDeleted, hdel] at h

/-- The stage that decides: the subscription id if it finds anybody, the
e-mail otherwise. -/
def decidingStage (db : Db) (p : SilentPost) : Customer → Bool :=
  if db.customers.rows.any (likeStage db Customer.subscriptionId p.xSubscriptionId) then
    likeStage db Customer.subscriptionId p.xSubscriptionId
  else likeStage db Customer.email p.xEmail

theorem statusId_of_decidingStage {db : Db} {p : SilentPost} {c : Customer}
    (h : decidingStage db p c = true) : c.statusId ≠ some 2 := by
  unfold decidingStage at h
  split at h
  · exact statusId_of_likeStage h
  · exact statusId_of_likeStage h

/-- Without a contract number the customer is the first row the deciding
stage accepts. -/
theorem deduceCustomer_eq_firstWhere {db : Db} {p : SilentPost}
    (hi : findByContract db p.xInvoiceNum = none)
    (hc : findByContract db p.xCustId = none) :
    deduceCustomer db p = db.customers.firstWhere (decidingStage db p) := by
  simp only [deduceCustomer, hi, hc, findLike_eq_firstWhere]
  cases hf : db.customers.firstWhere
      (likeStage db Customer.subscriptionId p.xSubscriptionId) with
  | some c =>
      have hany : db.customers.rows.any
          (likeStage db Customer.subscriptionId p.xSubscriptionId) = true :=
        List.any_eq_true.mpr ⟨c, List.mem_of_find?_eq_some hf, List.find?_some hf⟩
      simp only [decidingStage, hany, if_true, hf]
  | none =>
      have hany : db.customers.rows.any
          (likeStage db Customer.subscriptionId p.xSubscriptionId) = false := by
        refine List.any_eq_false.mpr fun c hcm => ?_
        exact List.find?_eq_none.mp hf c hcm
      simp only [decidingStage, hany, Bool.false_eq_true, if_false]

/-! ## When the first match is the right one -/

/-- The rows the deciding stage accepts are led by a row with the posted
subscription id, if any customer has it, and by a row with the posted
e-mail if none has. -/
def LedByRightful (db : Db) (p : SilentPost) : Prop :=
  (SubscriberStored db p →
    db.customers.LedBy (decidingStage db p)
      (HoldsPosted Customer.subscriptionId p.xSubscriptionId)) ∧
  (¬ SubscriberStored db p →
    db.customers.LedBy (decidingStage db p) (HoldsPosted Customer.email p.xEmail))

/-- Among rows that are not deleted, being rightful is one of two
equations. -/
theorem rightful_iff_of_stored {db : Db} {p : SilentPost} {c : Customer}
    (hs : SubscriberStored db p) (hdel : c.statusId ≠ some 2) :
    Rightful db p c ↔ HoldsPosted Customer.subscriptionId p.xSubscriptionId c := by
  simp [Rightful, hs, hdel]

theorem rightful_iff_of_not_stored {db : Db} {p : SilentPost} {c : Customer}
    (hs : ¬ SubscriberStored db p) (hmem : c ∈ db.customers.rows)
    (hdel : c.statusId ≠ some 2) :
    Rightful db p c ↔ HoldsPosted Customer.email p.xEmail c := by
  constructor
  · rintro ⟨_, hsub | ⟨_, hmail⟩⟩
    · exact absurd ⟨c, hmem, hdel, hsub⟩ hs
    · exact hmail
  · intro hmail
    exact ⟨hdel, .inr ⟨hs, hmail⟩⟩

theorem first_rightful_iff (db : Db) (p : SilentPost) :
    (∀ c, db.customers.firstWhere (decidingStage db p) = some c → Rightful db p c)
      ↔ LedByRightful db p := by
  have hdel : ∀ c, db.customers.firstWhere (decidingStage db p) = some c →
      c.statusId ≠ some 2 := fun c h => statusId_of_decidingStage (List.find?_some h)
  by_cases hs : SubscriberStored db p
  · simp only [LedByRightful, hs, not_true_eq_false, false_implies, true_implies, and_true]
    rw [← Table.firstWhere_satisfies_iff]
    exact forall_congr' fun c => forall_congr' fun h =>
      rightful_iff_of_stored hs (hdel c h)
  · simp only [LedByRightful, hs, not_false_eq_true, false_implies, true_implies, true_and]
    rw [← Table.firstWhere_satisfies_iff]
    exact forall_congr' fun c => forall_congr' fun h =>
      rightful_iff_of_not_stored hs (List.mem_of_find?_eq_some h) (hdel c h)

/-- A post without a customer is saved without one. -/
theorem customerId_of_saved_none {db : Db} {p : SilentPost} {t : Transaction}
    (hc : deduceCustomer db p = none) (h : (authorizeSilentPost db p).2 = some t) :
    t.customerId = none := by
  unfold authorizeSilentPost at h
  by_cases ht : p.xTestRequest = some (.bool true)
  · simp [ht] at h
  · cases hx : p.xTransId with
    | none => simp [ht, hx] at h
    | some s =>
        simp only [ht, if_false, hx, Option.some.injEq] at h
        rw [← h, hc]
        rfl

/-- For a post that is saved, the attribution is what the deciding stage
finds first. -/
theorem attributedRightly_iff_of_saved {db : Db} {p : SilentPost} {t : Transaction}
    (hi : findByContract db p.xInvoiceNum = none)
    (hc : findByContract db p.xCustId = none)
    (ht : (authorizeSilentPost db p).2 = some t) :
    AttributedRightly db p ↔
      ∀ c, db.customers.firstWhere (decidingStage db p) = some c → Rightful db p c := by
  have hded := deduceCustomer_eq_firstWhere hi hc
  have hkey : ∀ c, db.customers.firstWhere (decidingStage db p) = some c →
      db.customers.find? c.id = some c :=
    fun c h => Table.find?_key _ (List.mem_of_find?_eq_some h)
  constructor
  · intro h c hf
    obtain ⟨d, hd, hr⟩ := h t c.id ht (customerId_of_saved (hded.trans hf) ht)
    rw [hkey c hf, Option.some.injEq] at hd
    rw [hd]
    exact hr
  · intro h t' n ht' hn
    cases hf : db.customers.firstWhere (decidingStage db p) with
    | none =>
        rw [customerId_of_saved_none (hded.trans hf) ht'] at hn
        cases hn
    | some c =>
        rw [customerId_of_saved (hded.trans hf) ht', Option.some.injEq] at hn
        exact ⟨c, hn ▸ hkey c hf, h c hf⟩

/-- **Fallback attribution.** For every customers table and every post
whose invoice number and customer id find nobody: the row saved is
attached to a rightful customer or to none, exactly when nothing is
saved or the rows the deciding LIKE accepts are led by a rightful one. -/
theorem fallback_attribution_iff (db : Db) (p : SilentPost)
    (hi : findByContract db p.xInvoiceNum = none)
    (hc : findByContract db p.xCustId = none) :
    AttributedRightly db p ↔
      (p.xTestRequest = some (.bool true) ∨ p.xTransId = none) ∨ LedByRightful db p := by
  rw [← authorizeSilentPost_saves db p]
  cases hsaved : (authorizeSilentPost db p).2 with
  | none =>
      simp only [true_or, iff_true]
      intro t n ht
      rw [hsaved] at ht
      cases ht
  | some t =>
      rw [attributedRightly_iff_of_saved hi hc hsaved, first_rightful_iff]
      simp

/-- A customer with a subscription id and an e-mail. -/
def subscriber (subscriptionId email : String) : Customer :=
  { Customer.new with subscriptionId := some subscriptionId, email := some email }

/-- A post that names a subscription and an e-mail and nothing else. -/
def subscriptionPost (subscriptionId email : String) : SilentPost where
  xTestRequest := none
  xTransId := some "7"
  xInvoiceNum := none
  xCustId := none
  xSubscriptionId := some subscriptionId
  xEmail := some email
  xResponseReasonCode := some "1"
  xResponseReasonText := none
  xAuthCode := none
  xAmount := some "45.00"
  xSubscriptionPaynum := none
  xType := some "auth_capture"

/-- Two subscribers, the second of whom has the posted id. -/
def twoSubscribers (first second : String) : Db :=
  { Db.empty with
    customers := (Table.empty.insert (subscriber first "ann@example.com")).insert
      (subscriber second "bob@example.com") }

theorem fallback_attribution_distinct_ids :
    AttributedRightly (twoSubscribers "12345" "67890")
      (subscriptionPost "67890" "bob@example.com") := by
  refine (fallback_attribution_iff _ _ rfl rfl).mpr (.inr ?_)
  rw [← first_rightful_iff]
  intro c hc
  have hfirst : (twoSubscribers "12345" "67890").customers.firstWhere
      (decidingStage (twoSubscribers "12345" "67890")
        (subscriptionPost "67890" "bob@example.com"))
      = some { subscriber "67890" "bob@example.com" with id := 2 } := by decide +kernel
  rw [hfirst, Option.some.injEq] at hc
  subst hc
  exact ⟨by decide, .inl ⟨"67890", rfl, rfl⟩⟩

/-- The posted id 234 is part of the first subscriber's 12345: the post
lands there, though the second subscriber has exactly 234. -/
theorem fallback_attribution_contained_id :
    findByContract (twoSubscribers "12345" "234")
        (subscriptionPost "234" "bob@example.com").xInvoiceNum = none ∧
      findByContract (twoSubscribers "12345" "234")
        (subscriptionPost "234" "bob@example.com").xCustId = none ∧
      ¬ AttributedRightly (twoSubscribers "12345" "234")
        (subscriptionPost "234" "bob@example.com") := by
  refine ⟨rfl, rfl, fun h => ?_⟩
  have hsaved : ((authorizeSilentPost (twoSubscribers "12345" "234")
      (subscriptionPost "234" "bob@example.com")).2.map Transaction.customerId)
      = some (some 1) := by decide +kernel
  obtain ⟨t, ht, hn⟩ := Option.map_eq_some_iff.mp hsaved
  obtain ⟨c, hfind, _, hright⟩ := h t 1 ht hn
  have hc : (twoSubscribers "12345" "234").customers.find? 1
      = some { subscriber "12345" "ann@example.com" with id := 1 } := by decide +kernel
  rw [hc, Option.some.injEq] at hfind
  subst hfind
  rcases hright with ⟨s, hs, heq⟩ | ⟨_, s, hs, heq⟩
  · rw [← hs] at heq
    exact absurd heq (by decide)
  · rw [← hs] at heq
    exact absurd heq (by decide)

end HomeWarranty.Billing
