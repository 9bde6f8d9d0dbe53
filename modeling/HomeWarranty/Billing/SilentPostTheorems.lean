/-
HomeWarranty.Billing.SilentPostTheorems — what the notifications do to
the transactions table, over every run of them.

The table is seen as a log of `Entry`s (transaction id and response
code). `entries_receive` is the refinement: one notification is one step
of the marking log of `Lib.MarkLog`, where a void looks for the posted
number among the STORED ones. Everything about orders, repetitions and
the 32-bit limit follows from the closed form of that log:

* whether a void takes effect is decided by what came first under its
  number (`voids_take_effect_iff`);
* a number beyond the limit is stored as the limit and never found again
  under its own value (`sale_voided_iff`).
-/
import HomeWarranty.Lib.MarkLog
import HomeWarranty.Billing.SilentPost

namespace HomeWarranty.Billing

open Lib Ruby

/-! ## The attribution of a post -/

theorem authorizeSilentPost_saves (db : Db) (p : SilentPost) :
    (authorizeSilentPost db p).2 = none ↔
      p.xTestRequest = some (.bool true) ∨ p.xTransId = none := by
  unfold authorizeSilentPost
  by_cases ht : p.xTestRequest = some (.bool true)
  · simp [ht]
  · cases hx : p.xTransId with
    | none => simp [ht]
    | some s => simp [ht]

/-- The row saved carries the customer the four stages found. -/
theorem customerId_of_saved {db : Db} {p : SilentPost} {t : Transaction} {c : Customer}
    (hc : deduceCustomer db p = some c) (h : (authorizeSilentPost db p).2 = some t) :
    t.customerId = some c.id := by
  unfold authorizeSilentPost at h
  by_cases ht : p.xTestRequest = some (.bool true)
  · simp [ht] at h
  · cases hx : p.xTransId with
    | none => simp [ht, hx] at h
    | some s =>
        simp only [ht, if_false, hx, Option.some.injEq] at h
        rw [← h, hc]
        rfl

/-- What was saved is the row in the table. -/
theorem find?_of_saved {db : Db} {p : SilentPost} {t : Transaction}
    (h : (authorizeSilentPost db p).2 = some t) :
    (authorizeSilentPost db p).1.transactions.find? t.id = some t := by
  unfold authorizeSilentPost at h ⊢
  by_cases ht : p.xTestRequest = some (.bool true)
  · simp [ht] at h
  · cases hx : p.xTransId with
    | none => simp [ht, hx] at h
    | some s =>
        simp only [ht, if_false, hx, Option.some.injEq] at h ⊢
        rw [← h]
        exact Table.find?_insert_new _ _

theorem deduceCustomer_of_invoice {db : Db} {p : SilentPost} {c : Customer}
    (h : findByContract db p.xInvoiceNum = some c) : deduceCustomer db p = some c := by
  simp only [deduceCustomer, h]

theorem deduceCustomer_of_custId {db : Db} {p : SilentPost} {c : Customer}
    (hi : findByContract db p.xInvoiceNum = none)
    (h : findByContract db p.xCustId = some c) : deduceCustomer db p = some c := by
  simp only [deduceCustomer, hi, h]

/-- **Billing round trip.** For every stored customer: the number a
charge sends decodes to that customer's id and to no other, every
request a charge sends carries it in both places, and a post that
returns it — as the invoice number, or as the customer id when the
invoice number finds nobody — is saved: the row in the table afterwards
has that customer, whatever else is posted and whoever else is stored. -/
theorem billing_round_trip (db : Db) (n : Nat) (c : Customer)
    (hc : db.customers.find? n = some c) :
    (matchInvoice (orderId n).toList).map digitsValue = some n ∧
    (∀ m, orderId m = orderId n → m = n) ∧
    (∀ (db₁ db₂ : Db) (card : CreditCard) (cents : ℚ) (req : PurchaseRequest),
      card.customerId = n → chargeCents db₁ card cents = (db₂, .ok (some req)) →
      req.orderId = orderId n ∧ req.custId = orderId n) ∧
    ∀ p : SilentPost,
      (p.xInvoiceNum = some (orderId n) ∨
        (p.xCustId = some (orderId n) ∧ findByContract db p.xInvoiceNum = none)) →
      ((authorizeSilentPost db p).2 = none ↔
        p.xTestRequest = some (.bool true) ∨ p.xTransId = none) ∧
      ∀ t, (authorizeSilentPost db p).2 = some t →
        (authorizeSilentPost db p).1.transactions.find? t.id = some t ∧
        t.customerId = some n := by
  have hid : c.id = n := Table.key_of_find? hc
  have hfind : findByContract db (some (orderId n)) = some c := by
    simp only [findByContract]
    rw [withContractNumber_orderId, hc]
  refine ⟨?_, fun m h => orderId_injective h, ?_, ?_⟩
  · rw [matchInvoice_orderId]
    simp [digitsValue_paddedId]
  · intro db₁ db₂ card cents req hcard h
    rw [← hcard]
    exact chargeCents_orderId h
  · intro p hp
    refine ⟨authorizeSilentPost_saves db p, fun t ht => ?_⟩
    have hded : deduceCustomer db p = some c := by
      rcases hp with hp | ⟨hp, hnone⟩
      · exact deduceCustomer_of_invoice (by rw [hp]; exact hfind)
      · exact deduceCustomer_of_custId hnone (by rw [hp]; exact hfind)
    exact ⟨find?_of_saved ht, by rw [customerId_of_saved hded ht, hid]⟩

/-- A shop with one customer and a gateway. -/
def oneCustomer : Db :=
  { Db.empty with
    customers := Table.empty.insert Customer.new
    gateways := Table.empty.insert
      { id := 0, loginId := some "shop", password := none, transactionKey := some "key",
        merchantName := none, isDefault := true } }

/-- The customer's card. -/
def oneCard : CreditCard :=
  { id := 1, customerId := 1, number := some "4111111111111111", month := some 1,
    year := some 2030, firstName := some "Ann", lastName := some "Lee", phone := none,
    address := none }

/-- The post that answers a charge. -/
def answerTo (req : PurchaseRequest) : SilentPost where
  xTestRequest := none
  xTransId := some "2149186848"
  xInvoiceNum := some req.orderId
  xCustId := some req.custId
  xSubscriptionId := none
  xEmail := none
  xResponseReasonCode := some "1"
  xResponseReasonText := none
  xAuthCode := some "123456"
  xAmount := some "45.00"
  xSubscriptionPaynum := none
  xType := some "auth_capture"

/-- A charge, and the post that answers it. -/
theorem billing_round_trip_stored :
    ∃ req t, (chargeCents oneCustomer oneCard 4500).2 = .ok (some req) ∧
      (authorizeSilentPost (chargeCents oneCustomer oneCard 4500).1 (answerTo req)).2 = some t ∧
      (authorizeSilentPost (chargeCents oneCustomer oneCard 4500).1
        (answerTo req)).1.transactions.find? t.id = some t ∧
      t.customerId = some 1 := by
  obtain ⟨req, hreq⟩ : ∃ req, chargeCents oneCustomer oneCard 4500 =
      ((chargeCents oneCustomer oneCard 4500).1, .ok (some req)) := ⟨_, rfl⟩
  obtain ⟨-, -, hsent, hposted⟩ := billing_round_trip (chargeCents oneCustomer oneCard 4500).1 1
    { Customer.new with id := 1 } (by decide +kernel)
  have hnumber := (hsent _ _ oneCard 4500 req rfl hreq).1
  obtain ⟨hsaves, hrow⟩ := hposted (answerTo req) (.inl (congrArg some hnumber))
  have hsaved : (authorizeSilentPost (chargeCents oneCustomer oneCard 4500).1
      (answerTo req)).2 ≠ none := by
    rw [Ne, hsaves]
    simp [answerTo]
  obtain ⟨t, ht⟩ := Option.ne_none_iff_exists'.mp hsaved
  exact ⟨req, t, congrArg Prod.snd hreq, ht, hrow t ht⟩

/-! ## The table as a marking log -/

/-- What a search by transaction id and a report by response code see of
a row. -/
structure Entry where
  transactionId : Option Int
  responseCode : Option Int
  deriving DecidableEq

def rowEntry (t : Transaction) : Entry := ⟨t.transactionId, t.responseCode⟩

def entries (db : Db) : List Entry := db.transactions.rows.map rowEntry

/-- The code a notification is stored with. -/
def Notice.storedCode (n : Notice) : Int := if n.isVoid then -2 else storeInt n.code

/-- Notifications as events of a marking log: the entry keeps the
SATURATED id, the search uses the posted one. -/
def noticeMarking : Marking Entry Notice where
  entry n := ⟨some (storeInt n.transId), some n.storedCode⟩
  seeks n e := n.isVoid && e.transactionId == some (n.transId : Int)
  mark e := { e with responseCode := some (-3) }
  seeks_mark _ _ := rfl
  mark_mark _ := rfl

/-- What a void does to the rows that are there. -/
def voidRows (n : Notice) (rows : List Transaction) : List Transaction :=
  modifyFirst (fun r => n.isVoid && r.transactionId == some (n.transId : Int))
    (fun r => { r with responseCode := some (-3) }) rows

theorem Notice.toIOpt_transId (n : Notice) :
    toIOpt n.post.xTransId = (n.transId : Int) := by
  rw [n.trans]
  exact toI_toString n.transId

theorem Notice.presentOpt_transId (n : Notice) :
    presentOpt n.post.xTransId = true := by
  rw [n.trans, presentOpt_some, blank_toString]
  rfl

theorem rows_markVoided (db : Db) (n : Notice) :
    (markVoided db n.post).transactions.rows = voidRows n db.transactions.rows := by
  unfold markVoided voidRows Notice.isVoid
  by_cases hv : n.post.xType = some "void"
  · rw [if_pos ⟨hv, n.presentOpt_transId⟩, Table.rows_updateFirst]
    congr 1
    funext r
    simp [hasTransactionId, n.toIOpt_transId, hv]
  · rw [if_neg (fun h => hv h.1), modifyFirst_of_find?_eq_none]
    rw [List.find?_eq_none]
    intro r _
    simp [hv]

theorem postedCode_notice (n : Notice) : postedCode n.post = some n.storedCode := by
  unfold postedCode Notice.storedCode Notice.isVoid
  by_cases hv : n.post.xType = some "void"
  · simp [hv]
  · rw [if_neg hv, if_neg n.notCredit, n.reason]
    simp only [integerColumn, castInteger]
    rw [blank_toString, toI_toString]
    simp [hv]

theorem rowEntry_postedRow (n : Notice) (c : Option Customer) :
    rowEntry (assignCustomer (postedRow n.post) c) = noticeMarking.entry n := by
  have h : rowEntry (assignCustomer (postedRow n.post) c)
      = rowEntry (postedRow n.post) := by cases c <;> rfl
  rw [h]
  simp only [rowEntry, postedRow, noticeMarking, postedCode_notice, n.toIOpt_transId]

/-- One notification: the void's mark on the rows that are there, then
one new row. -/
theorem rows_receive (db : Db) (n : Notice) :
    ∃ row, rowEntry row = noticeMarking.entry n ∧
      (receive db n).transactions.rows
        = voidRows n db.transactions.rows ++ [row] := by
  refine ⟨Record.withKey (markVoided db n.post).transactions.nextKey
    (assignCustomer (postedRow n.post) (deduceCustomer db n.post)), ?_, ?_⟩
  · rw [← rowEntry_postedRow n (deduceCustomer db n.post)]
    rfl
  · simp only [receive, authorizeSilentPost, n.live, if_false, n.trans]
    rw [Table.rows_insert, rows_markVoided]

/-- **Refinement**: a notification is one step of the marking log. -/
theorem entries_receive (db : Db) (n : Notice) :
    entries (receive db n) = noticeMarking.step (entries db) n := by
  obtain ⟨row, hrow, hrows⟩ := rows_receive db n
  unfold entries
  rw [hrows, List.map_append, Marking.step, ← hrow]
  congr 1
  refine modifyFirst_map rowEntry ?_ ?_ db.transactions.rows
  · intro r; rfl
  · intro r; rfl

theorem entries_receiveAll (db : Db) (ns : List Notice) :
    entries (receiveAll db ns) = noticeMarking.process (entries db) ns :=
  run_simulates entries_receive ns db

theorem getElem?_entries (db : Db) (i : Nat) :
    (entries db)[i]? = (db.transactions.rows[i]?).map rowEntry := by
  simp [entries]

/-! ## Orders and repetitions -/

/-- After the notifications `ns`: no row with the transaction id of a
received void is approved, and the row of a sale whose id no void names
holds the code it was posted with. -/
def VoidsTakeEffect (db : Db) (ns : List Notice) : Prop :=
  (∀ v ∈ ns, v.isVoid = true → ∀ r ∈ (receiveAll db ns).transactions.rows,
    r.transactionId = some (v.transId : Int) → r.approved = false) ∧
  (∀ k n, ns[k]? = some n → n.isVoid = false →
    (∀ v ∈ ns, v.isVoid = true → v.transId ≠ n.transId) →
    ∃ r, (receiveAll db ns).transactions.rows[db.transactions.rows.length + k]? = some r ∧
      r.transactionId = some (n.transId : Int) ∧ r.responseCode = postedCode n.post)

/-- The stored rows followed by the notifications, each as it arrives. -/
def arrivals (db : Db) (ns : List Notice) : List Entry :=
  noticeMarking.arrived (entries db) ns

/-- For every id that a void names, an approved arrival with that id is
the FIRST arrival with that id. -/
def ApprovedFirst (db : Db) (ns : List Notice) : Prop :=
  ∀ v ∈ ns, v.isVoid = true → ∀ (i j : Nat) (a b : Entry),
    (arrivals db ns)[i]? = some a → (arrivals db ns)[j]? = some b →
    a.transactionId = some (v.transId : Int) → b.transactionId = some (v.transId : Int) →
    a.responseCode = some 1 → i ≤ j

theorem seeks_noticeMarking {n : Notice} {e : Entry} :
    noticeMarking.seeks n e = true ↔
      n.isVoid = true ∧ e.transactionId = some (n.transId : Int) := by
  simp [noticeMarking]

theorem storeInt_transId {n : Notice} (h : n.transId < 2 ^ 31) :
    storeInt (n.transId : Int) = n.transId := by
  refine storeInt_of_mem ?_ ?_
  · simp only [minInt]; omega
  · simp only [maxInt]; omega

/-- The arrival of notification `k`. -/
theorem arrivals_notice (db : Db) {ns : List Notice} {k : Nat} {n : Notice}
    (h : ns[k]? = some n) :
    (arrivals db ns)[db.transactions.rows.length + k]? = some (noticeMarking.entry n) := by
  unfold arrivals Marking.arrived
  rw [List.getElem?_append_right (by simp [entries])]
  simp [entries, h]

/-- A row that no later void finds first stays as it arrived. -/
theorem row_of_unmarked {db : Db} {ns : List Notice} {i : Nat} {a : Entry}
    (ha : (arrivals db ns)[i]? = some a)
    (h : ¬ noticeMarking.Marked (entries db) ns i) :
    ∃ r, (receiveAll db ns).transactions.rows[i]? = some r ∧ rowEntry r = a := by
  have hp := noticeMarking.getElem?_process_of_unmarked ha h
  rw [← entries_receiveAll, getElem?_entries, Option.map_eq_some_iff] at hp
  exact hp

/-- A row that some later void finds first is voided. -/
theorem row_of_marked {db : Db} {ns : List Notice} {i : Nat} {a : Entry}
    (ha : (arrivals db ns)[i]? = some a)
    (h : noticeMarking.Marked (entries db) ns i) :
    ∃ r, (receiveAll db ns).transactions.rows[i]? = some r ∧
      rowEntry r = { a with responseCode := some (-3) } := by
  have hp := noticeMarking.getElem?_process_of_marked ha h
  rw [← entries_receiveAll, getElem?_entries, Option.map_eq_some_iff] at hp
  exact hp

theorem length_rows_receiveAll (db : Db) (ns : List Notice) :
    (receiveAll db ns).transactions.rows.length
      = db.transactions.rows.length + ns.length := by
  have h := congrArg List.length (entries_receiveAll db ns)
  simpa [entries] using h

/-- Every row of the final table arrived. -/
theorem arrival_of_row {db : Db} {ns : List Notice} {i : Nat} {r : Transaction}
    (h : (receiveAll db ns).transactions.rows[i]? = some r) :
    ∃ a, (arrivals db ns)[i]? = some a := by
  have hi : i < (receiveAll db ns).transactions.rows.length :=
    (List.getElem?_eq_some_iff.mp h).1
  rw [length_rows_receiveAll] at hi
  refine ⟨_, List.getElem?_eq_getElem (?_ : i < (arrivals db ns).length)⟩
  simpa [arrivals, entries] using hi

/-- The row of a sale that no void names is never touched. -/
theorem unmarked_of_not_voided {db : Db} {ns : List Notice} {k : Nat} {n : Notice}
    (hk : ns[k]? = some n) (hid : storeInt (n.transId : Int) = n.transId)
    (h : ∀ v ∈ ns, v.isVoid = true → v.transId ≠ n.transId) :
    ¬ noticeMarking.Marked (entries db) ns (db.transactions.rows.length + k) := by
  rintro ⟨k', v, a, hv, _, ha, hs, _⟩
  obtain ⟨hvoid, hva⟩ := seeks_noticeMarking.mp hs
  have han : a = noticeMarking.entry n :=
    Option.some.inj (ha.symm.trans (arrivals_notice db hk))
  subst han
  have heq : (n.transId : Int) = v.transId := by
    have : some (storeInt (n.transId : Int)) = some (v.transId : Int) := hva
    rw [hid] at this
    exact Option.some.inj this
  exact h v (List.mem_of_getElem? hv) hvoid (by omega)

/-- An arrival that is not the first one with its id is never marked. -/
theorem unmarked_of_later {db : Db} {ns : List Notice} {i j : Nat} {a b : Entry}
    (ha : (arrivals db ns)[i]? = some a) (hb : (arrivals db ns)[j]? = some b)
    (hab : b.transactionId = a.transactionId) (hji : j < i) :
    ¬ noticeMarking.Marked (entries db) ns i := by
  rintro ⟨k, v, a', _, _, ha', hs, hfirst⟩
  obtain ⟨hvoid, hva⟩ := seeks_noticeMarking.mp hs
  have haa : a' = a := Option.some.inj (ha'.symm.trans ha)
  have hfound : noticeMarking.seeks v b = true := by
    refine seeks_noticeMarking.mpr ⟨hvoid, ?_⟩
    rw [hab, ← haa, hva]
  rw [hfirst j hji b hb] at hfound
  cases hfound

/-- An approved arrival that is the first one with the id of a void is
marked: the void itself is a later arrival with that id. -/
theorem marked_of_approvedFirst {db : Db} {ns : List Notice} (hfirst : ApprovedFirst db ns)
    {v : Notice} (hv : v ∈ ns) (hvoid : v.isVoid = true) (hid : v.transId < 2 ^ 31)
    {i : Nat} {a : Entry} (ha : (arrivals db ns)[i]? = some a)
    (haid : a.transactionId = some (v.transId : Int)) (hcode : a.responseCode = some 1) :
    noticeMarking.Marked (entries db) ns i := by
  obtain ⟨k, hk⟩ := List.mem_iff_getElem?.mp hv
  have harr := arrivals_notice db hk
  have hvid : (noticeMarking.entry v).transactionId = some (v.transId : Int) :=
    congrArg some (storeInt_transId hid)
  have hle := hfirst v hv hvoid i _ a _ ha harr haid hvid hcode
  have hne : i ≠ db.transactions.rows.length + k := by
    intro heq
    rw [heq, harr] at ha
    rw [← Option.some.inj ha] at hcode
    simp [noticeMarking, Notice.storedCode, hvoid] at hcode
  refine ⟨k, v, a, hk, ?_, ha, ?_, fun j hj b hb => ?_⟩
  · simp only [entries, List.length_map]
    omega
  · exact seeks_noticeMarking.mpr ⟨hvoid, haid⟩
  · cases hs : noticeMarking.seeks v b with
    | false => rfl
    | true =>
        have hij := hfirst v hv hvoid i j a b ha hb haid (seeks_noticeMarking.mp hs).2 hcode
        omega

/-- A row with the id of a void is not approved in the end: it was marked,
or it was not approved when it arrived. -/
theorem not_approved_of_approvedFirst {db : Db} {ns : List Notice}
    (hfirst : ApprovedFirst db ns) {v : Notice} (hv : v ∈ ns) (hvoid : v.isVoid = true)
    (hid : v.transId < 2 ^ 31) {r : Transaction}
    (hr : r ∈ (receiveAll db ns).transactions.rows)
    (hrid : r.transactionId = some (v.transId : Int)) : r.approved = false := by
  obtain ⟨i, hi⟩ := List.mem_iff_getElem?.mp hr
  obtain ⟨a, ha⟩ := arrival_of_row hi
  by_cases hmarked : noticeMarking.Marked (entries db) ns i
  · obtain ⟨r', hr', hra⟩ := row_of_marked ha hmarked
    rw [hi] at hr'
    cases hr'
    have hcode : r.responseCode = some (-3) := congrArg Entry.responseCode hra
    simp [Transaction.approved, hcode]
  · obtain ⟨r', hr', hra⟩ := row_of_unmarked ha hmarked
    rw [hi] at hr'
    cases hr'
    cases happ : r.approved with
    | false => rfl
    | true =>
        have hcode : a.responseCode = some 1 := by
          rw [← hra]
          simpa [Transaction.approved, rowEntry] using happ
        have haid : a.transactionId = some (v.transId : Int) := by
          rw [← hra]
          exact hrid
        exact absurd (marked_of_approvedFirst hfirst hv hvoid hid ha haid hcode) hmarked

/-- The row of a sale whose id no void names holds what was posted. -/
theorem row_of_not_voided {db : Db} {ns : List Notice} {k : Nat} {n : Notice}
    (hk : ns[k]? = some n) (hid : n.transId < 2 ^ 31)
    (hnot : ∀ v ∈ ns, v.isVoid = true → v.transId ≠ n.transId) :
    ∃ r, (receiveAll db ns).transactions.rows[db.transactions.rows.length + k]? = some r ∧
      r.transactionId = some (n.transId : Int) ∧ r.responseCode = postedCode n.post := by
  have hstore := storeInt_transId hid
  obtain ⟨r, hr, hra⟩ := row_of_unmarked (arrivals_notice db hk)
    (unmarked_of_not_voided hk hstore hnot)
  refine ⟨r, hr, ?_, ?_⟩
  · rw [← hstore]
    exact congrArg Entry.transactionId hra
  · rw [postedCode_notice]
    exact congrArg Entry.responseCode hra

/-- **When voids take effect.** Over every finite list of notifications —
every order and every repetition of them — onto every table: the voided
sales are out of `approved` and the others keep their codes if and only
if, for every voided id, an approved arrival with that id is the first
one with it. -/
theorem voids_take_effect_iff (db : Db) (ns : List Notice)
    (hns : ∀ n ∈ ns, n.transId < 2 ^ 31) :
    VoidsTakeEffect db ns ↔ ApprovedFirst db ns := by
  constructor
  · -- an approved arrival that is not the first one would stay approved
    intro ⟨heff, _⟩ v hv hvoid i j a b ha hb hai hbi hcode
    by_contra hij
    obtain ⟨r, hr, hra⟩ := row_of_unmarked ha
      (unmarked_of_later ha hb (hbi.trans hai.symm) (by omega))
    have happ := heff v hv hvoid r (List.mem_of_getElem? hr)
      ((congrArg Entry.transactionId hra).trans hai)
    have hcode' : r.responseCode = some 1 :=
      (congrArg Entry.responseCode hra).trans hcode
    simp [Transaction.approved, hcode'] at happ
  · intro hfirst
    refine ⟨fun v hv hvoid r hr hrid => ?_, fun k n hk _ hnot => ?_⟩
    · exact not_approved_of_approvedFirst hfirst hv hvoid (hns v hv) hr hrid
    · exact row_of_not_voided hk (hns n (List.mem_of_getElem? hk)) hnot

/-- A notification with only the three fields the table is about. -/
def Notice.bare (type : String) (transId code : Nat) (h : type ≠ "credit") : Notice where
  post :=
    { xTestRequest := none
      xTransId := some (toString transId)
      xInvoiceNum := none
      xCustId := none
      xSubscriptionId := none
      xEmail := none
      xResponseReasonCode := some (toString code)
      xResponseReasonText := none
      xAuthCode := none
      xAmount := none
      xSubscriptionPaynum := none
      xType := some type }
  transId := transId
  code := code
  live := by simp
  trans := rfl
  reason := rfl
  notCredit := by simpa using h

/-- A sale with its void after it. -/
theorem voids_take_effect_in_order :
    VoidsTakeEffect Db.empty
      [Notice.bare "auth_capture" 7 1 (by decide), Notice.bare "void" 7 1 (by decide)] := by
  refine (voids_take_effect_iff Db.empty _ (by decide)).mpr ?_
  intro v hv _ i j a b ha hb _ _ hcode
  rcases i with _ | _ | i
  · exact Nat.zero_le j
  · cases ha
    cases hcode
  · cases ha

/-- The same two notifications, the void first: the sale is approved
after both have been processed. -/
theorem voids_lost_when_early :
    ¬ VoidsTakeEffect Db.empty
      [Notice.bare "void" 7 1 (by decide), Notice.bare "auth_capture" 7 1 (by decide)] := by
  intro h
  have := h.1 (Notice.bare "void" 7 1 (by decide)) (List.mem_cons_self ..) rfl
    { Transaction.new with id := 2, responseCode := some 1, transactionId := some 7 }
    (by decide) rfl
  cases this

/-! ## The 32-bit limit -/

/-- The id each row was posted with: for a row stored before, the one it
holds. -/
def postedIds (db : Db) (ns : List Notice) : List (Option Int) :=
  db.transactions.rows.map Transaction.transactionId
    ++ ns.map (fun n => some (n.transId : Int))

/-- The void `v` arrives after `pre`, the sale and `mid`: the sale's row
then has the code -3, and the void changed no row of another id. -/
def VoidsItsSale (db : Db) (pre : List Notice) (sale : Notice) (mid : List Notice)
    (v : Notice) : Prop :=
  let before := receiveAll db (pre ++ sale :: mid)
  let after := receive before v
  (∃ r, after.transactions.rows[db.transactions.rows.length + pre.length]? = some r ∧
    r.responseCode = some (-3)) ∧
  ∀ i < before.transactions.rows.length,
    (postedIds db (pre ++ sale :: mid))[i]? ≠ some (some (v.transId : Int)) →
    after.transactions.rows[i]? = before.transactions.rows[i]?

/-- The ids the rows hold after the notifications: saturated. -/
def storedIds (db : Db) (ns : List Notice) : List (Option Int) :=
  db.transactions.rows.map Transaction.transactionId
    ++ ns.map (fun n => some (storeInt (n.transId : Int)))

theorem map_id_voidRows (n : Notice) (rows : List Transaction) :
    (voidRows n rows).map Transaction.transactionId
      = rows.map Transaction.transactionId := by
  rw [← modifyFirst_id (p := fun x => n.isVoid && x == some (n.transId : Int))
    (rows.map Transaction.transactionId)]
  refine modifyFirst_map Transaction.transactionId ?_ ?_ rows
  · intro r; rfl
  · intro r; rfl

/-- Marking never changes an id. -/
theorem map_id_receiveAll (db : Db) : ∀ ns : List Notice,
    (receiveAll db ns).transactions.rows.map Transaction.transactionId
      = storedIds db ns := by
  intro ns
  induction ns using List.reverseRecOn with
  | nil => simp [receiveAll, storedIds]
  | append_singleton ns n ih =>
      obtain ⟨row, hrow, hrows⟩ := rows_receive (receiveAll db ns) n
      have hid : row.transactionId = some (storeInt (n.transId : Int)) :=
        congrArg Entry.transactionId hrow
      rw [receiveAll, run_snoc]
      change (receive (receiveAll db ns) n).transactions.rows.map _ = _
      rw [hrows, List.map_append, map_id_voidRows, ih]
      simp [storedIds, hid]

theorem storedId_of_row {db : Db} {ns : List Notice} {i : Nat} {r : Transaction}
    (h : (receiveAll db ns).transactions.rows[i]? = some r) :
    (storedIds db ns)[i]? = some r.transactionId := by
  rw [← map_id_receiveAll, List.getElem?_map, h]
  rfl

theorem length_storedIds (db : Db) (ns : List Notice) :
    (storedIds db ns).length = (receiveAll db ns).transactions.rows.length := by
  rw [← map_id_receiveAll, List.length_map]

/-- The rows that were there, after one more notification. -/
theorem row_receive {db : Db} (n : Notice) {i : Nat}
    (hi : i < db.transactions.rows.length) :
    (receive db n).transactions.rows[i]? = (voidRows n db.transactions.rows)[i]? := by
  obtain ⟨row, _, hrows⟩ := rows_receive db n
  rw [hrows, List.getElem?_append_left (by simpa [voidRows] using hi)]

/-- A void changes row `i` to -3 when it is the first one stored under
the void's number. -/
theorem row_voided {db : Db} {ns : List Notice} {v : Notice} {i : Nat}
    (hv : v.isVoid = true) (hi : (storedIds db ns)[i]? = some (some (v.transId : Int)))
    (hfirst : ∀ j < i, (storedIds db ns)[j]? ≠ some (some (v.transId : Int))) :
    ∃ r, (receive (receiveAll db ns) v).transactions.rows[i]? = some r ∧
      r.responseCode = some (-3) := by
  have hlt : i < (receiveAll db ns).transactions.rows.length := by
    rw [← length_storedIds]
    exact (List.getElem?_eq_some_iff.mp hi).1
  have hr := List.getElem?_eq_getElem hlt
  have hid := (storedId_of_row hr).symm.trans hi
  rw [row_receive v hlt]
  refine ⟨_, getElem?_modifyFirst_of_first hr ?_ fun j hj b hb => ?_, rfl⟩
  · simp [hv, Option.some.inj hid]
  · have hb' := hfirst j hj
    rw [storedId_of_row hb] at hb'
    simp only [hv, Bool.true_and, beq_eq_false_iff_ne]
    exact fun h => hb' (congrArg some h)

/-- A void leaves every other row alone. -/
theorem row_not_voided {db : Db} {ns : List Notice} {v : Notice} {i : Nat}
    (hi : i < (receiveAll db ns).transactions.rows.length)
    (h : (storedIds db ns)[i]? = some (some (v.transId : Int)) →
      ∃ j < i, (storedIds db ns)[j]? = some (some (v.transId : Int))) :
    (receive (receiveAll db ns) v).transactions.rows[i]?
      = (receiveAll db ns).transactions.rows[i]? := by
  rw [row_receive v hi]
  refine getElem?_modifyFirst_of_not_first fun a ha hp => ?_
  simp only [Bool.and_eq_true, beq_iff_eq] at hp
  obtain ⟨hvoid, haid⟩ := hp
  obtain ⟨j, hj, hjid⟩ := h (by rw [storedId_of_row ha, haid])
  rw [← map_id_receiveAll, List.getElem?_map, Option.map_eq_some_iff] at hjid
  obtain ⟨b, hb, hbid⟩ := hjid
  exact ⟨j, hj, b, hb, by simp [hvoid, hbid]⟩

/-- The sale's own place among the rows. -/
theorem storedIds_sale (db : Db) (pre mid : List Notice) (sale : Notice) :
    (storedIds db (pre ++ sale :: mid))[db.transactions.rows.length + pre.length]?
      = some (some (storeInt (sale.transId : Int))) := by
  unfold storedIds
  rw [List.getElem?_append_right (by simp)]
  simp

/-- The places before it hold the rows that were stored and the
notifications that came first. -/
theorem storedIds_before {db : Db} {pre mid : List Notice} {sale : Notice} {j : Nat}
    (hj : j < db.transactions.rows.length + pre.length) :
    (storedIds db (pre ++ sale :: mid))[j]? = (storedIds db pre)[j]? := by
  have hlen : (storedIds db pre).length = db.transactions.rows.length + pre.length := by
    simp [storedIds]
  have happ : storedIds db (pre ++ sale :: mid)
      = storedIds db pre ++ (sale :: mid).map (fun n => some (storeInt (n.transId : Int))) := by
    simp [storedIds]
  rw [happ, List.getElem?_append_left (by omega)]

/-- No row stored before, and no notification of `pre`, is stored under
the number `n`. -/
theorem not_mem_storedIds_iff {db : Db} {pre : List Notice} {n : Int} :
    (∀ j < db.transactions.rows.length + pre.length,
        (storedIds db pre)[j]? ≠ some (some n)) ↔
      (∀ r ∈ db.transactions.rows, r.transactionId ≠ some n) ∧
      ∀ m ∈ pre, storeInt (m.transId : Int) ≠ n := by
  have hlen : (storedIds db pre).length = db.transactions.rows.length + pre.length := by
    simp [storedIds]
  have hmem : some n ∈ storedIds db pre ↔
      (∃ r ∈ db.transactions.rows, r.transactionId = some n) ∨
      ∃ m ∈ pre, storeInt (m.transId : Int) = n := by
    simp [storedIds, List.mem_append, List.mem_map]
  constructor
  · intro h
    have hno : some n ∉ storedIds db pre := by
      intro hin
      obtain ⟨j, hj⟩ := List.mem_iff_getElem?.mp hin
      exact h j (by rw [← hlen]; exact (List.getElem?_eq_some_iff.mp hj).1) hj
    exact ⟨fun r hr he => hno (hmem.mpr (Or.inl ⟨r, hr, he⟩)),
      fun m hm he => hno (hmem.mpr (Or.inr ⟨m, hm, he⟩))⟩
  · intro ⟨hrows, hpre⟩ j _ hj
    rcases hmem.mp (List.mem_of_getElem? hj) with ⟨r, hr, he⟩ | ⟨m, hm, he⟩
    · exact hrows r hr he
    · exact hpre m hm he

/-- The row of a sale that has just been received does not hold the code
of a voided one. -/
theorem code_of_received_sale {db : Db} {pre : List Notice} {sale : Notice}
    (hsale : sale.isVoid = false) {r : Transaction}
    (hr : (receiveAll db (pre ++ [sale])).transactions.rows[
      db.transactions.rows.length + pre.length]? = some r) :
    r.responseCode ≠ some (-3) := by
  obtain ⟨row, hrow, hrows⟩ := rows_receive (receiveAll db pre) sale
  have hlast : (voidRows sale (receiveAll db pre).transactions.rows).length
      = db.transactions.rows.length + pre.length := by
    simp [voidRows, length_rows_receiveAll]
  rw [receiveAll, run_snoc] at hr
  change (receive (receiveAll db pre) sale).transactions.rows[_]? = some r at hr
  rw [hrows, List.getElem?_append_right (by omega), hlast] at hr
  simp only [Nat.sub_self, List.getElem?_cons_zero, Option.some.injEq] at hr
  have hstored : row.responseCode = some sale.storedCode :=
    congrArg Entry.responseCode hrow
  intro hcode
  rw [← hr, hstored, Notice.storedCode, hsale] at hcode
  simp [storeInt, minInt, maxInt] at hcode
  omega

/-- **The sale a void finds.** Whatever arrives in between, a void marks
the row of its sale and no row of another id if and only if the id fits
the column and no earlier row was stored under it. -/
theorem sale_voided_iff (db : Db) (pre : List Notice) (sale v : Notice)
    (hsale : sale.isVoid = false) (hv : v.isVoid = true)
    (hid : v.transId = sale.transId) :
    (∀ mid, VoidsItsSale db pre sale mid v) ↔
      (sale.transId : Int) ≤ maxInt ∧
      (∀ r ∈ db.transactions.rows, r.transactionId ≠ some (sale.transId : Int)) ∧
      ∀ m ∈ pre, storeInt (m.transId : Int) ≠ sale.transId := by
  rw [← not_mem_storedIds_iff]
  constructor
  · -- with nothing in between, the sale is the last row and the void must
    -- have changed it
    intro h
    obtain ⟨⟨r, hr, hcode⟩, _⟩ := h []
    have hlt : db.transactions.rows.length + pre.length
        < (receiveAll db (pre ++ [sale])).transactions.rows.length := by
      rw [length_rows_receiveAll]
      simp
    by_contra hcond
    have hsame := row_not_voided (v := v) hlt fun hstored => ?_
    · exact code_of_received_sale hsale (hsame.symm.trans hr) hcode
    · rw [storedIds_sale, hid] at hstored
      have hle : (sale.transId : Int) ≤ maxInt := by
        have := storeInt_le (sale.transId : Int)
        rwa [Option.some.inj (Option.some.inj hstored)] at this
      by_contra hnone
      refine hcond ⟨hle, fun j hj hj' => hnone ⟨j, hj, ?_⟩⟩
      rw [storedIds_before hj, hid]
      exact hj'
  · intro ⟨hle, hbefore⟩ mid
    have hstore : storeInt (sale.transId : Int) = sale.transId :=
      storeInt_of_mem (by simp only [minInt]; omega) hle
    have hself := storedIds_sale db pre mid sale
    rw [hstore, ← hid] at hself
    rw [← hid] at hbefore
    refine ⟨row_voided hv hself fun j hj => ?_, fun i hi hposted => ?_⟩
    · rw [storedIds_before hj]
      exact hbefore j hj
    · refine row_not_voided hi fun hstored => ?_
      rcases Nat.lt_trichotomy i (db.transactions.rows.length + pre.length)
        with hlt | heq | hgt
      · rw [storedIds_before hlt] at hstored
        exact absurd hstored (hbefore i hlt)
      · -- the sale's own row was posted under the void's id
        refine absurd ?_ hposted
        unfold postedIds
        rw [heq, List.getElem?_append_right (by simp)]
        simp [hid]
      · exact ⟨_, hgt, hself⟩

/-- A first sale at the limit itself. -/
theorem sale_voided_at_limit :
    VoidsItsSale Db.empty [] (Notice.bare "auth_capture" 2147483647 1 (by decide)) []
      (Notice.bare "void" 2147483647 1 (by decide)) := by
  refine (sale_voided_iff Db.empty [] (Notice.bare "auth_capture" 2147483647 1 (by decide))
    (Notice.bare "void" 2147483647 1 (by decide)) rfl rfl rfl).mpr ⟨by decide, ?_, ?_⟩ []
  · intro r hr; cases hr
  · intro m hm; cases hm

/-- Beyond the limit the void finds nothing: the sale stays approved. -/
theorem sale_not_voided_beyond_limit :
    ¬ VoidsItsSale Db.empty [] (Notice.bare "auth_capture" 3000000000 1 (by decide)) []
      (Notice.bare "void" 3000000000 1 (by decide)) := by
  intro ⟨⟨r, hr, hcode⟩, _⟩
  have hrow : (receive (receiveAll Db.empty
      ([] ++ [Notice.bare "auth_capture" 3000000000 1 (by decide)]))
      (Notice.bare "void" 3000000000 1 (by decide))).transactions.rows[0]?
        = some { Transaction.new with
          id := 1
          responseCode := some 1
          transactionId := some 2147483647 } := by
    rfl
  rw [show (Db.empty.transactions.rows.length + List.length ([] : List Notice)) = 0 from rfl,
    hrow] at hr
  cases hr
  cases hcode

end HomeWarranty.Billing
