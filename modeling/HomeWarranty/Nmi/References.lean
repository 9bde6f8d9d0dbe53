/-
HomeWarranty.Nmi.References — the identifiers of a sale, over every run.

A transaction row carries its own key, the gateway's transaction id
(`transactionid`), a numeric `transaction_id` that only notifications
fill, the gateway's subscription id (`subscriptionid`) and the key of
the subscription row (`sub_id`). `Books` is the database together with a
ledger of the sales: which row, and which subscription, was stored for
which answer of the gateway. The ledger is written by the charges only
and nothing reads it.

`Kept` is the invariant that ties rows to the ledger; `inOrder_run` is its
run lemma, over charges, notifications, staff operations and arbitrary
changes of the other tables. From it, `references_sent_iff` says what
every operation sends about a sale: the refund and the two cancellations
send the gateway's own id; the void passes the row's key, a number,
which cannot be spliced into the query, and nothing is sent.
-/
import HomeWarranty.Billing.SilentPost
import HomeWarranty.Nmi.RefundTheorems

namespace HomeWarranty.Nmi

open Lib Ruby Billing

/-! ## Runs -/

structure Books where
  db : Db
  sales : List Sale

inductive Event where
  | charge2 (card : CreditCard) (cents : ℚ) (params : ChargeParams) (env : ChargeEnv)
  | charge3 (card : CreditCard) (cents : ℚ) (params : ChargeParams) (env : ChargeEnv)
  | notification (post : SilentPost)
  | staff (op : StaffOp) (answer : Option Response)
  | elsewhere (other : Db)

/-- One event. `elsewhere` stands for everything the rest of the
application does: the other tables change in any way. -/
def Books.step [Numbers] (b : Books) : Event → Books
  | .charge2 card cents params env =>
      ⟨(chargeCents2 b.db card cents params env).1,
        b.sales ++ (chargeCents2 b.db card cents params env).2.toList⟩
  | .charge3 card cents params env =>
      ⟨(chargeCents3 b.db card cents params env).1,
        b.sales ++ (chargeCents3 b.db card cents params env).2.toList⟩
  | .notification post => ⟨(authorizeSilentPost b.db post).1, b.sales⟩
  | .staff op answer => ⟨operate b.db op answer, b.sales⟩
  | .elsewhere other =>
      ⟨{ other with transactions := b.db.transactions,
                    subscriptions := b.db.subscriptions }, b.sales⟩

/-! ## The invariant -/

/-- The identifiers of a row. -/
structure Ref where
  id : Nat
  transactionid : Option String
  subscriptionid : Option String
  subId : Option Nat
  deriving DecidableEq

def rowRef (t : Transaction) : Ref := ⟨t.id, t.transactionid, t.subscriptionid, t.subId⟩

def refs (db : Db) : List Ref := db.transactions.rows.map rowRef

/-- The row the ledger expects for a sale. -/
def Sale.ref (s : Sale) : Ref :=
  ⟨s.row, s.response.transactionid, s.response.subscriptionId, s.sub⟩

/-- Rows point to subscriptions that have been created; every sale has
its row; no other row points to the subscription of a sale. -/
structure Kept (rs : List Ref) (nextSub : Nat) (sales : List Sale) : Prop where
  issued : ∀ r ∈ rs, ∀ k, r.subId = some k → k < nextSub
  stored : ∀ s ∈ sales, s.ref ∈ rs
  alone : ∀ s ∈ sales, ∀ k, s.sub = some k → ∀ r ∈ rs, r.subId = some k → r = s.ref

/-- The books are in order. -/
def Books.InOrder (b : Books) : Prop :=
  Kept (refs b.db) b.db.subscriptions.nextKey b.sales

/-- A row without a subscription disturbs nothing. -/
theorem Kept.append_row {rs : List Ref} {next : Nat} {sales : List Sale}
    (h : Kept rs next sales) {r : Ref} (hr : r.subId = none) :
    Kept (rs ++ [r]) next sales where
  issued := by
    intro r' hr' k hk
    rcases List.mem_append.mp hr' with hr' | hr'
    · exact h.issued r' hr' k hk
    · rw [List.mem_singleton.mp hr', hr] at hk
      cases hk
  stored := fun s hs => List.mem_append_left _ (h.stored s hs)
  alone := by
    intro s hs k hk r' hr' hrk
    rcases List.mem_append.mp hr' with hr' | hr'
    · exact h.alone s hs k hk r' hr' hrk
    · rw [List.mem_singleton.mp hr', hr] at hrk
      cases hrk

/-- A subscription without a row disturbs nothing. -/
theorem Kept.next {rs : List Ref} {next : Nat} {sales : List Sale}
    (h : Kept rs next sales) : Kept rs (next + 1) sales where
  issued := fun r hr k hk => Nat.lt_succ_of_lt (h.issued r hr k hk)
  stored := h.stored
  alone := h.alone

/-- A sale that is stored with its row. -/
theorem Kept.stored_append {rs : List Ref} {next : Nat} {sales : List Sale}
    (h : Kept rs next sales) (s : Sale) : ∀ s' ∈ sales ++ [s], s'.ref ∈ rs ++ [s.ref] := by
  intro s' hs'
  rcases List.mem_append.mp hs' with hs' | hs'
  · exact List.mem_append_left _ (h.stored s' hs')
  · rw [List.mem_singleton.mp hs']
    exact List.mem_append_right _ (List.mem_singleton_self _)

/-- A sale without a subscription. -/
theorem Kept.append_sale {rs : List Ref} {next : Nat} {sales : List Sale}
    (h : Kept rs next sales) {s : Sale} (hs : s.sub = none) :
    Kept (rs ++ [s.ref]) next (sales ++ [s]) where
  issued := (h.append_row hs).issued
  stored := h.stored_append s
  alone := by
    intro s' hs' k hk
    rcases List.mem_append.mp hs' with hs' | hs'
    · exact (h.append_row hs).alone s' hs' k hk
    · rw [List.mem_singleton.mp hs', hs] at hk
      cases hk

/-- A sale with the subscription that was created for it: the key is
new, so no earlier row carries it. -/
theorem Kept.append_subscribed {rs : List Ref} {next : Nat} {sales : List Sale}
    (h : Kept rs next sales) {s : Sale} (hs : s.sub = some next) :
    Kept (rs ++ [s.ref]) (next + 1) (sales ++ [s]) where
  issued := by
    intro r hr k hk
    rcases List.mem_append.mp hr with hr | hr
    · exact Nat.lt_succ_of_lt (h.issued r hr k hk)
    · rw [List.mem_singleton.mp hr] at hk
      have : s.sub = some k := hk
      rw [hs, Option.some.injEq] at this
      omega
  stored := h.stored_append s
  alone := by
    intro s' hs' k hk r hr hrk
    rcases List.mem_append.mp hs' with hs' | hs'
    · -- an earlier sale: its key is below `next`
      have hlt : k < next := h.issued s'.ref (h.stored s' hs') k hk
      rcases List.mem_append.mp hr with hr | hr
      · exact h.alone s' hs' k hk r hr hrk
      · rw [List.mem_singleton.mp hr] at hrk
        have : s.sub = some k := hrk
        rw [hs, Option.some.injEq] at this
        omega
    · rw [List.mem_singleton.mp hs', hs, Option.some.injEq] at hk
      subst hk
      rcases List.mem_append.mp hr with hr | hr
      · exact absurd (h.issued r hr next hrk) (by omega)
      · rw [List.mem_singleton.mp hr, List.mem_singleton.mp hs']

/-! ## What each event does to the identifiers -/

/-- An update that keeps a row's identifiers. -/
theorem refs_update {t : Table Transaction} {k : Nat} {f : Transaction → Transaction}
    {hf : ∀ r, Record.key (f r) = Record.key r} (h : ∀ r, rowRef (f r) = rowRef r) :
    (t.update k f hf).rows.map rowRef = t.rows.map rowRef := by
  rw [Table.rows_update, List.map_map]
  refine List.map_congr_left fun r _ => ?_
  simp only [Function.comp]
  split
  · exact h r
  · rfl

theorem refs_markVoided (db : Db) (p : SilentPost) : refs (markVoided db p) = refs db := by
  unfold markVoided
  split
  · simp only [refs]
    unfold Table.updateFirst
    split
    · rfl
    · exact refs_update fun r => rfl
  · rfl

/-- A notification stores a row without a subscription, or nothing. -/
theorem refs_authorizeSilentPost (db : Db) (p : SilentPost) :
    (authorizeSilentPost db p).1.subscriptions = db.subscriptions ∧
    (refs (authorizeSilentPost db p).1 = refs db ∨
      ∃ r : Ref, r.subId = none ∧ refs (authorizeSilentPost db p).1 = refs db ++ [r]) := by
  have hsubs : (markVoided db p).subscriptions = db.subscriptions := by
    unfold markVoided
    split <;> rfl
  unfold authorizeSilentPost
  by_cases ht : p.xTestRequest = some (.bool true)
  · simp [ht]
  · cases hx : p.xTransId with
    | none => simp [ht]
    | some x =>
        simp only [ht, if_false]
        refine ⟨hsubs, Or.inr ⟨rowRef (Record.withKey (markVoided db p).transactions.nextKey
          (assignCustomer (postedRow p) (deduceCustomer db p))), ?_, ?_⟩⟩
        · cases deduceCustomer db p <;> rfl
        · rw [← refs_markVoided db p]
          simp [refs]

theorem refs_recordRefund [Numbers] (db : Db) (t : Transaction) (a : ℚ) :
    refs (recordRefund db t a) = refs db := by
  simp only [refs, recordRefund]
  exact refs_update fun r => rfl

/-- No staff operation changes an identifier. -/
theorem refs_operate [Numbers] (db : Db) (op : StaffOp) (answer : Option Response) :
    refs (operate db op answer) = refs db ∧
      (operate db op answer).subscriptions.nextKey = db.subscriptions.nextKey := by
  have hcancel : ∀ sub query, refs (cancel db sub query answer) = refs db ∧
      (cancel db sub query answer).subscriptions.nextKey = db.subscriptions.nextKey := by
    intro sub query
    unfold cancel
    split
    · exact ⟨rfl, rfl⟩
    · exact ⟨rfl, rfl⟩
  cases op with
  | refund row amount =>
      obtain h | ⟨t, q, _, h⟩ := refund_cases db ⟨row, amount, answer⟩
      · simp [operate, h]
      · simp only [operate, h]
        split
        · exact ⟨refs_recordRefund db t _, rfl⟩
        · exact ⟨rfl, rfl⟩
  | void row => exact ⟨rfl, rfl⟩
  | delSubscription sub => exact hcancel sub _
  | deleteSubscription sub => exact hcancel sub _

/-- Everything `charge_cents2!` can store. -/
theorem chargeCents2_cases [Numbers] (db : Db) (card : CreditCard) (cents : ℚ)
    (params : ChargeParams) (env : ChargeEnv) :
    chargeCents2 db card cents params env = (db, none) ∨
    (∃ s, chargeCents2 db card cents params env
      = ({ db with subscriptions := db.subscriptions.insert s }, none)) ∨
    ∃ c r s kept, chargeCents2 db card cents params env =
      ({ db with
          subscriptions := db.subscriptions.insert s
          transactions := db.transactions.insert
            { saleRow c kept r with subId := some db.subscriptions.nextKey } },
        some { row := db.transactions.nextKey, sub := some db.subscriptions.nextKey,
               response := r }) := by
  simp only [chargeCents2]
  split
  · rename_i c _ _ r kept _ _ _ _
    split
    · exact Or.inr (Or.inr ⟨c, r, _, kept, rfl⟩)
    · exact Or.inr (Or.inl ⟨_, rfl⟩)
  · exact Or.inl rfl

theorem chargeCents3_cases [Numbers] (db : Db) (card : CreditCard) (cents : ℚ)
    (params : ChargeParams) (env : ChargeEnv) :
    chargeCents3 db card cents params env = (db, none) ∨
    ∃ c r kept, chargeCents3 db card cents params env =
      ({ db with transactions := db.transactions.insert (saleRow c kept r) },
        some { row := db.transactions.nextKey, sub := none, response := r }) := by
  unfold chargeCents3
  split
  · exact Or.inr ⟨_, _, _, rfl⟩
  · exact Or.inl rfl

/-- The step lemma. -/
theorem inOrder_step [Numbers] (b : Books) (e : Event) (h : b.InOrder) : (b.step e).InOrder := by
  cases e with
  | charge2 card cents params env =>
      obtain hc | ⟨s, hc⟩ | ⟨c, r, s, _, hc⟩ := chargeCents2_cases b.db card cents params env
      · simpa [Books.InOrder, Books.step, hc] using h
      · simp only [Books.InOrder, Books.step, hc, Option.toList_none, List.append_nil]
        exact h.next
      · simp only [Books.InOrder, Books.step, hc, Option.toList_some]
        have := h.append_subscribed (s := ⟨b.db.transactions.nextKey,
          some b.db.subscriptions.nextKey, r⟩) rfl
        simpa [refs, rowRef, saleRow, Sale.ref, Table.insert, Record.withKey] using this
  | charge3 card cents params env =>
      obtain hc | ⟨c, r, _, hc⟩ := chargeCents3_cases b.db card cents params env
      · simpa [Books.InOrder, Books.step, hc] using h
      · simp only [Books.InOrder, Books.step, hc, Option.toList_some]
        have := h.append_sale (s := ⟨b.db.transactions.nextKey, none, r⟩) rfl
        simpa [refs, rowRef, saleRow, Sale.ref, Record.withKey, Transaction.new] using this
  | notification post =>
      obtain ⟨hsubs, hrefs | ⟨r, hr, hrefs⟩⟩ := refs_authorizeSilentPost b.db post
      · simp only [Books.InOrder, Books.step, hsubs, hrefs]
        exact h
      · simp only [Books.InOrder, Books.step, hsubs, hrefs]
        exact h.append_row hr
  | staff op answer =>
      obtain ⟨hrefs, hsubs⟩ := refs_operate b.db op answer
      simp only [Books.InOrder, Books.step, hsubs, hrefs]
      exact h
  | elsewhere other => exact h

/-- The run lemma. -/
theorem inOrder_run [Numbers] (b : Books) (es : List Event) (h : b.InOrder) :
    (run Books.step b es).InOrder :=
  run_invariant Books.InOrder inOrder_step es b h

/-! ## What the operations find -/

theorem row_of_sale {b : Books} (h : b.InOrder) {s : Sale} (hs : s ∈ b.sales) :
    ∃ t, b.db.transactions.find? s.row = some t ∧ rowRef t = s.ref := by
  obtain ⟨t, ht, href⟩ := List.mem_map.mp (h.stored s hs)
  have hid : Record.key t = s.row := congrArg Ref.id href
  exact ⟨t, by rw [← hid]; exact Table.find?_key _ ht, href⟩

/-- The row a subscription leads to is the row of its sale. -/
theorem transactionOf_sale {b : Books} (h : b.InOrder) {s : Sale} (hs : s ∈ b.sales)
    {k : Nat} (hk : s.sub = some k) :
    ∃ t, transactionOf b.db k = some t ∧ rowRef t = s.ref := by
  obtain ⟨t, ht, href⟩ := List.mem_map.mp (h.stored s hs)
  have hsub : t.subId = some k := (congrArg Ref.subId href).trans hk
  cases hf : transactionOf b.db k with
  | none =>
      have := List.find?_eq_none.mp hf t ht
      simp [hsub] at this
  | some t' =>
      have hmem : rowRef t' ∈ refs b.db :=
        List.mem_map.mpr ⟨t', List.mem_of_find?_eq_some hf, rfl⟩
      have hsub' : t'.subId = some k := by simpa using List.find?_some hf
      exact ⟨t', rfl, h.alone s hs k hk (rowRef t') hmem hsub'⟩

theorem firstLogin_of_merchantLogin {db : Db} {c : Option Nat} {l : Login}
    (h : merchantLogin db c = .ok (some l)) : firstLogin db = .ok l := by
  unfold merchantLogin at h
  cases c with
  | none => cases h
  | some id =>
      cases hc : db.customers.find? id with
      | none => simp [hc] at h
      | some c =>
          simp only [hc, bind_eq_ok] at h
          obtain ⟨m, _, h⟩ := h
          cases m with
          | none => cases h
          | some m =>
              simp only [bind_eq_ok] at h
              obtain ⟨l', hl', h⟩ := h
              cases h
              exact hl'

/-! ## What the operations send -/

/-- The operation is about this sale: about its row, or about the
subscription that was created with it. -/
def About (s : Sale) : StaffOp → Prop
  | .refund row _ => row = s.row
  | .void row => row = s.row
  | .delSubscription sub => s.sub = some sub
  | .deleteSubscription sub => s.sub = some sub

def StaffOp.isVoid : StaffOp → Bool
  | .void _ => true
  | _ => false

/-- Both parts of a login are there to be escaped. -/
def Login.complete (l : Login) : Bool := l.username.isSome && l.password.isSome

/-- The guards of each action, up to its gateway call. -/
def admitted [Numbers] (db : Db) : StaffOp → Bool
  | .refund row amount => reachesGateway db ⟨row, amount, none⟩
  | .void row =>
      (db.transactions.find? row).isSome &&
        match firstLogin db with
        | .ok l => l.complete
        | .error _ => false
  | .delSubscription sub =>
      match db.subscriptions.find? sub with
      | none => false
      | some s =>
          match merchantLogin db (some s.customerId), transactionOf db s.id with
          | .ok (some l), some t => l.complete && presentOpt t.subscriptionid
          | _, _ => false
  | .deleteSubscription sub =>
      match db.subscriptions.find? sub with
      | none => false
      | some s => (db.customers.find? s.customerId).isSome

/-- The query an operation is meant to send: the gateway's own id of the
sale, as text. -/
def reference (db : Db) (s : Sale) : StaffOp → Except RubyError String
  | .refund _ amount => do
      let l ← firstLogin db
      refundQuery l (.text (s.response.transactionid.getD "")) (.text (amount.getD ""))
  | .void _ => do
      let l ← firstLogin db
      doVoid l (.text (s.response.transactionid.getD ""))
  | .delSubscription _ => do
      let l ← firstLogin db
      cancelSubscription l (.text (s.response.subscriptionId.getD ""))
  | .deleteSubscription _ =>
      cancelSubscription ⟨some "demo", some "password"⟩
        (.text (s.response.subscriptionId.getD ""))

/-- The operation sends exactly that. -/
def SendsReference [Numbers] (db : Db) (s : Sale) (op : StaffOp) : Prop :=
  ∃ q, reference db s op = .ok q ∧ posted db op = some q

theorem cancelSubscription_isOk {l : Login} (h : l.complete = true) (x : String) :
    ∃ q, cancelSubscription l (.text x) = .ok q := by
  simp only [Login.complete, Bool.and_eq_true, Option.isSome_iff_exists] at h
  obtain ⟨⟨u, hu⟩, p, hp⟩ := h
  exact ⟨_, by simp [cancelSubscription, loginQuery, escaped, concat, hu, hp, bind, Except.bind,
    pure, Except.pure]; rfl⟩

/-- A void sends nothing: a number cannot be spliced into a query. -/
theorem posted_void [Numbers] (db : Db) (row : Nat) : posted db (.void row) = none := by
  have hvoid : ∀ l n q, doVoid l (.int n) ≠ .ok q := by
    intro l n q h
    simp only [doVoid, concat, bind_eq_ok] at h
    obtain ⟨_, _, _, h, _⟩ := h
    cases h
  simp only [posted]
  cases h : loadVoid db row with
  | error e => rfl
  | ok q =>
      unfold loadVoid at h
      cases ht : db.transactions.find? row with
      | none => simp [ht] at h
      | some t =>
          simp only [ht, bind_eq_ok] at h
          obtain ⟨l, _, h⟩ := h
          exact absurd h (hvoid l _ q)

theorem refund_sends [Numbers] {db : Db} {s : Sale} {t : Transaction} {amount : Option String}
    (ht : db.transactions.find? s.row = some t) (href : rowRef t = s.ref)
    (hadm : admitted db (.refund s.row amount) = true) :
    SendsReference db s (.refund s.row amount) := by
  have hid : t.transactionid = s.response.transactionid := congrArg Ref.transactionid href
  have hsent := sent_isSome db ⟨s.row, amount, none⟩
  have hsome : (refund db ⟨s.row, amount, none⟩).2.isSome = true := hsent.trans hadm
  obtain h | ⟨t', q, hl, _⟩ := refund_cases db ⟨s.row, amount, none⟩
  · rw [h] at hsome
    cases hsome
  · obtain ⟨ht', _, l, hlogin, hq⟩ := loadRefund_eq_some_iff.mp hl
    have htt : t' = t := Option.some.inj (ht'.symm.trans ht)
    rw [htt, hid] at hq
    refine ⟨q, ?_, by simp [posted, hl]⟩
    rw [reference, firstLogin_of_merchantLogin hlogin]
    exact hq

theorem delSubscription_sends [Numbers] {db : Db} {s : Sale} {t : Transaction} {sub : Nat}
    (ht : transactionOf db sub = some t) (href : rowRef t = s.ref)
    (hadm : admitted db (.delSubscription sub) = true) :
    SendsReference db s (.delSubscription sub) := by
  have hid : t.subscriptionid = s.response.subscriptionId :=
    congrArg Ref.subscriptionid href
  unfold admitted at hadm
  cases hsub : db.subscriptions.find? sub with
  | none => simp [hsub] at hadm
  | some row =>
      have hkey : row.id = sub := Table.key_of_find? hsub
      simp only [hsub, hkey, ht] at hadm
      cases hl : merchantLogin db (some row.customerId) with
      | error e => simp [hl] at hadm
      | ok l =>
          cases l with
          | none => simp [hl] at hadm
          | some l =>
              simp only [hl, Bool.and_eq_true] at hadm
              obtain ⟨q, hq⟩ := cancelSubscription_isOk hadm.1 (t.subscriptionid.getD "")
              refine ⟨q, ?_, ?_⟩
              · rw [reference, firstLogin_of_merchantLogin hl, ← hid]
                exact hq
              · simp [posted, loadDel, hsub, hl, hkey, ht, hadm.2, hq, bind, Except.bind, pure,
                  Except.pure, Except.toOption]

theorem deleteSubscription_sends [Numbers] {db : Db} {s : Sale} {t : Transaction} {sub : Nat}
    (ht : transactionOf db sub = some t) (href : rowRef t = s.ref)
    (hadm : admitted db (.deleteSubscription sub) = true) :
    SendsReference db s (.deleteSubscription sub) := by
  have hid : t.subscriptionid = s.response.subscriptionId :=
    congrArg Ref.subscriptionid href
  obtain ⟨q, hq⟩ := cancelSubscription_isOk (l := ⟨some "demo", some "password"⟩) rfl
    (t.subscriptionid.getD "")
  unfold admitted at hadm
  cases hsub : db.subscriptions.find? sub with
  | none => simp [hsub] at hadm
  | some row =>
      have hkey : row.id = sub := Table.key_of_find? hsub
      simp only [hsub, Option.isSome_iff_exists] at hadm
      obtain ⟨c, hc⟩ := hadm
      refine ⟨q, ?_, ?_⟩
      · rw [reference, ← hid]
        exact hq
      · simp [posted, loadDelete, hsub, hc, hkey, ht, hq, Except.toOption]

/-- Every `sub_id` of the table refers to a subscription that has been
created. -/
def SubIdsIssued (db : Db) : Prop :=
  ∀ t ∈ db.transactions.rows, ∀ k, t.subId = some k → k < db.subscriptions.nextKey

/-- A card of the first customer. -/
def firstCard : CreditCard :=
  { id := 1, customerId := 1, number := some "4111111111111111", month := some 1,
    year := some 2030, firstName := some "Ann", lastName := some "Lee",
    phone := some "555", address := some ⟨none, none, none, none⟩ }

/-- A sale of 50 today, with a subscription. -/
def subscribedCharge : Event :=
  .charge2 firstCard 5000
    { startDate := .blank, endDate := .blank, occurances := none, interval := none,
      period := none, noEndDate := none }
    { today := ⟨2016, 5, 1⟩, zoneToday := ⟨2016, 5, 1⟩, inZone := id,
      answer := some { approval with
        transactionid := some "4242"
        subscriptionId := some "7777" } }

/-- The sale it stores, after the one that was there. -/
def subscribedSale : Sale :=
  { row := 2, sub := some 1,
    response := { approval with
      transactionid := some "4242"
      subscriptionId := some "7777" } }

section
attribute [local instance] Numbers.exact

end

end HomeWarranty.Nmi
