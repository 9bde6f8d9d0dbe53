/-
HomeWarranty.Admin.CardPrivacy — what an account that is not an admin's
can learn of card numbers, from `credit_cards#list_for_customer` and
`customers#async_get_billing_info`.

The statement is one about two databases that differ in nothing but
secrets: the digits of a number before its last four, and the cvv. The
billing info masks the number and has nothing else to tell
(`asyncGetBillingInfo_eq`). The list of cards masks the number too, but
it starts from all attributes of the card, and among these are the
ciphertext of the number and the cvv. `non_admin_learns_nothing_iff`
says when the answers are the same all the same.
-/
import HomeWarranty.Admin.CreditCard

namespace HomeWarranty.Admin

open Lib Ruby

/-! ## Answers -/

inductive JsonValue where
  | null
  | string (s : String)
  | number (n : Int)
  deriving DecidableEq

abbrev JsonObject := List (String × JsonValue)

def jsonText : Option String → JsonValue
  | none => .null
  | some s => .string s

def jsonInt : Option Int → JsonValue
  | none => .null
  | some n => .number n

/-- A key that is there gets a new value. -/
def setField (o : JsonObject) (e : String × JsonValue) : JsonObject :=
  if o.any (fun f => f.1 == e.1) then o.map fun f => if f.1 == e.1 then e else f else o ++ [e]

/-- `Hash#merge`; the keys are made texts in the answer. -/
def mergeFields (o fields : JsonObject) : JsonObject := fields.foldl setField o

/-- A row of `addresses`, as a card has it. -/
structure CardAddress where
  id : Nat
  address : Option String
  address2 : Option String
  address3 : Option String
  city : Option String
  state : Option String
  zipCode : Option String
  deriving DecidableEq

instance : Record CardAddress where
  key := CardAddress.id
  withKey n r := { r with id := n }
  key_withKey := fun _ _ => rfl

/-- `city_state_zip`: `nil` cannot be appended. -/
def CardAddress.cityStateZip (a : CardAddress) : Except RubyError String :=
  match a.zipCode with
  | none => .error .typeError
  | some zip => .ok (a.city.getD "" ++ ", " ++ a.state.getD "" ++ " " ++ zip)

/-- `Address#to_s`. -/
def CardAddress.toS (a : CardAddress) : Except RubyError String := do
  let line ← a.cityStateZip
  pure (a.address.getD "" ++ " " ++ a.address2.getD "" ++ " " ++ a.address3.getD "" ++ " " ++ line)

/-- The attributes of a card. -/
def CardRow.attributes (c : CardRow) : JsonObject :=
  [("id", .number c.id), ("crypted_number", jsonText c.cryptedNumber),
    ("last_4", jsonText c.last4), ("first_name", jsonText c.firstName),
    ("last_name", jsonText c.lastName), ("phone", jsonText c.phone),
    ("customer_id", jsonInt (c.customerId.map Nat.cast)), ("month", jsonInt c.month),
    ("year", jsonInt c.year), ("address_id", jsonInt c.addressId), ("cvv", jsonInt c.cvv)]

/-- `to_hash`. -/
def CardRow.toHash (c : CardRow) (a : Option CardAddress) : JsonObject :=
  [("first_name", jsonText c.firstName), ("last_name", jsonText c.lastName),
    ("address1", jsonText (a.bind CardAddress.address)),
    ("city", jsonText (a.bind CardAddress.city)), ("state", jsonText (a.bind CardAddress.state)),
    ("zip", jsonText (a.bind CardAddress.zipCode)), ("country", .string "US"),
    ("phone", jsonText c.phone)]

/-- The number an admin sees; `try(:number)` is rescued. -/
def CardRow.plainNumber (cipher : Cipher) (c : CardRow) : Option String :=
  c.cryptedNumber.map fun _ => (cipher.read c.cryptedNumber).getD ""

/-- The number everybody else sees. -/
def CardRow.maskedNumber (c : CardRow) : Option String :=
  if presentOpt c.last4 then some ("***********" ++ c.last4.getD "") else none

def intText : Option Int → String
  | none => ""
  | some n => toString n

/-- `as_json`, once the text of the address is there. -/
def CardRow.fields (cipher : Cipher) (isAdmin : Bool) (c : CardRow) (a : Option CardAddress)
    (addressText : Option String) : JsonObject :=
  mergeFields (mergeFields c.attributes (c.toHash a))
    [("exp_date", .string (intText c.month ++ "/" ++ intText c.year)),
      ("name", .string (c.firstName.getD "" ++ " " ++ c.lastName.getD "")),
      ("address", jsonText addressText),
      ("number", jsonText (if isAdmin then c.plainNumber cipher else c.maskedNumber)),
      ("cvv", jsonInt c.cvv)]

/-- `as_json`. -/
def CardRow.asJson (cipher : Cipher) (isAdmin : Bool) (c : CardRow) (a : Option CardAddress) :
    Except RubyError JsonObject :=
  match a with
  | none => .ok (c.fields cipher isAdmin none none)
  | some a => a.toS.map fun text => c.fields cipher isAdmin (some a) (some text)

/-! ## The actions -/

/-- A discount, and what is said of it: its code and its amount. -/
structure Discount where
  id : Nat
  offer : Except RubyError String

instance : Record Discount where
  key := Discount.id
  withKey n r := { r with id := n }
  key_withKey := fun _ _ => rfl

structure Vault where
  customers : Table CustomerRow
  cards : Table CardRow
  addresses : Table CardAddress
  discounts : Table Discount

/-- The account that asks. -/
structure Viewer where
  role : Option String
  parentType : Option String
  /-- `parent.admin`, if there is a parent. -/
  parentAdmin : Option (Option Int)

/-- `customer.credit_cards`. -/
def Vault.cardsOf (s : Vault) (id : Nat) : List CardRow :=
  s.cards.rows.filter fun c => c.customerId == some id

/-- `card.address`. -/
def Vault.addressOf (s : Vault) (c : CardRow) : Option CardAddress :=
  match c.addressId with
  | some (.ofNat n) => s.addresses.find? n
  | _ => none

/-- The account is that of an agent who is an admin. -/
def Viewer.agentAdmin (v : Viewer) : Except RubyError Bool :=
  if v.parentType = some "Agent" then
    match v.parentAdmin with
    | none => .error .noMethodError
    | some admin => .ok (admin == some 1)
  else .ok false

/-- `customer.credit_card_number`; `decrypt` is that of the private
key. -/
def creditCardNumber (decrypt : String → Option String) (c : CustomerRow) :
    Except RubyError String :=
  match (c.columns .creditCardNumberHash : Option String) with
  | none => .ok ""
  | some hash =>
      if hash = "" then .ok ""
      else
        match decrypt hash with
        | none => .error .externalError
        | some number => .ok number

/-- `credit_card_number_last_4`. -/
def maskNumber (number : String) : String :=
  rjust ((lastFour number).getD "") number.toList.length '*'

/-- `credit_cards#list_for_customer`. -/
def listForCustomer (cipher : Cipher) (s : Vault) (v : Viewer) (id : Nat) :
    Except RubyError (List JsonObject) :=
  match s.customers.find? id with
  | none => .error .recordNotFound
  | some _ => do
      let isAdmin ← v.agentAdmin
      (s.cardsOf id).mapM fun c => c.asJson cipher isAdmin (s.addressOf c)

/-- The text about a discount. -/
def Vault.discountText (s : Vault) (c : CustomerRow) : Except RubyError String :=
  match (c.columns .discountId : Option Int) with
  | some (.ofNat n) =>
      match s.discounts.find? n with
      | none => .ok "None"
      | some d => d.offer
  | _ => .ok "None"

/-- `customers#async_get_billing_info`. -/
def asyncGetBillingInfo [Numbers] (decrypt : String → Option String) (s : Vault) (v : Viewer)
    (id : Nat) : Except RubyError JsonObject :=
  match s.customers.find? id with
  | none => .error .recordNotFound
  | some c => do
      let number ← creditCardNumber decrypt c
      let shown := if v.role = some "admin" then number else maskNumber number
      let discount ← s.discountText c
      let payments : Option Int := c.columns .numPayments
      let amount : Option String := c.columns .payAmount
      pure
        [("num_payments", jsonInt payments), ("pay_amount", jsonText amount),
          ("total_paid", .string (Numbers.format2
            (Numbers.mul (payments.getD 0 : Int) ((amount.map Numbers.toF).getD 0)))),
          ("discount", .string discount), ("credit_card_number", .string shown),
          ("expirationDate", jsonText (c.columns .expirationDate)),
          ("subscription_id", jsonText (c.columns .subscriptionId))]

/-! ## Secrets -/

/-- Two numbers that differ in the digits before the last four. -/
def SameTail (n n' : String) : Prop :=
  n.toList.length = n'.toList.length ∧
    n.toList.drop (n.toList.length - 4) = n'.toList.drop (n'.toList.length - 4)

section
variable (cipher : Cipher) (decrypt : String → Option String)

/-- Two cards that differ in the cvv and the leading digits. -/
structure SameCard (c c' : CardRow) : Prop where
  rest : { c with cryptedNumber := none, cvv := none }
    = { c' with cryptedNumber := none, cvv := none }
  number : c.cryptedNumber = c'.cryptedNumber ∨
    ∃ n n', c.cryptedNumber = some (cipher.encrypt n) ∧
      c'.cryptedNumber = some (cipher.encrypt n') ∧ SameTail n n'

/-- Two customers that differ in the leading digits. -/
structure SameCustomer (c c' : CustomerRow) : Prop where
  rest : ∀ col, col ≠ .creditCardNumberHash → c.columns col = c'.columns col
  number : c.columns .creditCardNumberHash = c'.columns .creditCardNumberHash ∨
    ∃ n n', creditCardNumber decrypt c = .ok n ∧ creditCardNumber decrypt c' = .ok n' ∧
      SameTail n n'

/-- Two databases that differ in leading digits and cvv only. -/
structure DifferInSecrets (s t : Vault) : Prop where
  customers : ∀ id, Option.Rel (SameCustomer decrypt) (s.customers.find? id) (t.customers.find? id)
  cards : List.Forall₂ (SameCard cipher) s.cards.rows t.cards.rows
  addresses : s.addresses = t.addresses
  discounts : s.discounts = t.discounts

/-- Neither of the two actions takes the account for an admin's. -/
def Viewer.nonAdmin (v : Viewer) : Prop := v.role ≠ some "admin" ∧ v.agentAdmin ≠ .ok true

/-- The address of the card has no zip code. -/
def Vault.unaddressed (s : Vault) (c : CardRow) : Bool :=
  (s.addressOf c).any fun a => a.zipCode.isNone

/-- There is no list: no customer, no parent, or a card whose address
cannot be written. -/
def NoList (s : Vault) (v : Viewer) (id : Nat) : Prop :=
  s.customers.find? id = none ∨ v.agentAdmin = .error .noMethodError ∨
    (s.cardsOf id).any s.unaddressed = true

/-- Two cards with one number and one cvv. -/
def SameSecrets (c c' : CardRow) : Prop :=
  (∀ n n', c.cryptedNumber = some (cipher.encrypt n) →
    c'.cryptedNumber = some (cipher.encrypt n') → n = n') ∧ c.cvv = c'.cvv

end

/-! ## What is in the answers -/

section
variable {cipher : Cipher} {decrypt : String → Option String} {s t : Vault} {v : Viewer}

/-- Everything that is said of a card to an account that is not an
admin's. -/
theorem fields_false (cipher : Cipher) (c : CardRow) (a : Option CardAddress)
    (text : Option String) :
    c.fields cipher false a text =
      [("id", .number c.id), ("crypted_number", jsonText c.cryptedNumber),
        ("last_4", jsonText c.last4), ("first_name", jsonText c.firstName),
        ("last_name", jsonText c.lastName), ("phone", jsonText c.phone),
        ("customer_id", jsonInt (c.customerId.map Nat.cast)), ("month", jsonInt c.month),
        ("year", jsonInt c.year), ("address_id", jsonInt c.addressId), ("cvv", jsonInt c.cvv),
        ("address1", jsonText (a.bind CardAddress.address)),
        ("city", jsonText (a.bind CardAddress.city)),
        ("state", jsonText (a.bind CardAddress.state)),
        ("zip", jsonText (a.bind CardAddress.zipCode)), ("country", .string "US"),
        ("exp_date", .string (intText c.month ++ "/" ++ intText c.year)),
        ("name", .string (c.firstName.getD "" ++ " " ++ c.lastName.getD "")),
        ("address", jsonText text), ("number", jsonText c.maskedNumber)] := by
  simp [CardRow.fields, mergeFields, CardRow.attributes, CardRow.toHash, setField]

theorem jsonText_inj {a b : Option String} : jsonText a = jsonText b ↔ a = b := by
  cases a <;> cases b <;> simp [jsonText]

theorem jsonInt_inj {a b : Option Int} : jsonInt a = jsonInt b ↔ a = b := by
  cases a <;> cases b <;> simp [jsonInt]

/-- The ciphertext and the cvv are among it. -/
theorem fields_eq_iff {c c' : CardRow}
    (hrest : { c with cryptedNumber := none, cvv := none }
      = { c' with cryptedNumber := none, cvv := none }) (a : Option CardAddress)
    (text : Option String) :
    c.fields cipher false a text = c'.fields cipher false a text ↔
      c.cryptedNumber = c'.cryptedNumber ∧ c.cvv = c'.cvv := by
  obtain ⟨id, crypted, last4, first, last, phone, customer, month, year, address, cvv⟩ := c
  obtain ⟨id', crypted', last4', first', last', phone', customer', month', year', address', cvv'⟩
    := c'
  simp only [CardRow.mk.injEq, true_and, and_true] at hrest
  obtain ⟨rfl, rfl, rfl, rfl, rfl, rfl, rfl, rfl, rfl⟩ := hrest
  simp [fields_false, jsonText_inj, jsonInt_inj, CardRow.maskedNumber]

/-- What is said of a card. -/
def Vault.shown (cipher : Cipher) (s : Vault) (c : CardRow) : JsonObject :=
  c.fields cipher false (s.addressOf c) ((s.addressOf c).bind fun a => a.toS.toOption)

theorem asJson_eq (cipher : Cipher) (s : Vault) (c : CardRow) :
    c.asJson cipher false (s.addressOf c)
      = if s.unaddressed c then .error .typeError else .ok (s.shown cipher c) := by
  unfold CardRow.asJson Vault.unaddressed Vault.shown
  cases s.addressOf c with
  | none => rfl
  | some a =>
      cases hz : a.zipCode with
      | none => simp [CardAddress.toS, CardAddress.cityStateZip, hz, bind, Except.bind, Except.map]
      | some zip =>
          simp [CardAddress.toS, CardAddress.cityStateZip, hz, bind, Except.bind, Except.map,
            Except.toOption, pure, Except.pure]

/-- A list is raised over when one of its elements is. -/
theorem mapM_ite {α β : Type} {e : RubyError} {bad : α → Bool} {g : α → β} (l : List α) :
    l.mapM (fun a => if bad a then Except.error e else .ok (g a))
      = if l.any bad then .error e else .ok (l.map g) := by
  induction l with
  | nil => rfl
  | cons a l ih =>
      rw [List.mapM_cons, ih]
      cases hb : bad a with
      | true => simp [hb, bind, Except.bind]
      | false =>
          cases hl : l.any bad with
          | true => simp [hb, hl, bind, Except.bind]
          | false => simp [hb, hl, bind, Except.bind, pure, Except.pure]

theorem agentAdmin_error {e : RubyError} (h : v.agentAdmin = .error e) : e = .noMethodError := by
  unfold Viewer.agentAdmin at h
  split at h
  · split at h
    · exact (Except.error.inj h).symm
    · cases h
  · cases h

/-- The list for an account that is not an admin's. -/
theorem listForCustomer_eq (cipher : Cipher) (s : Vault) (hv : v.nonAdmin) (id : Nat) :
    listForCustomer cipher s v id =
      match s.customers.find? id, v.agentAdmin with
      | none, _ => .error .recordNotFound
      | some _, .error e => .error e
      | some _, .ok _ =>
          if (s.cardsOf id).any s.unaddressed then .error .typeError
          else .ok ((s.cardsOf id).map (s.shown cipher)) := by
  unfold listForCustomer
  cases s.customers.find? id with
  | none => rfl
  | some c =>
      cases ha : v.agentAdmin with
      | error e => rfl
      | ok b =>
          cases b with
          | true => exact absurd ha hv.2
          | false =>
              simp only [bind, Except.bind, asJson_eq]
              exact mapM_ite _

/-! ## Two databases -/

theorem SameTail.maskNumber_eq {n n' : String} (h : SameTail n n') :
    maskNumber n = maskNumber n' := by
  have hlast : lastFour n = lastFour n' := by
    unfold lastFour
    rw [h.2, h.1]
  unfold maskNumber
  rw [hlast, h.1]

/-- A customer is in both databases or in none. -/
theorem DifferInSecrets.find?_customers (h : DifferInSecrets cipher decrypt s t) (id : Nat) :
    (s.customers.find? id = none ∧ t.customers.find? id = none) ∨
      ∃ c c', s.customers.find? id = some c ∧ t.customers.find? id = some c' ∧
        SameCustomer decrypt c c' := by
  have hc := h.customers id
  generalize s.customers.find? id = x at hc ⊢
  generalize t.customers.find? id = y at hc ⊢
  cases hc with
  | none => exact Or.inl ⟨rfl, rfl⟩
  | some hsame => exact Or.inr ⟨_, _, rfl, rfl, hsame⟩

/-- The billing info is the same. -/
theorem asyncGetBillingInfo_eq [Numbers] (h : DifferInSecrets cipher decrypt s t) (hv : v.nonAdmin)
    (id : Nat) : asyncGetBillingInfo decrypt s v id = asyncGetBillingInfo decrypt t v id := by
  unfold asyncGetBillingInfo
  rcases h.find?_customers id with ⟨hs, ht⟩ | ⟨c, c', hs, ht, hsame⟩
  · rw [hs, ht]
  · have hrest := hsame.rest
    have hdiscount : s.discountText c = t.discountText c' := by
      unfold Vault.discountText
      rw [hrest .discountId (by decide), h.discounts]
    have hmask : (creditCardNumber decrypt c).map maskNumber
        = (creditCardNumber decrypt c').map maskNumber := by
      rcases hsame.number with heq | ⟨n, n', hn, hn', htail⟩
      · unfold creditCardNumber
        rw [heq]
      · rw [hn, hn']
        exact congrArg Except.ok htail.maskNumber_eq
    simp only [hs, ht, if_neg hv.1, hdiscount, hrest .numPayments (by decide),
      hrest .payAmount (by decide), hrest .expirationDate (by decide),
      hrest .subscriptionId (by decide)]
    cases hn : creditCardNumber decrypt c with
    | error e =>
        cases hn' : creditCardNumber decrypt c' with
        | error e' =>
            rw [hn, hn'] at hmask
            cases hmask
            rfl
        | ok n' =>
            rw [hn, hn'] at hmask
            cases hmask
    | ok n =>
        cases hn' : creditCardNumber decrypt c' with
        | error e' =>
            rw [hn, hn'] at hmask
            cases hmask
        | ok n' =>
            rw [hn, hn'] at hmask
            have hshown : maskNumber n = maskNumber n' := Except.ok.inj hmask
            simp only [bind, Except.bind, hshown]

/-- The cards of a customer, pair by pair. -/
theorem forall₂_cardsOf (h : DifferInSecrets cipher decrypt s t) (id : Nat) :
    List.Forall₂ (SameCard cipher) (s.cardsOf id) (t.cardsOf id) := by
  refine List.rel_filter ?_ h.cards
  intro c c' hsame
  have hid := congrArg CardRow.customerId hsame.rest
  simp only at hid
  simp [hid]

theorem SameCard.addressOf_eq (h : DifferInSecrets cipher decrypt s t) {c c' : CardRow}
    (hsame : SameCard cipher c c') : s.addressOf c = t.addressOf c' := by
  have hid := congrArg CardRow.addressId hsame.rest
  simp only at hid
  unfold Vault.addressOf
  rw [hid, h.addresses]

/-- One card is shown alike exactly when it has the same secrets. -/
theorem SameCard.shown_eq_iff (hinj : Function.Injective cipher.encrypt)
    (h : DifferInSecrets cipher decrypt s t) {c c' : CardRow} (hsame : SameCard cipher c c') :
    s.shown cipher c = t.shown cipher c' ↔ SameSecrets cipher c c' := by
  unfold Vault.shown
  rw [hsame.addressOf_eq h, fields_eq_iff hsame.rest]
  refine and_congr_left fun _ => ?_
  constructor
  · intro heq n n' hn hn'
    rw [heq, hn', Option.some.injEq] at hn
    exact hinj hn.symm
  · intro hnumbers
    rcases hsame.number with heq | ⟨n, n', hn, hn', _⟩
    · exact heq
    · rw [hn, hn', hnumbers n n' hn hn']

theorem any_unaddressed_eq (h : DifferInSecrets cipher decrypt s t) {l l' : List CardRow}
    (hl : List.Forall₂ (SameCard cipher) l l') : l.any s.unaddressed = l'.any t.unaddressed := by
  induction hl with
  | nil => rfl
  | cons hsame _ ih =>
      rw [List.any_cons, List.any_cons, ih]
      unfold Vault.unaddressed
      rw [hsame.addressOf_eq h]

theorem map_shown_eq_iff (hinj : Function.Injective cipher.encrypt)
    (h : DifferInSecrets cipher decrypt s t) {l l' : List CardRow}
    (hl : List.Forall₂ (SameCard cipher) l l') :
    l.map (s.shown cipher) = l'.map (t.shown cipher) ↔
      List.Forall₂ (SameSecrets cipher) l l' := by
  induction hl with
  | nil => simp
  | cons hsame _ ih =>
      rw [List.map_cons, List.map_cons, List.cons.injEq, hsame.shown_eq_iff hinj h, ih,
        List.forall₂_cons]

end

/-- **An account that is not an admin's learns only the last four digits**
exactly when the customer's cards have no different secrets, or there is
no list of them. -/
theorem non_admin_learns_nothing_iff [Numbers] (cipher : Cipher) (decrypt : String → Option String)
    (hinj : Function.Injective cipher.encrypt) (s t : Vault)
    (h : DifferInSecrets cipher decrypt s t) (v : Viewer) (hv : v.nonAdmin) (id : Nat) :
    (listForCustomer cipher s v id = listForCustomer cipher t v id ∧
      asyncGetBillingInfo decrypt s v id = asyncGetBillingInfo decrypt t v id) ↔
      NoList s v id ∨ List.Forall₂ (SameSecrets cipher) (s.cardsOf id) (t.cardsOf id) := by
  have hcards := forall₂_cardsOf h id
  have hany := any_unaddressed_eq h hcards
  rw [and_iff_left (asyncGetBillingInfo_eq h hv id), listForCustomer_eq cipher s hv,
    listForCustomer_eq cipher t hv, ← map_shown_eq_iff hinj h hcards]
  unfold NoList
  rcases h.find?_customers id with ⟨hs, ht⟩ | ⟨c, c', hs, ht, _⟩
  · simp [hs, ht]
  · cases ha : v.agentAdmin with
    | error e => simp [hs, ht, agentAdmin_error ha]
    | ok b =>
        simp only [hs, ht, ← hany]
        cases (s.cardsOf id).any s.unaddressed with
        | true => simp
        | false => simp

/-! ## Two databases that can be told apart -/

/-- Two customers with a card each. -/
def twoCards (cvv₁ cvv₂ : Int) : Vault where
  customers := .ofRows [⟨1, annColumns⟩, ⟨2, annColumns⟩]
  cards := .ofRows [{ visaCard with cvv := some cvv₁ },
    { visaCard with customerId := some 2, cvv := some cvv₂ }]
  addresses := .empty
  discounts := .empty

/-- The account of an agent. -/
def salesAgent : Viewer := ⟨some "sales", some "Agent", some (some 0)⟩

theorem tableCipher_injective : Function.Injective tableCipher.encrypt := by
  intro n n' heq
  have hn := tableCipher_decrypt_encrypt n
  rw [heq, tableCipher_decrypt_encrypt] at hn
  exact (Option.some.inj hn).symm

theorem twoCards_differ (a b a' b' : Int) :
    DifferInSecrets tableCipher (fun _ => none) (twoCards a b) (twoCards a' b') := by
  constructor
  · intro id
    show Option.Rel _ ((twoCards a b).customers.find? id) ((twoCards a b).customers.find? id)
    cases (twoCards a b).customers.find? id with
    | none => exact .none
    | some c => exact .some ⟨fun _ _ => rfl, Or.inl rfl⟩
  · exact .cons ⟨rfl, Or.inl rfl⟩ (.cons ⟨rfl, Or.inl rfl⟩ .nil)
  · rfl
  · rfl

section
attribute [local instance] Numbers.exact

/-- The cvv of a card is in the list. -/
theorem cvv_learnt :
    ¬ ∀ (cipher : Cipher) (decrypt : String → Option String),
      Function.Injective cipher.encrypt → ∀ s t : Vault, DifferInSecrets cipher decrypt s t →
      ∀ v : Viewer, v.nonAdmin → ∀ id,
        listForCustomer cipher s v id = listForCustomer cipher t v id ∧
          asyncGetBillingInfo decrypt s v id = asyncGetBillingInfo decrypt t v id := by
  intro hall
  have h := (hall tableCipher (fun _ => none) tableCipher_injective (twoCards 123 7)
    (twoCards 456 7) (twoCards_differ _ _ _ _) salesAgent ⟨by decide, nofun⟩ 1).1
  revert h
  decide +kernel

/-- The cvv of another customer's card is not. -/
theorem other_customer_not_learnt :
    listForCustomer tableCipher (twoCards 123 7) salesAgent 1
        = listForCustomer tableCipher (twoCards 123 8) salesAgent 1 ∧
      asyncGetBillingInfo (fun _ => none) (twoCards 123 7) salesAgent 1
        = asyncGetBillingInfo (fun _ => none) (twoCards 123 8) salesAgent 1 := by
  refine (non_admin_learns_nothing_iff tableCipher (fun _ => none) tableCipher_injective _ _
    (twoCards_differ _ _ _ _) salesAgent ⟨by decide, nofun⟩ 1).mpr (Or.inr ?_)
  refine .cons ⟨fun n n' hn hn' => ?_, rfl⟩ .nil
  exact tableCipher_injective (Option.some.inj (hn.symm.trans hn'))

end

end HomeWarranty.Admin
