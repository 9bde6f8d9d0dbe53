/-
HomeWarranty.Nmi.SaleQuery — the queries of `GwApi#doSale` and
`GwApi#doSale2`, and what the gateway's form parser reads out of them.

Both queries are built from fields that go through `URI.escape` and from
fields that are spliced in as they are. `URI.escape` leaves the
characters alone that have a meaning in a URI, and that includes the
three a form gives a meaning of its own: `&`, `=` and `+`. A value with
an `&` ends early and starts a field of the payer's choice; a `+` is
read as a blank. A value that is not escaped at all can besides hold an
escape, which is read as the byte it stands for.

`sale_queries_read_back_iff` is the exact condition under which both
queries say what was set: no `&` and no `+` in any value, and no escape
in a value that is spliced in.
-/
import HomeWarranty.Lib.FormQuery
import HomeWarranty.Nmi.GwApi

namespace HomeWarranty.Nmi

open Lib Ruby

/-! ## The client -/

/-- The fields `setBilling` keeps, in its order. -/
structure Billing (α : Type) where
  firstname : α
  lastname : α
  company : α
  address1 : α
  address2 : α
  city : α
  state : α
  zip : α
  country : α
  phone : α
  fax : α
  email : α
  website : α

def Billing.pairs {α : Type} (b : Billing α) : List (String × α) :=
  [("firstname", b.firstname), ("lastname", b.lastname), ("company", b.company),
    ("address1", b.address1), ("address2", b.address2), ("city", b.city),
    ("state", b.state), ("zip", b.zip), ("country", b.country), ("phone", b.phone),
    ("fax", b.fax), ("email", b.email), ("website", b.website)]

/-- What a client holds. Nothing in the application sets the order or
the shipping address. -/
structure Client where
  login : Login
  order : List (String × Option String)
  billing : List (String × Option String)
  shipping : List (String × Option String)

/-- `GwApi.new`. -/
def Client.new : Client where
  login := { username := none, password := none }
  order := []
  billing := []
  shipping := []

def Client.setLogin (c : Client) (username password : Option String) : Client :=
  { c with login := { username := username, password := password } }

def Client.setBilling (c : Client) (b : Billing (Option String)) : Client :=
  { c with billing := b.pairs }

/-! ## The queries -/

/-- `key + "=" + URI.escape(value) + "&"` for each entry. -/
def hashQuery (query : String) : List (String × Option String) → Except RubyError String
  | [] => .ok query
  | (key, value) :: rest => do
      let value ← escaped value
      hashQuery (query ++ key ++ "=" ++ value ++ "&") rest

/-- `String#+` with a value that may be `nil`. -/
def plus (s : String) : Option String → Except RubyError String
  | none => .error .typeError
  | some t => .ok (s ++ t)

/-- The part both queries begin with. -/
def saleQuery [Numbers] (c : Client) (amount : ℚ) (ccnumber ccexp cvv : Option String) :
    Except RubyError String := do
  let query ← loginQuery c.login
  let ccnumber ← escaped ccnumber
  let ccexp ← escaped ccexp
  let query := query ++ "ccnumber=" ++ ccnumber ++ "&" ++ "ccexp=" ++ ccexp ++ "&"
    ++ "amount=" ++ uriEscape (Numbers.format2 amount) ++ "&"
  let query ←
    if cvv = some "" then .ok query
    else do
      let cvv ← escaped cvv
      .ok (query ++ "cvv=" ++ cvv ++ "&")
  let query ← hashQuery query c.order
  let query ← hashQuery query c.billing
  hashQuery query c.shipping

/-- `GwApi#doSale`, up to the post. -/
def doSale [Numbers] (c : Client) (amount : ℚ) (ccnumber ccexp cvv merchantName : Option String) :
    Except RubyError String := do
  let query ← saleQuery c amount ccnumber ccexp cvv
  let query ← plus (query ++ "processor_id=") merchantName
  return query ++ "&" ++ "type=sale"

/-- What `doSale2` reads of the customer. -/
structure Plan where
  payAmount : Option PayAmount
  numPayments : Option Int

section Floats

/-! `Float#to_s` prints the shortest digits that read back as the same
float; which digits these are is a matter of binary rounding, so the
function is a parameter. -/
variable (toS : ℚ → String)

/-- `"#{customer.pay_amount}"`. -/
def Plan.payments (p : Plan) : String :=
  match p.payAmount with
  | none => ""
  | some (.text s) => s
  | some (.float q) => toS q

/-- `pay_amount.to_f * num_payments.to_i`, as text. -/
def Plan.amount [Numbers] (p : Plan) : String :=
  toS (Numbers.mul (PayAmount.toF p.payAmount) (p.numPayments.getD 0 : Int))

/-- `"#{customer.num_payments}"`. -/
def Plan.frequency (p : Plan) : String :=
  match p.numPayments with
  | none => ""
  | some n => toString n

/-- `GwApi#doSale2`, up to the post. The end date it is given is looked
at and not used. -/
def doSale2 [Numbers] (c : Client) (amount : ℚ) (ccnumber ccexp cvv : Option String)
    (plan : Plan) (startDate : Option Date) (merchantName : Option String) :
    Except RubyError String := do
  let query ← saleQuery c amount ccnumber ccexp cvv
  let query := query ++ "type=sale" ++ "&" ++ "plan_payments=" ++ plan.payments toS ++ "&"
    ++ "plan_amount=" ++ plan.amount toS ++ "&" ++ "month_frequency=" ++ plan.frequency ++ "&"
    ++ "day_of_month=" ++ "1" ++ "&" ++ "payment=" ++ "creditcard" ++ "&"
  let query :=
    match startDate with
    | none => query
    | some d => query ++ "start_date=" ++ d.strftimeYmd ++ "&"
  let query ← plus (query ++ "processor_id=") merchantName
  return query ++ "&" ++ "recurring=" ++ "add_subscription"

end Floats

/-! ## The fields of a query -/

/-- A key, the value set for it, and whether the value is escaped. -/
structure SaleField where
  key : String
  value : String
  isEscaped : Bool

/-- What is written for a value. -/
def SaleField.text (f : SaleField) : String :=
  if f.isEscaped then uriEscape f.value else f.value

def SaleField.toField (f : SaleField) : Field where
  key := f.key.toList
  value := f.value.toList
  text := f.text.toList

def escapedField (key value : String) : SaleField := ⟨key, value, true⟩

def splicedField (key value : String) : SaleField := ⟨key, value, false⟩

/-- The values of a card, as a sale is given them. -/
structure SaleCard where
  ccnumber : String
  ccexp : String
  cvv : String

/-- The fields both queries begin with. -/
def saleFields [Numbers] (username password : String) (amount : ℚ) (card : SaleCard)
    (b : Billing String) : List SaleField :=
  [escapedField "username" username, escapedField "password" password,
    escapedField "ccnumber" card.ccnumber, escapedField "ccexp" card.ccexp,
    escapedField "amount" (Numbers.format2 amount)]
  ++ (if card.cvv = "" then [] else [escapedField "cvv" card.cvv])
  ++ b.pairs.map fun kv => escapedField kv.1 kv.2

def doSaleFields [Numbers] (username password : String) (amount : ℚ) (card : SaleCard)
    (b : Billing String) (merchantName : String) : List SaleField :=
  saleFields username password amount card b
  ++ [splicedField "processor_id" merchantName, splicedField "type" "sale"]

def doSale2Fields [Numbers] (toS : ℚ → String) (username password : String) (amount : ℚ)
    (card : SaleCard) (b : Billing String) (plan : Plan) (startDate : Option Date)
    (merchantName : String) : List SaleField :=
  saleFields username password amount card b
  ++ [splicedField "type" "sale", splicedField "plan_payments" (plan.payments toS),
    splicedField "plan_amount" (plan.amount toS),
    splicedField "month_frequency" plan.frequency, splicedField "day_of_month" "1",
    splicedField "payment" "creditcard"]
  ++ (startDate.map fun d => splicedField "start_date" d.strftimeYmd).toList
  ++ [splicedField "processor_id" merchantName,
    splicedField "recurring" "add_subscription"]

def Billing.some {α : Type} (b : Billing α) : Billing (Option α) where
  firstname := Option.some b.firstname
  lastname := Option.some b.lastname
  company := Option.some b.company
  address1 := Option.some b.address1
  address2 := Option.some b.address2
  city := Option.some b.city
  state := Option.some b.state
  zip := Option.some b.zip
  country := Option.some b.country
  phone := Option.some b.phone
  fax := Option.some b.fax
  email := Option.some b.email
  website := Option.some b.website

/-- A client after its login and its billing address are set. -/
def clientOf (username password : String) (b : Billing String) : Client :=
  (Client.new.setLogin (some username) (some password)).setBilling b.some

theorem hashQuery_some (query : String) (kvs : List (String × String)) :
    ∃ q, hashQuery query (kvs.map fun kv => (kv.1, some kv.2)) = .ok q ∧
      q.toList = query.toList
        ++ ampFields (kvs.map fun kv => (escapedField kv.1 kv.2).toField) := by
  induction kvs generalizing query with
  | nil => exact ⟨query, rfl, by simp⟩
  | cons kv kvs ih =>
      obtain ⟨q, hq, hlist⟩ := ih (query ++ kv.1 ++ "=" ++ uriEscape kv.2 ++ "&")
      refine ⟨q, hq, ?_⟩
      rw [hlist]
      simp [escapedField, SaleField.toField, SaleField.text, Field.piece]

/-- What is written of the card before the billing address. -/
def cardText [Numbers] (username password : String) (amount : ℚ) (card : SaleCard) : String :=
  "username=" ++ uriEscape username ++ "&" ++ "password=" ++ uriEscape password ++ "&"
    ++ "ccnumber=" ++ uriEscape card.ccnumber ++ "&" ++ "ccexp=" ++ uriEscape card.ccexp ++ "&"
    ++ "amount=" ++ uriEscape (Numbers.format2 amount) ++ "&"
    ++ (if card.cvv = "" then "" else "cvv=" ++ uriEscape card.cvv ++ "&")

/-- With all values given, what is written before the billing address is
the text of the card. -/
theorem saleQuery_eq_hashQuery [Numbers] (username password : String) (amount : ℚ) (card : SaleCard)
    (b : Billing String) {q : String}
    (hq : hashQuery (cardText username password amount card) b.some.pairs = .ok q) :
    saleQuery (clientOf username password b) amount (some card.ccnumber) (some card.ccexp)
      (some card.cvv) = .ok q := by
  unfold cardText at hq
  by_cases hcvv : card.cvv = ""
  · simp only [if_pos hcvv, String.append_empty] at hq
    simp [saleQuery, hcvv, bind, Except.bind, loginQuery, escaped, clientOf,
      Client.setBilling, Client.setLogin, Client.new, hashQuery, pure, Except.pure, hq]
  · simp only [if_neg hcvv, ← String.append_assoc] at hq
    simp [saleQuery, hcvv, bind, Except.bind, loginQuery, escaped, clientOf,
      Client.setBilling, Client.setLogin, Client.new, hashQuery, pure, Except.pure, hq]

theorem toList_cardText [Numbers] (username password : String) (amount : ℚ) (card : SaleCard)
    (b : Billing String) :
    (cardText username password amount card).toList
        ++ ampFields (b.pairs.map fun kv => (escapedField kv.1 kv.2).toField)
      = ampFields ((saleFields username password amount card b).map SaleField.toField) := by
  unfold cardText
  by_cases hcvv : card.cvv = ""
  · simp only [if_pos hcvv]
    simp [saleFields, hcvv, escapedField, SaleField.toField, SaleField.text, Field.piece,
      Function.comp_def]
  · simp only [if_neg hcvv]
    simp [saleFields, hcvv, escapedField, SaleField.toField, SaleField.text, Field.piece,
      Function.comp_def]

/-- With all values given, the common part of the queries is the common
fields. -/
theorem saleQuery_clientOf [Numbers] (username password : String) (amount : ℚ) (card : SaleCard)
    (b : Billing String) :
    ∃ q, saleQuery (clientOf username password b) amount (some card.ccnumber)
        (some card.ccexp) (some card.cvv) = .ok q ∧
      q.toList = ampFields ((saleFields username password amount card b).map
        SaleField.toField) := by
  obtain ⟨q, hq, hlist⟩ := hashQuery_some (cardText username password amount card) b.pairs
  exact ⟨q, saleQuery_eq_hashQuery username password amount card b hq,
    hlist.trans (toList_cardText username password amount card b)⟩

/-- `doSale` writes its fields, joined. -/
theorem doSale_clientOf [Numbers] (username password : String) (amount : ℚ) (card : SaleCard)
    (b : Billing String) (merchantName : String) :
    ∃ q, doSale (clientOf username password b) amount (some card.ccnumber)
        (some card.ccexp) (some card.cvv) (some merchantName) = .ok q ∧
      q.toList = joinFields ((doSaleFields username password amount card b
        merchantName).map SaleField.toField) := by
  obtain ⟨q, hq, hlist⟩ := saleQuery_clientOf username password amount card b
  refine ⟨q ++ "processor_id=" ++ merchantName ++ "&" ++ "type=sale", ?_, ?_⟩
  · simp [doSale, hq, plus, bind, Except.bind, pure, Except.pure]
  · have hfields : doSaleFields username password amount card b merchantName
        = (saleFields username password amount card b
          ++ [splicedField "processor_id" merchantName]) ++ [splicedField "type" "sale"] := by
      simp [doSaleFields]
    rw [hfields, List.map_append, List.map_singleton, joinFields_snoc]
    simp [hlist, splicedField, SaleField.toField, SaleField.text, Field.piece]

/-- `doSale2` writes its fields, joined. -/
theorem doSale2_clientOf [Numbers] (toS : ℚ → String) (username password : String) (amount : ℚ)
    (card : SaleCard) (b : Billing String) (plan : Plan) (startDate : Option Date)
    (merchantName : String) :
    ∃ q, doSale2 toS (clientOf username password b) amount (some card.ccnumber)
        (some card.ccexp) (some card.cvv) plan startDate (some merchantName) = .ok q ∧
      q.toList = joinFields ((doSale2Fields toS username password amount card b plan
        startDate merchantName).map SaleField.toField) := by
  obtain ⟨q, hq, hlist⟩ := saleQuery_clientOf username password amount card b
  have hfields : doSale2Fields toS username password amount card b plan startDate merchantName
      = (saleFields username password amount card b
        ++ [splicedField "type" "sale", splicedField "plan_payments" (plan.payments toS),
          splicedField "plan_amount" (plan.amount toS),
          splicedField "month_frequency" plan.frequency, splicedField "day_of_month" "1",
          splicedField "payment" "creditcard"]
        ++ (startDate.map fun d => splicedField "start_date" d.strftimeYmd).toList
        ++ [splicedField "processor_id" merchantName])
        ++ [splicedField "recurring" "add_subscription"] := by
    simp [doSale2Fields]
  obtain ⟨dated, hdated, hdates⟩ : ∃ dated : String,
      doSale2 toS (clientOf username password b) amount (some card.ccnumber)
        (some card.ccexp) (some card.cvv) plan startDate (some merchantName)
        = .ok (q ++ "type=sale" ++ "&" ++ "plan_payments=" ++ plan.payments toS ++ "&"
          ++ "plan_amount=" ++ plan.amount toS ++ "&" ++ "month_frequency=" ++ plan.frequency
          ++ "&" ++ "day_of_month=" ++ "1" ++ "&" ++ "payment=" ++ "creditcard" ++ "&"
          ++ dated ++ "processor_id=" ++ merchantName ++ "&" ++ "recurring="
          ++ "add_subscription") ∧
      dated.toList = ampFields ((startDate.map fun d =>
        splicedField "start_date" d.strftimeYmd).toList.map SaleField.toField) := by
    cases startDate with
    | none =>
        refine ⟨"", ?_, by simp⟩
        simp [doSale2, hq, plus, bind, Except.bind, pure, Except.pure]
    | some d =>
        refine ⟨"start_date=" ++ d.strftimeYmd ++ "&", ?_, ?_⟩
        · simp only [doSale2, hq, plus, bind, Except.bind, pure, Except.pure,
            String.append_assoc]
        · simp [splicedField, SaleField.toField, SaleField.text, Field.piece]
  refine ⟨_, hdated, ?_⟩
  rw [hfields, List.map_append, List.map_singleton, joinFields_snoc]
  simp [hlist, hdates, splicedField, SaleField.toField, SaleField.text, Field.piece]

/-! ## Escaped values -/

/-- The two digits of an escaped byte are read back as the byte. -/
theorem hexByte_hexDigit (b : UInt8) :
    hexByte (hexDigit (b.toNat / 16)) (hexDigit (b.toNat % 16)) = some b := by
  have hdigit : ∀ n, n < 16 → hexValue (hexDigit n) = some n := by decide
  have hb : b.toNat < 256 := b.toNat_lt
  rw [hexByte, hdigit _ (by omega), hdigit _ (by omega)]
  have hsum : 16 * (b.toNat / 16) + b.toNat % 16 = b.toNat := by omega
  simp [hsum]

/-- What `URI.escape` writes for one character. -/
def escapeChar (c : Char) : List Char :=
  if uriSafe c then [c]
  else (String.utf8EncodeChar c).flatMap fun b =>
    ['%', hexDigit (b.toNat / 16), hexDigit (b.toNat % 16)]

theorem toList_uriEscape (s : String) : (uriEscape s).toList = s.toList.flatMap escapeChar := by
  rw [uriEscape, String.toList_ofList]
  rfl

theorem formDecode_bytes (bs : List UInt8) (rest : List Char) :
    formDecode (bs.flatMap (fun b =>
        ['%', hexDigit (b.toNat / 16), hexDigit (b.toNat % 16)]) ++ rest)
      = bs ++ formDecode rest := by
  induction bs with
  | nil => simp
  | cons b bs ih =>
      simp only [List.flatMap_cons, List.cons_append, List.nil_append]
      rw [formDecode_escape (hexByte_hexDigit b), ih]

/-- An escaped character is read as itself, a `+` as a blank. -/
theorem formDecode_escapeChar (c : Char) (rest : List Char) :
    formDecode (escapeChar c ++ rest) = plainByte c ++ formDecode rest := by
  cases hsafe : uriSafe c with
  | true =>
      have hpct : c ≠ '%' := by
        rintro rfl
        simp [uriSafe] at hsafe
      simp only [escapeChar, hsafe, if_true, List.singleton_append]
      exact formDecode_cons (escapeAt_of_ne hpct rest)
  | false =>
      have hplus : c ≠ '+' := by
        rintro rfl
        simp [uriSafe] at hsafe
      simp only [escapeChar, hsafe, Bool.false_eq_true, if_false, formDecode_bytes]
      simp [plainByte, hplus]

theorem formDecode_escapeAll (s : List Char) :
    formDecode (s.flatMap escapeChar) = s.flatMap plainByte := by
  induction s with
  | nil => rfl
  | cons c s ih =>
      rw [List.flatMap_cons, formDecode_escapeChar, ih, List.flatMap_cons]

theorem length_flatMap_plainByte (s : List Char) :
    (s.flatMap plainByte).length = (utf8 s).length := by
  induction s with
  | nil => rfl
  | cons c s ih => simp [length_plainByte, ih]

/-- An escaped text is read back exactly when it has no `+`. -/
theorem flatMap_plainByte_eq_iff (s : List Char) :
    s.flatMap plainByte = utf8 s ↔ '+' ∉ s := by
  induction s with
  | nil => simp
  | cons c s ih =>
      rw [List.flatMap_cons, plainByte_append_eq_iff, ih, List.mem_cons, not_or, ne_comm]

/-- Escaping brings no `&` in and takes none out. -/
theorem mem_escapeAll_iff (s : List Char) : '&' ∈ s.flatMap escapeChar ↔ '&' ∈ s := by
  have hdigit : ∀ n, n < 16 → hexDigit n ≠ '&' := by decide
  have hchar : ∀ c, '&' ∈ escapeChar c ↔ c = '&' := by
    intro c
    cases hsafe : uriSafe c with
    | true => simp [escapeChar, hsafe, eq_comm]
    | false =>
        have hne : c ≠ '&' := by
          rintro rfl
          simp [uriSafe] at hsafe
        simp only [hne, iff_false]
        simp only [escapeChar, hsafe, Bool.false_eq_true, if_false, List.mem_flatMap,
          List.mem_cons, List.not_mem_nil, or_false, not_exists, not_and, not_or]
        intro b _
        have hb : b.toNat < 256 := b.toNat_lt
        exact ⟨by decide, (hdigit _ (by omega)).symm, (hdigit _ (by omega)).symm⟩
  simp only [List.mem_flatMap, hchar]
  simp

/-! ## What the gateway reads -/

/-- A value the form parser reads back: no `&`, no `+`, and no escape of
its own if it is not escaped. -/
def SaleField.Clean (f : SaleField) : Prop :=
  '&' ∉ f.value.toList ∧ '+' ∉ f.value.toList ∧
    (f.isEscaped = false → ∀ t ∈ f.value.toList.tails, escapeAt t = none)

instance (f : SaleField) : Decidable f.Clean :=
  inferInstanceAs (Decidable (_ ∧ _ ∧ (_ → _)))

theorem SaleField.faithful_iff (f : SaleField) :
    ('&' ∉ f.toField.text ∧ formDecode f.toField.text = utf8 f.toField.value) ↔ f.Clean := by
  cases he : f.isEscaped with
  | true =>
      simp only [toField, text, he, if_true, toList_uriEscape, mem_escapeAll_iff,
        formDecode_escapeAll, flatMap_plainByte_eq_iff, Clean]
      simp
  | false =>
      simp only [toField, text, he, Bool.false_eq_true, if_false, decode_eq_iff, Verbatim,
        Clean, true_implies]

/-- A value cut off at an `&` is too short to be the value. -/
theorem SaleField.cut_ne (f : SaleField) (h : '&' ∈ f.toField.text) :
    formDecode (f.toField.text.takeWhile (· != '&')) ≠ utf8 f.toField.value := by
  have hmem : '&' ∈ f.value.toList := by
    cases he : f.isEscaped with
    | true =>
        rw [← mem_escapeAll_iff, ← toList_uriEscape]
        simpa [toField, text, he] using h
    | false => simpa [toField, text, he] using h
  obtain ⟨pre, post, hvalue, hpre⟩ := List.eq_append_cons_of_mem hmem
  have hshort : (utf8 pre).length < (utf8 f.toField.value).length := by
    have hpos := length_utf8_cons_pos '&'
    simp only [toField, hvalue, utf8_append, utf8_cons, List.length_append]
    omega
  have hcut : (formDecode (f.toField.text.takeWhile (· != '&'))).length
      ≤ (utf8 pre).length := by
    cases he : f.isEscaped with
    | true =>
        have hamp : escapeChar '&' = ['&'] := by decide
        have htext : f.toField.text
            = pre.flatMap escapeChar ++ '&' :: post.flatMap escapeChar := by
          simp [toField, text, he, toList_uriEscape, hvalue, hamp]
        have hfree : '&' ∉ pre.flatMap escapeChar := fun hm =>
          hpre ((mem_escapeAll_iff pre).mp hm)
        rw [htext, takeWhile_append_sep hfree, formDecode_escapeAll,
          length_flatMap_plainByte]
    | false =>
        have htext : f.toField.text = pre ++ '&' :: post := by
          simp [toField, text, he, hvalue]
        rw [htext, takeWhile_append_sep hpre]
        exact length_formDecode_le pre
  intro heq
  rw [heq] at hcut
  omega

/-- Keys that are different and have no special characters. -/
def KeysOk (keys : List String) : Prop :=
  (keys.map fun k => utf8 k.toList).Nodup ∧ ∀ k ∈ keys, PlainKey k.toList

instance (keys : List String) : Decidable (KeysOk keys) :=
  inferInstanceAs (Decidable (_ ∧ _))

theorem readsBack_fields_iff {fs : List SaleField} (hkeys : KeysOk (fs.map SaleField.key)) :
    ReadsBack (fs.map SaleField.toField) (joinFields (fs.map SaleField.toField)) ↔
      ∀ f ∈ fs, f.Clean := by
  rw [readsBack_iff]
  · simp only [List.forall_mem_map]
    exact forall₂_congr fun f _ => f.faithful_iff
  · simpa [SaleField.toField, Function.comp_def] using hkeys.1
  · intro g hg
    obtain ⟨f, hf, rfl⟩ := List.mem_map.mp hg
    exact hkeys.2 f.key (List.mem_map.mpr ⟨f, hf, rfl⟩)
  · intro g hg
    obtain ⟨f, hf, rfl⟩ := List.mem_map.mp hg
    exact f.cut_ne

/-- The keys of the common part, with and without a cvv. -/
def saleKeys (cvv : Bool) : List String :=
  ["username", "password", "ccnumber", "ccexp", "amount"] ++ (if cvv then ["cvv"] else [])
  ++ ["firstname", "lastname", "company", "address1", "address2", "city", "state", "zip",
    "country", "phone", "fax", "email", "website"]

theorem keys_saleFields [Numbers] (username password : String) (amount : ℚ) (card : SaleCard)
    (b : Billing String) :
    (saleFields username password amount card b).map SaleField.key
      = saleKeys (decide (card.cvv ≠ "")) := by
  by_cases h : card.cvv = ""
  · simp [saleFields, saleKeys, h, escapedField, Billing.pairs]
  · simp [saleFields, saleKeys, h, escapedField, Billing.pairs]

theorem keysOk_doSale [Numbers] (username password : String) (amount : ℚ) (card : SaleCard)
    (b : Billing String) (merchantName : String) :
    KeysOk ((doSaleFields username password amount card b merchantName).map
      SaleField.key) := by
  have hall : ∀ cvv, KeysOk (saleKeys cvv ++ ["processor_id", "type"]) := by
    decide +kernel
  have hkeys := keys_saleFields username password amount card b
  rw [doSaleFields, List.map_append, hkeys]
  exact hall _

theorem keysOk_doSale2 [Numbers] (toS : ℚ → String) (username password : String) (amount : ℚ)
    (card : SaleCard) (b : Billing String) (plan : Plan) (startDate : Option Date)
    (merchantName : String) :
    KeysOk ((doSale2Fields toS username password amount card b plan startDate
      merchantName).map SaleField.key) := by
  have hall : ∀ cvv dated : Bool, KeysOk (saleKeys cvv
      ++ ["type", "plan_payments", "plan_amount", "month_frequency", "day_of_month", "payment"]
      ++ (if dated then ["start_date"] else []) ++ ["processor_id", "recurring"]) := by
    decide +kernel
  have hkeys := keys_saleFields username password amount card b
  rw [doSale2Fields, List.map_append, List.map_append, List.map_append, hkeys]
  cases startDate with
  | none => exact hall _ false
  | some d => exact hall _ true

/-- **The queries read back.** For every login, card, billing address,
amount, plan and processor: `doSale` and `doSale2` build a query, and
the gateway's form parser reads exactly one occurrence of each key with
exactly the value that was set, exactly when every value is clean. -/
theorem sale_queries_read_back_iff [Numbers] (toS : ℚ → String) (username password : String)
    (amount : ℚ) (card : SaleCard) (b : Billing String) (plan : Plan)
    (startDate : Option Date) (merchantName : String) :
    (∃ q, doSale (clientOf username password b) amount (some card.ccnumber)
        (some card.ccexp) (some card.cvv) (some merchantName) = .ok q ∧
      (ReadsBack ((doSaleFields username password amount card b merchantName).map
          SaleField.toField) q.toList ↔
        ∀ f ∈ doSaleFields username password amount card b merchantName, f.Clean)) ∧
    (∃ q, doSale2 toS (clientOf username password b) amount (some card.ccnumber)
        (some card.ccexp) (some card.cvv) plan startDate (some merchantName) = .ok q ∧
      (ReadsBack ((doSale2Fields toS username password amount card b plan startDate
          merchantName).map SaleField.toField) q.toList ↔
        ∀ f ∈ doSale2Fields toS username password amount card b plan startDate
          merchantName, f.Clean)) := by
  constructor
  · obtain ⟨q, hq, hlist⟩ := doSale_clientOf username password amount card b merchantName
    refine ⟨q, hq, ?_⟩
    rw [hlist]
    exact readsBack_fields_iff (keysOk_doSale username password amount card b merchantName)
  · obtain ⟨q, hq, hlist⟩ := doSale2_clientOf toS username password amount card b plan
      startDate merchantName
    refine ⟨q, hq, ?_⟩
    rw [hlist]
    exact readsBack_fields_iff
      (keysOk_doSale2 toS username password amount card b plan startDate merchantName)

/-- A billing address with this first name. -/
def billingNamed (firstname : String) : Billing String where
  firstname := firstname
  lastname := "Lee"
  company := ""
  address1 := "1 Main St"
  address2 := ""
  city := "Austin"
  state := "TX"
  zip := "78701"
  country := "US"
  phone := ""
  fax := ""
  email := "ann@example.com"
  website := ""

section
attribute [local instance] Numbers.exact

/-- A first name that sets a second amount. -/
theorem sale_amount_set_by_name : ∃ q,
    doSale (clientOf "shop" "secret" (billingNamed "Ann&amount=0.01")) 45
      (some "4111111111111111") (some "1/2030") (some "999") (some "processor") = .ok q ∧
    ¬ ReadsBack ((doSaleFields "shop" "secret" 45 ⟨"4111111111111111", "1/2030", "999"⟩
      (billingNamed "Ann&amount=0.01") "processor").map SaleField.toField) q.toList := by
  obtain ⟨q, hq, hlist⟩ := doSale_clientOf "shop" "secret" 45
    ⟨"4111111111111111", "1/2030", "999"⟩ (billingNamed "Ann&amount=0.01") "processor"
  refine ⟨q, hq, fun h => ?_⟩
  have hamount := h (escapedField "amount" "45.00").toField
    (List.mem_map.mpr ⟨escapedField "amount" (Numbers.format2 45),
      by simp [doSaleFields, saleFields],
      by rw [show Numbers.format2 45 = "45.00" by decide +kernel]⟩)
  rw [hlist] at hamount
  have htwice := congrArg List.length hamount
  revert htwice
  decide +kernel

end

end HomeWarranty.Nmi
