/-
HomeWarranty.Admin.SqlFilter — conditions for the database that three
actions write by hand.

`search_customer`, the dashboard of claims and the list of contractors
each collect a condition for every parameter that is present and join
them with `and`. Most values go between single quotes as they were
posted, some go in without quotes, and two are filtered first: the ids
of the dashboard lose everything but digits, and the id of a contractor
loses every `33`.

`SqlCondition` is what is meant: a comparison of a column with the posted
value as a literal. `where_clause_reads_back_iff` says when the joined
text is read as the conjunction of these comparisons: where every text
between quotes is plain and every other value is a number. The claim
number of the dashboard is a number unless no digit is left of it.
-/
import HomeWarranty.Ruby.Column
import HomeWarranty.Ruby.SqlText

namespace HomeWarranty.Admin

open Ruby

/-! ## What is meant -/

/-- A name of the database. -/
structure SqlName where
  text : List Char
  isName : nameText text = true

/-- A column, with the name of its table or without it. -/
inductive SqlColumn where
  | own (name : SqlName)
  | of (table name : SqlName)

/-- What stands before a literal. The end of a range of dates stands
behind the `and` of the range. -/
inductive Comparison where
  | equals (column : SqlColumn)
  | like (column : SqlColumn)
  | dateFrom (name : SqlName)
  | dateTo

/-- The posted value: between quotes, with what the action puts around
it, or as it is. -/
inductive Operand where
  | quoted (body : List Char)
  | bare (value : List Char)

/-- A comparison. Some are written with a blank after them. -/
structure SqlCondition where
  comparison : Comparison
  operand : Operand
  blank : Bool

/-- The text of a column with a blank after it. -/
def SqlColumn.text : SqlColumn → List Char
  | .own name => name.text ++ [' ']
  | .of table name => table.text ++ '.' :: (name.text ++ [' '])

def SqlColumn.tokens : SqlColumn → List SqlToken
  | .own name => [.word name.text]
  | .of table name => [.word table.text, .mark '.', .word name.text]

def Comparison.text : Comparison → List Char
  | .equals column => column.text ++ ['=', ' ']
  | .like column => column.text ++ ("LIKE".toList ++ [' '])
  | .dateFrom name =>
      "DATE".toList ++ '(' :: (name.text ++ [')', ' ']) ++ ("BETWEEN".toList ++ [' '])
  | .dateTo => []

def Comparison.tokens : Comparison → List SqlToken
  | .equals column => column.tokens ++ [.mark '=']
  | .like column => column.tokens ++ [.word "LIKE".toList]
  | .dateFrom name =>
      [.word "DATE".toList, .mark '(', .word name.text, .mark ')'] ++ [.word "BETWEEN".toList]
  | .dateTo => []

def Operand.text : Operand → List Char
  | .quoted body => '\'' :: (body ++ ['\''])
  | .bare value => value

def Operand.tokens : Operand → List SqlToken
  | .quoted body => [.literal '\'' body body]
  | .bare value => numeralTokens value

def SqlCondition.text (c : SqlCondition) : List Char :=
  c.comparison.text ++ (c.operand.text ++ if c.blank then [' '] else [])

def SqlCondition.tokens (c : SqlCondition) : List SqlToken :=
  c.comparison.tokens ++ c.operand.tokens

/-- The conjunction of the conditions. -/
def conjunction (cs : List SqlCondition) : List SqlToken :=
  [SqlToken.word "and".toList].intercalate (cs.map SqlCondition.tokens)

/-! ## The actions -/

/-- A condition for a parameter that is present. -/
def ifPresent {α : Type} (v : Option String) (f : String → α) : List α :=
  if presentOpt v then [f (v.getD "")] else []

/-- `Date#to_s`. -/
def dateText (d : Date) : String :=
  (if d.year < 0 then "-" else "") ++ rjust (toString d.year.natAbs) 4 '0' ++ "-"
    ++ rjust (toString d.month) 2 '0' ++ "-" ++ rjust (toString d.day) 2 '0'

structure SearchCustomerParams where
  firstName : Option String
  lastName : Option String
  email : Option String
  startDate : Option String
  endDate : Option String

/-- `customers#search_customer`; nothing where a date raises. -/
def searchCustomer (p : SearchCustomerParams) : Option (List String) :=
  let query := ifPresent p.firstName (fun v => "first_name LIKE '%" ++ v ++ "%'") ++
    ifPresent p.lastName (fun v => "last_name LIKE '%" ++ v ++ "%'") ++
    ifPresent p.email (fun v => "email = '" ++ v ++ "'")
  if presentOpt p.startDate && presentOpt p.endDate then do
    let endDate ← strptimeMdy (p.endDate.getD "")
    let startDate ← strptimeMdy (p.startDate.getD "")
    some (query ++ ["DATE(created_at) BETWEEN '" ++ dateText startDate ++ "' and '"
      ++ dateText endDate ++ "'"])
  else some query

structure DashboardParams where
  claimId : Option String
  contractId : Option String
  state : Option String
  newClaimStatus : Option String
  invoiceStatus : Option String

/-- `gsub(/[^0-9]/, '')`. -/
def digitsOnly (s : String) : String := String.ofList (s.toList.filter Char.isDigit)

/-- `claims#dashboard`. -/
def dashboardQuery (p : DashboardParams) : List String :=
  ifPresent p.claimId (fun v => "claims.id = " ++ digitsOnly v) ++
    ifPresent p.contractId (fun v => "claims.customer_id = '" ++ digitsOnly v ++ "'") ++
    ifPresent p.state (fun v => "customers.customer_state = '" ++ v ++ "'") ++
    ifPresent p.newClaimStatus (fun v => "claims.status_code = " ++ v) ++
    ifPresent p.invoiceStatus (fun v => "claims.invoice_status = '" ++ v ++ "'")

structure ContractorsParams where
  contractorId : Option String
  state : Option String
  zipcode : Option String
  status : Option String

/-- The id without any `33`. -/
def contractorIdParam (v : Option String) : Option String :=
  if presentOpt v then
    some (String.ofList (removeAll (wordAt "33".toList) none 0 (v.getD "").toList))
  else some ""

/-- `contractors#index`. -/
def contractorsQuery (p : ContractorsParams) : List String :=
  ifPresent p.status (fun v => "status = " ++ v ++ " ") ++
    ifPresent p.zipcode (fun v => "addresses.zip_code = '" ++ v ++ "' ") ++
    ifPresent (contractorIdParam p.contractorId) (fun v => "contractors.id = " ++ v) ++
    ifPresent p.state (fun v => "addresses.state = '" ++ v ++ "'")

/-- A request to one of the actions. -/
inductive FilterRequest where
  | searchCustomer (p : SearchCustomerParams)
  | dashboard (p : DashboardParams)
  | contractors (p : ContractorsParams)

/-- The conditions that were collected. -/
def FilterRequest.query : FilterRequest → Option (List String)
  | .searchCustomer p => Admin.searchCustomer p
  | .dashboard p => some (dashboardQuery p)
  | .contractors p => some (contractorsQuery p)

/-- `query.values.join(" and ")`. -/
def FilterRequest.whereText (r : FilterRequest) : Option (List Char) :=
  r.query.map fun values => (" and ".toList).intercalate (values.map String.toList)

/-- The comparisons that are meant. -/
def FilterRequest.meant : FilterRequest → Option (List SqlCondition)
  | .searchCustomer p =>
      let like (name : SqlName) (v : String) : SqlCondition :=
        ⟨.like (.own name), .quoted ('%' :: (v.toList ++ ['%'])), false⟩
      let query := ifPresent p.firstName (like ⟨"first_name".toList, rfl⟩) ++
        ifPresent p.lastName (like ⟨"last_name".toList, rfl⟩) ++
        ifPresent p.email fun v =>
          ⟨.equals (.own ⟨"email".toList, rfl⟩), .quoted v.toList, false⟩
      if presentOpt p.startDate && presentOpt p.endDate then do
        let endDate ← strptimeMdy (p.endDate.getD "")
        let startDate ← strptimeMdy (p.startDate.getD "")
        some (query ++
          [⟨.dateFrom ⟨"created_at".toList, rfl⟩, .quoted (dateText startDate).toList, false⟩,
            ⟨.dateTo, .quoted (dateText endDate).toList, false⟩])
      else some query
  | .dashboard p =>
      let claims : SqlName := ⟨"claims".toList, rfl⟩
      some (ifPresent p.claimId (fun v =>
          ⟨.equals (.of claims ⟨"id".toList, rfl⟩), .bare (digitsOnly v).toList, false⟩) ++
        ifPresent p.contractId (fun v =>
          ⟨.equals (.of claims ⟨"customer_id".toList, rfl⟩),
            .quoted (digitsOnly v).toList, false⟩) ++
        ifPresent p.state (fun v =>
          ⟨.equals (.of ⟨"customers".toList, rfl⟩ ⟨"customer_state".toList, rfl⟩),
            .quoted v.toList, false⟩) ++
        ifPresent p.newClaimStatus (fun v =>
          ⟨.equals (.of claims ⟨"status_code".toList, rfl⟩), .bare v.toList, false⟩) ++
        ifPresent p.invoiceStatus fun v =>
          ⟨.equals (.of claims ⟨"invoice_status".toList, rfl⟩), .quoted v.toList, false⟩)
  | .contractors p =>
      let addresses : SqlName := ⟨"addresses".toList, rfl⟩
      some (ifPresent p.status (fun v =>
          ⟨.equals (.own ⟨"status".toList, rfl⟩), .bare v.toList, true⟩) ++
        ifPresent p.zipcode (fun v =>
          ⟨.equals (.of addresses ⟨"zip_code".toList, rfl⟩), .quoted v.toList, true⟩) ++
        ifPresent (contractorIdParam p.contractorId) (fun v =>
          ⟨.equals (.of ⟨"contractors".toList, rfl⟩ ⟨"id".toList, rfl⟩), .bare v.toList, false⟩) ++
        ifPresent p.state fun v =>
          ⟨.equals (.of addresses ⟨"state".toList, rfl⟩), .quoted v.toList, false⟩)

/-! ## Reading conditions -/

theorem closes_column (c : SqlColumn) : Closes c.text c.tokens := by
  cases c with
  | own name => exact closes_name_blank name.isName
  | of table name => exact closes_qualified table.isName name.isName

theorem closes_comparison (c : Comparison) : Closes c.text c.tokens := by
  cases c with
  | equals column => exact (closes_column column).append closes_equals
  | like column => exact (closes_column column).append (closes_name_blank rfl)
  | dateFrom name => exact (closes_apply rfl name.isName).append (closes_name_blank rfl)
  | dateTo => exact closes_nil

/-- The value is read as the literal that is meant. -/
def Operand.Readable : Operand → Prop
  | .quoted body => sqlPlain '\'' body = true
  | .bare value => Numeral value

theorem lexSql_operand_iff (o : Operand) {rest : List Char} {tokens : List SqlToken}
    (hrest : ∀ c ∈ rest.head?, isAsciiSpace c = true) :
    lexSql (o.text ++ rest) = some (o.tokens ++ tokens) ↔
      o.Readable ∧ lexSql rest = some tokens := by
  cases o with
  | quoted body =>
      have hquote : rest.head? ≠ some '\'' := fun h => absurd (hrest '\'' h) (by decide)
      have htext : (Operand.quoted body).text ++ rest = '\'' :: (body ++ '\'' :: rest) := by
        simp [Operand.text]
      rw [htext]
      exact lexSql_quoted_iff hquote
  | bare value => exact lexSql_numeral_iff hrest

theorem lexSql_condition_iff (c : SqlCondition) {rest : List Char} {tokens : List SqlToken}
    (hrest : ∀ c ∈ rest.head?, isAsciiSpace c = true) :
    lexSql (c.text ++ rest) = some (c.tokens ++ tokens) ↔
      c.operand.Readable ∧ lexSql rest = some tokens := by
  rw [SqlCondition.text, SqlCondition.tokens, List.append_assoc, closes_comparison,
    List.append_assoc c.comparison.tokens, map_append_eq_some_iff, List.append_assoc]
  cases c.blank with
  | true =>
      have hblank : lexSql ([' '] ++ rest) = lexSql rest := by
        rw [closes_blank]
        simp
      rw [if_pos rfl, lexSql_operand_iff c.operand (by simp [isAsciiSpace]), hblank]
  | false =>
      rw [if_neg (by decide), List.nil_append]
      exact lexSql_operand_iff c.operand hrest

/-- The text of joined conditions. -/
def joined (cs : List SqlCondition) : List Char :=
  (" and ".toList).intercalate (cs.map SqlCondition.text)

/-- **A joined text is the conjunction that is meant** exactly where every
value in it can be read. -/
theorem lexSql_joined_iff (cs : List SqlCondition) :
    lexSql (joined cs) = some (conjunction cs) ↔ ∀ c ∈ cs, c.operand.Readable := by
  have hand : Closes " and ".toList [.word "and".toList] :=
    closes_blank.append (closes_name_blank (w := "and".toList) rfl)
  induction cs with
  | nil => exact iff_of_true rfl (by simp)
  | cons c cs ih =>
      rw [List.forall_mem_cons]
      cases cs with
      | nil =>
          have hone : lexSql (c.text ++ []) = some (c.tokens ++ []) ↔
              c.operand.Readable ∧ lexSql [] = some [] := lexSql_condition_iff c (by simp)
          have hend : lexSql [] = some [] := rfl
          rw [List.append_nil, List.append_nil] at hone
          simpa [joined, conjunction, hend] using hone
      | cons d cs =>
          have htext : joined (c :: d :: cs)
              = c.text ++ (" and ".toList ++ joined (d :: cs)) := by
            simp only [joined, List.map_cons, List.intercalate_cons_cons, List.append_assoc]
          have htokens : conjunction (c :: d :: cs)
              = c.tokens ++ ([SqlToken.word "and".toList] ++ conjunction (d :: cs)) := by
            simp only [conjunction, List.map_cons, List.intercalate_cons_cons, List.append_assoc]
          have hblank : ∀ x ∈ (" and ".toList ++ joined (d :: cs)).head?,
              isAsciiSpace x = true := by
            intro x hx
            obtain rfl : ' ' = x := Option.some.inj hx
            rfl
          rw [htext, htokens, lexSql_condition_iff c hblank, hand, map_append_eq_some_iff]
          exact and_congr_right fun _ => ih

/-! ## The texts of the actions -/

theorem map_ifPresent {α β : Type} (v : Option String) (f : String → α) (g : α → β) :
    (ifPresent v f).map g = ifPresent v fun v => g (f v) := by
  unfold ifPresent
  split_ifs <;> rfl

theorem forall_mem_ifPresent {α : Type} {v : Option String} {f : String → α} {P : α → Prop} :
    (∀ a ∈ ifPresent v f, P a) ↔ (presentOpt v = true → P (f (v.getD ""))) := by
  unfold ifPresent
  split_ifs with h
  · simp [h]
  · simp [h]

/-- A range of dates is two conditions in one. -/
theorem intercalate_pair (sep a b : List Char) (l : List (List Char)) :
    sep.intercalate (l ++ [a ++ sep ++ b]) = sep.intercalate (l ++ [a, b]) := by
  induction l with
  | nil => simp
  | cons x l ih =>
      rw [List.cons_append, List.intercalate_cons_of_ne_nil (by simp), ih, List.cons_append,
        List.intercalate_cons_of_ne_nil (by simp)]

/-- What an action writes around a value is the text of a comparison. -/
theorem text_equals_quoted (column : SqlColumn) (blank : Bool) (before after : String)
    (hbefore : before.toList = column.text ++ ['=', ' ', '\''])
    (hafter : after.toList = '\'' :: if blank then [' '] else []) (v : String) :
    (before ++ v ++ after).toList
      = SqlCondition.text ⟨.equals column, .quoted v.toList, blank⟩ := by
  simp only [String.toList_append, hbefore, hafter, SqlCondition.text, Comparison.text,
    Operand.text, List.append_assoc, List.cons_append, List.nil_append]

theorem text_equals_bare (column : SqlColumn) (before : String)
    (hbefore : before.toList = column.text ++ ['=', ' ']) (v : String) :
    (before ++ v).toList = SqlCondition.text ⟨.equals column, .bare v.toList, false⟩ := by
  simp only [String.toList_append, hbefore, SqlCondition.text, Comparison.text, Operand.text,
    List.append_assoc, Bool.false_eq_true, if_false, List.append_nil]

theorem text_equals_bare_blank (column : SqlColumn) (before : String)
    (hbefore : before.toList = column.text ++ ['=', ' ']) (v : String) :
    (before ++ v ++ " ").toList = SqlCondition.text ⟨.equals column, .bare v.toList, true⟩ := by
  have hblank : " ".toList = [' '] := rfl
  simp only [String.toList_append, hbefore, hblank, SqlCondition.text, Comparison.text,
    Operand.text, List.append_assoc, if_true]

theorem text_like (name : SqlName) (before : String)
    (hbefore : before.toList = (Comparison.like (.own name)).text ++ ['\'', '%']) (v : String) :
    (before ++ v ++ "%'").toList
      = SqlCondition.text ⟨.like (.own name), .quoted ('%' :: (v.toList ++ ['%'])), false⟩ := by
  have hafter : "%'".toList = ['%', '\''] := rfl
  simp only [String.toList_append, hbefore, hafter, SqlCondition.text, Operand.text,
    List.append_assoc, List.cons_append, List.nil_append, Bool.false_eq_true, if_false,
    List.append_nil]

/-- The conditions of `search_customer` without the dates. -/
theorem map_toList_searchCustomer (p : SearchCustomerParams) :
    (ifPresent p.firstName (fun v => "first_name LIKE '%" ++ v ++ "%'") ++
        ifPresent p.lastName (fun v => "last_name LIKE '%" ++ v ++ "%'") ++
        ifPresent p.email (fun v => "email = '" ++ v ++ "'")).map String.toList
      = (ifPresent p.firstName (fun v => SqlCondition.mk (.like (.own ⟨"first_name".toList, rfl⟩))
          (.quoted ('%' :: (v.toList ++ ['%']))) false) ++
        ifPresent p.lastName (fun v => SqlCondition.mk (.like (.own ⟨"last_name".toList, rfl⟩))
          (.quoted ('%' :: (v.toList ++ ['%']))) false) ++
        ifPresent p.email (fun v => SqlCondition.mk (.equals (.own ⟨"email".toList, rfl⟩))
          (.quoted v.toList) false)).map SqlCondition.text := by
  have hfirst := text_like ⟨"first_name".toList, rfl⟩ "first_name LIKE '%" rfl
  have hlast := text_like ⟨"last_name".toList, rfl⟩ "last_name LIKE '%" rfl
  have hemail := text_equals_quoted (.own ⟨"email".toList, rfl⟩) false "email = '" "'" rfl rfl
  simp only [List.map_append, map_ifPresent, hfirst, hlast, hemail]

theorem dates_text (b e : Date) :
    ("DATE(created_at) BETWEEN '" ++ dateText b ++ "' and '" ++ dateText e ++ "'").toList
      = SqlCondition.text ⟨.dateFrom ⟨"created_at".toList, rfl⟩, .quoted (dateText b).toList, false⟩
        ++ " and ".toList ++ SqlCondition.text ⟨.dateTo, .quoted (dateText e).toList, false⟩ := by
  simp only [SqlCondition.text, Comparison.text, Operand.text, String.toList_append,
    List.append_assoc, List.cons_append, List.append_nil, Bool.false_eq_true, if_false]
  rfl

theorem whereText_eq (r : FilterRequest) : r.whereText = r.meant.map joined := by
  cases r with
  | searchCustomer p =>
      simp only [FilterRequest.whereText, FilterRequest.query, FilterRequest.meant, searchCustomer]
      cases hdates : presentOpt p.startDate && presentOpt p.endDate with
      | false =>
          simp only [Bool.false_eq_true, if_false, Option.map_some, joined]
          rw [map_toList_searchCustomer]
      | true =>
          simp only [if_true]
          cases hend : strptimeMdy (p.endDate.getD "") with
          | none => rfl
          | some e =>
              cases hstart : strptimeMdy (p.startDate.getD "") with
              | none => rfl
              | some b =>
                  simp only [Option.bind_eq_bind, Option.bind_some, Option.map_some, joined]
                  rw [List.map_append, map_toList_searchCustomer, List.map_singleton, dates_text,
                    intercalate_pair]
                  simp only [List.map_append, List.map_cons, List.map_nil]
  | dashboard p =>
      have hid := text_equals_bare (.of ⟨"claims".toList, rfl⟩ ⟨"id".toList, rfl⟩)
        "claims.id = " rfl
      have hcustomer := text_equals_quoted (.of ⟨"claims".toList, rfl⟩ ⟨"customer_id".toList, rfl⟩)
        false "claims.customer_id = '" "'" rfl rfl
      have hstate := text_equals_quoted
        (.of ⟨"customers".toList, rfl⟩ ⟨"customer_state".toList, rfl⟩) false
        "customers.customer_state = '" "'" rfl rfl
      have hstatus := text_equals_bare (.of ⟨"claims".toList, rfl⟩ ⟨"status_code".toList, rfl⟩)
        "claims.status_code = " rfl
      have hinvoice := text_equals_quoted
        (.of ⟨"claims".toList, rfl⟩ ⟨"invoice_status".toList, rfl⟩) false
        "claims.invoice_status = '" "'" rfl rfl
      simp only [FilterRequest.whereText, FilterRequest.query, FilterRequest.meant, dashboardQuery,
        Option.map_some, joined, List.map_append, map_ifPresent, hid, hcustomer, hstate, hstatus,
        hinvoice]
  | contractors p =>
      have hstatus := text_equals_bare_blank (.own ⟨"status".toList, rfl⟩) "status = " rfl
      have hzip := text_equals_quoted (.of ⟨"addresses".toList, rfl⟩ ⟨"zip_code".toList, rfl⟩) true
        "addresses.zip_code = '" "' " rfl rfl
      have hid := text_equals_bare (.of ⟨"contractors".toList, rfl⟩ ⟨"id".toList, rfl⟩)
        "contractors.id = " rfl
      have hstate := text_equals_quoted (.of ⟨"addresses".toList, rfl⟩ ⟨"state".toList, rfl⟩) false
        "addresses.state = '" "'" rfl rfl
      simp only [FilterRequest.whereText, FilterRequest.query, FilterRequest.meant,
        contractorsQuery, Option.map_some, joined, List.map_append, map_ifPresent, hstatus, hzip,
        hid, hstate]

/-! ## When the text means what it says -/

/-- What holds of a value that is present. -/
def WhenPresent (v : Option String) (P : List Char → Prop) : Prop :=
  presentOpt v = true → P (v.getD "").toList

/-- Between quotes the value is read as it is. -/
def QuotedPlain (v : List Char) : Prop := sqlPlain '\'' v = true

instance (v : List Char) : Decidable (QuotedPlain v) := inferInstanceAs (Decidable (_ = _))

/-- Likewise with the wildcards around it. -/
def LikePlain (v : List Char) : Prop := sqlPlain '\'' ('%' :: (v ++ ['%'])) = true

instance (v : List Char) : Decidable (LikePlain v) := inferInstanceAs (Decidable (_ = _))

/-- The values that the actions can put into a condition. -/
def FilterRequest.Readable : FilterRequest → Prop
  | .searchCustomer p =>
      WhenPresent p.firstName LikePlain ∧ WhenPresent p.lastName LikePlain ∧
        WhenPresent p.email QuotedPlain
  | .dashboard p =>
      WhenPresent p.claimId (fun v => ∃ c ∈ v, c.isDigit = true) ∧
        WhenPresent p.state QuotedPlain ∧ WhenPresent p.newClaimStatus Numeral ∧
        WhenPresent p.invoiceStatus QuotedPlain
  | .contractors p =>
      WhenPresent p.status Numeral ∧ WhenPresent p.zipcode QuotedPlain ∧
        WhenPresent (contractorIdParam p.contractorId) Numeral ∧ WhenPresent p.state QuotedPlain

theorem quotedPlain_of_digits {cs : List Char} (h : ∀ c ∈ cs, c.isDigit = true ∨ c = '-') :
    QuotedPlain cs := by
  refine sqlPlain_of_not_mem (fun hc => ?_) fun hc => ?_
  · rcases h _ hc with hd | hd <;> revert hd <;> decide
  · rcases h _ hc with hd | hd <;> revert hd <;> decide

theorem quotedPlain_dateText (d : Date) : QuotedPlain (dateText d).toList := by
  have hpart : ∀ (n width : Nat), ∀ c ∈ (rjust (toString n) width '0').toList,
      c.isDigit = true := by
    intro n width
    refine isDigit_of_mem_rjust fun c hc => ?_
    rw [toList_toString] at hc
    exact isDigit_of_mem_toDigits hc
  have hsign : ∀ c ∈ (if d.year < 0 then "-" else "").toList, c = '-' := by
    split_ifs <;> simp
  refine quotedPlain_of_digits fun c hc => ?_
  simp only [dateText, String.toList_append, List.mem_append] at hc
  rcases hc with ((((hc | hc) | hc) | hc) | hc) | hc
  · exact Or.inr (hsign c hc)
  · exact Or.inl (hpart _ _ c hc)
  · exact Or.inr (by simpa using hc)
  · exact Or.inl (hpart _ _ c hc)
  · exact Or.inr (by simpa using hc)
  · exact Or.inl (hpart _ _ c hc)

theorem isDigit_of_mem_digitsOnly {s : String} {c : Char} (h : c ∈ (digitsOnly s).toList) :
    c.isDigit = true := by
  rw [digitsOnly, String.toList_ofList] at h
  exact (List.mem_filter.mp h).2

theorem numeral_digitsOnly_iff (s : String) :
    Numeral (digitsOnly s).toList ↔ ∃ c ∈ s.toList, c.isDigit = true := by
  constructor
  · intro h
    cases hdigits : (digitsOnly s).toList with
    | nil =>
        rw [hdigits] at h
        exact absurd rfl h.2
    | cons c cs =>
        have hc : c ∈ (digitsOnly s).toList := by
          rw [hdigits]
          exact List.mem_cons_self
        rw [digitsOnly, String.toList_ofList, List.mem_filter] at hc
        exact ⟨c, hc⟩
  · rintro ⟨c, hc, hdigit⟩
    have hmem : c ∈ (digitsOnly s).toList := by
      rw [digitsOnly, String.toList_ofList]
      exact List.mem_filter.mpr ⟨hc, hdigit⟩
    exact numeral_of_digits (fun _ => isDigit_of_mem_digitsOnly) (List.ne_nil_of_mem hmem)

/-- The values that decide: dates and the customer number of the dashboard
can always be read. -/
theorem readable_iff {r : FilterRequest} {cs : List SqlCondition} (h : r.meant = some cs) :
    (∀ c ∈ cs, c.operand.Readable) ↔ r.Readable := by
  cases r with
  | searchCustomer p =>
      simp only [FilterRequest.meant] at h
      split_ifs at h with hdates
      · obtain ⟨e, -, h⟩ := Option.bind_eq_some_iff.mp h
        obtain ⟨b, -, h⟩ := Option.bind_eq_some_iff.mp h
        obtain rfl := Option.some.inj h
        simp only [List.forall_mem_append, forall_mem_ifPresent, List.forall_mem_cons]
        constructor
        · rintro ⟨⟨⟨hfirst, hlast⟩, hemail⟩, -⟩
          exact ⟨hfirst, hlast, hemail⟩
        · rintro ⟨hfirst, hlast, hemail⟩
          exact ⟨⟨⟨hfirst, hlast⟩, hemail⟩, quotedPlain_dateText b, quotedPlain_dateText e,
            by simp⟩
      · obtain rfl := Option.some.inj h
        simp only [List.forall_mem_append, forall_mem_ifPresent]
        exact and_assoc
  | dashboard p =>
      obtain rfl := Option.some.inj h
      simp only [List.forall_mem_append, forall_mem_ifPresent, Operand.Readable,
        numeral_digitsOnly_iff]
      constructor
      · rintro ⟨⟨⟨⟨hclaim, -⟩, hstate⟩, hstatus⟩, hinvoice⟩
        exact ⟨hclaim, hstate, hstatus, hinvoice⟩
      · rintro ⟨hclaim, hstate, hstatus, hinvoice⟩
        exact ⟨⟨⟨⟨hclaim, fun _ => quotedPlain_of_digits fun c hc =>
          Or.inl (isDigit_of_mem_digitsOnly hc)⟩, hstate⟩, hstatus⟩, hinvoice⟩
  | contractors p =>
      obtain rfl := Option.some.inj h
      simp only [List.forall_mem_append, forall_mem_ifPresent]
      constructor
      · rintro ⟨⟨⟨hstatus, hzip⟩, hid⟩, hstate⟩
        exact ⟨hstatus, hzip, hid, hstate⟩
      · rintro ⟨hstatus, hzip, hid, hstate⟩
        exact ⟨⟨⟨hstatus, hzip⟩, hid⟩, hstate⟩

/-- **When a condition written by hand means what it says**. -/
theorem where_clause_reads_back_iff {r : FilterRequest} {text : List Char}
    (h : r.whereText = some text) :
    lexSql text = r.meant.map conjunction ↔ r.Readable := by
  rw [whereText_eq] at h
  obtain ⟨cs, hcs, rfl⟩ := Option.map_eq_some_iff.mp h
  rw [hcs, Option.map_some, lexSql_joined_iff, readable_iff hcs]

/-- Active contractors of a city. -/
theorem contractors_of_city_read_back :
    let r := FilterRequest.contractors ⟨none, some "NY", some "10001", some "1"⟩
    r.whereText = some ("status = 1  and addresses.zip_code = '10001'  and " ++
        "addresses.state = 'NY'").toList ∧
      lexSql ("status = 1  and addresses.zip_code = '10001'  and " ++
        "addresses.state = 'NY'").toList = r.meant.map conjunction := by
  intro r
  have htext : r.whereText = some ("status = 1  and addresses.zip_code = '10001'  and " ++
      "addresses.state = 'NY'").toList := by decide +kernel
  have hid : presentOpt (contractorIdParam none) = false := by decide
  refine ⟨htext, (where_clause_reads_back_iff htext).mpr ⟨?_, ?_, ?_, ?_⟩⟩
  · exact fun _ => by decide
  · exact fun _ => by decide
  · exact fun h => absurd h (by rw [hid]; decide)
  · exact fun _ => by decide

/-- An address that adds a comparison, and a claim number without digits. -/
theorem email_adds_comparison :
    let search := FilterRequest.searchCustomer ⟨none, none, some "x' or email LIKE '%", none, none⟩
    let claims := FilterRequest.dashboard ⟨some "none", none, none, none, some "Paid"⟩
    search.whereText = some "email = 'x' or email LIKE '%'".toList ∧
      lexSql "email = 'x' or email LIKE '%'".toList
        = some [.word "email".toList, .mark '=', .literal '\'' ['x'] ['x'], .word "or".toList,
          .word "email".toList, .word "LIKE".toList, .literal '\'' ['%'] ['%']] ∧
      lexSql "email = 'x' or email LIKE '%'".toList ≠ search.meant.map conjunction ∧
      claims.whereText = some "claims.id =  and claims.invoice_status = 'Paid'".toList ∧
      lexSql "claims.id =  and claims.invoice_status = 'Paid'".toList
        ≠ claims.meant.map conjunction := by
  refine ⟨by decide +kernel, by decide +kernel, by decide +kernel, by decide +kernel,
    by decide +kernel⟩

end HomeWarranty.Admin
