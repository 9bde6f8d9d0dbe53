/-
HomeWarranty.Admin.Contract — the page of a contract, and who may see it.

A customer's account is let through when the id in the request IS the
customer's contract number, as a text. The customer is then looked up by
a number that is read from the same text with
`/(SHW1)?0*(\d+)/i`: an optional prefix in either case, zeros, digits.
The two are different readings of one text, and `own_contract_only` says that
they agree: the padding is zeros and digits only, and what the pattern
leaves of it after the zeros is the id.

`contractAt` is the pattern at one position. The prefix is tried first;
the zeros are taken greedily, and give one back when no digit follows.
-/
import HomeWarranty.Billing.ContractNumber
import HomeWarranty.Admin.Session

namespace HomeWarranty.Admin

open Lib Ruby Billing

/-! ## The pattern -/

/-- `0*(\d+)`: the digits without the zeros in front, or the last zero. -/
def zerosThenDigits (cs : List Char) : Option (List Char) :=
  match cs.takeWhile Char.isDigit with
  | [] => none
  | d :: ds =>
      match (d :: ds).dropWhile (· == '0') with
      | [] => some ['0']
      | e :: es => some (e :: es)

/-- `(SHW1)?0*(\d+)` with `i`, tried at one position. -/
def contractAt (cs : List Char) : Option (List Char) :=
  if (cs.take 4).map foldCase = ['s', 'h', 'w', '1'] then
    (zerosThenDigits (cs.drop 4)).or (zerosThenDigits cs)
  else zerosThenDigits cs

/-- `params[:id].match(…)[2]`, leftmost position first. -/
def matchContract : List Char → Option (List Char)
  | [] => none
  | c :: cs => (contractAt (c :: cs)).or (matchContract cs)

/-! ## The action -/

/-- `_contract_number`. -/
def underscoreContractNumber (id : Nat) : String :=
  String.ofList ((contractNumber id).toList.filter fun c => c != '#')

inductive ContractPage where
  | loaded (c : Customer)
  | redirected (url : String)
  | raised (e : RubyError)
  deriving DecidableEq

/-- What follows the check. -/
def loadContract (customers : Table Customer) (requested : Option String) : ContractPage :=
  match requested with
  | none => .raised .noMethodError
  | some s =>
      match matchContract s.toList with
      | none => .raised .noMethodError
      | some ds =>
          match customers.find? (digitsValue ds) with
          | none => .raised .recordNotFound
          | some c => .loaded c

/-- `Account.find(session[:account_id]) rescue nil`. -/
def sessionAccount (accounts : Table Account) (s : Session) : Option Account :=
  s.accountId.bind accounts.find?

/-- `@account.parent`, of an account of a customer. -/
def customerParent (customers : Table Customer) (a : Account) : Option Customer :=
  a.parentId.bind customers.find?

/-- `contract`. Without an account the redirect is followed by a call on
`nil`. -/
def contract (accounts : Table Account) (customers : Table Customer) (s : Session)
    (requested : Option String) : ContractPage :=
  match sessionAccount accounts s with
  | none => .raised .noMethodError
  | some a =>
      if a.customer then
        match customerParent customers a with
        | none => .raised .noMethodError
        | some c =>
            if some (underscoreContractNumber c.id) ≠ requested then
              .redirected ("/admin/customers/edit/" ++ toString c.id)
            else loadContract customers requested
      else loadContract customers requested

/-! ## Reading a contract number -/

theorem zerosThenDigits_digits {ds : List Char} (hd : ∀ c ∈ ds, c.isDigit = true)
    (hne : ds ≠ []) :
    ∃ es, zerosThenDigits ds = some es ∧ digitsValue es = digitsValue ds := by
  have htake : ds.takeWhile Char.isDigit = ds := List.takeWhile_eq_self_iff.mpr hd
  unfold zerosThenDigits
  rw [htake]
  cases ds with
  | nil => exact absurd rfl hne
  | cons d ds =>
      have hvalue := digitsValue_dropWhile_zero (d :: ds)
      dsimp only
      cases hstrip : (d :: ds).dropWhile (· == '0') with
      | nil =>
          rw [hstrip] at hvalue
          exact ⟨['0'], rfl, hvalue⟩
      | cons e es =>
          rw [hstrip] at hvalue
          exact ⟨e :: es, rfl, hvalue⟩

/-- The text of a contract number: the prefix and the padded id. -/
theorem toList_underscoreContractNumber (id : Nat) :
    (underscoreContractNumber id).toList = ['S', 'H', 'W', '1'] ++ paddedId id := by
  have hpad : (paddedId id).filter (fun c => c != '#') = paddedId id := by
    refine List.filter_eq_self.mpr fun c hc => ?_
    have hdigit := isDigit_of_mem_paddedId id c hc
    cases heq : c != '#' with
    | true => rfl
    | false =>
        rw [bne_eq_false_iff_eq] at heq
        subst heq
        cases hdigit
  have hnum : (contractNumber id).toList = ['#', 'S', 'H', 'W', '1'] ++ paddedId id := by
    simp [contractNumber, invoicePrefix, paddedId, String.toList_append]
  rw [underscoreContractNumber, String.toList_ofList, hnum, List.filter_append, hpad]
  rfl

/-- **The round trip**: a contract number is read as the id it was made
from. -/
theorem matchContract_underscoreContractNumber (id : Nat) :
    ∃ ds, matchContract (underscoreContractNumber id).toList = some ds ∧ digitsValue ds = id := by
  obtain ⟨es, hes, hvalue⟩ :=
    zerosThenDigits_digits (isDigit_of_mem_paddedId id) (paddedId_ne_nil id)
  refine ⟨es, ?_, by rw [hvalue, digitsValue_paddedId]⟩
  rw [toList_underscoreContractNumber]
  -- the pattern already matches at the first position, with the prefix
  have hat : contractAt (['S', 'H', 'W', '1'] ++ paddedId id) = some es := by
    have hcase : List.map foldCase ['S', 'H', 'W', '1'] = ['s', 'h', 'w', '1'] := by decide
    have htake : (['S', 'H', 'W', '1'] ++ paddedId id).take 4 = ['S', 'H', 'W', '1'] := rfl
    have hdrop : (['S', 'H', 'W', '1'] ++ paddedId id).drop 4 = paddedId id := rfl
    rw [contractAt, htake, hcase, if_pos rfl, hdrop, hes]
    rfl
  rw [List.cons_append] at hat ⊢
  rw [matchContract, hat]
  rfl

/-- **Own contract only**: for an account of customer `n`, the request
for `n`'s contract number loads customer `n`, and every other request is
sent to the customer's own page. -/
theorem own_contract_only {accounts : Table Account} {customers : Table Customer} {s : Session}
    {a : Account} {c : Customer} {n : Nat} (ha : sessionAccount accounts s = some a)
    (hcustomer : a.customer = true) (hparent : a.parentId = some n)
    (hc : customers.find? n = some c) (requested : Option String) :
    contract accounts customers s requested =
      if requested = some (underscoreContractNumber n) then .loaded c
      else .redirected ("/admin/customers/edit/" ++ toString n) := by
  have hid : c.id = n := Table.key_of_find? hc
  have hpar : customerParent customers a = some c := by
    simp [customerParent, hparent, hc]
  simp only [contract, ha, hcustomer, if_true, hpar, hid]
  by_cases hreq : requested = some (underscoreContractNumber n)
  · obtain ⟨ds, hds, hvalue⟩ := matchContract_underscoreContractNumber n
    rw [if_pos hreq, if_neg (by simp [hreq])]
    simp only [loadContract, hreq, hds, hvalue, hc]
  · rw [if_neg hreq, if_pos fun h => hreq h.symm]

/-- Customer 1 asks for its own contract, and for customer 1 in another
spelling that the pattern would read. -/
theorem own_contract_only_first :
    contract (.ofRows [{ agentAccount with parentType := some "Customer" }])
        (.ofRows [Customer.new]) ⟨some 1, none⟩ (some "SHW100001")
      = .loaded { Customer.new with id := 1 } ∧
    contract (.ofRows [{ agentAccount with parentType := some "Customer" }])
        (.ofRows [Customer.new]) ⟨some 1, none⟩ (some "shw101")
      = .redirected "/admin/customers/edit/1" := by
  have ha : sessionAccount (.ofRows [{ agentAccount with parentType := some "Customer" }])
      ⟨some 1, none⟩ = some { agentAccount with parentType := some "Customer" } := rfl
  have hc : (Table.ofRows [Customer.new]).find? 1 = some { Customer.new with id := 1 } := rfl
  have h := own_contract_only ha rfl rfl hc
  refine ⟨(h (some "SHW100001")).trans ?_, (h (some "shw101")).trans ?_⟩
  · rw [if_pos (by decide +kernel)]
  · rw [if_neg (by decide +kernel)]
    decide +kernel

end HomeWarranty.Admin
