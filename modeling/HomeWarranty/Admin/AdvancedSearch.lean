/-
HomeWarranty.Admin.AdvancedSearch — the text that an advanced search
evaluates.

The form of the office sends rows of an operator, a parameter and a
value. `assemble_search_string` writes a call of a scope for each row
with a value, and the two actions evaluate the text with `count` or
`to_a` at its end. The values go between double quotes as they were
posted.

`readChain` reads such a text back. A text that is not a chain of calls
with one literal each is another program, or none. The chain that is
meant comes back exactly where every value is `Quotable`
(`search_reads_back_iff`): a quote ends the literal, a backslash starts
an escape, `#` with a brace or a variable starts code, and a line end of
two characters is read as one.
-/
import Mathlib.Data.List.Sort
import HomeWarranty.Ruby.Literal

namespace HomeWarranty.Admin

open Lib Ruby

/-! ## The form -/

/-- The operators, shown as "is" and "is not". -/
inductive SearchOp where
  | is
  | isNot
  deriving DecidableEq

/-- The parameters that the form offers. -/
inductive SearchParam where
  | firstName
  | lastName
  | phone
  | email
  | street
  | city
  | state
  | zipCode
  | statusId
  | agentId
  deriving DecidableEq

def SearchOp.text : SearchOp → String
  | .is => "with"
  | .isNot => "without"

def SearchParam.text : SearchParam → String
  | .firstName => "first_name"
  | .lastName => "last_name"
  | .phone => "phone"
  | .email => "email"
  | .street => "street"
  | .city => "city"
  | .state => "state"
  | .zipCode => "zip_code"
  | .statusId => "status_id"
  | .agentId => "agent_id"

structure SearchTerm where
  op : SearchOp
  param : SearchParam
  value : String
  deriving DecidableEq

/-- `params[:query]`. -/
structure SearchQuery where
  terms : List (String × SearchTerm)
  nodup : (terms.map Prod.fst).Nodup

/-- `params[:query].sort`. -/
def SearchQuery.sort (q : SearchQuery) : List (String × SearchTerm) :=
  q.terms.insertionSort fun a b => a.1 ≤ b.1

def SearchTerm.scope (t : SearchTerm) : List Char :=
  t.op.text.toList ++ '_' :: t.param.text.toList

/-- The text of one call. -/
def SearchTerm.text (t : SearchTerm) : List Char :=
  t.scope ++ '(' :: '"' :: (t.value.toList ++ '"' :: ')' :: ['.'])

/-- `assemble_search_string`. -/
def assembleSearchString (q : SearchQuery) : List Char :=
  q.sort.foldl (fun search e => if e.2.value = "" then search else search ++ e.2.text)
    "Customer.".toList

/-- The two actions, with what they put at the end. -/
inductive SearchAction where
  | asyncAdvancedSearchCheck
  | advancedSearch
  deriving DecidableEq

def SearchAction.text : SearchAction → List Char
  | .asyncAdvancedSearchCheck => "count".toList
  | .advancedSearch => "to_a".toList

/-- What is evaluated. -/
def evaluated (q : SearchQuery) (a : SearchAction) : List Char := assembleSearchString q ++ a.text

/-! ## The reader -/

/-- A call with one literal: its text, and the bytes it stands for. -/
structure Call where
  name : List Char
  source : List Char
  value : List UInt8
  deriving DecidableEq

/-- Calls on `Customer`, and one without arguments at the end. -/
structure Chain where
  calls : List Call
  last : List Char
  deriving DecidableEq

def Chain.cons (c : Call) (ch : Chain) : Chain := { ch with calls := c :: ch.calls }

def readCalls : Nat → List Char → Option Chain
  | 0, _ => none
  | fuel + 1, cs =>
      let name := cs.takeWhile regexWord
      if name = [] then none
      else
        match cs.dropWhile regexWord with
        | [] => some ⟨[], name⟩
        | '(' :: '"' :: body =>
            match readBody 0 body with
            | some ⟨source, value, ')' :: '.' :: rest⟩ =>
                (readCalls fuel rest).map (.cons ⟨name, source, value⟩)
            | _ => none
        | _ => none

def readChain (cs : List Char) : Option Chain :=
  if "Customer.".toList.isPrefixOf (foldLines cs) then
    readCalls cs.length ((foldLines cs).drop "Customer.".toList.length)
  else none

/-! ## What is meant -/

def SearchTerm.call (t : SearchTerm) : Call where
  name := t.scope
  source := t.value.toList
  value := utf8 t.value.toList

/-- The rows with a value, in the order of the keys. -/
def SearchQuery.filled (q : SearchQuery) : List SearchTerm :=
  (q.sort.map Prod.snd).filter fun t => t.value ≠ ""

/-- One call for each row with a value. -/
def meantChain (q : SearchQuery) (a : SearchAction) : Chain where
  calls := q.filled.map SearchTerm.call
  last := a.text

/-! ## Reading the calls -/

theorem assembleSearchString_eq (q : SearchQuery) :
    assembleSearchString q = "Customer.".toList ++ q.filled.flatMap SearchTerm.text := by
  have hfold : ∀ (l : List (String × SearchTerm)) (search : List Char),
      l.foldl (fun search e => if e.2.value = "" then search else search ++ e.2.text) search
        = search ++ ((l.map Prod.snd).filter fun t => t.value ≠ "").flatMap SearchTerm.text := by
    intro l
    induction l with
    | nil => exact fun search => (List.append_nil search).symm
    | cons e l ih =>
        intro search
        rw [List.foldl_cons, ih, List.map_cons]
        by_cases he : e.2.value = ""
        · rw [if_pos he, List.filter_cons_of_neg (by simpa using he)]
        · rw [if_neg he, List.filter_cons_of_pos (by simpa using he), List.flatMap_cons,
            List.append_assoc]
  exact hfold q.sort _

theorem scope_ne_nil (t : SearchTerm) : t.scope ≠ [] := by simp [SearchTerm.scope]

theorem regexWord_of_mem_scope {t : SearchTerm} {c : Char} (h : c ∈ t.scope) :
    regexWord c = true := by
  have hop : t.op.text.toList.all regexWord = true := by cases t.op <;> rfl
  have hparam : t.param.text.toList.all regexWord = true := by cases t.param <;> rfl
  rw [SearchTerm.scope, List.mem_append, List.mem_cons] at h
  rcases h with h | rfl | h
  · exact List.all_eq_true.mp hop c h
  · rfl
  · exact List.all_eq_true.mp hparam c h

theorem foldLines_text (t : SearchTerm) (rest : List Char) :
    foldLines (t.text ++ rest) = t.scope ++ '(' :: '"' ::
      (foldLines t.value.toList ++ '"' :: ')' :: '.' :: foldLines rest) := by
  have hassoc : t.text ++ rest = t.scope ++ '(' :: '"' ::
      (t.value.toList ++ '"' :: ')' :: '.' :: rest) := by
    simp [SearchTerm.text]
  have hscope : '\r' ∉ t.scope := fun h => absurd (regexWord_of_mem_scope h) (by decide)
  rw [hassoc, foldLines_append_of_not_mem hscope, foldLines_cons (by decide),
    foldLines_cons (by decide), foldLines_append _ (by simp), foldLines_cons (by decide),
    foldLines_cons (by decide), foldLines_cons (by decide)]

/-- A call is read up to the body of its literal. -/
theorem readCalls_scope (t : SearchTerm) (fuel : Nat) (body : List Char) :
    readCalls (fuel + 1) (t.scope ++ '(' :: '"' :: body) =
      match readBody 0 body with
      | some ⟨source, value, ')' :: '.' :: rest⟩ =>
          (readCalls fuel rest).map (.cons ⟨t.scope, source, value⟩)
      | _ => none := by
  have hword : ∀ c ∈ t.scope, regexWord c = true := fun c => regexWord_of_mem_scope
  have htake : (t.scope ++ '(' :: '"' :: body).takeWhile regexWord = t.scope := by
    rw [List.takeWhile_append_of_pos hword]
    simp [regexWord]
  have hdrop : (t.scope ++ '(' :: '"' :: body).dropWhile regexWord = '(' :: '"' :: body := by
    rw [List.dropWhile_append_of_pos hword]
    rfl
  simp only [readCalls, htake, hdrop, scope_ne_nil, if_false]

theorem readCalls_filled_iff (a : SearchAction) (l : List SearchTerm) {fuel : Nat}
    (hfuel : l.length < fuel) :
    readCalls fuel (foldLines (l.flatMap SearchTerm.text ++ a.text))
        = some ⟨l.map SearchTerm.call, a.text⟩ ↔
      ∀ t ∈ l, Quotable t.value.toList := by
  induction l generalizing fuel with
  | nil =>
      obtain ⟨fuel, rfl⟩ := Nat.exists_eq_add_of_lt hfuel
      refine iff_of_true ?_ (by simp)
      cases a <;> rfl
  | cons t l ih =>
      obtain ⟨fuel, rfl⟩ := Nat.exists_eq_succ_of_ne_zero (Nat.ne_zero_of_lt hfuel)
      have ih := ih (Nat.lt_of_succ_lt_succ hfuel)
      rw [List.flatMap_cons, List.append_assoc, foldLines_text, readCalls_scope,
        List.forall_mem_cons, ← ih]
      constructor
      · intro h
        split at h
        · rename_i source value rest hread
          obtain ⟨ch, hch, heq⟩ := Option.map_eq_some_iff.mp h
          simp only [Chain.cons, SearchTerm.call, List.map_cons, Chain.mk.injEq, List.cons.injEq,
            Call.mk.injEq, true_and] at heq
          obtain ⟨⟨⟨rfl, rfl⟩, hcalls⟩, hlast⟩ := heq
          obtain ⟨hquotable, hrest⟩ := (readBody_foldLines_iff _ _ _).mp hread
          rw [List.cons.injEq, List.cons.injEq] at hrest
          refine ⟨hquotable, ?_⟩
          rw [← hrest.2.2, hch, ← hlast, ← hcalls]
        · cases h
      · rintro ⟨hquotable, hrest⟩
        rw [(readBody_foldLines_iff _ _ _).mpr ⟨hquotable, rfl⟩]
        simp only [hrest]
        rfl

theorem mem_filled {q : SearchQuery} {t : SearchTerm} :
    t ∈ q.filled ↔ (∃ e ∈ q.terms, e.2 = t) ∧ t.value ≠ "" := by
  rw [SearchQuery.filled, List.mem_filter, List.mem_map, SearchQuery.sort]
  simp only [List.mem_insertionSort, decide_eq_true_eq]

/-- **The text is the chain that is meant** exactly where every value that
is used can be put between quotes. -/
theorem search_reads_back_iff (q : SearchQuery) (a : SearchAction) :
    readChain (evaluated q a) = some (meantChain q a) ↔
      ∀ e ∈ q.terms, e.2.value ≠ "" → Quotable e.2.value.toList := by
  have hfold : foldLines (evaluated q a)
      = "Customer.".toList ++ foldLines (q.filled.flatMap SearchTerm.text ++ a.text) := by
    rw [evaluated, assembleSearchString_eq, List.append_assoc,
      foldLines_append_of_not_mem (by decide)]
  have hfuel : q.filled.length < (evaluated q a).length := by
    have htexts : q.filled.length ≤ (q.filled.flatMap SearchTerm.text).length := by
      rw [List.length_flatMap, ← List.length_map (fun t : SearchTerm => t.text.length)]
      refine List.length_le_sum_of_one_le _ fun n hn => ?_
      obtain ⟨t, -, rfl⟩ := List.mem_map.mp hn
      simp only [SearchTerm.text, List.length_append, List.length_cons]
      omega
    rw [evaluated, assembleSearchString_eq, List.length_append, List.length_append]
    have : "Customer.".toList.length = 9 := rfl
    omega
  unfold readChain
  rw [hfold, if_pos (List.isPrefixOf_iff_prefix.mpr (List.prefix_append _ _)), List.drop_left,
    meantChain, readCalls_filled_iff a q.filled hfuel]
  constructor
  · intro h e he hne
    exact h e.2 (mem_filled.mpr ⟨⟨e, he, rfl⟩, hne⟩)
  · intro h t ht
    obtain ⟨⟨e, he, rfl⟩, hne⟩ := mem_filled.mp ht
    exact h e he hne

/-- A first name alone. -/
def firstNameQuery (value : String) : SearchQuery where
  terms := [("0", ⟨.is, .firstName, value⟩)]
  nodup := List.nodup_singleton _

/-- A first name that adds a call, and one with code in it. -/
theorem first_name_is_not_data :
    readChain (evaluated (firstNameQuery "a\").without_last_name(\"b") .advancedSearch)
      = some ⟨[⟨"with_first_name".toList, ['a'], [97]⟩, ⟨"without_last_name".toList, ['b'], [98]⟩],
          "to_a".toList⟩ ∧
    readChain (evaluated (firstNameQuery "a\").without_last_name(\"b") .advancedSearch)
      ≠ some (meantChain (firstNameQuery "a\").without_last_name(\"b") .advancedSearch) ∧
    readChain (evaluated (firstNameQuery "#\x7bexit\x7d") .advancedSearch)
      ≠ some (meantChain (firstNameQuery "#\x7bexit\x7d") .advancedSearch) := by
  refine ⟨by decide +kernel, by decide +kernel, by decide +kernel⟩

end HomeWarranty.Admin
