/-
HomeWarranty.Quotes.Coverages — the optional coverages of a customer and
the price that rests on them.

`Customer#coverages=` writes the keys of the chosen coverages to one text
column, joined by a comma and a blank. Four places read it:
`Customer#coverages`, `has_coverage?`, the flags of
`async_get_page_data`, and `list_price` through the first of them. Keys
are decimal numerals, so no key holds a comma and each reader gets the
keys back as they were written (`splitAddon_coveragesAssign`).

`coverages_round_trip` says what each reader returns. The flags are made
for the optional coverages only, so a chosen coverage that is not
optional has none.

The column is taken to hold the whole text.
-/
import HomeWarranty.Lib.Table
import HomeWarranty.Ruby.Delimited

namespace HomeWarranty.Quotes

open Lib Ruby

/-! ## Coverages and packages -/

structure Coverage where
  id : Nat
  coverageName : Option String
  optional : Option Int
  price : Option ℚ
  deriving DecidableEq

instance : Record Coverage where
  key := Coverage.id
  withKey n c := { c with id := n }
  key_withKey := fun _ _ => rfl

structure Package where
  singlePrice : Option ℚ
  condoPrice : Option ℚ
  duplexPrice : Option ℚ
  triplexPrice : Option ℚ
  fourplexPrice : Option ℚ

/-- `package.send("#{home_type}_price")`. -/
def Package.price (p : Package) (homeType : String) : Except RubyError (Option ℚ) :=
  match homeType with
  | "single" => .ok p.singlePrice
  | "condo" => .ok p.condoPrice
  | "duplex" => .ok p.duplexPrice
  | "triplex" => .ok p.triplexPrice
  | "fourplex" => .ok p.fourplexPrice
  | _ => .error .noMethodError

/-- The columns of a customer that make its price. -/
structure Policy where
  coverageAddon : Option String
  homeType : Option String
  package : Option Package

/-! ## The selection -/

/-- `coverages=`; the hash is in its order. -/
def Policy.coveragesAssign (c : Policy) (hash : List (String × Option String)) : Policy :=
  { c with
    coverageAddon := some (String.ofList (join ", ".toList
      (hash.filterMap fun kv => if kv.2 = some "false" then none else some kv.1.toList))) }

/-- `coverage_addon.split(', ')`, of a column that is not NULL. -/
def splitAddon (addon : String) : List String := (split ", ".toList addon.toList).map String.ofList

/-- `Coverage.find_by_id`: the text is cast to an integer. -/
def findById (t : Table Coverage) (id : String) : Option Coverage :=
  t.firstWhere fun c => decide ((c.id : Int) = toI id)

/-- `Customer#coverages`. -/
def Policy.coverages (c : Policy) (t : Table Coverage) : List Coverage :=
  match c.coverageAddon with
  | none => []
  | some addon => if addon.isEmpty then [] else (splitAddon addon).filterMap (findById t)

/-- `has_coverage?`. -/
def Policy.hasCoverage (c : Policy) (coverage : Coverage) : Bool :=
  match c.coverageAddon with
  | none => false
  | some addon => (splitAddon addon).contains (toString coverage.id)

/-- `Coverage.all_optional`. -/
def allOptional (t : Table Coverage) : List Coverage := t.rows.filter (·.optional == some 1)

/-- The flags in the answer of `async_get_page_data`. -/
def Policy.coverageFlags (c : Policy) (t : Table Coverage) : List (String × Bool) :=
  (allOptional t).map fun cvg =>
    ("coverage_" ++ toString cvg.id,
      (splitAddon (c.coverageAddon.getD "")).contains (toString cvg.id))

/-! ## The price -/

/-- `package_price`. -/
def Policy.packagePrice (c : Policy) : Except RubyError ℚ :=
  let homeType := if (c.homeType.getD "").isEmpty then "single" else c.homeType.getD ""
  match c.package with
  | none => .ok (49999 / 100)
  | some p => (p.price homeType).map fun price => price.getD (49999 / 100)

/-- `inject` with `+`: the first element is the start. -/
def addPrices : Option ℚ → List (Option ℚ) → Except RubyError (Option ℚ)
  | sum, [] => .ok sum
  | none, _ :: _ => .error .noMethodError
  | some _, none :: _ => .error .typeError
  | some a, some b :: ps => addPrices (some (a + b)) ps

/-- `Enumerable#sum` of ActiveSupport. -/
def sumPrices : List (Option ℚ) → Except RubyError ℚ
  | [] => .ok 0
  | p :: ps => (addPrices p ps).map fun sum => sum.getD 0

/-- `list_price`. The package price is never blank. -/
def Policy.listPrice (c : Policy) (t : Table Coverage) : Except RubyError ℚ := do
  let total ← c.packagePrice
  let addons ← sumPrices ((c.coverages t).map Coverage.price)
  return total + addons

/-! ## What was selected -/

/-- The keys of the hash that are not switched off, in its order. -/
def selectedKeys (hash : List (String × Option String)) : List String :=
  hash.filterMap fun kv => if kv.2 = some "false" then none else some kv.1

/-- The keys are decimal ids. -/
def Canonical (hash : List (String × Option String)) : Prop :=
  ∀ kv ∈ hash, ∃ n : Nat, kv.1 = toString n

/-- The coverage with a key. -/
def existing (t : Table Coverage) (key : String) : Option Coverage :=
  t.rows.find? fun c => toString c.id == key

theorem mem_selectedKeys {hash : List (String × Option String)} {k : String} :
    k ∈ selectedKeys hash ↔ ∃ v, (k, v) ∈ hash ∧ v ≠ some "false" := by
  simp only [selectedKeys, List.mem_filterMap]
  constructor
  · rintro ⟨⟨key, v⟩, hmem, hsel⟩
    by_cases hv : v = some "false"
    · simp [hv] at hsel
    · simp only [hv, if_false, Option.some.injEq] at hsel
      exact ⟨v, hsel ▸ hmem, hv⟩
  · rintro ⟨v, hmem, hv⟩
    exact ⟨(k, v), hmem, by simp [hv]⟩

theorem canonical_selectedKeys {hash : List (String × Option String)} (h : Canonical hash) :
    ∀ k ∈ selectedKeys hash, ∃ n : Nat, k = toString n := by
  intro k hk
  obtain ⟨v, hmem, _⟩ := mem_selectedKeys.mp hk
  exact h (k, v) hmem

theorem toList_selectedKeys (hash : List (String × Option String)) :
    (hash.filterMap fun kv => if kv.2 = some "false" then none else some kv.1.toList) =
      (selectedKeys hash).map String.toList := by
  rw [selectedKeys, List.map_filterMap]
  congr 1
  funext kv
  split <;> rfl

/-- A numeral is not empty and has no comma. -/
theorem toString_piece (n : Nat) : (toString n).toList ≠ [] ∧ ',' ∉ (toString n).toList := by
  refine ⟨?_, comma_notMem_idText (some n)⟩
  rw [toList_toString]
  exact Nat.toDigits_ne_nil

/-- The readers get the keys back that were written. -/
theorem splitAddon_coveragesAssign {hash : List (String × Option String)} (h : Canonical hash) :
    splitAddon (String.ofList (join ", ".toList ((selectedKeys hash).map String.toList))) =
      selectedKeys hash := by
  have hpieces : ∀ p ∈ (selectedKeys hash).map String.toList, p ≠ [] ∧ ',' ∉ p := by
    intro p hp
    obtain ⟨k, hk, rfl⟩ := List.mem_map.mp hp
    obtain ⟨n, rfl⟩ := canonical_selectedKeys h k hk
    exact toString_piece n
  have hsplit := @split_join ',' [' '] _ hpieces
  have hsep : ", ".toList = ',' :: [' '] := rfl
  rw [splitAddon, hsep, String.toList_ofList, hsplit, List.map_map]
  simp

theorem addon_coveragesAssign {hash : List (String × Option String)} (h : Canonical hash)
    (c : Policy) :
    ∃ addon, (c.coveragesAssign hash).coverageAddon = some addon ∧
      splitAddon addon = selectedKeys hash ∧ (addon.isEmpty → selectedKeys hash = []) := by
  refine ⟨_, rfl, ?_⟩
  rw [toList_selectedKeys]
  have hsplit := splitAddon_coveragesAssign h
  refine ⟨hsplit, fun hempty => ?_⟩
  rw [← hsplit, String.isEmpty_iff.mp hempty]
  decide

theorem toString_inj {m n : Nat} : toString m = toString n ↔ m = n := by
  constructor
  · intro heq
    have hread := congrArg toI heq
    rw [toI_toString, toI_toString] at hread
    exact_mod_cast hread
  · rintro rfl
    rfl

/-- An id is found under its own numeral and under no other. -/
theorem findById_eq_existing {t : Table Coverage} {k : String} (hk : ∃ n : Nat, k = toString n) :
    findById t k = existing t k := by
  obtain ⟨n, rfl⟩ := hk
  unfold findById existing Table.firstWhere
  congr 1
  funext c
  rw [toI_toString, beq_eq_decide]
  exact decide_eq_decide.mpr (by rw [toString_inj]; exact Int.ofNat_inj)

/-! ## The flags -/

theorem flagKey_inj {m n : Nat} :
    "coverage_" ++ toString m = "coverage_" ++ toString n ↔ m = n := by
  constructor
  · intro heq
    have hlist := congrArg String.toList heq
    rw [String.toList_append, String.toList_append] at hlist
    exact toString_inj.mp (String.toList_inj.mp (List.append_cancel_left hlist))
  · rintro rfl
    rfl

/-- A flag is read under the id of its coverage. -/
theorem lookup_flags (l : List Coverage) (flag : Coverage → Bool) (id : Nat) :
    (l.map fun c => ("coverage_" ++ toString c.id, flag c)).lookup ("coverage_" ++ toString id) =
      (l.find? fun c => c.id == id).map flag := by
  induction l with
  | nil => rfl
  | cons c l ih =>
      by_cases hc : c.id = id
      · rw [List.map_cons, hc, List.lookup_cons_self, List.find?_cons_of_pos (by simpa using hc)]
        rfl
      · have hne : ("coverage_" ++ toString id == "coverage_" ++ toString c.id) = false := by
          rw [beq_eq_false_iff_ne, Ne, flagKey_inj]
          exact fun heq => hc heq.symm
        rw [List.map_cons, List.lookup_cons, hne, List.find?_cons_of_neg (by simpa using hc)]
        exact ih

/-- The coverage with an id is among the optional ones when it is
optional. -/
theorem find?_allOptional {t : Table Coverage} {cvg : Coverage} (hc : cvg ∈ t.rows) :
    (allOptional t).find? (fun c => c.id == cvg.id) =
      if cvg.optional = some 1 then some cvg else none := by
  have honly : ∀ c ∈ t.rows, c.id = cvg.id → c = cvg :=
    fun c hmem hid => t.eq_of_key_eq hmem hc hid
  by_cases hopt : cvg.optional = some 1
  · rw [if_pos hopt]
    have hmem : cvg ∈ allOptional t := List.mem_filter.mpr ⟨hc, by simpa using hopt⟩
    cases hf : (allOptional t).find? (fun c => c.id == cvg.id) with
    | none => exact absurd (List.find?_eq_none.mp hf cvg hmem) (by simp)
    | some c =>
        have hid : c.id = cvg.id := by simpa using List.find?_some hf
        rw [honly c (List.mem_filter.mp (List.mem_of_find?_eq_some hf)).1 hid]
  · rw [if_neg hopt, List.find?_eq_none]
    intro c hmem hid
    obtain ⟨hrow, hcopt⟩ := List.mem_filter.mp hmem
    rw [honly c hrow (by simpa using hid)] at hcopt
    exact hopt (by simpa using hcopt)

/-! ## The sum -/

theorem addPrices_some (a : ℚ) (ps : List ℚ) :
    addPrices (some a) (ps.map some) = .ok (some (a + ps.sum)) := by
  induction ps generalizing a with
  | nil => simp [addPrices]
  | cons p ps ih => simp [addPrices, ih, add_assoc]

/-- Prices that are all there are added up. -/
theorem sumPrices_some (ps : List ℚ) : sumPrices (ps.map some) = .ok ps.sum := by
  cases ps with
  | nil => rfl
  | cons p ps => simp [sumPrices, addPrices_some, Except.map]

/-- After `coverages=` the coverages are the existing ones that were
selected, in the order of the hash; `has_coverage?` holds of those; so
does the flag of an optional coverage, and another has no flag; and the
list price is the package price and the prices of the coverages. -/
theorem coverages_round_trip (t : Table Coverage) (c : Policy)
    (hash : List (String × Option String)) (h : Canonical hash) :
    (c.coveragesAssign hash).coverages t = (selectedKeys hash).filterMap (existing t) ∧
    (∀ cvg ∈ t.rows, (c.coveragesAssign hash).hasCoverage cvg = true ↔
      toString cvg.id ∈ selectedKeys hash) ∧
    (∀ cvg ∈ t.rows,
      ((c.coveragesAssign hash).coverageFlags t).lookup ("coverage_" ++ toString cvg.id) =
        if cvg.optional = some 1 then some (decide (toString cvg.id ∈ selectedKeys hash))
        else none) ∧
    (∀ prices : List ℚ,
      ((selectedKeys hash).filterMap (existing t)).map Coverage.price = prices.map some →
      (c.coveragesAssign hash).listPrice t = c.packagePrice.map (· + prices.sum)) := by
  obtain ⟨addon, haddon, hsplit, hempty⟩ := addon_coveragesAssign h c
  have hfound : (c.coveragesAssign hash).coverages t =
      (selectedKeys hash).filterMap (existing t) := by
    simp only [Policy.coverages, haddon]
    split
    · rename_i hnone
      rw [hempty hnone]
      rfl
    · rw [hsplit]
      apply List.filterMap_congr
      intro k hk
      exact findById_eq_existing (canonical_selectedKeys h k hk)
  refine ⟨hfound, ?_, ?_, ?_⟩
  · intro cvg _
    simp only [Policy.hasCoverage, haddon, hsplit, List.contains_iff_mem]
  · intro cvg hcvg
    rw [Policy.coverageFlags, haddon, Option.getD_some, hsplit, lookup_flags,
      find?_allOptional hcvg]
    split
    · rw [Option.map_some, List.contains_eq_mem]
    · rfl
  · intro prices hprices
    have hpackage : (c.coveragesAssign hash).packagePrice = c.packagePrice := rfl
    rw [Policy.listPrice, hpackage, hfound, hprices, sumPrices_some]
    cases c.packagePrice with
    | error e => rfl
    | ok p => rfl

/-- Two optional coverages and one of the packages. -/
def sampleCoverages : Table Coverage where
  rows := [⟨1, some "Roof", some 1, some 60⟩, ⟨2, some "Plumbing", some 0, some 0⟩,
    ⟨12, some "Pool", some 1, some 180⟩]
  nextKey := 13
  increasing := by decide
  fresh := by decide

def samplePolicy : Policy where
  coverageAddon := none
  homeType := some "condo"
  package := some ⟨some 400, some 380, none, none, none⟩

/-- A coverage of the packages that is selected has no flag. -/
theorem coverage_flag_missing :
    Canonical [("2", some "on")] ∧ ∃ cvg ∈ sampleCoverages.rows,
      toString cvg.id ∈ selectedKeys [("2", some "on")] ∧
      ((samplePolicy.coveragesAssign [("2", some "on")]).coverageFlags sampleCoverages).lookup
        ("coverage_" ++ toString cvg.id) ≠ some true := by
  refine ⟨?_, ⟨2, some "Plumbing", some 0, some 0⟩, by decide, by decide, by decide +kernel⟩
  intro kv hkv
  rw [List.mem_singleton.mp hkv]
  exact ⟨2, rfl⟩

/-- The pool is selected, the roof is switched off. -/
theorem coverages_round_trip_pool :
    Canonical [("12", some "true"), ("1", some "false")] ∧
    (samplePolicy.coveragesAssign [("12", some "true"), ("1", some "false")]).listPrice
      sampleCoverages = .ok 560 := by
  have h : Canonical [("12", some "true"), ("1", some "false")] := by
    intro kv hkv
    rcases List.mem_pair.mp hkv with rfl | rfl
    · exact ⟨12, rfl⟩
    · exact ⟨1, rfl⟩
  refine ⟨h, ?_⟩
  rw [(coverages_round_trip sampleCoverages samplePolicy _ h).2.2.2 [180] (by decide +kernel)]
  decide +kernel

end HomeWarranty.Quotes
