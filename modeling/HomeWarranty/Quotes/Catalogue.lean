/-
HomeWarranty.Quotes.Catalogue — the settings page edits the coverages,
and contracts that were sold before go on being printed and priced.

`update_coverages` finds each posted coverage, writes its attributes,
sets a missing price to zero and destroys it when it is ticked. It stops
with an exception at a coverage that is not there or a price that its
column refuses, and keeps what it wrote so far. Between the two writes of
one coverage its price can be NULL; it is a number again after both. A
name that is posted as nil is stored as NULL and stays so.

A customer keeps the ids of his coverages as text. Ids are not given out
twice, so edits can only take coverages away from him, and give others
their names and prices (`selections_shrink`). His list price can still be
computed (`quotes_stay_readable`) and, unless a name was posted as nil,
the three tables of his contract be printed
(`contracts_stay_printable`).
-/
import HomeWarranty.Lib.Run
import HomeWarranty.Lib.Raise
import HomeWarranty.Lib.Chunks
import HomeWarranty.Quotes.Coverages
import HomeWarranty.Records

namespace HomeWarranty.Quotes

open Lib Ruby

/-! ## The settings page -/

/-- The fields of a coverage that are posted. A key may be missing, and
its value may be `nil`. -/
structure CoverageForm where
  coverageName : Option (Option String)
  optional : Option (Option String)
  price : Option (Option String)
  shouldBeDeleted : Option (Option String)

/-- What the column keeps of a posted price; `none` when it refuses it. -/
def CoverageForm.keptPrice [Numbers] (form : CoverageForm) : Option (Option (Option ℚ)) :=
  form.price.mapM fun price => storeFloat (castFloat price)

/-- The row with the attributes that are accessible, as their columns
keep them; `should_be_deleted` is not. -/
def CoverageForm.assign (form : CoverageForm) (price : Option (Option ℚ)) (v : Coverage) :
    Coverage :=
  { v with
    coverageName := (form.coverageName.map (Option.map textColumn)).getD v.coverageName
    optional := (form.optional.map integerColumn).getD v.optional
    price := price.getD v.price }

def Coverage.free (v : Coverage) : Coverage := { v with price := some 0 }

/-- One round of `update_coverages`. -/
def updateCoverage [Numbers] (id : String) (form : CoverageForm) :
    Raising (Table Coverage) RubyError PUnit := do
  let t ← get
  match findRecord t (some id), form.keptPrice with
  | .error e, _ => throw e
  | .ok _, none => throw .externalError
  | .ok v, some price =>
      modify fun t => t.update v.id (form.assign price) fun _ => rfl
      if presentOpt form.price.join then pure ⟨⟩
      else modify fun t => t.update v.id Coverage.free fun _ => rfl
      -- the second `destroy` asks the attribute, which was not assigned
      if form.shouldBeDeleted = some (some "true") then modify fun t => t.delete v.id
      else pure ⟨⟩

/-- `update_coverages`. -/
def updateCoverages [Numbers] (entries : List (String × CoverageForm)) :
    Raising (Table Coverage) RubyError PUnit :=
  forM entries fun entry => updateCoverage entry.1 entry.2

/-- `create_coverage`. -/
def createCoverage [Numbers] (t : Table Coverage) (form : Option CoverageForm) : Table Coverage :=
  match form with
  | none => t
  | some form =>
      if presentOpt form.coverageName.join && presentOpt form.price.join then
        match form.keptPrice with
        | none => t
        | some price => t.insert (form.assign price ⟨0, none, some 0, none⟩)
      else t

inductive CatalogueRequest where
  | updateCoverages (entries : List (String × CoverageForm))
  | createCoverage (form : Option CoverageForm)

def catalogueStep [Numbers] (t : Table Coverage) : CatalogueRequest → Table Coverage
  | .updateCoverages entries => (exec (updateCoverages entries) t).2
  | .createCoverage form => createCoverage t form

/-! ## The contract -/

/-- `collect(&:coverage_name).collect(&:upcase)`. -/
def upcasedNames (l : List Coverage) : Except RubyError (List String) :=
  l.mapM fun v =>
    match v.coverageName with
    | none => .error .noMethodError
    | some name => .ok (upcase name)

/-- Three names to a row, or "None". -/
def coverageSets (l : List Coverage) : Except RubyError (List (List String)) :=
  (if l.isEmpty then .ok ["None"] else upcasedNames l).map (chunks 3)

/-- The coverages that can still be bought: `-` compares ids. -/
def Policy.purchaseable (c : Policy) (t : Table Coverage) : List Coverage :=
  (allOptional t).filter fun v => !(c.coverages t).any fun chosen => chosen.id == v.id

structure ContractTables where
  package : List (List String)
  optional : List (List String)
  purchaseable : List (List String)
  deriving DecidableEq

/-- The tables of `save_contract_pdffile`; `covers` is the join table of
the customer's package. -/
def contractTables (covers : Nat → Bool) (t : Table Coverage) (c : Policy) :
    Except RubyError ContractTables :=
  match c.package with
  | none => .error .noMethodError
  | some _ => do
      let package ← coverageSets (t.rows.filter fun v => covers v.id)
      let optional ← coverageSets (c.coverages t)
      let purchaseable ← coverageSets (c.purchaseable t)
      return ⟨package, optional, purchaseable⟩

/-! ## What one edit keeps -/

/-- A coverage that has its name and its price. -/
structure Coverage.Complete (v : Coverage) : Prop where
  name : v.coverageName ≠ none
  price : v.price ≠ none

def CompleteCatalogue (t : Table Coverage) : Prop := ∀ v ∈ t.rows, v.Complete

/-- The ids that were given out when the table was `t₀` name no other
coverage now. -/
structure Aged (t₀ t : Table Coverage) : Prop where
  nextKey : t₀.nextKey ≤ t.nextKey
  old : ∀ k < t₀.nextKey, (t.find? k).isSome = true → (t₀.find? k).isSome = true

/-- The table after a round that writes. -/
def edited (t : Table Coverage) (k : Nat) (form : CoverageForm) (price : Option (Option ℚ)) :
    Table Coverage :=
  let t := t.update k (form.assign price) fun _ => rfl
  let t := if presentOpt form.price.join then t else t.update k Coverage.free fun _ => rfl
  if form.shouldBeDeleted = some (some "true") then t.delete k else t

theorem exec_updateCoverage [Numbers] (id : String) (form : CoverageForm) (t : Table Coverage) :
    exec (updateCoverage id form) t = match findRecord t (some id), form.keptPrice with
      | .error e, _ => (.error e, t)
      | .ok _, none => (.error .externalError, t)
      | .ok v, some price => (.ok ⟨⟩, edited t v.id form price) := by
  unfold updateCoverage
  rw [exec_get_bind]
  cases findRecord t (some id) with
  | error e => rfl
  | ok v =>
      cases form.keptPrice with
      | none => rfl
      | some price =>
          unfold edited
          simp only [exec_modify_bind]
          cases presentOpt form.price.join <;>
            by_cases hdelete : form.shouldBeDeleted = some (some "true") <;>
            simp [hdelete, exec_bind]

section
variable {t₀ t : Table Coverage}

/-- What a round leaves of one row. -/
def CoverageForm.written (form : CoverageForm) (price : Option (Option ℚ)) (v : Coverage) :
    Coverage :=
  if presentOpt form.price.join then form.assign price v else (form.assign price v).free

/-- A round writes its own row and no other. -/
theorem mem_edited {k : Nat} {form : CoverageForm} {price : Option (Option ℚ)} {v : Coverage}
    (hv : v ∈ (edited t k form price).rows) :
    v ∈ t.rows ∨ ∃ old ∈ t.rows, v = form.written price old := by
  have hwritten : ∀ w ∈ (if presentOpt form.price.join then
        t.update k (form.assign price) fun _ => rfl
      else (t.update k (form.assign price) fun _ => rfl).update k Coverage.free
        fun _ => rfl).rows,
      w ∈ t.rows ∨ ∃ old ∈ t.rows, w = form.written price old := by
    intro w hw
    unfold CoverageForm.written
    split_ifs at hw ⊢ with hprice
    · obtain ⟨old, hold, ⟨-, rfl⟩ | ⟨-, rfl⟩⟩ := Table.mem_update.mp hw
      · exact .inr ⟨old, hold, rfl⟩
      · exact .inl hold
    · obtain ⟨mid, hmid, ⟨hkey, rfl⟩ | ⟨hkey, rfl⟩⟩ := Table.mem_update.mp hw
      · obtain ⟨old, hold, ⟨-, rfl⟩ | ⟨hne, rfl⟩⟩ := Table.mem_update.mp hmid
        · exact .inr ⟨old, hold, rfl⟩
        · exact absurd hkey hne
      · obtain ⟨old, hold, ⟨hold', rfl⟩ | ⟨-, rfl⟩⟩ := Table.mem_update.mp hmid
        · exact absurd hold' hkey
        · exact .inl hold
  unfold edited at hv
  simp only at hv
  split_ifs at hv hwritten with hdelete hprice hprice
  · exact hwritten v (Table.mem_delete.mp hv).1
  · exact hwritten v (Table.mem_delete.mp hv).1
  · exact hwritten v hv
  · exact hwritten v hv

theorem written_coverageName {form : CoverageForm} {price : Option (Option ℚ)} {v : Coverage}
    (h : form.coverageName ≠ some none) (hv : v.coverageName ≠ none) :
    (form.written price v).coverageName ≠ none := by
  have hassigned : (form.assign price v).coverageName ≠ none := by
    unfold CoverageForm.assign
    cases hname : form.coverageName with
    | none => exact hv
    | some posted =>
        cases posted with
        | none => exact absurd hname h
        | some name => exact Option.some_ne_none _
  unfold CoverageForm.written
  split_ifs
  · exact hassigned
  · exact hassigned

/-- A price that is there is kept as a number. -/
theorem keptPrice_of_present [Numbers] {form : CoverageForm} {price : Option (Option ℚ)}
    (h : presentOpt form.price.join = true) (hkept : form.keptPrice = some price) :
    ∃ x, price = some (some x) := by
  unfold CoverageForm.keptPrice at hkept
  cases hposted : form.price.join with
  | none =>
      rw [hposted] at h
      cases h
  | some s =>
      have hprice : form.price = some (some s) := Option.join_eq_some_iff.mp hposted
      have hblank : blank s = false := by simpa [hprice] using h
      cases hx : Numbers.float (Numbers.toF s) with
      | none => simp [hprice, castFloat, hblank, storeFloat, hx] at hkept
      | some x =>
          have hprice' : some (some x) = price := by
            simpa [hprice, castFloat, hblank, storeFloat, hx] using hkept
          exact ⟨x, hprice'.symm⟩

theorem written_price [Numbers] {form : CoverageForm} {price : Option (Option ℚ)}
    (hkept : form.keptPrice = some price) (v : Coverage) :
    (form.written price v).price ≠ none := by
  unfold CoverageForm.written
  split_ifs with hpresent
  · obtain ⟨x, rfl⟩ := keptPrice_of_present hpresent hkept
    exact Option.some_ne_none x
  · exact Option.some_ne_none 0

/-- Every coverage has a price. -/
def PricedCatalogue (t : Table Coverage) : Prop := ∀ v ∈ t.rows, v.price ≠ none

theorem priced_edited [Numbers] (h : PricedCatalogue t) (k : Nat) {form : CoverageForm}
    {price : Option (Option ℚ)} (hkept : form.keptPrice = some price) :
    PricedCatalogue (edited t k form price) := by
  intro v hv
  obtain hold | ⟨old, -, rfl⟩ := mem_edited hv
  · exact h v hold
  · exact written_price hkept old

theorem complete_edited [Numbers] (h : CompleteCatalogue t) (k : Nat) {form : CoverageForm}
    {price : Option (Option ℚ)} (hname : form.coverageName ≠ some none)
    (hkept : form.keptPrice = some price) : CompleteCatalogue (edited t k form price) := by
  intro v hv
  obtain hold | ⟨old, hmem, rfl⟩ := mem_edited hv
  · exact h v hold
  · exact ⟨written_coverageName hname (h old hmem).name, written_price hkept old⟩

theorem Aged.refl (t : Table Coverage) : Aged t t := ⟨le_refl _, fun _ _ h => h⟩

theorem Aged.update (h : Aged t₀ t) (k : Nat) {f : Coverage → Coverage}
    (hf : ∀ v, Record.key (f v) = Record.key v) : Aged t₀ (t.update k f hf) where
  nextKey := h.nextKey
  old := by
    intro j hj hfind
    rw [Table.find?_update] at hfind
    refine h.old j hj ?_
    split at hfind
    · rwa [Option.isSome_map] at hfind
    · exact hfind

theorem Aged.delete (h : Aged t₀ t) (k : Nat) : Aged t₀ (t.delete k) where
  nextKey := h.nextKey
  old := by
    intro j hj hfind
    by_cases hjk : j = k
    · rw [hjk, Table.find?_delete_self] at hfind
      cases hfind
    · rw [Table.find?_delete_ne t hjk] at hfind
      exact h.old j hj hfind

theorem Aged.insert (h : Aged t₀ t) (v : Coverage) : Aged t₀ (t.insert v) where
  nextKey := Nat.le_succ_of_le h.nextKey
  old := by
    intro j hj hfind
    rw [Table.find?_insert, if_neg (Nat.ne_of_lt (Nat.lt_of_lt_of_le hj h.nextKey))] at hfind
    exact h.old j hj hfind

theorem Aged.edited (h : Aged t₀ t) (k : Nat) (form : CoverageForm)
    (price : Option (Option ℚ)) : Aged t₀ (edited t k form price) := by
  unfold Quotes.edited
  have hassigned := h.update k (f := form.assign price) fun _ => rfl
  split_ifs
  · exact hassigned.delete k
  · exact hassigned
  · exact (hassigned.update k (f := Coverage.free) fun _ => rfl).delete k
  · exact hassigned.update k (f := Coverage.free) fun _ => rfl

end

/-! ## Runs -/

/-- No name is posted as nil. -/
def CatalogueRequest.NamesGiven : CatalogueRequest → Prop
  | .updateCoverages entries => ∀ entry ∈ entries, entry.2.coverageName ≠ some none
  | .createCoverage _ => True

section
variable [Numbers]

/-- What every edit of one coverage keeps, `update_coverages` keeps. -/
theorem keeps_updateCoverages {I : Table Coverage → Prop} (entries : List (String × CoverageForm))
    (h : ∀ entry ∈ entries, ∀ t k price, entry.2.keptPrice = some price → I t →
      I (edited t k entry.2 price)) :
    Keeps I (updateCoverages entries) := by
  refine Keeps.forM entries fun entry hentry t ht => ?_
  rw [exec_updateCoverage]
  split
  · exact ht
  · exact ht
  · rename_i v price _ hkept
    exact h entry hentry t v.id price hkept ht

/-- What `create_coverage` does. -/
theorem createCoverage_cases (t : Table Coverage) (form : Option CoverageForm) :
    createCoverage t form = t ∨ ∃ posted price, presentOpt posted.coverageName.join = true ∧
      presentOpt posted.price.join = true ∧ CoverageForm.keptPrice posted = some price ∧
      createCoverage t form = t.insert (posted.assign price ⟨0, none, some 0, none⟩) := by
  cases form with
  | none => exact .inl rfl
  | some form =>
      unfold createCoverage
      simp only
      split_ifs with hpresent
      · obtain ⟨hname, hprice⟩ := (Bool.and_eq_true _ _).mp hpresent
        cases hkept : form.keptPrice with
        | none => exact .inl rfl
        | some price => exact .inr ⟨form, price, hname, hprice, hkept, rfl⟩
      · exact .inl rfl

/-- A coverage that is created has its name and its price. -/
theorem complete_created {form : CoverageForm} {price : Option (Option ℚ)}
    (hname : presentOpt form.coverageName.join = true) (hprice : presentOpt form.price.join = true)
    (hkept : form.keptPrice = some price) (v : Coverage) : (form.assign price v).Complete where
  name := by
    cases hposted : form.coverageName.join with
    | none =>
        rw [hposted] at hname
        cases hname
    | some name => simp [CoverageForm.assign, Option.join_eq_some_iff.mp hposted]
  price := by
    obtain ⟨x, rfl⟩ := keptPrice_of_present hprice hkept
    exact Option.some_ne_none x

theorem priced_run {t : Table Coverage} (h : PricedCatalogue t) (es : List CatalogueRequest) :
    PricedCatalogue (run catalogueStep t es) := by
  refine run_invariant PricedCatalogue (fun t e ht => ?_) es t h
  cases e with
  | updateCoverages entries =>
      have hkeeps := keeps_updateCoverages (I := PricedCatalogue) entries
        fun entry _ t k price hkept ht => priced_edited ht k hkept
      exact hkeeps t ht
  | createCoverage form =>
      obtain hsame | ⟨posted, price, hname, hprice, hkept, hnew⟩ := createCoverage_cases t form
      · rw [catalogueStep, hsame]
        exact ht
      · intro v hv
        rw [catalogueStep, hnew, Table.rows_insert, List.mem_append, List.mem_singleton] at hv
        rcases hv with hv | rfl
        · exact ht v hv
        · exact (complete_created hname hprice hkept _).price

theorem complete_run {t : Table Coverage} (h : CompleteCatalogue t) (es : List CatalogueRequest)
    (hes : ∀ e ∈ es, e.NamesGiven) : CompleteCatalogue (run catalogueStep t es) := by
  have hok : StepsOk catalogueStep (fun _ e => CatalogueRequest.NamesGiven e) t es :=
    stepsOk_of_forall fun pre e post heq => hes e (by simp [heq])
  refine run_invariant_of_steps CompleteCatalogue (fun t e ht he => ?_) es t hok h
  cases e with
  | updateCoverages entries =>
      have hkeeps := keeps_updateCoverages (I := CompleteCatalogue) entries
        fun entry hentry t k price hkept ht => complete_edited ht k (he entry hentry) hkept
      exact hkeeps t ht
  | createCoverage form =>
      obtain hsame | ⟨posted, price, hname, hprice, hkept, hnew⟩ := createCoverage_cases t form
      · rw [catalogueStep, hsame]
        exact ht
      · intro v hv
        rw [catalogueStep, hnew, Table.rows_insert, List.mem_append, List.mem_singleton] at hv
        rcases hv with hv | rfl
        · exact ht v hv
        · have hcomplete := complete_created hname hprice hkept ⟨0, none, some 0, none⟩
          exact ⟨hcomplete.name, hcomplete.price⟩

theorem aged_run (t : Table Coverage) (es : List CatalogueRequest) :
    Aged t (run catalogueStep t es) := by
  refine run_invariant (Aged t) (fun u e hu => ?_) es t (Aged.refl t)
  cases e with
  | updateCoverages entries =>
      have hkeeps := keeps_updateCoverages (I := Aged t) entries
        fun entry _ u k price _ hu => hu.edited k entry.2 price
      exact hkeeps u hu
  | createCoverage form =>
      obtain hsame | ⟨posted, price, -, -, -, hnew⟩ := createCoverage_cases u form
      · rw [catalogueStep, hsame]
        exact hu
      · rw [catalogueStep, hnew]
        exact hu.insert _

end

/-! ## Customers who have bought -/

/-- The customer selected his coverages while the table was `t`: every
id he keeps was given out by then. -/
def Policy.BoughtFrom (c : Policy) (t : Table Coverage) : Prop :=
  ∀ addon, c.coverageAddon = some addon → ∀ key ∈ splitAddon addon, toI key < t.nextKey

/-- A text finds a coverage under the number it reads as. -/
theorem findById_eq_find? (t : Table Coverage) {key : String} {k : Nat} (h : toI key = k) :
    findById t key = t.find? k :=
  findByIdText_eq t h

theorem findById_of_negative (t : Table Coverage) {key : String} (h : toI key < 0) :
    findById t key = none := by
  refine List.find?_eq_none.mpr fun v _ => ?_
  rw [decide_eq_true_iff]
  omega

/-- A number that was given out finds what it found, if it is there. -/
theorem findById_aged {t t' : Table Coverage} (h : Aged t t') {key : String}
    (hkey : toI key < t.nextKey) :
    (findById t' key).map Coverage.id
      = ((findById t key).map Coverage.id).filter fun k => (t'.find? k).isSome := by
  rcases lt_or_ge (toI key) 0 with hneg | hpos
  · rw [findById_of_negative t hneg, findById_of_negative t' hneg]
    rfl
  · obtain ⟨k, hk⟩ := Int.eq_ofNat_of_zero_le hpos
    rw [findById_eq_find? t hk, findById_eq_find? t' hk]
    have hold := h.old k (by omega)
    cases hthen : t.find? k with
    | none =>
        have hnow : t'.find? k = none := by simpa [hthen] using hold
        rw [hnow]
        rfl
    | some old =>
        have hid : old.id = k := Table.key_of_find? hthen
        cases hnow : t'.find? k with
        | none => simp [hid, Option.filter, hnow]
        | some now =>
            have hid' : now.id = k := Table.key_of_find? hnow
            simp [hid, hid', Option.filter, hnow]

/-- Of the coverages that a customer has bought those are left that are
still in the catalogue, in their order, and no other has come. -/
theorem selections_shrink [Numbers] (t : Table Coverage) (es : List CatalogueRequest) (c : Policy)
    (h : c.BoughtFrom t) :
    (c.coverages (run catalogueStep t es)).map Coverage.id
      = ((c.coverages t).map Coverage.id).filter fun k =>
          ((run catalogueStep t es).find? k).isSome := by
  have haged := aged_run t es
  generalize run catalogueStep t es = t' at haged
  unfold Policy.coverages
  cases haddon : c.coverageAddon with
  | none => rfl
  | some addon =>
      simp only
      split_ifs
      · rfl
      · rw [List.map_filterMap, List.map_filterMap, List.filter_filterMap]
        exact List.filterMap_congr fun key hkey => findById_aged haged (h addon haddon key hkey)

theorem mem_rows_of_mem_coverages {t : Table Coverage} {c : Policy} {v : Coverage}
    (h : v ∈ c.coverages t) : v ∈ t.rows := by
  unfold Policy.coverages at h
  split at h
  · cases h
  · split_ifs at h
    · cases h
    · obtain ⟨key, -, hfind⟩ := List.mem_filterMap.mp h
      exact List.mem_of_find?_eq_some hfind

/-- After every run of edits, from a catalogue in which every coverage
has its name and its price, the list price of a customer is the price of
his package and what his coverages cost now. -/
theorem quotes_stay_readable [Numbers] (t : Table Coverage) (h : CompleteCatalogue t)
    (es : List CatalogueRequest) (c : Policy) :
    ∃ prices : List ℚ,
      (c.coverages (run catalogueStep t es)).map Coverage.price = prices.map some ∧
      c.listPrice (run catalogueStep t es) = c.packagePrice.map (· + prices.sum) := by
  have hpriced := priced_run (fun v hv => (h v hv).price) es
  generalize run catalogueStep t es = t' at hpriced
  have hprices : (c.coverages t').map Coverage.price
      = ((c.coverages t').map fun v => v.price.getD 0).map some := by
    rw [List.map_map]
    refine List.map_congr_left fun v hv => ?_
    obtain ⟨price, hprice⟩ := Option.ne_none_iff_exists'.mp
      (hpriced v (mem_rows_of_mem_coverages hv))
    simp [hprice]
  refine ⟨_, hprices, ?_⟩
  rw [Policy.listPrice, hprices, sumPrices_some]
  cases c.packagePrice <;> rfl

/-- What a table shows of a list of coverages. -/
def shownNames (l : List Coverage) : List String :=
  if l = [] then ["None"] else l.map fun v => upcase (v.coverageName.getD "")

theorem coverageSets_of_complete {l : List Coverage} (h : ∀ v ∈ l, v.Complete) :
    ∃ sets, coverageSets l = .ok sets ∧ Cut 3 (shownNames l) sets ∧ sets ≠ [] := by
  have hshown : (if l.isEmpty then Except.ok ["None"] else upcasedNames l)
      = .ok (shownNames l) := by
    unfold shownNames
    cases l with
    | nil => rfl
    | cons v l =>
        rw [if_neg (by simp), if_neg (by simp)]
        refine mapM_eq_ok_iff.mpr (List.forall₂_map_right_iff.mpr ?_)
        refine List.forall₂_same.mpr fun w hw => ?_
        obtain ⟨name, hname⟩ := Option.ne_none_iff_exists'.mp (h w hw).name
        simp [hname]
  refine ⟨chunks 3 (shownNames l), ?_, cut_chunks (by decide) _, ?_⟩
  · unfold coverageSets
    rw [hshown]
    rfl
  · refine chunks_ne_nil (by decide) ?_
    unfold shownNames
    split_ifs with hl
    · exact List.cons_ne_nil _ _
    · simpa using hl

/-- After every run of edits that posts no name as nil, from a catalogue
in which every coverage has its name and its price, the contract of a
customer with a package can be printed. Each of its three tables has a
row, shows every name it is to show in rows of three, and every optional
coverage of the catalogue is in one of the last two tables: among those
he bought, or among those he can buy. -/
theorem contracts_stay_printable [Numbers] (t : Table Coverage) (h : CompleteCatalogue t)
    (es : List CatalogueRequest) (hes : ∀ e ∈ es, e.NamesGiven) (covers : Nat → Bool)
    (c : Policy) (hpackage : c.package ≠ none) :
    ∃ tables, contractTables covers (run catalogueStep t es) c = .ok tables ∧
      (Cut 3 (shownNames ((run catalogueStep t es).rows.filter fun v => covers v.id))
        tables.package ∧ tables.package ≠ []) ∧
      (Cut 3 (shownNames (c.coverages (run catalogueStep t es))) tables.optional ∧
        tables.optional ≠ []) ∧
      (Cut 3 (shownNames (c.purchaseable (run catalogueStep t es))) tables.purchaseable ∧
        tables.purchaseable ≠ []) ∧
      ∀ v ∈ (run catalogueStep t es).rows, v.optional = some 1 →
        (v ∈ c.coverages (run catalogueStep t es) ↔
          v ∉ c.purchaseable (run catalogueStep t es)) := by
  have hcomplete := complete_run h es hes
  generalize run catalogueStep t es = t' at hcomplete
  obtain ⟨package, hpackageSets, hpackageCut⟩ :=
    coverageSets_of_complete (l := t'.rows.filter fun v => covers v.id)
      fun v hv => hcomplete v (List.mem_filter.mp hv).1
  obtain ⟨optional, hoptionalSets, hoptionalCut⟩ :=
    coverageSets_of_complete (l := c.coverages t')
      fun v hv => hcomplete v (mem_rows_of_mem_coverages hv)
  obtain ⟨purchaseable, hpurchaseSets, hpurchaseCut⟩ :=
    coverageSets_of_complete (l := c.purchaseable t')
      fun v hv => hcomplete v (List.mem_filter.mp (List.mem_filter.mp hv).1).1
  refine ⟨⟨package, optional, purchaseable⟩, ?_, hpackageCut, hoptionalCut, hpurchaseCut, ?_⟩
  · obtain ⟨p, hp⟩ := Option.ne_none_iff_exists'.mp hpackage
    simp only [contractTables, hp, hpackageSets, hoptionalSets, hpurchaseSets]
    rfl
  · intro v hv hopt
    have hchosen : v ∈ c.coverages t' ↔
        ((c.coverages t').any fun chosen => chosen.id == v.id) = true := by
      rw [List.any_eq_true]
      refine ⟨fun hmem => ⟨v, hmem, beq_self_eq_true _⟩, ?_⟩
      rintro ⟨w, hw, hid⟩
      rwa [← t'.eq_of_key_eq (mem_rows_of_mem_coverages hw) hv (eq_of_beq hid)]
    unfold Policy.purchaseable allOptional
    rw [List.mem_filter, List.mem_filter, hchosen]
    simp [hv, hopt]

/-! ## The roof and the pool -/

/-- The roof gets a name and a price, and the pool is deleted. -/
def autumnEdits : List CatalogueRequest :=
  [.updateCoverages [("1", ⟨some (some "Roof and Gutters"), none, some (some "75"), none⟩),
    ("12", ⟨none, none, some (some ""), some (some "true")⟩)]]

theorem namesGiven_autumnEdits : ∀ e ∈ autumnEdits, e.NamesGiven := by
  intro e he
  rw [List.mem_singleton.mp he]
  intro entry hentry
  rcases List.mem_pair.mp hentry with rfl | rfl
  · simp
  · simp

/-- A customer with both. -/
def roofAndPool : Policy := { samplePolicy with coverageAddon := some "1, 12" }

theorem boughtFrom_roofAndPool : roofAndPool.BoughtFrom sampleCoverages := by
  intro addon haddon
  cases haddon
  decide +kernel

theorem completeCatalogue_sampleCoverages : CompleteCatalogue sampleCoverages := by
  intro v hv
  simp only [sampleCoverages, List.mem_cons, List.not_mem_nil, or_false] at hv
  rcases hv with rfl | rfl | rfl <;> exact ⟨Option.some_ne_none _, Option.some_ne_none _⟩

section
attribute [local instance] Numbers.exact

theorem selections_shrink_autumn :
    (roofAndPool.coverages (run catalogueStep sampleCoverages autumnEdits)).map Coverage.id = [1] ∧
      (roofAndPool.coverages (run catalogueStep sampleCoverages autumnEdits)).map Coverage.id
        = ((roofAndPool.coverages sampleCoverages).map Coverage.id).filter fun k =>
            ((run catalogueStep sampleCoverages autumnEdits).find? k).isSome :=
  ⟨by decide +kernel,
    selections_shrink sampleCoverages autumnEdits roofAndPool boughtFrom_roofAndPool⟩

theorem quotes_stay_readable_autumn :
    ∃ prices : List ℚ,
      (roofAndPool.coverages (run catalogueStep sampleCoverages autumnEdits)).map Coverage.price
        = prices.map some ∧
      roofAndPool.listPrice (run catalogueStep sampleCoverages autumnEdits)
        = roofAndPool.packagePrice.map (· + prices.sum) :=
  quotes_stay_readable sampleCoverages completeCatalogue_sampleCoverages autumnEdits roofAndPool

theorem contracts_stay_printable_autumn :
    ∃ tables, contractTables (· == 2) (run catalogueStep sampleCoverages autumnEdits) roofAndPool
      = .ok tables :=
  (contracts_stay_printable sampleCoverages completeCatalogue_sampleCoverages autumnEdits
    namesGiven_autumnEdits (· == 2) roofAndPool (Option.some_ne_none _)).imp fun _ h => h.1

/-- A name that is posted as nil: no contract that is to show it. -/
example :
    contractTables (· == 2) (run catalogueStep sampleCoverages
      [.updateCoverages [("1", ⟨some none, none, none, none⟩)]]) roofAndPool
      = .error .noMethodError := by
  decide +kernel

end

end HomeWarranty.Quotes
