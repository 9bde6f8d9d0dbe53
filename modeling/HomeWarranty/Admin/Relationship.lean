/-
HomeWarranty.Admin.Relationship — `customers#perform_relationship_actions`,
which makes one account of several.

The form says for each customer what is to become of it: the primary
account, a property of the primary account, or nothing at all. To make a
property of a customer the action nulls the four address columns of its
row, saves the row, and appends a `Property` to an association of the
class `Address`. That raises, so the action never comes further than its
first property, and the address it took off the row is in no table then.
Customers that are marked for purging are destroyed with everything that
hangs on them, whatever that is and whoever they are.

`no_address_lost_iff` and `history_kept_iff` say for which requests
neither can be seen.

A row that is destroyed takes along the rows of the nine associations
with `:dependent => :destroy`. None of those classes has a callback that
could stop this.
-/
import HomeWarranty.Admin.CustomerEdit
import HomeWarranty.Lib.Raise

namespace HomeWarranty.Admin

open Lib Ruby

/-! ## Tables -/

/-- The tables with a `customer_id` whose rows go with the customer. -/
inductive ChildTable where
  | renewals
  | transactions
  | notes
  | claims
  | creditCards
  | ipTracks
  | subscriptions
  deriving DecidableEq

structure Child where
  id : Nat
  customerId : Option Nat
  deriving DecidableEq

instance : Record Child where
  key := Child.id
  withKey n r := { r with id := n }
  key_withKey := fun _ _ => rfl

/-- A row of `addresses`. -/
structure AddressRow where
  id : Nat
  addressableType : Option String
  addressableId : Option Nat
  addressType : Option String
  place : Address
  deriving DecidableEq

instance : Record AddressRow where
  key := AddressRow.id
  withKey n r := { r with id := n }
  key_withKey := fun _ _ => rfl

structure Registry where
  customers : Table CustomerRow
  children : ChildTable → Table Child
  addresses : Table AddressRow
  accounts : Table Account

/-- The rows of a table that belong to a customer. -/
def Registry.childrenOf (s : Registry) (table : ChildTable) (id : Nat) : List Child :=
  (s.children table).rows.filter fun r => r.customerId == some id

/-- `can_be_purged?`. -/
def Registry.canBePurged (s : Registry) (id : Nat) : Bool :=
  (s.childrenOf .transactions id).isEmpty && (s.childrenOf .notes id).isEmpty
    && (s.childrenOf .claims id).isEmpty

/-- The coverage address in the row of a customer. -/
def CustomerRow.coverageAddress (c : CustomerRow) : Address where
  address := c.columns .customerAddress
  city := c.columns .customerCity
  state := c.columns .customerState
  zipCode := c.columns .customerZip

/-- `coverage_address?`. -/
def CustomerRow.hasCoverageAddress (c : CustomerRow) : Bool :=
  !(c.coverageAddress.address.isNone || c.coverageAddress.address == some "")

/-- `Customer.find(id)` with the text of a parameter. -/
def findByParam (t : Table CustomerRow) : Option String → Option CustomerRow
  | none => none
  | some key =>
      match toI key with
      | .ofNat n => t.find? n
      | .negSucc _ => none

section
variable (fold : Char → Char)

/-- `addressable` is a customer. -/
def AddressRow.ofCustomer (id : Nat) (a : AddressRow) : Bool :=
  sqlEq fold a.addressableType (some "Customer") && a.addressableId == some id

/-- `customer.properties`. -/
def Registry.propertiesOf (s : Registry) (id : Nat) : List AddressRow :=
  s.addresses.rows.filter fun a =>
    a.ofCustomer fold id && sqlEq fold a.addressType (some "Property")

/-- `customer.destroy`. -/
def Registry.destroy (s : Registry) (id : Nat) : Registry where
  customers := s.customers.delete id
  children table := (s.children table).reject fun r => r.customerId == some id
  addresses := s.addresses.reject (AddressRow.ofCustomer fold id)
  accounts :=
    match accountFor fold s.accounts "Customer" id with
    | none => s.accounts
    | some a => s.accounts.delete a.id

end

/-! ## The action -/

/-- What the form says of a customer. -/
inductive Action where
  | primary
  | property
  | purge
  | other
  deriving DecidableEq

/-- `params[:customers]`. -/
structure ActionMap where
  entries : List (String × Action)
  nodup : (entries.map Prod.fst).Nodup

/-- `params[:customers].index(action)`. -/
def ActionMap.index (m : ActionMap) (action : Action) : Option String :=
  (m.entries.find? fun e => e.2 == action).map Prod.fst

/-- `params[:customers].select { |k,v| v == action }`, the keys. -/
def ActionMap.select (m : ActionMap) (action : Action) : List String :=
  (m.entries.filter fun e => e.2 == action).map Prod.fst

inductive MergeError where
  | recordNotFound
  | associationTypeMismatch
  deriving DecidableEq

/-- A customer that was destroyed, and the database it was found in. -/
structure Destroyed where
  customer : CustomerRow
  found : Registry

/-- The database, and who was destroyed so far. -/
structure Merging where
  registry : Registry
  destroyed : List Destroyed

/-- The class of a record that is not saved yet. -/
inductive RecordClass where
  | address
  | property
  deriving DecidableEq

structure NewRecord where
  klass : RecordClass
  place : Address

abbrev MergeM := Raising Merging MergeError

def findCustomer (key : Option String) : MergeM CustomerRow := do
  let s ← get
  match findByParam s.registry.customers key with
  | none => throw .recordNotFound
  | some c => pure c

/-- The four columns of the coverage address. -/
def coverageColumns : List CustomerColumn :=
  [.customerAddress, .customerCity, .customerState, .customerZip]

/-- NULL, for a column of any type. -/
def ColumnType.null : (t : ColumnType) → t.Val
  | .string | .text | .integer | .boolean | .other => none

/-- The columns without the coverage address. -/
def CustomerRow.nullified (c : CustomerRow) : Columns := fun col =>
  if col ∈ coverageColumns then col.type.null else c.columns col

/-- `customer.update_attributes` with four times `nil`. -/
def Registry.nullifyAddress (s : Registry) (c : CustomerRow) : Registry :=
  { s with customers := (CustomerObject.save s.customers ⟨c.id, c.columns, c.nullified⟩).2.1 }

/-- `build_and_nullify_property`. -/
def buildAndNullifyProperty (c : CustomerRow) : MergeM NewRecord := do
  modify fun s => { s with registry := s.registry.nullifyAddress c }
  pure ⟨.property, c.coverageAddress⟩

/-- `primary_account.properties << record`. -/
def appendProperty (owner : Nat) (r : NewRecord) : MergeM PUnit :=
  match r.klass with
  | .property => throw .associationTypeMismatch
  | .address => modify fun s => { s with registry := { s.registry with
      addresses := s.registry.addresses.insert
        ⟨0, some "Customer", some owner, some "Property", r.place⟩ } }

section
variable (fold : Char → Char)

def destroyCustomer (c : CustomerRow) : MergeM PUnit :=
  modify fun s => ⟨s.registry.destroy fold c.id, s.destroyed ++ [⟨c, s.registry⟩]⟩

/-- The loop over the customers marked `property`. -/
def appendProperties (owner : Nat) : List String → MergeM PUnit
  | [] => pure ⟨⟩
  | key :: keys => do
      let c ← findCustomer (some key)
      let p ← buildAndNullifyProperty c
      appendProperty owner p
      let s ← get
      if s.registry.canBePurged c.id then destroyCustomer fold c
      appendProperties owner keys

/-- `Customer.destroy(keys)`. -/
def destroyAll : List String → MergeM PUnit
  | [] => pure ⟨⟩
  | key :: keys => do
      let c ← findCustomer (some key)
      destroyCustomer fold c
      destroyAll keys

/-- `customers#perform_relationship_actions`; the customer it redirects
to. -/
def performRelationshipActions (m : ActionMap) (id : Option String) : MergeM Nat := do
  let primary ← findCustomer ((m.index .primary).or id)
  let s ← get
  if (s.registry.propertiesOf fold primary.id).isEmpty then
    let p ← buildAndNullifyProperty primary
    appendProperty primary.id p
  appendProperties fold primary.id (m.select .property)
  destroyAll fold (m.select .purge)
  pure primary.id

/-- The request from a database. -/
def mergeRequest (s : Registry) (m : ActionMap) (id : Option String) :
    Except MergeError Nat × Merging :=
  exec (performRelationshipActions fold m id) ⟨s, []⟩

end

/-! ## What is to be seen of a request -/

/-- The primary account. -/
def primaryOf (s : Registry) (m : ActionMap) (id : Option String) : Option CustomerRow :=
  findByParam s.customers ((m.index .primary).or id)

/-- The customers that a list of keys comes to: up to the first one that
is not there, or not there any more. -/
def reachedBy (t : Table CustomerRow) : List String → List CustomerRow
  | [] => []
  | key :: keys =>
      match findByParam t (some key) with
      | none => []
      | some c => c :: reachedBy (t.delete c.id) keys

section
variable (fold : Char → Char) (s : Registry) (m : ActionMap) (id : Option String)

/-- Every coverage address of the primary account and of the customers
marked `property` is where it was, or at a property of the primary
account. -/
def NoAddressLost : Prop :=
  ∀ c, (primaryOf s m id = some c ∨
      ∃ key ∈ m.select .property, findByParam s.customers (some key) = some c) →
    c.hasCoverageAddress = true →
    let s' := (mergeRequest fold s m id).2.registry
    (∃ c', s'.customers.find? c.id = some c' ∧ c'.coverageAddress = c.coverageAddress) ∨
      ∃ p, primaryOf s m id = some p ∧
        ∃ a ∈ s'.propertiesOf fold p.id, a.place = c.coverageAddress

/-- Nobody is destroyed who could not be purged, nor the primary
account. -/
def HistoryKept : Prop :=
  ∀ d ∈ (mergeRequest fold s m id).2.destroyed,
    d.found.canBePurged d.customer.id = true ∧
      ∀ p, primaryOf s m id = some p → d.customer.id ≠ p.id

/-- The first customer whose address is taken has none, or is not valid,
so that it keeps it, or its address is that of a property of the primary
account already. Where no address is taken, the primary account keeps
its own if it is not destroyed. -/
def MergeKeepsAddresses : Prop :=
  ∀ p, primaryOf s m id = some p →
    if s.propertiesOf fold p.id = [] then
      p.hasCoverageAddress = true → p.valid s.customers = false
    else
      match m.select .property with
      | key :: _ => ∀ c, findByParam s.customers (some key) = some c →
          c.hasCoverageAddress = true → c.valid s.customers = false ∨
            ∃ a ∈ s.propertiesOf fold p.id, a.place = c.coverageAddress
      | [] => p.hasCoverageAddress = true → p ∉ reachedBy s.customers (m.select .purge)

/-- If the action comes to its last part, everybody it destroys there
has no transaction, note or claim, and is not the primary account. -/
def PurgesOnlyBlank : Prop :=
  ∀ p, primaryOf s m id = some p → s.propertiesOf fold p.id ≠ [] → m.select .property = [] →
    ∀ c ∈ reachedBy s.customers (m.select .purge), s.canBePurged c.id = true ∧ c.id ≠ p.id

end

/-! ## Taking an address off a row -/

theorem key_of_findByParam {t : Table CustomerRow} {key : Option String} {c : CustomerRow}
    (h : findByParam t key = some c) : t.find? c.id = some c := by
  unfold findByParam at h
  split at h
  · cases h
  · split at h
    · have hk : c.id = _ := Table.key_of_find? h
      rw [hk, h]
    · cases h

/-- Validity is no matter of the address. -/
theorem valid_nullified (t : Table CustomerRow) (c : CustomerRow) :
    CustomerRow.valid t ⟨c.id, c.nullified⟩ = c.valid t := by
  refine valid_congr fun col hcol => if_neg ?_
  revert col
  decide

/-- A row that is not valid keeps its address. -/
theorem nullifyAddress_of_invalid {s : Registry} {c : CustomerRow}
    (h : c.valid s.customers = false) : s.nullifyAddress c = s := by
  unfold Registry.nullifyAddress
  rw [save_of_invalid ((valid_nullified s.customers c).trans h)]

/-- A valid one is written to. -/
theorem nullifyAddress_of_valid {s : Registry} {c : CustomerRow}
    (h : c.valid s.customers = true) :
    (s.nullifyAddress c).customers = s.customers.update c.id
      (fun r => { r with
        columns := CustomerObject.write ⟨c.id, c.columns, c.nullified⟩ r.columns })
      (fun _ => rfl) := by
  unfold Registry.nullifyAddress
  rw [save_of_valid ((valid_nullified s.customers c).trans h)]

theorem find?_nullifyAddress_ne (s : Registry) (c : CustomerRow) {k : Nat} (hk : k ≠ c.id) :
    (s.nullifyAddress c).customers.find? k = s.customers.find? k := by
  cases h : c.valid s.customers with
  | false => rw [nullifyAddress_of_invalid h]
  | true => rw [nullifyAddress_of_valid h, Table.find?_update_ne s.customers hk]

theorem coverageAddress_write (c : CustomerRow) :
    CustomerRow.coverageAddress
        ⟨c.id, CustomerObject.write ⟨c.id, c.columns, c.nullified⟩ c.columns⟩
      = ⟨none, none, none, none⟩ := by
  have hnull : ∀ col ∈ coverageColumns,
      CustomerObject.write ⟨c.id, c.columns, c.nullified⟩ c.columns col = col.type.null := by
    intro col hcol
    have hnow : c.nullified col = col.type.null := if_pos hcol
    unfold CustomerObject.write
    simp only [hnow]
    split
    · rename_i heq
      exact heq.symm
    · cases col.type <;> rfl
  simp only [CustomerRow.coverageAddress]
  congr 1
  · exact hnull .customerAddress (by decide)
  · exact hnull .customerCity (by decide)
  · exact hnull .customerState (by decide)
  · exact hnull .customerZip (by decide)

/-- The address of a customer is not in its row any more, if it had one
and is valid. -/
theorem keeps_own_iff {s : Registry} {c : CustomerRow} (hc : s.customers.find? c.id = some c)
    (ha : c.hasCoverageAddress = true) :
    (∃ c', (s.nullifyAddress c).customers.find? c.id = some c' ∧
      c'.coverageAddress = c.coverageAddress) ↔ c.valid s.customers = false := by
  cases h : c.valid s.customers with
  | false => simp [nullifyAddress_of_invalid h, hc]
  | true =>
      rw [nullifyAddress_of_valid h, Table.find?_update_self s.customers hc]
      simp only [Option.some.injEq, exists_eq_left', coverageAddress_write, Bool.true_eq_false,
        iff_false]
      intro heq
      rw [CustomerRow.hasCoverageAddress, ← heq] at ha
      revert ha
      decide

/-! ## The parts of a request -/

section
variable {fold : Char → Char} {s : Registry} {m : ActionMap} {id : Option String}

theorem exec_findCustomer_bind {α : Type} (key : Option String) (k : CustomerRow → MergeM α)
    (st : Merging) :
    exec (findCustomer key >>= k) st =
      match findByParam st.registry.customers key with
      | none => (.error .recordNotFound, st)
      | some c => exec (k c) st := by
  unfold findCustomer
  rw [exec_bind, exec_get_bind]
  cases findByParam st.registry.customers key with
  | none => rfl
  | some c => rfl

/-- Appending what was built raises, and the address is off the row. -/
theorem exec_appendProperties_cons {α : Type} (owner : Nat) (key : String) (keys : List String)
    (k : PUnit → MergeM α) (st : Merging) :
    exec (appendProperties fold owner (key :: keys) >>= k) st =
      match findByParam st.registry.customers (some key) with
      | none => (.error .recordNotFound, st)
      | some c => (.error .associationTypeMismatch,
          { st with registry := st.registry.nullifyAddress c }) := by
  rw [exec_bind, appendProperties, exec_findCustomer_bind]
  cases findByParam st.registry.customers (some key) with
  | none => rfl
  | some c => rfl

/-- The action in its cases. -/
theorem mergeRequest_eq (fold : Char → Char) (s : Registry) (m : ActionMap)
    (id : Option String) :
    mergeRequest fold s m id =
      match primaryOf s m id with
      | none => (.error .recordNotFound, ⟨s, []⟩)
      | some p =>
          if s.propertiesOf fold p.id = [] then
            (.error .associationTypeMismatch, ⟨s.nullifyAddress p, []⟩)
          else
            match m.select .property with
            | key :: _ =>
                match findByParam s.customers (some key) with
                | none => (.error .recordNotFound, ⟨s, []⟩)
                | some c => (.error .associationTypeMismatch, ⟨s.nullifyAddress c, []⟩)
            | [] => exec (destroyAll fold (m.select .purge) >>= fun _ => pure p.id) ⟨s, []⟩ := by
  unfold mergeRequest performRelationshipActions primaryOf
  rw [exec_findCustomer_bind]
  cases findByParam s.customers ((m.index .primary).or id) with
  | none => rfl
  | some p =>
      simp only [exec_get_bind, List.isEmpty_iff]
      by_cases hp : s.propertiesOf fold p.id = []
      · simp only [hp, if_true]
        rfl
      · simp only [hp, if_false]
        cases m.select .property with
        | nil => rfl
        | cons key keys => rw [exec_appendProperties_cons]

/-! ## Destroying customers -/

theorem mem_reachedBy {t : Table CustomerRow} {keys : List String} {c : CustomerRow}
    (h : c ∈ reachedBy t keys) : t.find? c.id = some c := by
  induction keys generalizing t with
  | nil => cases h
  | cons key keys ih =>
      unfold reachedBy at h
      cases hf : findByParam t (some key) with
      | none => simp [hf] at h
      | some d =>
          rw [hf] at h
          rcases List.mem_cons.mp h with rfl | hmem
          · exact key_of_findByParam hf
          · have hrest := ih hmem
            have hne : c.id ≠ d.id := by
              intro heq
              rw [heq, Table.find?_delete_self] at hrest
              cases hrest
            rwa [Table.find?_delete_ne t hne] at hrest

/-- Whoever is reached after a customer was destroyed is another one. -/
theorem id_ne_of_mem_reachedBy_delete {t : Table CustomerRow} {k : Nat} {keys : List String}
    {c : CustomerRow} (h : c ∈ reachedBy (t.delete k) keys) : c.id ≠ k := by
  intro heq
  have hfind := mem_reachedBy h
  rw [heq, Table.find?_delete_self] at hfind
  cases hfind

/-- What hangs on another customer stays. -/
theorem canBePurged_destroy (s : Registry) {id k : Nat} (h : k ≠ id) :
    (s.destroy fold id).canBePurged k = s.canBePurged k := by
  have hchildren : ∀ table, (s.destroy fold id).childrenOf table k = s.childrenOf table k := by
    intro table
    refine Table.filter_reject_of_apart (s.children table) fun r hr => ?_
    rw [beq_iff_eq] at hr
    simp [hr, h]
  simp only [Registry.canBePurged, hchildren]

theorem propertiesOf_destroy_self (s : Registry) (id : Nat) :
    (s.destroy fold id).propertiesOf fold id = [] := by
  refine Table.filter_reject_self s.addresses fun a ha => ?_
  rw [Bool.and_eq_true] at ha
  exact ha.1

theorem propertiesOf_destroy_nil {s : Registry} {k : Nat} (h : s.propertiesOf fold k = [])
    (id : Nat) : (s.destroy fold id).propertiesOf fold k = [] := by
  refine List.filter_eq_nil_iff.mpr fun a ha => ?_
  exact List.filter_eq_nil_iff.mp h a (List.mem_of_mem_filter ha)

theorem exec_destroyAll_cons (key : String) (keys : List String) (st : Merging) :
    exec (destroyAll fold (key :: keys)) st =
      match findByParam st.registry.customers (some key) with
      | none => (.error .recordNotFound, st)
      | some c => exec (destroyAll fold keys)
          ⟨st.registry.destroy fold c.id, st.destroyed ++ [⟨c, st.registry⟩]⟩ := by
  rw [destroyAll, exec_findCustomer_bind]
  cases findByParam st.registry.customers (some key) with
  | none => rfl
  | some c => rfl

/-- Everybody who is reached is destroyed, in turn. -/
theorem map_destroyed (keys : List String) (st : Merging) :
    (exec (destroyAll fold keys) st).2.destroyed.map Destroyed.customer
      = st.destroyed.map Destroyed.customer ++ reachedBy st.registry.customers keys := by
  induction keys generalizing st with
  | nil => simp [destroyAll, reachedBy]
  | cons key keys ih =>
      rw [exec_destroyAll_cons, reachedBy]
      cases findByParam st.registry.customers (some key) with
      | none => simp
      | some c =>
          rw [ih]
          simp [Registry.destroy]

/-- What can be said of everybody who was destroyed, in the database
they were found in, can be said of everybody who is reached, in the
first one. -/
theorem forall_destroyed_iff (R : CustomerRow → Prop) (keys : List String) (st : Merging) :
    (∀ d ∈ (exec (destroyAll fold keys) st).2.destroyed,
        d.found.canBePurged d.customer.id = true ∧ R d.customer) ↔
      (∀ d ∈ st.destroyed, d.found.canBePurged d.customer.id = true ∧ R d.customer) ∧
        ∀ c ∈ reachedBy st.registry.customers keys,
          st.registry.canBePurged c.id = true ∧ R c := by
  induction keys generalizing st with
  | nil => simp [destroyAll, reachedBy]
  | cons key keys ih =>
      rw [exec_destroyAll_cons, reachedBy]
      cases findByParam st.registry.customers (some key) with
      | none => simp
      | some c =>
          have hlater : ∀ d ∈ reachedBy (st.registry.customers.delete c.id) keys,
              (st.registry.destroy fold c.id).canBePurged d.id = st.registry.canBePurged d.id :=
            fun d hd => canBePurged_destroy _ (id_ne_of_mem_reachedBy_delete hd)
          simp only [ih, List.forall_mem_append, List.forall_mem_singleton, List.forall_mem_cons]
          rw [and_assoc]
          refine and_congr_right fun _ => and_congr_right fun _ => ?_
          refine forall₂_congr fun d hd => ?_
          rw [hlater d hd]

/-- What every destroy keeps, `Customer.destroy` keeps. -/
theorem keeps_destroyAll {I : Merging → Prop}
    (hI : ∀ st c, I st → I ⟨st.registry.destroy fold c, st.destroyed⟩)
    (hlog : ∀ st log, I st → I ⟨st.registry, log⟩) (keys : List String) :
    Keeps I (destroyAll fold keys) := by
  have hfind : ∀ key, Keeps I (findCustomer key) := by
    intro key
    refine keeps_get_bind fun st => ?_
    split
    · exact keeps_throw _
    · exact keeps_pure _
  induction keys with
  | nil => exact keeps_pure _
  | cons key keys ih =>
      refine (hfind (some key)).bind fun c => Keeps.bind ?_ fun _ => ih
      exact keeps_modify fun st hst => hlog _ _ (hI st c.id hst)

/-- Nothing is left of a customer. -/
def Gone (fold : Char → Char) (k : Nat) (st : Merging) : Prop :=
  st.registry.customers.find? k = none ∧ st.registry.propertiesOf fold k = []

theorem keeps_gone (k : Nat) (keys : List String) : Keeps (Gone fold k) (destroyAll fold keys) := by
  refine keeps_destroyAll ?_ (fun _ _ h => h) keys
  rintro st id ⟨hrow, hproperties⟩
  refine ⟨?_, propertiesOf_destroy_nil hproperties id⟩
  by_cases hk : k = id
  · subst hk
    exact Table.find?_delete_self _ k
  · exact (Table.find?_delete_ne _ hk).trans hrow

/-- Who was reached is gone. -/
theorem gone_of_mem_reachedBy {keys : List String} {st : Merging} {c : CustomerRow}
    (h : c ∈ reachedBy st.registry.customers keys) :
    Gone fold c.id (exec (destroyAll fold keys) st).2 := by
  induction keys generalizing st with
  | nil => cases h
  | cons key keys ih =>
      rw [exec_destroyAll_cons]
      rw [reachedBy] at h
      cases hf : findByParam st.registry.customers (some key) with
      | none => simp [hf] at h
      | some d =>
          rw [hf] at h
          rcases List.mem_cons.mp h with rfl | hmem
          · exact keeps_gone c.id keys _
              ⟨Table.find?_delete_self _ _, propertiesOf_destroy_self _ _⟩
          · exact ih hmem

/-- Everybody else is there. -/
theorem find?_destroyAll_of_notMem {keys : List String} {st : Merging} {c : CustomerRow}
    (hc : st.registry.customers.find? c.id = some c)
    (h : c ∉ reachedBy st.registry.customers keys) :
    (exec (destroyAll fold keys) st).2.registry.customers.find? c.id = some c := by
  induction keys generalizing st with
  | nil => exact hc
  | cons key keys ih =>
      rw [exec_destroyAll_cons]
      rw [reachedBy] at h
      cases hf : findByParam st.registry.customers (some key) with
      | none => exact hc
      | some d =>
          rw [hf, List.mem_cons, not_or] at h
          have hne : c.id ≠ d.id := by
            intro heq
            have hd := key_of_findByParam hf
            rw [← heq, hc] at hd
            exact h.1 (Option.some.inj hd)
          refine ih ?_ h.2
          exact (Table.find?_delete_ne _ hne).trans hc

theorem exec_destroyAll_bind (keys : List String) (n : Nat) (st : Merging) :
    (exec (destroyAll fold keys >>= fun _ => pure n) st).2
      = (exec (destroyAll fold keys) st).2 := by
  rw [exec_bind]
  rcases exec (destroyAll fold keys) st with ⟨r, t⟩
  cases r with
  | ok u => rfl
  | error e => rfl

end

/-! ## The theorems -/

section
variable {fold : Char → Char} {s : Registry} {m : ActionMap} {id : Option String}

/-- If the address of one customer is taken, only that of this one can
be lost. -/
theorem noAddressLost_of_nullify {p c : CustomerRow} (hp : primaryOf s m id = some p)
    (hc : s.customers.find? c.id = some c)
    (hmarked : p = c ∨ ∃ key ∈ m.select .property, findByParam s.customers (some key) = some c)
    (hreq : (mergeRequest fold s m id).2.registry = s.nullifyAddress c) :
    NoAddressLost fold s m id ↔ (c.hasCoverageAddress = true → c.valid s.customers = false ∨
      ∃ a ∈ s.propertiesOf fold p.id, a.place = c.coverageAddress) := by
  have hkept : ∀ d, s.customers.find? d.id = some d → d ≠ c →
      (s.nullifyAddress c).customers.find? d.id = some d := by
    intro d hd hne
    rw [find?_nullifyAddress_ne s c, hd]
    intro heq
    rw [heq, hc] at hd
    exact hne (Option.some.inj hd).symm
  simp only [NoAddressLost, hreq, hp, Option.some.injEq, exists_eq_left']
  constructor
  · intro hall ha
    rcases hall c hmarked ha with hown | hprop
    · exact Or.inl ((keeps_own_iff hc ha).mp hown)
    · exact Or.inr hprop
  · rintro h d hd ha
    have hfind : s.customers.find? d.id = some d := by
      rcases hd with rfl | ⟨key, _, hkey⟩
      · exact key_of_findByParam hp
      · exact key_of_findByParam hkey
    by_cases hne : d = c
    · subst hne
      rcases h ha with hinvalid | hprop
      · exact Or.inl ((keeps_own_iff hc ha).mpr hinvalid)
      · exact Or.inr hprop
    · exact Or.inl ⟨d, hkept d hfind hne, rfl⟩

/-- A database that did not change has lost nothing. -/
theorem noAddressLost_of_unchanged (hreq : (mergeRequest fold s m id).2.registry = s) :
    NoAddressLost fold s m id := by
  intro c hc _
  have hfind : s.customers.find? c.id = some c := by
    rcases hc with hp | ⟨key, _, hkey⟩
    · exact key_of_findByParam hp
    · exact key_of_findByParam hkey
  exact Or.inl ⟨c, by rw [hreq, hfind], rfl⟩

/-- Where nobody is made a property, only the primary account's address
can be lost, and it is lost with the account. -/
theorem noAddressLost_of_destroyAll {p : CustomerRow} (hp : primaryOf s m id = some p)
    (hnone : m.select .property = [])
    (hreq : (mergeRequest fold s m id).2
      = (exec (destroyAll fold (m.select .purge)) ⟨s, []⟩).2) :
    NoAddressLost fold s m id ↔
      (p.hasCoverageAddress = true → p ∉ reachedBy s.customers (m.select .purge)) := by
  have hfind : s.customers.find? p.id = some p := key_of_findByParam hp
  simp only [NoAddressLost, hreq, hp, hnone, List.not_mem_nil, false_and, exists_false, or_false,
    Option.some.injEq, exists_eq_left', forall_eq']
  refine imp_congr_right fun _ => ?_
  constructor
  · intro hheld hmem
    have hgone : Gone fold p.id (exec (destroyAll fold (m.select .purge)) ⟨s, []⟩).2 :=
      gone_of_mem_reachedBy hmem
    obtain ⟨hrow, hproperties⟩ := hgone
    rw [hrow, hproperties] at hheld
    simp at hheld
  · intro hmem
    exact Or.inl ⟨p, find?_destroyAll_of_notMem hfind hmem, rfl⟩

end

/-- **Merging related customers loses no address** exactly when there is
none to be lost where the action takes one, and the primary account is
not destroyed with its own. -/
theorem no_address_lost_iff (fold : Char → Char) (s : Registry) (m : ActionMap)
    (id : Option String) :
    NoAddressLost fold s m id ↔ MergeKeepsAddresses fold s m id := by
  have hreq := mergeRequest_eq fold s m id
  unfold MergeKeepsAddresses
  cases hp : primaryOf s m id with
  | none =>
      rw [hp] at hreq
      simp [noAddressLost_of_unchanged (congrArg (fun r => r.2.registry) hreq)]
  | some p =>
      have hpfind : s.customers.find? p.id = some p := key_of_findByParam hp
      simp only [hp] at hreq
      simp only [Option.some.injEq, forall_eq']
      by_cases hprops : s.propertiesOf fold p.id = []
      · rw [if_pos hprops] at hreq ⊢
        rw [noAddressLost_of_nullify hp hpfind (Or.inl rfl)
          (congrArg (fun r => r.2.registry) hreq)]
        simp [hprops]
      · rw [if_neg hprops] at hreq ⊢
        cases hsel : m.select .property with
        | nil =>
            simp only [hsel] at hreq
            exact noAddressLost_of_destroyAll hp hsel
              ((congrArg Prod.snd hreq).trans (exec_destroyAll_bind _ _ _))
        | cons key keys =>
            simp only [hsel] at hreq
            cases hc : findByParam s.customers (some key) with
            | none =>
                simp only [hc] at hreq
                simp [noAddressLost_of_unchanged (congrArg (fun r => r.2.registry) hreq), hc]
            | some c =>
                simp only [hc] at hreq
                have hmarked : ∃ k ∈ m.select .property,
                    findByParam s.customers (some k) = some c := by
                  rw [hsel]
                  exact ⟨key, List.mem_cons_self, hc⟩
                rw [noAddressLost_of_nullify hp (key_of_findByParam hc) (Or.inr hmarked)
                  (congrArg (fun r => r.2.registry) hreq)]
                simp [hc]

/-- A customer with a coverage address. -/
def atHome (id : Nat) (street : String) : CustomerRow where
  id := id
  columns
    | .customerAddress => some street
    | .customerCity => some "Albany"
    | .customerState => some "NY"
    | .customerZip => some "12207"
    | c => annColumns c

/-- A registry of a few customers, with some rows besides. -/
def registryOf (customers : List CustomerRow) (children : ChildTable → List Child)
    (addresses : List AddressRow) : Registry where
  customers := .ofRows customers
  children table := .ofRows (children table)
  addresses := .ofRows addresses
  accounts := .empty

/-- A customer without a property is made the primary account: its
address is taken off the row, and is nowhere. -/
theorem primary_loses_address :
    ¬ ∀ (fold : Char → Char) (s : Registry) (m : ActionMap) (id : Option String),
      NoAddressLost fold s m id := by
  intro hall
  have h := hall Char.toLower (registryOf [atHome 1 "1 State St"] (fun _ => []) [])
    ⟨[("1", .primary)], by decide⟩ (some "1") (atHome 1 "1 State St") (Or.inl rfl)
    (by decide +kernel)
  rcases h with ⟨c', hc', haddress⟩ | ⟨p, _, a, ha, _⟩
  · have hnull : ((mergeRequest Char.toLower
        (registryOf [atHome 1 "1 State St"] (fun _ => []) []) ⟨[("1", .primary)], by decide⟩
        (some "1")).2.registry.customers.find? 1).map CustomerRow.coverageAddress
          = some ⟨none, none, none, none⟩ := by decide +kernel
    rw [show (atHome 1 "1 State St").id = 1 from rfl] at hc'
    rw [hc', Option.map_some, haddress] at hnull
    revert hnull
    decide +kernel
  · cases ha

/-- The customers that are gone after a request are the ones that were
destroyed. -/
theorem gone_iff_destroyed (fold : Char → Char) (s : Registry) (m : ActionMap)
    (id : Option String) {c : CustomerRow} (hc : s.customers.find? c.id = some c) :
    (mergeRequest fold s m id).2.registry.customers.find? c.id = none ↔
      c ∈ (mergeRequest fold s m id).2.destroyed.map Destroyed.customer := by
  have hnull : ∀ d, (s.nullifyAddress d).customers.find? c.id ≠ none := by
    intro d hnone
    cases hd : d.valid s.customers with
    | false =>
        rw [nullifyAddress_of_invalid hd, hc] at hnone
        cases hnone
    | true =>
        rw [nullifyAddress_of_valid hd, Table.find?_update, hc] at hnone
        split at hnone
        · cases hnone
        · cases hnone
  rw [mergeRequest_eq]
  cases primaryOf s m id with
  | none => simp [hc]
  | some p =>
      by_cases hprops : s.propertiesOf fold p.id = []
      · simp [hprops, hnull]
      · simp only [hprops, if_false]
        cases m.select .property with
        | cons key keys =>
            cases hd : findByParam s.customers (some key) with
            | none => simp [hd, hc]
            | some d => simp [hd, hnull]
        | nil =>
            simp only [exec_destroyAll_bind, map_destroyed, List.map_nil, List.nil_append]
            constructor
            · intro hnone
              by_contra hmem
              rw [find?_destroyAll_of_notMem hc hmem] at hnone
              cases hnone
            · intro hmem
              exact (gone_of_mem_reachedBy hmem).1

/-- **Purging destroys no history** exactly when the action does not come
to it, or everybody it comes to has none and is not the primary
account. -/
theorem history_kept_iff (fold : Char → Char) (s : Registry) (m : ActionMap)
    (id : Option String) : HistoryKept fold s m id ↔ PurgesOnlyBlank fold s m id := by
  have hreq := mergeRequest_eq fold s m id
  unfold HistoryKept PurgesOnlyBlank
  cases hp : primaryOf s m id with
  | none =>
      rw [hp] at hreq
      simp [hreq]
  | some p =>
      simp only [hp] at hreq
      simp only [Option.some.injEq, forall_eq']
      by_cases hprops : s.propertiesOf fold p.id = []
      · rw [if_pos hprops] at hreq
        simp [hreq, hprops]
      · rw [if_neg hprops] at hreq
        simp only [ne_eq, hprops, not_false_eq_true, forall_const]
        cases hsel : m.select .property with
        | nil =>
            simp only [hsel] at hreq
            rw [hreq, exec_destroyAll_bind, forall_destroyed_iff (fun c => c.id ≠ p.id)]
            simp
        | cons key keys =>
            simp only [hsel] at hreq
            cases hc : findByParam s.customers (some key) with
            | none => simp [hreq, hc]
            | some c => simp [hreq, hc]

/-- A customer with a claim is marked for purging: it is destroyed. -/
theorem claimant_purged :
    ¬ ∀ (fold : Char → Char) (s : Registry) (m : ActionMap) (id : Option String),
      HistoryKept fold s m id := by
  intro hall
  have h := hall Char.toLower
    (registryOf [atHome 1 "1 State St", atHome 2 "2 State St"]
      (fun | .claims => [⟨1, some 2⟩] | _ => [])
      [⟨1, some "Customer", some 1, some "Property", ⟨some "1 State St", none, none, none⟩⟩])
    ⟨[("1", .primary), ("2", .purge)], by decide⟩ (some "1")
  have hfirst := (h _ (List.mem_of_mem_head? rfl)).1
  revert hfirst
  decide +kernel

end HomeWarranty.Admin
