/-
HomeWarranty.Lib.Table — database tables with an auto-increment key.

A `Table` keeps its rows in key order and carries the two facts every
later argument needs as FIELDS: the keys increase along the rows, and
every key in use is below the counter. A table with a duplicate key or
with a stale counter cannot be built, so `insert` and `update` prove
their invariants once, here.

A scan without an ORDER BY (`find_by_x`, `first`) reads the rows in key
order, so it returns the FIRST row that matches: `firstWhere`. Writing
to that row goes through its key (`UPDATE … WHERE id = …`);
`rows_updateFirst` says that this is a first-match update of the row
list, which is how runs of such writes are reasoned about.
-/
import Mathlib.Data.List.Basic

namespace HomeWarranty.Lib

universe u

/-- A row type: an integer primary key that can be set. -/
class Record (ρ : Type u) where
  key : ρ → Nat
  withKey : Nat → ρ → ρ
  key_withKey : ∀ n r, key (withKey n r) = n

/-- Rows in key order and the next key to be given out. -/
structure Table (ρ : Type u) [Record ρ] where
  rows : List ρ
  nextKey : Nat
  increasing : rows.Pairwise (fun a b => Record.key a < Record.key b)
  fresh : ∀ r ∈ rows, Record.key r < nextKey

namespace Table

variable {ρ : Type u} [Record ρ]

/-- The empty table; keys start at 1. -/
def empty : Table ρ where
  rows := []
  nextKey := 1
  increasing := List.Pairwise.nil
  fresh := by simp

instance : Inhabited (Table ρ) := ⟨empty⟩

/-! ## Reading -/

/-- `find(id)`. -/
def find? (t : Table ρ) (k : Nat) : Option ρ :=
  t.rows.find? (fun r => Record.key r == k)

/-- The first row, in key order, that satisfies a condition. -/
def firstWhere (t : Table ρ) (p : ρ → Bool) : Option ρ := t.rows.find? p

theorem mem_of_find? {t : Table ρ} {k : Nat} {r : ρ} (h : t.find? k = some r) :
    r ∈ t.rows :=
  List.mem_of_find?_eq_some h

theorem key_of_find? {t : Table ρ} {k : Nat} {r : ρ} (h : t.find? k = some r) :
    Record.key r = k := by
  have := List.find?_some h
  simpa using this

/-- Two rows of a table with the same key are the same row. -/
theorem eq_of_key_eq (t : Table ρ) {r s : ρ} (hr : r ∈ t.rows) (hs : s ∈ t.rows)
    (h : Record.key r = Record.key s) : r = s := by
  have key : ∀ (l : List ρ),
      l.Pairwise (fun a b => Record.key a < Record.key b) →
      r ∈ l → s ∈ l → r = s := by
    intro l
    induction l with
    | nil => intro _ h1 _; cases h1
    | cons a l ih =>
        intro hp h1 h2
        rw [List.pairwise_cons] at hp
        rcases List.mem_cons.mp h1 with e1 | h1' <;>
          rcases List.mem_cons.mp h2 with e2 | h2'
        · rw [e1, e2]
        · exact absurd (hp.1 s h2') (by rw [← e1]; omega)
        · exact absurd (hp.1 r h1') (by rw [← e2]; omega)
        · exact ih hp.2 h1' h2'
  exact key t.rows t.increasing hr hs

/-- Looking a row up by its own key finds it. -/
theorem find?_key (t : Table ρ) {r : ρ} (h : r ∈ t.rows) :
    t.find? (Record.key r) = some r := by
  cases hf : t.find? (Record.key r) with
  | none =>
      have := List.find?_eq_none.mp hf r h
      simp at this
  | some s =>
      rw [t.eq_of_key_eq (mem_of_find? hf) h (key_of_find? hf)]

/-- Every row that satisfies `p` but not `q` comes after one that
satisfies both. -/
def LedBy (p : ρ → Bool) (q : ρ → Prop) (t : Table ρ) : Prop :=
  ∀ pre r post, t.rows = pre ++ r :: post → p r = true → ¬ q r →
    ∃ s ∈ pre, p s = true ∧ q s

/-- What a scan returns has a property just when the rows with that
property lead the rows the scan looks for. -/
theorem firstWhere_satisfies_iff (t : Table ρ) (p : ρ → Bool) (q : ρ → Prop) :
    (∀ r, t.firstWhere p = some r → q r) ↔ LedBy p q t := by
  unfold firstWhere
  constructor
  · intro h pre r post hrows hp hq
    cases hf : pre.find? p with
    | none =>
        have hfirst : t.rows.find? p = some r := by
          rw [hrows, List.find?_append, hf, List.find?_cons_of_pos hp]
          rfl
        exact absurd (h r hfirst) hq
    | some s =>
        have hfirst : t.rows.find? p = some s := by
          rw [hrows, List.find?_append, hf]
          rfl
        exact ⟨s, List.mem_of_find?_eq_some hf, List.find?_some hf, h s hfirst⟩
  · intro h r hf
    by_contra hq
    obtain ⟨hp, pre, post, hrows, hpre⟩ := List.find?_eq_some_iff_append.mp hf
    obtain ⟨s, hs, hps, _⟩ := h pre r post hrows hp hq
    have := hpre s hs
    simp [hps] at this

/-! ## Writing -/

/-- Append a row under the next key. -/
def insert (t : Table ρ) (r : ρ) : Table ρ where
  rows := t.rows ++ [Record.withKey t.nextKey r]
  nextKey := t.nextKey + 1
  increasing := by
    rw [List.pairwise_append]
    refine ⟨t.increasing, List.pairwise_singleton .., fun a ha b hb => ?_⟩
    rw [List.mem_singleton.mp hb, Record.key_withKey]
    exact t.fresh a ha
  fresh := by
    intro a ha
    rcases List.mem_append.mp ha with ha | ha
    · exact Nat.lt_succ_of_lt (t.fresh a ha)
    · rw [List.mem_singleton.mp ha, Record.key_withKey]
      exact Nat.lt_succ_self _

/-- Pass over some keys. -/
def skip (t : Table ρ) (gap : Nat) : Table ρ :=
  { t with
    nextKey := t.nextKey + gap
    fresh := fun r hr => Nat.lt_of_lt_of_le (t.fresh r hr) (Nat.le_add_right _ _) }

@[simp] theorem rows_insert (t : Table ρ) (r : ρ) :
    (t.insert r).rows = t.rows ++ [Record.withKey t.nextKey r] := rfl

/-- A new row is found under its new key. -/
theorem find?_insert_new (t : Table ρ) (r : ρ) :
    (t.insert r).find? t.nextKey = some (Record.withKey t.nextKey r) := by
  have hmem : Record.withKey t.nextKey r ∈ (t.insert r).rows := by simp
  have := find?_key (t.insert r) hmem
  rwa [Record.key_withKey] at this

/-- The rows that were there are still found. -/
theorem find?_insert_of_find? {t : Table ρ} {k : Nat} {s : ρ} (h : t.find? k = some s)
    (r : ρ) : (t.insert r).find? k = some s := by
  unfold find? at h ⊢
  rw [rows_insert, List.find?_append, h]
  rfl

/-- Rows under consecutive keys. -/
def numberFrom (k : Nat) : List ρ → List ρ
  | [] => []
  | r :: rs => Record.withKey k r :: numberFrom (k + 1) rs

theorem key_mem_numberFrom {k : Nat} {rs : List ρ} {r : ρ} (h : r ∈ numberFrom k rs) :
    k ≤ Record.key r ∧ Record.key r < k + rs.length := by
  induction rs generalizing k with
  | nil => cases h
  | cons s rs ih =>
      rcases List.mem_cons.mp h with rfl | h
      · rw [Record.key_withKey]
        simp
      · have := ih h
        simp only [List.length_cons]
        omega

theorem increasing_numberFrom (k : Nat) (rs : List ρ) :
    (numberFrom k rs).Pairwise (fun a b => Record.key a < Record.key b) := by
  induction rs generalizing k with
  | nil => exact List.Pairwise.nil
  | cons s rs ih =>
      refine List.pairwise_cons.mpr ⟨fun r hr => ?_, ih (k + 1)⟩
      rw [Record.key_withKey]
      exact (key_mem_numberFrom hr).1

theorem mem_numberFrom {k : Nat} {rs : List ρ} {r : ρ} (h : r ∈ numberFrom k rs) :
    ∃ s ∈ rs, r = Record.withKey (Record.key r) s := by
  induction rs generalizing k with
  | nil => cases h
  | cons s rs ih =>
      rcases List.mem_cons.mp h with rfl | h
      · exact ⟨s, by simp, by rw [Record.key_withKey]⟩
      · obtain ⟨t, ht, heq⟩ := ih h
        exact ⟨t, List.mem_cons_of_mem s ht, heq⟩

theorem keys_numberFrom (k : Nat) (rs : List ρ) :
    (numberFrom k rs).map Record.key = List.range' k rs.length := by
  induction rs generalizing k with
  | nil => rfl
  | cons s rs ih =>
      show Record.key (Record.withKey k s) :: (numberFrom (k + 1) rs).map Record.key = _
      rw [Record.key_withKey, ih]
      rfl

@[simp] theorem length_numberFrom (k : Nat) (rs : List ρ) :
    (numberFrom k rs).length = rs.length := by
  have h := congrArg List.length (keys_numberFrom k rs)
  simpa using h

/-- Numbering keeps the order: what is numbered beyond the rows up to
key `j` was beyond `j`. -/
theorem numberFrom_beyond {k j : Nat} {rs : List ρ}
    (hrs : rs.Pairwise (fun a b => Record.key a < Record.key b)) {r : ρ}
    (h : r ∈ numberFrom k rs)
    (hr : k + (rs.filter fun s => decide (Record.key s ≤ j)).length ≤ Record.key r) :
    ∃ s ∈ rs, j < Record.key s ∧ r = Record.withKey (Record.key r) s := by
  induction rs generalizing k with
  | nil => cases h
  | cons s rs ih =>
      obtain ⟨hlt, hrest⟩ := List.pairwise_cons.mp hrs
      by_cases hs : Record.key s ≤ j
      · rw [List.filter_cons_of_pos (by simpa using hs), List.length_cons] at hr
        rcases List.mem_cons.mp h with rfl | h
        · rw [Record.key_withKey] at hr
          omega
        · obtain ⟨t, ht, hj, heq⟩ := ih hrest h (by omega)
          exact ⟨t, List.mem_cons_of_mem s ht, hj, heq⟩
      · -- from here on every row is beyond `j`
        obtain ⟨t, ht, heq⟩ := mem_numberFrom h
        refine ⟨t, ht, ?_, heq⟩
        rcases List.mem_cons.mp ht with rfl | ht
        · omega
        · have := hlt t ht
          omega

/-- A table with these rows, numbered from 1. -/
def ofRows (rs : List ρ) : Table ρ where
  rows := numberFrom 1 rs
  nextKey := 1 + rs.length
  increasing := increasing_numberFrom 1 rs
  fresh := fun _ hr => (key_mem_numberFrom hr).2

/-- The next key is not in use. -/
theorem find?_nextKey (t : Table ρ) {k : Nat} (hk : t.nextKey ≤ k) : t.find? k = none := by
  refine List.find?_eq_none.mpr fun r hr => ?_
  have := t.fresh r hr
  simp only [beq_iff_eq]
  omega

/-- Reading after an append, by cases on the key. -/
theorem find?_insert (t : Table ρ) (r : ρ) (k : Nat) :
    (t.insert r).find? k
      = if k = t.nextKey then some (Record.withKey t.nextKey r) else t.find? k := by
  by_cases h : k = t.nextKey
  · rw [if_pos h, h, find?_insert_new]
  · have hne : ¬ t.nextKey = k := fun e => h e.symm
    rw [if_neg h]
    unfold find?
    rw [rows_insert, List.find?_append]
    simp [Record.key_withKey, hne]

/-- Change one row in place, by key. -/
def update (t : Table ρ) (k : Nat) (f : ρ → ρ)
    (hf : ∀ r, Record.key (f r) = Record.key r) : Table ρ where
  rows := t.rows.map (fun r => if Record.key r = k then f r else r)
  nextKey := t.nextKey
  increasing := by
    rw [List.pairwise_map]
    refine t.increasing.imp fun {a b} h => ?_
    split <;> split <;> simpa [hf] using h
  fresh := by
    intro a ha
    obtain ⟨r, hr, rfl⟩ := List.mem_map.mp ha
    have := t.fresh r hr
    split <;> simpa [hf] using this

variable {f : ρ → ρ} {hf : ∀ r, Record.key (f r) = Record.key r}

@[simp] theorem rows_update (t : Table ρ) (k : Nat) :
    (t.update k f hf).rows
      = t.rows.map (fun r => if Record.key r = k then f r else r) := rfl

/-- Changing the row that was just appended is appending it changed. -/
theorem update_insert_new (t : Table ρ) (r : ρ)
    (hk : f (Record.withKey t.nextKey r) = Record.withKey t.nextKey (f r)) :
    (t.insert r).update t.nextKey f hf = t.insert (f r) := by
  have hold : t.rows.map (fun s => if Record.key s = t.nextKey then f s else s) = t.rows := by
    conv_rhs => rw [← List.map_id t.rows]
    refine List.map_congr_left fun s hs => ?_
    have := t.fresh s hs
    rw [if_neg (by omega)]
    rfl
  unfold update insert
  congr 1
  rw [List.map_append, hold, List.map_singleton, Record.key_withKey, if_pos rfl, hk]

/-- Two updates that agree on the row they write to are the same. -/
theorem update_congr (t : Table ρ) {k : Nat} {g : ρ → ρ}
    {hg : ∀ r, Record.key (g r) = Record.key r}
    (h : ∀ r, t.find? k = some r → f r = g r) : t.update k f hf = t.update k g hg := by
  unfold update
  congr 1
  refine List.map_congr_left fun r hr => ?_
  split
  · rename_i hk
    exact h r (hk ▸ find?_key t hr)
  · rfl

/-- An update that changes nothing in the row it writes to changes
nothing. -/
theorem update_eq_self (t : Table ρ) {k : Nat} (h : ∀ r, t.find? k = some r → f r = r) :
    t.update k f hf = t := by
  unfold update
  congr 1
  conv_rhs => rw [← List.map_id t.rows]
  refine List.map_congr_left fun r hr => ?_
  split
  · rename_i hk
    exact h r (hk ▸ find?_key t hr)
  · rfl

/-- An update is read back under the key it was written to. -/
theorem find?_update_self (t : Table ρ) {k : Nat} {r : ρ}
    (h : t.find? k = some r) : (t.update k f hf).find? k = some (f r) := by
  have hk := key_of_find? h
  have hm : f r ∈ (t.update k f hf).rows :=
    List.mem_map.mpr ⟨r, mem_of_find? h, by simp [hk]⟩
  have := find?_key _ hm
  rwa [hf, hk] at this

/-- Every other key is untouched by an update. -/
theorem find?_update_ne (t : Table ρ) {k j : Nat} (h : j ≠ k) :
    (t.update k f hf).find? j = t.find? j := by
  unfold find?
  rw [rows_update, List.find?_map]
  have hp : ((fun r => Record.key r == j) ∘
      fun r : ρ => if Record.key r = k then f r else r)
      = fun r => Record.key r == j := by
    funext r
    simp only [Function.comp]
    split <;> simp [hf]
  rw [hp]
  cases hfd : t.rows.find? (fun r => Record.key r == j) with
  | none => rfl
  | some r =>
      have hr : Record.key r = j := by simpa using List.find?_some hfd
      simp [hr, h]

/-- Reading after an update, by cases on the key. -/
theorem find?_update (t : Table ρ) (k j : Nat) :
    (t.update k f hf).find? j = if j = k then (t.find? j).map f else t.find? j := by
  by_cases h : j = k
  · rw [if_pos h]
    subst h
    cases ht : t.find? j with
    | some r => exact find?_update_self t ht
    | none =>
        have hno := List.find?_eq_none.mp ht
        refine List.find?_eq_none.mpr fun a ha => ?_
        obtain ⟨r, hr, rfl⟩ := List.mem_map.mp ha
        have := hno r hr
        split <;> simpa [hf] using this
  · rw [if_neg h, find?_update_ne t h]

/-- A scan for what an update does not touch finds the row it found. -/
theorem firstWhere_update (t : Table ρ) (k : Nat) {p : ρ → Bool} (hp : ∀ r, p (f r) = p r) :
    (t.update k f hf).firstWhere p
      = (t.firstWhere p).map fun r => if Record.key r = k then f r else r := by
  unfold firstWhere
  rw [rows_update, List.find?_map]
  congr 2
  funext r
  simp only [Function.comp]
  split
  · exact hp r
  · rfl

/-- A scan finds in the longer table what it found in the shorter. -/
theorem firstWhere_insert_of_some {t : Table ρ} {p : ρ → Bool} {s : ρ}
    (h : t.firstWhere p = some s) (r : ρ) : (t.insert r).firstWhere p = some s := by
  unfold firstWhere at h ⊢
  rw [rows_insert, List.find?_append, h]
  rfl

/-- An update removes no row. -/
theorem exists_find?_update {t : Table ρ} {j : Nat} (h : ∃ r, t.find? j = some r) (k : Nat) :
    ∃ r, (t.update k f hf).find? j = some r := by
  obtain ⟨r, hr⟩ := h
  rw [find?_update, hr]
  split
  · exact ⟨_, rfl⟩
  · exact ⟨_, rfl⟩

/-- Remove one row, by key. -/
def delete (t : Table ρ) (k : Nat) : Table ρ where
  rows := t.rows.filter (fun r => Record.key r != k)
  nextKey := t.nextKey
  increasing := t.increasing.filter _
  fresh := fun r hr => t.fresh r (List.mem_of_mem_filter hr)

@[simp] theorem mem_delete {t : Table ρ} {k : Nat} {r : ρ} :
    r ∈ (t.delete k).rows ↔ r ∈ t.rows ∧ Record.key r ≠ k := by
  simp [delete]

/-- Every other key is untouched by a removal. -/
theorem find?_delete_ne (t : Table ρ) {k j : Nat} (h : j ≠ k) :
    (t.delete k).find? j = t.find? j := by
  unfold find? delete
  rw [List.find?_filter]
  congr 1
  funext r
  by_cases hr : Record.key r = j
  · simp [hr, h]
  · simp [hr]

/-- A row that was removed is not there. -/
theorem find?_delete_self (t : Table ρ) (k : Nat) : (t.delete k).find? k = none := by
  refine List.find?_eq_none.mpr fun r hr => ?_
  simpa using (mem_delete.mp hr).2

/-- Remove all rows of a kind. -/
def reject (t : Table ρ) (p : ρ → Bool) : Table ρ where
  rows := t.rows.filter (fun r => !p r)
  nextKey := t.nextKey
  increasing := t.increasing.filter _
  fresh := fun r hr => t.fresh r (List.mem_of_mem_filter hr)

/-- `update_all`: every row that satisfies a condition is changed. -/
def updateAll (t : Table ρ) (p : ρ → Bool) (f : ρ → ρ)
    (hf : ∀ r, Record.key (f r) = Record.key r) : Table ρ where
  rows := t.rows.map fun r => if p r then f r else r
  nextKey := t.nextKey
  increasing := by
    rw [List.pairwise_map]
    refine t.increasing.imp fun h => ?_
    split <;> split <;> simpa [hf] using h
  fresh := by
    intro r hr
    obtain ⟨s, hs, rfl⟩ := List.mem_map.mp hr
    split
    · rw [hf]
      exact t.fresh s hs
    · exact t.fresh s hs

theorem nodup_rows (t : Table ρ) : t.rows.Nodup :=
  t.increasing.imp fun h heq => absurd h (by rw [heq]; exact Nat.lt_irrefl _)

/-- Rows of another kind stay. -/
theorem filter_reject_of_apart {p q : ρ → Bool} (t : Table ρ) (h : ∀ r, q r = true → p r = false) :
    (t.reject p).rows.filter q = t.rows.filter q := by
  unfold reject
  rw [List.filter_filter]
  refine List.filter_congr fun r _ => ?_
  cases hq : q r with
  | false => simp
  | true => simp [h r hq]

/-- Of the rows that were removed none is left. -/
theorem filter_reject_self {p q : ρ → Bool} (t : Table ρ) (h : ∀ r, q r = true → p r = true) :
    (t.reject p).rows.filter q = [] := by
  refine List.filter_eq_nil_iff.mpr fun r hr hq => ?_
  simpa [h r hq] using (List.mem_filter.mp hr).2

theorem mem_update {t : Table ρ} {k : Nat} {r : ρ} :
    r ∈ (t.update k f hf).rows ↔
      ∃ s ∈ t.rows, (Record.key s = k ∧ r = f s) ∨ (Record.key s ≠ k ∧ r = s) := by
  rw [rows_update, List.mem_map]
  refine exists_congr fun s => and_congr_right fun _ => ?_
  by_cases h : Record.key s = k
  · simp [h, eq_comm]
  · simp [h, eq_comm]

/-- An update under the key of a row sets the place of that row. -/
theorem rows_update_eq_set (t : Table ρ) {i : Nat} {r : ρ} (h : t.rows[i]? = some r) :
    (t.update (Record.key r) f hf).rows = t.rows.set i (f r) := by
  obtain ⟨hi, rfl⟩ := List.getElem?_eq_some_iff.mp h
  refine List.ext_getElem (by simp) fun j hupdated _ => ?_
  have hj : j < t.rows.length := by simpa using hupdated
  simp only [rows_update, List.getElem_map, List.getElem_set]
  by_cases hij : i = j
  · subst hij
    rw [if_pos rfl, if_pos rfl]
  · have hapart := List.pairwise_iff_getElem.mp t.increasing
    rw [if_neg hij, if_neg]
    rcases Nat.lt_or_gt_of_ne hij with hlt | hlt
    · exact Nat.ne_of_gt (hapart i j hi hj hlt)
    · exact Nat.ne_of_lt (hapart j i hj hi hlt)

/-- Where all rows that satisfy a condition have one key, there is one
of them. -/
theorem filter_eq_singleton (t : Table ρ) {p : ρ → Bool} {r : ρ} (hr : r ∈ t.rows)
    (hp : p r = true) (hone : ∀ s ∈ t.rows, p s = true → Record.key s = Record.key r) :
    t.rows.filter p = [r] := by
  have hmem : r ∈ t.rows.filter p := List.mem_filter.mpr ⟨hr, hp⟩
  have hkey : ∀ s ∈ t.rows.filter p, s = r := by
    intro s hs
    obtain ⟨hs, hps⟩ := List.mem_filter.mp hs
    exact t.eq_of_key_eq hs hr (hone s hs hps)
  have hpw := t.increasing.filter p
  cases hl : t.rows.filter p with
  | nil => rw [hl] at hmem; cases hmem
  | cons a l =>
      rw [hl] at hkey hpw
      obtain rfl := hkey a (by simp)
      cases l with
      | nil => rfl
      | cons b l =>
          -- a second row would have a greater key and the same one
          have hlt := (List.pairwise_cons.mp hpw).1 b (by simp)
          rw [hkey b (by simp)] at hlt
          exact absurd hlt (Nat.lt_irrefl _)

/-! ## What changes -/

/-- The rows that differ between two tables satisfy `own`: as they were,
or as they are if they are new. -/
def ChangesOnly (own : ρ → Prop) (t t' : Table ρ) : Prop :=
  ∀ k, t'.find? k = t.find? k ∨ (∃ r, t.find? k = some r ∧ own r) ∨
    (t.find? k = none ∧ ∃ r, t'.find? k = some r ∧ own r)

theorem changesOnly_refl (own : ρ → Prop) (t : Table ρ) : ChangesOnly own t t :=
  fun _ => Or.inl rfl

theorem changesOnly_insert {own : ρ → Prop} (t : Table ρ) {r : ρ}
    (h : own (Record.withKey t.nextKey r)) : ChangesOnly own t (t.insert r) := by
  intro k
  rw [find?_insert]
  split
  · rename_i hk
    exact Or.inr (Or.inr ⟨t.find?_nextKey (Nat.le_of_eq hk.symm), _, rfl, h⟩)
  · exact Or.inl rfl

theorem changesOnly_update {own : ρ → Prop} (t : Table ρ) {k : Nat}
    (h : ∀ r, t.find? k = some r → own r) : ChangesOnly own t (t.update k f hf) := by
  intro j
  by_cases hj : j = k
  · subst hj
    cases hr : t.find? j with
    | none => exact Or.inl (by rw [find?_update, if_pos rfl, hr]; rfl)
    | some r => exact Or.inr (Or.inl ⟨r, rfl, h r hr⟩)
  · exact Or.inl (find?_update_ne t hj)

theorem changesOnly_delete {own : ρ → Prop} (t : Table ρ) {k : Nat} {r : ρ}
    (hr : t.find? k = some r) (h : own r) : ChangesOnly own t (t.delete k) := by
  intro j
  by_cases hj : j = k
  · subst hj
    exact Or.inr (Or.inl ⟨r, hr, h⟩)
  · exact Or.inl (find?_delete_ne t hj)

/-! ## Rows that are one -/

/-- Rows that `R` relates are the same row: a column, or some other
likeness, on which the rows are apart. -/
def Apart (R : ρ → ρ → Prop) (t : Table ρ) : Prop :=
  ∀ r ∈ t.rows, ∀ s ∈ t.rows, R r s → Record.key r = Record.key s

theorem apart_empty (R : ρ → ρ → Prop) : Apart R (empty : Table ρ) := by
  intro r hr
  cases hr

/-- A new row keeps the rows apart when no row is like it. -/
theorem Apart.insert {R : ρ → ρ → Prop} (hsymm : ∀ r s, R r s → R s r) {t : Table ρ}
    (h : Apart R t) {r : ρ} (hnew : ∀ s ∈ t.rows, ¬ R s (Record.withKey t.nextKey r)) :
    Apart R (t.insert r) := by
  intro a ha b hb hab
  rw [rows_insert, List.mem_append, List.mem_singleton] at ha hb
  rcases ha with ha | rfl <;> rcases hb with hb | rfl
  · exact h a ha b hb hab
  · exact absurd hab (hnew a ha)
  · exact absurd (hsymm _ _ hab) (hnew b hb)
  · rfl

/-- An update keeps the rows apart when no other row is like the new
one. -/
theorem Apart.update {R : ρ → ρ → Prop} (hsymm : ∀ r s, R r s → R s r) {t : Table ρ}
    (h : Apart R t) {k : Nat}
    (hnew : ∀ r ∈ t.rows, Record.key r = k → ∀ s ∈ t.rows, Record.key s ≠ k → ¬ R s (f r)) :
    Apart R (t.update k f hf) := by
  intro a ha b hb hab
  obtain ⟨r, hr, rfl⟩ := List.mem_map.mp ha
  obtain ⟨s, hs, rfl⟩ := List.mem_map.mp hb
  by_cases hrk : Record.key r = k <;> by_cases hsk : Record.key s = k
  · rw [if_pos hrk, if_pos hsk, hf, hf, hrk, hsk]
  · rw [if_pos hrk, if_neg hsk] at hab
    exact absurd (hsymm _ _ hab) (hnew r hr hrk s hs hsk)
  · rw [if_neg hrk, if_pos hsk] at hab
    exact absurd hab (hnew s hs hsk r hr hrk)
  · rw [if_neg hrk, if_neg hsk] at hab ⊢
    exact h r hr s hs hab

/-- A new row keeps the rows apart exactly when no row is like it. -/
theorem Apart.insert_iff {R : ρ → ρ → Prop} (hsymm : ∀ r s, R r s → R s r) {t : Table ρ}
    (h : Apart R t) {r : ρ} :
    Apart R (t.insert r) ↔ ∀ s ∈ t.rows, ¬ R s (Record.withKey t.nextKey r) := by
  refine ⟨fun hnew s hs hlike => ?_, h.insert hsymm⟩
  have hkey := hnew s (by simp [hs]) (Record.withKey t.nextKey r) (by simp) hlike
  rw [Record.key_withKey] at hkey
  have := t.fresh s hs
  omega

/-- An update of a row keeps the rows apart exactly when no other row is
like the new one. -/
theorem Apart.update_iff {R : ρ → ρ → Prop} (hsymm : ∀ r s, R r s → R s r) {t : Table ρ}
    (h : Apart R t) {k : Nat} {r : ρ} (hr : t.find? k = some r) :
    Apart R (t.update k f hf) ↔ ∀ s ∈ t.rows, Record.key s ≠ k → ¬ R s (f r) := by
  have hrk := key_of_find? hr
  have hrm := mem_of_find? hr
  refine ⟨fun hnew s hs hsk hlike => hsk ?_, fun hnew => h.update hsymm ?_⟩
  · have hkey := hnew s (mem_update.mpr ⟨s, hs, Or.inr ⟨hsk, rfl⟩⟩) (f r)
      (mem_update.mpr ⟨r, hrm, Or.inl ⟨hrk, rfl⟩⟩) hlike
    rw [hkey, hf, hrk]
  · intro a ha hak s hs hsk
    rw [t.eq_of_key_eq ha hrm (hak.trans hrk.symm)]
    exact hnew s hs hsk

/-- Fewer rows are apart as well. -/
theorem Apart.delete {R : ρ → ρ → Prop} {t : Table ρ} (h : Apart R t) (k : Nat) :
    Apart R (t.delete k) := by
  intro r hr s hs hrs
  exact h r (mem_delete.mp hr).1 s (mem_delete.mp hs).1 hrs

end Table

/-! ## First-match updates -/

/-- Apply `f` to the first element that satisfies `p`. -/
def modifyFirst {α : Type u} (p : α → Bool) (f : α → α) : List α → List α
  | [] => []
  | a :: l => if p a then f a :: l else a :: modifyFirst p f l

section ModifyFirst

variable {α : Type u} {p : α → Bool} {f : α → α}

@[simp] theorem length_modifyFirst (l : List α) :
    (modifyFirst p f l).length = l.length := by
  induction l with
  | nil => rfl
  | cons a l ih =>
      unfold modifyFirst
      split
      · simp
      · simp [ih]

/-- The element at `i` changes exactly when it is the first to satisfy
`p`. -/
theorem getElem?_modifyFirst_of_first {l : List α} {i : Nat} {a : α}
    (h : l[i]? = some a) (hp : p a = true)
    (hfirst : ∀ j < i, ∀ b, l[j]? = some b → p b = false) :
    (modifyFirst p f l)[i]? = some (f a) := by
  induction l generalizing i with
  | nil => simp at h
  | cons b l ih =>
      cases i with
      | zero =>
          simp only [List.getElem?_cons_zero, Option.some.injEq] at h
          subst h
          simp [modifyFirst, hp]
      | succ i =>
          have hb : p b = false := hfirst 0 (by omega) b (by simp)
          simp only [modifyFirst, hb, Bool.false_eq_true, if_false,
            List.getElem?_cons_succ]
          refine ih (by simpa using h) ?_
          intro j hj c hc
          exact hfirst (j + 1) (by omega) c (by simpa using hc)

theorem getElem?_modifyFirst_of_not_first {l : List α} {i : Nat}
    (h : ∀ a, l[i]? = some a → p a = true → ∃ j < i, ∃ b, l[j]? = some b ∧ p b = true) :
    (modifyFirst p f l)[i]? = l[i]? := by
  induction l generalizing i with
  | nil => simp [modifyFirst]
  | cons b l ih =>
      cases i with
      | zero =>
          have hb : p b = false := by
            cases hp : p b with
            | false => rfl
            | true => obtain ⟨j, hj, _⟩ := h b (by simp) hp; omega
          simp [modifyFirst, hb]
      | succ i =>
          unfold modifyFirst
          split
          · simp
          · rename_i hb
            simp only [List.getElem?_cons_succ]
            refine ih fun a ha hpa => ?_
            obtain ⟨j, hj, c, hc, hpc⟩ := h a (by simpa using ha) hpa
            cases j with
            | zero =>
                simp only [List.getElem?_cons_zero, Option.some.injEq] at hc
                subst hc
                exact absurd hpc hb
            | succ j => exact ⟨j, by omega, c, by simpa using hc, hpc⟩

theorem modifyFirst_of_find?_eq_none {l : List α} (h : l.find? p = none) :
    modifyFirst p f l = l := by
  induction l with
  | nil => rfl
  | cons a l ih =>
      rw [List.find?_cons] at h
      cases hp : p a with
      | true => simp [hp] at h
      | false => simp [modifyFirst, hp, ih (by simpa [hp] using h)]

theorem modifyFirst_id (l : List α) : modifyFirst p id l = l := by
  induction l with
  | nil => rfl
  | cons a l ih =>
      unfold modifyFirst
      split
      · rfl
      · rw [ih]

theorem modifyFirst_map {β : Type u} (g : α → β) {q : β → Bool} {h : β → β}
    (hp : ∀ a, p a = q (g a)) (hg : ∀ a, g (f a) = h (g a)) (l : List α) :
    (modifyFirst p f l).map g = modifyFirst q h (l.map g) := by
  induction l with
  | nil => rfl
  | cons a l ih =>
      simp only [modifyFirst, List.map_cons, hp a]
      split
      · simp [hg]
      · simp [ih]

end ModifyFirst

namespace Table

variable {ρ : Type u} [Record ρ]

/-- Find the first row that satisfies `p` and write to it by its key. -/
def updateFirst (t : Table ρ) (p : ρ → Bool) (f : ρ → ρ)
    (hf : ∀ r, Record.key (f r) = Record.key r) : Table ρ :=
  match t.firstWhere p with
  | none => t
  | some r => t.update (Record.key r) f hf

/-- Along increasing keys, writing to every row with the key of the first
match is writing to the first match. -/
theorem map_key_eq_modifyFirst {p : ρ → Bool} {f : ρ → ρ} {l : List ρ}
    (hpw : l.Pairwise (fun a b => Record.key a < Record.key b)) {r : ρ}
    (h : l.find? p = some r) :
    l.map (fun s => if Record.key s = Record.key r then f s else s)
      = modifyFirst p f l := by
  induction l with
  | nil => simp at h
  | cons a l ih =>
      rw [List.pairwise_cons] at hpw
      rw [List.find?_cons] at h
      cases hp : p a with
      | true =>
          simp only [hp, Option.some.injEq] at h
          subst h
          -- no later row carries the key of the first one
          have htail : l.map (fun s => if Record.key s = Record.key a then f s else s)
              = l := by
            conv_rhs => rw [← List.map_id l]
            refine List.map_congr_left fun s hs => ?_
            have := hpw.1 s hs
            rw [if_neg (by omega)]; rfl
          simp [modifyFirst, hp, htail]
      | false =>
          have hr : l.find? p = some r := by simpa [hp] using h
          have hlt := hpw.1 r (List.mem_of_find?_eq_some hr)
          have hne : ¬ Record.key a = Record.key r := by omega
          simp [modifyFirst, hp, hne, ih hpw.2 hr]

/-- Writing by the key of the first match changes the first match and
nothing else. -/
theorem rows_updateFirst (t : Table ρ) (p : ρ → Bool) (f : ρ → ρ)
    (hf : ∀ r, Record.key (f r) = Record.key r) :
    (t.updateFirst p f hf).rows = modifyFirst p f t.rows := by
  unfold updateFirst firstWhere
  cases h : t.rows.find? p with
  | none => exact (modifyFirst_of_find?_eq_none h).symm
  | some r => exact map_key_eq_modifyFirst t.increasing h

end Table

end HomeWarranty.Lib
