/-
HomeWarranty.Admin.StatusSlug — `Customer.id_for_status`, which reads the
last segment of a path back into the number of a status.

`generate_status_url` writes the name of a status without its spaces
into the path. The reader goes through the active statuses in key order
and lets a later one take the segment of an earlier one; what belongs to
no active status is read as 0, the number of the status "New", which is
also what the lists of customers start with. `slug_decodes` is what the
reader promises: the status whose segment no other one has, and 0.
-/
import HomeWarranty.Admin.Status

namespace HomeWarranty.Admin

open Lib Ruby

/-! ## Segments -/

/-- `s.split('/').last`; the empty pieces at the end are dropped. -/
def lastSegment (s : String) : Option String :=
  match (s.toList.reverse.dropWhile (· == '/')).takeWhile (· != '/') with
  | [] => none
  | c :: cs => some (String.ofList (c :: cs).reverse)

example : lastSegment "/admin/customers/list/new" = some "new" ∧
    lastSegment "/admin/customers/list//" = some "list" ∧ lastSegment "//" = none := by
  decide +kernel

/-- The key of a status in `status_list`, if it has one. -/
def StatusRow.surl (r : StatusRow) : Except RubyError (Option String) :=
  match r.url with
  | none => .ok none
  | some url =>
      if blank url then .ok none
      else
        match lastSegment url with
        | none => .error .noMethodError
        | some seg => .ok (some seg)

/-- `CustomerStatus.active_status`. -/
def activeStatuses (t : Table StatusRow) : List StatusRow :=
  t.rows.filter fun r => r.active == some true

/-- `status_list`: what is merged last is found first. -/
def statusList : List StatusRow → List (String × Option Int) →
    Except RubyError (List (String × Option Int))
  | [], list => .ok list
  | r :: rs, list =>
      match r.surl with
      | .error e => .error e
      | .ok none => statusList rs list
      | .ok (some seg) => statusList rs ((seg, r.csid) :: list)

/-- `Customer.id_for_status`. -/
def idForStatus (t : Table StatusRow) (slug : String) : Except RubyError Int :=
  (statusList (activeStatuses t) []).map fun list => (list.lookup slug).join.getD 0

/-! ## Tables that saves have built -/

/-- What `generate_status_url` writes for a name. -/
def generatedUrl (name : String) : String :=
  textColumn ("/admin/customers/list/" ++ String.ofList (name.toList.filter (· != ' ')))

/-- Names and codes are there and distinct, and every path was generated
from a name. -/
structure BuiltBySaves (t : Table StatusRow) : Prop where
  valid : ∀ r ∈ t.rows, r.valid t = true
  generated : ∀ r ∈ t.rows, ∃ name, blank name = false ∧ r.url = some (generatedUrl name)

/-- The segment belongs to the status. -/
def HasSlug (r : StatusRow) (slug : String) : Prop := r.url.bind lastSegment = some slug

/-- Every active status is found by its segment, and no status by a
segment that belongs to no active one. -/
def SlugsDecode (t : Table StatusRow) : Prop :=
  (∀ r ∈ activeStatuses t, ∀ slug, HasSlug r slug →
    ∃ k, r.csid = some k ∧ idForStatus t slug = .ok k) ∧
  ∀ slug, (∀ r ∈ activeStatuses t, ¬ HasSlug r slug) →
    ∀ r ∈ t.rows, ∀ k, r.csid = some k → idForStatus t slug ≠ .ok k

/-! ## Reading a list of segments -/

/-- A text with a character besides slashes has a segment. -/
theorem exists_lastSegment {s : String} {c : Char} (hc : c ∈ s.toList) (hne : c ≠ '/') :
    ∃ seg, lastSegment s = some seg := by
  unfold lastSegment
  cases hd : s.toList.reverse.dropWhile (· == '/') with
  | nil =>
      have hall := List.dropWhile_eq_nil_iff.mp hd c (List.mem_reverse.mpr hc)
      simp [hne] at hall
  | cons d ds =>
      have hhead : (d == '/') = false := by
        have hnot := List.head_dropWhile_not (fun c => c == '/') (l := s.toList.reverse)
          (by rw [hd]; simp)
        simpa [hd] using hnot
      have hkeep : (d != '/') = true := by simpa [bne] using hhead
      simp only [List.takeWhile_cons, hkeep, if_true]
      exact ⟨_, rfl⟩

theorem surl_of_generated {r : StatusRow} {name : String}
    (h : r.url = some (generatedUrl name)) :
    ∃ seg, HasSlug r seg ∧ r.surl = .ok (some seg) := by
  have hmem : 'a' ∈ (generatedUrl name).toList := by
    simp only [generatedUrl, textColumn, String.toList_ofList, String.toList_append]
    rw [List.take_append]
    exact List.mem_append_left _ (by decide +kernel)
  obtain ⟨seg, hseg⟩ := exists_lastSegment hmem (by decide)
  have hblank : blank (generatedUrl name) = false := by
    rw [← Bool.not_eq_true]
    intro hall
    have hspace := List.all_eq_true.mp hall 'a' hmem
    revert hspace
    decide
  refine ⟨seg, ?_, ?_⟩
  · rw [HasSlug, h, Option.bind_some, hseg]
  · simp [StatusRow.surl, h, hblank, hseg]

/-- The list for statuses that all have a segment. -/
theorem statusList_eq {rs : List StatusRow} {seg : StatusRow → String}
    (h : ∀ r ∈ rs, r.surl = .ok (some (seg r))) (list : List (String × Option Int)) :
    statusList rs list = .ok ((rs.map fun r => (seg r, r.csid)).reverse ++ list) := by
  induction rs generalizing list with
  | nil => rfl
  | cons r rs ih =>
      rw [statusList, h r List.mem_cons_self]
      simp only
      rw [ih fun r' hr' => h r' (List.mem_cons_of_mem _ hr')]
      simp

/-- All values under a key are one. -/
theorem lookup_eq_some {α β : Type} [DecidableEq α] {l : List (α × β)} {k : α} {v : β}
    (hall : ∀ e ∈ l, e.1 = k → e.2 = v) (hex : ∃ e ∈ l, e.1 = k) : l.lookup k = some v := by
  induction l with
  | nil => simp at hex
  | cons e l ih =>
      obtain ⟨a, b⟩ := e
      by_cases ha : a = k
      · subst ha
        have hb := hall (a, b) List.mem_cons_self rfl
        simp only at hb
        rw [List.lookup_cons_self, hb]
      · have hne : (k == a) = false := by simpa using Ne.symm ha
        rw [List.lookup_cons, hne]
        refine ih (fun e he => hall e (List.mem_cons_of_mem _ he)) ?_
        obtain ⟨e, he, hk⟩ := hex
        rcases List.mem_cons.mp he with rfl | he
        · exact absurd hk ha
        · exact ⟨e, he, hk⟩

theorem lookup_eq_none {α β : Type} [DecidableEq α] {l : List (α × β)} {k : α}
    (h : ∀ e ∈ l, e.1 ≠ k) : l.lookup k = none := by
  refine List.lookup_eq_none_iff.mpr fun e he => bne_iff_ne.mpr ?_
  exact (h e he).symm

/-- What is in the list, for a table that saves have built. -/
theorem idForStatus_eq {t : Table StatusRow} (h : BuiltBySaves t) :
    ∃ seg : StatusRow → String, (∀ r ∈ activeStatuses t, ∀ slug, HasSlug r slug ↔ seg r = slug) ∧
      ∀ slug, idForStatus t slug
        = .ok (((((activeStatuses t).map fun r => (seg r, r.csid)).reverse).lookup
            slug).join.getD 0) := by
  let seg : StatusRow → String := fun r => (r.url.bind lastSegment).getD ""
  have hseg : ∀ r ∈ activeStatuses t, HasSlug r (seg r) ∧ r.surl = .ok (some (seg r)) := by
    intro r hr
    obtain ⟨name, _, hurl⟩ := h.generated r (List.mem_of_mem_filter hr)
    obtain ⟨s, hslug, hsurl⟩ := surl_of_generated hurl
    have hs : seg r = s := by
      show (r.url.bind lastSegment).getD "" = s
      rw [hslug]
      rfl
    rw [hs]
    exact ⟨hslug, hsurl⟩
  refine ⟨seg, fun r hr slug => ?_, fun slug => ?_⟩
  · have hown := (hseg r hr).1
    unfold HasSlug at hown ⊢
    rw [hown, Option.some.injEq]
  · unfold idForStatus
    rw [statusList_eq fun r hr => (hseg r hr).2, List.append_nil]
    rfl

/-- **Status slugs decode**: an active status is found by its segment if
no active status with another number has it, and a segment that belongs
to no active status is read as 0. -/
theorem slug_decodes (t : Table StatusRow) (h : BuiltBySaves t) :
    (∀ r ∈ activeStatuses t, ∀ slug, HasSlug r slug →
      (∀ r' ∈ activeStatuses t, HasSlug r' slug → r'.csid = r.csid) →
      idForStatus t slug = .ok (r.csid.getD 0)) ∧
    ∀ slug, (∀ r ∈ activeStatuses t, ¬ HasSlug r slug) →
      idForStatus t slug = .ok 0 ∧
        ∀ r ∈ t.rows, ∀ k, r.csid = some k → idForStatus t slug = .ok k → k = 0 := by
  obtain ⟨seg, hseg, hid⟩ := idForStatus_eq h
  constructor
  · intro r hr slug hslug hsame
    have hlookup : (((activeStatuses t).map fun r => (seg r, r.csid)).reverse).lookup slug
        = some r.csid := by
      refine lookup_eq_some ?_ ⟨(seg r, r.csid), ?_, (hseg r hr slug).mp hslug⟩
      · intro e he hk
        obtain ⟨r', hr', rfl⟩ := List.mem_map.mp (List.mem_reverse.mp he)
        exact hsame r' hr' ((hseg r' hr' slug).mpr hk)
      · exact List.mem_reverse.mpr (List.mem_map.mpr ⟨r, hr, rfl⟩)
    rw [hid, hlookup]
    rfl
  · intro slug hnone
    have hlookup : (((activeStatuses t).map fun r => (seg r, r.csid)).reverse).lookup slug
        = none := by
      refine lookup_eq_none fun e he hk => ?_
      obtain ⟨r', hr', rfl⟩ := List.mem_map.mp (List.mem_reverse.mp he)
      exact hnone r' hr' ((hseg r' hr' slug).mpr hk)
    have hzero : idForStatus t slug = .ok 0 := by
      rw [hid, hlookup]
      rfl
    refine ⟨hzero, fun r _ k _ hk => ?_⟩
    rw [hzero] at hk
    exact (Except.ok.inj hk).symm

/-! ## The status "New" -/

def builtStatuses : Table StatusRow :=
  .ofRows [⟨0, some 0, some "New", some "New", some true, some (generatedUrl "New")⟩,
    ⟨0, some 1, some "LM", some "Left Message", some true, some (generatedUrl "Left Message")⟩]

theorem builtStatuses_built : BuiltBySaves builtStatuses := by
  constructor
  · decide +kernel
  · intro r hr
    have hurl : r.url = some (generatedUrl "New") ∨ r.url = some (generatedUrl "Left Message") := by
      revert r
      decide +kernel
    rcases hurl with hurl | hurl
    · exact ⟨"New", by decide +kernel, hurl⟩
    · exact ⟨"Left Message", by decide +kernel, hurl⟩

/-- A segment of no status is read as the number of "New". -/
theorem unknown_slug_is_new : ¬ ∀ t : Table StatusRow, BuiltBySaves t → SlugsDecode t := by
  intro hall
  have hnone : ∀ r ∈ activeStatuses builtStatuses, ¬ HasSlug r "nosuch" := by
    unfold HasSlug
    decide +kernel
  have h := (hall builtStatuses builtStatuses_built).2 "nosuch" hnone
    ⟨1, some 0, some "New", some "New", some true, some (generatedUrl "New")⟩
    (by decide +kernel) 0 rfl
  revert h
  decide +kernel

theorem leftMessage_decodes : idForStatus builtStatuses "LeftMessage" = .ok 1 := by
  have h := (slug_decodes builtStatuses builtStatuses_built).1
    ⟨2, some 1, some "LM", some "Left Message", some true, some (generatedUrl "Left Message")⟩
    (by decide +kernel) "LeftMessage" (by unfold HasSlug; decide +kernel)
    (by unfold HasSlug; decide +kernel)
  exact h

end HomeWarranty.Admin
