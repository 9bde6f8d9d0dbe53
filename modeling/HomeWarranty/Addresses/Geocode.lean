/-
HomeWarranty.Addresses.Geocode — the coordinates of an address, over every run
of edits, saves and duplications.

`Address#create_geocode` runs before every save. It asks the geocoder
unless the address is geocoded already, and an address is geocoded when
the text it remembers (`geocoded_address`) is the text it has. What the
geocoder answers decides what is left in the record: an answer is
written together with the text it was asked for, a failure leaves the old
coordinates with the old text, a timeout or an exception clears all
three.

`Sound` is the invariant that carries the result: the remembered text and
the coordinates are an answer that was given for that text, as the columns
keep it. It does not mention the text the record has now, so edits cannot
break it.

Coordinates are values of any type, and `float` is what a FLOAT column
gives back of one. The columns of the texts hold 255 characters. A row
holds what its columns keep; the object that was saved goes on holding what
was written, until it is found again. Which texts the geocoder was asked,
and what it answered, is kept beside the records (`answers`).
-/
import HomeWarranty.Lib.Run
import HomeWarranty.Ruby.Column

namespace HomeWarranty.Addresses

open Lib Ruby

/-! ## Addresses -/

structure Address (κ : Type) where
  address : String
  address2 : String
  address3 : String
  city : String
  state : String
  zipCode : String
  country : String
  lat : Option κ
  lng : Option κ
  geocodedAddress : Option String
  /-- `should_skip_verification_and_geocoding`, which is not a column. -/
  shouldSkip : Bool

inductive AddressField where
  | address
  | address2
  | address3
  | city
  | state
  | zipCode
  | country
  deriving DecidableEq, Repr

/-- What the geocoder does when it is asked. -/
inductive Outcome (κ : Type) where
  | success (lat lng : Option κ)
  | failure
  | timeout
  | exception

section
variable {κ : Type}

/-- `Address.new`. -/
def Address.new : Address κ where
  address := ""
  address2 := ""
  address3 := ""
  city := ""
  state := ""
  zipCode := ""
  country := "United States of America"
  lat := none
  lng := none
  geocodedAddress := none
  shouldSkip := false

def Address.edit (a : Address κ) (v : String) : AddressField → Address κ
  | .address => { a with address := v }
  | .address2 => { a with address2 := v }
  | .address3 => { a with address3 := v }
  | .city => { a with city := v }
  | .state => { a with state := v }
  | .zipCode => { a with zipCode := v }
  | .country => { a with country := v }

/-- `city_state_zip`. -/
def Address.cityStateZip (a : Address κ) : String :=
  ", ".intercalate [a.city, a.state] ++ " " ++ a.zipCode

/-- `to_s`. -/
def Address.toS (a : Address κ) : String :=
  " ".intercalate [a.address, a.address2, a.address3, a.cityStateZip]

/-- The characters of `to_s`. -/
theorem Address.toList_toS (a : Address κ) :
    a.toS.toList = a.address.toList ++ ' ' :: (a.address2.toList ++ ' ' :: (a.address3.toList ++
      ' ' :: (a.city.toList ++ ',' :: ' ' :: (a.state.toList ++ ' ' :: a.zipCode.toList)))) := by
  simp [toS, cityStateZip]

/-- `remove_geocode`. -/
def Address.removeGeocode (a : Address κ) : Address κ :=
  { a with lat := none, lng := none, geocodedAddress := none }

/-- `geocoded?`. -/
def Address.geocoded (a : Address κ) : Bool :=
  a.lat.isSome && a.lng.isSome && a.geocodedAddress == some a.toS

/-- `lat_lng`, the longitude first. -/
def Address.latLng (a : Address κ) : Option (κ × κ) :=
  if a.geocoded then
    match a.lng, a.lat with
    | some lng, some lat => some (lng, lat)
    | _, _ => none
  else none

/-- `geocode`; the second part says that it raises. -/
def Address.geocode (production : Bool) (a : Address κ) (o : Outcome κ) : Address κ × Bool :=
  if a.shouldSkip then (a, false)
  else
    match o with
    | .success lat lng =>
        ({ a with lat := lat, lng := lng, geocodedAddress := some a.toS }, false)
    | .failure => (a, false)
    | .timeout => (a.removeGeocode, false)
    | .exception => (a.removeGeocode, !production)

/-- `create_geocode`. -/
def Address.createGeocode (production : Bool) (a : Address κ) (o : Outcome κ) : Address κ :=
  if a.geocoded then a
  else
    let (b, raised) := a.geocode production o
    if raised then b.removeGeocode else b

/-- The answer that is got while an address is saved, if the geocoder is
asked and answers. -/
def Address.answer (a : Address κ) (o : Outcome κ) : List (String × Option κ × Option κ) :=
  if a.geocoded || a.shouldSkip then []
  else
    match o with
    | .success lat lng => [(a.toS, lat, lng)]
    | _ => []

/-- The record that `duplicate_for_addressable!` creates: all text and
coordinates are accessible and copied. -/
def Address.copied (a : Address κ) : Address κ := { a with shouldSkip := false }

/-! ## Records -/

/-- An object and the row it was saved to. -/
structure AddressRecord (κ : Type) where
  object : Address κ
  row : Option (Address κ)

structure AddressBook (κ : Type) where
  records : List (AddressRecord κ)
  answers : List (String × Option κ × Option κ)

def AddressBook.empty : AddressBook κ where
  records := []
  answers := []

inductive AddressEvent (κ : Type) where
  | build
  | edit (i : Nat) (field : AddressField) (v : String)
  | setSkip (i : Nat) (skip : Bool)
  | save (i : Nat) (o : Outcome κ)
  /-- `duplicate_for_addressable!`. -/
  | duplicate (i : Nat) (o : Outcome κ)
  /-- The record is found again; edits that were not saved are lost. -/
  | reload (i : Nat)

/-- What the columns of the table keep of an address. -/
def Address.kept (float : κ → κ) (a : Address κ) : Address κ where
  address := textColumn a.address
  address2 := textColumn a.address2
  address3 := textColumn a.address3
  city := textColumn a.city
  state := textColumn a.state
  zipCode := textColumn a.zipCode
  country := textColumn a.country
  lat := a.lat.map float
  lng := a.lng.map float
  geocodedAddress := a.geocodedAddress.map textColumn
  shouldSkip := false

/-- The record after a save. -/
def Address.saved (float : κ → κ) (production : Bool) (a : Address κ) (o : Outcome κ) :
    AddressRecord κ where
  object := a.createGeocode production o
  row := some ((a.createGeocode production o).kept float)

def AddressRecord.found (r : AddressRecord κ) : AddressRecord κ :=
  match r.row with
  | none => r
  | some a => { r with object := a }

def AddressBook.step (float : κ → κ) (production : Bool) (b : AddressBook κ) :
    AddressEvent κ → AddressBook κ
  | .build => { b with records := b.records ++ [{ object := Address.new, row := none }] }
  | .edit i field v =>
      { b with
        records := b.records.modify i fun r => { r with object := r.object.edit v field } }
  | .setSkip i skip =>
      { b with
        records := b.records.modify i fun r =>
          { r with object := { r.object with shouldSkip := skip } } }
  | .save i o =>
      match b.records[i]? with
      | none => b
      | some r =>
          { records := b.records.set i (r.object.saved float production o)
            answers := b.answers ++ r.object.answer o }
  | .duplicate i o =>
      match b.records[i]? with
      | none => b
      | some r =>
          { records := b.records ++ [r.object.copied.saved float production o]
            answers := b.answers ++ r.object.copied.answer o }
  | .reload i => { b with records := b.records.modify i AddressRecord.found }

/-! ## Answers -/

/-- The text now is the one that was asked for, or all that the column kept
of it. -/
def Recalls (now asked : String) : Prop :=
  now = asked ∨ 255 < asked.length ∧ now = textColumn asked

/-- A value that was written, or what the column gave back of it. -/
def Keeps (float : κ → κ) (now written : Option κ) : Prop :=
  now = written ∨ now = written.map float

theorem Recalls.textColumn {now asked : String} (h : Recalls now asked) :
    Recalls (textColumn now) asked := by
  rcases h with rfl | ⟨hlong, rfl⟩
  · rcases Nat.lt_or_ge 255 now.length with hlong | hfits
    · exact .inr ⟨hlong, rfl⟩
    · exact .inl (textColumn_of_le (by rwa [String.length_toList]))
  · exact .inr ⟨hlong, textColumn_textColumn asked⟩

/-- A column keeps what it gave back. -/
theorem Keeps.map {float : κ → κ} (hfloat : ∀ x, float (float x) = float x)
    {now written : Option κ} (h : Keeps float now written) :
    Keeps float (now.map float) written := by
  rcases h with rfl | rfl
  · exact .inr rfl
  · exact .inr (by cases written <;> simp [hfloat])

/-- The coordinates are an answer to the remembered text, as the columns
keep them. -/
def Address.Sound (float : κ → κ) (answers : List (String × Option κ × Option κ))
    (a : Address κ) : Prop :=
  ∀ t, a.geocodedAddress = some t →
    ∃ asked lat lng, (asked, lat, lng) ∈ answers ∧ Recalls t asked ∧
      Keeps float a.lat lat ∧ Keeps float a.lng lng

theorem Address.Sound.mono {float : κ → κ} {answers more : List (String × Option κ × Option κ)}
    {a : Address κ} (h : a.Sound float answers) : a.Sound float (answers ++ more) := by
  intro t ht
  obtain ⟨asked, lat, lng, hmem, hkept⟩ := h t ht
  exact ⟨asked, lat, lng, List.mem_append_left _ hmem, hkept⟩

/-- Edits of the text leave the coordinates and the remembered text
alone. -/
theorem Address.Sound.edit {float : κ → κ} {answers : List (String × Option κ × Option κ)}
    {a : Address κ} (h : a.Sound float answers) (v : String) (field : AddressField) :
    (a.edit v field).Sound float answers := by
  cases field <;> exact h

/-- What the columns keep of sound coordinates is sound. -/
theorem Address.Sound.kept {float : κ → κ} (hfloat : ∀ x, float (float x) = float x)
    {answers : List (String × Option κ × Option κ)} {a : Address κ}
    (h : a.Sound float answers) : (a.kept float).Sound float answers := by
  intro t ht
  obtain ⟨u, hu, rfl⟩ := Option.map_eq_some_iff.mp ht
  obtain ⟨asked, lat, lng, hmem, htext, hlat, hlng⟩ := h u hu
  exact ⟨asked, lat, lng, hmem, htext.textColumn, hlat.map hfloat, hlng.map hfloat⟩

theorem Address.sound_removeGeocode (float : κ → κ)
    (answers : List (String × Option κ × Option κ)) (a : Address κ) :
    a.removeGeocode.Sound float answers := by
  intro t ht
  cases ht

/-- All that a save does: it leaves the record as it is, or without
coordinates, or it writes the answer it got. -/
theorem Address.createGeocode_cases (production : Bool) (a : Address κ) (o : Outcome κ) :
    a.createGeocode production o = a ∨ a.createGeocode production o = a.removeGeocode ∨
      ∃ lat lng, o = .success lat lng ∧ a.answer o = [(a.toS, lat, lng)] ∧
        a.createGeocode production o =
          { a with lat := lat, lng := lng, geocodedAddress := some a.toS } := by
  cases hg : a.geocoded with
  | true => exact .inl (by simp [Address.createGeocode, hg])
  | false =>
      cases hskip : a.shouldSkip with
      | true => exact .inl (by simp [Address.createGeocode, Address.geocode, hg, hskip])
      | false =>
          cases o with
          | success lat lng =>
              refine .inr (.inr ⟨lat, lng, rfl, ?_, ?_⟩)
              · simp [Address.answer, hg, hskip]
              · simp [Address.createGeocode, Address.geocode, hg, hskip]
          | failure => exact .inl (by simp [Address.createGeocode, Address.geocode, hg, hskip])
          | timeout =>
              exact .inr (.inl (by simp [Address.createGeocode, Address.geocode, hg, hskip]))
          | exception =>
              refine .inr (.inl ?_)
              cases production <;>
                simp [Address.createGeocode, Address.geocode, hg, hskip, Address.removeGeocode]

/-- A save leaves an answer to the remembered text: the old one, the new
one, or none. -/
theorem Address.Sound.createGeocode {float : κ → κ}
    {answers : List (String × Option κ × Option κ)} {a : Address κ} (h : a.Sound float answers)
    (production : Bool) (o : Outcome κ) :
    (a.createGeocode production o).Sound float (answers ++ a.answer o) := by
  rcases a.createGeocode_cases production o with heq | heq | ⟨lat, lng, _, hanswer, heq⟩
  · rw [heq]
    exact h.mono
  · rw [heq]
    exact a.sound_removeGeocode float _
  · rw [heq, hanswer]
    intro t ht
    rw [← Option.some.inj ht]
    exact ⟨_, lat, lng, List.mem_append_right _ List.mem_cons_self, .inl rfl, .inl rfl, .inl rfl⟩

/-- A value that is kept was kept of some value. -/
theorem Keeps.some {float : κ → κ} {x : κ} {written : Option κ}
    (h : Keeps float (some x) written) : ∃ y, written = some y ∧ (x = y ∨ x = float y) := by
  rcases h with h | h
  · exact ⟨x, h.symm, .inl rfl⟩
  · obtain ⟨y, rfl, rfl⟩ := Option.map_eq_some_iff.mp h.symm
    exact ⟨y, rfl, .inr rfl⟩

/-- A geocoded address has coordinates that were answered for its own
text. -/
theorem Address.Sound.latLng {float : κ → κ} {answers : List (String × Option κ × Option κ)}
    {a : Address κ} (h : a.Sound float answers) {lng lat : κ} (hl : a.latLng = some (lng, lat)) :
    ∃ asked y x, (asked, some y, some x) ∈ answers ∧ Recalls a.toS asked ∧
      (lat = y ∨ lat = float y) ∧ (lng = x ∨ lng = float x) := by
  unfold Address.latLng at hl
  split at hl
  · rename_i hg
    split at hl
    · rename_i hx hy
      cases hl
      have htext : a.geocodedAddress = some a.toS := by
        simpa [Address.geocoded, hx, hy] using hg
      obtain ⟨asked, ylat, ylng, hmem, hrecalls, hlat, hlng⟩ := h a.toS htext
      rw [hy] at hlat
      rw [hx] at hlng
      obtain ⟨y, rfl, hkeepsLat⟩ := hlat.some
      obtain ⟨x, rfl, hkeepsLng⟩ := hlng.some
      exact ⟨asked, y, x, hmem, hrecalls, hkeepsLat, hkeepsLng⟩
    · cases hl
  · cases hl

/-! ## Runs -/

structure AddressRecord.Sound (float : κ → κ) (answers : List (String × Option κ × Option κ))
    (r : AddressRecord κ) : Prop where
  object : r.object.Sound float answers
  row : ∀ a, r.row = some a → a.Sound float answers

def AddressBook.Inv (float : κ → κ) (b : AddressBook κ) : Prop :=
  ∀ r ∈ b.records, r.Sound float b.answers

theorem AddressRecord.Sound.mono {float : κ → κ}
    {answers more : List (String × Option κ × Option κ)} {r : AddressRecord κ}
    (h : r.Sound float answers) : r.Sound float (answers ++ more) where
  object := h.object.mono
  row := fun a ha => (h.row a ha).mono

/-- A change of one record that keeps it sound keeps the book. -/
theorem AddressBook.Inv.modify {float : κ → κ} {b : AddressBook κ} (h : b.Inv float) (i : Nat)
    {f : AddressRecord κ → AddressRecord κ}
    (hf : ∀ r, r.Sound float b.answers → (f r).Sound float b.answers) :
    ({ b with records := b.records.modify i f } : AddressBook κ).Inv float := by
  intro r hr
  obtain ⟨k, hk⟩ := List.mem_iff_getElem?.mp hr
  rw [List.getElem?_modify] at hk
  obtain ⟨q, hq, rfl⟩ := Option.map_eq_some_iff.mp hk
  have hold : q.Sound float b.answers := h q (List.mem_of_getElem? hq)
  by_cases hki : i = k
  · rw [if_pos hki]
    exact hf q hold
  · rw [if_neg hki]
    exact hold

section
variable {float : κ → κ} (hfloat : ∀ x, float (float x) = float x)
include hfloat

theorem Address.sound_saved {answers : List (String × Option κ × Option κ)} {a : Address κ}
    (h : a.Sound float answers) (production : Bool) (o : Outcome κ) :
    (a.saved float production o).Sound float (answers ++ a.answer o) where
  object := h.createGeocode production o
  row := by
    intro row hrow
    cases hrow
    exact (h.createGeocode production o).kept hfloat

theorem AddressBook.inv_step (production : Bool) (b : AddressBook κ) (e : AddressEvent κ)
    (h : b.Inv float) : (b.step float production e).Inv float := by
  cases e with
  | build =>
      intro r hr
      rcases List.mem_append.mp hr with hold | hnew
      · exact h r hold
      · rw [List.mem_singleton.mp hnew]
        exact ⟨fun t ht => (by cases ht), fun a ha => (by cases ha)⟩
  | edit i field v => exact h.modify i fun r hr => ⟨hr.object.edit v field, hr.row⟩
  | setSkip i skip => exact h.modify i fun r hr => ⟨hr.object, hr.row⟩
  | save i o =>
      cases hi : b.records[i]? with
      | none => simpa only [AddressBook.step, hi] using h
      | some r =>
          simp only [AddressBook.step, hi]
          have hr := (h r (List.mem_of_getElem? hi)).object
          intro q hq
          rcases List.mem_or_eq_of_mem_set hq with hold | rfl
          · exact (h q hold).mono
          · exact r.object.sound_saved hfloat hr production o
  | duplicate i o =>
      cases hi : b.records[i]? with
      | none => simpa only [AddressBook.step, hi] using h
      | some r =>
          simp only [AddressBook.step, hi]
          have hr : r.object.copied.Sound float b.answers := (h r (List.mem_of_getElem? hi)).object
          intro q hq
          rcases List.mem_append.mp hq with hold | hnew
          · exact (h q hold).mono
          · rw [List.mem_singleton.mp hnew]
            exact r.object.copied.sound_saved hfloat hr production o
  | reload i =>
      refine h.modify i fun r hr => ?_
      unfold AddressRecord.found
      cases hrow : r.row with
      | none => exact hr
      | some a => exact ⟨hr.row a hrow, fun q hq => hr.row q (hrow.trans hq)⟩

end

/-! ## Failures -/

/-- The geocoder gave no answer. -/
def Outcome.Fails : Outcome κ → Prop
  | .success _ _ => False
  | _ => True

/-- Without an answer a save leaves the record as it is or without
coordinates. -/
theorem Address.createGeocode_of_fails (production : Bool) {a : Address κ} {o : Outcome κ}
    (h : o.Fails) :
    a.createGeocode production o = a ∨ a.createGeocode production o = a.removeGeocode := by
  rcases a.createGeocode_cases production o with heq | heq | ⟨lat, lng, rfl, _⟩
  · exact .inl heq
  · exact .inr heq
  · exact h.elim

theorem Address.latLng_of_not_remembered {a : Address κ} (h : a.geocodedAddress ≠ some a.toS) :
    a.latLng = none := by
  simp [Address.latLng, Address.geocoded, h]

/-- A save without an answer exposes nothing for a text that is not the
remembered one. -/
theorem Address.latLng_of_fails {production : Bool} {a : Address κ} {o : Outcome κ}
    (ho : o.Fails) (h : a.geocodedAddress ≠ some a.toS) :
    (a.createGeocode production o).toS = a.toS ∧ (a.createGeocode production o).latLng = none := by
  rcases Address.createGeocode_of_fails production ho with heq | heq
  · rw [heq]
    exact ⟨rfl, a.latLng_of_not_remembered h⟩
  · rw [heq]
    exact ⟨rfl, a.removeGeocode.latLng_of_not_remembered (by simp [Address.removeGeocode])⟩

/-- An edit and a save of a record of the book. -/
theorem AddressBook.edit_save {float : κ → κ} {production : Bool} {b : AddressBook κ} {i : Nat}
    {r : AddressRecord κ} (h : b.records[i]? = some r) (field : AddressField) (v : String)
    (o : Outcome κ) :
    (run (AddressBook.step float production) b [.edit i field v, .save i o]).records[i]? =
      some ((r.object.edit v field).saved float production o) := by
  have hi : i < b.records.length := (List.getElem?_eq_some_iff.mp h).1
  have hedit : (b.records.modify i fun r => { r with object := r.object.edit v field })[i]? =
      some { r with object := r.object.edit v field } := by
    simp [h]
  simp only [run_cons, run_nil, AddressBook.step, hedit]
  simp [hi]

/-- Along every run, coordinates are shown only as an answer that the
geocoder gave for exactly the text the record has now, up to what the
columns keep of the answer and of the text; and an edit that is saved
without an answer shows none, unless the new text is the one that was
remembered. -/
theorem coordinates_belong_to_address (float : κ → κ) (hfloat : ∀ x, float (float x) = float x)
    (production : Bool) (es : List (AddressEvent κ)) (i : Nat) (r : AddressRecord κ)
    (h : (run (AddressBook.step float production) AddressBook.empty es).records[i]? = some r) :
    (∀ lng lat, r.object.latLng = some (lng, lat) →
      ∃ asked y x, (asked, some y, some x) ∈
          (run (AddressBook.step float production) AddressBook.empty es).answers ∧
        (r.object.toS = asked ∨ 255 < asked.length ∧ r.object.toS = textColumn asked) ∧
        (lat = y ∨ lat = float y) ∧ (lng = x ∨ lng = float x)) ∧
    (∀ field v o, o.Fails → r.object.geocodedAddress ≠ some (r.object.edit v field).toS →
      ∃ r', (run (AddressBook.step float production) AddressBook.empty
          (es ++ [.edit i field v, .save i o])).records[i]? = some r' ∧
        r'.object.toS = (r.object.edit v field).toS ∧ r'.object.latLng = none) := by
  have hinv : (run (AddressBook.step float production) AddressBook.empty es).Inv float :=
    run_invariant (AddressBook.Inv float) (AddressBook.inv_step hfloat production) es _
      (fun r hr => (by cases hr))
  constructor
  · intro lng lat hl
    exact (hinv r (List.mem_of_getElem? h)).object.latLng hl
  · intro field v o ho hnot
    have hremembered : (r.object.edit v field).geocodedAddress ≠
        some (r.object.edit v field).toS := by
      cases field <;> exact hnot
    refine ⟨(r.object.edit v field).saved float production o, ?_,
      Address.latLng_of_fails ho hremembered⟩
    rw [run_append]
    exact AddressBook.edit_save h field v o

end

/-! ## Columns -/

/-- Four digits after the point: all that a FLOAT column gives back of a
number with two digits before it. -/
def fourDecimals (x : ℚ) : ℚ := ⌊x * 10000 + 1 / 2⌋ / 10000

theorem fourDecimals_fourDecimals (x : ℚ) : fourDecimals (fourDecimals x) = fourDecimals x := by
  have hfloor : ∀ n : ℤ, ⌊(n : ℚ) + 1 / 2⌋ = n := by
    intro n
    rw [Int.floor_intCast_add]
    norm_num
  have hscale : fourDecimals x * 10000 = (⌊x * 10000 + 1 / 2⌋ : ℤ) :=
    div_mul_cancel₀ _ (by norm_num)
  rw [fourDecimals, hscale, hfloor, fourDecimals]

/-- An address that is geocoded and found again. -/
def foundRun : List (AddressEvent ℚ) :=
  [.build, .edit 0 .address "1 Main St", .edit 0 .city "Albany",
    .save 0 (.success (some (426525793 / 10000000)) (some (-737562317 / 10000000))), .reload 0]

/-- A street of 240 characters. -/
def longStreet : String := String.ofList (List.replicate 240 'a')

/-- An address of 259 characters. -/
def longAddress : Address ℚ :=
  { Address.new with
    address := longStreet
    city := "Albany"
    state := "NY"
    zipCode := "12207" }

/-- The long address is geocoded and found again, and then given the ZIP
code with which its text is the part that was remembered. -/
def cutRun : List (AddressEvent ℚ) :=
  [.build, .edit 0 .address longStreet, .edit 0 .city "Albany", .edit 0 .state "NY",
    .edit 0 .zipCode "12207", .save 0 (.success (some 42) (some (-73))), .reload 0,
    .edit 0 .zipCode "1"]

theorem toList_toS_longAddress (zip : String) :
    (longAddress.edit zip .zipCode).toS.toList =
      List.replicate 240 'a' ++ ' ' :: ("".toList ++ ' ' :: ("".toList ++
        ' ' :: ("Albany".toList ++ ',' :: ' ' :: ("NY".toList ++ ' ' :: zip.toList)))) := by
  rw [Address.toList_toS,
    show (longAddress.edit zip .zipCode).address.toList = _ from String.toList_ofList]
  rfl

/-- With the short ZIP code the text is what the column keeps. -/
theorem textColumn_longAddress :
    textColumn longAddress.toS = (longAddress.edit "1" .zipCode).toS := by
  apply String.toList_injective
  rw [textColumn, String.toList_ofList, toList_toS_longAddress,
    show longAddress.toS.toList = _ from toList_toS_longAddress "12207"]
  decide +kernel

theorem toS_longAddress_ne : longAddress.toS ≠ (longAddress.edit "1" .zipCode).toS := by
  intro h
  have hlists := congrArg String.toList h
  rw [toList_toS_longAddress,
    show longAddress.toS.toList = _ from toList_toS_longAddress "12207"] at hlists
  revert hlists
  decide +kernel

/-- The long address as it was geocoded. -/
def geocodedLong : Address ℚ :=
  { longAddress with
    lat := some 42
    lng := some (-73)
    geocodedAddress := some longAddress.toS }

/-- Of the long address the column keeps all but the remembered text. -/
theorem kept_geocodedLong :
    geocodedLong.kept fourDecimals =
      { geocodedLong with geocodedAddress := some (longAddress.edit "1" .zipCode).toS } := by
  have hlength : longStreet.toList.length = 240 :=
    (congrArg List.length String.toList_ofList).trans List.length_replicate
  have hstreet : textColumn longStreet = longStreet :=
    textColumn_of_le (hlength.trans_le (by decide))
  have hcity : textColumn "Albany" = "Albany" := by decide +kernel
  have hstate : textColumn "NY" = "NY" := by decide +kernel
  have hzip : textColumn "12207" = "12207" := by decide +kernel
  have hcountry : textColumn "United States of America" = "United States of America" := by
    decide +kernel
  have hempty : textColumn "" = "" := by decide +kernel
  have hlat : fourDecimals 42 = 42 := by decide +kernel
  have hlng : fourDecimals (-73) = -73 := by decide +kernel
  rw [← textColumn_longAddress]
  simp only [Address.kept, geocodedLong, longAddress, Address.new, Option.map_some, hstreet, hcity,
    hstate, hzip, hcountry, hempty, hlat, hlng]

/-- What the run on the long address ends with. -/
theorem cutRun_records :
    (run (AddressBook.step fourDecimals true) AddressBook.empty cutRun).records[0]? =
      some ⟨(geocodedLong.kept fourDecimals).edit "1" .zipCode,
        some (geocodedLong.kept fourDecimals)⟩ := rfl

theorem latLng_cutRun :
    ((geocodedLong.kept fourDecimals).edit "1" .zipCode).latLng = some (-73, 42) := by
  have htext : ({ geocodedLong with
      geocodedAddress := some (longAddress.edit "1" .zipCode).toS }.edit "1" .zipCode).geocoded
        = true := beq_self_eq_true _
  rw [kept_geocodedLong, Address.latLng, htext]
  rfl

/-- Found again, the coordinates are no answer; and an answer for another
text is shown when the column cuts the text that was asked. -/
theorem coordinates_not_the_answer :
    (∃ r, (run (AddressBook.step fourDecimals true) AddressBook.empty foundRun).records[0]? =
        some r ∧ r.object.latLng = some ((-737562 / 10000 : ℚ), (426526 / 10000 : ℚ)) ∧
      ∀ a ∈ (run (AddressBook.step fourDecimals true) AddressBook.empty foundRun).answers,
        a.2 ≠ (some (426526 / 10000), some (-737562 / 10000))) ∧
    ∃ r, (run (AddressBook.step fourDecimals true) AddressBook.empty cutRun).records[0]? =
        some r ∧ r.object.latLng = some ((-73 : ℚ), (42 : ℚ)) ∧
      ∀ a ∈ (run (AddressBook.step fourDecimals true) AddressBook.empty cutRun).answers,
        a.1 ≠ r.object.toS := by
  refine ⟨⟨_, rfl, by decide +kernel, by decide +kernel⟩, _, cutRun_records, latLng_cutRun, ?_⟩
  intro a ha
  rw [List.mem_singleton.mp (show a ∈ [(longAddress.toS, some 42, some (-73))] from ha),
    kept_geocodedLong]
  exact toS_longAddress_ne

/-- An address that was geocoded, moved and then not found. -/
def movedRun : List (AddressEvent ℚ) :=
  [.build, .edit 0 .address "1 Main St", .edit 0 .city "Albany",
    .save 0 (.success (some (426525793 / 10000000)) (some (-737562317 / 10000000))),
    .reload 0, .edit 0 .city "Troy", .save 0 .failure]

/-- The old coordinates are still in the row and are not shown. -/
theorem coordinates_belong_to_moved :
    ∃ r, (run (AddressBook.step fourDecimals true) AddressBook.empty movedRun).records[0]? =
        some r ∧ r.object.lat = some (426526 / 10000) ∧ r.object.latLng = none ∧
      (∀ lng lat, r.object.latLng = some (lng, lat) →
        ∃ asked y x, (asked, some y, some x) ∈
            (run (AddressBook.step fourDecimals true) AddressBook.empty movedRun).answers ∧
          (r.object.toS = asked ∨ 255 < asked.length ∧ r.object.toS = textColumn asked) ∧
          (lat = y ∨ lat = fourDecimals y) ∧ (lng = x ∨ lng = fourDecimals x)) :=
  ⟨_, rfl, by decide +kernel, by decide +kernel,
    (coordinates_belong_to_address fourDecimals fourDecimals_fourDecimals true movedRun 0 _ rfl).1⟩

end HomeWarranty.Addresses
