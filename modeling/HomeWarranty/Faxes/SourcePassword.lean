/-
HomeWarranty.Faxes.SourcePassword — the passwords of the fax sources'
mailboxes.

`password=` fills a password up to 16 characters and keeps it as Base64
text; `password` decodes the text and strips it. An empty password is no
password: it leaves the old one. Every column can be posted, the encoded
text included, and what is posted is assigned in the order it came in.

Two results are about runs. A mailbox is opened with the last password
that an accepted request set for its source, without the blanks around it
(`last_password_opens`). And what the actions for the browser answer does
not depend on the passwords (`passwords_stay_hidden`).
-/
import HomeWarranty.Lib.Base64
import HomeWarranty.Lib.FormQuery
import HomeWarranty.Admin.CustomerEdit

namespace HomeWarranty.Faxes

open Lib Ruby

/-! ## The password of a row -/

/-- A row of `fax_sources`. -/
structure MailboxSource where
  id : Nat
  name : Option String
  number : Option String
  address : Option String
  key : Option String
  passwordHash : Option String
  deriving DecidableEq

instance : Record MailboxSource where
  key := MailboxSource.id
  withKey n r := { r with id := n }
  key_withKey := fun _ _ => rfl

/-- `ljust(width, ' ')`. -/
def ljust (s : String) (width : Nat) : List Char :=
  s.toList ++ List.replicate (width - s.length) ' '

def spaceByte (b : UInt8) : Bool := (9 ≤ b && b ≤ 13) || b == 32

/-- `strip` of a text that is bytes. -/
def stripBytes (bs : List UInt8) : List UInt8 :=
  ((bs.dropWhile spaceByte).reverse.dropWhile fun b => spaceByte b || b == 0).reverse

/-- `Base64.encode64(password.ljust(16, ' '))`. -/
def hashOf (password : String) : String :=
  String.ofList (Base64.encode64 (utf8 (ljust password 16)))

/-- `password=`. -/
def MailboxSource.setPassword (r : MailboxSource) : Option String → MailboxSource
  | none => r
  | some s => if s = "" then r else { r with passwordHash := some (hashOf s) }

/-- `password`. -/
def MailboxSource.password (r : MailboxSource) : List UInt8 :=
  match r.passwordHash with
  | none => []
  | some hash => stripBytes (Base64.decode64 hash.toList)

/-! ## Requests -/

inductive SourceAttribute where
  | name
  | number
  | address
  | key
  | password
  | passwordHash
  deriving DecidableEq

/-- `params[:fax_source]`, in the order of its keys. -/
abbrev SourceForm := List (SourceAttribute × Option String)

def MailboxSource.set (r : MailboxSource) (value : Option String) : SourceAttribute → MailboxSource
  | .name => { r with name := value }
  | .number => { r with number := value }
  | .address => { r with address := value }
  | .key => { r with key := value }
  | .password => r.setPassword value
  | .passwordHash => { r with passwordHash := value }

/-- `source.attributes = params`. -/
def MailboxSource.assign (r : MailboxSource) (form : SourceForm) : MailboxSource :=
  form.foldl (fun r a => r.set a.2 a.1) r

/-- `validates_presence_of :key, :address, :number, :name`. -/
def MailboxSource.valid (r : MailboxSource) : Bool :=
  presentOpt r.key && presentOpt r.address && presentOpt r.number && presentOpt r.name

/-- The characters that fit into a number of bytes. -/
def takeBytes : Nat → List Char → List Char
  | _, [] => []
  | n, c :: cs => if c.utf8Size ≤ n then c :: takeBytes (n - c.utf8Size) cs else []

/-- What a text column holds. -/
def blobColumn (s : String) : String := String.ofList (takeBytes 65535 s.toList)

/-- `UPDATE` of the columns that changed. -/
def MailboxSource.write (row now : MailboxSource) : MailboxSource :=
  { row with
    name := Admin.writtenText row.name now.name
    number := Admin.writtenText row.number now.number
    address := Admin.writtenText row.address now.address
    key := Admin.writtenText row.key now.key
    passwordHash := if now.passwordHash = row.passwordHash then row.passwordHash
      else now.passwordHash.map blobColumn }

/-- `as_json`. -/
structure SourceJson where
  id : Nat
  name : Option String
  number : Option String
  address : Option String
  key : Option String
  password : String
  deriving DecidableEq

/-- `fake_password`. -/
def fakePassword : String := "******"

def MailboxSource.asJson (r : MailboxSource) : SourceJson where
  id := r.id
  name := r.name
  number := r.number
  address := r.address
  key := r.key
  password := fakePassword

inductive SourceRequest where
  | asyncList
  | asyncUpdate (id : Option String) (form : SourceForm)
  | edit (id : Option String)
  | update (id : Option String) (form : SourceForm)

inductive SourceReply where
  | sources (l : List SourceJson)
  | source (j : SourceJson)
  | toIndex
  /-- The form, with the password in its field. -/
  | edit (r : MailboxSource) (password : List UInt8)
  | failed (e : RubyError)

/-- `update_attributes`: was it saved, and the source as it is now. -/
def updateSource (t : Table MailboxSource) (row : MailboxSource) (form : SourceForm) :
    Bool × MailboxSource × Table MailboxSource :=
  let now := row.assign form
  if now.valid then (true, now, t.update row.id (fun r => r.write now) fun _ => rfl)
  else (false, now, t)

/-- `FaxSourcesController`. -/
def sourceStep (t : Table MailboxSource) : SourceRequest → SourceReply × Table MailboxSource
  | .asyncList => (.sources (t.rows.map MailboxSource.asJson), t)
  | .asyncUpdate id form =>
      match findRecord t id with
      | .error e => (.failed e, t)
      | .ok row =>
          let (_, now, t) := updateSource t row form
          (.source now.asJson, t)
  | .edit id =>
      match findRecord t id with
      | .error e => (.failed e, t)
      | .ok row => (.edit row row.password, t)
  | .update id form =>
      match findRecord t id with
      | .error e => (.failed e, t)
      | .ok row =>
          let (saved, _, t) := updateSource t row form
          -- the form is rendered without a source to show
          (if saved then .toIndex else .failed .noMethodError, t)

/-! ## Reading a password back -/

/-- Blanks at the end are stripped, however many. -/
theorem stripBytes_append_blanks (bs : List UInt8) (k : Nat) :
    stripBytes (bs ++ List.replicate k 32) = stripBytes bs := by
  have hblanks : ∀ p : UInt8 → Bool, p 32 = true →
      (List.replicate k (32 : UInt8)).dropWhile p = [] := by
    intro p hp
    simp [hp]
  unfold stripBytes
  rw [List.dropWhile_append]
  by_cases hall : bs.dropWhile spaceByte = []
  · simp [hall, hblanks spaceByte (by decide)]
  · rw [if_neg (by simpa using hall), List.reverse_append, List.reverse_replicate,
      List.dropWhile_append, hblanks _ (by decide)]
    simp

theorem utf8_ljust (s : String) (width : Nat) :
    utf8 (ljust s width) = utf8 s.toList ++ List.replicate (width - s.length) 32 := by
  rw [ljust, utf8_append]
  congr 1
  induction width - s.length with
  | zero => rfl
  | succ k ih => rw [List.replicate_succ, utf8_cons, ih, List.replicate_succ]; rfl

/-- A hash gives the password back, stripped. -/
theorem password_hashOf (s : String) :
    stripBytes (Base64.decode64 (hashOf s).toList) = stripBytes (utf8 s.toList) := by
  rw [hashOf, String.toList_ofList, Base64.decode_encode, utf8_ljust, stripBytes_append_blanks]

theorem stripBytes_stripBytes (bs : List UInt8) : stripBytes (stripBytes bs) = stripBytes bs := by
  have hfront : (stripBytes bs).dropWhile spaceByte = stripBytes bs := by
    -- what is left of the front by stripping the end begins as the front does
    have hprefix : stripBytes bs <+: bs.dropWhile spaceByte := by
      rw [← List.reverse_suffix, stripBytes, List.reverse_reverse]
      exact List.dropWhile_suffix _
    cases hs : stripBytes bs with
    | nil => rfl
    | cons b rest =>
        rw [hs] at hprefix
        obtain ⟨tail, htail⟩ := hprefix
        have hb : spaceByte b = false := by
          have := List.head?_dropWhile_not spaceByte bs
          rw [← htail] at this
          simpa using this
        rw [List.dropWhile_cons, hb, if_neg Bool.false_ne_true]
  rw [stripBytes, hfront, stripBytes, List.reverse_reverse, List.dropWhile_idempotent]

theorem stripBytes_password (r : MailboxSource) : stripBytes r.password = r.password := by
  unfold MailboxSource.password
  cases r.passwordHash with
  | none => rfl
  | some hash => exact stripBytes_stripBytes _

theorem password_setPassword {s : String} (h : s ≠ "") (r : MailboxSource) :
    (r.setPassword (some s)).password = stripBytes (utf8 s.toList) := by
  simp only [MailboxSource.setPassword, if_neg h]
  exact password_hashOf s

/-- The form of a source, sent as it was shown, leaves the password. -/
theorem password_resubmitted (r : MailboxSource) (s : String) (h : utf8 s.toList = r.password) :
    (r.setPassword (some s)).password = r.password := by
  by_cases hempty : s = ""
  · simp [MailboxSource.setPassword, hempty]
  · rw [password_setPassword hempty, h, stripBytes_password]

/-! ## What a column keeps of a hash -/

theorem takeBytes_of_fits {n : Nat} {cs : List Char} (hsize : ∀ c ∈ cs, c.utf8Size = 1)
    (h : cs.length ≤ n) : takeBytes n cs = cs := by
  induction cs generalizing n with
  | nil => rfl
  | cons c cs ih =>
      have hc := hsize c (by simp)
      simp only [List.length_cons] at h
      rw [takeBytes, hc, if_pos (by omega), ih (fun d hd => hsize d (by simp [hd])) (by omega)]

theorem blobColumn_hashOf {s : String} (h : (utf8 s.toList).length ≤ 48314) :
    blobColumn (hashOf s) = hashOf s := by
  have hlength : (hashOf s).toList.length ≤ 65535 := by
    have hpadded : (utf8 (ljust s 16)).length ≤ 48330 := by
      rw [utf8_ljust, List.length_append, List.length_replicate]
      omega
    have hencoded := Base64.length_encode64_le (utf8 (ljust s 16))
    rw [hashOf, String.toList_ofList]
    omega
  have hsize : ∀ c ∈ (hashOf s).toList, c.utf8Size = 1 := by
    intro c hc
    rw [hashOf, String.toList_ofList] at hc
    exact Base64.utf8Size_of_mem_encode64 hc
  rw [blobColumn, takeBytes_of_fits hsize hlength, String.ofList_toList]

/-! ## What a form sets -/

/-- The password that is set after one more assignment. -/
def setBy (set : Option String) : SourceAttribute × Option String → Option String
  | (.password, some s) => if s = "" then set else some s
  | _ => set

theorem setBy_cases (set : Option String) (a : SourceAttribute × Option String) :
    setBy set a = set ∨ ∃ s, a = (.password, some s) ∧ s ≠ "" ∧ setBy set a = some s := by
  obtain ⟨posted, value⟩ := a
  cases posted with
  | password =>
      cases value with
      | none => exact .inl rfl
      | some s =>
          by_cases hs : s = ""
          · exact .inl (if_pos hs)
          · exact .inr ⟨s, rfl, hs, if_neg hs⟩
  | name => exact .inl rfl
  | number => exact .inl rfl
  | address => exact .inl rfl
  | key => exact .inl rfl
  | passwordHash => exact .inl rfl

/-- The password a form sets: the last that is not empty. -/
def passwordOf (form : SourceForm) : Option String := form.foldl setBy none

/-- The encoded text is not posted, and the passwords fit the column. -/
def Fits (form : SourceForm) : Prop :=
  ∀ a ∈ form, a.1 ≠ .passwordHash ∧
    ∀ s, a = (.password, some s) → (utf8 s.toList).length ≤ 48314

/-- The encoded text after `password` was set, if it was. -/
def hashAfter (old : Option String) : Option String → Option String
  | none => old
  | some s => some (hashOf s)

theorem passwordHash_set {now : MailboxSource} {old set : Option String}
    (hnow : now.passwordHash = hashAfter old set) {a : SourceAttribute × Option String}
    (ha : a.1 ≠ .passwordHash) :
    (now.set a.2 a.1).passwordHash = hashAfter old (setBy set a) := by
  obtain ⟨posted, value⟩ := a
  cases posted with
  | password =>
      cases value with
      | none => exact hnow
      | some s =>
          by_cases hs : s = ""
          · simp [MailboxSource.set, MailboxSource.setPassword, setBy, hs, hnow]
          · simp [MailboxSource.set, MailboxSource.setPassword, setBy, hs, hashAfter]
  | passwordHash => exact absurd rfl ha
  | name => exact hnow
  | number => exact hnow
  | address => exact hnow
  | key => exact hnow

theorem passwordHash_foldl {form : SourceForm} (h : Fits form) {now : MailboxSource}
    {old set : Option String} (hnow : now.passwordHash = hashAfter old set) :
    (form.foldl (fun r a => r.set a.2 a.1) now).passwordHash
      = hashAfter old (form.foldl setBy set) := by
  induction form generalizing now set with
  | nil => exact hnow
  | cons a form ih =>
      rw [List.foldl_cons, List.foldl_cons]
      exact ih (fun b hb => h b (by simp [hb])) (passwordHash_set hnow (h a (by simp)).1)

/-- What a form does to the encoded text. -/
theorem passwordHash_assign {form : SourceForm} (h : Fits form) (r : MailboxSource) :
    (r.assign form).passwordHash = hashAfter r.passwordHash (passwordOf form) :=
  passwordHash_foldl h rfl

/-- A password that was posted and counts. -/
def Posted (s : String) : Prop := s ≠ "" ∧ (utf8 s.toList).length ≤ 48314

theorem posted_foldl {form : SourceForm} (h : Fits form) {set : Option String}
    (hset : ∀ s, set = some s → Posted s) {s : String} (hs : form.foldl setBy set = some s) :
    Posted s := by
  induction form generalizing set with
  | nil => exact hset s hs
  | cons a form ih =>
      refine ih (fun b hb => h b (by simp [hb])) (fun s' hs' => ?_) hs
      rcases setBy_cases set a with hkept | ⟨posted, ha, hne, hnew⟩
      · exact hset s' (hkept ▸ hs')
      · rw [hnew] at hs'
        cases hs'
        exact ⟨hne, (h a (by simp)).2 s' ha⟩

theorem posted_passwordOf {form : SourceForm} (h : Fits form) {s : String}
    (hs : passwordOf form = some s) : Posted s :=
  posted_foldl h (by simp) hs

/-- The password of a row after a form was saved. -/
theorem password_write {form : SourceForm} (h : Fits form) (r : MailboxSource) :
    (r.write (r.assign form)).password =
      match passwordOf form with
      | none => r.password
      | some s => stripBytes (utf8 s.toList) := by
  have hassign := passwordHash_assign h r
  cases hs : passwordOf form with
  | none =>
      rw [hs, hashAfter] at hassign
      simp [MailboxSource.write, MailboxSource.password, hassign]
  | some s =>
      rw [hs, hashAfter] at hassign
      have hkept := blobColumn_hashOf (posted_passwordOf h hs).2
      have hwritten : (r.write (r.assign form)).passwordHash = some (hashOf s) := by
        by_cases hsame : some (hashOf s) = r.passwordHash
        · simp [MailboxSource.write, hassign, hsame]
        · simp [MailboxSource.write, hassign, hsame, hkept]
      rw [MailboxSource.password, hwritten]
      exact password_hashOf s

/-! ## The last password -/

def SourceRequest.Fits : SourceRequest → Prop
  | .asyncUpdate _ form => Faxes.Fits form
  | .update _ form => Faxes.Fits form
  | _ => True

/-- The source whose password a form sets, and the password. -/
def passwordSet (row : MailboxSource) (form : SourceForm) : Option (Nat × String) :=
  if (row.assign form).valid then (passwordOf form).map fun s => (row.id, s) else none

/-- The passwords, one for every source, after one was set. -/
def noteSet (l : Nat → List UInt8) : Option (Nat × String) → Nat → List UInt8
  | none => l
  | some (id, s) => fun k => if k = id then stripBytes (utf8 s.toList) else l k

/-- The passwords beside the table: of every source the last one set. -/
def trackStep (s : Table MailboxSource × (Nat → List UInt8)) (r : SourceRequest) :
    Table MailboxSource × (Nat → List UInt8) :=
  ((sourceStep s.1 r).2,
    match r with
    | .asyncUpdate id form | .update id form =>
        match findRecord s.1 id with
        | .error _ => s.2
        | .ok row => noteSet s.2 (passwordSet row form)
    | _ => s.2)

/-- The passwords of the rows are those beside the table. -/
def Tracked (s : Table MailboxSource × (Nat → List UInt8)) : Prop :=
  ∀ r ∈ s.1.rows, r.password = s.2 r.id

/-- A form, saved or not. -/
theorem tracked_updateSource {t : Table MailboxSource} {l : Nat → List UInt8} (h : Tracked (t, l))
    {form : SourceForm} (hform : Fits form) {row : MailboxSource} (hrow : row ∈ t.rows) :
    Tracked ((updateSource t row form).2.2, noteSet l (passwordSet row form)) := by
  cases hvalid : (row.assign form).valid with
  | false => simpa [updateSource, passwordSet, noteSet, hvalid] using h
  | true =>
      intro r hr
      simp only [updateSource, passwordSet, hvalid, if_true] at hr ⊢
      obtain ⟨old, hold, ⟨hid, rfl⟩ | ⟨hid, rfl⟩⟩ := t.mem_update.mp hr
      · -- the row of the form
        have hsame : old = row := t.eq_of_key_eq hold hrow hid
        subst hsame
        rw [password_write hform old]
        cases passwordOf form with
        | none => exact h old hold
        | some s => simp [noteSet, MailboxSource.write]
      · have hne : r.id ≠ row.id := hid
        cases passwordOf form with
        | none => exact h r hold
        | some s => simpa [noteSet, hne] using h r hold

theorem tracked_trackStep {s : Table MailboxSource × (Nat → List UInt8)} (h : Tracked s)
    (r : SourceRequest) (hr : r.Fits) : Tracked (trackStep s r) := by
  obtain ⟨t, l⟩ := s
  have hform : ∀ (id : Option String) (form : SourceForm) (row : MailboxSource), Faxes.Fits form →
      findRecord t id = .ok row →
      Tracked ((updateSource t row form).2.2, noteSet l (passwordSet row form)) := by
    intro id form row hfits hfind
    exact tracked_updateSource h hfits (Table.mem_of_find? (find?_of_findRecord hfind))
  cases r with
  | asyncList => exact h
  | edit id => cases hfind : findRecord t id <;> simpa [trackStep, sourceStep, hfind] using h
  | asyncUpdate id form =>
      cases hfind : findRecord t id with
      | error e => simpa [trackStep, sourceStep, hfind] using h
      | ok row => simpa [trackStep, sourceStep, hfind] using hform id form row hr hfind
  | update id form =>
      cases hfind : findRecord t id with
      | error e => simpa [trackStep, sourceStep, hfind] using h
      | ok row => simpa [trackStep, sourceStep, hfind] using hform id form row hr hfind

/-- The passwords that the sources have. -/
def passwordsIn (t : Table MailboxSource) (k : Nat) : List UInt8 :=
  ((t.find? k).map MailboxSource.password).getD []

/-- After every run of requests the mailbox of a source is opened with
the password that was set last, as it was typed but for blanks around it. -/
theorem last_password_opens (t : Table MailboxSource) (rs : List SourceRequest)
    (h : ∀ r ∈ rs, r.Fits) : Tracked (run trackStep (t, passwordsIn t) rs) := by
  have hstart : Tracked (t, passwordsIn t) := by
    intro r hr
    show r.password = ((t.find? (Record.key r)).map MailboxSource.password).getD []
    rw [t.find?_key hr]
    rfl
  have hsteps : StepsOk trackStep (fun _ r => r.Fits) (t, passwordsIn t) rs :=
    stepsOk_of_forall fun pre r post heq => h r (by simp [heq])
  exact run_invariant_of_steps Tracked (fun s r hs hr => tracked_trackStep hs r hr) rs _ hsteps
    hstart

/-- The customers' mailbox as it is set up, and as the row keeps it. -/
def customersSource : MailboxSource where
  id := 1
  name := some "customer source"
  number := some "00000"
  address := some "update@this.com"
  key := some "customers"
  passwordHash := some (hashOf "change password")

/-- The second request names an empty password, and changes the name. -/
def passwordRequests : List SourceRequest :=
  [.asyncUpdate (some "1") [(.password, some " open sesame")],
    .update (some "1") [(.password, some ""), (.name, some "faxes")]]

theorem open_sesame :
    Tracked (run trackStep (.ofRows [customersSource], passwordsIn (.ofRows [customersSource]))
        passwordRequests) ∧
      (run trackStep (.ofRows [customersSource], passwordsIn (.ofRows [customersSource]))
        passwordRequests).2 1 = utf8 "open sesame".toList := by
  refine ⟨last_password_opens _ _ ?_, by decide +kernel⟩
  have hbytes : (utf8 " open sesame".toList).length ≤ 48314 := by decide
  simp only [passwordRequests, List.forall_mem_cons, SourceRequest.Fits, Fits]
  simpa [-utf8_cons] using hbytes

/-! ## What the browser gets -/

/-- The row without its password. -/
def MailboxSource.hidden (r : MailboxSource) : MailboxSource := { r with passwordHash := none }

/-- The tables differ in the passwords alone. -/
def SameButPasswords (t u : Table MailboxSource) : Prop :=
  t.rows.map MailboxSource.hidden = u.rows.map MailboxSource.hidden

/-- Every request but for the form, which shows the password. -/
def SourceRequest.Hides : SourceRequest → Prop
  | .edit _ => False
  | _ => True

theorem hidden_set (r : MailboxSource) (value : Option String) (a : SourceAttribute) :
    (r.set value a).hidden = (r.hidden.set value a).hidden := by
  cases a with
  | password =>
      cases value with
      | none => rfl
      | some s =>
          by_cases hs : s = "" <;>
            simp [MailboxSource.set, MailboxSource.setPassword, MailboxSource.hidden, hs]
  | name => rfl
  | number => rfl
  | address => rfl
  | key => rfl
  | passwordHash => rfl

theorem hidden_assign {r s : MailboxSource} (h : r.hidden = s.hidden) (form : SourceForm) :
    (r.assign form).hidden = (s.assign form).hidden := by
  unfold MailboxSource.assign
  induction form generalizing r s with
  | nil => exact h
  | cons a form ih => exact ih (by rw [hidden_set r, hidden_set s, h])

theorem valid_hidden (r : MailboxSource) : r.hidden.valid = r.valid := rfl

theorem asJson_hidden (r : MailboxSource) : r.hidden.asJson = r.asJson := rfl

theorem hidden_write (r now : MailboxSource) :
    (r.write now).hidden = (r.hidden.write now.hidden).hidden := rfl

/-- A source is found in both or in none. -/
theorem SameButPasswords.found {t u : Table MailboxSource} (h : SameButPasswords t u)
    (id : Option String) :
    (∃ e, findRecord t id = .error e ∧ findRecord u id = .error e) ∨
      ∃ r s, findRecord t id = .ok r ∧ findRecord u id = .ok s ∧ r.hidden = s.hidden := by
  cases id with
  | none => exact .inl ⟨.recordNotFound, rfl, rfl⟩
  | some id =>
      have hfind : ∀ v : Table MailboxSource, (findByIdText v id).map MailboxSource.hidden
          = (v.rows.map MailboxSource.hidden).find?
              fun r => decide ((Record.key r : Int) = toI id) := by
        intro v
        rw [List.find?_map]
        rfl
      have hboth : (findByIdText t id).map MailboxSource.hidden
          = (findByIdText u id).map MailboxSource.hidden := by rw [hfind t, hfind u, h]
      simp only [findRecord, Option.bind_some]
      cases ht : findByIdText t id <;> cases hu : findByIdText u id <;> simp_all

theorem hidden_rows_update (v : Table MailboxSource) (k : Nat) (now : MailboxSource)
    (hf : ∀ r : MailboxSource, Record.key (r.write now) = Record.key r) :
    (v.update k (fun r => r.write now) hf).rows.map MailboxSource.hidden
      = (v.rows.map MailboxSource.hidden).map fun r =>
          if r.id = k then (r.write now.hidden).hidden else r := by
  rw [Table.rows_update, List.map_map, List.map_map]
  refine List.map_congr_left fun r _ => ?_
  by_cases hk : r.id = k
  · have hkey : Record.key r = k := hk
    have hhidden : r.hidden.id = k := hk
    simp only [Function.comp_apply, if_pos hkey, if_pos hhidden]
    exact hidden_write r now
  · have hkey : ¬ Record.key r = k := hk
    have hhidden : ¬ r.hidden.id = k := hk
    simp only [Function.comp_apply, if_neg hkey, if_neg hhidden]

/-- A form changes two such tables alike. -/
theorem SameButPasswords.updateSource {t u : Table MailboxSource} (h : SameButPasswords t u)
    {r s : MailboxSource} (hrs : r.hidden = s.hidden) (form : SourceForm) :
    (updateSource t r form).1 = (updateSource u s form).1 ∧
      (updateSource t r form).2.1.asJson = (updateSource u s form).2.1.asJson ∧
      SameButPasswords (updateSource t r form).2.2 (updateSource u s form).2.2 := by
  have hnow := hidden_assign hrs form
  have hid : r.hidden.id = s.hidden.id := by rw [hrs]
  have hvalid : (r.assign form).valid = (s.assign form).valid := by
    rw [← valid_hidden, hnow, valid_hidden]
  have hjson : (r.assign form).asJson = (s.assign form).asJson := by
    rw [← asJson_hidden, hnow, asJson_hidden]
  cases hs : (s.assign form).valid with
  | false => simp [Faxes.updateSource, hvalid, hs, hjson, h]
  | true =>
      simp only [Faxes.updateSource, hvalid, hs, if_true, hjson, true_and]
      have hrow := hidden_rows_update t r.id (r.assign form) fun _ => rfl
      have hrow' := hidden_rows_update u s.id (s.assign form) fun _ => rfl
      refine hrow.trans (Eq.trans ?_ hrow'.symm)
      rw [h, hnow, show r.id = s.id from hid]

theorem sourceStep_of_same {t u : Table MailboxSource} (h : SameButPasswords t u)
    (r : SourceRequest)
    (hr : r.Hides) :
    (sourceStep t r).1 = (sourceStep u r).1 ∧
      SameButPasswords (sourceStep t r).2 (sourceStep u r).2 := by
  cases r with
  | asyncList =>
      have hlist : ∀ v : Table MailboxSource, v.rows.map MailboxSource.asJson
          = (v.rows.map MailboxSource.hidden).map MailboxSource.asJson := by
        intro v
        rw [List.map_map]
        rfl
      refine ⟨?_, h⟩
      simp only [sourceStep]
      rw [hlist t, hlist u, h]
  | edit id => exact hr.elim
  | asyncUpdate id form =>
      rcases h.found id with ⟨e, ht, hu⟩ | ⟨r, s, ht, hu, hrs⟩
      · simp [sourceStep, ht, hu, h]
      · obtain ⟨-, hjson, hnext⟩ := h.updateSource hrs form
        simp only [sourceStep, ht, hu]
        exact ⟨congrArg SourceReply.source hjson, hnext⟩
  | update id form =>
      rcases h.found id with ⟨e, ht, hu⟩ | ⟨r, s, ht, hu, hrs⟩
      · simp [sourceStep, ht, hu, h]
      · obtain ⟨hsaved, -, hnext⟩ := h.updateSource hrs form
        simp only [sourceStep, ht, hu]
        exact ⟨by rw [hsaved], hnext⟩

/-- Apart from the form itself, no answer tells anything about a
password: two databases that differ in passwords alone answer every run
of requests alike. -/
theorem passwords_stay_hidden (t u : Table MailboxSource) (h : SameButPasswords t u)
    (rs : List SourceRequest) (hrs : ∀ r ∈ rs, r.Hides) :
    answers sourceStep t rs = answers sourceStep u rs :=
  answers_eq_of_related SameButPasswords (fun _ _ r hrel hr => sourceStep_of_same hrel r hr)
    rs t u hrs h

theorem change_password_stays_hidden :
    answers sourceStep (.ofRows [customersSource]) passwordRequests
      = answers sourceStep (.ofRows [{ customersSource with passwordHash := none }])
        passwordRequests :=
  passwords_stay_hidden _ _ rfl _ (by simp [passwordRequests, SourceRequest.Hides])

end HomeWarranty.Faxes
