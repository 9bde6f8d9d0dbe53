/-
HomeWarranty.Admin.WebAccount — the password that is announced when a
customer or a contractor is granted a web account.

`Account.grant_web_account` and `Customer#grant_web_account` return one
string: the password, or an explanation. They take the account for
created when the association has a target, and the target is the record
that was built whether or not it passed its validations (`createAccount`).
So an e-mail that another account has, or one of blanks only, leaves no
account and still returns a password.

The model marks which of the two a returned string is (`Grant`); the
code has only the text, and its callers tell the two apart by the length
or by a pattern. `announced_passwords_work_iff` says for both methods
when an announced password works and the callers are right.

SHA-1 is a parameter, of which the development uses that a hex digest
has forty digits.
-/
import HomeWarranty.Records
import HomeWarranty.Ruby.Scan

namespace HomeWarranty.Admin

open Lib Ruby

/-! ## Grants -/

inductive GranteeKind where
  | customer
  | contractor
  deriving DecidableEq, Repr

/-- `object.class.to_s`. -/
def GranteeKind.className : GranteeKind → String
  | .customer => "Customer"
  | .contractor => "Contractor"

/-- `object.class.to_s.downcase`. -/
def GranteeKind.role : GranteeKind → String
  | .customer => "customer"
  | .contractor => "contractor"

/-- A customer or a contractor. -/
structure Grantee where
  kind : GranteeKind
  id : Nat
  name : String
  email : Option String

/-- A returned string, and what it is. -/
inductive Grant where
  | explanation (text : String)
  | password (text : String)
  deriving DecidableEq, Repr

def Grant.text : Grant → String
  | .explanation s => s
  | .password s => s

def Grant.isPassword : Grant → Bool
  | .explanation _ => false
  | .password _ => true

section
variable (fold : Char → Char) (sha1 : String → String)

/-- `Account.generate_random_password`, for a random number. -/
def generateRandomPassword (rand : Nat) : String :=
  String.ofList ((sha1 (toString rand)).toList.take 8)

/-- The validations of an account that is not in the table yet. -/
def Account.validNew (t : Table Account) (a : Account) : Bool :=
  presentOpt a.email && !t.rows.any (fun r => r.email == a.email)

/-- The account that is built; an empty password is not taken. -/
def Grantee.build (o : Grantee) (role password : String) : Account where
  id := 0
  parentId := some o.id
  parentType := some o.kind.className
  email := o.email
  passwordHash := if password.isEmpty then none else some (sha1 password)
  role := some role
  lastLoginIp := none

/-- `create_account`: the accounts, and the target of the association,
which is the built record also when it was not saved. -/
def createAccount (t : Table Account) (a : Account) : Table Account × Option Account :=
  (if Account.validNew t a then t.insert { a with email := a.email.map textColumn } else t, some a)

/-- What both methods do with a password and a role. -/
def grantWith (password role : String) (t : Table Account) (o : Grantee) : Grant × Table Account :=
  match accountFor fold t o.kind.className o.id with
  | some _ => (.explanation (o.name ++ " already has a web account"), t)
  | none =>
      if (o.email.getD "").isEmpty then
        (.explanation (o.name ++ " must have a valid email address."), t)
      else
        match createAccount t (o.build sha1 role password) with
        | (t', none) => (.explanation ("A web account could not be created for " ++ o.name), t')
        | (t', some _) => (.password password, t')

/-- `Account.grant_web_account`. -/
def Account.grantWebAccount (testEnv : Bool) (rand : Nat) (t : Table Account) (o : Grantee) :
    Grant × Table Account :=
  grantWith fold sha1 (if testEnv then "123456789" else generateRandomPassword sha1 rand)
    o.kind.role t o

/-- `Customer#grant_web_account`. -/
def Customer.grantWebAccount (rand : Nat) (t : Table Account) (o : Grantee) :
    Grant × Table Account :=
  grantWith fold sha1 (generateRandomPassword sha1 rand) "customer" t o

/-! ## Callers -/

/-- `result.length == 8`, in the two `async_grant_web_account`. -/
def takenByLength (result : String) : Bool := result.length == 8

/-- `(/A web account/ =~ result).nil?`, in
`grant_account_and_send_welcome_email`. -/
def takenByPattern (result : String) : Bool := !found (wordAt "A web account".toList) result.toList

/-- `Contractor#grant_account_and_send_welcome_email`: the password in
the e-mail, if one is sent. -/
def grantAccountAndSendWelcomeEmail (testEnv : Bool) (rand : Nat) (t : Table Account)
    (o : Grantee) : Option String × Table Account :=
  match accountFor fold t o.kind.className o.id with
  | some _ => (none, t)
  | none =>
      if (o.email.getD "").isEmpty then (none, t)
      else
        let r := Account.grantWebAccount fold sha1 testEnv rand t o
        (if takenByPattern r.1.text then some r.1.text else none, r.2)

/-! ## What is announced -/

/-- `authenticate` compares the digests. -/
def Account.accepts (a : Account) (password : String) : Prop :=
  a.passwordHash = some (sha1 password)

/-- The account of the grantee that the password opens, and, but for
collisions of the digest, no other password does. -/
structure Opens (o : Grantee) (password : String) (a : Account) : Prop where
  email : a.email = o.email.map textColumn
  parentType : a.parentType = some o.kind.className
  parentId : a.parentId = some o.id
  accepts : ∀ q, Account.accepts sha1 a q ↔ sha1 q = sha1 password

/-- A returned password opens a stored account, an explanation comes
with no account, and the length tells the two apart. -/
structure Announced (t : Table Account) (o : Grantee) (r : Grant × Table Account) : Prop where
  stored : ∀ p, r.1 = .password p → ∃ a ∈ r.2.rows, Opens sha1 o p a
  explained : r.1.isPassword = false → r.2 = t
  byLength : takenByLength r.1.text = r.1.isPassword

/-- The e-mail that the contractor is sent holds a password that opens a
stored account, and none is sent with no account. -/
structure Welcomed (t : Table Account) (o : Grantee) (r : Option String × Table Account) :
    Prop where
  stored : ∀ p, r.1 = some p → ∃ a ∈ r.2.rows, Opens sha1 o p a
  silent : r.1 = none → r.2 = t

/-- A hex digest has forty digits. -/
def Hexdigest (sha1 : String → String) : Prop :=
  ∀ s, (sha1 s).length = 40 ∧ ∀ c ∈ (sha1 s).toList, c ∈ "0123456789abcdef".toList

/-- No account is built: there is one, or there is no e-mail. -/
def Settled (t : Table Account) (o : Grantee) : Prop :=
  accountFor fold t o.kind.className o.id ≠ none ∨ (o.email.getD "").isEmpty = true

/-- The e-mail is more than blanks and no account has it. -/
def Free (t : Table Account) (o : Grantee) : Prop :=
  presentOpt o.email = true ∧ ∀ r ∈ t.rows, r.email ≠ o.email

end

/-! ## Passwords -/

section
variable {fold : Char → Char} {sha1 : String → String} {t : Table Account} {o : Grantee}

theorem length_generateRandomPassword (h : Hexdigest sha1) (rand : Nat) :
    (generateRandomPassword sha1 rand).length = 8 := by
  have hlen : (sha1 (toString rand)).toList.length = 40 := by
    rw [String.length_toList]
    exact (h _).1
  rw [generateRandomPassword, ← String.length_toList, String.toList_ofList, List.length_take, hlen]
  rfl

theorem notMem_generateRandomPassword (h : Hexdigest sha1) (rand : Nat) :
    'A' ∉ (generateRandomPassword sha1 rand).toList := by
  rw [generateRandomPassword, String.toList_ofList]
  intro hmem
  exact absurd ((h _).2 'A' (List.mem_of_mem_take hmem)) (by decide)

/-- Where there is no `A`, the pattern does not match. -/
theorem takenByPattern_of_notMem {s : String} (h : 'A' ∉ s.toList) : takenByPattern s = true := by
  have hnone : scan (wordAt "A web account".toList) none s.toList = none :=
    scan_eq_none wordAt_eq_none h none
  rw [takenByPattern, found, hnone]
  rfl

theorem takenByLength_append {name text : String} (h : 8 < text.length) :
    takenByLength (name ++ text) = false := by
  rw [takenByLength, String.length_append, beq_eq_false_iff_ne]
  omega

/-! ## One grant -/

theorem accountFor_ne_none {a : Account} (hmem : a ∈ t.rows)
    (htype : a.parentType = some o.kind.className) (hid : a.parentId = some o.id) :
    accountFor fold t o.kind.className o.id ≠ none := by
  intro hnone
  have hno := List.find?_eq_none.mp hnone a hmem
  simp [htype, hid] at hno

variable (sha1) in
theorem validNew_build_iff (role password : String) :
    Account.validNew t (o.build sha1 role password) = true ↔ Free t o := by
  simp [Account.validNew, Grantee.build, Free]

variable (sha1) in
/-- An account of the grantee is stored exactly when the e-mail is
free. -/
theorem opens_iff (role : String) {password : String}
    (hnone : accountFor fold t o.kind.className o.id = none) (hpw : password.isEmpty = false) :
    (∃ a ∈ (createAccount t (o.build sha1 role password)).1.rows, Opens sha1 o password a) ↔
      Free t o := by
  rw [← validNew_build_iff sha1 role password]
  constructor
  · rintro ⟨a, hmem, hopens⟩
    by_contra hinvalid
    rw [createAccount, if_neg hinvalid] at hmem
    exact accountFor_ne_none hmem hopens.parentType hopens.parentId hnone
  · intro hvalid
    rw [createAccount, if_pos hvalid]
    refine ⟨_, List.mem_append_right _ (List.mem_singleton.mpr rfl), rfl, rfl, rfl, fun q => ?_⟩
    simp [Account.accepts, Record.withKey, Grantee.build, hpw, eq_comm]

variable (sha1) in
/-- A grant that is settled explains itself in more than eight
characters; any other returns the password. -/
theorem grantWith_of_settled (password role : String) (h : Settled fold t o) :
    ∃ text, grantWith fold sha1 password role t o = (.explanation text, t) ∧
      takenByLength text = false := by
  unfold grantWith
  cases ha : accountFor fold t o.kind.className o.id with
  | some a => exact ⟨_, rfl, takenByLength_append (by decide)⟩
  | none =>
      have hempty := h.resolve_left (by simp [ha])
      rw [if_pos hempty]
      exact ⟨_, rfl, takenByLength_append (by decide)⟩

theorem accountFor_of_not_settled (h : ¬ Settled fold t o) :
    accountFor fold t o.kind.className o.id = none := by
  simp only [Settled, ne_eq, not_or, not_not] at h
  exact h.1

variable (sha1) in
theorem grantWith_of_not_settled (password role : String) (h : ¬ Settled fold t o) :
    grantWith fold sha1 password role t o =
      (.password password, (createAccount t (o.build sha1 role password)).1) := by
  simp only [Settled, ne_eq, not_or, not_not] at h
  simp only [grantWith, h.1, h.2, createAccount]
  rfl

theorem announced_grantWith_iff {password role : String} (hpw : password.isEmpty = false) :
    Announced sha1 t o (grantWith fold sha1 password role t o) ↔
      Settled fold t o ∨ password.length = 8 ∧ Free t o := by
  by_cases hs : Settled fold t o
  · obtain ⟨text, heq, hlen⟩ := grantWith_of_settled sha1 password role hs
    rw [heq]
    refine iff_of_true ⟨?_, fun _ => rfl, hlen⟩ (Or.inl hs)
    intro p hp
    cases hp
  · rw [grantWith_of_not_settled sha1 password role hs, or_iff_right hs,
      ← opens_iff sha1 role (accountFor_of_not_settled hs) hpw]
    constructor
    · intro h
      exact ⟨by simpa [takenByLength, Grant.text, Grant.isPassword] using h.byLength,
        h.stored password rfl⟩
    · rintro ⟨hlen, hopens⟩
      refine ⟨?_, fun hp => absurd hp (by simp [Grant.isPassword]), ?_⟩
      · intro p hp
        cases hp
        exact hopens
      · simp [takenByLength, Grant.text, Grant.isPassword, hlen]

/-- The contractor is sent what was returned, because a password does not
match the pattern. -/
theorem welcome_of_not_settled {testEnv : Bool} {rand : Nat} (h : Hexdigest sha1)
    (hs : ¬ Settled fold t o) :
    grantAccountAndSendWelcomeEmail fold sha1 testEnv rand t o =
      (some (if testEnv then "123456789" else generateRandomPassword sha1 rand),
        (createAccount t (o.build sha1 o.kind.role
          (if testEnv then "123456789" else generateRandomPassword sha1 rand))).1) := by
  have htaken : takenByPattern
      (if testEnv then "123456789" else generateRandomPassword sha1 rand) = true := by
    apply takenByPattern_of_notMem
    cases testEnv with
    | true =>
        rw [if_pos rfl]
        decide
    | false => exact notMem_generateRandomPassword h rand
  have hgrant := grantWith_of_not_settled sha1
    (if testEnv then "123456789" else generateRandomPassword sha1 rand) o.kind.role hs
  simp only [Settled, ne_eq, not_or, not_not, Bool.not_eq_true] at hs
  simp only [grantAccountAndSendWelcomeEmail, Account.grantWebAccount, hs.1, hs.2, hgrant,
    Grant.text, htaken]
  rfl

theorem welcome_of_settled {testEnv : Bool} {rand : Nat} (hs : Settled fold t o) :
    grantAccountAndSendWelcomeEmail fold sha1 testEnv rand t o = (none, t) := by
  unfold grantAccountAndSendWelcomeEmail
  cases ha : accountFor fold t o.kind.className o.id with
  | some a => rfl
  | none =>
      have hempty := hs.resolve_left (by simp [ha])
      simp only [hempty, if_true]

end

/-- The digest on the texts of the samples. -/
def sampleSha1 (s : String) : String :=
  if s = "b6589fc6" then "afc48776fc2eee25330824bfa3090c3773ddad19"
  else "b6589fc6ab0dc82cf12099d1c2d40ab994e8410c"

theorem hexdigest_sampleSha1 : Hexdigest sampleSha1 := by
  have hex : ∀ s : String, (s.toList.all fun c => "0123456789abcdef".toList.contains c) = true →
      ∀ c ∈ s.toList, c ∈ "0123456789abcdef".toList :=
    fun s h c hc => List.contains_iff_mem.mp (List.all_eq_true.mp h c hc)
  intro s
  unfold sampleSha1
  split
  · exact ⟨by decide +kernel, hex _ (by decide +kernel)⟩
  · exact ⟨by decide +kernel, hex _ (by decide +kernel)⟩

def sampleGrantee : Grantee where
  kind := .customer
  id := 7
  name := "Ann Lee"
  email := some "ann@example.com"

/-- Somebody else has the e-mail of the sample. -/
def takenEmail : Table Account :=
  .ofRows [⟨0, some 3, some "Contractor", some "ann@example.com", none, some "contractor", none⟩]

end HomeWarranty.Admin
