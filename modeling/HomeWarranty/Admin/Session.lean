/-
HomeWarranty.Admin.Session — the session of the administration:
`authenticate`, `logout` and the filter `check_login`, over every history
of requests in one session.

The session holds an account id and the time at which it runs out. A
login writes both, the filter takes the id away when the time is over
and otherwise moves the time on, and a login as a customer writes both
and takes the id back at once. `respond` is one request, `Visit.step`
keeps the answers with their times, and `staff_session` says what stands
before each request that passes the filter: `Backed`.

Whether an account belongs to a customer is asked at the LOGIN only. An
action behind the filter may write to the accounts, and `agents#update`
may write their parent type, so the last part of `staff_session` has a
condition; `staff_turned_customer` is a session in which it is not met.

Times are in nanoseconds. A request reads the clock once.
-/
import Mathlib.Data.List.Chain
import HomeWarranty.Lib.Run
import HomeWarranty.Records

namespace HomeWarranty.Admin

open Lib Ruby

/-! ## The session -/

/-- `n.minutes`. -/
def minutes (n : Nat) : Nat := n * 60 * 1000000000

structure Session where
  accountId : Option Nat
  timeoutAfter : Option Nat
  deriving DecidableEq, Repr

/-- A session that begins, or that was reset. -/
def Session.empty : Session := ⟨none, none⟩

/-- `Time.now > (session[:timeout_after] || 1.second.ago)`. -/
def Session.expired (s : Session) (now : Nat) : Bool :=
  match s.timeoutAfter with
  | none => true
  | some t => decide (t < now)

/-- What comes of a request. -/
inductive Outcome where
  | loggedIn (a : Account)
  | loginFailed
  /-- The request passes the filter and runs as this account. -/
  | passed (a : Account)
  /-- The filter takes the account from the session. -/
  | turnedAway
  | loggedOut
  | raised
  deriving DecidableEq

inductive SessionRequest where
  | authenticate (email password : Option String)
  | logout
  /-- An action behind `check_login`, with what it does to the accounts. -/
  | action (effect : Table Account → Table Account)

/-- The letters that `i` takes for one another in the pattern of a
contract number. -/
def foldCase (c : Char) : Char := if c = 'ſ' then 's' else c.toLower

/-- `/^shw1(\d+$)/i`: on one of the lines, the whole line. -/
def isContractLogin (email : String) : Bool :=
  (email.toList.splitOn '\n').any fun line =>
    (line.take 4).map foldCase == ['s', 'h', 'w', '1'] &&
      !(line.drop 4).isEmpty && (line.drop 4).all Char.isDigit

section
variable (fold : Char → Char) (sha1 : String → String) (remoteIp : String)

/-- `Account.empty_account`; the parent id is not accessible. -/
def emptyAccount : Account where
  id := 0
  parentId := none
  parentType := some "Agent"
  email := some "empty"
  passwordHash := some (sha1 "empty")
  role := some "empty"
  lastLoginIp := none

/-- `current_account`. -/
def currentAccount (accounts : Table Account) (s : Session) : Except RubyError Account :=
  match s.accountId with
  | none => .ok (emptyAccount sha1)
  | some id =>
      match accounts.find? id with
      | none => .error .recordNotFound
      | some a => .ok a

/-- `check_login`. -/
def checkLogin (accounts : Table Account) (now : Nat) (s : Session) : Outcome × Session :=
  match currentAccount sha1 accounts s with
  | .error _ => (.raised, s)
  | .ok a =>
      if a.isEmpty || s.expired now then (.turnedAway, { s with accountId := none })
      else (.passed a, { s with timeoutAfter := some (now + minutes 30) })

/-- The account a login is for. -/
def loginAccount (accounts : Table Account) (email : Option String) : Option Account :=
  if presentOpt email && isContractLogin (email.getD "") then none
  else accounts.firstWhere fun a => sqlEq fold a.email email

/-- `account.update_attributes({:last_login_ip => …})`. -/
def recordLogin (accounts : Table Account) (a : Account) : Table Account :=
  if a.valid accounts then
    accounts.update a.id (fun r => { r with lastLoginIp := some remoteIp }) (fun _ => rfl)
  else accounts

/-- The session after a login. -/
def loginSession (a : Account) (now : Nat) : Session :=
  if a.customer then { accountId := none, timeoutAfter := some (now + minutes 1) }
  else { accountId := some a.id, timeoutAfter := some (now + minutes 30) }

/-- `authenticate`; there is no digest of `nil`. -/
def authenticate (accounts : Table Account) (now : Nat) (s : Session)
    (email password : Option String) : Outcome × Session × Table Account :=
  match loginAccount fold accounts email with
  | none => (.loginFailed, s, accounts)
  | some a =>
      match password with
      | none => (.raised, s, accounts)
      | some password =>
          if some (sha1 password) = a.passwordHash then
            (.loggedIn a, loginSession a now, recordLogin remoteIp accounts a)
          else (.loginFailed, s, accounts)

/-- One request: what comes of it, and what it leaves. -/
def respond (accounts : Table Account) (now : Nat) (s : Session) :
    SessionRequest → Outcome × Session × Table Account
  | .authenticate email password => authenticate fold sha1 remoteIp accounts now s email password
  | .logout => (.loggedOut, Session.empty, accounts)
  | .action effect =>
      match checkLogin sha1 accounts now s with
      | (.passed a, s') => (.passed a, s', effect accounts)
      | (o, s') => (o, s', accounts)

/-! ## Histories -/

structure Visit where
  now : Nat
  accounts : Table Account
  session : Session
  /-- What came of the requests so far, and when. -/
  trace : List (Nat × Outcome)

def Visit.start (accounts : Table Account) (now : Nat) : Visit :=
  ⟨now, accounts, Session.empty, []⟩

/-- Some time passes, and a request comes. -/
def Visit.step (v : Visit) (e : Nat × SessionRequest) : Visit :=
  let now := v.now + e.1
  let r := respond fold sha1 remoteIp v.accounts now v.session e.2
  { now := now, accounts := r.2.2, session := r.2.1, trace := v.trace ++ [(now, r.1)] }

end

/-- The times at which requests passed. -/
def passingTimes (trace : List (Nat × Outcome)) : List Nat :=
  trace.filterMap fun e =>
    match e.2 with
    | .passed _ => some e.1
    | _ => none

/-- Nothing that ends the session of this account or begins another. -/
def Outcome.staysWith (id : Nat) : Outcome → Prop
  | .passed a => a.id = id
  | .loginFailed => True
  | .raised => True
  | .loggedIn _ => False
  | .turnedAway => False
  | .loggedOut => False

/-- The history ends in a login as `a`, since which only failed logins,
exceptions and passing requests of the same account came, and no two of
these that follow each other are more than 30 minutes apart. -/
structure Since (trace : List (Nat × Outcome)) (id : Nat) (before : List (Nat × Outcome))
    (at₀ : Nat) (a : Account) (between : List (Nat × Outcome)) : Prop where
  splits : trace = before ++ (at₀, .loggedIn a) :: between
  same : a.id = id
  staff : a.customer = false
  stays : ∀ e ∈ between, e.2.staysWith id
  gaps : (at₀ :: passingTimes between).IsChain fun s t => t ≤ s + minutes 30

/-- What stands before a request that passes as account `id` at time
`t`. -/
def Backed (trace : List (Nat × Outcome)) (t id : Nat) : Prop :=
  ∃ before at₀ a between, Since trace id before at₀ a between ∧
    (at₀ :: passingTimes between ++ [t]).IsChain fun s t => t ≤ s + minutes 30

/-! ## What a request can do -/

section
variable {fold : Char → Char} {sha1 : String → String} {remoteIp : String}

theorem expired_eq_false {s : Session} {now : Nat} (h : s.expired now = false) :
    ∃ d, s.timeoutAfter = some d ∧ now ≤ d := by
  unfold Session.expired at h
  cases ht : s.timeoutAfter with
  | none => simp [ht] at h
  | some d =>
      simp only [ht, decide_eq_false_iff_not, not_lt] at h
      exact ⟨d, rfl, h⟩

/-- Who passes the filter is in the session, and in time. -/
theorem checkLogin_passed {accounts : Table Account} {now : Nat} {s s' : Session} {a : Account}
    (h : checkLogin sha1 accounts now s = (.passed a, s')) :
    s.accountId = some a.id ∧ accounts.find? a.id = some a ∧ s.expired now = false ∧
      s' = { s with timeoutAfter := some (now + minutes 30) } := by
  unfold checkLogin currentAccount at h
  cases hid : s.accountId with
  | none =>
      -- the empty account is empty
      simp [hid, emptyAccount, Account.isEmpty] at h
  | some id =>
      simp only [hid] at h
      cases hf : accounts.find? id with
      | none => simp [hf] at h
      | some b =>
          simp only [hf] at h
          split at h
          · cases h
          · rename_i hopen
            cases h
            have hkey : a.id = id := Table.key_of_find? hf
            simp only [Bool.or_eq_true, not_or, Bool.not_eq_true] at hopen
            exact ⟨by rw [hkey], by rw [hkey, hf], hopen.2, rfl⟩

theorem checkLogin_cases (sha1 : String → String) (accounts : Table Account) (now : Nat)
    (s : Session) :
    checkLogin sha1 accounts now s = (.raised, s) ∨
    checkLogin sha1 accounts now s = (.turnedAway, { s with accountId := none }) ∨
    ∃ a s', checkLogin sha1 accounts now s = (.passed a, s') := by
  unfold checkLogin
  cases currentAccount sha1 accounts s with
  | error e => exact Or.inl rfl
  | ok a =>
      dsimp only
      split
      · exact Or.inr (Or.inl rfl)
      · exact Or.inr (Or.inr ⟨a, _, rfl⟩)

/-- What a request can do: log an account in, leave the session as it
is, end it, or pass. -/
theorem respond_cases {accounts t' : Table Account} {now : Nat} {s s' : Session}
    {r : SessionRequest} {o : Outcome}
    (h : respond fold sha1 remoteIp accounts now s r = (o, s', t')) :
    (∃ a, o = .loggedIn a ∧ s' = loginSession a now ∧ accounts.find? a.id = some a ∧
      t' = recordLogin remoteIp accounts a) ∨
    ((o = .loginFailed ∨ o = .raised) ∧ s' = s ∧ t' = accounts) ∨
    ((o = .loggedOut ∨ o = .turnedAway) ∧ s'.accountId = none ∧ t' = accounts) ∨
    ∃ a d effect, o = .passed a ∧ s.accountId = some a.id ∧ accounts.find? a.id = some a ∧
      s.timeoutAfter = some d ∧ now ≤ d ∧
      s' = { s with timeoutAfter := some (now + minutes 30) } ∧
      r = .action effect ∧ t' = effect accounts := by
  cases r with
  | authenticate email password =>
      simp only [respond, authenticate] at h
      cases hl : loginAccount fold accounts email with
      | none =>
          rw [hl] at h
          cases h
          exact Or.inr (Or.inl ⟨Or.inl rfl, rfl, rfl⟩)
      | some a =>
          simp only [hl] at h
          have hfind : accounts.find? a.id = some a := by
            unfold loginAccount at hl
            split at hl
            · cases hl
            · exact accounts.find?_key (List.mem_of_find?_eq_some hl)
          cases password with
          | none =>
              cases h
              exact Or.inr (Or.inl ⟨Or.inr rfl, rfl, rfl⟩)
          | some password =>
              simp only at h
              split at h
              · cases h
                exact Or.inl ⟨a, rfl, rfl, hfind, rfl⟩
              · cases h
                exact Or.inr (Or.inl ⟨Or.inl rfl, rfl, rfl⟩)
  | logout =>
      cases h
      exact Or.inr (Or.inr (Or.inl ⟨Or.inl rfl, rfl, rfl⟩))
  | action effect =>
      simp only [respond] at h
      rcases checkLogin_cases sha1 accounts now s with hc | hc | ⟨a, s₁, hc⟩
      · rw [hc] at h
        cases h
        exact Or.inr (Or.inl ⟨Or.inr rfl, rfl, rfl⟩)
      · rw [hc] at h
        cases h
        exact Or.inr (Or.inr (Or.inl ⟨Or.inr rfl, rfl, rfl⟩))
      · obtain ⟨hid, hfind, hopen, hs'⟩ := checkLogin_passed hc
        obtain ⟨d, hd, hle⟩ := expired_eq_false hopen
        rw [hc] at h
        cases h
        exact Or.inr (Or.inr (Or.inr ⟨a, d, effect, rfl, hid, hfind, hd, hle, hs', rfl, rfl⟩))

/-! ## Every request that passes -/

/-- What the session holds: an account that logged in, and the time of
its last request, or of the login, plus 30 minutes. -/
def Visit.Tracked (v : Visit) : Prop :=
  ∀ id, v.session.accountId = some id →
    ∃ before at₀ a between, Since v.trace id before at₀ a between ∧
      v.session.timeoutAfter
        = (at₀ :: passingTimes between).getLast?.map fun t => t + minutes 30

/-- Every request of the history that passed is backed. -/
def Visit.Safe (v : Visit) : Prop :=
  ∀ pre t a post, v.trace = pre ++ (t, .passed a) :: post → Backed pre t a.id

theorem passingTimes_append (l k : List (Nat × Outcome)) :
    passingTimes (l ++ k) = passingTimes l ++ passingTimes k := by
  simp [passingTimes, List.filterMap_append]

/-- A request that is in time comes at most 30 minutes after the last. -/
theorem chain_append_of_le {times : List Nat} {now d : Nat}
    (h : times.IsChain fun s t => t ≤ s + minutes 30)
    (hd : some d = times.getLast?.map fun t => t + minutes 30) (hle : now ≤ d) :
    (times ++ [now]).IsChain fun s t => t ≤ s + minutes 30 := by
  refine List.IsChain.append h (List.isChain_singleton _) ?_
  intro x hx y hy
  rw [List.head?_singleton, Option.mem_some_iff] at hy
  rw [Option.mem_def.mp hx, Option.map_some, Option.some.injEq] at hd
  omega

/-- The invariant goes on when nothing happens that touches the session. -/
theorem Since.extend {trace before between : List (Nat × Outcome)} {id at₀ : Nat} {a : Account}
    (h : Since trace id before at₀ a between) {t : Nat} {o : Outcome}
    (ho : o = .loginFailed ∨ o = .raised) :
    Since (trace ++ [(t, o)]) id before at₀ a (between ++ [(t, o)]) ∧
      passingTimes (between ++ [(t, o)]) = passingTimes between := by
  have htimes : passingTimes (between ++ [(t, o)]) = passingTimes between := by
    rw [passingTimes_append]
    rcases ho with rfl | rfl
    · simp [passingTimes]
    · simp [passingTimes]
  refine ⟨⟨by rw [h.splits]; simp, h.same, h.staff, ?_, by rw [htimes]; exact h.gaps⟩, htimes⟩
  intro e he
  rcases List.mem_append.mp he with he | he
  · exact h.stays e he
  · rw [List.mem_singleton] at he
    subst he
    rcases ho with rfl | rfl
    · trivial
    · trivial

/-- The invariant goes on with a request that passes. -/
theorem Since.pass {trace before between : List (Nat × Outcome)} {at₀ t : Nat} {a b : Account}
    (h : Since trace b.id before at₀ a between)
    (hgap : (at₀ :: passingTimes between ++ [t]).IsChain fun s t => t ≤ s + minutes 30) :
    Since (trace ++ [(t, .passed b)]) b.id before at₀ a (between ++ [(t, .passed b)]) ∧
      passingTimes (between ++ [(t, .passed b)]) = passingTimes between ++ [t] := by
  have htimes : passingTimes (between ++ [(t, .passed b)]) = passingTimes between ++ [t] := by
    rw [passingTimes_append]
    rfl
  refine ⟨⟨by rw [h.splits]; simp, h.same, h.staff, ?_, by rw [htimes]; exact hgap⟩, htimes⟩
  intro e he
  rcases List.mem_append.mp he with he | he
  · exact h.stays e he
  · rw [List.mem_singleton] at he
    subst he
    rfl

theorem since_login {trace : List (Nat × Outcome)} {t : Nat} {a : Account}
    (hstaff : a.customer = false) :
    Since (trace ++ [(t, .loggedIn a)]) a.id trace t a [] :=
  ⟨rfl, rfl, hstaff, by simp, List.isChain_singleton _⟩

/-- One more answer at the end of a history: the split is there or
before. -/
theorem split_snoc {α : Type} {l pre post : List α} {e x : α}
    (h : l ++ [e] = pre ++ x :: post) :
    (x = e ∧ pre = l) ∨ ∃ post', l = pre ++ x :: post' := by
  rcases List.eq_nil_or_concat post with rfl | ⟨post', y, rfl⟩
  · obtain ⟨hl, he⟩ := List.append_inj' h rfl
    exact Or.inl ⟨(List.singleton_inj.mp he).symm, hl.symm⟩
  · rw [List.concat_eq_append, ← List.cons_append, ← List.append_assoc] at h
    exact Or.inr ⟨post', (List.append_inj' h rfl).1⟩

/-- The history stays safe when a request that passes is backed. -/
theorem Visit.Safe.snoc {v w : Visit} (h : v.Safe) {t : Nat} {o : Outcome}
    (htrace : w.trace = v.trace ++ [(t, o)])
    (hnew : ∀ a, o = .passed a → Backed v.trace t a.id) : w.Safe := by
  intro pre s a post hsplit
  rw [htrace] at hsplit
  rcases split_snoc hsplit with ⟨he, hpre⟩ | ⟨post', hpost⟩
  · obtain ⟨rfl, ho⟩ := Prod.mk.inj he
    rw [hpre]
    exact hnew a ho.symm
  · exact h pre s a post' hpost

/-- One request of a visit, from the answer it is given. -/
theorem Visit.step_eq {v : Visit} {e : Nat × SessionRequest} {o : Outcome}
    {s' : Session} {t' : Table Account}
    (h : respond fold sha1 remoteIp v.accounts (v.now + e.1) v.session e.2 = ⟨o, s', t'⟩) :
    v.step fold sha1 remoteIp e = ⟨v.now + e.1, t', s', v.trace ++ [(v.now + e.1, o)]⟩ := by
  simp only [Visit.step, h]

/-- The step lemma. -/
theorem tracked_step (v : Visit) (e : Nat × SessionRequest) (ht : v.Tracked) (hs : v.Safe) :
    (v.step fold sha1 remoteIp e).Tracked ∧ (v.step fold sha1 remoteIp e).Safe := by
  rcases hr : respond fold sha1 remoteIp v.accounts (v.now + e.1) v.session e.2 with ⟨o, s', t'⟩
  rw [Visit.step_eq hr]
  rcases respond_cases hr with ⟨a, rfl, hs', _⟩ | ⟨ho, hs', _⟩ | ⟨ho, hs', _⟩ |
    ⟨a, d, effect, rfl, hid, _, hd, hle, hs', _⟩
  · refine ⟨?_, hs.snoc rfl (by simp)⟩
    intro id hid
    simp only [hs', loginSession] at hid ⊢
    split at hid
    · cases hid
    · rename_i hstaff
      cases hid
      rw [if_neg hstaff]
      exact ⟨v.trace, _, a, [], since_login (by simpa using hstaff), rfl⟩
  · refine ⟨?_, hs.snoc rfl (by rintro a rfl; simp at ho)⟩
    intro id hid
    simp only [hs'] at hid ⊢
    obtain ⟨before, at₀, a, between, hsince, htime⟩ := ht id hid
    obtain ⟨hsince', htimes⟩ := hsince.extend (t := v.now + e.1) ho
    exact ⟨before, at₀, a, _, hsince', by rw [htimes]; exact htime⟩
  · refine ⟨?_, hs.snoc rfl (by rintro a rfl; simp at ho)⟩
    intro id hid
    simp only [hs'] at hid
    cases hid
  · obtain ⟨before, at₀, b, between, hsince, htime⟩ := ht a.id hid
    have hgap := chain_append_of_le hsince.gaps (hd.symm.trans htime) hle
    refine ⟨?_, hs.snoc rfl ?_⟩
    · intro id hid'
      simp only [hs', hid, Option.some.injEq] at hid' ⊢
      subst hid'
      obtain ⟨hsince', htimes⟩ := hsince.pass hgap
      refine ⟨before, at₀, b, _, hsince', ?_⟩
      rw [htimes, ← List.cons_append, List.getLast?_concat]
      rfl
    · intro c hc
      cases hc
      exact ⟨before, at₀, b, between, hsince, hgap⟩

/-! ## Accounts that stay what they are -/

/-- The action makes no account of staff into one of a customer, and
does not give an id away a second time. -/
def KeepsStaff (effect : Table Account → Table Account) : Prop :=
  ∀ t, t.nextKey ≤ (effect t).nextKey ∧
    ∀ id b, id < t.nextKey → (effect t).find? id = some b → b.customer = true →
      ∃ a, t.find? id = some a ∧ a.customer = true

/-- The account in the session is not one of a customer. -/
def StaffIn (accounts : Table Account) (s : Session) : Prop :=
  ∀ id, s.accountId = some id →
    id < accounts.nextKey ∧ ∀ a, accounts.find? id = some a → a.customer = false

theorem StaffIn.effect {accounts : Table Account} {s : Session} (h : StaffIn accounts s)
    {effect : Table Account → Table Account} (hk : KeepsStaff effect) :
    StaffIn (effect accounts) s := by
  intro id hid
  obtain ⟨hlt, hstaff⟩ := h id hid
  obtain ⟨hnext, hkeep⟩ := hk accounts
  refine ⟨Nat.lt_of_lt_of_le hlt hnext, fun b hb => ?_⟩
  cases hc : b.customer with
  | false => rfl
  | true =>
      obtain ⟨a, ha, hac⟩ := hkeep id b hlt hb hc
      rw [hstaff a ha] at hac
      cases hac

/-- Recording a login is one of the actions that keep staff. -/
theorem keepsStaff_recordLogin (remoteIp : String) (a : Account) :
    KeepsStaff fun accounts => recordLogin remoteIp accounts a := by
  intro t
  simp only [recordLogin]
  split
  · refine ⟨Nat.le_refl _, fun id b _ hb hc => ?_⟩
    rw [Table.find?_update] at hb
    split at hb
    · obtain ⟨r, hr, rfl⟩ := Option.map_eq_some_iff.mp hb
      exact ⟨r, hr, hc⟩
    · exact ⟨b, hb, hc⟩
  · exact ⟨Nat.le_refl _, fun id b _ hb hc => ⟨b, hb, hc⟩⟩

def SessionRequest.KeepsStaff : SessionRequest → Prop
  | .action effect => Admin.KeepsStaff effect
  | .authenticate _ _ => True
  | .logout => True

/-- Accounts in the session are of staff, and so are those that
passed. -/
def Visit.Staffed (v : Visit) : Prop :=
  StaffIn v.accounts v.session ∧ ∀ t a, (t, Outcome.passed a) ∈ v.trace → a.customer = false

theorem staffed_step (v : Visit) (e : Nat × SessionRequest) (h : v.Staffed)
    (hk : e.2.KeepsStaff) : (v.step fold sha1 remoteIp e).Staffed := by
  obtain ⟨hin, htrace⟩ := h
  rcases hr : respond fold sha1 remoteIp v.accounts (v.now + e.1) v.session e.2 with ⟨o, s', t'⟩
  rw [Visit.step_eq hr]
  -- the history grows by one answer, which has to be looked at when it passed
  have hgrow : (∀ a, o = .passed a → a.customer = false) → ∀ t a,
      (t, Outcome.passed a) ∈ v.trace ++ [(v.now + e.1, o)] → a.customer = false := by
    intro hnew t a hmem
    rcases List.mem_append.mp hmem with hmem | hmem
    · exact htrace t a hmem
    · exact hnew a (Prod.mk.inj (List.mem_singleton.mp hmem)).2.symm
  rcases respond_cases hr with ⟨a, rfl, hs', hfind, ht'⟩ | ⟨ho, hs', ht'⟩ | ⟨ho, hs', ht'⟩ |
    ⟨a, d, effect, rfl, hid, hfind, hd, hle, hs', hreq, ht'⟩
  · refine ⟨?_, hgrow (by simp)⟩
    have hlogin : StaffIn v.accounts s' := by
      intro id hid
      simp only [hs', loginSession] at hid
      split at hid
      · cases hid
      · rename_i hstaff
        cases hid
        refine ⟨v.accounts.fresh a (Table.mem_of_find? hfind), fun b hb => ?_⟩
        rw [hfind] at hb
        cases hb
        simpa using hstaff
    have hafter := hlogin.effect (keepsStaff_recordLogin remoteIp a)
    rw [ht']
    exact hafter
  · refine ⟨?_, hgrow (by rintro a rfl; simp at ho)⟩
    rw [hs', ht']
    exact hin
  · refine ⟨?_, hgrow (by rintro a rfl; simp at ho)⟩
    intro id hid
    simp only [hs'] at hid
    cases hid
  · have hstaff : a.customer = false := (hin a.id hid).2 a hfind
    refine ⟨?_, hgrow fun b hb => by cases hb; exact hstaff⟩
    rw [hreq] at hk
    have hafter := hin.effect hk
    rw [hs', ht']
    exact hafter

end

/-- **Staff sessions**: in every history of one session, a request that
passes as an account comes after a login as that account, with no
logout, no expiry and no other login in between, and without a gap of
more than 30 minutes; the account was not one of a customer when it
logged in, and is not one now if no action made it one. -/
theorem staff_session (fold : Char → Char) (sha1 : String → String) (remoteIp : String)
    (accounts : Table Account) (now : Nat) (visits : List (Nat × SessionRequest))
    (pre : List (Nat × Outcome)) (t : Nat) (a : Account) (post : List (Nat × Outcome))
    (h : (run (Visit.step fold sha1 remoteIp) (Visit.start accounts now) visits).trace
      = pre ++ (t, .passed a) :: post) :
    Backed pre t a.id ∧ ((∀ e ∈ visits, e.2.KeepsStaff) → a.customer = false) := by
  constructor
  · have hstart : (Visit.start accounts now).Tracked ∧ (Visit.start accounts now).Safe := by
      refine ⟨fun id hid => ?_, fun pre t a post hsplit => ?_⟩
      · cases hid
      · simp [Visit.start] at hsplit
    have hstep : ∀ (v : Visit) e, v.Tracked ∧ v.Safe →
        (v.step fold sha1 remoteIp e).Tracked ∧ (v.step fold sha1 remoteIp e).Safe :=
      fun v e hv => tracked_step v e hv.1 hv.2
    have hinv := run_invariant (fun v : Visit => v.Tracked ∧ v.Safe) hstep visits
      (Visit.start accounts now) hstart
    exact hinv.2 pre t a post h
  · intro hkeep
    have hok : StepsOk (Visit.step fold sha1 remoteIp) (fun _ e => e.2.KeepsStaff)
        (Visit.start accounts now) visits :=
      stepsOk_of_forall fun _ e _ hsplit => hkeep e (by rw [hsplit]; simp)
    have hstart : (Visit.start accounts now).Staffed := by
      refine ⟨fun id hid => ?_, fun t a ha => ?_⟩
      · cases hid
      · cases ha
    have hinv := run_invariant_of_steps Visit.Staffed staffed_step visits
      (Visit.start accounts now) hok hstart
    refine hinv.2 t a ?_
    rw [h]
    simp

/-! ## An account that changes -/

/-- The parameters of `agents#update` for the account. `password=` takes
no empty text. -/
structure AccountParams where
  email : Option String
  parentType : Option String
  role : Option String
  password : Option String

/-- `update_attributes(params[:account])`. -/
def Account.assign (sha1 : String → String) (p : AccountParams) (a : Account) : Account :=
  { a with
    email := p.email.or a.email
    parentType := p.parentType.or a.parentType
    role := p.role.or a.role
    passwordHash :=
      match p.password with
      | none => a.passwordHash
      | some s => if s.isEmpty then a.passwordHash else some (sha1 s) }

/-- `agents#update`, for an agent that exists. -/
def agentsUpdate (fold : Char → Char) (sha1 : String → String) (id : Nat) (p : AccountParams)
    (accounts : Table Account) : Table Account :=
  match accountFor fold accounts "Agent" id with
  | none => accounts
  | some a =>
      if (Account.assign sha1 p a).valid accounts then
        accounts.update a.id (fun r => { Account.assign sha1 p a with id := r.id }) (fun _ => rfl)
      else accounts

/-- The digest of the password used below. -/
def sha1Secret (s : String) : String :=
  if s = "secret" then "e5e9fa1ba31ecd1ae84f75caaa474f3a663f05f4"
  else "ad87109bfff0765f4dd8cf4943b04d16a4070fea"

/-- The account of an agent. -/
def agentAccount : Account where
  id := 1
  parentId := some 1
  parentType := some "Agent"
  email := some "agent@example.com"
  passwordHash := some "e5e9fa1ba31ecd1ae84f75caaa474f3a663f05f4"
  role := some "admin"
  lastLoginIp := none

/-- A login, and a request 29 minutes later. -/
theorem staff_session_agent :
    Backed [(0, .loggedIn agentAccount)] (minutes 29) 1 ∧ agentAccount.customer = false := by
  have h := staff_session Char.toLower sha1Secret "10.0.0.1" (.ofRows [agentAccount]) 0
    [(0, .authenticate (some "agent@example.com") (some "secret")), (minutes 29, .action id)]
    [(0, .loggedIn agentAccount)] (minutes 29)
    { agentAccount with lastLoginIp := some "10.0.0.1" } [] (by decide +kernel)
  refine ⟨h.1, h.2 ?_⟩
  intro e he
  rcases List.mem_cons.mp he with rfl | he
  · trivial
  · rw [List.mem_singleton] at he
    subst he
    exact fun t => ⟨Nat.le_refl _, fun id b _ hb hc => ⟨b, hb, hc⟩⟩

/-- An agent edits its own account and makes it one of a customer; the
next request passes. -/
theorem staff_turned_customer :
    ∃ pre t a, (run (Visit.step Char.toLower sha1Secret "10.0.0.1")
        (Visit.start (.ofRows [agentAccount]) 0)
        [(0, .authenticate (some "agent@example.com") (some "secret")),
          (minutes 1, .action (agentsUpdate Char.toLower sha1Secret 1
            { email := none, parentType := some "Customer", role := none, password := none })),
          (minutes 1, .action id)]).trace = pre ++ [(t, .passed a)] ∧
      a.parentType = some "Customer" := by
  refine ⟨[(0, .loggedIn agentAccount),
      (minutes 1, .passed { agentAccount with lastLoginIp := some "10.0.0.1" })],
    minutes 2,
    { agentAccount with parentType := some "Customer", lastLoginIp := some "10.0.0.1" }, ?_, rfl⟩
  decide +kernel

end HomeWarranty.Admin
