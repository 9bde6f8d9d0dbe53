/-
HomeWarranty.Affiliate.Tokens — the tokens of the API, and whom a token
resolves to.

`generate_unique_token` draws a text and draws a second one `unless` a
partner has the first. That is the wrong way round: a first text that is
free is thrown away and the second one is returned without a look, and
a first text that is taken is returned. So a token is new only when both
texts are free.

`tokens_unique_iff` says this for one call and for every run of
registrations, sign-ups and `generate_api_key`: each partner's token
resolves to that partner in every state on the way exactly when no call
returns the token of another one.

The posted attributes of a new partner do not matter here, since its
token is overwritten when the row is created.
-/
import HomeWarranty.Affiliate.Partner

namespace HomeWarranty.Affiliate

open Lib Ruby

/-! ## Tokens that stay apart -/

/-- Two live partners with the same token. -/
def TokenClash (fold : Char → Char) (p q : Partner) : Prop :=
  p.deleted = false ∧ q.deleted = false ∧ p.authToken ≠ none ∧
    sqlEq fold p.authToken q.authToken = true

theorem TokenClash.symm {fold : Char → Char} (p q : Partner) (h : TokenClash fold p q) :
    TokenClash fold q p := by
  obtain ⟨hp, hq, hsome, heq⟩ := h
  rw [sqlEq_iff] at heq
  refine ⟨hq, hp, fun hnone => hsome ?_, by rw [sqlEq_iff]; exact heq.symm⟩
  rw [hnone] at heq
  simpa using heq

/-- No two live partners share a token. -/
def TokensApart (db : Db) : Prop := db.partners.Apart (TokenClash db.fold)

/-- A live partner that `find_by_auth_token` takes for this token. -/
def HoldsToken (fold : Char → Char) (p : Partner) (token : String) : Prop :=
  p.deleted = false ∧ sqlEq fold p.authToken (some token) = true

instance (fold : Char → Char) (p : Partner) (token : String) :
    Decidable (HoldsToken fold p token) :=
  inferInstanceAs (Decidable (_ ∧ _))

/-- No partner has this token. -/
def TokenFree (db : Db) (token : String) : Prop :=
  ∀ q ∈ db.partners.rows, ¬ HoldsToken db.fold q token

instance (db : Db) (token : String) : Decidable (TokenFree db token) :=
  inferInstanceAs (Decidable (∀ q ∈ db.partners.rows, ¬ HoldsToken db.fold q token))

/-- No partner but `id` has this token. -/
def OthersFree (db : Db) (id : Nat) (token : String) : Prop :=
  ∀ q ∈ db.partners.rows, q.id ≠ id → ¬ HoldsToken db.fold q token

instance (db : Db) (id : Nat) (token : String) : Decidable (OthersFree db id token) :=
  inferInstanceAs
    (Decidable (∀ q ∈ db.partners.rows, q.id ≠ id → ¬ HoldsToken db.fold q token))

theorem findPartnerByAuthToken_eq_none {db : Db} {token : String} :
    findPartnerByAuthToken db token = none ↔ TokenFree db token := by
  unfold findPartnerByAuthToken Table.firstWhere TokenFree HoldsToken
  rw [List.find?_eq_none]
  refine forall₂_congr fun q _ => ?_
  simp

theorem generateUniqueToken_eq (db : Db) (draws : String × String) :
    generateUniqueToken db draws = if TokenFree db draws.1 then draws.2 else draws.1 := by
  unfold generateUniqueToken
  simp only [Option.isNone_iff_eq_none, findPartnerByAuthToken_eq_none]

/-- Each live partner's token resolves to it. -/
def TokensResolve (db : Db) : Prop :=
  ∀ p ∈ db.partners.rows, p.deleted = false → ∀ token, p.authToken = some token →
    findPartnerByAuthToken db token = some p

/-- Tokens resolve to their partners exactly when they are apart. -/
theorem tokensResolve_iff (db : Db) : TokensResolve db ↔ TokensApart db := by
  constructor
  · intro h p hp q hq ⟨hpl, hql, hsome, heq⟩
    obtain ⟨token, htoken⟩ := Option.ne_none_iff_exists'.mp hsome
    have hqsome : q.authToken ≠ none := by
      intro hnone
      rw [sqlEq_iff, htoken, hnone] at heq
      cases heq
    obtain ⟨token', htoken'⟩ := Option.ne_none_iff_exists'.mp hqsome
    have hfp := h p hp hpl token htoken
    have hfq := h q hq hql token' htoken'
    -- the two lookups are one
    have hsame : findPartnerByAuthToken db token = findPartnerByAuthToken db token' := by
      rw [sqlEq_iff, htoken, htoken'] at heq
      unfold findPartnerByAuthToken
      congr 1
      funext r
      simp only [sqlEq, heq]
    rw [hsame, hfq] at hfp
    cases hfp
    rfl
  · intro h p hp hpl token htoken
    cases hf : findPartnerByAuthToken db token with
    | none =>
        exact absurd ⟨hpl, by rw [htoken, sqlEq_iff]⟩
          (findPartnerByAuthToken_eq_none.mp hf p hp)
    | some q =>
        have hqp := List.find?_some hf
        simp only [Bool.and_eq_true, Bool.not_eq_true'] at hqp
        have hqm := List.mem_of_find?_eq_some hf
        have hclash : TokenClash db.fold p q := by
          refine ⟨hpl, hqp.1, by rw [htoken]; simp, ?_⟩
          have heq := hqp.2
          rw [sqlEq_iff] at heq ⊢
          rw [htoken, heq]
        rw [db.partners.eq_of_key_eq hqm hp (h p hp q hqm hclash).symm]

/-! ## Issuing a token -/

/-- `SecureRandom.hex(20)`. -/
structure RandomHex where
  text : String
  length_text : text.toList.length = 40
  digits : ∀ c ∈ text.toList, c ∈ "0123456789abcdef".toList

inductive TokenEvent where
  /-- A partner registers with the form. -/
  | register (posted : PartnerParams) (draws : RandomHex × RandomHex) (saves : Bool)
  /-- A partner signs up with an account of another site. -/
  | signUp (provider uid : String) (draws : RandomHex × RandomHex) (saves : Bool)
  | generateApiKey (id : Nat) (draws : RandomHex × RandomHex) (saves : Bool)

def texts (draws : RandomHex × RandomHex) : String × String := (draws.1.text, draws.2.text)

def tokenStep (db : Db) : TokenEvent → Db
  | .register posted draws saves => register db posted (texts draws) saves
  | .signUp provider uid draws saves =>
      createPartner db ((omniauthChange provider uid).apply newPartner) (texts draws) saves
  | .generateApiKey id draws saves => generateApiKey db id (texts draws) saves

def TokenEvent.draws : TokenEvent → RandomHex × RandomHex
  | .register _ draws _ => draws
  | .signUp _ _ draws _ => draws
  | .generateApiKey _ draws _ => draws

/-- The partner that gets a token. -/
def TokenEvent.issuesTo (db : Db) : TokenEvent → Option Nat
  | .register _ _ saves => if saves then some db.partners.nextKey else none
  | .signUp _ _ _ saves => if saves then some db.partners.nextKey else none
  | .generateApiKey id _ saves =>
      match db.partners.find? id with
      | none => none
      | some p => if !p.deleted && saves then some id else none

/-- The first text is free and the second is not another partner's, or
the first is the partner's own. -/
def TokenEvent.NewToken (db : Db) (e : TokenEvent) : Prop :=
  ∀ id ∈ e.issuesTo db,
    (TokenFree db e.draws.1.text ∧ OthersFree db id e.draws.2.text) ∨
      (¬ TokenFree db e.draws.1.text ∧ OthersFree db id e.draws.1.text)

instance (db : Db) (e : TokenEvent) : Decidable (e.NewToken db) :=
  inferInstanceAs (Decidable (∀ id ∈ e.issuesTo db, _))

theorem othersFree_generateUniqueToken {db : Db} {id : Nat} (draws : RandomHex × RandomHex) :
    OthersFree db id (generateUniqueToken db (texts draws)) ↔
      (TokenFree db draws.1.text ∧ OthersFree db id draws.2.text) ∨
        (¬ TokenFree db draws.1.text ∧ OthersFree db id draws.1.text) := by
  rw [generateUniqueToken_eq]
  by_cases hfree : TokenFree db (texts draws).1
  · have hfree' : TokenFree db draws.1.text := hfree
    rw [if_pos hfree]
    simp [hfree', texts]
  · have hfree' : ¬ TokenFree db draws.1.text := hfree
    rw [if_neg hfree]
    simp [hfree', texts]

/-- A token fits its column. -/
theorem textColumn_generateUniqueToken (db : Db) (draws : RandomHex × RandomHex) :
    textColumn (generateUniqueToken db (texts draws)) = generateUniqueToken db (texts draws) := by
  have hfits : ∀ r : RandomHex, textColumn r.text = r.text := by
    intro r
    unfold textColumn
    rw [List.take_of_length_le (by rw [r.length_text]; omega), String.ofList_toList]
  rw [generateUniqueToken_eq]
  split
  · exact hfits draws.2
  · exact hfits draws.1

/-- A live partner clashes with a new token exactly when it holds it. -/
theorem tokenClash_iff {fold : Char → Char} {p q : Partner} {token : String}
    (hq : q.deleted = false) (htoken : q.authToken = some token) :
    TokenClash fold p q ↔ HoldsToken fold p token := by
  constructor
  · rintro ⟨hp, _, _, heq⟩
    exact ⟨hp, by rw [← htoken]; exact heq⟩
  · rintro ⟨hp, heq⟩
    refine ⟨hp, hq, fun hnone => ?_, by rw [htoken]; exact heq⟩
    rw [sqlEq_iff, hnone] at heq
    cases heq

theorem tokensApart_create {db : Db} (h : TokensApart db) {p : Partner}
    (hp : (generateDiscountCode p).deleted = false) (draws : RandomHex × RandomHex) :
    TokensApart (createPartner db p (texts draws) true) ↔
      OthersFree db db.partners.nextKey (generateUniqueToken db (texts draws)) := by
  have hiff := Table.Apart.insert_iff TokenClash.symm h (r := createdPartner db p (texts draws))
  refine hiff.trans ?_
  refine forall₂_congr fun q hq => ?_
  have hne : q.id ≠ db.partners.nextKey := Nat.ne_of_lt (db.partners.fresh q hq)
  have hclash : TokenClash db.fold q
        (Record.withKey db.partners.nextKey (createdPartner db p (texts draws)))
      ↔ HoldsToken db.fold q (generateUniqueToken db (texts draws)) := by
    refine tokenClash_iff hp ?_
    show some (textColumn (generateUniqueToken db (texts draws))) = _
    rw [textColumn_generateUniqueToken]
  rw [hclash]
  simp [hne]

theorem tokensApart_generateApiKey {db : Db} (h : TokensApart db) {id : Nat} {p : Partner}
    (hp : db.partners.find? id = some p) (hlive : p.deleted = false)
    (draws : RandomHex × RandomHex) :
    TokensApart (generateApiKey db id (texts draws) true) ↔
      OthersFree db id (generateUniqueToken db (texts draws)) := by
  have hsave : generateApiKey db id (texts draws) true =
      { db with
        partners := db.partners.update id
          (savedPartner (tokenChange (generateUniqueToken db (texts draws))))
          (id_savedPartner _) } := by
    simp [generateApiKey, savePartner, hp, hlive]
  have hiff : (db.partners.update id
        (savedPartner (tokenChange (generateUniqueToken db (texts draws))))
        (id_savedPartner _)).Apart (TokenClash db.fold) ↔ _ :=
    Table.Apart.update_iff TokenClash.symm h hp
  rw [hsave]
  refine hiff.trans ?_
  refine forall₂_congr fun q hq => imp_congr_right fun _ => not_congr ?_
  refine tokenClash_iff hlive ?_
  show some (textColumn (generateUniqueToken db (texts draws))) = _
  rw [textColumn_generateUniqueToken]

/-- The step lemma: a step from tokens that are apart leads to tokens
that are apart exactly when the token it issues is new. -/
theorem tokensApart_step (db : Db) (e : TokenEvent) (h : TokensApart db) :
    TokensApart (tokenStep db e) ↔ e.NewToken db := by
  cases e with
  | register posted draws saves =>
      cases saves with
      | false => exact iff_of_true h (by simp [TokenEvent.NewToken, TokenEvent.issuesTo])
      | true =>
          have hlive : (generateDiscountCode (posted.change.apply newPartner)).deleted = false := by
            unfold generateDiscountCode
            split <;> rfl
          refine (tokensApart_create h hlive draws).trans ?_
          rw [othersFree_generateUniqueToken]
          simp [TokenEvent.NewToken, TokenEvent.issuesTo, TokenEvent.draws]
  | signUp provider uid draws saves =>
      cases saves with
      | false => exact iff_of_true h (by simp [TokenEvent.NewToken, TokenEvent.issuesTo])
      | true =>
          have hlive : (generateDiscountCode
              ((omniauthChange provider uid).apply newPartner)).deleted = false := rfl
          refine (tokensApart_create h hlive draws).trans ?_
          rw [othersFree_generateUniqueToken]
          simp [TokenEvent.NewToken, TokenEvent.issuesTo, TokenEvent.draws]
  | generateApiKey id draws saves =>
      cases hp : db.partners.find? id with
      | none =>
          have hself : tokenStep db (.generateApiKey id draws saves) = db := by
            simp [tokenStep, generateApiKey, savePartner, hp]
          rw [hself]
          exact iff_of_true h (by simp [TokenEvent.NewToken, TokenEvent.issuesTo, hp])
      | some p =>
          by_cases hwrites : (!p.deleted && saves) = true
          · simp only [Bool.and_eq_true, Bool.not_eq_true'] at hwrites
            obtain ⟨hlive, rfl⟩ := hwrites
            refine (tokensApart_generateApiKey h hp hlive draws).trans ?_
            rw [othersFree_generateUniqueToken]
            simp [TokenEvent.NewToken, TokenEvent.issuesTo, TokenEvent.draws, hp, hlive]
          · have hself : tokenStep db (.generateApiKey id draws saves) = db := by
              simp only [tokenStep, generateApiKey, savePartner, hp]
              rw [if_neg hwrites]
            rw [hself]
            refine iff_of_true h ?_
            simp only [TokenEvent.NewToken, TokenEvent.issuesTo, hp, if_neg hwrites]
            simp

/-- The texts a call draws. -/
def drawnTexts (db : Db) (draws : RandomHex × RandomHex) : List String :=
  if TokenFree db draws.1.text then [draws.1.text, draws.2.text] else [draws.1.text]

/-- **Tokens are unique** exactly when: for one call, the first text is
taken or the second is free; for a run, no step issues the token of
another partner. -/
theorem tokens_unique_iff (db : Db) (draws : RandomHex × RandomHex) (es : List TokenEvent)
    (hapart : TokensApart db) :
    (((∃ token ∈ drawnTexts db draws, TokenFree db token) →
        TokenFree db (generateUniqueToken db (texts draws))) ↔
      ¬ TokenFree db draws.1.text ∨ TokenFree db draws.2.text) ∧
    ((∀ k, TokensResolve (run tokenStep db (es.take k))) ↔
      StepsOk tokenStep (fun db e => e.NewToken db) db es) := by
  constructor
  · rw [generateUniqueToken_eq]
    by_cases hfree : TokenFree db draws.1.text
    · have hif : (if TokenFree db (texts draws).1 then (texts draws).2 else (texts draws).1)
          = draws.2.text := if_pos hfree
      rw [hif]
      simp [drawnTexts, hfree]
    · simp [drawnTexts, hfree]
  · simp only [tokensResolve_iff]
    exact forall_take_iff_stepsOk TokensApart tokensApart_step es db hapart

/-- The digits of a text, checked one after the other. -/
theorem hexDigits_of_all {s : String}
    (h : s.toList.all (fun c => "0123456789abcdef".toList.contains c) = true) :
    ∀ c ∈ s.toList, c ∈ "0123456789abcdef".toList := by
  intro c hc
  have hdigit := List.all_eq_true.mp h c hc
  exact List.contains_iff_mem.mp hdigit

/-- Texts of forty hexadecimal digits. -/
def firstHex : RandomHex :=
  ⟨"3f9ac1d20e5b8a7714c6f03d92e8ab41d75c6e0f", by decide +kernel,
    hexDigits_of_all (by decide +kernel)⟩

def secondHex : RandomHex :=
  ⟨"77b0e4aa510c2d9f8e36b1a47d5e9062f8c3ab17", by decide +kernel,
    hexDigits_of_all (by decide +kernel)⟩

def thirdHex : RandomHex :=
  ⟨"0a51c7be92d3f6e48107b5a2c9d8e7f60134a5b2", by decide +kernel,
    hexDigits_of_all (by decide +kernel)⟩

/-- A partner registers, another one signs up, and the first asks for a
new key. -/
theorem tokens_unique_three :
    TokensApart Db.empty ∧ ∀ k, TokensResolve (run tokenStep Db.empty
      (List.take k [.register ⟨some "Acme", none, none⟩ (firstHex, secondHex) true,
        .signUp "facebook" "1001" (firstHex, thirdHex) true,
        .generateApiKey 1 (firstHex, firstHex) true])) := by
  have hempty : TokensApart Db.empty := Table.apart_empty _
  have h := tokens_unique_iff Db.empty (firstHex, secondHex)
    [.register ⟨some "Acme", none, none⟩ (firstHex, secondHex) true,
      .signUp "facebook" "1001" (firstHex, thirdHex) true,
      .generateApiKey 1 (firstHex, firstHex) true] hempty
  exact ⟨hempty, h.2.mpr (by decide +kernel)⟩

/-- The second partner draws a free text and then the token of the first
one, and gets that: the call returns a token that is taken although it
drew one that is free, and the second partner's token resolves to the
first. -/
theorem token_issued_twice :
    ¬ (∀ (db : Db) (draws : RandomHex × RandomHex), TokensApart db →
        (∃ token ∈ drawnTexts db draws, TokenFree db token) →
        TokenFree db (generateUniqueToken db (texts draws))) ∧
    ¬ (∀ (db : Db) (es : List TokenEvent), TokensApart db →
        TokensResolve (run tokenStep db es)) := by
  have hempty : TokensApart Db.empty := Table.apart_empty _
  have hone : TokensApart
      (tokenStep Db.empty (.register ⟨some "Acme", none, none⟩ (firstHex, secondHex) true)) :=
    (tokensApart_step Db.empty (.register ⟨some "Acme", none, none⟩ (firstHex, secondHex) true)
      hempty).mpr (by decide +kernel)
  refine ⟨fun hall => ?_, fun hall => ?_⟩
  · have hfree := hall _ (thirdHex, secondHex) hone
      ⟨thirdHex.text, by decide +kernel, by decide +kernel⟩
    revert hfree
    decide +kernel
  · have hresolve := hall Db.empty
      [.register ⟨some "Acme", none, none⟩ (firstHex, secondHex) true,
        .register ⟨some "Zenith", none, none⟩ (thirdHex, secondHex) true] hempty
    rw [tokensResolve_iff] at hresolve
    have hnew := (tokensApart_step _ (.register ⟨some "Zenith", none, none⟩
      (thirdHex, secondHex) true) hone).mp hresolve
    revert hnew
    decide +kernel

end HomeWarranty.Affiliate
