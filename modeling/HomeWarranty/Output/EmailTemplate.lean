/-
HomeWarranty.Output.EmailTemplate — `EmailTemplate#parse`, which fills in
the groups `{word word}` of a template.

The pattern is a brace, anything, a space, anything and a brace, both
times as little as possible. A group is found as it should be
(`placeholder_of_group`). But the parts may hold braces and blanks, so a
brace that begins no group takes the text up to the next closing brace
behind a blank on its line, and what stands there is lost: unknown words
have no value. `parse_groups_iff` says for which templates this happens.

The data are what the application gives a template. A value is its text;
`nil` and a suppressed error are the empty text.
-/
import Mathlib.Data.List.TakeWhile
import HomeWarranty.Ruby.Gsub
import HomeWarranty.Ruby.Pattern

namespace HomeWarranty.Output

open Ruby

/-! ## Values -/

/-- The characters of a word: no blank and no brace. -/
def wordChar (c : Char) : Bool := !regexSpace c && c != '{' && c != '}'

def isWord (w : List Char) : Bool := !w.isEmpty && w.all wordChar

/-- The installation. No method has a name with blanks or braces in it,
and to call what is no method is an error. -/
structure MailInstallation where
  send : String → String
  unknown : ∀ name : String, (∃ c ∈ name.toList, wordChar c = false) → send name = ""
  wwwDomain : Option String
  name : Option String

/-- `@data`: the values by their key, and the methods of the records. -/
structure MailData where
  the : String → String
  partner : Option (String → String)
  customer : Option (String → String)
  contractor : Option (String → String)
  my : Option (String → String)

/-- A method of a record that may be missing. -/
def sent (record : Option (String → String)) (name : String) : String :=
  match record with
  | none => ""
  | some send => send name

/-- A picture of the installation: an error without domain or name. -/
def picture (inst : MailInstallation) (html : String → String → String) : String :=
  match inst.wwwDomain, inst.name with
  | some domain, some name => html domain name
  | _, _ => ""

/-- The block of `parse`: what is put in for two words. -/
def groupValue (inst : MailInstallation) (data : MailData) (first second : String) : String :=
  if first = "the" then data.the second
  else if first = "login" then
    if second = "url" then "https://selecthomewarranty.com/login" else ""
  else if first = "installation" then inst.send second
  else if first = "partner" then sent data.partner second
  else if first = "customer" then sent data.customer second
  else if first = "contractor" then sent data.contractor second
  else if first = "my" then sent data.my second
  else if first = "image" then
    if second = "logo" then
      picture inst fun domain name =>
        "<a href=\"http://" ++ domain ++ "\"><img src=\"http://" ++ domain
        ++ "/assets/logo.png\" alt=\"" ++ name ++ "\"/></a>"
    else if second = "logo2" then
      picture inst fun domain name =>
        "<a href=\"http://" ++ domain ++ "\"><img src=\"http://" ++ domain
        ++ "/assets/logo.jpg\" height=\"90\" width=\"238\" alt=\"" ++ name ++ "\"/></a>"
    else ""
  else if first = "image_main" then
    if second = "logo" then
      picture inst fun domain name => "<img src=\"https://" ++ domain
        ++ "/assets/image_main.jpg\" height=\"245\" width=\"600\" border=\"0\" alt=\""
        ++ name ++ "\"/>"
    else ""
  else ""

/-- The documents that a template asks for. -/
structure AttachFlags where
  contractPdf : Bool
  workorderPdf : Bool
  performaInvoicePdf : Bool
  deriving DecidableEq

def AttachFlags.note (flags : AttachFlags) (first second : String) : AttachFlags :=
  if first = "attach" then
    if second = "contract_pdf" then { flags with contractPdf := true }
    else if second = "workorder_pdf" then { flags with workorderPdf := true }
    else if second = "performa_invoice_pdf" then { flags with performaInvoicePdf := true }
    else flags
  else flags

/-! ## Parsing -/

/-- The pattern of `parse`. -/
def placeholder : List Atom :=
  [.one (· == '{'), .group anyChar, .one regexSpace, .group anyChar, .one (· == '}')]

/-- A captured group as a text. -/
def captureOf (groups : List (List Char)) (i : Nat) : String := String.ofList (groups.getD i [])

/-- The text of a part. -/
def partText (value : String → String → String) : Part → List Char
  | .kept c => [c]
  | .found groups => (value (captureOf groups 0) (captureOf groups 1)).toList

def partFlags (flags : AttachFlags) : Part → AttachFlags
  | .kept _ => flags
  | .found groups => flags.note (captureOf groups 0) (captureOf groups 1)

/-- `parse`: the text, and the documents to attach. -/
def parse (inst : MailInstallation) (data : MailData) (flags : AttachFlags) (s : String) :
    String × AttachFlags :=
  let ps := parts (matchAtoms placeholder) s.toList
  (String.ofList (ps.flatMap (partText (groupValue inst data))), ps.foldl partFlags flags)

/-! ## Groups -/

/-- A group at the start of the text: a brace, a word, one blank, a word
and a brace. -/
def groupAt : List Char → Option Match
  | '{' :: cs =>
      match cs.dropWhile wordChar with
      | w :: cs' =>
          if cs.takeWhile wordChar ≠ [] ∧ regexSpace w = true ∧ cs'.takeWhile wordChar ≠ [] ∧
              (cs'.dropWhile wordChar).head? = some '}' then
            some ⟨'{' :: (cs.takeWhile wordChar ++ w :: (cs'.takeWhile wordChar ++ ['}'])),
              [cs.takeWhile wordChar, cs'.takeWhile wordChar]⟩
          else none
      | [] => none
  | _ => none

/-- The template with every group replaced by its value and every other
character kept. -/
def fillGroups (inst : MailInstallation) (data : MailData) (s : String) : String :=
  String.ofList ((parts groupAt s.toList).flatMap (partText (groupValue inst data)))

/-- The text behind a brace has a group. -/
def StartsGroup (post : List Char) : Prop :=
  ∃ a w b tail, post = a ++ w :: (b ++ '}' :: tail) ∧ isWord a = true ∧ regexSpace w = true ∧
    isWord b = true

/-- The text behind a brace has, on its line but for one blank, a text, a
blank, a text and a closing brace. -/
def TakesText (post : List Char) : Prop :=
  ∃ a w b tail, post = a ++ w :: (b ++ '}' :: tail) ∧ (a ≠ [] ∧ '\n' ∉ a) ∧ regexSpace w = true ∧
    b ≠ [] ∧ '\n' ∉ b

/-- Every brace that takes text begins a group. -/
def GroupsOnly (s : String) : Prop :=
  ∀ pre post, s.toList = pre ++ '{' :: post → TakesText post → StartsGroup post

/-! ## What is found -/

/-- The text of two parts with a blank between them, in braces. -/
def braced (a : List Char) (w : Char) (b : List Char) : List Char :=
  '{' :: (a ++ w :: (b ++ ['}']))

def bracedMatch (a : List Char) (w : Char) (b : List Char) : Match := ⟨braced a w b, [a, b]⟩

theorem braced_append (a : List Char) (w : Char) (b tail : List Char) :
    braced a w b ++ tail = '{' :: (a ++ w :: (b ++ '}' :: tail)) := by
  simp [braced]

theorem length_lt_braced (a : List Char) (w : Char) (b tail : List Char) :
    tail.length < (braced a w b ++ tail).length := by
  rw [List.length_append, braced, List.length_cons]
  omega

theorem wordChar_spec {c : Char} (h : wordChar c = true) :
    regexSpace c = false ∧ c ≠ '{' ∧ c ≠ '}' ∧ c ≠ '\n' := by
  simp only [wordChar, Bool.and_eq_true, Bool.not_eq_true', bne_iff_ne] at h
  refine ⟨h.1.1, h.1.2, h.2, ?_⟩
  rintro rfl
  cases h.1.1

theorem isWord_iff {w : List Char} : isWord w = true ↔ w ≠ [] ∧ ∀ c ∈ w, wordChar c = true := by
  simp [isWord]

section
variable {a b tail : List Char} {w : Char}

/-- A blank or a brace ends a word. -/
theorem takeWhile_word (ha : isWord a = true) {x : Char} (hx : wordChar x = false)
    (cs : List Char) :
    (a ++ x :: cs).takeWhile wordChar = a ∧ (a ++ x :: cs).dropWhile wordChar = x :: cs := by
  have hall := (isWord_iff.mp ha).2
  rw [List.takeWhile_append_of_pos hall, List.dropWhile_append_of_pos hall]
  simp [hx]

theorem wordChar_of_space (h : regexSpace w = true) : wordChar w = false := by
  simp [wordChar, h]

theorem groupAt_braced (ha : isWord a = true) (hw : regexSpace w = true) (hb : isWord b = true) :
    groupAt (braced a w b ++ tail) = some (bracedMatch a w b) := by
  obtain ⟨htake, hdrop⟩ := takeWhile_word ha (wordChar_of_space hw) (b ++ '}' :: tail)
  obtain ⟨htake', hdrop'⟩ := takeWhile_word hb (show wordChar '}' = false from rfl) tail
  rw [braced_append, groupAt, hdrop]
  simp only [htake, htake', hdrop', List.head?_cons]
  exact if_pos ⟨(isWord_iff.mp ha).1, hw, (isWord_iff.mp hb).1, trivial⟩

theorem groupAt_eq_some {cs : List Char} {m : Match} (h : groupAt cs = some m) :
    ∃ a w b tail, cs = braced a w b ++ tail ∧ m = bracedMatch a w b ∧ isWord a = true ∧
      regexSpace w = true ∧ isWord b = true := by
  have hword :
      ∀ {l : List Char}, l.takeWhile wordChar ≠ [] → isWord (l.takeWhile wordChar) = true :=
    fun hne => isWord_iff.mpr ⟨hne, fun c hc => List.mem_takeWhile_imp hc⟩
  unfold groupAt at h
  split at h
  · rename_i cs
    split at h
    · rename_i w cs' hdrop
      split_ifs at h with hok
      obtain ⟨ha, hw, hb, hclose⟩ := hok
      obtain ⟨tail, htail⟩ := List.head?_eq_some_iff.mp hclose
      refine ⟨_, w, _, tail, ?_, (Option.some.inj h).symm, hword ha, hw, hword hb⟩
      rw [braced_append, ← htail, List.takeWhile_append_dropWhile, ← hdrop,
        List.takeWhile_append_dropWhile]
    · cases h
  · cases h

/-- The pattern behind its first part: a blank, anything and a brace. -/
theorem matchAtoms_blank (x : Char) (cs : List Char) :
    matchAtoms [.one regexSpace, .group anyChar, .one (· == '}')] (x :: cs) =
      if regexSpace x then
        (lazyFrom anyChar (matchAtoms [.one (· == '}')]) cs).map (.after x)
      else none := rfl

theorem matchAtoms_brace (x : Char) (cs : List Char) :
    matchAtoms [.one (· == '}')] (x :: cs) = if x == '}' then some ⟨[x], []⟩ else none := rfl

theorem matchAtoms_placeholder (cs : List Char) :
    matchAtoms placeholder ('{' :: cs) =
      (lazyFrom anyChar (matchAtoms [.one regexSpace, .group anyChar, .one (· == '}')]) cs).map
        (.after '{') := rfl

/-- A group is found as it is. -/
theorem placeholder_of_group (ha : isWord a = true) (hw : regexSpace w = true)
    (hb : isWord b = true) :
    matchAtoms placeholder (braced a w b ++ tail) = some (bracedMatch a w b) := by
  obtain ⟨hane, hachars⟩ := isWord_iff.mp ha
  obtain ⟨hbne, hbchars⟩ := isWord_iff.mp hb
  have hany : ∀ {l : List Char}, (∀ c ∈ l, wordChar c = true) → ∀ c ∈ l, anyChar c = true := by
    intro l hl c hc
    simpa [anyChar] using (wordChar_spec (hl c hc)).2.2.2
  -- within a word there is neither the closing brace nor the blank
  have hsecond : lazyFrom anyChar (matchAtoms [.one (· == '}')]) (b ++ '}' :: tail) =
      some (Match.grouped b ⟨['}'], []⟩) := by
    refine lazyFrom_of_first hbne (hany hbchars) rfl ?_
    rintro x (_ | ⟨c, y⟩) rfl hx hy
    · exact absurd rfl hy
    · have hc := (wordChar_spec (hbchars c (by simp))).2.2.1
      simp [matchAtoms_brace, hc]
  have hfirst : lazyFrom anyChar (matchAtoms [.one regexSpace, .group anyChar, .one (· == '}')])
      (a ++ w :: (b ++ '}' :: tail)) =
        some (Match.grouped a (Match.after w (Match.grouped b ⟨['}'], []⟩))) := by
    refine lazyFrom_of_first hane (hany hachars) ?_ ?_
    · rw [matchAtoms_blank, if_pos hw, hsecond, Option.map_some]
    · rintro x (_ | ⟨c, y⟩) rfl hx hy
      · exact absurd rfl hy
      · have hc := (wordChar_spec (hachars c (by simp))).1
        simp [matchAtoms_blank, hc]
  rw [braced_append, matchAtoms_placeholder, hfirst]
  rfl

theorem notMem_of_anyChar {l : List Char} (h : ∀ c ∈ l, anyChar c = true) : '\n' ∉ l := by
  intro hmem
  have := h '\n' hmem
  cases this

theorem anyChar_of_notMem {l : List Char} (h : '\n' ∉ l) : ∀ c ∈ l, anyChar c = true := by
  intro c hc
  have hne : c ≠ '\n' := fun heq => h (heq ▸ hc)
  simpa [anyChar] using hne

/-- Whatever is found is two parts with a blank between them. -/
theorem placeholder_eq_some {cs : List Char} {m : Match} (h : matchAtoms placeholder cs = some m) :
    ∃ a w b tail, cs = braced a w b ++ tail ∧ m = bracedMatch a w b ∧ (a ≠ [] ∧ '\n' ∉ a) ∧
      regexSpace w = true ∧ b ≠ [] ∧ '\n' ∉ b := by
  cases cs with
  | nil => cases h
  | cons c cs =>
      by_cases hc : c = '{'
      · subst hc
        rw [matchAtoms_placeholder] at h
        obtain ⟨m₁, hm₁, rfl⟩ := Option.map_eq_some_iff.mp h
        obtain ⟨a, rest, m₂, rfl, hane, ha, hm₂, rfl⟩ := lazyFrom_eq_some hm₁
        cases rest with
        | nil => cases hm₂
        | cons w rest =>
            rw [matchAtoms_blank] at hm₂
            split_ifs at hm₂ with hw
            obtain ⟨m₃, hm₃, rfl⟩ := Option.map_eq_some_iff.mp hm₂
            obtain ⟨b, rest', m₄, rfl, hbne, hb, hm₄, rfl⟩ := lazyFrom_eq_some hm₃
            cases rest' with
            | nil => cases hm₄
            | cons x tail =>
                rw [matchAtoms_brace] at hm₄
                split_ifs at hm₄ with hx
                obtain rfl := Option.some.inj hm₄
                obtain rfl : x = '}' := by simpa using hx
                exact ⟨a, w, b, tail, (braced_append a w b tail).symm, rfl,
                  ⟨hane, notMem_of_anyChar ha⟩, hw, hbne, notMem_of_anyChar hb⟩
      · have hno : (c == '{') = false := by simpa using hc
        rw [placeholder, matchAtoms, hno] at h
        cases h

/-- Text is taken exactly where there is a match. -/
theorem takesText_iff {post : List Char} :
    TakesText post ↔ (matchAtoms placeholder ('{' :: post)).isSome := by
  constructor
  · rintro ⟨a, w, b, tail, rfl, ⟨hane, ha⟩, hw, hbne, hb⟩
    rw [matchAtoms_placeholder, Option.isSome_map, lazyFrom_isSome_iff]
    refine ⟨a, _, rfl, hane, anyChar_of_notMem ha, ?_⟩
    rw [matchAtoms_blank, if_pos hw, Option.isSome_map, lazyFrom_isSome_iff]
    exact ⟨b, _, rfl, hbne, anyChar_of_notMem hb, rfl⟩
  · intro h
    obtain ⟨m, hm⟩ := Option.isSome_iff_exists.mp h
    obtain ⟨a, w, b, tail, hcs, _, ha, hw, hb⟩ := placeholder_eq_some hm
    rw [braced_append, List.cons.injEq] at hcs
    exact ⟨a, w, b, tail, hcs.2, ha, hw, hb⟩

theorem startsGroup_iff {post : List Char} : StartsGroup post ↔ (groupAt ('{' :: post)).isSome := by
  constructor
  · rintro ⟨a, w, b, tail, rfl, ha, hw, hb⟩
    rw [← braced_append, groupAt_braced ha hw hb]
    rfl
  · intro h
    obtain ⟨m, hm⟩ := Option.isSome_iff_exists.mp h
    obtain ⟨a, w, b, tail, hcs, _, ha, hw, hb⟩ := groupAt_eq_some hm
    rw [braced_append, List.cons.injEq] at hcs
    exact ⟨a, w, b, tail, hcs.2, ha, hw, hb⟩

/-- Every group is found. -/
theorem placeholder_of_groupAt {cs : List Char} {m : Match} (h : groupAt cs = some m) :
    matchAtoms placeholder cs = some m := by
  obtain ⟨a, w, b, tail, rfl, rfl, ha, hw, hb⟩ := groupAt_eq_some h
  exact placeholder_of_group ha hw hb

theorem groupAt_of_none {cs : List Char} (h : matchAtoms placeholder cs = none) :
    groupAt cs = none := by
  cases hg : groupAt cs with
  | none => rfl
  | some m =>
      rw [placeholder_of_groupAt hg] at h
      cases h

end

/-! ## How much is left -/

/-- The length of the text with these values. -/
def size (value : String → String → String) (ps : List Part) : Nat :=
  (ps.flatMap (partText value)).length

section
variable {value : String → String → String}

theorem size_kept (c : Char) (ps : List Part) : size value (.kept c :: ps) = 1 + size value ps := by
  simp [size, partText]
  omega

theorem size_found (groups : List (List Char)) (ps : List Part) :
    size value (.found groups :: ps) =
      (value (captureOf groups 0) (captureOf groups 1)).toList.length + size value ps := by
  simp [size, partText]

theorem parts_braced {here : List Char → Option Match} {a b tail : List Char} {w : Char}
    (h : here (braced a w b ++ tail) = some (bracedMatch a w b)) :
    parts here (braced a w b ++ tail) = .found [a, b] :: parts here tail := by
  have hne : (bracedMatch a w b).text ≠ [] := by simp [bracedMatch, braced]
  exact parts_of_some hne h

/-- The closing brace of a group is its only one. -/
theorem brace_notMem_group {a b : List Char} {w : Char} (ha : isWord a = true)
    (hw : regexSpace w = true) (hb : isWord b = true) : '}' ∉ '{' :: (a ++ w :: b) := by
  rw [List.mem_cons, List.mem_append, List.mem_cons]
  rintro (h | h | rfl | h)
  · cases h
  · exact (wordChar_spec ((isWord_iff.mp ha).2 _ h)).2.2.1 rfl
  · cases hw
  · exact (wordChar_spec ((isWord_iff.mp hb).2 _ h)).2.2.1 rfl

/-- The opening brace of a group is its only one. -/
theorem open_notMem_group {a b : List Char} {w : Char} (ha : isWord a = true)
    (hw : regexSpace w = true) (hb : isWord b = true) : '{' ∉ a ++ w :: (b ++ ['}']) := by
  rw [List.mem_append, List.mem_cons, List.mem_append, List.mem_singleton]
  rintro (h | rfl | h | h)
  · exact (wordChar_spec ((isWord_iff.mp ha).2 _ h)).2.1 rfl
  · cases hw
  · exact (wordChar_spec ((isWord_iff.mp hb).2 _ h)).2.1 rfl
  · cases h

/-- No group goes over a closing brace, so a text has at least what is
left behind one of its closing braces. -/
theorem size_groups_le (pre post : List Char) :
    size value (parts groupAt post) ≤ size value (parts groupAt (pre ++ '}' :: post)) := by
  -- a group takes several characters at once, so the induction is on the length
  induction hn : pre.length using Nat.strong_induction_on generalizing pre with
  | _ n ih =>
  cases pre with
  | nil =>
      have hnone : groupAt ('}' :: post) = none := rfl
      rw [List.nil_append, parts_cons_of_none hnone, size_kept]
      omega
  | cons c pre =>
      subst hn
      cases hgroup : groupAt (c :: pre ++ '}' :: post) with
      | none =>
          have := ih pre.length (Nat.lt_succ_self _) pre rfl
          rw [List.cons_append] at hgroup ⊢
          rw [parts_cons_of_none hgroup, size_kept]
          omega
      | some m =>
          obtain ⟨a, w, b, tail, hcs, rfl, ha, hw, hb⟩ := groupAt_eq_some hgroup
          have hno := brace_notMem_group ha hw hb
          have hcs' : ('{' :: (a ++ w :: b)) ++ '}' :: tail = (c :: pre) ++ '}' :: post := by
            rw [hcs, braced_append]
            simp
          have hlen := congrArg List.length hcs'
          simp only [List.length_append, List.length_cons] at hlen
          obtain ⟨more, hmore⟩ := exists_append_of_notMem hno hcs'
          rw [hcs, parts_braced (groupAt_braced ha hw hb), size_found]
          cases more with
          | nil =>
              obtain ⟨_, rfl⟩ := List.cons.inj hmore
              omega
          | cons x more =>
              have htail : tail = more ++ '}' :: post := (List.cons.inj hmore).2
              subst htail
              simp only [List.length_append, List.length_cons] at hlen
              have hshort : more.length < (c :: pre).length := by
                rw [List.length_cons]
                omega
              have := ih more.length hshort more rfl
              omega

end

/-! ## Comparing -/

/-- The same in terms of what is found. -/
def GoodBraces (cs : List Char) : Prop :=
  ∀ pre post, cs = pre ++ '{' :: post → (matchAtoms placeholder ('{' :: post)).isSome →
    (groupAt ('{' :: post)).isSome

theorem groupsOnly_iff (s : String) : GroupsOnly s ↔ GoodBraces s.toList := by
  refine forall₃_congr fun pre post _ => ?_
  rw [takesText_iff, startsGroup_iff]

theorem GoodBraces.tail {front cs : List Char} (h : GoodBraces (front ++ cs)) : GoodBraces cs := by
  intro pre post hcs
  exact h (front ++ pre) post (by rw [hcs, List.append_assoc])

/-- With good braces the groups are what is found. -/
theorem parts_of_goodBraces {cs : List Char} (h : GoodBraces cs) :
    parts (matchAtoms placeholder) cs = parts groupAt cs := by
  induction hn : cs.length using Nat.strong_induction_on generalizing cs with
  | _ n ih =>
  subst hn
  cases cs with
  | nil => rfl
  | cons c cs =>
      cases hm : matchAtoms placeholder (c :: cs) with
      | none =>
          have hnone := groupAt_of_none hm
          have htail : GoodBraces cs := GoodBraces.tail (show GoodBraces ([c] ++ cs) from h)
          rw [parts_cons_of_none hm, parts_cons_of_none hnone,
            ih cs.length (Nat.lt_succ_self _) htail rfl]
      | some m =>
          obtain ⟨a, w, b, tail, hcs, rfl, _⟩ := placeholder_eq_some hm
          have hgood : (groupAt (c :: cs)).isSome := by
            rw [hcs, braced_append]
            refine h [] _ (by rw [hcs, braced_append]; rfl) ?_
            rw [← braced_append, ← hcs, hm]
            rfl
          obtain ⟨m', hm'⟩ := Option.isSome_iff_exists.mp hgood
          have heq : bracedMatch a w b = m' :=
            Option.some.inj (hm.symm.trans (placeholder_of_groupAt hm'))
          have hshort : tail.length < (c :: cs).length := hcs ▸ length_lt_braced a w b tail
          rw [hcs] at hm hm' h ⊢
          rw [parts_braced hm, parts_braced (heq ▸ hm'), ih tail.length hshort h.tail rfl]

/-- Where something else than a group is found and nothing put in for it,
the text gets shorter than it should be. -/
theorem goodBraces_of_size {value : String → String → String}
    (hvalue : ∀ a w b tail, groupAt (braced a w b ++ tail) = none → regexSpace w = true → b ≠ [] →
      value (String.ofList a) (String.ofList b) = "") (cs : List Char) :
    size value (parts (matchAtoms placeholder) cs) ≤ size value (parts groupAt cs) ∧
    (size value (parts (matchAtoms placeholder) cs) = size value (parts groupAt cs) →
      GoodBraces cs) := by
  induction hn : cs.length using Nat.strong_induction_on generalizing cs with
  | _ n ih =>
  subst hn
  cases cs with
  | nil => exact ⟨Nat.le_refl _, fun _ pre post h => by cases pre <;> cases h⟩
  | cons c cs =>
      cases hm : matchAtoms placeholder (c :: cs) with
      | none =>
          have hnone := groupAt_of_none hm
          obtain ⟨hle, hgood⟩ := ih cs.length (Nat.lt_succ_self _) cs rfl
          rw [parts_cons_of_none hm, parts_cons_of_none hnone, size_kept, size_kept]
          refine ⟨by omega, fun heq pre post hcs hsome => ?_⟩
          cases pre with
          | nil =>
              rw [List.nil_append] at hcs
              rw [← hcs, hm] at hsome
              cases hsome
          | cons x pre => exact hgood (by omega) pre post (List.cons.inj hcs).2 hsome
      | some m =>
          obtain ⟨a, w, b, tail, hcs, rfl, _, hw', hbne, _⟩ := placeholder_eq_some hm
          have hshort : tail.length < (c :: cs).length := hcs ▸ length_lt_braced a w b tail
          obtain ⟨hle, hgood⟩ := ih tail.length hshort tail rfl
          rw [hcs] at hm ⊢
          rw [parts_braced hm, size_found]
          cases hg : groupAt (braced a w b ++ tail) with
          | none =>
              -- the opening brace is kept, and so is what is left behind the closing one
              have hempty : value (captureOf [a, b] 0) (captureOf [a, b] 1) = "" :=
                hvalue a w b tail hg hw' hbne
              have hrest : size value (parts groupAt tail) ≤
                  size value (parts groupAt ((a ++ w :: b) ++ '}' :: tail)) := size_groups_le _ _
              have hsplit : braced a w b ++ tail = '{' :: ((a ++ w :: b) ++ '}' :: tail) := by
                rw [braced_append]
                simp
              rw [hsplit] at hg ⊢
              rw [parts_cons_of_none hg, size_kept, hempty]
              simp only [String.toList_empty, List.length_nil]
              exact ⟨by omega, fun heq => by omega⟩
          | some m' =>
              have heq : bracedMatch a w b = m' :=
                Option.some.inj (hm.symm.trans (placeholder_of_groupAt hg))
              rw [parts_braced (heq ▸ hg), size_found]
              refine ⟨by omega, fun hsize pre post hpre hsome => ?_⟩
              obtain ⟨a', w', b', tail', _, hsame, ha, hw, hb⟩ := groupAt_eq_some (heq ▸ hg)
              have hgroups : [a, b] = [a', b'] := congrArg Match.groups hsame
              obtain ⟨rfl, rfl⟩ : a = a' ∧ b = b' := by simpa using hgroups
              cases pre with
              | nil =>
                  rw [List.nil_append] at hpre
                  rw [← hpre, hg]
                  rfl
              | cons x pre =>
                  rw [braced_append, List.cons_append, List.cons.injEq] at hpre
                  have hbody : (a ++ w :: (b ++ ['}'])) ++ tail = pre ++ '{' :: post := by
                    rw [← hpre.2]
                    simp
                  obtain ⟨more, hmore⟩ :=
                    exists_append_of_notMem (open_notMem_group ha hw' hb) hbody
                  exact hgood (by omega) more post hmore hsome

/-- No data at all. -/
def noData : MailData := ⟨fun _ => "", none, none, none, none⟩

theorem ite_eq_empty {c : Prop} [Decidable c] {x y : String} (hx : c → x = "") (hy : y = "") :
    (if c then x else y) = "" := by
  by_cases hc : c
  · rw [if_pos hc, hx hc]
  · rw [if_neg hc, hy]

/-- Without data, what is found and is no group has no value. -/
theorem groupValue_noData (inst : MailInstallation) {a b tail : List Char} {w : Char}
    (hnone : groupAt (braced a w b ++ tail) = none) (hw : regexSpace w = true) (hb : b ≠ []) :
    groupValue inst noData (String.ofList a) (String.ofList b) = "" := by
  have hwords : ¬ (isWord a = true ∧ isWord b = true) := by
    rintro ⟨ha, hb⟩
    rw [groupAt_braced ha hw hb] at hnone
    cases hnone
  have hknown : ∀ {x y : String}, String.ofList a = x → String.ofList b = y →
      ¬ (isWord x.toList = true ∧ isWord y.toList = true) := by
    rintro x y rfl rfl
    simpa using hwords
  have hinstallation : String.ofList a = "installation" → inst.send (String.ofList b) = "" := by
    -- the second part is no word, so it is no method
    intro hinst
    have ha : isWord a = true := by
      rw [← String.toList_ofList (l := a), hinst]
      decide +kernel
    apply inst.unknown
    rw [String.toList_ofList]
    by_contra hall
    refine hwords ⟨ha, isWord_iff.mpr ⟨hb, fun c hc => ?_⟩⟩
    rw [← Bool.not_eq_false]
    exact fun hbad => hall ⟨c, hc, hbad⟩
  unfold groupValue
  refine ite_eq_empty (fun _ => rfl) ?_
  refine ite_eq_empty (fun hlogin => ite_eq_empty (fun hurl => ?_) rfl) ?_
  · exact absurd (by decide +kernel) (hknown hlogin hurl)
  refine ite_eq_empty hinstallation ?_
  refine ite_eq_empty (fun _ => rfl) ?_
  refine ite_eq_empty (fun _ => rfl) ?_
  refine ite_eq_empty (fun _ => rfl) ?_
  refine ite_eq_empty (fun _ => rfl) ?_
  refine ite_eq_empty (fun himage => ite_eq_empty (fun hlogo => ?_)
    (ite_eq_empty (fun hlogo => ?_) rfl)) ?_
  · exact absurd (by decide +kernel) (hknown himage hlogo)
  · exact absurd (by decide +kernel) (hknown himage hlogo)
  refine ite_eq_empty (fun hmain => ite_eq_empty (fun hlogo => ?_) rfl) rfl
  exact absurd (by decide +kernel) (hknown hmain hlogo)

/-- Whatever the data are, the groups are replaced and every other
character is kept, exactly when every brace that takes text begins a
group. -/
theorem parse_groups_iff (inst : MailInstallation) (s : String) :
    (∀ data flags, (parse inst data flags s).1 = fillGroups inst data s) ↔ GroupsOnly s := by
  rw [groupsOnly_iff]
  constructor
  · intro h
    have hsame := String.ofList_injective (h noData ⟨false, false, false⟩)
    have hvalue : ∀ a w b tail, groupAt (braced a w b ++ tail) = none → regexSpace w = true →
        b ≠ [] → groupValue inst noData (String.ofList a) (String.ofList b) = "" :=
      fun _ _ _ _ hnone hw hb => groupValue_noData inst hnone hw hb
    exact (goodBraces_of_size hvalue s.toList).2 (congrArg List.length hsame)
  · intro h data flags
    rw [parse, fillGroups, parts_of_goodBraces h]

/-- The first brace begins no group and takes the text up to the end of
the group behind it. -/
theorem parse_loses_text :
    (parse ⟨fun _ => "", fun _ _ => rfl, none, none⟩ { noData with the := fun _ => "Jane" }
      ⟨false, false, false⟩ "{a} b {the x}").1 = "" ∧
    fillGroups ⟨fun _ => "", fun _ _ => rfl, none, none⟩ { noData with the := fun _ => "Jane" }
      "{a} b {the x}" = "{a} b Jane" ∧
    ¬ ∀ inst data flags s, (parse inst data flags s).1 = fillGroups inst data s := by
  have hparse : (parse ⟨fun _ => "", fun _ _ => rfl, none, none⟩
      { noData with the := fun _ => "Jane" } ⟨false, false, false⟩ "{a} b {the x}").1 = "" :=
        by decide +kernel
  have hfill : fillGroups ⟨fun _ => "", fun _ _ => rfl, none, none⟩
      { noData with the := fun _ => "Jane" } "{a} b {the x}" = "{a} b Jane" := by decide +kernel
  refine ⟨hparse, hfill, fun h => ?_⟩
  have heq := hparse.symm.trans ((h _ _ _ _).trans hfill)
  exact absurd heq (by decide +kernel)

end HomeWarranty.Output
