/-
HomeWarranty.Output.Safe — `lib/safe.rb`, the rewrites that make a text
safe for HTML and for the name of a file.

Both are tables of rewrites that run over the whole string one after the
other. In neither does a round touch what an earlier one put in, so each
is one pass over the characters; for HTML this rests on the order, as the
comment in the source says. The encoded HTML is read back in one pass
from left to right (`decodeHtml`).

`Safe.json` is in `Output.SafeJson`.
-/
import HomeWarranty.Ruby.Gsub

namespace HomeWarranty.Output

open Ruby

/-! ## The tables -/

/-- `Safe.replace`. -/
def Safe.replace (replacements : List (String × String)) (s : String) : String :=
  String.ofList (replacements.foldl (fun cs e => gsub e.1.toList e.2.toList cs) s.toList)

def Safe.HTML : List (String × String) :=
  [("&", "&amp;"), ("<", "&lt;"), (">", "&gt;"), ("\"", "&quot;")]

def Safe.FILENAME : List (String × String) :=
  [(":", "_"), ("\"", ""), ("*", "_"), (".", "_"), ("/", ""), ("\\", ""), (" ", "_"), ("\t", ""),
    ("[", "("), ("]", ")"), (";", "_"), ("|", "_"), ("=", ""), (",", "_")]

def Safe.html (s : String) : String := Safe.replace Safe.HTML s

def Safe.filename (s : String) : String := Safe.replace Safe.FILENAME s

example : Safe.html "a < \"b\" &lt;" = "a &lt; &quot;b&quot; &amp;lt;" ∧
    Safe.filename "[a:b] c.txt" = "(a_b)_c_txt" := by decide +kernel

/-- A table by its characters. -/
def asStrings (table : List (Char × List Char)) : List (String × String) :=
  table.map fun e => (String.ofList [e.1], String.ofList e.2)

theorem toList_replace (table : List (Char × List Char)) (s : String) :
    (Safe.replace (asStrings table) s).toList = rewriteAll table s.toList := by
  simp [Safe.replace, asStrings, rewriteAll, List.foldl_map]

/-- Rewrites that leave each other's work alone are one pass. -/
theorem toList_replace_onePass {table : List (Char × List Char)} (h : Independent table)
    (s : String) :
    (Safe.replace (asStrings table) s).toList = s.toList.flatMap (onePass table) := by
  rw [toList_replace, rewriteAll_eq_onePass h]

/-! ## HTML -/

/-- The characters and their entities. -/
def entities : List (Char × List Char) :=
  [('&', ['&', 'a', 'm', 'p', ';']), ('<', ['&', 'l', 't', ';']), ('>', ['&', 'g', 't', ';']),
    ('"', ['&', 'q', 'u', 'o', 't', ';'])]

/-- Entities are read from left to right; `skip` characters of one are
still to be passed. -/
def decodeFrom : Nat → List Char → List Char
  | _, [] => []
  | skip + 1, _ :: cs => decodeFrom skip cs
  | 0, c :: cs =>
      match entities.find? fun e => e.2.isPrefixOf (c :: cs) with
      | some e => e.1 :: decodeFrom (e.2.length - 1) cs
      | none => c :: decodeFrom 0 cs

/-- The four entities decoded in one pass. -/
def decodeHtml (s : String) : String := String.ofList (decodeFrom 0 s.toList)

theorem toList_html (s : String) : (Safe.html s).toList = s.toList.flatMap (onePass entities) := by
  have htable : Safe.HTML = asStrings entities := rfl
  rw [Safe.html, htable, toList_replace_onePass (by decide)]

/-- A character is encoded by its entity, or it is none of the four. -/
theorem onePass_entities (c : Char) :
    (∃ e ∈ entities, e.1 = c ∧ onePass entities c = e.2) ∨
      c ≠ '&' ∧ c ≠ '<' ∧ c ≠ '>' ∧ c ≠ '"' ∧ onePass entities c = [c] := by
  rcases onePass_cases entities c with h | ⟨hno, heq⟩
  · exact .inl h
  · refine .inr ⟨?_, ?_, ?_, ?_, heq⟩ <;> rintro rfl
    · exact hno ('&', ['&', 'a', 'm', 'p', ';']) (by simp [entities]) rfl
    · exact hno ('<', ['&', 'l', 't', ';']) (by simp [entities]) rfl
    · exact hno ('>', ['&', 'g', 't', ';']) (by simp [entities]) rfl
    · exact hno ('"', ['&', 'q', 'u', 'o', 't', ';']) (by simp [entities]) rfl

theorem decodeFrom_skip (n : Nat) (cs : List Char) :
    decodeFrom n cs = decodeFrom 0 (cs.drop n) := by
  induction cs generalizing n with
  | nil => cases n <;> rfl
  | cons c cs ih =>
      cases n with
      | zero => rfl
      | succ n =>
          rw [decodeFrom, List.drop_succ_cons]
          exact ih n

theorem decodeFrom_of_find? {c : Char} {cs : List Char} {e : Char × List Char}
    (h : (entities.find? fun e => e.2.isPrefixOf (c :: cs)) = some e) :
    decodeFrom 0 (c :: cs) = e.1 :: decodeFrom 0 (cs.drop (e.2.length - 1)) := by
  rw [decodeFrom, h]
  exact congrArg (e.1 :: ·) (decodeFrom_skip _ cs)

/-- The code of a character is read as that character. -/
theorem decodeFrom_onePass (c : Char) (cs : List Char) :
    decodeFrom 0 (onePass entities c ++ cs) = c :: decodeFrom 0 cs := by
  rcases onePass_entities c with ⟨e, he, rfl, heq⟩ | ⟨hamp, _, _, _, heq⟩
  · rw [heq]
    simp only [entities, List.mem_cons, List.not_mem_nil, or_false] at he
    rcases he with rfl | rfl | rfl | rfl
    · exact decodeFrom_of_find? (by simp [entities])
    · exact decodeFrom_of_find? (by simp [entities])
    · exact decodeFrom_of_find? (by simp [entities])
    · exact decodeFrom_of_find? (by simp [entities])
  · have hnone : (entities.find? fun e => e.2.isPrefixOf (c :: cs)) = none := by
      simp [entities, Ne.symm hamp]
    rw [heq, List.singleton_append, decodeFrom, hnone]

theorem decodeHtml_html (s : String) : decodeHtml (Safe.html s) = s := by
  have hall : ∀ cs, decodeFrom 0 (cs.flatMap (onePass entities)) = cs := by
    intro cs
    induction cs with
    | nil => rfl
    | cons c cs ih => rw [List.flatMap_cons, decodeFrom_onePass, ih]
  rw [decodeHtml, toList_html, hall, String.ofList_toList]

/-- An entity begins with its only `&`. -/
theorem entity_eq_cons {e : Char × List Char} (he : e ∈ entities) :
    ∃ ys, e.2 = '&' :: ys ∧ '&' ∉ ys := by
  simp only [entities, List.mem_cons, List.not_mem_nil, or_false] at he
  rcases he with rfl | rfl | rfl | rfl <;> exact ⟨_, rfl, by decide⟩

/-- In the code of a character `&` stands at the start of an entity, if
it stands there at all. -/
theorem amp_onePass {c : Char} {pre post cs : List Char}
    (h : onePass entities c ++ cs = pre ++ '&' :: post) :
    (∃ e ∈ entities, e.2 <+: '&' :: post) ∨ ∃ pre', cs = pre' ++ '&' :: post := by
  rcases onePass_entities c with ⟨e, he, rfl, heq⟩ | ⟨hamp, _, _, _, heq⟩
  · rw [heq] at h
    cases pre with
    | nil => exact .inl ⟨e, he, cs, h⟩
    | cons x pre =>
        obtain ⟨ys, hy, htail⟩ := entity_eq_cons he
        rw [hy, List.cons_append, List.cons_append, List.cons.injEq] at h
        exact .inr (exists_append_of_notMem htail h.2)
  · rw [heq, List.singleton_append] at h
    cases pre with
    | nil => exact absurd (List.cons.inj h).1 hamp
    | cons x pre => exact .inr ⟨pre, (List.cons.inj h).2⟩

theorem amp_flatMap {cs pre post : List Char}
    (h : cs.flatMap (onePass entities) = pre ++ '&' :: post) :
    ∃ e ∈ entities, e.2 <+: '&' :: post := by
  induction cs generalizing pre with
  | nil => cases pre <;> cases h
  | cons c cs ih =>
      rw [List.flatMap_cons] at h
      rcases amp_onePass h with hent | ⟨pre', hrest⟩
      · exact hent
      · exact ih hrest

theorem notMem_html {x : Char} (hx : x = '<' ∨ x = '>' ∨ x = '"') (s : String) :
    x ∉ (Safe.html s).toList := by
  rw [toList_html]
  intro hmem
  obtain ⟨c, _, hc⟩ := List.mem_flatMap.mp hmem
  rcases onePass_entities c with ⟨e, he, _, heq⟩ | ⟨_, hlt, hgt, hquote, heq⟩
  · rw [heq] at hc
    simp only [entities, List.mem_cons, List.not_mem_nil, or_false] at he
    rcases he with rfl | rfl | rfl | rfl <;> rcases hx with rfl | rfl | rfl <;>
      exact absurd hc (by decide)
  · rw [heq, List.mem_singleton] at hc
    subst hc
    rcases hx with rfl | rfl | rfl
    · exact hlt rfl
    · exact hgt rfl
    · exact hquote rfl

/-- The encoded text has no `<`, `>` or `"`, every `&` in it begins one
of the four entities, and decoding them in one pass gives the text back,
so no two texts are encoded alike. -/
theorem html_faithful :
    (∀ s : String,
      '<' ∉ (Safe.html s).toList ∧ '>' ∉ (Safe.html s).toList ∧ '"' ∉ (Safe.html s).toList ∧
      (∀ pre post, (Safe.html s).toList = pre ++ '&' :: post →
        ∃ e ∈ entities, e.2 <+: '&' :: post) ∧
      decodeHtml (Safe.html s) = s) ∧
    Function.Injective Safe.html := by
  refine ⟨fun s => ⟨?_, ?_, ?_, ?_, decodeHtml_html s⟩, ?_⟩
  · exact notMem_html (.inl rfl) s
  · exact notMem_html (.inr (.inl rfl)) s
  · exact notMem_html (.inr (.inr rfl)) s
  · intro pre post h
    rw [toList_html] at h
    exact amp_flatMap h
  · intro s t h
    rw [← decodeHtml_html s, h, decodeHtml_html]

/-! ## Names of files -/

/-- The prohibited characters and what stands for them. -/
def prohibited : List (Char × List Char) :=
  [(':', ['_']), ('"', []), ('*', ['_']), ('.', ['_']), ('/', []), ('\\', []), (' ', ['_']),
    ('\t', []), ('[', ['(']), (']', [')']), (';', ['_']), ('|', ['_']), ('=', []), (',', ['_'])]

theorem toList_filename (s : String) :
    (Safe.filename s).toList = s.toList.flatMap (onePass prohibited) := by
  have htable : Safe.FILENAME = asStrings prohibited := rfl
  rw [Safe.filename, htable, toList_replace_onePass (by decide)]

/-- A file name has none of the fourteen characters, is what one pass
through the table makes of the text, and is its own file name. -/
theorem filename_one_pass (s : String) :
    (∀ e ∈ prohibited, e.1 ∉ (Safe.filename s).toList) ∧ prohibited.length = 14 ∧
    Safe.filename s = String.ofList (s.toList.flatMap (onePass prohibited)) ∧
    Safe.filename (Safe.filename s) = Safe.filename s := by
  have hnone : ∀ a ∈ prohibited, ∀ b ∈ prohibited, b.1 ∉ a.2 := by decide
  have hfree : ∀ e ∈ prohibited, e.1 ∉ (Safe.filename s).toList := by
    intro e he
    rw [toList_filename]
    exact notMem_onePass hnone he _
  refine ⟨hfree, rfl, ?_, ?_⟩
  · rw [← toList_filename, String.ofList_toList]
  · apply String.toList_injective
    rw [toList_filename (Safe.filename s), onePass_eq_self hfree]

end HomeWarranty.Output
