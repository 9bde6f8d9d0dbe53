/-
HomeWarranty.Lib.Placeholders — texts with placeholders between bars,
`|||NAME|||`, that are filled in one name after the other.

Each round replaces the tag of one name in the whole text, and so sees
what the rounds before it put in. Two things could go wrong: a value may
bring a tag of its own, and the closing bars of one tag, a text and the
opening bars of the next may look like a tag together. Values and texts
without bars exclude the first. The second needs a text that IS a name;
it would still be there at the end (`prefix_fill_of_prefix_render`).

Where no name is left in the filled text, the rounds fill every
placeholder with its value, in any order: `rounds_eq_fill`.
-/
import HomeWarranty.Ruby.Gsub

namespace HomeWarranty.Lib

open Ruby

/-- Plain text, or the placeholder of a name. -/
inductive Segment (T : Type) where
  | text (cs : List Char)
  | token (t : T)

section
variable {T : Type} (bar : Char) (name : T → List Char)

def tag (t : T) : List Char := [bar, bar, bar] ++ (name t ++ [bar, bar, bar])

/-- The text as it is stored. -/
def render : List (Segment T) → List Char
  | [] => []
  | .text cs :: segs => cs ++ render segs
  | .token t :: segs => tag bar name t ++ render segs

/-- The text with every placeholder replaced once. -/
def fill (value : T → List Char) : List (Segment T) → List Char
  | [] => []
  | .text cs :: segs => cs ++ fill value segs
  | .token t :: segs => value t ++ fill value segs

/-- One name replaced. -/
def Segment.put [DecidableEq T] (t : T) (v : List Char) : Segment T → Segment T
  | .text cs => .text cs
  | .token u => if u = t then .text v else .token u

/-- The rounds, one name after the other. -/
def rounds (value : T → List Char) (order : List T) (cs : List Char) : List Char :=
  order.foldl (fun cs t => gsub (tag bar name t) (value t) cs) cs

/-- Names that differ, with no bar in them. -/
structure ProperNames : Prop where
  nonempty : ∀ t, name t ≠ []
  noBar : ∀ t, bar ∉ name t
  injective : Function.Injective name

/-- The plain texts have no bar. -/
def NoBars (segs : List (Segment T)) : Prop := ∀ cs, .text cs ∈ segs → bar ∉ cs

end

section
variable {T : Type} {bar : Char} {name : T → List Char} {value : T → List Char}

/-! ## Bars -/

/-- The bars at the start of a text. -/
def barRun (bar : Char) (cs : List Char) : Nat := (cs.takeWhile (· == bar)).length

theorem barRun_cons_bar (bar : Char) (cs : List Char) :
    barRun bar (bar :: cs) = barRun bar cs + 1 := by
  simp [barRun]

theorem barRun_cons_of_ne {c : Char} (h : c ≠ bar) (cs : List Char) : barRun bar (c :: cs) = 0 := by
  simp [barRun, h]

theorem tag_eq (t : T) : tag bar name t = bar :: bar :: bar :: (name t ++ [bar, bar, bar]) := rfl

/-- A tag starts with three bars and no more. -/
theorem barRun_tag (hn : ProperNames bar name) (t : T) (cs : List Char) :
    barRun bar (tag bar name t ++ cs) = 3 := by
  cases hname : name t with
  | nil => exact absurd hname (hn.nonempty t)
  | cons c rest =>
      have hc : c ≠ bar := by
        rintro rfl
        exact hn.noBar t (by rw [hname]; exact List.mem_cons_self)
      simp only [tag_eq, hname, List.cons_append, barRun_cons_bar, barRun_cons_of_ne hc]

theorem barRun_render (hn : ProperNames bar name) {segs : List (Segment T)} (hs : NoBars bar segs) :
    barRun bar (render bar name segs) = 0 ∨ barRun bar (render bar name segs) = 3 := by
  induction segs with
  | nil => exact .inl rfl
  | cons seg segs ih =>
      cases seg with
      | token t => exact .inr (barRun_tag hn t _)
      | text cs =>
          have hcs : bar ∉ cs := hs cs List.mem_cons_self
          cases cs with
          | nil => exact ih fun cs h => hs cs (List.mem_cons_of_mem _ h)
          | cons c cs =>
              have hc : c ≠ bar := fun h => hcs (h ▸ List.mem_cons_self)
              exact .inl (barRun_cons_of_ne hc _)

/-- No tag stands where the bars are more or fewer than three. -/
theorem not_tag_of_barRun (hn : ProperNames bar name) {t : T} {cs : List Char}
    (h : barRun bar cs ≠ 3) : ¬ tag bar name t <+: cs := by
  rintro ⟨rest, rfl⟩
  exact h (barRun_tag hn t rest)

/-! ## Names -/

/-- Two texts without bars, each up to its bar. -/
theorem eq_of_append_bar {a b cs ds : List Char} (ha : bar ∉ a) (hb : bar ∉ b)
    (h : a ++ bar :: cs = b ++ bar :: ds) : a = b := by
  induction a generalizing b with
  | nil =>
      cases b with
      | nil => rfl
      | cons y b => exact absurd ((List.cons.inj h).1 ▸ List.mem_cons_self) hb
  | cons x a ih =>
      rw [List.mem_cons, not_or] at ha
      cases b with
      | nil => exact absurd (List.cons.inj h).1.symm ha.1
      | cons y b =>
          rw [List.mem_cons, not_or] at hb
          obtain ⟨rfl, hrest⟩ := List.cons.inj h
          rw [ih ha.2 hb.2 hrest]

/-- A text that stands before a bar in the stored text stands in the
filled text too: what is before the bar is no placeholder. -/
theorem prefix_fill_of_prefix_render (value : T → List Char) {cs : List Char} (hcs : bar ∉ cs)
    {segs : List (Segment T)} (h : cs ++ [bar] <+: render bar name segs) :
    cs <+: fill value segs := by
  induction segs generalizing cs with
  | nil =>
      have hnil : cs ++ [bar] = [] := List.prefix_nil.mp h
      exact absurd hnil (by simp)
  | cons seg segs ih =>
      cases seg with
      | token t =>
          cases cs with
          | nil => exact List.nil_prefix
          | cons c cs =>
              have hc : c = bar := (List.cons_prefix_cons.mp h).1
              exact absurd (hc ▸ List.mem_cons_self) hcs
      | text l =>
          rw [render] at h
          rw [fill]
          rcases Nat.le_total cs.length l.length with hle | hle
          · have hin : cs <+: l ++ render bar name segs := (List.prefix_append cs [bar]).trans h
            exact (List.prefix_of_prefix_length_le hin (List.prefix_append l _) hle).trans
              (List.prefix_append l _)
          · obtain ⟨cs', rfl⟩ : l <+: cs :=
              List.prefix_of_prefix_length_le (List.prefix_append l _)
                ((List.prefix_append cs [bar]).trans h) hle
            rw [List.append_assoc, List.prefix_append_right_inj] at h
            rw [List.mem_append, not_or] at hcs
            exact (List.prefix_append_right_inj l).mpr (ih hcs.2 h)

/-! ## One round -/

/-- The tag of another name is passed, also its closing bars. -/
theorem gsub_other_tag (hn : ProperNames bar name) {t u : T} (hne : u ≠ t) (v : List Char)
    {cs : List Char} (hrun : barRun bar cs = 0 ∨ barRun bar cs = 3)
    (hcs : ¬ name t ++ [bar] <+: cs) :
    gsub (tag bar name t) v (tag bar name u ++ cs) =
      tag bar name u ++ gsub (tag bar name t) v cs := by
  -- at the opening bars the names differ, behind the first of them the bars are too few
  have hopen : ¬ tag bar name t <+: bar :: bar :: bar :: (name u ++ bar :: bar :: bar :: cs) := by
    rintro ⟨rest, hrest⟩
    simp only [tag_eq, List.cons_append, List.append_assoc, List.cons.injEq, true_and] at hrest
    exact hne (hn.injective (eq_of_append_bar (hn.noBar t) (hn.noBar u) hrest)).symm
  have hname : barRun bar (name u ++ bar :: bar :: bar :: cs) = 0 := by
    cases hu : name u with
    | nil => exact absurd hu (hn.nonempty u)
    | cons c rest =>
        have hc : c ≠ bar := fun h => hn.noBar u (by rw [hu, h]; exact List.mem_cons_self)
        exact barRun_cons_of_ne hc _
  -- at the closing bars the name would have to follow, behind the first there are not three
  have hclose : ¬ tag bar name t <+: bar :: bar :: bar :: cs := by
    rintro ⟨rest, hrest⟩
    simp only [tag_eq, List.cons_append, List.append_assoc, List.cons.injEq, true_and] at hrest
    exact hcs ⟨bar :: bar :: rest, by rw [← hrest]; simp⟩
  have htwo : barRun bar (bar :: bar :: cs) ≠ 3 := by
    rw [barRun_cons_bar, barRun_cons_bar]
    omega
  have hone : barRun bar (bar :: cs) ≠ 3 := by
    rw [barRun_cons_bar]
    omega
  have hpass : ∀ rest, gsub (tag bar name t) v (name u ++ rest) =
      name u ++ gsub (tag bar name t) v rest :=
        fun rest => gsub_append_of_notMem (hn.noBar u) v rest
  have htag : ∀ rest, tag bar name u ++ rest =
      bar :: bar :: bar :: (name u ++ bar :: bar :: bar :: rest) := by
    intro rest
    rw [tag_eq]
    simp
  rw [htag, gsub_cons_of_no_match hopen,
    gsub_cons_of_no_match
      (not_tag_of_barRun hn (by rw [barRun_cons_bar, barRun_cons_bar, hname]; decide)),
    gsub_cons_of_no_match (not_tag_of_barRun hn (by rw [barRun_cons_bar, hname]; decide)), hpass,
    gsub_cons_of_no_match hclose, gsub_cons_of_no_match (not_tag_of_barRun hn htwo),
    gsub_cons_of_no_match (not_tag_of_barRun hn hone), htag]

section
variable [DecidableEq T]

/-- A round replaces the placeholders of its name and nothing else. -/
theorem gsub_render (hn : ProperNames bar name) (t : T) (v : List Char) {segs : List (Segment T)}
    (hs : NoBars bar segs)
    (hhidden : ∀ rest, rest <:+ segs → ¬ name t ++ [bar] <+: render bar name rest) :
    gsub (tag bar name t) v (render bar name segs)
      = render bar name (segs.map (Segment.put t v)) := by
  induction segs with
  | nil => rfl
  | cons seg segs ih =>
      have hs' : NoBars bar segs := fun cs h => hs cs (List.mem_cons_of_mem _ h)
      have hih := ih hs' fun rest h => hhidden rest (h.trans (List.suffix_cons seg segs))
      cases seg with
      | text cs =>
          have hcs : bar ∉ cs := hs cs List.mem_cons_self
          rw [List.map_cons, Segment.put, render, render, ← hih]
          exact gsub_append_of_notMem hcs v _
      | token u =>
          by_cases hu : u = t
          · subst hu
            have hne : tag bar name u ≠ [] := by simp [tag]
            rw [List.map_cons, Segment.put, if_pos rfl, render, render, gsub_match hne, hih]
          · rw [List.map_cons, Segment.put, if_neg hu, render, render, ← hih]
            exact gsub_other_tag hn hu v (barRun_render hn hs')
              (hhidden segs (List.suffix_cons _ segs))

theorem fill_map_put (t : T) (segs : List (Segment T)) :
    fill value (segs.map (Segment.put t (value t))) = fill value segs := by
  induction segs with
  | nil => rfl
  | cons seg segs ih =>
      cases seg with
      | text cs => rw [List.map_cons, Segment.put, fill, fill, ih]
      | token u =>
          by_cases hu : u = t
          · rw [List.map_cons, Segment.put, if_pos hu, fill, fill, ih, hu]
          · rw [List.map_cons, Segment.put, if_neg hu, fill, fill, ih]

theorem noBars_map_put {t : T} {v : List Char} (hv : bar ∉ v) {segs : List (Segment T)}
    (hs : NoBars bar segs) : NoBars bar (segs.map (Segment.put t v)) := by
  intro cs hcs
  obtain ⟨seg, hseg, heq⟩ := List.mem_map.mp hcs
  cases seg with
  | text l =>
      rw [Segment.put, Segment.text.injEq] at heq
      exact heq ▸ hs l hseg
  | token u =>
      rw [Segment.put] at heq
      split_ifs at heq
      rw [Segment.text.injEq] at heq
      exact heq ▸ hv

end

/-! ## All rounds -/

theorem fill_suffix {rest segs : List (Segment T)} (h : rest <:+ segs) :
    fill value rest <:+ fill value segs := by
  obtain ⟨front, rfl⟩ := h
  induction front with
  | nil => exact List.suffix_rfl
  | cons seg front ih =>
      cases seg with
      | text cs => exact ih.trans (List.suffix_append cs _)
      | token t => exact ih.trans (List.suffix_append (value t) _)

theorem render_eq_fill {segs : List (Segment T)} (h : ∀ t, .token t ∉ segs) :
    render bar name segs = fill value segs := by
  induction segs with
  | nil => rfl
  | cons seg segs ih =>
      have htail := ih fun t ht => h t (List.mem_cons_of_mem _ ht)
      cases seg with
      | text cs => rw [render, fill, htail]
      | token t => exact absurd List.mem_cons_self (h t)

/-- The rounds, in any order that has every placeholder of the text, fill
them all with their values. -/
theorem rounds_eq_fill [DecidableEq T] (hn : ProperNames bar name) (hv : ∀ t, bar ∉ value t)
    {order : List T} {segs : List (Segment T)} (hs : NoBars bar segs)
    (hfree : ∀ t, ¬ name t <:+: fill value segs) (hall : ∀ t, .token t ∈ segs → t ∈ order) :
    rounds bar name value order (render bar name segs) = fill value segs := by
  induction order generalizing segs with
  | nil => exact render_eq_fill fun t ht => absurd (hall t ht) List.not_mem_nil
  | cons t order ih =>
      have hhidden : ∀ rest, rest <:+ segs → ¬ name t ++ [bar] <+: render bar name rest := by
        intro rest hrest hprefix
        have hin := prefix_fill_of_prefix_render value (hn.noBar t) hprefix
        exact hfree t (hin.isInfix.trans (fill_suffix hrest).isInfix)
      have hround : rounds bar name value (t :: order) (render bar name segs) =
          rounds bar name value order
            (gsub (tag bar name t) (value t) (render bar name segs)) := rfl
      rw [hround, gsub_render hn t (value t) hs hhidden, ih (noBars_map_put (hv t) hs),
        fill_map_put]
      · intro u
        rw [fill_map_put]
        exact hfree u
      · intro u hu
        obtain ⟨seg, hseg, heq⟩ := List.mem_map.mp hu
        cases seg with
        | text cs => cases heq
        | token w =>
            rw [Segment.put] at heq
            split_ifs at heq with hw
            obtain rfl := Segment.token.inj heq
            exact (List.mem_cons.mp (hall w hseg)).resolve_left hw

/-- A text without bars has no tag. -/
theorem not_tag_infix_fill (hv : ∀ t, bar ∉ value t) {segs : List (Segment T)}
    (hs : NoBars bar segs)
    (t : T) : ¬ tag bar name t <:+: fill value segs := by
  have hbar : bar ∉ fill value segs := by
    induction segs with
    | nil => exact List.not_mem_nil
    | cons seg segs ih =>
        have htail := ih fun cs h => hs cs (List.mem_cons_of_mem _ h)
        cases seg with
        | text cs =>
            rw [fill, List.mem_append, not_or]
            exact ⟨hs cs List.mem_cons_self, htail⟩
        | token u =>
            rw [fill, List.mem_append, not_or]
            exact ⟨hv u, htail⟩
  intro h
  exact hbar (h.subset (by simp [tag]))

end

end HomeWarranty.Lib
