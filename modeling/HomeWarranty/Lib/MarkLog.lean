/-
HomeWarranty.Lib.MarkLog — an append-only log whose entries can be
marked by later events.

Every event appends one entry; before that it may MARK the first entry
of the log that it looks for. Nothing is remembered between events, so
an event that arrives before the entry it is about marks nothing, and an
event never reaches the second entry it matches.

`getElem?_process_of_marked` and `getElem?_process_of_unmarked` are the
closed form of a whole run: an entry ends up marked exactly when it is
the first entry that some LATER event looks for (`Marked`).
-/
import Mathlib.Data.List.Induction
import HomeWarranty.Lib.Run
import HomeWarranty.Lib.Table

namespace HomeWarranty.Lib

universe u v

/-- How events act on the log. Marking is invisible to the search, so
marking an entry does not change which entry later events find. -/
structure Marking (α : Type u) (ε : Type v) where
  entry : ε → α
  seeks : ε → α → Bool
  mark : α → α
  seeks_mark : ∀ e a, seeks e (mark a) = seeks e a
  mark_mark : ∀ a, mark (mark a) = mark a

namespace Marking

variable {α : Type u} {ε : Type v} (m : Marking α ε)

/-- One event: mark the first entry it looks for, then append. -/
def step (log : List α) (e : ε) : List α :=
  modifyFirst (m.seeks e) m.mark log ++ [m.entry e]

/-- The log after a list of events. -/
def process (log : List α) (es : List ε) : List α := run m.step log es

/-- The entries as they were appended, before any marking. -/
def arrived (log : List α) (es : List ε) : List α := log ++ es.map m.entry

/-- Event `es[k]` comes after entry `i` and looks for it first. -/
def Marked (log : List α) (es : List ε) (i : Nat) : Prop :=
  ∃ k e a, es[k]? = some e ∧ i < log.length + k ∧
    (m.arrived log es)[i]? = some a ∧ m.seeks e a = true ∧
    ∀ j < i, ∀ b, (m.arrived log es)[j]? = some b → m.seeks e b = false

/-- A further event looks for entry `i` first. -/
def Sought (log : List α) (es : List ε) (e : ε) (i : Nat) : Prop :=
  ∃ a, (m.arrived log es)[i]? = some a ∧ m.seeks e a = true ∧
    ∀ j < i, ∀ b, (m.arrived log es)[j]? = some b → m.seeks e b = false

theorem process_snoc (log : List α) (es : List ε) (e : ε) :
    m.process log (es ++ [e]) = m.step (m.process log es) e :=
  run_snoc m.step log es e

theorem arrived_snoc (log : List α) (es : List ε) (e : ε) :
    m.arrived log (es ++ [e]) = m.arrived log es ++ [m.entry e] := by
  simp [arrived]

@[simp] theorem length_arrived (log : List α) (es : List ε) :
    (m.arrived log es).length = log.length + es.length := by
  simp [arrived]

@[simp] theorem length_process (log : List α) (es : List ε) :
    (m.process log es).length = log.length + es.length := by
  induction es using List.reverseRecOn with
  | nil => simp [process]
  | append_singleton es e ih =>
      rw [process_snoc, step]
      simp [ih]
      omega

/-- Marking keeps what an event looks for: the processed log and the
arrived log answer every search alike. -/
theorem seeks_process (e : ε) (log : List α) (es : List ε) (i : Nat) :
    ((m.process log es)[i]?).map (m.seeks e)
      = ((m.arrived log es)[i]?).map (m.seeks e) := by
  have hmap : ∀ (e' : ε) (l : List α),
      (modifyFirst (m.seeks e') m.mark l).map (m.seeks e) = l.map (m.seeks e) := by
    intro e' l
    induction l with
    | nil => rfl
    | cons a l ih =>
        unfold modifyFirst
        split
        · simp [m.seeks_mark]
        · simp [ih]
  have hlist : (m.process log es).map (m.seeks e)
      = (m.arrived log es).map (m.seeks e) := by
    induction es using List.reverseRecOn with
    | nil => simp [process, arrived]
    | append_singleton es e' ih =>
        rw [process_snoc, step, arrived_snoc, List.map_append, List.map_append,
          hmap, ih]
  rw [← List.getElem?_map, ← List.getElem?_map, hlist]

theorem seeks_of_process {e : ε} {log : List α} {es : List ε} {i : Nat} {a b : α}
    (ha : (m.process log es)[i]? = some a) (hb : (m.arrived log es)[i]? = some b) :
    m.seeks e a = m.seeks e b := by
  have := m.seeks_process e log es i
  rw [ha, hb] at this
  simpa using this

/-- One more event leaves the marks of the others and adds its own. -/
theorem marked_snoc_iff (log : List α) (es : List ε) (e : ε) {i : Nat}
    (hi : i < log.length + es.length) :
    m.Marked log (es ++ [e]) i ↔ m.Marked log es i ∨ m.Sought log es e i := by
  have hget : ∀ j ≤ i, (m.arrived log (es ++ [e]))[j]? = (m.arrived log es)[j]? := by
    intro j hj
    rw [arrived_snoc, List.getElem?_append_left (by simp; omega)]
  constructor
  · rintro ⟨k, e', a, hk, hik, ha, hs, hfirst⟩
    rw [hget i (Nat.le_refl i)] at ha
    have hfirst' : ∀ j < i, ∀ b, (m.arrived log es)[j]? = some b →
        m.seeks e' b = false := by
      intro j hj b hb
      exact hfirst j hj b (by rw [hget j (by omega)]; exact hb)
    by_cases hlt : k < es.length
    · rw [List.getElem?_append_left hlt] at hk
      exact Or.inl ⟨k, e', a, hk, hik, ha, hs, hfirst'⟩
    · rw [List.getElem?_append_right (by omega)] at hk
      have hk0 : k - es.length = 0 := by
        by_contra hne
        rw [List.getElem?_eq_none (by simp; omega)] at hk
        cases hk
      simp only [hk0, List.getElem?_cons_zero, Option.some.injEq] at hk
      subst hk
      exact Or.inr ⟨a, ha, hs, hfirst'⟩
  · rintro (⟨k, e', a, hk, hik, ha, hs, hfirst⟩ | ⟨a, ha, hs, hfirst⟩)
    · have hlt : k < es.length := by
        by_contra hge
        rw [List.getElem?_eq_none (by omega)] at hk
        cases hk
      refine ⟨k, e', a, ?_, hik, ?_, hs, fun j hj b hb => hfirst j hj b ?_⟩
      · rw [List.getElem?_append_left hlt]; exact hk
      · rw [hget i (Nat.le_refl i)]; exact ha
      · rw [← hget j (by omega)]; exact hb
    · refine ⟨es.length, e, a, by simp, hi, ?_, hs, fun j hj b hb => hfirst j hj b ?_⟩
      · rw [hget i (Nat.le_refl i)]; exact ha
      · rw [← hget j (by omega)]; exact hb

/-- Nothing comes after the entry of the last event. -/
theorem not_marked_last (log : List α) (es : List ε) (e : ε) :
    ¬ m.Marked log (es ++ [e]) (log.length + es.length) := by
  rintro ⟨k, _, _, hk, hik, _⟩
  have hlt : k < (es ++ [e]).length := by
    by_contra hge
    rw [List.getElem?_eq_none (by omega)] at hk
    cases hk
  simp at hlt
  omega

/-- The entry an event looks for first is the one it marks. -/
theorem getElem?_modifyFirst_of_sought {log : List α} {es : List ε} {e : ε} {i : Nat} {c : α}
    (hc : (m.process log es)[i]? = some c) (h : m.Sought log es e i) :
    (modifyFirst (m.seeks e) m.mark (m.process log es))[i]? = some (m.mark c) := by
  obtain ⟨a, ha, hs, hfirst⟩ := h
  have hi : i < (m.arrived log es).length := (List.getElem?_eq_some_iff.mp ha).1
  refine getElem?_modifyFirst_of_first hc ?_ fun j hj b hb => ?_
  · rw [m.seeks_of_process hc ha]; exact hs
  · obtain ⟨b', hb'⟩ : ∃ b', (m.arrived log es)[j]? = some b' :=
      ⟨_, List.getElem?_eq_getElem (by omega)⟩
    rw [m.seeks_of_process hb hb']
    exact hfirst j hj b' hb'

theorem getElem?_modifyFirst_of_not_sought {log : List α} {es : List ε} {e : ε} {i : Nat} {a : α}
    (ha : (m.arrived log es)[i]? = some a) (h : ¬ m.Sought log es e i) :
    (modifyFirst (m.seeks e) m.mark (m.process log es))[i]? = (m.process log es)[i]? := by
  have hi : i < (m.arrived log es).length := (List.getElem?_eq_some_iff.mp ha).1
  refine getElem?_modifyFirst_of_not_first fun c hc hs => ?_
  rw [m.seeks_of_process hc ha] at hs
  by_contra hno
  refine h ⟨a, ha, hs, fun j hj b hb => ?_⟩
  have hj' : j < (m.process log es).length := by
    rw [length_arrived] at hi
    rw [length_process]
    omega
  have hb' := List.getElem?_eq_getElem hj'
  cases hsb : m.seeks e b with
  | false => rfl
  | true =>
      refine absurd ⟨j, hj, _, hb', ?_⟩ hno
      rw [m.seeks_of_process hb' hb]
      exact hsb

/-- The closed form, both halves at once so that the induction on the
events carries them together. -/
theorem getElem?_process (log : List α) (es : List ε) :
    ∀ (i : Nat) (a : α), (m.arrived log es)[i]? = some a →
      (m.Marked log es i → (m.process log es)[i]? = some (m.mark a)) ∧
      (¬ m.Marked log es i → (m.process log es)[i]? = some a) := by
  induction es using List.reverseRecOn with
  | nil =>
      intro i a ha
      have hnot : ¬ m.Marked log [] i := by rintro ⟨k, e, _, hk, _⟩; simp at hk
      refine ⟨fun h => absurd h hnot, fun _ => ?_⟩
      simpa [process, arrived] using ha
  | append_singleton es e ih =>
      intro i a ha
      rw [process_snoc, step]
      by_cases hi : i < log.length + es.length
      · -- an entry that was there before the last event
        rw [List.getElem?_append_left (by simp; omega)]
        rw [arrived_snoc, List.getElem?_append_left (by simp; omega)] at ha
        obtain ⟨hmk, hun⟩ := ih i a ha
        rw [marked_snoc_iff m log es e hi]
        by_cases hE : m.Sought log es e i
        · refine ⟨fun _ => ?_, fun h => absurd (Or.inr hE) h⟩
          by_cases hM : m.Marked log es i
          · rw [m.getElem?_modifyFirst_of_sought (hmk hM) hE, m.mark_mark]
          · exact m.getElem?_modifyFirst_of_sought (hun hM) hE
        · rw [m.getElem?_modifyFirst_of_not_sought ha hE]
          constructor
          · rintro (hM | hE')
            · exact hmk hM
            · exact absurd hE' hE
          · intro hnot
            exact hun fun hM => hnot (Or.inl hM)
      · -- the entry the last event appends
        have hlen : i = log.length + es.length := by
          obtain ⟨hlt, _⟩ := List.getElem?_eq_some_iff.mp ha
          simp at hlt
          omega
        refine ⟨fun h => ?_, fun _ => ?_⟩
        · rw [hlen] at h
          exact absurd h (m.not_marked_last log es e)
        · rw [arrived_snoc] at ha
          rw [List.getElem?_append_right (by simp; omega)] at ha ⊢
          simpa [hlen] using ha

theorem getElem?_process_of_marked {log : List α} {es : List ε} {i : Nat} {a : α}
    (ha : (m.arrived log es)[i]? = some a) (h : m.Marked log es i) :
    (m.process log es)[i]? = some (m.mark a) :=
  (m.getElem?_process log es i a ha).1 h

theorem getElem?_process_of_unmarked {log : List α} {es : List ε} {i : Nat} {a : α}
    (ha : (m.arrived log es)[i]? = some a) (h : ¬ m.Marked log es i) :
    (m.process log es)[i]? = some a :=
  (m.getElem?_process log es i a ha).2 h

end Marking

end HomeWarranty.Lib
