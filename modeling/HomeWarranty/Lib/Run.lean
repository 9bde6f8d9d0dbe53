/-
HomeWarranty.Lib.Run — finite runs of a deterministic machine.

A machine is a step function `step : σ → ε → σ`; a run is the fold of
its event list. Two kinds of statement are made about runs:

* `run_invariant` — what every step keeps, every run keeps;
* `run_invariant_of_steps` — the same when a step keeps it only under a
  condition on the event and on the state BEFORE it. `StepsOk` says
  that every step of the run meets its condition in the state it is
  taken in.

`StepsOk.take` cuts a good run short, so a conclusion about the last
state of every good run is a conclusion about every state on the way.
`forall_take_iff_stepsOk` is the exact form, for a condition that a step
into a good state cannot do without; `forall_steps_iff_stepsOk` is the
one for what a step does between two states, and
`forall_events_iff_stepsOk` the one for what each event is to bring
about.
-/
import Mathlib.Data.List.Basic

namespace HomeWarranty.Lib

universe u v

variable {σ : Type u} {ε : Type v}

/-! ## Runs -/

/-- The state a list of events leads to. -/
def run (step : σ → ε → σ) (s : σ) (es : List ε) : σ := es.foldl step s

@[simp] theorem run_nil (step : σ → ε → σ) (s : σ) : run step s [] = s := rfl

@[simp] theorem run_cons (step : σ → ε → σ) (s : σ) (e : ε) (es : List ε) :
    run step s (e :: es) = run step (step s e) es := rfl

theorem run_append (step : σ → ε → σ) (s : σ) (es fs : List ε) :
    run step s (es ++ fs) = run step (run step s es) fs := by
  simp [run, List.foldl_append]

theorem run_snoc (step : σ → ε → σ) (s : σ) (es : List ε) (e : ε) :
    run step s (es ++ [e]) = step (run step s es) e := by
  rw [run_append]; rfl

/-- What every step keeps, every run keeps. -/
theorem run_invariant {step : σ → ε → σ} (I : σ → Prop)
    (hstep : ∀ s e, I s → I (step s e)) :
    ∀ (es : List ε) (s : σ), I s → I (run step s es) := by
  intro es
  induction es with
  | nil => intro s h; exact h
  | cons e es ih => intro s h; exact ih (step s e) (hstep s e h)

/-- A projection that follows an abstract machine step by step follows
it along every run. -/
theorem run_simulates {τ : Type*} {step : σ → ε → σ} {astep : τ → ε → τ}
    {abs : σ → τ} (h : ∀ s e, abs (step s e) = astep (abs s) e) :
    ∀ (es : List ε) (s : σ), abs (run step s es) = run astep (abs s) es := by
  intro es
  induction es with
  | nil => intro s; rfl
  | cons e es ih => intro s; rw [run_cons, run_cons, ih (step s e), h s e]

/-! ## Runs whose steps meet a condition -/

/-- Every step of the run meets `ok` in the state it is taken in. -/
def StepsOk (step : σ → ε → σ) (ok : σ → ε → Prop) : σ → List ε → Prop
  | _, [] => True
  | s, e :: es => ok s e ∧ StepsOk step ok (step s e) es

instance StepsOk.decidable (step : σ → ε → σ) (ok : σ → ε → Prop)
    [∀ s e, Decidable (ok s e)] : ∀ s es, Decidable (StepsOk step ok s es)
  | _, [] => inferInstanceAs (Decidable True)
  | s, e :: es =>
      have := StepsOk.decidable step ok (step s e) es
      inferInstanceAs (Decidable (ok s e ∧ StepsOk step ok (step s e) es))

theorem StepsOk.take {step : σ → ε → σ} {ok : σ → ε → Prop} {es fs : List ε} {s : σ}
    (h : StepsOk step ok s (es ++ fs)) : StepsOk step ok s es := by
  induction es generalizing s with
  | nil => trivial
  | cons e es ih => exact ⟨h.1, ih h.2⟩

/-- The first `k` steps of a good run are a good run. -/
theorem StepsOk.first {step : σ → ε → σ} {ok : σ → ε → Prop} {es : List ε} {s : σ}
    (h : StepsOk step ok s es) (k : Nat) : StepsOk step ok s (es.take k) := by
  rw [← List.take_append_drop k es] at h
  exact h.take

/-- What is left of a good run is a good run. -/
theorem StepsOk.drop {step : σ → ε → σ} {ok : σ → ε → Prop} {es fs : List ε} {s : σ}
    (h : StepsOk step ok s (es ++ fs)) : StepsOk step ok (run step s es) fs := by
  induction es generalizing s with
  | nil => exact h
  | cons e es ih => exact ih h.2

/-- The condition holds at every step of a good run. -/
theorem StepsOk.at {step : σ → ε → σ} {ok : σ → ε → Prop} {pre : List ε} {e : ε}
    {post : List ε} {s : σ} (h : StepsOk step ok s (pre ++ e :: post)) :
    ok (run step s pre) e := by
  induction pre generalizing s with
  | nil => exact h.1
  | cons d pre ih => exact ih h.2

/-- A run is good when the condition holds at each of its steps. -/
theorem stepsOk_of_forall {step : σ → ε → σ} {ok : σ → ε → Prop} {es : List ε} {s : σ}
    (h : ∀ pre e post, es = pre ++ e :: post → ok (run step s pre) e) :
    StepsOk step ok s es := by
  induction es generalizing s with
  | nil => trivial
  | cons e es ih =>
      refine ⟨h [] e es rfl, ih fun pre d post heq => ?_⟩
      exact h (e :: pre) d post (by rw [heq]; rfl)

theorem StepsOk.imp {step : σ → ε → σ} {ok ok' : σ → ε → Prop}
    (h : ∀ s e, ok s e → ok' s e) {es : List ε} {s : σ} (hs : StepsOk step ok s es) :
    StepsOk step ok' s es := by
  induction es generalizing s with
  | nil => trivial
  | cons e es ih => exact ⟨h s e hs.1, ih hs.2⟩

/-- What every step keeps may be added to the condition. -/
theorem StepsOk.and_invariant {step : σ → ε → σ} {ok : σ → ε → Prop} (I : σ → Prop)
    (hstep : ∀ s e, I s → I (step s e)) {es : List ε} {s : σ}
    (hs : StepsOk step ok s es) (hI : I s) :
    StepsOk step (fun t e => ok t e ∧ I t) s es := by
  induction es generalizing s with
  | nil => trivial
  | cons e es ih => exact ⟨⟨hs.1, hI⟩, ih hs.2 (hstep s e hI)⟩

theorem run_invariant_of_steps {step : σ → ε → σ} {ok : σ → ε → Prop}
    (I : σ → Prop) (hstep : ∀ s e, I s → ok s e → I (step s e)) :
    ∀ (es : List ε) (s : σ), StepsOk step ok s es → I s → I (run step s es) := by
  intro es
  induction es with
  | nil => intro s _ h; exact h
  | cons e es ih =>
      intro s hok h
      exact ih (step s e) hok.2 (hstep s e h hok.1)

/-- Where a step from a good state leads to a good state exactly when it
meets its condition, a run stays in good states exactly when all its
steps do. -/
theorem forall_take_iff_stepsOk {step : σ → ε → σ} {ok : σ → ε → Prop} (I : σ → Prop)
    (hstep : ∀ s e, I s → (I (step s e) ↔ ok s e)) (es : List ε) (s : σ) (h : I s) :
    (∀ k, I (run step s (es.take k))) ↔ StepsOk step ok s es := by
  induction es generalizing s with
  | nil => simp [StepsOk, h]
  | cons e es ih =>
      constructor
      · intro hall
        have hfirst : I (step s e) := by simpa using hall 1
        refine ⟨(hstep s e h).mp hfirst, (ih (step s e) hfirst).mp fun k => ?_⟩
        simpa using hall (k + 1)
      · rintro ⟨hok, hrest⟩ k
        have hfirst := (hstep s e h).mpr hok
        cases k with
        | zero => simpa using h
        | succ k => simpa using (ih (step s e) hfirst).mpr hrest k

/-- What a step does from its state to the next, exactly when it meets
its condition, all steps of a run do exactly when it is a good run. -/
theorem forall_steps_iff_stepsOk {step : σ → ε → σ} {ok : σ → ε → Prop} (R : σ → σ → Prop)
    (hrefl : ∀ s, R s s) (hstep : ∀ s e, R s (step s e) ↔ ok s e) (es : List ε) (s : σ) :
    (∀ k, R (run step s (es.take k)) (run step s (es.take (k + 1)))) ↔
      StepsOk step ok s es := by
  induction es generalizing s with
  | nil => simp [StepsOk, hrefl]
  | cons e es ih =>
      simp only [StepsOk, ← hstep, ← ih (step s e)]
      constructor
      · intro hall
        have hfirst := hall 0
        exact ⟨by simpa using hfirst, fun k => by simpa using hall (k + 1)⟩
      · rintro ⟨hfirst, hrest⟩ k
        cases k with
        | zero => simpa using hfirst
        | succ k => simpa using hrest k

/-- What an event is to bring about it does bring about, from a state
that is fit for it, exactly when it meets its condition; and it leaves a
fit state then. So all events of a run bring it about exactly when the
run is a good one. -/
theorem forall_events_iff_stepsOk {step : σ → ε → σ} {ok given : σ → ε → Prop} (I : σ → Prop)
    (R : ε → σ → Prop) (hstep : ∀ s e, I s → given s e → (R e (step s e) ↔ ok s e))
    (hkeep : ∀ s e, I s → given s e → R e (step s e) → I (step s e)) (es : List ε) (s : σ)
    (h : I s) (hgiven : StepsOk step given s es) :
    (∀ pre e post, es = pre ++ e :: post → R e (run step s (pre ++ [e]))) ↔
      StepsOk step ok s es := by
  induction es generalizing s with
  | nil => simp [StepsOk]
  | cons e es ih =>
      have hnext := hkeep s e h hgiven.1
      simp only [StepsOk, ← hstep s e h hgiven.1]
      constructor
      · intro hall
        have hfirst : R e (step s e) := hall [] e es rfl
        refine ⟨hfirst, (ih (step s e) (hnext hfirst) hgiven.2).mp ?_⟩
        intro pre d post heq
        exact hall (e :: pre) d post (by rw [heq]; rfl)
      · rintro ⟨hfirst, hrest⟩ pre d post heq
        cases pre with
        | nil =>
            obtain ⟨rfl, rfl⟩ := List.cons.inj heq
            exact hfirst
        | cons b pre =>
            obtain ⟨rfl, htail⟩ := List.cons.inj heq
            exact (ih (step s e) (hnext hfirst) hgiven.2).mpr hrest pre d post htail

/-! ## Where something comes from -/

/-- If a good step can only add what it grants, everything that holds at
the end of a good run held at the start or was granted on the way. -/
theorem run_provenance {step : σ → ε → σ} {ok : σ → ε → Prop} {α : Type*} {has : σ → α → Prop}
    {grants : σ → ε → α → Prop}
    (h : ∀ s e a, ok s e → has (step s e) a → has s a ∨ grants s e a) {es : List ε} {s : σ}
    (hok : StepsOk step ok s es) {a : α} (ha : has (run step s es) a) :
    has s a ∨ ∃ pre e post, es = pre ++ e :: post ∧ grants (run step s pre) e a := by
  induction es generalizing s with
  | nil => exact .inl ha
  | cons e es ih =>
      rcases ih hok.2 ha with hfirst | ⟨pre, d, post, rfl, hgrant⟩
      · exact (h s e a hok.1 hfirst).imp_right fun hgrant => ⟨[], e, es, rfl, hgrant⟩
      · exact .inr ⟨e :: pre, d, post, rfl, hgrant⟩

/-! ## Runs that some events pass by -/

/-- A projection that follows an abstract machine at the events that the
machine can see, and stays at the others, follows it along every good
run. -/
theorem run_follows {τ : Type*} {δ : Type*} {step : σ → ε → σ} {ok : σ → ε → Prop}
    {astep : τ → δ → τ} (abs : σ → τ) (seen : ε → Option δ) (I : σ → Prop)
    (hkeep : ∀ s e, I s → ok s e → I (step s e))
    (h : ∀ s e, I s → ok s e → abs (step s e) = ((seen e).map (astep (abs s))).getD (abs s)) :
    ∀ (es : List ε) (s : σ), I s → StepsOk step ok s es →
      abs (run step s es) = run astep (abs s) (es.filterMap seen) := by
  intro es
  induction es with
  | nil => intro s _ _; rfl
  | cons e es ih =>
      intro s hs hok
      rw [run_cons, ih (step s e) (hkeep s e hs hok.1) hok.2, h s e hs hok.1, List.filterMap_cons]
      cases seen e with
      | none => rfl
      | some d => rfl

/-! ## Stacks -/

/-- What happens to a stack; an empty one stays as it is when it is
popped. -/
inductive StackOp (α : Type u) where
  | push (a : α)
  | pop

def StackOp.apply {α : Type u} (s : List α) : StackOp α → List α
  | .push a => a :: s
  | .pop => s.tail

/-- Every push has its pop. -/
inductive Balanced {α : Type u} : List (StackOp α) → Prop
  | nil : Balanced []
  | bracket (a : α) {inner rest : List (StackOp α)} (hinner : Balanced inner)
      (hrest : Balanced rest) : Balanced (.push a :: (inner ++ .pop :: rest))

/-- A balanced run leaves the stack as it found it. -/
theorem run_balanced {α : Type u} {ops : List (StackOp α)} (h : Balanced ops) (s : List α) :
    run StackOp.apply s ops = s := by
  induction h generalizing s with
  | nil => rfl
  | bracket a _ _ ihinner ihrest =>
      rw [run_cons, run_append, ihinner, run_cons]
      exact ihrest s

/-! ## Runs that answer -/

section
universe w
variable {τ : Type u} {ρ : Type w}

/-- The answers to a list of events. -/
def answers (step : σ → ε → ρ × σ) : σ → List ε → List ρ
  | _, [] => []
  | s, e :: es => (step s e).1 :: answers step (step s e).2 es

/-- Two machines that answer alike and stay related answer alike along
every run. -/
theorem answers_eq_of_related {step : σ → ε → ρ × σ} {step' : τ → ε → ρ × τ} (R : σ → τ → Prop)
    {ok : ε → Prop}
    (h : ∀ s t e, R s t → ok e → (step s e).1 = (step' t e).1 ∧ R (step s e).2 (step' t e).2) :
    ∀ (es : List ε) (s : σ) (t : τ), (∀ e ∈ es, ok e) → R s t →
      answers step s es = answers step' t es := by
  intro es
  induction es with
  | nil => intro s t _ _; rfl
  | cons e es ih =>
      intro s t hok hrel
      obtain ⟨hanswer, hnext⟩ := h s t e hrel (hok e (by simp))
      rw [answers, answers, hanswer, ih _ _ (fun d hd => hok d (by simp [hd])) hnext]

end

end HomeWarranty.Lib
