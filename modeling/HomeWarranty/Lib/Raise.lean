/-
HomeWarranty.Lib.Raise — programs that can raise, and keep what they
wrote when they do.

A program is `ExceptT ε (StateM σ) α`: an exception does NOT undo the
state, as a request that fails half-way does not undo its writes. `exec`
runs a program from a state.

Most statements of such a program write nothing the caller can see and
matter only because they may raise. `Idle m f` says that `m` is one of
them and that `f` is what it raises, if anything. Idle programs compose
(`Idle.seq`, `Idle.rescue`, `Idle.ite`) into idle programs whose failure
is computed from the failures of the parts, so a long stretch of them is
one step of the proof (`Idle.exec_bind`). `Keeps I m` is about the
statements that do write: whatever happens, `m` leaves `I` true.
-/
import Mathlib.Data.List.Forall2

namespace HomeWarranty.Lib

universe u

variable {σ ε α β : Type u}

/-- A program that may raise. -/
abbrev Raising (σ ε α : Type u) := ExceptT ε (StateM σ) α

/-- The result of a program and the state it leaves. -/
def exec (m : Raising σ ε α) (s : σ) : Except ε α × σ := m.run.run s

@[simp] theorem exec_pure (a : α) (s : σ) :
    exec (pure a : Raising σ ε α) s = (.ok a, s) := rfl

@[simp] theorem exec_throw (e : ε) (s : σ) :
    exec (throw e : Raising σ ε α) s = (.error e, s) := rfl

@[simp] theorem exec_get (s : σ) : exec (get : Raising σ ε σ) s = (.ok s, s) := rfl

@[simp] theorem exec_modify (f : σ → σ) (s : σ) :
    exec (modify f : Raising σ ε PUnit) s = (.ok ⟨⟩, f s) := rfl

/-- What follows runs only when nothing was raised. -/
theorem exec_bind (m : Raising σ ε α) (k : α → Raising σ ε β) (s : σ) :
    exec (m >>= k) s = match exec m s with
      | (.ok a, t) => exec (k a) t
      | (.error e, t) => (.error e, t) := by
  show (ExceptT.bindCont k (exec m s).1) (exec m s).2 = _
  rcases exec m s with ⟨r, t⟩
  cases r with
  | ok a => rfl
  | error e => rfl

@[simp] theorem exec_get_bind (k : σ → Raising σ ε β) (s : σ) :
    exec (get >>= k) s = exec (k s) s := by
  rw [exec_bind, exec_get]

@[simp] theorem exec_modify_bind (f : σ → σ) (k : PUnit → Raising σ ε β) (s : σ) :
    exec (modify f >>= k) s = exec (k ⟨⟩) (f s) := by
  rw [exec_bind, exec_modify]

/-- A handler starts from the state the exception left. -/
theorem exec_tryCatch (m : Raising σ ε α) (h : ε → Raising σ ε α) (s : σ) :
    exec (tryCatch m h) s = match exec m s with
      | (.ok a, t) => (.ok a, t)
      | (.error e, t) => exec (h e) t := by
  show (match (exec m s).1 with
    | .ok a => (pure (Except.ok a) : StateM σ (Except ε α))
    | .error e => (h e).run) (exec m s).2 = _
  rcases exec m s with ⟨r, t⟩
  cases r with
  | ok a => rfl
  | error e => rfl

theorem exec_ite (c : Prop) [Decidable c] (m k : Raising σ ε α) (s : σ) :
    exec (if c then m else k) s = if c then exec m s else exec k s := by
  split
  · rfl
  · rfl

/-! ## Statements that write nothing -/

/-- What a statement that may raise returns. -/
def raised : Option ε → Except ε PUnit
  | none => .ok ⟨⟩
  | some e => .error e

/-- `m` leaves every state as it is and raises `f`, if anything. -/
def Idle (m : Raising σ ε PUnit) (f : Option ε) : Prop := ∀ s, exec m s = (raised f, s)

theorem idle_pure : Idle (pure ⟨⟩ : Raising σ ε PUnit) none := fun _ => rfl

theorem idle_throw (e : ε) : Idle (throw e : Raising σ ε PUnit) (some e) := fun _ => rfl

/-- What follows `f` in state `s`: the rest, unless `f` is a failure. -/
def proceed (f : Option ε) (s : σ) (rest : Except ε α × σ) : Except ε α × σ :=
  match f with
  | none => rest
  | some e => (.error e, s)

@[simp] theorem proceed_none (s : σ) (rest : Except ε α × σ) : proceed none s rest = rest := rfl

@[simp] theorem proceed_some (e : ε) (s : σ) (rest : Except ε α × σ) :
    proceed (some e) s rest = (.error e, s) := rfl

theorem proceed_or (f g : Option ε) (s : σ) (rest : Except ε α × σ) :
    proceed (f.or g) s rest = proceed f s (proceed g s rest) := by
  cases f with
  | none => rfl
  | some e => rfl

/-- One statement and then a program. -/
theorem Idle.exec_bind {m : Raising σ ε PUnit} {f : Option ε} (h : Idle m f)
    (k : PUnit → Raising σ ε α) (s : σ) :
    exec (m >>= k) s = proceed f s (exec (k ⟨⟩) s) := by
  rw [HomeWarranty.Lib.exec_bind, h s]
  cases f with
  | none => rfl
  | some e => rfl

/-- Of two statements in turn the first failure counts. -/
theorem Idle.seq {m k : Raising σ ε PUnit} {f g : Option ε} (hm : Idle m f) (hk : Idle k g) :
    Idle (m >>= fun _ => k) (f.or g) := by
  intro s
  rw [hm.exec_bind, hk s]
  cases f with
  | none => rfl
  | some e => rfl

/-- A handled failure is the failure of the handler. -/
theorem Idle.rescue {m : Raising σ ε PUnit} {h : ε → Raising σ ε PUnit} {f : Option ε}
    {g : ε → Option ε} (hm : Idle m f) (hh : ∀ e, Idle (h e) (g e)) :
    Idle (tryCatch m h) (f.bind g) := by
  intro s
  rw [exec_tryCatch, hm s]
  cases f with
  | none => rfl
  | some e => exact hh e s

theorem Idle.ite {c : Prop} [Decidable c] {m k : Raising σ ε PUnit} {f g : Option ε}
    (hm : Idle m f) (hk : Idle k g) : Idle (if c then m else k) (if c then f else g) := by
  split
  · exact hm
  · exact hk

/-! ## What a program keeps -/

/-- Every state the program can leave satisfies `I` if the first one
does, whether it raises or not. -/
def Keeps (I : σ → Prop) (m : Raising σ ε α) : Prop := ∀ s, I s → I (exec m s).2

section Keeps

variable {I : σ → Prop}

theorem keeps_pure (a : α) : Keeps I (pure a : Raising σ ε α) := fun _ h => h

theorem keeps_throw (e : ε) : Keeps I (throw e : Raising σ ε α) := fun _ h => h

theorem keeps_modify {f : σ → σ} (hf : ∀ s, I s → I (f s)) :
    Keeps I (modify f : Raising σ ε PUnit) := hf

theorem Keeps.bind {m : Raising σ ε α} {k : α → Raising σ ε β} (hm : Keeps I m)
    (hk : ∀ a, Keeps I (k a)) : Keeps I (m >>= k) := by
  intro s hs
  have ht := hm s hs
  rw [exec_bind]
  rcases hx : exec m s with ⟨r, t⟩
  rw [hx] at ht
  cases r with
  | ok a => exact hk a t ht
  | error e => exact ht

/-- Reading the state: what follows may depend on what was read. -/
theorem keeps_get_bind {k : σ → Raising σ ε β} (hk : ∀ a, Keeps I (k a)) :
    Keeps I (get >>= k) := by
  intro s hs
  rw [exec_get_bind]
  exact hk s s hs

theorem Keeps.ite {c : Prop} [Decidable c] {m k : Raising σ ε α} (hm : Keeps I m)
    (hk : Keeps I k) : Keeps I (if c then m else k) := by
  split
  · exact hm
  · exact hk

theorem Idle.keeps {m : Raising σ ε PUnit} {f : Option ε} (h : Idle m f) : Keeps I m := by
  intro s hs
  rw [h s]
  exact hs

theorem Keeps.forM {body : α → Raising σ ε PUnit} (l : List α) (h : ∀ a ∈ l, Keeps I (body a)) :
    Keeps I (forM l body) := by
  induction l with
  | nil => exact keeps_pure _
  | cons a l ih =>
      rw [List.forM_cons]
      exact (h a List.mem_cons_self).bind fun _ => ih fun b hb => h b (List.mem_cons_of_mem a hb)

end Keeps

/-! ## One result for every element -/

/-- A list goes through when each of its elements does. -/
theorem mapM_eq_ok_iff {f : α → Except ε β} {l : List α} {out : List β} :
    l.mapM f = .ok out ↔ List.Forall₂ (fun a b => f a = .ok b) l out := by
  induction l generalizing out with
  | nil =>
      rw [List.mapM_nil, List.forall₂_nil_left_iff]
      exact ⟨fun h => (Except.ok.inj h).symm, fun h => congrArg Except.ok h.symm⟩
  | cons a l ih =>
      rw [List.mapM_cons]
      cases ha : f a with
      | error e => simp [ha, bind, Except.bind, List.forall₂_cons_left_iff]
      | ok b =>
          cases hl : l.mapM f with
          | error e =>
              rw [hl] at ih
              simp only [bind, Except.bind, reduceCtorEq, List.forall₂_cons_left_iff, false_iff]
              rintro ⟨c, rest, -, hrest, -⟩
              exact absurd (ih.mpr hrest) nofun
          | ok rest =>
              rw [hl] at ih
              simp only [bind, Except.bind, pure, Except.pure, Except.ok.injEq,
                List.forall₂_cons_left_iff]
              refine ⟨fun h => ⟨b, rest, ha, ih.mp rfl, h.symm⟩, ?_⟩
              rintro ⟨c, others, hc, hothers, rfl⟩
              rw [ha, Except.ok.injEq] at hc
              rw [hc, Except.ok.inj (ih.mpr hothers)]

theorem mapM_goes_through_iff {f : α → Except ε β} {l : List α} :
    (∃ out, l.mapM f = .ok out) ↔ ∀ a ∈ l, ∃ b, f a = .ok b := by
  simp only [mapM_eq_ok_iff]
  induction l with
  | nil => simp
  | cons a l ih =>
      rw [List.forall_mem_cons, ← ih]
      constructor
      · rintro ⟨out, h⟩
        obtain ⟨b, rest, hb, hrest, -⟩ := List.forall₂_cons_left_iff.mp h
        exact ⟨⟨b, hb⟩, rest, hrest⟩
      · rintro ⟨⟨b, hb⟩, rest, hrest⟩
        exact ⟨b :: rest, .cons hb hrest⟩

/-- What comes out comes of one of the elements. -/
theorem exists_of_mem_mapM {f : α → Except ε β} {l : List α} {out : List β}
    (h : l.mapM f = .ok out) {b : β} (hb : b ∈ out) : ∃ a ∈ l, f a = .ok b := by
  have hall := mapM_eq_ok_iff.mp h
  clear h
  induction hall with
  | nil => cases hb
  | cons hab _ ih =>
      rcases List.mem_cons.mp hb with rfl | hb
      · exact ⟨_, List.mem_cons_self, hab⟩
      · obtain ⟨a, ha, hfa⟩ := ih hb
        exact ⟨a, List.mem_cons_of_mem _ ha, hfa⟩

/-! ## Loops over a list -/

/-- A loop whose rounds each raise before they write, or write and go
on: the elements before the first that raises are written, and no other. -/
theorem exec_forM {body : α → Raising σ ε PUnit} {fails : α → Option ε} {write : α → σ → σ}
    (h : ∀ a s, exec (body a) s = (raised (fails a), if (fails a).isNone then write a s else s))
    (l : List α) (s : σ) :
    exec (forM l body) s = (raised (l.findSome? fails),
      (l.takeWhile fun a => (fails a).isNone).foldl (fun s a => write a s) s) := by
  induction l generalizing s with
  | nil => rfl
  | cons a l ih =>
      rw [List.forM_cons, exec_bind, h]
      cases ha : fails a with
      | some e => simp [ha, raised]
      | none => simp [ha, raised, ih]

/-- Rounds that do nothing can be left out. -/
theorem exec_forM_skip (skip : α → Bool) (body : α → Raising σ ε PUnit) (l : List α) (s : σ) :
    exec (forM l fun a => if skip a then pure ⟨⟩ else body a) s
      = exec (forM (l.filter fun a => !skip a) body) s := by
  induction l generalizing s with
  | nil => rfl
  | cons a l ih =>
      cases ha : skip a with
      | true => simp [ha, ih]
      | false => simp [exec_bind, ha, ih]

end HomeWarranty.Lib
