/-
HomeWarranty.Claims.Settlement — the buyout and the reimbursement of a
claim, over every run of edits and saves.

The two amounts are text columns. `Claim#buyout_or_reimbursement` runs
before every save and clears the one when the other was changed to a
positive amount. It asks the record which columns were changed, and the
zero it writes is itself a change, which the second half of the callback
sees: that zero is not positive, so nothing follows from it.

The record remembers the saved value of a changed column (`was`); a
column is changed while its value is another one (`Attribute.Tracked`).
The columns hold 255 characters: a longer text is whole in the object
that was saved and cut in the next one that is read, and the callback has
only seen the whole one.

`settlement_exclusive` is the result: from a claim with at most one
positive amount, every save leaves at most one, the one that was newly
set is the one that is left, and it is the one that is printed, as long
as no text that is posted becomes a positive amount by being cut.
`cut_amount_not_exclusive` is a text that does.
-/
import HomeWarranty.Lib.Run
import HomeWarranty.Ruby.Number

namespace HomeWarranty.Claims

open Lib Ruby

/-! ## Columns in memory -/

/-- What an object holds of `buyout` or `reimbursement`. The callback
assigns the number 0.0, which stays a number until the row is read
again. -/
inductive Amount where
  | null
  | text (s : String)
  | zero
  deriving DecidableEq, Repr

/-- `to_f`. -/
def Amount.toF [Numbers] : Amount → ℚ
  | .null => 0
  | .text s => Numbers.toF s
  | .zero => 0

/-- `present?`. -/
def Amount.present : Amount → Bool
  | .null => false
  | .text s => !blank s
  | .zero => true

/-- The value that is read back from the row. -/
def Amount.column : Amount → Amount
  | .null => .null
  | .text s => .text (textColumn s)
  | .zero => .text "0.0"

def Amount.ofParam : Option String → Amount
  | none => .null
  | some s => .text s

/-- A column of an object and, when it was changed, its saved value:
the entry of `changed_attributes`. -/
structure Attribute where
  value : Amount
  was : Option Amount
  deriving DecidableEq, Repr

/-- `buyout_changed?`, `reimbursement_changed?`. -/
def Attribute.changed (a : Attribute) : Bool := a.was.isSome

/-- The value at the last save. -/
def Attribute.saved (a : Attribute) : Amount := a.was.getD a.value

/-- `write_attribute`: an assignment of the saved value takes the change
back. -/
def Attribute.write (a : Attribute) (v : Amount) : Attribute :=
  { value := v, was := if a.saved = v then none else some a.saved }

/-- After a save nothing is changed. -/
def Attribute.clean (a : Attribute) : Attribute := { value := a.value, was := none }

/-- The column read from the row. -/
def Attribute.reload (a : Attribute) : Attribute := { value := a.saved.column, was := none }

/-! ## The claim -/

structure Settlement where
  buyout : Attribute
  reimbursement : Attribute
  deriving DecidableEq, Repr

/-- A claim that was read from its row. -/
def Settlement.load (buyout reimbursement : Amount) : Settlement where
  buyout := { value := buyout, was := none }
  reimbursement := { value := reimbursement, was := none }

/-- `Claim#buyout_or_reimbursement`. -/
def Settlement.buyoutOrReimbursement [Numbers] (c : Settlement) : Settlement :=
  let c := if c.reimbursement.changed && decide (0 < c.reimbursement.value.toF) then
      { c with buyout := c.buyout.write .zero } else c
  if c.buyout.changed && decide (0 < c.buyout.value.toF) then
    { c with reimbursement := c.reimbursement.write .zero } else c

/-- `save`: the callback, then the write. -/
def Settlement.save [Numbers] (c : Settlement) : Settlement where
  buyout := c.buyoutOrReimbursement.buyout.clean
  reimbursement := c.buyoutOrReimbursement.reimbursement.clean

/-- `Claim#buyout_or_reimbursement_amount`. Both branches return, so the
last line of the method is never reached. -/
def Settlement.buyoutOrReimbursementAmount [Numbers] (c : Settlement) : String :=
  if c.reimbursement.value.present && decide (0 < c.reimbursement.value.toF) then
    Numbers.format2 c.reimbursement.value.toF
  else Numbers.format2 c.buyout.value.toF

inductive SettlementEvent where
  | setBuyout (v : Option String)
  | setReimbursement (v : Option String)
  | save
  /-- The claim is found again: edits that were not saved are lost. -/
  | reload
  deriving DecidableEq, Repr

def Settlement.step [Numbers] (c : Settlement) : SettlementEvent → Settlement
  | .setBuyout v => { c with buyout := c.buyout.write (.ofParam v) }
  | .setReimbursement v => { c with reimbursement := c.reimbursement.write (.ofParam v) }
  | .save => c.save
  | .reload => { buyout := c.buyout.reload, reimbursement := c.reimbursement.reload }

/-! ## Lemmas about columns -/

/-- A column that is marked as changed has another value than the saved
one. -/
def Attribute.Tracked (a : Attribute) : Prop := a.changed = true ↔ a.value ≠ a.saved

@[simp] theorem Attribute.saved_write (a : Attribute) (v : Amount) :
    (a.write v).saved = a.saved := by
  unfold write
  by_cases h : a.saved = v
  · rw [if_pos h]
    exact h.symm
  · rw [if_neg h]
    rfl

@[simp] theorem Attribute.value_write (a : Attribute) (v : Amount) : (a.write v).value = v := rfl

@[simp] theorem Attribute.value_clean (a : Attribute) : a.clean.value = a.value := rfl

theorem Attribute.tracked_of_unchanged {v : Amount} :
    Attribute.Tracked { value := v, was := none } := by
  simp [Tracked, changed, saved]

theorem Attribute.tracked_write (a : Attribute) (v : Amount) : (a.write v).Tracked := by
  unfold Tracked
  rw [saved_write, value_write]
  by_cases h : a.saved = v
  · simp [write, changed, h]
  · simp [write, changed, h]
    exact fun hv => h hv.symm

section
variable [Numbers]

@[simp] theorem Amount.toF_zero : Amount.zero.toF = 0 := rfl

/-- The column does not make a positive amount of one that is not. -/
def Amount.Kept (a : Amount) : Prop := 0 < a.column.toF → 0 < a.toF

theorem Amount.kept_null : Amount.null.Kept := id

theorem Amount.kept_zero : Amount.zero.Kept := by
  intro h
  rw [column, toF, Numbers.toF_zero] at h
  exact absurd h (lt_irrefl _)

/-- A text that fits into the column is kept as it is. -/
theorem Amount.kept_text {s : String} (h : s.toList.length ≤ 255) : (Amount.text s).Kept := by
  rw [Kept, column, textColumn_of_le h]
  exact id

/-- What was read from the column is kept. -/
theorem Amount.kept_column (a : Amount) : a.column.Kept := by
  cases a with
  | null => exact kept_null
  | text s =>
      rw [Kept, column, column, textColumn_textColumn]
      exact id
  | zero => exact kept_text (by decide)

/-- A positive amount is not blank. -/
theorem Amount.present_of_pos {a : Amount} (h : 0 < a.toF) : a.present = true := by
  cases a with
  | null => exact absurd h (lt_irrefl _)
  | zero => exact absurd h (lt_irrefl _)
  | text s =>
      cases hb : blank s with
      | false => simp [present, hb]
      | true =>
          simp only [toF, Numbers.toF_blank s hb, lt_irrefl] at h

/-! ## One save -/

/-- The column was given a positive amount that is not the saved one. -/
def Attribute.NewlySet (a : Attribute) : Prop := a.value ≠ a.saved ∧ 0 < a.value.toF

/-- At most one of two amounts is positive. -/
def Exclusive (b r : Amount) : Prop := ¬ (0 < b.toF ∧ 0 < r.toF)

/-- The value of a column and the saved one are kept by the row. -/
structure Attribute.Kept (a : Attribute) : Prop where
  value : a.value.Kept
  saved : a.saved.Kept

/-- What holds of an object between two saves. -/
structure Settlement.Inv (c : Settlement) : Prop where
  buyout : c.buyout.Tracked
  reimbursement : c.reimbursement.Tracked
  saved : Exclusive c.buyout.saved c.reimbursement.saved
  keptBuyout : c.buyout.Kept
  keptReimbursement : c.reimbursement.Kept

theorem Attribute.Kept.write {a : Attribute} (h : a.Kept) {v : Amount} (hv : v.Kept) :
    (a.write v).Kept where
  value := hv
  saved := by rw [saved_write]; exact h.saved

theorem Attribute.Kept.clean {a : Attribute} (h : a.Kept) : a.clean.Kept where
  value := h.value
  saved := h.value

theorem Attribute.Kept.reload {a : Attribute} : a.reload.Kept where
  value := a.saved.kept_column
  saved := a.saved.kept_column

theorem Attribute.Tracked.newlySet_iff {a : Attribute} (h : a.Tracked) :
    a.NewlySet ↔ (a.changed && decide (0 < a.value.toF)) = true := by
  have hchanged : a.changed = true ↔ a.value ≠ a.saved := h
  rw [NewlySet, ← hchanged, Bool.and_eq_true, decide_eq_true_eq]

/-- A reimbursement that was newly set clears the buyout; the cleared
buyout is changed and does not clear the reimbursement. -/
theorem save_of_reimbursement {c : Settlement} (h : c.reimbursement.Tracked)
    (hset : c.reimbursement.NewlySet) :
    c.save =
    { buyout := (c.buyout.write .zero).clean, reimbursement := c.reimbursement.clean } := by
  have hr := h.newlySet_iff.mp hset
  simp [Settlement.save, Settlement.buyoutOrReimbursement, hr]

/-- A buyout that was newly set clears a reimbursement that was not. -/
theorem save_of_buyout {c : Settlement} (h : c.Inv) (hset : c.buyout.NewlySet)
    (hnot : ¬ c.reimbursement.NewlySet) :
    c.save =
    { buyout := c.buyout.clean, reimbursement := (c.reimbursement.write .zero).clean } := by
  have hb := h.buyout.newlySet_iff.mp hset
  rw [h.reimbursement.newlySet_iff] at hnot
  rw [Bool.not_eq_true] at hnot
  simp [Settlement.save, Settlement.buyoutOrReimbursement, hnot, hb]

/-- With nothing newly set both are saved as they are. -/
theorem save_of_neither {c : Settlement} (h : c.Inv) (hb : ¬ c.buyout.NewlySet)
    (hr : ¬ c.reimbursement.NewlySet) :
    c.save = { buyout := c.buyout.clean, reimbursement := c.reimbursement.clean } := by
  rw [h.buyout.newlySet_iff] at hb
  rw [h.reimbursement.newlySet_iff] at hr
  rw [Bool.not_eq_true] at hb hr
  simp [Settlement.save, Settlement.buyoutOrReimbursement, hb, hr]

/-- An amount that was not newly set and is positive was saved so. -/
theorem Attribute.value_eq_of_pos {a : Attribute} (hnot : ¬ a.NewlySet) (hpos : 0 < a.value.toF) :
    a.value = a.saved := by
  by_contra hne
  exact hnot ⟨hne, hpos⟩

theorem save_exclusive {c : Settlement} (h : c.Inv) :
    Exclusive c.save.buyout.value c.save.reimbursement.value := by
  by_cases hr : c.reimbursement.NewlySet
  · rw [save_of_reimbursement h.reimbursement hr]
    simp [Exclusive]
  · by_cases hb : c.buyout.NewlySet
    · rw [save_of_buyout h hb hr]
      simp [Exclusive]
    · rw [save_of_neither h hb hr]
      rintro ⟨hbpos, hrpos⟩
      rw [Attribute.value_clean] at hbpos hrpos
      apply h.saved
      rw [← Attribute.value_eq_of_pos hb hbpos, ← Attribute.value_eq_of_pos hr hrpos]
      exact ⟨hbpos, hrpos⟩

/-- A save leaves each column as it is, or 0. -/
theorem save_kept {c : Settlement} (h : c.Inv) :
    c.save.buyout.Kept ∧ c.save.reimbursement.Kept := by
  have hb0 := h.keptBuyout.write Amount.kept_zero
  have hr0 := h.keptReimbursement.write Amount.kept_zero
  by_cases hr : c.reimbursement.NewlySet
  · rw [save_of_reimbursement h.reimbursement hr]
    exact ⟨hb0.clean, h.keptReimbursement.clean⟩
  · by_cases hb : c.buyout.NewlySet
    · rw [save_of_buyout h hb hr]
      exact ⟨h.keptBuyout.clean, hr0.clean⟩
    · rw [save_of_neither h hb hr]
      exact ⟨h.keptBuyout.clean, h.keptReimbursement.clean⟩

/-! ## Runs -/

/-- What is posted does not become positive by being cut. -/
def SettlementEvent.Kept : SettlementEvent → Prop
  | .setBuyout v => (Amount.ofParam v).Kept
  | .setReimbursement v => (Amount.ofParam v).Kept
  | _ => True

theorem Settlement.inv_load {b r : Amount} (h : Exclusive b r) (hb : b.Kept) (hr : r.Kept) :
    (Settlement.load b r).Inv where
  buyout := Attribute.tracked_of_unchanged
  reimbursement := Attribute.tracked_of_unchanged
  saved := h
  keptBuyout := ⟨hb, hb⟩
  keptReimbursement := ⟨hr, hr⟩

theorem Settlement.inv_step (c : Settlement) (e : SettlementEvent) (he : e.Kept) (h : c.Inv) :
    (c.step e).Inv := by
  cases e with
  | setBuyout v =>
      exact ⟨c.buyout.tracked_write _, h.reimbursement, by simpa [step] using h.saved,
        h.keptBuyout.write he, h.keptReimbursement⟩
  | setReimbursement v =>
      exact ⟨h.buyout, c.reimbursement.tracked_write _, by simpa [step] using h.saved,
        h.keptBuyout, h.keptReimbursement.write he⟩
  | save =>
      exact ⟨Attribute.tracked_of_unchanged, Attribute.tracked_of_unchanged, save_exclusive h,
        (save_kept h).1, (save_kept h).2⟩
  | reload =>
      refine ⟨Attribute.tracked_of_unchanged, Attribute.tracked_of_unchanged, ?_, .reload, .reload⟩
      rintro ⟨hb, hr⟩
      exact h.saved ⟨h.keptBuyout.saved hb, h.keptReimbursement.saved hr⟩

theorem Settlement.inv_run {c : Settlement} (h : c.Inv) {es : List SettlementEvent}
    (hes : ∀ e ∈ es, e.Kept) : (run Settlement.step c es).Inv := by
  induction es generalizing c with
  | nil => exact h
  | cons e es ih =>
      exact ih (inv_step c e (hes e List.mem_cons_self) h)
        fun e he => hes e (List.mem_cons_of_mem _ he)

/-- The positive amount is the one that is printed. -/
theorem amount_printed {c : Settlement} (h : Exclusive c.buyout.value c.reimbursement.value) :
    (0 < c.buyout.value.toF →
      c.buyoutOrReimbursementAmount = Numbers.format2 c.buyout.value.toF) ∧
    (0 < c.reimbursement.value.toF →
      c.buyoutOrReimbursementAmount = Numbers.format2 c.reimbursement.value.toF) := by
  constructor
  · intro hb
    have hr : ¬ 0 < c.reimbursement.value.toF := fun hr => h ⟨hb, hr⟩
    simp [Settlement.buyoutOrReimbursementAmount, hr]
  · intro hr
    simp [Settlement.buyoutOrReimbursementAmount, hr, Amount.present_of_pos hr]

/-- Along every run of edits and saves of a claim that started with at
most one positive amount, and whose texts do not become positive by
being cut: every save leaves at most one positive amount; a save that
newly set one leaves that one; and the printed amount is the positive
one. Two that were newly set together leave the reimbursement. -/
theorem settlement_exclusive (b r : Amount) (hb : b.Kept) (hr : r.Kept) (h : Exclusive b r)
    (es : List SettlementEvent) (hes : ∀ e ∈ es, e.Kept) :
    let c := run Settlement.step (Settlement.load b r) es
    let c' := c.step .save
    Exclusive c'.buyout.value c'.reimbursement.value ∧
    (c.reimbursement.NewlySet → c'.reimbursement.value = c.reimbursement.value ∧
      ¬ 0 < c'.buyout.value.toF) ∧
    (c.buyout.NewlySet → ¬ c.reimbursement.NewlySet → c'.buyout.value = c.buyout.value ∧
      ¬ 0 < c'.reimbursement.value.toF) ∧
    (0 < c'.buyout.value.toF →
      c'.buyoutOrReimbursementAmount = Numbers.format2 c'.buyout.value.toF) ∧
    (0 < c'.reimbursement.value.toF →
      c'.buyoutOrReimbursementAmount = Numbers.format2 c'.reimbursement.value.toF) := by
  intro c c'
  have hinv : c.Inv := Settlement.inv_run (Settlement.inv_load h hb hr) hes
  have hexcl : Exclusive c'.buyout.value c'.reimbursement.value := save_exclusive hinv
  refine ⟨hexcl, ?_, ?_, amount_printed hexcl⟩
  · intro hset
    have hsave : c' = _ := save_of_reimbursement hinv.reimbursement hset
    rw [hsave]
    simp
  · intro hset hnot
    have hsave : c' = _ := save_of_buyout hinv hset hnot
    rw [hsave]
    simp

/-- A text that becomes positive by being cut: it clears nothing when it
is saved, and is there when it is read again. -/
theorem save_not_exclusive {b : Amount} {s : String} (hb : b.column = b) (hpos : 0 < b.toF)
    (hs : ¬ 0 < Numbers.toF s) (hcut : 0 < Numbers.toF (textColumn s)) :
    let c := run Settlement.step (Settlement.load b .null)
      [.setReimbursement (some s), .save, .reload]
    ¬ Exclusive (c.step .save).buyout.value (c.step .save).reimbursement.value := by
  have hloaded : run Settlement.step (Settlement.load b .null)
      [.setReimbursement (some s), .save, .reload] = Settlement.load b (.text (textColumn s)) := by
    have hnull : Amount.null ≠ .text s := fun h => by cases h
    have htext : (Amount.text s).column = .text (textColumn s) := rfl
    simp [Settlement.step, Settlement.load, Settlement.save, Settlement.buyoutOrReimbursement,
      Attribute.write, Attribute.saved, Attribute.changed, Attribute.clean, Attribute.reload,
      Amount.ofParam, Amount.toF, hs, hb, hnull, htext]
  intro c
  have hsaved : c.step .save = Settlement.load b (.text (textColumn s)) := by
    simp [c, hloaded, Settlement.step, Settlement.load, Settlement.save,
      Settlement.buyoutOrReimbursement, Attribute.changed, Attribute.clean]
  rw [hsaved]
  exact fun h => h ⟨hpos, hcut⟩

end

section
attribute [local instance] Numbers.exact

/-- A reimbursement is replaced by a buyout, which is printed. -/
theorem settlement_exclusive_replaced :
    Exclusive .null (.text "120.50") ∧
    (run Settlement.step (Settlement.load .null (.text "120.50"))
      [.setBuyout (some "75"), .save]).buyoutOrReimbursementAmount = "75.00" := by
  have hexcl : Exclusive .null (.text "120.50") := by
    rintro ⟨hb, _⟩
    exact lt_irrefl _ hb
  have hkept : ∀ e ∈ [SettlementEvent.setBuyout (some "75")], e.Kept := by
    intro e he
    rw [List.mem_singleton.mp he]
    exact Amount.kept_text (by decide)
  have h := settlement_exclusive .null (.text "120.50") Amount.kept_null
    (Amount.kept_text (by decide)) hexcl [.setBuyout (some "75")] hkept
  exact ⟨hexcl, (h.2.2.2.1 (by decide +kernel)).trans (by decide +kernel)⟩

end

/-- A number too small for a Float is read as 0, and all others are
exact. -/
@[reducible] def underflow : Numbers where
  toF s := if |Ruby.toF s| < 10 ^ (-324 : ℤ) then 0 else Ruby.toF s
  add := (· + ·)
  mul := (· * ·)
  div := (· / ·)
  format2 := Ruby.format2
  float := some
  toF_blank := by
    intro s h
    simp [toF_of_blank h]
  toF_zero := by decide +kernel

/-- A whole number and an exponent. -/
theorem toF_of_whole {s : String} (cs whole rest : List Char)
    (hsign : signOf (s.toList.dropWhile isAsciiSpace) = (false, cs))
    (hrun : digitRun false cs = (whole, rest)) (hrest : fractionOf rest = ([], rest)) :
    Ruby.toF s = digitsValue whole * 10 ^ exponentOf rest := by
  simp [Ruby.toF, hsign, hrun, hrest]

section
attribute [local instance] underflow

/-- A one after 251 zeros, with an exponent that makes it nothing. -/
def cutDigits : List Char := List.replicate 251 '0' ++ ['1', 'e', '-', '4', '0', '0']

/-- The column keeps all of it but the end of the exponent. -/
def cutAmount : String := String.ofList cutDigits

theorem toF_cutAmount : Numbers.toF cutAmount = 0 := by
  have hlist : cutAmount.toList = cutDigits := String.toList_ofList
  have hvalue : Ruby.toF cutAmount = 10 ^ (-400 : ℤ) := by
    rw [toF_of_whole cutDigits (List.replicate 251 '0' ++ ['1'])
      ['e', '-', '4', '0', '0'] (by rw [hlist]; decide +kernel) (by decide +kernel) rfl,
      show digitsValue (List.replicate 251 '0' ++ ['1']) = 1 by decide +kernel,
      show exponentOf ['e', '-', '4', '0', '0'] = -400 by decide +kernel, Nat.cast_one,
      one_mul]
  have hsmall : |(10 : ℚ) ^ (-400 : ℤ)| < 10 ^ (-324 : ℤ) := by
    rw [abs_of_pos (zpow_pos (by norm_num) _)]
    exact zpow_lt_zpow_right₀ (by norm_num) (by norm_num)
  show (if |Ruby.toF cutAmount| < 10 ^ (-324 : ℤ) then 0 else Ruby.toF cutAmount) = 0
  rw [hvalue, if_pos hsmall]

theorem toF_textColumn_cutAmount :
    Numbers.toF (textColumn cutAmount) = 10 ^ (-4 : ℤ) := by
  have hlist : (textColumn cutAmount).toList = cutDigits.take 255 := by
    rw [textColumn, cutAmount, String.toList_ofList, String.toList_ofList]
  have hvalue : Ruby.toF (textColumn cutAmount) = 10 ^ (-4 : ℤ) := by
    rw [toF_of_whole (cutDigits.take 255) (List.replicate 251 '0' ++ ['1'])
      ['e', '-', '4'] (by rw [hlist]; decide +kernel) (by decide +kernel) rfl,
      show digitsValue (List.replicate 251 '0' ++ ['1']) = 1 by decide +kernel,
      show exponentOf ['e', '-', '4'] = -4 by decide +kernel, Nat.cast_one, one_mul]
  have hlarge : ¬ |(10 : ℚ) ^ (-4 : ℤ)| < 10 ^ (-324 : ℤ) := by
    rw [not_lt, abs_of_pos (zpow_pos (by norm_num) _)]
    exact zpow_le_zpow_right₀ (by norm_num) (by norm_num)
  show (if |Ruby.toF (textColumn cutAmount)| < 10 ^ (-324 : ℤ) then 0
    else Ruby.toF (textColumn cutAmount)) = _
  rw [hvalue, if_neg hlarge]

/-- The buyout is 100. A reimbursement that is not positive is saved, and
does not clear it; read again it is positive, and the next save leaves
both. -/
theorem cut_amount_not_exclusive :
    Exclusive (.text "100") .null ∧
      let c := run Settlement.step (Settlement.load (.text "100") .null)
        [.setReimbursement (some cutAmount), .save, .reload]
      ¬ Exclusive (c.step .save).buyout.value (c.step .save).reimbursement.value := by
  refine ⟨fun h => lt_irrefl _ h.2, ?_⟩
  refine save_not_exclusive (by decide +kernel) (by decide +kernel) ?_ ?_
  · rw [toF_cutAmount]
    exact lt_irrefl _
  · rw [toF_textColumn_cutAmount]
    norm_num

end

end HomeWarranty.Claims
