/-
HomeWarranty.Lib.Base64 — bytes as text of the 64 letters, the way
`pack("m")` and `unpack("m")` do it.

Three bytes are four letters of six bits each. The encoder ends a line
after 45 bytes and fills the last group with `=`. The decoder passes over
what is no letter, line ends included, and stops at an `=` that comes
where the third or the fourth letter of a group is due.

The decoder is said to do one thing per group (`decode_group`); a line of
whole groups leaves it where it was (`decode_groups`), and so all lines
but the last one do.
-/
import HomeWarranty.Lib.Chunks

namespace HomeWarranty.Lib.Base64

/-! ## Letters -/

/-- The letter of six bits. -/
def letter (n : Nat) : Char :=
  if n < 26 then Char.ofNat (65 + n)
  else if n < 52 then Char.ofNat (71 + n)
  else if n < 62 then Char.ofNat (n - 4)
  else if n = 62 then '+'
  else '/'

def letterValue (c : Char) : Option Nat :=
  if c.isUpper then some (c.toNat - 65)
  else if c.isLower then some (c.toNat - 71)
  else if c.isDigit then some (c.toNat + 4)
  else if c = '+' then some 62
  else if c = '/' then some 63
  else none

theorem letterValue_letter {n : Nat} (h : n < 64) : letterValue (letter n) = some n := by
  have hall : ∀ n : Fin 64, letterValue (letter n) = some n.val := by decide
  exact hall ⟨n, h⟩

/-! ## The encoder -/

/-- Groups of three bytes, the last one filled up. -/
def groups : List UInt8 → List Char
  | a :: b :: c :: rest =>
      letter (a.toNat / 4) :: letter (a.toNat % 4 * 16 + b.toNat / 16)
        :: letter (b.toNat % 16 * 4 + c.toNat / 64) :: letter (c.toNat % 64) :: groups rest
  | [a, b] =>
      [letter (a.toNat / 4), letter (a.toNat % 4 * 16 + b.toNat / 16),
        letter (b.toNat % 16 * 4), '=']
  | [a] => [letter (a.toNat / 4), letter (a.toNat % 4 * 16), '=', '=']
  | [] => []

/-- `[bytes].pack("m")`, which is `Base64.encode64`. -/
def encode64 (bytes : List UInt8) : List Char :=
  (chunks 45 bytes).flatMap fun line => groups line ++ ['\n']

/-! ## The decoder -/

def firstByte (a b : Nat) : UInt8 := UInt8.ofNat (a * 4 + b / 16)

def secondByte (b c : Nat) : UInt8 := UInt8.ofNat (b * 16 + c / 4)

def thirdByte (c d : Nat) : UInt8 := UInt8.ofNat (c * 64 + d)

/-- The letters of a group so far. -/
inductive Pending where
  | none
  | one (a : Nat)
  | two (a b : Nat)
  | three (a b c : Nat)

/-- The bytes of a group that is not complete. -/
def Pending.bytes : Pending → List UInt8
  | .none => []
  | .one _ => []
  | .two a b => [firstByte a b]
  | .three a b c => [firstByte a b, secondByte b c]

/-- A filler ends the text where the third or the fourth letter is due. -/
def Pending.stopsAt (p : Pending) (c : Char) : Bool :=
  match p with
  | .two _ _ => c == '='
  | .three _ _ _ => c == '='
  | _ => false

def decodeFrom (p : Pending) : List Char → List UInt8
  | [] => p.bytes
  | c :: cs =>
      match letterValue c with
      | none => if p.stopsAt c then p.bytes else decodeFrom p cs
      | some d =>
          match p with
          | .none => decodeFrom (.one d) cs
          | .one a => decodeFrom (.two a d) cs
          | .two a b => decodeFrom (.three a b d) cs
          | .three a b e =>
              firstByte a b :: secondByte b e :: thirdByte e d :: decodeFrom .none cs

/-- `text.unpack("m").first`, which is `Base64.decode64`. -/
def decode64 (text : List Char) : List UInt8 := decodeFrom .none text

example : decode64 "c2Vj\ncmV0".toList = [115, 101, 99, 114, 101, 116] := by decide

/-! ## The round trip -/

theorem ofNat_eq {a : UInt8} {n : Nat} (h : n % 256 = a.toNat) : UInt8.ofNat n = a := by
  apply UInt8.toNat.inj
  rw [UInt8.toNat_ofNat', h]

theorem toNat_lt (a : UInt8) : a.toNat < 256 := a.toNat_lt_size

/-- Four letters are three bytes. -/
theorem decode_group (a b c : UInt8) (rest : List UInt8) (tail : List Char) :
    decodeFrom .none (groups (a :: b :: c :: rest) ++ tail)
      = a :: b :: c :: decodeFrom .none (groups rest ++ tail) := by
  have ha := toNat_lt a
  have hb := toNat_lt b
  have hc := toNat_lt c
  simp only [groups, List.cons_append, decodeFrom,
    letterValue_letter (show a.toNat / 4 < 64 by omega),
    letterValue_letter (show a.toNat % 4 * 16 + b.toNat / 16 < 64 by omega),
    letterValue_letter (show b.toNat % 16 * 4 + c.toNat / 64 < 64 by omega),
    letterValue_letter (show c.toNat % 64 < 64 by omega)]
  rw [firstByte, ofNat_eq (a := a) (by omega), secondByte, ofNat_eq (a := b) (by omega),
    thirdByte, ofNat_eq (a := c) (by omega)]

/-- Whole groups are read, and the decoder is where it was. -/
theorem decode_groups (bytes : List UInt8) (tail : List Char) (h : 3 ∣ bytes.length) :
    decodeFrom .none (groups bytes ++ tail) = bytes ++ decodeFrom .none tail := by
  induction bytes using groups.induct with
  | case1 a b c rest ih =>
      have hrest : 3 ∣ rest.length := by
        simp only [List.length_cons] at h
        omega
      rw [decode_group, ih hrest]
      rfl
  | case2 a b => simp at h
  | case3 a => simp at h
  | case4 => rfl

/-- A last group that is not complete ends the text. -/
theorem decode_last (bytes : List UInt8) (tail : List Char) (h : ¬ 3 ∣ bytes.length) :
    decodeFrom .none (groups bytes ++ tail) = bytes := by
  induction bytes using groups.induct with
  | case1 a b c rest ih =>
      have hrest : ¬ 3 ∣ rest.length := by
        simp only [List.length_cons] at h
        omega
      rw [decode_group, ih hrest]
  | case2 a b =>
      have ha := toNat_lt a
      have hb := toNat_lt b
      simp only [groups, List.cons_append, decodeFrom,
        letterValue_letter (show a.toNat / 4 < 64 by omega),
        letterValue_letter (show a.toNat % 4 * 16 + b.toNat / 16 < 64 by omega),
        letterValue_letter (show b.toNat % 16 * 4 < 64 by omega)]
      rw [show letterValue '=' = none by decide]
      simp only [Pending.stopsAt, Pending.bytes, beq_self_eq_true, if_true]
      rw [firstByte, ofNat_eq (a := a) (by omega), secondByte, ofNat_eq (a := b) (by omega)]
  | case3 a =>
      have ha := toNat_lt a
      simp only [groups, List.cons_append, decodeFrom,
        letterValue_letter (show a.toNat / 4 < 64 by omega),
        letterValue_letter (show a.toNat % 4 * 16 < 64 by omega)]
      rw [show letterValue '=' = none by decide]
      simp only [Pending.stopsAt, Pending.bytes, beq_self_eq_true, if_true]
      rw [firstByte, ofNat_eq (a := a) (by omega)]
  | case4 => simp at h

theorem decode_newline (tail : List Char) :
    decodeFrom .none ('\n' :: tail) = decodeFrom .none tail := by
  rw [decodeFrom, show letterValue '\n' = none by decide]
  simp [Pending.stopsAt]

/-- What was encoded is decoded. -/
theorem decode_encode (bytes : List UInt8) : decode64 (encode64 bytes) = bytes := by
  unfold decode64 encode64
  induction bytes using chunks_induction (show 0 < 45 by decide) with
  | nil =>
      rw [chunks_nil]
      rfl
  | cons bytes hne ih =>
      rw [chunks_cons (by decide) hne, List.flatMap_cons, List.append_assoc]
      by_cases hfull : 45 ≤ bytes.length
      · have hline : 3 ∣ (bytes.take 45).length := by
          rw [List.length_take, Nat.min_eq_left hfull]
          decide
        rw [decode_groups _ _ hline, List.singleton_append, decode_newline, ih,
          List.take_append_drop]
      · have hshort : bytes.length ≤ 45 := by omega
        rw [List.take_of_length_le hshort, List.drop_of_length_le hshort, chunks_nil]
        by_cases hthree : 3 ∣ bytes.length
        · rw [decode_groups _ _ hthree]
          simp [decode_newline, decodeFrom, Pending.bytes]
        · exact decode_last _ _ hthree

/-! ## How long the text gets -/

theorem length_groups (bytes : List UInt8) :
    (groups bytes).length = (bytes.length + 2) / 3 * 4 := by
  induction bytes using groups.induct with
  | case1 a b c rest ih =>
      simp only [groups, List.length_cons, ih]
      omega
  | case2 a b => simp [groups]
  | case3 a => simp [groups]
  | case4 => rfl

/-- Four letters for three bytes, and a line end for 45. -/
theorem length_encode64_le (bytes : List UInt8) :
    (encode64 bytes).length ≤ (bytes.length + 44) / 45 * 61 := by
  unfold encode64
  induction bytes using chunks_induction (show 0 < 45 by decide) with
  | nil =>
      rw [chunks_nil]
      simp
  | cons bytes hne ih =>
      have hpos := List.length_pos_of_ne_nil hne
      rw [chunks_cons (by decide) hne, List.flatMap_cons]
      simp only [List.length_append, length_groups, List.length_take, List.length_drop,
        List.length_singleton] at ih ⊢
      omega

/-! ## What it is made of -/

theorem utf8Size_letter (n : Nat) : (letter n).utf8Size = 1 := by
  have hall : ∀ n : Fin 64, (letter n).utf8Size = 1 := by decide
  by_cases h : n < 64
  · exact hall ⟨n, h⟩
  · have hslash : letter n = '/' := by
      unfold letter
      rw [if_neg (by omega), if_neg (by omega), if_neg (by omega), if_neg (by omega)]
    rw [hslash]
    rfl

theorem utf8Size_of_mem_groups {bytes : List UInt8} {c : Char} (h : c ∈ groups bytes) :
    c.utf8Size = 1 := by
  have hfill : '='.utf8Size = 1 := rfl
  induction bytes using groups.induct with
  | case1 x y z rest ih =>
      simp only [groups, List.mem_cons] at h
      rcases h with rfl | rfl | rfl | rfl | h
      · exact utf8Size_letter _
      · exact utf8Size_letter _
      · exact utf8Size_letter _
      · exact utf8Size_letter _
      · exact ih h
  | case2 x y =>
      simp only [groups, List.mem_cons, List.not_mem_nil, or_false] at h
      rcases h with rfl | rfl | rfl | rfl
      · exact utf8Size_letter _
      · exact utf8Size_letter _
      · exact utf8Size_letter _
      · exact hfill
  | case3 x =>
      simp only [groups, List.mem_cons, List.not_mem_nil, or_false, or_self] at h
      rcases h with rfl | rfl | rfl
      · exact utf8Size_letter _
      · exact utf8Size_letter _
      · exact hfill
  | case4 => cases h

/-- The text takes as many bytes as it has characters. -/
theorem utf8Size_of_mem_encode64 {bytes : List UInt8} {c : Char} (h : c ∈ encode64 bytes) :
    c.utf8Size = 1 := by
  obtain ⟨line, -, hc⟩ := List.mem_flatMap.mp h
  rcases List.mem_append.mp hc with hc | hc
  · exact utf8Size_of_mem_groups hc
  · rw [List.mem_singleton.mp hc]
    rfl

end HomeWarranty.Lib.Base64
