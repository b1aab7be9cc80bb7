/-
NavigationServer.Lib.Hex — numbers and byte strings in hexadecimal text.

A text is a byte string, one byte for each character. `hexNumber` writes a
number on a given number of digits, `hexFormat` on at least that many, and
`hexBytes` writes two digits for each byte. `intOfHex` reads a number as a general purpose parser does, with blanks
around it, a sign, a prefix and underscores between digits, and `bytesOfHex`
reads bytes, with blanks between them. What is written is read back
(`intOfHex_hexNumber`, `bytesOfHex_hexBytes`), and a written text has no
character other than digits (`isHexDigit_of_mem_hexNumber`), so that it can
stand between separators.
-/
import Mathlib.Algebra.Ring.Nat
import Mathlib.Data.List.DropRight
import Mathlib.Data.Nat.Log
import NavigationServer.Lib.Bytes

namespace NavigationServer.Lib

/-! ## 1. Digits -/

inductive LetterCase where
  | upper
  | lower
  deriving DecidableEq, Repr

def digitChar (c : LetterCase) (d : Nat) : UInt8 :=
  if d < 10 then UInt8.ofNat (48 + d)
  else
    match c with
    | .upper => UInt8.ofNat (55 + d)
    | .lower => UInt8.ofNat (87 + d)

def digitVal (c : UInt8) : Option Nat :=
  if 48 ≤ c ∧ c ≤ 57 then some (c.toNat - 48)
  else if 65 ≤ c ∧ c ≤ 70 then some (c.toNat - 55)
  else if 97 ≤ c ∧ c ≤ 102 then some (c.toNat - 87)
  else none

def IsHexDigit (c : UInt8) : Prop := (digitVal c).isSome = true

theorem digitVal_digitChar (c : LetterCase) {d : Nat} (h : d < 16) :
    digitVal (digitChar c d) = some d := by
  cases c <;> decide +revert

theorem isHexDigit_digitChar (c : LetterCase) {d : Nat} (h : d < 16) :
    IsHexDigit (digitChar c d) := by
  rw [IsHexDigit, digitVal_digitChar c h]
  rfl

/-- A character that is no digit is none of the digits. -/
theorem IsHexDigit.ne {x y : UInt8} (h : IsHexDigit x) (hy : digitVal y = none) : x ≠ y := by
  rintro rfl
  rw [IsHexDigit, hy] at h
  exact absurd h (by decide)

/-! ## 2. Writing -/

/-- The last `w` digits of a number. -/
def hexNumber (c : LetterCase) : Nat → Nat → Bytes
  | 0, _ => []
  | w + 1, n => hexNumber c w (n / 16) ++ [digitChar c (n % 16)]

/-- At least `w` digits, or as many as the number has. -/
def hexFormat (c : LetterCase) (w n : Nat) : Bytes := hexNumber c (max w (Nat.log 16 n + 1)) n

def hexByte (c : LetterCase) (b : UInt8) : Bytes := hexNumber c 2 b.toNat

def hexBytes (c : LetterCase) (data : Bytes) : Bytes := data.flatMap (hexByte c)

@[simp] theorem length_hexNumber (c : LetterCase) (w n : Nat) : (hexNumber c w n).length = w := by
  induction w generalizing n with
  | zero => rfl
  | succ w ih => rw [hexNumber, List.length_append, ih, List.length_singleton]

theorem isHexDigit_of_mem_hexNumber {c : LetterCase} {w n : Nat} {x : UInt8}
    (h : x ∈ hexNumber c w n) : IsHexDigit x := by
  induction w generalizing n with
  | zero => exact absurd h (List.not_mem_nil)
  | succ w ih =>
    rcases List.mem_append.mp h with h | h
    · exact ih h
    · rw [List.mem_singleton.mp h]
      exact isHexDigit_digitChar c (Nat.mod_lt n (by decide))

theorem isHexDigit_of_mem_hexBytes {c : LetterCase} {data : Bytes} {x : UInt8}
    (h : x ∈ hexBytes c data) : IsHexDigit x := by
  obtain ⟨b, -, hb⟩ := List.mem_flatMap.mp h
  exact isHexDigit_of_mem_hexNumber hb

/-- The last digits stand at the end. -/
theorem hexNumber_add (c : LetterCase) (v w n : Nat) :
    hexNumber c (v + w) n = hexNumber c v (n / 16 ^ w) ++ hexNumber c w n := by
  induction w generalizing n with
  | zero => simp [hexNumber]
  | succ w ih =>
    rw [← Nat.add_assoc, hexNumber, ih, hexNumber, Nat.div_div_eq_div_mul, ← Nat.pow_succ',
      List.append_assoc]

/-! ## 3. Reading a number -/

def isBlank (c : UInt8) : Bool := c = 32 ∨ 9 ≤ c ∧ c ≤ 13

def stripBlanks (text : Bytes) : Bytes := (text.dropWhile isBlank).rdropWhile isBlank

/-- The number, and whether it is negative. -/
def takeSign : Bytes → Bool × Bytes
  | [] => (false, [])
  | c :: text => if c = 45 then (true, text) else if c = 43 then (false, text) else (false, c :: text)

/-- The text behind the prefix, and behind an underscore that follows it. -/
def dropPrefix : Bytes → Bytes
  | 48 :: x :: text =>
      if x = 120 ∨ x = 88 then if text.head? = some 95 then text.tail else text
      else 48 :: x :: text
  | text => text

/-- The value of digits, behind digits of value `acc`. An underscore stands
between two digits only. -/
def digitsValue (acc : Nat) (afterDigit : Bool) : Bytes → Option Nat
  | [] => if afterDigit then some acc else none
  | c :: text =>
      if c = 95 then if afterDigit then digitsValue acc false text else none
      else
        match digitVal c with
        | some d => digitsValue (acc * 16 + d) true text
        | none => none

/-- The number that a text reads as in base 16. -/
def intOfHex (text : Bytes) : Option Int :=
  let (negative, text) := takeSign (stripBlanks text)
  (digitsValue 0 false (dropPrefix text)).map (fun n => if negative then -(n : Int) else n)

theorem digitsValue_hexNumber (c : LetterCase) (w : Nat) :
    ∀ (acc n : Nat) (afterDigit : Bool) (rest : Bytes),
      digitsValue acc afterDigit (hexNumber c w n ++ rest)
        = digitsValue (acc * 16 ^ w + n % 16 ^ w) (afterDigit || decide (0 < w)) rest := by
  induction w with
  | zero =>
    intro acc n afterDigit rest
    simp [hexNumber, Nat.mod_one]
  | succ w ih =>
    intro acc n afterDigit rest
    have hdigit : n % 16 < 16 := Nat.mod_lt n (by decide)
    have hne : digitChar c (n % 16) ≠ 95 := (isHexDigit_digitChar c hdigit).ne (by decide)
    have hvalue : (acc * 16 ^ w + n / 16 % 16 ^ w) * 16 + n % 16
        = acc * 16 ^ (w + 1) + n % 16 ^ (w + 1) := by
      rw [Nat.pow_succ', Nat.mod_mul, Nat.add_mul, Nat.mul_assoc, Nat.mul_comm (16 ^ w) 16]
      omega
    rw [hexNumber, List.append_assoc, List.singleton_append, ih, digitsValue, if_neg hne,
      digitVal_digitChar c hdigit]
    simp only [hvalue, Nat.zero_lt_succ, decide_true, Bool.or_true]

theorem IsHexDigit.isBlank_eq {x : UInt8} (h : IsHexDigit x) : isBlank x = false := by
  by_contra hb
  rw [Bool.not_eq_false, isBlank, decide_eq_true_eq] at hb
  have hval : digitVal x = none := by
    unfold digitVal
    rw [if_neg, if_neg, if_neg]
    all_goals
      simp only [UInt8.le_iff_toNat_le, ← UInt8.toNat_inj] at hb ⊢
      simp at hb ⊢
      omega
  rw [IsHexDigit, hval] at h
  exact absurd h (by decide)

theorem stripBlanks_of_digits {text : Bytes} (h : ∀ x ∈ text, IsHexDigit x) :
    stripBlanks text = text := by
  have hdrop : ∀ l : Bytes, (∀ x ∈ l, IsHexDigit x) → l.dropWhile isBlank = l := by
    intro l hl
    cases l with
    | nil => rfl
    | cons x l => rw [List.dropWhile_cons_of_neg (by rw [(hl x (by simp)).isBlank_eq]; decide)]
  rw [stripBlanks, hdrop text h, List.rdropWhile, hdrop _ (fun x hx => h x (List.mem_reverse.mp hx)),
    List.reverse_reverse]

theorem takeSign_of_digits {text : Bytes} (h : ∀ x ∈ text, IsHexDigit x) :
    takeSign text = (false, text) := by
  cases text with
  | nil => rfl
  | cons x text =>
    have hx := h x (by simp)
    rw [takeSign, if_neg (hx.ne (by decide)), if_neg (hx.ne (by decide))]

theorem dropPrefix_of_digits {text : Bytes} (h : ∀ x ∈ text, IsHexDigit x) :
    dropPrefix text = text := by
  unfold dropPrefix
  split
  · rename_i x text'
    have hx : ¬ (x = 120 ∨ x = 88) := by
      rintro (rfl | rfl)
      · exact (h 120 (by simp)).ne (by decide) rfl
      · exact (h 88 (by simp)).ne (by decide) rfl
    rw [if_neg hx]
  · rfl

/-- **A number that is written is read back**, as far as the digits go. -/
theorem intOfHex_hexNumber (c : LetterCase) {w : Nat} (hw : 0 < w) (n : Nat) :
    intOfHex (hexNumber c w n) = some ((n % 16 ^ w : Nat) : Int) := by
  have hdigits : ∀ x ∈ hexNumber c w n, IsHexDigit x := fun x hx => isHexDigit_of_mem_hexNumber hx
  have hvalue := digitsValue_hexNumber c w 0 n false []
  rw [List.append_nil, Nat.zero_mul, Nat.zero_add, digitsValue] at hvalue
  rw [intOfHex, stripBlanks_of_digits hdigits, takeSign_of_digits hdigits]
  simp only
  rw [dropPrefix_of_digits hdigits, hvalue]
  simp [hw]

theorem intOfHex_hexFormat (c : LetterCase) (w n : Nat) :
    intOfHex (hexFormat c w n) = some (n : Int) := by
  have hlt : n < 16 ^ max w (Nat.log 16 n + 1) :=
    Nat.lt_of_lt_of_le (Nat.lt_pow_succ_log_self (by decide) n)
      (Nat.pow_le_pow_right (by decide) (Nat.le_max_right _ _))
  rw [hexFormat, intOfHex_hexNumber c (by omega), Nat.mod_eq_of_lt hlt]

/-! ## 4. Reading bytes -/

def bytesOfHex : Bytes → Option Bytes
  | [] => some []
  | [c] => if isBlank c then some [] else none
  | c :: d :: text =>
      if isBlank c then bytesOfHex (d :: text)
      else
        match digitVal c, digitVal d with
        | some x, some y => (bytesOfHex text).map (UInt8.ofNat (16 * x + y) :: ·)
        | _, _ => none

theorem hexByte_eq (c : LetterCase) (b : UInt8) :
    hexByte c b = [digitChar c (b.toNat / 16), digitChar c (b.toNat % 16)] := by
  have hb := b.toNat_lt
  simp only [hexByte, hexNumber, List.nil_append, List.cons_append]
  rw [Nat.mod_eq_of_lt (show b.toNat / 16 < 16 by omega)]

/-- **Bytes that are written are read back.** -/
theorem bytesOfHex_hexBytes (c : LetterCase) (data : Bytes) :
    bytesOfHex (hexBytes c data) = some data := by
  induction data with
  | nil => rfl
  | cons b data ih =>
    have hb := b.toNat_lt
    have hhigh := digitVal_digitChar c (show b.toNat / 16 < 16 by omega)
    have hlow := digitVal_digitChar c (show b.toNat % 16 < 16 by omega)
    have hblank := (isHexDigit_digitChar c (show b.toNat / 16 < 16 by omega)).isBlank_eq
    rw [hexBytes, List.flatMap_cons, hexByte_eq, ← hexBytes]
    simp only [List.cons_append, List.nil_append, bytesOfHex, hblank, hhigh, hlow, ih,
      Bool.false_eq_true, if_false, Option.map_some]
    rw [show 16 * (b.toNat / 16) + b.toNat % 16 = b.toNat by omega, UInt8.ofNat_toNat]

end NavigationServer.Lib
