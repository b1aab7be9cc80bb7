/-
NavigationServer.Lib.Fraction — rational numbers in decimal text.

`floatOfDecimal` reads blanks, a sign, digits with a point and an exponent, as
`float` does; infinity and NaN are no rational numbers and are refused. A text
of digits with decimals behind a point is read as its exact value
(`floatOfDecimal_pointText`). `fractionValue` is the value of decimals, which is
that of the first ones exactly when the others are zeros
(`fractionValue_take_eq_iff`).
-/
import Mathlib.Data.Rat.Defs
import Mathlib.Tactic.FieldSimp
import Mathlib.Tactic.Linarith
import Mathlib.Tactic.Positivity
import Mathlib.Tactic.Ring
import NavigationServer.Lib.Decimal

namespace NavigationServer.Lib

/-! ## 1. Reading -/

/-- Digits around a point, of which there may be none. -/
def digitsOrNone (text : Bytes) : Option Nat :=
  if text.isEmpty then some 0 else decDigitsValue 0 false text

/-- The exponent and its letter, of which there may be none. -/
def exponentValue : Bytes → Option Int
  | [] => some 0
  | _ :: text =>
      let (negative, digits) := takeSign text
      (decDigitsValue 0 false digits).map (fun n => if negative then -(n : Int) else n)

/-- `float(text)`. -/
def floatOfDecimal (text : Bytes) : Option ℚ :=
  let (negative, text) := takeSign (stripBlanks text)
  let mantissa := text.takeWhile (fun c => c ≠ 101 ∧ c ≠ 69)
  let whole := mantissa.takeWhile (· ≠ 46)
  let decimals := (mantissa.dropWhile (· ≠ 46)).tail
  match digitsOrNone whole, digitsOrNone decimals, exponentValue (text.drop mantissa.length) with
  | some w, some d, some e =>
      if whole.isEmpty ∧ decimals.isEmpty then none
      else
        let value : ℚ := (w + d / 10 ^ decimals.countP isDigit) * 10 ^ e
        some (if negative then -value else value)
  | _, _, _ => none

/-- Decimals behind a point. -/
def pointText (decimals : Bytes) : Bytes := if decimals.isEmpty then [] else 46 :: decimals

/-- The value of decimals. -/
def fractionValue (decimals : Bytes) : ℚ := decValue decimals / 10 ^ decimals.length

/-! ## 2. Digits -/

/-- A digit is none of the other characters of a number. -/
theorem ne_of_isDigit {c : UInt8} (h : isDigit c = true) {x : UInt8} (hx : isDigit x = false) :
    c ≠ x := by
  rintro rfl
  rw [h] at hx
  cases hx

theorem isBlank_of_isDigit {c : UInt8} (h : isDigit c = true) : isBlank c = false := by
  rw [isDigit, decide_eq_true_eq, UInt8.le_iff_toNat_le, UInt8.le_iff_toNat_le] at h
  simp only [isBlank, UInt8.le_iff_toNat_le, ← UInt8.toNat_inj, decide_eq_false_iff_not]
  change ¬ (c.toNat = 32 ∨ 9 ≤ c.toNat ∧ c.toNat ≤ 13)
  change 48 ≤ c.toNat ∧ c.toNat ≤ 57 at h
  omega

theorem decDigitsValue_digits {digits : Bytes} (h : ∀ c ∈ digits, isDigit c = true) (acc : Nat) :
    decDigitsValue acc true digits
      = some (digits.foldl (fun acc c => acc * 10 + (c.toNat - 48)) acc) := by
  induction digits generalizing acc with
  | nil => rfl
  | cons c digits ih =>
    obtain ⟨hc, htail⟩ := List.forall_mem_cons.mp h
    rw [decDigitsValue, if_neg (ne_of_isDigit hc (by decide)), if_pos hc, ih htail, List.foldl_cons]

/-- Digits are read as their value. -/
theorem decDigitsValue_decValue {digits : Bytes} (h : ∀ c ∈ digits, isDigit c = true)
    (hne : digits ≠ []) : decDigitsValue 0 false digits = some (decValue digits) := by
  cases digits with
  | nil => exact absurd rfl hne
  | cons c digits =>
    obtain ⟨hc, htail⟩ := List.forall_mem_cons.mp h
    rw [decDigitsValue, if_neg (ne_of_isDigit hc (by decide)), if_pos hc, decDigitsValue_digits htail]
    rfl

theorem intOfDecimal_digits {digits : Bytes} (h : ∀ c ∈ digits, isDigit c = true)
    (hne : digits ≠ []) : intOfDecimal digits = some (decValue digits : Int) := by
  have hhex : ∀ c ∈ digits, IsHexDigit c := fun c hc => isHexDigit_of_isDigit (h c hc)
  rw [intOfDecimal, stripBlanks_of_digits hhex, takeSign_of_digits hhex]
  simp only
  rw [decDigitsValue_decValue h hne]
  rfl

theorem digitsOrNone_digits {digits : Bytes} (h : ∀ c ∈ digits, isDigit c = true) :
    digitsOrNone digits = some (decValue digits) := by
  unfold digitsOrNone
  split
  · rename_i hempty
    rw [List.isEmpty_iff.mp hempty]
    rfl
  · rename_i hempty
    exact decDigitsValue_decValue h (fun hnil => hempty (List.isEmpty_iff.mpr hnil))

/-! ## 3. Digits with decimals -/

section PointText

variable {whole decimals : Bytes}

theorem point_cut (hwhole : ∀ c ∈ whole, isDigit c = true) (decimals : Bytes) :
    (whole ++ pointText decimals).takeWhile (· ≠ 46) = whole ∧
      ((whole ++ pointText decimals).dropWhile (· ≠ 46)).tail = decimals := by
  have hpoint : ∀ c ∈ whole, decide (c ≠ 46) = true := by
    intro c hc
    exact decide_eq_true (ne_of_isDigit (hwhole c hc) (by decide))
  rw [List.takeWhile_append_of_pos hpoint, List.dropWhile_append_of_pos hpoint]
  cases decimals with
  | nil => exact ⟨List.append_nil _, rfl⟩
  | cons c decimals => exact ⟨List.append_nil _, rfl⟩

/-- The characters are digits, or the point. -/
theorem mem_pointText (hwhole : ∀ c ∈ whole, isDigit c = true)
    (hdecimals : ∀ c ∈ decimals, isDigit c = true) {c : UInt8} (h : c ∈ whole ++ pointText decimals) :
    isDigit c = true ∨ c = 46 := by
  rcases List.mem_append.mp h with h | h
  · exact Or.inl (hwhole c h)
  · unfold pointText at h
    split at h
    · exact absurd h List.not_mem_nil
    · rcases List.mem_cons.mp h with h | h
      · exact Or.inr h
      · exact Or.inl (hdecimals c h)

theorem stripBlanks_of_none {text : Bytes} (h : ∀ c ∈ text, isBlank c = false) :
    stripBlanks text = text := by
  have hdrop : text.dropWhile isBlank = text := by
    cases text with
    | nil => rfl
    | cons c text => rw [List.dropWhile_cons_of_neg (by simp [h c List.mem_cons_self])]
  rw [stripBlanks, hdrop, List.rdropWhile_eq_self_iff]
  intro hne
  simp [h _ (List.getLast_mem hne)]

theorem takeSign_of_digit {c : UInt8} (h : isDigit c = true) (text : Bytes) :
    takeSign (c :: text) = (false, c :: text) := by
  rw [takeSign, if_neg (ne_of_isDigit h (by decide)), if_neg (ne_of_isDigit h (by decide))]

/-- **Digits with decimals are read as their exact value.** -/
theorem floatOfDecimal_pointText (hwhole : ∀ c ∈ whole, isDigit c = true) (hne : whole ≠ [])
    (hdecimals : ∀ c ∈ decimals, isDigit c = true) :
    floatOfDecimal (whole ++ pointText decimals) = some (decValue whole + fractionValue decimals) := by
  have hchar : ∀ c ∈ whole ++ pointText decimals, isBlank c = false ∧ c ≠ 101 ∧ c ≠ 69 := by
    intro c hc
    rcases mem_pointText hwhole hdecimals hc with h | rfl
    · exact ⟨isBlank_of_isDigit h, ne_of_isDigit h (by decide), ne_of_isDigit h (by decide)⟩
    · decide
  have hsign : takeSign (whole ++ pointText decimals) = (false, whole ++ pointText decimals) := by
    cases whole with
    | nil => exact absurd rfl hne
    | cons c whole => exact takeSign_of_digit (hwhole c List.mem_cons_self) _
  have hmantissa : (whole ++ pointText decimals).takeWhile (fun c => c ≠ 101 ∧ c ≠ 69)
      = whole ++ pointText decimals :=
    List.takeWhile_eq_self_iff.mpr fun c hc => decide_eq_true (hchar c hc).2
  obtain ⟨hcut, htail⟩ := point_cut hwhole decimals
  have hcount : decimals.countP isDigit = decimals.length := List.countP_eq_length.mpr hdecimals
  have hempty : ¬ (whole.isEmpty = true ∧ decimals.isEmpty = true) :=
    fun h => hne (List.isEmpty_iff.mp h.1)
  unfold floatOfDecimal
  simp only [stripBlanks_of_none fun c hc => (hchar c hc).1, hsign, hmantissa, hcut, htail,
    digitsOrNone_digits hwhole, digitsOrNone_digits hdecimals, List.drop_length, exponentValue, hcount,
    if_neg hempty, zpow_zero, mul_one, fractionValue]
  rfl

end PointText

/-! ## 4. The value of decimals -/

theorem decValue_append (a b : Bytes) : decValue (a ++ b) = decValue a * 10 ^ b.length + decValue b := by
  induction b using List.reverseRecOn with
  | nil => simp [decValue]
  | append_singleton b c ih =>
    have hstep : ∀ l : Bytes, decValue (l ++ [c]) = decValue l * 10 + (c.toNat - 48) := by
      intro l
      rw [decValue, List.foldl_append]
      rfl
    rw [← List.append_assoc, hstep, hstep, ih, List.length_append, List.length_singleton, pow_succ]
    ring

theorem fractionValue_append (a b : Bytes) :
    fractionValue (a ++ b) = fractionValue a + fractionValue b / 10 ^ a.length := by
  unfold fractionValue
  rw [decValue_append, List.length_append, pow_add]
  push_cast
  field_simp

theorem fractionValue_nonneg (decimals : Bytes) : 0 ≤ fractionValue decimals := by
  unfold fractionValue
  positivity

/-- Decimals without value are zeros. -/
theorem decValue_eq_zero_iff {digits : Bytes} (h : ∀ c ∈ digits, isDigit c = true) :
    decValue digits = 0 ↔ ∀ c ∈ digits, c = 48 := by
  induction digits using List.reverseRecOn with
  | nil => simp [decValue]
  | append_singleton digits c ih =>
    have hc := h c (List.mem_append_right _ (List.mem_singleton_self c))
    have hdigits := ih fun d hd => h d (List.mem_append_left _ hd)
    have hvalue : decValue [c] = 0 ↔ c = 48 := by
      rw [isDigit, decide_eq_true_eq, UInt8.le_iff_toNat_le, UInt8.le_iff_toNat_le] at hc
      change 48 ≤ c.toNat ∧ c.toNat ≤ 57 at hc
      rw [← UInt8.toNat_inj]
      change 0 * 10 + (c.toNat - 48) = 0 ↔ c.toNat = 48
      omega
    rw [decValue_append, List.length_singleton, pow_one, Nat.add_eq_zero_iff, Nat.mul_eq_zero,
      or_iff_left (by decide), hdigits, hvalue, List.forall_mem_append, List.forall_mem_singleton]

theorem fractionValue_eq_zero_iff {decimals : Bytes} (h : ∀ c ∈ decimals, isDigit c = true) :
    fractionValue decimals = 0 ↔ ∀ c ∈ decimals, c = 48 := by
  have hpos : (10 : ℚ) ^ decimals.length ≠ 0 := by positivity
  rw [fractionValue, div_eq_zero_iff, or_iff_left hpos, Nat.cast_eq_zero, decValue_eq_zero_iff h]

/-- **The first decimals have the value of all** when the others are zeros. -/
theorem fractionValue_take_eq_iff {decimals : Bytes} (h : ∀ c ∈ decimals, isDigit c = true) (n : Nat) :
    fractionValue (decimals.take n) = fractionValue decimals ↔ ∀ c ∈ decimals.drop n, c = 48 := by
  have hdrop : ∀ c ∈ decimals.drop n, isDigit c = true := fun c hc => h c (List.mem_of_mem_drop hc)
  have hsplit := fractionValue_append (decimals.take n) (decimals.drop n)
  have hpos : (10 : ℚ) ^ (decimals.take n).length ≠ 0 := by positivity
  rw [List.take_append_drop] at hsplit
  rw [hsplit, ← fractionValue_eq_zero_iff hdrop, left_eq_add, div_eq_zero_iff, or_iff_left hpos]

end NavigationServer.Lib
