/-
NavigationServer.Lib.Decimal — numbers in decimal text.

`decNumber` writes a number on a given number of digits, `decimal` on as many
as it has. A reader takes the digits in front of a text (`takeDigits`) and
their value (`decValue`). What is written is read back, whatever stands behind
(`takeDigits_decNumber`, `decValue_decNumber`). A general purpose parser of
whole numbers is `intOfDecimal`, with blanks, a sign and underscores as in the
base 16 of `intOfHex`; it reads the digits of a number as the number
(`intOfDecimal_decimal`).
-/
import Mathlib.Data.List.TakeWhile
import Mathlib.Tactic.IntervalCases
import NavigationServer.Lib.Hex

namespace NavigationServer.Lib

/-! ## 1. Digits -/

def isDigit (c : UInt8) : Bool := 48 ≤ c ∧ c ≤ 57

def decChar (d : Nat) : UInt8 := UInt8.ofNat (48 + d)

theorem isDigit_decChar {d : Nat} (h : d < 10) : isDigit (decChar d) = true := by
  decide +revert

theorem toNat_decChar {d : Nat} (h : d < 10) : (decChar d).toNat - 48 = d := by
  decide +revert

/-! ## 2. Writing -/

/-- The last `w` digits of a number. -/
def decNumber : Nat → Nat → Bytes
  | 0, _ => []
  | w + 1, n => decNumber w (n / 10) ++ [decChar (n % 10)]

/-- The digits of a number. -/
def decimal (n : Nat) : Bytes := (Nat.toDigits 10 n).map (fun c => UInt8.ofNat c.toNat)

@[simp] theorem length_decNumber (w n : Nat) : (decNumber w n).length = w := by
  induction w generalizing n with
  | zero => rfl
  | succ w ih => rw [decNumber, List.length_append, ih, List.length_singleton]

theorem isDigit_of_mem_decNumber {w n : Nat} {c : UInt8} (h : c ∈ decNumber w n) :
    isDigit c = true := by
  induction w generalizing n with
  | zero => exact absurd h List.not_mem_nil
  | succ w ih =>
    rcases List.mem_append.mp h with h | h
    · exact ih h
    · rw [List.mem_singleton.mp h]
      exact isDigit_decChar (Nat.mod_lt n (by decide))

theorem isDigit_of_mem_decimal {n : Nat} {c : UInt8} (h : c ∈ decimal n) : isDigit c = true := by
  obtain ⟨d, hd, rfl⟩ := List.mem_map.mp h
  have hdigit := Nat.isDigit_of_mem_toDigits (by decide) (Nat.le_refl 10) hd
  rw [Char.isDigit, Bool.and_eq_true, decide_eq_true_eq, decide_eq_true_eq] at hdigit
  obtain ⟨hlow, hhigh⟩ := hdigit
  have hlow : 48 ≤ d.toNat := hlow
  have hhigh : d.toNat ≤ 57 := hhigh
  generalize d.toNat = m at hlow hhigh
  interval_cases m <;> rfl

/-! ## 3. Reading -/

/-- The digits in front of a text, and what follows them. -/
def takeDigits (text : Bytes) : Bytes × Bytes := (text.takeWhile isDigit, text.dropWhile isDigit)

def decValue (digits : Bytes) : Nat := digits.foldl (fun acc c => acc * 10 + (c.toNat - 48)) 0

theorem takeDigits_append {digits rest : Bytes} (h : ∀ c ∈ digits, isDigit c = true)
    (hrest : ∀ c ∈ rest.head?, isDigit c = false) : takeDigits (digits ++ rest) = (digits, rest) := by
  have hstop : rest.takeWhile isDigit = [] ∧ rest.dropWhile isDigit = rest := by
    cases rest with
    | nil => exact ⟨rfl, rfl⟩
    | cons c rest =>
      have hc : isDigit c = false := hrest c rfl
      simp [hc]
  rw [takeDigits, List.takeWhile_append_of_pos h, List.dropWhile_append_of_pos h, hstop.1, hstop.2,
    List.append_nil]

/-- **The digits of a number are taken back.** -/
theorem takeDigits_decNumber (w n : Nat) {rest : Bytes}
    (hrest : ∀ c ∈ rest.head?, isDigit c = false) :
    takeDigits (decNumber w n ++ rest) = (decNumber w n, rest) :=
  takeDigits_append (fun _ hc => isDigit_of_mem_decNumber hc) hrest

theorem decValue_decNumber (w n : Nat) : decValue (decNumber w n) = n % 10 ^ w := by
  induction w generalizing n with
  | zero => simp [decNumber, decValue, Nat.mod_one]
  | succ w ih =>
    have hdigit : n % 10 < 10 := Nat.mod_lt n (by decide)
    have hvalue := ih (n / 10)
    unfold decValue at hvalue ⊢
    rw [decNumber, List.foldl_append, hvalue, List.foldl_cons, List.foldl_nil, toNat_decChar hdigit,
      Nat.pow_succ', Nat.mod_mul]
    omega

/-- The text is the digits and what follows. -/
theorem takeDigits_eq (text : Bytes) : (takeDigits text).1 ++ (takeDigits text).2 = text :=
  List.takeWhile_append_dropWhile

/-- The value of decimal digits, behind digits of value `acc`. An underscore
stands between two digits only. -/
def decDigitsValue (acc : Nat) (afterDigit : Bool) : Bytes → Option Nat
  | [] => if afterDigit then some acc else none
  | c :: text =>
      if c = 95 then if afterDigit then decDigitsValue acc false text else none
      else if isDigit c then decDigitsValue (acc * 10 + (c.toNat - 48)) true text
      else none

/-- The number that a text reads as in base 10. -/
def intOfDecimal (text : Bytes) : Option Int :=
  let (negative, text) := takeSign (stripBlanks text)
  (decDigitsValue 0 false text).map (fun n => if negative then -(n : Int) else n)

theorem isHexDigit_of_isDigit {c : UInt8} (h : isDigit c = true) : IsHexDigit c := by
  rw [isDigit, decide_eq_true_eq] at h
  rw [IsHexDigit, digitVal, if_pos h]
  rfl

theorem decimal_of_lt {n : Nat} (h : n < 10) : decimal n = [decChar n] := by
  rw [decimal, Nat.toDigits_of_lt_base h]
  decide +revert

/-- The last digit stands at the end. -/
theorem decimal_of_le {n : Nat} (h : 10 ≤ n) :
    decimal n = decimal (n / 10) ++ [decChar (n % 10)] := by
  have hlast := decimal_of_lt (Nat.mod_lt n (show 0 < 10 by decide))
  rw [decimal, Nat.toDigits_of_lt_base (Nat.mod_lt n (by decide))] at hlast
  rw [decimal, Nat.toDigits_of_base_le (by decide) h, List.map_append, hlast]
  rfl

/-- The digits of a number have its value. -/
theorem decValue_decimal (n : Nat) : decValue (decimal n) = n := by
  induction n using Nat.strongRecOn with
  | ind n ih =>
    rcases Nat.lt_or_ge n 10 with hlt | hge
    · rw [decimal_of_lt hlt, decValue, List.foldl_cons, List.foldl_nil, toNat_decChar hlt]
      omega
    · have hfront := ih (n / 10) (Nat.div_lt_self (by omega) (by decide))
      rw [decValue] at hfront
      rw [decimal_of_le hge, decValue, List.foldl_append, hfront, List.foldl_cons, List.foldl_nil,
        toNat_decChar (Nat.mod_lt n (by decide))]
      omega

theorem decimal_ne_nil (n : Nat) : decimal n ≠ [] := by
  rcases Nat.lt_or_ge n 10 with hlt | hge
  · simp [decimal_of_lt hlt]
  · simp [decimal_of_le hge]

theorem decDigitsValue_cons (acc : Nat) (afterDigit : Bool) {d : Nat} (h : d < 10) (rest : Bytes) :
    decDigitsValue acc afterDigit (decChar d :: rest) = decDigitsValue (acc * 10 + d) true rest := by
  have hne : decChar d ≠ 95 := by decide +revert
  rw [decDigitsValue, if_neg hne, if_pos (isDigit_decChar h), toNat_decChar h]

theorem decDigitsValue_decimal (n : Nat) (rest : Bytes) :
    decDigitsValue 0 false (decimal n ++ rest) = decDigitsValue n true rest := by
  induction n using Nat.strongRecOn generalizing rest with
  | ind n ih =>
    rcases Nat.lt_or_ge n 10 with hlt | hge
    · rw [decimal_of_lt hlt, List.singleton_append, decDigitsValue_cons _ _ hlt, Nat.zero_mul,
        Nat.zero_add]
    · rw [decimal_of_le hge, List.append_assoc, List.singleton_append,
        ih (n / 10) (Nat.div_lt_self (by omega) (by decide)),
        decDigitsValue_cons _ _ (Nat.mod_lt n (by decide)), Nat.mul_comm, Nat.div_add_mod]

/-- **The digits of a number are read as the number.** -/
theorem intOfDecimal_decimal (n : Nat) : intOfDecimal (decimal n) = some (n : Int) := by
  have hdigits : ∀ c ∈ decimal n, IsHexDigit c := fun _ hc =>
    isHexDigit_of_isDigit (isDigit_of_mem_decimal hc)
  have hvalue := decDigitsValue_decimal n []
  rw [List.append_nil, decDigitsValue] at hvalue
  rw [intOfDecimal, stripBlanks_of_digits hdigits, takeSign_of_digits hdigits]
  simp only
  rw [hvalue]
  rfl

theorem isDigit_of_mem_takeDigits {text : Bytes} {c : UInt8} (h : c ∈ (takeDigits text).1) :
    isDigit c = true :=
  List.mem_takeWhile_imp h

end NavigationServer.Lib
