/-
NavigationServer.Lib.DateTime — dates and their text.

A `DateTime` carries that it is a date of the calendar. `strftime` writes it as
`%Y-%m-%d %H:%M:%S.%f`, and `strptime` reads this format as the general parser
does: one or two digits in most fields, blanks between date and time, one to six
digits of a fraction, and nothing behind. A date with a year of four digits is
read back (`strptime_strftime`), and a text with any other character is no date
(`strptime_foreign`). The texts are octets, and digits and blanks those of ASCII:
the patterns of Python, `\d` and `\s`, match the digits and blanks of other scripts
as well, which are not modelled.
-/
import NavigationServer.Lib.Decimal

namespace NavigationServer.Lib

/-! ## 1. Dates -/

def leapYear (year : Nat) : Bool := year % 4 = 0 ∧ (year % 100 ≠ 0 ∨ year % 400 = 0)

def daysInMonth (year month : Nat) : Nat :=
  if month = 2 then if leapYear year then 29 else 28
  else if month ∈ [4, 6, 9, 11] then 30
  else 31

/-- The fields are those of a date and a time of the day. -/
structure ValidDate (year month day hour minute second microsecond : Nat) : Prop where
  year_range : 1 ≤ year ∧ year ≤ 9999
  month_range : 1 ≤ month ∧ month ≤ 12
  day_range : 1 ≤ day ∧ day ≤ daysInMonth year month
  hour_le : hour ≤ 23
  minute_le : minute ≤ 59
  second_le : second ≤ 59
  microsecond_lt : microsecond < 10 ^ 6

instance (year month day hour minute second microsecond : Nat) :
    Decidable (ValidDate year month day hour minute second microsecond) :=
  decidable_of_iff ((1 ≤ year ∧ year ≤ 9999) ∧ (1 ≤ month ∧ month ≤ 12) ∧
      (1 ≤ day ∧ day ≤ daysInMonth year month) ∧ hour ≤ 23 ∧ minute ≤ 59 ∧ second ≤ 59 ∧
      microsecond < 10 ^ 6)
    ⟨fun ⟨h1, h2, h3, h4, h5, h6, h7⟩ => ⟨h1, h2, h3, h4, h5, h6, h7⟩,
      fun h => ⟨h.year_range, h.month_range, h.day_range, h.hour_le, h.minute_le, h.second_le,
        h.microsecond_lt⟩⟩

structure DateTime where
  year : Nat
  month : Nat
  day : Nat
  hour : Nat
  minute : Nat
  second : Nat
  microsecond : Nat
  valid : ValidDate year month day hour minute second microsecond
  deriving DecidableEq

theorem daysInMonth_le (year month : Nat) : daysInMonth year month ≤ 31 := by
  unfold daysInMonth
  split_ifs <;> omega

/-! ## 2. Writing -/

/-- `%Y-%m-%d %H:%M:%S.%f`. -/
def strftime (d : DateTime) : Bytes :=
  decimal d.year ++ 45 :: decNumber 2 d.month ++ 45 :: decNumber 2 d.day ++ 32 ::
    decNumber 2 d.hour ++ 58 :: decNumber 2 d.minute ++ 58 :: decNumber 2 d.second ++ 46 ::
      decNumber 6 d.microsecond

theorem mem_strftime {d : DateTime} {c : UInt8} (h : c ∈ strftime d) :
    isDigit c = true ∨ c ∈ [45, 32, 58, 46] := by
  unfold strftime at h
  simp only [List.append_assoc, List.cons_append, List.mem_append, List.mem_cons] at h
  rcases h with h | rfl | h | rfl | h | rfl | h | rfl | h | rfl | h | rfl | h
  · exact Or.inl (isDigit_of_mem_decimal h)
  all_goals first | exact Or.inl (isDigit_of_mem_decNumber h) | exact Or.inr (by decide)

/-! ## 3. Reading -/

/-- White space, of the characters below 128. -/
def isSpace (c : UInt8) : Bool := c = 32 ∨ 9 ≤ c ∧ c ≤ 13 ∨ 28 ≤ c ∧ c ≤ 31

/-- A number between `low` and `high`, on `least` to `most` digits. -/
def field (least most low high : Nat) (text : Bytes) : Option (Nat × Bytes) :=
  let (digits, rest) := takeDigits text
  if least ≤ digits.length ∧ digits.length ≤ most ∧ low ≤ decValue digits ∧ decValue digits ≤ high
  then some (decValue digits, rest)
  else none

/-- One character of the format. -/
def literal (c : UInt8) : Bytes → Option Bytes
  | [] => none
  | x :: text => if x = c then some text else none

/-- The day may have a blank for its first digit. -/
def dayField : Bytes → Option (Nat × Bytes)
  | 32 :: text => field 1 1 1 9 text
  | text => field 1 2 1 31 text

/-- The blank of the format stands for one or more. -/
def spaces : Bytes → Option Bytes
  | [] => none
  | c :: text => if isSpace c then some (text.dropWhile isSpace) else none

/-- A fraction of a second, and nothing behind it. -/
def fraction (text : Bytes) : Option Nat :=
  let (digits, rest) := takeDigits text
  if 1 ≤ digits.length ∧ digits.length ≤ 6 ∧ rest = []
  then some (decValue digits * 10 ^ (6 - digits.length))
  else none

def strptime (text : Bytes) : Option DateTime := do
  let (year, text) ← field 4 4 1 9999 text
  let text ← literal 45 text
  let (month, text) ← field 1 2 1 12 text
  let text ← literal 45 text
  let (day, text) ← dayField text
  let text ← spaces text
  let (hour, text) ← field 1 2 0 23 text
  let text ← literal 58 text
  let (minute, text) ← field 1 2 0 59 text
  let text ← literal 58 text
  let (second, text) ← field 1 2 0 59 text
  let text ← literal 46 text
  let microsecond ← fraction text
  if h : ValidDate year month day hour minute second microsecond then
    some ⟨year, month, day, hour, minute, second, microsecond, h⟩
  else none

/-! ## 4. The round trip -/

theorem field_decNumber {least most low high w n : Nat} {rest : Bytes}
    (hrest : ∀ c ∈ rest.head?, isDigit c = false) (hleast : least ≤ w) (hmost : w ≤ most)
    (hn : n < 10 ^ w) (hlow : low ≤ n) (hhigh : n ≤ high) :
    field least most low high (decNumber w n ++ rest) = some (n, rest) := by
  unfold field
  rw [takeDigits_decNumber w n hrest]
  dsimp only
  rw [length_decNumber, decValue_decNumber, Nat.mod_eq_of_lt hn]
  exact if_pos ⟨hleast, hmost, hlow, hhigh⟩

theorem literal_cons (c : UInt8) (text : Bytes) : literal c (c :: text) = some text := if_pos rfl

/-- A year of four digits. -/
theorem decimal_year {n : Nat} (hlow : 1000 ≤ n) (hhigh : n ≤ 9999) : decimal n = decNumber 4 n := by
  have hdigit : ∀ d, d < 10 → UInt8.ofNat (Nat.digitChar d).toNat = decChar d := by decide
  unfold decimal
  rw [Nat.toDigits_of_base_le (by decide) (by omega), Nat.toDigits_of_base_le (by decide) (by omega),
    Nat.toDigits_of_base_le (by decide) (by omega), Nat.toDigits_of_lt_base (by omega)]
  simp only [decNumber, List.map_append, List.map_cons, List.map_nil, List.nil_append]
  rw [hdigit _ (by omega), hdigit _ (by omega), hdigit _ (by omega), hdigit _ (by omega),
    Nat.mod_eq_of_lt (show n / 10 / 10 / 10 < 10 by omega)]

theorem isSpace_of_isDigit {c : UInt8} (h : isDigit c = true) : isSpace c = false := by
  unfold isDigit at h
  unfold isSpace
  simp only [decide_eq_true_eq, UInt8.le_iff_toNat_le, decide_eq_false_iff_not,
    ← UInt8.toNat_inj] at h ⊢
  simp at h ⊢
  omega

/-- A number on two digits begins with a digit. -/
theorem decNumber_two (n : Nat) (rest : Bytes) : ∃ (c : UInt8) (text : Bytes),
    isDigit c = true ∧ decNumber 2 n ++ rest = c :: text :=
  ⟨decChar (n / 10 % 10), decChar (n % 10) :: rest, isDigit_decChar (Nat.mod_lt _ (by decide)), rfl⟩

theorem spaces_decNumber (n : Nat) (rest : Bytes) :
    spaces (32 :: (decNumber 2 n ++ rest)) = some (decNumber 2 n ++ rest) := by
  obtain ⟨c, text, hc, heq⟩ := decNumber_two n rest
  unfold spaces
  dsimp only
  rw [if_pos (by decide), heq, List.dropWhile_cons_of_neg]
  rw [isSpace_of_isDigit hc]
  exact Bool.false_ne_true

theorem dayField_decNumber {day : Nat} {rest : Bytes} (hrest : ∀ c ∈ rest.head?, isDigit c = false)
    (hlow : 1 ≤ day) (hhigh : day ≤ 31) : dayField (decNumber 2 day ++ rest) = some (day, rest) := by
  obtain ⟨c, text, hc, heq⟩ := decNumber_two day rest
  have hne : c ≠ 32 := by
    rintro rfl
    exact absurd hc (by decide)
  have hfield : dayField (c :: text) = field 1 2 1 31 (c :: text) := by
    unfold dayField
    split
    · rename_i heq'
      cases heq'
      exact absurd rfl hne
    · rfl
  rw [heq, hfield, ← heq]
  exact field_decNumber hrest (by omega) (by omega) (by omega) hlow hhigh

theorem fraction_decNumber {n : Nat} (h : n < 10 ^ 6) : fraction (decNumber 6 n) = some n := by
  have htake : takeDigits (decNumber 6 n ++ []) = (decNumber 6 n, []) :=
    takeDigits_decNumber 6 n (by simp)
  rw [List.append_nil] at htake
  unfold fraction
  rw [htake]
  dsimp only
  rw [length_decNumber, decValue_decNumber, Nat.mod_eq_of_lt h, if_pos ⟨by decide, by decide, rfl⟩]
  simp

/-- **A date is read back to the microsecond.** -/
theorem strptime_strftime (d : DateTime) (h : 1000 ≤ d.year) : strptime (strftime d) = some d := by
  obtain ⟨year, month, day, hour, minute, second, microsecond, hv⟩ := d
  have h : 1000 ≤ year := h
  obtain ⟨-, hyear⟩ := hv.year_range
  obtain ⟨hmonth, hmonth'⟩ := hv.month_range
  obtain ⟨hday, hday'⟩ := hv.day_range
  have hhour := hv.hour_le
  have hminute := hv.minute_le
  have hsecond := hv.second_le
  have hday31 := daysInMonth_le year month
  have hdash : ∀ rest : Bytes, ∀ c ∈ ((45 : UInt8) :: rest).head?, isDigit c = false := by
    intro rest c hc
    cases hc
    rfl
  have hblank : ∀ rest : Bytes, ∀ c ∈ ((32 : UInt8) :: rest).head?, isDigit c = false := by
    intro rest c hc
    cases hc
    rfl
  have hcolon : ∀ rest : Bytes, ∀ c ∈ ((58 : UInt8) :: rest).head?, isDigit c = false := by
    intro rest c hc
    cases hc
    rfl
  have hdot : ∀ rest : Bytes, ∀ c ∈ ((46 : UInt8) :: rest).head?, isDigit c = false := by
    intro rest c hc
    cases hc
    rfl
  have htext : strftime ⟨year, month, day, hour, minute, second, microsecond, hv⟩
      = decNumber 4 year ++ 45 :: (decNumber 2 month ++ 45 :: (decNumber 2 day ++ 32 ::
          (decNumber 2 hour ++ 58 :: (decNumber 2 minute ++ 58 :: (decNumber 2 second ++ 46 ::
            decNumber 6 microsecond))))) := by
    unfold strftime
    dsimp only
    rw [decimal_year h hyear]
    simp only [List.append_assoc, List.cons_append]
  have some_bind {α β : Type} (a : α) (f : α → Option β) : (some a >>= f) = f a := rfl
  rw [htext]
  unfold strptime
  rw [field_decNumber (hdash _) (by omega) (by omega) (by omega) (by omega) hyear, some_bind]
  dsimp only
  rw [literal_cons, some_bind,
    field_decNumber (hdash _) (by omega) (by omega) (by omega) hmonth hmonth', some_bind]
  dsimp only
  rw [literal_cons, some_bind, dayField_decNumber (hblank _) hday (by omega), some_bind]
  dsimp only
  rw [spaces_decNumber, some_bind,
    field_decNumber (hcolon _) (by omega) (by omega) (by omega) (by omega) hhour, some_bind]
  dsimp only
  rw [literal_cons, some_bind,
    field_decNumber (hcolon _) (by omega) (by omega) (by omega) (by omega) hminute, some_bind]
  dsimp only
  rw [literal_cons, some_bind,
    field_decNumber (hdot _) (by omega) (by omega) (by omega) (by omega) hsecond, some_bind]
  dsimp only
  rw [literal_cons, some_bind, fraction_decNumber hv.microsecond_lt, some_bind, dif_pos hv]

/-! ## 5. What a date does not hold -/

/-- The characters of a date. -/
def DateChar (c : UInt8) : Prop := isDigit c = true ∨ isSpace c = true ∨ c ∈ [45, 58, 46]

theorem field_chars {least most low high n : Nat} {text rest : Bytes}
    (h : field least most low high text = some (n, rest)) (hrest : ∀ c ∈ rest, DateChar c) :
    ∀ c ∈ text, DateChar c := by
  unfold field at h
  dsimp only at h
  split at h
  · cases h
    intro c hc
    rw [← takeDigits_eq text] at hc
    rcases List.mem_append.mp hc with hc | hc
    · exact Or.inl (isDigit_of_mem_takeDigits hc)
    · exact hrest c hc
  · cases h

theorem literal_chars {x : UInt8} {text rest : Bytes} (hx : DateChar x)
    (h : literal x text = some rest) (hrest : ∀ c ∈ rest, DateChar c) :
    ∀ c ∈ text, DateChar c := by
  cases text with
  | nil => cases h
  | cons y text =>
    unfold literal at h
    dsimp only at h
    split at h
    · rename_i hxy
      cases h
      intro c hc
      rcases List.mem_cons.mp hc with rfl | hc
      · exact hxy ▸ hx
      · exact hrest c hc
    · cases h

theorem dayField_chars {n : Nat} {text rest : Bytes} (h : dayField text = some (n, rest))
    (hrest : ∀ c ∈ rest, DateChar c) : ∀ c ∈ text, DateChar c := by
  unfold dayField at h
  split at h
  · rename_i text'
    intro c hc
    rcases List.mem_cons.mp hc with rfl | hc
    · exact Or.inr (Or.inl rfl)
    · exact field_chars h hrest c hc
  · exact field_chars h hrest

theorem spaces_chars {text rest : Bytes} (h : spaces text = some rest)
    (hrest : ∀ c ∈ rest, DateChar c) : ∀ c ∈ text, DateChar c := by
  cases text with
  | nil => cases h
  | cons y text =>
    unfold spaces at h
    dsimp only at h
    split at h
    · rename_i hy
      cases h
      intro c hc
      rcases List.mem_cons.mp hc with rfl | hc
      · exact Or.inr (Or.inl hy)
      · rw [← List.takeWhile_append_dropWhile (p := isSpace) (l := text)] at hc
        rcases List.mem_append.mp hc with hc | hc
        · exact Or.inr (Or.inl (List.mem_takeWhile_imp hc))
        · exact hrest c hc
    · cases h

theorem fraction_chars {n : Nat} {text : Bytes} (h : fraction text = some n) :
    ∀ c ∈ text, DateChar c := by
  unfold fraction at h
  dsimp only at h
  split at h
  · rename_i hcond
    intro c hc
    rw [← takeDigits_eq text, hcond.2.2, List.append_nil] at hc
    exact Or.inl (isDigit_of_mem_takeDigits hc)
  · cases h

/-- **A text with another character is no date.** -/
theorem strptime_foreign {text : Bytes} {x : UInt8} (hmem : x ∈ text) (hx : ¬ DateChar x) :
    strptime text = none := by
  have hliteral : DateChar 45 ∧ DateChar 58 ∧ DateChar 46 :=
    ⟨Or.inr (Or.inr (by decide)), Or.inr (Or.inr (by decide)), Or.inr (Or.inr (by decide))⟩
  cases hd : strptime text with
  | none => rfl
  | some d =>
    refine absurd ?_ hx
    unfold strptime at hd
    obtain ⟨⟨year, t1⟩, hyear, hd⟩ := Option.bind_eq_some_iff.mp hd
    obtain ⟨t2, hdash, hd⟩ := Option.bind_eq_some_iff.mp hd
    obtain ⟨⟨month, t3⟩, hmonth, hd⟩ := Option.bind_eq_some_iff.mp hd
    obtain ⟨t4, hdash', hd⟩ := Option.bind_eq_some_iff.mp hd
    obtain ⟨⟨day, t5⟩, hday, hd⟩ := Option.bind_eq_some_iff.mp hd
    obtain ⟨t6, hspaces, hd⟩ := Option.bind_eq_some_iff.mp hd
    obtain ⟨⟨hour, t7⟩, hhour, hd⟩ := Option.bind_eq_some_iff.mp hd
    obtain ⟨t8, hcolon, hd⟩ := Option.bind_eq_some_iff.mp hd
    obtain ⟨⟨minute, t9⟩, hminute, hd⟩ := Option.bind_eq_some_iff.mp hd
    obtain ⟨t10, hcolon', hd⟩ := Option.bind_eq_some_iff.mp hd
    obtain ⟨⟨second, t11⟩, hsecond, hd⟩ := Option.bind_eq_some_iff.mp hd
    obtain ⟨t12, hdot, hd⟩ := Option.bind_eq_some_iff.mp hd
    obtain ⟨n, hfraction, -⟩ := Option.bind_eq_some_iff.mp hd
    have h11 := literal_chars hliteral.2.2 hdot (fraction_chars hfraction)
    have h9 := literal_chars hliteral.2.1 hcolon' (field_chars hsecond h11)
    have h7 := literal_chars hliteral.2.1 hcolon (field_chars hminute h9)
    have h5 := spaces_chars hspaces (field_chars hhour h7)
    have h3 := literal_chars hliteral.1 hdash' (dayField_chars hday h5)
    have h1 := literal_chars hliteral.1 hdash (field_chars hmonth h3)
    exact field_chars hyear h1 x hmem

end NavigationServer.Lib
