/-
NavigationServer.Gnss.Conversions — where positions and times of day are exact.

`convert_latitude` and `convert_longitude` cut a field at fixed places, so they
take two decimals of the minutes and no more. `convert_time` takes two decimals
of the seconds for millionths, and asks for them. The two modules of the source
that convert have the same functions.

The data manager's model keeps of a conversion only whether it raises; a sentence
that it takes has the position that is converted here (`position_of_processGGA`).
-/
import NavigationServer.Gnss.GnssData
import NavigationServer.Lib.Fraction

namespace NavigationServer.Gnss

open NavigationServer.Lib

/-! ## 1. The conversions -/

section Conversions

variable {K : Type} [Field K] (float : Bytes → Option K)

/-- An angle of degrees, on the given number of digits, and minutes. It is
negative on the given hemisphere. -/
def convertDegrees (digits : Int) (negative indicator field : Bytes) : Except Exn K := do
  let degrees ← toFloat float (slice field 0 digits)
  let minutes ← toFloat float (slice field digits (digits + 5))
  let angle := degrees + minutes / 60
  return if indicator = negative then -angle else angle

def convertLatitude (nsIndicator latitude : Bytes) : Except Exn K :=
  convertDegrees float 2 (ascii "S") nsIndicator latitude

def convertLongitude (ewIndicator longitude : Bytes) : Except Exn K :=
  convertDegrees float 3 (ascii "W") ewIndicator longitude

/-- What raises does not depend on the hemisphere. -/
theorem convertAngle_eq (digits : Int) (negative indicator field : Bytes) :
    convertAngle float digits field
      = (convertDegrees float digits negative indicator field).map (fun _ => ()) := by
  unfold convertAngle convertDegrees
  cases toFloat float (slice field 0 digits) with
  | error e => rfl
  | ok degrees =>
    cases toFloat float (slice field digits (digits + 5)) with
    | error e => rfl
    | ok minutes => rfl

theorem convertDegrees_ok {digits : Int} {field : Bytes} (h : convertAngle float digits field = .ok ())
    (negative indicator : Bytes) : ∃ angle, convertDegrees float digits negative indicator field = .ok angle := by
  rw [convertAngle_eq float digits negative indicator] at h
  cases hangle : convertDegrees float digits negative indicator field with
  | error e =>
    rw [hangle] at h
    cases h
  | ok angle => exact ⟨angle, rfl⟩

/-- **A GGA sentence with a fix that is processed has a position.** -/
theorem position_of_processGGA [DecidableEq K] {m : GNSSDataManager K} {now : Time} {fields : List Bytes}
    (h : (m.processGGA float now "GN" fields).1 = .ok ()) :
    item fields 5 = .ok (ascii "0") ∨ ∃ latitude ns longitude ew x y,
      item fields 1 = .ok latitude ∧ item fields 2 = .ok ns ∧ item fields 3 = .ok longitude ∧
        item fields 4 = .ok ew ∧ convertLatitude float ns latitude = .ok x ∧
        convertLongitude float ew longitude = .ok y := by
  rw [GNSSDataManager.processGGA, if_neg (not_not_intro rfl)] at h
  cases hquality : item fields 5 with
  | error e =>
    rw [hquality] at h
    cases h
  | ok quality =>
    rw [hquality] at h
    dsimp only at h
    split at h
    · rename_i hzero
      exact .inl (congrArg _ hzero)
    · split at h
      · cases h
      · split at h
        · cases h
        · rename_i hposition
          obtain ⟨ns, hns, hposition⟩ := bind_eq_ok.mp hposition
          obtain ⟨latitude, hlatitude, hposition⟩ := bind_eq_ok.mp hposition
          obtain ⟨⟨⟩, hx, hposition⟩ := bind_eq_ok.mp hposition
          obtain ⟨ew, hew, hposition⟩ := bind_eq_ok.mp hposition
          obtain ⟨longitude, hlongitude, hposition⟩ := bind_eq_ok.mp hposition
          obtain ⟨⟨⟩, hy, -⟩ := bind_eq_ok.mp hposition
          obtain ⟨x, hlat⟩ := convertDegrees_ok float hx (ascii "S") ns
          obtain ⟨y, hlong⟩ := convertDegrees_ok float hy (ascii "W") ew
          exact .inr ⟨latitude, ns, longitude, ew, x, y, hlatitude, hns, hlongitude, hew, hlat, hlong⟩

end Conversions

end NavigationServer.Gnss

namespace NavigationServer.Nmea2000

open NavigationServer.Lib NavigationServer.Gnss

variable {K : Type} [Field K] (float : Bytes → Option K)

/-- `convert_time` of the converter. -/
def convertTime (time : Bytes) : Except Exn K := Gnss.convertTime time

/-- `convert_latitude` of the converter. -/
def convertLatitude (nsIndicator latitude : Bytes) : Except Exn K :=
  convertDegrees float 2 (ascii "S") nsIndicator latitude

/-- `convert_longitude` of the converter. -/
def convertLongitude (ewIndicator longitude : Bytes) : Except Exn K :=
  convertDegrees float 3 (ascii "W") ewIndicator longitude

end NavigationServer.Nmea2000

namespace NavigationServer.Gnss

open NavigationServer.Lib

/-! ## 2. What the fields stand for -/

/-- The digits of a number. -/
structure Digits (n : Nat) (text : Bytes) : Prop where
  digit : ∀ c ∈ text, isDigit c = true
  length : text.length = n

/-- The angle of a field, in degrees. -/
def angle (negative indicator degrees minutes decimals : Bytes) : ℚ :=
  let angle := decValue degrees + (decValue minutes + fractionValue decimals) / 60
  if indicator = negative then -angle else angle

/-- The time of day of a field, in seconds. -/
def timeOfDay (hours minutes seconds decimals : Bytes) : ℚ :=
  3600 * decValue hours + 60 * decValue minutes + (decValue seconds + fractionValue decimals)

/-! ## 3. Angles -/

section Angles

variable {n : Nat} {degrees minutes decimals : Bytes}

theorem Digits.ne_nil {text : Bytes} (h : Digits (n + 1) text) : text ≠ [] := by
  rintro rfl
  cases h.length

/-- The point and two decimals. -/
theorem take_pointText (decimals : Bytes) :
    (pointText decimals).take 3 = pointText (decimals.take 2) := by
  cases decimals with
  | nil => rfl
  | cons c decimals => rfl

theorem toFloat_pointText (h : Digits (n + 1) degrees) (hdecimals : ∀ c ∈ decimals, isDigit c = true) :
    toFloat floatOfDecimal (degrees ++ pointText decimals)
      = .ok (decValue degrees + fractionValue decimals) := by
  rw [toFloat, floatOfDecimal_pointText h.digit h.ne_nil hdecimals]

theorem toFloat_digits (h : Digits (n + 1) degrees) :
    toFloat floatOfDecimal degrees = .ok (decValue degrees : ℚ) := by
  have hnone : ∀ c ∈ ([] : Bytes), isDigit c = true := fun _ hc => absurd hc List.not_mem_nil
  have hread := toFloat_pointText h hnone
  have hzero : fractionValue [] = 0 := by simp [fractionValue, decValue]
  rw [hzero, add_zero] at hread
  rwa [show degrees ++ pointText [] = degrees from List.append_nil degrees] at hread

/-- **What is converted**: the minutes with two decimals. -/
theorem convertDegrees_eq (negative indicator : Bytes) (hdegrees : Digits (n + 1) degrees)
    (hminutes : Digits 2 minutes) (hdecimals : ∀ c ∈ decimals, isDigit c = true) :
    convertDegrees floatOfDecimal ((n + 1 : Nat) : Int) negative indicator
        (degrees ++ (minutes ++ pointText decimals))
      = .ok (angle negative indicator degrees minutes (decimals.take 2)) := by
  have hfirst : slice (degrees ++ (minutes ++ pointText decimals)) 0 ((n + 1 : Nat) : Int) = degrees := by
    rw [slice_zero, ← hdegrees.length, List.take_left]
  have hsecond : slice (degrees ++ (minutes ++ pointText decimals)) ((n + 1 : Nat) : Int)
      (((n + 1 : Nat) : Int) + 5) = minutes ++ pointText (decimals.take 2) := by
    rw [show ((n + 1 : Nat) : Int) + 5 = ((n + 1 + 5 : Nat) : Int) from rfl, slice_natCast,
      ← hdegrees.length, List.drop_left, Nat.add_sub_cancel_left, List.take_append, hminutes.length,
      List.take_of_length_le (by rw [hminutes.length]; decide), take_pointText]
  have htake : ∀ c ∈ decimals.take 2, isDigit c = true := fun c hc => hdecimals c (List.mem_of_mem_take hc)
  unfold convertDegrees
  rw [hfirst, hsecond, toFloat_digits hdegrees, toFloat_pointText hminutes htake]
  rfl

theorem angle_inj {negative indicator : Bytes} {a b : Bytes} :
    angle negative indicator degrees minutes a = angle negative indicator degrees minutes b
      ↔ fractionValue a = fractionValue b := by
  unfold angle
  split
  · rw [neg_inj, add_right_inj, div_left_inj' (by norm_num), add_right_inj]
  · rw [add_right_inj, div_left_inj' (by norm_num), add_right_inj]

/-- **Where an angle is exact**: the decimals from the third one on are zeros. -/
theorem convertDegrees_iff (negative indicator : Bytes) (hdegrees : Digits (n + 1) degrees)
    (hminutes : Digits 2 minutes) (hdecimals : ∀ c ∈ decimals, isDigit c = true) :
    convertDegrees floatOfDecimal ((n + 1 : Nat) : Int) negative indicator
        (degrees ++ (minutes ++ pointText decimals))
      = .ok (angle negative indicator degrees minutes decimals)
      ↔ ∀ c ∈ decimals.drop 2, c = 48 := by
  rw [convertDegrees_eq negative indicator hdegrees hminutes hdecimals, Except.ok.injEq, angle_inj,
    fractionValue_take_eq_iff hdecimals]

end Angles

/-! ## 4. Times of day -/

section Times

variable {hours minutes seconds decimals : Bytes}

theorem int10_digits {digits : Bytes} (h : ∀ c ∈ digits, isDigit c = true) (hne : digits ≠ []) :
    int10 digits = .ok (decValue digits : Int) := by
  rw [int10, intOfDecimal_digits h hne]

/-- What is cut out of a field, with the decimals behind the point. -/
theorem slices_time (hhours : Digits 2 hours) (hminutes : Digits 2 minutes)
    (hseconds : Digits 2 seconds) (decimals : Bytes) :
    slice (hours ++ (minutes ++ (seconds ++ pointText decimals))) 0 2 = hours ∧
      slice (hours ++ (minutes ++ (seconds ++ pointText decimals))) 2 4 = minutes ∧
      slice (hours ++ (minutes ++ (seconds ++ pointText decimals))) 4 6 = seconds ∧
      slice (hours ++ (minutes ++ (seconds ++ pointText decimals))) 7 9 = decimals.take 2 := by
  have hfirst := slice_append [] hours (minutes ++ (seconds ++ pointText decimals))
  have hsecond := slice_append hours minutes (seconds ++ pointText decimals)
  have hthird := slice_append (hours ++ minutes) seconds (pointText decimals)
  have hpoint : (pointText decimals).drop 1 = decimals := by
    cases decimals with
    | nil => rfl
    | cons c decimals => rfl
  have hfourth : slice (hours ++ (minutes ++ (seconds ++ pointText decimals))) ((7 : Nat) : Int)
      ((9 : Nat) : Int) = decimals.take 2 := by
    rw [slice_natCast, ← List.append_assoc, ← List.append_assoc, List.drop_append,
      List.drop_eq_nil_of_le (by simp [hhours.length, hminutes.length, hseconds.length]),
      List.nil_append, List.length_append, List.length_append, hhours.length, hminutes.length,
      hseconds.length, hpoint]
  rw [List.nil_append, List.length_nil, Nat.zero_add, hhours.length] at hfirst
  rw [hhours.length, hminutes.length] at hsecond
  rw [List.append_assoc, List.length_append, hhours.length, hminutes.length, hseconds.length] at hthird
  exact ⟨hfirst, hsecond, hthird, hfourth⟩

/-- **What is converted**: two decimals of the seconds, as millionths. -/
theorem convertTime_eq (hhours : Digits 2 hours) (hminutes : Digits 2 minutes)
    (hseconds : Digits 2 seconds) (hdecimals : ∀ c ∈ decimals, isDigit c = true)
    (hne : decimals ≠ []) :
    convertTime (K := ℚ) (hours ++ (minutes ++ (seconds ++ pointText decimals)))
      = .ok (3600 * decValue hours + 60 * decValue minutes
          + (decValue seconds + decValue (decimals.take 2) / 1000000)) := by
  obtain ⟨hfirst, hsecond, hthird, hfourth⟩ := slices_time hhours hminutes hseconds decimals
  have htake : decimals.take 2 ≠ [] := by
    intro h
    rcases List.take_eq_nil_iff.mp h with h | h
    · cases h
    · exact hne h
  unfold convertTime
  rw [hfirst, hsecond, hthird, hfourth, int10_digits hhours.digit hhours.ne_nil,
    int10_digits hminutes.digit hminutes.ne_nil, int10_digits hseconds.digit hseconds.ne_nil,
    int10_digits (fun c hc => hdecimals c (List.mem_of_mem_take hc)) htake]
  refine congrArg Except.ok ?_
  push_cast
  ring

/-- The millionths are the decimals when these are zeros. -/
theorem decValue_take_eq_iff (hdecimals : ∀ c ∈ decimals, isDigit c = true) :
    (decValue (decimals.take 2) / 1000000 : ℚ) = fractionValue decimals ↔ ∀ c ∈ decimals, c = 48 := by
  have htake : ∀ c ∈ decimals.take 2, isDigit c = true := fun c hc => hdecimals c (List.mem_of_mem_take hc)
  rw [← fractionValue_eq_zero_iff hdecimals]
  constructor
  · intro h
    have hle : fractionValue (decimals.take 2) ≤ fractionValue decimals := by
      have hsplit := fractionValue_append (decimals.take 2) (decimals.drop 2)
      rw [List.take_append_drop] at hsplit
      rw [hsplit]
      have hrest := fractionValue_nonneg (decimals.drop 2)
      linarith [show (0 : ℚ) ≤ fractionValue (decimals.drop 2) / 10 ^ (decimals.take 2).length by positivity]
    -- a hundredth is more than a millionth, so the first two decimals are zeros
    have hpow : (10 : ℚ) ^ (decimals.take 2).length ≤ 100 := by
      have hlength : (decimals.take 2).length ≤ 2 := List.length_take_le 2 decimals
      calc (10 : ℚ) ^ (decimals.take 2).length ≤ 10 ^ 2 := pow_le_pow_right₀ (by norm_num) hlength
        _ = 100 := by norm_num
    have hvalue : (0 : ℚ) ≤ decValue (decimals.take 2) := Nat.cast_nonneg _
    have hhundredths : (decValue (decimals.take 2) / 100 : ℚ) ≤ fractionValue (decimals.take 2) :=
      div_le_div_of_nonneg_left hvalue (by positivity) hpow
    linarith
  · intro h
    have hzero := (fractionValue_eq_zero_iff hdecimals).mp h
    have hnone := (decValue_eq_zero_iff htake).mpr fun c hc => hzero c (List.mem_of_mem_take hc)
    rw [hnone, h, Nat.cast_zero, zero_div]

/-- **Where a time of day is exact**: there are decimals, and all are zeros. -/
theorem convertTime_iff (hhours : Digits 2 hours) (hminutes : Digits 2 minutes)
    (hseconds : Digits 2 seconds) (hdecimals : ∀ c ∈ decimals, isDigit c = true) :
    convertTime (hours ++ (minutes ++ (seconds ++ pointText decimals)))
        = .ok (timeOfDay hours minutes seconds decimals)
      ↔ decimals ≠ [] ∧ ∀ c ∈ decimals, c = 48 := by
  by_cases hne : decimals = []
  · subst hne
    refine iff_of_false ?_ (fun h => h.1 rfl)
    obtain ⟨hfirst, hsecond, hthird, hfourth⟩ := slices_time hhours hminutes hseconds []
    unfold convertTime
    rw [hfirst, hsecond, hthird, hfourth, int10_digits hhours.digit hhours.ne_nil,
      int10_digits hminutes.digit hminutes.ne_nil, int10_digits hseconds.digit hseconds.ne_nil]
    intro h
    cases h
  · rw [convertTime_eq hhours hminutes hseconds hdecimals hne, Except.ok.injEq, timeOfDay,
      add_right_inj, add_right_inj, decValue_take_eq_iff hdecimals]
    exact (and_iff_right hne).symm

end Times

/-! ## 5. All fields -/

/-- **Where positions and times are exact**, in both modules: an angle where its
decimals from the third one on are zeros, and a time where it has decimals and
all of them are zeros. -/
theorem conversions_iff {decimals : Bytes} (hdecimals : ∀ c ∈ decimals, isDigit c = true) :
    (∀ convert ∈ [convertLatitude floatOfDecimal, Nmea2000.convertLatitude floatOfDecimal],
      ∀ nsIndicator degrees minutes : Bytes, Digits 2 degrees → Digits 2 minutes →
      (convert nsIndicator (degrees ++ (minutes ++ pointText decimals))
          = .ok (angle (ascii "S") nsIndicator degrees minutes decimals)
        ↔ ∀ c ∈ decimals.drop 2, c = 48)) ∧
    (∀ convert ∈ [convertLongitude floatOfDecimal, Nmea2000.convertLongitude floatOfDecimal],
      ∀ ewIndicator degrees minutes : Bytes, Digits 3 degrees → Digits 2 minutes →
      (convert ewIndicator (degrees ++ (minutes ++ pointText decimals))
          = .ok (angle (ascii "W") ewIndicator degrees minutes decimals)
        ↔ ∀ c ∈ decimals.drop 2, c = 48)) ∧
    (∀ convert ∈ [convertTime, Nmea2000.convertTime],
      ∀ hours minutes seconds : Bytes, Digits 2 hours → Digits 2 minutes → Digits 2 seconds →
      (convert (hours ++ (minutes ++ (seconds ++ pointText decimals)))
          = .ok (timeOfDay hours minutes seconds decimals)
        ↔ decimals ≠ [] ∧ ∀ c ∈ decimals, c = 48)) := by
  refine ⟨?_, ?_, ?_⟩
  · intro convert hconvert nsIndicator degrees minutes hdegrees hminutes
    rcases List.mem_pair.mp hconvert with rfl | rfl
    · exact convertDegrees_iff _ _ hdegrees hminutes hdecimals
    · exact convertDegrees_iff _ _ hdegrees hminutes hdecimals
  · intro convert hconvert ewIndicator degrees minutes hdegrees hminutes
    rcases List.mem_pair.mp hconvert with rfl | rfl
    · exact convertDegrees_iff _ _ hdegrees hminutes hdecimals
    · exact convertDegrees_iff _ _ hdegrees hminutes hdecimals
  · intro convert hconvert hours minutes seconds hhours hminutes hseconds
    rcases List.mem_pair.mp hconvert with rfl | rfl
    · exact convertTime_iff hhours hminutes hseconds hdecimals
    · exact convertTime_iff hhours hminutes hseconds hdecimals

theorem digits_pairs :
    ∀ text ∈ [ascii "47", ascii "17", ascii "12", ascii "35", ascii "19"], Digits 2 text := by
  simp only [List.forall_mem_cons]
  exact ⟨⟨List.all_eq_true.mp rfl, rfl⟩, ⟨List.all_eq_true.mp rfl, rfl⟩, ⟨List.all_eq_true.mp rfl, rfl⟩,
    ⟨List.all_eq_true.mp rfl, rfl⟩, ⟨List.all_eq_true.mp rfl, rfl⟩, fun _ h => absurd h List.not_mem_nil⟩

/-- The field 4717.50 and the time 123519.0. -/
theorem conversions_exact :
    convertLatitude floatOfDecimal (ascii "N") (ascii "47" ++ (ascii "17" ++ pointText [53, 48]))
        = .ok (angle (ascii "S") (ascii "N") (ascii "47") (ascii "17") [53, 48]) ∧
      convertTime (ascii "12" ++ (ascii "35" ++ (ascii "19" ++ pointText [48])))
        = .ok (timeOfDay (ascii "12") (ascii "35") (ascii "19") [48]) := by
  obtain ⟨hlatitude, -, -⟩ := conversions_iff (List.all_eq_true.mp (rfl : [53, 48].all isDigit = true))
  obtain ⟨-, -, htime⟩ := conversions_iff (List.all_eq_true.mp (rfl : [48].all isDigit = true))
  constructor
  · refine (hlatitude _ List.mem_cons_self _ _ _ (digits_pairs _ (by decide)) (digits_pairs _ (by decide))).mpr ?_
    exact fun c hc => absurd hc List.not_mem_nil
  · refine (htime _ List.mem_cons_self _ _ _ (digits_pairs _ (by decide)) (digits_pairs _ (by decide))
      (digits_pairs _ (by decide))).mpr ⟨List.cons_ne_nil _ _, ?_⟩
    exact List.forall_mem_singleton.mpr rfl

/-- The field 4717.11399 loses its last three decimals, half a second is read as
fifty millionths, and a time without decimals raises. -/
theorem not_conversions_exact :
    convertLatitude floatOfDecimal (ascii "N") (ascii "4717.11399")
        ≠ .ok (angle (ascii "S") (ascii "N") (ascii "47") (ascii "17") (ascii "11399")) ∧
      convertTime (ascii "123519.50")
        ≠ .ok (timeOfDay (ascii "12") (ascii "35") (ascii "19") (ascii "50")) ∧
      convertTime (ascii "123519") ≠ .ok (timeOfDay (ascii "12") (ascii "35") (ascii "19") []) := by
  have hdecimals : ∀ c ∈ ascii "11399", isDigit c = true := List.all_eq_true.mp rfl
  have htenths : ∀ c ∈ ascii "50", isDigit c = true := List.all_eq_true.mp rfl
  have hnone : ∀ c ∈ ([] : Bytes), isDigit c = true := fun _ hc => absurd hc List.not_mem_nil
  refine ⟨?_, ?_, ?_⟩
  · intro h
    have hzeros := (convertDegrees_iff (n := 1) (ascii "S") (ascii "N") (digits_pairs (ascii "47") (by decide))
      (digits_pairs (ascii "17") (by decide)) hdecimals).mp h
    exact absurd hzeros (by decide)
  · intro h
    have hzeros := (convertTime_iff (digits_pairs (ascii "12") (by decide)) (digits_pairs (ascii "35") (by decide))
      (digits_pairs (ascii "19") (by decide)) htenths).mp h
    exact absurd hzeros.2 (by decide)
  · intro h
    have hzeros := (convertTime_iff (digits_pairs (ascii "12") (by decide)) (digits_pairs (ascii "35") (by decide))
      (digits_pairs (ascii "19") (by decide)) hnone).mp h
    exact hzeros.1 rfl

end NavigationServer.Gnss
