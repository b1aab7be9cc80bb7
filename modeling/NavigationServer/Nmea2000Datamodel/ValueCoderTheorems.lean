/-
NavigationServer.Nmea2000Datamodel.ValueCoderTheorems — which coders undo
themselves.

The coders without a sign, and those with a sign whose format has one slot,
write a number that they read back. The signed coder of three bytes has a format
of two slots and gives it one number, so it never writes. A coder with a sign
does not look for the missing value when it decodes, and `no_value` has all bits
set whatever the sign: a signed integer field refuses it.
-/
import NavigationServer.Nmea2000Datamodel.ValueCoders

namespace NavigationServer.Nmea2000Datamodel

open NavigationServer.Lib

namespace ValueCoder

/-! ## 1. What is said of a coder -/

/-- The range of the numbers that a coder takes. -/
def Accepts (coder : ValueCoder) (value : Int) : Prop :=
  if coder.isSigned then minValue coder.length ≤ value ∧ value ≤ maxValue coder.length
  else 0 ≤ value ∧ value ≤ invalidValue coder.length

/-- The number that stands for a missing value. -/
def reserved (coder : ValueCoder) : Int :=
  if coder.isSigned then maxValue coder.length else invalidValue coder.length

/-- Its bytes. -/
def reservedPattern (coder : ValueCoder) : Bytes := toLE coder.length coder.reserved.toNat

/-- The number is written on the bytes of the coder, which read back as the
number, and the rest of the buffer stays. -/
def RoundTrips (coder : ValueCoder) (value : Int) (buffer : Bytes) (index : Nat) : Prop :=
  ∃ data, data.length = coder.length ∧
    coder.encode value buffer index = .ok (coder.length,
      buffer.take index ++ (data ++ buffer.drop (index + coder.length))) ∧
    coder.decode data = .ok value

/-! ## 2. Writing and reading -/

variable {coder : ValueCoder} {buffer : Bytes} {index : Nat} {value : Int}

theorem invalidValue_add_one (length : Nat) : invalidValue length + 1 = 256 ^ length := by
  rw [invalidValue, Int.sub_add_cancel, Nat.mul_comm, pow_mul]
  rfl

theorem pow_length_mul {length : Nat} (h : 0 < length) :
    (256 : Int) ^ length = 2 * 2 ^ (length * 8 - 1) := by
  rw [← pow_succ', show length * 8 - 1 + 1 = 8 * length by omega, pow_mul]
  rfl

theorem structUnpack_eq_ok {format : List Slot} {data : Bytes} {values : List Int}
    (h : unpack format data = some values) : structUnpack format data = .ok values := by
  rw [structUnpack, h]

/-- Numbers that fit their slots are written and read back. -/
theorem structPackInto_fits {format : List Slot} {values : List Int}
    (h : FitAll format values) (hroom : index + calcsize format ≤ buffer.length) :
    ∃ data, data.length = calcsize format ∧
      structPackInto format buffer index values = .ok (calcsize format,
        buffer.take index ++ (data ++ buffer.drop (index + calcsize format))) ∧
      structUnpack format data = .ok values := by
  obtain ⟨buffer', hpack⟩ := Option.isSome_iff_exists.mp ((packInto_isSome_iff hroom).mpr h)
  obtain ⟨data, rfl, hlength, -, hunpack⟩ := packInto_eq_some hpack
  exact ⟨data, hlength, by rw [structPackInto, hpack], structUnpack_eq_ok hunpack⟩

theorem decode_unsigned {length : Nat} {format : List Slot} {process : List Int → Except Exn Int}
    {data : Bytes} {vd : List Int} (hunpack : structUnpack format data = .ok vd)
    (hprocess : process vd = .ok value) :
    (unsigned length format process).decode data
      = if value = invalidValue length then .error .valueError else .ok value := by
  rw [decode, hunpack]
  change (process vd >>= _) = _
  rw [hprocess]
  change (if value = invalidValue length then _ else _) = _
  split <;> rfl

theorem encode_unsigned {length : Nat} {format : List Slot} {process : List Int → Except Exn Int}
    (h : 0 ≤ value ∧ value ≤ invalidValue length) :
    (unsigned length format process).encode value buffer index
      = if length = 3 then
          structPackInto format buffer index [value % 0x10000, value / 0x10000 % 0x100]
        else structPackInto format buffer index [value] := by
  have hmod : value % (invalidValue length + 1) = value := Int.emod_eq_of_lt h.1 (by omega)
  rw [encode]
  simp only [hmod]

/-- A coder without a sign, of one slot. -/
theorem roundTrips_firstSlot {length : Nat} (hlength : length ≠ 3)
    (hroom : index + length ≤ buffer.length) (h : 0 ≤ value ∧ value ≤ invalidValue length)
    (hvalue : value ≠ invalidValue length) :
    (unsigned length [⟨length, false⟩] firstSlot).RoundTrips value buffer index := by
  have hpow := invalidValue_add_one length
  have hfits : FitAll [⟨length, false⟩] [value] := by
    refine List.Forall₂.cons ?_ List.Forall₂.nil
    change 0 ≤ value ∧ value < 256 ^ length
    omega
  obtain ⟨data, hdata, hpack, hunpack⟩ := structPackInto_fits hfits hroom
  refine ⟨data, hdata, ?_, ?_⟩
  · rw [encode_unsigned h, if_neg hlength]
    exact hpack
  · rw [decode_unsigned hunpack rfl, if_neg hvalue]

/-- The coder of three bytes without a sign. -/
theorem roundTrips_twoSlots (hroom : index + 3 ≤ buffer.length)
    (h : 0 ≤ value ∧ value ≤ invalidValue 3) (hvalue : value ≠ invalidValue 3) :
    (unsigned 3 [⟨2, false⟩, ⟨1, false⟩] twoSlots).RoundTrips value buffer index := by
  have hfits : FitAll [⟨2, false⟩, ⟨1, false⟩] [value % 0x10000, value / 0x10000 % 0x100] := by
    refine List.Forall₂.cons ?_ (List.Forall₂.cons ?_ List.Forall₂.nil)
    · change 0 ≤ value % 0x10000 ∧ value % 0x10000 < 0x10000
      omega
    · change 0 ≤ value / 0x10000 % 0x100 ∧ value / 0x10000 % 0x100 < 0x100
      omega
  have hmax : invalidValue 3 = 0xFFFFFF := rfl
  have hsum : value % 0x10000 + value / 0x10000 % 0x100 * 0x10000 = value := by omega
  obtain ⟨data, hdata, hpack, hunpack⟩ := structPackInto_fits hfits hroom
  refine ⟨data, hdata, ?_, ?_⟩
  · rw [encode_unsigned h, if_pos rfl]
    exact hpack
  · rw [decode_unsigned hunpack (congrArg Except.ok hsum), if_neg hvalue]

/-- A coder with a sign, of one slot. -/
theorem roundTrips_signed {length : Nat} (hlength : 0 < length)
    (hroom : index + length ≤ buffer.length) (h : minValue length ≤ value ∧ value ≤ maxValue length) :
    (signed length [⟨length, true⟩]).RoundTrips value buffer index := by
  have hpow := pow_length_mul hlength
  have hfits : FitAll [⟨length, true⟩] [value] := by
    refine List.Forall₂.cons ?_ List.Forall₂.nil
    unfold minValue maxValue at h
    change -(256 ^ length) ≤ 2 * value ∧ 2 * value < 256 ^ length
    omega
  obtain ⟨data, hdata, hpack, hunpack⟩ := structPackInto_fits hfits hroom
  refine ⟨data, hdata, ?_, ?_⟩
  · rw [encode, if_neg (by omega)]
    exact hpack
  · rw [decode, hunpack]
    rfl

/-- The signed coder of three bytes has a slot more than numbers. -/
theorem encode_twoSlots_error (value : Int) (buffer : Bytes) (index : Nat) :
    ∃ e, (signed 3 [⟨2, true⟩, ⟨1, true⟩]).encode value buffer index = .error e := by
  have hpack : packInto [⟨2, true⟩, ⟨1, true⟩] buffer index [value] = none := by
    unfold packInto
    split
    · rw [pack]
      split <;> rfl
    · rfl
  rw [encode]
  split
  · exact ⟨_, rfl⟩
  · exact ⟨_, by rw [structPackInto, hpack]⟩

/-- **What the coders undo**: all but the signed one of three bytes. -/
theorem roundTrips_iff (hentry : DecodeDefinitions.Entry coder)
    (hroom : index + coder.length ≤ buffer.length) (haccepts : coder.Accepts value)
    (hvalue : value ≠ coder.reserved) :
    coder.RoundTrips value buffer index ↔ ¬ (coder.isSigned ∧ coder.length = 3) := by
  obtain ⟨length, hint | huint⟩ := hentry
  · unfold DecodeDefinitions.intTable at hint
    split at hint <;> cases hint
    case h_3 =>
      refine iff_of_false ?_ (fun h => h ⟨rfl, rfl⟩)
      rintro ⟨data, -, hencode, -⟩
      obtain ⟨e, he⟩ := encode_twoSlots_error value buffer index
      rw [he] at hencode
      cases hencode
    all_goals
      exact iff_of_true (roundTrips_signed (by decide) hroom haccepts) (fun h => absurd h.2 (by decide))
  · unfold DecodeDefinitions.uintTable at huint
    split at huint <;> cases huint
    case h_3 =>
      exact iff_of_true (roundTrips_twoSlots hroom haccepts hvalue) (fun h => absurd h.1 (by decide))
    all_goals
      exact iff_of_true (roundTrips_firstSlot (by decide) hroom haccepts hvalue)
        (fun h => absurd h.1 (by decide))

/-! ## 3. Missing values -/

theorem decode_reservedPattern_signed (hentry : DecodeDefinitions.Entry coder)
    (hsigned : coder.isSigned) : ∃ value, coder.decode coder.reservedPattern = .ok value := by
  obtain ⟨length, hint | huint⟩ := hentry
  · unfold DecodeDefinitions.intTable at hint
    split at hint <;> cases hint
    all_goals exact ⟨_, rfl⟩
  · unfold DecodeDefinitions.uintTable at huint
    split at huint <;> cases huint
    all_goals cases hsigned

/-- All bits set are read as all bits set. -/
theorem decode_firstSlot_reserved (length : Nat) :
    (unsigned length [⟨length, false⟩] firstSlot).decode (toLE length (invalidValue length).toNat)
      = .error .valueError := by
  have hpow := invalidValue_add_one length
  have hpos : (0 : Int) < 256 ^ length := by positivity
  have hvalue : ((invalidValue length).toNat : Int) = invalidValue length := by omega
  have hlt : (invalidValue length).toNat < 256 ^ length := by
    zify
    omega
  have hread : structUnpack [⟨length, false⟩] (toLE length (invalidValue length).toNat)
      = .ok [invalidValue length] := by
    refine structUnpack_eq_ok ((unpack_toLE (s := ⟨length, false⟩) hlt).trans ?_)
    exact congrArg (fun v => some [v]) hvalue
  rw [decode_unsigned hread rfl, if_pos rfl]

theorem decode_reservedPattern_unsigned (hentry : DecodeDefinitions.Entry coder)
    (hsigned : coder.isSigned = false) : coder.decode coder.reservedPattern = .error .valueError := by
  obtain ⟨length, hint | huint⟩ := hentry
  · unfold DecodeDefinitions.intTable at hint
    split at hint <;> cases hint
    all_goals cases hsigned
  · unfold DecodeDefinitions.uintTable at huint
    split at huint <;> cases huint
    case h_3 =>
      have hread : structUnpack [⟨2, false⟩, ⟨1, false⟩] (toLE 3 0xFFFFFF) = .ok [0xFFFF, 0xFF] := by
        decide
      have hprocess : twoSlots [0xFFFF, 0xFF] = .ok (invalidValue 3) := rfl
      exact (decode_unsigned hread hprocess).trans (if_pos rfl)
    all_goals exact decode_firstSlot_reserved _

/-- **Which coders report a missing value**: those without a sign. -/
theorem extractValue_reservedPattern_iff (hentry : DecodeDefinitions.Entry coder) {payload : Bytes}
    {start stop : Nat} (h : slice payload start stop = coder.reservedPattern) :
    FieldDef.extractValue (some coder) payload start stop = .ok none ↔ coder.isSigned = false := by
  unfold FieldDef.extractValue
  simp only [h]
  cases hsigned : coder.isSigned with
  | true =>
    obtain ⟨value, hvalue⟩ := decode_reservedPattern_signed hentry hsigned
    simp [hvalue]
  | false => simp [decode_reservedPattern_unsigned hentry hsigned]

/-! ## 4. What is written -/

theorem structPackInto_of_pack {format : List Slot} {values : List Int} {data : Bytes}
    (h : pack format values = some data) (hroom : index + calcsize format ≤ buffer.length) :
    structPackInto format buffer index values = .ok (calcsize format,
      buffer.take index ++ (data ++ buffer.drop (index + calcsize format))) := by
  rw [structPackInto, packInto, if_pos hroom, h]
  rfl

/-- The two slots of three bytes. -/
theorem toLE_three (n : Nat) : toLE 2 (n % 0x10000) ++ toLE 1 (n / 0x10000 % 0x100) = toLE 3 n := by
  have hbyte : ∀ a b : Nat, a % 256 = b % 256 → UInt8.ofNat a = UInt8.ofNat b := by
    intro a b h
    apply UInt8.toNat_inj.mp
    simpa using h
  simp only [toLE_succ, toLE_zero, List.cons_append, List.nil_append]
  rw [hbyte (n % 0x10000) n (by omega), hbyte (n % 0x10000 / 256) (n / 256) (by omega),
    hbyte (n / 0x10000 % 0x100) (n / 256 / 256) (by omega)]

/-- A coder without a sign writes the low bytes of any number. -/
theorem encode_firstSlot {length : Nat} (hlength : length ≠ 3)
    (hroom : index + length ≤ buffer.length) (value : Int) :
    (unsigned length [⟨length, false⟩] firstSlot).encode value buffer index = .ok (length,
      buffer.take index ++ (toLE length (toUnsigned length value) ++ buffer.drop (index + length))) := by
  have hpos : (0 : Int) < 256 ^ length := by positivity
  have hfits : Slot.Fits ⟨length, false⟩ (value % 256 ^ length) :=
    ⟨Int.emod_nonneg _ (Int.ne_of_gt hpos), Int.emod_lt_of_pos _ hpos⟩
  have hsame : toUnsigned length (value % 256 ^ length) = toUnsigned length value := by
    rw [toUnsigned, Int.emod_emod_of_dvd _ (dvd_refl _), toUnsigned]
  rw [encode]
  simp only [if_neg hlength, invalidValue_add_one]
  rw [← hsame]
  exact structPackInto_of_pack (pack_singleton hfits) hroom

theorem encode_twoSlots (hroom : index + 3 ≤ buffer.length) (value : Int) :
    (unsigned 3 [⟨2, false⟩, ⟨1, false⟩] twoSlots).encode value buffer index = .ok (3,
      buffer.take index ++ (toLE 3 (toUnsigned 3 value) ++ buffer.drop (index + 3))) := by
  have hpow : invalidValue 3 + 1 = 0x1000000 := rfl
  have hpack : pack [⟨2, false⟩, ⟨1, false⟩]
      [value % 0x1000000 % 0x10000, value % 0x1000000 / 0x10000 % 0x100]
        = some (toLE 3 (toUnsigned 3 value)) := by
    have hlow : Slot.Fits ⟨2, false⟩ (value % 0x1000000 % 0x10000) := by
      change 0 ≤ value % 0x1000000 % 0x10000 ∧ value % 0x1000000 % 0x10000 < 0x10000
      omega
    have hhigh : Slot.Fits ⟨1, false⟩ (value % 0x1000000 / 0x10000 % 0x100) := by
      change 0 ≤ value % 0x1000000 / 0x10000 % 0x100 ∧ value % 0x1000000 / 0x10000 % 0x100 < 0x100
      omega
    have hnat : toUnsigned 3 value = (value % 0x1000000).toNat := rfl
    have hfirst : toUnsigned 2 (value % 0x1000000 % 0x10000) = toUnsigned 3 value % 0x10000 := by
      change (value % 0x1000000 % 0x10000 % 0x10000).toNat = _
      rw [hnat]
      omega
    have hsecond : toUnsigned 1 (value % 0x1000000 / 0x10000 % 0x100)
        = toUnsigned 3 value / 0x10000 % 0x100 := by
      change (value % 0x1000000 / 0x10000 % 0x100 % 0x100).toNat = _
      rw [hnat]
      omega
    rw [pack_cons_of_fits _ _ hlow, pack_singleton hhigh, Option.map_some, hfirst, hsecond, toLE_three]
  rw [encode]
  simp only [hpow]
  exact structPackInto_of_pack hpack hroom

theorem encode_uintTable {length : Nat} (h : DecodeDefinitions.uintTable length = .ok coder)
    (hroom : index + length ≤ buffer.length) (value : Int) :
    coder.encode value buffer index = .ok (length,
      buffer.take index ++ (toLE length (toUnsigned length value) ++ buffer.drop (index + length))) := by
  unfold DecodeDefinitions.uintTable at h
  split at h <;> cases h
  case h_3 => exact encode_twoSlots hroom value
  all_goals exact encode_firstSlot (by decide) hroom value

theorem toUnsigned_maxValue {length : Nat} (h : 0 < length) :
    toUnsigned length (maxValue length) = (maxValue length).toNat := by
  have hpow := pow_length_mul h
  have hpos : (0 : Int) < 2 ^ (length * 8 - 1) := by positivity
  rw [toUnsigned, Int.emod_eq_of_lt (by unfold maxValue; omega) (by unfold maxValue; omega)]

/-- The word of a number with a sign is that of the greatest one for this only. -/
theorem toLE_eq_maxValue_iff {length : Nat} (hlength : 0 < length)
    (h : minValue length ≤ value ∧ value ≤ maxValue length) :
    toLE length (toUnsigned length value) = toLE length (maxValue length).toNat
      ↔ value = maxValue length := by
  have hpow := pow_length_mul hlength
  have hpos : (0 : Int) < 2 ^ (length * 8 - 1) := by positivity
  have hback : ∀ v, minValue length ≤ v → v ≤ maxValue length →
      ofUnsigned length (toUnsigned length v) = v := by
    intro v hlow hhigh
    unfold minValue maxValue at hlow
    unfold maxValue at hhigh
    exact ofUnsigned_toUnsigned (by omega) (by omega)
  rw [← toUnsigned_maxValue hlength, toLE_inj (toUnsigned_lt _ _) (toUnsigned_lt _ _)]
  constructor
  · intro hsame
    rw [← hback value h.1 h.2, hsame, hback _ (h.1.trans h.2) (Int.le_refl _)]
  · exact congrArg (toUnsigned length)

/-- A coder with a sign, of one slot, writes the missing value for one number
only. -/
theorem encode_signed_iff {length : Nat} (hlength : 0 < length)
    (hroom : index + length ≤ buffer.length) (value : Int) :
    (signed length [⟨length, true⟩]).encode value buffer index = .ok (length, buffer.take index ++
        (toLE length (maxValue length).toNat ++ buffer.drop (index + length)))
      ↔ value = maxValue length := by
  have hpow := pow_length_mul hlength
  have hpos : (0 : Int) < 2 ^ (length * 8 - 1) := by positivity
  rw [encode]
  split
  · rename_i hrange
    refine iff_of_false (fun h => ?_) (fun h => ?_)
    · cases h
    · subst h
      unfold minValue maxValue at hrange
      omega
  · rename_i hrange
    have hrange : minValue length ≤ value ∧ value ≤ maxValue length := by omega
    have hfits : Slot.Fits ⟨length, true⟩ value := by
      unfold minValue maxValue at hrange
      change -(256 ^ length) ≤ 2 * value ∧ 2 * value < 256 ^ length
      omega
    rw [structPackInto_of_pack (pack_singleton hfits) hroom, ← toLE_eq_maxValue_iff hlength hrange]
    constructor
    · intro h
      have hbuffer := congrArg Prod.snd (Except.ok.inj h)
      exact List.append_cancel_right (List.append_cancel_left hbuffer)
    · intro h
      rw [← h]
      rfl

/-- A coder with a sign writes the missing value for one number only, and the one
of three bytes never. -/
theorem encode_intTable_iff {length : Nat} (h : DecodeDefinitions.intTable length = .ok coder)
    (hroom : index + length ≤ buffer.length) (value : Int) :
    coder.encode value buffer index = .ok (length, buffer.take index ++
        (toLE length (maxValue length).toNat ++ buffer.drop (index + length)))
      ↔ length ≠ 3 ∧ value = maxValue length := by
  unfold DecodeDefinitions.intTable at h
  split at h <;> cases h
  case h_3 =>
    obtain ⟨e, he⟩ := encode_twoSlots_error value buffer index
    refine iff_of_false (fun h => ?_) (fun h => h.1 rfl)
    rw [he] at h
    cases h
  all_goals
    rw [encode_signed_iff (by decide) hroom]
    exact (and_iff_right (by decide)).symm

end ValueCoder

/-! ## 5. Fields -/

namespace FieldDef

variable {F : Type}

/-- The bytes of a missing value: all bits set but the sign. -/
def reservedPattern (f : FieldDef) : Bytes :=
  toLE f.byteLength (if f.signed then ValueCoder.maxValue f.byteLength else ValueCoder.invalidValue f.byteLength).toNat

/-- `encode_value` of `no_value` writes the pattern, and leaves the rest. -/
def WritesNoValue (ops : FloatOps F) (f : FieldDef) (buffer : Bytes) (index : Nat) : Prop :=
  ∃ value, f.noValue = .ok value ∧
    f.encodeValue ops value buffer index = .ok (f.byteLength,
      buffer.take index ++ (f.reservedPattern ++ buffer.drop (index + f.byteLength)))

/-- The class of a field takes all bits set for a missing value. The fields with
a fraction scale it first. -/
def NoValueFits (ops : FloatOps F) (f : FieldDef) : Prop :=
  match f.fieldClass with
  | .uintField | .instanceField | .enumField | .enumIntField | .bytesField => True
  | .udblField => ∃ scaled, f.convertToInt ops (ValueCoder.invalidValue f.byteLength) = .ok scaled ∧
      scaled % 256 ^ f.byteLength = ValueCoder.invalidValue f.byteLength
  | .dblField => f.byteLength ≠ 3 ∧
      f.convertToInt ops (ValueCoder.invalidValue f.byteLength) = .ok (ValueCoder.maxValue f.byteLength)
  | .intField | .varLengthStringField | .fixLengthStringField | .nameField => False

variable {f : FieldDef} {buffer : Bytes} {index : Nat}

theorem noValue_eq (hlow : 1 ≤ f.byteLength) (hhigh : f.byteLength ≤ 4) :
    f.noValue = .ok (ValueCoder.invalidValue f.byteLength).toNat := by
  rw [noValue, if_pos hhigh]
  generalize f.byteLength = length at hlow hhigh
  interval_cases length <;> rfl

theorem toNat_invalidValue (length : Nat) :
    ((ValueCoder.invalidValue length).toNat : Int) = ValueCoder.invalidValue length := by
  have hpow := ValueCoder.invalidValue_add_one length
  have hpos : (0 : Int) < 256 ^ length := by positivity
  omega

theorem encodeInt_signed_iff (hclass : f.fieldClass = .intField ∨ f.fieldClass = .dblField)
    (hlow : 1 ≤ f.byteLength) (hhigh : f.byteLength ≤ 4)
    (hroom : index + f.byteLength ≤ buffer.length) (value : Int) :
    f.encodeInt value buffer index = .ok (f.byteLength,
        buffer.take index ++ (f.reservedPattern ++ buffer.drop (index + f.byteLength)))
      ↔ f.byteLength ≠ 3 ∧ value = ValueCoder.maxValue f.byteLength := by
  obtain ⟨coder, hcoder⟩ : ∃ coder, DecodeDefinitions.intTable f.byteLength = .ok coder := by
    generalize f.byteLength = length at hlow hhigh
    interval_cases length <;> exact ⟨_, rfl⟩
  have hvalue : f.valueCoder = .ok (some coder) := by
    rcases hclass with h | h <;> simp only [valueCoder, h, hcoder] <;> rfl
  have hsigned : f.signed = true := by
    rcases hclass with h | h <;> simp only [signed, h]
  rw [encodeInt, hvalue, reservedPattern, hsigned]
  exact ValueCoder.encode_intTable_iff hcoder hroom value

theorem encodeInt_unsigned_iff (hclass : f.signed = false)
    (hlow : 1 ≤ f.byteLength) (hhigh : f.byteLength ≤ 4)
    (hroom : index + f.byteLength ≤ buffer.length) (value : Int) :
    f.encodeInt value buffer index = .ok (f.byteLength,
        buffer.take index ++ (f.reservedPattern ++ buffer.drop (index + f.byteLength)))
      ↔ value % 256 ^ f.byteLength = ValueCoder.invalidValue f.byteLength := by
  obtain ⟨coder, hcoder⟩ : ∃ coder, DecodeDefinitions.uintTable f.byteLength = .ok coder := by
    generalize f.byteLength = length at hlow hhigh
    interval_cases length <;> exact ⟨_, rfl⟩
  have hvalue : f.valueCoder = .ok (some coder) := by
    unfold valueCoder
    split
    · rename_i h
      simp [signed, h] at hclass
    · rename_i h
      simp [signed, h] at hclass
    · rw [if_pos ⟨hlow, hhigh⟩, hcoder]
      rfl
  have hencode : f.encodeInt value buffer index = coder.encode value buffer index := by
    rw [encodeInt, hvalue]
    rfl
  have hpow := ValueCoder.invalidValue_add_one f.byteLength
  have hpos : (0 : Int) < 256 ^ f.byteLength := by positivity
  have hcast := toNat_invalidValue f.byteLength
  have hlt : (ValueCoder.invalidValue f.byteLength).toNat < 256 ^ f.byteLength := by
    zify
    omega
  rw [hencode, ValueCoder.encode_uintTable hcoder hroom, reservedPattern, hclass, ← hcast,
    ← natCast_toUnsigned]
  norm_cast
  rw [← toLE_inj (toUnsigned_lt _ _) hlt]
  constructor
  · intro h
    have hbuffer := congrArg Prod.snd (Except.ok.inj h)
    exact List.append_cancel_right (List.append_cancel_left hbuffer)
  · intro h
    rw [h]
    rfl

/-- **Which fields write a missing value.** -/
theorem writesNoValue_iff (ops : FloatOps F) (hlow : 1 ≤ f.byteLength) (hhigh : f.byteLength ≤ 4)
    (hroom : index + f.byteLength ≤ buffer.length) :
    f.WritesNoValue ops buffer index ↔ f.NoValueFits ops := by
  have hwrites : f.WritesNoValue ops buffer index ↔
      f.encodeValue ops (ValueCoder.invalidValue f.byteLength) buffer index = .ok (f.byteLength,
        buffer.take index ++ (f.reservedPattern ++ buffer.drop (index + f.byteLength))) := by
    unfold WritesNoValue
    rw [noValue_eq hlow hhigh, ← toNat_invalidValue]
    constructor
    · rintro ⟨value, hvalue, h⟩
      cases hvalue
      exact h
    · intro h
      exact ⟨_, rfl, h⟩
  have hmod : ValueCoder.invalidValue f.byteLength % 256 ^ f.byteLength
      = ValueCoder.invalidValue f.byteLength := by
    have hpow := ValueCoder.invalidValue_add_one f.byteLength
    have hpos : (0 : Int) < 256 ^ f.byteLength := by positivity
    exact Int.emod_eq_of_lt (by omega) (by omega)
  rw [hwrites, NoValueFits]
  cases hclass : f.fieldClass with
  | uintField | instanceField | enumField | enumIntField | bytesField =>
    simp only [encodeValue, hclass]
    rw [encodeInt_unsigned_iff (by simp only [signed, hclass]) hlow hhigh hroom]
    exact iff_true_intro hmod
  | intField =>
    simp only [encodeValue, hclass]
    rw [encodeInt_signed_iff (Or.inl hclass) hlow hhigh hroom]
    refine iff_false_intro ?_
    rintro ⟨-, h⟩
    generalize f.byteLength = length at hlow hhigh h
    interval_cases length <;> exact absurd h (by decide)
  | udblField =>
    simp only [encodeValue, hclass]
    rw [bind_eq_ok]
    refine exists_congr fun scaled => and_congr_right fun _ => ?_
    exact encodeInt_unsigned_iff (by simp only [signed, hclass]) hlow hhigh hroom scaled
  | dblField =>
    simp only [encodeValue, hclass]
    rw [bind_eq_ok]
    constructor
    · rintro ⟨scaled, hscaled, h⟩
      obtain ⟨hthree, rfl⟩ := (encodeInt_signed_iff (Or.inr hclass) hlow hhigh hroom scaled).mp h
      exact ⟨hthree, hscaled⟩
    · rintro ⟨hthree, hscaled⟩
      exact ⟨_, hscaled, (encodeInt_signed_iff (Or.inr hclass) hlow hhigh hroom _).mpr ⟨hthree, rfl⟩⟩
  | varLengthStringField | fixLengthStringField | nameField =>
    simp only [encodeValue, hclass]
    exact iff_false_intro (fun h => by cases h)

end FieldDef

/-! ## 6. All coders and all fields -/

/-- **Where the coders undo themselves and a missing value is written.** The
signed coder of three bytes undoes nothing, no coder with a sign reports a
missing value, and a field writes it where its class takes all bits set. -/
theorem coders_iff {F : Type} (ops : FloatOps F) :
    (∀ coder, DecodeDefinitions.Entry coder → ∀ buffer index value,
      index + coder.length ≤ buffer.length → coder.Accepts value → value ≠ coder.reserved →
      (coder.RoundTrips value buffer index ↔ ¬ (coder.isSigned ∧ coder.length = 3))) ∧
    (∀ coder, DecodeDefinitions.Entry coder → ∀ (payload : Bytes) (start stop : Nat),
      slice payload start stop = coder.reservedPattern →
      (FieldDef.extractValue (some coder) payload start stop = .ok none ↔ coder.isSigned = false)) ∧
    (∀ f : FieldDef, 1 ≤ f.byteLength → f.byteLength ≤ 4 → ∀ (buffer : Bytes) (index : Nat),
      index + f.byteLength ≤ buffer.length →
      (f.WritesNoValue ops buffer index ↔ f.NoValueFits ops)) := by
  refine ⟨?_, ?_, ?_⟩
  · intro coder hentry buffer index value hroom haccepts hvalue
    exact ValueCoder.roundTrips_iff hentry hroom haccepts hvalue
  · intro coder hentry payload start stop h
    exact ValueCoder.extractValue_reservedPattern_iff hentry h
  · intro f hlow hhigh buffer index hroom
    exact FieldDef.writesNoValue_iff ops hlow hhigh hroom

/-- The field 'Verify Score', of eight bits with a sign. -/
def verifyScore : FieldDef := ⟨.intField, none, 40, 8, none, none, none⟩

/-- The number 1 is not written on three bytes with a sign; the reserved byte of
a number with a sign is read as 127; and 'Verify Score' does not write its
missing value. -/
theorem not_coders :
    (DecodeDefinitions.intTable 3 = .ok (.signed 3 [⟨2, true⟩, ⟨1, true⟩]) ∧
      ¬ (ValueCoder.signed 3 [⟨2, true⟩, ⟨1, true⟩]).RoundTrips 1 [0, 0, 0] 0) ∧
    (DecodeDefinitions.intTable 1 = .ok (.signed 1 [⟨1, true⟩]) ∧
      FieldDef.extractValue (some (.signed 1 [⟨1, true⟩])) [0x7F] 0 1 = .ok (some 127)) ∧
    ¬ verifyScore.WritesNoValue FloatOps.exact [0] 0 := by
  refine ⟨⟨rfl, ?_⟩, ⟨rfl, by decide⟩, ?_⟩
  · rintro ⟨data, -, hencode, -⟩
    obtain ⟨e, he⟩ := ValueCoder.encode_twoSlots_error 1 [0, 0, 0] 0
    rw [he] at hencode
    cases hencode
  · rw [FieldDef.writesNoValue_iff FloatOps.exact (by decide) (by decide) (by decide)]
    exact id

end NavigationServer.Nmea2000Datamodel
