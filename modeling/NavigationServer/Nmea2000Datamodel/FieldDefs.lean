/-
NavigationServer.Nmea2000Datamodel.FieldDefs — the fields of a PGN definition.

A `FieldDef` is an element of the definition file: its class, the bits it takes
and what it says about scale and key. What the code asks a field (its bytes, its
`struct` format, whether it has a sign) is computed from that. A `BitField` holds
fields that do not fill bytes, one behind the other: `add_field` refuses every
other offset, so the offset of a sub field is the sum of the lengths before it.
Names, units, enumerations and descriptions are left out.
-/
import NavigationServer.Lib.Struct
import NavigationServer.RouterCommon.Exceptions

namespace NavigationServer.Nmea2000Datamodel

open NavigationServer.Lib

/-! ## 1. Formats -/

/-- `decode_uint_str`. -/
def decodeUintStr : Nat → Except Exn (List Slot)
  | 1 => .ok [⟨1, false⟩]
  | 2 => .ok [⟨2, false⟩]
  | 3 => .ok [⟨2, false⟩, ⟨1, false⟩]
  | 4 => .ok [⟨4, false⟩]
  | 8 => .ok [⟨8, false⟩]
  | _ => .error .keyError

/-- `decode_int_str`. -/
def decodeIntStr : Nat → Except Exn (List Slot)
  | 1 => .ok [⟨1, true⟩]
  | 2 => .ok [⟨2, true⟩]
  | 3 => .ok [⟨2, true⟩, ⟨1, true⟩]
  | 4 => .ok [⟨4, true⟩]
  | 8 => .ok [⟨8, true⟩]
  | _ => .error .keyError

theorem decodeUintStr_ok {n : Nat} {format : List Slot} (h : decodeUintStr n = .ok format) :
    calcsize format = n ∧ (decodeUintStr n).map List.length = .ok format.length ∧
      (decodeIntStr n).map List.length = .ok format.length := by
  unfold decodeUintStr at h
  split at h <;> cases h <;> exact ⟨rfl, rfl, rfl⟩

theorem decodeIntStr_ok {n : Nat} {format : List Slot} (h : decodeIntStr n = .ok format) :
    calcsize format = n ∧ (decodeIntStr n).map List.length = .ok format.length := by
  unfold decodeIntStr at h
  split at h <;> cases h <;> exact ⟨rfl, rfl⟩

/-! ## 2. Fields -/

inductive FieldClass where
  | uintField
  | instanceField
  | enumField
  | enumIntField
  | intField
  | dblField
  | udblField
  | varLengthStringField
  | fixLengthStringField
  | nameField
  | bytesField
  deriving DecidableEq, Repr

inductive DecodeMethod where
  | fixedLengthNumber
  | fixedLengthBytes
  | variableLengthBytes
  deriving DecidableEq, Repr

inductive PythonType where
  | int
  | float
  | str
  deriving DecidableEq, Repr

/-- `Field`. A length of 0 stands for one that varies. -/
structure FieldDef where
  fieldClass : FieldClass
  keyword : Option String
  bitOffset : Nat
  bitLength : Nat
  scale : Option ℚ
  offset : Option ℚ
  validationHook : Option String
  deriving DecidableEq, Repr

namespace FieldDef

def startByte (f : FieldDef) : Nat := f.bitOffset / 8

/-- The bytes that the bits need. -/
def byteLength (f : FieldDef) : Nat := (f.bitLength + 7) / 8

/-- A number that does not fill bytes. Numbers with a sign or a fraction, and
strings of variable length, are never taken for one. -/
def isBitValue (f : FieldDef) : Bool :=
  match f.fieldClass with
  | .intField | .dblField | .udblField | .varLengthStringField => false
  | _ => f.bitOffset % 8 ≠ 0 ∨ f.bitLength % 8 ≠ 0

def signed (f : FieldDef) : Bool :=
  match f.fieldClass with
  | .intField | .dblField => true
  | _ => false

def decodeMethod (f : FieldDef) : DecodeMethod :=
  match f.fieldClass with
  | .varLengthStringField => .variableLengthBytes
  | .fixLengthStringField | .bytesField => .fixedLengthBytes
  | _ => .fixedLengthNumber

/-- `decode_string`, as the slots that it stands for. -/
def decodeString (f : FieldDef) : Except Exn (List Slot) :=
  match f.fieldClass with
  | .uintField | .instanceField | .enumField | .enumIntField =>
      if f.isBitValue then .error .valueError else decodeUintStr f.byteLength
  | .intField | .dblField => decodeIntStr f.byteLength
  | .udblField => decodeUintStr f.byteLength
  | .nameField => .ok [⟨8, false⟩]
  | .varLengthStringField | .fixLengthStringField | .bytesField => .error .notImplementedError

/-- `nb_decode_slots`. The class of all fields says one. -/
def nbDecodeSlots (f : FieldDef) : Except Exn Nat :=
  match f.fieldClass with
  | .uintField | .instanceField | .intField | .dblField =>
      (decodeIntStr f.byteLength).map List.length
  | .enumField | .enumIntField | .udblField => (decodeUintStr f.byteLength).map List.length
  | .varLengthStringField | .fixLengthStringField | .nameField | .bytesField => .ok 1

/-- A number has the slots of its format. -/
theorem nbDecodeSlots_of_decodeString {f : FieldDef} {format : List Slot}
    (h : f.decodeString = .ok format) : f.nbDecodeSlots = .ok format.length := by
  unfold decodeString at h
  unfold nbDecodeSlots
  cases hclass : f.fieldClass with
  | uintField | instanceField =>
    simp only [hclass] at h ⊢
    split at h
    · cases h
    · exact (decodeUintStr_ok h).2.2
  | enumField | enumIntField =>
    simp only [hclass] at h ⊢
    split at h
    · cases h
    · exact (decodeUintStr_ok h).2.1
  | intField | dblField =>
    simp only [hclass] at h ⊢
    exact (decodeIntStr_ok h).2
  | udblField =>
    simp only [hclass] at h ⊢
    exact (decodeUintStr_ok h).2.1
  | nameField =>
    simp only [hclass] at h ⊢
    cases h
    rfl
  | varLengthStringField | fixLengthStringField | bytesField =>
    simp only [hclass] at h
    cases h

def pythonType (f : FieldDef) : Except Exn PythonType :=
  match f.fieldClass with
  | .uintField | .instanceField | .enumField | .enumIntField | .intField => .ok .int
  | .dblField | .udblField => .ok .float
  | .varLengthStringField | .fixLengthStringField => .ok .str
  | .nameField | .bytesField => .error .notImplementedError

/-- All bits set, of the bits without the sign. -/
def invalidValue (f : FieldDef) : Nat :=
  if f.signed then 2 ^ (f.bitLength - 1) - 1 else 2 ^ f.bitLength - 1

end FieldDef

/-! ## 3. Bit fields -/

/-- A field in a bit field, with its offset there. -/
structure BitFieldDef where
  field : FieldDef
  bitOffset : Nat
  deriving DecidableEq, Repr

structure BitField where
  startByte : Nat
  fields : List FieldDef
  deriving DecidableEq, Repr

/-- The fields, the first one at `offset`. -/
def subFieldsFrom : Nat → List FieldDef → List BitFieldDef
  | _, [] => []
  | offset, f :: fields => ⟨f, offset⟩ :: subFieldsFrom (offset + f.bitLength) fields

namespace BitField

def subFields (b : BitField) : List BitFieldDef := subFieldsFrom 0 b.fields

/-- The length that `finalize` computes. -/
def byteLength (b : BitField) : Nat := ((b.fields.map FieldDef.bitLength).sum + 7) / 8

def decodeString (b : BitField) : Except Exn (List Slot) := decodeUintStr b.byteLength

def nbDecodeSlots (b : BitField) : Except Exn Nat := (decodeUintStr b.byteLength).map List.length

end BitField

/-! ## 4. Lists of fields -/

/-- What stands in the list of a definition, or of a repeated set. -/
inductive FieldItem where
  | field (f : FieldDef)
  | bitField (b : BitField)
  deriving DecidableEq, Repr

/-- `countMethod` is the key of the field that tells how often the set comes. -/
structure RepeatedFieldSet where
  keyword : String
  countMethod : String
  fieldList : List FieldItem
  deriving DecidableEq, Repr

end NavigationServer.Nmea2000Datamodel
