/-
NavigationServer.CodeGeneration.Meta — the meta model of a PGN class.

`FieldSetMeta` cuts a list of fields into segments. Numbers that follow each
other are one segment, with the `struct` format of all of them and an attribute
for each number or sub field; a string is a segment of its own. An attribute
with a key becomes a slot of the class, and one without a key is reserved. A key
is the name of its slot without the underscore.
-/
import NavigationServer.Nmea2000Datamodel.FieldDefs

namespace NavigationServer.CodeGeneration

open NavigationServer.Lib NavigationServer.Nmea2000Datamodel

/-! ## 1. Attributes -/

/-- `ScalarAttributeDef` and `ReservedAttribute`, and the two classes of sub
fields with the place of the sub field in its bit field. `fieldIndex` is the
place of the first value in what `unpack` returns. -/
inductive Attribute where
  | scalar (field : FieldDef) (keyword : String) (fieldIndex : Nat)
  | reserved (field : FieldDef) (fieldIndex : Nat)
  | bitField (bitField : BitField) (subField : BitFieldDef) (keyword : String)
      (subFieldIndex fieldIndex : Nat)
  | reservedBitField (bitField : BitField) (subField : BitFieldDef) (subFieldIndex fieldIndex : Nat)
  deriving DecidableEq, Repr

namespace Attribute

/-- The key of an attribute that is not reserved. -/
def keyword : Attribute → Option String
  | .scalar _ keyword _ => some keyword
  | .bitField _ _ keyword _ _ => some keyword
  | .reserved .. | .reservedBitField .. => none

/-- `NMEA2000DecodedMsg.__slots__`, without the underscores. -/
def slotsOfBase : List String := ["sa", "da", "timestamp", "priority"]

/-- `AttributeDef.__init__` refuses the slots of the base class. -/
def checkKeyword (keyword : String) : Except Exn Unit :=
  if keyword ∈ slotsOfBase then .error .valueError else .ok ()

/-- The attribute of a number. -/
def ofField (f : FieldDef) (decodeIndex : Nat) : Except Exn Attribute :=
  match f.keyword with
  | none => .ok (.reserved f decodeIndex)
  | some keyword => do
      checkKeyword keyword
      return .scalar f keyword decodeIndex

/-- The attributes of a bit field, from a sub field on. -/
def ofSubFields (b : BitField) (decodeIndex : Nat) :
    Nat → List BitFieldDef → Except Exn (List Attribute)
  | _, [] => .ok []
  | subFieldIdx, subField :: subFields =>
      match subField.field.keyword with
      | none => do
          let others ← ofSubFields b decodeIndex (subFieldIdx + 1) subFields
          return .reservedBitField b subField subFieldIdx decodeIndex :: others
      | some keyword => do
          checkKeyword keyword
          let others ← ofSubFields b decodeIndex (subFieldIdx + 1) subFields
          return .bitField b subField keyword subFieldIdx decodeIndex :: others

end Attribute

/-! ## 2. Segments -/

/-- `DecodeSegment`. -/
inductive DecodeSegment where
  | valueSet (startByte : Nat) (decodeString : List Slot) (attributes : List Attribute)
  | fixLength (startByte length : Nat) (field : FieldDef)
  | variableLength (startByte : Nat) (field : FieldDef)
  deriving DecidableEq, Repr

def DecodeSegment.startByte : DecodeSegment → Nat
  | .valueSet startByte _ _ => startByte
  | .fixLength startByte _ _ => startByte
  | .variableLength startByte _ => startByte

def DecodeSegment.length : DecodeSegment → Nat
  | .valueSet _ decodeString _ => calcsize decodeString
  | .fixLength _ length _ => length
  | .variableLength .. => 0

/-- Where `analyze_attributes` is: the segments that are complete, the one at
work, and the index of the next number in it. -/
structure Analysis where
  complete : List DecodeSegment
  segment : Option DecodeSegment
  decodeIndex : Nat
  deriving DecidableEq, Repr

namespace Analysis

def segments (a : Analysis) : List DecodeSegment := a.complete ++ a.segment.toList

/-- `current_byte`, behind the segment at work. -/
def nextByte (a : Analysis) : Nat :=
  match a.segment with
  | some segment => segment.startByte + segment.length
  | none => 0

/-- A number goes into the segment at work, or opens one. -/
def addNumber (a : Analysis) (decodeString : List Slot) (nbDecodeSlots : Except Exn Nat)
    (attributes : Nat → Except Exn (List Attribute)) : Except Exn Analysis :=
  match a.segment with
  | some (.valueSet startByte slots others) => do
      let attributes ← attributes a.decodeIndex
      return { a with
        segment := some (.valueSet startByte (slots ++ decodeString) (others ++ attributes))
        decodeIndex := a.decodeIndex + (← nbDecodeSlots) }
  | _ => do
      let attributes ← attributes 0
      return { complete := a.segments, segment := some (.valueSet a.nextByte decodeString attributes)
               decodeIndex := ← nbDecodeSlots }

/-- A string is a segment. -/
def addSegment (a : Analysis) (segment : DecodeSegment) : Analysis :=
  { a with complete := a.segments, segment := some segment }

/-- A field of the list. -/
def analyzeField (a : Analysis) : FieldItem → Except Exn Analysis
  | .bitField b => do
      a.addNumber (← b.decodeString) b.nbDecodeSlots
        (fun decodeIndex => Attribute.ofSubFields b decodeIndex 0 b.subFields)
  | .field f =>
      match f.decodeMethod with
      | .fixedLengthNumber => do
          a.addNumber (← f.decodeString) f.nbDecodeSlots
            (fun decodeIndex => do return [← Attribute.ofField f decodeIndex])
      | .fixedLengthBytes => do
          if let some keyword := f.keyword then Attribute.checkKeyword keyword
          return a.addSegment (.fixLength a.nextByte f.byteLength f)
      | .variableLengthBytes => do
          if let some keyword := f.keyword then Attribute.checkKeyword keyword
          return a.addSegment (.variableLength a.nextByte f)

end Analysis

/-! ## 3. Field sets -/

/-- `analyze_attributes`, of a list without a repeated set. -/
def analyzeAttributes (fieldList : List FieldItem) : Except Exn (List DecodeSegment) := do
  let a ← fieldList.foldlM Analysis.analyzeField ⟨[], none, 0⟩
  return a.segments

def DecodeSegment.isVariable : DecodeSegment → Bool
  | .variableLength .. => true
  | _ => false

/-- The keys of a segment. -/
def DecodeSegment.keywords : DecodeSegment → List String
  | .valueSet _ _ attributes => attributes.filterMap Attribute.keyword
  | .fixLength _ _ f => f.keyword.toList
  | .variableLength _ f => f.keyword.toList

/-- A set that is repeated: its slot, the key of its count, and its segments. -/
structure RepeatAttributeDef where
  keyword : String
  countMethod : String
  segments : List DecodeSegment
  deriving DecidableEq, Repr

structure FieldSetMeta where
  segments : List DecodeSegment
  repeatFieldSet : Option RepeatAttributeDef
  deriving DecidableEq, Repr

def staticSize (segments : List DecodeSegment) : Nat := (segments.map DecodeSegment.length).sum

def FieldSetMeta.variableSize (m : FieldSetMeta) : Bool :=
  m.segments.any DecodeSegment.isVariable || m.repeatFieldSet.isSome

def RepeatAttributeDef.variableSize (r : RepeatAttributeDef) : Bool :=
  r.segments.any DecodeSegment.isVariable

/-- `FieldSetMeta.__init__`, where the count of the repeated set must be a field. -/
def FieldSetMeta.init (fieldList : List FieldItem) (repeated : Option RepeatedFieldSet) :
    Except Exn FieldSetMeta := do
  let segments ← analyzeAttributes fieldList
  match repeated with
  | none => return ⟨segments, none⟩
  | some r => do
      Attribute.checkKeyword r.keyword
      let inner ← analyzeAttributes r.fieldList
      if r.countMethod ∈ segments.flatMap DecodeSegment.keywords then
        return ⟨segments, some ⟨r.keyword, r.countMethod, inner⟩⟩
      else throw .keyError

/-- The definition of a PGN, as far as the generator reads it. `readOnly` is what
the flags and the generator's own option come to. -/
structure NMEA2000Meta where
  pgn : Nat
  name : String
  isProprietary : Bool
  manufacturer : Nat
  readOnly : Bool
  fields : FieldSetMeta
  deriving DecidableEq, Repr

end NavigationServer.CodeGeneration
