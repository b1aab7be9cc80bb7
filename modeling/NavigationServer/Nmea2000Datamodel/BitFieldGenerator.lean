/-
NavigationServer.Nmea2000Datamodel.BitFieldGenerator — how the fields of a list
are put into bit fields.

A generator goes through the fields of a definition, or of a repeated set. A bit
value goes into the bit field in creation, which is the last one of the list, and
opens one where there is none or where that one is at the end of a byte. A bit
field that another field follows is finalized, and one of a length that `struct`
has no format for makes the definition fail; at the end of the list that error is
caught. `decode` reads a bit field from the bytes at an index.

The offset that `add_field` computes is compared in the form
`8 * start_byte + current_offset`, since it may be negative. The value pairs of
an enumeration are those whose value is a number.
-/
import NavigationServer.Lib.Bytes
import NavigationServer.Nmea2000Datamodel.FieldDefs
import Mathlib.Logic.Function.Basic

namespace NavigationServer.Nmea2000Datamodel.BitFieldGenerator

open NavigationServer.Lib

/-! ## 1. Fields -/

/-- A field as the list has it. `globalEnum` says that its enumeration is one of
the global ones, and `valuePair` is the dictionary of its own. -/
structure NamedField where
  name : String
  definition : FieldDef
  globalEnum : Bool
  valuePair : List (Nat × String)
  deriving DecidableEq, Repr

namespace NamedField

def bitOffset (f : NamedField) : Nat := f.definition.bitOffset

def bitLength (f : NamedField) : Nat := f.definition.bitLength

def isBitValue (f : NamedField) : Bool := f.definition.isBitValue

/-- `is_enum`, which holds of the two classes of enumerations. -/
def isEnum (f : NamedField) : Bool :=
  match f.definition.fieldClass with
  | .enumField | .enumIntField => true
  | _ => false

/-- `get_name`. A global enumeration is called, and it is not a function. -/
def getName (f : NamedField) (value : Nat) : Except Exn String :=
  if f.globalEnum then .error .typeError
  else
    match f.valuePair.lookup value with
    | some name => .ok name
    | none => .error .keyError

end NamedField

/-- The value of a sub field: its number, or the name that its enumeration has
for it. -/
inductive FieldValue where
  | number (n : Nat)
  | name (s : String)
  deriving DecidableEq, Repr

/-- The fields decoded so far, by name. -/
abbrev Fields := String → Option FieldValue

/-! ## 2. Bit fields -/

/-- `BitFieldDef`. -/
structure BitFieldDef where
  field : NamedField
  relOffset : Nat
  deriving DecidableEq, Repr

/-- `get_value`. A number without a name stays a number. -/
def BitFieldDef.getValue (s : BitFieldDef) (inputWord : Int) : Except Exn FieldValue :=
  let value := (inputWord / 2 ^ s.relOffset % 2 ^ s.field.bitLength).toNat
  if s.field.isEnum then
    match s.field.getName value with
    | .ok name => .ok (.name name)
    | .error .keyError => .ok (.number value)
    | .error e => .error e
  else .ok (.number value)

/-- `BitField.struct_format`. -/
def structFormat : Nat → Option (List Slot)
  | 1 => some [⟨1, false⟩]
  | 2 => some [⟨2, false⟩]
  | 3 => some [⟨2, false⟩, ⟨1, false⟩]
  | 4 => some [⟨4, false⟩]
  | 8 => some [⟨8, false⟩]
  | _ => none

/-- The function that `struct_format` has beside the format. -/
def process (byteLength : Nat) (v : List Int) : Except Exn Int :=
  if byteLength = 3 then do return (← item v 0) + (← item v 1) * 2 ^ 16
  else item v 0

/-- `BitField`. There is no `struct` in it before it is finalized. -/
structure BitField where
  no : Nat
  startByte : Nat
  bitLength : Nat
  currentOffset : Nat
  byteLength : Nat
  struct : Option (List Slot)
  fields : List BitFieldDef
  deriving DecidableEq, Repr

namespace BitField

/-- `add_field`, behind the test for a split. A field at another offset is left
out. -/
def append (b : BitField) (f : NamedField) : BitField :=
  if 8 * b.startByte + b.currentOffset = f.bitOffset then
    { b with
      fields := b.fields ++ [⟨f, f.bitOffset - 8 * b.startByte⟩]
      bitLength := b.bitLength + f.bitLength
      currentOffset := b.currentOffset + f.bitLength }
  else b

/-- `add_field`. There is no result when it raises `BitFieldSplitException`. -/
def addField (b : BitField) (f : NamedField) : Option BitField :=
  if 0 < b.bitLength ∧ b.bitLength % 8 = 0 then none else some (b.append f)

/-- A new bit field, which is never split. -/
def init (f : NamedField) (no : Nat) : BitField :=
  append ⟨no, f.definition.startByte, 0, 0, 0, none, []⟩ f

/-- `finalize`: the bit field behind the call, and how the call ends. -/
def finalize (b : BitField) : BitField × Except Exn Unit :=
  let b := { b with byteLength := (b.bitLength + 7) / 8 }
  match structFormat b.byteLength with
  | none => (b, .error .valueError)
  | some format => ({ b with struct := some format }, .ok ())

/-- `decode`. -/
def decode (b : BitField) (data : Bytes) (index : Nat) (fields : Fields) : Except Exn Fields :=
  match b.struct with
  | none => .error .attributeError
  | some format =>
      match unpack format (slice data (index : Int) ((index + b.byteLength : Nat) : Int)) with
      | none => .error .structError
      | some v => do
          let word ← process b.byteLength v
          b.fields.foldlM (fun fields s => do
            return Function.update fields s.field.name (some (← s.getValue word))) fields

end BitField

/-! ## 3. The generator -/

/-- What stands in the list of a definition. -/
inductive Item where
  | field (f : NamedField)
  | bitField (b : BitField)
  deriving DecidableEq, Repr

/-- The list so far, without the bit field in creation. -/
structure Generator where
  fieldList : List Item
  bitfieldInCreate : Option BitField
  bitfieldNo : Nat
  deriving DecidableEq, Repr

namespace Generator

/-- The whole list. -/
def items (g : Generator) : List Item := g.fieldList ++ (g.bitfieldInCreate.map Item.bitField).toList

/-- The bit field in creation comes to an end. -/
def close (g : Generator) : Except Exn (List Item) :=
  match g.bitfieldInCreate with
  | none => .ok g.fieldList
  | some b => do
      b.finalize.2
      return g.fieldList ++ [.bitField b.finalize.1]

/-- A new bit field at the end of `fieldList`. -/
def newBitField (g : Generator) (fieldList : List Item) (f : NamedField) : Generator :=
  ⟨fieldList, some (BitField.init f g.bitfieldNo), g.bitfieldNo + 1⟩

/-- `check_bf_add_field`. -/
def checkBfAddField (g : Generator) (f : NamedField) : Except Exn Generator :=
  if f.isBitValue then
    match g.bitfieldInCreate.bind (BitField.addField · f) with
    | some b => .ok { g with bitfieldInCreate := some b }
    | none => do return g.newBitField (← g.close) f
  else do return { g with fieldList := (← g.close) ++ [.field f], bitfieldInCreate := none }

/-- `check_and_finalize`, and the list behind it. An error is caught. -/
def checkAndFinalize (g : Generator) : List Item :=
  { g with bitfieldInCreate := g.bitfieldInCreate.map (fun b : BitField => b.finalize.1) }.items

end Generator

/-- The list that the fields of a definition make, or the error that makes the
definition fail. -/
def generate (fieldList : List NamedField) : Except Exn (List Item) := do
  let g ← fieldList.foldlM Generator.checkBfAddField ⟨[], none, 1⟩
  return g.checkAndFinalize

end NavigationServer.Nmea2000Datamodel.BitFieldGenerator
