/-
NavigationServer.Nmea2000Datamodel.ValueCoders — the numbers of the fields, as bytes.

`DecodeDefinitions` has a coder for each length, with a sign and without one. A
coder without a sign takes all bits set for a missing value when it decodes; a
coder with a sign keeps its range symmetric, and decodes the first slot of its
format. A field of at most four bytes has a coder, and `no_value` is what it
encodes for a missing value. Floating point numbers are a parameter.
-/
import NavigationServer.Lib.Round
import NavigationServer.Nmea2000Datamodel.FieldDefs

namespace NavigationServer.Nmea2000Datamodel

open NavigationServer.Lib

/-! ## 1. Coders -/

/-- `ValueCoderUnsigned` and `ValueCoderSigned`. -/
inductive ValueCoder where
  | unsigned (length : Nat) (structFormat : List Slot) (process : List Int → Except Exn Int)
  | signed (length : Nat) (structFormat : List Slot)

/-- `pack_into` of a `Struct`, with the size that it has written. -/
def structPackInto (structFormat : List Slot) (buffer : Bytes) (index : Nat) (values : List Int) :
    Except Exn (Nat × Bytes) :=
  match packInto structFormat buffer index values with
  | some buffer => .ok (calcsize structFormat, buffer)
  | none => .error .structError

def structUnpack (structFormat : List Slot) (data : Bytes) : Except Exn (List Int) :=
  match unpack structFormat data with
  | some values => .ok values
  | none => .error .structError

namespace ValueCoder

def length : ValueCoder → Nat
  | unsigned length _ _ => length
  | signed length _ => length

def isSigned : ValueCoder → Bool
  | unsigned .. => false
  | signed .. => true

/-- `_invalid_value`: all bits set. -/
def invalidValue (length : Nat) : Int := 2 ^ (length * 8) - 1

/-- `_max_value`. -/
def maxValue (length : Nat) : Int := 2 ^ (length * 8 - 1) - 1

/-- `_min_value`. -/
def minValue (length : Nat) : Int := -maxValue length

def decode : ValueCoder → Bytes → Except Exn Int
  | unsigned length structFormat process, bytesIn => do
      let vd ← structUnpack structFormat bytesIn
      let val ← process vd
      if val = invalidValue length then throw .valueError
      return val
  | signed _ structFormat, bytesIn => do
      let vd ← structUnpack structFormat bytesIn
      item vd 0

/-- A mask of low bits is a remainder. -/
def encode : ValueCoder → Int → Bytes → Nat → Except Exn (Nat × Bytes)
  | unsigned length structFormat _, value, buffer, index =>
      let value := value % (invalidValue length + 1)
      if length = 3 then
        structPackInto structFormat buffer index [value % 0x10000, value / 0x10000 % 0x100]
      else structPackInto structFormat buffer index [value]
  | signed length structFormat, value, buffer, index =>
      if maxValue length < value ∨ value < minValue length then .error .valueError
      else structPackInto structFormat buffer index [value]

end ValueCoder

/-- `process_lambda` of the other lengths. -/
def firstSlot (vd : List Int) : Except Exn Int := item vd 0

/-- `process_lambda` of the three bytes. -/
def twoSlots (vd : List Int) : Except Exn Int := do
  return (← item vd 0) + (← item vd 1) * 0x10000

namespace DecodeDefinitions

/-- `uint_invalid`. -/
def uintInvalid : List Nat := [0x00, 0xFF, 0xFFFF, 0xFFFFFF, 0xFFFFFFFF]

/-- `int_table`. -/
def intTable : Nat → Except Exn ValueCoder
  | 1 => .ok (.signed 1 [⟨1, true⟩])
  | 2 => .ok (.signed 2 [⟨2, true⟩])
  | 3 => .ok (.signed 3 [⟨2, true⟩, ⟨1, true⟩])
  | 4 => .ok (.signed 4 [⟨4, true⟩])
  | 8 => .ok (.signed 8 [⟨8, true⟩])
  | _ => .error .keyError

/-- `uint_table`. -/
def uintTable : Nat → Except Exn ValueCoder
  | 1 => .ok (.unsigned 1 [⟨1, false⟩] firstSlot)
  | 2 => .ok (.unsigned 2 [⟨2, false⟩] firstSlot)
  | 3 => .ok (.unsigned 3 [⟨2, false⟩, ⟨1, false⟩] twoSlots)
  | 4 => .ok (.unsigned 4 [⟨4, false⟩] firstSlot)
  | 8 => .ok (.unsigned 8 [⟨8, false⟩] firstSlot)
  | _ => .error .keyError

/-- An entry of one of the tables. -/
def Entry (coder : ValueCoder) : Prop :=
  ∃ length, intTable length = .ok coder ∨ uintTable length = .ok coder

end DecodeDefinitions

/-! ## 2. Fields -/

/-- What the fields use of floating point numbers: `float` of an integer and of
a text, `-`, `/` and `round`, which may raise. -/
structure FloatOps (F : Type) where
  ofInt : Int → F
  literal : ℚ → F
  sub : F → F → F
  div : F → F → Except Exn F
  round : F → Except Exn Int

/-- Exact numbers. -/
def FloatOps.exact : FloatOps ℚ where
  ofInt n := n
  literal q := q
  sub x y := x - y
  div x y := if y = 0 then .error .zeroDivisionError else .ok (x / y)
  round q := .ok (roundHalfEven q)

/-- What the decoder of the definitions and the generated classes use besides: `+`, `*`,
`float('nan')`, `isnan`, `int`, which may raise, and `==` with an integer. -/
class PythonFloat (F : Type) extends FloatOps F where
  add : F → F → F
  mul : F → F → F
  nan : F
  isNan : F → Bool
  trunc : F → Except Exn Int
  eqInt : F → Int → Bool
  isNan_nan : isNan nan = true

/-- Exact numbers, and a NaN. -/
instance : PythonFloat (Option ℚ) where
  ofInt n := some n
  literal q := some q
  sub x y := do return (← x) - (← y)
  div x y :=
    if y = some 0 then .error .zeroDivisionError else .ok (do return (← x) / (← y))
  round
    | none => .error .valueError
    | some q => .ok (roundHalfEven q)
  add x y := do return (← x) + (← y)
  mul x y := do return (← x) * (← y)
  nan := none
  isNan := Option.isNone
  trunc
    | none => .error .valueError
    | some q => .ok (q.num.tdiv q.den)
  eqInt x n := x = some (n : ℚ)
  isNan_nan := rfl

namespace FieldDef

/-- `_value_coder`, which a field without a coder has as None. -/
def valueCoder (f : FieldDef) : Except Exn (Option ValueCoder) :=
  match f.fieldClass with
  | .intField | .dblField => do return some (← DecodeDefinitions.intTable f.byteLength)
  | _ =>
      if 0 < f.byteLength ∧ f.byteLength ≤ 4 then do
        return some (← DecodeDefinitions.uintTable f.byteLength)
      else return none

/-- `extract_value`: the value, or none when it is not valid. -/
def extractValue (coder : Option ValueCoder) (payload : Bytes) (start stop : Nat) :
    Except Exn (Option Int) :=
  match coder with
  | none => .error .attributeError
  | some coder =>
      match coder.decode (slice payload start stop) with
      | .ok value => .ok (some value)
      | .error .valueError => .ok none
      | .error e => .error e

/-- `no_value`. -/
def noValue (f : FieldDef) : Except Exn Nat :=
  if f.byteLength ≤ 4 then item DecodeDefinitions.uintInvalid f.byteLength
  else .error (.n2kDecode "No default value")

/-- `convert_to_int`, of an integer. -/
def convertToInt {F : Type} (ops : FloatOps F) (f : FieldDef) (value : Int) : Except Exn Int :=
  match f.offset, f.scale with
  | none, none => .ok value
  | some offset, none => ops.round (ops.sub (ops.ofInt value) (ops.literal offset))
  | none, some scale => do
      ops.round (← ops.div (ops.ofInt value) (ops.literal scale))
  | some offset, some scale => do
      ops.round (← ops.div (ops.sub (ops.ofInt value) (ops.literal offset)) (ops.literal scale))

/-- `Field.encode_value`. -/
def encodeInt (f : FieldDef) (value : Int) (buffer : Bytes) (index : Nat) :
    Except Exn (Nat × Bytes) := do
  match ← f.valueCoder with
  | some coder => coder.encode value buffer index
  | none => throw .attributeError

/-- `encode_value` of an integer. The strings ask for its length or its code, and
a NAME for its bytes, which an integer does not have. -/
def encodeValue {F : Type} (ops : FloatOps F) (f : FieldDef) (value : Int) (buffer : Bytes)
    (index : Nat) : Except Exn (Nat × Bytes) :=
  match f.fieldClass with
  | .fixLengthStringField => .error .typeError
  | .varLengthStringField | .nameField => .error .attributeError
  | .dblField | .udblField => do f.encodeInt (← f.convertToInt ops value) buffer index
  | _ => f.encodeInt value buffer index

end FieldDef

end NavigationServer.Nmea2000Datamodel
