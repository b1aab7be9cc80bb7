/-
NavigationServer.Nmea2000Datamodel.DecodePgn — the decoder that follows the
definition of a PGN.

`decodePgnData` goes through the list of a definition with an index. A field that
does not start in byte 0 is read from its own place, and the first one from the
index; a bit field is always read from the index. What a field says it has read
moves the index on: a string says nothing, and neither does a field that cannot
be decoded. A bit field never moves it.

Floating point numbers are a parameter. The texts of the exceptions, which are only
logged, and repeated sets are left out.
-/
import NavigationServer.Nmea2000Datamodel.BitFieldGenerator
import NavigationServer.Nmea2000Datamodel.ValueCoders

namespace NavigationServer.Nmea2000Datamodel

open NavigationServer.Lib BitFieldGenerator
open BitFieldGenerator renaming Item → ListItem
open PythonFloat (toFloatOps)

/-! ## 1. Values -/

/-- What the decoder reports. -/
inductive Value (F : Type) where
  | number (n : Int)
  | float (x : F)
  | text (s : String)
  | isoName (n : Nat)
  deriving DecidableEq, Repr

variable {F : Type}

def Value.ofSubField : FieldValue → Value F
  | .number n => .number n
  | .name s => .text s

/-- `N2KDecodeResult`. There is no value when it is not valid. -/
structure N2KDecodeResult (F : Type) where
  actualLength : Nat
  value : Option (Value F)
  deriving DecidableEq, Repr

/-- `decode` of bytes. -/
def decodeText (bytes : Bytes) : Option String := String.fromUTF8? ⟨bytes.toArray⟩

/-- What strings are filled with. -/
def isPadding (c : Char) : Bool := c = '@' ∨ c = ' ' ∨ c.toNat = 0

/-- `strip`, of what strings are filled with. -/
def stripPadding (s : String) : String :=
  String.ofList ((s.toList.dropWhile isPadding).rdropWhile isPadding)

/-! ## 2. A field -/

/-- How `decode` of a field ends: `N2KDecodeEOLException` is raised where the
payload ends before the field, and `N2KDecodeException` for everything else. -/
inductive Decoded (F : Type) where
  | result (r : N2KDecodeResult F)
  | endOfPayload
  | failed
  deriving DecidableEq, Repr

namespace BitFieldGenerator.NamedField

/-- `apply_scale_offset`. An integer stays one where the field has no scale and no
offset. -/
def applyScaleOffset [PythonFloat F] (f : NamedField) (value : Int) : Value F :=
  match f.definition.scale, f.definition.offset with
  | some scale, some offset =>
      .float (PythonFloat.add (PythonFloat.mul (toFloatOps.ofInt value) (toFloatOps.literal scale)) (toFloatOps.literal offset))
  | some scale, none => .float (PythonFloat.mul (toFloatOps.ofInt value) (toFloatOps.literal scale))
  | none, some offset => .float (PythonFloat.add (toFloatOps.ofInt value) (toFloatOps.literal offset))
  | none, none => .number value

/-- What the class of a field makes of its number. A global enumeration is called,
and the dictionary of an `EnumIntField` that has one is None. -/
def present [PythonFloat F] (f : NamedField) (n : Int) : Except Exn (Value F) :=
  match f.definition.fieldClass with
  | .enumField =>
      if f.globalEnum then .error .typeError
      else .ok (.text ((f.valuePair.lookup n.toNat).getD s!"InvalidKey#{n}"))
  | .enumIntField =>
      if f.globalEnum then .error .attributeError
      else
        match f.valuePair.lookup n.toNat with
        | some name => .ok (.text name)
        | none => .ok (.number n)
  | .dblField | .udblField => .ok (f.applyScaleOffset n)
  | _ => .ok (.number n)

/-- `decode_value` of a number. -/
def decodeNumber [PythonFloat F] (f : NamedField) (payload : Bytes) (start stop : Nat) :
    Except Exn (N2KDecodeResult F) := do
  let coder ← f.definition.valueCoder
  match ← FieldDef.extractValue coder payload start stop with
  | none => return ⟨f.definition.byteLength, none⟩
  | some n => return ⟨f.definition.byteLength, some (← f.present n)⟩

/-- `extract_var_str`. -/
def extractVarStr (payload : Bytes) (start : Nat) : Except Exn (Option (N2KDecodeResult F)) := do
  let lg := (← item payload start).toNat
  let typeS ← item payload (start + 1)
  if typeS ≠ 1 ∧ 2 < lg then return none
  if lg = 2 then return some ⟨lg, some (.text "None")⟩
  if payload.length < start + lg then throw (.n2kDecode "")
  match decodeText (slice payload ((start + 2 : Nat) : Int) ((start + lg : Nat) : Int)) with
  | some s => return some ⟨lg, some (.text s)⟩
  | none => throw .valueError

/-- `decode_value`, which may return None. -/
def decodeValue [PythonFloat F] (f : NamedField) (payload : Bytes) (start stop : Nat) :
    Except Exn (Option (N2KDecodeResult F)) :=
  match f.definition.fieldClass with
  | .varLengthStringField => extractVarStr payload start
  | .fixLengthStringField =>
      let str := decodeText (slice payload (start : Int) (stop : Int))
      .ok (some ⟨0, str.map (fun s => .text (stripPadding s))⟩)
  | .nameField =>
      let bytes := slice payload (start : Int) (stop : Int)
      if bytes.length ≠ 8 then .ok none else .ok (some ⟨8, some (.isoName (ofLE bytes))⟩)
  | _ => do return some (← f.decodeNumber payload start stop)

/-- `decode`. -/
def decode [PythonFloat F] (f : NamedField) (payload : Bytes) (index : Nat) : Decoded F :=
  let start := if f.definition.startByte = 0 then index else f.definition.startByte
  let stop := if f.definition.byteLength ≠ 0 then start + f.definition.byteLength else 0
  if payload.length < stop then
    if f.name ≠ "Spare" then .endOfPayload else .result ⟨0, none⟩
  else
    match f.decodeValue payload start stop with
    | .ok (some r) => .result r
    | _ => .failed

end BitFieldGenerator.NamedField

/-! ## 3. The list of a definition -/

/-- What has been reported so far, by the name of the field. -/
abbrev Values (F : Type) := String → Option (Value F)

namespace Values

/-- The sub fields of a bit field are written into the dictionary. -/
def join (fields : Values F) (subFields : Fields) : Values F :=
  fun name => ((subFields name).map Value.ofSubField).or (fields name)

/-- A field that is reserved is not reported. -/
def report (fields : Values F) (name : String) (value : Option (Value F)) : Values F :=
  if name = "Reserved" then fields
  else
    match value with
    | some v => Function.update fields name (some v)
    | none => fields

end Values

/-- The loop of `decode_pgn_data`. What a bit field raises is not caught. -/
def decodeFields [PythonFloat F] (data : Bytes) : Nat → Values F → List ListItem → Except Exn (Values F)
  | _, fields, [] => .ok fields
  | index, fields, .bitField b :: fieldList => do
      let subFields ← b.decode data index (fun _ => none)
      decodeFields data index (fields.join subFields) fieldList
  | index, fields, .field f :: fieldList =>
      match f.decode data index with
      | .result r =>
          decodeFields data (index + r.actualLength) (fields.report f.name r.value) fieldList
      | .endOfPayload => .ok fields
      | .failed => decodeFields data index fields fieldList

structure DecodedPgn (F : Type) where
  pgn : Nat
  name : String
  fields : Values F

/-- `decode_pgn_data`, of a definition with this number, name and list. -/
def decodePgnData [PythonFloat F] (id : Nat) (name : String) (fieldList : List ListItem) (data : Bytes) :
    Except Exn (DecodedPgn F) := do
  return ⟨id, name, ← decodeFields data 0 (fun _ => none) fieldList⟩

end NavigationServer.Nmea2000Datamodel
