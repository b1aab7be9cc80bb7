/-
NavigationServer.CodeGeneration.PythonGen — the classes that the Python
generator writes.

The text of a method is kept as what it says: `Stmt` and `DecodeStmt` are the
lines that the generator writes for a segment of numbers, with the local
variables `v0`, `v1`, … and `word`, and the other segments are one call each. The
generator is `genEncode…` and `genDecode…`; what the lines do is `run…`. Floating
point numbers are a parameter, and a scale and an offset stand in the text as the
definition tells them. `printable` tells the characters that `isprintable` lets
pass. The methods for JSON and protobuf are left out.
-/
import Mathlib.Data.Int.Bitwise
import NavigationServer.CodeGeneration.Meta
import NavigationServer.Nmea2000Datamodel.ValueCoders

namespace NavigationServer.CodeGeneration

open NavigationServer.Lib NavigationServer.Nmea2000Datamodel
open PythonFloat (toFloatOps)

/-! ## 1. Objects -/

inductive PyValue (F : Type) where
  | int (n : Int)
  | float (x : F)
  | str (s : String)
  deriving DecidableEq, Repr

variable {F : Type}

/-- `==` with an integer. -/
def PyValue.eqInt [PythonFloat F] (v : PyValue F) (m : Int) : Bool :=
  match v with
  | .int n => n = m
  | .float x => PythonFloat.eqInt x m
  | .str _ => false

/-- The slots of an object that have a value. -/
abbrev Slots (F : Type) := String → Option (PyValue F)

/-- An object: its slots, and the objects in the list of its repeated set. -/
structure Obj (F : Type) where
  slots : Slots F
  items : List (Slots F)

/-- The value of a slot. -/
def Slots.read (slots : Slots F) (keyword : String) : Except Exn (PyValue F) :=
  match slots keyword with
  | some v => .ok v
  | none => .error .attributeError

def Slots.set (slots : Slots F) (keyword : String) (v : PyValue F) : Slots F :=
  Function.update slots keyword (some v)

/-! ## 2. Helpers of the generated code -/

/-- `int((value - offset) / scale)`. A scale that the definition does not tell is
`None`. -/
def unscale [PythonFloat F] (x : F) (scale : Option ℚ) (offset : ℚ) : Except Exn Int :=
  match scale with
  | none => .error .typeError
  | some scale => do
      let q ← toFloatOps.div (toFloatOps.sub x (toFloatOps.literal offset)) (toFloatOps.literal scale)
      PythonFloat.trunc q

/-- `convert_to_int`. -/
def convertToInt [PythonFloat F] (value : PyValue F) (invalidMask : Nat) (scale : Option ℚ)
    (offset : ℚ) : Except Exn Int :=
  match value with
  | .str _ => .error .typeError
  | .float x => if PythonFloat.isNan x then .ok invalidMask else unscale x scale offset
  | .int n => unscale (toFloatOps.ofInt n : F) scale offset

/-- `check_convert_float`. -/
def checkConvertFloat [PythonFloat F] (val : Int) (invalidMask : Nat) (scale offset : ℚ) : PyValue F :=
  if val = -1 ∨ val = invalidMask then .float PythonFloat.nan
  else
    .float (PythonFloat.add (PythonFloat.mul (toFloatOps.ofInt val) (toFloatOps.literal scale))
      (toFloatOps.literal offset))

/-- `float(n)`, and the offset of the field where it has one. -/
def toFloat [PythonFloat F] (n : Int) (offset : Option ℚ) : F :=
  match offset with
  | some offset => PythonFloat.add (toFloatOps.ofInt n) (toFloatOps.literal offset)
  | none => toFloatOps.ofInt n

/-- `check_valid`. -/
def checkValid (value : Int) (mask : Nat) (default : Int) : Int := if value = mask then default else value

def utf8 (s : String) : Bytes := s.toUTF8.data.toList

/-- `insert_string`. -/
def insertString (buffer : Bytes) (start length : Nat) (s : String) : Except Exn Bytes :=
  let bytes := if length < s.length then utf8 (s.take length).toString else utf8 s
  let last := start + bytes.length
  let buffer := setSlice buffer start last bytes
  if s.length < length then
    -- the padding stands in places that are there
    if start + length ≤ max last buffer.length then
      .ok (buffer.take last ++ (List.replicate (start + length - last) 0xFF
        ++ buffer.drop (max last (start + length))))
    else .error .indexError
  else .ok buffer

/-- `payload[i] = value`. -/
def setByte (buffer : Bytes) (i value : Nat) : Except Exn Bytes :=
  if buffer.length ≤ i then .error .indexError
  else if 256 ≤ value then .error .valueError
  else .ok (buffer.set i (UInt8.ofNat value))

theorem setByte_append (front back : Bytes) (b : UInt8) {value : Nat} (h : value < 256) :
    setByte (front ++ b :: back) front.length value = .ok (front ++ UInt8.ofNat value :: back) := by
  have hlength : ¬ (front ++ b :: back).length ≤ front.length := by
    rw [List.length_append, List.length_cons]
    omega
  rw [setByte, if_neg hlength, if_neg (by omega), List.set_append_right _ _ (Nat.le_refl _),
    Nat.sub_self, List.set_cons_zero]

/-- `insert_var_str`. The number of bytes is the second result. -/
def insertVarStr (buffer : Bytes) (start : Nat) (s : String) : Except Exn (Bytes × Nat) := do
  let bytes := utf8 s
  let buffer ← setByte buffer start (bytes.length + 2)
  let buffer ← setByte buffer (start + 1) 1
  if bytes.isEmpty then return (buffer, 2)
  return (setSlice buffer ((start + 2 : Nat) : Int) ((bytes.length + start + 2 : Nat) : Int) bytes,
    bytes.length + 2)

section Text

variable (printable : Char → Bool)

/-- `clean_string`. -/
def cleanString (bytes : Bytes) : String :=
  let bytes := bytes.takeWhile (· ≠ 0xFF)
  let bytes := bytes.takeWhile (· ≠ 0)
  match String.fromUTF8? ⟨bytes.toArray⟩ with
  | none => ""
  | some s =>
      let chars := s.toList.rdropWhile (fun c => c = '@' ∨ c = ' ' ∨ c.toNat = 0)
      if chars.all printable then String.ofList chars else ""

/-- `extract_var_str`. -/
def extractVarStr (payload : Bytes) (start : Nat) : Except Exn (String × Nat) := do
  let totalLen := (← item payload start).toNat
  if (← item payload (start + 1)) ≠ 1 then return ("", totalLen)
  if totalLen = 2 then return ("", totalLen)
  return (cleanString printable (slice payload ((start + 2 : Nat) : Int) ((start + totalLen : Nat) : Int)),
    totalLen)

end Text

/-! ## 3. The lines of `encode_payload` -/

/-- A local variable. -/
inductive Var where
  | v (n : Nat)
  | word
  deriving DecidableEq, Repr

/-- What stands in the call of `pack_into`: a variable or a slot. -/
inductive Arg where
  | var (x : Var)
  | attr (keyword : String)
  deriving DecidableEq, Repr

inductive Expr where
  /-- `value << offset` -/
  | shifted (value offset : Nat)
  /-- `(self.keyword & mask) << offset`, with the length of the mask -/
  | bits (keyword : String) (length offset : Nat)
  | const (value : Nat)
  | convertToInt (keyword : String) (invalid : Nat) (scale : Option ℚ) (offset : ℚ)
  /-- `x & 0xffff` -/
  | low16 (x : Var)
  /-- `(x >> 16) & 0xff` -/
  | high8 (x : Var)
  /-- `(x & 0xFF) >> 16` -/
  | low8Shifted (x : Var)
  deriving DecidableEq, Repr

inductive Stmt where
  | assign (target : Arg) (e : Expr)
  | orAssign (target : Var) (e : Expr)
  deriving DecidableEq, Repr

/-- What the lines of a segment do. -/
inductive EncodeStep where
  | packInto (startByte : Nat) (format : List Slot) (code : List Stmt) (args : List Arg)
  | insertString (startByte length : Nat) (keyword : String)
  | insertVarStr (keyword : String)
  deriving DecidableEq, Repr

/-- Where `gen_encode_value_set_segment` is: the number of the next variable,
the arguments, the variable of the last attribute, and the lines. -/
structure EncodeGen where
  numvi : Nat
  valEncode : List Arg
  valVar : Option Var
  code : List Stmt
  deriving DecidableEq, Repr

namespace EncodeGen

def vi (g : EncodeGen) : Var := .v g.numvi

/-- A new variable goes into the call. -/
def newVar (g : EncodeGen) : EncodeGen :=
  { g with numvi := g.numvi + 1, valEncode := g.valEncode ++ [.var g.vi] }

def line (g : EncodeGen) (s : Stmt) : EncodeGen := { g with code := g.code ++ [s] }

/-- A name that is not there leaves a text that is no code. -/
def lastVar (g : EncodeGen) : Except Exn Var :=
  match g.valVar with
  | some x => .ok x
  | none => .error .syntaxError

/-- A sub field: the first one opens a variable, the others are or'ed to it, and
the last one of two or more of a word on two slots cuts it. -/
def subField (g : EncodeGen) (b : BitField) (nbSlots subFieldIndex fieldIndex : Nat) (e : Expr) :
    Except Exn EncodeGen :=
  if subFieldIndex = 0 then
    let x := if nbSlots = 2 then .word else g.vi
    .ok ({ g.newVar with valVar := some x }.line (.assign (.var x) e))
  else do
    let x ← g.lastVar
    let g := g.line (.orAssign x e)
    if nbSlots = 2 ∧ subFieldIndex = b.subFields.length - 1 then
      let target ← item g.valEncode fieldIndex
      let g := g.line (.assign target (.low16 x))
      return g.newVar.line (.assign (.var g.vi) (.low8Shifted x))
    else return g

/-- An attribute. A number on three bytes is cut in two, behind its own slot
where it is an integer. -/
def attr (g : EncodeGen) : Attribute → Except Exn EncodeGen
  | .reservedBitField b sub subFieldIndex fieldIndex => do
      let slots ← b.decodeString
      g.subField b slots.length subFieldIndex fieldIndex
        (.shifted sub.field.invalidValue sub.bitOffset)
  | .bitField b sub keyword subFieldIndex fieldIndex => do
      let slots ← b.decodeString
      g.subField b slots.length subFieldIndex fieldIndex
        (.bits keyword sub.field.bitLength sub.bitOffset)
  | .reserved f _ => .ok (g.newVar.line (.assign (.var g.vi) (.const f.invalidValue)))
  | .scalar f keyword _ => do
      let slots ← f.decodeString
      let type ← f.pythonType
      if type = .float then
        let x := if slots.length = 2 then .word else g.vi
        let g' := { g.newVar with valVar := some x }.line
          (.assign (.var x) (.convertToInt keyword f.invalidValue f.scale (f.offset.getD 0)))
        if slots.length = 2 then
          let g'' := g'.line (.assign (.var g.vi) (.low16 x))
          return g''.newVar.line (.assign (.var g''.vi) (.high8 x))
        else return g'
      else
        let g' := { g with valEncode := g.valEncode ++ [.attr keyword] }
        if slots.length = 2 then
          let x ← g'.lastVar
          let g'' := g'.newVar.line (.assign (.var g'.vi) (.low16 x))
          return g''.newVar.line (.assign (.var g''.vi) (.high8 x))
        else return g'

end EncodeGen

/-- `gen_encode_value_set_segment`. -/
def genEncodeValueSetSegment (startByte : Nat) (format : List Slot) (attributes : List Attribute) :
    Except Exn EncodeStep := do
  let g ← attributes.foldlM EncodeGen.attr ⟨0, [], none, []⟩
  return .packInto startByte format g.code g.valEncode

/-- A string without a key has no slot to be written from. -/
def genEncodeSegment : DecodeSegment → Except Exn EncodeStep
  | .valueSet startByte format attributes => genEncodeValueSetSegment startByte format attributes
  | .fixLength startByte length f =>
      match f.keyword with
      | none => .error .attributeError
      | some keyword => .ok (.insertString startByte length keyword)
  | .variableLength _ f =>
      match f.keyword with
      | none => .error .attributeError
      | some keyword => .ok (.insertVarStr keyword)

/-! ## 4. The lines of `decode_payload` -/

/-- `val[i]` and `word`. -/
inductive Source where
  | val (i : Nat)
  | word
  deriving DecidableEq, Repr

inductive DecodeStmt where
  /-- `word = val[i] + (val[i + 1] << 16)` -/
  | setWord (i : Nat)
  | checkValid (keyword : String) (source : Source) (invalid : Nat) (default : Int)
  | checkConvertFloat (keyword : String) (source : Source) (invalid : Nat) (scale offset : ℚ)
  | toFloat (keyword : String) (source : Source) (offset : Option ℚ)
  | copy (keyword : String) (source : Source)
  /-- `self.keyword = (source >> offset) & mask`, with the length of the mask -/
  | bits (keyword : String) (source : Source) (length offset : Nat)
  /-- `if self.keyword == invalid: raise N2KInvalidMessageException` -/
  | raiseIfInvalid (keyword : String) (invalid : Nat)
  deriving DecidableEq, Repr

inductive DecodeStep where
  | unpackFrom (format : List Slot) (code : List DecodeStmt)
  | cleanString (length : Nat) (keyword : String)
  | extractVarStr (keyword : String)
  deriving DecidableEq, Repr

/-- The check of a validation hook. -/
def genCheckHook (f : FieldDef) (keyword : String) : Except Exn (List DecodeStmt) :=
  match f.validationHook with
  | none => .ok []
  | some "valid_key" => .ok [.raiseIfInvalid keyword f.invalidValue]
  | some _ => .error .typeError

/-- The lines of an attribute. `count` is the key of the count of the repeated
set, which is checked. -/
def genDecodeAttribute (count : Option String) : Attribute → Except Exn (List DecodeStmt)
  | .reserved .. | .reservedBitField .. => .ok []
  | .scalar f keyword fieldIndex => do
      let slots ← f.decodeString
      let type ← f.pythonType
      let source := if slots.length = 2 then .word else .val fieldIndex
      let value : DecodeStmt :=
        if count = some keyword then .checkValid keyword source f.invalidValue 0
        else
          match f.scale with
          | some scale =>
              .checkConvertFloat keyword source f.invalidValue scale (f.offset.getD 0)
          | none =>
              if type = .float then .toFloat keyword source f.offset else .copy keyword source
      return (if slots.length = 2 then [.setWord fieldIndex] else []) ++ value :: (← genCheckHook f keyword)
  | .bitField b sub keyword subFieldIndex fieldIndex => do
      let slots ← b.decodeString
      let source := if slots.length = 2 then .word else .val fieldIndex
      return (if slots.length = 2 ∧ subFieldIndex = 0 then [.setWord fieldIndex] else [])
        ++ .bits keyword source sub.field.bitLength sub.bitOffset :: (← genCheckHook sub.field keyword)

def genDecodeSegment (count : Option String) : DecodeSegment → Except Exn DecodeStep
  | .valueSet _ format attributes => do
      let code ← attributes.mapM (genDecodeAttribute count)
      return .unpackFrom format code.flatten
  | .fixLength _ length f =>
      match f.keyword with
      | none => .error .attributeError
      | some keyword => do
          let _ ← f.pythonType
          return .cleanString length keyword
  | .variableLength _ f =>
      match f.keyword with
      | none => .error .attributeError
      | some keyword => .ok (.extractVarStr keyword)

/-! ## 5. Classes -/

/-- The two methods of a class, or of the inner class of a repeated set. -/
structure Codec where
  encode : List EncodeStep
  decode : List DecodeStep
  variableSize : Bool
  staticSize : Nat
  deriving DecidableEq, Repr

structure RepeatedClass where
  countMethod : String
  codec : Codec
  deriving DecidableEq, Repr

structure GeneratedClass where
  pgn : Nat
  isProprietary : Bool
  manufacturerId : Nat
  readOnly : Bool
  codec : Codec
  repeated : Option RepeatedClass
  deriving DecidableEq, Repr

/-- `gen_decode_encode`. A class without a slot is not written, and one that is
read only has no `encode_payload`. -/
def genCodec (segments : List DecodeSegment) (count : Option String) (variableSize readOnly : Bool) :
    Except Exn Codec := do
  if count = none ∧ segments.flatMap DecodeSegment.keywords = [] then throw .indexError
  let decode ← segments.mapM (genDecodeSegment count)
  let encode ← if readOnly then pure [] else segments.mapM genEncodeSegment
  return ⟨encode, decode, variableSize, staticSize segments⟩

/-- `gen_class`. -/
def genClass (d : NMEA2000Meta) : Except Exn GeneratedClass := do
  let repeated ← match d.fields.repeatFieldSet with
    | none => pure none
    | some r => do
        let codec ← genCodec r.segments none r.variableSize d.readOnly
        pure (some ⟨r.countMethod, codec⟩)
  let codec ← genCodec d.fields.segments (d.fields.repeatFieldSet.map (·.countMethod))
    d.fields.variableSize d.readOnly
  return ⟨d.pgn, d.isProprietary, d.manufacturer, d.readOnly, codec, repeated⟩

/-! ## 6. What `encode_payload` does -/

abbrev Locals := Var → Option Int

structure EncodeState (F : Type) where
  buffer : Bytes
  startByte : Nat
  locals : Locals
  slots : Slots F

def readVar (locals : Locals) (x : Var) : Except Exn Int :=
  match locals x with
  | some n => .ok n
  | none => .error .nameError

/-- `self.keyword & mask`. -/
def maskBits (v : PyValue F) (length : Nat) : Except Exn Nat :=
  match v with
  | .int n => .ok (n % 2 ^ length).toNat
  | _ => .error .typeError

def Expr.eval [PythonFloat F] (slots : Slots F) (locals : Locals) : Expr → Except Exn Int
  | .shifted value offset => .ok (value * 2 ^ offset : Nat)
  | .bits keyword length offset => do
      let n ← maskBits (← slots.read keyword) length
      return (n * 2 ^ offset : Nat)
  | .const value => .ok value
  | .convertToInt keyword invalid scale offset => do
      CodeGeneration.convertToInt (← slots.read keyword) invalid scale offset
  | .low16 x => do return (← readVar locals x) % 2 ^ 16
  | .high8 x => do return (← readVar locals x) / 2 ^ 16 % 2 ^ 8
  | .low8Shifted x => do return (← readVar locals x) % 2 ^ 8 / 2 ^ 16

/-- The local variables and the slots, behind a line. -/
def Stmt.run [PythonFloat F] (slots : Slots F) (locals : Locals) :
    Stmt → Except Exn (Slots F × Locals)
  | .assign (.var x) e => do
      let n ← e.eval slots locals
      return (slots, Function.update locals x (some n))
  | .assign (.attr keyword) e => do
      let n ← e.eval slots locals
      return (slots.set keyword (.int n), locals)
  | .orAssign x e => do
      let old ← readVar locals x
      let n ← e.eval slots locals
      return (slots, Function.update locals x (some (Int.lor old n)))

def runStmts [PythonFloat F] (slots : Slots F) (locals : Locals) :
    List Stmt → Except Exn (Slots F × Locals)
  | [] => .ok (slots, locals)
  | s :: code => do
      let (slots, locals) ← s.run slots locals
      runStmts slots locals code

/-- `struct` takes integers only. -/
def Arg.eval (slots : Slots F) (locals : Locals) : Arg → Except Exn (Option Int)
  | .var x => do return some (← readVar locals x)
  | .attr keyword => do
      match ← slots.read keyword with
      | .int n => return some n
      | _ => return none

def packArgs (format : List Slot) (buffer : Bytes) (start : Nat) (args : List (Option Int)) :
    Except Exn Bytes :=
  match args.mapM id with
  | none => .error .structError
  | some values =>
      match packInto format buffer start values with
      | some buffer => .ok buffer
      | none => .error .structError

/-- What a slot with a text has. `len` of a number raises. -/
def readString (slots : Slots F) (keyword : String) : Except Exn String := do
  match ← slots.read keyword with
  | .str s => return s
  | _ => throw .typeError

/-- A segment. Where the class has a variable size the position moves on;
elsewhere a segment knows its own, behind where the object starts. -/
def EncodeStep.run [PythonFloat F] (variableSize : Bool) (st : EncodeState F) :
    EncodeStep → Except Exn (EncodeState F)
  | .packInto startByte format code args => do
      let (slots, locals) ← runStmts st.slots st.locals code
      let values ← args.mapM (Arg.eval slots locals)
      let start := if variableSize then st.startByte else startByte + st.startByte
      let buffer ← packArgs format st.buffer start values
      return { buffer, slots, locals
               startByte := if variableSize then st.startByte + calcsize format else st.startByte }
  | .insertString startByte length keyword => do
      let s ← readString st.slots keyword
      let start := if variableSize then st.startByte else startByte + st.startByte
      let buffer ← CodeGeneration.insertString st.buffer start length s
      return { st with
        buffer, startByte := if variableSize then st.startByte + length else st.startByte }
  | .insertVarStr keyword => do
      let s ← readString st.slots keyword
      let (buffer, inserted) ← CodeGeneration.insertVarStr st.buffer st.startByte s
      return { st with buffer, startByte := st.startByte + inserted }

def runEncode [PythonFloat F] (variableSize : Bool) (st : EncodeState F) :
    List EncodeStep → Except Exn (EncodeState F)
  | [] => .ok st
  | step :: steps => do
      let st ← step.run variableSize st
      runEncode variableSize st steps

/-- The `encode_payload` of the inner class: the buffer, and where it ends. -/
def Codec.encodeItem [PythonFloat F] (c : Codec) (slots : Slots F) (buffer : Bytes) (startByte : Nat) :
    Except Exn (Bytes × Nat) := do
  let st ← runEncode c.variableSize ⟨buffer, startByte, fun _ => none, slots⟩ c.encode
  return (st.buffer, if c.variableSize then st.startByte else c.staticSize + st.startByte)

def Codec.encodeItems [PythonFloat F] (c : Codec) :
    List (Slots F) → Bytes → Nat → Except Exn (Bytes × Nat)
  | [], buffer, startByte => .ok (buffer, startByte)
  | slots :: items, buffer, startByte => do
      let (buffer, startByte) ← c.encodeItem slots buffer startByte
      c.encodeItems items buffer startByte

/-- `DEFAULT_BUFFER_SIZE`. -/
def defaultBufferSize : Nat := 31 * 7 + 6

/-- A class that is read only has the method of its base class. -/
def GeneratedClass.encodePayload [PythonFloat F] (c : GeneratedClass) (o : Obj F) :
    Except Exn Bytes := do
  if c.readOnly then throw .notImplementedError
  let bufSize := if c.codec.variableSize then defaultBufferSize else c.codec.staticSize
  let st ← runEncode c.codec.variableSize ⟨List.replicate bufSize 0, 0, fun _ => none, o.slots⟩ c.codec.encode
  let (buffer, startByte) ← match c.repeated with
    | none => pure (st.buffer, st.startByte)
    | some r => r.codec.encodeItems o.items st.buffer st.startByte
  return if c.codec.variableSize then buffer.take startByte else buffer

/-! ## 7. What `decode_payload` does -/

structure DecodeState (F : Type) where
  startByte : Nat
  word : Option Int
  slots : Slots F

def Source.eval (vals : List Int) (word : Option Int) : Source → Except Exn Int
  | .val i => item vals i
  | .word =>
      match word with
      | some n => .ok n
      | none => .error .nameError

def DecodeStmt.run [PythonFloat F] (vals : List Int) (word : Option Int) (slots : Slots F) :
    DecodeStmt → Except Exn (Option Int × Slots F)
  | .setWord i => do
      let low ← item vals i
      let high ← item vals (i + 1)
      return (some (low + high * 2 ^ 16), slots)
  | .checkValid keyword source invalid default => do
      let n ← source.eval vals word
      return (word, slots.set keyword (.int (CodeGeneration.checkValid n invalid default)))
  | .checkConvertFloat keyword source invalid scale offset => do
      let n ← source.eval vals word
      return (word, slots.set keyword (CodeGeneration.checkConvertFloat n invalid scale offset))
  | .toFloat keyword source offset => do
      let n ← source.eval vals word
      return (word, slots.set keyword (.float (CodeGeneration.toFloat n offset)))
  | .copy keyword source => do
      let n ← source.eval vals word
      return (word, slots.set keyword (.int n))
  | .bits keyword source length offset => do
      let n ← source.eval vals word
      return (word, slots.set keyword (.int (n / 2 ^ offset % 2 ^ length)))
  | .raiseIfInvalid keyword invalid => do
      if (← slots.read keyword).eqInt invalid then throw .n2kInvalidMessage
      return (word, slots)

def runDecodeStmts [PythonFloat F] (vals : List Int) (word : Option Int) (slots : Slots F) :
    List DecodeStmt → Except Exn (Option Int × Slots F)
  | [] => .ok (word, slots)
  | s :: code => do
      let (word, slots) ← s.run vals word slots
      runDecodeStmts vals word slots code

section Decode

variable (printable : Char → Bool)

def DecodeStep.run [PythonFloat F] (payload : Bytes) (st : DecodeState F) :
    DecodeStep → Except Exn (DecodeState F)
  | .unpackFrom format code =>
      match Lib.unpackFrom format payload st.startByte with
      | none => .error .structError
      | some vals => do
          let (word, slots) ← runDecodeStmts vals st.word st.slots code
          return { word, slots, startByte := st.startByte + calcsize format }
  | .cleanString length keyword =>
      let part := slice payload (st.startByte : Int) ((st.startByte + length : Nat) : Int)
      .ok { st with
        slots := st.slots.set keyword (.str (CodeGeneration.cleanString printable part))
        startByte := st.startByte + length }
  | .extractVarStr keyword => do
      let (s, length) ← CodeGeneration.extractVarStr printable payload st.startByte
      return { st with slots := st.slots.set keyword (.str s), startByte := st.startByte + length }

def runDecode [PythonFloat F] (payload : Bytes) (st : DecodeState F) :
    List DecodeStep → Except Exn (DecodeState F)
  | [] => .ok st
  | step :: steps => do
      let st ← step.run printable payload st
      runDecode payload st steps

/-- The `decode_payload` of the inner class: the slots, and where they end. -/
def Codec.decodeItem [PythonFloat F] (c : Codec) (payload : Bytes) (startByte : Nat) :
    Except Exn (Slots F × Nat) := do
  let st ← runDecode printable payload ⟨startByte, none, fun _ => none⟩ c.decode
  return (st.slots, if c.variableSize then st.startByte else startByte + c.staticSize)

def Codec.decodeItems [PythonFloat F] (c : Codec) (payload : Bytes) :
    Nat → Nat → Except Exn (List (Slots F))
  | 0, _ => .ok []
  | n + 1, startByte => do
      let (slots, startByte) ← c.decodeItem printable payload startByte
      let items ← c.decodeItems payload n startByte
      return slots :: items

/-- What `range` counts to. -/
def readCount (slots : Slots F) (keyword : String) : Except Exn Nat := do
  match ← slots.read keyword with
  | .int n => return n.toNat
  | _ => throw .typeError

/-- An object made from a payload. The count of a repeated set is 0 before. -/
def GeneratedClass.decodePayload [PythonFloat F] (c : GeneratedClass) (payload : Bytes) :
    Except Exn (Obj F) := do
  let slots : Slots F := match c.repeated with
    | none => fun _ => none
    | some r => Slots.set (fun _ => none) r.countMethod (.int 0)
  let st ← runDecode printable payload ⟨0, none, slots⟩ c.codec.decode
  match c.repeated with
  | none => return ⟨st.slots, []⟩
  | some r => do
      let count ← readCount st.slots r.countMethod
      let items ← r.codec.decodeItems printable payload count st.startByte
      return ⟨st.slots, items⟩

end Decode

end NavigationServer.CodeGeneration
