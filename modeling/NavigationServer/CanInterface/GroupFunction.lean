/-
NavigationServer.CanInterface.GroupFunction — commands on the NAME and on the
configuration information, and their acknowledgement.

A group function is a message of PGN 126208. An application executes a command
with the numbers and values that it carries, and answers with one code for each.
The acknowledgement packs two codes in a byte: `packLoop` writes a byte when it
has the second one.
-/
import NavigationServer.CanInterface.Application
import NavigationServer.CodeGeneration.PythonGen
import NavigationServer.Nmea2000Datamodel.MutableName

namespace NavigationServer.CanInterface

open NavigationServer.CodeGeneration (setByte utf8 cleanString)
open NavigationServer.Lib
open NavigationServer.Nmea2000
open NavigationServer.Nmea2000Datamodel
open NavigationServer.RouterCore

/-! ## 1. The head of a group function -/

inductive PgnClass where
  | addressClaim
  | productInformation
  | configurationInformation
  deriving DecidableEq, Repr

/-- `pgn_function_table`. -/
def pgnFunctionTable (pgn : Nat) : Option PgnClass :=
  if pgn = 60928 then some .addressClaim
  else if pgn = 126996 then some .productInformation
  else if pgn = 126998 then some .configurationInformation
  else none

/-- `GroupFunction.__init__` of a message: the function and its PGN. The
definition of the PGN of group functions is asked for first. -/
def groupFunctionHeader (defs : PGNDefinitions) (payload : Bytes) : Except Exn (Nat × Nat) := do
  let _ ← defs.pgnDefinition 126208 0
  let v ← unpackFrom 4 payload 0
  return (ofLE (v.take 1), ofLE (v.drop 1))

/-! ## 2. The acknowledgement -/

structure AcknowledgeGroupFunction where
  functionPgn : Nat
  pgnErrorCode : Nat
  transmissionErrorCode : Nat
  nbParam : Nat
  params : List Nat
  deriving DecidableEq, Repr

namespace AcknowledgeGroupFunction

/-- `__init__` without a message. -/
def create (defs : PGNDefinitions) (pgn pgnErrorCode : Nat) :
    Except Exn AcknowledgeGroupFunction := do
  let _ ← defs.pgnDefinition 126208 0
  if 0 < pgn then return ⟨pgn, pgnErrorCode, 0, 0, []⟩
  throw .valueError

def addParameter (a : AcknowledgeGroupFunction) (value : Nat) : AcknowledgeGroupFunction :=
  { a with nbParam := a.nbParam + 1, params := a.params ++ [value] }

/-- The loop of `unpack_params`, over `n` more parameters. -/
def unpackLoop (buffer : Bytes) : (n pIdx bIdx : Nat) → Except Exn (List Nat)
  | 0, _, _ => .ok []
  | n + 1, pIdx, bIdx => do
      let v := (← item buffer bIdx).toNat
      if pIdx % 2 = 0 then
        let params ← unpackLoop buffer n (pIdx + 1) bIdx
        return ((v >>> 4) &&& 0xF) :: params
      else
        let params ← unpackLoop buffer n (pIdx + 1) (bIdx + 1)
        return (v &&& 0xF) :: params

def unpackParams (nbParam : Nat) (buffer : Bytes) : Except Exn (List Nat) :=
  unpackLoop buffer nbParam 0 0

/-- The loop of `pack_params`, over `n` more parameters. -/
def packLoop (params : List Nat) : (n pIdx v : Nat) → Bytes → Nat → Except Exn Bytes
  | 0, _, _, buffer, _ => .ok buffer
  | n + 1, pIdx, v, buffer, index => do
      let p ← item params pIdx
      if pIdx % 2 = 0 then packLoop params n (pIdx + 1) (p <<< 4) buffer index
      else
        let buffer ← setByte buffer index (v ||| p)
        packLoop params n (pIdx + 1) (v ||| p) buffer (index + 1)

def packParams (a : AcknowledgeGroupFunction) (buffer : Bytes) (index : Nat) : Except Exn Bytes :=
  packLoop a.params a.nbParam 0 0 buffer index

/-- The header of six bytes, `<BHBBB`. -/
def fullHeader (a : AcknowledgeGroupFunction) : Except Exn Bytes :=
  let errCode := a.pgnErrorCode <<< 4 ||| a.transmissionErrorCode
  if 255 < errCode ∨ 255 < a.nbParam then .error .structError
  else
    .ok (2 :: toLE 2 (a.functionPgn &&& 0xFFFF)
      ++ [UInt8.ofNat ((a.functionPgn >>> 16) &&& 0xFF), UInt8.ofNat errCode,
        UInt8.ofNat a.nbParam])

def encodePayload (a : AcknowledgeGroupFunction) : Except Exn Bytes := do
  let paramSize := a.nbParam / 2 + a.nbParam % 2
  let header ← a.fullHeader
  a.packParams (header ++ List.replicate paramSize 0) 6

/-- `__init__` of a message. `unpack_params` is given `message[6:]`, and a
message has no items. -/
def ofMessage (defs : PGNDefinitions) (msg : NMEA2000Msg) :
    Except Exn AcknowledgeGroupFunction := do
  let _ ← groupFunctionHeader defs msg.payload
  let _ ← unpackFrom 2 msg.payload 4
  throw .typeError

end AcknowledgeGroupFunction

/-! ## 3. The commands -/

section Commands

variable (printable : Char → Bool)

/-- `ConfigurationInformation.decode_command_parameters`. A number that is not
known is logged, and its value is not passed over. -/
def ConfigurationInformation.commandParameters (buffer : Bytes) :
    Nat → Nat → Except Exn (List (Nat × String))
  | 0, _ => .ok []
  | n + 1, index => do
      let paramNum ← item buffer index
      if paramNum = 1 ∨ paramNum = 2 then
        let (strValue, paramLen) ← CodeGeneration.extractVarStr printable buffer (index + 1)
        let rest ← commandParameters buffer n (index + 1 + paramLen)
        return (paramNum.toNat, strValue) :: rest
      else commandParameters buffer n (index + 1)

inductive CommandParameters where
  | name (params : List (Nat × Nat))
  | configuration (params : List (Nat × String))

/-- A group function that has been read. The parameters are those of a command
on a PGN that is in the table. -/
structure GroupFunction where
  functionPgn : Nat
  parameters : Option CommandParameters

/-- `CommandGroupFunction.__init__`. The class of the product information has
no commands. -/
def GroupFunction.command (payload : Bytes) (functionPgn : Nat) : Except Exn GroupFunction := do
  let v ← unpackFrom 2 payload 4
  let nbParam := ofLE (v.drop 1)
  match pgnFunctionTable functionPgn with
  | some .addressClaim =>
      let params ← AddressClaim.decodeCommandParameters payload nbParam 6
      return ⟨functionPgn, some (.name params)⟩
  | some .configurationInformation =>
      let params ← ConfigurationInformation.commandParameters printable payload nbParam 6
      return ⟨functionPgn, some (.configuration params)⟩
  | some .productInformation => throw .attributeError
  | none => return ⟨functionPgn, none⟩

/-- `create_group_function`. -/
def GroupFunction.create (defs : PGNDefinitions) (msg : NMEA2000Msg) :
    Except Exn GroupFunction := do
  let function ← item msg.payload 0
  if function ∉ [0, 1, 2, 3, 5] then throw .keyError
  let (_, functionPgn) ← groupFunctionHeader defs msg.payload
  if function = 1 then GroupFunction.command printable msg.payload functionPgn
  else if function = 2 then
    let a ← AcknowledgeGroupFunction.ofMessage defs msg
    return ⟨a.functionPgn, none⟩
  else return ⟨functionPgn, none⟩

/-! ## 4. The handler of an application -/

/-- What the commands of an application act upon. -/
structure CommandTarget where
  isoName : MutableName
  installation1 : String
  installation2 : String
  manufacturerInfo : String

namespace CommandTarget

/-- One parameter of `ConfigurationInformation.execute_command_parameters`. -/
def executeConfiguration (r : CommandTarget × AcknowledgeGroupFunction) (param : Nat × String) :
    CommandTarget × AcknowledgeGroupFunction :=
  if param.1 = 1 then ({ r.1 with installation1 := param.2 }, r.2.addParameter 0)
  else if param.1 = 2 then ({ r.1 with installation2 := param.2 }, r.2.addParameter 0)
  else (r.1, r.2.addParameter 1)

/-- `process_command_group_function`. -/
def processCommand (t : CommandTarget) (parameters : CommandParameters)
    (a : AcknowledgeGroupFunction) : CommandTarget × AcknowledgeGroupFunction :=
  match parameters with
  | .name params =>
      let (result, isoName) :=
        t.isoName.modifyParameters (params.map fun p => ((p.1 : Int), (p.2 : Int)))
      ({ t with isoName }, result.foldl AcknowledgeGroupFunction.addParameter a)
  | .configuration params => params.foldl executeConfiguration (t, a)

/-- `group_function_handler`: the payload of the acknowledgement, and what the
command has changed. -/
def groupFunctionHandler (defs : PGNDefinitions) (t : CommandTarget) (msg : NMEA2000Msg) :
    Except Exn Bytes × CommandTarget :=
  match GroupFunction.create printable defs msg with
  | .error e => (.error e, t)
  | .ok ⟨functionPgn, some parameters⟩ =>
      match AcknowledgeGroupFunction.create defs functionPgn 0 with
      | .error e => (.error e, t)
      | .ok acknowledge =>
          let (t, acknowledge) := t.processCommand parameters acknowledge
          (acknowledge.encodePayload, t)
  | .ok ⟨functionPgn, none⟩ =>
      match AcknowledgeGroupFunction.create defs functionPgn 1 with
      | .error e => (.error e, t)
      | .ok acknowledge => (acknowledge.encodePayload, t)

end CommandTarget

end Commands

end NavigationServer.CanInterface
