/-
NavigationServer.LogReplay.RawLogReader — the reader of trace files, and what
replays their records.

`load_file` takes the type of the file from its header and makes a record of
each line of received raw input. The records are read one by one from
`prepare_read` on. The coupler selects a processing function by the type, and
each of these takes its frame out of what it is given.

What is modelled is reading from the first record on, without the pauses of the
replay, and of the processing functions how they get at their frame.
-/
import NavigationServer.Couplers.ShipModul
import NavigationServer.Lib.DateTime
import NavigationServer.Lib.Lines

namespace NavigationServer.LogReplay

open NavigationServer.Lib
open NavigationServer.Couplers
open NavigationServer.RouterCore

/-! ## 1. Records -/

/-- A message is a text or a byte string. -/
inductive Message where
  | str (text : Bytes)
  | bytes (data : Bytes)
  deriving DecidableEq, Repr

structure RawLogRecord where
  timestamp : DateTime
  message : Message
  deriving DecidableEq

def rawLogNMEARecord (timestamp : DateTime) (message : Bytes) : RawLogRecord :=
  ⟨timestamp, .bytes (message ++ crLf)⟩

def veDirectRecord (timestamp : DateTime) (message : Bytes) : RawLogRecord :=
  ⟨timestamp, .str message⟩

def rawLogCANMessage (timestamp : DateTime) (message : Bytes) : RawLogRecord :=
  ⟨timestamp, .str message⟩

/-! ## 2. The file -/

namespace RawLogFile

/-- `read_decode`. -/
def readDecode (l : Bytes) : Except Exn (DateTime × Bytes) := do
  if (← item l 0) ≠ 82 then throw (.logReadError "WRONG PREFIX")
  match l.idxOf? 35, l.idxOf? 62 with
  | some ih, some iSup =>
      match strptime (slice l (ih + 1) iSup) with
      | some timestamp => return (timestamp, slice l (iSup + 1) (-1))
      | none => throw .valueError
  | _, _ => throw .valueError

/-- The type of the file, from its first line. -/
def headerType (line : Bytes) : Except Exn Bytes := do
  if (← item line 0) ≠ 72 then return ascii "ShipModulInterface"
  item (line.splitOn 124) 1

def recordClass (type : Bytes) : Except Exn (DateTime → Bytes → RawLogRecord) :=
  if type = ascii "SocketCANInterface" then .ok rawLogCANMessage
  else if type = ascii "ShipModulInterface" then .ok rawLogNMEARecord
  else if type = ascii "VEDirectInterface" then .ok veDirectRecord
  else .error .valueError

/-- The first line that is a record, and the lines behind it. Behind the last
line an empty one is read. -/
def readFirst : List Bytes → Except Exn ((DateTime × Bytes) × List Bytes)
  | [] => .error .indexError
  | l :: lines =>
      match readDecode l with
      | .ok record => .ok (record, lines)
      | .error .valueError => readFirst lines
      | .error e => .error e

/-- The records of the other lines. -/
def readRecords : List Bytes → Except Exn (List (DateTime × Bytes))
  | [] => .ok []
  | l :: lines =>
      match readDecode l with
      | .ok record => (readRecords lines).map (record :: ·)
      | .error .valueError => readRecords lines
      | .error (.logReadError _) => readRecords lines
      | .error e => .error e

end RawLogFile

/-- A file that is loaded. -/
structure RawLogFile where
  type : Bytes
  records : List RawLogRecord
  index : Nat
  previousRecord : Option RawLogRecord
  firstRecord : Bool

namespace RawLogFile

/-- `load_file`. -/
def loadFile (text : Bytes) : Except Exn RawLogFile :=
  match fileLines text with
  | [] => .error .indexError
  | line :: lines => do
      let type ← headerType line
      let recordClass ← recordClass type
      let (first, lines) ← readFirst lines
      let others ← readRecords lines
      return {
        type
        records := (first :: others).map (fun (ts, msg) => recordClass ts msg)
        index := 0
        previousRecord := none
        firstRecord := false }

/-- `set_references`. -/
def setReferences (file : RawLogFile) : Except Exn RawLogFile := do
  let record ← item file.records file.index
  return { file with previousRecord := some record, firstRecord := true }

/-- `prepare_read`. -/
def prepareRead (file : RawLogFile) (first : Nat) : Except Exn RawLogFile :=
  setReferences { file with index := first }

/-- `read_message`. -/
def readMessage (file : RawLogFile) : Except Exn (Option RawLogRecord) × RawLogFile :=
  if file.firstRecord then (.ok file.previousRecord, { file with firstRecord := false })
  else
    let file := { file with index := file.index + 1 }
    match file.records[file.index]? with
    | some record => (.ok (some record), file)
    | none => (.error (.logReadError "EOF"), file)

/-- The file is read until EOF, with these records. -/
inductive ReadsToEof : RawLogFile → List RawLogRecord → Prop where
  | eof {file file' : RawLogFile} (h : file.readMessage = (.error (.logReadError "EOF"), file')) :
      ReadsToEof file []
  | next {file file' : RawLogFile} {r : RawLogRecord} {rs : List RawLogRecord}
      (h : file.readMessage = (.ok (some r), file')) (hrest : ReadsToEof file' rs) :
      ReadsToEof file (r :: rs)

end RawLogFile

/-! ## 3. Replay -/

inductive ProcessMessage where
  | processNmea0183
  | processN2k
  | processYdFrame
  | processCanFrame
  deriving DecidableEq, Repr

/-- The processing function that `RawLogCoupler.open` selects. -/
def selectProcess (fileType : Bytes) (mode : CouplerMode) : Option ProcessMessage :=
  if fileType = ascii "ShipModulInterface" then
    if mode = .nmea0183 then some .processNmea0183 else some .processN2k
  else if fileType = ascii "YDCoupler" then some .processYdFrame
  else if fileType = ascii "SocketCANInterface" then some .processCanFrame
  else none

/-- What a processing function is given. -/
inductive Argument where
  | record (r : RawLogRecord)
  | message (m : Message)

/-- `.message`, which only a record has. -/
def Argument.getMessage : Argument → Except Exn Message
  | .record r => .ok r.message
  | .message _ => .error .attributeError

/-- What a processing function works on: a sentence (or the message that marks
the end), a line of text, or the identifier and data of a CAN frame. -/
inductive Frame where
  | sentence (msg : Option NMEA0183Msg)
  | line (text : Bytes)
  | can (canId : Nat) (data : Bytes)

/-- `process_shipmodul_frame`. -/
def processShipmodulFrame (message : Argument) : Except Exn Frame := do
  match ← message.getMessage with
  | .str _ => throw .typeError
  | .bytes frame =>
      match NMEA0183Msg.init frame true with
      | .ok msg => return .sentence (some msg)
      | .error .valueError => return .sentence none
      | .error .nmeaInvalidFrame => throw .incompleteMessage
      | .error e => throw e

/-- The beginning of `process_can_frame`. -/
def canFrame (message : Argument) : Except Exn Frame := do
  match ← message.getMessage with
  | .bytes _ => throw .typeError
  | .str frame =>
      match int16 (slice frame 0 8), fromhex (frame.drop 9) with
      | .ok canId, .ok data => return .can canId data
      | _, _ => throw .incompleteMessage

/-- The frame a processing function takes out of its argument. -/
def ProcessMessage.frameOf (f : ProcessMessage) (message : Argument) : Except Exn Frame :=
  match f with
  | .processNmea0183 => do processShipmodulFrame (.message (← message.getMessage))
  | .processN2k => do processShipmodulFrame (.message (← message.getMessage))
  | .processYdFrame => do
      match ← message.getMessage with
      | .str _ => throw .typeError
      | .bytes frame => return .line frame
  | .processCanFrame => canFrame message

end NavigationServer.LogReplay
