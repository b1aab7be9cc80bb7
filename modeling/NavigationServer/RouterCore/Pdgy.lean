/-
NavigationServer.RouterCore.Pdgy — NMEA2000 messages as PDGY sentences.

`asPDGY` writes a message with its header in decimal and its payload in base 64.
`fromPGDY` reads a received sentence, which has six fields, or one to transmit,
which has three; there destination 0 stands for all addresses. Where it refuses
a sentence it shows the text in the log, and a text that is not UTF-8 raises a
ValueError there. What a decoder hands to the constructor of a message is a
`ReadMsg`: the numbers come from text and have either sign.
-/
import NavigationServer.Lib.Base64
import NavigationServer.Lib.Decimal
import NavigationServer.RouterCore.Nmea0183Msg
import NavigationServer.RouterCore.Nmea2000Msg

namespace NavigationServer.RouterCore

open NavigationServer.Lib

/-! ## 1. Text -/

/-- `'%d'`. -/
def formatInt (n : Int) : Bytes := if n < 0 then 45 :: decimal n.natAbs else decimal n.natAbs

/-- A byte of a byte string as it is shown between quotes. -/
def showByte (quote b : UInt8) : String :=
  let c := Char.ofNat b.toNat
  if b = 92 ∨ b = quote then "\\" ++ c.toString
  else if b = 9 then "\\t"
  else if b = 10 then "\\n"
  else if b = 13 then "\\r"
  else if 32 ≤ b ∧ b ≤ 126 then c.toString
  else "\\x" ++ String.ofList ((hexByte .lower b).map (fun d => Char.ofNat d.toNat))

/-- The text of a `bytearray`. The quote is a double one if there is a single
one inside and no double one. -/
def showBytearray (data : Bytes) : String :=
  let quote : UInt8 := if 39 ∈ data ∧ 34 ∉ data then 34 else 39
  let q := (Char.ofNat quote.toNat).toString
  "bytearray(b" ++ q ++ String.join (data.map (showByte quote)) ++ q ++ ")"

/-- `str` of a sentence. -/
def NMEA0183Msg.str (m : NMEA0183Msg) : Except Exn String :=
  match String.fromUTF8? ⟨(m.raw.take m.datalen).toArray⟩ with
  | some text => .ok text
  | none => .error .valueError

/-! ## 2. Writing -/

/-- `asPDGY`, with the time stamp of the message. -/
def asPDGY (msg : NMEA2000Msg) (ts : Time) : Bytes :=
  ascii "!PDGY" ++ comma :: [comma].intercalate
    [decimal msg.pgn, decimal msg.prio, decimal msg.sa, decimal msg.da,
      formatInt (ts.num.tdiv ts.den), b64encode msg.payload] ++ crLf

/-! ## 3. Reading -/

/-- What a decoder has read of a message. -/
structure ReadMsg where
  pgn : Int
  prio : Int
  sa : Int
  da : Int
  payload : Bytes
  deriving DecidableEq, Repr

/-- `base64.b64decode`. Its `binascii.Error` is a ValueError. -/
def base64Payload (text : Bytes) : Except Exn Bytes :=
  match b64decode text with
  | some payload => .ok payload
  | none => .error .valueError

/-- The destination of a PDGY sentence. -/
def pdgyDestination (field : Bytes) : Except Exn Int := do
  let da ← int10 field
  return if da = 0 then 255 else da

def decodePGDY (msg : NMEA0183Msg) : Except Exn ReadMsg :=
  match msg.fields with
  | [pgn, prio, sa, da, _, data] => do
      let da ← pdgyDestination da
      let pgn ← int10 pgn
      let prio ← int10 prio
      let sa ← int10 sa
      let payload ← base64Payload data
      return ⟨pgn, prio, sa, da, payload⟩
  | [pgn, da, data] => do
      let da ← pdgyDestination da
      match b64decode data with
      | none =>
          let text := showBytearray data
          throw (.n2kRawDecodeError s!"PGDY decode error of base64 string {text}")
      | some payload =>
          let pgn ← int10 pgn
          return ⟨pgn, 0, 0, da, payload⟩
  | fields =>
      let n := fields.length
      throw (.n2kRawDecodeError s!"PDGY message format error => number of fields:{n}")

/-- `fromPGDY`. `none` is the message that marks the end of the input. -/
def fromPGDY (frame : Bytes) : Except Exn (Option ReadMsg) := do
  match ← processNmea0183Frame frame false with
  | none => return none
  | some msg =>
      if msg.address ≠ ascii "PDGY" ∨ msg.delimiter ≠ 33 then
        let _ ← msg.str
        throw .nmeaInvalidFrame
      else
        match decodePGDY msg with
        | .error (.n2kRawDecodeError text) =>
            let _ ← msg.str
            throw (.n2kRawDecodeError text)
        | .error e => throw e
        | .ok rmsg => return some rmsg

/-- What the loop that reads the frames of a client catches. -/
def caughtByIPReader : Exn → Bool
  | .incompleteMessage => true
  | .nmeaInvalidFrame => true
  | .couplerReadError _ => true
  | _ => false

end NavigationServer.RouterCore
