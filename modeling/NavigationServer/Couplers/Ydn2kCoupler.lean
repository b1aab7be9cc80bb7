/-
NavigationServer.Couplers.Ydn2kCoupler — the Yacht Devices coupler: NMEA2000
frames as lines of text.

A line has the time, the direction (`R` or `T`), the CAN identifier on eight
digits and the data bytes, with blanks between them. What is modelled is
`decode_frame`, with the reassembly and the reply queue of the coupler it is
given, and `encode_nmea2000`. The decoder takes the PGN from the identifier on
18 bits as it is, and the definition of that number decides whether it is fast
packet; the encoder goes by the flag of the message and puts the destination
where the source stands.
-/
import Mathlib.Data.Nat.Log
import NavigationServer.Nmea2000.FastPacket
import NavigationServer.Nmea2000Datamodel.PgnDefinition
import NavigationServer.RouterCore.Nmea2000Msg

namespace NavigationServer.Couplers

open NavigationServer.Lib
open NavigationServer.Nmea2000
open NavigationServer.Nmea2000Datamodel
open NavigationServer.RouterCore

/-- `n2kWriter` tells whether the coupler sends. -/
structure YDCoupler where
  fastPacketHandler : FastPacketHandler
  n2kWriter : Bool
  replyQueue : List Bytes

namespace YDCoupler

def new : YDCoupler := ⟨.new, false, []⟩

def blank : UInt8 := 32

/-- The size of the reply queue. -/
def replyQueueSize : Nat := 30

def decodeMsgid (msgid : Bytes) : Except Exn (Nat × Nat × Nat) := do
  let pgn := (← int16 (slice msgid 1 6)) &&& 0x3FFFF
  let prio := ((← int16 (slice msgid 0 2)) >>> 2) &&& 7
  let sa ← int16 (slice msgid 6 8)
  return (pgn, prio, sa)

/-- A data byte, which has to fit into an octet. -/
def dataByte (db : Bytes) : Except Exn UInt8 := do
  let n ← int16 db
  if 255 < n then throw .valueError
  return UInt8.ofNat n

/-- The direction field. A reply on send goes to the reply queue. -/
def checkDirection (coupler : YDCoupler) (direction : Bytes) (pgn : Nat) (frame : Bytes) :
    Except Exn Unit × YDCoupler :=
  if direction = [84] then
    if coupler.n2kWriter = false then
      if pgn ∉ [60159, 61183, 61236, 126996] then (.error .incompleteMessage, coupler)
      else (.ok (), coupler)
    else if coupler.replyQueue.length < replyQueueSize then
      (.ok (), { coupler with replyQueue := coupler.replyQueue ++ [frame] })
    else (.error .incompleteMessage, coupler)
  else if direction ≠ [82] then (.error .incompleteMessage, coupler)
  else (.ok (), coupler)

/-- The reassembly. What the first frame of a transfer raises is not caught. -/
def reassemble (defs : PGNDefinitions) (coupler : YDCoupler) (now : Time) (pgn prio sa : Nat)
    (data : Bytes) : Except Exn NMEA2000Msg × YDCoupler :=
  match coupler.fastPacketHandler.isPgnActive pgn sa data with
  | .error e => (.error e, coupler)
  | .ok true =>
      match coupler.fastPacketHandler.processFrame now pgn sa data with
      | (.ok (some data), fp) =>
          (.ok (.of pgn prio sa 0 data), { coupler with fastPacketHandler := fp })
      | (.ok none, fp) => (.error .incompleteMessage, { coupler with fastPacketHandler := fp })
      | (.error (.fastPacket _), fp) =>
          (.error .incompleteMessage, { coupler with fastPacketHandler := fp })
      | (.error e, fp) => (.error e, { coupler with fastPacketHandler := fp })
  | .ok false =>
      match definedFastPacket defs pgn with
      | .error (.unknownPGN _) => (.error .incompleteMessage, coupler)
      | .error e => (.error e, coupler)
      | .ok true =>
          match coupler.fastPacketHandler.processFrame now pgn sa data with
          | (.ok (some data), fp) =>
              (.ok (.of pgn prio sa 0 data), { coupler with fastPacketHandler := fp })
          | (.ok none, fp) => (.error .incompleteMessage, { coupler with fastPacketHandler := fp })
          | (.error e, fp) => (.error e, { coupler with fastPacketHandler := fp })
      | .ok false => (.ok (.of pgn prio sa 0 data), coupler)

/-- `decode_frame`. `none` is the message that marks the end of the input. -/
def decodeFrame (defs : PGNDefinitions) (coupler : YDCoupler) (now : Time) (frame : Bytes)
    (pgnWhiteList : Option (List Nat)) : Except Exn (Option NMEA2000Msg) × YDCoupler :=
  match item frame 0 with
  | .error e => (.error e, coupler)
  | .ok first =>
      if first = 4 then (.ok none, coupler)
      else
        let fields := frame.splitOn blank
        if fields.length ≤ 3 then (.error .incompleteMessage, coupler)
        else
          match item fields 2 >>= decodeMsgid with
          | .error e => (.error e, coupler)
          | .ok (pgn, prio, sa) =>
              if ∃ l ∈ pgnWhiteList, pgn ∉ l then (.error .incompleteMessage, coupler)
              else
                match coupler.checkDirection (fields.getD 1 []) pgn frame with
                | (.error e, coupler) => (.error e, coupler)
                | (.ok (), coupler) =>
                    match (fields.drop 3).mapM dataByte with
                    | .error e => (.error e, coupler)
                    | .ok data =>
                        let (r, coupler) := coupler.reassemble defs now pgn prio sa data
                        (r.map some, coupler)

/-- The number of a CAN identifier. -/
def canId (msg : NMEA2000Msg) : Nat := msg.pgn <<< 8 ||| msg.prio <<< 26 ||| msg.da

/-- `b'%08X'`: eight digits, or as many as the number has. -/
def formatId (n : Nat) : Bytes := hexNumber .upper (max 8 (Nat.log 16 n + 1)) n

/-- `data.hex(b' ')`. -/
def hexText (data : Bytes) : Bytes := [blank].intercalate (data.map (hexByte .lower))

/-- A line of `encode_nmea2000`, with its CR LF. -/
def encodeLine (canid : Bytes) (data : Bytes) : Bytes := canid ++ blank :: hexText data ++ [13, 10]

/-- `encode_nmea2000`, a generator, run to its end: the lines, and how it
ended. -/
def encodeNmea2000 (coupler : YDCoupler) (msg : NMEA2000Msg) :
    (List Bytes × Option Exn) × YDCoupler :=
  let canid := formatId (canId msg)
  if msg.fastPacket then
    let ((frames, e), fp) := coupler.fastPacketHandler.splitMessage msg.pgn msg.payload
    ((frames.map (encodeLine canid), e), { coupler with fastPacketHandler := fp })
  else (([encodeLine canid msg.payload], none), coupler)

/-- `encode_nmea2000`, of which the consumer asks for `asked` lines. -/
def encodeNmea2000Upto (coupler : YDCoupler) (msg : NMEA2000Msg) (asked : Nat) :
    (List Bytes × Option Exn) × YDCoupler :=
  let canid := formatId (canId msg)
  if msg.fastPacket then
    let ((frames, e), fp) :=
      coupler.fastPacketHandler.splitMessageUpto msg.pgn msg.payload asked
    ((frames.map (encodeLine canid), e), { coupler with fastPacketHandler := fp })
  else (([encodeLine canid msg.payload].take asked, none), coupler)

end YDCoupler

end NavigationServer.Couplers
