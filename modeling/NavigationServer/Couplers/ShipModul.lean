/-
NavigationServer.Couplers.ShipModul — the Shipmodul interface: NMEA2000 frames
in NMEA0183 sentences.

A `$MXPGN` sentence has three fields: the PGN, an attribute word with priority,
length and address, and the data, last byte first. `mxpgn_decode` works with
the reassembly of the coupler it is given, and raises IncompleteMessage where
there is no message to return. `encode_nmea2000` writes the sentences. A frame
may come with a tag block before the sentence. The configuration mode is left
out.
-/
import NavigationServer.Nmea2000.FastPacket
import NavigationServer.Nmea2000Datamodel.PgnDefinition
import NavigationServer.RouterCore.Nmea0183Msg
import NavigationServer.RouterCore.Nmea2000Msg

namespace NavigationServer.Couplers

open NavigationServer.Lib
open NavigationServer.Nmea2000
open NavigationServer.Nmea2000Datamodel
open NavigationServer.RouterCore

/-! ## 1. The sentence -/

inductive CouplerMode where
  | nmea0183
  | nmea2000
  | nmeaMix
  | nonNmea
  deriving DecidableEq, Repr

/-- `n2kController` tells whether the coupler has a controller. -/
structure ShipModulInterface where
  mode : CouplerMode
  n2kController : Bool
  fastPacketHandler : FastPacketHandler

namespace ShipModulInterface

/-- A new interface in NMEA2000 mode. -/
def new : ShipModulInterface := ⟨.nmea2000, false, .new⟩

/-- The PGN, the priority, the source and destination addresses and the data
of a sentence. -/
def mxpgnFields (coupler : ShipModulInterface) (m0183 : NMEA0183Msg) :
    Except Exn (Nat × Nat × Nat × Nat × Bytes) := do
  let fields := m0183.fields
  let pgn ← int16 (← item fields 0)
  let attr ← int16 (← item fields 1)
  let prio := (attr >>> 12) &&& 7
  let sourceAddr := attr &&& 0xFF
  let (pgn, destAddr) := pgnPdu1Adjust pgn
  if coupler.mode = .nmeaMix ∧ (coupler.n2kController = false ∨ pgnForController pgn = false) then
    throw (.couplerReadError "Cannot process MXPGN data messages in NMEA_MIX mode")
  let data ← fromhex (← item fields 2)
  return (pgn, prio, sourceAddr, destAddr, data.reverse)

/-- The reassembly. A transfer that is complete with its first frame is not
returned. -/
def reassemble (defs : PGNDefinitions) (coupler : ShipModulInterface) (now : Time)
    (pgn prio sourceAddr destAddr : Nat) (data : Bytes) :
    Except Exn NMEA2000Msg × ShipModulInterface :=
  match coupler.fastPacketHandler.isPgnActive pgn sourceAddr data with
  | .error e => (.error e, coupler)
  | .ok true =>
      match coupler.fastPacketHandler.processFrame now pgn sourceAddr data with
      | (.ok (some data), fp) =>
          (.ok (.of pgn prio sourceAddr destAddr data), { coupler with fastPacketHandler := fp })
      | (.ok none, fp) => (.error .incompleteMessage, { coupler with fastPacketHandler := fp })
      | (.error (.fastPacket _), fp) =>
          (.error .incompleteMessage, { coupler with fastPacketHandler := fp })
      | (.error e, fp) => (.error e, { coupler with fastPacketHandler := fp })
  | .ok false =>
      match fastPacketCheck defs pgn with
      | .error (.unknownPGN _) => (.error .incompleteMessage, coupler)
      | .error e => (.error e, coupler)
      | .ok true =>
          match coupler.fastPacketHandler.processFrame now pgn sourceAddr data with
          | (.ok _, fp) => (.error .incompleteMessage, { coupler with fastPacketHandler := fp })
          | (.error (.fastPacket _), fp) =>
              (.error .incompleteMessage, { coupler with fastPacketHandler := fp })
          | (.error e, fp) => (.error e, { coupler with fastPacketHandler := fp })
      | .ok false => (.ok (.of pgn prio sourceAddr destAddr data), coupler)

/-- `mxpgn_decode`. -/
def mxpgnDecode (defs : PGNDefinitions) (coupler : ShipModulInterface) (now : Time)
    (m0183 : NMEA0183Msg) : Except Exn NMEA2000Msg × ShipModulInterface :=
  match coupler.mxpgnFields m0183 with
  | .error e => (.error e, coupler)
  | .ok (pgn, prio, sourceAddr, destAddr, data) =>
      coupler.reassemble defs now pgn prio sourceAddr destAddr data

/-! ## 2. The frames -/

def backslash : UInt8 := 92

def versionFmt : Bytes := ascii "$PSMDVER"

/-- The check of the connection: whether an answer is expected, and whether it
came. -/
structure ConnectionCheck where
  inProgress : Bool
  ok : Bool
  deriving DecidableEq, Repr

/-- `shipmodul_process_frame`. `none` is the message that marks the end of the
input. The end of the tag is searched behind `\s`, and its index is one of the
part that was searched. -/
def shipmodulProcessFrame (check : ConnectionCheck) (frame : Bytes) :
    Except Exn (Option NMEA0183Msg) × ConnectionCheck :=
  match frame with
  | [] => (.error .indexError, check)
  | first :: _ =>
      if first = 4 then (.ok none, check)
      else if check.inProgress = true ∧ slice frame 0 8 = versionFmt then
        ((NMEA0183Msg.init frame true).map some, { check with ok := true })
      else if slice frame 0 2 = ascii "\\s" then
        match (frame.drop 2).idxOf? backslash with
        | none => (.error .valueError, check)
        | some endOfTag => ((NMEA0183Msg.init (frame.drop (endOfTag + 1)) true).map some, check)
      else ((NMEA0183Msg.init frame true).map some, check)

/-- What a frame comes to. -/
inductive Extracted where
  | endOfInput
  | nmea0183 (m : NMEA0183Msg)
  | nmea2000 (msg : NMEA2000Msg)
  deriving DecidableEq

/-- `shipmodul_extract_nmea2000`. -/
def shipmodulExtractNmea2000 (defs : PGNDefinitions) (coupler : ShipModulInterface) (now : Time)
    (check : ConnectionCheck) (frame : Bytes) : Except Exn Extracted × ShipModulInterface :=
  match (shipmodulProcessFrame check frame).1 with
  | .error e => (.error e, coupler)
  | .ok none => (.ok .endOfInput, coupler)
  | .ok (some m0183) =>
      if m0183.address.drop 2 = ascii "PGN" then
        let (r, coupler) := coupler.mxpgnDecode defs now m0183
        (r.map .nmea2000, coupler)
      else (.ok (.nmea0183 m0183), coupler)

/-! ## 3. The encoder -/

/-- The loop of `encode`: the bytes of a packet, from the place `id` down. The
index may come below zero. -/
def writeReversed : Bytes → Bytes → Int → Except Exn (Bytes × Int)
  | [], rdata, id => .ok (rdata, id)
  | b :: data, rdata, id =>
      match setItem rdata id b with
      | none => .error .indexError
      | some rdata => writeReversed data rdata (id - 1)

/-- The attribute word. It has bit 15, so four digits at least. -/
def attributeOf (msg : NMEA2000Msg) (l : Nat) : Nat :=
  0x8000 ||| msg.prio <<< 12 ||| l <<< 8 ||| msg.da

/-- `encode`: the sentence of a packet, and the buffer that the next packet
finds. -/
def encode (msg : NMEA2000Msg) (rdata data : Bytes) : Except Exn (Bytes × Bytes) := do
  let (rdata, id) ← writeReversed data rdata 7
  let sd := ascii "$MXPGN" ++ comma :: [comma].intercalate
    [hexFormat .upper 6 msg.pgn, hexFormat .upper 4 (attributeOf msg data.length),
      hexBytes .lower (slice rdata (id + 1) rdata.length)]
  return (sentence sd ++ crLf, rdata)

/-- The packets one after the other, up to the first exception. -/
def encodeAll (msg : NMEA2000Msg) : Bytes → List Bytes → List Bytes × Option Exn
  | _, [] => ([], none)
  | rdata, data :: packets =>
      match encode msg rdata data with
      | .error e => ([], some e)
      | .ok (frame, rdata) =>
          let (frames, e) := encodeAll msg rdata packets
          (frame :: frames, e)

/-- `encode_nmea2000`, a generator, run to its end: the frames, and how it
ended. -/
def encodeNmea2000 (coupler : ShipModulInterface) (msg : NMEA2000Msg) :
    (List Bytes × Option Exn) × ShipModulInterface :=
  let rdata := List.replicate 8 0
  if msg.fastPacket then
    let ((packets, e), fp) := coupler.fastPacketHandler.splitMessage msg.pgn msg.payload
    -- a packet has eight bytes, as many as the buffer
    let (frames, e') := encodeAll msg rdata packets
    ((frames, e' <|> e), { coupler with fastPacketHandler := fp })
  else (encodeAll msg rdata [msg.payload], coupler)

/-- `encode_nmea2000`, of which the consumer asks for `asked` frames. -/
def encodeNmea2000Upto (coupler : ShipModulInterface) (msg : NMEA2000Msg) (asked : Nat) :
    (List Bytes × Option Exn) × ShipModulInterface :=
  let rdata := List.replicate 8 0
  if msg.fastPacket then
    let ((packets, e), fp) :=
      coupler.fastPacketHandler.splitMessageUpto msg.pgn msg.payload asked
    -- a packet has eight bytes, as many as the buffer
    let (frames, e') := encodeAll msg rdata packets
    ((frames, e' <|> e), { coupler with fastPacketHandler := fp })
  else (encodeAll msg rdata ([msg.payload].take asked), coupler)

end ShipModulInterface

end NavigationServer.Couplers
