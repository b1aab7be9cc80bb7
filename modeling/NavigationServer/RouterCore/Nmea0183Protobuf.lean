/-
NavigationServer.RouterCore.Nmea0183Protobuf — NMEA0183 messages on the gRPC
link.

A message is filled into a protobuf object, with its raw bytes or with its decoded
fields, and is made again from the object on the other side. The message made
from raw bytes gets the time stamp of the object as its second argument, which
is the one that asks for the checksum.
-/
import NavigationServer.Lib.Text
import NavigationServer.RouterCore.Nmea0183Msg

namespace NavigationServer.RouterCore

open NavigationServer.Lib

/-- A message with its time stamp. -/
structure StampedMsg where
  msg : NMEA0183Msg
  ts : Time
  deriving DecidableEq

/-- `NMEA0183Msg.__init__`, when the clock reads `now`. -/
def StampedMsg.init (now : Time) (data : Bytes) (checksum : Bool) (timestamp : Option Time) :
    Except Exn StampedMsg := do
  return ⟨← NMEA0183Msg.init data checksum, timestamp.getD now⟩

/-- Its texts are the octets of their UTF-8 form. -/
structure Nmea0183pb where
  timestamp : Time
  rawMessage : Bytes
  talker : Bytes
  formatter : Bytes
  values : List Bytes
  deriving DecidableEq

def Nmea0183pb.empty : Nmea0183pb := ⟨0, [], [], [], []⟩

structure NMEA0183DecodedMsg where
  talker : Bytes
  formatter : Bytes
  values : List Bytes
  ts : Time
  deriving DecidableEq

/-- `decode`. The exception for octets that are no text is a `ValueError`. -/
def decodeText (octets : Bytes) : Except Exn Bytes :=
  if decodes octets then .ok octets else .error .valueError

namespace NMEA0183Msg

def talker (m : NMEA0183Msg) : Except Exn Bytes :=
  if m.proprietary then .error .valueError else .ok (m.address.take 2)

def formatter (m : NMEA0183Msg) : Except Exn Bytes :=
  if m.proprietary then .error .valueError else .ok (m.address.drop 2)

end NMEA0183Msg

/-- `as_protobuf`. -/
def StampedMsg.asProtobuf (m : StampedMsg) (r : Nmea0183pb) (setRaw : Bool) : Except Exn Nmea0183pb :=
  let r := { r with timestamp := m.ts }
  if setRaw then .ok { r with rawMessage := m.msg.raw }
  else do
    let named : Except Exn Nmea0183pb := do
      let talker ← decodeText (← m.msg.talker)
      let formatter ← decodeText (← m.msg.formatter)
      return { r with talker, formatter }
    let r ← match named with
      | .error .valueError => do return { r with talker := ← decodeText m.msg.address }
      | named => named
    let values ← m.msg.fields.mapM decodeText
    return { r with values := r.values ++ values }

/-- `nmea0183msg_from_protobuf`. The time stamp stands for the checksum: a time
is true unless it is 0. -/
def nmea0183msgFromProtobuf (now : Time) (pb : Nmea0183pb) :
    Except Exn (StampedMsg ⊕ NMEA0183DecodedMsg) :=
  if pb.rawMessage.length > 0 then
    (StampedMsg.init now pb.rawMessage (decide (pb.timestamp ≠ 0)) none).map .inl
  else .ok (.inr ⟨pb.talker, pb.formatter, pb.values, pb.timestamp⟩)

end NavigationServer.RouterCore
