/-
NavigationServer.RouterCore.Nmea2000Msg — the router's NMEA2000 message.

A message carries the two flags its constructor computes, with their
equations: whether senders split it (`fastPacket`), and whether it belongs to
the base protocol (`isIso`). The time stamp is left out, as nothing modelled
here reads it, and so is the construction from a protobuf object.
-/
import NavigationServer.Lib.Words
import NavigationServer.RouterCommon.Exceptions

namespace NavigationServer.RouterCore

open NavigationServer.Lib

def pgnService : List Nat :=
  [59392, 59904, 60928, 65240, 126208, 126464, 126993, 126996, 126998]

/-- `_check_fast_packet`. The second test is a chained comparison, so it holds
of 0x10000 only. -/
def checkFastPacket (pgn : Nat) (payload : Bytes) : Bool :=
  if pgn < 0x10000 then false
  else if 0x10000 ≥ pgn ∧ pgn < 0x1F000 then true
  else if pgn ≥ 0x1FF00 then true
  else decide (payload.length > 8)

structure NMEA2000Msg where
  pgn : Nat
  prio : Nat
  sa : Nat
  da : Nat
  payload : Bytes
  fastPacket : Bool
  isIso : Bool
  fastPacket_eq : fastPacket = checkFastPacket pgn payload
  isIso_eq : isIso = decide (pgn ∈ pgnService)
  deriving DecidableEq

namespace NMEA2000Msg

/-- The message with a payload. -/
def of (pgn prio sa da : Nat) (payload : Bytes) : NMEA2000Msg where
  pgn
  prio
  sa
  da
  payload
  fastPacket := checkFastPacket pgn payload
  isIso := decide (pgn ∈ pgnService)
  fastPacket_eq := rfl
  isIso_eq := rfl

/-- `NMEA2000Msg.__init__` without a protobuf object. -/
def init (pgn prio sa da : Nat) (payload : Option Bytes) : Except Exn NMEA2000Msg :=
  match payload with
  | none => .error .valueError
  | some payload => .ok (of pgn prio sa da payload)

/-- The eleven low bits of the first two bytes, whatever the PGN. -/
def getManufacturer (msg : NMEA2000Msg) : Except Exn Nat :=
  if msg.payload.length < 2 then .error .structError
  else .ok (ofLE (msg.payload.take 2) % 2 ^ 11)

end NMEA2000Msg

end NavigationServer.RouterCore
