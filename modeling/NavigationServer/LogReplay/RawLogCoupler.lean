/-
NavigationServer.LogReplay.RawLogCoupler — the replay of logged CAN frames.

A record holds the identifier on eight hexadecimal digits, a separator and the
data. What is modelled is `process_can_frame`, with the two filters and the
reassembly of the coupler. It raises IncompleteMessage where there is no
message to return.
-/
import NavigationServer.Nmea2000.FastPacket
import NavigationServer.Nmea2000Datamodel.PgnDefinition
import NavigationServer.RouterCore.Nmea2000Msg

namespace NavigationServer.LogReplay

open NavigationServer.Lib
open NavigationServer.Nmea2000
open NavigationServer.Nmea2000Datamodel
open NavigationServer.RouterCore

structure RawLogCoupler where
  fastPacketHandler : FastPacketHandler
  pgnWhiteList : Option (List Nat)
  saBlackList : List Nat

namespace RawLogCoupler

/-- A new coupler without a filter. -/
def new : RawLogCoupler := ⟨.new, none, []⟩

/-- The reassembly. What the first frame of a transfer raises is not caught,
and a transfer that is complete with its first frame is not returned. -/
def reassemble (defs : PGNDefinitions) (coupler : RawLogCoupler) (now : Time)
    (pgn prio sa da : Nat) (data : Bytes) : Except Exn NMEA2000Msg × RawLogCoupler :=
  match coupler.fastPacketHandler.isPgnActive pgn sa data with
  | .error e => (.error e, coupler)
  | .ok true =>
      match coupler.fastPacketHandler.processFrame now pgn sa data with
      | (.ok (some data), fp) =>
          (.ok (.of pgn prio sa da data), { coupler with fastPacketHandler := fp })
      | (.ok none, fp) => (.error .incompleteMessage, { coupler with fastPacketHandler := fp })
      | (.error (.fastPacket _), fp) =>
          (.error .incompleteMessage, { coupler with fastPacketHandler := fp })
      | (.error e, fp) => (.error e, { coupler with fastPacketHandler := fp })
  | .ok false =>
      match fastPacketCheck defs pgn with
      | .error e => (.error e, coupler)
      | .ok true =>
          match coupler.fastPacketHandler.processFrame now pgn sa data with
          | (.ok _, fp) => (.error .incompleteMessage, { coupler with fastPacketHandler := fp })
          | (.error e, fp) => (.error e, { coupler with fastPacketHandler := fp })
      | .ok false => (.ok (.of pgn prio sa da data), coupler)

/-- `process_can_frame`. -/
def processCanFrame (defs : PGNDefinitions) (coupler : RawLogCoupler) (now : Time)
    (frame : Bytes) : Except Exn NMEA2000Msg × RawLogCoupler :=
  match int16 (slice frame 0 8), fromhex (frame.drop 9) with
  | .ok canId, .ok data =>
      let (pgn, da) := pgnPdu1Adjust ((canId >>> 8) &&& 0x1FFFF)
      let sa := canId &&& 0xFF
      if sa ∈ coupler.saBlackList then (.error .incompleteMessage, coupler)
      else if ∃ l ∈ coupler.pgnWhiteList, pgn ∉ l then (.error .incompleteMessage, coupler)
      else
        let prio := (canId >>> 26) &&& 0x7
        coupler.reassemble defs now pgn prio sa da data
  | _, _ => (.error .incompleteMessage, coupler)

end RawLogCoupler

end NavigationServer.LogReplay
