/-
NavigationServer.Nmea2000.Device — the view of a device on the bus.

A device counts the messages it gets by PGN and decodes four of them. The
decoders are those of the ISO message classes: what they read of a payload,
and which exception a payload that is too short raises. A string field is kept
as the bytes that `clean_string` is given, which raises for none of them.
`receive_msg` swallows the KeyError of a handler, and no other exception.
-/
import Mathlib.Data.List.AList
import NavigationServer.Lib.Words
import NavigationServer.Nmea2000Datamodel.PgnDefinition
import NavigationServer.RouterCore.Nmea2000Msg

namespace NavigationServer.Nmea2000

open NavigationServer.Lib
open NavigationServer.Nmea2000Datamodel
open NavigationServer.RouterCore

/-! ## 1. The decoders -/

/-- The bytes that `Struct.unpack_from` reads. -/
def unpackFrom (size : Nat) (payload : Bytes) (start : Nat) : Except Exn Bytes :=
  if start + size ≤ payload.length then .ok ((payload.drop start).take size)
  else .error .structError

/-- A string with its length and its type in front, and the bytes it takes. -/
def extractVarStr (payload : Bytes) (startByte : Nat) : Except Exn (Bytes × Nat) := do
  let totalLen ← item payload startByte
  let type ← item payload (startByte + 1)
  if type ≠ 1 then return ([], totalLen.toNat)
  if totalLen = 2 then return ([], totalLen.toNat)
  return (slice payload (startByte + 2 : Nat) (startByte + totalLen.toNat : Nat), totalLen.toNat)

/-- `AddressClaim`: without the field the dictionary of fields has no NAME. -/
def AddressClaim.decode (payload : Bytes) : Except Exn Nat :=
  if 8 ≤ payload.length then .ok (ofLE (payload.take 8)) else .error .keyError

structure Heartbeat where
  interval : Nat
  sequence : Nat
  ctrl1State : Nat
  ctrl2State : Nat
  equipmentStatus : Nat

def Heartbeat.decodePayload (payload : Bytes) : Except Exn Heartbeat := do
  let val ← unpackFrom 8 payload 0
  let states := ofLE ((val.drop 3).take 1)
  return {
    interval := ofLE (val.take 2)
    sequence := ofLE ((val.drop 2).take 1)
    ctrl1State := states &&& 0x3
    ctrl2State := (states >>> 2) &&& 0x3
    equipmentStatus := (states >>> 4) &&& 0x3 }

structure ProductInformation where
  nmea2000Version : Nat
  productCode : Nat
  modelId : Bytes
  softwareVersion : Bytes
  modelVersion : Bytes
  modelSerialCode : Bytes
  certificationLevel : Nat
  loadEquivalency : Nat

def ProductInformation.decodePayload (payload : Bytes) : Except Exn ProductInformation := do
  let first ← unpackFrom 4 payload 0
  let last ← unpackFrom 2 payload 132
  return {
    nmea2000Version := ofLE (first.take 2)
    productCode := ofLE (first.drop 2)
    modelId := slice payload 4 36
    softwareVersion := slice payload 36 68
    modelVersion := slice payload 68 100
    modelSerialCode := slice payload 100 132
    certificationLevel := ofLE (last.take 1)
    loadEquivalency := ofLE (last.drop 1) }

structure ConfigurationInformation where
  installation1 : Bytes
  installation2 : Bytes
  manufacturerInfo : Bytes

def ConfigurationInformation.decodePayload (payload : Bytes) :
    Except Exn ConfigurationInformation := do
  let (installation1, len1) ← extractVarStr payload 0
  let (installation2, len2) ← extractVarStr payload len1
  let (manufacturerInfo, _) ← extractVarStr payload (len1 + len2)
  return ⟨installation1, installation2, manufacturerInfo⟩

/-! ## 2. The device -/

/-- A device, with the counts of the messages received by PGN. -/
structure NMEA2000Device where
  address : Nat
  lastmsgTs : Time
  pgnReceived : AList (fun _ : Nat => Nat)
  isoName : Option Nat
  heartbeat : Option Heartbeat
  productInformation : Option ProductInformation
  configurationInfo : Option ConfigurationInformation
  changed : Bool

namespace NMEA2000Device

def new (address : Nat) : NMEA2000Device :=
  ⟨address, 0, ∅, none, none, none, none, true⟩

/-- `add_pgn_count`, or `none` for N2KUnknownPGN. -/
def addPgnCount (defs : PGNDefinitions) (dev : NMEA2000Device) (pgn : Nat) :
    Option NMEA2000Device :=
  match dev.pgnReceived.lookup pgn with
  | some count => some { dev with pgnReceived := dev.pgnReceived.insert pgn (count + 1) }
  | none =>
      match defs.pgnDefinition pgn 0 with
      | .ok _ => some { dev with pgnReceived := dev.pgnReceived.insert pgn 1 }
      | .error _ => none

def p60928 (dev : NMEA2000Device) (msg : NMEA2000Msg) : Except Exn Unit × NMEA2000Device :=
  match AddressClaim.decode msg.payload with
  | .error e => (.error e, dev)
  | .ok name =>
      if dev.isoName = some name then (.ok (), dev)
      else (.ok (), { dev with changed := true, isoName := some name })

def p126993 (dev : NMEA2000Device) (msg : NMEA2000Msg) : Except Exn Unit × NMEA2000Device :=
  match Heartbeat.decodePayload msg.payload with
  | .error e => (.error e, dev)
  | .ok heartbeat => (.ok (), { dev with heartbeat := some heartbeat })

def p126996 (dev : NMEA2000Device) (msg : NMEA2000Msg) : Except Exn Unit × NMEA2000Device :=
  match dev.productInformation with
  | some _ => (.ok (), dev)
  | none =>
      let dev := { dev with changed := true }
      match ProductInformation.decodePayload msg.payload with
      | .error e => (.error e, dev)
      | .ok info => (.ok (), { dev with productInformation := some info })

def p126998 (dev : NMEA2000Device) (msg : NMEA2000Msg) : Except Exn Unit × NMEA2000Device :=
  match ConfigurationInformation.decodePayload msg.payload with
  | .error e => (.error e, dev)
  | .ok info => (.ok (), { dev with configurationInfo := some info })

/-- The handler of a PGN. A PGN without one is a KeyError. -/
def processVector (dev : NMEA2000Device) (msg : NMEA2000Msg) : Except Exn Unit × NMEA2000Device :=
  if msg.pgn = 60928 then dev.p60928 msg
  else if msg.pgn = 126993 then dev.p126993 msg
  else if msg.pgn = 126996 then dev.p126996 msg
  else if msg.pgn = 126998 then dev.p126998 msg
  else (.error .keyError, dev)

def receiveMsg (defs : PGNDefinitions) (now : Time) (dev : NMEA2000Device) (msg : NMEA2000Msg) :
    Except Exn Unit × NMEA2000Device :=
  let dev := { dev with lastmsgTs := now }
  match dev.addPgnCount defs msg.pgn with
  | none => (.ok (), dev)
  | some dev =>
      match dev.processVector msg with
      | (.error .keyError, dev) => (.ok (), dev)
      | result => result

end NMEA2000Device

end NavigationServer.Nmea2000
