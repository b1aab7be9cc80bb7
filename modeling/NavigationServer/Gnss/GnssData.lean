/-
NavigationServer.Gnss.GnssData — what the GNSS service knows: the fix, and the
satellites of each constellation.

`GNSSDataManager` reads the sentences of the receiver one by one. A handler
stores what it reads as it goes, so an exception leaves what is stored so far,
and `processNmea0183` catches every one. Numbers with a fraction are in a field
`K`: `float` reads one and `pi` is the constant. A missing number (NaN) is
`none`. A constellation is found under its system identifier, and the list of
constellations in fix holds these identifiers. Of the messages that are pushed
the model keeps PGN 129540. The position, the altitude and the DOPs are read for
the exceptions they raise only, and what a RMC sentence tells behind its time is
left out, as nothing kept here comes from it.
-/
import Mathlib.Algebra.Field.Basic
import Mathlib.Data.Rat.Cast.Defs
import NavigationServer.Lib.Machine
import NavigationServer.RouterCommon.Exceptions

namespace NavigationServer.Gnss

open NavigationServer.Lib

/-! ## 1. Data -/

structure GNSSSystem where
  name : String
  talker : String
  systemId : Nat
  deriving DecidableEq, Repr

def gnssSystems : List GNSSSystem :=
  [⟨"GNSS", "GN", 0⟩, ⟨"GPS", "GP", 1⟩, ⟨"GPS-SBAS", "GP", 1⟩, ⟨"Galileo", "GA", 3⟩,
    ⟨"Beidou", "GB", 4⟩, ⟨"QZSS", "GQ", 5⟩, ⟨"GLONASS", "GL", 2⟩, ⟨"NavIC", "GI", 6⟩]

/-- `gnss_sys_dict[talker]`: the last entry of a key is the one a dictionary keeps. -/
def gnssSysDict (talker : String) : Except Exn GNSSSystem :=
  match gnssSystems.reverse.find? (fun gnss => gnss.talker = talker) with
  | some gnss => .ok gnss
  | none => .error .keyError

def signalIdTable (signalId : Int) : Except Exn GNSSSystem :=
  match gnssSystems.reverse.find? (fun gnss => (gnss.systemId : Int) = signalId) with
  | some gnss => .ok gnss
  | none => .error .keyError

/-- Angles are in radian, and a value that is not known is `none`. -/
structure SatellitesInView (K : Type*) where
  svn : Int
  elevation : Option K
  azimuth : Option K
  cno : Option K
  status : Nat
  deriving DecidableEq, Repr

/-- `satellites` is a dictionary: its entries stand in the order of their first
insertion. -/
structure Constellation (K : Type*) where
  gnss : GNSSSystem
  nbSatellites : Int
  satellites : List (SatellitesInView K)
  gsvNbSeq : Int
  gsvSeqRecv : List Bool
  satellitesInFix : List Int
  nbSatsInFix : Nat
  gsvInProgress : Bool
  signalId : Bytes
  deriving DecidableEq, Repr

def Constellation.new {K : Type*} (gnss : GNSSSystem) : Constellation K where
  gnss := gnss
  nbSatellites := 0
  satellites := []
  gsvNbSeq := 0
  gsvSeqRecv := []
  satellitesInFix := []
  nbSatsInFix := 0
  gsvInProgress := false
  signalId := []

/-- A NaN differs from itself, so no satellite gets the status 0 here. -/
def Constellation.updateStatus {K : Type*} (const : Constellation K) (satsInUse : List Int) :
    Constellation K :=
  { const with
    satellites := const.satellites.map
      (fun sat => { sat with status := if sat.svn ∈ satsInUse then 2 else 1 }) }

structure Pgn129540 (K : Type*) where
  sequenceId : Nat
  mode : Nat
  satsInView : Int
  satellitesData : List (SatellitesInView K)
  deriving DecidableEq, Repr

structure N2KForwarder where
  pgnSet : List Nat
  gnssSystem : Option Nat

/-- `pgn_in_set`, for a message of a constellation. -/
def N2KForwarder.pgnInSet {K : Type*} (f : N2KForwarder) (pgn : Nat) (const : Constellation K) : Bool :=
  match f.gnssSystem with
  | some systemId => const.gnss.systemId = systemId ∧ pgn ∈ f.pgnSet
  | none => pgn ∈ f.pgnSet

structure GNSSDataManager (K : Type*) where
  fix : Bool
  fixTime : Time
  mode : Int
  constInFix : List Nat
  utcTime : K
  nbSatsInFix : Nat
  sequence : Nat
  constellations : Nat → Option (Constellation K)

/-- A sentence: the parts of its address, and its fields. -/
structure Sentence where
  talker : String
  formatter : String
  fields : List Bytes
  deriving DecidableEq, Repr

variable {K : Type} [Field K] [DecidableEq K]

/-! ## 2. Numbers -/

section Numbers

variable (float : Bytes → Option K) (pi : K)

def degToRadian : K := pi / 180

def toFloat (field : Bytes) : Except Exn K :=
  match float field with
  | some x => .ok x
  | none => .error .valueError

/-- A field that may be empty. -/
def optionalFloat (field : Bytes) : Except Exn (Option K) :=
  if field.isEmpty then .ok none else (toFloat float field).map some

def convertTime (field : Bytes) : Except Exn K := do
  let h ← int10 (slice field 0 2)
  let m ← int10 (slice field 2 4)
  let s ← int10 (slice field 4 6)
  let ms ← int10 (slice field 7 9)
  return ((h * 3600 + m * 60 + s : Int) : K) + (ms : K) / 1000000

/-- Whether `convert_latitude` and `convert_longitude` raise, with the number of digits of
the degrees. -/
def convertAngle (digits : Int) (field : Bytes) : Except Exn Unit := do
  let _ ← toFloat float (slice field 0 digits)
  let _ ← toFloat float (slice field digits (digits + 5))
  return ()

end Numbers

/-! ## 3. The handlers -/

namespace GNSSDataManager

def new : GNSSDataManager K where
  fix := false
  fixTime := 0
  mode := 0
  constInFix := []
  utcTime := 0
  nbSatsInFix := 0
  sequence := 0
  constellations := fun _ => none

def setFix (m : GNSSDataManager K) (now : Time) : GNSSDataManager K :=
  if !m.fix then { m with fixTime := now, fix := true } else m

/-- It clears what there is to clear only where there is no fix. -/
def lostFix (m : GNSSDataManager K) : GNSSDataManager K :=
  if !m.fix then { m with fix := false, constInFix := [], nbSatsInFix := 0 } else m

def setConstellation (m : GNSSDataManager K) (const : Constellation K) : GNSSDataManager K :=
  { m with constellations := Function.update m.constellations const.gnss.systemId (some const) }

/-- The constellation of a system, which is made where it is not known yet. -/
def constellationOf (m : GNSSDataManager K) (gnss : GNSSSystem) : Constellation K :=
  (m.constellations gnss.systemId).getD (.new gnss)

def adjustSequence (m : GNSSDataManager K) (currentTime : K) : GNSSDataManager K :=
  if currentTime ≠ m.utcTime then
    { m with
      sequence := if m.sequence = 253 then 0 else m.sequence + 1
      utcTime := currentTime }
  else m

section Handlers

variable (float : Bytes → Option K) (pi : K)

/-- One satellite of a GSV sentence, with its angles in radian. -/
def readSatellite (fields : List Bytes) (fieldIdx : Nat) : Except Exn (SatellitesInView K) := do
  let svn ← int10 (← item fields fieldIdx)
  let elevation ← optionalFloat float (← item fields (fieldIdx + 1))
  let azimuth ← optionalFloat float (← item fields (fieldIdx + 2))
  let cno ← optionalFloat float (← item fields (fieldIdx + 3))
  return { svn, elevation := elevation.map (· * degToRadian pi),
           azimuth := azimuth.map (· * degToRadian pi), cno, status := 0 }

end Handlers

end GNSSDataManager

/-- A satellite that is in the dictionary keeps its place and its status. -/
def storeSatellite (satellites : List (SatellitesInView K)) (sat : SatellitesInView K) :
    List (SatellitesInView K) :=
  if ∃ old ∈ satellites, old.svn = sat.svn then
    satellites.map (fun old => if old.svn = sat.svn then { sat with status := old.status } else old)
  else satellites ++ [sat]

namespace Constellation

/-- The first sentence starts a sequence; another one is passed over where none
is going on. -/
def startGSV (const : Constellation K) (fields : List Bytes) : Except Exn Bool × Constellation K :=
  if const.gsvInProgress then (.ok true, const)
  else
    match item fields 1 with
    | .error e => (.error e, const)
    | .ok number =>
        if number ≠ ascii "1" then (.ok false, const)
        else
          match (do int10 (← item fields 2)) with
          | .error e => (.error e, const)
          | .ok nbSatellites =>
              match (do int10 (← item fields 0)) with
              | .error e => (.error e, { const with nbSatellites })
              | .ok gsvNbSeq =>
                  (.ok true, { const with nbSatellites, gsvNbSeq, gsvInProgress := true,
                                          gsvSeqRecv := List.replicate gsvNbSeq.toNat false })

section Handlers

variable (float : Bytes → Option K) (pi : K)

/-- The satellites of a sentence, `count` at most. What follows them is the index. -/
def readSatellites (fields : List Bytes) :
    Nat → Nat → Constellation K → Except Exn Nat × Constellation K
  | 0, fieldIdx, const => (.ok fieldIdx, const)
  | count + 1, fieldIdx, const =>
      if fieldIdx ≥ fields.length - 1 then (.ok fieldIdx, const)
      else
        match GNSSDataManager.readSatellite float pi fields fieldIdx with
        | .error e => (.error e, const)
        | .ok sat =>
            readSatellites fields count (fieldIdx + 4)
              { const with satellites := storeSatellite const.satellites sat }

/-- A sentence of a sequence. It tells whether the sequence is over. -/
def readGSV (const : Constellation K) (fields : List Bytes) : Except Exn Bool × Constellation K :=
  match (do int10 (← item fields 1)) with
  | .error e => (.error e, const)
  | .ok seqNum =>
      match setItem const.gsvSeqRecv (seqNum - 1) true with
      | none => (.error .indexError, const)
      | some gsvSeqRecv =>
          match readSatellites float pi fields 4 3 { const with gsvSeqRecv } with
          | (.error e, const) => (.error e, const)
          | (.ok fieldIdx, const) =>
              match item fields fieldIdx with
              | .error e => (.error e, const)
              | .ok signalId =>
                  if false ∈ const.gsvSeqRecv then (.ok false, { const with signalId })
                  else (.ok true, { const with signalId, gsvInProgress := false })

def processGSV (const : Constellation K) (fields : List Bytes) : Except Exn Bool × Constellation K :=
  match const.startGSV fields with
  | (.ok true, const) => const.readGSV float pi fields
  | other => other

end Handlers

/-- The message, where the angles are converted once more. -/
def satsInView (pi : K) (const : Constellation K) (sequence : Nat) : Pgn129540 K where
  sequenceId := sequence
  mode := 0
  satsInView := const.nbSatellites
  satellitesData := const.satellites.map (fun sat =>
    { sat with
      elevation := sat.elevation.map (· * degToRadian pi)
      azimuth := sat.azimuth.map (· * degToRadian pi) })

end Constellation

namespace GNSSDataManager

section Handlers

variable (float : Bytes → Option K) (pi : K)

def processGSV (m : GNSSDataManager K) (forwarder : N2KForwarder) (talker : String)
    (fields : List Bytes) : Except Exn (Option (Pgn129540 K)) × GNSSDataManager K :=
  match gnssSysDict talker with
  | .error e => (.error e, m)
  | .ok gnss =>
      match (m.constellationOf gnss).processGSV float pi fields with
      | (.error e, const) => (.error e, m.setConstellation const)
      | (.ok false, const) => (.ok none, m.setConstellation const)
      | (.ok true, const) =>
          (.ok (if forwarder.pgnInSet 129540 const then some (const.satsInView pi m.sequence)
                else none), m.setConstellation const)

/-- `int(f)` of the fields that are not empty. -/
def satellitesInFix (fields : List Bytes) : Except Exn (List Int) :=
  ((slice fields 2 14).filter (fun f => !f.isEmpty)).mapM int10

/-- What a GSA sentence tells about a constellation in fix. -/
def storeFix (m : GNSSDataManager K) (gnss : GNSSSystem) (sats : List Int) : GNSSDataManager K :=
  let m :=
    { m with
      constInFix := if gnss.systemId ∈ m.constInFix then m.constInFix
                    else m.constInFix ++ [gnss.systemId] }
  m.setConstellation
    { m.constellationOf gnss with nbSatsInFix := sats.length, satellitesInFix := sats }

/-- The DOPs are read, and then the satellites get their status. -/
def readDops (m : GNSSDataManager K) (gnss : GNSSSystem) (fields : List Bytes) (sats : List Int) :
    Except Exn Unit × GNSSDataManager K :=
  let dops : Except Exn Unit := do
    let _ ← toFloat float (← item fields 14)
    let _ ← toFloat float (← item fields 15)
    let _ ← toFloat float (← item fields 16)
    return ()
  match dops with
  | .error e => (.error e, m)
  | .ok () => (.ok (), m.setConstellation ((m.constellationOf gnss).updateStatus sats))

/-- The part of `processGSA` behind the fix. -/
def activeSatellites (m : GNSSDataManager K) (fields : List Bytes) :
    Except Exn Unit × GNSSDataManager K :=
  match item fields 17 with
  | .error e => (.error e, m)
  | .ok signal =>
      if signal.isEmpty then (.ok (), m)
      else
        match (do signalIdTable (← int10 signal)) with
        | .error e => (.error e, m)
        | .ok gnss =>
            match satellitesInFix fields with
            | .error e => (.error e, m)
            | .ok sats =>
                if sats.isEmpty then (.ok (), m)
                else (m.storeFix gnss sats).readDops float gnss fields sats

def processGSA (m : GNSSDataManager K) (now : Time) (talker : String) (fields : List Bytes) :
    Except Exn Unit × GNSSDataManager K :=
  if talker ≠ "GN" then (.error .assertionError, m)
  else
    match (do int10 (← item fields 1)) with
    | .error e => (.error e, m)
    | .ok mode =>
        let m := { m with mode }
        if mode ≥ 2 then (m.setFix now).activeSatellites float fields
        else (.ok (), m.lostFix)

/-- The number of satellites in fix, over the constellations in fix. -/
def countSatellites (m : GNSSDataManager K) : Nat :=
  (m.constInFix.map (fun systemId => ((m.constellations systemId).map (·.nbSatsInFix)).getD 0)).sum

def processGGA (m : GNSSDataManager K) (now : Time) (talker : String) (fields : List Bytes) :
    Except Exn Unit × GNSSDataManager K :=
  if talker ≠ "GN" then (.error .assertionError, m)
  else
    match item fields 5 with
    | .error e => (.error e, m)
    | .ok quality =>
        if quality = ascii "0" then (.ok (), m.lostFix)
        else
          let m := m.setFix now
          match (do convertTime (← item fields 0)) with
          | .error e => (.error e, m)
          | .ok currentTime =>
              let m := m.adjustSequence currentTime
              let position : Except Exn Unit := do
                let _ ← item fields 2
                convertAngle float 2 (← item fields 1)
                let _ ← item fields 4
                convertAngle float 3 (← item fields 3)
                let _ ← toFloat float (← item fields 8)
                let _ ← toFloat float (← item fields 10)
                return ()
              match position with
              | .error e => (.error e, m)
              | .ok () => (.ok (), { m with nbSatsInFix := m.countSatellites })

def processRMC (m : GNSSDataManager K) (fields : List Bytes) :
    Except Exn Unit × GNSSDataManager K :=
  match item fields 1 with
  | .error e => (.error e, m)
  | .ok status =>
      if status ≠ ascii "A" then (.ok (), m.lostFix)
      else
        match (do convertTime (← item fields 0)) with
        | .error e => (.error e, m)
        | .ok currentTime => (.ok (), m.adjustSequence currentTime)

/-- A sentence that is processed: what is pushed, and the new state. Every
exception is caught, and a formatter without a handler is passed over. -/
def processNmea0183 (forwarder : N2KForwarder) (m : GNSSDataManager K) (now : Time) (s : Sentence) :
    Option (Pgn129540 K) × GNSSDataManager K :=
  match s.formatter with
  | "GSV" =>
      match m.processGSV float pi forwarder s.talker s.fields with
      | (.ok message, m) => (message, m)
      | (.error _, m) => (none, m)
  | "GSA" => (none, (m.processGSA float now s.talker s.fields).2)
  | "GGA" => (none, (m.processGGA float now s.talker s.fields).2)
  | "RMC" => (none, (m.processRMC s.fields).2)
  | _ => (none, m)

/-- The manager, fed with sentences at the readings of the clock. -/
def manager (forwarder : N2KForwarder) :
    Machine (GNSSDataManager K) (Time × Sentence) (Option (Pgn129540 K)) where
  step m input := m.processNmea0183 float pi forwarder input.1 input.2

end Handlers

end GNSSDataManager

end NavigationServer.Gnss
