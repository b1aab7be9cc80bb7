/-
NavigationServer.Nmea2000.Nmea0183ToNmea2k — the satellites in view, from
NMEA0183 to NMEA2000.

The converter reads the fields of a sentence and not its talker. It collects the
satellites of GSV sentences until it has seen one of each number, and then
builds PGN 129540. A handler stores what it reads as it goes, so an exception
leaves what is stored so far. Of the messages that it builds the model keeps PGN
129540, so it passes over the handlers that share nothing with the one of GSV;
the DOPs of a GSA sentence are read for the exceptions they raise only.
-/
import NavigationServer.Gnss.GnssData

namespace NavigationServer.Nmea2000

open NavigationServer.Lib NavigationServer.Gnss

/-! ## 1. Data -/

/-- A `SatInView` has the fields of a satellite of the GNSS service. Of the
satellites of the last GSA sentence their numbers are kept. -/
structure NMEA0183ToNMEA2000Converter (K : Type*) where
  gpsgsvSequence : Nat
  currentSatGsvData : Option (List (SatellitesInView K))
  currentSatGsaData : Option (List Int)
  currentGsvNbSat : Int
  currentGsvNbSeq : Int
  currentGsvSeq : Option (List Bool)
  currentGsvSatCount : Nat
  deriving DecidableEq, Repr

namespace NMEA0183ToNMEA2000Converter

variable {K : Type}

def new : NMEA0183ToNMEA2000Converter K where
  gpsgsvSequence := 0
  currentSatGsvData := none
  currentSatGsaData := none
  currentGsvNbSat := 0
  currentGsvNbSeq := 0
  currentGsvSeq := none
  currentGsvSatCount := 0

/-- `get_next_sequence`, of the sequence `GPSGSV`. -/
def getNextSequence (c : NMEA0183ToNMEA2000Converter K) : NMEA0183ToNMEA2000Converter K :=
  { c with gpsgsvSequence := if c.gpsgsvSequence = 253 then 0 else c.gpsgsvSequence + 1 }

/-- Whether a satellite is used in the fix, tracked or not tracked. -/
def satStatus (c : NMEA0183ToNMEA2000Converter K) (sat : SatellitesInView K) : Nat :=
  if sat.svn ∈ c.currentSatGsaData.getD [] then 2 else if sat.elevation.isNone then 0 else 1

def appendSat (c : NMEA0183ToNMEA2000Converter K) (sat : SatellitesInView K) :
    NMEA0183ToNMEA2000Converter K :=
  { c with
    currentSatGsvData := c.currentSatGsvData.map (· ++ [{ sat with status := c.satStatus sat }])
    currentGsvSatCount := c.currentGsvSatCount + 1 }

/-! ## 2. The handlers -/

/-- The first sentence starts a sequence, and no other one does. -/
def startGSV (c : NMEA0183ToNMEA2000Converter K) (fields : List Bytes) :
    Except Exn Unit × NMEA0183ToNMEA2000Converter K :=
  match c.currentSatGsvData with
  | some _ => (.ok (), c)
  | none =>
      match item fields 1 with
      | .error e => (.error e, c)
      | .ok number =>
          if number ≠ ascii "1" then (.error .incompleteMessage, c)
          else
            let c := { c with currentSatGsvData := some [] }
            match (do int10 (← item fields 0)) with
            | .error e => (.error e, c)
            | .ok nbSeq =>
                let c := { c with currentGsvNbSeq := nbSeq
                                  currentGsvSeq := some (List.replicate nbSeq.toNat false) }
                match (do int10 (← item fields 2)) with
                | .error e => (.error e, c)
                | .ok nbSat => (.ok (), { c with currentGsvNbSat := nbSat, currentGsvSatCount := 0 })

variable [Field K] (float : Bytes → Option K) (pi : K)

/-- The satellites of a sentence, `count` at most. It stops at the number of
satellites of the sequence only, so a sentence with fewer satellites ends in an
exception where that number is not reached. -/
def readSats (fields : List Bytes) : Nat → Nat → NMEA0183ToNMEA2000Converter K →
    Except Exn Unit × NMEA0183ToNMEA2000Converter K
  | 0, _, c => (.ok (), c)
  | count + 1, fieldIdx, c =>
      match GNSSDataManager.readSatellite float pi fields fieldIdx with
      | .error e => (.error e, c)
      | .ok sat =>
          let c := c.appendSat sat
          if (c.currentGsvSatCount : Int) ≥ c.currentGsvNbSat then (.ok (), c)
          else readSats fields count (fieldIdx + 4) c

/-- A sentence of a sequence. -/
def readGSV (c : NMEA0183ToNMEA2000Converter K) (fields : List Bytes) :
    Except Exn Unit × NMEA0183ToNMEA2000Converter K :=
  match (do int10 (← item fields 1)) with
  | .error e => (.error e, c)
  | .ok seqNum =>
      match c.currentGsvSeq with
      | none => (.error .typeError, c)
      | some seq =>
          match setItem seq (seqNum - 1) true with
          | none => (.error .indexError, c)
          | some seq => readSats float pi fields 4 3 { c with currentGsvSeq := some seq }

/-- The message, where the angles are converted once more. -/
def satsInView (c : NMEA0183ToNMEA2000Converter K) : Pgn129540 K where
  sequenceId := c.gpsgsvSequence
  mode := 0
  satsInView := c.currentGsvNbSat
  satellitesData := (c.currentSatGsvData.getD []).map (fun sat =>
    { sat with
      elevation := sat.elevation.map (· * degToRadian pi)
      azimuth := sat.azimuth.map (· * degToRadian pi) })

/-- What was collected is cleared with the message, and nowhere else. -/
def convertGSV (c : NMEA0183ToNMEA2000Converter K) (fields : List Bytes) :
    Except Exn (Pgn129540 K) × NMEA0183ToNMEA2000Converter K :=
  match c.startGSV fields with
  | (.error e, c) => (.error e, c)
  | (.ok (), c) =>
      match c.readGSV float pi fields with
      | (.error e, c) => (.error e, c)
      | (.ok (), c) =>
          if false ∈ c.currentGsvSeq.getD [] then (.error .incompleteMessage, c)
          else
            let c := c.getNextSequence
            (.ok (c.satsInView pi), { c with currentSatGsvData := none })

/-- The satellites are stored before the mode is read. -/
def convertGSA (c : NMEA0183ToNMEA2000Converter K) (fields : List Bytes) :
    Except Exn Unit × NMEA0183ToNMEA2000Converter K :=
  let satsList : Except Exn (List Int) := do
    if (← item fields 0) = ascii "1" then throw .nmeaInvalidFrame
    let sats ← GNSSDataManager.satellitesInFix fields
    let _ ← toFloat float (← item fields 14)
    let _ ← toFloat float (← item fields 15)
    let _ ← toFloat float (← item fields 16)
    return sats
  match satsList with
  | .error e => (.error e, c)
  | .ok sats =>
      ((do let _ ← int10 (← item fields 1)), { c with currentSatGsaData := some sats })

/-- The PGN 129540 that comes from a sentence, if there is one. Its caller goes
on behind an exception. -/
def convert (c : NMEA0183ToNMEA2000Converter K) (s : Sentence) :
    Option (Pgn129540 K) × NMEA0183ToNMEA2000Converter K :=
  match s.formatter with
  | "GSV" =>
      match c.convertGSV float pi s.fields with
      | (.ok message, c) => (some message, c)
      | (.error _, c) => (none, c)
  | "GSA" => (none, (c.convertGSA float s.fields).2)
  | _ => (none, c)

/-- The converter, fed with sentences. -/
def converter : Machine (NMEA0183ToNMEA2000Converter K) Sentence (Option (Pgn129540 K)) where
  step c s := c.convert float pi s

end NMEA0183ToNMEA2000Converter

end NavigationServer.Nmea2000
