/-
NavigationServer.NmeaData.Statistics — the counts of the NMEA2000 traffic.

There is an entry for each key, and a key is one number made of the source
address, the PGN and, for a proprietary PGN, the manufacturer code. The sum binds
tighter than the shift, so what was meant as three fields side by side is the
source address shifted by all that follows it.
-/
import NavigationServer.Lib.Machine
import NavigationServer.Nmea2000Datamodel.PgnDefinition
import NavigationServer.RouterCore.Nmea2000Msg

namespace NavigationServer.NmeaData

open NavigationServer.Lib
open NavigationServer.Nmea2000Datamodel
open NavigationServer.RouterCore

structure N2KStatEntry where
  pgn : Nat
  sa : Nat
  mfg : Nat
  count : Nat
  deriving DecidableEq, Repr

def N2KStatEntry.addCount (entry : N2KStatEntry) : N2KStatEntry :=
  { entry with count := entry.count + 1 }

structure N2KStatistics where
  entries : AList (fun _ : Nat => N2KStatEntry)
  totalMsg : Nat

namespace N2KStatistics

def new : N2KStatistics := ⟨∅, 0⟩

/-- The manufacturer and the key of a message. -/
def manufacturerAndKey (msg : NMEA2000Msg) : Except Exn (Nat × Nat) := do
  if ← isPgnProprietary msg.pgn then
    let manufacturer ← msg.getManufacturer
    return (manufacturer, (msg.sa <<< (29 + msg.pgn)) <<< (11 + manufacturer))
  else return (0, msg.sa <<< (18 + msg.pgn))

/-- `add_entry`. -/
def addEntry (s : N2KStatistics) (msg : NMEA2000Msg) : Except Exn N2KStatistics := do
  let (manufacturer, key) ← manufacturerAndKey msg
  let entry := (s.entries.lookup key).getD ⟨msg.pgn, msg.sa, manufacturer, 0⟩
  return { entries := s.entries.insert key entry.addCount, totalMsg := s.totalMsg + 1 }

/-- A message that is refused changes nothing. -/
def statistics : Machine N2KStatistics NMEA2000Msg (Except Exn Unit) where
  step s msg :=
    match s.addEntry msg with
    | .ok s' => (.ok (), s')
    | .error e => (.error e, s)

end N2KStatistics

end NavigationServer.NmeaData
