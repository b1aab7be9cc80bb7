/-
NavigationServer.CanInterface.ClaimNetwork — any number of nodes that claim
addresses.

Each node is a whole controller, and takes part with its turns and with the
messages that it receives. What it has sent in a turn is what its history is
longer by; the CAN interface carries it to every other node, where it is
delivered at any time.
-/
import NavigationServer.CanInterface.Arbitration
import NavigationServer.Lib.Mailbox

namespace NavigationServer.CanInterface

open NavigationServer.Lib
open NavigationServer.Nmea2000
open NavigationServer.Nmea2000Datamodel

/-- A turn of a node's own. -/
inductive NodeTurn where
  | busReady
  | pollDevices
  | expire (i : Nat)
  | deviceGc (now : Time)

def NodeTurn.ecuCall : NodeTurn → EcuCall
  | busReady => .busReady 0
  | pollDevices => .pollDevices
  | expire i => .expire i
  | deviceGc now => .deviceGc now

/-- The node after a call, with what the call has sent. -/
def sentBy (s : NMEA2KActiveController) (r : Outcome × NMEA2KActiveController) :
    Outcome × NMEA2KActiveController × List Outgoing :=
  (r.1, r.2, r.2.sent.drop s.sent.length)

/-- A node among others. -/
def claimParty (defs : PGNDefinitions) :
    Party NMEA2KActiveController Outgoing NodeTurn Time Outcome where
  act s turn := sentBy s (s.call defs turn.ecuCall)
  receive s now m := sentBy s (s.turn defs (m.message.map (EcuCall.message now)))

/-- The nodes together. -/
def claimNetwork {ι : Type} [DecidableEq ι] (defs : PGNDefinitions) :
    Machine (Mail ι NMEA2KActiveController Outgoing) (MailEvent ι NodeTurn Time) (Option Outcome) :=
  (claimParty defs).mail

end NavigationServer.CanInterface
