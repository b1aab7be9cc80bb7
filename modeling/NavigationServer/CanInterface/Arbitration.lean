/-
NavigationServer.CanInterface.Arbitration — two nodes that claim one address.

Each node is a whole controller. What a node has sent stays in its history, and
an event delivers one message of the history of the other node: late, twice, in
any order or never. Between the deliveries a node has turns of its own. The
messages delivered are the claims and the ISO requests; the others say nothing
of addresses.
-/
import NavigationServer.CanInterface.ActiveController

namespace NavigationServer.CanInterface

open NavigationServer.Lib
open NavigationServer.Nmea2000
open NavigationServer.Nmea2000Datamodel
open NavigationServer.RouterCore

/-- The message of a claim or of a request. -/
def Outgoing.message : Outgoing → Option NMEA2000Msg
  | .addressClaim sa name da => some (.of 60928 6 sa da (toLE 8 name))
  | .isoRequest sa da pgn => some (.of 59904 7 sa da (toLE 3 pgn))
  | _ => none

/-- The node with the lower NAME, and the other one. -/
structure Network where
  low : NMEA2KActiveController
  high : NMEA2KActiveController

inductive Side where
  | low
  | high
  deriving DecidableEq, Repr

/-- An event, at the node of a side. -/
inductive NetworkEvent where
  | busReady (side : Side)
  | pollDevices (side : Side)
  | expire (side : Side) (i : Nat)
  | deviceGc (side : Side) (now : Time)
  | deliver (side : Side) (now : Time) (i : Nat)

namespace NetworkEvent

def side : NetworkEvent → Side
  | busReady side | pollDevices side | expire side _ | deviceGc side _ | deliver side _ _ => side

/-- The call that the node gets; `other` is the history of the other node. -/
def ecuCall (other : List Outgoing) : NetworkEvent → Option EcuCall
  | busReady _ => some (.busReady 0)
  | pollDevices _ => some .pollDevices
  | expire _ i => some (.expire i)
  | deviceGc _ now => some (.deviceGc now)
  | deliver _ now i => (other[i]?.bind Outgoing.message).map (.message now)

theorem local_or_deliver (event : NetworkEvent) :
    (∀ side now i, event ≠ .deliver side now i) ∨
      ∃ side now i, event = .deliver side now i := by
  cases event with
  | deliver side now i => exact Or.inr ⟨side, now, i, rfl⟩
  | _ => exact Or.inl (fun _ _ _ h => nomatch h)

end NetworkEvent

namespace NMEA2KActiveController

/-- The call of an event, if there is one. -/
def turn (defs : PGNDefinitions) (s : NMEA2KActiveController) :
    Option EcuCall → Outcome × NMEA2KActiveController
  | none => (.returned, s)
  | some call => s.call defs call

end NMEA2KActiveController

/-- One of the nodes gets its call. -/
def network (defs : PGNDefinitions) : Machine Network NetworkEvent Outcome where
  step net event :=
    match event.side with
    | .low =>
        let (o, s) := net.low.turn defs (event.ecuCall net.high.sent)
        (o, { net with low := s })
    | .high =>
        let (o, s) := net.high.turn defs (event.ecuCall net.low.sent)
        (o, { net with high := s })

end NavigationServer.CanInterface
