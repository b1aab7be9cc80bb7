/-
NavigationServer.Couplers.Senders — the three senders of fast packets.

The CAN interface, the ShipModul and the YD interface each split messages with
a fast packet handler of their own. An input is one message sent, with how far
its frames get: which of them the transmit queue of the CAN interface refuses,
or how many the consumer of the generator asks for.
-/
import NavigationServer.CanInterface.Interface
import NavigationServer.Couplers.ShipModul
import NavigationServer.Couplers.Ydn2kCoupler
import NavigationServer.Lib.Machine

namespace NavigationServer.Couplers

open NavigationServer.CanInterface
open NavigationServer.Lib
open NavigationServer.Nmea2000
open NavigationServer.RouterCore

structure Senders where
  can : SocketCANInterface
  shipmodul : ShipModulInterface
  yd : YDCoupler

inductive SenderInput where
  | allowSend
  | can (msg : NMEA2000Msg) (full : Nat → Bool) (forceSend : Bool)
  | shipmodul (msg : NMEA2000Msg) (asked : Nat)
  | yd (msg : NMEA2000Msg) (asked : Nat)

namespace Senders

/-- The senders as they are set up: with new handlers. -/
def start (can : SocketCANInterface) (shipmodul : ShipModulInterface) (yd : YDCoupler) :
    Senders where
  can := { can with fpHandler := .new }
  shipmodul := { shipmodul with fastPacketHandler := .new }
  yd := { yd with fastPacketHandler := .new }

def step (s : Senders) : SenderInput → Senders
  | .allowSend => { s with can := { s.can with allowedSend := true } }
  | .can msg full forceSend => { s with can := (s.can.send full msg forceSend).2 }
  | .shipmodul msg asked => { s with shipmodul := (s.shipmodul.encodeNmea2000Upto msg asked).2 }
  | .yd msg asked => { s with yd := (s.yd.encodeNmea2000Upto msg asked).2 }

def machine : Machine Senders SenderInput Unit where
  step s i := ((), s.step i)

end Senders

end NavigationServer.Couplers
