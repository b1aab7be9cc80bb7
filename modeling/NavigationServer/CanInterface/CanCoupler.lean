/-
NavigationServer.CanInterface.CanCoupler — the way of a message from a
publisher to the CAN bus.

An injector is the thread that takes messages from its queue and gives them to
a coupler. Each iteration of its loop is an input: the message taken, or that
none came in time. A stop, and what the other threads do to the interface, are
inputs too.
-/
import NavigationServer.CanInterface.Interface
import NavigationServer.Lib.Machine
import NavigationServer.RouterCommon.Exceptions

namespace NavigationServer.CanInterface

open NavigationServer.Lib
open NavigationServer.RouterCore

/-! ## 1. The coupler -/

/-- `NavGenericMsg`: a NMEA2000 message, or a message of another type. -/
inductive NavGenericMsg where
  | n2k (msg : NMEA2000Msg)
  | other

inductive Direction where
  | bidirectional
  | readOnly
  | writeOnly
  deriving DecidableEq, Repr

structure DirectCANCoupler where
  canInterface : SocketCANInterface
  direction : Direction
  totalMsgS : Nat

namespace DirectCANCoupler

def send (c : DirectCANCoupler) (full : Nat → Bool) (msg : NMEA2000Msg) :
    Except Exn (Option Bool) × DirectCANCoupler :=
  let (r, canInterface) := c.canInterface.send full msg false
  (r, { c with canInterface })

/-- `send_msg_gen`. -/
def sendMsgGen (c : DirectCANCoupler) (full : Nat → Bool) (msg : NavGenericMsg) :
    Except Exn (Option Bool) × DirectCANCoupler :=
  match msg with
  | .other => (.error (.couplerWriteError "CAN coupler only accepts NMEA2000 messages"), c)
  | .n2k msg =>
      if c.direction = .readOnly then (.ok (some false), c)
      else { c with totalMsgS := c.totalMsgS + 1 }.send full msg

end DirectCANCoupler

/-! ## 2. The thread of the injector -/

structure Injector where
  targetCoupler : DirectCANCoupler
  stopflag : Bool
  running : Bool

/-- What an injector meets: a message taken from its queue, which frames of it
the interface has no room for, an empty queue, a stop, and the interface as the
other threads leave it. -/
inductive InjectorInput where
  | got (msg : NavGenericMsg) (full : Nat → Bool)
  | empty
  | stop
  | others (canInterface : SocketCANInterface)

namespace Injector

def start (targetCoupler : DirectCANCoupler) : Injector := ⟨targetCoupler, false, true⟩

/-- `Injector.process_msg`, which passes the result of the coupler on. -/
def processMsg (p : Injector) (full : Nat → Bool) (msg : NavGenericMsg) :
    Except Exn (Option Bool) × Injector :=
  let (r, targetCoupler) := p.targetCoupler.sendMsgGen full msg
  (r, { p with targetCoupler })

/-- One iteration of `Publisher.nrun`. What is no true value ends the loop, as
an exception ends the thread; the stop flag is read at the head of the loop. -/
def turn (p : Injector) (full : Nat → Bool) (msg : NavGenericMsg) : Injector :=
  match p.processMsg full msg with
  | (.ok (some true), p) => { p with running := !p.stopflag }
  | (_, p) => { p with running := false }

def step (p : Injector) : InjectorInput → Injector
  | .got msg full => if p.running then p.turn full msg else p
  | .empty => if p.running then { p with running := !p.stopflag } else p
  | .stop => { p with stopflag := true }
  | .others canInterface =>
      { p with targetCoupler := { p.targetCoupler with canInterface } }

def machine : Machine Injector InjectorInput Unit where
  step p i := ((), p.step i)

end Injector

end NavigationServer.CanInterface
