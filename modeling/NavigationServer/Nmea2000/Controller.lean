/-
NavigationServer.Nmea2000.Controller — the table of the devices and its lock.

`NMEA2KController` keeps a device for each address that sends, behind a lock.
A method that needs the lock waits for it, and a lock that a call has left held
is never released: the next such call does not come back (`Outcome.blocked`).
A `ControllerCall` is a call from any thread; the message loop `nrun` is one
`processMsg` after the other, whatever it raises. A subscriber is a function of
the message that may raise.
-/
import NavigationServer.Lib.Machine
import NavigationServer.Nmea2000.Device

namespace NavigationServer.Nmea2000

open NavigationServer.Lib
open NavigationServer.Nmea2000Datamodel
open NavigationServer.RouterCore

/-! ## 1. The state -/

/-- How a call ends. -/
inductive Outcome where
  | returned
  | raised (e : Exn)
  | blocked
  deriving DecidableEq, Repr

/-- A subscriber, with the exception it raises for a message. -/
abbrev Subscriber := NMEA2000Msg → Option Exn

structure NMEA2KController where
  devices : AList (fun _ : Nat => NMEA2000Device)
  stopFlag : Bool
  subscriber : AList (fun _ : Nat => Subscriber)
  maxSilent : Time
  gcLock : Bool

namespace NMEA2KController

def new (maxSilent : Time) : NMEA2KController := ⟨∅, false, ∅, maxSilent, false⟩

/-- The body of a method behind `_gc_lock.acquire()`, which tells whether the
lock is held when it ends. -/
def locked (s : NMEA2KController)
    (body : NMEA2KController → Outcome × NMEA2KController) : Outcome × NMEA2KController :=
  if s.gcLock then (.blocked, s) else body { s with gcLock := true }

def release (s : NMEA2KController) : NMEA2KController := { s with gcLock := false }

/-! ## 2. The methods -/

def checkDevice (s : NMEA2KController) (address : Nat) : NMEA2000Device :=
  match s.devices.lookup address with
  | some dev => dev
  | none => .new address

/-- `call_subscribers`. -/
def callSubscribers (s : NMEA2KController) (msg : NMEA2000Msg) : Except Exn Unit :=
  match s.subscriber.lookup msg.pgn with
  | none => .ok ()
  | some function =>
      match function msg with
      | none => .ok ()
      | some e => .error e

/-- Nothing releases the lock when the device or the subscriber raises. -/
def processMsg (defs : PGNDefinitions) (now : Time) (msg : NMEA2000Msg) (s : NMEA2KController) :
    Outcome × NMEA2KController :=
  if msg.sa ≥ 254 then (.returned, s)
  else
    s.locked fun s =>
      let (result, dev) := (s.checkDevice msg.sa).receiveMsg defs now msg
      let s := { s with devices := s.devices.insert msg.sa dev }
      match result with
      | .error e => (.raised e, s)
      | .ok () =>
          match s.callSubscribers msg with
          | .error e => (.raised e, s)
          | .ok () => (.returned, s.release)

/-- The generator of `get_device`, of which `taken` devices are asked for. The
lock is taken with the first, and released when another one is asked for behind
the last. -/
def getDevice (taken : Nat) (s : NMEA2KController) : Outcome × NMEA2KController :=
  if taken = 0 then (.returned, s)
  else
    s.locked fun s =>
      if taken ≤ s.devices.entries.length then (.returned, s) else (.returned, s.release)

/-- The `raise` behind the handler has no exception to raise again. -/
def getDeviceByAddress (address : Nat) (s : NMEA2KController) : Outcome × NMEA2KController :=
  s.locked fun s =>
    match s.devices.lookup address with
    | some _ => (.returned, s.release)
    | none => (.raised .runtimeError, s.release)

/-- The loop goes over the addresses, and an address has no `property`. -/
def getDeviceWithPropertyValue (s : NMEA2KController) : Outcome × NMEA2KController :=
  s.locked fun s =>
    match s.devices.entries with
    | _ :: _ => (.raised .attributeError, s)
    | [] => (.raised .keyError, s.release)

/-- The devices that have not been silent for too long. -/
def deviceGc (now : Time) (s : NMEA2KController) : Outcome × NMEA2KController :=
  if s.stopFlag then (.returned, s)
  else
    s.locked fun s =>
      let toBeDeleted := (s.devices.entries.filter
        (fun e => s.maxSilent < now - e.2.lastmsgTs)).map Sigma.fst
      let devices := toBeDeleted.foldl (fun d key => d.erase key) s.devices
      (.returned, { s with devices := devices }.release)

def addSubscriber (pgn : Nat) (function : Subscriber) (s : NMEA2KController) : NMEA2KController :=
  { s with subscriber := s.subscriber.insert pgn function }

def stop (s : NMEA2KController) : NMEA2KController := { s with stopFlag := true }

end NMEA2KController

/-! ## 3. The calls -/

inductive ControllerCall where
  | processMsg (now : Time) (msg : NMEA2000Msg)
  | getDevice (taken : Nat)
  | getDeviceByAddress (address : Nat)
  | getDeviceWithPropertyValue
  | deviceGc (now : Time)
  | addSubscriber (pgn : Nat) (function : Subscriber)
  | stop

/-- Calls in any order. -/
def controllerCalls (defs : PGNDefinitions) : Machine NMEA2KController ControllerCall Outcome where
  step s call :=
    match call with
    | .processMsg now msg => s.processMsg defs now msg
    | .getDevice taken => s.getDevice taken
    | .getDeviceByAddress address => s.getDeviceByAddress address
    | .getDeviceWithPropertyValue => s.getDeviceWithPropertyValue
    | .deviceGc now => s.deviceGc now
    | .addSubscriber pgn function => (.returned, s.addSubscriber pgn function)
    | .stop => (.returned, s.stop)

end NavigationServer.Nmea2000
