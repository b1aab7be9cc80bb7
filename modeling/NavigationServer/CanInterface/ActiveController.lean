/-
NavigationServer.CanInterface.ActiveController — the controller of a node on
the CAN bus.

The controller keeps the tables of the addresses: the devices, the index of
the applications, the addresses that the CAN interface accepts. An application
that changes its address does the first half (`changeAddress`), and
`process_msg` does the second behind a broadcast message of the base protocol.

An `EcuCall` is a turn of the message loop, the expiry of a timer, or a call
from another thread. A turn of the loop that waits for a lock which is never
released changes nothing any more.
-/
import NavigationServer.CanInterface.Application

namespace NavigationServer.CanInterface

open NavigationServer.Lib
open NavigationServer.Nmea2000
open NavigationServer.Nmea2000Datamodel
open NavigationServer.RouterCore

/-! ## 1. Applications -/

/-- `NMEA2000ApplicationPool.__init__`. -/
def NMEA2000ApplicationPool.init (mfgCode maxApplication macId firstAddress : Nat) :
    NMEA2000ApplicationPool where
  mfgCode := mfgCode
  maxApplication := maxApplication
  uniqueIdRoot := macId <<< (maxApplication - 1).size
  addressPool := List.range' firstAddress (2 * maxApplication + 1)
  applicationCount := 0

namespace NMEA2KActiveController

def init (pool : NMEA2000ApplicationPool) (maxSilent : Time) : NMEA2KActiveController where
  applications := []
  devices := ∅
  appIndex := ∅
  addresses := [255]
  pool := pool
  addressChangeRequest := none
  timers := []
  appTimer := false
  stopFlag := false
  allowedSend := false
  gcLock := false
  subscriber := ∅
  maxSilent := maxSilent
  sent := []

/-- `application_name`, or `none` for an IndexError. -/
def applicationName (pool : NMEA2000ApplicationPool) (deviceClass deviceFunction : Nat) :
    Option NMEA2000MutableName :=
  if pool.applicationCount < pool.maxApplication then
    some (((((((∅ : NMEA2000MutableName).insert "identity_number"
      (pool.uniqueIdRoot ||| pool.applicationCount)).insert "manufacturer_code" pool.mfgCode).insert
      "device_class" deviceClass).insert "device_function" deviceFunction).insert
      "industry_group" 4).insert "arbitrary_address_capable" 1)
  else none

/-- `add_application_index`. -/
def addApplicationIndex (s : NMEA2KActiveController) (k address : Nat) : NMEA2KActiveController :=
  { s with
    devices := s.devices.insert address (.application k)
    appIndex := s.appIndex.insert address k
    addresses := s.addresses ++ [address &&& 0xFF] }

/-- A new application with its address and its NAME, and `add_application`. -/
def addNamed (s : NMEA2KActiveController) (address : Nat) (name : NMEA2000MutableName)
    (info : ProductInformation) : NMEA2KActiveController :=
  let app : NMEA2000Application :=
    { NMEA2000Device.new address with
      productInformation := some info
      name := name
      state := .waitForBus
      claimTimer := none
      heartbeatTimer := none
      sequence := 0 }
  { s with applications := s.applications ++ [app] }.addApplicationIndex s.applications.length address

/-- `NMEA2000Application.__init__` and `add_application`. An address that is
given is taken when it is below 254 and no device has it. -/
def addApplication (s : NMEA2KActiveController) (address : Option Nat)
    (deviceClass deviceFunction : Nat) (info : ProductInformation) : Outcome × NMEA2KActiveController :=
  let (address, s) : Option Nat × NMEA2KActiveController :=
    match address with
    | some a =>
        if a ≤ 253 then (if (s.devices.lookup a).isSome then none else some a, s)
        else
          let (a, s) := s.getNewAddress
          (if a = 254 then none else some a, s)
    | none =>
        let (a, s) := s.getNewAddress
        (if a = 254 then none else some a, s)
  match address, applicationName s.pool deviceClass deviceFunction with
  | some a, some name =>
      let s := { s with
        pool := { s.pool with applicationCount := s.pool.applicationCount + 1 } }
      (.returned, s.addNamed a name info)
  | _, _ => (.raised .indexError, s)

/-! ## 2. The tables -/

/-- `remove_application_index`: the first table that does not have the address
ends it. -/
def removeApplicationIndex (s : NMEA2KActiveController) (oldAddress : Nat) :
    Outcome × NMEA2KActiveController :=
  if (s.devices.lookup oldAddress).isNone then (.raised .keyError, s)
  else
    let s := { s with
      devices := s.devices.erase oldAddress
      addresses := s.addresses.erase oldAddress }
    if (s.appIndex.lookup oldAddress).isNone then (.raised .keyError, s)
    else (.returned, { s with appIndex := s.appIndex.erase oldAddress })

/-- `apply_change_application_address`, when there is a request. -/
def applyChangeApplicationAddress (s : NMEA2KActiveController) :
    Outcome × NMEA2KActiveController :=
  match s.addressChangeRequest with
  | none => (.returned, s)
  | some (k, oldAddress) =>
      andThen (s.removeApplicationIndex oldAddress) fun s =>
        match s.applications[k]? with
        | none => (.returned, s)
        | some app =>
            (.returned, { s.addApplicationIndex k app.address with addressChangeRequest := none })

/-- `device_gc`: only proxies can disappear. -/
def deviceGc (now : Time) (s : NMEA2KActiveController) : Outcome × NMEA2KActiveController :=
  if s.stopFlag then (.returned, s)
  else if s.gcLock then (.blocked, s)
  else
    let silent : Device → Bool
      | .proxy dev => decide (s.maxSilent < now - dev.lastmsgTs)
      | .application _ => false
    let toBeDeleted := (s.devices.entries.filter (fun e => silent e.2)).map Sigma.fst
    (.returned, { s with devices := toBeDeleted.foldl (fun d key => d.erase key) s.devices })

/-! ## 3. Messages -/

/-- `check_device` and `receive_msg` of the device. -/
def deviceReceive (defs : PGNDefinitions) (now : Time) (s : NMEA2KActiveController)
    (msg : NMEA2000Msg) : Outcome × NMEA2KActiveController :=
  let proxy (dev : NMEA2000Device) : Outcome × NMEA2KActiveController :=
    let (result, dev) := dev.receiveMsg defs now msg
    (deviceOutcome result, { s with devices := s.devices.insert msg.sa (.proxy dev) })
  match s.devices.lookup msg.sa with
  | some (.application k) => receiveMsg defs now s k msg
  | some (.proxy dev) => proxy dev
  | none => proxy (.new msg.sa)

/-- `call_subscribers`. -/
def callSubscribers (s : NMEA2KActiveController) (msg : NMEA2000Msg) : Outcome :=
  match s.subscriber.lookup msg.pgn with
  | none => .returned
  | some function =>
      match function msg with
      | none => .returned
      | some e => .raised e

/-- `process_msg` of the superclass. -/
def superProcessMsg (defs : PGNDefinitions) (now : Time) (s : NMEA2KActiveController)
    (msg : NMEA2000Msg) : Outcome × NMEA2KActiveController :=
  if msg.sa ≥ 254 then (.returned, s)
  else if s.gcLock then (.blocked, s)
  else
    andThen (deviceReceive defs now { s with gcLock := true } msg) fun s =>
      andThen (s.callSubscribers msg, s) fun s => (.returned, { s with gcLock := false })

/-- `receive_iso_msg` of the applications from `k` on. -/
def broadcast (msg : NMEA2000Msg) (s : NMEA2KActiveController) :
    List Nat → Outcome × NMEA2KActiveController
  | [] => (.returned, s)
  | k :: ks => andThen (s.receiveIsoMsg k msg) fun s => broadcast msg s ks

/-- A data message goes to the applications that have asked for it; the
applications modelled here have not, and one that is addressed raises. -/
def processMsg (defs : PGNDefinitions) (now : Time) (s : NMEA2KActiveController)
    (msg : NMEA2000Msg) : Outcome × NMEA2KActiveController :=
  if msg.da ≠ 255 then
    match s.appIndex.lookup msg.da with
    | none => (.returned, s)
    | some k =>
        if msg.isIso then receiveMsg defs now s k msg else (.raised .notImplementedError, s)
  else if msg.isIso then
    andThen (superProcessMsg defs now s msg) fun s =>
      andThen (broadcast msg s (List.range s.applications.length)) fun s =>
        s.applyChangeApplicationAddress
  else (.returned, s)

/-! ## 4. The calls -/

/-- The callback of a timer. -/
def callback (s : NMEA2KActiveController) (timer : Timer) : NMEA2KActiveController :=
  match timer.kind with
  | .claim => s.addressClaimDelay timer.app
  | .heartbeat => s.sendHeartbeat timer.app

/-- A timer expires, unless it is cancelled or has fired. -/
def expire (s : NMEA2KActiveController) (i : Nat) : NMEA2KActiveController :=
  match s.timers[i]? with
  | none => s
  | some timer =>
      if timer.status = .pending then
        { s with timers := s.timers.modify i (fun t => { t with status := .fired }) }.callback timer
      else s

end NMEA2KActiveController

inductive EcuCall where
  | addApplication (address : Option Nat) (deviceClass deviceFunction : Nat)
      (info : ProductInformation)
  | started
  | busReady (k : Nat)
  | message (now : Time) (msg : NMEA2000Msg)
  | expire (i : Nat)
  | pollDevices
  | deviceGc (now : Time)
  | addSubscriber (pgn : Nat) (function : Subscriber)
  | stop

namespace NMEA2KActiveController

/-- The message loop takes no message when it is stopped. -/
def call (defs : PGNDefinitions) (s : NMEA2KActiveController) :
    EcuCall → Outcome × NMEA2KActiveController
  | .addApplication address deviceClass deviceFunction info =>
      s.addApplication address deviceClass deviceFunction info
  | .started => (.returned, { s with appTimer := true })
  | .busReady k => (.returned, s.sendAddressClaim k)
  | .message now msg => if s.stopFlag then (.returned, s) else processMsg defs now s msg
  | .expire i => (.returned, s.expire i)
  | .pollDevices =>
      if s.applications.isEmpty then (.raised .indexError, s) else (.returned, s.sendAddressClaim 0)
  | .deviceGc now => s.deviceGc now
  | .addSubscriber pgn function =>
      (.returned, { s with subscriber := s.subscriber.insert pgn function })
  | .stop => s.stop

end NMEA2KActiveController

/-- Calls in any order. -/
def ecuCalls (defs : PGNDefinitions) : Machine NMEA2KActiveController EcuCall Outcome where
  step s call := s.call defs call

end NavigationServer.CanInterface
