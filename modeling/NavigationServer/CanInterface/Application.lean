/-
NavigationServer.CanInterface.Application — the local applications of a node.

An application claims its address, defends it or takes another one, and sends
heartbeats. Its methods change the controller, so they are functions of the
state of the node: the application of number `k`, the tables, the timers. A
`threading.Timer` is an entry of `timers`; starting one appends it, and the
application keeps its number. What is put on the bus is the history `sent`.

`NMEA2KActiveController` and its own methods come in the next module; here are
those that the applications call.
-/
import NavigationServer.Nmea2000.Controller
import NavigationServer.Nmea2000Datamodel.Name

namespace NavigationServer.CanInterface

open NavigationServer.Lib
open NavigationServer.Nmea2000
open NavigationServer.Nmea2000Datamodel
open NavigationServer.RouterCore

/-! ## 1. The state of a node -/

inductive AppState where
  | waitForBus
  | addressClaim
  | active
  | stopInProgress
  deriving DecidableEq, Repr

/-- An application is a device; its NAME is `name`. The two timers are
numbers. -/
structure NMEA2000Application extends NMEA2000Device where
  name : NMEA2000MutableName
  state : AppState
  claimTimer : Option Nat
  heartbeatTimer : Option Nat
  sequence : Nat

/-- An entry of the table of devices: a proxy, or the application of a
number. -/
inductive Device where
  | proxy (dev : NMEA2000Device)
  | application (k : Nat)

inductive TimerKind where
  | claim
  | heartbeat
  deriving DecidableEq, Repr

inductive TimerStatus where
  | pending
  | cancelled
  | fired
  deriving DecidableEq, Repr

structure Timer where
  app : Nat
  kind : TimerKind
  status : TimerStatus
  deriving DecidableEq, Repr

/-- `cancel`, which does nothing to a timer that has fired. -/
def Timer.cancel (t : Timer) : Timer :=
  if t.status = .pending then { t with status := .cancelled } else t

/-- What an application gives to the CAN interface. -/
inductive Outgoing where
  | addressClaim (sa name da : Nat)
  | isoRequest (sa da pgn : Nat)
  | heartbeat (sa sequence : Nat)
  | productInformation (sa : Nat)
  | configurationInformation (sa : Nat)
  | acknowledge (sa da : Nat)
  deriving DecidableEq, Repr

/-- `addressPool` is what is left of it from `_ap_index` on. -/
structure NMEA2000ApplicationPool where
  mfgCode : Nat
  maxApplication : Nat
  uniqueIdRoot : Nat
  addressPool : List Nat
  applicationCount : Nat

structure NMEA2KActiveController where
  applications : List NMEA2000Application
  devices : AList (fun _ : Nat => Device)
  appIndex : AList (fun _ : Nat => Nat)
  addresses : List Nat
  pool : NMEA2000ApplicationPool
  addressChangeRequest : Option (Nat × Nat)
  timers : List Timer
  appTimer : Bool
  stopFlag : Bool
  allowedSend : Bool
  gcLock : Bool
  subscriber : AList (fun _ : Nat => Subscriber)
  maxSilent : Time
  sent : List Outgoing

/-! ## 2. The messages of the applications -/

/-- The PGN of an `ISORequest`: a request without one is for a claim. -/
def ISORequest.decode (payload : Bytes) : Nat :=
  let pgn := ofLE (payload.take 3)
  if payload.length < 3 ∨ pgn = 0xFFFFFF then 60928 else pgn

/-- `CommandedAddress`: an address of 255 is a field that is missing. -/
def CommandedAddress.decode (payload : Bytes) : Except Exn (Nat × Nat) := do
  let name ← AddressClaim.decode payload
  match payload[8]? with
  | some address => if address = 255 then throw .keyError else return (name, address.toNat)
  | none => throw .keyError

/-- The parameters of a command on the NAME. A number out of range, or the
number of the whole value, ends the list. -/
def AddressClaim.decodeCommandParameters (buffer : Bytes) :
    Nat → Nat → Except Exn (List (Nat × Nat))
  | 0, _ => .ok []
  | n + 1, index => do
      let paramNum ← item buffer index
      match (none :: nameFields.map some)[paramNum.toNat]? with
      | some (some field) =>
          if field.byteSize > 3 then return []
          let value ←
            if field.byteSize = 1 then (fun b => b.toNat) <$> item buffer (index + 1)
            else ofLE <$> unpackFrom field.byteSize buffer (index + 1)
          let rest ← decodeCommandParameters buffer n (index + 1 + field.byteSize)
          return (paramNum.toNat, value) :: rest
      | _ => return []

/-- The strings of a command on the configuration information are read, or one
of them is not there. -/
def ConfigurationInformation.decodeCommandParameters (buffer : Bytes) :
    Nat → Nat → Except Exn Unit
  | 0, _ => .ok ()
  | n + 1, index => do
      let paramNum ← item buffer index
      if paramNum = 1 ∨ paramNum = 2 then
        let (_, paramLen) ← extractVarStr buffer (index + 1)
        decodeCommandParameters buffer n (index + 1 + paramLen)
      else decodeCommandParameters buffer n (index + 1)

/-- `create_group_function`: the parameters of a command on the NAME, or `none`
for another function that is acknowledged. -/
def createGroupFunction (payload : Bytes) : Except Exn (Option (List (Nat × Nat))) := do
  let function ← item payload 0
  if function ∉ [0, 1, 2, 3, 5] then throw .keyError
  let header ← unpackFrom 4 payload 0
  let functionPgn := ofLE (header.drop 1)
  if function = 2 then
    let _ ← unpackFrom 2 payload 4
    throw .typeError
  if function = 1 then
    let command ← unpackFrom 2 payload 4
    let nbParam := ofLE (command.drop 1)
    if functionPgn = 60928 then
      return some (← AddressClaim.decodeCommandParameters payload nbParam 6)
    if functionPgn = 126998 then
      ConfigurationInformation.decodeCommandParameters payload nbParam 6
    if functionPgn = 126996 then throw .attributeError
  if functionPgn = 0 then throw .valueError
  return none

namespace NMEA2KActiveController

/-! ## 3. Timers and sending -/

def modifyApp (s : NMEA2KActiveController) (k : Nat)
    (f : NMEA2000Application → NMEA2000Application) : NMEA2KActiveController :=
  { s with applications := s.applications.modify k f }

def send (s : NMEA2KActiveController) (msg : Outgoing) : NMEA2KActiveController :=
  { s with sent := s.sent ++ [msg] }

/-- Go on with `f` when the call has returned. -/
def andThen (r : Outcome × NMEA2KActiveController)
    (f : NMEA2KActiveController → Outcome × NMEA2KActiveController) :
    Outcome × NMEA2KActiveController :=
  match r with
  | (.returned, s) => f s
  | (o, s) => (o, s)

/-- `try … except KeyError`. -/
def exceptKeyError (r : Outcome × NMEA2KActiveController) : Outcome × NMEA2KActiveController :=
  match r with
  | (.raised .keyError, s) => (.returned, s)
  | (o, s) => (o, s)

/-- A timer is started: its number is the length of the list. -/
def startTimer (s : NMEA2KActiveController) (k : Nat) (kind : TimerKind) :
    NMEA2KActiveController :=
  { s with timers := s.timers ++ [⟨k, kind, .pending⟩] }

/-- `cancel`, of a timer that may not be there. -/
def cancelTimer (s : NMEA2KActiveController) (timer : Option Nat) : NMEA2KActiveController :=
  match timer with
  | none => s
  | some i => { s with timers := s.timers.modify i Timer.cancel }

/-! ## 4. What the applications call -/

/-- The addresses of the pool up to the first one that no device has. -/
def takeAddress (known : Nat → Bool) : List Nat → Nat × List Nat
  | [] => (254, [])
  | address :: rest => if known address then takeAddress known rest else (address, rest)

/-- `get_new_address`. -/
def getNewAddress (s : NMEA2KActiveController) : Nat × NMEA2KActiveController :=
  let (address, rest) := takeAddress (fun a => (s.devices.lookup a).isSome) s.pool.addressPool
  (address, { s with pool := { s.pool with addressPool := rest } })

def stopRequest (s : NMEA2KActiveController) (k : Nat) : NMEA2KActiveController :=
  match s.applications[k]? with
  | none => s
  | some app =>
      (s.modifyApp k (fun app => { app with state := .stopInProgress })).cancelTimer
        app.heartbeatTimer

/-- `stop` of the controller. The timer of the applications is there when
`start` has come to its end. -/
def stop (s : NMEA2KActiveController) : Outcome × NMEA2KActiveController :=
  if s.appTimer then
    let s := (List.range s.applications.length).foldl stopRequest s
    (.returned, { s with stopFlag := true })
  else (.raised .attributeError, s)

def changeApplicationAddress (s : NMEA2KActiveController) (k oldAddress : Nat) :
    Outcome × NMEA2KActiveController :=
  match s.addressChangeRequest with
  | some _ => (.raised .assertionError, s)
  | none => (.returned, { s with addressChangeRequest := some (k, oldAddress) })

/-- `get_device_by_address`. -/
def getDeviceByAddress (s : NMEA2KActiveController) (address : Nat) : Except Outcome Device :=
  if s.gcLock then .error .blocked
  else
    match s.devices.lookup address with
    | some device => .ok device
    | none => .error (.raised .runtimeError)

/-- The product information of a device is not there yet. -/
def lacksProductInformation (s : NMEA2KActiveController) : Device → Bool
  | .proxy dev => dev.productInformation.isNone
  | .application k =>
      match s.applications[k]? with
      | some app => app.productInformation.isNone
      | none => true

/-! ## 5. The methods of an application -/

def respondAddressClaim (s : NMEA2KActiveController) (k : Nat) : NMEA2KActiveController :=
  match s.applications[k]? with
  | none => s
  | some app => s.send (.addressClaim app.address app.name.intValue 255)

def sendAddressClaim (s : NMEA2KActiveController) (k : Nat) : NMEA2KActiveController :=
  match s.applications[k]? with
  | none => s
  | some app =>
      if app.state = .stopInProgress then s
      else
        let s := s.respondAddressClaim k
        (s.modifyApp k (fun app =>
          { app with state := .addressClaim, claimTimer := some s.timers.length })).startTimer k .claim

def sendHeartbeat (s : NMEA2KActiveController) (k : Nat) : NMEA2KActiveController :=
  match s.applications[k]? with
  | none => s
  | some app =>
      if app.state = .stopInProgress then s
      else
        let s := s.send (.heartbeat app.address app.sequence)
        (s.modifyApp k (fun app => { app with
          sequence := if app.sequence + 1 > 253 then 0 else app.sequence + 1
          heartbeatTimer := some s.timers.length })).startTimer k .heartbeat

def sendIsoRequest (s : NMEA2KActiveController) (k da pgn : Nat) : NMEA2KActiveController :=
  match s.applications[k]? with
  | none => s
  | some app => s.send (.isoRequest app.address da pgn)

/-- `address_claim_delay`, when the claim timer fires. -/
def addressClaimDelay (s : NMEA2KActiveController) (k : Nat) : NMEA2KActiveController :=
  let s := s.modifyApp k (fun app => { app with state := .active })
  let s := { s with allowedSend := true }
  let s := (s.sendIsoRequest k 255 60928).sendHeartbeat k
  s.modifyApp k (fun app => { app with claimTimer := none })

def changeAddress (s : NMEA2KActiveController) (k address : Nat) :
    Outcome × NMEA2KActiveController :=
  match s.applications[k]? with
  | none => (.returned, s)
  | some app =>
      let s := s.modifyApp k (fun app => { app with address := address })
      andThen (s.changeApplicationAddress k app.address) fun s => (.returned, s.sendAddressClaim k)

/-- `address_claim_receipt`. The timer is cancelled first, whoever claims. -/
def addressClaimReceipt (s : NMEA2KActiveController) (k : Nat) (msg : NMEA2000Msg) :
    Outcome × NMEA2KActiveController :=
  match s.applications[k]? with
  | none => (.returned, s)
  | some app =>
      let s := s.cancelTimer app.claimTimer
      if app.address = msg.sa then
        match AddressClaim.decode msg.payload with
        | .error e => (.raised e, s)
        | .ok name =>
            if nameValue name < nameValue app.name.intValue then
              let (address, s) := s.getNewAddress
              if address = 254 then
                (s.send (.addressClaim address app.name.intValue msg.sa)).stop
              else s.changeAddress k address
            else if nameValue name = nameValue app.name.intValue then s.stop
            else (.returned, s.respondAddressClaim k)
      else (.returned, s)

def isoRequest (s : NMEA2KActiveController) (k : Nat) (msg : NMEA2000Msg) :
    Outcome × NMEA2KActiveController :=
  match s.applications[k]? with
  | none => (.returned, s)
  | some app =>
      if msg.da = app.address ∨ msg.da = 255 then
        let requestPgn := ISORequest.decode msg.payload
        if requestPgn = 60928 then (.returned, s.respondAddressClaim k)
        else if requestPgn = 126996 then (.returned, s.send (.productInformation app.address))
        else if requestPgn = 126998 then (.returned, s.send (.configurationInformation app.address))
        else (.returned, s)
      else (.returned, s)

def commandedAddressRequest (s : NMEA2KActiveController) (k : Nat) (msg : NMEA2000Msg) :
    Outcome × NMEA2KActiveController :=
  match s.applications[k]? with
  | none => (.returned, s)
  | some app =>
      match CommandedAddress.decode msg.payload with
      | .error e => (.raised e, s)
      | .ok (name, commandedAddress) =>
          if name ≠ app.name.intValue then (.returned, s) else s.changeAddress k commandedAddress

def remoteAddressClaim (s : NMEA2KActiveController) (k : Nat) (msg : NMEA2000Msg) :
    Outcome × NMEA2KActiveController :=
  match s.getDeviceByAddress msg.sa with
  | .error o => (o, s)
  | .ok device =>
      if s.lacksProductInformation device then
        (.returned, (s.sendIsoRequest k msg.sa 126996).sendIsoRequest k msg.sa 126998)
      else (.returned, s)

def groupFunctionHandler (s : NMEA2KActiveController) (k : Nat) (msg : NMEA2000Msg) :
    Outcome × NMEA2KActiveController :=
  match s.applications[k]? with
  | none => (.returned, s)
  | some app =>
      match createGroupFunction msg.payload with
      | .error e => (.raised e, s)
      | .ok params =>
          let s := s.modifyApp k (fun app =>
            { app with name := app.name.modifyParameters (params.getD []) })
          (.returned, if s.allowedSend then s.send (.acknowledge app.address msg.sa) else s)

/-! ## 6. Messages for an application -/

/-- The outcome of a handler of the superclass. -/
def deviceOutcome : Except Exn Unit → Outcome
  | .ok () => .returned
  | .error e => .raised e

/-- The handler of a PGN in `_process_vector`. -/
def processVector (s : NMEA2KActiveController) (k : Nat) (msg : NMEA2000Msg) :
    Outcome × NMEA2KActiveController :=
  if msg.pgn = 60928 then s.addressClaimReceipt k msg
  else if msg.pgn = 59904 then s.isoRequest k msg
  else if msg.pgn = 126208 then s.groupFunctionHandler k msg
  else
    match s.applications[k]? with
    | none => (.returned, s)
    | some app =>
        let (result, dev) := app.toNMEA2000Device.processVector msg
        (deviceOutcome result, s.modifyApp k (fun app => { app with toNMEA2000Device := dev }))

/-- `receive_msg`, which an application inherits. -/
def receiveMsg (defs : PGNDefinitions) (now : Time) (s : NMEA2KActiveController) (k : Nat)
    (msg : NMEA2000Msg) : Outcome × NMEA2KActiveController :=
  match s.applications[k]? with
  | none => (.returned, s)
  | some app =>
      let s := s.modifyApp k (fun app => { app with lastmsgTs := now })
      match app.toNMEA2000Device.addPgnCount defs msg.pgn with
      | none => (.returned, s)
      | some dev =>
          let s := s.modifyApp k (fun app => { app with pgnReceived := dev.pgnReceived })
          exceptKeyError (s.processVector k msg)

/-- `receive_iso_msg`: a message with no destination. -/
def receiveIsoMsg (s : NMEA2KActiveController) (k : Nat) (msg : NMEA2000Msg) :
    Outcome × NMEA2KActiveController :=
  if msg.pgn = 59904 then exceptKeyError (s.isoRequest k msg)
  else if msg.pgn = 60928 then exceptKeyError (s.remoteAddressClaim k msg)
  else if msg.pgn = 65240 then exceptKeyError (s.commandedAddressRequest k msg)
  else (.returned, s)

end NMEA2KActiveController

end NavigationServer.CanInterface
