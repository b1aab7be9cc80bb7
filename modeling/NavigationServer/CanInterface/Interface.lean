/-
NavigationServer.CanInterface.Interface — the SocketCAN interface: frames
received, messages sent.

The interface holds the addresses it accepts, the two transport handlers and
the two queues. A bounded queue that is full is an input of the step that puts
something into it (`full`), and so is the clock. Tracing is off.
-/
import NavigationServer.Nmea2000.FastPacket
import NavigationServer.Nmea2000.IsoTransport

namespace NavigationServer.CanInterface

open NavigationServer.Lib
open NavigationServer.Nmea2000
open NavigationServer.Nmea2000Datamodel
open NavigationServer.RouterCore

/-- A CAN frame with an extended identifier. -/
structure CanMessage where
  arbitrationId : Nat
  data : Bytes
  deriving DecidableEq, Repr

structure SocketCANInterface where
  addresses : List Nat
  fpHandler : FastPacketHandler
  isoTpHandler : IsoTransportHandler
  totalMsgIn : Nat
  queue : List NMEA2000Msg
  inQueue : List CanMessage
  writeErrors : Nat
  allowedSend : Bool

namespace SocketCANInterface

def new : SocketCANInterface where
  addresses := [255]
  fpHandler := .new
  isoTpHandler := .new
  totalMsgIn := 0
  queue := []
  inQueue := []
  writeErrors := 0
  allowedSend := false

/-! ## 1. Receiving -/

/-- `self._queue.put`, which drops the message when the queue is full. -/
def putMessage (s : SocketCANInterface) (full : Bool) (msg : NMEA2000Msg) : SocketCANInterface :=
  if full then s else { s with queue := s.queue ++ [msg] }

/-- A frame for the reassembly; what it completes goes to the queue. -/
def reassemble (s : SocketCANInterface) (now : Time) (full : Bool) (pgn prio sa da : Nat)
    (data : Bytes) : Except Exn Unit × SocketCANInterface :=
  match s.fpHandler.processFrame now pgn sa data with
  | (.ok none, fp) => (.ok (), { s with fpHandler := fp })
  | (.ok (some data), fp) =>
      (.ok (), { s with fpHandler := fp }.putMessage full (.of pgn prio sa da data))
  | (.error (.fastPacket _), fp) => (.ok (), { s with fpHandler := fp })
  | (.error e, fp) => (.error e, { s with fpHandler := fp })

/-- `process_receive_msg`. -/
def processReceiveMsg (defs : PGNDefinitions) (s : SocketCANInterface) (now : Time) (full : Bool)
    (msgRecv : CanMessage) : Except Exn Unit × SocketCANInterface :=
  let canId := msgRecv.arbitrationId
  let (pgn, da) := pgnPdu1Adjust ((canId >>> 8) &&& 0x1FFFF)
  if da ∉ s.addresses then (.ok (), s)
  else
    let sa := canId &&& 0xFF
    let prio := (canId >>> 26) &&& 0x7
    let data := msgRecv.data
    let s := { s with totalMsgIn := s.totalMsgIn + 1 }
    if pgn = 60416 then
      let (r, iso) := s.isoTpHandler.newTransaction sa prio data
      (r, { s with isoTpHandler := iso })
    else if pgn = 60160 then
      match s.isoTpHandler.incomingPacket sa data with
      | (.error (.isoTransport _), iso) => (.ok (), { s with isoTpHandler := iso })
      | (.error e, iso) => (.error e, { s with isoTpHandler := iso })
      | (.ok none, iso) => (.ok (), { s with isoTpHandler := iso })
      | (.ok (some msg), iso) => (.ok (), { s with isoTpHandler := iso }.putMessage full msg)
    else
      match s.fpHandler.isPgnActive pgn sa data with
      | .error (.fastPacket _) => (.ok (), s)
      | .error e => (.error e, s)
      | .ok true => s.reassemble now full pgn prio sa da data
      | .ok false =>
          match fastPacketCheck defs pgn with
          | .error e => (.error e, s)
          | .ok true => s.reassemble now full pgn prio sa da data
          | .ok false => (.ok (), s.putMessage full (.of pgn prio sa da data))

/-! ## 2. Sending -/

def buildArbitrationId (msg : NMEA2000Msg) : Nat :=
  let canId := msg.sa
  let pf := (msg.pgn >>> 8) &&& 0xFF
  let canId := if pf < 240 then canId ||| (msg.pgn + msg.da) <<< 8 else canId ||| msg.pgn <<< 8
  canId ||| (msg.prio &&& 7) <<< 26

/-- `put_can_msg`. The eleventh refusal in a row is an exception. -/
def putCanMsg (s : SocketCANInterface) (full : Bool) (canId : Nat) (data : Bytes) :
    Except Exn Bool × SocketCANInterface :=
  if full then
    let s := { s with writeErrors := s.writeErrors + 1 }
    if s.writeErrors > 10 then (.error (.socketCanError "Socket write buffer full"), s)
    else (.ok false, s)
  else (.ok true, { s with inQueue := s.inQueue ++ [⟨canId, data⟩], writeErrors := 0 })

/-- Frames put one after the other, up to the first that is refused. `full i`
tells whether the queue is full for the `i`-th of them. -/
def putCanMsgs (full : Nat → Bool) (canId : Nat) :
    List Bytes → Nat → SocketCANInterface → Except Exn Bool × SocketCANInterface
  | [], _, s => (.ok true, s)
  | data :: frames, i, s =>
      match s.putCanMsg (full i) canId data with
      | (.ok true, s) => putCanMsgs full canId frames (i + 1) s
      | r => r

/-- `send`. `none` is the result of the fast packet branch, which has no
`return`. A split that is not run to its end keeps its sequence number. -/
def send (s : SocketCANInterface) (full : Nat → Bool) (msg : NMEA2000Msg) (forceSend : Bool) :
    Except Exn (Option Bool) × SocketCANInterface :=
  if ¬ s.allowedSend ∧ ¬ forceSend then (.ok (some false), s)
  else
    let canId := buildArbitrationId msg
    if msg.fastPacket then
      match s.fpHandler.allocateSeq msg.pgn with
      | .error e => (.error e, s)
      | .ok (seq, fp) =>
          let (frames, exn) := FastPacketHandler.splitFrames msg.payload seq
          match putCanMsgs full canId frames 0 { s with fpHandler := fp } with
          | (.error e, s) => (.error e, s)
          | (.ok false, s) => (.ok (some false), s)
          | (.ok true, s) =>
              match exn with
              | some e => (.error e, s)
              | none => (.ok none, { s with fpHandler := s.fpHandler.freeSeq msg.pgn })
    else
      let (r, s) := s.putCanMsg (full 0) canId msg.payload
      (r.map some, s)

/-- `send_broadcast_with_iso_tp`. The message that gives the identifier of the
packets is built without a payload. -/
def sendBroadcastWithIsoTp (s : SocketCANInterface) (full : Nat → Bool) (msg : NMEA2000Msg) :
    Except Exn Bool × SocketCANInterface :=
  match IsoTransportHandler.newOutputTransaction msg with
  | .error e => (.error e, s)
  | .ok (tpcmMsg, tpTransact) =>
      match s.putCanMsg (full 0) (buildArbitrationId tpcmMsg) tpcmMsg.payload with
      | (.error e, s) => (.error e, s)
      | (.ok false, s) => (.ok false, s)
      | (.ok true, s) =>
          match NMEA2000Msg.init 60160 7 msg.sa 255 none with
          | .error e => (.error e, s)
          | .ok tpdt =>
              let (frames, exn) := tpTransact.splitMessage
              match putCanMsgs full (buildArbitrationId tpdt) frames 1 s, exn with
              | (.ok true, s), some e => (.error e, s)
              | r, _ => r

end SocketCANInterface

end NavigationServer.CanInterface
