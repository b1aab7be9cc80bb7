/-
NavigationServer.CanInterface.ReadStreams — the streams of NMEA2000 messages over
gRPC.

A call of `ReadNmea2000Msg` puts a `N2KReadSubscriber` into the dictionary of the
active controller, under the name of the client, and then takes messages off its
queue for ever. The thread of the controller comes to a message for all that
carries navigation data and offers it to the subscribers that are in the
dictionary at that moment, one after the other; a subscriber whose queue is full
is removed, under its name. Meanwhile streams are opened, read and closed. A
stream that is closed stays in the dictionary.

The steps of the loop of the controller are single inputs, and so are the calls
of the streams. `dispatched` is what the controller has come to, and a stream
keeps how many of these there were when it was opened (`since`), how many it has
been offered (`offered`), and the message for which its queue was full (`lost`).
-/
import NavigationServer.Lib.Machine
import NavigationServer.RouterCore.Nmea2000Msg

namespace NavigationServer.CanInterface

open NavigationServer.Lib
open NavigationServer.RouterCore

/-! ## 1. The protobuf form -/

/-- `nmea2000pb`, without the time stamp. -/
structure Nmea2000pb where
  pgn : Nat
  priority : Nat
  sa : Nat
  da : Nat
  payload : Bytes
  deriving DecidableEq

/-- `as_protobuf`. -/
def asProtobuf (msg : NMEA2000Msg) : Nmea2000pb :=
  ⟨msg.pgn, msg.prio, msg.sa, msg.da, msg.payload⟩

/-- `NMEA2000Msg.__init__` with a protobuf object, as the reader of a stream
calls it. -/
def fromProtobuf (pb : Nmea2000pb) : NMEA2000Msg :=
  .of pb.pgn pb.priority pb.sa pb.da pb.payload

/-! ## 2. A subscriber -/

/-- The sets of a filter are there or not. -/
structure N2KReadSubscriber where
  client : String
  selectSource : Option (List Nat)
  rejectSource : Option (List Nat)
  selectPgn : Option (List Nat)
  rejectPgn : Option (List Nat)
  queue : List NMEA2000Msg

namespace N2KReadSubscriber

/-- `N2KReadSubscriber.__init__`. -/
def init (client : String) (selectSource rejectSource selectPgn rejectPgn : List Nat) :
    N2KReadSubscriber where
  client
  selectSource := if selectSource.length > 0 then some selectSource else none
  rejectSource :=
    if selectSource.length > 0 then none
    else if rejectSource.length > 0 then some rejectSource else none
  selectPgn := if selectPgn.length > 0 then some selectPgn else none
  rejectPgn :=
    if selectPgn.length > 0 then none
    else if rejectPgn.length > 0 then some rejectPgn else none
  queue := []

/-- A selection comes before a rejection. -/
def passes (select reject : Option (List Nat)) (key : Nat) : Bool :=
  match select, reject with
  | some keys, _ => key ∈ keys
  | none, some keys => key ∉ keys
  | none, none => true

def accepts (s : N2KReadSubscriber) (msg : NMEA2000Msg) : Bool :=
  passes s.selectSource s.rejectSource msg.sa && passes s.selectPgn s.rejectPgn msg.pgn

/-- `queue.Queue(20)`. -/
def queueSize : Nat := 20

/-- `push_message`, with `queue.Full`. -/
def pushMessage (s : N2KReadSubscriber) (msg : NMEA2000Msg) : Bool × N2KReadSubscriber :=
  if s.accepts msg then
    if s.queue.length ≥ queueSize then (true, s)
    else (false, { s with queue := s.queue ++ [msg] })
  else (false, s)

end N2KReadSubscriber

/-! ## 3. The controller and the streams -/

structure ReadStream where
  subscriber : N2KReadSubscriber
  yielded : List Nmea2000pb
  isOpen : Bool
  since : Nat
  offered : Nat
  lost : List NMEA2000Msg

/-- The loop over the subscribers. `removing` is one whose queue was full, and
that is not removed yet. -/
structure Dispatch where
  msg : NMEA2000Msg
  rest : List Nat
  removing : Option Nat

structure ReadService where
  streams : List ReadStream
  readSubscribers : List (String × Nat)
  dispatch : Option Dispatch
  dispatched : List NMEA2000Msg

inductive ReadInput where
  | readNmea2000Msg (client : String) (selectSource rejectSource selectPgn rejectPgn : List Nat)
  | processMsg (msg : NMEA2000Msg)
  | turn
  | getMessage (i : Nat)
  | timeOut (i : Nat)
  | cancel (i : Nat)

namespace ReadService

def start : ReadService := ⟨[], [], none, []⟩

def modifyStream (s : ReadService) (i : Nat) (f : ReadStream → ReadStream) : ReadService :=
  { s with streams := s.streams.modify i f }

/-- `self._read_subscribers[client] = sub`. A key that is there keeps its
place. -/
def setSubscriber (d : List (String × Nat)) (client : String) (i : Nat) : List (String × Nat) :=
  if d.any (fun e => e.1 = client) then d.map (fun e => if e.1 = client then (client, i) else e)
  else d ++ [(client, i)]

/-- `add_read_subscriber`. -/
def addReadSubscriber (s : ReadService) (sub : N2KReadSubscriber) : ReadService :=
  { s with
    streams := s.streams ++ [⟨sub, [], true, s.dispatched.length, 0, []⟩]
    readSubscribers := setSubscriber s.readSubscribers sub.client s.streams.length }

/-- `remove_read_subscriber`. -/
def removeReadSubscriber (s : ReadService) (client : String) : ReadService :=
  { s with readSubscribers := s.readSubscribers.filter (fun e => e.1 ≠ client) }

/-- `push_message` for the subscriber of a stream. -/
def push (s : ReadService) (d : Dispatch) (i : Nat) (rest : List Nat) : ReadService :=
  match s.streams[i]? with
  | none => { s with dispatch := some { d with rest := rest } }
  | some r =>
      match r.subscriber.pushMessage d.msg with
      | (true, _) =>
          { s.modifyStream i (fun r => { r with offered := r.offered + 1, lost := [d.msg] }) with
            dispatch := some { d with rest := rest, removing := some i } }
      | (false, sub) =>
          { s.modifyStream i (fun r => { r with offered := r.offered + 1, subscriber := sub }) with
            dispatch := some { d with rest := rest } }

/-- A turn of the loop of the controller. -/
def turn (s : ReadService) : ReadService :=
  match s.dispatch with
  | none => s
  | some d =>
      match d.removing with
      | some i =>
          let client := (s.streams[i]?.map (fun r => r.subscriber.client)).getD ""
          { s.removeReadSubscriber client with dispatch := some { d with removing := none } }
      | none =>
          match d.rest with
          | [] => { s with dispatch := none }
          | i :: rest => s.push d i rest

/-- `get_message` and the `yield` behind it. -/
def getMessage (r : ReadStream) : ReadStream :=
  match r.isOpen, r.subscriber.queue with
  | true, msg :: queue =>
      { r with
        subscriber := { r.subscriber with queue := queue }
        yielded := r.yielded ++ [asProtobuf msg] }
  | _, _ => r

/-- A `N2KReadTimeOut` ends the call. -/
def timeOut (r : ReadStream) : ReadStream :=
  if r.subscriber.queue = [] then { r with isOpen := false } else r

def step (s : ReadService) : ReadInput → ReadService
  | .readNmea2000Msg client selectSource rejectSource selectPgn rejectPgn =>
      s.addReadSubscriber (.init client selectSource rejectSource selectPgn rejectPgn)
  | .processMsg msg =>
      match s.dispatch with
      | some _ => s
      | none =>
          { s with
            dispatch := some ⟨msg, s.readSubscribers.map Prod.snd, none⟩
            dispatched := s.dispatched ++ [msg] }
  | .turn => s.turn
  | .getMessage i => s.modifyStream i getMessage
  | .timeOut i => s.modifyStream i timeOut
  | .cancel i => s.modifyStream i (fun r => { r with isOpen := false })

end ReadService

def readService : Machine ReadService ReadInput Unit where
  step s i := ((), s.step i)

end NavigationServer.CanInterface
