/-
NavigationServer.Couplers.Nmea2kGrpcCoupler — a coupler that reads the CAN bus of
another server over gRPC.

`N2KGrpcCoupler` has a `CANGrpcStreamReader`: `open` starts a thread that calls
`ReadNmea2000Msg` and puts what the stream brings on a queue, which `_read` takes
from. Each start makes a new queue; the thread of an old stream keeps its own one.
A stream ends with an RPC error, with its call at the server, or when its thread
sees the stop flag at a message, and the thread then calls `_stream_error`.

The server goes its own way, with the calls of other clients, and every statement
that waits or that another thread can come before is a step of its own. The thread
of the coupler is either outside or in `get`. The messages that a stream has
yielded and its thread has not taken are under way; an error loses them.
-/
import NavigationServer.CanInterface.ReadStreams
import NavigationServer.RouterCommon.ServiceClient
import NavigationServer.RouterCore.CouplerRun

namespace NavigationServer.Couplers

open NavigationServer.Lib
open NavigationServer.RouterCommon
open NavigationServer.RouterCore
open NavigationServer.CanInterface

/-! ## 1. The request -/

structure CANReadRequest where
  client : String
  selectSources : List Nat
  rejectSources : List Nat
  selectPgn : List Nat
  rejectPgn : List Nat

namespace CANReadRequest

/-- The request that `CANGrpcStreamReader.__init__` makes of its options. -/
def of (reference : String) (selectSources rejectSources selectPgn rejectPgn : Option (List Nat)) :
    CANReadRequest where
  client := reference ++ "-reader"
  selectSources := selectSources.getD []
  rejectSources := if selectSources.isSome then [] else rejectSources.getD []
  selectPgn := selectPgn.getD []
  rejectPgn := if selectPgn.isSome then [] else rejectPgn.getD []

/-- The subscriber that the server makes for it. -/
def subscriber (req : CANReadRequest) : N2KReadSubscriber :=
  .init req.client req.selectSources req.rejectSources req.selectPgn req.rejectPgn

/-- The call at the server. -/
def call (req : CANReadRequest) : ReadInput :=
  .readNmea2000Msg req.client req.selectSources req.rejectSources req.selectPgn req.rejectPgn

end CANReadRequest

/-! ## 2. The coupler -/

/-- A thread that reads a stream, with its queue. `stream` is its call at the
server, `taken` counts the messages that it has for its queue, `holding` is the
one that waits in `put`, and `read` is what `_read` has taken off the queue. -/
structure StreamThread where
  stream : Option Nat
  taken : Nat
  holding : Option Nmea2000pb
  queue : List Nmea2000pb
  read : List Nmea2000pb

namespace StreamThread

def new : StreamThread := ⟨none, 0, none, [], []⟩

/-- `queue.Queue(20)`. -/
def queueSize : Nat := 20

end StreamThread

/-- The thread of the coupler is outside, or in `get` on a queue. -/
inductive ReadPlace where
  | outside
  | inGet (q : Nat)
  deriving DecidableEq

/-- `threads` are those of `client.readers`. -/
structure N2KGrpcCoupler where
  service : ReadService
  client : ServiceClient
  threads : List StreamThread
  readQueue : Option Nat
  place : ReadPlace
  state : CouplerState
  returned : List NMEA2000Msg

inductive GrpcCouplerInput where
  | server (i : ReadInput)
  | opens (connected : Bool)
  | call (r : Nat)
  | next (r : Nat)
  | put (r : Nat)
  | ends (r : Nat) (rpcError : Bool)
  | streamError (r : Nat)
  | read
  | got
  | empty
  | stop

namespace N2KGrpcCoupler

def start : N2KGrpcCoupler := ⟨.start, .new, [], none, .outside, .notReady, []⟩

def modifyThread (s : N2KGrpcCoupler) (r : Nat) (f : StreamThread → StreamThread) :
    N2KGrpcCoupler :=
  { s with threads := s.threads.modify r f }

/-- The thread is in the loop over its stream. -/
def inLoop (s : N2KGrpcCoupler) (r : Nat) : Bool :=
  match s.client.readers[r]? with
  | some reader => reader.phase = .reading
  | none => false

def stopFlag (s : N2KGrpcCoupler) (r : Nat) : Bool :=
  match s.client.readers[r]? with
  | some reader => reader.stopFlag
  | none => false

/-- `_start_read_stream_to_queue`. -/
def startReadStream (s : N2KGrpcCoupler) : N2KGrpcCoupler :=
  if s.client.streamIsAlive then s
  else
    { s with
      client := s.client.startReadStream true
      threads := s.threads ++ [.new]
      readQueue := some s.threads.length }

/-- `open`. `connected` tells whether the server is, or can be, connected. -/
def openCoupler (s : N2KGrpcCoupler) (connected : Bool) : N2KGrpcCoupler :=
  if s.place = .outside ∧ connected then { s.startReadStream with state := .connected } else s

/-- The call of a thread comes to the server. -/
def call (req : CANReadRequest) (s : N2KGrpcCoupler) (r : Nat) : N2KGrpcCoupler :=
  match s.threads[r]? with
  | none => s
  | some t =>
      if s.inLoop r ∧ t.stream = none then
        { s.modifyThread r (fun t => { t with stream := some s.service.streams.length }) with
          service := s.service.step req.call }
      else s

/-- The next message that the stream of a thread brings, if there is one. -/
def nextMessage (s : N2KGrpcCoupler) (t : StreamThread) : Option Nmea2000pb := do
  let i ← t.stream
  let stream ← s.service.streams[i]?
  stream.yielded[t.taken]?

/-- A thread gets the next message. -/
def next (s : N2KGrpcCoupler) (r : Nat) : N2KGrpcCoupler :=
  match s.threads[r]? with
  | none => s
  | some t =>
      if s.inLoop r ∧ t.holding = none then
        match s.nextMessage t with
        | none => s
        | some msg =>
            if s.stopFlag r then { s with client := s.client.leaves r .stopFlag }
            else s.modifyThread r fun t => { t with taken := t.taken + 1, holding := some msg }
      else s

/-- `push_to_queue`, which waits while the queue is full. -/
def put (t : StreamThread) : StreamThread :=
  match t.holding with
  | none => t
  | some msg =>
      if t.queue.length < StreamThread.queueSize then
        { t with queue := t.queue ++ [msg], holding := none }
      else t

/-- The call at the server is over, and the thread has taken all it has yielded. -/
def streamOver (s : N2KGrpcCoupler) (t : StreamThread) : Bool :=
  match t.stream with
  | none => false
  | some i =>
      match s.service.streams[i]? with
      | none => false
      | some stream => !stream.isOpen && t.taken = stream.yielded.length

/-- The loop over the stream ends, or raises a `RpcError`. -/
def ends (s : N2KGrpcCoupler) (r : Nat) (rpcError : Bool) : N2KGrpcCoupler :=
  match s.threads[r]? with
  | none => s
  | some t =>
      if t.holding = none ∧ (rpcError ∨ s.streamOver t) then
        { s with client := s.client.leaves r (if rpcError then .rpcError else .normal) }
      else s

/-- The head of `_read_stream`. -/
def beginRead (s : N2KGrpcCoupler) : N2KGrpcCoupler :=
  if s.place = .outside then
    match s.client.streamReader, s.readQueue with
    | some _, some q => { s with place := .inGet q }
    | _, _ => { s with state := .notReady }
  else s

/-- `get` returns a message. -/
def got (s : N2KGrpcCoupler) : N2KGrpcCoupler :=
  match s.place with
  | .outside => s
  | .inGet q =>
      match s.threads[q]? with
      | none => s
      | some t =>
          match t.queue with
          | [] => s
          | msg :: queue =>
              { s.modifyThread q (fun t => { t with queue := queue, read := t.read ++ [msg] }) with
                place := .outside
                returned := s.returned ++ [fromProtobuf msg] }

/-- `get` finds nothing in its time. That is a time out of the coupler, or an
error where the thread of the stream is not there any more. -/
def getEmpty (s : N2KGrpcCoupler) : N2KGrpcCoupler :=
  match s.place with
  | .outside => s
  | .inGet q =>
      match s.threads[q]? with
      | none => s
      | some t =>
          if t.queue = [] then
            if s.client.streamIsAlive then { s with place := .outside }
            else { s with place := .outside, state := .notReady }
          else s

def step (req : CANReadRequest) (s : N2KGrpcCoupler) : GrpcCouplerInput → N2KGrpcCoupler
  | .server i => { s with service := s.service.step i }
  | .opens connected => s.openCoupler connected
  | .call r => s.call req r
  | .next r => s.next r
  | .put r => s.modifyThread r put
  | .ends r rpcError => s.ends r rpcError
  | .streamError r => { s with client := s.client.streamError r }
  | .read => s.beginRead
  | .got => s.got
  | .empty => s.getEmpty
  | .stop => { s with client := s.client.stopReadStream }

end N2KGrpcCoupler

def grpcCoupler (req : CANReadRequest) : Machine N2KGrpcCoupler GrpcCouplerInput Unit where
  step s i := ((), s.step req i)

end NavigationServer.Couplers
