/-
NavigationServer.RouterCommon.ServiceClient — a gRPC client and the readers of
its stream.

A `GrpcStreamingReader` is a thread: it reads until the stream ends, an RPC
error comes or it sees its stop flag at a message, and then it calls the error
callback of the client. The readers are numbered in the order of their start.
A start or a stop is one step; a wait for the end is two, the call and the
return of `join`, since the readers go on in between.
-/
import NavigationServer.Lib.Machine

namespace NavigationServer.RouterCommon

open NavigationServer.Lib

/-- In the loop of `nrun`, behind it, and at the end of the thread. -/
inductive ReaderPhase where
  | reading
  | ending
  | finished
  deriving DecidableEq, Repr

structure GrpcStreamingReader where
  toQueue : Bool
  stopFlag : Bool
  phase : ReaderPhase
  deriving DecidableEq, Repr

namespace GrpcStreamingReader

def isAlive (r : GrpcStreamingReader) : Bool := r.phase ≠ .finished

def stop (r : GrpcStreamingReader) : GrpcStreamingReader := { r with stopFlag := true }

end GrpcStreamingReader

/-- Why a reader leaves its loop. -/
inductive StreamEnd where
  | normal
  | rpcError
  | stopFlag
  deriving DecidableEq, Repr

/-- `waits` are the readers of the calls of `join` that have not returned. -/
structure ServiceClient where
  streamReader : Option Nat
  readers : List GrpcStreamingReader
  waits : List Nat
  deriving DecidableEq, Repr

/-- The calls, and the steps of the readers. -/
inductive ClientInput where
  | startToQueue
  | startToCallback
  | stop
  | waitForEnd
  | joined (r : Nat)
  | leaves (r : Nat) (why : StreamEnd)
  | callback (r : Nat)

namespace ServiceClient

def new : ServiceClient := ⟨none, [], []⟩

/-- A reader that is alive. -/
def isAlive (s : ServiceClient) (r : Nat) : Bool :=
  match s.readers[r]? with
  | some reader => reader.isAlive
  | none => false

def streamIsAlive (s : ServiceClient) : Bool :=
  match s.streamReader with
  | some r => s.isAlive r
  | none => false

def modifyReader (s : ServiceClient) (r : Nat)
    (f : GrpcStreamingReader → GrpcStreamingReader) : ServiceClient :=
  { s with readers := s.readers.modify r f }

/-- `_start_read_stream_to_queue` and `_start_read_stream_to_callback`. -/
def startReadStream (s : ServiceClient) (toQueue : Bool) : ServiceClient :=
  if s.streamIsAlive then s
  else
    { s with
      streamReader := some s.readers.length
      readers := s.readers ++ [⟨toQueue, false, .reading⟩] }

/-- `_stop_read_stream`. -/
def stopReadStream (s : ServiceClient) : ServiceClient :=
  match s.streamReader with
  | some r => { s.modifyReader r .stop with streamReader := none }
  | none => s

/-- `_wait_for_stream_end`, up to the call of `join`. -/
def waitForStreamEnd (s : ServiceClient) : ServiceClient :=
  match s.streamReader with
  | some r => { s with waits := r :: s.waits }
  | none => s

/-- The call of `join` returns, when the reader is not alive any more. -/
def joined (s : ServiceClient) (r : Nat) : ServiceClient :=
  if r ∈ s.waits ∧ s.isAlive r = false then
    { s with waits := s.waits.erase r, streamReader := none }
  else s

/-- A reader leaves its loop. -/
def leaves (s : ServiceClient) (r : Nat) (why : StreamEnd) : ServiceClient :=
  match s.readers[r]? with
  | some reader =>
      if reader.phase = .reading ∧ (why = .stopFlag → reader.stopFlag = true) then
        s.modifyReader r fun reader => { reader with phase := .ending }
      else s
  | none => s

/-- `_stream_error`, which a reader calls at the end of its thread. -/
def streamError (s : ServiceClient) (r : Nat) : ServiceClient :=
  match s.readers[r]? with
  | some reader =>
      if reader.phase = .ending then
        { s.modifyReader r (fun reader => { reader with phase := .finished }) with
          streamReader := none }
      else s
  | none => s

def step (s : ServiceClient) : ClientInput → ServiceClient
  | .startToQueue => s.startReadStream true
  | .startToCallback => s.startReadStream false
  | .stop => s.stopReadStream
  | .waitForEnd => s.waitForStreamEnd
  | .joined r => s.joined r
  | .leaves r why => s.leaves r why
  | .callback r => s.streamError r

def machine : Machine ServiceClient ClientInput Unit where
  step s i := ((), s.step i)

end ServiceClient

end NavigationServer.RouterCommon
