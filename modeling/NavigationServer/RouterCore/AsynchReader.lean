/-
NavigationServer.RouterCore.AsynchReader — the thread of the read loop, with its
output queue.

`IPReader` has the loop over one buffer, and the frames that it hands to
`msg_processing`. Here `msg_processing` gives messages, which are put on the
queue, or raises, and the loop around takes what `recv` gives until it leaves
and puts the NULL message. The messages keep the place of their `put`: a message
of a frame, a buffer in transparent mode, or the message behind the loop. `stop`
is not called, and a `put` that waits comes to its end.
-/
import NavigationServer.RouterCore.IPReader
import NavigationServer.RouterCore.Pdgy

namespace NavigationServer.RouterCore

open NavigationServer.Lib

/-- `msg_processing`, on the frames handed over before and the new one. The NULL
message is `none`. -/
abbrev MsgProcess (M : Type*) := List Bytes → Bytes → Except Exn (Option M)

variable {M : Type*}

/-- How a call ends, for the loop of `IPReader`. -/
def MsgProcess.processing (proc : MsgProcess M) : MsgProcessing := fun handed frame =>
  match proc handed frame with
  | .ok _ => .message
  | .error .incompleteMessage => .incompleteMessage
  | .error .nmeaInvalidFrame => .invalidFrame
  | .error (.couplerReadError _) => .readError
  | .error _ => .raised

/-- The loop over a buffer, with the messages that are put and the exception that
it does not catch. `full` tells for the number of a frame whether the queue is
full when its message is put. -/
def scanFrames (proc : MsgProcess M) (full : Nat → Bool) : Nat → ReaderState → Bytes →
    Option Exn × ReaderState × List (Option M)
  | 0, st, _ => (none, st, [])
  | fuel + 1, st, rest =>
      if rest.isEmpty then (none, st, [])
      else
        match turn st rest with
        | .leave st => (none, st, [])
        | .skip index st => scanFrames proc full fuel st (rest.drop (index + 2))
        | .frame f index st =>
            let st' := { st with handed := st.handed ++ [f] }
            match proc st.handed f with
            | .ok msg =>
                let (raised, st', msgs) := scanFrames proc full fuel st' (rest.drop (index + 2))
                (raised, st', if full st.handed.length then msgs else msg :: msgs)
            | .error .incompleteMessage => scanFrames proc full fuel st' (rest.drop (index + 2))
            | .error .nmeaInvalidFrame => scanFrames proc full fuel st' (rest.drop (index + 2))
            -- the break leaves this loop only
            | .error (.couplerReadError _) => (none, st', [])
            | .error e => (some e, { st' with raised := true }, [])

/-- An item of the output queue. -/
inductive QueueItem (M : Type*) where
  | received (msg : Option M)
  | transparent (raw : Bytes)
  | endOfFlow (msg : Option M)
  deriving DecidableEq, Repr

/-- The thread is in its loop, it has left it and put the last message, or an
exception has ended it. -/
inductive ThreadPhase where
  | running
  | left
  | raised (e : Exn)
  deriving DecidableEq, Repr

structure IPAsynchReader (M : Type*) where
  reader : ReaderState
  outQueue : List (QueueItem M)
  phase : ThreadPhase
  deriving DecidableEq

/-- What `recv` gives. A closed socket gives an empty buffer. `transparent` is
the mode of the reader when it comes. -/
inductive Recv where
  | buffer (content : Bytes) (transparent : Bool) (full : Nat → Bool)
  | timeOut
  | readError

namespace IPAsynchReader

def start : IPAsynchReader M := ⟨.start, [], .running⟩

/-- A buffer. -/
def readBuffer (proc : MsgProcess M) (full : Nat → Bool) (s : IPAsynchReader M)
    (content : Bytes) : IPAsynchReader M :=
  match scanFrames proc full content.length s.reader content with
  | (raised, reader, msgs) =>
      { reader := reader
        outQueue := s.outQueue ++ msgs.map .received
        phase := match raised with
          | none => s.phase
          | some e => .raised e }

/-- Behind the loop. -/
def endOfFlow (proc : MsgProcess M) (s : IPAsynchReader M) : IPAsynchReader M :=
  match proc s.reader.handed [4] with
  | .ok msg => { s with outQueue := s.outQueue ++ [.endOfFlow msg], phase := .left }
  | .error e => { s with phase := .raised e }

/-- One turn of the outer loop. -/
def outerTurn (proc : MsgProcess M) (s : IPAsynchReader M) : Recv → IPAsynchReader M
  | .timeOut => s
  | .readError => s.endOfFlow proc
  | .buffer content transparent full =>
      if transparent then { s with outQueue := s.outQueue ++ [.transparent content] }
      else if content.length = 0 then s
      else s.readBuffer proc full content

def step (proc : MsgProcess M) (s : IPAsynchReader M) (recv : Recv) : IPAsynchReader M :=
  if s.phase = .running then s.outerTurn proc recv else s

/-- The thread behind the first `n` results of `recv`. -/
def after (proc : MsgProcess M) (flow : Nat → Recv) : Nat → IPAsynchReader M
  | 0 => start
  | n + 1 => (after proc flow n).step proc (flow n)

end IPAsynchReader

end NavigationServer.RouterCore
