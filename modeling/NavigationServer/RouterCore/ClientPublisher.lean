/-
NavigationServer.RouterCore.ClientPublisher — NMEA2000 messages over TCP in DY
format.

A server in DY format has a `NMEA2000DYPublisher` for each of its clients, which
writes PDGY sentences on the connection, and passes on other messages as they
came. At the other end of a connection a `NMEASender` reads PDGY sentences, over
the thread of a `TCPBufferedReader`, and hands the messages to its coupler. When it
has left its loop it stops the reader, waits for its end, and closes the connection.

The thread of the reader is the `IPAsynchReader` again, here statement by
statement: between two frames of a buffer the sender may take a message off the
queue or call `stop`, and a `put` may wait. A `TCPBufferedReader` is never
transparent. A `DyLink` is such a connection; its inputs are the steps of its
threads, in any order, and what the sockets do: what `recv` gives behind a close
is not limited to an error. No publisher is ever added to a sender.
-/
import NavigationServer.Lib.Machine
import NavigationServer.RouterCore.AsynchReader

namespace NavigationServer.RouterCore

open NavigationServer.Lib

/-! ## 1. The publisher -/

/-- What a publisher takes off its queue. A message that is not of NMEA2000 has
the bytes it came in, or none. -/
inductive PublishedMsg where
  | n2k (msg : NMEA2000Msg) (ts : Time)
  | other (raw : Option Bytes)
  deriving DecidableEq

/-- What `process_msg` sends. -/
def PublishedMsg.data : PublishedMsg → Option Bytes
  | .n2k msg ts => some (asPDGY msg ts)
  | .other raw => raw

/-- `NMEA2000DYPublisher`, with the messages it has sent and the bytes that have
gone out on the connection. -/
structure NMEA2000DYPublisher where
  sent : List PublishedMsg
  wire : Bytes
  running : Bool

namespace NMEA2000DYPublisher

def start : NMEA2000DYPublisher := ⟨[], [], true⟩

/-- A turn of `nrun`, with `process_msg` and `send`. A `sendall` that fails has
written some bytes or none, and ends the loop. -/
def turn (p : NMEA2000DYPublisher) (msg : PublishedMsg) (fails : Option Nat) :
    NMEA2000DYPublisher :=
  if p.running then
    match msg.data with
    -- no payload, which is no error of the client
    | none => p
    | some data =>
        match fails with
        | none => { p with sent := p.sent ++ [msg], wire := p.wire ++ data }
        | some n => ⟨p.sent ++ [msg], p.wire ++ data.take n, false⟩
  else p

end NMEA2000DYPublisher

/-! ## 2. The sender -/

/-- It is at the head of its loop, waits in `read`, or has left the loop. -/
inductive SenderPlace where
  | head
  | reading
  | left
  deriving DecidableEq

/-- The NULL message. -/
def QueueItem.isNull {M : Type*} : QueueItem M → Bool
  | .received none => true
  | .endOfFlow none => true
  | _ => false

/-- `NMEASender`, with what it has handed to `send_msg_gen`. -/
structure NMEASender (M : Type*) where
  place : SenderPlace
  stopFlag : Bool
  handed : List (QueueItem M)

namespace NMEASender

variable {M : Type*}

def start : NMEASender M := ⟨.head, false, []⟩

/-- The head of the loop. -/
def atHead (s : NMEASender M) : NMEASender M :=
  if s.stopFlag then { s with place := .left } else { s with place := .reading }

/-- What follows `read`. `writeError` tells whether `send_msg_gen` raises a
CouplerWriteError. -/
def read (s : NMEASender M) (msg : QueueItem M) (writeError : Bool) : NMEASender M :=
  if msg.isNull then { s with place := .left }
  else
    { s with
      handed := s.handed ++ [msg]
      place := if writeError then .left else .head }

end NMEASender

/-! ## 3. The reader -/

/-- Where the thread of the reader is: at the head of its loop, in `recv`, in the
loop over a buffer of which `rest` is left, in the `put` of a message, behind it,
and behind the loop in the `put` of the last message. -/
inductive ReaderPlace (M : Type*) where
  | head
  | receiving
  | inBuffer (rest : Bytes)
  | putting (msg : Option M) (rest : Bytes)
  | checking (rest : Bytes)
  | ending (msg : Option M)
  | left
  | raised (e : Exn)
  deriving DecidableEq

/-- `TCPBufferedReader` with its `IPAsynchReader`. `full` tells of each frame that
has been dealt with whether its message was lost at a full queue, and `put` is
all that was ever put. -/
structure TCPBufferedReader (M : Type*) where
  place : ReaderPlace M
  stopFlag : Bool
  reader : ReaderState
  inQueue : List (QueueItem M)
  full : List Bool
  put : List (QueueItem M)

namespace TCPBufferedReader

variable {M : Type*}

def start : TCPBufferedReader M := ⟨.head, false, .start, [], [], []⟩

/-- The size of the queue. -/
def maxsize : Nat := 50

/-- Behind the outer loop. -/
def behindLoop (proc : MsgProcess M) (r : TCPBufferedReader M) : TCPBufferedReader M :=
  match proc r.reader.handed [4] with
  | .ok msg => { r with stopFlag := true, place := .ending msg }
  | .error e => { r with stopFlag := true, place := .raised e }

def atHead (proc : MsgProcess M) (r : TCPBufferedReader M) : TCPBufferedReader M :=
  if r.stopFlag then r.behindLoop proc else { r with place := .receiving }

/-- `recv` returns. -/
def received (r : TCPBufferedReader M) (buffer : Bytes) : TCPBufferedReader M :=
  if buffer.length = 0 then { r with place := .head } else { r with place := .inBuffer buffer }

/-- A frame is handed to `msg_processing`. -/
def frame (proc : MsgProcess M) (r : TCPBufferedReader M) (f rest : Bytes) :
    TCPBufferedReader M :=
  let handed := r.reader.handed
  let r := { r with reader := { r.reader with handed := handed ++ [f] } }
  match proc handed f with
  | .ok msg => { r with place := .putting msg rest }
  | .error .incompleteMessage => { r with place := .inBuffer rest, full := r.full ++ [false] }
  | .error .nmeaInvalidFrame => { r with place := .inBuffer rest, full := r.full ++ [false] }
  | .error (.couplerReadError _) => { r with place := .head, full := r.full ++ [false] }
  | .error e => { r with place := .raised e }

/-- A turn of the loop over a buffer. -/
def bufferTurn (proc : MsgProcess M) (r : TCPBufferedReader M) (rest : Bytes) :
    TCPBufferedReader M :=
  if rest.isEmpty then { r with place := .head }
  else
    match RouterCore.turn r.reader rest with
    | .leave st => { r with reader := st, place := .head }
    | .skip index st => { r with reader := st, place := .inBuffer (rest.drop (index + 2)) }
    | .frame f index st => ({ r with reader := st }).frame proc f (rest.drop (index + 2))

/-- `put` returns, when there is room. -/
def putNext (r : TCPBufferedReader M) (item : QueueItem M) (place : ReaderPlace M)
    (full : List Bool) : TCPBufferedReader M :=
  if r.inQueue.length < maxsize then
    { r with
      inQueue := r.inQueue ++ [item]
      put := r.put ++ [item]
      full := r.full ++ full
      place := place }
  else r

/-- The next step of the thread. In `recv` it waits. -/
def turn (proc : MsgProcess M) (r : TCPBufferedReader M) : TCPBufferedReader M :=
  match r.place with
  | .head => r.atHead proc
  | .inBuffer rest => r.bufferTurn proc rest
  | .putting msg rest => r.putNext (.received msg) (.checking rest) [false]
  -- the break leaves the loop over the buffer
  | .checking rest => { r with place := if r.stopFlag then .head else .inBuffer rest }
  | .ending msg => r.putNext (.endOfFlow msg) .left []
  | _ => r

/-- The time of a `put` is over. The message is lost, and `_stop_flag` is not
looked at. -/
def putTimeOut (r : TCPBufferedReader M) : TCPBufferedReader M :=
  match r.place with
  | .putting _ rest =>
      if r.inQueue.length < maxsize then r
      else { r with place := .inBuffer rest, full := r.full ++ [true] }
  | _ => r

def stop (r : TCPBufferedReader M) : TCPBufferedReader M := { r with stopFlag := true }

end TCPBufferedReader

/-! ## 4. The connection -/

/-- How `send_msg_gen` ends: it returns, raises a CouplerWriteError, or something
that nothing catches. -/
inductive SendResult where
  | sent
  | writeError
  | raised
  deriving DecidableEq

/-- Behind the loop of the sender: `reader.stop` has set the flag and waits for the
end of the thread, it is over and the connection closed, or the sender died. -/
inductive SenderFinish where
  | before
  | joining
  | closed
  | died
  deriving DecidableEq

/-- `arrived` are the buffers that `recv` has returned, and `taken` are the items
that `read` has taken off the queue of the reader. -/
structure DyLink where
  publisher : NMEA2000DYPublisher
  arrived : List Bytes
  reader : TCPBufferedReader ReadMsg
  taken : List (QueueItem ReadMsg)
  sender : NMEASender ReadMsg
  finish : SenderFinish

/-- `publish` is a message for the publisher. `received` is a `recv` that
returns the next `n` bytes, or those there are. `turn` and `stop` are for the
sender, whose `read` returns with `got`. -/
inductive LinkInput where
  | publish (msg : PublishedMsg) (fails : Option Nat)
  | received (n : Nat)
  | timeOut
  | readError
  | readerTurn
  | putTimeOut
  | turn
  | got (result : SendResult)
  | stop

namespace DyLink

def start : DyLink := ⟨.start, [], .start, [], .start, .before⟩

/-- `msg_processing` of a sender in DY format. -/
def dyfmt : MsgProcess ReadMsg := fun _ frame => fromPGDY frame

/-- The bytes under way. -/
def underWay (s : DyLink) : Bytes := s.publisher.wire.drop s.arrived.flatten.length

/-- `recv` ends. -/
def recv (s : DyLink) (f : TCPBufferedReader ReadMsg → TCPBufferedReader ReadMsg) : DyLink :=
  if s.reader.place = .receiving then { s with reader := f s.reader } else s

/-- The next step of the sender, when it is not in `read`. Behind its loop it calls
`reader.stop`, and closes the connection when the reader has come to its end. -/
def senderTurn (s : DyLink) : DyLink :=
  match s.sender.place, s.finish with
  | .head, _ => { s with sender := s.sender.atHead }
  | .left, .before => { s with reader := s.reader.stop, finish := .joining }
  | .left, .joining =>
      match s.reader.place with
      | .left => { s with finish := .closed }
      | .raised _ => { s with finish := .closed }
      | _ => s
  | _, _ => s

/-- `read` returns. -/
def got (s : DyLink) (result : SendResult) : DyLink :=
  match s.sender.place, s.reader.inQueue with
  | .reading, msg :: queue =>
      { s with
        reader := { s.reader with inQueue := queue }
        taken := s.taken ++ [msg]
        sender := s.sender.read msg (result != .sent)
        finish := if msg.isNull || result != .raised then s.finish else .died }
  | _, _ => s

def step (s : DyLink) : LinkInput → DyLink
  | .publish msg fails => { s with publisher := s.publisher.turn msg fails }
  | .received n =>
      if s.reader.place = .receiving then
        let buffer := s.underWay.take n
        { s with arrived := s.arrived ++ [buffer], reader := s.reader.received buffer }
      else s
  | .timeOut => s.recv fun r => { r with place := .head }
  | .readError => s.recv fun r => r.behindLoop dyfmt
  | .readerTurn => { s with reader := s.reader.turn dyfmt }
  | .putTimeOut => { s with reader := s.reader.putTimeOut }
  | .turn => s.senderTurn
  | .got result => s.got result
  | .stop => { s with sender := { s.sender with stopFlag := true } }

end DyLink

def dyLink : Machine DyLink LinkInput Unit where
  step s i := ((), s.step i)

end NavigationServer.RouterCore
