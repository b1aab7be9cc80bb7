/-
NavigationServer.Couplers.IKonvert — the handshake with the iKonvert gateway.

Two threads share `_wait_event`, `_cmd_result` and a semaphore: the one that
sends a command, or waits for a status, and the reader that processes the
messages of the gateway. Each thread makes its steps one by one, in any
interleaving: the sender writes the command, assigns the awaited event and then
takes a permit; the reader compares the awaited event, and where it matches it
stores the answer, clears the event and releases a permit. The commands are
numbered as they are written, and an answer carries the number of its command.
The queue of navigation messages, the trace and the serial line are left out.
-/
import NavigationServer.Lib.Machine
import NavigationServer.RouterCommon.Exceptions

namespace NavigationServer.Couplers

open NavigationServer.Lib

namespace IKonvert

/-! ## 1. The state -/

inductive IkState where
  | idle
  | ready
  | connected
  deriving DecidableEq, Repr

/-- `_wait_event`, where `none` is 0. -/
inductive WaitEvent where
  | none
  | msg
  | conn
  | ackNak
  deriving DecidableEq, Repr

/-- `_cmd_result`. -/
inductive Answer where
  | ack (message : Bytes)
  | nak (error : Bytes)
  deriving DecidableEq, Repr

inductive GatewayMsg where
  | unknown
  | status
  | notConn
  | n2k
  | n183
  | answer (command : Nat) (a : Answer)
  deriving DecidableEq, Repr

/-- `send_loc_cmd`, with `wait=ACK` or not, and `wait_status`. -/
inductive Operation where
  | sendLocCmd (waitAck : Bool)
  | waitStatus
  deriving DecidableEq, Repr

/-- The sender: before the write, before the assignment of the awaited event, at
the semaphore, and before it looks at the result. -/
inductive Sender where
  | idle
  | writing (waitAck : Bool)
  | assigning (op : Operation)
  | waiting (op : Operation)
  | reading
  | raised (e : Exn)
  deriving DecidableEq, Repr

/-- The reader: between two messages, or in one whose event was awaited. -/
inductive Reader where
  | ready
  | storing (command : Nat) (a : Answer)
  | clearing (answered : Option (Nat × Answer))
  | releasing (answered : Option (Nat × Answer))
  deriving DecidableEq, Repr

structure State where
  ikstate : IkState
  waitEvent : WaitEvent
  permits : Nat
  cmdResult : Option Answer
  statusCount : Nat
  sender : Sender
  reader : Reader
  commands : Nat
  deriving DecidableEq, Repr

def State.start : State where
  ikstate := .idle
  waitEvent := .none
  permits := 0
  cmdResult := none
  statusCount := 0
  sender := .idle
  reader := .ready
  commands := 0

/-! ## 2. The reader -/

/-- `process_status`, for a message that is not connected or another one. -/
def State.processStatus (s : State) (msg : GatewayMsg) : State :=
  if msg = .notConn then
    { s with ikstate := .ready, reader := if s.waitEvent = .msg then .clearing none else .ready }
  else
    { s with
      ikstate := .connected
      reader := if s.waitEvent = .conn ∨ s.waitEvent = .msg then .clearing none else .ready
      statusCount := if msg = .status then s.statusCount + 1 else s.statusCount }

/-- `process_acknak`, up to the comparison. An answer that is not expected is
processed with it. -/
def State.processAcknak (s : State) (command : Nat) (a : Answer) : Option (Nat × Answer) × State :=
  if s.waitEvent = .ackNak then (none, { s with reader := .storing command a })
  else (some (command, a), s)

/-- The first step of a message. An answer is there only behind the write of its
command. -/
def State.receive (s : State) (msg : GatewayMsg) : Option (Nat × Answer) × State :=
  if s.reader ≠ .ready then (none, s)
  else
    match msg with
    | .answer command a =>
        if 0 < command ∧ command ≤ s.commands then s.processAcknak command a else (none, s)
    | .n2k => (none, if s.ikstate ≠ .connected then s.processStatus msg else s)
    | .n183 => (none, if s.ikstate ≠ .connected then s.processStatus msg else s)
    | msg => (none, s.processStatus msg)

/-- The further steps of a message whose event was awaited, and the answer that
is processed with the last one. -/
def State.readerStep (s : State) : Option (Nat × Answer) × State :=
  match s.reader with
  | .ready => (none, s)
  | .storing command a =>
      (none, { s with cmdResult := some a, reader := .clearing (some (command, a)) })
  | .clearing answered => (none, { s with waitEvent := .none, reader := .releasing answered })
  | .releasing answered => (answered, { s with permits := s.permits + 1, reader := .ready })

/-! ## 3. The sender -/

/-- The event that an operation waits for. -/
def expected : Operation → WaitEvent
  | .sendLocCmd true => .ackNak
  | .sendLocCmd false => .msg
  | .waitStatus => .msg

def State.begin (s : State) (op : Operation) : State :=
  if s.sender ≠ .idle then s
  else
    match op with
    | .sendLocCmd waitAck => { s with cmdResult := none, sender := .writing waitAck }
    | .waitStatus => { s with sender := .assigning .waitStatus }

def State.senderStep (s : State) : State :=
  match s.sender with
  | .idle => s
  | .writing waitAck =>
      { s with commands := s.commands + 1, sender := .assigning (.sendLocCmd waitAck) }
  | .assigning op => { s with waitEvent := expected op, sender := .waiting op }
  | .waiting op =>
      if s.permits = 0 then s
      else
        { s with
          permits := s.permits - 1
          sender := if op = .sendLocCmd true then .reading else .idle }
  | .reading => { s with sender := if s.cmdResult = none then .raised .typeError else .idle }
  | .raised _ => s

inductive Act where
  | begin (op : Operation)
  | sender
  | receive (msg : GatewayMsg)
  | reader
  deriving DecidableEq, Repr

/-- The two threads. The output is an answer that is processed. -/
def handshake : Machine State Act (Option (Nat × Answer)) where
  step s
    | .begin op => (none, s.begin op)
    | .sender => (none, s.senderStep)
    | .receive msg => s.receive msg
    | .reader => s.readerStep

end IKonvert

end NavigationServer.Couplers
