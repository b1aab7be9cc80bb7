/-
NavigationServer.RouterCore.SenderServer — the server for clients that send to a
coupler.

`NMEASenderServer` takes one client at a time. Its thread accepts the connections
and starts a `NMEASender` for each that it admits; a second connection of the same
host takes the place of the first. The heartbeat looks after the sender and closes
it when it has been silent for too long. Both read and write `self._sender`, without
a lock, and go on beside each other and beside the senders.

Behind the check of a connection each statement that reads `self._sender` is a step
of its own. Four steps take several statements together: `connect`, the checks of a
connection from the stop flag to its host; `newSender`, from the address to the
assignment of the new sender; `.starting`, its start and the return to `accept`; and
`stop`, the flag and the stop of the sender that it finds. What the heartbeat reads for
its log lines is left out, and one heartbeat is over before the next one begins.

`toCoupler` is what `send_msg_gen` was called with, with the number of the sender,
and `counts` are the message counts that the heartbeats have found for a sender.
-/
import NavigationServer.RouterCore.ClientPublisher

namespace NavigationServer.RouterCore

open NavigationServer.Lib

/-! ## 1. The senders -/

structure PeerAddress where
  host : String
  port : Nat
  deriving DecidableEq

/-- A `NMEASender` with its counters. -/
structure SenderThread (M : Type*) where
  peer : PeerAddress
  sender : NMEASender M
  started : Bool
  msgcount : Nat
  silentCount : Nat
  counts : List Nat

namespace SenderThread

variable {M : Type*}

def new (peer : PeerAddress) : SenderThread M := ⟨peer, .start, false, 0, 0, []⟩

/-- The thread has not come to its end. -/
def Alive (t : SenderThread M) : Prop := t.sender.place ≠ .left

def stop (t : SenderThread M) : SenderThread M :=
  { t with sender := { t.sender with stopFlag := true } }

/-- The head of the loop. -/
def turn (t : SenderThread M) : SenderThread M :=
  if t.started ∧ t.sender.place = .head then { t with sender := t.sender.atHead } else t

/-- The thread waits in `read`. -/
def Reads (t : SenderThread M) : Prop := t.started = true ∧ t.sender.place = .reading

instance (t : SenderThread M) : Decidable t.Reads := inferInstanceAs (Decidable (_ ∧ _))

/-- `read` returns. -/
def got (t : SenderThread M) (msg : QueueItem M) (writeError : Bool) : SenderThread M :=
  { t with
    sender := t.sender.read msg writeError
    msgcount := if msg.isNull then t.msgcount else t.msgcount + 1 }

def addSilentPeriod (t : SenderThread M) : SenderThread M :=
  { t with silentCount := t.silentCount + 1 }

def resetPeriod (t : SenderThread M) : SenderThread M := { t with msgcount := 0, silentCount := 0 }

end SenderThread

/-! ## 2. The server -/

/-- Where the thread of the server is. Behind the check of a second connection it
stops the sender, waits for its end and admits the connection. `died` is an
exception that nothing catches. -/
inductive AcceptPlace where
  | accepting
  | stopping (peer : PeerAddress)
  | joining (peer : PeerAddress)
  | waiting (k : Nat) (peer : PeerAddress)
  | admitting (peer : PeerAddress)
  | starting (k : Nat)
  | left
  | died
  deriving DecidableEq

/-- Where the heartbeat is. -/
inductive BeatPlace where
  | idle
  | counting
  | adding
  | judging
  | stopping
  | joining
  | waiting (k : Nat)
  | clearing
  | resetting
  deriving DecidableEq

/-- The connection that the server has before it. -/
def AcceptPlace.connection : AcceptPlace → Option PeerAddress
  | .stopping peer => some peer
  | .joining peer => some peer
  | .waiting _ peer => some peer
  | .admitting peer => some peer
  | _ => none

/-- The heartbeat closes the sender. -/
def BeatPlace.Closes : BeatPlace → Prop
  | .stopping => True
  | .joining => True
  | .waiting _ => True
  | .clearing => True
  | _ => False

/-- It waits for the end of the sender, or is behind it. -/
def BeatPlace.waitsForEnd : BeatPlace → Bool
  | .waiting _ => true
  | .clearing => true
  | _ => false

structure NMEASenderServer (M : Type*) where
  sender : Option Nat
  address : Option PeerAddress
  stopFlag : Bool
  accept : AcceptPlace
  beat : BeatPlace
  senders : List (SenderThread M)
  toCoupler : List (Nat × QueueItem M)

structure SenderConfig where
  master : Option String
  maxSilentPeriod : Nat

/-- What the server finds of its coupler: it runs, it can be started, or it has
run. -/
inductive CouplerFound where
  | alive
  | startable
  | hasRun

inductive SenderServerInput (M : Type*) where
  | connect (peer : PeerAddress)
  | acceptTimeOut
  | acceptTurn
  | newSender (coupler : CouplerFound)
  | heartbeat
  | beatTurn
  | senderTurn (k : Nat)
  | senderGot (k : Nat) (msg : QueueItem M) (writeError : Bool)
  | stop

def SenderServerInput.isNewSender {M : Type*} : SenderServerInput M → Bool
  | .newSender _ => true
  | _ => false

namespace NMEASenderServer

variable {M : Type*}

def start : NMEASenderServer M := ⟨none, none, false, .accepting, .idle, [], []⟩

def modifySender (s : NMEASenderServer M) (k : Nat) (f : SenderThread M → SenderThread M) :
    NMEASenderServer M :=
  { s with senders := s.senders.modify k f }

/-- The thread of the sender has ended. -/
def hasLeft (s : NMEASenderServer M) (k : Nat) : Bool :=
  match s.senders[k]? with
  | some t => t.sender.place = .left
  | none => false

/-- A connection is there. -/
def connect (cfg : SenderConfig) (s : NMEASenderServer M) (peer : PeerAddress) :
    NMEASenderServer M :=
  if s.stopFlag then { s with accept := .left }
  else if cfg.master.any (fun master => peer.host ≠ master) then s
  else
    match s.sender with
    | none => { s with accept := .admitting peer }
    | some _ =>
        match s.address with
        | none => { s with accept := .died }
        | some address =>
            if peer.host ≠ address.host then s else { s with accept := .stopping peer }

/-- The statements behind the check of a second connection. Each of them reads
`self._sender` anew. -/
def acceptTurn (s : NMEASenderServer M) : NMEASenderServer M :=
  match s.accept with
  | .stopping peer =>
      match s.sender with
      | none => { s with accept := .died }
      | some k => { s.modifySender k .stop with accept := .joining peer }
  | .joining peer =>
      match s.sender with
      | none => { s with accept := .died }
      | some k => { s with accept := .waiting k peer }
  | .waiting k peer => if s.hasLeft k then { s with accept := .admitting peer } else s
  | .starting k =>
      { s.modifySender k (fun t => { t with started := true }) with accept := .accepting }
  | _ => s

/-- The check of the coupler, and the new sender. -/
def newSender (s : NMEASenderServer M) (coupler : CouplerFound) : NMEASenderServer M :=
  match s.accept with
  | .admitting peer =>
      match coupler with
      | .hasRun => { s with address := some peer, accept := .left }
      | _ =>
          { s with
            address := some peer
            senders := s.senders ++ [.new peer]
            sender := some s.senders.length
            accept := .starting s.senders.length }
  | _ => s

/-- The statements of the heartbeat, from the check that there is a sender. -/
def beatTurn (cfg : SenderConfig) (s : NMEASenderServer M) : NMEASenderServer M :=
  match s.beat, s.sender with
  | .clearing, _ => { s with sender := none, beat := .idle }
  | .waiting k, _ => if s.hasLeft k then { s with beat := .clearing } else s
  | .idle, _ => s
  -- an AttributeError ends this heartbeat
  | _, none => { s with beat := .idle }
  | .counting, some k =>
      match s.senders[k]? with
      | none => s
      | some t =>
          { s.modifySender k (fun t => { t with counts := t.counts ++ [t.msgcount] }) with
            beat := if t.msgcount = 0 then .adding else .resetting }
  | .adding, some k => { s.modifySender k .addSilentPeriod with beat := .judging }
  | .judging, some k =>
      match s.senders[k]? with
      | none => s
      | some t =>
          { s with beat := if t.silentCount ≥ cfg.maxSilentPeriod then .stopping else .idle }
  | .stopping, some k => { s.modifySender k .stop with beat := .joining }
  | .joining, some k =>
      match s.senders[k]? with
      | none => s
      -- a thread that is not started cannot be joined
      | some t => { s with beat := if t.started then .waiting k else .idle }
  | .resetting, some k => { s.modifySender k .resetPeriod with beat := .idle }

def step (cfg : SenderConfig) (s : NMEASenderServer M) : SenderServerInput M → NMEASenderServer M
  | .connect peer =>
      match s.accept with
      | .accepting => s.connect cfg peer
      | _ => s
  | .acceptTimeOut =>
      match s.accept with
      | .accepting => if s.stopFlag then { s with accept := .left } else s
      | _ => s
  | .acceptTurn => s.acceptTurn
  | .newSender coupler => s.newSender coupler
  | .heartbeat =>
      match s.beat with
      | .idle => if s.stopFlag ∨ s.sender.isNone then s else { s with beat := .counting }
      | _ => s
  | .beatTurn => s.beatTurn cfg
  | .senderTurn k => s.modifySender k .turn
  | .senderGot k msg writeError =>
      match s.senders[k]? with
      | none => s
      | some t =>
          if t.Reads then
            { s.modifySender k (fun t => t.got msg writeError) with
              toCoupler := if msg.isNull then s.toCoupler else s.toCoupler ++ [(k, msg)] }
          else s
  | .stop =>
      match s.sender with
      | none => { s with stopFlag := true }
      | some k => { s.modifySender k .stop with stopFlag := true }

end NMEASenderServer

def senderServer {M : Type*} (cfg : SenderConfig) :
    Machine (NMEASenderServer M) (SenderServerInput M) Unit where
  step s i := ((), s.step cfg i)

end NavigationServer.RouterCore
