/-
NavigationServer.CanInterface.Bus — nodes on one CAN bus.

A node runs a `SocketCANInterface`: callers that send, the thread of the writer,
and the thread of the reader. The bus shows a frame that a writer sends to all
the other nodes, in the same order, and each has them in its socket until its
reader takes them. The calls, the turns of the writers and the turns of the
readers come in any order, over all nodes.

A call of `send` is one step. It may find the queue full at any frame, so the
writer that empties the queue beside it changes nothing. The frames it puts go to
the queue of the writer; the `inQueue` of the interface is left to grow, and is
the list of all of them.
-/
import NavigationServer.CanInterface.InterfaceTheorems
import NavigationServer.CanInterface.Writer
import Mathlib.Logic.Function.Basic

namespace NavigationServer.CanInterface

open NavigationServer.Lib
open NavigationServer.Nmea2000
open NavigationServer.Nmea2000Datamodel
open NavigationServer.RouterCore

/-! ## 1. A node -/

/-- `socket` holds the frames that the bus has shown to the node and that its
reader has not taken, and `raised` the exception that ended the reader. `posted`
are the messages of which `send` has put all frames so far, and `reads` the
frames that were read. -/
structure BusNode where
  interface : SocketCANInterface
  writer : SocketCANWriter CanMessage
  socket : List CanMessage
  raised : Option Exn
  posted : List NMEA2000Msg
  reads : List CanInput

/-- The result of a `send` that has put all frames: the branch for fast packets
has no `return`. -/
def putAll : Except Exn (Option Bool) → Bool
  | .ok (some b) => b
  | .ok none => true
  | .error _ => false

namespace BusNode

/-- A node as it is started, with the addresses it accepts. -/
def start (addresses : List Nat) : BusNode where
  interface := { SocketCANInterface.new with addresses }
  writer := .start
  socket := []
  raised := none
  posted := []
  reads := []

/-- A call of `send`. The frames it puts are put into the queue of the writer. -/
def send (node : BusNode) (full : Nat → Bool) (msg : NMEA2000Msg) (forceSend : Bool) : BusNode :=
  let (result, interface) := node.interface.send full msg forceSend
  let frames := interface.inQueue.drop node.interface.inQueue.length
  { node with
    interface
    writer := frames.foldl (SocketCANWriter.putMsg 0) node.writer
    posted := if putAll result then node.posted ++ [msg] else node.posted }

/-- A turn of the writer, and the frame that it sends if it sends one. -/
def write (node : BusNode) (inQueueSize : Nat) (bus : Nat → SendResult) :
    List CanMessage × BusNode :=
  let writer := node.writer.turn inQueueSize bus
  (writer.sent.drop node.writer.sent.length, { node with writer })

def hear (node : BusNode) (frames : List CanMessage) : BusNode :=
  { node with socket := node.socket ++ frames }

/-- A turn of the reader, which takes the next frame if there is one. Nothing
catches what `process_receive_msg` raises. -/
def read (node : BusNode) (defs : PGNDefinitions) (now : Time) (full : Bool) : BusNode :=
  match node.raised, node.socket with
  | none, msg :: socket =>
      let (result, interface) := node.interface.processReceiveMsg defs now full msg
      { node with
        interface
        socket
        reads := node.reads ++ [⟨now, full, msg⟩]
        raised := match result with
          | .ok _ => none
          | .error e => some e }
  | _, _ => node

end BusNode

/-! ## 2. The bus -/

inductive BusEvent (ι : Type*) where
  | send (n : ι) (full : Nat → Bool) (msg : NMEA2000Msg) (forceSend : Bool)
  | write (n : ι)
  | read (n : ι) (now : Time) (full : Bool)
  | allowSend (n : ι)
  | stopWriter (n : ι)

/-- The nodes and what happens to them. `bus n` tells how the calls of
`bus.send` of node `n` end. -/
def canBus {ι : Type*} [DecidableEq ι] (defs : PGNDefinitions) (inQueueSize : Nat)
    (bus : ι → Nat → SendResult) : Machine (ι → BusNode) (BusEvent ι) Unit where
  step nodes
    | .send n full msg forceSend =>
        ((), Function.update nodes n ((nodes n).send full msg forceSend))
    | .write n =>
        let (frames, node) := (nodes n).write inQueueSize (bus n)
        ((), Function.update (fun k => (nodes k).hear frames) n node)
    | .read n now full => ((), Function.update nodes n ((nodes n).read defs now full))
    | .allowSend n =>
        ((), Function.update nodes n { nodes n with
          interface := { (nodes n).interface with allowedSend := true } })
    | .stopWriter n =>
        ((), Function.update nodes n { nodes n with
          writer := { (nodes n).writer with stopFlag := true } })

end NavigationServer.CanInterface
