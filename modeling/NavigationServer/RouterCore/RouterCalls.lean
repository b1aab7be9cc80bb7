/-
NavigationServer.RouterCore.RouterCalls — a running server.

A coupler is put on the list of another object by the methods of `Publishing` only,
so a `RouterCall` is a call of one of them from any thread; what the main server does
when it starts, adds a coupler or starts one again is a sequence of such calls. The
thread of a coupler counts the message that it has read and goes through its
publishers turn by turn, as in `PublishLoop`, and any call may come between two turns.

`Publisher.start`, `Publisher.add_coupler`, the loops that deregister and `add_coupler`
of a server are calls as a whole, and their parts are calls too: `register`,
`deregister`, `setCoupler` and `serverAppend`. A loop of which another thread sees the
middle is a run of its parts.

`given` is a history: the publishers on whose queue the coupler has put the message
that it is going round with.
-/
import NavigationServer.RouterCore.PublishLoop

namespace NavigationServer.RouterCore

open NavigationServer.Lib

/-- The objects, and for each coupler its call of `publish`. -/
structure RunningRouter where
  router : Router
  calls : Nat → Option PublishCall
  given : Nat → List Nat

inductive RouterCall where
  | newCoupler (name : String)
  | newPublisher (cs : List Nat) (active : Bool) (queueSize maxLost : Nat)
  | register (p c : Nat)
  | deregister (p c : Nat)
  | start (p : Nat)
  | stop (p : Nat)
  | setCoupler (p c : Nat)
  | addCoupler (p c : Nat)
  | newServer
  | newUdpServer
  | serverAppend (sv c : Nat)
  | serverAddCoupler (sv c : Nat)
  | serverRemoveCoupler (sv c : Nat)
  | accept (sv address : Nat)
  | createPublisher (sv : Nat)
  | startCreated (sv : Nat)
  | removeClient (sv address : Nat)
  | closeClient (k : Nat)
  | udpStart (sv : Nat)
  | udpStop (sv : Nat)
  | take (p : Nat) (sends : Bool)
  | read (c : Nat) (content : Bytes)
  | turn (c : Nat) (filter : FilterOutcome)

/-- The calls that leave the loops of the couplers alone. -/
def Router.call (s : Router) : RouterCall → Router
  | .newCoupler name => { s with couplers := s.couplers ++ [⟨name, [], 0⟩] }
  | .newPublisher cs active queueSize maxLost => s.newPublisher cs active queueSize maxLost none
  | .register p c => s.register p c
  | .deregister p c => s.deregister p c
  | .start p => s.start p
  | .stop p => s.stop p
  | .setCoupler p c => s.setCoupler p c
  | .addCoupler p c => s.addCoupler p c
  | .newServer => s.newServer
  | .newUdpServer => s.newUdpServer
  | .serverAppend sv c => s.serverAppend sv c
  | .serverAddCoupler sv c => s.serverAddCoupler sv c
  | .serverRemoveCoupler sv c => s.serverRemoveCoupler sv c
  | .accept sv address => s.accept sv address
  | .createPublisher sv => s.createPublisher sv
  | .startCreated sv => s.startCreated sv
  | .removeClient sv address => s.removeClient sv address
  | .closeClient k => s.closeClient k
  | .udpStart sv => s.udpStart sv
  | .udpStop sv => s.udpStop sv
  | .take p sends => s.take p sends
  | .read _ _ => s
  | .turn _ _ => s

namespace RunningRouter

def new : RunningRouter := ⟨.new, fun _ => none, fun _ => []⟩

/-- The thread of a coupler has read a message, counts it and calls `publish`. -/
def read (s : RunningRouter) (c : Nat) (content : Bytes) : RunningRouter :=
  match s.calls c, s.router.couplers[c]? with
  | none, some x =>
      { router := s.router.modifyCoupler c (fun x => { x with totalMsg := x.totalMsg + 1 })
        calls := Function.update s.calls c (some ⟨⟨c, x.totalMsg + 1, content⟩, 0, []⟩)
        given := Function.update s.given c [] }
  | _, _ => s

/-- The message of a turn goes on the queue of the publisher. -/
def queues (s : RunningRouter) (c : Nat) (call : PublishCall) (filter : FilterOutcome) : List Nat :=
  match (s.router.publishersOf c)[call.index]?, filter with
  | some p, .passes =>
      match s.router.publishers[p]? with
      | some x => if x.hasPlace then [p] else []
      | none => []
  | _, _ => []

/-- A turn of the loop of `publish`. Behind the last one, or an exception, the thread
reads again. -/
def turn (s : RunningRouter) (c : Nat) (filter : FilterOutcome) : RunningRouter :=
  match s.calls c with
  | none => s
  | some call =>
      let next := (PublishLoop.turn c ⟨s.router, some call⟩ call filter).2
      { router := next.router
        calls := Function.update s.calls c next.call
        given := Function.update s.given c
          (match next.call with
            | some _ => s.given c ++ s.queues c call filter
            | none => []) }

def call (s : RunningRouter) : RouterCall → RunningRouter
  | .read c content => s.read c content
  | .turn c filter => s.turn c filter
  | other => { s with router := s.router.call other }

end RunningRouter

/-- Calls in any order. -/
def routerCalls : Machine RunningRouter RouterCall Unit where
  step s call := ((), s.call call)

end NavigationServer.RouterCore
