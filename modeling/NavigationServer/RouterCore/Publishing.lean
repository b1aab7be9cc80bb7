/-
NavigationServer.RouterCore.Publishing — couplers, publishers and the servers
that connect them.

A `Router` holds the objects of a running server, each under its index: the
couplers with the lists of their publishers, the publishers with their
dictionary of couplers and their queue, the clients of the TCP and UDP servers,
and the servers. The methods change it in place. A loop over a dictionary goes
from its oldest key to its newest, which counts where the loop is left by an
exception: what was done before stays done. `Coupler.publish` is in `PublishLoop`,
and the calls of all methods in `RouterCalls`.

`handled` and `sent` are histories: what the thread of a publisher has taken
from its queue, and what has been sent on the socket of a client.
-/
import NavigationServer.Lib.Bytes
import NavigationServer.Lib.Dict
import NavigationServer.Lib.Machine

namespace NavigationServer.RouterCore

open NavigationServer.Lib

/-! ## 1. The objects -/

/-- A message as a coupler reads it. `number` is the count of messages that the
coupler keeps. -/
structure RouterMsg where
  coupler : Nat
  number : Nat
  content : Bytes
  deriving DecidableEq, Repr

structure Coupler where
  name : String
  publishers : List Nat
  totalMsg : Nat

structure Publisher where
  couplers : Dict String Nat
  active : Bool
  queueSize : Nat
  maxLost : Nat
  client : Option Nat
  queue : List RouterMsg
  nbMsgLost : Nat
  handled : List RouterMsg

/-- What a publisher sends to: a TCP connection, or a UDP server. -/
structure Client where
  server : Nat
  address : Nat
  publisher : Option Nat
  sent : List RouterMsg

/-- Where the thread of a TCP server is: it waits for a connection, it has a
client without a publisher, or it has a publisher that is not started. -/
inductive Pending where
  | waiting
  | accepted (client : Nat)
  | created (publisher : Nat)
  deriving DecidableEq, Repr

inductive Server where
  | nmea (couplers : List Nat) (connections : Dict Nat Nat) (pending : Pending)
  | udp (couplers : List Nat) (publisher : Nat)

structure Router where
  couplers : List Coupler
  publishers : List Publisher
  clients : List Client
  servers : List Server

namespace Router

def new : Router := ⟨[], [], [], []⟩

def modifyCoupler (s : Router) (c : Nat) (f : Coupler → Coupler) : Router :=
  { s with couplers := s.couplers.modify c f }

def modifyPublisher (s : Router) (p : Nat) (f : Publisher → Publisher) : Router :=
  { s with publishers := s.publishers.modify p f }

def modifyClient (s : Router) (k : Nat) (f : Client → Client) : Router :=
  { s with clients := s.clients.modify k f }

def setServer (s : Router) (sv : Nat) (x : Server) : Router :=
  { s with servers := s.servers.set sv x }

/-! ## 2. Couplers and publishers -/

/-- The list of a coupler. -/
def publishersOf (s : Router) (c : Nat) : List Nat :=
  match s.couplers[c]? with
  | some x => x.publishers
  | none => []

/-- `Coupler.register`. -/
def register (s : Router) (p c : Nat) : Router :=
  s.modifyCoupler c (fun x => { x with publishers := x.publishers ++ [p] })

/-- `Coupler.deregister`, which only warns when the publisher is not there. -/
def deregister (s : Router) (p c : Nat) : Router :=
  s.modifyCoupler c (fun x => { x with publishers := x.publishers.erase p })

/-- The dictionary of couplers by name. -/
def couplerDict (s : Router) (cs : List Nat) : Dict String Nat :=
  cs.foldl (fun d c => match s.couplers[c]? with
    | some x => d.set x.name c
    | none => d) ∅

/-- `Publisher.__init__`. -/
def newPublisher (s : Router) (cs : List Nat) (active : Bool) (queueSize maxLost : Nat)
    (client : Option Nat) : Router :=
  { s with publishers := s.publishers ++
      [⟨s.couplerDict cs, active, queueSize, maxLost, client, [], 0, []⟩] }

/-- `Publisher.start`. A thread that was started before raises behind the
loop. -/
def start (s : Router) (p : Nat) : Router :=
  match s.publishers[p]? with
  | none => s
  | some x => if x.active then x.couplers.values.foldl (fun s c => s.register p c) s else s

/-- `Publisher.deregister`, and `Publisher.stop`. -/
def stop (s : Router) (p : Nat) : Router :=
  match s.publishers[p]? with
  | none => s
  | some x => x.couplers.values.foldl (fun s c => s.deregister p c) s

/-- The dictionary of a publisher gets a coupler. -/
def setCoupler (s : Router) (p c : Nat) : Router :=
  match s.couplers[c]? with
  | none => s
  | some y => s.modifyPublisher p (fun x => { x with couplers := x.couplers.set y.name c })

/-- `Publisher.add_coupler`. -/
def addCoupler (s : Router) (p c : Nat) : Router := (s.setCoupler p c).register p c

/-- `Publisher.publish`, and whether it raises PublisherOverflow. -/
def publish (s : Router) (p : Nat) (msg : RouterMsg) (discarded : Bool) : Bool × Router :=
  match s.publishers[p]? with
  | none => (false, s)
  | some x =>
      if discarded then (false, s)
      else if x.queueSize = 0 ∨ x.queue.length < x.queueSize then
        (false, s.modifyPublisher p (fun x => { x with queue := x.queue ++ [msg], nbMsgLost := 0 }))
      else
        (decide (x.maxLost ≤ x.nbMsgLost + 1),
          s.modifyPublisher p (fun x => { x with nbMsgLost := x.nbMsgLost + 1 }))

/-- A turn of the thread of a publisher. `sends` tells whether `process_msg`
gets to the client and the client sends. -/
def take (s : Router) (p : Nat) (sends : Bool) : Router :=
  match s.publishers[p]? with
  | none => s
  | some x =>
      match x.queue with
      | [] => s
      | msg :: queue =>
          let s := s.modifyPublisher p
            (fun x => { x with queue := queue, handled := x.handled ++ [msg] })
          match x.client with
          | some k =>
              if sends then s.modifyClient k (fun cl => { cl with sent := cl.sent ++ [msg] }) else s
          | none => s

/-! ## 3. The servers -/

/-- `ClientConnection._close`. A client without a publisher raises. -/
def closeClient (s : Router) (k : Nat) : Router :=
  match s.clients[k]? with
  | some ⟨_, _, some p, _⟩ => (s.stop p).stop p
  | _ => s

/-- The clients of a TCP server that `add_coupler` goes through. A client
without a publisher raises, and those behind it get nothing. -/
def addToClients (c : Nat) : List Nat → Router → Router
  | [], s => s
  | k :: ks, s =>
      match s.clients[k]? with
      | some ⟨_, _, some p, _⟩ => addToClients c ks (s.addCoupler p c)
      | _ => s

/-- The list of couplers of a server gets one more. -/
def serverAppend (s : Router) (sv c : Nat) : Router :=
  match s.servers[sv]? with
  | none => s
  | some (.nmea cs connections pending) => s.setServer sv (.nmea (cs ++ [c]) connections pending)
  | some (.udp cs p) => s.setServer sv (.udp (cs ++ [c]) p)

/-- `add_coupler` of a server. -/
def serverAddCoupler (s : Router) (sv c : Nat) : Router :=
  match s.servers[sv]? with
  | none => s
  | some (.nmea _ connections _) => addToClients c connections.values (s.serverAppend sv c)
  | some (.udp _ p) => (s.serverAppend sv c).addCoupler p c

/-- `remove_coupler` of a server. -/
def serverRemoveCoupler (s : Router) (sv c : Nat) : Router :=
  match s.servers[sv]? with
  | none => s
  | some (.nmea cs connections pending) => s.setServer sv (.nmea (cs.erase c) connections pending)
  | some (.udp cs p) => s.setServer sv (.udp (cs.erase c) p)

/-- `NMEAServer.__init__`. -/
def newServer (s : Router) : Router := { s with servers := s.servers ++ [.nmea [] ∅ .waiting] }

/-- `NMEAUDPServer.__init__`. -/
def newUdpServer (s : Router) : Router :=
  let p := s.publishers.length
  let s := s.newPublisher [] true 40 10 (some s.clients.length)
  { s with
    clients := s.clients ++ [⟨s.servers.length, 0, some p, []⟩]
    servers := s.servers ++ [.udp [] p] }

/-- A connection, in the thread of the server. Without a coupler it is
refused. -/
def accept (s : Router) (sv address : Nat) : Router :=
  match s.servers[sv]? with
  | some (.nmea cs connections .waiting) =>
      if cs = [] then s
      else
        let k := s.clients.length
        let s := s.setServer sv (.nmea cs (connections.set address k) (.accepted k))
        { s with clients := s.clients ++ [⟨sv, address, none, []⟩] }
  | _ => s

/-- The publisher of the accepted client. -/
def createPublisher (s : Router) (sv : Nat) : Router :=
  match s.servers[sv]? with
  | some (.nmea cs connections (.accepted k)) =>
      let p := s.publishers.length
      let s := s.setServer sv (.nmea cs connections (.created p))
      (s.newPublisher cs true 40 10 (some k)).modifyClient k (fun cl => { cl with publisher := some p })
  | _ => s

/-- The start of the publisher, which ends the turn of the server. -/
def startCreated (s : Router) (sv : Nat) : Router :=
  match s.servers[sv]? with
  | some (.nmea cs connections (.created p)) =>
      (s.setServer sv (.nmea cs connections .waiting)).start p
  | _ => s

/-- `remove_client`. -/
def removeClient (s : Router) (sv address : Nat) : Router :=
  match s.servers[sv]? with
  | some (.nmea cs connections pending) => s.setServer sv (.nmea cs (connections.erase address) pending)
  | _ => s

/-- `NMEAUDPServer.start`. -/
def udpStart (s : Router) (sv : Nat) : Router :=
  match s.servers[sv]? with
  | some (.udp _ p) => s.start p
  | _ => s

/-- `NMEAUDPServer.stop`. -/
def udpStop (s : Router) (sv : Nat) : Router :=
  match s.servers[sv]? with
  | some (.udp _ p) => s.stop p
  | _ => s

end Router

end NavigationServer.RouterCore
