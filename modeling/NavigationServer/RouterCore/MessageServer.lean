/-
NavigationServer.RouterCore.MessageServer — the connections of a TCP server and
their lock.

The server thread accepts a connection, registers it under the client lock and
then creates its publisher; the clients are removed by their publishers and by
the heartbeat, under the same lock. A critical section of a registration or of a
removal is one step. The heartbeat takes the lock for several steps, one for the
checks and one for each client that it closes. An `acquire` fails when the lock
is taken, and may fail with its timeout.

`Publishing` has the same server with what its publishers pass on; this module
has the counts, the silent periods and the lock.
-/
import NavigationServer.Lib.Machine
import NavigationServer.RouterCommon.Exceptions

namespace NavigationServer.RouterCore

open NavigationServer.Lib

namespace MessageServer

/-! ## 1. Clients -/

/-- The publisher of a client, with the names of its couplers. -/
structure ClientPublisher where
  couplers : List String
  stopFlag : Bool
  deriving DecidableEq, Repr

def ClientPublisher.addCoupler (p : ClientPublisher) (name : String) : ClientPublisher :=
  if name ∈ p.couplers then p else { p with couplers := p.couplers ++ [name] }

structure ClientConnection where
  address : Nat
  totalMsg : Nat
  periodMsg : Nat
  silentCount : Nat
  publisher : Option ClientPublisher
  deriving DecidableEq, Repr

namespace ClientConnection

def new (address : Nat) : ClientConnection := ⟨address, 0, 0, 0, none⟩

/-- `send`, when the socket takes the message. -/
def send (c : ClientConnection) : ClientConnection :=
  { c with totalMsg := c.totalMsg + 1, periodMsg := c.periodMsg + 1 }

def resetPeriod (c : ClientConnection) : ClientConnection := { c with periodMsg := 0 }

/-- `_close`. Without a publisher it raises. -/
def close (c : ClientConnection) : Except Exn ClientConnection :=
  match c.publisher with
  | some p => .ok { c with publisher := some { p with stopFlag := true } }
  | none => .error .attributeError

/-- The turn of the heartbeat for a client, with whether it is to be closed.
`fails` tells whether the socket refuses a message. -/
def heartbeatTurn (maxSilentPeriod : Nat) (fails : Bool) (c : ClientConnection) :
    Bool × ClientConnection :=
  if c.periodMsg = 0 then
    let c := { c with silentCount := c.silentCount + 1 }
    if maxSilentPeriod ≤ c.silentCount then (true, c.resetPeriod)
    else if fails then (true, c.resetPeriod)
    else (false, c.send.resetPeriod)
  else (false, { c with silentCount := 0 }.resetPeriod)

end ClientConnection

/-! ## 2. The server -/

/-- The options that the modelled methods read. -/
structure ServerOptions where
  maxConnections : Nat
  maxSilentPeriod : Nat

/-- Where the thread of the server is. -/
inductive AcceptLoop where
  | head
  | accepting
  | accepted (client : Nat)
  | registered (client : Nat)
  | ended
  deriving DecidableEq, Repr

/-- The clients are numbered in the order of their connection, and
`connections` is the dictionary of the registered ones by address. `closing`
are the clients that a heartbeat in its critical section has still to close. -/
structure NMEAServer where
  couplers : List String
  connections : List (Nat × Nat)
  clients : List ClientConnection
  clientLock : Bool
  closing : Option (List Nat)
  stopFlag : Bool
  loop : AcceptLoop
  deriving DecidableEq, Repr

/-- What happens to a server. `timedOut` is an `acquire` that fails with its
timeout. -/
inductive ServerInput where
  | loopTest
  | accept (address : Option Nat)
  | register (timedOut : Bool)
  | createPublisher
  | sent (client : Nat)
  | close (client : Nat) (timedOut : Bool)
  | removeClient (address : Nat) (timedOut : Bool)
  | addCoupler (name : String)
  | heartbeat (timedOut : Bool) (fails : Nat → Bool)
  | heartbeatClose
  | stop

/-- `connections[address] = client`. -/
def setConnection (connections : List (Nat × Nat)) (address client : Nat) : List (Nat × Nat) :=
  if address ∈ connections.map Prod.fst then
    connections.map fun entry => if entry.1 = address then (address, client) else entry
  else connections ++ [(address, client)]

/-- `del connections[address]`, or nothing for an unknown one. -/
def delConnection (connections : List (Nat × Nat)) (address : Nat) : List (Nat × Nat) :=
  connections.filter (·.1 ≠ address)

namespace NMEAServer

def new : NMEAServer := ⟨[], [], [], false, none, false, .head⟩

def modifyClient (s : NMEAServer) (k : Nat) (f : ClientConnection → ClientConnection) :
    NMEAServer :=
  { s with clients := s.clients.modify k f }

/-- The lock can be taken. -/
def acquire (s : NMEAServer) (timedOut : Bool) : Bool := !s.clientLock && !timedOut

/-- The head of the loop of `nrun`, up to `accept` or the pause. -/
def loopTest (o : ServerOptions) (s : NMEAServer) : NMEAServer :=
  if s.loop = .head then
    if s.stopFlag then { s with loop := .ended }
    else if s.connections.length ≤ o.maxConnections then { s with loop := .accepting }
    else s
  else s

/-- `accept` returns, or it times out. -/
def accept (s : NMEAServer) (address : Option Nat) : NMEAServer :=
  if s.loop = .accepting then
    if s.stopFlag then { s with loop := .ended }
    else
      match address with
      | none => { s with loop := .head }
      | some address =>
          if s.couplers.length = 0 then { s with loop := .head }
          else
            { s with
              clients := s.clients ++ [.new address]
              loop := .accepted s.clients.length }
  else s

/-- The critical section for the new client. -/
def register (s : NMEAServer) (timedOut : Bool) : NMEAServer :=
  match s.loop with
  | .accepted k =>
      if s.acquire timedOut then
        match s.clients[k]? with
        | some client =>
            { s with
              connections := setConnection s.connections client.address k
              loop := .registered k }
        | none => s
      else { s with loop := .head }
  | _ => s

/-- The publisher of the new client, with all couplers. -/
def createPublisher (s : NMEAServer) : NMEAServer :=
  match s.loop with
  | .registered k =>
      let publisher := s.couplers.foldl ClientPublisher.addCoupler ⟨[], false⟩
      { s.modifyClient k (fun client => { client with publisher := some publisher }) with
        loop := .head }
  | _ => s

/-- `remove_client`. -/
def removeClient (s : NMEAServer) (address : Nat) (timedOut : Bool) : NMEAServer :=
  if s.acquire timedOut then { s with connections := delConnection s.connections address } else s

/-- `_close` of a client, of the heap of clients. -/
def closeClient (s : NMEAServer) (k : Nat) : Except Exn NMEAServer :=
  match s.clients[k]? with
  | some client => do
      let client ← client.close
      return { s with clients := s.clients.set k client }
  | none => .error .attributeError

/-- `ClientConnection.close`. -/
def close (s : NMEAServer) (k : Nat) (timedOut : Bool) : Option Exn × NMEAServer :=
  match s.closeClient k with
  | .ok s =>
      match s.clients[k]? with
      | some client => (none, s.removeClient client.address timedOut)
      | none => (none, s)
  | .error e => (some e, s)

/-- `client.publisher.add_coupler` for the clients. -/
def addToClients (name : String) : List Nat → NMEAServer → Option Exn × NMEAServer
  | [], s => (none, s)
  | k :: ks, s =>
      match s.clients[k]? with
      | some ⟨address, totalMsg, periodMsg, silentCount, some p⟩ =>
          addToClients name ks
            { s with
              clients := s.clients.set k
                ⟨address, totalMsg, periodMsg, silentCount, some (p.addCoupler name)⟩ }
      | _ => (some .attributeError, s)

def addCoupler (s : NMEAServer) (name : String) : Option Exn × NMEAServer :=
  addToClients name (s.connections.map Prod.snd) { s with couplers := s.couplers ++ [name] }

/-- The first loop of `heartbeat`: the clients to be closed, and the clients with
their counts. -/
def checkClients (o : ServerOptions) (fails : Nat → Bool) :
    List Nat → List ClientConnection → List Nat × List ClientConnection
  | [], clients => ([], clients)
  | k :: ks, clients =>
      match clients[k]? with
      | some client =>
          let (closes, client) := client.heartbeatTurn o.maxSilentPeriod (fails k)
          let (toBeClosed, clients) := checkClients o fails ks (clients.set k client)
          (if closes then k :: toBeClosed else toBeClosed, clients)
      | none => checkClients o fails ks clients

/-- `heartbeat`, up to the second loop. -/
def heartbeat (o : ServerOptions) (s : NMEAServer) (timedOut : Bool) (fails : Nat → Bool) :
    NMEAServer :=
  if s.stopFlag then s
  else if s.acquire timedOut then
    let (toBeClosed, clients) := checkClients o fails (s.connections.map Prod.snd) s.clients
    { s with clients := clients, clientLock := true, closing := some toBeClosed }
  else s

/-- A turn of the second loop of `heartbeat`, and the `release` behind it. An
exception leaves the heartbeat. -/
def heartbeatClose (s : NMEAServer) : Option Exn × NMEAServer :=
  match s.closing with
  | none => (none, s)
  | some [] => (none, { s with clientLock := false, closing := none })
  | some (k :: ks) =>
      match s.closeClient k with
      | .ok s =>
          match s.clients[k]? with
          | some client =>
              (none, { s with
                connections := delConnection s.connections client.address
                closing := some ks })
          | none => (none, { s with closing := some ks })
      | .error e => (some e, { s with closing := none })

/-- The loop of `stop`. -/
def closeAll : List Nat → NMEAServer → Option Exn × NMEAServer
  | [], s => (none, { s with connections := [] })
  | k :: ks, s =>
      match s.closeClient k with
      | .ok s => closeAll ks s
      | .error e => (some e, s)

def stop (s : NMEAServer) : Option Exn × NMEAServer :=
  closeAll (s.connections.map Prod.snd) { s with stopFlag := true }

/-- One step, with the exception that it raises. -/
def step (o : ServerOptions) (s : NMEAServer) : ServerInput → Option Exn × NMEAServer
  | .loopTest => (none, s.loopTest o)
  | .accept address => (none, s.accept address)
  | .register timedOut => (none, s.register timedOut)
  | .createPublisher => (none, s.createPublisher)
  | .sent k => (none, s.modifyClient k .send)
  | .close k timedOut => s.close k timedOut
  | .removeClient address timedOut => (none, s.removeClient address timedOut)
  | .addCoupler name => s.addCoupler name
  | .heartbeat timedOut fails => (none, s.heartbeat o timedOut fails)
  | .heartbeatClose => s.heartbeatClose
  | .stop => s.stop

def machine (o : ServerOptions) : Machine NMEAServer ServerInput (Option Exn) where
  step s i := s.step o i

end NMEAServer

end MessageServer

end NavigationServer.RouterCore
