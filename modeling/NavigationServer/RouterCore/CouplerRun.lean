/-
NavigationServer.RouterCore.CouplerRun — the thread of a coupler.

`Coupler.nrun` opens the coupler, reads, and publishes what `read` yields. A
subclass brings its own `open`, `_read` and `close`: what `open` and `_read`
give is an input, as is what the converter makes of a sentence and whether a
publisher raises, and `closeResets` tells whether `close` leaves the coupler not
ready. The thread waits in `open` and in `_read`, and the generator of `read`
waits while a message is published. Between two turns another thread may stop,
suspend or resume the coupler; a stop is one step.

`opens` and `reads` are the history of what `open` and `_read` have given.
-/
import NavigationServer.Lib.Machine
import NavigationServer.RouterCore.Nmea2000Msg

namespace NavigationServer.RouterCore

open NavigationServer.Lib

/-! ## 1. Data -/

inductive CouplerState where
  | notReady
  | opened
  | connected
  | active
  deriving DecidableEq, Repr

/-- `NavGenericMsg`, where `S` stands for the NMEA0183 messages. -/
inductive CouplerMsg (S : Type) where
  | n2k (msg : NMEA2000Msg)
  | n0183 (msg : S)
  | transparent (raw : Bytes)
  | null

def CouplerMsg.isNull {S : Type} : CouplerMsg S → Bool
  | .null => true
  | _ => false

/-- The options of a coupler. `nmea2000` is its mode, and `n2kController` tells
that a controller is there. -/
structure CouplerConfig where
  maxAttempt : Nat
  writeOnly : Bool
  nmea2000 : Bool
  n2kController : Bool
  nmea183Convert : Bool
  closeResets : Bool

/-- What `convert_to_n2kmsg` gives for a sentence. It raises NMEAInvalidFrame
and IncompleteMessage before the first message, another exception anywhere. -/
inductive Conversion where
  | messages (msgs : List NMEA2000Msg)
  | invalidFrame
  | incomplete
  | raised (msgs : List NMEA2000Msg)

/-- A message that `_read` has returned, and its conversion. -/
structure Reading (S : Type) where
  msg : CouplerMsg S
  conversion : Conversion

/-- How `read` goes on behind what it has yielded: it ends, fetches the next
message, or raises an exception that `nrun` expects or not. -/
inductive ReadEnd where
  | finished
  | fetchNext
  | expected
  | raised
  deriving DecidableEq, Repr

/-- `state` is the state that `open` leaves. -/
inductive OpenAnswer where
  | returned (ok : Bool) (state : CouplerState)
  | refused
  | raised

inductive ReadAnswer (S : Type) where
  | message (r : Reading S)
  | expected
  | raised

inductive CouplerPlace (S : Type) where
  | head
  | opening
  | reading
  | yielding (rest : List (CouplerMsg S)) (ending : ReadEnd)
  | stopped
  | died

structure CouplerThread (S : Type) where
  state : CouplerState
  stopflag : Bool
  suspendFlag : Bool
  nbAttempts : Nat
  totalMsg : Nat
  place : CouplerPlace S
  published : List (CouplerMsg S)
  forwarded : List NMEA2000Msg
  opens : List Bool
  reads : List (Reading S)

/-- `turn` is an action of the thread where nothing is awaited; `raises` tells
that a publisher raises in it. -/
inductive CouplerInput (S : Type) where
  | turn (raises : Bool)
  | opened (answer : OpenAnswer)
  | got (answer : ReadAnswer S)
  | stop
  | suspend
  | resume

variable {S : Type}

/-! ## 2. `read` -/

namespace Reading

/-- The message goes to the controller. -/
def toController (cfg : CouplerConfig) (r : Reading S) : Option NMEA2000Msg :=
  match r.msg with
  | .n2k msg => if cfg.n2kController && msg.isIso then some msg else none
  | _ => none

/-- What `read` yields for a message, and how it goes on. -/
def yields (cfg : CouplerConfig) (r : Reading S) : List (CouplerMsg S) × ReadEnd :=
  match r.msg with
  | .n2k msg =>
      if cfg.n2kController && msg.isIso then ([], .fetchNext) else ([.n2k msg], .finished)
  | .n0183 msg =>
      if cfg.nmea183Convert then
        match r.conversion with
        | .messages msgs => (msgs.map .n2k ++ [.n0183 msg], .finished)
        | .invalidFrame => if cfg.nmea2000 then ([], .fetchNext) else ([.n0183 msg], .finished)
        | .incomplete => ([], .expected)
        | .raised msgs => (msgs.map .n2k, .raised)
      else ([.n0183 msg], .finished)
  | msg => ([msg], .finished)

/-- What is published of it. -/
def routed (cfg : CouplerConfig) (r : Reading S) : List (CouplerMsg S) :=
  (r.yields cfg).1.filter (fun m => !m.isNull)

end Reading

/-! ## 3. `nrun` -/

namespace CouplerThread

def start : CouplerThread S where
  state := .notReady
  stopflag := false
  suspendFlag := false
  nbAttempts := 0
  totalMsg := 0
  place := .head
  published := []
  forwarded := []
  opens := []
  reads := []

def close (cfg : CouplerConfig) (s : CouplerThread S) : CouplerThread S :=
  if cfg.closeResets then { s with state := .notReady } else s

/-- `stop`, which does nothing the second time. -/
def stop (s : CouplerThread S) : CouplerThread S :=
  if s.stopflag then s else { s with stopflag := true, state := .notReady }

/-- Behind the loop. -/
def finish (cfg : CouplerConfig) (s : CouplerThread S) : CouplerThread S :=
  { s.stop.close cfg with place := .stopped }

/-- The coupler is open. One that does not read sleeps, and begins again. -/
def beforeRead (cfg : CouplerConfig) (s : CouplerThread S) : CouplerThread S :=
  if cfg.writeOnly || s.suspendFlag then { s with place := .head } else { s with place := .reading }

/-- The head of the loop. -/
def loopHead (cfg : CouplerConfig) (s : CouplerThread S) : CouplerThread S :=
  if s.stopflag then s.finish cfg
  else if s.state = .notReady then
    if s.nbAttempts ≥ cfg.maxAttempt then s.finish cfg else { s with place := .opening }
  else s.beforeRead cfg

/-- `open` has come to its end. -/
def openEnds (cfg : CouplerConfig) (s : CouplerThread S) : OpenAnswer → CouplerThread S
  | .returned true _ =>
      { s with state := .opened, nbAttempts := 0, opens := s.opens ++ [true] }.beforeRead cfg
  | .returned false state =>
      { s with
        state := state
        nbAttempts := s.nbAttempts + 1
        opens := s.opens ++ [false]
        place := .head }
  | .refused => s.finish cfg
  | .raised => { s with place := .died }

/-- `_read` has come to its end. -/
def readEnds (cfg : CouplerConfig) (s : CouplerThread S) : ReadAnswer S → CouplerThread S
  | .message r =>
      { s with
        reads := s.reads ++ [r]
        forwarded := s.forwarded ++ (r.toController cfg).toList
        place := .yielding (r.yields cfg).1 (r.yields cfg).2 }
  | .expected => { s with place := .head }
  | .raised => { s.close cfg with place := .head }

/-- The turn of a message that `read` yields, or the one behind the last. -/
def yieldTurn (cfg : CouplerConfig) (s : CouplerThread S) (raises : Bool) :
    List (CouplerMsg S) → ReadEnd → CouplerThread S
  | [], .finished => { s with place := .head }
  | [], .expected => { s with place := .head }
  | [], .fetchNext => { s with place := .reading }
  | [], .raised => { s.close cfg with place := .head }
  | m :: rest, ending =>
      if m.isNull then { s.close cfg with place := .yielding rest ending }
      else
        let s := { s with
          totalMsg := s.totalMsg + 1
          state := .active
          published := s.published ++ [m] }
        if raises then { s.close cfg with place := .head }
        else { s with place := .yielding rest ending }

def turn (cfg : CouplerConfig) (s : CouplerThread S) (raises : Bool) : CouplerThread S :=
  match s.place with
  | .head => s.loopHead cfg
  | .yielding rest ending => s.yieldTurn cfg raises rest ending
  | _ => s

/-- An answer comes to what awaits it only. -/
def step (cfg : CouplerConfig) (s : CouplerThread S) : CouplerInput S → CouplerThread S
  | .turn raises => s.turn cfg raises
  | .opened answer =>
      match s.place with
      | .opening => s.openEnds cfg answer
      | _ => s
  | .got answer =>
      match s.place with
      | .reading => s.readEnds cfg answer
      | _ => s
  | .stop => s.stop
  | .suspend =>
      match s.place with
      | .stopped | .died => s
      | _ => { s with suspendFlag := true }
  | .resume => { s with suspendFlag := false }

end CouplerThread

def couplerThread (cfg : CouplerConfig) : Machine (CouplerThread S) (CouplerInput S) Unit where
  step s i := ((), s.step cfg i)

/-! ## 4. A coupler over TCP with an asynchronous reader -/

/-- `asynchStarted` tells that the thread of the reader has been started. -/
structure BufferedIPCoupler (S : Type) where
  thread : CouplerThread S
  asynchStarted : Bool

/-- What a buffered coupler meets: its transport connects or not. -/
inductive BufferedInput (S : Type) where
  | turn (raises : Bool)
  | transportOpened (ok : Bool)
  | got (answer : ReadAnswer S)
  | stop
  | suspend
  | resume

namespace BufferedIPCoupler

def start : BufferedIPCoupler S := ⟨.start, false⟩

/-- `open`, which returns None where its transport is open. There is a reader
unless the coupler only writes, and a thread can be started once. -/
def openAnswer (cfg : CouplerConfig) (s : BufferedIPCoupler S) (ok : Bool) : OpenAnswer × Bool :=
  if ok then
    if cfg.writeOnly then (.returned false .connected, s.asynchStarted)
    else if s.asynchStarted then (.raised, true)
    else (.returned false .connected, true)
  else (.returned false .notReady, s.asynchStarted)

def step (cfg : CouplerConfig) (s : BufferedIPCoupler S) : BufferedInput S → BufferedIPCoupler S
  | .turn raises => { s with thread := s.thread.step cfg (.turn raises) }
  | .transportOpened ok =>
      match s.thread.place with
      | .opening =>
          let (answer, started) := s.openAnswer cfg ok
          ⟨s.thread.step cfg (.opened answer), started⟩
      | _ => s
  | .got answer => { s with thread := s.thread.step cfg (.got answer) }
  | .stop => { s with thread := s.thread.step cfg .stop }
  | .suspend => { s with thread := s.thread.step cfg .suspend }
  | .resume => { s with thread := s.thread.step cfg .resume }

end BufferedIPCoupler

def bufferedCoupler (cfg : CouplerConfig) :
    Machine (BufferedIPCoupler S) (BufferedInput S) Unit where
  step s i := ((), s.step cfg i)

end NavigationServer.RouterCore
