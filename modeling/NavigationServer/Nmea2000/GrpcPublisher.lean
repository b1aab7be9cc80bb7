/-
NavigationServer.Nmea2000.GrpcPublisher — sending messages to a gRPC server,
with retries.

The thread of the publisher takes a message, transmits its outputs one after the
other and goes back to its queue. Two of its steps are calls that wait for the
server, as is the status check of a retry: such a call begins with one step and ends
with another. Between any two steps the timers, the callback of the channel and a call
of `stop` can come in. A timer is pending from its start until it expires or is
cancelled; the timers are numbered in the order of their creation. What a message is
converted to comes with it, and the answer of the server comes with the end of the
call.
-/
import NavigationServer.Lib.Machine
import NavigationServer.RouterCommon.Exceptions

namespace NavigationServer.Nmea2000

open NavigationServer.Lib

/-! ## 1. Messages -/

inductive Nmea183Option where
  | convertStrict
  | passThru
  | convertPass
  deriving DecidableEq, Repr

/-- The options of the publisher that its methods read. -/
structure GrpcOptions where
  decodedN2k : Bool
  nmea183 : Nmea183Option
  maxRetry : Int
  stopOnError : Bool

/-- A call of the stub with a protobuf message. -/
inductive GrpcOutput (M : Type*) where
  | pushDecodedNMEA2K (msg : M)
  | pushNMEA (msg : M)
  deriving DecidableEq, Repr

/-- What `protobuf_message` gives for a decoded message, and what its encoding
by `message` gives. -/
structure DecodedForms (M : Type*) where
  protobufMessage : Except Exn M
  message : Except Exn M

/-- A message with what it is converted to. For a NMEA0183 one, that is what the
converter yields and the exception it ends with. -/
inductive GrpcMsg (M : Type*) where
  | n0183 (msg : Except Exn M) (converted : List (DecodedForms M)) (failure : Option Exn)
  | n2k (decoded : Except Exn M) (msg : Except Exn M)
  | n2kDecoded (msg : DecodedForms M)
  | other

variable {M : Type*}

/-- The outputs that are transmitted, and an exception behind them. -/
abbrev Outputs (M : Type*) := List (GrpcOutput M) × Option Exn

def Outputs.ofExcept : Except Exn (GrpcOutput M) → Outputs M
  | .ok out => ([out], none)
  | .error e => ([], some e)

/-- `send_decoded_n2k`. -/
def sendDecodedN2k (o : GrpcOptions) (msg : DecodedForms M) : Except Exn (GrpcOutput M) :=
  if o.decodedN2k then .pushDecodedNMEA2K <$> msg.protobufMessage else .pushNMEA <$> msg.message

/-- The loop over what the converter yields. -/
def convertLoop (o : GrpcOptions) (failure : Option Exn) : List (DecodedForms M) → Outputs M
  | [] => ([], failure)
  | msg :: converted =>
      match sendDecodedN2k o msg with
      | .ok out =>
          let (outs, raised) := convertLoop o failure converted
          (out :: outs, raised)
      | .error e => ([], some e)

/-- `process_nmea183`. -/
def processNmea183 (o : GrpcOptions) (msg : Except Exn M) (converted : List (DecodedForms M))
    (failure : Option Exn) : Outputs M :=
  if o.nmea183 = .passThru then .ofExcept (.pushNMEA <$> msg)
  else
    match convertLoop o failure converted with
    | (outs, some .nmeaInvalidFrame) =>
        if o.nmea183 ≠ .convertStrict then
          let (plain, raised) := Outputs.ofExcept (.pushNMEA <$> msg)
          (outs ++ plain, raised)
        else (outs, none)
    | (outs, _) => (outs, none)

/-- `process_n2k_raw`. -/
def processN2kRaw (o : GrpcOptions) (decoded msg : Except Exn M) : Outputs M :=
  if o.decodedN2k then
    match decoded with
    | .error .n2kMissingDecodeEncode => ([], none)
    | decoded => .ofExcept (.pushDecodedNMEA2K <$> decoded)
  else .ofExcept (.pushNMEA <$> msg)

/-- The outputs of a message. -/
def outputsOf (o : GrpcOptions) : GrpcMsg M → Outputs M
  | .n0183 msg converted failure => processNmea183 o msg converted failure
  | .n2k decoded msg => processN2kRaw o decoded msg
  | .n2kDecoded msg => .ofExcept (sendDecodedN2k o msg)
  | .other => ([], none)

/-- The loop that transmits the outputs catches every exception. -/
def guarded (o : GrpcOptions) : GrpcMsg M → Bool
  | .n0183 _ _ _ => o.nmea183 ≠ .passThru
  | _ => false

/-! ## 2. The publisher -/

/-- Where the thread of the publisher is: at its queue, in a message with the
outputs that are left, in the call of the stub with one of them, or at its end. -/
inductive SendThread (M : Type*) where
  | waiting
  | sending (outputs : List (GrpcOutput M)) (guarded : Bool) (raised : Option Exn)
  | calling (output : GrpcOutput M) (outputs : List (GrpcOutput M)) (guarded : Bool)
      (raised : Option Exn)
  | ended
  deriving DecidableEq

def SendThread.isWaiting : SendThread M → Bool
  | .waiting => true
  | _ => false

/-- `checking` is the number of expired timers whose `retry_timer` waits in
`check_status`. -/
structure GrpcPublisher (M : Type*) where
  ready : Bool
  timer : Option Nat
  pendingTimers : List Nat
  nbTimers : Nat
  checking : Nat
  nbRetry : Nat
  nbLostMsg : Nat
  retryInProgress : Bool
  stopFlag : Bool
  thread : SendThread M
  deriving DecidableEq

/-- How a call of the stub ends. A closed channel raises a `ValueError`. -/
inductive RpcResult where
  | answered
  | unavailable
  | otherError
  | valueError
  deriving DecidableEq, Repr

/-- How `check_status` ends. A channel that a stop has closed raises a `ValueError`,
which nothing catches. -/
inductive StatusResult where
  | serverOk
  | failed
  | closed
  deriving DecidableEq, Repr

inductive ChannelConnectivity where
  | idle
  | connecting
  | ready
  | transientFailure
  | shutdown
  deriving DecidableEq, Repr

/-- What happens to a publisher. -/
inductive GrpcInput (M : Type*) where
  | message (msg : GrpcMsg M)
  | queueEmpty
  | transmit
  | reply (result : RpcResult)
  | expires (timer : Nat)
  | status (result : StatusResult)
  | channel (connectivity : ChannelConnectivity)
  | stop

namespace GrpcPublisher

def new : GrpcPublisher M := ⟨true, none, [], 0, 0, 0, 0, false, false, .waiting⟩

/-- A new timer is created and started. -/
def startTimer (s : GrpcPublisher M) : GrpcPublisher M :=
  { s with
    timer := some s.nbTimers
    pendingTimers := s.nbTimers :: s.pendingTimers
    nbTimers := s.nbTimers + 1
    retryInProgress := true }

/-- The call of `cancel`. -/
def cancelTimer (s : GrpcPublisher M) : GrpcPublisher M :=
  match s.timer with
  | some t => { s with pendingTimers := s.pendingTimers.filter (· ≠ t) }
  | none => s

def stop (s : GrpcPublisher M) : GrpcPublisher M := { s with stopFlag := true }.cancelTimer

def sendPbMessage (o : GrpcOptions) (s : GrpcPublisher M) :
    RpcResult → Except Exn (GrpcPublisher M)
  | .answered => .ok s
  | .unavailable => .ok { s with ready := false }.startTimer
  | .otherError =>
      let s := if o.stopOnError then s.stop else s
      .ok { s with ready := false }.startTimer
  | .valueError => .error .valueError

def sendMessage (o : GrpcOptions) (s : GrpcPublisher M) : RpcResult → GrpcPublisher M
  | .answered => s
  | .unavailable => { s with ready := false }.startTimer
  | .otherError => if o.stopOnError then s.stop else s
  | .valueError => s.stop

/-- The head of the loop of `nrun`. -/
def loopHead (s : GrpcPublisher M) : GrpcPublisher M :=
  { s with thread := if s.stopFlag then .ended else .waiting }

/-- The thread goes on with the outputs that are left. -/
def resume (s : GrpcPublisher M) (guarded : Bool) : Outputs M → GrpcPublisher M
  | ([], none) => s.loopHead
  | ([], some _) => { s with thread := .ended }
  | (outs, raised) => { s with thread := .sending outs guarded raised }

def processMsg (o : GrpcOptions) (s : GrpcPublisher M) (msg : GrpcMsg M) : GrpcPublisher M :=
  if s.ready then s.resume (guarded o msg) (outputsOf o msg)
  else { s with nbLostMsg := s.nbLostMsg + 1 }.loopHead

/-- The next output is transmitted. -/
def transmit (s : GrpcPublisher M) : Option (GrpcOutput M) × GrpcPublisher M :=
  match s.thread with
  | .sending (out :: outs) guarded raised =>
      (some out, { s with thread := .calling out outs guarded raised })
  | _ => (none, s)

/-- The call of the stub ends. -/
def reply (o : GrpcOptions) (s : GrpcPublisher M) (result : RpcResult) : GrpcPublisher M :=
  match s.thread with
  | .calling (.pushDecodedNMEA2K _) outs guarded raised =>
      match s.sendPbMessage o result with
      | .ok t => t.resume guarded (outs, raised)
      | .error _ => if guarded then s.loopHead else { s with thread := .ended }
  | .calling (.pushNMEA _) outs guarded raised =>
      (s.sendMessage o result).resume guarded (outs, raised)
  | _ => s

/-- A pending timer expires: `retry_timer`, up to the status check. -/
def expires (s : GrpcPublisher M) (t : Nat) : GrpcPublisher M :=
  if t ∈ s.pendingTimers then
    { s with
      pendingTimers := s.pendingTimers.erase t
      timer := none
      retryInProgress := false
      checking := s.checking + 1 }
  else s

/-- The retry that has failed is the last one. -/
def lastRetry (o : GrpcOptions) (s : GrpcPublisher M) : Prop :=
  0 < o.maxRetry ∧ o.maxRetry < (s.nbRetry + 1 : Nat)

instance (o : GrpcOptions) (s : GrpcPublisher M) : Decidable (s.lastRetry o) :=
  inferInstanceAs (Decidable (_ ∧ _))

/-- `retry_timer` behind the status check. -/
def status (o : GrpcOptions) (s : GrpcPublisher M) (result : StatusResult) : GrpcPublisher M :=
  if s.checking = 0 then s
  else
    let t := { s with checking := s.checking - 1 }
    match result with
    | .serverOk => { t with ready := true, nbRetry := 0, nbLostMsg := 0 }
    | .failed =>
        if s.lastRetry o then { t with nbRetry := s.nbRetry + 1 }.stop
        else { t with nbRetry := s.nbRetry + 1 }.startTimer
    | .closed => if s.stopFlag then t else s

def channelCallback (s : GrpcPublisher M) : ChannelConnectivity → GrpcPublisher M
  | .ready => { s with ready := true }
  | _ => s

/-- One step, with the output that it transmits. -/
def step (o : GrpcOptions) (s : GrpcPublisher M) :
    GrpcInput M → Option (GrpcOutput M) × GrpcPublisher M
  | .message msg => (none, if s.thread.isWaiting then s.processMsg o msg else s)
  | .queueEmpty => (none, if s.thread.isWaiting then s.loopHead else s)
  | .transmit => s.transmit
  | .reply result => (none, s.reply o result)
  | .expires t => (none, s.expires t)
  | .status result => (none, s.status o result)
  | .channel connectivity => (none, s.channelCallback connectivity)
  | .stop => (none, s.stop)

def machine (o : GrpcOptions) : Machine (GrpcPublisher M) (GrpcInput M) (Option (GrpcOutput M)) where
  step s i := s.step o i

end GrpcPublisher

end NavigationServer.Nmea2000
