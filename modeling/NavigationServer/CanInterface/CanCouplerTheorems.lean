/-
NavigationServer.CanInterface.CanCouplerTheorems — what the result of `send`
tells, and what the injector makes of it.

`injector_truthful_iff`: the result tells whether the frames of the message are
in the queue, and the loop of the injector ends when they are not, exactly as
long as no fast packet gets through. The branch of `send` for fast packets has
no `return`, so a message of which all frames were put has the result `None`,
and the injector stops after it.
-/
import NavigationServer.CanInterface.CanCoupler
import NavigationServer.CanInterface.SendTheorems

namespace NavigationServer.CanInterface

open NavigationServer.Lib
open NavigationServer.Nmea2000
open NavigationServer.RouterCore
open FastPacketHandler (splitFrames)
open SocketCANInterface (buildArbitrationId putCanMsgs)

/-! ## 1. The result of `send` -/

/-- The refusal that makes eleven in a row. -/
def LastRefusal (s : SocketCANInterface) (full : Nat → Bool) : Prop :=
  full 0 = true ∧ 10 ≤ s.writeErrors

/-- The frames of a message, if it has any: a fast packet of more than 255 bytes
cannot be split. -/
def framesOf (msg : NMEA2000Msg) : Option (List Bytes) :=
  if msg.fastPacket then
    match splitFrames msg.payload 1 with
    | (frames, none) => some frames
    | (_, some _) => none
  else some [msg.payload]

/-- All frames of the message are in the queue, in their order. -/
def AllPut (s : SocketCANInterface) (full : Nat → Bool) (msg : NMEA2000Msg) : Prop :=
  ∃ frames, framesOf msg = some frames ∧
    (s.send full msg false).2.inQueue
      = s.inQueue ++ frames.map (CanMessage.mk (buildArbitrationId msg))

/-- `send` has a result, and it is true exactly when all frames were put. -/
def TellsTruth (s : SocketCANInterface) (full : Nat → Bool) (msg : NMEA2000Msg) : Prop :=
  ∃ v, (s.send full msg false).1 = .ok v ∧ (v = some true ↔ AllPut s full msg)

/-- The sends whose result can be trusted: those of a single frame, and those
of a fast packet that can be split and of which a frame is refused. -/
def Trusted (s : SocketCANInterface) (full : Nat → Bool) (msg : NMEA2000Msg) : Prop :=
  ¬ LastRefusal s full ∧
    (msg.fastPacket = true →
      (s.fpHandler.writeSequences.lookup msg.pgn).getD 0 = 0 ∧ msg.payload.length ≤ 255 ∧
        ∃ i < msg.payload.length / 7 + 1, full i = true)

theorem framesOf_fast {msg : NMEA2000Msg} (hfast : msg.fastPacket = true)
    (hlen : msg.payload.length ≤ 255) :
    ∃ frames, splitFrames msg.payload 1 = (frames, none) ∧ framesOf msg = some frames ∧
      frames.length = msg.payload.length / 7 + 1 := by
  have hsplit := FastPacketHandler.splitFrames_eq msg.payload 1 (by omega) hlen
  refine ⟨_, hsplit, ?_, ?_⟩
  · rw [framesOf, if_pos hfast, hsplit]
  · simp

/-- Fewer frames are not all the frames. -/
theorem not_allPut_take {q : List CanMessage} {canId : Nat} {frames : List Bytes} {j : Nat}
    (hj : j < frames.length) :
    q ++ (frames.take j).map (CanMessage.mk canId) ≠ q ++ frames.map (CanMessage.mk canId) := by
  intro h
  have hlen := congrArg List.length (List.append_cancel_left h)
  simp only [List.length_map, List.length_take] at hlen
  omega

/-- The result of a single frame. -/
theorem tellsTruth_single {s : SocketCANInterface} {full : Nat → Bool} {msg : NMEA2000Msg}
    (hallowed : s.allowedSend = true) (hfast : msg.fastPacket = false) :
    TellsTruth s full msg ↔ ¬ LastRefusal s full := by
  have hframes : framesOf msg = some [msg.payload] := by simp [framesOf, hfast]
  have hsend : s.send full msg false
      = ((s.putCanMsg (full 0) (buildArbitrationId msg) msg.payload).1.map some,
          (s.putCanMsg (full 0) (buildArbitrationId msg) msg.payload).2) := by
    simp [SocketCANInterface.send, hallowed, hfast]
  have hall : AllPut s full msg ↔ full 0 = false := by
    rw [AllPut, hframes, hsend]
    simp only [Option.some.injEq, exists_eq_left', putCanMsg_inQueue]
    cases full 0 <;> simp
  rw [TellsTruth, hsend, putCanMsg_result, hall, LastRefusal]
  by_cases h : full 0 = true ∧ 10 ≤ s.writeErrors
  · simp [h, Except.map]
  · simp [h, Except.map]

/-- `send` of a fast packet whose sequence is in use. -/
theorem send_inUse {s : SocketCANInterface} (full : Nat → Bool) {msg : NMEA2000Msg}
    (hallowed : s.allowedSend = true) (hfast : msg.fastPacket = true)
    (hbusy : ¬ (s.fpHandler.writeSequences.lookup msg.pgn).getD 0 = 0) :
    s.send full msg false = (.error .valueError, s) := by
  simp [SocketCANInterface.send, hallowed, hfast, FastPacketHandler.allocateSeq, hbusy]

/-- What the frames put and the end of the split make the result of `send`. -/
def fastResult : Except Exn Bool → Option Exn → Except Exn (Option Bool)
  | .error e, _ => .error e
  | .ok false, _ => .ok (some false)
  | .ok true, some e => .error e
  | .ok true, none => .ok none

/-- `send` of a fast packet puts its frames, and has no result at the end. -/
theorem send_fast {s : SocketCANInterface} (full : Nat → Bool) {msg : NMEA2000Msg}
    (hallowed : s.allowedSend = true) (hfast : msg.fastPacket = true)
    (hfree : (s.fpHandler.writeSequences.lookup msg.pgn).getD 0 = 0) {frames : List Bytes}
    {exn : Option Exn} (hsplit : splitFrames msg.payload 1 = (frames, exn)) :
    ∃ s', s'.inQueue = s.inQueue ∧ s'.writeErrors = s.writeErrors ∧
      (s.send full msg false).2.inQueue
        = (putCanMsgs full (buildArbitrationId msg) frames 0 s').2.inQueue ∧
      (s.send full msg false).1
        = fastResult (putCanMsgs full (buildArbitrationId msg) frames 0 s').1 exn := by
  refine ⟨{ s with fpHandler := { s.fpHandler with
    writeSequences := s.fpHandler.writeSequences.insert msg.pgn 1 } }, rfl, rfl, ?_⟩
  simp only [SocketCANInterface.send, hallowed, hfast, FastPacketHandler.allocateSeq, hfree,
    hsplit, not_true, false_and, if_false, if_true]
  generalize putCanMsgs full (buildArbitrationId msg) frames 0 _ = r
  obtain ⟨out, s'⟩ := r
  cases out with
  | error e => exact ⟨rfl, rfl⟩
  | ok b => cases b <;> cases exn <;> exact ⟨rfl, rfl⟩

/-- The result of a fast packet. -/
theorem tellsTruth_fast {s : SocketCANInterface} {full : Nat → Bool} {msg : NMEA2000Msg}
    (hallowed : s.allowedSend = true) (hfast : msg.fastPacket = true) :
    TellsTruth s full msg ↔
      ¬ LastRefusal s full ∧ (s.fpHandler.writeSequences.lookup msg.pgn).getD 0 = 0 ∧
        msg.payload.length ≤ 255 ∧ ∃ i < msg.payload.length / 7 + 1, full i = true := by
  by_cases hfree : (s.fpHandler.writeSequences.lookup msg.pgn).getD 0 = 0
  swap
  · refine iff_of_false ?_ (fun h => hfree h.2.1)
    rintro ⟨v, hv, -⟩
    rw [send_inUse full hallowed hfast hfree] at hv
    cases hv
  rcases Nat.lt_or_ge 255 msg.payload.length with hlong | hlen
  · refine iff_of_false ?_ (fun h => absurd h.2.2.1 (Nat.not_le.mpr hlong))
    rintro ⟨v, hv, -⟩
    obtain ⟨s', -, -, -, hres⟩ := send_fast full hallowed hfast hfree (splitFrames_long hlong)
    rw [hres] at hv
    cases hv
  obtain ⟨frames, hsplit, hframes, hlength⟩ := framesOf_fast hfast hlen
  obtain ⟨s', hq, herrors, hqueue, hres⟩ := send_fast full hallowed hfast hfree hsplit
  have hall : AllPut s full msg ↔
      (s.send full msg false).2.inQueue
        = s.inQueue ++ frames.map (CanMessage.mk (buildArbitrationId msg)) := by
    simp only [AllPut, hframes, Option.some.injEq, exists_eq_left']
  by_cases hrefused : ∃ i < msg.payload.length / 7 + 1, full i = true
  · obtain ⟨hput, j, hj, hputq⟩ := putCanMsgs_refused full (buildArbitrationId msg) frames
      0 s' (by simpa [hlength] using hrefused)
    have hnot : ¬ AllPut s full msg := by
      rw [hall, hqueue, hputq, hq]
      exact not_allPut_take hj
    rw [TellsTruth, hres, hput, herrors]
    by_cases h : full 0 = true ∧ 10 ≤ s.writeErrors
    · simp [h, LastRefusal, fastResult]
    · simpa [h, LastRefusal, fastResult, hnot, hfree, hlen] using hrefused
  · have hroom : ∀ j < frames.length, full (0 + j) = false := by
      intro j hj
      by_contra h
      exact hrefused ⟨j, hlength ▸ hj, by simpa using h⟩
    obtain ⟨hput, hputq⟩ := putCanMsgs_room (buildArbitrationId msg) frames 0 s' hroom
    have hyes : AllPut s full msg := by rw [hall, hqueue, hputq, hq]
    refine iff_of_false ?_ (fun h => hrefused h.2.2.2)
    rintro ⟨v, hv, htruth⟩
    rw [hres, hput] at hv
    cases hv
    exact absurd (htruth.mpr hyes) (by simp)

/-- **When the result of `send` can be trusted.** -/
theorem tellsTruth_iff_trusted {s : SocketCANInterface} {full : Nat → Bool} {msg : NMEA2000Msg}
    (hallowed : s.allowedSend = true) : TellsTruth s full msg ↔ Trusted s full msg := by
  rw [Trusted]
  cases hfast : msg.fastPacket with
  | false => simp [tellsTruth_single hallowed hfast]
  | true => simp [tellsTruth_fast hallowed hfast]

/-! ## 2. The loop of the injector -/

/-- The injector has taken a NMEA2000 message from its queue and may send it. -/
def Sends (p : Injector) (i : InjectorInput) (msg : NMEA2000Msg) (full : Nat → Bool) : Prop :=
  i = .got (.n2k msg) full ∧ p.running = true ∧ p.stopflag = false ∧
    p.targetCoupler.direction ≠ .readOnly ∧ p.targetCoupler.canInterface.allowedSend = true

/-- For a message that is sent, the result tells the truth and the loop goes on
exactly when all frames were put. -/
def Truthful (mv : Move Injector InjectorInput Unit) : Prop :=
  ∀ msg full, Sends mv.pre mv.input msg full →
    TellsTruth mv.pre.targetCoupler.canInterface full msg ∧
      (mv.post.running = true ↔ AllPut mv.pre.targetCoupler.canInterface full msg)

/-- A message taken is one whose result can be trusted. -/
def SendsTrusted (p : Injector) (i : InjectorInput) : Prop :=
  ∀ msg full, Sends p i msg full → Trusted p.targetCoupler.canInterface full msg

/-- The loop goes on when the result of `send` is true. -/
theorem running_step {p : Injector} {i : InjectorInput} {msg : NMEA2000Msg} {full : Nat → Bool}
    (h : Sends p i msg full) :
    (p.step i).running = true ↔
      (p.targetCoupler.canInterface.send full msg false).1 = .ok (some true) := by
  obtain ⟨rfl, hrunning, hstop, hdir, -⟩ := h
  simp only [Injector.step, hrunning, if_true, Injector.turn, Injector.processMsg,
    DirectCANCoupler.sendMsgGen, hdir, if_false, DirectCANCoupler.send]
  generalize p.targetCoupler.canInterface.send full msg false = r
  obtain ⟨out, c⟩ := r
  rcases out with e | v
  · simp
  · rcases v with _ | _ | _ <;> simp [hstop]

/-- **The result of `send` and the loop of the injector are right in exactly the
runs in which each message sent is a single frame, or a fast packet that can be
split and of which a frame is refused.** -/
theorem injector_truthful_iff (p : Injector) (is : List InjectorInput) :
    (∀ mv ∈ Injector.machine.trace p is, Truthful mv) ↔
      ∀ mv ∈ Injector.machine.trace p is, SendsTrusted mv.pre mv.input := by
  refine Injector.machine.trace_forall_iff Truthful SendsTrusted ?_ p is
  intro s i
  constructor
  · intro htrue msg full hsends
    exact (tellsTruth_iff_trusted hsends.2.2.2.2).mp (htrue msg full hsends).1
  · intro htrusted msg full hsends
    have htells := (tellsTruth_iff_trusted hsends.2.2.2.2).mpr (htrusted msg full hsends)
    refine ⟨htells, (running_step hsends).trans ?_⟩
    obtain ⟨v, hv, htruth⟩ := htells
    rw [hv, ← htruth, Except.ok.injEq]

/-- A position report of nine bytes, a fast packet of two frames. -/
def nineBytes : NMEA2000Msg := .of 129029 3 1 255 [1, 2, 3, 4, 5, 6, 7, 8, 9]

/-- An injector over an interface that may send. -/
def freshInjector : Injector := .start ⟨allowedInterface, .bidirectional, 0⟩

/-- Both frames of a fast packet are put, and the injector stops. -/
theorem not_truthful_nineBytes :
    ¬ ∀ mv ∈ Injector.machine.trace freshInjector [.got (.n2k nineBytes) fun _ => false],
      Truthful mv := by
  intro h
  obtain ⟨⟨v, hv, htruth⟩, -⟩ := h _ (List.mem_singleton_self _) nineBytes (fun _ => false)
    ⟨rfl, rfl, rfl, by decide, rfl⟩
  have hput : AllPut freshInjector.targetCoupler.canInterface (fun _ => false) nineBytes :=
    ⟨(splitFrames nineBytes.payload 1).1, by decide +kernel, by decide +kernel⟩
  have hnone : (freshInjector.targetCoupler.canInterface.send (fun _ => false) nineBytes false).1
      = .ok none := by decide +kernel
  rw [hnone] at hv
  cases hv
  exact absurd (htruth.mpr hput) (by simp)

end NavigationServer.CanInterface
