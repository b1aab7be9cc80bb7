/-
NavigationServer.Couplers.SendersTheorems — the sequences of the senders.

`senders_release_iff`: the sequence of a PGN is free again after each send in
exactly the runs in which every split that is started is run to its end. The
sequence is taken at the first step of the generator and given back behind its
last one, so a frame that is refused, or a consumer that stops, leaves it taken.In such a run each message is written as a new interface writes it
(`writesAsNew_run`), so the results about those hold of all of them.
-/
import NavigationServer.CanInterface.SendTheorems
import NavigationServer.Couplers.Senders

namespace NavigationServer.Nmea2000.FastPacketHandler

open NavigationServer.Lib

/-! ## 1. The sequence of a PGN -/

/-- No split of the PGN is under way. -/
def SequenceFree (h : FastPacketHandler) (pgn : Nat) : Prop :=
  (h.writeSequences.lookup pgn).getD 0 = 0

/-- The sequence of the PGN is free, and a message of the PGN is split. -/
structure Ready (h : FastPacketHandler) (pgn : Nat) : Prop where
  free : h.SequenceFree pgn
  splits : ∀ data, (h.splitMessage pgn data).1 = splitFrames data 1

/-- The handler, with the sequence of the PGN in use. -/
def taken (h : FastPacketHandler) (pgn : Nat) : FastPacketHandler :=
  { h with writeSequences := h.writeSequences.insert pgn 1 }

theorem sequenceFree_new (pgn : Nat) : SequenceFree .new pgn := rfl

theorem allocateSeq_free {h : FastPacketHandler} {pgn : Nat} (hfree : h.SequenceFree pgn) :
    h.allocateSeq pgn = .ok (1, h.taken pgn) := if_pos hfree

theorem ready_iff {h : FastPacketHandler} {pgn : Nat} : h.Ready pgn ↔ h.SequenceFree pgn := by
  constructor
  · exact fun hready => hready.free
  · intro hfree
    refine ⟨hfree, fun data => ?_⟩
    rw [splitMessage, allocateSeq_free hfree]
    simp only
    obtain ⟨frames, e⟩ := splitFrames data 1
    cases e <;> rfl

@[simp] theorem sequenceFree_taken (h : FastPacketHandler) (pgn pgn' : Nat) :
    (h.taken pgn).SequenceFree pgn' ↔ pgn' ≠ pgn ∧ h.SequenceFree pgn' := by
  by_cases hp : pgn' = pgn
  · subst hp
    simp [SequenceFree, taken]
  · simp [SequenceFree, taken, AList.lookup_insert_ne hp, hp]

@[simp] theorem sequenceFree_freeSeq (h : FastPacketHandler) (pgn pgn' : Nat) :
    (h.freeSeq pgn).SequenceFree pgn' ↔ pgn' = pgn ∨ h.SequenceFree pgn' := by
  by_cases hp : pgn' = pgn
  · subst hp
    simp [SequenceFree, freeSeq]
  · simp [SequenceFree, freeSeq, AList.lookup_insert_ne hp, hp]

/-! ## 2. A split that is not run to its end -/

/-- The consumer does not start the split, or runs it to its end: it asks for
all the frames, and once more. -/
def RunsOut (data : Bytes) (asked : Nat) : Prop :=
  asked = 0 ∨ data.length ≤ 255 ∧ data.length / 7 + 2 ≤ asked

/-- How many frames the split of a payload has. -/
theorem splitFrames_short {data : Bytes} (hlen : data.length ≤ 255) :
    ∃ frames, splitFrames data 1 = (frames, none) ∧ frames.length = data.length / 7 + 1 :=
  ⟨_, splitFrames_eq data 1 (by omega) hlen, by simp⟩

/-- A consumer that asks once more than there are frames runs the split to its
end. -/
theorem splitMessageUpto_end (h : FastPacketHandler) (pgn : Nat) (data : Bytes) {asked : Nat}
    (hasked : (splitFrames data 1).1.length < asked) :
    h.splitMessageUpto pgn data asked = h.splitMessage pgn data := by
  rw [splitMessageUpto, splitMessage, if_neg (by omega)]
  by_cases hfree : h.SequenceFree pgn
  · rw [allocateSeq_free hfree]
    simp only
    rw [if_neg (by omega)]
    obtain ⟨frames, e⟩ := splitFrames data 1
    cases e <;> rfl
  · rw [show h.allocateSeq pgn = .error .valueError from if_neg hfree]

/-- **A split gives its sequence back when it runs out**, and touches no other. -/
theorem sequenceFree_splitMessageUpto {h : FastPacketHandler} {pgn : Nat}
    (hfree : h.SequenceFree pgn) (data : Bytes) (asked : Nat) (pgn' : Nat) :
    (h.splitMessageUpto pgn data asked).2.SequenceFree pgn' ↔
      h.SequenceFree pgn' ∧ (pgn' = pgn → RunsOut data asked) := by
  rw [splitMessageUpto, allocateSeq_free hfree, RunsOut]
  by_cases hzero : asked = 0
  · simp [hzero]
  rw [if_neg hzero]
  simp only
  rcases Nat.lt_or_ge 255 data.length with hlong | hlen
  · rw [splitFrames_long hlong]
    simp only [List.length_nil, Nat.le_zero, hzero, if_false, sequenceFree_taken, false_or]
    have hno : ¬ data.length ≤ 255 := Nat.not_le.mpr hlong
    simp [hno, and_comm]
  · obtain ⟨frames, hsplit, hlength⟩ := splitFrames_short hlen
    rw [hsplit]
    by_cases hall : asked ≤ frames.length
    · have hno : ¬ data.length / 7 + 2 ≤ asked := by omega
      simp [hall, hzero, hno, and_comm]
    · have hend : data.length / 7 + 2 ≤ asked := by omega
      have hrest : ∀ pgn', pgn' = pgn ∨ pgn' ≠ pgn ∧ h.SequenceFree pgn' ↔ h.SequenceFree pgn' := by
        intro pgn'
        by_cases hp : pgn' = pgn
        · simp [hp, hfree]
        · simp [hp]
      simp [hall, hlen, hend, hrest]

end NavigationServer.Nmea2000.FastPacketHandler

namespace NavigationServer.CanInterface

open NavigationServer.Lib
open NavigationServer.Nmea2000
open NavigationServer.RouterCore
open FastPacketHandler (splitFrames SequenceFree RunsOut)
open SocketCANInterface (buildArbitrationId putCanMsgs)

/-! ## 3. The three senders -/

theorem putCanMsg_fpHandler (s : SocketCANInterface) (full : Bool) (canId : Nat) (data : Bytes) :
    (s.putCanMsg full canId data).2.fpHandler = s.fpHandler := by
  rw [SocketCANInterface.putCanMsg]
  dsimp only
  split_ifs <;> rfl

/-- Putting frames leaves the handler as it is. -/
theorem putCanMsgs_fpHandler (full : Nat → Bool) (canId : Nat) (frames : List Bytes) :
    ∀ (i : Nat) (s : SocketCANInterface),
      (putCanMsgs full canId frames i s).2.fpHandler = s.fpHandler := by
  induction frames with
  | nil => exact fun i s => rfl
  | cons data frames ih =>
    intro i s
    have hput := putCanMsg_fpHandler s (full i) canId data
    rw [putCanMsgs]
    split
    · rename_i s' h
      rw [ih, ← hput, h]
    · exact hput

/-- The message is not split, or it is and all its frames are put. -/
def AllFramesTaken (s : SocketCANInterface) (full : Nat → Bool) (msg : NMEA2000Msg)
    (forceSend : Bool) : Prop :=
  msg.fastPacket = true → s.allowedSend = true ∨ forceSend = true →
    msg.payload.length ≤ 255 ∧ ∀ i < msg.payload.length / 7 + 1, full i = false

/-- **`send` gives the sequence back when no frame is refused.** -/
theorem sequenceFree_send {s : SocketCANInterface} {msg : NMEA2000Msg}
    (hfree : s.fpHandler.SequenceFree msg.pgn) (full : Nat → Bool) (forceSend : Bool) (pgn : Nat) :
    (s.send full msg forceSend).2.fpHandler.SequenceFree pgn ↔
      s.fpHandler.SequenceFree pgn ∧ (pgn = msg.pgn → AllFramesTaken s full msg forceSend) := by
  rw [SocketCANInterface.send, AllFramesTaken]
  by_cases hno : ¬ s.allowedSend = true ∧ ¬ forceSend = true
  · rw [if_pos hno]
    simp [hno]
  have hallowed : s.allowedSend = true ∨ forceSend = true := by
    by_contra h
    exact hno ⟨fun ha => h (.inl ha), fun hf => h (.inr hf)⟩
  rw [if_neg hno]
  cases hfast : msg.fastPacket with
  | false =>
    have hhandler := putCanMsg_fpHandler s (full 0) (buildArbitrationId msg) msg.payload
    simp [hhandler]
  | true =>
    simp only [if_true, FastPacketHandler.allocateSeq_free hfree, hallowed, forall_const]
    rcases Nat.lt_or_ge 255 msg.payload.length with hlong | hlen
    · rw [splitFrames_long hlong]
      have hshort : ¬ msg.payload.length ≤ 255 := Nat.not_le.mpr hlong
      simp [putCanMsgs, hshort, and_comm]
    · obtain ⟨frames, hsplit, hlength⟩ := FastPacketHandler.splitFrames_short hlen
      rw [hsplit]
      have hhandler := putCanMsgs_fpHandler full (buildArbitrationId msg) frames 0
        { s with fpHandler := s.fpHandler.taken msg.pgn }
      have hok := putCanMsgs_ok_iff full (buildArbitrationId msg) frames
        { s with fpHandler := s.fpHandler.taken msg.pgn }
      simp only
      generalize putCanMsgs full (buildArbitrationId msg) frames 0 _ = r at hhandler hok ⊢
      obtain ⟨out, s'⟩ := r
      simp only at hhandler hok
      by_cases hroom : ∀ i < frames.length, full i = false
      · obtain rfl := hok.mpr hroom
        have hrest : pgn = msg.pgn ∨ pgn ≠ msg.pgn ∧ s.fpHandler.SequenceFree pgn ↔
            s.fpHandler.SequenceFree pgn := by
          by_cases hp : pgn = msg.pgn
          · simp [hp, hfree]
          · simp [hp]
        simp only [hhandler, FastPacketHandler.sequenceFree_freeSeq,
          FastPacketHandler.sequenceFree_taken, hrest, ← hlength]
        exact ⟨fun h => ⟨h, fun _ => ⟨hlen, hroom⟩⟩, fun h => h.1⟩
      · have hstuck : (∃ e, out = .error e) ∨ out = .ok false := by
          rcases out with e | b
          · exact .inl ⟨e, rfl⟩
          · cases b with
            | false => exact .inr rfl
            | true => exact absurd (hok.mp rfl) hroom
        rcases hstuck with ⟨e, rfl⟩ | rfl <;> simp [hhandler, ← hlength, hroom, and_comm]

end NavigationServer.CanInterface

namespace NavigationServer.Couplers

open NavigationServer.CanInterface
open NavigationServer.Lib
open NavigationServer.Nmea2000
open NavigationServer.RouterCore
open FastPacketHandler (SequenceFree RunsOut)

/-! ## 4. The encoders -/

theorem YDCoupler.sequenceFree_encode {coupler : YDCoupler} {msg : NMEA2000Msg}
    (hfree : coupler.fastPacketHandler.SequenceFree msg.pgn) (asked pgn : Nat) :
    (coupler.encodeNmea2000Upto msg asked).2.fastPacketHandler.SequenceFree pgn ↔
      coupler.fastPacketHandler.SequenceFree pgn ∧
        (pgn = msg.pgn → msg.fastPacket = true → RunsOut msg.payload asked) := by
  rw [YDCoupler.encodeNmea2000Upto]
  cases hfast : msg.fastPacket with
  | false => simp
  | true =>
    simpa using FastPacketHandler.sequenceFree_splitMessageUpto hfree msg.payload asked pgn

theorem ShipModulInterface.sequenceFree_encode {coupler : ShipModulInterface} {msg : NMEA2000Msg}
    (hfree : coupler.fastPacketHandler.SequenceFree msg.pgn) (asked pgn : Nat) :
    (coupler.encodeNmea2000Upto msg asked).2.fastPacketHandler.SequenceFree pgn ↔
      coupler.fastPacketHandler.SequenceFree pgn ∧
        (pgn = msg.pgn → msg.fastPacket = true → RunsOut msg.payload asked) := by
  rw [ShipModulInterface.encodeNmea2000Upto]
  cases hfast : msg.fastPacket with
  | false => simp
  | true =>
    simpa using FastPacketHandler.sequenceFree_splitMessageUpto hfree msg.payload asked pgn

/-- Run to their ends, they are the encoders that the receivers were compared
with. -/
theorem YDCoupler.encodeNmea2000Upto_end (coupler : YDCoupler) {msg : NMEA2000Msg}
    (hfast : msg.fastPacket = true) {asked : Nat}
    (hasked : (FastPacketHandler.splitFrames msg.payload 1).1.length < asked) :
    coupler.encodeNmea2000Upto msg asked = coupler.encodeNmea2000 msg := by
  rw [encodeNmea2000Upto, encodeNmea2000, FastPacketHandler.splitMessageUpto_end _ _ _ hasked,
    if_pos hfast, if_pos hfast]

theorem ShipModulInterface.encodeNmea2000Upto_end (coupler : ShipModulInterface)
    {msg : NMEA2000Msg} (hfast : msg.fastPacket = true) {asked : Nat}
    (hasked : (FastPacketHandler.splitFrames msg.payload 1).1.length < asked) :
    coupler.encodeNmea2000Upto msg asked = coupler.encodeNmea2000 msg := by
  rw [encodeNmea2000Upto, encodeNmea2000, FastPacketHandler.splitMessageUpto_end _ _ _ hasked,
    if_pos hfast, if_pos hfast]

/-- An interface whose sequence is free writes what a new one writes. -/
theorem YDCoupler.encodeNmea2000_ready {coupler : YDCoupler} {msg : NMEA2000Msg}
    (hfast : msg.fastPacket = true) (hready : coupler.fastPacketHandler.Ready msg.pgn) :
    (coupler.encodeNmea2000 msg).1 = (YDCoupler.new.encodeNmea2000 msg).1 := by
  have hnew := FastPacketHandler.ready_iff.mpr (FastPacketHandler.sequenceFree_new msg.pgn)
  have hsplit : (coupler.fastPacketHandler.splitMessage msg.pgn msg.payload).1
      = (YDCoupler.new.fastPacketHandler.splitMessage msg.pgn msg.payload).1 :=
    (hready.splits msg.payload).trans (hnew.splits msg.payload).symm
  rw [encodeNmea2000, encodeNmea2000, if_pos hfast, if_pos hfast]
  simp only [hsplit]

theorem ShipModulInterface.encodeNmea2000_ready {coupler : ShipModulInterface} {msg : NMEA2000Msg}
    (hfast : msg.fastPacket = true) (hready : coupler.fastPacketHandler.Ready msg.pgn) :
    (coupler.encodeNmea2000 msg).1 = (ShipModulInterface.new.encodeNmea2000 msg).1 := by
  have hnew := FastPacketHandler.ready_iff.mpr (FastPacketHandler.sequenceFree_new msg.pgn)
  have hsplit : (coupler.fastPacketHandler.splitMessage msg.pgn msg.payload).1
      = (ShipModulInterface.new.fastPacketHandler.splitMessage msg.pgn msg.payload).1 :=
    (hready.splits msg.payload).trans (hnew.splits msg.payload).symm
  rw [encodeNmea2000, encodeNmea2000, if_pos hfast, if_pos hfast]
  simp only [hsplit]

/-! ## 5. Runs of sends -/

namespace Senders

/-- All sequences of the three handlers are free. -/
structure AllFree (s : Senders) : Prop where
  can : ∀ pgn, s.can.fpHandler.SequenceFree pgn
  shipmodul : ∀ pgn, s.shipmodul.fastPacketHandler.SequenceFree pgn
  yd : ∀ pgn, s.yd.fastPacketHandler.SequenceFree pgn

/-- After the send, the next message of its PGN can be split. -/
def Releases (mv : Move Senders SenderInput Unit) : Prop :=
  match mv.input with
  | .allowSend => True
  | .can msg _ _ => mv.post.can.fpHandler.Ready msg.pgn
  | .shipmodul msg _ => mv.post.shipmodul.fastPacketHandler.Ready msg.pgn
  | .yd msg _ => mv.post.yd.fastPacketHandler.Ready msg.pgn

/-- A split that is started gets to its end: no frame is refused, or the
consumer asks until there are no more. -/
def RunsToEnd (s : Senders) : SenderInput → Prop
  | .allowSend => True
  | .can msg full forceSend => AllFramesTaken s.can full msg forceSend
  | .shipmodul msg asked => msg.fastPacket = true → RunsOut msg.payload asked
  | .yd msg asked => msg.fastPacket = true → RunsOut msg.payload asked

theorem allFree_start (can : SocketCANInterface) (shipmodul : ShipModulInterface)
    (yd : YDCoupler) : (start can shipmodul yd).AllFree :=
  ⟨FastPacketHandler.sequenceFree_new, FastPacketHandler.sequenceFree_new,
    FastPacketHandler.sequenceFree_new⟩

theorem releases_iff {s : Senders} (i : SenderInput) (h : s.AllFree) :
    Releases ⟨s, i, (machine.step s i).1, (machine.step s i).2⟩ ↔ s.RunsToEnd i := by
  cases i with
  | allowSend => exact Iff.rfl
  | can msg full forceSend =>
    refine FastPacketHandler.ready_iff.trans ?_
    exact (sequenceFree_send (h.can msg.pgn) full forceSend msg.pgn).trans
      (by simp [h.can, RunsToEnd])
  | shipmodul msg asked =>
    refine FastPacketHandler.ready_iff.trans ?_
    exact (ShipModulInterface.sequenceFree_encode (h.shipmodul msg.pgn) asked msg.pgn).trans
      (by simp [h.shipmodul, RunsToEnd])
  | yd msg asked =>
    refine FastPacketHandler.ready_iff.trans ?_
    exact (YDCoupler.sequenceFree_encode (h.yd msg.pgn) asked msg.pgn).trans
      (by simp [h.yd, RunsToEnd])

/-- A send that gets to its end leaves all sequences free. -/
theorem allFree_step {s : Senders} (i : SenderInput) (h : s.AllFree) (hend : s.RunsToEnd i) :
    (machine.step s i).2.AllFree := by
  cases i with
  | allowSend => exact ⟨h.can, h.shipmodul, h.yd⟩
  | can msg full forceSend =>
    refine ⟨fun pgn => ?_, h.shipmodul, h.yd⟩
    exact (sequenceFree_send (h.can msg.pgn) full forceSend pgn).mpr ⟨h.can pgn, fun _ => hend⟩
  | shipmodul msg asked =>
    refine ⟨h.can, fun pgn => ?_, h.yd⟩
    exact (ShipModulInterface.sequenceFree_encode (h.shipmodul msg.pgn) asked pgn).mpr
      ⟨h.shipmodul pgn, fun _ => hend⟩
  | yd msg asked =>
    refine ⟨h.can, h.shipmodul, fun pgn => ?_⟩
    exact (YDCoupler.sequenceFree_encode (h.yd msg.pgn) asked pgn).mpr
      ⟨h.yd pgn, fun _ => hend⟩

/-- **A send leaves the sequence of its PGN free in exactly the runs in which
every split that is started gets to its end.** -/
theorem senders_release_iff (can : SocketCANInterface) (shipmodul : ShipModulInterface)
    (yd : YDCoupler) (is : List SenderInput) :
    (∀ mv ∈ machine.trace (start can shipmodul yd) is, Releases mv) ↔
      ∀ mv ∈ machine.trace (start can shipmodul yd) is, mv.pre.RunsToEnd mv.input :=
  machine.trace_forall_iff_of_invariant AllFree Releases RunsToEnd (fun _ i h => releases_iff i h)
    (fun _ i h hend => allFree_step i h hend) (allFree_start can shipmodul yd) is

/-- What the consumer of a split gets is what a new interface writes of the message. -/
def WritesAsNew (mv : Move Senders SenderInput Unit) : Prop :=
  match mv.input with
  | .shipmodul msg asked => msg.fastPacket = true → asked ≠ 0 →
      (mv.pre.shipmodul.encodeNmea2000Upto msg asked).1 = (ShipModulInterface.new.encodeNmea2000 msg).1
  | .yd msg asked => msg.fastPacket = true → asked ≠ 0 →
      (mv.pre.yd.encodeNmea2000Upto msg asked).1 = (YDCoupler.new.encodeNmea2000 msg).1
  | _ => True

/-- A consumer that has started a split which runs out asks for more than its frames. -/
theorem length_lt_of_runsOut {data : Bytes} {asked : Nat} (h : RunsOut data asked) (hasked : asked ≠ 0) :
    (FastPacketHandler.splitFrames data 1).1.length < asked := by
  obtain ⟨hlen, hend⟩ := h.resolve_left hasked
  obtain ⟨frames, hframes, hcount⟩ := FastPacketHandler.splitFrames_short hlen
  rw [hframes, hcount]
  omega

/-- **Where every split gets to its end, each message is written in full**, however
many were sent before it. -/
theorem writesAsNew_run (can : SocketCANInterface) (shipmodul : ShipModulInterface) (yd : YDCoupler)
    (is : List SenderInput)
    (hend : ∀ mv ∈ machine.trace (start can shipmodul yd) is, mv.pre.RunsToEnd mv.input) :
    ∀ mv ∈ machine.trace (start can shipmodul yd) is, WritesAsNew mv := by
  intro mv hmv
  have hfree := (machine.trace_invariant AllFree RunsToEnd (fun _ i h hi => allFree_step i h hi)
    (allFree_start can shipmodul yd) is hend mv hmv).1
  have hruns := hend mv hmv
  obtain ⟨s, i, o, s'⟩ := mv
  cases i with
  | allowSend => trivial
  | can msg full forceSend => trivial
  | shipmodul msg asked =>
    intro hfast hasked
    dsimp only
    rw [ShipModulInterface.encodeNmea2000Upto_end _ hfast (length_lt_of_runsOut (hruns hfast) hasked)]
    exact ShipModulInterface.encodeNmea2000_ready hfast
      (FastPacketHandler.ready_iff.mpr (hfree.shipmodul msg.pgn))
  | yd msg asked =>
    intro hfast hasked
    dsimp only
    rw [YDCoupler.encodeNmea2000Upto_end _ hfast (length_lt_of_runsOut (hruns hfast) hasked)]
    exact YDCoupler.encodeNmea2000_ready hfast (FastPacketHandler.ready_iff.mpr (hfree.yd msg.pgn))

/-- A message of nine bytes, which the CAN interface sends as two frames. -/
def twoFrames : NMEA2000Msg := .of 129029 3 1 255 [1, 2, 3, 4, 5, 6, 7, 8, 9]

/-- The second frame is refused, and the sequence is not given back: the next
message of the PGN is a `ValueError`. -/
theorem not_releases_refused :
    ¬ (∀ mv ∈ machine.trace (start .new .new .new)
        [.allowSend, .can twoFrames (fun i => i = 1) false], Releases mv) ∧
      (SocketCANInterface.send (machine.final (start .new .new .new)
        [.allowSend, .can twoFrames (fun i => i = 1) false]).can (fun _ => false) twoFrames
        false).1 = .error .valueError := by
  refine ⟨fun h => ?_, by decide +kernel⟩
  have hready := h _ (List.mem_cons_of_mem _ (List.mem_singleton_self _))
  have htaken : ((machine.final (start .new .new .new) [.allowSend,
      .can twoFrames (fun i => i = 1) false]).can.fpHandler.writeSequences.lookup 129029).getD 0
        = 1 := by decide +kernel
  exact absurd (htaken.symm.trans hready.free) (by decide)

end Senders

end NavigationServer.Couplers
