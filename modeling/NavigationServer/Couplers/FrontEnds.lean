/-
NavigationServer.Couplers.FrontEnds — what the four receive paths are for.

`accept` says it once: a frame that belongs to an open transfer, or whose PGN
is fast packet, goes to the reassembly, and a message comes of it when it
completes a payload; any other frame is a message. The fast packet exceptions
end there. The reassembly of the CAN interface does this for every frame
(`can_accept`); those of the log replay, of the Shipmodul interface and of the
Yacht Devices coupler do it for frames that a transfer may start with
(`Starts`).
-/
import NavigationServer.CanInterface.InterfaceTheorems
import NavigationServer.Couplers.ShipModul
import NavigationServer.Couplers.Ydn2kCoupler
import NavigationServer.LogReplay.RawLogCoupler
import NavigationServer.Nmea2000.Untimed

namespace NavigationServer.Couplers

open NavigationServer.Lib
open NavigationServer.Nmea2000
open NavigationServer.Nmea2000Datamodel
open NavigationServer.RouterCore
open NavigationServer.CanInterface
open NavigationServer.LogReplay
open FastPacketHandler (counterOf seqOf)

/-! ## 1. Accepting a frame -/

/-- What a path delivers of a message. -/
structure Delivery where
  pgn : Nat
  prio : Nat
  sa : Nat
  payload : Bytes
  deriving DecidableEq, Repr

def delivery (msg : NMEA2000Msg) : Delivery := ⟨msg.pgn, msg.prio, msg.sa, msg.payload⟩

/-- What comes of a frame: a message, nothing, or an exception that reaches
the caller. -/
abbrev Outcome := Except Exn (Option Delivery)

def accept (defs : PGNDefinitions) (fp : FastPacketHandler) (prio : Nat) (rx : Received) :
    Outcome × FastPacketHandler :=
  if (fp.sequences.lookup rx.key).isSome = true ∨ fastPacketCheck defs rx.pgn = .ok true then
    match fp.receive rx with
    | (.ok payload, fp) => (.ok (payload.map (fun data => ⟨rx.pgn, prio, rx.addr, data⟩)), fp)
    | (.error (.fastPacket _), fp) => (.ok none, fp)
    | (.error e, fp) => (.error e, fp)
  else (.ok (some ⟨rx.pgn, prio, rx.addr, rx.frame⟩), fp)

/-- The outcome of a call that raises IncompleteMessage when there is no
message. -/
def outcomeOf : Except Exn NMEA2000Msg → Outcome
  | .ok msg => .ok (some (delivery msg))
  | .error .incompleteMessage => .ok none
  | .error e => .error e

/-- A frame that comes for a free key of a fast packet PGN is a frame 0, and
the length it announces, if it has one, is of more than its own bytes. -/
def Starts (defs : PGNDefinitions) (fp : FastPacketHandler) (rx : Received) : Prop :=
  ∀ b rest, rx.frame = b :: rest → (fp.sequences.lookup rx.key).isSome = false →
    fastPacketCheck defs rx.pgn = .ok true → counterOf b = 0 ∧ ∀ len ∈ rest.head?, 7 ≤ len.toNat

section Receive

variable {fp : FastPacketHandler} {rx : Received}

theorem isPgnActive_eq (fp : FastPacketHandler) (hne : rx.frame ≠ []) :
    fp.isPgnActive rx.pgn rx.addr rx.frame = .ok (fp.sequences.lookup rx.key).isSome := by
  obtain ⟨b, rest, hf⟩ := List.exists_cons_of_ne_nil hne
  rw [Received.key, hf]
  rfl

/-- The reassembly raises nothing but a fast packet exception and an index
error. -/
theorem receive_cases (fp : FastPacketHandler) {rx : Received} (hne : rx.frame ≠ []) :
    (∃ o, (fp.receive rx).1 = .ok o) ∨ (∃ text, (fp.receive rx).1 = .error (.fastPacket text)) ∨
      (fp.receive rx).1 = .error .indexError := by
  obtain ⟨b, rest, hf⟩ := List.exists_cons_of_ne_nil hne
  rw [FastPacketHandler.receive_fst]
  by_cases hr : Raises (slotStep (fp.sequences.lookup rx.key) rx).1
  · obtain ⟨hc, rfl⟩ := (raises_slotStep_iff _ rx hf).mp hr
    refine Or.inr (Or.inr ?_)
    cases fp.sequences.lookup rx.key with
    | none => rw [slotStep_free rx hf hc]; rfl
    | some p => rw [slotStep_open p rx hf, hc]; rfl
  · cases hs : (slotStep (fp.sequences.lookup rx.key) rx).1 with
    | ok o => exact Or.inl ⟨o, rfl⟩
    | error e =>
      cases e with
      | fastPacket text => exact Or.inr (Or.inl ⟨text, rfl⟩)
      | _ => exact absurd ⟨_, hs, rfl⟩ hr

theorem checkComplete_first {p : FastPacket} (hp : p.Blank) {byteLength : Nat} (data : Bytes)
    (h7 : 7 ≤ byteLength) : (p.withFirst byteLength data).checkComplete = false := by
  have hnb := FastPacket.nbFramesFor_eq (show 6 ≤ byteLength by omega)
  rw [Nat.ceilDiv_eq_add_pred_div] at hnb
  rw [FastPacket.checkComplete]
  simp only [FastPacket.withFirst, hp.1, hp.2.1]
  rw [if_neg (by omega)]
  exact decide_eq_false (by omega)

/-- A frame that a transfer may start with does not complete it. -/
theorem receive_starts {defs : PGNDefinitions} (hne : rx.frame ≠ [])
    (hfree : (fp.sequences.lookup rx.key).isSome = false)
    (hfast : fastPacketCheck defs rx.pgn = .ok true) (hstart : Starts defs fp rx) :
    (fp.receive rx).1 = .ok none ∨ (fp.receive rx).1 = .error .indexError := by
  obtain ⟨b, rest, hf⟩ := List.exists_cons_of_ne_nil hne
  obtain ⟨hc, hlen⟩ := hstart b rest hf hfree hfast
  have hnone : fp.sequences.lookup rx.key = none := by simpa using hfree
  rw [FastPacketHandler.receive_fst, hnone, slotStep_free rx hf hc]
  cases rest with
  | nil => exact Or.inr rfl
  | cons len data =>
    have h7 := hlen len rfl
    have hblank := FastPacket.blank_new rx.now rx.pgn rx.addr (seqOf b)
    rw [feedSlot_ok (FastPacket.takeFrame_zero _ b len data), checkComplete_first hblank data h7]
    exact Or.inl rfl

end Receive

theorem accept_reassembled {defs : PGNDefinitions} {fp : FastPacketHandler} {rx : Received}
    (prio : Nat) (h : (fp.sequences.lookup rx.key).isSome = true ∨
      fastPacketCheck defs rx.pgn = .ok true) :
    accept defs fp prio rx = match fp.receive rx with
      | (.ok payload, fp) => (.ok (payload.map (fun data => ⟨rx.pgn, prio, rx.addr, data⟩)), fp)
      | (.error (.fastPacket _), fp) => (.ok none, fp)
      | (.error e, fp) => (.error e, fp) := if_pos h

theorem accept_single {defs : PGNDefinitions} {fp : FastPacketHandler} {rx : Received} (prio : Nat)
    (hfree : (fp.sequences.lookup rx.key).isSome = false)
    (hcheck : fastPacketCheck defs rx.pgn = .ok false) :
    accept defs fp prio rx = (.ok (some ⟨rx.pgn, prio, rx.addr, rx.frame⟩), fp) :=
  if_neg (by simp [hfree, hcheck])

/-- No fast packet exception comes out. -/
theorem accept_ne_fastPacket (defs : PGNDefinitions) (fp : FastPacketHandler) (prio : Nat)
    (rx : Received) (text : String) : (accept defs fp prio rx).1 ≠ .error (.fastPacket text) := by
  by_cases h : (fp.sequences.lookup rx.key).isSome = true ∨ fastPacketCheck defs rx.pgn = .ok true
  · rw [accept_reassembled prio h]
    obtain ⟨r, fp'⟩ := fp.receive rx
    cases r with
    | ok o => exact fun h => by cases h
    | error e => cases e <;> exact fun h => by cases h
  · rw [accept, if_neg h]
    exact fun h => by cases h

/-- Alike tables accept alike. -/
theorem accept_alike (defs : PGNDefinitions) {fp fp' : FastPacketHandler} (ha : Alike fp fp')
    (prio : Nat) {rx rx' : Received} (hrx : rx.untimed = rx'.untimed) :
    (accept defs fp prio rx).1 = (accept defs fp' prio rx').1 ∧
      Alike (accept defs fp prio rx).2 (accept defs fp' prio rx').2 := by
  obtain ⟨now, pgn, addr, frame⟩ := rx
  obtain ⟨now', pgn', addr', frame'⟩ := rx'
  simp only [Received.untimed, Received.mk.injEq] at hrx
  obtain ⟨-, rfl, rfl, rfl⟩ := hrx
  have hkey : (⟨now, pgn, addr, frame⟩ : Received).key = (⟨now', pgn, addr, frame⟩ : Received).key :=
    rfl
  obtain ⟨h1, h2⟩ := ha.receive
    (show (⟨now, pgn, addr, frame⟩ : Received).untimed = (⟨now', pgn, addr, frame⟩ : Received).untimed
      from rfl)
  have hopen := ha.isSome_eq (⟨now, pgn, addr, frame⟩ : Received).key
  rw [accept, accept, ← hkey, ← hopen]
  split
  · generalize fp.receive ⟨now, pgn, addr, frame⟩ = result at h1 h2 ⊢
    generalize fp'.receive ⟨now', pgn, addr, frame⟩ = result' at h1 h2 ⊢
    obtain ⟨r, f⟩ := result
    obtain ⟨r', f'⟩ := result'
    obtain rfl : r = r' := h1
    cases r with
    | ok o => exact ⟨rfl, h2⟩
    | error e => cases e <;> exact ⟨rfl, h2⟩
  · exact ⟨rfl, ha⟩

/-! ## 2. The CAN interface -/

/-- The call of `process_frame` for a CAN frame. -/
def received (now : Time) (m : CanMessage) : Received := ⟨now, m.pgn, m.sa, m.data⟩

/-- `process_receive_msg` with a queue that takes every message, and the
message that it has put into the queue. -/
def canStep (defs : PGNDefinitions) (s : SocketCANInterface) (now : Time) (m : CanMessage) :
    Outcome × SocketCANInterface :=
  let (r, s') := s.processReceiveMsg defs now false m
  (r.map (fun _ => s'.queue[s.queue.length]?.map delivery), s')

theorem reassemble_accept (defs : PGNDefinitions) (s : SocketCANInterface) (now : Time)
    (m : CanMessage) (hne : m.data ≠ [])
    (h : (s.fpHandler.sequences.lookup (received now m).key).isSome = true ∨
      fastPacketCheck defs m.pgn = .ok true) :
    let r := s.reassemble now false m.pgn m.prio m.sa m.da m.data
    r.1.map (fun _ => r.2.queue[s.queue.length]?.map delivery)
        = (accept defs s.fpHandler m.prio (received now m)).1 ∧
      r.2.fpHandler = (accept defs s.fpHandler m.prio (received now m)).2 ∧
      r.2.addresses = s.addresses := by
  have hprocess : s.fpHandler.processFrame now m.pgn m.sa m.data
      = s.fpHandler.receive (received now m) := rfl
  have hcases := @receive_cases s.fpHandler (received now m) hne
  rw [@accept_reassembled _ _ (received now m) m.prio h]
  simp only [SocketCANInterface.reassemble, hprocess]
  generalize s.fpHandler.receive (received now m) = result at hcases ⊢
  obtain ⟨r, fp⟩ := result
  simp only at hcases
  rcases hcases with ⟨o, rfl⟩ | ⟨text, rfl⟩ | rfl
  · cases o with
    | none => simp [Except.map]
    | some data => simp [Except.map, SocketCANInterface.putMessage, delivery, NMEA2000Msg.of, received]
  · simp [Except.map]
  · simp [Except.map]

/-- The CAN interface accepts every frame for one of its addresses. -/
theorem can_accept {defs : PGNDefinitions} {s : SocketCANInterface} (now : Time) {m : CanMessage}
    (hda : m.da ∈ s.addresses) (hiso : m.pgn ≠ 60416 ∧ m.pgn ≠ 60160) (hne : m.data ≠ [])
    {fast : Bool} (hcheck : fastPacketCheck defs m.pgn = .ok fast) :
    (canStep defs s now m).1 = (accept defs s.fpHandler m.prio (received now m)).1 ∧
      (canStep defs s now m).2.fpHandler
        = (accept defs s.fpHandler m.prio (received now m)).2 ∧
      (canStep defs s now m).2.addresses = s.addresses := by
  have hactive := @isPgnActive_eq (received now m) (counted s).fpHandler hne
  change (counted s).fpHandler.isPgnActive m.pgn m.sa m.data = _ at hactive
  simp only [canStep]
  rw [processReceiveMsg_accepted defs now false hda, processAccepted, if_neg hiso.1,
    if_neg hiso.2, hactive]
  cases hopen : ((counted s).fpHandler.sequences.lookup (received now m).key).isSome with
  | true => exact reassemble_accept defs (counted s) now m hne (Or.inl hopen)
  | false =>
    rw [hcheck]
    cases fast with
    | true => exact reassemble_accept defs (counted s) now m hne (Or.inr hcheck)
    | false =>
      have hsingle := accept_single m.prio hopen hcheck
      change accept defs s.fpHandler m.prio (received now m) = _ at hsingle
      rw [hsingle]
      simp [Except.map, SocketCANInterface.putMessage, delivery, NMEA2000Msg.of, received, counted]

/-! ## 3. The other paths -/

section Paths

variable {defs : PGNDefinitions} {rx : Received} {fast : Bool}

/-- The ways of accepting a frame that a transfer may start with: by what the
reassembly does for an open key and for a free one, and without it. -/
inductive Accepting (defs : PGNDefinitions) (fp : FastPacketHandler) (prio : Nat) (rx : Received) :
    Prop where
  | message {data : Bytes} {fp' : FastPacketHandler}
      (hopen : (fp.sequences.lookup rx.key).isSome = true)
      (hr : fp.receive rx = (.ok (some data), fp'))
      (ha : accept defs fp prio rx = (.ok (some ⟨rx.pgn, prio, rx.addr, data⟩), fp'))
  | more {fp' : FastPacketHandler} (hopen : (fp.sequences.lookup rx.key).isSome = true)
      (hr : fp.receive rx = (.ok none, fp')) (ha : accept defs fp prio rx = (.ok none, fp'))
  | refused {text : String} {fp' : FastPacketHandler}
      (hopen : (fp.sequences.lookup rx.key).isSome = true)
      (hr : fp.receive rx = (.error (.fastPacket text), fp'))
      (ha : accept defs fp prio rx = (.ok none, fp'))
  | short {fp' : FastPacketHandler} (hopen : (fp.sequences.lookup rx.key).isSome = true)
      (hr : fp.receive rx = (.error .indexError, fp'))
      (ha : accept defs fp prio rx = (.error .indexError, fp'))
  | start {fp' : FastPacketHandler} (hfree : (fp.sequences.lookup rx.key).isSome = false)
      (hfast : fastPacketCheck defs rx.pgn = .ok true)
      (hr : fp.receive rx = (.ok none, fp')) (ha : accept defs fp prio rx = (.ok none, fp'))
  | shortStart {fp' : FastPacketHandler} (hfree : (fp.sequences.lookup rx.key).isSome = false)
      (hfast : fastPacketCheck defs rx.pgn = .ok true)
      (hr : fp.receive rx = (.error .indexError, fp'))
      (ha : accept defs fp prio rx = (.error .indexError, fp'))
  | single (hfree : (fp.sequences.lookup rx.key).isSome = false)
      (hsingle : fastPacketCheck defs rx.pgn = .ok false)
      (ha : accept defs fp prio rx = (.ok (some ⟨rx.pgn, prio, rx.addr, rx.frame⟩), fp))

theorem accepting {fp : FastPacketHandler} (prio : Nat) (hne : rx.frame ≠ [])
    (hcheck : fastPacketCheck defs rx.pgn = .ok fast) (hstart : Starts defs fp rx) :
    Accepting defs fp prio rx := by
  cases hopen : (fp.sequences.lookup rx.key).isSome with
  | true =>
    have haccept := accept_reassembled prio (Or.inl (b := fastPacketCheck defs rx.pgn = .ok true) hopen)
    have hcases := receive_cases fp hne
    obtain ⟨r, fp', hr⟩ : ∃ r fp', fp.receive rx = (r, fp') := ⟨_, _, rfl⟩
    rw [hr] at hcases haccept
    rcases hcases with ⟨o, rfl⟩ | ⟨text, rfl⟩ | rfl
    · cases o with
      | some data => exact .message hopen hr haccept
      | none => exact .more hopen hr haccept
    · exact .refused hopen hr haccept
    · exact .short hopen hr haccept
  | false =>
    cases fast with
    | true =>
      have haccept := accept_reassembled prio
        (Or.inr (a := (fp.sequences.lookup rx.key).isSome = true) hcheck)
      have hcases := receive_starts hne hopen hcheck hstart
      obtain ⟨r, fp', hr⟩ : ∃ r fp', fp.receive rx = (r, fp') := ⟨_, _, rfl⟩
      rw [hr] at hcases haccept
      rcases hcases with rfl | rfl
      · exact .start hopen hcheck hr haccept
      · exact .shortStart hopen hcheck hr haccept
    | false => exact .single hopen hcheck (accept_single prio hopen hcheck)

/-- The log replay accepts what a transfer may start with. -/
theorem log_accept (c : RawLogCoupler) (prio da : Nat) (hne : rx.frame ≠ [])
    (hcheck : fastPacketCheck defs rx.pgn = .ok fast)
    (hstart : Starts defs c.fastPacketHandler rx) :
    outcomeOf (c.reassemble defs rx.now rx.pgn prio rx.addr da rx.frame).1
        = (accept defs c.fastPacketHandler prio rx).1 ∧
      (c.reassemble defs rx.now rx.pgn prio rx.addr da rx.frame).2
        = { c with fastPacketHandler := (accept defs c.fastPacketHandler prio rx).2 } := by
  have hprocess : c.fastPacketHandler.processFrame rx.now rx.pgn rx.addr rx.frame
      = c.fastPacketHandler.receive rx := rfl
  rw [RawLogCoupler.reassemble, isPgnActive_eq _ hne, hprocess]
  cases accepting prio hne hcheck hstart with
  | message hopen hr ha => rw [hopen, hr, ha]; exact ⟨rfl, rfl⟩
  | more hopen hr ha => rw [hopen, hr, ha]; exact ⟨rfl, rfl⟩
  | refused hopen hr ha => rw [hopen, hr, ha]; exact ⟨rfl, rfl⟩
  | short hopen hr ha => rw [hopen, hr, ha]; exact ⟨rfl, rfl⟩
  | start hfree hfast hr ha => rw [hfree, hfast, hr, ha]; exact ⟨rfl, rfl⟩
  | shortStart hfree hfast hr ha => rw [hfree, hfast, hr, ha]; exact ⟨rfl, rfl⟩
  | single hfree hsingle ha => rw [hfree, hsingle, ha]; exact ⟨rfl, rfl⟩

/-- So does the Shipmodul interface. -/
theorem ship_accept (c : ShipModulInterface) (prio da : Nat) (hne : rx.frame ≠ [])
    (hcheck : fastPacketCheck defs rx.pgn = .ok fast)
    (hstart : Starts defs c.fastPacketHandler rx) :
    outcomeOf (c.reassemble defs rx.now rx.pgn prio rx.addr da rx.frame).1
        = (accept defs c.fastPacketHandler prio rx).1 ∧
      (c.reassemble defs rx.now rx.pgn prio rx.addr da rx.frame).2
        = { c with fastPacketHandler := (accept defs c.fastPacketHandler prio rx).2 } := by
  have hprocess : c.fastPacketHandler.processFrame rx.now rx.pgn rx.addr rx.frame
      = c.fastPacketHandler.receive rx := rfl
  rw [ShipModulInterface.reassemble, isPgnActive_eq _ hne, hprocess]
  cases accepting prio hne hcheck hstart with
  | message hopen hr ha => rw [hopen, hr, ha]; exact ⟨rfl, rfl⟩
  | more hopen hr ha => rw [hopen, hr, ha]; exact ⟨rfl, rfl⟩
  | refused hopen hr ha => rw [hopen, hr, ha]; exact ⟨rfl, rfl⟩
  | short hopen hr ha => rw [hopen, hr, ha]; exact ⟨rfl, rfl⟩
  | start hfree hfast hr ha => rw [hfree, hfast, hr, ha]; exact ⟨rfl, rfl⟩
  | shortStart hfree hfast hr ha => rw [hfree, hfast, hr, ha]; exact ⟨rfl, rfl⟩
  | single hfree hsingle ha => rw [hfree, hsingle, ha]; exact ⟨rfl, rfl⟩

/-- And the Yacht Devices coupler, where the definition of the PGN says the
same as `fast_packet_check`. -/
theorem yd_accept (c : YDCoupler) (prio : Nat) (hne : rx.frame ≠ [])
    (hcheck : fastPacketCheck defs rx.pgn = .ok fast)
    (hdefined : definedFastPacket defs rx.pgn = fastPacketCheck defs rx.pgn)
    (hstart : Starts defs c.fastPacketHandler rx) :
    outcomeOf (c.reassemble defs rx.now rx.pgn prio rx.addr rx.frame).1
        = (accept defs c.fastPacketHandler prio rx).1 ∧
      (c.reassemble defs rx.now rx.pgn prio rx.addr rx.frame).2
        = { c with fastPacketHandler := (accept defs c.fastPacketHandler prio rx).2 } := by
  have hprocess : c.fastPacketHandler.processFrame rx.now rx.pgn rx.addr rx.frame
      = c.fastPacketHandler.receive rx := rfl
  rw [YDCoupler.reassemble, isPgnActive_eq _ hne, hprocess, hdefined]
  cases accepting prio hne hcheck hstart with
  | message hopen hr ha => rw [hopen, hr, ha]; exact ⟨rfl, rfl⟩
  | more hopen hr ha => rw [hopen, hr, ha]; exact ⟨rfl, rfl⟩
  | refused hopen hr ha => rw [hopen, hr, ha]; exact ⟨rfl, rfl⟩
  | short hopen hr ha => rw [hopen, hr, ha]; exact ⟨rfl, rfl⟩
  | start hfree hfast hr ha => rw [hfree, hfast, hr, ha]; exact ⟨rfl, rfl⟩
  | shortStart hfree hfast hr ha => rw [hfree, hfast, hr, ha]; exact ⟨rfl, rfl⟩
  | single hfree hsingle ha => rw [hfree, hsingle, ha]; exact ⟨rfl, rfl⟩

/-- A defined PGN has one classification. -/
theorem definedFastPacket_of_defines {pgn : Nat} {d : PGNDef} (h : defs.Defines pgn d) :
    definedFastPacket defs pgn = fastPacketCheck defs pgn := by
  have hdef : ∃ d', defs.pgnDefinition pgn 0 = .ok (some d') ∧ defs.Defines pgn d' := by
    unfold PGNDefinitions.Defines at h ⊢
    rw [PGNDefinitions.pgnDefinition]
    cases hlook : defs.pgnDefs.lookup pgn with
    | none => simp [hlook] at h
    | some e =>
      cases e with
      | definition d' => exact ⟨d', rfl, rfl⟩
      | proprietarySet s =>
        obtain ⟨d', hd'⟩ := Option.isSome_iff_exists.mp (defs.wellFormed pgn _ hlook).2.default_isSome
        exact ⟨d', by simp [ProprietaryPGNSet.getVariant, hd'], Or.inl hd'⟩
  obtain ⟨d', hlook, hd'⟩ := hdef
  rw [fastPacketCheck_of_defines hd', definedFastPacket, hlook]
  rfl

end Paths

end NavigationServer.Couplers
