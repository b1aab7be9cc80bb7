/-
NavigationServer.CanInterface.SendTheorems — from one interface to another.

* `headerSurvives_iff` : a message that is sent and received. The identifier
  carries the header of every message (`decode_arbitrationId`); whether a
  message arrives is a matter of its payload.
* `isoBroadcast_iff` : a message sent over ISO transport. The two handlers
  understand each other for the payloads that `padded` leaves alone, and
  `send_broadcast_with_iso_tp` never gets to the packets.
-/
import NavigationServer.CanInterface.InterfaceTheorems
import NavigationServer.Nmea2000.IsoRoundTrip
import NavigationServer.Nmea2000.SplitDelivery

namespace NavigationServer.CanInterface

open NavigationServer.Lib
open NavigationServer.Nmea2000
open NavigationServer.Nmea2000Datamodel
open NavigationServer.RouterCore
open FastPacketHandler (splitFrames)
open SocketCANInterface (buildArbitrationId putCanMsgs)

/-! ## 1. The identifier -/

/-- A header as the senders use it: the PGN without a destination, a priority
and a source, and a destination that is 255 for a PDU2 PGN. -/
structure ValidHeader (msg : NMEA2000Msg) : Prop where
  pgn : ValidPgn msg.pgn
  prio : msg.prio < 8
  sa : msg.sa < 254
  da : msg.da < 256
  pdu2 : 240 ≤ msg.pgn / 256 % 256 → msg.da = 255

/-- The PGN field of the identifier of a message. -/
def pgnField (msg : NMEA2000Msg) : Nat :=
  if msg.pgn / 256 % 256 < 240 then msg.pgn + msg.da else msg.pgn

theorem pgnField_lt {msg : NMEA2000Msg} (h : ValidHeader msg) : pgnField msg < 0x20000 := by
  have hlt := h.pgn.1
  have hda := h.da
  unfold pgnField
  split
  · have := h.pgn.2 (by assumption)
    omega
  · exact hlt

theorem buildArbitrationId_eq {msg : NMEA2000Msg} (h : ValidHeader msg) :
    buildArbitrationId msg = msg.sa + pgnField msg * 256 + msg.prio * 67108864 := by
  have hsa := h.sa
  have hprio := h.prio
  have hfield := pgnField_lt h
  have hand : msg.prio &&& 7 = msg.prio := by
    rw [show (7 : Nat) = 2 ^ 3 - 1 from rfl, Nat.and_two_pow_sub_one_eq_mod]
    omega
  have hpgn : (if msg.pgn / 256 % 256 < 240 then msg.sa ||| (msg.pgn + msg.da) <<< 8
      else msg.sa ||| msg.pgn <<< 8) = pgnField msg <<< 8 + msg.sa := by
    unfold pgnField
    split <;> rw [Nat.shiftLeft_add_eq_or_of_lt (show msg.sa < 2 ^ 8 by omega), Nat.or_comm]
  rw [buildArbitrationId]
  simp only [pduFormat_eq]
  rw [hpgn, hand, Nat.shiftLeft_eq, Nat.or_comm,
    ← Nat.shiftLeft_add_eq_or_of_lt (show pgnField msg * 2 ^ 8 + msg.sa < 2 ^ 26 by omega),
    Nat.shiftLeft_eq]
  omega

/-- The four parts of the header of a message. -/
def header (msg : NMEA2000Msg) : Nat × Nat × Nat × Nat := (msg.pgn, msg.prio, msg.sa, msg.da)

/-- **The identifier carries the header.** -/
theorem decode_arbitrationId {msg : NMEA2000Msg} (h : ValidHeader msg) {m : CanMessage}
    (hm : m.arbitrationId = buildArbitrationId msg) :
    (m.pgn, m.prio, m.sa, m.da) = header msg := by
  have hid := buildArbitrationId_eq h
  have hsa := h.sa
  have hprio := h.prio
  have hfield := pgnField_lt h
  have hda := h.da
  have hraw : m.rawPgn = pgnField msg := by
    rw [CanMessage.rawPgn, hm, hid, Nat.shiftRight_eq_div_pow,
      show (0x1FFFF : Nat) = 2 ^ 17 - 1 from rfl, Nat.and_two_pow_sub_one_eq_mod]
    omega
  have hsa' : m.sa = msg.sa := by
    rw [CanMessage.sa, hm, hid, show (0xFF : Nat) = 2 ^ 8 - 1 from rfl,
      Nat.and_two_pow_sub_one_eq_mod]
    omega
  have hprio' : m.prio = msg.prio := by
    rw [CanMessage.prio, hm, hid, Nat.shiftRight_eq_div_pow, show (0x7 : Nat) = 2 ^ 3 - 1 from rfl,
      Nat.and_two_pow_sub_one_eq_mod]
    omega
  have hadjust : pgnPdu1Adjust (pgnField msg) = (msg.pgn, msg.da) := by
    unfold pgnField at hfield ⊢
    split at hfield
    · rename_i hf
      have hlow := h.pgn.2 hf
      rw [if_pos hf, pgnPdu1Adjust_pdu1 hfield (by omega)]
      exact Prod.ext (by simp only; omega) (by simp only; omega)
    · rename_i hf
      rw [if_neg hf, pgnPdu1Adjust_pdu2 (by omega), h.pdu2 (by omega)]
  rw [CanMessage.pgn, CanMessage.da, hraw, hadjust, hsa', hprio']
  rfl

theorem buildArbitrationId_lt {msg : NMEA2000Msg} (h : ValidHeader msg) :
    buildArbitrationId msg < 2 ^ 29 := by
  have hsa := h.sa
  have hprio := h.prio
  have hfield := pgnField_lt h
  rw [buildArbitrationId_eq h]
  omega

theorem header_eq_of_arbitrationId {msg msg' : NMEA2000Msg} (h : ValidHeader msg)
    (h' : ValidHeader msg') (hid : buildArbitrationId msg = buildArbitrationId msg') :
    header msg = header msg' := by
  rw [← decode_arbitrationId h (m := ⟨buildArbitrationId msg, []⟩) rfl]
  exact decode_arbitrationId h' hid

/-! ## 2. The frames that are sent -/

theorem putCanMsg_ok (s : SocketCANInterface) (canId : Nat) (data : Bytes) :
    s.putCanMsg false canId data
      = (.ok true, { s with inQueue := s.inQueue ++ [⟨canId, data⟩], writeErrors := 0 }) := rfl

/-- With room in the queue for all of them, the frames go there. -/
theorem putCanMsgs_room {full : Nat → Bool} (canId : Nat) (frames : List Bytes) :
    ∀ (i : Nat) (s : SocketCANInterface), (∀ j < frames.length, full (i + j) = false) →
      (putCanMsgs full canId frames i s).1 = .ok true ∧
      (putCanMsgs full canId frames i s).2.inQueue
        = s.inQueue ++ frames.map (CanMessage.mk canId) := by
  induction frames with
  | nil => exact fun i s _ => ⟨rfl, (List.append_nil _).symm⟩
  | cons data frames ih =>
    intro i s hroom
    have hfirst : full i = false := hroom 0 (Nat.zero_lt_succ _)
    rw [putCanMsgs, hfirst, putCanMsg_ok]
    simp only
    obtain ⟨hok, hqueue⟩ := ih (i + 1)
      { s with inQueue := s.inQueue ++ [⟨canId, data⟩], writeErrors := 0 } (by
        intro j hj
        rw [Nat.add_assoc, Nat.add_comm 1 j]
        exact hroom (j + 1) (by simpa using hj))
    exact ⟨hok, by rw [hqueue, List.append_assoc]; rfl⟩

theorem putCanMsg_result (s : SocketCANInterface) (full : Bool) (canId : Nat) (data : Bytes) :
    (s.putCanMsg full canId data).1
      = if full = true ∧ 10 ≤ s.writeErrors then
          .error (.socketCanError "Socket write buffer full") else .ok !full := by
  cases full with
  | false => simp [putCanMsg_ok]
  | true =>
    rw [SocketCANInterface.putCanMsg, if_pos rfl]
    by_cases h : 10 ≤ s.writeErrors
    · simp [h, show s.writeErrors + 1 > 10 by omega]
    · simp [h, show ¬ s.writeErrors + 1 > 10 by omega]

theorem putCanMsg_inQueue (s : SocketCANInterface) (full : Bool) (canId : Nat) (data : Bytes) :
    (s.putCanMsg full canId data).2.inQueue
      = if full then s.inQueue else s.inQueue ++ [⟨canId, data⟩] := by
  cases full with
  | false => rfl
  | true =>
    rw [SocketCANInterface.putCanMsg, if_pos rfl, if_pos rfl]
    dsimp only
    split <;> rfl

/-- When some frame is refused, the frames before it are put, and the result is
false, or the exception if the first frame is the eleventh refused in a row. -/
theorem putCanMsgs_refused (full : Nat → Bool) (canId : Nat) (frames : List Bytes) :
    ∀ (i : Nat) (s : SocketCANInterface), (∃ j < frames.length, full (i + j) = true) →
      (putCanMsgs full canId frames i s).1
          = (if full i = true ∧ 10 ≤ s.writeErrors then
              .error (.socketCanError "Socket write buffer full") else .ok false) ∧
      ∃ j < frames.length, (putCanMsgs full canId frames i s).2.inQueue
        = s.inQueue ++ (frames.take j).map (CanMessage.mk canId) := by
  induction frames with
  | nil => exact fun i s ⟨j, hj, _⟩ => absurd hj (Nat.not_lt_zero j)
  | cons data frames ih =>
    intro i s hrefused
    cases hfirst : full i with
    | true =>
      have hres := putCanMsg_result s true canId data
      have hqueue := putCanMsg_inQueue s true canId data
      rw [putCanMsgs, hfirst]
      split
      · rename_i hput
        rw [hput] at hres
        by_cases h : 10 ≤ s.writeErrors <;> simp [h] at hres
      · exact ⟨by simpa using hres, 0, Nat.zero_lt_succ _, by simpa using hqueue⟩
    | false =>
      obtain ⟨j, hj, hfull⟩ := hrefused
      have hlater : ∃ j < frames.length, full (i + 1 + j) = true := by
        cases j with
        | zero => rw [Nat.add_zero, hfirst] at hfull; cases hfull
        | succ j =>
          refine ⟨j, Nat.lt_of_succ_lt_succ hj, ?_⟩
          rwa [Nat.add_assoc, Nat.add_comm 1 j]
      rw [putCanMsgs, hfirst, putCanMsg_ok]
      simp only
      obtain ⟨hres, k, hk, hqueue⟩ := ih (i + 1)
        { s with inQueue := s.inQueue ++ [⟨canId, data⟩], writeErrors := 0 } hlater
      refine ⟨?_, k + 1, Nat.succ_lt_succ hk, ?_⟩
      · rw [hres]
        simp
      · rw [hqueue, List.append_assoc]
        rfl

/-- All frames are put exactly when none is refused. -/
theorem putCanMsgs_ok_iff (full : Nat → Bool) (canId : Nat) (frames : List Bytes)
    (s : SocketCANInterface) :
    (putCanMsgs full canId frames 0 s).1 = .ok true ↔ ∀ i < frames.length, full i = false := by
  constructor
  · intro hok
    by_contra hroom
    push Not at hroom
    obtain ⟨i, hi, hfull⟩ := hroom
    have hres := (putCanMsgs_refused full canId frames 0 s
      ⟨i, hi, by simpa using hfull⟩).1
    rw [hres] at hok
    split at hok <;> simp at hok
  · intro hroom
    exact (putCanMsgs_room canId frames 0 s (by simpa using hroom)).1

/-- An interface that is ready to send a message: it may send, its queue takes
the frames, and the sequence of the PGN is free. -/
structure Ready (s : SocketCANInterface) (full : Nat → Bool) (msg : NMEA2000Msg) (forceSend : Bool) :
    Prop where
  allowed : s.allowedSend = true ∨ forceSend = true
  room : ∀ i, full i = false
  free : (s.fpHandler.writeSequences.lookup msg.pgn).getD 0 = 0

/-- The data of the frames of a message. -/
def frameData (msg : NMEA2000Msg) : List Bytes :=
  if msg.fastPacket then (splitFrames msg.payload 1).1 else [msg.payload]

/-- The frames that `send` adds to the queue. -/
def queuedBy (s : SocketCANInterface) (full : Nat → Bool) (msg : NMEA2000Msg) (forceSend : Bool) :
    List CanMessage :=
  (s.send full msg forceSend).2.inQueue.drop s.inQueue.length

theorem queuedBy_eq {s : SocketCANInterface} {full : Nat → Bool} {msg : NMEA2000Msg}
    {forceSend : Bool} (h : Ready s full msg forceSend) :
    queuedBy s full msg forceSend
      = (frameData msg).map (CanMessage.mk (buildArbitrationId msg)) := by
  have hallowed : ¬ (¬ s.allowedSend = true ∧ ¬ forceSend = true) := by
    rcases h.allowed with h | h <;> simp [h]
  rw [queuedBy, SocketCANInterface.send, if_neg hallowed, frameData]
  cases hfast : msg.fastPacket with
  | false =>
    simp only [Bool.false_eq_true, if_false, h.room]
    rw [putCanMsg_ok, List.drop_left]
    rfl
  | true =>
    simp only [if_true, FastPacketHandler.allocateSeq, h.free]
    obtain ⟨frames, exn⟩ := splitFrames msg.payload 1
    have hput := putCanMsgs_room (buildArbitrationId msg) frames 0
      { s with fpHandler := { s.fpHandler with
        writeSequences := s.fpHandler.writeSequences.insert msg.pgn 1 } }
      (fun j _ => h.room (0 + j))
    simp only
    obtain ⟨hok, hqueue⟩ := hput
    generalize putCanMsgs full (buildArbitrationId msg) frames 0 _ = r at hok hqueue ⊢
    obtain ⟨out, s'⟩ := r
    simp only at hok hqueue
    subst hok
    cases exn <;> exact by rw [hqueue, List.drop_left]

/-! ## 3. The frames that are received -/

/-- What the reassembly of a frame does to the interface. -/
theorem reassemble_spec (s : SocketCANInterface) (now : Time) (pgn prio sa da : Nat) (data : Bytes) :
    (s.reassemble now false pgn prio sa da data).2.fpHandler
        = (s.fpHandler.receive ⟨now, pgn, sa, data⟩).2 ∧
    (s.reassemble now false pgn prio sa da data).2.queue
        = s.queue ++ (deliveries [(s.fpHandler.receive ⟨now, pgn, sa, data⟩).1]).map
            (.of pgn prio sa da) ∧
    (s.reassemble now false pgn prio sa da data).2.addresses = s.addresses := by
  rw [SocketCANInterface.reassemble, FastPacketHandler.receive]
  simp only
  obtain ⟨out, fp⟩ := s.fpHandler.processFrame now pgn sa data
  cases out with
  | ok out =>
    cases out with
    | none => exact ⟨rfl, (List.append_nil _).symm, rfl⟩
    | some buf => exact ⟨rfl, rfl, rfl⟩
  | error e => cases e <;> exact ⟨rfl, (List.append_nil _).symm, rfl⟩

/-- A frame of a fast packet PGN goes to the reassembly, open key or not. -/
theorem processReceiveMsg_fast {defs : PGNDefinitions} {s : SocketCANInterface} (now : Time)
    (full : Bool) {m : CanMessage} (hda : m.da ∈ s.addresses) (h1 : m.pgn ≠ 60416)
    (h2 : m.pgn ≠ 60160) (hfast : fastPacketCheck defs m.pgn = .ok true) (hdata : m.data ≠ []) :
    s.processReceiveMsg defs now full m
      = (counted s).reassemble now full m.pgn m.prio m.sa m.da m.data := by
  obtain ⟨b, rest, hb⟩ := List.exists_cons_of_ne_nil hdata
  rw [processReceiveMsg_accepted defs now full hda, processAccepted, if_neg h1, if_neg h2, hb,
    FastPacketHandler.isPgnActive]
  simp only [hfast]
  split
  · rename_i heq
    simp at heq
  · rename_i heq
    simp at heq
  · rfl
  · rfl

/-- A frame of any other PGN is a message. -/
theorem processReceiveMsg_single {defs : PGNDefinitions} {s : SocketCANInterface} (now : Time)
    {m : CanMessage} (hda : m.da ∈ s.addresses) (h1 : m.pgn ≠ 60416) (h2 : m.pgn ≠ 60160)
    (hfast : fastPacketCheck defs m.pgn = .ok false) {b : UInt8} {rest : Bytes}
    (hdata : m.data = b :: rest) (hclosed : ¬ KeyOpen s m b) :
    s.processReceiveMsg defs now false m
      = (.ok (), (counted s).putMessage false (.of m.pgn m.prio m.sa m.da m.data)) := by
  have hlook : ((counted s).fpHandler.sequences.lookup
      (FastPacket.computeKey m.pgn m.sa (FastPacketHandler.seqOf b))).isSome = false :=
    Bool.eq_false_iff.mpr hclosed
  rw [processReceiveMsg_accepted defs now false hda, processAccepted, if_neg h1, if_neg h2, hdata,
    FastPacketHandler.isPgnActive]
  simp only [hlook, hfast]

/-- A frame without data stops the reader. -/
theorem processReceiveMsg_empty {defs : PGNDefinitions} {s : SocketCANInterface} (now : Time)
    (full : Bool) {m : CanMessage} (hda : m.da ∈ s.addresses) (h1 : m.pgn ≠ 60416)
    (h2 : m.pgn ≠ 60160) (hdata : m.data = []) :
    s.processReceiveMsg defs now full m = (.error .indexError, counted s) := by
  rw [processReceiveMsg_accepted defs now full hda, processAccepted, if_neg h1, if_neg h2, hdata]
  rfl

/-- Frames that are handed to the reader, at any times, with room in its
queue. -/
def Handed (frames : List CanMessage) (inputs : List CanInput) : Prop :=
  inputs.map CanInput.msg = frames ∧ ∀ i ∈ inputs, i.full = false

/-- The call of `process_frame` for a frame. -/
def CanInput.received (i : CanInput) : Received := ⟨i.now, i.msg.pgn, i.msg.sa, i.msg.data⟩

/-- Frames of one header for the reassembly: the queue gets what they
complete. -/
theorem queue_reader_fast {defs : PGNDefinitions} {msg : NMEA2000Msg}
    (hiso : msg.pgn ≠ 60416 ∧ msg.pgn ≠ 60160) (hfast : fastPacketCheck defs msg.pgn = .ok true)
    {inputs : List CanInput} (hin : ∀ i ∈ inputs, i.full = false ∧
      (i.msg.pgn, i.msg.prio, i.msg.sa, i.msg.da) = header msg ∧ i.msg.data ≠ []) :
    ∀ {s : SocketCANInterface}, msg.da ∈ s.addresses →
      ((reader defs).final s inputs).queue
        = s.queue ++ (deliveries (reassembly.outs s.fpHandler
            (inputs.map CanInput.received))).map (.of msg.pgn msg.prio msg.sa msg.da) := by
  induction inputs with
  | nil => exact fun _ => (List.append_nil _).symm
  | cons i inputs ih =>
    intro s hda
    obtain ⟨hfull, hhead, hdata⟩ := hin i (by simp)
    simp only [header, Prod.mk.injEq] at hhead
    obtain ⟨hp, hpr, hs, hd⟩ := hhead
    have hstep : (reader defs).step s i
        = (counted s).reassemble i.now false i.msg.pgn i.msg.prio i.msg.sa i.msg.da i.msg.data := by
      rw [show (reader defs).step s i = s.processReceiveMsg defs i.now i.full i.msg from rfl, hfull]
      exact processReceiveMsg_fast i.now false (hd ▸ hda) (hp ▸ hiso.1) (hp ▸ hiso.2)
        (hp ▸ hfast) hdata
    obtain ⟨hfp, hqueue, haddr⟩ := reassemble_spec (counted s) i.now i.msg.pgn i.msg.prio i.msg.sa
      i.msg.da i.msg.data
    rw [Machine.final_cons, hstep, ih (fun j hj => hin j (by simp [hj])) (by rw [haddr]; exact hda),
      hqueue, hfp, hp, hpr, hs, hd, List.map_cons, Machine.outs_cons, List.append_assoc,
      ← List.map_append, ← deliveries_append]
    rw [show i.received = ⟨i.now, msg.pgn, msg.sa, i.msg.data⟩ by rw [CanInput.received, hp, hs]]
    rfl

/-- An interface that takes a message: its destination is accepted, and no
sequence of its PGN and source is open. -/
structure Accepting (r : SocketCANInterface) (msg : NMEA2000Msg) : Prop where
  da : msg.da ∈ r.addresses
  closed : ∀ seq < 8, r.fpHandler.sequences.lookup (FastPacket.computeKey msg.pgn msg.sa seq) = none

/-- The frames of a message are of one identifier, which no other header has,
and put one message on the queue of the receiver: the header arrives, and the
payload too if it is a single frame. -/
def HeaderSurvives (defs : PGNDefinitions) (r : SocketCANInterface) (msg : NMEA2000Msg)
    (queued : List CanMessage) (inputs : List CanInput) : Prop :=
  (∀ f ∈ queued, f.arbitrationId = buildArbitrationId msg) ∧
  buildArbitrationId msg < 2 ^ 29 ∧
  (∀ msg', ValidHeader msg' → buildArbitrationId msg = buildArbitrationId msg' →
    header msg = header msg') ∧
  ∃ msg', ((reader defs).final r inputs).queue = r.queue ++ [msg'] ∧ header msg' = header msg ∧
    (msg.fastPacket = false → msg'.payload = msg.payload)

/-- A payload that reaches the receiver. -/
def Carried (msg : NMEA2000Msg) : Prop :=
  if msg.fastPacket then FastCarried msg.payload else msg.payload ≠ []

/-- **From one interface to another.** -/
theorem headerSurvives_iff (defs : PGNDefinitions) (s r : SocketCANInterface) (full : Nat → Bool)
    (forceSend : Bool) (msg : NMEA2000Msg) (hready : Ready s full msg forceSend)
    (haccept : Accepting r msg) (hvalid : ValidHeader msg)
    (hiso : msg.pgn ≠ 60416 ∧ msg.pgn ≠ 60160)
    (hflag : fastPacketCheck defs msg.pgn = .ok msg.fastPacket) (inputs : List CanInput)
    (hin : Handed (queuedBy s full msg forceSend) inputs) :
    HeaderSurvives defs r msg (queuedBy s full msg forceSend) inputs ↔ Carried msg := by
  have hqueued := queuedBy_eq hready
  have hids : ∀ f ∈ queuedBy s full msg forceSend, f.arbitrationId = buildArbitrationId msg := by
    intro f hf
    rw [hqueued] at hf
    obtain ⟨data, -, rfl⟩ := List.mem_map.mp hf
    rfl
  have hstart : HeaderSurvives defs r msg (queuedBy s full msg forceSend) inputs ↔
      ∃ msg', ((reader defs).final r inputs).queue = r.queue ++ [msg'] ∧ header msg' = header msg ∧
        (msg.fastPacket = false → msg'.payload = msg.payload) :=
    ⟨fun h => h.2.2.2, fun h => ⟨hids, buildArbitrationId_lt hvalid,
      fun msg' hvalid' hid => header_eq_of_arbitrationId hvalid hvalid' hid, h⟩⟩
  rw [hstart, Carried]
  rw [hqueued] at hin
  have hheader : ∀ i ∈ inputs, (i.msg.pgn, i.msg.prio, i.msg.sa, i.msg.da) = header msg := by
    intro i hi
    have hmem : i.msg ∈ (frameData msg).map (CanMessage.mk (buildArbitrationId msg)) :=
      hin.1 ▸ List.mem_map_of_mem hi
    obtain ⟨data, -, hdata⟩ := List.mem_map.mp hmem
    exact decode_arbitrationId hvalid (by rw [← hdata])
  cases hfast : msg.fastPacket with
  | false =>
    rw [hfast] at hflag
    have hframes := hin.1
    rw [frameData, hfast] at hframes
    obtain ⟨i, rfl, hmsg⟩ := List.map_eq_singleton_iff.mp hframes
    have hhead := hheader i (by simp)
    simp only [header, Prod.mk.injEq] at hhead
    obtain ⟨hp, hpr, hs, hd⟩ := hhead
    have hdata : i.msg.data = msg.payload := by rw [hmsg]
    have hstep : (reader defs).step r i = r.processReceiveMsg defs i.now false i.msg := by
      rw [show (reader defs).step r i = r.processReceiveMsg defs i.now i.full i.msg from rfl,
        hin.2 i (by simp)]
    rw [Machine.final_cons, Machine.final_nil, hstep, if_neg (by simp)]
    cases hpayload : msg.payload with
    | nil =>
      rw [processReceiveMsg_empty i.now false (hd ▸ haccept.da) (hp ▸ hiso.1) (hp ▸ hiso.2)
        (hdata.trans hpayload)]
      refine iff_of_false ?_ (by simp)
      rintro ⟨msg', hqueue, -⟩
      simp [counted] at hqueue
    | cons b rest =>
      have hclosed : ¬ KeyOpen r i.msg b := by
        rw [KeyOpen, hp, hs, haccept.closed _ (FastPacketHandler.seqOf_lt b)]
        simp
      rw [processReceiveMsg_single i.now (hd ▸ haccept.da) (hp ▸ hiso.1) (hp ▸ hiso.2)
        (hp ▸ hflag) (hdata.trans hpayload) hclosed]
      refine iff_of_true ⟨_, rfl, ?_, fun _ => ?_⟩ (by simp)
      · rw [header, NMEA2000Msg.of, hp, hpr, hs, hd]
        rfl
      · rw [NMEA2000Msg.of, hdata, hpayload]
  | true =>
    rw [hfast] at hflag
    have hframes : inputs.map CanInput.msg
        = (splitFrames msg.payload 1).1.map (CanMessage.mk (buildArbitrationId msg)) := by
      rw [hin.1, frameData, hfast, if_pos rfl]
    have hfeeds : Feeds msg.pgn msg.sa (splitFrames msg.payload 1).1
        (inputs.map CanInput.received) := by
      refine ⟨?_, fun rx hrx => ?_⟩
      · have hdata := congrArg (List.map CanMessage.data) hframes
        simpa [Function.comp_def, CanInput.received] using hdata
      · obtain ⟨i, hi, rfl⟩ := List.mem_map.mp hrx
        have hhead := hheader i hi
        simp only [header, Prod.mk.injEq] at hhead
        exact ⟨hhead.1, hhead.2.2.1⟩
    have hkey := key_splitFrames hfeeds
    have hall : ∀ i ∈ inputs, i.full = false ∧
        (i.msg.pgn, i.msg.prio, i.msg.sa, i.msg.da) = header msg ∧ i.msg.data ≠ [] := by
      intro i hi
      obtain ⟨-, b, data, hb⟩ := hkey i.received (List.mem_map_of_mem hi)
      rw [CanInput.received] at hb
      exact ⟨hin.2 i hi, hheader i hi, by simp only at hb; rw [hb]; simp⟩
    rw [queue_reader_fast hiso hflag hall haccept.da,
      outs_reassembly _ _ (fun rx hrx => (hkey rx hrx).1), haccept.closed 1 (by omega), if_pos rfl,
      ← deliveries_splitFrames msg.payload hfeeds.1]
    obtain ⟨bufs, hbufs⟩ : ∃ bufs, bufs = deliveries (slotMachine.outs none
      (inputs.map CanInput.received)) := ⟨_, rfl⟩
    rw [← hbufs]
    constructor
    · rintro ⟨msg', hqueue, -⟩
      have hone := List.append_cancel_left hqueue
      simpa using congrArg List.length hone
    · intro hone
      obtain ⟨buf, rfl⟩ := List.length_eq_one_iff.mp hone
      exact ⟨_, rfl, rfl, by simp⟩

/-- A new interface that may send. -/
def allowedInterface : SocketCANInterface := { SocketCANInterface.new with allowedSend := true }

theorem ready_allowedInterface (msg : NMEA2000Msg) :
    Ready allowedInterface (fun _ => false) msg false := ⟨Or.inl rfl, fun _ => rfl, rfl⟩

theorem accepting_new {msg : NMEA2000Msg} (h : msg.da = 255) :
    Accepting SocketCANInterface.new msg := ⟨by rw [h]; exact List.mem_cons_self .., fun _ _ => rfl⟩

/-- Thirteen bytes under a proprietary fast packet PGN. -/
theorem headerSurvives_thirteen :
    HeaderSurvives PGNDefinitions.empty SocketCANInterface.new
      (.of 130820 2 3 255 [1, 2, 3, 4, 5, 6, 7, 8, 9, 10, 11, 12, 13])
      (queuedBy allowedInterface (fun _ => false)
        (.of 130820 2 3 255 [1, 2, 3, 4, 5, 6, 7, 8, 9, 10, 11, 12, 13]) false)
      [⟨0, false, ⟨0x09FF0403, [32, 13, 1, 2, 3, 4, 5, 6]⟩⟩,
        ⟨1, false, ⟨0x09FF0403, [33, 7, 8, 9, 10, 11, 12, 13]⟩⟩] :=
  (headerSurvives_iff PGNDefinitions.empty allowedInterface SocketCANInterface.new _ false _
    (ready_allowedInterface _) (accepting_new rfl)
    ⟨⟨by decide, by decide⟩, by decide, by decide, by decide, fun _ => rfl⟩ (by decide) rfl _
    ⟨by decide +kernel, by simp⟩).mpr (Or.inl (by decide))

/-- Three bytes under the same PGN do not arrive. -/
theorem not_headerSurvives_three :
    ValidHeader (.of 130820 2 3 255 [1, 2, 3]) ∧
    fastPacketCheck PGNDefinitions.empty 130820 = .ok true ∧
    Handed (queuedBy allowedInterface (fun _ => false) (.of 130820 2 3 255 [1, 2, 3]) false)
      [⟨0, false, ⟨0x09FF0403, [32, 3, 1, 2, 255, 255, 255, 255]⟩⟩] ∧
    ¬ HeaderSurvives PGNDefinitions.empty SocketCANInterface.new (.of 130820 2 3 255 [1, 2, 3])
      (queuedBy allowedInterface (fun _ => false) (.of 130820 2 3 255 [1, 2, 3]) false)
      [⟨0, false, ⟨0x09FF0403, [32, 3, 1, 2, 255, 255, 255, 255]⟩⟩] := by
  refine ⟨⟨⟨by decide, by decide⟩, by decide, by decide, by decide, fun _ => rfl⟩, rfl,
    ⟨by decide +kernel, by simp⟩, ?_⟩
  rintro ⟨-, -, -, msg', hqueue, -⟩
  have hnone : ((reader PGNDefinitions.empty).final SocketCANInterface.new
      [⟨0, false, ⟨0x09FF0403, [32, 3, 1, 2, 255, 255, 255, 255]⟩⟩]).queue = [] := rfl
  rw [hnone] at hqueue
  simp [SocketCANInterface.new] at hqueue

/-! ## 4. ISO transport -/

/-- The frames of a message, with the announce first. -/
def IsoFrames (msg : NMEA2000Msg) (tpcm : NMEA2000Msg) (frames : List Bytes) : Prop :=
  ∃ t, IsoTransportHandler.newOutputTransaction msg = .ok (tpcm, t) ∧ t.splitMessage = (frames, none)

/-- The frames of a message give it back to the handler `h` at the last one,
and leave no transaction. -/
def IsoDecodesBack (h : IsoTransportHandler) (prio : Nat) (msg : NMEA2000Msg) : Prop :=
  ∃ tpcm frames msg', IsoFrames msg tpcm frames ∧
    isoTransport.outs h (.announce msg.sa prio tpcm.payload :: frames.map (.packet msg.sa))
      = List.replicate frames.length (.ok none) ++ [.ok (some msg')] ∧
    msg'.pgn = msg.pgn ∧ msg'.sa = msg.sa ∧ msg'.payload = msg.payload ∧
    (isoTransport.final h (.announce msg.sa prio tpcm.payload ::
      frames.map (.packet msg.sa))).transactions.lookup msg.sa = none

/-- `send_broadcast_with_iso_tp` queues these frames and returns. -/
def IsoQueued (s : SocketCANInterface) (full : Nat → Bool) (msg : NMEA2000Msg) : Prop :=
  Returns (s.sendBroadcastWithIsoTp full msg).1 ∧
  ∃ tpcm frames, IsoFrames msg tpcm frames ∧
    (s.sendBroadcastWithIsoTp full msg).2.inQueue.map CanMessage.data
      = s.inQueue.map CanMessage.data ++ tpcm.payload :: frames

theorem packetCount_le {size : Nat} (h : size ≤ 1785) : packetCount size ≤ 255 := by
  unfold packetCount
  split <;> omega

/-- The handlers understand each other when nothing is padded away. -/
theorem isoDecodesBack_iff_padded (h : IsoTransportHandler) (prio : Nat) {msg : NMEA2000Msg}
    (hpgn : ValidPgn msg.pgn) (hne : msg.payload ≠ []) (hsize : msg.payload.length ≤ 1785) :
    IsoDecodesBack h prio msg ↔ padded msg.payload = msg.payload := by
  obtain ⟨tpcm, t, frames, hout, hsplit, -, houts, hfinal⟩ :=
    outs_announced h hpgn hne (packetCount_le hsize) msg.sa prio
  constructor
  · rintro ⟨tpcm', frames', msg', ⟨t', hout', hsplit'⟩, houts', -, -, hpayload, -⟩
    rw [hout, Except.ok.injEq, Prod.mk.injEq] at hout'
    obtain ⟨rfl, rfl⟩ := hout'
    rw [hsplit, Prod.mk.injEq] at hsplit'
    obtain ⟨rfl, -⟩ := hsplit'
    have hsame := List.append_cancel_left (houts.symm.trans houts')
    have hmsg : NMEA2000Msg.of msg.pgn prio msg.sa 255 (padded msg.payload) = msg' := by
      simpa using hsame
    exact (congrArg NMEA2000Msg.payload hmsg).trans hpayload
  · intro hpad
    exact ⟨tpcm, frames, _, ⟨t, hout, hsplit⟩, houts, rfl, rfl, hpad, hfinal⟩

/-- The message for the identifier of the packets has no payload: the call
raises after the announce, if it gets that far. -/
theorem not_isoQueued (s : SocketCANInterface) (full : Nat → Bool) (msg : NMEA2000Msg) :
    ¬ IsoQueued s full msg := by
  rintro ⟨⟨x, hx⟩, tpcm, frames, ⟨t, hout, -⟩, hqueue⟩
  rw [SocketCANInterface.sendBroadcastWithIsoTp, hout] at hx hqueue
  simp only at hx hqueue
  cases hfull : full 0 with
  | false =>
    rw [hfull, putCanMsg_ok] at hx
    simp [NMEA2000Msg.init] at hx
  | true =>
    -- the announce is refused, and nothing is queued
    rw [hfull, SocketCANInterface.putCanMsg, if_pos rfl] at hqueue
    simp only at hqueue
    split_ifs at hqueue
    · simp at hqueue
    · simp at hqueue

/-- **ISO transport, sent and received.** For every message of 9 to 1785
bytes: the handlers give the payload back exactly when its size is a multiple
of 7 or it ends with 0xFF, and the interface never queues its frames. -/
theorem isoBroadcast_iff (h : IsoTransportHandler) (prio : Nat) (s : SocketCANInterface)
    (full : Nat → Bool) (msg : NMEA2000Msg) (hpgn : ValidPgn msg.pgn)
    (h9 : 9 ≤ msg.payload.length) (hsize : msg.payload.length ≤ 1785) :
    (IsoDecodesBack h prio msg ↔
      msg.payload.length % 7 = 0 ∨ msg.payload.getLast? = some 0xFF) ∧
    ¬ (IsoDecodesBack h prio msg ∧ IsoQueued s full msg) := by
  have hne : msg.payload ≠ [] := fun hnil => by simp [hnil] at h9
  exact ⟨(isoDecodesBack_iff_padded h prio hpgn hne hsize).trans (padded_eq_iff hne),
    fun hboth => not_isoQueued s full msg hboth.2⟩

/-- Fourteen bytes come back, and are not sent. -/
theorem isoBroadcast_fourteen :
    (IsoDecodesBack .new 6 (.of 129029 7 3 255 [1, 2, 3, 4, 5, 6, 7, 8, 9, 10, 11, 12, 13, 14]) ↔
      14 % 7 = 0 ∨
        [1, 2, 3, 4, 5, 6, 7, 8, 9, 10, 11, 12, 13, 14].getLast? = some (0xFF : UInt8)) ∧
    ¬ (IsoDecodesBack .new 6
        (.of 129029 7 3 255 [1, 2, 3, 4, 5, 6, 7, 8, 9, 10, 11, 12, 13, 14]) ∧
      IsoQueued allowedInterface (fun _ => false)
        (.of 129029 7 3 255 [1, 2, 3, 4, 5, 6, 7, 8, 9, 10, 11, 12, 13, 14])) :=
  isoBroadcast_iff .new 6 allowedInterface _ _ ⟨by decide, by decide⟩ (by decide) (by decide)

/-- Nine bytes: the interface raises, and the handler returns 0xFF for the
last of them. -/
theorem not_isoBroadcast_nine :
    (allowedInterface.sendBroadcastWithIsoTp (fun _ => false)
      (.of 129029 7 3 255 [1, 2, 3, 4, 5, 6, 7, 8, 9])).1 = .error .valueError ∧
    isoTransport.outs .new [.announce 3 7 [32, 9, 0, 2, 255, 5, 248, 1],
        .packet 3 [1, 1, 2, 3, 4, 5, 6, 7], .packet 3 [2, 8, 255, 3, 4, 5, 6, 255]]
      = [.ok none, .ok none, .ok (some (.of 129029 7 3 255 [1, 2, 3, 4, 5, 6, 7, 8, 255]))] ∧
    ¬ (IsoDecodesBack .new 7 (.of 129029 7 3 255 [1, 2, 3, 4, 5, 6, 7, 8, 9]) ∧
      IsoQueued allowedInterface (fun _ => false)
        (.of 129029 7 3 255 [1, 2, 3, 4, 5, 6, 7, 8, 9])) :=
  ⟨rfl, rfl, fun hboth => not_isoQueued _ _ _ hboth.2⟩

end NavigationServer.CanInterface
