/-
NavigationServer.CanInterface.MessageFrames — the frames of one message on their
way: what `send` puts of them, and what a reader makes of those that were put.

`all_frames` and `some_frames` are about the reader: the message, or nothing for
a fast packet of which a frame was refused, and what stays open behind it.
`sendEffect` is about the sender: nothing, all frames, or the first ones of a
fast packet, which keeps its sequence.

A fast packet that was cut short is the hard case: its frames leave an entry open in the
readers. But `send` then never frees the sequence of that PGN, so no further fast packet
of the PGN is put, and none can meet that entry. For all other PGNs the reader is as clear
as before (`Clear`).
-/
import NavigationServer.CanInterface.Bus
import NavigationServer.CanInterface.SourceIsolation
import NavigationServer.Couplers.SendersTheorems

namespace NavigationServer.CanInterface

open NavigationServer.Lib
open NavigationServer.Nmea2000
open NavigationServer.Nmea2000Datamodel
open NavigationServer.RouterCore
open FastPacketHandler (splitFrames)
open SocketCANInterface (buildArbitrationId putCanMsgs)

/-! ## 1. Messages -/

/-- A message that a node may send: its own address, a header and a payload that
its frames carry, and the flag that the receivers compute. -/
structure Sendable (defs : PGNDefinitions) (a : Nat) (msg : NMEA2000Msg) : Prop where
  header : ValidHeader msg
  source : msg.sa = a
  notIso : msg.pgn ≠ 60416 ∧ msg.pgn ≠ 60160
  flag : fastPacketCheck defs msg.pgn = .ok msg.fastPacket
  fast : msg.fastPacket = true → 6 ≤ msg.payload.length ∧ msg.payload.length ≤ 223
  single : msg.fastPacket = false → 1 ≤ msg.payload.length ∧ msg.payload.length ≤ 8

/-- What the reassembly makes of a payload: one byte of the padding is kept if
there is any, and a payload of six bytes loses its last one to it. -/
def withPadding (payload : Bytes) : Bytes :=
  if payload.length = 6 then payload.take 5 ++ [0xFF]
  else payload ++ (if payload.length % 7 = 6 then [] else [0xFF])

/-- The message that a receiver puts on its queue. -/
def delivered (msg : NMEA2000Msg) : NMEA2000Msg :=
  .of msg.pgn msg.prio msg.sa msg.da
    (if msg.fastPacket then withPadding msg.payload else msg.payload)

/-- What a receiver with these addresses gets of some messages. -/
def arriving (addresses : List Nat) (msgs : List NMEA2000Msg) : List NMEA2000Msg :=
  (msgs.filter (fun msg => decide (msg.da ∈ addresses))).map delivered

/-- What arrives of two lists of messages. -/
theorem arriving_append (addresses : List Nat) (msgs more : List NMEA2000Msg) :
    arriving addresses (msgs ++ more) = arriving addresses msgs ++ arriving addresses more := by
  rw [arriving, List.filter_append, List.map_append]
  rfl

/-- The buffer of a transfer is the payload with its padding. -/
theorem buffer_ofPayload_withPadding {data : Bytes} (h6 : 6 ≤ data.length)
    (h223 : data.length ≤ 223) : (Transfer.ofPayload data h6 h223).buffer = withPadding data := by
  unfold withPadding
  split
  · rename_i h
    exact Transfer.buffer_ofPayload_six h
  · exact Transfer.buffer_ofPayload (by omega)

/-! ## 2. The frames of one message in a reader -/

/-- No sequence of the PGN and the source is open. -/
def Clear (s : SocketCANInterface) (pgn a : Nat) : Prop :=
  ∀ seq < 8, s.fpHandler.sequences.lookup (FastPacket.computeKey pgn a seq) = none

/-- The reader never changes the addresses that it accepts. -/
theorem addresses_process (defs : PGNDefinitions) (s : SocketCANInterface) (now : Time) (full : Bool)
    (m : CanMessage) : (s.processReceiveMsg defs now full m).2.addresses = s.addresses := by
  by_cases hda : m.da ∈ s.addresses
  · rw [processReceiveMsg_accepted defs now full hda]
    by_cases hiso : m.pgn = 60416 ∨ m.pgn = 60160
    · rw [processAccepted_iso defs _ now full hiso]
      rfl
    · rw [processAccepted_plain defs _ now full hiso]
      cases (counted s).fpHandler.isPgnActive m.pgn m.sa m.data with
      | error e => rfl
      | ok active =>
        simp only
        cases (if active then .ok true else fastPacketCheck defs m.pgn) with
        | error e => rfl
        | ok fast =>
          cases fast with
          | true =>
            simp only
            rw [reassemble_eq]
            rfl
          | false => cases full <;> rfl
  · rw [processReceiveMsg_ignored defs now full hda]

/-- Nor does a run of it, by induction on the frames. -/
theorem addresses_final (defs : PGNDefinitions) (inputs : List CanInput) :
    ∀ s : SocketCANInterface, ((reader defs).final s inputs).addresses = s.addresses := by
  induction inputs with
  | nil => exact fun _ => rfl
  | cons i inputs ih =>
    intro s
    rw [Machine.final_cons, ih]
    exact addresses_process defs s i.now i.full i.msg

/-- Frames for other addresses are left alone. -/
theorem final_ignored (defs : PGNDefinitions) {s : SocketCANInterface} {inputs : List CanInput}
    (h : ∀ i ∈ inputs, i.msg.da ∉ s.addresses) : (reader defs).final s inputs = s := by
  induction inputs with
  | nil => rfl
  | cons i inputs ih =>
    have hstep : (reader defs).step s i = (.ok (), s) :=
      processReceiveMsg_ignored defs i.now i.full (h i List.mem_cons_self)
    rw [Machine.final_cons, hstep]
    exact ih (fun j hj => h j (List.mem_cons_of_mem _ hj))

/-- Frames of one header for the reassembly: the table is that of the handler
alone. -/
theorem fpHandler_reader_fast {defs : PGNDefinitions} {msg : NMEA2000Msg}
    (hiso : msg.pgn ≠ 60416 ∧ msg.pgn ≠ 60160) (hfast : fastPacketCheck defs msg.pgn = .ok true)
    {inputs : List CanInput} (hin : ∀ i ∈ inputs,
      (i.msg.pgn, i.msg.prio, i.msg.sa, i.msg.da) = header msg ∧ i.msg.data ≠ []) :
    ∀ {s : SocketCANInterface}, msg.da ∈ s.addresses →
      ((reader defs).final s inputs).fpHandler
        = reassembly.final s.fpHandler (inputs.map CanInput.received) := by
  induction inputs with
  | nil => exact fun _ => rfl
  | cons i inputs ih =>
    intro s hda
    obtain ⟨hhead, hdata⟩ := hin i List.mem_cons_self
    simp only [header, Prod.mk.injEq] at hhead
    obtain ⟨hp, -, -, hd⟩ := hhead
    have hstep : (reader defs).step s i
        = (counted s).reassemble i.now i.full i.msg.pgn i.msg.prio i.msg.sa i.msg.da i.msg.data :=
      processReceiveMsg_fast i.now i.full (hd ▸ hda) (hp ▸ hiso.1) (hp ▸ hiso.2) (hp ▸ hfast) hdata
    rw [Machine.final_cons, hstep, reassemble_eq,
      ih (fun j hj => hin j (List.mem_cons_of_mem _ hj)) (by exact hda), List.map_cons,
      Machine.final_cons]
    rfl

/-- The frames of a message are of its identifier, and have its header. -/
theorem header_of_mem_frames {msg : NMEA2000Msg} (hvalid : ValidHeader msg) {m : CanMessage}
    (hm : m ∈ (frameData msg).map (CanMessage.mk (buildArbitrationId msg))) :
    (m.pgn, m.prio, m.sa, m.da) = header msg ∧ m.data ∈ frameData msg := by
  obtain ⟨data, hdata, rfl⟩ := List.mem_map.mp hm
  exact ⟨decode_arbitrationId hvalid rfl, hdata⟩

section Segment

variable {defs : PGNDefinitions} {a : Nat} {msg : NMEA2000Msg} {s : SocketCANInterface}
  {inputs : List CanInput} {j : Nat}

/-- The first `j` frames of a message, handed to a reader. -/
def HandsFirst (j : Nat) (msg : NMEA2000Msg) (inputs : List CanInput) : Prop :=
  Handed (((frameData msg).take j).map (CanMessage.mk (buildArbitrationId msg))) inputs

/-- Every frame of a message has its header. -/
theorem HandsFirst.header (hin : HandsFirst j msg inputs) (hvalid : ValidHeader msg) :
    ∀ i ∈ inputs, (i.msg.pgn, i.msg.prio, i.msg.sa, i.msg.da) = CanInterface.header msg := by
  intro i hi
  have hmem : i.msg ∈ ((frameData msg).take j).map (CanMessage.mk (buildArbitrationId msg)) :=
    hin.1 ▸ List.mem_map_of_mem hi
  exact (header_of_mem_frames hvalid (List.map_subset _ (List.take_subset j _) hmem)).1

/-- The calls for them, and calls for the other frames behind. -/
theorem HandsFirst.feeds (hin : HandsFirst j msg inputs) (hvalid : ValidHeader msg)
    (hfast : msg.fastPacket = true) :
    ∃ rest, Feeds msg.pgn msg.sa (splitFrames msg.payload 1).1
        (inputs.map CanInput.received ++ rest) ∧
      rest.length = (frameData msg).length - j := by
  refine ⟨((frameData msg).drop j).map (Received.mk 0 msg.pgn msg.sa), ⟨?_, fun rx hrx => ?_⟩, ?_⟩
  · have hmsgs := congrArg (List.map CanMessage.data) hin.1
    have hframes : (inputs.map CanInput.received).map Received.frame = (frameData msg).take j := by
      rw [List.map_map]
      simpa [Function.comp_def, CanInput.received] using hmsgs
    rw [List.map_append, hframes, List.map_map,
      show (Received.frame ∘ Received.mk 0 msg.pgn msg.sa) = id from rfl, List.map_id,
      List.take_append_drop, frameData, if_pos hfast]
  · rcases List.mem_append.mp hrx with hrx | hrx
    · obtain ⟨i, hi, rfl⟩ := List.mem_map.mp hrx
      have hhead := hin.header hvalid i hi
      simp only [CanInterface.header, Prod.mk.injEq] at hhead
      exact ⟨hhead.1, hhead.2.2.1⟩
    · obtain ⟨data, -, rfl⟩ := List.mem_map.mp hrx
      exact ⟨rfl, rfl⟩
  · rw [List.length_map, List.length_drop]

/-- What they make of a free slot: nothing, or with the last one the buffer and
a free slot. -/
theorem outs_firstFrames (h6 : 6 ≤ msg.payload.length) (h223 : msg.payload.length ≤ 223)
    {rxs rest : List Received} {pgn addr : Nat}
    (h : Feeds pgn addr (splitFrames msg.payload 1).1 (rxs ++ rest)) :
    (deliveries (slotMachine.outs none rxs) = if rest = [] then [withPadding msg.payload] else []) ∧
      (rest = [] → slotMachine.final none rxs = none) := by
  have hrun := outs_transfer (List.Perm.refl _)
    (h.1.trans (by rw [frames_ofPayload h6 h223, Transfer.frames]))
  rw [buffer_ofPayload_withPadding h6 h223] at hrun
  by_cases hrest : rest = []
  · subst hrest
    rw [List.append_nil] at hrun
    rw [if_pos rfl, hrun.1, deliveries_append, deliveries_replicate]
    exact ⟨rfl, fun _ => hrun.2⟩
  · refine ⟨?_, fun hnil => absurd hnil hrest⟩
    have hlength := congrArg List.length hrun.1
    have hpos := List.length_pos_iff.mpr hrest
    rw [Machine.length_outs, List.length_append, List.length_append, List.length_replicate,
      List.length_singleton] at hlength
    have houts := congrArg (List.take rxs.length) hrun.1
    rw [Machine.outs_append, List.take_left' (slotMachine.length_outs none rxs),
      List.take_append_of_le_length (by rw [List.length_replicate]; omega), List.take_replicate]
      at houts
    rw [if_neg hrest, houts, deliveries_replicate]

/-- **The first frames of a fast packet**, where its sequence is not open:
nothing before the last one, and the message with it. The sequences of the other
PGNs stay as they are. -/
theorem fast_frames (h : Sendable defs a msg) (hfast : msg.fastPacket = true)
    (hda : msg.da ∈ s.addresses) (hclear : Clear s msg.pgn a) (hin : HandsFirst j msg inputs) :
    ((reader defs).final s inputs).queue
        = s.queue ++ (if j < (frameData msg).length then [] else [delivered msg]) ∧
      (∀ pgn < 0x20000, pgn ≠ msg.pgn → Clear s pgn a → Clear ((reader defs).final s inputs) pgn a) ∧
      ((frameData msg).length ≤ j → Clear ((reader defs).final s inputs) msg.pgn a) := by
  obtain ⟨h6, h223⟩ := h.fast hfast
  have hcheck : fastPacketCheck defs msg.pgn = .ok true := hfast ▸ h.flag
  obtain ⟨rest, hfeeds, hlength⟩ := hin.feeds h.header hfast
  have hkeys := key_splitFrames hfeeds
  have hkey : ∀ rx ∈ inputs.map CanInput.received,
      rx.key = FastPacket.computeKey msg.pgn a 1 := by
    intro rx hrx
    rw [← h.source]
    exact (hkeys rx (List.mem_append_left _ hrx)).1
  have hall : ∀ i ∈ inputs, (i.msg.pgn, i.msg.prio, i.msg.sa, i.msg.da) = CanInterface.header msg ∧
      i.msg.data ≠ [] := by
    intro i hi
    obtain ⟨-, b, data, hb⟩ := hkeys i.received (List.mem_append_left _ (List.mem_map_of_mem hi))
    exact ⟨hin.header h.header i hi, fun hnil => by
      rw [CanInput.received, hnil] at hb; simp at hb⟩
  have hfree := hclear 1 (by omega)
  have htable := fpHandler_reader_fast h.notIso hcheck hall hda
  obtain ⟨hbuffers, hend⟩ := outs_firstFrames h6 h223 hfeeds
  refine ⟨?_, fun pgn hpgn hne hpgnClear seq hseq => ?_, fun hlast seq hseq => ?_⟩
  · rw [queue_reader_fast h.notIso hcheck (fun i hi => ⟨hin.2 i hi, hall i hi⟩) hda,
      outs_reassembly _ _ hkey, hfree, hbuffers]
    by_cases hlt : j < (frameData msg).length
    · rw [if_pos hlt, if_neg (List.ne_nil_of_length_pos (by omega))]
      rfl
    · rw [if_neg hlt, if_pos (List.eq_nil_of_length_eq_zero (by omega)), delivered, if_pos hfast]
      rfl
  · have hlow := h.header.pgn.1
    have hsa : a < 254 := h.source ▸ h.header.sa
    have hother : FastPacket.computeKey msg.pgn a 1 ≠ FastPacket.computeKey pgn a seq :=
      fun heq => hne (FastPacket.computeKey_inj (by omega) (by omega) (by omega) (by omega) heq).1.symm
    rw [htable]
    exact (reassembly.slot_final_of_ne (fun rx hrx => (hkey rx hrx).trans_ne hother) s.fpHandler).trans
      (hpgnClear seq hseq)
  · have hnil : rest = [] := List.eq_nil_of_length_eq_zero (by omega)
    rw [htable]
    by_cases hone : seq = 1
    · subst hone
      rw [lookup_reassembly _ _ hkey, hfree]
      exact hend hnil
    · have hother : FastPacket.computeKey msg.pgn a 1 ≠ FastPacket.computeKey msg.pgn a seq :=
        computeKey_seq_ne (Ne.symm hone)
      exact (reassembly.slot_final_of_ne (fun rx hrx => (hkey rx hrx).trans_ne hother)
        s.fpHandler).trans (hclear seq hseq)

/-- A single frame: the message, and no sequence is opened. -/
theorem single_frame (h : Sendable defs a msg) (hfast : msg.fastPacket = false)
    (hda : msg.da ∈ s.addresses) (hclear : Clear s msg.pgn a)
    (hin : HandsFirst (frameData msg).length msg inputs) :
    ((reader defs).final s inputs).queue = s.queue ++ [delivered msg] ∧
      ((reader defs).final s inputs).fpHandler = s.fpHandler := by
  have hcheck : fastPacketCheck defs msg.pgn = .ok false := hfast ▸ h.flag
  have hframes := hin.1
  rw [List.take_length, frameData, hfast] at hframes
  obtain ⟨i, rfl, hmsg⟩ := List.map_eq_singleton_iff.mp hframes
  have hhead := hin.header h.header i (by simp)
  simp only [CanInterface.header, Prod.mk.injEq] at hhead
  obtain ⟨hp, hpr, hs, hd⟩ := hhead
  obtain ⟨b, rest, hpayload⟩ := List.exists_cons_of_length_pos (h.single hfast).1
  have hdata : i.msg.data = b :: rest := by rw [hmsg]; exact hpayload
  have hopen : ¬ KeyOpen s i.msg b := by
    rw [KeyOpen, hp, hs, h.source, hclear _ (FastPacketHandler.seqOf_lt b)]
    simp
  have hstep : (reader defs).step s i
      = (.ok (), (counted s).putMessage false (.of i.msg.pgn i.msg.prio i.msg.sa i.msg.da i.msg.data)) := by
    rw [show (reader defs).step s i = s.processReceiveMsg defs i.now i.full i.msg from rfl,
      hin.2 i (by simp)]
    exact processReceiveMsg_single i.now (hd ▸ hda) (hp ▸ h.notIso.1) (hp ▸ h.notIso.2)
      (hp ▸ hcheck) hdata hopen
  rw [Machine.final_cons, Machine.final_nil, hstep, delivered, if_neg (by simp [hfast]), hp, hpr, hs,
    hd, hdata, hpayload]
  exact ⟨rfl, rfl⟩

/-- **All frames of a message**, accepted or not. -/
theorem all_frames (h : Sendable defs a msg) (hclear : Clear s msg.pgn a)
    (hin : HandsFirst (frameData msg).length msg inputs) :
    ((reader defs).final s inputs).queue = s.queue ++ arriving s.addresses [msg] ∧
      ∀ pgn < 0x20000, Clear s pgn a → Clear ((reader defs).final s inputs) pgn a := by
  by_cases hda : msg.da ∈ s.addresses
  · rw [show arriving s.addresses [msg] = [delivered msg] by simp [arriving, hda]]
    cases hfast : msg.fastPacket with
    | true =>
      obtain ⟨hqueue, hothers, hown⟩ := fast_frames h hfast hda hclear hin
      rw [if_neg (Nat.lt_irrefl _)] at hqueue
      refine ⟨hqueue, fun pgn hpgn hpgnClear => ?_⟩
      by_cases hp : pgn = msg.pgn
      · rw [hp]
        exact hown (Nat.le_refl _)
      · exact hothers pgn hpgn hp hpgnClear
    | false =>
      obtain ⟨hqueue, htable⟩ := single_frame h hfast hda hclear hin
      refine ⟨hqueue, fun pgn _ hpgnClear => ?_⟩
      rw [Clear, htable]
      exact hpgnClear
  · have hsame : (reader defs).final s inputs = s := by
      refine final_ignored defs (fun i hi => ?_)
      have hhead := hin.header h.header i hi
      simp only [CanInterface.header, Prod.mk.injEq] at hhead
      rw [hhead.2.2.2]
      exact hda
    rw [hsame, show arriving s.addresses [msg] = [] by simp [arriving, hda], List.append_nil]
    exact ⟨rfl, fun _ _ hpgnClear => hpgnClear⟩

/-- **The frames of a fast packet of which one was refused.** -/
theorem some_frames (h : Sendable defs a msg) (hfast : msg.fastPacket = true)
    (hclear : Clear s msg.pgn a) (hj : j < (frameData msg).length)
    (hin : HandsFirst j msg inputs) :
    ((reader defs).final s inputs).queue = s.queue ∧
      ∀ pgn < 0x20000, pgn ≠ msg.pgn → Clear s pgn a →
        Clear ((reader defs).final s inputs) pgn a := by
  by_cases hda : msg.da ∈ s.addresses
  · obtain ⟨hqueue, hothers, -⟩ := fast_frames h hfast hda hclear hin
    rw [if_pos hj, List.append_nil] at hqueue
    exact ⟨hqueue, hothers⟩
  · have hsame : (reader defs).final s inputs = s := by
      refine final_ignored defs (fun i hi => ?_)
      have hhead := hin.header h.header i hi
      simp only [CanInterface.header, Prod.mk.injEq] at hhead
      rw [hhead.2.2.2]
      exact hda
    rw [hsame]
    exact ⟨rfl, fun _ _ _ hpgnClear => hpgnClear⟩

end Segment

/-! ## 3. What a call of `send` does -/

/-- The parts that the reader works on are the same. -/
structure SameReader (s s' : SocketCANInterface) : Prop where
  addresses : s'.addresses = s.addresses
  sequences : s'.fpHandler.sequences = s.fpHandler.sequences
  isoTpHandler : s'.isoTpHandler = s.isoTpHandler
  queue : s'.queue = s.queue

theorem SameReader.refl (s : SocketCANInterface) : SameReader s s := ⟨rfl, rfl, rfl, rfl⟩

/-- Two calls leave the reader as one does. -/
theorem SameReader.trans {s s' s'' : SocketCANInterface} (h : SameReader s s')
    (h' : SameReader s' s'') : SameReader s s'' :=
  ⟨h'.addresses.trans h.addresses, h'.sequences.trans h.sequences,
    h'.isoTpHandler.trans h.isoTpHandler, h'.queue.trans h.queue⟩

/-- A frame for the queue of the writer does not touch the reader. -/
theorem sameReader_putCanMsg (s : SocketCANInterface) (full : Bool) (canId : Nat) (data : Bytes) :
    SameReader s (s.putCanMsg full canId data).2 := by
  rw [SocketCANInterface.putCanMsg]
  dsimp only
  split_ifs <;> exact ⟨rfl, rfl, rfl, rfl⟩

/-- Nor do all frames of a message, by induction on them. -/
theorem sameReader_putCanMsgs (full : Nat → Bool) (canId : Nat) (frames : List Bytes) :
    ∀ (i : Nat) (s : SocketCANInterface), SameReader s (putCanMsgs full canId frames i s).2 := by
  induction frames with
  | nil => exact fun _ s => .refl s
  | cons data frames ih =>
    intro i s
    have hput := sameReader_putCanMsg s (full i) canId data
    rw [putCanMsgs]
    split
    · rename_i s' h
      rw [h] at hput
      exact hput.trans (ih (i + 1) s')
    · exact hput

/-- So `send` does not touch it. -/
theorem sameReader_send (s : SocketCANInterface) (full : Nat → Bool) (msg : NMEA2000Msg)
    (forceSend : Bool) : SameReader s (s.send full msg forceSend).2 := by
  rw [SocketCANInterface.send]
  split
  · exact .refl s
  cases msg.fastPacket with
  | false => exact sameReader_putCanMsg s (full 0) (buildArbitrationId msg) msg.payload
  | true =>
    rw [if_pos rfl]
    by_cases hfree : s.fpHandler.SequenceFree msg.pgn
    · rw [FastPacketHandler.allocateSeq_free hfree]
      have htaken : SameReader s { s with fpHandler := s.fpHandler.taken msg.pgn } :=
        ⟨rfl, rfl, rfl, rfl⟩
      have hput := htaken.trans (sameReader_putCanMsgs full (buildArbitrationId msg)
        (splitFrames msg.payload 1).1 0 _)
      simp only
      generalize putCanMsgs full (buildArbitrationId msg) (splitFrames msg.payload 1).1 0 _ = r
        at hput ⊢
      obtain ⟨out, s'⟩ := r
      cases out with
      | error e => exact hput
      | ok b =>
        cases b with
        | false => exact hput
        | true =>
          cases (splitFrames msg.payload 1).2 with
          | some e => exact hput
          | none => exact ⟨hput.addresses, hput.sequences, hput.isoTpHandler, hput.queue⟩
    · rw [show s.fpHandler.allocateSeq msg.pgn = .error .valueError from if_neg hfree]
      exact .refl s

/-- The frames a call of `send` puts, and the sequences in use behind it: none,
all of them, or the first ones of a fast packet, which keeps its sequence. -/
inductive SendEffect (s : SocketCANInterface) (msg : NMEA2000Msg) :
    Except Exn (Option Bool) × SocketCANInterface → Prop where
  | nothing {r} (result : putAll r.1 = false) (queued : r.2.inQueue = s.inQueue)
      (free : ∀ pgn, r.2.fpHandler.SequenceFree pgn ↔ s.fpHandler.SequenceFree pgn) : SendEffect s msg r
  | all {r} (result : putAll r.1 = true)
      (start : msg.fastPacket = true → s.fpHandler.SequenceFree msg.pgn)
      (queued : r.2.inQueue
        = s.inQueue ++ (frameData msg).map (CanMessage.mk (buildArbitrationId msg)))
      (free : ∀ pgn, r.2.fpHandler.SequenceFree pgn ↔ s.fpHandler.SequenceFree pgn) : SendEffect s msg r
  | some {r} {j : Nat} (result : putAll r.1 = false) (fast : msg.fastPacket = true)
      (start : s.fpHandler.SequenceFree msg.pgn) (refused : j < (frameData msg).length)
      (queued : r.2.inQueue
        = s.inQueue ++ ((frameData msg).take j).map (CanMessage.mk (buildArbitrationId msg)))
      (free : ∀ pgn, r.2.fpHandler.SequenceFree pgn ↔ pgn ≠ msg.pgn ∧ s.fpHandler.SequenceFree pgn) :
      SendEffect s msg r

/-- **What a call of `send` puts**, by the frames that the queue refuses. -/
theorem sendEffect {defs : PGNDefinitions} {a : Nat} {msg : NMEA2000Msg} (h : Sendable defs a msg)
    (s : SocketCANInterface) (full : Nat → Bool) (forceSend : Bool) :
    SendEffect s msg (s.send full msg forceSend) := by
  rw [SocketCANInterface.send]
  split
  · exact .nothing rfl rfl (fun _ => Iff.rfl)
  cases hfast : msg.fastPacket with
  | false =>
    rw [if_neg (by simp)]
    have hdata : frameData msg = [msg.payload] := by simp [frameData, hfast]
    have hhandler := putCanMsg_fpHandler s (full 0) (buildArbitrationId msg) msg.payload
    cases hfull : full 0 with
    | true =>
      rw [hfull] at hhandler
      refine .nothing ?_ ?_ (fun pgn => by rw [hhandler])
      · simp only [putCanMsg_result]
        split <;> rfl
      · simp only [putCanMsg_inQueue, if_true]
    | false =>
      refine .all rfl (fun hno => by cases hfast.symm.trans hno) ?_ (fun pgn => Iff.rfl)
      rw [hdata]
      rfl
  | true =>
    rw [if_pos rfl]
    by_cases hfree : s.fpHandler.SequenceFree msg.pgn
    · rw [FastPacketHandler.allocateSeq_free hfree]
      obtain ⟨h6, h223⟩ := h.fast hfast
      have h255 : msg.payload.length ≤ 255 := by omega
      obtain ⟨frames, hsplit, -⟩ := FastPacketHandler.splitFrames_short h255
      have hdata : frameData msg = frames := by rw [frameData, if_pos hfast, hsplit]
      simp only [hsplit]
      have hhandler := putCanMsgs_fpHandler full (buildArbitrationId msg) frames 0
        { s with fpHandler := s.fpHandler.taken msg.pgn }
      by_cases hroom : ∀ j < frames.length, full (0 + j) = false
      · obtain ⟨hok, hqueue⟩ := putCanMsgs_room (buildArbitrationId msg) frames 0
          { s with fpHandler := s.fpHandler.taken msg.pgn } hroom
        generalize putCanMsgs full (buildArbitrationId msg) frames 0 _ = r at hok hqueue hhandler ⊢
        obtain ⟨out, s'⟩ := r
        simp only at hok hqueue hhandler
        subst hok
        refine .all rfl (fun _ => hfree) (by rw [hdata]; exact hqueue) (fun pgn => ?_)
        simp only [hhandler, FastPacketHandler.sequenceFree_freeSeq,
          FastPacketHandler.sequenceFree_taken]
        by_cases hp : pgn = msg.pgn
        · simp [hp, hfree]
        · simp [hp]
      · have hrefused : ∃ j < frames.length, full (0 + j) = true := by
          simpa using hroom
        obtain ⟨hres, j, hj, hqueue⟩ := putCanMsgs_refused full (buildArbitrationId msg) frames 0
          { s with fpHandler := s.fpHandler.taken msg.pgn } hrefused
        generalize putCanMsgs full (buildArbitrationId msg) frames 0 _ = r at hres hqueue hhandler ⊢
        obtain ⟨out, s'⟩ := r
        simp only at hres hqueue hhandler
        have htaken : ∀ pgn, s'.fpHandler.SequenceFree pgn ↔
            pgn ≠ msg.pgn ∧ s.fpHandler.SequenceFree pgn := by
          intro pgn
          rw [hhandler]
          exact FastPacketHandler.sequenceFree_taken _ _ _
        split at hres
        · subst hres
          exact .some rfl hfast hfree (by rw [hdata]; exact hj) (by rw [hdata]; exact hqueue) htaken
        · subst hres
          exact .some rfl hfast hfree (by rw [hdata]; exact hj) (by rw [hdata]; exact hqueue) htaken
    · rw [show s.fpHandler.allocateSeq msg.pgn = .error .valueError from if_neg hfree]
      exact .nothing rfl rfl (fun _ => Iff.rfl)

end NavigationServer.CanInterface
