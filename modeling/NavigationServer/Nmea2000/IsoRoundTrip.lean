/-
NavigationServer.Nmea2000.IsoRoundTrip — sending a message over ISO transport
and receiving it.

The sender cuts the payload in packets of seven bytes (`splitMessage_eq`), the
receiver writes them one after the other (`Receiving.inner`,
`Receiving.last`), and `outs_announced` is the whole exchange. The padding of
the last packet starts one place too early, so the receiver gets `padded`,
the payload with 0xFF for its last byte, unless the size is a multiple of 7.

The receiver is followed from the first packet on: `Receiving` says that it has the bytes
of the packets so far, and one more packet leads to the next such state or, with the last
one, to the message. Lost and repeated packets are left out here, they are
the subject of `IsoTransportTheorems`.
-/
import NavigationServer.Nmea2000.IsoSlots
import NavigationServer.Nmea2000Datamodel.PgnDefinitionTheorems

namespace NavigationServer.Nmea2000

open NavigationServer.Lib
open NavigationServer.Nmea2000Datamodel (pgnPdu1Adjust pgnPdu1Adjust_valid ValidPgn)
open NavigationServer.RouterCore
open IsoTransportTransaction (writePacket)

/-! ## 1. The sender -/

/-- What the receiver makes of a payload: the sender writes the first byte of
the padding over the last byte of the payload. -/
def padded (payload : Bytes) : Bytes :=
  if payload.length % 7 = 0 then payload else payload.dropLast ++ [0xFF]

/-- The padding shows unless there is none or the last byte is 0xFF itself. -/
theorem padded_eq_iff {payload : Bytes} (h : payload ≠ []) :
    padded payload = payload ↔ payload.length % 7 = 0 ∨ payload.getLast? = some 0xFF := by
  obtain ⟨init, last, rfl⟩ := (List.eq_nil_or_concat payload).resolve_left h
  unfold padded
  split
  · rename_i h7
    exact iff_of_true rfl (Or.inl h7)
  · rename_i h7
    have h7' : ¬ (init.length + 1) % 7 = 0 := by simpa using h7
    simp [h7', @eq_comm _ last]

/-- The number of packets. -/
def packetCount (size : Nat) : Nat := size / 7 + if size % 7 ≠ 0 then 1 else 0

/-- The packets are as many as needed and no more. -/
theorem packetCount_bounds {size : Nat} (h : 0 < size) :
    7 * (packetCount size - 1) < size ∧ size ≤ 7 * packetCount size ∧ 0 < packetCount size := by
  unfold packetCount
  split <;> omega

/-- A transaction that sends `payload`. -/
structure Sending (t : IsoTransportTransaction) (payload : Bytes) : Prop where
  totalSize : t.totalSize = payload.length
  buffer : t.buffer = payload
  nbPackets : t.nbPackets = packetCount payload.length

/-- The bytes of packet `k`. -/
def packetBytes (payload : Bytes) (k : Nat) : Bytes := (payload.drop (7 * (k - 1))).take 7

/-- A packet before the last is cut out whole. -/
theorem splitPacket_inner {t : IsoTransportTransaction} {payload : Bytes} (h : Sending t payload)
    {data : Bytes} (hdata : data.length = 8) {k : Nat} (hk : k < packetCount payload.length)
    (h255 : k ≤ 255) :
    t.splitPacket data k (7 * (k - 1))
      = .ok (UInt8.ofNat k :: packetBytes payload k, 7 * (k - 1) + 7) := by
  have hhead : (data.set 0 (UInt8.ofNat k)).take 1 = [UInt8.ofNat k] := by
    cases data with
    | nil => simp at hdata
    | cons b rest => rfl
  unfold IsoTransportTransaction.splitPacket
  rw [if_neg (by omega)]
  simp only
  rw [if_neg (by rw [h.nbPackets]; omega), show (1 : Int) = ((1 : Nat) : Int) from rfl,
    setSlice_to_end, hhead, h.buffer,
    show ((7 * (k - 1) : Nat) : Int) + 7 = ((7 * (k - 1) + 7 : Nat) : Int) by omega, slice_natCast,
    Nat.add_sub_cancel_left, packetBytes]
  rfl

/-- The last packet, with what the frame held before behind the padding. -/
theorem splitPacket_last {t : IsoTransportTransaction} {payload : Bytes} (h : Sending t payload)
    (hne : payload ≠ []) {data : Bytes} (hdata : data.length = 8)
    (h255 : packetCount payload.length ≤ 255) :
    ∃ last ptr, last.length = 7 ∧
      last.take (payload.length - 7 * (packetCount payload.length - 1))
        = (padded payload).drop (7 * (packetCount payload.length - 1)) ∧
      t.splitPacket data (packetCount payload.length) (7 * (packetCount payload.length - 1))
        = .ok (UInt8.ofNat (packetCount payload.length) :: last, ptr) := by
  obtain ⟨h1, h2, h3⟩ := packetCount_bounds (List.length_pos_of_ne_nil hne)
  obtain ⟨ptr, hptr⟩ : ∃ ptr, ptr = 7 * (packetCount payload.length - 1) := ⟨_, rfl⟩
  obtain ⟨x, hx⟩ : ∃ x, x = UInt8.ofNat (packetCount payload.length) := ⟨_, rfl⟩
  obtain ⟨d0, rest, rfl⟩ : ∃ d0 rest, data = d0 :: rest := by
    cases data with
    | nil => simp at hdata
    | cons b rest => exact ⟨b, rest, rfl⟩
  have hrest : rest.length = 7 := by simpa using hdata
  obtain ⟨l, hl⟩ : ∃ l, payload.length - ptr = l := ⟨_, rfl⟩
  have hcast : (payload.length : Int) - (ptr : Nat) = (l : Nat) := by omega
  have htail : slice payload (ptr : Nat) payload.length = payload.drop ptr := by
    rw [slice_natCast, List.take_of_length_le (by simp)]
  have hset : setSlice (x :: rest) 1 ((l : Nat) + 1 : Int) (payload.drop ptr)
      = x :: (payload.drop ptr ++ rest.drop l) := by
    rw [show (1 : Int) = ((1 : Nat) : Int) from rfl,
      show ((l : Nat) : Int) + ((1 : Nat) : Int) = ((l + 1 : Nat) : Int) by omega,
      setSlice_natCast _ _ (by omega) (by simp; omega)]
    rfl
  have hdrop : (payload.drop ptr).length = l := by rw [List.length_drop, hl]
  unfold IsoTransportTransaction.splitPacket
  rw [if_neg (by omega), ← hptr, ← hx, hl]
  simp only [List.set_cons_zero]
  rw [if_pos h.nbPackets.symm, h.totalSize, h.buffer, hcast, htail, hset]
  by_cases hl7 : l = 7
  · refine ⟨payload.drop ptr ++ rest.drop l, ptr, by simp; omega, ?_, ?_⟩
    · rw [List.take_left' hdrop, padded, if_pos (by omega)]
    · subst hl7
      rfl
  · -- the padding starts at index `l`, which is the last byte of the payload
    obtain ⟨init, z, hinit⟩ : ∃ init z, payload.drop ptr = init ++ [z] := by
      rcases List.eq_nil_or_concat (payload.drop ptr) with hnil | ⟨init, z, hz⟩
      · rw [hnil] at hdrop
        simp at hdrop
        omega
      · exact ⟨init, z, by rw [hz, List.concat_eq_append]⟩
    have hinitlen : init.length + 1 = l := by rw [hinit] at hdrop; simpa using hdrop
    have hpad : (init ++ [z] ++ rest.drop l).set init.length 0xFF
        = (init ++ [0xFF]) ++ rest.drop l := by simp
    have hl' : (l : Int) = ((init.length + 1 : Nat) : Int) := by omega
    have hpadded : (padded payload).drop ptr = init ++ [0xFF] := by
      have hsplit : payload = payload.take ptr ++ (init ++ [z]) := by
        rw [← hinit, List.take_append_drop]
      have hdropLast : payload.dropLast = payload.take ptr ++ init := by
        conv_lhs => rw [hsplit, ← List.append_assoc, List.dropLast_concat]
      rw [padded, if_neg (by omega), hdropLast, List.append_assoc, List.drop_left']
      rw [List.length_take]
      omega
    refine ⟨((init ++ [0xFF]) ++ rest.drop l).set 6 0xFF, ptr, by simp; omega, ?_, ?_⟩
    · rw [hpadded, List.set_append_right _ _ (by simp; omega), List.take_left' (by simpa)]
    · simp only [IsoTransportTransaction.padByte]
      rw [if_pos (by omega), hinit, hl', setItem_natCast _ (by simp)]
      simp only [bind, Except.bind, List.set_cons_succ, hpad]
      rw [show (7 : Int) = ((7 : Nat) : Int) from rfl, setItem_natCast _ (by simp; omega)]
      rfl

/-- The frames of a message: full packets, and a last one that carries the end
of the padded payload. -/
structure Packets (payload : Bytes) (frames : List Bytes) (last : Bytes) : Prop where
  frames_eq : frames = (List.range' 1 (packetCount payload.length - 1)).map
    (fun k => UInt8.ofNat k :: packetBytes payload k) ++
      [UInt8.ofNat (packetCount payload.length) :: last]
  length_last : last.length = 7
  take_last : last.take (payload.length - 7 * (packetCount payload.length - 1))
    = (padded payload).drop (7 * (packetCount payload.length - 1))

/-- The loop from packet `k` on. -/
theorem splitPackets_eq {t : IsoTransportTransaction} {payload : Bytes} (h : Sending t payload)
    (hne : payload ≠ []) (h255 : packetCount payload.length ≤ 255) (m : Nat) :
    ∀ {k : Nat} {data : Bytes}, 1 ≤ k → k + m = packetCount payload.length → data.length = 8 →
      ∃ last, last.length = 7 ∧
        last.take (payload.length - 7 * (packetCount payload.length - 1))
          = (padded payload).drop (7 * (packetCount payload.length - 1)) ∧
        t.splitPackets (m + 1) data k (7 * (k - 1))
          = ((List.range' k m).map (fun k => UInt8.ofNat k :: packetBytes payload k) ++
              [UInt8.ofNat (packetCount payload.length) :: last], none) := by
  induction m with
  | zero =>
    intro k data hk hkm hdata
    obtain rfl : k = packetCount payload.length := by omega
    obtain ⟨last, ptr, hlen, htake, hlast⟩ := splitPacket_last h hne hdata h255
    refine ⟨last, hlen, htake, ?_⟩
    rw [IsoTransportTransaction.splitPackets, hlast]
    rfl
  | succ m ih =>
    intro k data hk hkm hdata
    obtain ⟨h1, -, -⟩ := packetCount_bounds (List.length_pos_of_ne_nil hne)
    have hbytes : (packetBytes payload k).length = 7 := by
      simp only [packetBytes, List.length_take, List.length_drop]
      omega
    obtain ⟨last, hlen, htake, hrest⟩ :=
      @ih (k + 1) (UInt8.ofNat k :: packetBytes payload k) (by omega) (by omega)
        (by simp [hbytes])
    refine ⟨last, hlen, htake, ?_⟩
    rw [IsoTransportTransaction.splitPackets, splitPacket_inner h hdata (by omega) (by omega)]
    simp only
    rw [show 7 * (k - 1) + 7 = 7 * (k + 1 - 1) by omega, hrest]
    rfl

/-- **All packets of a message**, by induction on the packets that are still to be cut. -/
theorem splitMessage_eq {t : IsoTransportTransaction} {payload : Bytes} (h : Sending t payload)
    (hne : payload ≠ []) (h255 : packetCount payload.length ≤ 255) :
    ∃ frames last, t.splitMessage = (frames, none) ∧ Packets payload frames last := by
  obtain ⟨-, -, h3⟩ := packetCount_bounds (List.length_pos_of_ne_nil hne)
  obtain ⟨last, hlen, htake, hsplit⟩ := @splitPackets_eq _ _ h hne h255 (packetCount payload.length - 1) 1
    (List.replicate 8 0) (by omega) (by omega) (by simp)
  rw [show packetCount payload.length - 1 + 1 = packetCount payload.length by omega] at hsplit
  refine ⟨_, last, ?_, rfl, hlen, htake⟩
  rw [IsoTransportTransaction.splitMessage, h.nbPackets]
  exact hsplit

/-! ## 2. The receiver -/

/-- A transaction that has received packets 1 … k of a message. -/
structure Receiving (t : IsoTransportTransaction) (payload : Bytes) (k : Nat) : Prop where
  state : t.state = .inTransmission
  totalSize : t.totalSize = payload.length
  nbPackets : t.nbPackets = packetCount payload.length
  transmittedPackets : t.transmittedPackets = k
  length_buffer : t.buffer.length = payload.length
  take_buffer : t.buffer.take (7 * k) = payload.take (7 * k)

/-- A full packet. -/
theorem Receiving.inner {t : IsoTransportTransaction} {payload : Bytes} {k : Nat}
    (h : Receiving t payload k) (hk : k + 1 < packetCount payload.length)
    (h255 : packetCount payload.length ≤ 255) (hne : payload ≠ []) (sa : Nat) :
    ∃ t', isoSlotStep (some t) (.packet sa (UInt8.ofNat (k + 1) :: packetBytes payload (k + 1)))
        = (.ok none, some t') ∧ Receiving t' payload (k + 1) ∧
      t'.pgn = t.pgn ∧ t'.sa = t.sa ∧ t'.prio = t.prio := by
  obtain ⟨h1, -, -⟩ := packetCount_bounds (List.length_pos_of_ne_nil hne)
  have hnum : (UInt8.ofNat (k + 1)).toNat = k + 1 := by
    rw [UInt8.toNat_ofNat']
    omega
  have hmin : min (7 * (k + 1)) t.totalSize = 7 * k + 7 := by rw [h.totalSize]; omega
  have hwrite : writePacket t.totalSize t.buffer
      (UInt8.ofNat (k + 1) :: packetBytes payload (k + 1)) (k + 1)
        = payload.take (7 * k + 7) ++ t.buffer.drop (7 * k + 7) := by
    rw [writePacket_inside _ (by omega) (by rw [h.totalSize]; omega)
        (by rw [h.totalSize, h.length_buffer]),
      hmin, List.drop_one, List.tail_cons, Nat.add_sub_cancel, Nat.add_sub_cancel_left,
      h.take_buffer, packetBytes, List.take_take, Nat.min_self, Nat.add_sub_cancel, ← List.take_add]
  rw [isoSlotStep_packet sa h.state, hnum]
  simp only
  rw [if_neg (by rw [h.transmittedPackets, h.nbPackets]; omega)]
  refine ⟨_, rfl, ⟨h.state, h.totalSize, h.nbPackets, by rw [h.transmittedPackets], ?_, ?_⟩,
    rfl, rfl, rfl⟩
  · rw [hwrite]
    simp only [List.length_append, List.length_take, List.length_drop, h.length_buffer]
    omega
  · rw [hwrite, List.take_left' (by rw [List.length_take]; omega)]
    rfl

/-- The last packet. -/
theorem Receiving.last {t : IsoTransportTransaction} {payload : Bytes}
    (h : Receiving t payload (packetCount payload.length - 1))
    (h255 : packetCount payload.length ≤ 255) (hne : payload ≠ []) {last : Bytes}
    (htake : last.take (payload.length - 7 * (packetCount payload.length - 1))
      = (padded payload).drop (7 * (packetCount payload.length - 1))) (sa : Nat) :
    isoSlotStep (some t) (.packet sa (UInt8.ofNat (packetCount payload.length) :: last))
      = (.ok (some (.of t.pgn t.prio t.sa 255 (padded payload))), none) := by
  obtain ⟨h1, h2, h3⟩ := packetCount_bounds (List.length_pos_of_ne_nil hne)
  have hnum : (UInt8.ofNat (packetCount payload.length)).toNat = packetCount payload.length := by
    rw [UInt8.toNat_ofNat']
    omega
  have hmin : min (7 * packetCount payload.length) payload.length = payload.length := by omega
  have hfront : payload.take (7 * (packetCount payload.length - 1))
      = (padded payload).take (7 * (packetCount payload.length - 1)) := by
    unfold padded
    split
    · rfl
    · rw [List.take_append_of_le_length (by rw [List.length_dropLast]; omega),
        List.dropLast_eq_take, List.take_take, Nat.min_eq_left (by omega)]
  have hwrite : writePacket t.totalSize t.buffer
      (UInt8.ofNat (packetCount payload.length) :: last) (packetCount payload.length)
        = padded payload := by
    rw [h.totalSize, writePacket_inside _ h3 (by omega) (by rw [h.length_buffer]), hmin,
      List.drop_one, List.tail_cons, h.take_buffer, htake, hfront, List.take_append_drop,
      List.drop_eq_nil_of_le (by rw [h.length_buffer]), List.append_nil]
  rw [isoSlotStep_packet sa h.state, hnum]
  simp only
  rw [if_pos (by rw [h.transmittedPackets, h.nbPackets]; omega), hwrite]
  rfl

/-- Packets k + 1 … nb, one after the other. -/
theorem outs_packets {payload last : Bytes} (h255 : packetCount payload.length ≤ 255)
    (hne : payload ≠ [])
    (htake : last.take (payload.length - 7 * (packetCount payload.length - 1))
      = (padded payload).drop (7 * (packetCount payload.length - 1))) (sa m : Nat) :
    ∀ {k : Nat} {t : IsoTransportTransaction}, k + m + 1 = packetCount payload.length →
      Receiving t payload k →
      let events := ((List.range' (k + 1) m).map
        (fun k => UInt8.ofNat k :: packetBytes payload k) ++
          [UInt8.ofNat (packetCount payload.length) :: last]).map (IsoEvent.packet sa)
      isoSlotMachine.outs (some t) events
        = List.replicate m (.ok none) ++
          [.ok (some (.of t.pgn t.prio t.sa 255 (padded payload)))] ∧
      isoSlotMachine.final (some t) events = none := by
  induction m with
  | zero =>
    intro k t hk h
    obtain rfl : k = packetCount payload.length - 1 := by omega
    have hlast := h.last h255 hne htake sa
    exact ⟨by simp [isoSlotMachine, hlast], by simp [isoSlotMachine, hlast]⟩
  | succ m ih =>
    intro k t hk h
    obtain ⟨t', hstep, h', hpgn, hsa, hprio⟩ := h.inner (by omega) h255 hne sa
    obtain ⟨houts, hfinal⟩ := ih (k := k + 1) (by omega) h'
    rw [hpgn, hsa, hprio] at houts
    simp only [List.range'_succ, List.map_cons, List.cons_append, Machine.outs_cons,
      Machine.final_cons, List.replicate_succ]
    rw [show isoSlotMachine.step = isoSlotStep from rfl, hstep]
    exact ⟨congrArg _ houts, hfinal⟩

/-! ## 3. Both -/

/-- The announce frame opens a transaction that receives the message. -/
theorem announce_outgoing {msg : NMEA2000Msg} (hpgn : ValidPgn msg.pgn)
    (hne : msg.payload ≠ []) (h255 : packetCount msg.payload.length ≤ 255) :
    ∃ tpcm t, IsoTransportHandler.newOutputTransaction msg = .ok (tpcm, t) ∧
      Sending t msg.payload ∧
      ∀ slot sa prio, ∃ t', isoSlotStep slot (.announce sa prio tpcm.payload) = (.ok none, some t') ∧
        Receiving t' msg.payload 0 ∧ t'.pgn = msg.pgn ∧ t'.sa = sa ∧ t'.prio = prio := by
  obtain ⟨h1, h2, h3⟩ := packetCount_bounds (List.length_pos_of_ne_nil hne)
  have hlow : msg.pgn &&& 0xFFFF = msg.pgn % 65536 := by
    rw [show (0xFFFF : Nat) = 2 ^ 16 - 1 from rfl, Nat.and_two_pow_sub_one_eq_mod]
  have hup : (msg.pgn >>> 16) &&& 0xFF = msg.pgn / 65536 := by
    have := hpgn.1
    rw [Nat.shiftRight_eq_div_pow, show (0xFF : Nat) = 2 ^ 8 - 1 from rfl,
      Nat.and_two_pow_sub_one_eq_mod, Nat.mod_eq_of_lt (by omega)]
  have hpack : bamPack 32 msg.payload.length (packetCount msg.payload.length) 0xFF
      (msg.pgn &&& 0xFFFF) ((msg.pgn >>> 16) &&& 0xFF)
      = .ok [32, UInt8.ofNat (msg.payload.length % 256), UInt8.ofNat (msg.payload.length / 256),
          UInt8.ofNat (packetCount msg.payload.length), 255,
          UInt8.ofNat (msg.pgn % 65536 % 256), UInt8.ofNat (msg.pgn % 65536 / 256),
          UInt8.ofNat (msg.pgn / 65536)] := by
    have := hpgn.1
    rw [bamPack, hlow, hup, if_pos (by omega)]
    rfl
  refine ⟨.of 60416 7 msg.sa 255 [32, UInt8.ofNat (msg.payload.length % 256),
      UInt8.ofNat (msg.payload.length / 256), UInt8.ofNat (packetCount msg.payload.length), 255,
      UInt8.ofNat (msg.pgn % 65536 % 256), UInt8.ofNat (msg.pgn % 65536 / 256),
      UInt8.ofNat (msg.pgn / 65536)], { IsoTransportTransaction.new with
    totalSize := msg.payload.length
    buffer := msg.payload
    nbPackets := packetCount msg.payload.length }, ?_, ⟨rfl, rfl, rfl⟩, ?_⟩
  · rw [IsoTransportHandler.newOutputTransaction, IsoTransportTransaction.outgoingBamTransaction]
    rw [show msg.payload.length / 7 + (if msg.payload.length % 7 ≠ 0 then 1 else 0)
      = packetCount msg.payload.length from rfl]
    simp only
    rw [hpack]
  · intro slot sa prio
    have hsize : (UInt8.ofNat (msg.payload.length % 256)).toNat +
        (UInt8.ofNat (msg.payload.length / 256)).toNat * 256 = msg.payload.length := by
      rw [UInt8.toNat_ofNat', UInt8.toNat_ofNat']
      omega
    have hcount : (UInt8.ofNat (packetCount msg.payload.length)).toNat
        = packetCount msg.payload.length := by
      rw [UInt8.toNat_ofNat']
      omega
    have hlower : (UInt8.ofNat (msg.pgn % 65536 % 256)).toNat +
        (UInt8.ofNat (msg.pgn % 65536 / 256)).toNat * 256 = msg.pgn % 65536 := by
      rw [UInt8.toNat_ofNat', UInt8.toNat_ofNat']
      omega
    have hupper : (UInt8.ofNat (msg.pgn / 65536)).toNat = msg.pgn / 65536 := by
      have := hpgn.1
      rw [UInt8.toNat_ofNat']
      omega
    have hjoin : msg.pgn % 65536 ||| (msg.pgn / 65536) <<< 16 = msg.pgn := by
      rw [Nat.or_comm, ← Nat.shiftLeft_add_eq_or_of_lt (by omega), Nat.shiftLeft_eq]
      omega
    refine ⟨_, isoSlotStep_announce slot sa prio _ _ _ _ _ _ _,
      ⟨rfl, hsize, hcount, rfl, ?_, rfl⟩, ?_, rfl, rfl⟩
    · rw [List.length_replicate, hsize]
    · simp only
      rw [hlower, hupper, hjoin, pgnPdu1Adjust_valid hpgn]

/-- **Sending a message and receiving it.** From any state of the receiver:
nothing until the last packet, which delivers the padded payload under the
PGN and the source it was sent with. -/
theorem outs_announced (h : IsoTransportHandler) {msg : NMEA2000Msg} (hpgn : ValidPgn msg.pgn)
    (hne : msg.payload ≠ []) (h255 : packetCount msg.payload.length ≤ 255) (sa prio : Nat) :
    ∃ tpcm t frames, IsoTransportHandler.newOutputTransaction msg = .ok (tpcm, t) ∧
      t.splitMessage = (frames, none) ∧ frames.length = packetCount msg.payload.length ∧
      isoTransport.outs h (.announce sa prio tpcm.payload :: frames.map (.packet sa))
        = List.replicate frames.length (.ok none) ++
          [.ok (some (.of msg.pgn prio sa 255 (padded msg.payload)))] ∧
      (isoTransport.final h (.announce sa prio tpcm.payload :: frames.map (.packet sa))).transactions.lookup
        sa = none := by
  obtain ⟨-, -, h3⟩ := packetCount_bounds (List.length_pos_of_ne_nil hne)
  obtain ⟨tpcm, t, hout, hsend, hannounce⟩ := announce_outgoing hpgn hne h255
  obtain ⟨frames, last, hsplit, hframes⟩ := splitMessage_eq hsend hne h255
  obtain ⟨t', hstep, hrecv, hp, hs, hpr⟩ := hannounce (h.transactions.lookup sa) sa prio
  have hlen : frames.length = packetCount msg.payload.length := by
    rw [hframes.frames_eq]
    simp
    omega
  refine ⟨tpcm, t, frames, hout, hsplit, hlen, ?_⟩
  have hkey : ∀ e ∈ IsoEvent.announce sa prio tpcm.payload :: frames.map (IsoEvent.packet sa),
      isoTransport.key e = sa := by
    intro e he
    rcases List.mem_cons.mp he with rfl | he
    · rfl
    · obtain ⟨f, -, rfl⟩ := List.mem_map.mp he
      rfl
  obtain ⟨houts, hfinal⟩ := outs_packets h255 hne hframes.take_last sa
    (packetCount msg.payload.length - 1) (k := 0) (by omega) hrecv
  rw [Nat.zero_add, ← hframes.frames_eq, hp, hs, hpr] at houts
  rw [Nat.zero_add, ← hframes.frames_eq] at hfinal
  have hslot : (isoTransport.slotMachine sa).step (isoTransport.slot h sa)
      (.announce sa prio tpcm.payload) = (.ok none, some t') := hstep
  constructor
  · rw [isoTransport.outs_of_key hkey, Machine.outs_cons, hslot, hlen]
    obtain ⟨n, hn⟩ : ∃ n, packetCount msg.payload.length = n + 1 :=
      ⟨packetCount msg.payload.length - 1, by omega⟩
    rw [hn, List.replicate_succ, List.cons_append]
    rw [hn] at houts
    exact congrArg _ houts
  · rw [show (isoTransport.final h _).transactions.lookup sa
      = isoTransport.slot (isoTransport.final h _) sa from rfl, isoTransport.slot_final_of_key hkey,
      Machine.final_cons, hslot]
    exact hfinal

end NavigationServer.Nmea2000
