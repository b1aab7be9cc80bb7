/-
NavigationServer.Nmea2000.IsoTransportTheorems — when a delivered message is
complete.

A transaction counts packets and writes each where its number says, so what
comes out after `nb` packets depends on their numbers alone
(`complete_iff`). `delivered_iff` carries this to any run of the handler: the
message delivered to a source is complete exactly when the packets since the
last announce are `Regular`.
-/
import Mathlib.Data.List.Induction
import Mathlib.Data.List.Perm.Subperm
import NavigationServer.Nmea2000.IsoSlots

namespace NavigationServer.Nmea2000

open NavigationServer.Lib
open NavigationServer.RouterCore
open IsoTransportTransaction (writePacket)

/-! ## 1. The buffer after some packets -/

/-- The number in a packet. -/
def packetNumber (frame : Bytes) : Nat := (frame.headD 0).toNat

/-- The buffer after some packets. -/
def bufferAfter (size : Nat) (packets : List Bytes) : Bytes :=
  packets.foldl (fun buffer frame => writePacket size buffer frame (packetNumber frame))
    (List.replicate size 0)

/-- Every packet arrived, and the payload is made of them. -/
def Complete (size nb : Nat) (packets : List Bytes) (payload : Bytes) : Prop :=
  (∀ k, 1 ≤ k → k ≤ nb → ∃ f ∈ packets, packetNumber f = k) ∧
  payload.length = size ∧
  ∀ k, 1 ≤ k → 7 * (k - 1) < size → ∃ f ∈ packets, packetNumber f = k ∧
    ∀ j < 7, 7 * (k - 1) + j < size → payload[7 * (k - 1) + j]? = f[j + 1]?

/-- The announced count goes with the announced size. -/
def Fits (size nb : Nat) : Prop := size ≤ 7 * nb ∧ (nb ≤ size / 7 + 1 ∨ size % 7 = 6)

/-- No packet number twice, none out of range, and an announce that fits. -/
def Regular (size nb : Nat) (packets : List Bytes) : Prop :=
  (packets.map packetNumber).Nodup ∧
  (∀ f ∈ packets, 1 ≤ packetNumber f ∧ packetNumber f ≤ nb) ∧
  Fits size nb

theorem length_writePacket_ge {size k : Nat} {buffer frame : Bytes} (hk : 1 ≤ k)
    (hlen : size ≤ buffer.length) (h8 : frame.length = 8) :
    buffer.length ≤ (writePacket size buffer frame k).length := by
  rcases Nat.lt_or_ge size (7 * (k - 1)) with hout | hin
  · rw [length_writePacket_outside hout hlen h8]
    omega
  · rw [writePacket_inside frame hk hin hlen]
    simp only [List.length_append, List.length_take, List.length_drop, h8]
    omega

/-- A packet that is not in its place makes the buffer longer. -/
theorem length_writePacket_gt {size k : Nat} {buffer frame : Bytes}
    (hlen : size ≤ buffer.length) (h8 : frame.length = 8) (hlo : size + 2 ≤ 7 * (k - 1))
    (hhi : 7 * (k - 1) ≤ size + 7) : buffer.length < (writePacket size buffer frame k).length := by
  rw [length_writePacket_outside (by omega) hlen h8, if_neg (by omega)]
  omega

/-- A packet behind the message that adds nothing. -/
theorem writePacket_behind {size k : Nat} {buffer frame : Bytes} (hout : size < 7 * (k - 1))
    (hnone : 7 * (k - 1) = size + 1 ∨ size + 8 ≤ 7 * (k - 1)) (hlen : buffer.length = size)
    (h8 : frame.length = 8) : writePacket size buffer frame k = buffer := by
  have hptr : ((k : Int) - 1) * 7 = ((7 * (k - 1) : Nat) : Int) := by omega
  have hlength : (if ((7 * (k - 1) : Nat) : Int) + 7 > size then
      (size : Int) - (7 * (k - 1) : Nat) else 7) = (size : Int) - (7 * (k - 1) : Nat) := by
    rw [if_pos (by omega)]
  have hnil : slice frame 1 ((size : Int) - (7 * (k - 1) : Nat) + 1) = [] := by
    rw [← List.length_eq_zero_iff, slice, List.length_drop, List.length_take, h8,
      show clampIndex 8 1 = 1 from rfl]
    unfold clampIndex
    split_ifs <;> omega
  simp only [writePacket]
  rw [hptr, hlength, hnil, show ((7 * (k - 1) : Nat) : Int) + ((size : Int) - (7 * (k - 1) : Nat))
    = (size : Int) by omega]
  simp only [setSlice, clampIndex_natCast]
  rw [Nat.min_eq_right (by omega : buffer.length ≤ 7 * (k - 1)), hlen, Nat.min_self, Nat.max_self,
    List.append_nil, List.take_append_drop]

/-- What a packet with a number in range does to a buffer of the announced
size. -/
structure Written (size k : Nat) (buffer frame buffer' : Bytes) : Prop where
  length_eq : buffer'.length = size
  place : ∀ j < 7, 7 * (k - 1) + j < size → buffer'[7 * (k - 1) + j]? = frame[j + 1]?
  other : ∀ i, i < 7 * (k - 1) ∨ 7 * k ≤ i → buffer'[i]? = buffer[i]?

theorem written_writePacket {size nb k : Nat} {buffer frame : Bytes} (hk : 1 ≤ k) (hnb : k ≤ nb)
    (hfits : Fits size nb) (hlen : buffer.length = size) (h8 : frame.length = 8) :
    Written size k buffer frame (writePacket size buffer frame k) := by
  rcases Nat.lt_or_ge size (7 * (k - 1)) with hout | hin
  · have hnone : 7 * (k - 1) = size + 1 ∨ size + 8 ≤ 7 * (k - 1) := by
      rcases hfits.2 with h | h <;> omega
    rw [writePacket_behind hout hnone hlen h8]
    exact ⟨hlen, fun j _ hj => by omega, fun _ _ => rfl⟩
  · rw [writePacket_inside frame hk hin (by omega)]
    have htake : (buffer.take (7 * (k - 1))).length = 7 * (k - 1) := by
      rw [List.length_take]
      omega
    have hmid : ((frame.drop 1).take (min (7 * k) size - 7 * (k - 1))).length
        = min (7 * k) size - 7 * (k - 1) := by
      rw [List.length_take, List.length_drop, h8]
      omega
    refine ⟨?_, fun j hj7 hj => ?_, fun i hi => ?_⟩
    · rw [List.length_append, List.length_append, htake, hmid, List.length_drop]
      omega
    · rw [List.getElem?_append_left (by rw [List.length_append, htake, hmid]; omega),
        List.getElem?_append_right (by omega), htake, Nat.add_sub_cancel_left,
        List.getElem?_take_of_lt (by omega), List.getElem?_drop, Nat.add_comm]
    · rcases hi with hi | hi
      · rw [List.append_assoc, List.getElem?_append_left (by omega),
          List.getElem?_take_of_lt hi]
      · rcases Nat.lt_or_ge i size with hs | hs
        · rw [List.getElem?_append_right (by rw [List.length_append, htake, hmid]; omega),
            List.length_append, htake, hmid, List.getElem?_drop]
          congr 1
          omega
        · rw [List.getElem?_eq_none (by
            rw [List.length_append, List.length_append, htake, hmid, List.length_drop]; omega),
            List.getElem?_eq_none (by omega)]

theorem bufferAfter_concat (size : Nat) (packets : List Bytes) (frame : Bytes) :
    bufferAfter size (packets ++ [frame])
      = writePacket size (bufferAfter size packets) frame (packetNumber frame) := by
  rw [bufferAfter, List.foldl_concat]
  rfl

/-- The buffer never gets shorter. -/
theorem length_bufferAfter_ge {size : Nat} {packets : List Bytes}
    (h1 : ∀ f ∈ packets, 1 ≤ packetNumber f) (h8 : ∀ f ∈ packets, f.length = 8) :
    size ≤ (bufferAfter size packets).length := by
  induction packets using List.reverseRecOn with
  | nil => simp [bufferAfter]
  | append_singleton packets frame ih =>
    have hbefore := ih (fun f hf => h1 f (by simp [hf])) (fun f hf => h8 f (by simp [hf]))
    rw [bufferAfter_concat]
    exact Nat.le_trans hbefore
      (length_writePacket_ge (h1 frame (by simp)) hbefore (h8 frame (by simp)))

/-- One packet that is not in its place, and it is too long. -/
theorem length_bufferAfter_gt {size : Nat} {packets : List Bytes}
    (h1 : ∀ f ∈ packets, 1 ≤ packetNumber f) (h8 : ∀ f ∈ packets, f.length = 8) {g : Bytes}
    (hg : g ∈ packets) (hlo : size + 2 ≤ 7 * (packetNumber g - 1))
    (hhi : 7 * (packetNumber g - 1) ≤ size + 7) : size < (bufferAfter size packets).length := by
  induction packets using List.reverseRecOn with
  | nil => simp at hg
  | append_singleton packets frame ih =>
    have h1' : ∀ f ∈ packets, 1 ≤ packetNumber f := fun f hf => h1 f (by simp [hf])
    have h8' : ∀ f ∈ packets, f.length = 8 := fun f hf => h8 f (by simp [hf])
    have hbefore := @length_bufferAfter_ge size _ h1' h8'
    rw [bufferAfter_concat]
    rcases List.mem_append.mp hg with hmem | hlast
    · exact Nat.lt_of_lt_of_le (ih h1' h8' hmem)
        (length_writePacket_ge (h1 frame (by simp)) hbefore (h8 frame (by simp)))
    · obtain rfl : g = frame := by simpa using hlast
      exact Nat.lt_of_le_of_lt hbefore
        (length_writePacket_gt hbefore (h8 g (by simp)) hlo hhi)

/-- Regular packets each stay in their place. -/
theorem bufferAfter_regular {size nb : Nat} (hfits : Fits size nb) {packets : List Bytes}
    (hnodup : (packets.map packetNumber).Nodup)
    (hrange : ∀ f ∈ packets, 1 ≤ packetNumber f ∧ packetNumber f ≤ nb)
    (h8 : ∀ f ∈ packets, f.length = 8) :
    (bufferAfter size packets).length = size ∧
    ∀ f ∈ packets, ∀ j < 7, 7 * (packetNumber f - 1) + j < size →
      (bufferAfter size packets)[7 * (packetNumber f - 1) + j]? = f[j + 1]? := by
  induction packets using List.reverseRecOn with
  | nil => simp [bufferAfter]
  | append_singleton packets frame ih =>
    rw [List.map_append, List.map_singleton, List.nodup_append] at hnodup
    obtain ⟨hnodup, -, hnew⟩ := hnodup
    obtain ⟨hlen, hplace⟩ := ih hnodup (fun f hf => hrange f (by simp [hf]))
      (fun f hf => h8 f (by simp [hf]))
    obtain ⟨hk, hnb⟩ := hrange frame (by simp)
    have hw := written_writePacket hk hnb hfits hlen (h8 frame (by simp))
    rw [bufferAfter_concat]
    refine ⟨hw.length_eq, fun f hf j hj7 hj => ?_⟩
    rcases List.mem_append.mp hf with hmem | hlast
    · have hne : packetNumber f ≠ packetNumber frame :=
        hnew _ (List.mem_map_of_mem hmem) _ (by simp)
      have hf1 := (hrange f hf).1
      rw [hw.other _ (by omega)]
      exact hplace f hmem j hj7 hj
    · obtain rfl : f = frame := by simpa using hlast
      exact hw.place j hj7 hj

/-- As many packets as announced, with every number among them: no number
comes twice. -/
theorem perm_of_covers {nb : Nat} {packets : List Bytes} (hlen : packets.length = nb)
    (h : ∀ k, 1 ≤ k → k ≤ nb → ∃ f ∈ packets, packetNumber f = k) :
    (List.range' 1 nb).Perm (packets.map packetNumber) := by
  have hsub : List.range' 1 nb ⊆ packets.map packetNumber := by
    intro k hk
    rw [List.mem_range'_1] at hk
    obtain ⟨f, hf, rfl⟩ := h k hk.1 (by omega)
    exact List.mem_map_of_mem hf
  exact (List.subperm_of_subset List.nodup_range' hsub).perm_of_length_le (by simp [hlen])

/-- The other way round. -/
theorem covers_of_nodup {nb : Nat} {packets : List Bytes} (hlen : packets.length = nb)
    (hnodup : (packets.map packetNumber).Nodup)
    (hrange : ∀ f ∈ packets, 1 ≤ packetNumber f ∧ packetNumber f ≤ nb) :
    ∀ k, 1 ≤ k → k ≤ nb → ∃ f ∈ packets, packetNumber f = k := by
  have hsub : packets.map packetNumber ⊆ List.range' 1 nb := by
    intro k hk
    obtain ⟨f, hf, rfl⟩ := List.mem_map.mp hk
    have := hrange f hf
    rw [List.mem_range'_1]
    omega
  have hperm := (List.subperm_of_subset hnodup hsub).perm_of_length_le (by simp [hlen])
  intro k hk hnb
  have hmem : k ∈ packets.map packetNumber :=
    hperm.mem_iff.mpr (List.mem_range'_1.mpr ⟨hk, by omega⟩)
  obtain ⟨f, hf, hfk⟩ := List.mem_map.mp hmem
  exact ⟨f, hf, hfk⟩

/-- What as many packets as announced make up. -/
theorem complete_iff {size nb : Nat} {packets : List Bytes} (hlen : packets.length = nb)
    (h8 : ∀ f ∈ packets, f.length = 8) :
    Complete size nb packets (bufferAfter size packets) ↔ Regular size nb packets := by
  constructor
  · rintro ⟨hcover, hsize, hplace⟩
    have hperm := perm_of_covers hlen hcover
    have hrange : ∀ f ∈ packets, 1 ≤ packetNumber f ∧ packetNumber f ≤ nb := by
      intro f hf
      have := List.mem_range'_1.mp (hperm.mem_iff.mpr (List.mem_map_of_mem hf))
      omega
    have h1 : ∀ f ∈ packets, 1 ≤ packetNumber f := fun f hf => (hrange f hf).1
    refine ⟨hperm.nodup_iff.mp List.nodup_range', hrange, ?_, ?_⟩
    · -- a size that is too large has a place no packet fills
      by_contra hbig
      obtain ⟨f, hf, hfk, -⟩ := hplace (nb + 1) (by omega) (by omega)
      have := (hrange f hf).2
      omega
    · -- a count that is too large makes a packet grow the buffer
      by_contra hcount
      obtain ⟨g, hg, hgk⟩ := hcover (size / 7 + 2) (by omega) (by omega)
      have := @length_bufferAfter_gt size _ h1 h8 g hg (by omega) (by omega)
      omega
  · rintro ⟨hnodup, hrange, hfits⟩
    obtain ⟨hsize, hplace⟩ := bufferAfter_regular hfits hnodup hrange h8
    have hcover := covers_of_nodup hlen hnodup hrange
    refine ⟨hcover, hsize, fun k hk hks => ?_⟩
    obtain ⟨f, hf, rfl⟩ := hcover k hk (by have := hfits.1; omega)
    exact ⟨f, hf, rfl, hplace f hf⟩

/-! ## 2. The packets since the last announce -/

/-- The size and the count in an announce frame. -/
def announced (frame : Bytes) : Nat × Nat :=
  ((frame.getD 1 0).toNat + (frame.getD 2 0).toNat * 256, (frame.getD 3 0).toNat)

/-- What an event of a source adds to its last announce and the packets
since. A frame that is no broadcast announce is ignored by the handler. -/
def noteEvent (acc : Option (Bytes × List Bytes)) : IsoEvent → Option (Bytes × List Bytes)
  | .announce _ _ frame => if frame.head? = some 32 then some (frame, []) else acc
  | .packet _ frame => acc.map (fun last => (last.1, last.2 ++ [frame]))

/-- The last announce of a source in a run, and its packets since then. -/
def sinceAnnounce (sa : Nat) (events : List IsoEvent) : Option (Bytes × List Bytes) :=
  (isoTransport.inputsOf sa events).foldl noteEvent none

/-- The transaction of a source goes with the frames since its last
announce. -/
def SlotMatches (last : Option (Bytes × List Bytes)) (slot : Option IsoTransportTransaction) :
    Prop :=
  ∀ t, slot = some t → ∃ frame packets, last = some (frame, packets) ∧
    t.state = .inTransmission ∧ t.totalSize = (announced frame).1 ∧
    t.nbPackets = (announced frame).2 ∧ t.transmittedPackets = packets.length ∧
    t.buffer = bufferAfter t.totalSize packets ∧ ∀ f ∈ packets, f.length = 8

theorem eq_of_length_eight {frame : Bytes} (h : frame.length = 8) :
    ∃ b0 b1 b2 b3 b4 b5 b6 b7, frame = [b0, b1, b2, b3, b4, b5, b6, b7] := by
  match frame, h with
  | [b0, b1, b2, b3, b4, b5, b6, b7], _ => exact ⟨b0, b1, b2, b3, b4, b5, b6, b7, rfl⟩

theorem slotMatches_step {last : Option (Bytes × List Bytes)}
    {slot : Option IsoTransportTransaction} (h : SlotMatches last slot) (e : IsoEvent)
    (h8 : e.frame.length = 8) : SlotMatches (noteEvent last e) (isoSlotStep slot e).2 := by
  obtain ⟨b0, b1, b2, b3, b4, b5, b6, b7, hframe⟩ := eq_of_length_eight h8
  cases e with
  | announce sa prio frame =>
    obtain rfl : frame = [b0, b1, b2, b3, b4, b5, b6, b7] := hframe
    by_cases hb : b0 = 32
    · subst hb
      rw [isoSlotStep_announce]
      intro t ht
      obtain rfl := Option.some.inj ht
      exact ⟨_, [], rfl, rfl, rfl, rfl, rfl, rfl, by simp⟩
    · have hstep : (isoSlotStep slot
          (.announce sa prio [b0, b1, b2, b3, b4, b5, b6, b7])).2 = slot := by
        simp [isoSlotStep, IsoTransportTransaction.incomingBamTransaction, hb]
      rw [hstep]
      simpa [noteEvent, hb] using h
  | packet sa frame =>
    obtain rfl : frame = [b0, b1, b2, b3, b4, b5, b6, b7] := hframe
    cases hslot : slot with
    | none => exact fun t ht => by simp [isoSlotStep] at ht
    | some t0 =>
      obtain ⟨frame, packets, rfl, hstate, hsize, hnb, hcount, hbuf, hlen⟩ := h t0 hslot
      rw [isoSlotStep_packet sa hstate]
      simp only
      split_ifs
      · exact fun t ht => by simp at ht
      · intro t ht
        obtain rfl := Option.some.inj ht
        refine ⟨frame, packets ++ [[b0, b1, b2, b3, b4, b5, b6, b7]], rfl, hstate, hsize, hnb,
          ?_, ?_, ?_⟩
        · simp [hcount]
        · rw [bufferAfter_concat, hbuf]
          rfl
        · intro f hf
          rcases List.mem_append.mp hf with hf | hf
          · exact hlen f hf
          · rw [List.mem_singleton.mp hf]
            rfl

theorem slotMatches_run {events : List IsoEvent} (h8 : ∀ e ∈ events, e.frame.length = 8)
    {last : Option (Bytes × List Bytes)} {slot : Option IsoTransportTransaction}
    (h : SlotMatches last slot) :
    SlotMatches (events.foldl noteEvent last) (isoSlotMachine.final slot events) := by
  induction events generalizing last slot with
  | nil => exact h
  | cons e events ih =>
    exact ih (fun e' he' => h8 e' (by simp [he'])) (slotMatches_step h e (h8 e (by simp)))

/-- The message that a packet delivers is made of the packets since the last
announce, as many as announced. -/
theorem delivered_spec {events : List IsoEvent} (h8 : ∀ e ∈ events, e.frame.length = 8) {sa : Nat}
    {frame : Bytes} (hframe : frame.length = 8) {msg : NMEA2000Msg}
    (h : ((isoTransport.final IsoTransportHandler.new events).incomingPacket sa frame).1
      = .ok (some msg)) :
    ∃ ann packets, sinceAnnounce sa (events ++ [.packet sa frame]) = some (ann, packets) ∧
      packets.length = (announced ann).2 ∧ (∀ f ∈ packets, f.length = 8) ∧
      msg.payload = bufferAfter (announced ann).1 packets := by
  have hmatch : SlotMatches (sinceAnnounce sa events)
      ((isoTransport.final IsoTransportHandler.new events).transactions.lookup sa) := by
    have hslot := isoTransport.slot_final sa IsoTransportHandler.new events
    rw [show isoTransport.slot (isoTransport.final IsoTransportHandler.new events) sa
      = (isoTransport.final IsoTransportHandler.new events).transactions.lookup sa from rfl] at hslot
    rw [hslot]
    exact slotMatches_run (fun e he => h8 e (List.mem_of_mem_filter he)) (fun t ht => by
      simp [isoTransport, IsoTransportHandler.new] at ht)
  have hout := (receive_spec (isoTransport.final IsoTransportHandler.new events)
    (.packet sa frame)).1
  rw [show ((isoTransport.final IsoTransportHandler.new events).receive (.packet sa frame)).1
    = .ok (some msg) from h] at hout
  have hsince : sinceAnnounce sa (events ++ [.packet sa frame])
      = (sinceAnnounce sa events).map (fun last => (last.1, last.2 ++ [frame])) := by
    have hkey : [IsoEvent.packet sa frame].filter (fun e => isoTransport.key e = sa)
        = [IsoEvent.packet sa frame] := List.filter_cons_of_pos (decide_eq_true rfl)
    rw [sinceAnnounce, Keyed.inputsOf, List.filter_append, hkey, List.foldl_concat]
    rfl
  cases hslot : (isoTransport.final IsoTransportHandler.new events).transactions.lookup sa with
  | none =>
    rw [show (IsoEvent.packet sa frame).sa = sa from rfl, hslot] at hout
    simp [isoSlotStep] at hout
  | some t =>
    obtain ⟨ann, packets, hlast, hstate, hsize, hnb, hcount, hbuf, hlen⟩ := hmatch t hslot
    obtain ⟨b, data, rfl⟩ : ∃ b data, frame = b :: data := by
      cases frame with
      | nil => simp at hframe
      | cons b data => exact ⟨b, data, rfl⟩
    rw [show (IsoEvent.packet sa (b :: data)).sa = sa from rfl, hslot,
      isoSlotStep_packet sa hstate] at hout
    simp only at hout
    split_ifs at hout with hend
    · obtain rfl : msg = _ := Option.some.inj (Except.ok.inj hout)
      refine ⟨ann, packets ++ [b :: data], by rw [hsince, hlast]; rfl, ?_, ?_, ?_⟩
      · rw [List.length_append, ← hcount, ← hnb]
        exact hend
      · intro f hf
        rcases List.mem_append.mp hf with hf | hf
        · exact hlen f hf
        · rw [List.mem_singleton.mp hf]
          exact hframe
      · rw [bufferAfter_concat, ← hsize, ← hbuf]
        rfl
    · simp at hout

/-- **Deliveries.** After any announces and packets of eight bytes: when a
packet delivers a message of its source, the message is complete exactly when
the packets since the last announce are regular. -/
theorem delivered_iff (events : List IsoEvent) (h8 : ∀ e ∈ events, e.frame.length = 8) (sa : Nat)
    (frame : Bytes) (hframe : frame.length = 8) (msg : NMEA2000Msg)
    (h : ((isoTransport.final IsoTransportHandler.new events).incomingPacket sa frame).1
      = .ok (some msg)) :
    ∃ ann packets, sinceAnnounce sa (events ++ [.packet sa frame]) = some (ann, packets) ∧
      (Complete (announced ann).1 (announced ann).2 packets msg.payload ↔
        Regular (announced ann).1 (announced ann).2 packets) := by
  obtain ⟨ann, packets, hsince, hlen, hall, hpayload⟩ := delivered_spec h8 hframe h
  exact ⟨ann, packets, hsince, by rw [hpayload]; exact complete_iff hlen hall⟩

/-- Nine bytes in two packets, the second of them first. -/
theorem delivered_nine :
    ∃ ann packets, sinceAnnounce 5
        ([.announce 5 6 [32, 9, 0, 2, 255, 5, 248, 1], .packet 5 [2, 8, 9, 255, 255, 255, 255, 255]]
          ++ [.packet 5 [1, 1, 2, 3, 4, 5, 6, 7]]) = some (ann, packets) ∧
      (Complete (announced ann).1 (announced ann).2 packets [1, 2, 3, 4, 5, 6, 7, 8, 9] ↔
        Regular (announced ann).1 (announced ann).2 packets) :=
  delivered_iff _ (by simp [IsoEvent.frame]) 5 _ rfl
    (.of 129029 6 5 255 [1, 2, 3, 4, 5, 6, 7, 8, 9]) rfl

/-- Nine bytes announced, and the first packet twice. -/
theorem not_complete_duplicate :
    ((isoTransport.final IsoTransportHandler.new
        [.announce 5 6 [32, 9, 0, 2, 255, 5, 248, 1],
          .packet 5 [1, 1, 2, 3, 4, 5, 6, 7]]).incomingPacket 5 [1, 1, 2, 3, 4, 5, 6, 7]).1
      = .ok (some (.of 129029 6 5 255 [1, 2, 3, 4, 5, 6, 7, 0, 0])) ∧
    sinceAnnounce 5 [.announce 5 6 [32, 9, 0, 2, 255, 5, 248, 1],
        .packet 5 [1, 1, 2, 3, 4, 5, 6, 7], .packet 5 [1, 1, 2, 3, 4, 5, 6, 7]]
      = some ([32, 9, 0, 2, 255, 5, 248, 1],
          [[1, 1, 2, 3, 4, 5, 6, 7], [1, 1, 2, 3, 4, 5, 6, 7]]) ∧
    ¬ Complete 9 2 [[1, 1, 2, 3, 4, 5, 6, 7], [1, 1, 2, 3, 4, 5, 6, 7]]
      [1, 2, 3, 4, 5, 6, 7, 0, 0] := by
  refine ⟨rfl, rfl, fun h => ?_⟩
  obtain ⟨f, hf, hf2⟩ := h.1 2 (by omega) (by omega)
  obtain rfl : f = [1, 1, 2, 3, 4, 5, 6, 7] := by simpa using hf
  exact absurd hf2 (by decide)

end NavigationServer.Nmea2000
