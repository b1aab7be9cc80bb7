/-
NavigationServer.Nmea2000.IsoSlots — the ISO transport handler as independent
slots, one for each source address.

`writePacket` is described by the place a packet number stands for: inside the
message it fills its place (`writePacket_inside`), behind it the bounds of the
slice run backwards and the buffer may grow (`length_writePacket_outside`).
`isoSlotStep` is the transition of one slot and `isoTransport` packages the
handler as a `Keyed` machine.
-/
import NavigationServer.Lib.Keyed
import NavigationServer.Nmea2000.IsoTransport

namespace NavigationServer.Nmea2000

open NavigationServer.Lib
open NavigationServer.Nmea2000Datamodel (pgnPdu1Adjust)
open NavigationServer.RouterCore
open IsoTransportTransaction (writePacket)

/-! ## 1. Writing a packet -/

/-- A packet whose place starts inside the message fills the place, up to the
end of the message. -/
theorem writePacket_inside {total k : Nat} {buffer : Bytes} (frame : Bytes) (hk : 1 ≤ k)
    (hin : 7 * (k - 1) ≤ total) (hlen : total ≤ buffer.length) :
    writePacket total buffer frame k
      = buffer.take (7 * (k - 1)) ++ (frame.drop 1).take (min (7 * k) total - 7 * (k - 1))
        ++ buffer.drop (min (7 * k) total) := by
  have hptr : ((k : Int) - 1) * 7 = ((7 * (k - 1) : Nat) : Int) := by omega
  have hstop : ((7 * (k - 1) : Nat) : Int)
      + (if ((7 * (k - 1) : Nat) : Int) + 7 > total then (total : Int) - (7 * (k - 1) : Nat) else 7)
      = ((min (7 * k) total : Nat) : Int) := by
    split <;> omega
  have hslice : (if ((7 * (k - 1) : Nat) : Int) + 7 > total then
      (total : Int) - (7 * (k - 1) : Nat) else 7) + 1
      = ((min (7 * k) total - 7 * (k - 1) + 1 : Nat) : Int) := by
    split <;> omega
  simp only [writePacket]
  rw [hptr, hstop, hslice, show (1 : Int) = ((1 : Nat) : Int) from rfl, slice_natCast,
    setSlice_natCast _ _ (by omega) (by omega), Nat.add_sub_cancel]

/-- The bytes of a packet that starts behind the message are put into the
buffer by the negative bound of the slice, or left out. -/
theorem length_writePacket_outside {total k : Nat} {buffer frame : Bytes}
    (hout : total < 7 * (k - 1)) (hlen : total ≤ buffer.length) (h8 : frame.length = 8) :
    (writePacket total buffer frame k).length
      = buffer.length + (if 7 * (k - 1) = total + 1 then 0 else 8 - (7 * (k - 1) - total)) := by
  have hptr : ((k : Int) - 1) * 7 = ((7 * (k - 1) : Nat) : Int) := by omega
  have hlength : (if ((7 * (k - 1) : Nat) : Int) + 7 > total then
      (total : Int) - (7 * (k - 1) : Nat) else 7) = (total : Int) - (7 * (k - 1) : Nat) := by
    rw [if_pos (by omega)]
  have hnew : (slice frame 1 ((total : Int) - (7 * (k - 1) : Nat) + 1)).length
      = if 7 * (k - 1) = total + 1 then 0 else 8 - (7 * (k - 1) - total) := by
    rw [slice, List.length_drop, List.length_take, h8, show clampIndex 8 1 = 1 from rfl]
    unfold clampIndex
    split_ifs <;> omega
  simp only [writePacket]
  rw [hptr, hlength, length_setSlice, hnew, clampIndex_natCast,
    show ((7 * (k - 1) : Nat) : Int) + ((total : Int) - (7 * (k - 1) : Nat)) = (total : Int) by omega,
    clampIndex_natCast]
  omega

/-! ## 2. The handler as slots -/

/-- A frame for the handler. -/
inductive IsoEvent where
  | announce (sa prio : Nat) (frame : Bytes)
  | packet (sa : Nat) (frame : Bytes)

namespace IsoEvent

def sa : IsoEvent → Nat
  | announce sa _ _ => sa
  | packet sa _ => sa

def frame : IsoEvent → Bytes
  | announce _ _ frame => frame
  | packet _ frame => frame

end IsoEvent

/-- What the handler answers to an event. -/
def IsoTransportHandler.receive (h : IsoTransportHandler) :
    IsoEvent → Except Exn (Option NMEA2000Msg) × IsoTransportHandler
  | .announce sa prio frame =>
      ((h.newTransaction sa prio frame).1.map (fun _ => none), (h.newTransaction sa prio frame).2)
  | .packet sa frame => h.incomingPacket sa frame

/-- What an event does to the transaction of its source. -/
def isoSlotStep (slot : Option IsoTransportTransaction) :
    IsoEvent → Except Exn (Option NMEA2000Msg) × Option IsoTransportTransaction
  | .announce sa prio frame =>
      match IsoTransportTransaction.new.incomingBamTransaction sa prio frame with
      | .error (.isoTransport _) => (.ok none, slot)
      | .error e => (.error e, slot)
      | .ok transact => (.ok none, some transact)
  | .packet _ frame =>
      match slot with
      | none => (.error (.isoTransport ""), none)
      | some transact =>
          match transact.incomingPacket frame with
          | (.error (.isoTransport text), _) => (.error (.isoTransport text), none)
          | (.error e, transact) => (.error e, some transact)
          | (.ok (some msg), _) => (.ok (some msg), none)
          | (.ok none, transact) => (.ok none, some transact)

/-- The answer to an event, the slot of its source and the other slots. -/
theorem receive_spec (h : IsoTransportHandler) (e : IsoEvent) :
    (h.receive e).1 = (isoSlotStep (h.transactions.lookup e.sa) e).1 ∧
    (h.receive e).2.transactions.lookup e.sa = (isoSlotStep (h.transactions.lookup e.sa) e).2 ∧
    ∀ k ≠ e.sa, (h.receive e).2.transactions.lookup k = h.transactions.lookup k := by
  cases e with
  | announce sa prio frame =>
    simp only [IsoTransportHandler.receive, IsoTransportHandler.newTransaction, isoSlotStep,
      IsoEvent.sa]
    cases IsoTransportTransaction.new.incomingBamTransaction sa prio frame with
    | error e => cases e <;> exact ⟨rfl, rfl, fun _ _ => rfl⟩
    | ok t => exact ⟨rfl, AList.lookup_insert _, fun k hk => AList.lookup_insert_ne hk⟩
  | packet sa frame =>
    simp only [IsoTransportHandler.receive, IsoTransportHandler.incomingPacket, isoSlotStep,
      IsoEvent.sa]
    cases hslot : h.transactions.lookup sa with
    | none => exact ⟨rfl, hslot, fun _ _ => rfl⟩
    | some t =>
      simp only
      obtain ⟨out, t'⟩ := t.incomingPacket frame
      cases out with
      | error e =>
        cases e <;> first
          | exact ⟨rfl, AList.lookup_insert _, fun k hk => AList.lookup_insert_ne hk⟩
          | exact ⟨rfl, AList.lookup_erase _ _, fun k hk => AList.lookup_erase_ne hk⟩
      | ok out =>
        cases out with
        | none => exact ⟨rfl, AList.lookup_insert _, fun k hk => AList.lookup_insert_ne hk⟩
        | some msg => exact ⟨rfl, AList.lookup_erase _ _, fun k hk => AList.lookup_erase_ne hk⟩

/-- The handler as a machine with one slot for each source. -/
def isoTransport : Keyed IsoTransportHandler Nat (Option IsoTransportTransaction) IsoEvent
    (Except Exn (Option NMEA2000Msg)) where
  step := IsoTransportHandler.receive
  key := IsoEvent.sa
  slot := fun h sa => h.transactions.lookup sa
  slotStep := fun _ => isoSlotStep
  step_output := fun h e => (receive_spec h e).1
  step_same := fun h e => (receive_spec h e).2.1
  step_other := fun h e => (receive_spec h e).2.2

/-- The machine of one slot. -/
def isoSlotMachine : Machine (Option IsoTransportTransaction) IsoEvent
    (Except Exn (Option NMEA2000Msg)) where
  step := isoSlotStep

/-- A transaction that goes on with a packet. -/
theorem isoSlotStep_packet {t : IsoTransportTransaction} (sa : Nat) {b : UInt8} {data : Bytes}
    (ht : t.state = .inTransmission) :
    isoSlotStep (some t) (.packet sa (b :: data))
      = (let t' : IsoTransportTransaction := { t with
          buffer := writePacket t.totalSize t.buffer (b :: data) b.toNat
          transmittedPackets := t.transmittedPackets + 1 }
        if t'.transmittedPackets = t'.nbPackets then (.ok (some t'.message), none)
        else (.ok none, some t')) := by
  simp only [isoSlotStep, IsoTransportTransaction.incomingPacket, ht, ne_eq, not_true_eq_false,
    if_false]
  split_ifs <;> rfl

/-- A broadcast announce of eight bytes opens a transaction. -/
theorem isoSlotStep_announce (slot : Option IsoTransportTransaction) (sa prio : Nat)
    (s0 s1 nb r p0 p1 p2 : UInt8) :
    isoSlotStep slot (.announce sa prio [32, s0, s1, nb, r, p0, p1, p2])
      = (.ok none, some {
          IsoTransportTransaction.new with
          sa, prio
          totalSize := s0.toNat + s1.toNat * 256
          nbPackets := nb.toNat
          pgn := (pgnPdu1Adjust ((p0.toNat + p1.toNat * 256) ||| p2.toNat <<< 16)).1
          state := .inTransmission
          buffer := List.replicate (s0.toNat + s1.toNat * 256) 0 }) := rfl

end NavigationServer.Nmea2000
