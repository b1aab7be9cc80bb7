/-
NavigationServer.Nmea2000.Reassembly — the reassembly table as independent
slots, one for each key.

`process_frame` reads and writes one entry of the table, the one of the key
of its frame. `feedSlot` and `slotStep` are that entry's own transition
(`none`: no open sequence), and `reassembly` packages the handler with them
as a `Keyed` machine. Everything about one transfer is then proved about a
single slot and carried to the handler, and to any interleaving, by
`Keyed.outs_filter`.

A `Received` is one call of `process_frame`: the clock reading it may need,
the PGN and source address from the CAN identifier, and the data bytes.
-/
import NavigationServer.Lib.Keyed
import NavigationServer.Nmea2000.FastPacket

namespace NavigationServer.Nmea2000

open NavigationServer.Lib

/-! ## 1. The control byte -/

namespace FastPacketHandler

/-- The control byte of frame `i` of a sequence. -/
def controlByte (seq i : Nat) : UInt8 := UInt8.ofNat (seq * 32 + i)

theorem toNat_controlByte {seq i : Nat} (hs : seq < 8) (hi : i < 32) :
    (controlByte seq i).toNat = seq * 32 + i := by
  rw [controlByte, UInt8.toNat_ofNat']
  omega

theorem seqOf_eq (b : UInt8) : seqOf b = b.toNat / 32 := by
  have h : b.toNat < 256 := b.toNat_lt
  rw [seqOf, Nat.shiftRight_eq_div_pow, show (7 : Nat) = 2 ^ 3 - 1 from rfl,
    Nat.and_two_pow_sub_one_eq_mod]
  omega

theorem counterOf_eq (b : UInt8) : counterOf b = b.toNat % 32 := by
  rw [counterOf, show (0x1F : Nat) = 2 ^ 5 - 1 from rfl, Nat.and_two_pow_sub_one_eq_mod]

theorem seqOf_lt (b : UInt8) : seqOf b < 8 := by
  have h : b.toNat < 256 := b.toNat_lt
  rw [seqOf_eq]
  omega

theorem counterOf_lt (b : UInt8) : counterOf b < 32 := by
  rw [counterOf_eq]
  omega

theorem seqOf_controlByte {seq i : Nat} (hs : seq < 8) (hi : i < 32) :
    seqOf (controlByte seq i) = seq := by
  rw [seqOf_eq, toNat_controlByte hs hi]
  omega

theorem counterOf_controlByte {seq i : Nat} (hs : seq < 8) (hi : i < 32) :
    counterOf (controlByte seq i) = i := by
  rw [counterOf_eq, toNat_controlByte hs hi]
  omega

end FastPacketHandler

theorem FastPacket.computeKey_eq (pgn addr seq : Nat) :
    computeKey pgn addr seq = pgn + addr * 1048576 + seq * 268435456 := by
  unfold computeKey
  rw [Nat.shiftLeft_eq, Nat.shiftLeft_eq]

/-- The key tells PGN, address and sequence number apart while each stays in
its own bits. -/
theorem FastPacket.computeKey_inj {pgn pgn' addr addr' seq seq' : Nat}
    (hp : pgn < 1048576) (hp' : pgn' < 1048576) (ha : addr < 256) (ha' : addr' < 256)
    (h : computeKey pgn addr seq = computeKey pgn' addr' seq') :
    pgn = pgn' ∧ addr = addr' ∧ seq = seq' := by
  rw [computeKey_eq, computeKey_eq] at h
  omega

/-! ## 2. One slot -/

/-- What `feed` does to the entry it is given. -/
def feedSlot (counter : Nat) (handle : FastPacket) (frame : Bytes) :
    Except Exn (Option Bytes) × Option FastPacket :=
  match handle.takeFrame counter frame with
  | .error e => (.error e, if e.isFastPacket then none else some handle)
  | .ok handle =>
      if handle.checkComplete then (handle.totalFrame.map some, none)
      else (.ok none, some handle)

/-- One call of `process_frame`. -/
structure Received where
  now : Time
  pgn : Nat
  addr : Nat
  frame : Bytes

namespace Received

/-- The key of a frame. A frame with no byte has none and touches no entry. -/
def key (rx : Received) : Nat :=
  match rx.frame with
  | [] => FastPacket.computeKey rx.pgn rx.addr 0
  | control :: _ => FastPacket.computeKey rx.pgn rx.addr (FastPacketHandler.seqOf control)

end Received

/-- What `process_frame` does to the entry of the frame's key. -/
def slotStep (slot : Option FastPacket) (rx : Received) :
    Except Exn (Option Bytes) × Option FastPacket :=
  match rx.frame with
  | [] => (.error .indexError, slot)
  | control :: data =>
      let counter := FastPacketHandler.counterOf control
      match slot with
      | some handle => feedSlot counter handle (control :: data)
      | none =>
          if counter ≠ 0 then
            let pgn := rx.pgn
            let addr := rx.addr
            (.error (.fastPacket
              s!"Fast packet PGN {pgn} from address {addr} wrong first packet {counter}"), none)
          else
            feedSlot counter
              (FastPacket.new rx.now rx.pgn rx.addr (FastPacketHandler.seqOf control))
              (control :: data)

namespace FastPacketHandler

@[simp] theorem lookup_store (h : FastPacketHandler) (key : Nat) (p : FastPacket) :
    (h.store key p).sequences.lookup key = some p := by
  simp [store]

theorem lookup_store_ne (h : FastPacketHandler) {key k : Nat} (p : FastPacket) (hk : k ≠ key) :
    (h.store key p).sequences.lookup k = h.sequences.lookup k := by
  simp [store, AList.lookup_insert_ne hk]

@[simp] theorem lookup_delete (h : FastPacketHandler) (key : Nat) :
    (h.delete key).sequences.lookup key = none := by
  simp [delete]

theorem lookup_delete_ne (h : FastPacketHandler) {key k : Nat} (hk : k ≠ key) :
    (h.delete key).sequences.lookup k = h.sequences.lookup k := by
  simp [delete, AList.lookup_erase_ne hk]

theorem feed_fst (h : FastPacketHandler) (key counter : Nat) (p : FastPacket) (frame : Bytes) :
    (h.feed key counter p frame).1 = (feedSlot counter p frame).1 := by
  unfold feed feedSlot
  cases p.takeFrame counter frame with
  | error e => rfl
  | ok handle => by_cases hc : handle.checkComplete <;> simp [hc]

theorem lookup_feed (h : FastPacketHandler) (key counter : Nat) (p : FastPacket) (frame : Bytes) :
    (h.feed key counter p frame).2.sequences.lookup key = (feedSlot counter p frame).2 := by
  unfold feed feedSlot
  cases p.takeFrame counter frame with
  | error e => by_cases he : e.isFastPacket <;> simp [he]
  | ok handle => by_cases hc : handle.checkComplete <;> simp [hc]

theorem lookup_feed_ne (h : FastPacketHandler) {key k : Nat} (counter : Nat) (p : FastPacket)
    (frame : Bytes) (hk : k ≠ key) :
    (h.feed key counter p frame).2.sequences.lookup k = h.sequences.lookup k := by
  unfold feed
  cases p.takeFrame counter frame with
  | error e =>
    by_cases he : e.isFastPacket <;>
      simp [he, lookup_delete_ne _ hk, lookup_store_ne _ _ hk]
  | ok handle =>
    by_cases hc : handle.checkComplete <;>
      simp [hc, lookup_delete_ne _ hk, lookup_store_ne _ _ hk]

/-- The call of `process_frame` that a `Received` stands for. -/
def receive (h : FastPacketHandler) (rx : Received) :
    Except Exn (Option Bytes) × FastPacketHandler :=
  h.processFrame rx.now rx.pgn rx.addr rx.frame

theorem receive_fst (h : FastPacketHandler) (rx : Received) :
    (h.receive rx).1 = (slotStep (h.sequences.lookup rx.key) rx).1 := by
  obtain ⟨now, pgn, addr, frame⟩ := rx
  cases frame with
  | nil => rfl
  | cons c data =>
    simp only [receive, processFrame, slotStep, Received.key]
    cases h.sequences.lookup (FastPacket.computeKey pgn addr (seqOf c)) with
    | some handle => exact feed_fst _ _ _ _ _
    | none =>
      by_cases hc : counterOf c = 0
      · simpa [hc] using feed_fst _ _ _ _ _
      · simp [hc]

theorem lookup_receive (h : FastPacketHandler) (rx : Received) :
    (h.receive rx).2.sequences.lookup rx.key = (slotStep (h.sequences.lookup rx.key) rx).2 := by
  obtain ⟨now, pgn, addr, frame⟩ := rx
  cases frame with
  | nil => rfl
  | cons c data =>
    simp only [receive, processFrame, slotStep, Received.key]
    cases hslot : h.sequences.lookup (FastPacket.computeKey pgn addr (seqOf c)) with
    | some handle => exact lookup_feed _ _ _ _ _
    | none =>
      by_cases hc : counterOf c = 0
      · simpa [hc] using lookup_feed _ _ _ _ _
      · simp [hc, hslot]

theorem lookup_receive_ne (h : FastPacketHandler) (rx : Received) {k : Nat} (hk : k ≠ rx.key) :
    (h.receive rx).2.sequences.lookup k = h.sequences.lookup k := by
  obtain ⟨now, pgn, addr, frame⟩ := rx
  cases frame with
  | nil => rfl
  | cons c data =>
    simp only [Received.key] at hk
    simp only [receive, processFrame]
    cases h.sequences.lookup (FastPacket.computeKey pgn addr (seqOf c)) with
    | some handle => exact lookup_feed_ne _ _ _ _ hk
    | none =>
      simp only
      split
      · rfl
      · exact lookup_feed_ne _ _ _ _ hk

end FastPacketHandler

/-- The handler as a machine with one slot for each key. -/
def reassembly : Keyed FastPacketHandler Nat (Option FastPacket) Received
    (Except Exn (Option Bytes)) where
  step := FastPacketHandler.receive
  key := Received.key
  slot := fun h k => h.sequences.lookup k
  slotStep := fun _ => slotStep
  step_output := FastPacketHandler.receive_fst
  step_same := FastPacketHandler.lookup_receive
  step_other := fun h rx _ hk => FastPacketHandler.lookup_receive_ne h rx hk

/-- The machine of one slot. -/
def slotMachine : Machine (Option FastPacket) Received (Except Exn (Option Bytes)) where
  step := slotStep

/-- Frames that all have the key `k` run in the handler as in the slot of
`k`. -/
theorem outs_reassembly {k : Nat} (h : FastPacketHandler) (rxs : List Received)
    (hk : ∀ rx ∈ rxs, rx.key = k) :
    reassembly.outs h rxs = slotMachine.outs (h.sequences.lookup k) rxs :=
  reassembly.outs_of_key hk h

theorem lookup_reassembly {k : Nat} (h : FastPacketHandler) (rxs : List Received)
    (hk : ∀ rx ∈ rxs, rx.key = k) :
    (reassembly.final h rxs).sequences.lookup k
      = slotMachine.final (h.sequences.lookup k) rxs :=
  reassembly.slot_final_of_key hk h

end NavigationServer.Nmea2000
