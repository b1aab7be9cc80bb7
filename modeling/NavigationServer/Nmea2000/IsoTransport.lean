/-
NavigationServer.Nmea2000.IsoTransport — the ISO transport protocol
(J1939/21), broadcast mode.

A transaction receives a message in packets of seven bytes behind a sequence
byte, or cuts one into such packets. The buffer is written by assigning to
slices, with the bounds the sequence byte gives, so a packet can write
outside its place or make the buffer longer. The timer of a transaction is
built but never started, so `timer_lapse` does not run and is left out with
the start time.
-/
import Mathlib.Data.List.AList
import NavigationServer.Nmea2000Datamodel.PgnDefinition
import NavigationServer.RouterCore.Nmea2000Msg

namespace NavigationServer.Nmea2000

open NavigationServer.Lib
open NavigationServer.Nmea2000Datamodel (pgnPdu1Adjust)
open NavigationServer.RouterCore

/-! ## 1. The announce frame -/

/-- `_bam_struct.unpack`, the format `<BHBBHB`. -/
def bamUnpack : Bytes → Except Exn (Nat × Nat × Nat × Nat × Nat × Nat)
  | [b0, b1, b2, b3, b4, b5, b6, b7] =>
      .ok (b0.toNat, b1.toNat + b2.toNat * 256, b3.toNat, b4.toNat, b5.toNat + b6.toNat * 256,
        b7.toNat)
  | _ => .error .structError

/-- `_bam_struct.pack_into` on a frame of eight bytes. -/
def bamPack (control size nbPackets reserved pgnLow pgnUp : Nat) : Except Exn Bytes :=
  if control < 256 ∧ size < 65536 ∧ nbPackets < 256 ∧ reserved < 256 ∧ pgnLow < 65536 ∧
      pgnUp < 256 then
    .ok [UInt8.ofNat control, UInt8.ofNat (size % 256), UInt8.ofNat (size / 256),
      UInt8.ofNat nbPackets, UInt8.ofNat reserved, UInt8.ofNat (pgnLow % 256),
      UInt8.ofNat (pgnLow / 256), UInt8.ofNat pgnUp]
  else .error .structError

/-! ## 2. A transaction -/

inductive TpState where
  | created
  | announced
  | inTransmission
  | tpEnd
  deriving DecidableEq, Repr

/-- The last four fields are not set before a transaction is announced. -/
structure IsoTransportTransaction where
  pgn : Nat
  state : TpState
  nbPackets : Nat
  transmittedPackets : Nat
  totalSize : Nat
  buffer : Bytes
  sa : Nat
  prio : Nat
  deriving DecidableEq

namespace IsoTransportTransaction

def new : IsoTransportTransaction where
  pgn := 0
  state := .created
  nbPackets := 0
  transmittedPackets := 0
  totalSize := 0
  buffer := []
  sa := 0
  prio := 0

def incomingBamTransaction (t : IsoTransportTransaction) (sa prio : Nat) (frame : Bytes) :
    Except Exn IsoTransportTransaction :=
  match frame with
  | [] => .error .indexError
  | b :: _ =>
      if b ≠ 32 then
        let control := b.toNat
        .error (.isoTransport s!"ISO Transport Non BAM transaction: {control}")
      else
        match bamUnpack frame with
        | .error e => .error e
        | .ok (_, size, nbPackets, _, pgnLow, pgnUp) =>
            .ok { t with
              sa, prio
              totalSize := size
              nbPackets
              pgn := (pgnPdu1Adjust (pgnLow ||| pgnUp <<< 16)).1
              state := .inTransmission
              buffer := List.replicate size 0 }

/-- The assignment to the buffer for a packet. -/
def writePacket (totalSize : Nat) (buffer frame : Bytes) (seqNum : Nat) : Bytes :=
  let ptr : Int := ((seqNum : Int) - 1) * 7
  let length : Int := if ptr + 7 > totalSize then totalSize - ptr else 7
  setSlice buffer ptr (ptr + length) (slice frame 1 (length + 1))

/-- The message of a transaction that is over. -/
def message (t : IsoTransportTransaction) : NMEA2000Msg :=
  .of t.pgn t.prio t.sa 255 t.buffer

def incomingPacket (t : IsoTransportTransaction) (frame : Bytes) :
    Except Exn (Option NMEA2000Msg) × IsoTransportTransaction :=
  if t.state ≠ .inTransmission then (.error (.isoTransport ""), t)
  else
    match frame with
    | [] => (.error .indexError, t)
    | seqNum :: _ =>
        let t := { t with
          buffer := writePacket t.totalSize t.buffer frame seqNum.toNat
          transmittedPackets := t.transmittedPackets + 1 }
        if t.transmittedPackets = t.nbPackets then
          (.ok (some t.message), { t with state := .tpEnd })
        else (.ok none, t)

/-- The announce frame for a message, and the transaction that sends it. -/
def outgoingBamTransaction (t : IsoTransportTransaction) (msg : NMEA2000Msg) :
    Except Exn (NMEA2000Msg × IsoTransportTransaction) :=
  let totalSize := msg.payload.length
  let nbPackets := totalSize / 7 + if totalSize % 7 ≠ 0 then 1 else 0
  let pgnLow := msg.pgn &&& 0xFFFF
  let pgnUp := (msg.pgn >>> 16) &&& 0xFF
  match bamPack 32 totalSize nbPackets 0xFF pgnLow pgnUp with
  | .error e => .error e
  | .ok payload =>
      .ok (.of 60416 7 msg.sa 255 payload, { t with totalSize, buffer := msg.payload, nbPackets })

/-- `data[i] = 0xFF`. -/
def padByte (data : Bytes) (i : Int) : Except Exn Bytes :=
  match setItem data i 0xFF with
  | none => .error .indexError
  | some data => .ok data

/-- One turn of the loop of `split_message`, on the frame that all turns
share. The padding is written at the two places `l` and 7. -/
def splitPacket (t : IsoTransportTransaction) (data : Bytes) (seqNum ptr : Nat) :
    Except Exn (Bytes × Nat) :=
  if 255 < seqNum then .error .valueError
  else
    let data := data.set 0 (UInt8.ofNat seqNum)
    if seqNum = t.nbPackets then do
      let l : Int := (t.totalSize : Int) - ptr
      let data := setSlice data 1 (l + 1) (slice t.buffer ptr t.buffer.length)
      let r := 7 - l
      if r ≠ 0 then
        let data ← padByte data l
        let data ← padByte data 7
        return (data, ptr)
      else return (data, ptr)
    else .ok (setSlice data 1 data.length (slice t.buffer ptr (ptr + 7)), ptr + 7)

/-- The loop of `split_message` for the next `n` packets: the frames as they
are when they are yielded, and the exception that ends them if there is one. -/
def splitPackets (t : IsoTransportTransaction) : Nat → Bytes → Nat → Nat → List Bytes × Option Exn
  | 0, _, _, _ => ([], none)
  | n + 1, data, seqNum, ptr =>
      match t.splitPacket data seqNum ptr with
      | .error e => ([], some e)
      | .ok (data, ptr) =>
          let (frames, e) := splitPackets t n data (seqNum + 1) ptr
          (data :: frames, e)

def splitMessage (t : IsoTransportTransaction) : List Bytes × Option Exn :=
  t.splitPackets t.nbPackets (List.replicate 8 0) 1 0

end IsoTransportTransaction

/-! ## 3. The handler -/

structure IsoTransportHandler where
  transactions : AList (fun _ : Nat => IsoTransportTransaction)

namespace IsoTransportHandler

def new : IsoTransportHandler := ⟨∅⟩

/-- A transport exception is logged and the announce ignored. -/
def newTransaction (h : IsoTransportHandler) (sa prio : Nat) (frame : Bytes) :
    Except Exn Unit × IsoTransportHandler :=
  match IsoTransportTransaction.new.incomingBamTransaction sa prio frame with
  | .error (.isoTransport _) => (.ok (), h)
  | .error e => (.error e, h)
  | .ok transact => (.ok (), ⟨h.transactions.insert sa transact⟩)

def newOutputTransaction (msg : NMEA2000Msg) :
    Except Exn (NMEA2000Msg × IsoTransportTransaction) :=
  IsoTransportTransaction.new.outgoingBamTransaction msg

def incomingPacket (h : IsoTransportHandler) (sa : Nat) (frame : Bytes) :
    Except Exn (Option NMEA2000Msg) × IsoTransportHandler :=
  match h.transactions.lookup sa with
  | none => (.error (.isoTransport ""), h)
  | some transact =>
      match transact.incomingPacket frame with
      | (.error (.isoTransport text), _) =>
          (.error (.isoTransport text), ⟨h.transactions.erase sa⟩)
      | (.error e, transact) => (.error e, ⟨h.transactions.insert sa transact⟩)
      | (.ok (some msg), _) => (.ok (some msg), ⟨h.transactions.erase sa⟩)
      | (.ok none, transact) => (.ok none, ⟨h.transactions.insert sa transact⟩)

end IsoTransportHandler

end NavigationServer.Nmea2000
