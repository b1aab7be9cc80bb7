/-
NavigationServer.Nmea2000.FastPacket — the fast packet protocol of
`nmea2000/nmea2k_fast_packet.py`: reassembly of payloads that need several
CAN frames, and the splitting of such payloads on the way out.

`FastPacket` is the record of one open sequence, `FastPacketHandler` the
table of open sequences of one coupler. A method that raises may already have
changed the handler, so `processFrame` returns the outcome and the handler
side by side. The clock is read when a sequence is opened and when stale
sequences are collected; the reading is an argument.

`split_message` is a generator. `allocateSeq` runs when its first frame is
asked for and `freeSeq` when it is asked for a frame past the last one, so a
consumer that stops early leaves the sequence allocated. `splitFrames` gives
the frames in between, with the exception that ends them if there is one, and
`splitMessage` is the generator run to its end.
-/
import Mathlib.Data.List.AList
import Mathlib.Data.Rat.Floor
import NavigationServer.Lib.Bytes
import NavigationServer.RouterCommon.Exceptions

namespace NavigationServer.Nmea2000

open NavigationServer.Lib

/-! ## 1. One sequence -/

/-- Reassembly of one payload of more than 8 bytes. -/
structure FastPacket where
  key : Nat
  source : Nat
  seq : Nat
  byteLength : Nat
  length : Nat
  pgn : Nat
  frames : AList (fun _ : Nat => Bytes)
  count : Nat
  nbFrames : Nat
  timestamp : Time
  deriving DecidableEq

namespace FastPacket

/-- The key on 32 bits: the PGN on 20 bits, the source address on 8, the
sequence number above. -/
def computeKey (pgn addr seq : Nat) : Nat :=
  pgn + (addr <<< 20) + (seq <<< 28)

/-- `FastPacket.__init__`. -/
def new (now : Time) (pgn addr seq : Nat) : FastPacket where
  key := computeKey pgn addr seq
  source := addr
  seq := seq
  byteLength := 0
  length := 0
  pgn := pgn
  frames := ∅
  count := 0
  nbFrames := 0
  timestamp := now

/-- The number of frames for an announced length. `int(l7 / 7)` truncates
towards zero while the remainder has the sign of the divisor, so a length
below 6 counts two frames. -/
def nbFramesFor (byteLength : Nat) : Nat :=
  let l7 : Int := byteLength - 6
  let nb7 : Int := Int.tdiv l7 7
  let nb7 := if l7 % 7 ≠ 0 then nb7 + 1 else nb7
  (nb7 + 1).toNat

/-- Frame 0: the announced length, then 6 bytes of the payload. -/
def firstPacket (p : FastPacket) (frame : Bytes) : Except Exn FastPacket :=
  match frame[1]? with
  | none => .error .indexError
  | some byteLength => .ok
      { p with
        byteLength := byteLength.toNat
        nbFrames := nbFramesFor byteLength.toNat
        length := p.length + 6
        frames := p.frames.insert 0 (frame.drop 2)
        count := p.count + 1 }

/-- A continuation frame: a counter, then up to 7 bytes of the payload. -/
def addPacket (p : FastPacket) (frame : Bytes) : Except Exn FastPacket :=
  match frame with
  | [] => .error .indexError
  | control :: data =>
      let counter := control.toNat &&& 0x1F
      match p.frames.lookup counter with
      | some _ => .error (.fastPacket s!"Frame Index duplicate {counter}")
      | none => .ok
          { p with
            frames := p.frames.insert counter data
            count := p.count + 1
            length := p.length + data.length }

/-- Store a frame by its counter. -/
def takeFrame (p : FastPacket) (counter : Nat) (frame : Bytes) : Except Exn FastPacket :=
  if counter = 0 then p.firstPacket frame else p.addPacket frame

def checkComplete (p : FastPacket) : Bool :=
  if p.nbFrames = 0 then false
  else decide (p.byteLength ≤ p.length ∨ p.nbFrames ≤ p.count)

/-- One turn of the loop of `total_frame`, on the buffer and the start index. -/
def totalStep (p : FastPacket) (acc : Bytes × Nat) (i : Nat) : Except Exn (Bytes × Nat) :=
  let (result, startIdx) := acc
  match p.frames.lookup i with
  | none => .error (.fastPacket s!"Missing frame {i}")
  | some f =>
      let chunk :=
        if p.byteLength ≤ startIdx + f.length
        then slice f 0 ((p.byteLength : Int) - startIdx + 1)
        else f
      .ok (setSlice result startIdx result.length chunk, startIdx + f.length)

/-- The payload of a complete sequence. -/
def totalFrame (p : FastPacket) : Except Exn Bytes := do
  let (result, _) ← (List.range p.nbFrames).foldlM p.totalStep
    (List.replicate p.byteLength 0, 0)
  return result

/-- Whether the sequence is young enough to be kept. -/
def checkValidity (now : Time) (p : FastPacket) : Bool :=
  decide (0 < p.nbFrames) && decide (now - p.timestamp < 1 / 100 * p.nbFrames)

end FastPacket

/-! ## 2. The table of open sequences -/

/-- The reassembly of one coupler: the open sequences by key, and for the
transmit side the sequence number in use for each PGN (0 when free). -/
structure FastPacketHandler where
  sequences : AList (fun _ : Nat => FastPacket)
  writeSequences : AList (fun _ : Nat => Nat)

namespace FastPacketHandler

def new : FastPacketHandler := ⟨∅, ∅⟩

def store (h : FastPacketHandler) (key : Nat) (p : FastPacket) : FastPacketHandler :=
  { h with sequences := h.sequences.insert key p }

def delete (h : FastPacketHandler) (key : Nat) : FastPacketHandler :=
  { h with sequences := h.sequences.erase key }

/-- The sequence number in the control byte of a frame. -/
def seqOf (control : UInt8) : Nat := (control.toNat >>> 5) &&& 7

/-- The frame number in the control byte of a frame. -/
def counterOf (control : UInt8) : Nat := control.toNat &&& 0x1F

/-- `process_frame` once the sequence is there: the frame is stored in it, and
the payload returned if that completes it. The record is shared with the
table, so what a method does to it is done in the table. Only `add_packet`
raises a `FastPacketException`, which closes the sequence. -/
def feed (h : FastPacketHandler) (key counter : Nat) (handle : FastPacket) (frame : Bytes) :
    Except Exn (Option Bytes) × FastPacketHandler :=
  let h := h.store key handle
  match handle.takeFrame counter frame with
  | .error e => (.error e, if e.isFastPacket then h.delete key else h)
  | .ok handle =>
      if handle.checkComplete then (handle.totalFrame.map some, h.delete key)
      else (.ok none, h.store key handle)

/-- Process one frame: `none` when the payload is not complete yet. -/
def processFrame (now : Time) (h : FastPacketHandler) (pgn addr : Nat) (frame : Bytes) :
    Except Exn (Option Bytes) × FastPacketHandler :=
  match frame with
  | [] => (.error .indexError, h)
  | control :: _ =>
      let seq := seqOf control
      let key := FastPacket.computeKey pgn addr seq
      let counter := counterOf control
      match h.sequences.lookup key with
      | some handle => h.feed key counter handle frame
      | none =>
          if counter ≠ 0 then
            (.error (.fastPacket
              s!"Fast packet PGN {pgn} from address {addr} wrong first packet {counter}"), h)
          else h.feed key counter (FastPacket.new now pgn addr seq) frame

/-- Whether a sequence is open for this frame. -/
def isPgnActive (h : FastPacketHandler) (pgn addr : Nat) (frame : Bytes) : Except Exn Bool :=
  match frame with
  | [] => .error .indexError
  | control :: _ =>
      .ok (h.sequences.lookup (FastPacket.computeKey pgn addr (seqOf control))).isSome

/-- Drop the sequences that are no longer valid, each under its own key. -/
def collectGarbage (now : Time) (h : FastPacketHandler) : FastPacketHandler :=
  let toBeRemoved := (h.sequences.entries.filter (fun s => !s.2.checkValidity now)).map
    (fun s => s.2.key)
  toBeRemoved.foldl delete h

/-! ## 3. Splitting a payload -/

/-- A sequence number for a PGN: one message at a time, so always 1. -/
def allocateSeq (h : FastPacketHandler) (pgn : Nat) : Except Exn (Nat × FastPacketHandler) :=
  if (h.writeSequences.lookup pgn).getD 0 = 0 then
    .ok (1, { h with writeSequences := h.writeSequences.insert pgn 1 })
  else .error .valueError

def freeSeq (h : FastPacketHandler) (pgn : Nat) : FastPacketHandler :=
  { h with writeSequences := h.writeSequences.insert pgn 0 }

/-- `while ptr < frame_len`: copy `n` bytes of the payload into the frame. -/
def copyBytes (data : Bytes) : Nat → Bytes → Nat → Nat → Except Exn (Bytes × Nat × Nat)
  | 0, frame, ptr, dataPtr => .ok (frame, ptr, dataPtr)
  | n + 1, frame, ptr, dataPtr =>
      match data[dataPtr]? with
      | none => .error .indexError
      | some b => copyBytes data n (frame.set ptr b) (ptr + 1) (dataPtr + 1)

/-- `while ptr < 8`: fill `n` bytes of the frame. -/
def padBytes : Nat → Bytes → Nat → Bytes
  | 0, frame, _ => frame
  | n + 1, frame, ptr => padBytes n (frame.set ptr 0xFF) (ptr + 1)

/-- The frame for one value of the counter, with the new data pointer. The
number of bytes to copy is `frame_len - ptr`, also in frame 0 where one more
byte is taken by the length. -/
def splitFrame (data : Bytes) (seqEn counter dataPtr : Nat) : Except Exn (Bytes × Nat) := do
  let totalLen := data.length
  let frameLen := min 8 (totalLen - dataPtr + 1)
  if 255 < seqEn ||| counter ∨ (counter = 0 ∧ 255 < totalLen) then throw .valueError
  let frame := (List.replicate 8 0).set 0 (UInt8.ofNat (seqEn ||| counter))
  let (frame, ptr) := if counter = 0 then (frame.set 1 (UInt8.ofNat totalLen), 2) else (frame, 1)
  let (frame, ptr, dataPtr) ← copyBytes data (frameLen - ptr) frame ptr dataPtr
  let frame := if frameLen < 8 then padBytes (8 - ptr) frame ptr else frame
  return (frame, dataPtr)

/-- The loop of `split_message` over the given values of the counter: the
frames yielded, and the exception that ends them if there is one. -/
def splitLoop (data : Bytes) (seqEn : Nat) : List Nat → Nat → List Bytes × Option Exn
  | [], _ => ([], none)
  | counter :: counters, dataPtr =>
      match splitFrame data seqEn counter dataPtr with
      | .error e => ([], some e)
      | .ok (frame, dataPtr) =>
          let (frames, e) := splitLoop data seqEn counters dataPtr
          (frame :: frames, e)

/-- `nb_frames`, a number that need not be whole. -/
def nbFramesOut (data : Bytes) : ℚ := ((data.length : ℚ) - 6) / 7 + 1

/-- The frames between `allocate_seq` and `free_seq`. The counter takes the
values below `nb_frames`. -/
def splitFrames (data : Bytes) (seq : Nat) : List Bytes × Option Exn :=
  splitLoop data (seq <<< 5) (List.range ⌈nbFramesOut data⌉₊) 0

/-- `split_message` run to its end: the frames, and how it ended. -/
def splitMessage (h : FastPacketHandler) (pgn : Nat) (data : Bytes) :
    (List Bytes × Option Exn) × FastPacketHandler :=
  match h.allocateSeq pgn with
  | .error e => (([], some e), h)
  | .ok (seq, h) =>
      match splitFrames data seq with
      | (frames, some e) => ((frames, some e), h)
      | (frames, none) => ((frames, none), h.freeSeq pgn)

/-- `split_message`, of which the consumer asks for `asked` frames: the first
request takes the sequence, and the one behind the last frame frees it. -/
def splitMessageUpto (h : FastPacketHandler) (pgn : Nat) (data : Bytes) (asked : Nat) :
    (List Bytes × Option Exn) × FastPacketHandler :=
  if asked = 0 then (([], none), h)
  else
    match h.allocateSeq pgn with
    | .error e => (([], some e), h)
    | .ok (seq, h) =>
        let (frames, e) := splitFrames data seq
        if asked ≤ frames.length then ((frames.take asked, none), h)
        else
          match e with
          | some e => ((frames, some e), h)
          | none => ((frames, none), h.freeSeq pgn)

end FastPacketHandler

end NavigationServer.Nmea2000
