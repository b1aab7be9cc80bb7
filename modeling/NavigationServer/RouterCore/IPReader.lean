/-
NavigationServer.RouterCore.IPReader — the read loop that cuts a byte stream
into frames.

`IPAsynchReader.nrun` looks for CR LF in each buffer it receives and keeps the
beginning of a frame that the buffer does not complete in `part_buf`. The loop
over one buffer is `scan`, on what is left of the buffer: `rest` is
`buffer[start_idx:end_idx]`, so an index is counted from the start index, and
`start_idx = index + 2` drops `index + 2` bytes of it. Handing a frame over is
a call of `msg_processing`, which is a parameter: it may look at the frames it
was given before, and tells how the call ends. The reader is not transparent
and is not stopped, and an output queue that is full changes nothing here.
-/
import NavigationServer.Lib.Bytes

namespace NavigationServer.RouterCore

open NavigationServer.Lib

def cr : UInt8 := 13

def lf : UInt8 := 10

def separator : Bytes := [cr, lf]

/-- How a call of `msg_processing` ends: with a message, with one of the exceptions
the loop catches, or with another one (`raised`). -/
inductive Processing where
  | message
  | incompleteMessage
  | invalidFrame
  | readError
  | raised
  deriving DecidableEq

/-- `msg_processing`, on the frames handed over before and the new one. -/
abbrev MsgProcessing := List Bytes → Bytes → Processing

/-- `part`, `part_buf`, the frames handed over so far, and whether an exception has
ended the thread. -/
structure ReaderState where
  part : Bool
  partBuf : Bytes
  handed : List Bytes
  raised : Bool
  deriving DecidableEq

def ReaderState.start : ReaderState := ⟨false, [], [], false⟩

/-- `buffer.find`. -/
def findSeparator : Bytes → Option Nat
  | [] => none
  | [_] => none
  | a :: b :: rest =>
      if a = cr ∧ b = lf then some 0 else (findSeparator (b :: rest)).map (· + 1)

/-- What a turn of the loop comes to: it leaves the loop, or goes on behind
`index`, without a frame or with one. -/
inductive Turn where
  | leave (st : ReaderState)
  | skip (index : Nat) (st : ReaderState)
  | frame (f : Bytes) (index : Nat) (st : ReaderState)

/-- The step over a separator at the start index. -/
def skipSeparator (rest : Bytes) : Nat := if rest.headD 0 ∈ separator then 1 else 0

/-- The end of a turn that has an index. -/
def atIndex (st : ReaderState) (rest : Bytes) (index : Nat) : Turn :=
  if st.part then
    let frame :=
      if index = 0 then st.partBuf
      else st.partBuf ++ (rest.take index).drop (skipSeparator rest)
    let st := { st with part := false }
    if frame.length = 0 then .skip index st else .frame frame index st
  else
    let startIdx := skipSeparator rest
    if index ≤ startIdx then .skip index st
    else
      let frame := (rest.take index).drop startIdx
      if frame.length = 0 then .skip index st else .frame frame index st

/-- One turn, on a rest that is not empty. -/
def turn (st : ReaderState) (rest : Bytes) : Turn :=
  match findSeparator rest with
  | some index => atIndex st rest index
  | none =>
      let endIdx := rest.length
      if st.part then
        let endIdx := if rest.getLastD 0 ∈ separator then endIdx - 1 else endIdx
        .leave { st with partBuf := st.partBuf ++ rest.take endIdx }
      else if rest.getLastD 0 ∈ separator then atIndex st rest (endIdx - 1)
      else
        let startIdx := skipSeparator rest
        if endIdx - startIdx > 0 then
          .leave { st with part := true, partBuf := rest.drop startIdx }
        else .leave st

/-- The loop over a buffer, for at most `fuel` turns. -/
def scan (proc : MsgProcessing) : Nat → ReaderState → Bytes → ReaderState
  | 0, st, _ => st
  | fuel + 1, st, rest =>
      if rest.isEmpty then st
      else
        match turn st rest with
        | .leave st => st
        | .skip index st => scan proc fuel st (rest.drop (index + 2))
        | .frame f index st =>
            match proc st.handed f with
            -- the break leaves this loop only
            | .readError => { st with handed := st.handed ++ [f] }
            | .raised => { st with handed := st.handed ++ [f], raised := true }
            | _ => scan proc fuel { st with handed := st.handed ++ [f] } (rest.drop (index + 2))

/-- One buffer. Every turn that does not leave the loop takes bytes off, so
there are no more turns than bytes. -/
def readBuffer (proc : MsgProcessing) (st : ReaderState) (buffer : Bytes) : ReaderState :=
  scan proc buffer.length st buffer

/-- A turn of the outer loop, which an exception has ended or not. -/
def nextBuffer (proc : MsgProcessing) (st : ReaderState) (buffer : Bytes) : ReaderState :=
  if st.raised then st else readBuffer proc st buffer

/-- The read loop over the buffers it receives. -/
def nrun (proc : MsgProcessing) (st : ReaderState) (buffers : List Bytes) : ReaderState :=
  buffers.foldl (nextBuffer proc) st

/-- As many turns as there are bytes are enough. -/
theorem scan_fuel (proc : MsgProcessing) (n : Nat) :
    ∀ (m : Nat) (st : ReaderState) (rest : Bytes), rest.length ≤ n → rest.length ≤ m →
      scan proc n st rest = scan proc m st rest := by
  induction n with
  | zero =>
    intro m st rest hn _
    obtain rfl : rest = [] := List.length_eq_zero_iff.mp (Nat.le_zero.mp hn)
    cases m <;> rfl
  | succ n ih =>
    intro m st rest hn hm
    cases rest with
    | nil => cases m <;> rfl
    | cons b rest =>
      obtain ⟨m, rfl⟩ : ∃ m', m = m' + 1 := ⟨m - 1, by rw [List.length_cons] at hm; omega⟩
      rw [List.length_cons] at hn hm
      have hdrop : ∀ index st, scan proc n st ((b :: rest).drop (index + 2))
          = scan proc m st ((b :: rest).drop (index + 2)) := fun index st =>
        ih m st _ (by rw [List.length_drop, List.length_cons]; omega)
          (by rw [List.length_drop, List.length_cons]; omega)
      rw [scan, scan]
      simp only [hdrop]

end NavigationServer.RouterCore
