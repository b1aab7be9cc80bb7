/-
NavigationServer.Couplers.VedirectCoupler — the text protocol of a VE.Direct
device, byte by byte.

`Vedirect.input` is a state machine over the bytes of the serial line, and
`run` puts the dictionary of a block whose checksum is right on the queue. A
dictionary is a function, and a character is its byte. Of the input buffer the
model keeps how full it is: its content goes to the trace and to the answer of a
HEX command only. The bytes of `read` are fed one by one, so the chunks they come
in make no difference.

`Recorder` is the thread beside a note of the stream: what came before the block
that is going on, the bytes of the block, what the dictionary held when it
began, and whether a byte of it was dropped or a HEX response cut into it.
-/
import Mathlib.Logic.Function.Basic
import NavigationServer.Lib.Machine
import NavigationServer.RouterCommon.Exceptions

namespace NavigationServer.Couplers

open NavigationServer.Lib

/-! ## 1. The thread -/

inductive VedirectState where
  | hex
  | waitHeader
  | inKey
  | inValue
  | inChecksum
  deriving DecidableEq, Repr

/-- A text of the device, or the time of the record. -/
inductive VedirectValue where
  | text (value : Bytes)
  | time (t : Time)
  deriving DecidableEq, Repr

abbrev VedirectDict := Bytes → Option VedirectValue

def VedirectDict.empty : VedirectDict := fun _ => none

structure Vedirect where
  key : Bytes
  value : Bytes
  bytesSum : Nat
  state : VedirectState
  dict : VedirectDict
  buflen : Nat

/-- A byte that `read` gives, the clock, and whether the queue has a place. -/
structure VedirectInput where
  byte : UInt8
  now : Time
  accepted : Bool

namespace Vedirect

def header1 : UInt8 := 13

def header2 : UInt8 := 10

def hexmarker : UInt8 := 58

def delimiter : UInt8 := 9

def checksumLabel : Bytes := ascii "Checksum"

def timestamp : Bytes := ascii "timestamp"

def new : Vedirect where
  key := []
  value := []
  bytesSum := 0
  state := .waitHeader
  dict := .empty
  buflen := 0

def addToSum (p : Vedirect) (byte : UInt8) : Vedirect := { p with bytesSum := p.bytesSum + byte.toNat }

def inputHeader (p : Vedirect) (byte : UInt8) : Vedirect :=
  let p := p.addToSum byte
  if byte = header1 then { p with state := .waitHeader }
  else if byte = header2 then { p with state := .inKey }
  else p

def inputKey (p : Vedirect) (byte : UInt8) : Vedirect :=
  let p := p.addToSum byte
  if byte = delimiter then
    if p.key = checksumLabel then { p with state := .inChecksum } else { p with state := .inValue }
  else { p with key := p.key ++ [byte] }

def inputValue (p : Vedirect) (byte : UInt8) : Vedirect :=
  let p := p.addToSum byte
  if byte = header1 then
    { p with
      state := .waitHeader
      dict := Function.update p.dict p.key (some (.text p.value))
      key := []
      value := [] }
  else { p with value := p.value ++ [byte] }

/-- The dictionary is returned, and stays what it is for the next block. -/
def inputChecksum (p : Vedirect) (byte : UInt8) : Option VedirectDict × Vedirect :=
  let p := p.addToSum byte
  (if p.bytesSum % 256 = 0 then some p.dict else none,
    { p with key := [], value := [], state := .waitHeader, bytesSum := 0 })

def inputHex (p : Vedirect) (byte : UInt8) : Vedirect :=
  if byte = header2 then { p with bytesSum := 0, state := .waitHeader, buflen := 0 }
  else { p with bytesSum := 0 }

/-- A full buffer drops the byte. -/
def input (p : Vedirect) (byte : UInt8) : Option VedirectDict × Vedirect :=
  if 512 ≤ p.buflen then (none, { p with buflen := 0 })
  else
    let p := { p with
      buflen := p.buflen + 1
      state := if byte = hexmarker ∧ p.state ≠ VedirectState.inChecksum then .hex else p.state }
    match p.state with
    | .waitHeader => (none, p.inputHeader byte)
    | .inKey => (none, p.inputKey byte)
    | .inValue => (none, p.inputValue byte)
    | .inChecksum => p.inputChecksum byte
    | .hex => (none, p.inputHex byte)

/-- A turn of `run` on one byte, and what it puts on the queue. A queue that is
full loses the message, and nothing is cleared. -/
def turn (p : Vedirect) (i : VedirectInput) : Option VedirectDict × Vedirect :=
  match p.input i.byte with
  | (none, p) => (none, p)
  | (some _, p) =>
      let dict := Function.update p.dict timestamp (some (.time i.now))
      if i.accepted then (some dict, { p with dict := .empty, buflen := 0 })
      else (none, { p with dict := dict })

end Vedirect

/-! ## 2. The thread and its stream -/

structure Recorder where
  parser : Vedirect
  before : Bytes
  block : Bytes
  carried : VedirectDict
  disturbed : Bool

namespace Recorder

open Vedirect

def new : Recorder where
  parser := .new
  before := []
  block := []
  carried := .empty
  disturbed := false

/-- A checksum byte ends the block. A HEX response before the first byte of a
block is no part of it; inside a block it disturbs it, as a dropped byte does. -/
def note (r : Recorder) (byte : UInt8) (parser : Vedirect) : Recorder :=
  if 512 ≤ r.parser.buflen then
    { r with parser := parser, block := r.block ++ [byte], disturbed := true }
  else if r.parser.state = .inChecksum then
    { parser := parser, before := r.before ++ r.block ++ [byte], block := [],
      carried := parser.dict, disturbed := false }
  else if r.block = [] ∧ (byte = hexmarker ∨ r.parser.state = .hex) then
    { r with parser := parser, before := r.before ++ [byte] }
  else
    { r with parser := parser, block := r.block ++ [byte],
             disturbed := r.disturbed || decide (byte = hexmarker ∨ r.parser.state = .hex) }

/-- A dictionary on the queue, with the bytes up to its block and the block. -/
structure Put where
  dict : VedirectDict
  before : Bytes
  block : Bytes

/-- The thread and the note, fed with the bytes of the line. -/
def recorder : Machine Recorder VedirectInput (Option Put) where
  step r i :=
    let (put, parser) := r.parser.turn i
    (put.map (fun dict => { dict, before := r.before, block := r.block ++ [i.byte] }),
      r.note i.byte parser)

end Recorder

end NavigationServer.Couplers
