/-
NavigationServer.Network.UsbModemAtLib — the responses of a modem, split into
their parameters.

`splitResponse` reads the text behind the command from left to right. `turn` is
one turn of its loop: the text of a parameter, if the turn has found one, and
the index to go on from. The index grows with every turn, so the length of the
response bounds their number. A character is its byte; on ASCII texts `isdigit`
is the test below. The log is left out.
-/
import Mathlib.Data.List.Infix
import NavigationServer.Lib.Bytes
import NavigationServer.RouterCommon.Exceptions

namespace NavigationServer.Network

open NavigationServer.Lib

/-- A parameter of a response. -/
inductive AtValue where
  | int (n : Nat)
  | str (text : Bytes)
  deriving DecidableEq, Repr

def quote : UInt8 := 34

def comma : UInt8 := 44

/-- `s.isdigit()`. -/
def isdigit (s : Bytes) : Bool := !s.isEmpty && s.all isDigit

/-- The parameter for a text. -/
def decodeParam (s : Bytes) : AtValue := if isdigit s then .int (decValue s) else .str s

/-- `text.find(c, start)`. -/
def find (text : Bytes) (c : UInt8) (start : Nat) : Option Nat :=
  ((text.drop start).idxOf? c).map (start + ·)

/-- A text of the response as it stands in a message. -/
def asString (text : Bytes) : String := String.ofList (text.map (fun c => Char.ofNat c.toNat))

/-- One turn of the loop, at an index inside the response. -/
def turn (resp : Bytes) (index : Nat) : Except Exn (Option Bytes × Nat) := do
  let c ← item resp index
  if c = quote then
    let start := index + 1
    match find resp quote start with
    | none =>
        let text := asString resp
        throw (.modem s!"Error decoding response {text} at index {start}")
    | some stop => return (some (slice resp start stop), stop + 1)
  else if c = comma then
    let index := index + 1
    let c ← item resp index
    if c = comma then return (some [], index + 1) else return (none, index)
  else
    let start := index
    match find resp comma start with
    | none => return (some (resp.drop start), resp.length)
    | some stop => return (some (slice resp start stop), stop + 1)

/-- `while index < len(resp)`. -/
def scan (resp : Bytes) : Nat → Nat → Except Exn (List AtValue)
  | 0, _ => .ok []
  | fuel + 1, index =>
      if index < resp.length then do
        let (s, index) ← turn resp index
        let param ← scan resp fuel index
        return (s.map decodeParam).toList ++ param
      else .ok []

/-- The parameters of a response to a command; `None` is returned for another
command's response if that is not to raise. -/
def splitResponse (cmd resp : Bytes) (raiseException : Bool) :
    Except Exn (Option (List AtValue)) :=
  if cmd <:+: resp then (scan resp resp.length (cmd.length + 2)).map some
  else if raiseException then
    let command := asString cmd
    let text := asString resp
    .error (.modem s!"Unexpected response:{command} => {text}")
  else .ok none

end NavigationServer.Network
