/-
NavigationServer.Couplers.IKonvertMsg — the messages of the iKonvert gateway.

A line of the gateway is a message of the bus (`!PDGY`), a status or an answer
to a command (`$PDGY`), or another NMEA0183 sentence. The line comes with its
CR LF.
-/
import NavigationServer.RouterCore.Pdgy

namespace NavigationServer.Couplers

open NavigationServer.Lib
open NavigationServer.RouterCore

/-- The message by its type, with the parameters that go with it. -/
inductive IKonvertMsg where
  | n2k (msg : ReadMsg)
  | notConn (boot : Option Bytes)
  | status (busLoad : Bytes) (frameErrors : Int) (nbDevices uptime canAddress : Bytes)
      (nbRejectedPGN : Int)
  | ack (message : Bytes)
  | nak (error : Bytes)
  | n183 (data : Bytes)
  deriving DecidableEq, Repr

namespace IKonvertMsg

/-- `rstrip(b'\r\n')`. -/
def rstripCrLf (text : Bytes) : Bytes := text.rdropWhile (fun c => c = 13 ∨ c = 10)

/-- A message of the bus. -/
def decodeN2k (fields : List Bytes) : Except Exn IKonvertMsg := do
  let msgData := rstripCrLf (← item fields 6)
  if msgData.length = 0 then throw .valueError
  let pgn ← int10 (← item fields 1)
  let prio ← int10 (← item fields 2)
  let sa ← int10 (← item fields 3)
  let da ← int10 (← item fields 4)
  let payload ← base64Payload msgData
  return .n2k ⟨pgn, prio, sa, da, payload⟩

/-- A status, or an answer. -/
def decodeStatus (fields : List Bytes) : Except Exn IKonvertMsg := do
  let kind ← item fields 1
  let first ← item kind 0
  if first = 48 then
    let errors ← item fields 3
    if errors.length = 0 then return .notConn none
    else
      return .status (← item fields 2) (← int10 errors) (← item fields 4) (← item fields 5)
        (← item fields 6) (← int10 (← item fields 7))
  else if kind = ascii "TEXT" then return .notConn (some (← item fields 2))
  else if kind = ascii "ACK" then return .ack (← item fields 2)
  else if kind = ascii "NAK" then return .nak (← item fields 2)
  else throw .valueError

/-- `iKonvertMsg.decode`. -/
def decode (data : Bytes) : Except Exn IKonvertMsg :=
  if data.length < 8 then .error .valueError
  else
    let fields := data.splitOn comma
    if fields.length < 2 then .error .valueError
    else do
      let head ← item fields 0
      if slice head 0 6 = ascii "!PDGY" then decodeN2k fields
      else if slice head 0 6 = ascii "$PDGY" then decodeStatus fields
      else
        let first ← item head 0
        if first = 36 then return .n183 data
        else throw .valueError

/-- What `iKonvertRead.nrun` catches. -/
def caughtByRead : Exn → Bool
  | .valueError => true
  | .indexError => true
  | .keyError => true
  | _ => false

end IKonvertMsg

end NavigationServer.Couplers
