/-
NavigationServer.RouterCore.Nmea0183Sentences — sentences that leave the router.

A sentence object holds a text, and `message` writes it with its checksum. The
format of the checksum asks for two places, not for two digits. The talker of a
message is replaced in its bytes and in its address.
-/
import NavigationServer.RouterCore.Nmea0183Protobuf

namespace NavigationServer.RouterCore

open NavigationServer.Lib

/-- An object of `NMEA0183Sentences`. -/
structure NMEA0183Sentences where
  sentence : List Char

namespace NMEA0183Sentences

/-- `checksum(nmea_str)`. -/
def checksum (nmeaStr : List Char) : Nat := nmeaStr.tail.foldl (fun sum c => sum ^^^ c.toNat) 0

/-- `'%2X'`, which fills up with blanks. -/
def format2X (n : Nat) : Bytes := (hexFormat .upper 1 n).leftpad 2 32

/-- The text, the star, the checksum and CR LF. -/
def message (s : NMEA0183Sentences) : Bytes :=
  encode s.sentence ++ star :: format2X (checksum s.sentence) ++ crLf

end NMEA0183Sentences

/-- `replace_talker`. -/
def NMEA0183Msg.replaceTalker (m : NMEA0183Msg) (talker : Bytes) : NMEA0183Msg :=
  { m with
    raw := setSlice m.raw 1 3 (talker.take 2)
    address := setSlice m.address 0 2 (talker.take 2) }

end NavigationServer.RouterCore
