/-
NavigationServer.RouterCore.Nmea0183Msg — the router's NMEA0183 message.

The message keeps the sentence as it came, with CR LF at its end, and the
places where its parts are. `sentence` closes a text with its checksum, and
`init_sentence` reads such a sentence: the constructor accepts it and `fields`
gives back the parts between the commas. The time stamp is left out.
-/
import NavigationServer.Lib.Lists
import NavigationServer.RouterCommon.Exceptions

namespace NavigationServer.RouterCore

open NavigationServer.Lib

/-! ## 1. The message -/

def comma : UInt8 := 44

def star : UInt8 := 42

def crLf : Bytes := [13, 10]

def bChecksum (nmeaBytes : Bytes) : UInt8 := nmeaBytes.foldl (· ^^^ ·) 0

structure NMEA0183Msg where
  raw : Bytes
  datalen : Nat
  checksum : Nat
  datalenS : Nat
  delimiter : UInt8
  datafieldsS : Nat
  address : Bytes
  proprietary : Bool
  deriving DecidableEq, Repr

namespace NMEA0183Msg

/-- `_raw` and `_datalen`, from `NavGenericMsg.__init__`. -/
def withCrLf (data : Bytes) : Bytes × Nat :=
  let i1 : Int := data.length - 2
  if slice data i1 data.length = crLf then (data, i1.toNat) else (data ++ crLf, data.length)

/-- The checksum, and where the fields end. -/
def verify (raw : Bytes) (datalen : Nat) : Except Exn (Nat × Nat) :=
  match getItem raw ((datalen : Int) - 3) with
  | none => .error .indexError
  | some c =>
      if c ≠ star then .error .nmeaInvalidFrame
      else
        match intOfHex (slice raw ((datalen : Int) - 2) datalen) with
        | none => .error .valueError
        | some checksum =>
            if checksum ≠ ((bChecksum (slice raw 1 ((datalen : Int) - 3))).toNat : Int) then
              .error .nmeaInvalidFrame
            else .ok (checksum.toNat, datalen - 3)

/-- `NMEA0183Msg.__init__`. Without data the message has no `_raw`. An octet
is never equal to the byte string `b'P'`, so no message is proprietary. -/
def init (data : Bytes) (checksum : Bool) : Except Exn NMEA0183Msg :=
  match data with
  | [] => .error .attributeError
  | delimiter :: _ =>
      let (raw, datalen) := withCrLf data
      match if checksum then verify raw datalen else .ok (0, datalen) with
      | .error e => .error e
      | .ok (checksum, datalenS) =>
          match raw.idxOf? comma with
          | none => .error .valueError
          | some indComma =>
              let address := slice raw 1 indComma
              if address.isEmpty then .error .indexError
              else
                .ok { raw, datalen, checksum, datalenS, delimiter, datafieldsS := indComma + 1,
                      address, proprietary := false }

def fields (m : NMEA0183Msg) : List Bytes :=
  (slice m.raw m.datafieldsS m.datalenS).splitOn comma

end NMEA0183Msg

/-- The end of a connection is a frame of its own, and comes to no sentence. -/
def processNmea0183Frame (frame : Bytes) (checksum : Bool) : Except Exn (Option NMEA0183Msg) :=
  match frame with
  | [] => .error .indexError
  | delimiter :: _ =>
      if delimiter = 4 then .ok none
      else if delimiter ∉ ascii "$!" then .error .nmeaInvalidFrame
      else (NMEA0183Msg.init frame checksum).map some

/-! ## 2. Sentences -/

/-- A text with its checksum. -/
def sentence (text : Bytes) : Bytes :=
  text ++ star :: hexByte .upper (bChecksum text.tail)

theorem withCrLf_sentence (text : Bytes) :
    NMEA0183Msg.withCrLf (sentence text) = (sentence text ++ crLf, (sentence text).length) := by
  have hend : slice (sentence text) ((sentence text).length - 2 : Int) (sentence text).length
      = hexByte .upper (bChecksum text.tail) := by
    have hlen : ((sentence text).length : Int) - 2 = ((text.length + 1 : Nat) : Int) := by
      simp [sentence, hexByte]
      omega
    rw [hlen, slice_natCast, List.take_of_length_le (by simp), sentence, List.drop_append]
    simp
  have hne : hexByte .upper (bChecksum text.tail) ≠ crLf := by
    intro h
    have hdigit : (13 : UInt8) ∈ hexByte .upper (bChecksum text.tail) := h ▸ by simp [crLf]
    exact (isHexDigit_of_mem_hexNumber hdigit).ne (by decide) rfl
  rw [NMEA0183Msg.withCrLf, hend, if_neg hne]

theorem verify_sentence (text : Bytes) :
    NMEA0183Msg.verify (sentence text ++ crLf) (sentence text).length
      = .ok ((bChecksum text.tail).toNat, text.length) := by
  have hlen : (sentence text).length = text.length + 3 := by simp [sentence, hexByte]
  have h3 : ((sentence text).length : Int) - 3 = (text.length : Int) := by omega
  have h2 : ((sentence text).length : Int) - 2 = ((text.length + 1 : Nat) : Int) := by omega
  have hstar : getItem (sentence text ++ crLf) (text.length : Int) = some star := by
    rw [getItem_natCast, sentence]
    simp
  have hdigits : slice (sentence text ++ crLf) ((text.length + 1 : Nat) : Int) (sentence text).length
      = hexByte .upper (bChecksum text.tail) := by
    have hcut : text.length + 3 - (text.length + 1) = (hexByte .upper (bChecksum text.tail)).length := by
      simp [hexByte]
    rw [slice_natCast, hlen, hcut, sentence, List.append_assoc, List.drop_append,
      List.drop_eq_nil_of_le (by omega)]
    simp
  have hbody : slice (sentence text ++ crLf) 1 (text.length : Int) = text.tail := by
    rw [show (1 : Int) = ((1 : Nat) : Int) from rfl, slice_natCast, ← List.drop_take, sentence]
    simp
  have hbyte := (bChecksum text.tail).toNat_lt
  rw [NMEA0183Msg.verify, h3, h2, hstar]
  simp only [ne_eq, not_true_eq_false, if_false]
  rw [hdigits, hbody, hexByte, intOfHex_hexNumber .upper (by decide),
    Nat.mod_eq_of_lt (show (bChecksum text.tail).toNat < 16 ^ 2 from hbyte)]
  simp [hlen]

/-- **A sentence is read, and its fields are the parts between the commas.** -/
theorem init_sentence {delimiter : UInt8} {address : Bytes} {fields : List Bytes}
    (hne : address ≠ []) (hcomma : comma ∉ delimiter :: address) (hfields : fields ≠ [])
    (hparts : ∀ f ∈ fields, comma ∉ f) :
    ∃ m, NMEA0183Msg.init
        (sentence (delimiter :: address ++ comma :: [comma].intercalate fields)) true = .ok m ∧
      m.address = address ∧ m.fields = fields := by
  obtain ⟨text, htext⟩ : ∃ text, text = delimiter :: address ++ comma :: [comma].intercalate fields :=
    ⟨_, rfl⟩
  obtain ⟨tail, htail⟩ : ∃ tail, sentence text ++ crLf
      = (delimiter :: address) ++ comma :: ([comma].intercalate fields ++ tail) :=
    ⟨star :: hexByte .upper (bChecksum text.tail) ++ crLf, by simp [sentence, htext]⟩
  have hhead : sentence text = delimiter :: (sentence text).tail := by simp [sentence, htext]
  have hindex : (sentence text ++ crLf).idxOf? comma = some (address.length + 1) := by
    rw [htail, idxOf?_append_cons hcomma, List.length_cons]
  have haddress : slice (sentence text ++ crLf) 1 ((address.length + 1 : Nat) : Int) = address := by
    rw [show (1 : Int) = ((1 : Nat) : Int) from rfl, slice_natCast, htail]
    simp
  have hbody : slice (sentence text ++ crLf) ((address.length + 1 + 1 : Nat) : Int)
      (text.length : Int) = [comma].intercalate fields := by
    have hcut : text.length - (address.length + 1 + 1) = ([comma].intercalate fields).length := by
      rw [htext]
      simp
      omega
    rw [slice_natCast, htail, hcut, List.cons_append, List.drop_succ_cons, ← List.drop_drop,
      List.drop_left, List.drop_succ_cons, List.drop_zero, List.take_left]
  rw [← htext, hhead, NMEA0183Msg.init, ← hhead, withCrLf_sentence]
  simp only [if_true]
  rw [verify_sentence]
  simp only
  rw [hindex]
  simp only
  rw [haddress, if_neg (by simpa using hne)]
  refine ⟨_, rfl, rfl, ?_⟩
  rw [NMEA0183Msg.fields, hbody, List.splitOn_intercalate comma hparts hfields]

end NavigationServer.RouterCore
