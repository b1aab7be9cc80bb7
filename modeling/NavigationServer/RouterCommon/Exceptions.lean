/-
NavigationServer.RouterCommon.Exceptions — the exceptions the modelled code
raises, and the conversions of text that raise one.

The first fourteen are the Python ones that an index, a dictionary, a conversion,
a `struct` call, an attribute, a type, a `raise` without an exception, an
assertion, a method to be overloaded, a variable without a value, a missing file,
a text that is no code, a division or a number too big for its bytes raises; the
others are the classes of `router_common`, `nmea2000`, `router_core`,
`can_interface`, `log_replay`, `couplers` and `network`, with the text they carry.
-/
import Mathlib.Data.Rat.Defs
import NavigationServer.Lib.Decimal

namespace NavigationServer

open NavigationServer.Lib

inductive Exn where
  | indexError
  | keyError
  | valueError
  | structError
  | attributeError
  | typeError
  | runtimeError
  | assertionError
  | notImplementedError
  | nameError
  | fileNotFoundError
  | syntaxError
  | zeroDivisionError
  | overflowError
  | n2kDecode (text : String)
  | n2kInvalidMessage
  | fastPacket (text : String)
  | isoTransport (text : String)
  | unknownPGN (text : String)
  | definitionError (text : String)
  | incompleteMessage
  | nmeaInvalidFrame
  | couplerReadError (text : String)
  | couplerWriteError (text : String)
  | socketCanError (text : String)
  | logReadError (reason : String)
  | n2kRawDecodeError (text : String)
  | n2kMissingDecodeEncode
  | vedirect (text : String)
  | modem (text : String)
  deriving DecidableEq, Repr

/-- The exception is a `FastPacketException`. -/
def Exn.isFastPacket : Exn → Bool
  | .fastPacket _ => true
  | _ => false

/-- A reading of the clock, in seconds. -/
abbrev Time := ℚ

/-- `l[i]`, for an index that is not negative. -/
def item {α : Type*} (l : List α) (i : Nat) : Except Exn α :=
  match l[i]? with
  | some x => .ok x
  | none => .error .indexError

/-- `int(text, 16)`. The numbers of the modelled formats have no sign, so a
negative one is refused here. -/
def int16 (text : Bytes) : Except Exn Nat :=
  match intOfHex text with
  | some (.ofNat n) => .ok n
  | _ => .error .valueError

/-- `int(text)`. An interpreter may limit the digits it reads, to 4300 unless it is
told otherwise; this one reads any number of them. -/
def int10 (text : Bytes) : Except Exn Int :=
  match intOfDecimal text with
  | some n => .ok n
  | none => .error .valueError

/-- `bytearray.fromhex`. -/
def fromhex (text : Bytes) : Except Exn Bytes :=
  match bytesOfHex text with
  | some data => .ok data
  | none => .error .valueError

theorem item_append {α : Type*} (front back : List α) (x : α) :
    item (front ++ x :: back) front.length = .ok x := by
  simp [item]

theorem item_append_add {α : Type*} (front back : List α) (k : Nat) :
    item (front ++ back) (front.length + k) = item back k := by
  simp [item, List.getElem?_append_right]

/-- A computation in steps has a result when each step has one. -/
theorem bind_eq_ok {ε α β : Type} {x : Except ε α} {f : α → Except ε β} {b : β} :
    x >>= f = .ok b ↔ ∃ a, x = .ok a ∧ f a = .ok b := by
  cases x with
  | error e =>
    constructor
    · intro h
      cases h
    · rintro ⟨a, ha, -⟩
      cases ha
  | ok a =>
    constructor
    · intro h
      exact ⟨a, rfl, h⟩
    · rintro ⟨a', ha, h⟩
      cases ha
      exact h

/-- It raises what the first failing step raises. -/
theorem bind_eq_error {ε α β : Type} {x : Except ε α} {f : α → Except ε β} {e : ε} :
    x >>= f = .error e ↔ x = .error e ∨ ∃ a, x = .ok a ∧ f a = .error e := by
  cases x with
  | error e' =>
    constructor
    · intro h
      rw [← Except.error.inj h]
      exact .inl rfl
    · rintro (h | ⟨a, ha, -⟩)
      · rw [Except.error.inj h]
        rfl
      · cases ha
  | ok a =>
    constructor
    · intro h
      exact .inr ⟨a, rfl, h⟩
    · rintro (h | ⟨a', ha, h⟩)
      · cases h
      · cases ha
        exact h

theorem int10_eq_ok {text : Bytes} {n : Int} : int10 text = .ok n ↔ intOfDecimal text = some n := by
  unfold int10
  cases intOfDecimal text <;> simp

theorem int10_error {text : Bytes} {e : Exn} (h : int10 text = .error e) : e = .valueError := by
  unfold int10 at h
  split at h
  · cases h
  · exact (Except.error.inj h).symm

theorem int16_hexNumber (c : LetterCase) {w : Nat} (hw : 0 < w) (n : Nat) :
    int16 (hexNumber c w n) = .ok (n % 16 ^ w) := by
  rw [int16, intOfHex_hexNumber c hw]

theorem int16_hexFormat (c : LetterCase) (w n : Nat) : int16 (hexFormat c w n) = .ok n := by
  rw [int16, intOfHex_hexFormat c w n]

theorem fromhex_hexBytes (c : LetterCase) (data : Bytes) :
    fromhex (hexBytes c data) = .ok data := by
  rw [fromhex, bytesOfHex_hexBytes]

end NavigationServer
