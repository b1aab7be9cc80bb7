/-
NavigationServer.RouterCore.Nmea0183MsgTheorems — which frames the NMEA0183
readers accept.

`trimmed` is the frame without the CR LF at its end, so that a message keeps
the trimmed frame and CR LF. The constructor looks at the frame from its end
(`verify_starred`, `verify_unstarred`) and then at its beginning
(`idxOf?_of_hasAddress`). A call ends with a message, with `NMEAInvalidFrame`,
or with one of the two exceptions that no reader catches: `ValueError` from
`int` or from the search of the comma, and `IndexError` from the first byte of
an empty address. `readsSentences_iff_orderly` tells the frames for which the reader goes on and
accepts the sentences only.

The cases are those of the end of the frame. `int` with base 16 takes more than two digits
do: a sign, blanks and underscores. So a starred frame can pass the checksum and be no
sentence, and `Orderly` names that case. What a message gives out of its fields is left
out here.
-/
import NavigationServer.RouterCore.Nmea0183Msg

namespace NavigationServer.RouterCore

open NavigationServer.Lib

/-! ## 1. What a sentence is -/

/-- The frame without CR LF at its end. -/
def trimmed (frame : Bytes) : Bytes :=
  if crLf <:+ frame then frame.take (frame.length - 2) else frame

/-- A comma stands behind at least one character of the address. -/
def HasAddress (body : Bytes) : Prop :=
  ∃ address rest, body = address ++ comma :: rest ∧ address ≠ [] ∧ comma ∉ address

/-- The frame is a delimiter, an address, fields and a checksum: the xor of what
is between the delimiter and the star, on two hexadecimal digits. -/
def IsSentence (frame : Bytes) : Prop :=
  ∃ delimiter body c1 c2 high low,
    trimmed frame = delimiter :: body ++ [star, c1, c2] ∧ delimiter ∈ ascii "$!" ∧
      HasAddress body ∧ digitVal c1 = some high ∧ digitVal c2 = some low ∧
      16 * high + low = (bChecksum body).toNat

/-- A frame comes to a message or is refused as invalid, and with the checksum
the sentences are the frames that come to a message. -/
def ReadsSentences (frame : Bytes) (checksum : Bool) : Prop :=
  ((∃ msg, processNmea0183Frame frame checksum = .ok msg) ∨
    processNmea0183Frame frame checksum = .error .nmeaInvalidFrame) ∧
  (checksum = true →
    ((∃ msg, processNmea0183Frame frame true = .ok msg) ↔ IsSentence frame))

/-- With the checksum, behind a star the last two characters are a number for
`int(.., 16)`, and where the number is the xor of the bytes, the characters are
digits and there is an address. Without it, there is an address. -/
def Orderly (frame : Bytes) (checksum : Bool) : Prop :=
  if checksum then
    ∀ delimiter body c1 c2, delimiter ∈ ascii "$!" →
      trimmed frame = delimiter :: body ++ [star, c1, c2] →
      ∃ number, intOfHex [c1, c2] = some number ∧
        (number = (bChecksum body).toNat → IsHexDigit c1 ∧ IsHexDigit c2 ∧ HasAddress body)
  else
    ∀ delimiter body, delimiter ∈ ascii "$!" → trimmed frame = delimiter :: body →
      HasAddress body

/-! ## 2. The frame and its parts -/

/-- Both spellings of the end give one message: the trimmed frame and CR LF. -/
theorem withCrLf_eq (frame : Bytes) :
    NMEA0183Msg.withCrLf frame = (trimmed frame ++ crLf, (trimmed frame).length) := by
  unfold NMEA0183Msg.withCrLf trimmed
  by_cases h : crLf <:+ frame
  · obtain ⟨text, rfl⟩ := h
    have hlen : ((text ++ crLf).length : Int) - 2 = (text.length : Int) := by simp [crLf]
    have hend : slice (text ++ crLf) (text.length : Int) (text ++ crLf).length = crLf := by
      rw [slice_natCast, List.take_of_length_le (by simp), List.drop_left]
    have htext : (text ++ crLf).take ((text ++ crLf).length - 2) = text := by
      rw [show (text ++ crLf).length - 2 = text.length by simp [crLf], List.take_left]
    simp only [hlen, hend, if_pos (List.suffix_append text crLf), htext, Int.toNat_natCast]
    rfl
  · have hend : slice frame ((frame.length : Int) - 2) frame.length ≠ crLf := by
      intro hslice
      apply h
      rw [slice] at hslice
      rw [← hslice]
      exact (List.drop_suffix _ _).trans (by rw [clampIndex_natCast]; simp)
    simp only [if_neg hend, if_neg h]

/-- Trimming takes nothing from the front, so the delimiter stays. -/
theorem trimmed_of_delimiter {delimiter : UInt8} {tail : Bytes} (h : delimiter ≠ 13) :
    ∃ body, trimmed (delimiter :: tail) = delimiter :: body := by
  unfold trimmed
  split
  · rename_i hsuffix
    obtain ⟨text, htext⟩ := hsuffix
    cases text with
    | nil => exact absurd (List.cons.inj htext).1.symm h
    | cons c text =>
      obtain ⟨rfl, rfl⟩ := List.cons.inj htext
      exact ⟨text, by simp [crLf]⟩
  · exact ⟨tail, rfl⟩

/-- A character before a text does not take part in its end. -/
theorem trimmed_cons {c : UInt8} {text : Bytes} (h : c :: text ≠ crLf) :
    trimmed (c :: text) = c :: trimmed text := by
  have hsuffix : crLf <:+ c :: text ↔ crLf <:+ text := by
    rw [List.suffix_cons_iff]
    exact or_iff_right (fun heq => h heq.symm)
  unfold trimmed
  simp only [hsuffix]
  split
  · rename_i hend
    have hlen : 2 ≤ text.length := hend.length_le
    rw [List.length_cons, show text.length + 1 - 2 = (text.length - 2) + 1 by omega,
      List.take_succ_cons]
  · rfl

/-- Nor does what stands before a character that is neither CR nor LF. -/
theorem trimmed_append_cons (front : Bytes) {c : UInt8} (hcr : c ≠ 13) (hlf : c ≠ 10)
    (text : Bytes) : trimmed (front ++ c :: text) = front ++ c :: trimmed text := by
  induction front with
  | nil => exact trimmed_cons (fun h => hcr (List.cons.inj h).1)
  | cons x front ih =>
    have hne : x :: (front ++ c :: text) ≠ crLf := by
      intro h
      have htail : front ++ c :: text = [10] := (List.cons.inj h).2
      cases front with
      | nil => exact hlf (List.cons.inj htail).1
      | cons y front => exact absurd (List.cons.inj htail).2 (by simp)
    rw [List.cons_append, List.cons_append, trimmed_cons hne, ih]

/-- What is trimmed is CR and LF. -/
theorem trimmed_append_tail (text : Bytes) :
    ∃ tail, text = trimmed text ++ tail ∧ ∀ c ∈ tail, c = 13 ∨ c = 10 := by
  unfold trimmed
  split
  · refine ⟨text.drop (text.length - 2), (List.take_append_drop _ _).symm, ?_⟩
    rename_i hend
    obtain ⟨front, rfl⟩ := hend
    rw [show (front ++ crLf).length - 2 = front.length by simp [crLf], List.drop_left]
    decide +kernel
  · exact ⟨[], (List.append_nil _).symm, by simp⟩

/-! ## 3. The checksum -/

/-- A list with a third place from its end is split there. -/
theorem exists_last_three {α : Type*} {l : List α} (h : 3 ≤ l.length) :
    ∃ front a b c, l = front ++ [a, b, c] := by
  have hlen : (l.drop (l.length - 3)).length = 3 := by
    rw [List.length_drop]
    exact Nat.sub_sub_self h
  obtain ⟨a, b, c, habc⟩ := List.length_eq_three.mp hlen
  exact ⟨l.take (l.length - 3), a, b, c, by rw [← habc, List.take_append_drop]⟩

/-- Behind a shorter text the index is counted from the end, and meets CR or LF. -/
theorem getItem_third {text : Bytes} (hne : text ≠ []) :
    ∃ c, getItem (text ++ crLf) ((text.length : Int) - 3) = some c ∧
      (c = star → ∃ front c1 c2, text = front ++ [star, c1, c2]) := by
  rcases Nat.lt_or_ge text.length 3 with hshort | hlong
  · match text, hne with
    | [a], _ => exact ⟨13, rfl, fun h => absurd h (by decide)⟩
    | [a, b], _ => exact ⟨10, rfl, fun h => absurd h (by decide)⟩
    | _ :: _ :: _ :: _, _ => exact absurd hshort (by simp)
  · obtain ⟨front, c, c1, c2, rfl⟩ := exists_last_three hlong
    have hindex : ((front ++ [c, c1, c2]).length : Int) - 3 = (front.length : Int) := by simp
    refine ⟨c, ?_, fun hc => ⟨front, c1, c2, by rw [hc]⟩⟩
    rw [hindex, getItem_natCast]
    simp

/-- Without a star three bytes before the end there is no checksum, and the frame is
refused. -/
theorem verify_unstarred {text : Bytes} (hne : text ≠ [])
    (h : ∀ front c1 c2, text ≠ front ++ [star, c1, c2]) :
    NMEA0183Msg.verify (text ++ crLf) text.length = .error .nmeaInvalidFrame := by
  obtain ⟨c, hc, hstar⟩ := getItem_third hne
  have hne : c ≠ star := by
    intro heq
    obtain ⟨front, c1, c2, htext⟩ := hstar heq
    exact h front c1 c2 htext
  unfold NMEA0183Msg.verify
  rw [hc]
  exact if_pos hne

/-- Behind the star, the number is compared with the xor of what is before it. -/
theorem verify_starred (delimiter : UInt8) (body : Bytes) (c1 c2 : UInt8) :
    NMEA0183Msg.verify (delimiter :: body ++ [star, c1, c2] ++ crLf)
        (delimiter :: body ++ [star, c1, c2]).length
      = match intOfHex [c1, c2] with
        | none => .error .valueError
        | some number =>
            if number ≠ ((bChecksum body).toNat : Int) then .error .nmeaInvalidFrame
            else .ok (number.toNat, body.length + 1) := by
  have hlen : (delimiter :: body ++ [star, c1, c2]).length = body.length + 4 := by simp
  have h3 : ((body.length + 4 : Nat) : Int) - 3 = ((body.length + 1 : Nat) : Int) := by omega
  have h2 : ((body.length + 4 : Nat) : Int) - 2 = ((body.length + 2 : Nat) : Int) := by omega
  have hstar : getItem (delimiter :: body ++ [star, c1, c2] ++ crLf)
      ((body.length + 1 : Nat) : Int) = some star := by
    rw [getItem_natCast]
    simp
  have hdigits : slice (delimiter :: body ++ [star, c1, c2] ++ crLf)
      ((body.length + 2 : Nat) : Int) ((body.length + 4 : Nat) : Int) = [c1, c2] := by
    have hcut := slice_append (delimiter :: body ++ [star]) [c1, c2] crLf
    simpa [Int.add_assoc] using hcut
  have hbody : slice (delimiter :: body ++ [star, c1, c2] ++ crLf)
      1 ((body.length + 1 : Nat) : Int) = body := by
    have hcut := slice_append [delimiter] body ([star, c1, c2] ++ crLf)
    simpa [Nat.add_comm] using hcut
  rw [NMEA0183Msg.verify, hlen, h3, h2, hstar]
  simp only [ne_eq, not_true_eq_false, if_false]
  rw [hdigits, hbody]
  rfl

/-! ## 4. The address -/

/-- An address is what stands before the first comma, and not empty. -/
theorem hasAddress_iff (body : Bytes) :
    HasAddress body ↔ comma ∈ body ∧ body.head? ≠ some comma := by
  constructor
  · rintro ⟨address, rest, rfl, hne, hcomma⟩
    refine ⟨by simp, ?_⟩
    cases address with
    | nil => exact absurd rfl hne
    | cons c address =>
      intro hhead
      have hc : c = comma := by simpa using hhead
      exact hcomma (by simp [hc])
  · rintro ⟨hmem, hhead⟩
    obtain ⟨address, rest, rfl, hcomma⟩ := List.eq_append_cons_of_mem hmem
    refine ⟨address, rest, rfl, ?_, hcomma⟩
    rintro rfl
    exact hhead rfl

instance (body : Bytes) : Decidable (HasAddress body) :=
  decidable_of_iff _ (hasAddress_iff body).symm

/-- What has no comma may follow. -/
theorem hasAddress_append {body tail : Bytes} (h : comma ∉ tail) :
    HasAddress (body ++ tail) ↔ HasAddress body := by
  rw [hasAddress_iff, hasAddress_iff]
  cases body with
  | nil => simp [h]
  | cons c body => simp [h]

/-- The constructor finds the comma and a first byte of the address. -/
theorem idxOf?_of_hasAddress {delimiter : UInt8} {body : Bytes} (hdelimiter : delimiter ≠ comma)
    (h : HasAddress body) :
    ∃ index, (delimiter :: body ++ crLf).idxOf? comma = some index ∧
      slice (delimiter :: body ++ crLf) 1 (index : Int) ≠ [] := by
  obtain ⟨address, rest, rfl, hne, hcomma⟩ := h
  have hraw : delimiter :: (address ++ comma :: rest) ++ crLf
      = (delimiter :: address) ++ comma :: (rest ++ crLf) := by simp
  have hfront : comma ∉ delimiter :: address := by simp [hcomma, hdelimiter.symm]
  refine ⟨address.length + 1, ?_, ?_⟩
  · rw [hraw, idxOf?_append_cons hfront, List.length_cons]
  · have hcut := slice_append [delimiter] address (comma :: (rest ++ crLf))
    rw [hraw]
    rw [show (delimiter :: address) ++ comma :: (rest ++ crLf)
      = [delimiter] ++ (address ++ comma :: (rest ++ crLf)) by simp]
    rw [show ((address.length + 1 : Nat) : Int) = (([delimiter].length + address.length : Nat) : Int)
      by simp [Int.add_comm], show (1 : Int) = ([delimiter].length : Int) by simp, hcut]
    exact hne

/-- It finds no comma, or nothing before it: the two exceptions. -/
theorem idxOf?_of_not_hasAddress {delimiter : UInt8} {body : Bytes} (hdelimiter : delimiter ≠ comma)
    (h : ¬ HasAddress body) :
    (delimiter :: body ++ crLf).idxOf? comma = none ∨
      ∃ index, (delimiter :: body ++ crLf).idxOf? comma = some index ∧
        slice (delimiter :: body ++ crLf) 1 (index : Int) = [] := by
  cases hindex : (delimiter :: body ++ crLf).idxOf? comma with
  | none => exact .inl rfl
  | some index =>
    obtain ⟨front, back, hsplit, hcomma, hlen⟩ := idxOf?_split hindex
    refine .inr ⟨index, rfl, ?_⟩
    cases front with
    | nil => exact absurd (List.cons.inj hsplit).1 hdelimiter
    | cons c address =>
      have hbody : body ++ crLf = address ++ comma :: back := (List.cons.inj hsplit).2
      have hnil : address = [] := by
        by_contra hne
        have hall : HasAddress (body ++ crLf) :=
          ⟨address, back, hbody, hne, fun hmem => hcomma (List.mem_cons_of_mem c hmem)⟩
        exact h ((hasAddress_append (by decide)).mp hall)
      subst hnil
      rw [← hlen, show ((([c] : Bytes).length : Nat) : Int) = ((1 : Nat) : Int) by simp,
        show (1 : Int) = ((1 : Nat) : Int) from rfl, slice_natCast, Nat.sub_self, List.take_zero]

/-! ## 5. The constructor -/

/-- What the constructor reads first. -/
def checked (frame : Bytes) (checksum : Bool) : Except Exn (Nat × Nat) :=
  if checksum then NMEA0183Msg.verify (trimmed frame ++ crLf) (trimmed frame).length
  else .ok (0, (trimmed frame).length)

/-- The checksum is looked at first. -/
theorem init_of_error {frame : Bytes} {checksum : Bool} {e : Exn} (hne : frame ≠ [])
    (h : checked frame checksum = .error e) : NMEA0183Msg.init frame checksum = .error e := by
  cases frame with
  | nil => exact absurd rfl hne
  | cons c tail =>
    unfold checked at h
    unfold NMEA0183Msg.init
    simp only [withCrLf_eq, h]

/-- Behind the checksum the address decides, and with which exception. -/
theorem init_of_checked {frame : Bytes} {checksum : Bool} {ends : Nat × Nat} {delimiter : UInt8}
    {body : Bytes} (hdelimiter : delimiter ≠ comma)
    (hbody : trimmed frame = delimiter :: body) (h : checked frame checksum = .ok ends) :
    if HasAddress body then ∃ msg, NMEA0183Msg.init frame checksum = .ok msg
    else NMEA0183Msg.init frame checksum = .error .valueError ∨
      NMEA0183Msg.init frame checksum = .error .indexError := by
  cases frame with
  | nil => exact absurd hbody (by simp [trimmed])
  | cons c tail =>
    unfold checked at h
    rw [hbody] at h
    unfold NMEA0183Msg.init
    simp only [withCrLf_eq, hbody, h]
    split
    · rename_i haddress
      obtain ⟨index, hindex, hne⟩ := idxOf?_of_hasAddress hdelimiter haddress
      rw [hindex]
      simp only [List.isEmpty_iff, if_neg hne]
      exact ⟨_, rfl⟩
    · rename_i haddress
      rcases idxOf?_of_not_hasAddress hdelimiter haddress with hindex | ⟨index, hindex, hnil⟩
      · rw [hindex]
        exact .inl rfl
      · rw [hindex]
        simp only [List.isEmpty_iff]
        rw [if_pos hnil]
        exact .inr rfl

/-- Without the checksum the parts are what is around the first comma. -/
theorem init_unchecked {frame address rest : Bytes} {delimiter : UInt8} (hne : address ≠ [])
    (hcomma : comma ∉ delimiter :: address)
    (h : trimmed frame = delimiter :: address ++ comma :: rest) :
    ∃ m, NMEA0183Msg.init frame false = .ok m ∧ frame.head? = some m.delimiter ∧
      m.address = address ∧ m.fields = rest.splitOn comma ∧
      m.raw.take m.datalen = trimmed frame := by
  cases frame with
  | nil => simp [trimmed] at h
  | cons c tail =>
    have hraw : trimmed (c :: tail) ++ crLf
        = (delimiter :: address) ++ comma :: (rest ++ crLf) := by
      rw [h]
      simp
    have hindex : (trimmed (c :: tail) ++ crLf).idxOf? comma = some (address.length + 1) := by
      rw [hraw, idxOf?_append_cons hcomma, List.length_cons]
    have haddress : slice (trimmed (c :: tail) ++ crLf) 1 ((address.length + 1 : Nat) : Int)
        = address := by
      rw [show (1 : Int) = ((1 : Nat) : Int) from rfl, slice_natCast, hraw]
      simp
    have hfields : slice (trimmed (c :: tail) ++ crLf) ((address.length + 1 + 1 : Nat) : Int)
        ((trimmed (c :: tail)).length : Int) = rest := by
      have hcut : (trimmed (c :: tail)).length - (address.length + 1 + 1) = rest.length := by
        rw [h]
        simp
        omega
      rw [slice_natCast, hraw, hcut, List.cons_append, List.drop_succ_cons, ← List.drop_drop,
        List.drop_left, List.drop_succ_cons, List.drop_zero, List.take_left]
    unfold NMEA0183Msg.init
    simp only [withCrLf_eq, Bool.false_eq_true, if_false, hindex, haddress, List.isEmpty_iff,
      if_neg hne]
    refine ⟨_, rfl, rfl, rfl, ?_, List.take_left⟩
    rw [NMEA0183Msg.fields, hfields]

/-- Without a comma there is no address. -/
theorem init_without_comma {frame : Bytes} (hne : frame ≠ []) (h : comma ∉ frame) :
    NMEA0183Msg.init frame false = .error .valueError := by
  have hraw : (trimmed frame ++ crLf).idxOf? comma = none := by
    rw [List.idxOf?_eq_none_iff]
    intro hmem
    obtain ⟨tail, htail, -⟩ := trimmed_append_tail frame
    rcases List.mem_append.mp hmem with hmem | hmem
    · exact h (htail ▸ List.mem_append_left _ hmem)
    · exact absurd hmem (by decide)
  cases frame with
  | nil => exact absurd rfl hne
  | cons c tail =>
    unfold NMEA0183Msg.init
    simp only [withCrLf_eq, Bool.false_eq_true, if_false, hraw]

/-! ## 6. The readers -/

/-- A frame with another delimiter is refused as invalid. -/
theorem process_of_not_mem {frame : Bytes} {checksum : Bool} {c : UInt8}
    (hhead : frame.head? = some c) (h4 : c ≠ 4) (h : c ∉ ascii "$!") :
    processNmea0183Frame frame checksum = .error .nmeaInvalidFrame := by
  cases frame with
  | nil => exact absurd hhead (by simp)
  | cons a tail =>
    obtain rfl : a = c := by simpa using hhead
    simp only [processNmea0183Frame, if_neg h4, if_pos h]

/-- A frame that opens with a delimiter goes to the constructor. -/
theorem process_of_mem {frame : Bytes} {checksum : Bool} {c : UInt8} (hhead : frame.head? = some c)
    (h : c ∈ ascii "$!") :
    processNmea0183Frame frame checksum = (NMEA0183Msg.init frame checksum).map some := by
  have h4 : c ≠ 4 := by
    rintro rfl
    exact absurd h (by decide)
  cases frame with
  | nil => exact absurd hhead (by simp)
  | cons a tail =>
    obtain rfl : a = c := by simpa using hhead
    simp only [processNmea0183Frame, if_neg h4, if_neg (not_not_intro h)]

/-- The reader has a message when the constructor has one. -/
theorem map_some_eq_ok {α : Type*} (r : Except Exn α) :
    (∃ msg, r.map some = .ok msg) ↔ ∃ msg, r = .ok msg := by
  cases r with
  | error e => simp [Except.map]
  | ok a => simp [Except.map]

/-- The reader adds no exception of its own. -/
theorem map_some_eq_error {α : Type*} (r : Except Exn α) (e : Exn) :
    r.map some = .error e ↔ r = .error e := by
  cases r with
  | error e => simp [Except.map]
  | ok a => simp [Except.map]

/-- The property of the reader as one of the constructor. -/
theorem readsSentences_iff_init {frame : Bytes} {checksum : Bool} {c : UInt8}
    (hhead : frame.head? = some c) (h : c ∈ ascii "$!") :
    ReadsSentences frame checksum ↔
      ((∃ msg, NMEA0183Msg.init frame checksum = .ok msg) ∨
        NMEA0183Msg.init frame checksum = .error .nmeaInvalidFrame) ∧
      (checksum = true →
        ((∃ msg, NMEA0183Msg.init frame true = .ok msg) ↔ IsSentence frame)) := by
  unfold ReadsSentences
  rw [process_of_mem hhead h, process_of_mem hhead h, map_some_eq_ok, map_some_eq_ok,
    map_some_eq_error]

/-! ## 7. Behind the star -/

/-- The first byte of the trimmed frame is that of the frame. -/
theorem head?_of_trimmed {frame : Bytes} {c : UInt8} {body : Bytes}
    (h : trimmed frame = c :: body) : frame.head? = some c := by
  have hfront : trimmed frame <+: frame := by
    unfold trimmed
    split
    · exact List.take_prefix _ _
    · exact List.prefix_refl _
  obtain ⟨tail, htail⟩ := hfront
  rw [← htail, h]
  rfl

/-- Two hexadecimal digits are the number they spell. -/
theorem intOfHex_digits {c1 c2 : UInt8} {high low : Nat} (h1 : digitVal c1 = some high)
    (h2 : digitVal c2 = some low) : intOfHex [c1, c2] = some ((16 * high + low : Nat) : Int) := by
  have hdigits : ∀ x ∈ [c1, c2], IsHexDigit x := by
    intro x hx
    unfold IsHexDigit
    rcases List.mem_pair.mp hx with rfl | rfl
    · rw [h1]
      rfl
    · rw [h2]
      rfl
  have hne1 : c1 ≠ 95 := (hdigits c1 (by simp)).ne (by decide)
  have hne2 : c2 ≠ 95 := (hdigits c2 (by simp)).ne (by decide)
  unfold intOfHex
  rw [stripBlanks_of_digits hdigits, takeSign_of_digits hdigits]
  dsimp only
  rw [dropPrefix_of_digits hdigits]
  simp [digitsValue, hne1, hne2, h1, h2, Nat.mul_comm]

section Starred

variable {frame body : Bytes} {delimiter c1 c2 : UInt8}

/-- A starred frame has one body and one checksum field. -/
theorem starred_inj {delimiter' c1' c2' : UInt8} {body' : Bytes}
    (h : delimiter :: body ++ [star, c1, c2] = delimiter' :: body' ++ [star, c1', c2']) :
    delimiter = delimiter' ∧ body = body' ∧ c1 = c1' ∧ c2 = c2' := by
  obtain ⟨hfront, hback⟩ := List.append_inj' h rfl
  obtain ⟨hd, hb⟩ := List.cons.inj hfront
  simp only [List.cons.injEq, and_true, true_and] at hback
  exact ⟨hd, hb, hback.1, hback.2⟩

/-- A starred frame is a sentence when address, digits and checksum are right. -/
theorem isSentence_starred (htrimmed : trimmed frame = delimiter :: body ++ [star, c1, c2])
    (hdelimiter : delimiter ∈ ascii "$!") :
    IsSentence frame ↔ HasAddress body ∧ IsHexDigit c1 ∧ IsHexDigit c2 ∧
      intOfHex [c1, c2] = some ((bChecksum body).toNat : Int) := by
  constructor
  · rintro ⟨delimiter', body', c1', c2', high, low, heq, -, haddress, h1, h2, hsum⟩
    rw [htrimmed] at heq
    obtain ⟨rfl, rfl, rfl, rfl⟩ := starred_inj heq
    refine ⟨haddress, by simp [IsHexDigit, h1], by simp [IsHexDigit, h2], ?_⟩
    rw [intOfHex_digits h1 h2, hsum]
  · rintro ⟨haddress, h1, h2, hsum⟩
    obtain ⟨high, hhigh⟩ := Option.isSome_iff_exists.mp h1
    obtain ⟨low, hlow⟩ := Option.isSome_iff_exists.mp h2
    rw [intOfHex_digits hhigh hlow, Option.some.injEq] at hsum
    exact ⟨delimiter, body, c1, c2, high, low, htrimmed, hdelimiter, haddress, hhigh, hlow,
      Int.ofNat_inj.mp hsum⟩

/-- The condition for a starred frame, in its parts. -/
theorem orderly_starred (htrimmed : trimmed frame = delimiter :: body ++ [star, c1, c2])
    (hdelimiter : delimiter ∈ ascii "$!") :
    Orderly frame true ↔ ∃ number, intOfHex [c1, c2] = some number ∧
      (number = (bChecksum body).toNat → IsHexDigit c1 ∧ IsHexDigit c2 ∧ HasAddress body) := by
  unfold Orderly
  rw [if_pos rfl]
  constructor
  · intro h
    exact h delimiter body c1 c2 hdelimiter htrimmed
  · intro h delimiter' body' c1' c2' _ heq
    rw [htrimmed] at heq
    obtain ⟨rfl, rfl, rfl, rfl⟩ := starred_inj heq
    exact h

end Starred

/-! ## 8. The condition -/

/-- Without the checksum, only the comma can be missing. -/
theorem readsSentences_false_iff {frame : Bytes} {c : UInt8} {body : Bytes}
    (htrimmed : trimmed frame = c :: body) (hc : c ∈ ascii "$!") :
    ReadsSentences frame false ↔ HasAddress body := by
  have hcomma : c ≠ comma := by
    rintro rfl
    exact absurd hc (by decide)
  have hchecked : checked frame false = .ok (0, (trimmed frame).length) := rfl
  have hinit := init_of_checked hcomma htrimmed hchecked
  rw [readsSentences_iff_init (head?_of_trimmed htrimmed) hc]
  split at hinit
  · rename_i haddress
    exact ⟨fun _ => haddress, fun _ => ⟨.inl hinit, by simp⟩⟩
  · rename_i haddress
    constructor
    · rintro ⟨⟨msg, hok⟩ | herror, -⟩
      · rw [hok] at hinit
        simp at hinit
      · rw [herror] at hinit
        simp at hinit
    · intro h
      exact absurd h haddress

/-- An unstarred frame is refused and is no sentence, so there is nothing to ask of it. -/
theorem readsSentences_unstarred {frame : Bytes} {c : UInt8} {body : Bytes}
    (htrimmed : trimmed frame = c :: body) (hc : c ∈ ascii "$!")
    (h : ∀ front c1 c2, c :: body ≠ front ++ [star, c1, c2]) :
    ReadsSentences frame true := by
  have hne : frame ≠ [] := by
    rintro rfl
    exact absurd htrimmed (by simp [trimmed])
  have hinit : NMEA0183Msg.init frame true = .error .nmeaInvalidFrame := by
    refine init_of_error hne ?_
    unfold checked
    rw [if_pos rfl, htrimmed]
    exact verify_unstarred (by simp) h
  rw [readsSentences_iff_init (head?_of_trimmed htrimmed) hc, hinit]
  refine ⟨.inr rfl, fun _ => ?_⟩
  constructor
  · rintro ⟨msg, hmsg⟩
    exact absurd hmsg (by simp)
  · rintro ⟨d, b, c1, c2, _, _, heq, -⟩
    rw [htrimmed] at heq
    exact absurd heq (h (d :: b) c1 c2)

/-- **A starred frame**, by what `int` makes of the two bytes behind the star. -/
theorem readsSentences_starred {frame body : Bytes} {c c1 c2 : UInt8}
    (htrimmed : trimmed frame = c :: body ++ [star, c1, c2]) (hc : c ∈ ascii "$!") :
    ReadsSentences frame true ↔ ∃ number, intOfHex [c1, c2] = some number ∧
      (number = (bChecksum body).toNat → IsHexDigit c1 ∧ IsHexDigit c2 ∧ HasAddress body) := by
  have hne : frame ≠ [] := by
    rintro rfl
    exact absurd htrimmed (by simp [trimmed])
  have hhead : frame.head? = some c := head?_of_trimmed htrimmed
  have hverify := verify_starred c body c1 c2
  rw [← htrimmed] at hverify
  rw [readsSentences_iff_init hhead hc, isSentence_starred htrimmed hc]
  cases hnumber : intOfHex [c1, c2] with
  | none =>
    rw [hnumber] at hverify
    have hinit : NMEA0183Msg.init frame true = .error .valueError := init_of_error hne hverify
    simp [hinit]
  | some number =>
    rw [hnumber] at hverify
    simp only [Option.some.injEq, exists_eq_left']
    by_cases hsum : number = ((bChecksum body).toNat : Int)
    · have hcomma : c ≠ comma := by
        rintro rfl
        exact absurd hc (by decide)
      have hchecked : checked frame true = .ok (number.toNat, body.length + 1) := by
        rw [checked, if_pos rfl, hverify]
        exact if_neg (not_not_intro hsum)
      have hbody : trimmed frame = c :: (body ++ [star, c1, c2]) := htrimmed
      have hinit := init_of_checked hcomma hbody hchecked
      constructor
      · rintro ⟨⟨msg, hok⟩ | herror, haccept⟩ _
        · obtain ⟨haddress, h1, h2, -⟩ := (haccept trivial).mp ⟨msg, hok⟩
          exact ⟨h1, h2, haddress⟩
        · rw [herror] at hinit
          simp at hinit
      · intro h
        obtain ⟨h1, h2, haddress⟩ := h hsum
        have htail : comma ∉ [star, c1, c2] := by
          intro hmem
          simp only [List.mem_cons, List.not_mem_nil, or_false] at hmem
          rcases hmem with hstar | hc1 | hc2
          · exact absurd hstar (by decide)
          · exact h1.ne (by decide) hc1.symm
          · exact h2.ne (by decide) hc2.symm
        rw [if_pos ((hasAddress_append htail).mpr haddress)] at hinit
        exact ⟨.inl hinit, fun _ => ⟨fun _ => ⟨haddress, h1, h2, hsum⟩, fun _ => hinit⟩⟩
    · have hinit : NMEA0183Msg.init frame true = .error .nmeaInvalidFrame := by
        refine init_of_error hne ?_
        rw [checked, if_pos rfl, hverify]
        exact if_pos hsum
      simp [hinit, hsum]

/-- **A frame comes to a message or is refused as invalid, and the accepted
frames are the sentences, exactly when the frame is orderly.** -/
theorem readsSentences_iff_orderly (frame : Bytes) (hne : frame ≠ []) (hend : frame.head? ≠ some 4)
    (checksum : Bool) : ReadsSentences frame checksum ↔ Orderly frame checksum := by
  obtain ⟨c, tail, rfl⟩ := List.exists_cons_of_ne_nil hne
  have h4 : c ≠ 4 := fun h => hend (by rw [h]; rfl)
  by_cases hc : c ∈ ascii "$!"
  · have h13 : c ≠ 13 := by
      rintro rfl
      exact absurd hc (by decide)
    obtain ⟨body, htrimmed⟩ : ∃ body, trimmed (c :: tail) = c :: body := trimmed_of_delimiter h13
    cases checksum with
    | false =>
      rw [readsSentences_false_iff htrimmed hc]
      constructor
      · intro h d b _ heq
        rw [htrimmed] at heq
        rw [← (List.cons.inj heq).2]
        exact h
      · intro h
        exact h c body hc htrimmed
    | true =>
      by_cases hstar : ∃ front c1 c2, c :: body = front ++ [star, c1, c2]
      · obtain ⟨front, c1, c2, hfront⟩ := hstar
        cases front with
        | nil =>
          rw [(List.cons.inj hfront).1] at hc
          exact absurd hc (by decide)
        | cons d front =>
          obtain ⟨rfl, rfl⟩ := List.cons.inj hfront
          rw [readsSentences_starred htrimmed hc, orderly_starred htrimmed hc]
      · have hplain : ∀ front c1 c2, c :: body ≠ front ++ [star, c1, c2] := by
          intro front c1 c2 heq
          exact hstar ⟨front, c1, c2, heq⟩
        refine ⟨fun _ => ?_, fun _ => readsSentences_unstarred htrimmed hc hplain⟩
        intro d b c1 c2 _ heq
        rw [htrimmed] at heq
        exact absurd heq (hplain (d :: b) c1 c2)
  · have hother : ∀ d body, d ∈ ascii "$!" → trimmed (c :: tail) ≠ d :: body := by
      intro d body hd heq
      have hhead := head?_of_trimmed heq
      rw [List.head?_cons, Option.some.injEq] at hhead
      exact hc (hhead ▸ hd)
    have hinvalid : ∀ checksum, processNmea0183Frame (c :: tail) checksum
        = .error .nmeaInvalidFrame := fun checksum => process_of_not_mem rfl h4 hc
    have hreads : ReadsSentences (c :: tail) checksum := by
      refine ⟨.inr (hinvalid checksum), fun _ => ?_⟩
      rw [hinvalid]
      constructor
      · rintro ⟨msg, hmsg⟩
        exact absurd hmsg (by simp)
      · rintro ⟨d, body, c1, c2, _, _, heq, hd, -⟩
        exact absurd heq (hother d _ hd)
    refine ⟨fun _ => ?_, fun _ => hreads⟩
    unfold Orderly
    split
    · intro d body c1 c2 hd heq
      exact absurd heq (hother d _ hd)
    · intro d body hd heq
      exact absurd heq (hother d body hd)

/-- A sentence is orderly, and so it is read. -/
theorem readsSentences_gll :
    Orderly (ascii "$GPGLL,A*3D") true ∧ ReadsSentences (ascii "$GPGLL,A*3D") true := by
  have hiff := readsSentences_iff_orderly (ascii "$GPGLL,A*3D") (by decide) (by decide) true
  have horderly : Orderly (ascii "$GPGLL,A*3D") true :=
    (orderly_starred (show trimmed (ascii "$GPGLL,A*3D")
        = 36 :: ascii "GPGLL,A" ++ [star, 51, 68] by decide) (by decide)).mpr
      ⟨61, by decide, fun _ => ⟨rfl, rfl, ascii "GPGLL", ascii "A", by decide, by decide,
        by decide⟩⟩
  exact ⟨horderly, hiff.mpr horderly⟩

/-- Letters that are no digits behind the star raise an exception no reader catches. -/
theorem not_readsSentences_zz :
    ascii "$GPGLL,A*ZZ" ≠ [] ∧ (ascii "$GPGLL,A*ZZ").head? ≠ some 4 ∧
      ¬ ReadsSentences (ascii "$GPGLL,A*ZZ") true := by
  refine ⟨by decide, by decide, ?_⟩
  have herror : processNmea0183Frame (ascii "$GPGLL,A*ZZ") true = .error .valueError := by decide
  rintro ⟨⟨msg, hok⟩ | hinvalid, -⟩
  · rw [herror] at hok
    exact absurd hok (by simp)
  · rw [herror] at hinvalid
    exact absurd hinvalid (by simp)

end NavigationServer.RouterCore
