/-
NavigationServer.RouterCore.Nmea0183Parts — the parts of an accepted message.

A frame that the constructor accepts is a delimiter, an address, a comma and the
rest, and the message is made of these (`init_eq_ok_iff`). With the checksum the
rest ends with the star and two characters that are no commas, so the fields are
those of what stands before them (`fields_checked`), and without it they are
those of the whole rest.
-/
import NavigationServer.RouterCore.Nmea0183MsgTheorems

namespace NavigationServer.RouterCore

open NavigationServer.Lib

/-! ## 1. The message of the parts -/

/-- A text is cut at its first comma, and there is an address. -/
structure Splits (text : Bytes) (delimiter : UInt8) (address rest : Bytes) : Prop where
  text_eq : text = delimiter :: address ++ comma :: rest
  comma_notMem : comma ∉ delimiter :: address
  address_ne : address ≠ []

/-- The message of a text with this address. -/
def NMEA0183Msg.ofParts (text : Bytes) (ends : Nat × Nat) (delimiter : UInt8) (address : Bytes) :
    NMEA0183Msg where
  raw := text ++ crLf
  datalen := text.length
  checksum := ends.1
  datalenS := ends.2
  delimiter
  datafieldsS := address.length + 2
  address
  proprietary := false

theorem Splits.unique {text : Bytes} {delimiter delimiter' : UInt8} {address address' rest rest' : Bytes}
    (h : Splits text delimiter address rest) (h' : Splits text delimiter' address' rest') :
    delimiter = delimiter' ∧ address = address' ∧ rest = rest' := by
  obtain ⟨hfront, hrest⟩ := append_cons_cancel h.comma_notMem h'.comma_notMem
    (h.text_eq.symm.trans h'.text_eq)
  obtain ⟨hdelimiter, haddress⟩ := List.cons.inj hfront
  exact ⟨hdelimiter, haddress, hrest⟩

theorem Splits.idxOf? {text : Bytes} {delimiter : UInt8} {address rest : Bytes}
    (h : Splits text delimiter address rest) :
    (text ++ crLf).idxOf? comma = some (address.length + 1) := by
  have hraw : text ++ crLf = (delimiter :: address) ++ comma :: (rest ++ crLf) := by
    rw [h.text_eq]
    simp
  rw [hraw, idxOf?_append_cons h.comma_notMem, List.length_cons]

theorem Splits.slice_address {text : Bytes} {delimiter : UInt8} {address rest : Bytes}
    (h : Splits text delimiter address rest) :
    slice (text ++ crLf) 1 ((address.length + 1 : Nat) : Int) = address := by
  rw [show (1 : Int) = ((1 : Nat) : Int) from rfl, slice_natCast, h.text_eq]
  simp

theorem trimmed_append_crLf_self (text : Bytes) : trimmed (text ++ crLf) = text := by
  unfold trimmed
  rw [if_pos (List.suffix_append text crLf)]
  simp [crLf]

/-- A comma before the CR LF is one of the text. -/
theorem split_of_append_crLf {text front back : Bytes} (h : text ++ crLf = front ++ comma :: back) :
    ∃ rest, back = rest ++ crLf ∧ text = front ++ comma :: rest := by
  rcases List.append_eq_append_iff.mp h with ⟨mid, -, hmid⟩ | ⟨mid, htext, hmid⟩
  · cases mid with
    | nil => exact absurd (List.cons.inj hmid).1 (by decide)
    | cons x mid =>
      have hmem : comma ∈ crLf := hmid ▸ by simp
      exact absurd hmem (by decide)
  · cases mid with
    | nil => exact absurd (List.cons.inj hmid).1 (by decide)
    | cons x mid =>
      obtain ⟨rfl, rfl⟩ := List.cons.inj hmid
      exact ⟨mid, rfl, htext⟩

/-- **The constructor accepts the frames that have an address and pass the
check.** -/
theorem init_eq_ok_iff {frame : Bytes} {checksum : Bool} {m : NMEA0183Msg} :
    NMEA0183Msg.init frame checksum = .ok m ↔
      ∃ delimiter address rest ends, Splits (trimmed frame) delimiter address rest ∧
        checked frame checksum = .ok ends ∧
        m = .ofParts (trimmed frame) ends delimiter address := by
  cases frame with
  | nil =>
    constructor
    · intro h
      cases h
    · rintro ⟨delimiter, address, rest, ends, hsplits, -⟩
      exact absurd hsplits.text_eq (by simp [trimmed])
  | cons c tail =>
    constructor
    · intro h
      simp only [NMEA0183Msg.init, withCrLf_eq] at h
      cases hchecked : checked (c :: tail) checksum with
      | error e =>
        rw [checked] at hchecked
        rw [hchecked] at h
        cases h
      | ok ends =>
        have hends := hchecked
        rw [checked] at hends
        rw [hends] at h
        cases hindex : (trimmed (c :: tail) ++ crLf).idxOf? comma with
        | none =>
          rw [hindex] at h
          cases h
        | some index =>
          rw [hindex] at h
          simp only at h
          split at h
          · cases h
          · rename_i haddress
            obtain ⟨front, back, hsplit, hcomma, hlen⟩ := idxOf?_split hindex
            obtain ⟨rest, rfl, htext⟩ := split_of_append_crLf hsplit
            cases front with
            | nil =>
              have hnil : slice (trimmed (c :: tail) ++ crLf) 1 (index : Int) = [] := by
                rw [← hlen, List.length_nil, show (1 : Int) = ((1 : Nat) : Int) from rfl, slice_natCast]
                rfl
              exact absurd (by rw [hnil]; rfl) haddress
            | cons delimiter address =>
              have hdelimiter : delimiter = c := by
                have hhead := head?_of_trimmed htext
                exact (Option.some.inj hhead).symm
              have hslice : slice (trimmed (c :: tail) ++ crLf) 1 (index : Int) = address := by
                rw [← hlen, show (1 : Int) = ((1 : Nat) : Int) from rfl, slice_natCast, htext]
                simp
              rw [hslice] at h haddress
              have hsplits : Splits (trimmed (c :: tail)) delimiter address rest :=
                ⟨htext, hcomma, by simpa using haddress⟩
              refine ⟨delimiter, address, rest, ends, hsplits, rfl, ?_⟩
              rw [← Except.ok.inj h, NMEA0183Msg.ofParts, ← hlen, hdelimiter, List.length_cons]
    · rintro ⟨delimiter, address, rest, ends, hsplits, hchecked, rfl⟩
      have hdelimiter : delimiter = c := by
        have hhead := head?_of_trimmed hsplits.text_eq
        exact (Option.some.inj hhead).symm
      rw [checked] at hchecked
      simp only [NMEA0183Msg.init, withCrLf_eq, hchecked, hsplits.idxOf?, hsplits.slice_address]
      rw [if_neg (by simpa using hsplits.address_ne), hdelimiter]
      rfl

/-! ## 2. The check -/

/-- A comma is no part of a number. -/
theorem intOfHex_comma (c : UInt8) : intOfHex [c, comma] = none ∧ intOfHex [comma, c] = none := by
  have hall : ∀ n : Fin 256,
      intOfHex [UInt8.ofNat n, comma] = none ∧ intOfHex [comma, UInt8.ofNat n] = none := by
    decide +kernel
  have hc := hall ⟨c.toNat, c.toNat_lt⟩
  rwa [UInt8.ofNat_toNat] at hc

theorem comma_notMem_starred {c1 c2 : UInt8} {number : Int} (h : intOfHex [c1, c2] = some number) :
    comma ∉ [star, c1, c2] := by
  intro hmem
  simp only [List.mem_cons, List.not_mem_nil, or_false] at hmem
  rcases hmem with hstar | rfl | rfl
  · exact absurd hstar (by decide)
  · rw [(intOfHex_comma c2).2] at h
    cases h
  · rw [(intOfHex_comma c1).1] at h
    cases h

/-- What the checksum is compared with, and where the fields end. -/
def checkedEnds (address shown : Bytes) : Nat × Nat :=
  ((bChecksum (address ++ comma :: shown)).toNat, address.length + 2 + shown.length)

/-- **The check is passed by a rest that ends with the star and the checksum.** -/
theorem Splits.checked_iff {frame : Bytes} {delimiter : UInt8} {address rest : Bytes}
    (h : Splits (trimmed frame) delimiter address rest) {ends : Nat × Nat} :
    checked frame true = .ok ends ↔
      ∃ shown c1 c2, rest = shown ++ [star, c1, c2] ∧
        intOfHex [c1, c2] = some ((bChecksum (address ++ comma :: shown)).toNat : Int) ∧
        ends = checkedEnds address shown := by
  rw [checked, if_pos rfl]
  constructor
  · intro hverify
    by_cases hstar : ∃ front c1 c2, trimmed frame = front ++ [star, c1, c2]
    · obtain ⟨front, c1, c2, hfront⟩ := hstar
      have htext := h.text_eq
      rw [hfront] at hverify htext
      cases front with
      | nil =>
        -- the delimiter is the star, and the comma stands among the two digits
        have hdigits : intOfHex [c1, c2] = none := by
          have hmem : comma ∈ [star, c1, c2] := by
            rw [List.nil_append] at htext
            rw [htext]
            simp
          simp only [List.mem_cons, List.not_mem_nil, or_false] at hmem
          rcases hmem with hbad | rfl | rfl
          · exact absurd hbad (by decide)
          · exact (intOfHex_comma c2).2
          · exact (intOfHex_comma c1).1
        have hslice : slice ([star, c1, c2] ++ crLf) ((3 : Nat) - 2 : Int) ((3 : Nat) : Int) = [c1, c2] :=
          rfl
        have hitem : getItem ([star, c1, c2] ++ crLf) ((3 : Nat) - 3 : Int) = some star := rfl
        rw [List.nil_append, NMEA0183Msg.verify] at hverify
        simp only [List.length_cons, List.length_nil, Nat.zero_add, Nat.reduceAdd] at hverify
        rw [hitem] at hverify
        simp only [ne_eq, not_true_eq_false, if_false] at hverify
        rw [hslice, hdigits] at hverify
        cases hverify
      | cons d body =>
        rw [verify_starred] at hverify
        cases hnumber : intOfHex [c1, c2] with
        | none =>
          rw [hnumber] at hverify
          cases hverify
        | some number =>
          rw [hnumber] at hverify
          simp only at hverify
          split at hverify
          · cases hverify
          · rename_i hsum
            have hsum := not_not.mp hsum
            obtain ⟨rfl, hbody⟩ := List.cons.inj htext
            rcases List.append_eq_append_iff.mp hbody with ⟨mid, haddress, hmid⟩ | ⟨mid, hfront', hmid⟩
            · have hmem : comma ∈ [star, c1, c2] := hmid ▸ by simp
              exact absurd hmem (comma_notMem_starred hnumber)
            · cases mid with
              | nil => exact absurd (List.cons.inj hmid).1 (by decide)
              | cons x shown =>
                obtain ⟨rfl, rfl⟩ := List.cons.inj hmid
                subst hfront'
                refine ⟨shown, c1, c2, rfl, by rw [hnumber, hsum], ?_⟩
                rw [← Except.ok.inj hverify, hsum, checkedEnds, Int.toNat_natCast]
                simp
                omega
    · have hne : trimmed frame ≠ [] := by
        rw [h.text_eq]
        simp
      rw [verify_unstarred hne fun front c1 c2 hfront => hstar ⟨front, c1, c2, hfront⟩] at hverify
      cases hverify
  · rintro ⟨shown, c1, c2, rfl, hnumber, rfl⟩
    have htext : trimmed frame = delimiter :: (address ++ comma :: shown) ++ [star, c1, c2] := by
      rw [h.text_eq]
      simp
    rw [htext, verify_starred, hnumber]
    simp only [ne_eq, not_true_eq_false, if_false]
    rw [checkedEnds, Int.toNat_natCast]
    simp
    omega

/-! ## 3. The fields -/

theorem fields_ofParts {text : Bytes} {delimiter : UInt8} {address shown tail : Bytes} {ends : Nat × Nat}
    (h : Splits text delimiter address (shown ++ tail))
    (hends : ends.2 = address.length + 2 + shown.length) :
    (NMEA0183Msg.ofParts text ends delimiter address).fields = shown.splitOn comma := by
  have hraw : text ++ crLf = (delimiter :: address ++ [comma]) ++ (shown ++ (tail ++ crLf)) := by
    rw [h.text_eq]
    simp
  have hlen : address.length + 2 = (delimiter :: address ++ [comma]).length := by simp
  rw [NMEA0183Msg.fields, NMEA0183Msg.ofParts]
  simp only
  rw [hends, hraw, hlen, slice_append]

/-- Without the checksum the fields are those of the rest. -/
theorem fields_unchecked {frame : Bytes} {delimiter : UInt8} {address rest : Bytes} {ends : Nat × Nat}
    (h : Splits (trimmed frame) delimiter address rest) (hchecked : checked frame false = .ok ends) :
    (NMEA0183Msg.ofParts (trimmed frame) ends delimiter address).fields = rest.splitOn comma := by
  have hends : ends = (0, (trimmed frame).length) := (Except.ok.inj hchecked).symm
  rw [← List.append_nil rest] at h
  refine fields_ofParts h ?_
  rw [hends, h.text_eq]
  simp
  omega

/-- With it, those of what stands before the star. -/
theorem fields_checked {text : Bytes} {delimiter : UInt8} {address shown tail : Bytes}
    (h : Splits text delimiter address (shown ++ tail)) :
    (NMEA0183Msg.ofParts text (checkedEnds address shown) delimiter address).fields
      = shown.splitOn comma :=
  fields_ofParts h rfl

/-- The message of `$GPGLL,A`, with or without a checksum behind it. -/
def gll (text : Bytes) (datalenS checksum : Nat) : NMEA0183Msg :=
  { raw := text ++ crLf, datalen := text.length, checksum, datalenS, delimiter := 36, datafieldsS := 7,
    address := ascii "GPGLL", proprietary := false }

end NavigationServer.RouterCore
