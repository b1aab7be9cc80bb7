/-
NavigationServer.RouterCore.Nmea0183SentencesTheorems — the sentences that leave
the router are read.

`sentences_valid_iff`: a written sentence is a sentence in exactly the cases in
which it has an address and a checksum of two digits, and a message with another
talker is read in exactly the cases in which its address has room for it, the
talker has no comma and, where the checksum is looked at, the xor of its two
bytes is the one of the bytes that it replaces.
-/
import Mathlib.Data.Bool.AllAny
import NavigationServer.RouterCore.Nmea0183Parts
import NavigationServer.RouterCore.Nmea0183Sentences

namespace NavigationServer.RouterCore

open NavigationServer.Lib

/-! ## 1. What is claimed -/

/-- The text is a sentence without its checksum. -/
structure IsText (text : List Char) : Prop where
  ascii : ∀ c ∈ text, c.toNat < 128
  dollar : text.head? = some '$'
  comma_mem : ',' ∈ text
  star_notMem : '*' ∉ text

/-- The message of a text is accepted, ends with the star and two digits, and has
the address and the fields of the text. -/
def WritesSentence (text : List Char) : Prop :=
  ∃ m address rest, NMEA0183Msg.init (NMEA0183Sentences.mk text).message true = .ok m ∧
    (∃ front c1 c2, (NMEA0183Sentences.mk text).message = front ++ [star, c1, c2] ++ crLf ∧
      IsHexDigit c1 ∧ IsHexDigit c2) ∧
    encode text = 36 :: address ++ comma :: rest ∧ comma ∉ address ∧
    m.address = address ∧ m.fields = rest.splitOn comma

/-- The bytes of a message with another talker are accepted again, with this
talker and the same fields. -/
def TakesTalker (m : NMEA0183Msg) (checksum : Bool) (talker : Bytes) : Prop :=
  ∃ m', NMEA0183Msg.init (m.replaceTalker talker).raw checksum = .ok m' ∧
    m'.talker = .ok talker ∧ m'.fields = m.fields

/-! ## 2. The checksum -/

theorem foldl_xor (l : Bytes) (sum : UInt8) : l.foldl (· ^^^ ·) sum = sum ^^^ bChecksum l := by
  unfold bChecksum
  induction l generalizing sum with
  | nil => simp
  | cons b l ih =>
    rw [List.foldl_cons, List.foldl_cons, ih, ih (0 ^^^ b), UInt8.zero_xor, UInt8.xor_assoc]

theorem bChecksum_cons (b : UInt8) (l : Bytes) : bChecksum (b :: l) = b ^^^ bChecksum l := by
  rw [bChecksum, List.foldl_cons, foldl_xor, UInt8.zero_xor]

/-- Two bytes in front are seen by their xor. -/
theorem bChecksum_pair_iff (t1 t2 a1 a2 : UInt8) (l : Bytes) :
    bChecksum (t1 :: t2 :: l) = bChecksum (a1 :: a2 :: l) ↔ t1 ^^^ t2 = a1 ^^^ a2 := by
  rw [bChecksum_cons, bChecksum_cons, bChecksum_cons, bChecksum_cons, ← UInt8.xor_assoc,
    ← UInt8.xor_assoc, UInt8.xor_left_inj]

/-- The checksum of a text is the one of its octets. -/
theorem checksum_eq {text : List Char} (h : ∀ c ∈ text, c.toNat < 128) :
    NMEA0183Sentences.checksum text = (bChecksum (encode text).tail).toNat := by
  have hfold : ∀ (l : List Char) (sum : Nat), (∀ c ∈ l, c.toNat < 128) → sum < 256 →
      l.foldl (fun sum c => sum ^^^ c.toNat) sum
        = ((l.map fun c => UInt8.ofNat c.toNat).foldl (· ^^^ ·) (UInt8.ofNat sum)).toNat := by
    intro l
    induction l with
    | nil =>
      intro sum _ hsum
      simp [Nat.mod_eq_of_lt hsum]
    | cons c l ih =>
      intro sum hl hsum
      have hc : c.toNat < 2 ^ 8 := Nat.lt_trans (hl c List.mem_cons_self) (by decide)
      rw [List.foldl_cons, List.map_cons, List.foldl_cons, ← UInt8.ofNat_xor]
      exact ih _ (fun c' hc' => hl c' (List.mem_cons_of_mem _ hc')) (Nat.xor_lt_two_pow hsum hc)
  rw [NMEA0183Sentences.checksum, encode_ascii h, ← List.map_tail, bChecksum]
  exact hfold text.tail 0 (fun c hc => h c (List.mem_of_mem_tail hc)) (by decide)

/-- A number of two digits is written on them, and a smaller one behind a blank. -/
theorem format2X_eq {n : Nat} (h : n < 256) :
    NMEA0183Sentences.format2X n
      = if 16 ≤ n then hexNumber .upper 2 n else [32, digitChar .upper n] := by
  unfold NMEA0183Sentences.format2X hexFormat
  split
  · rename_i hn
    have hlog : Nat.log 16 n = 1 := Nat.log_eq_of_pow_le_of_lt_pow (by omega) (by omega)
    rw [hlog]
    simp [List.leftpad]
  · rename_i hn
    have hlog : Nat.log 16 n = 0 := Nat.log_of_lt (by omega)
    rw [hlog]
    simp only [hexNumber, Nat.zero_add, Nat.max_self, List.nil_append,
      Nat.mod_eq_of_lt (Nat.lt_of_not_le hn)]
    rfl

/-! ## 3. Written sentences -/

/-- A text is cut at its first comma, character by character. -/
theorem IsText.split {text : List Char} (h : IsText text) :
    ∃ front back, text = '$' :: front ++ ',' :: back ∧
      encode text = 36 :: encode front ++ comma :: encode back ∧ comma ∉ encode front := by
  cases text with
  | nil => exact absurd h.dollar (by simp)
  | cons c tail =>
    obtain rfl : c = '$' := Option.some.inj h.dollar
    have hmem : ',' ∈ tail := by simpa using h.comma_mem
    obtain ⟨front, back, rfl, hfront⟩ := List.eq_append_cons_of_mem hmem
    have hascii : ∀ c ∈ front, c.toNat < 128 := fun c hc => h.ascii c (by simp [hc])
    refine ⟨front, back, rfl, ?_, ?_⟩
    · unfold encode
      rw [List.flatMap_cons, List.flatMap_append, List.flatMap_cons]
      rfl
    · rw [encode_ascii hascii, List.mem_map]
      rintro ⟨c, hc, hcomma⟩
      have hnat : c.toNat = 44 := by
        have hval := congrArg UInt8.toNat hcomma
        rw [UInt8.toNat_ofNat_of_lt' (Nat.lt_trans (hascii c hc) (by decide))] at hval
        exact hval
      have hchar : c = ',' := Char.toNat_inj.mp hnat
      exact hfront (hchar ▸ hc)

theorem trimmed_message (s : NMEA0183Sentences) :
    trimmed s.message
      = encode s.sentence ++ star :: NMEA0183Sentences.format2X (NMEA0183Sentences.checksum s.sentence) :=
  trimmed_append_crLf_self _

/-- **A written sentence is one exactly when it has an address and a checksum of
two digits.** -/
theorem writesSentence_iff {text : List Char} (h : IsText text) :
    WritesSentence text ↔
      text.tail.head? ≠ some ',' ∧ 16 ≤ NMEA0183Sentences.checksum text := by
  obtain ⟨front, back, htext, hencode, hcomma⟩ := h.split
  have hsum := checksum_eq h.ascii
  have hlt : NMEA0183Sentences.checksum text < 256 := hsum ▸ UInt8.toNat_lt _
  have hhead : text.tail.head? = some ',' ↔ encode front = [] := by
    rw [htext, List.cons_append, List.tail_cons, encode_ascii fun c hc => h.ascii c (by simp [htext, hc])]
    cases front with
    | nil => simp
    | cons c front =>
      have hne : c ≠ ',' := by
        rintro rfl
        exact hcomma (by simp [encode]; left; decide)
      simp [hne]
  have htrimmed := trimmed_message ⟨text⟩
  rw [format2X_eq hlt] at htrimmed
  constructor
  · rintro ⟨m, address, rest, hinit, ⟨cut, c1, c2, hcut, hc1, -⟩, -⟩
    obtain ⟨delimiter, address, rest, ends, hsplits, -⟩ := init_eq_ok_iff.mp hinit
    refine ⟨fun hfirst => ?_, ?_⟩
    · -- the first comma would stand behind the delimiter
      have heq := hsplits.text_eq
      rw [htrimmed, hencode, hhead.mp hfirst, List.append_assoc] at heq
      obtain ⟨hfront, -⟩ := append_cons_cancel (show comma ∉ [36] by decide) hsplits.comma_notMem heq
      exact hsplits.address_ne (List.cons.inj hfront).2.symm
    · by_contra hsmall
      rw [if_neg hsmall] at htrimmed
      have hends : cut ++ [star, c1, c2]
          = encode text ++ [star, 32, digitChar .upper (NMEA0183Sentences.checksum text)] := by
        rw [← htrimmed, hcut, trimmed_append_crLf_self]
      obtain ⟨-, hlast⟩ := List.append_inj' hends rfl
      have hblank : c1 = 32 := by
        simp only [List.cons.injEq, true_and] at hlast
        exact hlast.1
      exact hc1.ne (show digitVal 32 = none by decide) hblank
  · rintro ⟨hfirst, hbig⟩
    rw [if_pos hbig] at htrimmed
    have hdigits := hexByte_eq .upper (bChecksum (encode text).tail)
    rw [hexByte, ← hsum] at hdigits
    rw [hdigits] at htrimmed
    have haddress : encode front ≠ [] := fun hnil => hfirst (hhead.mpr hnil)
    have hsplits : Splits (trimmed (NMEA0183Sentences.mk text).message) 36 (encode front)
        (encode back ++ [star, digitChar .upper (NMEA0183Sentences.checksum text / 16),
          digitChar .upper (NMEA0183Sentences.checksum text % 16)]) := by
      refine ⟨?_, ?_, haddress⟩
      · rw [htrimmed, hencode]
        simp
      · simp only [List.mem_cons, not_or]
        exact ⟨by decide, hcomma⟩
    have hbody : (encode text).tail = encode front ++ comma :: encode back := by
      rw [hencode]
      rfl
    have hnumber := intOfHex_hexNumber .upper (show 0 < 2 by decide) (NMEA0183Sentences.checksum text)
    rw [Nat.mod_eq_of_lt (show NMEA0183Sentences.checksum text < 16 ^ 2 from hlt), hdigits, hsum,
      hbody] at hnumber
    have hchecked := hsplits.checked_iff.mpr
      ⟨encode back, _, _, rfl, by rw [hsum, hbody]; exact hnumber, rfl⟩
    refine ⟨_, encode front, encode back,
      init_eq_ok_iff.mpr ⟨_, _, _, _, hsplits, hchecked, rfl⟩, ?_, hencode, hcomma, rfl,
      fields_checked hsplits⟩
    refine ⟨encode text, digitChar .upper (NMEA0183Sentences.checksum text / 16),
      digitChar .upper (NMEA0183Sentences.checksum text % 16), ?_,
      isHexDigit_digitChar .upper (by omega), isHexDigit_digitChar .upper (by omega)⟩
    rw [NMEA0183Sentences.message, format2X_eq hlt, if_pos hbig, hdigits]

/-! ## 4. Another talker -/

/-- The rest of an accepted message is what its fields are made of, and three
characters more when it was checked. -/
theorem exists_shown {frame : Bytes} {checksum : Bool} {delimiter : UInt8} {address rest : Bytes}
    {ends : Nat × Nat} (h : Splits (trimmed frame) delimiter address rest)
    (hchecked : checked frame checksum = .ok ends) :
    ∃ shown tail, rest = shown ++ tail ∧ tail.length = (if checksum then 3 else 0) ∧
      (NMEA0183Msg.ofParts (trimmed frame) ends delimiter address).fields = shown.splitOn comma := by
  cases checksum with
  | false => exact ⟨rest, [], (List.append_nil _).symm, rfl, fields_unchecked h hchecked⟩
  | true =>
    obtain ⟨shown, c1, c2, rfl, -, rfl⟩ := h.checked_iff.mp hchecked
    exact ⟨shown, [star, c1, c2], rfl, rfl, fields_checked h⟩

/-- A field more is seen. -/
theorem splitOn_ne_append {front back : Bytes} :
    (front ++ comma :: back).splitOn comma ≠ back.splitOn comma := by
  intro h
  have hback := congrArg (fun fields => [comma].intercalate fields) h
  simp only [List.intercalate_splitOn] at hback
  have hlen := congrArg List.length hback
  simp at hlen
  omega

/-- **A message takes another talker exactly when its address has room for it, it
has no comma, and the checksum does not see the difference.** -/
theorem takesTalker_iff {frame : Bytes} {checksum : Bool} {m : NMEA0183Msg}
    (h : NMEA0183Msg.init frame checksum = .ok m) {t1 t2 : UInt8} :
    TakesTalker m checksum [t1, t2] ↔
      ∃ a1 a2 name, m.address = a1 :: a2 :: name ∧ comma ∉ [t1, t2] ∧
        (checksum = true → t1 ^^^ t2 = a1 ^^^ a2) := by
  obtain ⟨delimiter, address, rest, ends, hsplits, hchecked, rfl⟩ := init_eq_ok_iff.mp h
  obtain ⟨shown, tail, hrest, htail, hfields⟩ := exists_shown hsplits hchecked
  have htext := hsplits.text_eq
  cases address with
  | nil => exact absurd rfl hsplits.address_ne
  | cons a1 address =>
    cases address with
    | nil =>
      -- the talker is written over the comma
      refine iff_of_false ?_ ?_
      · rintro ⟨m', hinit, htalker, hsame⟩
        have hraw : ((NMEA0183Msg.ofParts (trimmed frame) ends delimiter [a1]).replaceTalker [t1, t2]).raw
            = (delimiter :: t1 :: t2 :: rest) ++ crLf := by
          simp only [NMEA0183Msg.replaceTalker, NMEA0183Msg.ofParts, htext]
          rfl
        rw [hraw] at hinit
        obtain ⟨d', address', rest', ends', hsplits', hchecked', rfl⟩ := init_eq_ok_iff.mp hinit
        obtain ⟨shown', tail', hrest', htail', hfields'⟩ := exists_shown hsplits' hchecked'
        have htext' := hsplits'.text_eq
        rw [trimmed_append_crLf_self] at htext'
        have htaken : address'.take 2 = [t1, t2] := Except.ok.inj htalker
        obtain ⟨name, rfl⟩ : ∃ name, address' = t1 :: t2 :: name := by
          have hwhole := List.take_append_drop 2 address'
          rw [htaken] at hwhole
          exact ⟨address'.drop 2, hwhole.symm⟩
        have hover : delimiter = d' ∧ rest = name ++ comma :: rest' := by
          simpa using htext'
        obtain ⟨-, hover⟩ := hover
        rw [hrest, hrest', ← List.cons_append, ← List.append_assoc] at hover
        obtain ⟨hshown, -⟩ := List.append_inj' hover (htail.trans htail'.symm)
        rw [hfields, hfields', hshown] at hsame
        exact splitOn_ne_append hsame.symm
      · rintro ⟨x1, x2, name, haddress, -⟩
        exact absurd haddress (by simp [NMEA0183Msg.ofParts])
    | cons a2 name =>
      have hraw : ((NMEA0183Msg.ofParts (trimmed frame) ends delimiter (a1 :: a2 :: name)).replaceTalker
          [t1, t2]).raw = (delimiter :: t1 :: t2 :: name ++ comma :: rest) ++ crLf := by
        simp only [NMEA0183Msg.replaceTalker, NMEA0183Msg.ofParts, htext]
        rfl
      have htrimmed : trimmed ((delimiter :: t1 :: t2 :: name ++ comma :: rest) ++ crLf)
          = delimiter :: (t1 :: t2 :: name) ++ comma :: rest := trimmed_append_crLf_self _
      by_cases hcommas : comma ∈ [t1, t2]
      · refine iff_of_false ?_ ?_
        · rintro ⟨m', hinit, htalker, -⟩
          obtain ⟨d', address', rest', ends', hsplits', -, rfl⟩ := init_eq_ok_iff.mp hinit
          have htaken : address'.take 2 = [t1, t2] := Except.ok.inj htalker
          exact hsplits'.comma_notMem
            (List.mem_cons_of_mem _ (List.mem_of_mem_take (htaken ▸ hcommas)))
        · rintro ⟨x1, x2, name', -, hnone, -⟩
          exact hnone hcommas
      · have hnone := hsplits.comma_notMem
        simp only [List.mem_cons, List.not_mem_nil, or_false, not_or] at hcommas hnone
        have hsplits' : Splits (trimmed ((delimiter :: t1 :: t2 :: name ++ comma :: rest) ++ crLf))
            delimiter (t1 :: t2 :: name) rest := by
          refine ⟨htrimmed, ?_, by simp⟩
          simp only [List.mem_cons, not_or]
          exact ⟨hnone.1, hcommas.1, hcommas.2, hnone.2.2.2⟩
        rw [TakesTalker, hraw]
        constructor
        · rintro ⟨m', hinit, -, -⟩
          refine ⟨a1, a2, name, rfl, by simpa using hcommas, ?_⟩
          rintro rfl
          obtain ⟨d', address', rest', ends', hsplits'', hchecked', -⟩ := init_eq_ok_iff.mp hinit
          obtain ⟨rfl, rfl, rfl⟩ := hsplits'.unique hsplits''
          obtain ⟨shown1, c1, c2, hrest1, hsum1, -⟩ := hsplits.checked_iff.mp hchecked
          obtain ⟨shown2, d1, d2, hrest2, hsum2, -⟩ := hsplits'.checked_iff.mp hchecked'
          obtain ⟨rfl, hlast⟩ := List.append_inj' (hrest1.symm.trans hrest2) rfl
          obtain ⟨-, hlast⟩ := List.cons.inj hlast
          rw [hlast, hsum2] at hsum1
          exact (bChecksum_pair_iff t1 t2 a1 a2 _).mp
            (UInt8.toNat_inj.mp (Int.ofNat_inj.mp (Option.some.inj hsum1)))
        · rintro ⟨x1, x2, name', haddress, -, hxor⟩
          obtain ⟨rfl, hname⟩ := List.cons.inj haddress
          obtain ⟨rfl, rfl⟩ := List.cons.inj hname
          cases checksum with
          | false =>
            refine ⟨_, init_eq_ok_iff.mpr ⟨_, _, _, _, hsplits', rfl, rfl⟩, rfl, ?_⟩
            rw [fields_unchecked hsplits' rfl, fields_unchecked hsplits hchecked]
          | true =>
            obtain ⟨shown, c1, c2, rfl, hsum, rfl⟩ := hsplits.checked_iff.mp hchecked
            have hsame : bChecksum ((t1 :: t2 :: name) ++ comma :: shown)
                = bChecksum ((a1 :: a2 :: name) ++ comma :: shown) :=
              (bChecksum_pair_iff t1 t2 a1 a2 (name ++ comma :: shown)).mpr (hxor rfl)
            have hchecked' := hsplits'.checked_iff.mpr
              ⟨shown, c1, c2, rfl, by rw [hsame]; exact hsum, rfl⟩
            refine ⟨_, init_eq_ok_iff.mpr ⟨_, _, _, _, hsplits', hchecked', rfl⟩, rfl, ?_⟩
            rw [fields_checked hsplits', fields_checked hsplits]

/-! ## 5. The sentences that leave the router -/

/-- **Written sentences, and messages with another talker.** -/
theorem sentences_valid_iff (checksum : Bool) :
    (∀ text, IsText text →
      (WritesSentence text ↔
        text.tail.head? ≠ some ',' ∧ 16 ≤ NMEA0183Sentences.checksum text)) ∧
    (∀ frame m t1 t2, NMEA0183Msg.init frame checksum = .ok m →
      (TakesTalker m checksum [t1, t2] ↔
        ∃ a1 a2 name, m.address = a1 :: a2 :: name ∧ comma ∉ [t1, t2] ∧
          (checksum = true → t1 ^^^ t2 = a1 ^^^ a2))) :=
  ⟨fun _ h => writesSentence_iff h, fun _ _ _ _ h => takesTalker_iff h⟩

/-- A sentence, and its message with the talker turned round. -/
theorem sentences_valid_gll :
    IsText "$GPGLL,A".toList ∧ WritesSentence "$GPGLL,A".toList ∧
      NMEA0183Msg.init (ascii "$GPGLL,A*3D") true = .ok (gll (ascii "$GPGLL,A*3D") 8 61) ∧
      TakesTalker (gll (ascii "$GPGLL,A*3D") 8 61) true [80, 71] := by
  have htext : IsText "$GPGLL,A".toList :=
    ⟨List.all_iff_forall_prop.mp (by decide +kernel), by decide +kernel, by decide +kernel,
      by decide +kernel⟩
  have hinit : NMEA0183Msg.init (ascii "$GPGLL,A*3D") true = .ok (gll (ascii "$GPGLL,A*3D") 8 61) := by
    decide +kernel
  refine ⟨htext, ((sentences_valid_iff true).1 _ htext).mpr ⟨by decide +kernel, by decide +kernel⟩, hinit, ?_⟩
  exact ((sentences_valid_iff true).2 _ _ 80 71 hinit).mpr
    ⟨71, 80, ascii "GLL", rfl, by decide, fun _ => by decide⟩

/-- A checksum of one digit, and another talker on a checked message. -/
theorem not_sentences_valid :
    (IsText "$SNMTW,10.0,C".toList ∧ ¬ WritesSentence "$SNMTW,10.0,C".toList) ∧
      NMEA0183Msg.init (ascii "$GPGLL,A*3D") true = .ok (gll (ascii "$GPGLL,A*3D") 8 61) ∧
      ¬ TakesTalker (gll (ascii "$GPGLL,A*3D") 8 61) true (ascii "GN") := by
  refine ⟨⟨⟨List.all_iff_forall_prop.mp (by decide +kernel), by decide +kernel, by decide +kernel,
      by decide +kernel⟩, ?_⟩,
    by decide +kernel, ?_⟩
  · rintro ⟨m, address, rest, -, ⟨front, c1, c2, hmessage, hc1, -⟩, -⟩
    have hwritten : (NMEA0183Sentences.mk "$SNMTW,10.0,C".toList).message
        = ascii "$SNMTW,10.0,C" ++ [star, 32, 70] ++ crLf := by decide +kernel
    obtain ⟨hfront, -⟩ := List.append_inj' (hmessage.symm.trans hwritten) rfl
    obtain ⟨-, hlast⟩ := List.append_inj' hfront rfl
    simp only [List.cons.injEq, true_and] at hlast
    exact hc1.ne (show digitVal 32 = none by decide) hlast.1
  · rintro ⟨m', hinit, -⟩
    have hrefused : NMEA0183Msg.init
        ((gll (ascii "$GPGLL,A*3D") 8 61).replaceTalker (ascii "GN")).raw true
          = .error .nmeaInvalidFrame := by decide +kernel
    exact absurd (hrefused.symm.trans hinit) (by simp)

end NavigationServer.RouterCore
