/-
NavigationServer.Nmea2000Datamodel.DecodePgnTheorems — where the decoder reads
the fields of a definition of fixed length.

The loop of `decode_pgn_data` keeps an index, but most fields do not use it: a field
that is no bit value begins at the byte of its definition (`Whole.decode_eq`). Only a
bit field is read where the index stands, and the index is moved by numbers alone, not
by a string and not by a bit field. So it may fall behind, and it never runs
ahead (`Passes.index_le`); a bit field is read from its own bytes where everything
before it has moved the index (`Item.Found`).

`decodeFields_reports` is the induction over the items, with one lemma for each kind, and
`Layout` gives the items of a list of fields, which the generator of the bit fields has
made. The floats are a parameter: what `present` makes of a number is left as it is.

Left out are repeated fields, fields of variable length, and payloads that are
shorter than the definition.
-/
import NavigationServer.Nmea2000Datamodel.BitFieldGeneratorTheorems
import NavigationServer.Nmea2000Datamodel.DecodePgn
import NavigationServer.Nmea2000Datamodel.ValueCoderTheorems

namespace NavigationServer.Nmea2000Datamodel

open NavigationServer.Lib BitFieldGenerator
open BitFieldGenerator renaming Item → ListItem

variable {F : Type}

/-! ## 1. Coders -/

/-- A coder without a sign reads the number of its bytes. -/
theorem uintTable_decode {length : Nat} (h : 0 < length ∧ length ≤ 4) :
    ∃ coder, DecodeDefinitions.uintTable length = .ok coder ∧ ∀ data : Bytes, data.length = length →
      coder.decode data = if ofLE data = 2 ^ (8 * length) - 1 then .error .valueError
        else .ok ((ofLE data : Nat) : Int) := by
  have hlengths : length = 1 ∨ length = 2 ∨ length = 3 ∨ length = 4 := by omega
  obtain ⟨format, processLambda, hformat, hcoder, hprocess⟩ : ∃ format processLambda,
      structFormat length = some format ∧
      DecodeDefinitions.uintTable length = .ok (.unsigned length format processLambda) ∧
      ∀ v, process length v = processLambda v := by
    rcases hlengths with rfl | rfl | rfl | rfl
    all_goals exact ⟨_, _, rfl, rfl, fun _ => rfl⟩
  refine ⟨_, hcoder, fun data hdata => ?_⟩
  obtain ⟨v, hunpack, hword⟩ := process_unpack hformat hdata
  rw [ValueCoder.decode_unsigned (ValueCoder.structUnpack_eq_ok hunpack) ((hprocess v).symm.trans hword)]
  have hinvalid : (((ofLE data : Nat) : Int) = ValueCoder.invalidValue length) ↔
      ofLE data = 2 ^ (8 * length) - 1 := by
    have hpos : 0 < 2 ^ (8 * length) := Nat.two_pow_pos _
    rw [ValueCoder.invalidValue, Nat.mul_comm length 8]
    zify [hpos]
  simp only [hinvalid]

/-- A coder with a sign does so but for the one of three bytes. -/
theorem intTable_decode {length : Nat} (h : length = 1 ∨ length = 2 ∨ length = 4 ∨ length = 8) :
    ∃ coder, DecodeDefinitions.intTable length = .ok coder ∧ ∀ data : Bytes, data.length = length →
      coder.decode data = .ok (ofUnsigned length (ofLE data)) := by
  have hcoder : DecodeDefinitions.intTable length = .ok (.signed length [⟨length, true⟩]) := by
    rcases h with rfl | rfl | rfl | rfl
    all_goals rfl
  refine ⟨_, hcoder, fun data hdata => ?_⟩
  have hunpack : unpack [⟨length, true⟩] data = some [ofUnsigned length (ofLE data)] := by
    rw [unpack, if_pos (by rw [calcsize_cons]; exact hdata), readSlots, readSlots,
      List.take_of_length_le (Nat.le_of_eq hdata)]
    rfl
  rw [ValueCoder.decode, ValueCoder.structUnpack_eq_ok hunpack]
  rfl

/-- The one of three bytes reads something. -/
theorem intTable_three : ∃ coder, DecodeDefinitions.intTable 3 = .ok coder ∧
    ∀ data : Bytes, data.length = 3 → ∃ n, coder.decode data = .ok n := by
  refine ⟨_, rfl, fun data hdata => ?_⟩
  have hunpack : unpack [⟨2, true⟩, ⟨1, true⟩] data = some (readSlots [⟨2, true⟩, ⟨1, true⟩] data) :=
    if_pos hdata
  refine ⟨Slot.read ⟨2, true⟩ (ofLE (data.take 2)), ?_⟩
  rw [ValueCoder.decode, ValueCoder.structUnpack_eq_ok hunpack]
  rfl

/-! ## 2. Fields that fill bytes -/

namespace BitFieldGenerator.NamedField

/-- The field is read by a value coder. -/
def isNumber (f : NamedField) : Bool :=
  match f.definition.fieldClass with
  | .uintField | .instanceField | .enumField | .enumIntField | .intField | .dblField | .udblField => true
  | .varLengthStringField | .fixLengthStringField | .nameField | .bytesField => false

/-- A number of 1, 2, 3, 4 or 8 bytes, or a string, from a byte on. -/
structure Whole (f : NamedField) : Prop where
  bitValue : f.isBitValue = false
  bitOffset : f.bitOffset = 8 * f.definition.startByte
  bitLength : f.bitLength = 8 * f.definition.byteLength
  kind : f.isNumber = true ∧ f.definition.byteLength ∈ [1, 2, 3, 4, 8] ∨
    f.definition.fieldClass = .fixLengthStringField ∧ 0 < f.definition.byteLength

instance (f : NamedField) : Decidable f.Whole :=
  decidable_of_iff (f.isBitValue = false ∧ f.bitOffset = 8 * f.definition.startByte ∧
      f.bitLength = 8 * f.definition.byteLength ∧
      (f.isNumber = true ∧ f.definition.byteLength ∈ [1, 2, 3, 4, 8] ∨
        f.definition.fieldClass = .fixLengthStringField ∧ 0 < f.definition.byteLength))
    ⟨fun h => ⟨h.1, h.2.1, h.2.2.1, h.2.2.2⟩, fun h => ⟨h.bitValue, h.bitOffset, h.bitLength, h.kind⟩⟩

/-- A number that the decoder has a coder for, and a name for. -/
structure HasCoder (f : NamedField) : Prop where
  number : f.isNumber = true
  unsigned : f.definition.signed = false → f.definition.byteLength ≠ 8
  globalEnum : f.isEnum = true → f.globalEnum = false

/-- The bytes that the definition gives to a field. -/
def bytes (f : NamedField) (data : Bytes) : Bytes :=
  (data.drop f.definition.startByte).take f.definition.byteLength

/-- The number in these bytes, with its sign. -/
def number (f : NamedField) (data : Bytes) : Int :=
  if f.definition.signed then ofUnsigned f.definition.byteLength (f.bits data) else f.bits data

variable [PythonFloat F]

/-- What is reported for a field that is read from its own bits. -/
def reported (f : NamedField) (data : Bytes) : Option (Value F) :=
  if f.isBitValue then some (.ofSubField (f.valueOf (f.bits data)))
  else if f.definition.fieldClass = .fixLengthStringField then
    (decodeText (f.bytes data)).map (fun s => .text (stripPadding s))
  else if f.definition.signed = false ∧ f.bits data = 2 ^ f.bitLength - 1 then none
  else (f.present (f.number data)).toOption

variable {f : NamedField} {data : Bytes}

/-- The bits of a field that fills bytes are the number of these bytes. -/
theorem Whole.bits_eq (h : f.Whole) : f.bits data = ofLE (f.bytes data) := by
  have hword := @extract_word data f.definition.startByte f.definition.byteLength 0 f.bitLength
    (by rw [h.bitLength]; omega)
  have hlt : ofLE (f.bytes data) < 2 ^ f.bitLength := by
    refine lt_of_lt_of_le (ofLE_lt _) ?_
    rw [h.bitLength, Nat.pow_mul]
    exact Nat.pow_le_pow_right (by decide) (List.length_take_le _ _)
  rw [pow_zero, Nat.div_one, Nat.add_zero, ← h.bitOffset] at hword
  exact hword.symm.trans (Nat.mod_eq_of_lt hlt)

/-- A payload that is long enough has all its bytes. -/
theorem length_bytes (hroom : f.definition.startByte + f.definition.byteLength ≤ data.length) :
    (f.bytes data).length = f.definition.byteLength := by
  rw [bytes, List.length_take, List.length_drop]
  omega

/-- The slice that the decoder takes. -/
theorem slice_eq (f : NamedField) (data : Bytes) :
    slice data (f.definition.startByte : Int)
      ((f.definition.startByte + f.definition.byteLength : Nat) : Int) = f.bytes data := by
  rw [slice_natCast, Nat.add_sub_cancel_left, bytes]

/-- A number with a name or without one. -/
theorem HasCoder.present_ok (h : f.HasCoder) (n : Int) :
    ∃ v : Value F, f.present n = .ok v := by
  have hglobal := h.globalEnum
  unfold isEnum at hglobal
  unfold present
  cases hclass : f.definition.fieldClass with
  | enumField =>
    rw [hclass] at hglobal
    exact ⟨_, if_neg (by simp [hglobal rfl])⟩
  | enumIntField =>
    rw [hclass] at hglobal
    dsimp only
    rw [if_neg (by simp [hglobal rfl])]
    cases f.valuePair.lookup n.toNat with
    | none => exact ⟨_, rfl⟩
    | some name => exact ⟨_, rfl⟩
  | _ => exact ⟨_, rfl⟩

/-- A number with a sign takes the coder of its length from one table. -/
theorem valueCoder_signed (h : f.definition.signed = true) {coder : ValueCoder}
    (hcoder : DecodeDefinitions.intTable f.definition.byteLength = .ok coder) :
    f.definition.valueCoder = .ok (some coder) := by
  have hclass : f.definition.fieldClass = .intField ∨ f.definition.fieldClass = .dblField := by
    unfold FieldDef.signed at h
    split at h
    · exact .inl ‹_›
    · exact .inr ‹_›
    · cases h
  unfold FieldDef.valueCoder
  rcases hclass with hclass | hclass
  · rw [hclass, hcoder]
    rfl
  · rw [hclass, hcoder]
    rfl

/-- Any other field takes it from the other one, which is asked for four bytes at
most. -/
theorem valueCoder_unsigned (h : f.definition.signed = false) :
    f.definition.valueCoder = if 0 < f.definition.byteLength ∧ f.definition.byteLength ≤ 4 then
        (DecodeDefinitions.uintTable f.definition.byteLength).map some else .ok none := by
  unfold FieldDef.signed at h
  unfold FieldDef.valueCoder
  cases hclass : f.definition.fieldClass with
  | intField | dblField =>
    rw [hclass] at h
    cases h
  | _ =>
    dsimp only
    split
    · cases DecodeDefinitions.uintTable f.definition.byteLength <;> rfl
    · rfl

/-- The coder works on these bytes. The number that stands for no value is found, and is
none. -/
theorem extractValue_bytes (f : NamedField) (data : Bytes) (coder : ValueCoder) :
    FieldDef.extractValue (some coder) data f.definition.startByte
        (f.definition.startByte + f.definition.byteLength)
      = match coder.decode (f.bytes data) with
        | .ok value => .ok (some value)
        | .error .valueError => .ok none
        | .error e => .error e := by
  change (match coder.decode (slice data f.definition.startByte
      ((f.definition.startByte + f.definition.byteLength : Nat) : Int)) with
    | .ok value => .ok (some value)
    | .error .valueError => .ok none
    | .error e => .error e : Except Exn (Option Int)) = _
  rw [slice_eq]

/-- What comes of the number that the coder finds. -/
theorem decodeNumber_of_extractValue {payload : Bytes} {start stop : Nat} {coder : Option ValueCoder}
    {found : Option Int} (hcoder : f.definition.valueCoder = .ok coder)
    (hextract : FieldDef.extractValue coder payload start stop = .ok found) :
    f.decodeNumber (F := F) payload start stop = found.elim (.ok ⟨f.definition.byteLength, none⟩)
      (fun n => (f.present n).map (fun v => ⟨f.definition.byteLength, some v⟩)) := by
  unfold decodeNumber
  rw [hcoder]
  change (FieldDef.extractValue coder payload start stop >>= _) = _
  rw [hextract]
  cases found with
  | none => rfl
  | some n =>
    rw [Option.elim_some]
    change (f.present (F := F) n >>= _) = _
    cases f.present (F := F) n <;> rfl

/-- **A number with a coder is read from its own bytes.** -/
theorem Whole.decodeNumber_eq (h : f.Whole) (hcoder : f.HasCoder)
    (hthree : f.definition.signed = true → f.definition.byteLength ≠ 3)
    (hroom : f.definition.startByte + f.definition.byteLength ≤ data.length) :
    f.decodeNumber (F := F) data f.definition.startByte
        (f.definition.startByte + f.definition.byteLength)
      = .ok ⟨f.definition.byteLength, f.reported data⟩ := by
  have hlength := length_bytes hroom
  obtain ⟨v, hv⟩ := hcoder.present_ok (F := F) (f.number data)
  have hstring : f.definition.fieldClass ≠ .fixLengthStringField := by
    intro hclass
    have hnumber := hcoder.number
    rw [isNumber, hclass] at hnumber
    cases hnumber
  have hbytes : f.definition.byteLength ∈ [1, 2, 3, 4, 8] := by
    rcases h.kind with ⟨-, hmem⟩ | ⟨hclass, -⟩
    · exact hmem
    · exact absurd hclass hstring
  simp only [List.mem_cons, List.not_mem_nil, or_false] at hbytes
  unfold reported
  rw [if_neg (by simp [h.bitValue]), if_neg hstring]
  cases hsigned : f.definition.signed with
  | true =>
    have hthree' := hthree hsigned
    obtain ⟨coder, htable, hdecode⟩ := @intTable_decode f.definition.byteLength (by omega)
    have hnumber : f.number data = ofUnsigned f.definition.byteLength (f.bits data) := by
      rw [number, if_pos hsigned]
    have hextract := extractValue_bytes f data coder
    rw [hdecode _ hlength, ← h.bits_eq, ← hnumber] at hextract
    rw [decodeNumber_of_extractValue (valueCoder_signed hsigned htable) hextract]
    simp only [Option.elim_some, hv, Bool.true_eq_false, false_and, if_false]
    rfl
  | false =>
    have hshort := hcoder.unsigned hsigned
    obtain ⟨coder, htable, hdecode⟩ := @uintTable_decode f.definition.byteLength (by omega)
    have hentry : f.definition.valueCoder = .ok (some coder) := by
      rw [valueCoder_unsigned hsigned, if_pos (by omega), htable]
      rfl
    have hnumber : f.number data = f.bits data := by
      rw [number, if_neg (by simp [hsigned])]
    have hextract := extractValue_bytes f data coder
    rw [hdecode _ hlength, ← h.bits_eq, ← h.bitLength, ← hnumber] at hextract
    by_cases hinvalid : f.bits data = 2 ^ f.bitLength - 1
    · rw [if_pos hinvalid] at hextract
      rw [decodeNumber_of_extractValue hentry hextract, if_pos ⟨rfl, hinvalid⟩]
      rfl
    · rw [if_neg hinvalid] at hextract
      rw [decodeNumber_of_extractValue hentry hextract, if_neg (fun hboth => hinvalid hboth.2)]
      simp only [Option.elim_some, hv]
      rfl

/-- Any number with a coder is decoded, also one of three bytes with a sign. -/
theorem Whole.decodeNumber_ok (h : f.Whole) (hcoder : f.HasCoder)
    (hroom : f.definition.startByte + f.definition.byteLength ≤ data.length) :
    ∃ r, f.decodeNumber (F := F) data f.definition.startByte
      (f.definition.startByte + f.definition.byteLength) = .ok r := by
  by_cases hthree : f.definition.signed = true ∧ f.definition.byteLength = 3
  · obtain ⟨coder, htable, hdecode⟩ := intTable_three
    obtain ⟨n, hn⟩ := hdecode (f.bytes data) ((length_bytes hroom).trans hthree.2)
    obtain ⟨v, hv⟩ := hcoder.present_ok (F := F) n
    have hextract := extractValue_bytes f data coder
    rw [hn] at hextract
    rw [decodeNumber_of_extractValue (valueCoder_signed hthree.1 (hthree.2 ▸ htable)) hextract,
      Option.elim_some, hv]
    exact ⟨_, rfl⟩
  · exact ⟨_, h.decodeNumber_eq hcoder (fun hsigned hlength => hthree ⟨hsigned, hlength⟩) hroom⟩

/-- A number says that it has read its bytes. -/
theorem actualLength_of_decodeNumber {payload : Bytes} {start stop : Nat} {r : N2KDecodeResult F}
    (h : f.decodeNumber payload start stop = .ok r) : r.actualLength = f.definition.byteLength := by
  unfold decodeNumber at h
  obtain ⟨coder, -, h⟩ := bind_eq_ok.mp h
  obtain ⟨found, -, h⟩ := bind_eq_ok.mp h
  cases found with
  | none =>
    cases h
    rfl
  | some n =>
    obtain ⟨v, -, h⟩ := bind_eq_ok.mp h
    cases h
    rfl

/-- Every class of numbers is decoded in one way. -/
theorem decodeValue_number (h : f.isNumber = true) (payload : Bytes) (start stop : Nat) :
    f.decodeValue (F := F) payload start stop = do return some (← f.decodeNumber payload start stop) := by
  unfold isNumber at h
  unfold decodeValue
  cases hclass : f.definition.fieldClass <;> rw [hclass] at h <;> cases h

/-- No field is empty. -/
theorem Whole.pos (h : f.Whole) : 0 < f.definition.byteLength := by
  rcases h.kind with ⟨-, hmem⟩ | ⟨-, hpos⟩
  · simp only [List.mem_cons, List.not_mem_nil, or_false] at hmem
    omega
  · exact hpos

/-- A field is read from its own place, whatever the index. -/
theorem Whole.decode_eq {index : Nat} (h : f.Whole) (hindex : f.definition.startByte = 0 → index = 0)
    (hroom : f.definition.startByte + f.definition.byteLength ≤ data.length) :
    f.decode (F := F) data index = match f.decodeValue data f.definition.startByte
        (f.definition.startByte + f.definition.byteLength) with
      | .ok (some r) => .result r
      | _ => .failed := by
  have hstart : (if f.definition.startByte = 0 then index else f.definition.startByte)
      = f.definition.startByte := by
    split
    · rename_i hzero
      rw [hindex hzero, hzero]
    · rfl
  unfold decode
  rw [hstart]
  dsimp only
  rw [if_pos (Nat.ne_of_gt h.pos)]
  exact if_neg (by omega)

section Decode

variable {index : Nat} (h : f.Whole) (hindex : f.definition.startByte = 0 → index = 0)
  (hroom : f.definition.startByte + f.definition.byteLength ≤ data.length)

include h hindex hroom

/-- A number is read from its bytes, and moves the index by them. -/
theorem Whole.decode_number (hcoder : f.HasCoder)
    (hthree : f.definition.signed = true → f.definition.byteLength ≠ 3) :
    f.decode (F := F) data index = .result ⟨f.definition.byteLength, f.reported data⟩ := by
  rw [h.decode_eq hindex hroom, decodeValue_number hcoder.number, h.decodeNumber_eq hcoder hthree hroom]
  rfl

/-- A string is read from its bytes, and does not move the index. -/
theorem Whole.decode_string (hclass : f.definition.fieldClass = .fixLengthStringField) :
    f.decode (F := F) data index = .result ⟨0, f.reported data⟩ := by
  rw [h.decode_eq hindex hroom, reported, if_neg (by simp [h.bitValue]), if_pos hclass, decodeValue, hclass]
  dsimp only
  rw [slice_eq]

/-- So does any number with a coder, whatever is read. -/
theorem Whole.decode_advances (hcoder : f.HasCoder) :
    ∃ r, f.decode (F := F) data index = .result r ∧ r.actualLength = f.definition.byteLength := by
  obtain ⟨r, hr⟩ := h.decodeNumber_ok (F := F) hcoder hroom
  refine ⟨r, ?_, actualLength_of_decodeNumber hr⟩
  rw [h.decode_eq hindex hroom, decodeValue_number hcoder.number, hr]
  rfl

/-- No field moves the index past its own end. -/
theorem Whole.decode_le :
    f.decode (F := F) data index = .failed ∨
      ∃ r, f.decode (F := F) data index = .result r ∧ r.actualLength ≤ f.definition.byteLength := by
  rcases h.kind with ⟨hnumber, -⟩ | ⟨hclass, -⟩
  · rw [h.decode_eq hindex hroom, decodeValue_number hnumber]
    cases hr : f.decodeNumber (F := F) data f.definition.startByte
        (f.definition.startByte + f.definition.byteLength) with
    | error e => exact .inl rfl
    | ok r => exact .inr ⟨r, rfl, Nat.le_of_eq (actualLength_of_decodeNumber hr)⟩
  · exact .inr ⟨_, h.decode_string (F := F) hindex hroom hclass, Nat.zero_le _⟩

end Decode

end BitFieldGenerator.NamedField

/-! ## 3. Names -/

namespace BitFieldGenerator

/-- What is written under other names stays out. -/
theorem foldl_update_of_ne {l : List BitFieldDef} {name : String} (h : ∀ s ∈ l, s.field.name ≠ name)
    (value : BitFieldDef → FieldValue) (fields : Fields) :
    l.foldl (fun (fields : Fields) s => Function.update fields s.field.name (some (value s))) fields name
      = fields name := by
  induction l generalizing fields with
  | nil => rfl
  | cons s l ih =>
    obtain ⟨hs, hl⟩ := List.forall_mem_cons.mp h
    rw [List.foldl_cons, ih hl, Function.update_of_ne hs.symm]

/-- The only one with its name is found there. -/
theorem foldl_update_of_mem {l : List BitFieldDef} {s : BitFieldDef} (hs : s ∈ l)
    (hunique : ∀ s' ∈ l, s'.field.name = s.field.name → s' = s) (value : BitFieldDef → FieldValue)
    (fields : Fields) :
    l.foldl (fun (fields : Fields) s => Function.update fields s.field.name (some (value s))) fields
        s.field.name = some (value s) := by
  induction l generalizing fields with
  | nil => cases hs
  | cons s' l ih =>
    obtain ⟨hfirst, hl⟩ := List.forall_mem_cons.mp hunique
    rw [List.foldl_cons]
    by_cases hmem : s ∈ l
    · exact ih hmem hl _
    · have heq : s' = s := ((List.mem_cons.mp hs).resolve_right hmem).symm
      rw [foldl_update_of_ne (fun t ht hname => hmem (hl t ht hname ▸ ht)), heq, Function.update_self]

end BitFieldGenerator

/-- A bit field leaves the names that it does not have. -/
theorem Values.join_of_none (fields : Values F) {subFields : Fields} {name : String}
    (h : subFields name = none) : fields.join subFields name = fields name := by
  rw [Values.join, h, Option.map_none, Option.none_or]

/-- And reports those it has. -/
theorem Values.join_of_some (fields : Values F) {subFields : Fields} {name : String} {v : FieldValue}
    (h : subFields name = some v) : fields.join subFields name = some (.ofSubField v) := by
  rw [Values.join, h, Option.map_some, Option.some_or]

/-- A field leaves the other names. -/
theorem Values.report_of_ne (fields : Values F) {name other : String} (h : other ≠ name)
    (value : Option (Value F)) : fields.report other value name = fields name := by
  unfold Values.report
  split
  · rfl
  · cases value with
    | none => rfl
    | some v => exact Function.update_of_ne h.symm _ _

/-- And reports its own, unless there is no value. -/
theorem Values.report_self (fields : Values F) {name : String} (h : name ≠ "Reserved")
    (hnone : fields name = none) (value : Option (Value F)) : fields.report name value name = value := by
  unfold Values.report
  rw [if_neg h]
  cases value with
  | none => exact hnone
  | some v => exact Function.update_self _ _ _

/-! ## 4. One item -/

namespace BitFieldGenerator

namespace Item

/-- The byte where an item begins, by its definition. -/
def startByte : Item → Nat
  | .field f => f.definition.startByte
  | .bitField b => b.startByte

/-- The bytes that it takes. -/
def byteLength : Item → Nat
  | .field f => f.definition.byteLength
  | .bitField b => b.byteLength

/-- An item of a definition of fixed length. -/
def Readable : Item → Prop
  | .field f => f.Whole
  | .bitField b => (∃ stretch, b.Made stretch ∧ ∀ f ∈ stretch, f.isEnum = true → f.globalEnum = false) ∧
      b.Finalized ∧ b.struct.isSome = true

/-- The index moves past the item. -/
def Advances : Item → Prop
  | .field f => f.HasCoder
  | .bitField _ => False

/-- The item is read from its own place, where a bit field needs the index there. -/
def Found (inPlace : Prop) : Item → Prop
  | .field f => f.definition.fieldClass = .fixLengthStringField ∨
      f.HasCoder ∧ (f.definition.signed = true → f.definition.byteLength ≠ 3)
  | .bitField _ => inPlace

end Item

end BitFieldGenerator

variable [PythonFloat F]

/-- What an item at byte `start` does to the index and the values. -/
structure Passes (data : Bytes) (start index : Nat) (fields : Values F) (i : ListItem) (index' : Nat)
    (fields' : Values F) : Prop where
  index_le : index' ≤ start + i.byteLength
  advances : index = start → i.Advances → index' = start + i.byteLength
  others : ∀ name, (∀ f ∈ i.fields, f.name ≠ name) → fields' name = fields name
  reads : i.Found (index = start) →
    i.fields.Pairwise (fun f g => f.name = g.name → f.name = "Reserved") →
      ∀ f ∈ i.fields, f.name ≠ "Reserved" → fields f.name = none → fields' f.name = f.reported data

variable {data : Bytes} {start index : Nat}

/-- **A field.** One that has no coder fails, and is passed over with the index where it
was. -/
theorem passes_field {f : NamedField} (h : f.Whole) (hindex : index ≤ f.definition.startByte)
    (hroom : f.definition.startByte + f.definition.byteLength ≤ data.length) (fields : Values F)
    (fieldList : List ListItem) :
    ∃ index' fields', decodeFields data index fields (.field f :: fieldList)
        = decodeFields data index' fields' fieldList ∧
      Passes data f.definition.startByte index fields (.field f) index' fields' := by
  have hzero : f.definition.startByte = 0 → index = 0 := by omega
  rcases h.decode_le (F := F) hzero hroom with hfailed | ⟨r, hr, hle⟩
  -- a failed field has no coder: it is neither counted on to move the index nor found
  · refine ⟨index, fields, by rw [decodeFields, hfailed], by omega, ?_, fun _ _ => rfl, ?_⟩
    · intro _ hcoder
      obtain ⟨r, hr, -⟩ := h.decode_advances (F := F) hzero hroom hcoder
      rw [hr] at hfailed
      cases hfailed
    · intro hfound
      rcases hfound with hclass | ⟨hcoder, hthree⟩
      · rw [h.decode_string hzero hroom hclass] at hfailed
        cases hfailed
      · rw [h.decode_number hzero hroom hcoder hthree] at hfailed
        cases hfailed
  · refine ⟨index + r.actualLength, fields.report f.name r.value, by rw [decodeFields, hr], ?_, ?_, ?_, ?_⟩
    · exact Nat.add_le_add hindex hle
    · rintro rfl hcoder
      obtain ⟨r', hr', hlength⟩ := h.decode_advances (F := F) hzero hroom hcoder
      rw [hr] at hr'
      cases hr'
      rw [hlength]
      rfl
    · intro name hname
      exact fields.report_of_ne (hname f (List.mem_singleton_self f)) _
    · intro hfound _ g hg hreserved hnone
      cases List.mem_singleton.mp hg
      have hvalue : r.value = f.reported data := by
        rcases hfound with hclass | ⟨hcoder, hthree⟩
        · rw [h.decode_string hzero hroom hclass] at hr
          cases hr
          rfl
        · rw [h.decode_number hzero hroom hcoder hthree] at hr
          cases hr
          rfl
      rw [hvalue]
      exact fields.report_self hreserved hnone _

/-- No two fields have the same name, unless they are reserved. -/
def NamesApart (fields : List NamedField) : Prop :=
  fields.Pairwise (fun f g => f.name = g.name → f.name = "Reserved")

instance (fields : List NamedField) : Decidable (NamesApart fields) :=
  inferInstanceAs (Decidable (fields.Pairwise _))

/-- A sub field is found by its name. -/
theorem NamesApart.eq {fields : List BitFieldGenerator.BitFieldDef}
    (h : NamesApart (fields.map BitFieldGenerator.BitFieldDef.field)) {s s' : BitFieldGenerator.BitFieldDef}
    (hs : s ∈ fields) (hs' : s' ∈ fields) (hname : s'.field.name = s.field.name)
    (hreserved : s.field.name ≠ "Reserved") : s' = s := by
  by_contra hne
  have hsymm : Std.Symm (fun t t' : BitFieldGenerator.BitFieldDef => t.field.name = t'.field.name →
      t.field.name = "Reserved") := ⟨fun _ _ himp heq => heq.trans (himp heq.symm)⟩
  exact hreserved ((List.pairwise_map.mp h).forall hs hs' (Ne.symm hne) hname.symm)

/-- **A bit field.** It is read where the index stands, and does not move it. -/
theorem passes_bitField {b : BitFieldGenerator.BitField} (h : (ListItem.bitField b).Readable)
    (hindex : index ≤ b.startByte) (hroom : b.startByte + b.byteLength ≤ data.length) (fields : Values F)
    (fieldList : List ListItem) :
    ∃ fields', decodeFields data index fields (.bitField b :: fieldList)
        = decodeFields data index fields' fieldList ∧
      Passes data b.startByte index fields (.bitField b) index fields' := by
  obtain ⟨⟨stretch, hmade, hglobal⟩, hfinalized, hstruct⟩ := h
  have hin : index + b.byteLength ≤ data.length := by omega
  have hdecode := hmade.decode_word hfinalized hstruct hglobal hin (fun _ => none)
  refine ⟨_, by rw [decodeFields, hdecode]; rfl, Nat.le_add_right_of_le hindex, fun _ hno => hno.elim, ?_, ?_⟩
  · intro name hname
    refine fields.join_of_none ?_
    exact foldl_update_of_ne (fun s hs => hname s.field (List.mem_map_of_mem hs)) _ _
  · intro hplace hnames f hf hreserved _
    obtain ⟨s, hs, rfl⟩ := List.mem_map.mp hf
    have hindex : index = b.startByte := hplace
    have hend := hmade.end_le hs
    have hbits : ofLE ((data.drop index).take b.byteLength) / 2 ^ s.relOffset % 2 ^ s.field.bitLength
        = s.field.bits data := by
      rw [hindex, extract_word (by rw [hfinalized.byteLength]; omega), hmade.relOffset s hs]
      rfl
    have hbit := hmade.bitValues s.field (hmade.fields ▸ List.mem_map_of_mem hs)
    rw [NamedField.reported, if_pos hbit, ← hbits]
    exact fields.join_of_some (foldl_update_of_mem hs
      (fun s' hs' hname => NamesApart.eq hnames hs hs' hname hreserved) _ _)

/-! ## 5. The run -/

/-- Each item begins where the ones before it end. -/
def PlacedFrom : Nat → List ListItem → Prop
  | _, [] => True
  | start, i :: items => i.startByte = start ∧ PlacedFrom (start + i.byteLength) items

/-- **An item.** -/
theorem passes_item {i : ListItem} (h : i.Readable) (hindex : index ≤ i.startByte)
    (hroom : i.startByte + i.byteLength ≤ data.length) (fields : Values F) (fieldList : List ListItem) :
    ∃ index' fields', decodeFields data index fields (i :: fieldList)
        = decodeFields data index' fields' fieldList ∧
      Passes data i.startByte index fields i index' fields' := by
  cases i with
  | field f => exact passes_field h hindex hroom fields fieldList
  | bitField b => exact ⟨index, passes_bitField h hindex hroom fields fieldList⟩

/-- What a run over the list reports. -/
structure Reports (data : Bytes) (start index : Nat) (fields : Values F) (items : List ListItem)
    (out : Values F) : Prop where
  others : ∀ name, (∀ f ∈ items.flatMap ListItem.fields, f.name ≠ name) → out name = fields name
  reads : ∀ front i back, items = front ++ i :: back →
    i.Found (index = start ∧ ∀ j ∈ front, j.Advances) →
      ∀ f ∈ i.fields, f.name ≠ "Reserved" → fields f.name = none → out f.name = f.reported data

/-- **The run over a list whose items can be read**, by induction on the list. -/
theorem decodeFields_reports {items : List ListItem} (hplaced : PlacedFrom start items)
    (hreadable : ∀ i ∈ items, i.Readable) (hnames : NamesApart (items.flatMap ListItem.fields))
    (hroom : start + (items.map ListItem.byteLength).sum ≤ data.length) (hindex : index ≤ start)
    (fields : Values F) :
    ∃ out, decodeFields data index fields items = .ok out ∧ Reports data start index fields items out := by
  induction items generalizing start index fields with
  | nil => exact ⟨fields, rfl, fun _ _ => rfl, fun front _ _ heq => by cases front <;> cases heq⟩
  | cons i items ih =>
    obtain ⟨rfl, hrest⟩ := hplaced
    rw [List.map_cons, List.sum_cons] at hroom
    obtain ⟨hapart, hlater, hbetween⟩ := List.pairwise_append.mp hnames
    obtain ⟨hi, hreadable⟩ := List.forall_mem_cons.mp hreadable
    have hhere : i.startByte + i.byteLength ≤ data.length := by omega
    obtain ⟨index', fields', hstep, hpasses⟩ := passes_item hi hindex hhere fields items
    obtain ⟨out, hrun, hreports⟩ := ih hrest hreadable hlater (by omega) hpasses.index_le fields'
    refine ⟨out, hstep.trans hrun, ?_, ?_⟩
    · intro name hname
      rw [hreports.others name (fun f hf => hname f (List.mem_append_right _ hf)),
        hpasses.others name (fun f hf => hname f (List.mem_append_left _ hf))]
    · intro front j back heq hfound f hf hreserved hnone
      cases front with
      -- the item itself: what comes behind has other names
      | nil =>
        cases heq
        have hothers : ∀ g ∈ items.flatMap ListItem.fields, g.name ≠ f.name := by
          intro g hg hname
          exact hreserved (hbetween f hf g hg hname.symm)
        rw [hreports.others f.name hothers]
        refine hpasses.reads ?_ hapart f hf hreserved hnone
        cases i with
        | field g => exact hfound
        | bitField b => exact hfound.1
      -- a later one: the index is in place there if this item has moved it
      | cons i' front =>
        obtain ⟨rfl, rfl⟩ := List.cons.inj heq
        refine hreports.reads front j back rfl ?_ f hf hreserved ?_
        · cases j with
          | field g => exact hfound
          | bitField b =>
            obtain ⟨hplace, hadvances⟩ := hfound
            obtain ⟨hfirst, hadvances⟩ := List.forall_mem_cons.mp hadvances
            exact ⟨hpasses.advances hplace hfirst, hadvances⟩
        · rw [hpasses.others f.name ?_, hnone]
          intro g hg hname
          have hmem : f ∈ (front ++ j :: back).flatMap ListItem.fields :=
            List.mem_flatMap.mpr ⟨j, by simp, hf⟩
          exact hreserved (hname ▸ hbetween g hg f hmem hname)

/-! ## 6. The items of a definition -/

/-- A definition of fixed length: the fields follow each other, a field that is no
bit value is a number of 1, 2, 3, 4 or 8 bytes or a string, and so are the bytes
of a bit field. -/
structure FixedLength (fieldList : List NamedField) : Prop where
  regular : Regular fieldList
  bitValues : ∀ f ∈ fieldList, f.isBitValue = true → f.isNumber = true
  whole : ∀ f ∈ fieldList, f.isBitValue = false → f.Whole
  supported : ∀ stretch ∈ stretches fieldList, Supported stretch
  namesApart : NamesApart fieldList

/-- No sub field of a bit field has a global enumeration. -/
def NoGlobalBits (fieldList : List NamedField) : Prop :=
  ∀ f ∈ fieldList, f.isBitValue = true → f.isEnum = true → f.globalEnum = false

instance (fieldList : List NamedField) : Decidable (NoGlobalBits fieldList) :=
  inferInstanceAs (Decidable (∀ f ∈ fieldList, _))

variable {fieldList : List NamedField} {items : List ListItem}

/-- The items of a list of fields that follow each other: each begins where the one before
it ends, since a bit field that is not the last fills its bytes. -/
theorem placed_of_made {made : List (List NamedField)} (h : List.Forall₂ ListItem.Made items made)
    (hfinalized : ∀ b, .bitField b ∈ items → b.Finalized) (hclosed : ∀ i ∈ items.dropLast, i.Closed)
    (hwhole : ∀ f, .field f ∈ items → f.Whole) (hcontiguous : ContiguousFrom (8 * start) made.flatten) :
    PlacedFrom start items ∧
      start + (items.map ListItem.byteLength).sum = (8 * start + totalBits made.flatten + 7) / 8 := by
  induction h generalizing start with
  | nil =>
    refine ⟨trivial, ?_⟩
    simp [totalBits]
    omega
  | @cons i stretch items made hmade hrest ih =>
    obtain ⟨hhere, hthere⟩ := contiguousFrom_append.mp hcontiguous
    have hfirst : i.startByte = start ∧ (items ≠ [] → totalBits stretch = 8 * i.byteLength) ∧
        i.byteLength = (totalBits stretch + 7) / 8 := by
      cases i with
      | field f =>
        obtain ⟨rfl, -⟩ := hmade
        have hf := hwhole f List.mem_cons_self
        have hoffset := hhere.1
        have hplace := hf.bitOffset
        have hbits := hf.bitLength
        rw [totalBits_singleton]
        dsimp only [ListItem.startByte, ListItem.byteLength]
        omega
      | bitField b =>
        have hlength := BitField.Made.bitLength hmade
        have hbytes := (hfinalized b List.mem_cons_self).byteLength
        refine ⟨?_, ?_, by rw [← hlength]; exact hbytes⟩
        · have hown := BitField.Made.contiguous hmade
          have hpos := BitField.Made.pos hmade
          cases stretch with
          | nil =>
            rw [hlength] at hpos
            cases hpos
          | cons f stretch =>
            have hoffset := hown.1.symm.trans hhere.1
            show b.startByte = start
            omega
        · intro hne
          have hclosed' := hclosed (.bitField b) (by
            rw [List.dropLast_cons_of_ne_nil hne]
            exact List.mem_cons_self)
          rw [← hlength]
          exact hclosed'.2.2
    obtain ⟨hstart, hbits, hbytes⟩ := hfirst
    rw [List.flatten_cons, totalBits_append, List.map_cons, List.sum_cons]
    by_cases hnil : items = []
    · subst hnil
      cases hrest
      refine ⟨⟨hstart, trivial⟩, ?_⟩
      simp only [List.map_nil, List.sum_nil, List.flatten_nil]
      simp only [totalBits, List.map_nil, List.sum_nil] at hbytes ⊢
      omega
    · have hbits := hbits hnil
      rw [hbits, ← Nat.mul_add] at hthere
      have htail := ih (fun b hb => hfinalized b (List.mem_cons_of_mem _ hb))
        (fun j hj => hclosed j (by
          rw [List.dropLast_cons_of_ne_nil hnil]
          exact List.mem_cons_of_mem _ hj))
        (fun f hf => hwhole f (List.mem_cons_of_mem _ hf)) hthere
      refine ⟨⟨hstart, htail.1⟩, ?_⟩
      have hsum := htail.2
      omega

/-- The items of a definition of fixed length, each at its byte. -/
structure Layout (fieldList : List NamedField) (items : List ListItem) : Prop where
  generated : generate fieldList = .ok items
  order : items.flatMap ListItem.fields = fieldList
  readable : ∀ i ∈ items, i.Readable
  placed : PlacedFrom 0 items
  length : (items.map ListItem.byteLength).sum = byteLength fieldList

/-- **Such a definition has its items.** -/
theorem FixedLength.layout (h : FixedLength fieldList) (hglobal : NoGlobalBits fieldList) :
    ∃ items, Layout fieldList items := by
  have hspec := generate_spec h.regular
  cases hgenerate : generate fieldList with
  | error e =>
    rw [hgenerate] at hspec
    obtain ⟨stretch, hmem, hunsupported⟩ := hspec
    exact absurd (h.supported stretch (List.mem_of_mem_dropLast hmem)) hunsupported
  | ok items =>
    rw [hgenerate] at hspec
    obtain ⟨hmade, hfinalized, hclosed⟩ := hspec
    have hflatten : (stretches fieldList).flatten = fieldList := List.flatten_splitBy _ fieldList
    have horder : items.flatMap ListItem.fields = fieldList := (flatMap_fields hmade).trans hflatten
    have hmade_of_mem : ∀ i ∈ items, ∃ stretch ∈ stretches fieldList, i.Made stretch :=
      fun i hi => exists_of_forall₂ hmade.flip hi
    have hwhole : ∀ f, .field f ∈ items → f.Whole := by
      intro f hf
      obtain ⟨stretch, -, hstretch⟩ := hmade_of_mem _ hf
      exact h.whole f (horder ▸ List.mem_flatMap.mpr ⟨_, hf, List.mem_singleton_self f⟩) hstretch.2
    have hcontiguous : ContiguousFrom (8 * 0) (stretches fieldList).flatten := by
      rw [hflatten]
      exact h.regular.contiguous
    obtain ⟨hplaced, hlength⟩ := placed_of_made hmade hfinalized hclosed hwhole hcontiguous
    refine ⟨items, hgenerate, horder, ?_, hplaced, by rw [hflatten] at hlength; unfold byteLength; omega⟩
    intro i hi
    cases i with
    | field f => exact hwhole f hi
    | bitField b =>
      obtain ⟨stretch, hmem, hstretch⟩ := hmade_of_mem _ hi
      have hb : b.Made stretch := hstretch
      have hsupported := h.supported stretch hmem hb.bitValues
      refine ⟨⟨stretch, hb, fun f hf => hglobal f ?_ (hb.bitValues f hf)⟩, hfinalized b hi, ?_⟩
      · exact hflatten ▸ List.mem_flatten.mpr ⟨stretch, hmem, hf⟩
      · rwa [(hfinalized b hi).struct, (hfinalized b hi).byteLength, hb.bitLength]

/-- **Where the decoder reads a definition of fixed length.** -/
theorem Layout.decodePgnData_reports (h : Layout fieldList items) (hnames : NamesApart fieldList)
    (hdata : data.length = byteLength fieldList) (id : Nat) (name : String) :
    ∃ out : Values F, decodePgnData id name items data = .ok ⟨id, name, out⟩ ∧
      Reports data 0 0 (fun _ => none) items out := by
  obtain ⟨out, hrun, hreports⟩ := decodeFields_reports (F := F) h.placed h.readable (by rwa [h.order])
    (by rw [Nat.zero_add, h.length, hdata]) (Nat.le_refl 0) (fun _ => none)
  refine ⟨out, ?_, hreports⟩
  rw [decodePgnData, hrun]
  rfl

end NavigationServer.Nmea2000Datamodel
