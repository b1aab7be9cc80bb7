/-
NavigationServer.CodeGeneration.RoundTripTheorems — a generated class reads what
it writes.

In the payload every item stands at its own byte (`itemBytes_at`), so the bits
that the definition gives to a field are those of its slot (`number_itemBytes`,
`bits_itemBytes`). The class reads each field from these bits; a slot with a
value that its field can hold has the same value again (`encode_decode`). The
decoder of the definitions reads the numbers that the slots have, and the texts
that fill their fields; any other text is padded with what is no text, and lost
(`decode_sent`).

A scaled number is sent as `int((value - offset) / scale)`, which need not be the
number that the value was made of: that it is, is asked of the floats and of the
value (`ScalesBack`). Exact numbers always have it (`scalesBack_exact`).

The writer is followed in `EncodeTheorems` and the readers in `DecodeTheorems` and
`DecodePgnTheorems`, both in terms of the bits that a field stands at; here the two meet.
What an item `Carries` is what both sides say of it. Definitions of variable length,
repeated sets and the hooks of the classes are left out.
-/
import NavigationServer.CodeGeneration.AgreementTheorems
import NavigationServer.CodeGeneration.PayloadTheorems

namespace NavigationServer.CodeGeneration

open NavigationServer.Lib NavigationServer.Nmea2000Datamodel
open BitFieldGenerator (NamedField)
open BitFieldGenerator renaming Item → ListItem
open PythonFloat (toFloatOps)

variable {F : Type} [PythonFloat F]

variable {slots : Slots F}

/-! ## 1. The bits of the payload -/

/-- Every item is found at its byte. -/
theorem itemBytes_at {items : List ListItem} {front : Bytes} (hplaced : PlacedFrom front.length items)
    {i : ListItem} (hi : i ∈ items) :
    ((front ++ items.flatMap (itemBytes slots)).drop i.startByte).take i.byteLength = itemBytes slots i := by
  induction items generalizing front with
  | nil => exact absurd hi List.not_mem_nil
  | cons j items ih =>
    obtain ⟨hstart, hrest⟩ := hplaced
    rw [List.flatMap_cons]
    rcases List.mem_cons.mp hi with rfl | hi
    · rw [hstart, List.drop_left, List.take_left' (length_itemBytes slots i)]
    · rw [← List.append_assoc]
      refine ih ?_ hi
      rwa [List.length_append, length_itemBytes]

/-- The slot of `pack_into` that a number has, three bytes taken as one. -/
def numberSlot (f : FieldDef) : Slot := ⟨f.byteLength, f.signed⟩

/-- **The number that was written.** -/
theorem number_itemBytes {f : NamedField} (h : f.Whole) (hnumber : f.isNumber = true) {n : Int}
    (hn : sentNumber slots f.definition = some n) (hfits : (numberSlot f.definition).Fits n) {data : Bytes}
    (hdata : f.bytes data = itemBytes slots (.field f)) : f.number data = n := by
  have hbits : f.bits data = toUnsigned f.definition.byteLength n := by
    rw [h.bits_eq, hdata, itemBytes, if_pos hnumber, hn, Option.getD_some, ofLE_toLE,
      Nat.mod_eq_of_lt (toUnsigned_lt _ _)]
  have hread := Slot.read_toUnsigned hfits
  rw [NamedField.number, hbits]
  exact hread

/-- Fields one behind the other do not meet. -/
theorem pairwise_of_contiguous {offset : Nat} {fields : List NamedField}
    (h : BitFieldGenerator.ContiguousFrom offset fields) :
    (∀ f ∈ fields, offset ≤ f.bitOffset) ∧
      fields.Pairwise (fun f g => f.bitOffset + f.bitLength ≤ g.bitOffset) := by
  induction fields generalizing offset with
  | nil => exact ⟨fun f hf => absurd hf List.not_mem_nil, .nil⟩
  | cons f fields ih =>
    obtain ⟨rfl, hrest⟩ := h
    obtain ⟨hle, hpairwise⟩ := ih hrest
    refine ⟨?_, List.pairwise_cons.mpr ⟨hle, hpairwise⟩⟩
    intro g hg
    rcases List.mem_cons.mp hg with rfl | hg
    · exact Nat.le_refl _
    · exact Nat.le_trans (Nat.le_add_right _ _) (hle g hg)

/-- The sub fields of a bit field do not overlap. -/
theorem apart_of_made {b : BitFieldGenerator.BitField} {stretch : List NamedField} (h : b.Made stretch) :
    b.fields.Pairwise (fun s t => (packedField s).Apart (packedField t)) := by
  have hpairwise := (pairwise_of_contiguous h.contiguous).2
  rw [← h.fields, List.pairwise_map] at hpairwise
  refine hpairwise.imp_of_mem fun {s t} hs ht hst => .inl ?_
  have hs := h.relOffset s hs
  have ht := h.relOffset t ht
  dsimp only [packedField]
  omega

/-- The lines of the item write and read its number: a bit field that is cut in
two opens with a key, and its keys lie in the first two bytes. -/
def Faithful : ListItem → Prop
  | .field f => Writable (.field f)
  | .bitField b => b.byteLength = 3 → 2 ≤ b.fields.length ∧
      (∀ s ∈ b.fields.head?, s.field.definition.keyword ≠ none) ∧
      ∀ s ∈ b.fields, s.field.definition.keyword ≠ none → s.relOffset + s.field.bitLength ≤ 16

instance : DecidablePred Faithful
  | .field f => inferInstanceAs (Decidable (Writable (.field f)))
  | .bitField b => inferInstanceAs (Decidable (b.byteLength = 3 → 2 ≤ b.fields.length ∧
      (∀ s ∈ b.fields.head?, s.field.definition.keyword ≠ none) ∧
      ∀ s ∈ b.fields, s.field.definition.keyword ≠ none → s.relOffset + s.field.bitLength ≤ 16))

/-- An item that is read back is one that is written as defined. -/
theorem Faithful.writable {i : ListItem} (h : Faithful i) : Writable i := by
  cases i with
  | field f => exact h
  | bitField b => exact fun hthree => (h hthree).1

/-- The low bits of a word are those of its low half. -/
theorem div_mod_low {word offset length k : Nat} (h : offset + length ≤ k) :
    word % 2 ^ k / 2 ^ offset % 2 ^ length = word / 2 ^ offset % 2 ^ length := by
  refine Nat.eq_of_testBit_eq fun i => ?_
  rw [Nat.testBit_mod_two_pow, Nat.testBit_mod_two_pow, Nat.testBit_div_two_pow, Nat.testBit_div_two_pow,
    Nat.testBit_mod_two_pow]
  by_cases hi : i < length
  · have hk : i + offset < k := by omega
    simp [hi, hk]
  · simp [hi]

/-- **The bits that were written.** -/
theorem bits_itemBytes {b : BitFieldGenerator.BitField} {stretch : List NamedField} (h : b.Made stretch)
    (hfinalized : b.Finalized) {s : BitFieldGenerator.BitFieldDef} (hs : s ∈ b.fields)
    (hinside : b.byteLength = 3 → s.relOffset + s.field.bitLength ≤ 16) {data : Bytes}
    (hdata : (data.drop b.startByte).take b.byteLength = itemBytes slots (.bitField b)) :
    s.field.bits data = fieldBits slots s.field.definition := by
  have hend := h.end_le hs
  have hlength := hfinalized.byteLength
  have hlt := wordOf_lt h hfinalized slots
  have hword : ofLE (itemBytes slots (.bitField b)) = sentWord slots b := by
    rw [itemBytes, ofLE_toLE, Nat.mod_eq_of_lt]
    unfold sentWord
    split
    · exact Nat.lt_of_le_of_lt (Nat.mod_le _ _) hlt
    · exact hlt
  have hsent : sentWord slots b / 2 ^ s.relOffset % 2 ^ s.field.bitLength
      = wordOf slots b / 2 ^ s.relOffset % 2 ^ s.field.bitLength := by
    unfold sentWord
    split
    · rename_i hthree
      exact div_mod_low (hinside hthree)
    · rfl
  have hextract := PackedField.extract_foldl packedField
    (fun s => some (fieldBits slots s.field.definition)) (apart_of_made h) hs (PackedField.extract_zero _)
  calc s.field.bits data
      = ofLE ((data.drop b.startByte).take b.byteLength) / 2 ^ s.relOffset % 2 ^ s.field.bitLength := by
        rw [BitFieldGenerator.extract_word (by omega), h.relOffset s hs]
        rfl
    _ = (packedField s).extract (wordOf slots b) := by
        rw [hdata, hword, hsent, PackedField.extract, Nat.and_two_pow_sub_one_eq_mod,
          Nat.shiftRight_eq_div_pow]
        rfl
    _ = fieldBits slots s.field.definition % 2 ^ s.field.bitLength := hextract
    _ = fieldBits slots s.field.definition := Nat.mod_eq_of_lt (fieldBits_lt slots _)

/-! ## 2. Values that come back -/

/-- `x` is the float of the number `n` with this scale and offset, and is taken back
to `n`. -/
def ScalesBack (scale offset : ℚ) (n : Int) (x : F) : Prop :=
  x = PythonFloat.add (PythonFloat.mul (toFloatOps.ofInt n) (toFloatOps.literal scale))
      (toFloatOps.literal offset) ∧
    PythonFloat.isNan x = false ∧ unscale x (some scale) offset = .ok n

/-- A value that the field can hold: all its bits, a plain text, an integer
without a scale, a NaN, or the float of a number that is not taken for one. -/
def Fitting (f : NamedField) (v : PyValue F) : Prop :=
  if f.isBitValue then ∃ n : Nat, v = .int n ∧ n < 2 ^ f.bitLength
  else if f.definition.fieldClass = .fixLengthStringField then
    ∃ s, v = .str s ∧ Plain s ∧ s.length ≤ f.definition.byteLength
  else if f.definition.pythonType = .ok .float then
    ∃ scale, f.definition.scale = some scale ∧ (v = .float PythonFloat.nan ∨
      ∃ n x, (numberSlot f.definition).Fits n ∧ n ≠ -1 ∧ n ≠ f.definition.invalidValue ∧
        v = .float x ∧ ScalesBack scale (f.definition.offset.getD 0) n x)
  else f.definition.scale = none ∧ ∃ n, v = .int n ∧ (numberSlot f.definition).Fits n

/-- The bits of a number that is not there fit. -/
theorem fits_invalidValue {f : NamedField} (h : f.Whole) :
    (numberSlot f.definition).Fits (f.definition.invalidValue : Int) := by
  have hbits : f.definition.bitLength = 8 * f.definition.byteLength := h.bitLength
  have hpow : 256 ^ f.definition.byteLength = 2 ^ f.definition.bitLength := by rw [hbits, Nat.pow_mul]
  have hpos : 0 < f.definition.byteLength := by
    rcases h.kind with ⟨-, hmem⟩ | ⟨-, hpos⟩
    · exact Nat.pos_of_ne_zero (fun hzero => by rw [hzero] at hmem; exact absurd hmem (by decide))
    · exact hpos
  have hcast : ((256 : Int) ^ f.definition.byteLength) = ((2 ^ f.definition.bitLength : Nat) : Int) := by
    rw [← hpow]
    push_cast
    rfl
  have hhalf : 2 * 2 ^ (f.definition.bitLength - 1) = 2 ^ f.definition.bitLength := by
    rw [← Nat.pow_succ', Nat.succ_eq_add_one, Nat.sub_add_cancel (by omega)]
  have hone : 0 < 2 ^ (f.definition.bitLength - 1) := Nat.two_pow_pos _
  unfold Slot.Fits numberSlot FieldDef.invalidValue
  dsimp only
  rw [hcast]
  cases f.definition.signed with
  | true =>
    rw [if_pos rfl, if_pos rfl]
    omega
  | false =>
    rw [if_neg (by decide), if_neg (by decide)]
    omega

/-- A value that scales back is sent as its number. -/
theorem ScalesBack.convertToInt {scale offset : ℚ} {n : Int} {x : F} (h : ScalesBack scale offset n x)
    (invalid : Nat) : convertToInt (.float x) invalid (some scale) offset = .ok n := by
  rw [CodeGeneration.convertToInt, h.2.1]
  exact h.2.2

/-- Exact numbers scale back. -/
theorem scalesBack_exact {scale : ℚ} (h : scale ≠ 0) (offset : ℚ) (n : Int) :
    ScalesBack (F := Option ℚ) scale offset n (some (n * scale + offset)) := by
  have hzero : (some scale : Option ℚ) ≠ some 0 := fun heq => h (Option.some.inj heq)
  have hq : (n * scale + offset - offset) / scale = (n : ℚ) := by
    rw [add_sub_cancel_right, mul_div_assoc, div_self h, mul_one]
  refine ⟨rfl, rfl, ?_⟩
  change (if (some scale : Option ℚ) = some 0 then (.error .zeroDivisionError : Except Exn (Option ℚ))
    else .ok (some ((n * scale + offset - offset) / scale))) >>= PythonFloat.trunc = .ok n
  rw [if_neg hzero, hq]
  exact congrArg Except.ok (by simp)

omit [PythonFloat F] in
/-- A slot with a number has the bits of the number. -/
theorem fieldBits_nat {f : FieldDef} {k : String} (hk : f.keyword = some k) {n : Nat}
    (hn : slots k = some (.int n)) (hlt : n < 2 ^ f.bitLength) : fieldBits slots f = n := by
  unfold fieldBits
  rw [hk]
  dsimp only
  rw [hn]
  dsimp only
  have hcast : ((2 : Int) ^ f.bitLength) = ((2 ^ f.bitLength : Nat) : Int) := by push_cast; rfl
  rw [hcast, ← Int.natCast_emod, Int.toNat_natCast, Nat.mod_eq_of_lt hlt]

/-- A scaled slot is sent through `convert_to_int`. -/
theorem sentNumber_float {f : FieldDef} {k : String} (hk : f.keyword = some k)
    (hfloat : f.pythonType = .ok .float) {v : PyValue F} (hv : slots k = some v) :
    sentNumber slots f = (convertToInt v f.invalidValue f.scale (f.offset.getD 0)).toOption := by
  simp only [sentNumber, hk, hv, Option.bind_eq_bind, Option.bind_some, hfloat, if_true]

/-- An integer slot is sent as it is. -/
theorem sentNumber_int {f : FieldDef} {k : String} (hk : f.keyword = some k)
    (hint : f.pythonType ≠ .ok .float) {n : Int} (hn : slots k = some (.int n)) :
    sentNumber slots f = some n := by
  simp only [sentNumber, hk, hn, Option.bind_eq_bind, Option.bind_some, hint, if_false]

/-- **A number comes back.** -/
theorem Fitting.number {f : NamedField} {v : PyValue F} (hfitting : Fitting f v) (h : f.Whole)
    (hnumber : f.isNumber = true) {k : String} (hk : f.definition.keyword = some k) (hv : slots k = some v) :
    ∃ n, sentNumber slots f.definition = some n ∧ (numberSlot f.definition).Fits n ∧
      slotValue f.definition n = v := by
  unfold Fitting at hfitting
  rw [if_neg (by simp [h.bitValue]), if_neg (not_string_of_isNumber hnumber)] at hfitting
  by_cases hfloat : f.definition.pythonType = .ok .float
  · rw [if_pos hfloat] at hfitting
    have hsent := sentNumber_float hk hfloat hv
    obtain ⟨scale, hscale, rfl | ⟨n, x, hfits, hminus, hinvalid, rfl, hscales⟩⟩ := hfitting
    · refine ⟨f.definition.invalidValue, ?_, fits_invalidValue h, ?_⟩
      · rw [hsent, convertToInt, if_pos PythonFloat.isNan_nan]
        rfl
      · rw [slotValue, hscale]
        exact if_pos (.inr rfl)
    · refine ⟨n, ?_, hfits, ?_⟩
      · rw [hsent, hscale, hscales.convertToInt]
        rfl
      · rw [slotValue, hscale, hscales.1]
        exact if_neg (fun hor => hor.elim hminus hinvalid)
  · rw [if_neg hfloat] at hfitting
    obtain ⟨hscale, n, rfl, hfits⟩ := hfitting
    refine ⟨n, sentNumber_int hk hfloat hv, hfits, ?_⟩
    rw [slotValue, hscale]
    exact if_neg hfloat

/-- The bytes of a plain text that fits. -/
theorem fieldBytes_plain {length : Nat} {s : String} (h : Plain s) (hfits : s.length ≤ length) :
    (bytesToInsert length s).length ≤ length ∧
      fieldBytes length s = utf8 s ++ List.replicate (length - (utf8 s).length) 0xFF := by
  have hbytes : bytesToInsert length s = utf8 s := by
    rw [bytesToInsert, utf8_eq_encode, List.take_of_length_le (by rwa [String.length_toList])]
  have hle : (utf8 s).length ≤ length := by
    rw [h.length_utf8]
    exact hfits
  refine ⟨by rwa [hbytes], ?_⟩
  rw [fieldBytes, hbytes, List.take_append, List.take_of_length_le hle, List.take_replicate,
    Nat.min_eq_left (Nat.sub_le _ _)]

/-- The slots with a key have values that their fields can hold. -/
def Holding (fields : List NamedField) (slots : Slots F) : Prop :=
  ∀ f ∈ fields, ∀ k, f.definition.keyword = some k → ∃ v, slots k = some v ∧ Fitting f v

/-- Where all slots hold fitting values, every item has what it carries. -/
theorem Holding.carries {items : List ListItem} {slots : Slots F}
    (h : Holding (items.flatMap ListItem.fields) slots) {i : ListItem} (hi : i ∈ items)
    (hreadable : i.Readable) : Carries slots i := by
  cases i with
  | bitField b =>
    obtain ⟨⟨stretch, hmade, -⟩, -, -⟩ := hreadable
    intro s hs k hk
    have hmem : s.field ∈ items.flatMap ListItem.fields :=
      List.mem_flatMap.mpr ⟨_, hi, List.mem_map_of_mem hs⟩
    obtain ⟨v, hv, hfitting⟩ := h s.field hmem k hk
    rw [Fitting, if_pos (hmade.bitValues _ (hmade.fields ▸ List.mem_map_of_mem hs))] at hfitting
    obtain ⟨n, rfl, -⟩ := hfitting
    exact ⟨n, hv⟩
  | field f =>
    have hwhole : f.Whole := hreadable
    have hmem : f ∈ items.flatMap ListItem.fields := List.mem_flatMap.mpr ⟨_, hi, List.mem_singleton_self f⟩
    rw [Carries]
    cases hnumber : f.isNumber with
    | true =>
      rw [if_pos rfl]
      cases hk : f.definition.keyword with
      | none =>
        refine ⟨f.definition.invalidValue, ?_, fits_invalidValue hwhole⟩
        rw [sentNumber, hk]
      | some k =>
        obtain ⟨v, hv, hfitting⟩ := h f hmem k hk
        obtain ⟨n, hn, hfits, -⟩ := hfitting.number hwhole hnumber hk hv
        exact ⟨n, hn, hfits⟩
    | false =>
      rw [if_neg (by decide)]
      intro k hk
      obtain ⟨v, hv, hfitting⟩ := h f hmem k hk
      have hclass : f.definition.fieldClass = .fixLengthStringField := by
        rcases hwhole.kind with ⟨hnum, -⟩ | ⟨hclass, -⟩
        · rw [hnumber] at hnum
          cases hnum
        · exact hclass
      rw [Fitting, if_neg (by simp [hwhole.bitValue]), if_pos hclass] at hfitting
      obtain ⟨s, rfl, hplain, hfits⟩ := hfitting
      exact ⟨s, hv, (fieldBytes_plain hplain hfits).1⟩

/-! ## 3. The round trip -/

/-- The bytes of a field that fills bytes, in the payload. -/
theorem bytes_payload {fieldList : List NamedField} {items : List ListItem} (h : Layout fieldList items)
    {f : NamedField} (hf : .field f ∈ items) :
    f.bytes (items.flatMap (itemBytes slots)) = itemBytes slots (.field f) :=
  itemBytes_at (show PlacedFrom ([] : Bytes).length items from h.placed) hf

/-- **What the class reads for a field** is what the slot of the field had. -/
theorem generatedValue_payload {printable : Char → Bool}
    (hprintable : ∀ c : Char, 0x20 ≤ c.toNat → c.toNat < 0x7F → printable c) {fieldList : List NamedField}
    {items : List ListItem} (h : Layout fieldList items) {i : ListItem} (hi : i ∈ items)
    (hfaithful : Faithful i) {f : NamedField} (hf : f ∈ i.fields) {k : String} (hk : f.definition.keyword = some k) {v : PyValue F}
    (hv : slots k = some v) (hfitting : Fitting f v) :
    generatedValue printable f (items.flatMap (itemBytes slots)) = v := by
  cases i with
  | bitField b =>
    obtain ⟨⟨stretch, hmade, -⟩, hfinalized, -⟩ := h.readable _ hi
    obtain ⟨s, hs, rfl⟩ := List.mem_map.mp hf
    have hbit := hmade.bitValues s.field (hmade.fields ▸ hf)
    rw [Fitting, if_pos hbit] at hfitting
    obtain ⟨n, rfl, hlt⟩ := hfitting
    have hword : ((items.flatMap (itemBytes slots)).drop b.startByte).take b.byteLength
        = itemBytes slots (.bitField b) :=
      itemBytes_at (show PlacedFrom ([] : Bytes).length items from h.placed) hi
    have hbits := bits_itemBytes hmade hfinalized hs
      (fun hthree => (hfaithful hthree).2.2 s hs (by rw [hk]; exact Option.some_ne_none k)) hword
    rw [generatedValue, if_pos hbit, ← fieldBits_nat hk hv hlt]
    exact congrArg (fun m : Nat => (PyValue.int m : PyValue F)) hbits
  | field g =>
    cases List.mem_singleton.mp hf
    have hwhole : f.Whole := h.readable _ hi
    have hbytes : f.bytes (items.flatMap (itemBytes slots)) = itemBytes slots (.field f) := bytes_payload h hi
    rw [generatedValue, if_neg (by simp [hwhole.bitValue])]
    cases hnumber : f.isNumber with
    | true =>
      obtain ⟨n, hn, hfits, hvalue⟩ := hfitting.number hwhole hnumber hk hv
      rw [if_neg (not_string_of_isNumber hnumber), number_itemBytes hwhole hnumber hn hfits hbytes]
      exact hvalue
    | false =>
      have hclass := hwhole.kind.resolve_left (fun hboth => by simp [hnumber] at hboth)
      rw [Fitting, if_neg (by simp [hwhole.bitValue]), if_pos hclass.1] at hfitting
      obtain ⟨s, rfl, hplain, hfits⟩ := hfitting
      rw [if_pos hclass.1, hbytes, itemBytes, if_neg (by simp [hnumber]), sentText_eq hk hv, Option.getD_some,
        (fieldBytes_plain hplain hfits).2, cleanString_padded hprintable hplain]

/-- A class that has no hook reads every payload. -/
theorem Faithful.ends {i : ListItem} (h : Faithful i) (hreadable : i.Readable)
    (hhooks : ∀ f ∈ i.fields, f.definition.validationHook = none) : Ends i ∧ Coded i := by
  cases i with
  | bitField b =>
    have hcoded : Coded (.bitField b) := fun hthree => (h hthree).2.1
    exact ⟨⟨fun s hs => hhooks s.field (List.mem_map_of_mem hs), hcoded⟩, hcoded⟩
  | field f =>
    refine ⟨hhooks f (List.mem_singleton_self f), ?_⟩
    intro hsigned hthree
    rcases (hreadable : f.Whole).kind with ⟨hnumber, -⟩ | ⟨hclass, -⟩
    · rw [signed_of_writable h hnumber hthree] at hsigned
      cases hsigned
    · rw [FieldDef.signed, hclass] at hsigned
      cases hsigned

/-- **A class reads what it writes.** -/
theorem encode_decode {fieldList : List NamedField} (h : FixedLength fieldList) (hkeys : KeysApart fieldList)
    (hglobal : NoGlobalBits fieldList) {items : List ListItem}
    (hgenerate : BitFieldGenerator.generate fieldList = .ok items) (hfaithful : ∀ i ∈ items, Faithful i)
    (hhooks : ∀ f ∈ fieldList, f.definition.validationHook = none) {c : GeneratedClass}
    (hclass : GeneratedFrom items c) (hreadOnly : c.readOnly = false) {printable : Char → Bool}
    (hprintable : ∀ c : Char, 0x20 ≤ c.toNat → c.toNat < 0x7F → printable c) {o : Obj F}
    (hholding : Holding fieldList o.slots) :
    ∃ payload, ∃ o' : Obj F, c.encodePayload o = .ok payload ∧
      payload.length = BitFieldGenerator.byteLength fieldList ∧
      c.decodePayload printable payload = .ok o' ∧
      ∀ f ∈ fieldList, ∀ k, f.definition.keyword = some k → o'.slots k = o.slots k := by
  obtain ⟨items', hlayout⟩ := h.layout hglobal
  cases hgenerate.symm.trans hlayout.generated
  obtain ⟨d, hmeta, hgen⟩ := hclass
  have hread : d.readOnly = false := (genClass_eq_ok hgen).2.2.1.symm.trans hreadOnly
  rw [← hlayout.order] at hholding hhooks
  have hends : ∀ i ∈ items, Ends i ∧ Coded i := fun i hi =>
    (hfaithful i hi).ends (hlayout.readable i hi) (fun f hf => hhooks f (List.mem_flatMap.mpr ⟨i, hi, hf⟩))
  have hencode := encodePayload_eq hlayout.readable (fun i hi => (hfaithful i hi).writable) hmeta hgen hread
    (fun i hi => hholding.carries hi (hlayout.readable i hi))
  have hlength : (items.flatMap (itemBytes o.slots)).length = BitFieldGenerator.byteLength fieldList := by
    rw [length_flatMap_itemBytes, hlayout.length]
  obtain ⟨o', hdecode⟩ : ∃ o' : Obj F, c.decodePayload printable (items.flatMap (itemBytes o.slots)) = .ok o' :=
    decodePayload_ok hlayout (fun i hi => (hends i hi).1) hlength hmeta hgen
  have hstores := decodePayload_stores hlayout hkeys hlength hmeta hgen hdecode
  refine ⟨_, o', hencode, hlength, hdecode, ?_⟩
  intro f hf k hk
  rw [← hlayout.order] at hf
  obtain ⟨v, hv, hfitting⟩ := hholding f hf k hk
  obtain ⟨i, hi, hfi⟩ := List.mem_flatMap.mp hf
  rw [hstores.reads i hi (hends i hi).2 f hfi k hk, hv,
    generatedValue_payload hprintable hlayout hi (hfaithful i hi) hfi hk hv hfitting]

/-- The slots of a wind of 5 m/s. -/
def windSlots : Slots (Option ℚ)
  | "sequence_id" => some (.int 5)
  | "wind_speed" => some (.float (some 5))
  | "wind_angle" => some (.float (some 2))
  | "reference" => some (.int 2)
  | _ => none

/-- The slots of the example hold fitting values. -/
theorem holding_windSlots : Holding windFields windSlots := by
  intro f hf k hk
  simp only [windFields, List.mem_cons, List.not_mem_nil, or_false] at hf
  rcases hf with rfl | rfl | rfl | rfl | rfl
  · cases hk
    refine ⟨.int 5, rfl, ?_⟩
    exact ⟨rfl, 5, rfl, by decide⟩
  · cases hk
    have hscales := scalesBack_exact (show (1 / 100 : ℚ) ≠ 0 by norm_num) 0 500
    norm_num at hscales
    exact ⟨.float (some 5), rfl, 1 / 100, rfl,
      .inr ⟨500, some 5, by decide, by decide, by decide, rfl, by norm_num; exact hscales⟩⟩
  · cases hk
    have hscales := scalesBack_exact (show (1 / 10000 : ℚ) ≠ 0 by norm_num) 0 20000
    norm_num at hscales
    exact ⟨.float (some 2), rfl, 1 / 10000, rfl,
      .inr ⟨20000, some 2, by decide, by decide, by decide, rfl, by norm_num; exact hscales⟩⟩
  · cases hk
    exact ⟨.int 2, rfl, 2, rfl, by decide⟩
  · cases hk

theorem asciiPrintable_of : ∀ c : Char, 0x20 ≤ c.toNat → c.toNat < 0x7F → asciiPrintable c :=
  fun _ hlow hhigh => decide_eq_true ⟨hlow, hhigh⟩

/-- The class of the wind. -/
theorem windClass : ∃ items c, BitFieldGenerator.generate windFields = .ok items ∧ GeneratedFrom items c ∧
    c.readOnly = false ∧ ∀ i ∈ items, Faithful i :=
  ⟨_, _, rfl, ⟨⟨130306, "Wind Data", false, 0, false, _⟩, rfl, rfl⟩, rfl, by decide +kernel⟩

theorem encode_decode_windSlots : ∃ items c payload, ∃ o' : Obj (Option ℚ),
    BitFieldGenerator.generate windFields = .ok items ∧ GeneratedFrom items c ∧
      c.encodePayload ⟨windSlots, []⟩ = .ok payload ∧ payload.length = 8 ∧
      c.decodePayload asciiPrintable payload = .ok o' ∧
      ∀ f ∈ windFields, ∀ k, f.definition.keyword = some k → o'.slots k = windSlots k := by
  obtain ⟨items, c, hgenerate, hclass, hreadOnly, hfaithful⟩ := windClass
  obtain ⟨payload, o', hencode, hlength, hdecode, hslots⟩ := encode_decode fixedLength_windFields (by decide)
    (by decide) hgenerate hfaithful (by decide) hclass hreadOnly asciiPrintable_of
    (o := ⟨windSlots, []⟩) holding_windSlots
  exact ⟨items, c, payload, o', hgenerate, hclass, hencode, hlength, hdecode, hslots⟩

/-! ## 4. The decoder of the definitions -/

/-- A text that is decoded is the one of its bytes. -/
theorem eq_utf8_of_decodeText {bytes : Bytes} {s : String} (h : decodeText bytes = some s) : bytes = utf8 s := by
  unfold decodeText String.fromUTF8? at h
  split at h
  · cases h
    rfl
  · cases h

/-- Padding is no text. -/
theorem decodeText_fieldBytes {length : Nat} {s : String} (h : Plain s) (hfits : s.length ≤ length) :
    decodeText (fieldBytes length s) = if s.length < length then none else some s := by
  rw [(fieldBytes_plain h hfits).2, h.length_utf8]
  by_cases hshort : s.length < length
  · rw [if_pos hshort]
    obtain ⟨n, hn⟩ : ∃ n, length - s.length = n + 1 := ⟨length - s.length - 1, by omega⟩
    rw [hn]
    cases htext : decodeText (utf8 s ++ List.replicate (n + 1) 0xFF) with
    | none => rfl
    | some t =>
      have heq := eq_utf8_of_decodeText htext
      have hmem : 0xFF ∈ utf8 t := by
        rw [← heq]
        exact List.mem_append_right _ (List.mem_replicate.mpr ⟨Nat.succ_ne_zero n, rfl⟩)
      rw [utf8_eq_encode] at hmem
      exact absurd hmem (allOnes_notMem_encode _)
  · have hzero : length - s.length = 0 := by omega
    rw [if_neg hshort, hzero, List.replicate_zero, List.append_nil]
    exact fromUTF8_utf8 s

/-- A number that is there can be compared. -/
theorem Fitting.comparable {f : NamedField} {v : PyValue F} (hfitting : Fitting f v) (h : f.Whole)
    (hnumber : f.isNumber = true) {k : String} (hk : f.definition.keyword = some k) (hv : slots k = some v)
    (hnan : v = .float PythonFloat.nan → f.definition.signed = false) {data : Bytes}
    (hdata : f.bytes data = itemBytes slots (.field f)) : Comparable f data := by
  obtain ⟨n, hn, hfits, hvalue⟩ := hfitting.number h hnumber hk hv
  have hread := number_itemBytes h hnumber hn hfits hdata
  unfold Fitting at hfitting
  rw [if_neg (by simp [h.bitValue]), if_neg (not_string_of_isNumber hnumber)] at hfitting
  have hfloat : f.definition.pythonType = .ok .float → f.definition.scale ≠ none := by
    intro hfloat
    rw [if_pos hfloat] at hfitting
    obtain ⟨scale, hscale, -⟩ := hfitting
    rw [hscale]
    exact Option.some_ne_none scale
  have hint : f.definition.pythonType ≠ .ok .float → f.definition.scale = none := by
    intro hint
    rw [if_neg hint] at hfitting
    exact hfitting.1
  unfold Comparable
  cases hclass : f.definition.fieldClass with
  | dblField =>
    dsimp only
    intro hscale
    rw [hread]
    obtain ⟨scale, hsome⟩ := Option.ne_none_iff_exists'.mp hscale
    by_contra hnot
    -- the class takes such a number for one that is not there
    have hmissing : n = -1 ∨ n = f.definition.invalidValue := by
      by_contra hneither
      exact hnot ⟨fun heq => hneither (.inl heq), fun heq => hneither (.inr heq)⟩
    rw [slotValue, hsome] at hvalue
    have hsigned := hnan (hvalue.symm.trans (if_pos hmissing))
    rw [FieldDef.signed, hclass] at hsigned
    cases hsigned
  | udblField => exact fun hscale => absurd hscale (hfloat (by rw [FieldDef.pythonType, hclass]))
  | uintField | instanceField | enumField | enumIntField | intField =>
    exact .inr (hint (by rw [FieldDef.pythonType, hclass]; exact fun heq => by cases heq))
  | varLengthStringField | fixLengthStringField | nameField | bytesField =>
    rw [NamedField.isNumber, hclass] at hnumber
    cases hnumber

/-- A bit value is a number that can be compared. -/
theorem comparable_bitValue {f : NamedField} (hbit : f.isBitValue = true) (hnumber : f.isNumber = true)
    (data : Bytes) : Comparable f data := by
  have hvalue : f.definition.isBitValue = true := hbit
  unfold NamedField.isNumber at hnumber
  unfold Comparable
  unfold FieldDef.isBitValue at hvalue
  cases hclass : f.definition.fieldClass with
  | uintField | instanceField | enumField | enumIntField => exact .inl hbit
  | intField | dblField | udblField =>
    rw [hclass] at hvalue
    cases hvalue
  | varLengthStringField | fixLengthStringField | nameField | bytesField =>
    rw [hclass] at hnumber
    cases hnumber

/-- **The decoder reads what a class writes**: every number that it finds is the
one of its slot, and a text is there if it fills its field. -/
theorem decode_sent {fieldList : List NamedField} (h : FixedLength fieldList) (hglobal : NoGlobalBits fieldList)
    {items : List ListItem} (hgenerate : BitFieldGenerator.generate fieldList = .ok items)
    (hfaithful : ∀ i ∈ items, Faithful i) {c : GeneratedClass} (hclass : GeneratedFrom items c)
    (hreadOnly : c.readOnly = false) {o : Obj F} (hholding : Holding fieldList o.slots) (id : Nat) (name : String) :
    ∃ payload, ∃ values : Values F, c.encodePayload o = .ok payload ∧
      decodePgnData id name items payload = .ok ⟨id, name, values⟩ ∧
      (∀ i, Finds items i → ∀ f ∈ i.fields, f.name ≠ "Reserved" → f.isNumber = true →
        ∀ k v, f.definition.keyword = some k → o.slots k = some v →
          (v = .float PythonFloat.nan → f.definition.signed = false) → Shows f (values f.name) v) ∧
      ∀ f ∈ fieldList, f.name ≠ "Reserved" → f.isNumber = false → ∀ k s, f.definition.keyword = some k →
        o.slots k = some (.str s) →
          values f.name = if s.length < f.definition.byteLength then none else some (.text (stripPadding s)) := by
  obtain ⟨items', hlayout⟩ := h.layout hglobal
  cases hgenerate.symm.trans hlayout.generated
  obtain ⟨d, hmeta, hgen⟩ := hclass
  have hread : d.readOnly = false := (genClass_eq_ok hgen).2.2.1.symm.trans hreadOnly
  have hall := hholding
  rw [← hlayout.order] at hall
  have hencode := encodePayload_eq hlayout.readable (fun i hi => (hfaithful i hi).writable) hmeta hgen hread
    (fun i hi => hall.carries hi (hlayout.readable i hi))
  have hlength : (items.flatMap (itemBytes o.slots)).length = BitFieldGenerator.byteLength fieldList := by
    rw [length_flatMap_itemBytes, hlayout.length]
  obtain ⟨values, hdecode, hreports⟩ := hlayout.decodePgnData_reports (F := F) h.namesApart hlength id
    name
  refine ⟨_, values, hencode, hdecode, ?_, ?_⟩
  · intro i hi f hf hreserved hnumber k v hk hv hnan
    have hlist : f ∈ fieldList := hlayout.order ▸ List.mem_flatMap.mpr ⟨i, hi.mem, hf⟩
    obtain ⟨_, hv', hfitting⟩ := hholding f hlist k hk
    cases hv.symm.trans hv'
    have hcomparable : Comparable f (items.flatMap (itemBytes o.slots)) := by
      cases i with
      | bitField b => exact comparable_bitValue (isBitValue_of_mem hlayout hi.mem hf) hnumber _
      | field g =>
        cases List.mem_singleton.mp hf
        exact hfitting.comparable (hlayout.readable _ hi.mem) hnumber hk hv hnan (bytes_payload hlayout hi.mem)
    have hshows := shows_reported (F := F) asciiPrintable hnumber (hi.hasCoder hlayout hf hnumber) hcomparable
    rw [hi.reported hreports hf hreserved]
    rwa [generatedValue_payload asciiPrintable_of hlayout hi.mem (hfaithful i hi.mem) hf hk hv hfitting]
      at hshows
  · intro f hf hreserved hnumber k s hk hs
    obtain ⟨hbit, hstring⟩ := string_of_isNumber h hf hnumber
    have hi := finds_string hlayout hf hbit hstring
    obtain ⟨_, hs', hfitting⟩ := hholding f hf k hk
    cases hs.symm.trans hs'
    rw [Fitting, if_neg (by simp [hbit]), if_pos hstring] at hfitting
    obtain ⟨_, heq, hplain, hfits⟩ := hfitting
    cases heq
    rw [hi.reported hreports (List.mem_singleton_self f) hreserved, NamedField.reported,
      if_neg (by simp [hbit]), if_pos hstring, bytes_payload hlayout hi.mem, itemBytes,
      if_neg (by simp [hnumber]), sentText_eq hk hs, Option.getD_some, decodeText_fieldBytes hplain hfits]
    split <;> rfl

theorem decode_sent_windSlots : ∃ items c payload, ∃ values : Values (Option ℚ),
    BitFieldGenerator.generate windFields = .ok items ∧ GeneratedFrom items c ∧
      c.encodePayload ⟨windSlots, []⟩ = .ok payload ∧
      decodePgnData 130306 "Wind Data" items payload = .ok ⟨130306, "Wind Data", values⟩ ∧
      ∀ i, Finds items i → ∀ f ∈ i.fields, f.name = "Wind Angle" → f.isNumber = true →
        f.definition.keyword = some "wind_angle" → Shows f (values f.name) (.float (some 2)) := by
  obtain ⟨items, c, hgenerate, hclass, hreadOnly, hfaithful⟩ := windClass
  obtain ⟨payload, values, hencode, hdecode, hnumbers, -⟩ := decode_sent fixedLength_windFields (by decide)
    hgenerate hfaithful hclass hreadOnly (o := ⟨windSlots, []⟩) holding_windSlots 130306 "Wind Data"
  refine ⟨items, c, payload, values, hgenerate, hclass, hencode, hdecode, ?_⟩
  intro i hi f hf hname hnumber hk
  refine hnumbers i hi f hf (by rw [hname]; decide) hnumber "wind_angle" _ hk rfl ?_
  intro hnan
  cases hnan

end NavigationServer.CodeGeneration
