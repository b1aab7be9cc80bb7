/-
NavigationServer.Nmea2000Datamodel.BitFieldGeneratorTheorems — the bit fields
partition the bit values of a list.

`partitions_iff`: for a list whose fields follow each other, and in which only
bit values begin or end within a byte, either the definition fails or every bit
value is in exactly one bit field, at its own place, and every bit field can be
decoded, exactly if one of two things is so. A stretch of bit values that another
field follows has a number of bytes that `struct` has no format for, and the
definition fails; or every stretch has a format and no bit value has a global
enumeration. The last stretch is different from the others because its error is
caught: it stays in the list and has no `struct`.

A `stretch` is what lies between two fields that begin at a byte. The invariant
is `GeneratorInv`: the items so far stand for the stretches so far, and the bit
field in creation for the last of them.
-/
import Mathlib.Data.List.SplitBy
import NavigationServer.Lib.BitFields
import NavigationServer.Nmea2000Datamodel.BitFieldGenerator

namespace NavigationServer.Nmea2000Datamodel.BitFieldGenerator

open NavigationServer.Lib

/-! ## 1. Lists of fields -/

/-- Each field begins where the one before it ends, the first one at `offset`. -/
def ContiguousFrom : Nat → List NamedField → Prop
  | _, [] => True
  | offset, f :: fields => f.bitOffset = offset ∧ ContiguousFrom (offset + f.bitLength) fields

def totalBits (fields : List NamedField) : Nat := (fields.map NamedField.bitLength).sum

/-- The fields follow each other from bit 0 on, and those that are no bit values
begin and end at a byte. -/
structure Regular (fieldList : List NamedField) : Prop where
  contiguous : ContiguousFrom 0 fieldList
  aligned : ∀ f ∈ fieldList, f.isBitValue = false → f.bitOffset % 8 = 0 ∧ f.bitLength % 8 = 0

def NamedField.startsByte (f : NamedField) : Bool := f.bitOffset % 8 = 0

/-- The list, cut before every field that begins at a byte. -/
def stretches (fieldList : List NamedField) : List (List NamedField) :=
  fieldList.splitBy (fun _ f => !f.startsByte)

/-- The bytes of a stretch, the last one perhaps not to its end. -/
def byteLength (stretch : List NamedField) : Nat := (totalBits stretch + 7) / 8

/-- A stretch of bit values has a format. -/
def Supported (stretch : List NamedField) : Prop :=
  (∀ f ∈ stretch, f.isBitValue = true) → (structFormat (byteLength stretch)).isSome = true

instance (stretch : List NamedField) : Decidable (Supported stretch) :=
  inferInstanceAs (Decidable (_ → _))

theorem totalBits_append (fields more : List NamedField) :
    totalBits (fields ++ more) = totalBits fields + totalBits more := by
  rw [totalBits, List.map_append, List.sum_append]
  rfl

theorem totalBits_singleton (f : NamedField) : totalBits [f] = f.bitLength := by
  simp [totalBits]

theorem contiguousFrom_append {offset : Nat} {fields more : List NamedField} :
    ContiguousFrom offset (fields ++ more) ↔
      ContiguousFrom offset fields ∧ ContiguousFrom (offset + totalBits fields) more := by
  induction fields generalizing offset with
  | nil => simp [ContiguousFrom, totalBits]
  | cons f fields ih =>
    have htotal : totalBits (f :: fields) = f.bitLength + totalBits fields := by simp [totalBits]
    rw [List.cons_append, ContiguousFrom, ContiguousFrom, ih, htotal, Nat.add_assoc, and_assoc]

/-- A field at the beginning of a byte opens a stretch. -/
theorem stretches_append_cons (fields more : List NamedField) {f : NamedField}
    (h : f.startsByte = true) :
    stretches (fields ++ f :: more) = stretches fields ++ stretches (f :: more) := by
  refine List.splitBy_append_cons more ?_
  intro g _
  rw [h]
  rfl

theorem stretches_singleton (f : NamedField) : stretches [f] = [[f]] := rfl

/-- Any other field goes into the last one. -/
theorem stretches_extend {fields : List NamedField} {front : List (List NamedField)}
    {last : List NamedField} (h : stretches fields = front ++ [last]) {f : NamedField}
    (hf : f.startsByte = false) : stretches (fields ++ [f]) = front ++ [last ++ [f]] := by
  obtain ⟨hflatten, hne, hchains, hcuts⟩ := List.splitBy_eq_iff.mp h
  have hlast : last ≠ [] := fun hnil => hne (by simp [hnil])
  refine List.splitBy_eq_iff.mpr ⟨?_, ?_, ?_, ?_⟩
  · simp [hflatten]
  · intro hmem
    rcases List.mem_append.mp hmem with hmem | hmem
    · exact hne (List.mem_append_left _ hmem)
    · simp at hmem
  · intro stretch hmem
    rcases List.mem_append.mp hmem with hmem | hmem
    · exact hchains stretch (List.mem_append_left _ hmem)
    · rw [List.mem_singleton.mp hmem]
      refine List.isChain_append.mpr ⟨hchains last (by simp), List.isChain_singleton f, ?_⟩
      intro g _ f' hf'
      cases hf'
      simp [hf]
  · rw [List.isChain_append] at hcuts ⊢
    refine ⟨hcuts.1, List.isChain_singleton _, ?_⟩
    intro stretch hstretch extended hextended
    cases hextended
    obtain ⟨ha, hb, hcut⟩ := hcuts.2.2 stretch hstretch last rfl
    exact ⟨ha, by simp, by rwa [List.head_append_of_ne_nil hb]⟩

/-! ## 2. Bit fields -/

/-- A bit field for a stretch of bit values, each at its own place. -/
structure BitField.Made (b : BitField) (stretch : List NamedField) : Prop where
  fields : b.fields.map BitFieldDef.field = stretch
  bitValues : ∀ f ∈ stretch, f.isBitValue = true
  contiguous : ContiguousFrom (8 * b.startByte) stretch
  relOffset : ∀ s ∈ b.fields, 8 * b.startByte + s.relOffset = s.field.bitOffset
  bitLength : b.bitLength = totalBits stretch
  currentOffset : b.currentOffset = b.bitLength
  pos : 0 < b.bitLength

/-- `finalize` has been called. There is no `struct` where it raised. -/
structure BitField.Finalized (b : BitField) : Prop where
  byteLength : b.byteLength = (b.bitLength + 7) / 8
  struct : b.struct = structFormat b.byteLength

namespace BitField

variable {b : BitField} {f : NamedField} {stretch : List NamedField}

theorem Made.append (h : b.Made stretch) (hbit : f.isBitValue = true)
    (hoffset : f.bitOffset = 8 * b.startByte + b.bitLength) : (b.append f).Made (stretch ++ [f]) := by
  unfold BitField.append
  rw [if_pos (by rw [h.currentOffset, hoffset])]
  refine ⟨?_, ?_, ?_, ?_, ?_, ?_, ?_⟩
  · simp [h.fields]
  · intro g hg
    rcases List.mem_append.mp hg with hg | hg
    · exact h.bitValues g hg
    · rwa [List.mem_singleton.mp hg]
  · exact contiguousFrom_append.mpr ⟨h.contiguous, by rw [← h.bitLength]; exact hoffset, trivial⟩
  · intro s hs
    rcases List.mem_append.mp hs with hs | hs
    · exact h.relOffset s hs
    · rw [List.mem_singleton.mp hs]
      dsimp only
      omega
  · rw [totalBits_append, totalBits_singleton, ← h.bitLength]
  · dsimp only
    rw [h.currentOffset]
  · exact Nat.add_pos_left h.pos _

theorem startByte_append (b : BitField) (f : NamedField) : (b.append f).startByte = b.startByte := by
  unfold BitField.append
  split <;> rfl

theorem struct_append (b : BitField) (f : NamedField) : (b.append f).struct = b.struct := by
  unfold BitField.append
  split <;> rfl

/-- A bit value at the beginning of a byte does not end at one. -/
theorem bitLength_of_startsByte (hbit : f.isBitValue = true) (hstart : f.startsByte = true) :
    f.bitLength % 8 ≠ 0 := by
  have hstart' : f.definition.bitOffset % 8 = 0 := of_decide_eq_true hstart
  unfold NamedField.isBitValue FieldDef.isBitValue at hbit
  split at hbit
  all_goals first
    | cases hbit
    | exact (of_decide_eq_true hbit).resolve_left (by omega)

theorem made_init (hbit : f.isBitValue = true) (hstart : f.startsByte = true) (no : Nat) :
    (init f no).Made [f] := by
  have hstart' : f.bitOffset % 8 = 0 := of_decide_eq_true hstart
  have hpos := bitLength_of_startsByte hbit hstart
  have hoffset : 8 * f.definition.startByte + 0 = f.bitOffset := by
    show 8 * (f.bitOffset / 8) + 0 = f.bitOffset
    omega
  unfold init BitField.append
  rw [if_pos hoffset]
  refine ⟨rfl, ?_, ?_, ?_, ?_, rfl, ?_⟩
  · intro g hg
    rwa [List.mem_singleton.mp hg]
  · exact ⟨hoffset.symm, trivial⟩
  · intro s hs
    rw [List.mem_singleton.mp hs]
    dsimp only
    omega
  · rw [totalBits_singleton]
    exact Nat.zero_add _
  · dsimp only
    omega

theorem finalized_finalize (hstruct : b.struct = none) : b.finalize.1.Finalized := by
  unfold finalize
  dsimp only
  split
  · rename_i hformat
    exact ⟨rfl, by rw [hstruct, hformat]⟩
  · rename_i hformat
    exact ⟨rfl, hformat.symm⟩

theorem Made.finalize (h : b.Made stretch) : b.finalize.1.Made stretch := by
  unfold BitField.finalize
  dsimp only
  split <;> exact ⟨h.fields, h.bitValues, h.contiguous, h.relOffset, h.bitLength, h.currentOffset, h.pos⟩

/-- The call ends well exactly if the stretch has a format. -/
theorem Made.finalize_ok (h : b.Made stretch) :
    b.finalize.2 = if (structFormat (BitFieldGenerator.byteLength stretch)).isSome then .ok ()
      else .error .valueError := by
  unfold BitField.finalize BitFieldGenerator.byteLength
  rw [h.bitLength]
  dsimp only
  split <;> rename_i hformat <;> simp [hformat]

end BitField

/-! ## 3. One field -/

def Item.Made : Item → List NamedField → Prop
  | .field f, stretch => stretch = [f] ∧ f.isBitValue = false
  | .bitField b, stretch => b.Made stretch

/-- An item that another one follows. -/
def Item.Closed : Item → Prop
  | .field _ => True
  | .bitField b => b.Finalized ∧ b.struct.isSome = true ∧ b.bitLength = 8 * b.byteLength

/-- The items stand for the stretches of the fields so far, and the bit field in
creation for the last of them. -/
structure GeneratorInv (done : List NamedField) (front : List (List NamedField)) (g : Generator) :
    Prop where
  made : List.Forall₂ Item.Made g.fieldList front
  closed : ∀ i ∈ g.fieldList, i.Closed
  last : match g.bitfieldInCreate with
    | none => stretches done = front ∧ totalBits done % 8 = 0
    | some b => ∃ stretch, stretches done = front ++ [stretch] ∧ b.Made stretch ∧ b.struct = none ∧
        8 * b.startByte + b.bitLength = totalBits done

namespace GeneratorInv

variable {done : List NamedField} {front : List (List NamedField)} {g : Generator}

/-- At the end of a byte the list is closed, or the last stretch has no format. -/
theorem close (h : GeneratorInv done front g) (hend : totalBits done % 8 = 0) :
    match g.close with
    | .ok fieldList => List.Forall₂ Item.Made fieldList (stretches done) ∧ ∀ i ∈ fieldList, i.Closed
    | .error _ => ∃ stretch ∈ stretches done, ¬ Supported stretch := by
  have hlast := h.last
  unfold Generator.close
  cases hcreate : g.bitfieldInCreate with
  | none =>
    rw [hcreate] at hlast
    dsimp only at hlast ⊢
    rw [hlast.1]
    exact ⟨h.made, h.closed⟩
  | some b =>
    rw [hcreate] at hlast
    obtain ⟨stretch, hstretches, hmade, hstruct, htotal⟩ := hlast
    have hfinalized := BitField.finalized_finalize hstruct
    have hok := hmade.finalize_ok
    dsimp only
    rw [hstretches, hok]
    by_cases hformat : (structFormat (byteLength stretch)).isSome = true
    · rw [if_pos hformat]
      refine ⟨List.rel_append h.made (.cons hmade.finalize .nil), ?_⟩
      intro i hi
      rcases List.mem_append.mp hi with hi | hi
      · exact h.closed i hi
      · rw [List.mem_singleton.mp hi]
        have hlength : b.finalize.1.bitLength = b.bitLength := by
          rw [hmade.finalize.bitLength, hmade.bitLength]
        have hbytes : b.finalize.1.byteLength = byteLength stretch := by
          rw [hfinalized.byteLength, hmade.finalize.bitLength, byteLength]
        refine ⟨hfinalized, ?_, ?_⟩
        · rw [hfinalized.struct, hbytes]
          exact hformat
        · rw [hbytes, hlength, byteLength, ← hmade.bitLength]
          omega
    · rw [if_neg hformat]
      exact ⟨stretch, by simp, fun hsupported => hformat (hsupported hmade.bitValues)⟩

/-- A bit value that opens a bit field. -/
theorem newBitField {fieldList : List Item} {f : NamedField}
    (hmade : List.Forall₂ Item.Made fieldList (stretches done)) (hclosed : ∀ i ∈ fieldList, i.Closed)
    (hbit : f.isBitValue = true) (hstart : f.startsByte = true) (hoffset : f.bitOffset = totalBits done) :
    GeneratorInv (done ++ [f]) (stretches done) (g.newBitField fieldList f) where
  made := hmade
  closed := hclosed
  last := by
    have hinit := BitField.made_init hbit hstart g.bitfieldNo
    refine ⟨[f], ?_, hinit, BitField.struct_append _ f, ?_⟩
    · rw [stretches_append_cons done [] hstart, stretches_singleton]
    · rw [hinit.bitLength, ← hinit.contiguous.1, hoffset, totalBits_append]

/-- A field that is no bit value. -/
theorem addField {fieldList : List Item} {f : NamedField}
    (hmade : List.Forall₂ Item.Made fieldList (stretches done)) (hclosed : ∀ i ∈ fieldList, i.Closed)
    (hbit : f.isBitValue = false) (hstart : f.startsByte = true) (hoffset : f.bitOffset = totalBits done)
    (hlength : f.bitLength % 8 = 0) :
    GeneratorInv (done ++ [f]) (stretches done ++ [[f]])
      { g with fieldList := fieldList ++ [.field f], bitfieldInCreate := none } where
  made := List.rel_append hmade (.cons ⟨rfl, hbit⟩ .nil)
  closed := by
    intro i hi
    rcases List.mem_append.mp hi with hi | hi
    · exact hclosed i hi
    · rw [List.mem_singleton.mp hi]
      trivial
  last := by
    have hstart' : f.bitOffset % 8 = 0 := of_decide_eq_true hstart
    refine ⟨by rw [stretches_append_cons done [] hstart, stretches_singleton], ?_⟩
    rw [totalBits_append, totalBits_singleton]
    omega

/-- A bit value that goes into the bit field in creation. -/
theorem append (h : GeneratorInv done front g) {b : BitField} {f : NamedField}
    (hcreate : g.bitfieldInCreate = some b) (hsplit : ¬ b.bitLength % 8 = 0) (hbit : f.isBitValue = true)
    (hoffset : f.bitOffset = totalBits done) :
    GeneratorInv (done ++ [f]) front { g with bitfieldInCreate := some (b.append f) } where
  made := h.made
  closed := h.closed
  last := by
    have hlast := h.last
    rw [hcreate] at hlast
    obtain ⟨stretch, hstretches, hmade, hstruct, htotal⟩ := hlast
    have hstart : f.startsByte = false := decide_eq_false (by omega)
    have hmade' := hmade.append hbit (by rw [hoffset, htotal])
    refine ⟨stretch ++ [f], stretches_extend hstretches hstart, hmade', ?_, ?_⟩
    · rw [BitField.struct_append, hstruct]
    · rw [hmade'.bitLength, BitField.startByte_append, totalBits_append, totalBits_append,
        ← hmade.bitLength, ← Nat.add_assoc, htotal]

/-- One field of the list. -/
theorem checkBfAddField (h : GeneratorInv done front g) {f : NamedField}
    (hoffset : f.bitOffset = totalBits done)
    (haligned : f.isBitValue = false → f.bitOffset % 8 = 0 ∧ f.bitLength % 8 = 0) :
    match g.checkBfAddField f with
    | .ok g' => ∃ front', GeneratorInv (done ++ [f]) front' g'
    | .error _ => f.startsByte = true ∧ ∃ stretch ∈ stretches done, ¬ Supported stretch := by
  unfold Generator.checkBfAddField
  cases hbit : f.isBitValue with
  | false =>
    obtain ⟨hstart, hlength⟩ := haligned hbit
    have hclose := h.close (by rw [← hoffset]; exact hstart)
    rw [if_neg (by decide)]
    cases hresult : g.close with
    | ok fieldList =>
      rw [hresult] at hclose
      exact ⟨_, addField hclose.1 hclose.2 hbit (decide_eq_true hstart) hoffset hlength⟩
    | error e =>
      rw [hresult] at hclose
      exact ⟨decide_eq_true hstart, hclose⟩
  | true =>
    rw [if_pos rfl]
    -- where no bit field takes the value, the list is at the end of a byte
    have hopen (hend : totalBits done % 8 = 0) :
        match (do return g.newBitField (← g.close) f : Except Exn Generator) with
        | .ok g' => ∃ front', GeneratorInv (done ++ [f]) front' g'
        | .error _ => f.startsByte = true ∧ ∃ stretch ∈ stretches done, ¬ Supported stretch := by
      have hclose := h.close hend
      have hstart : f.startsByte = true := decide_eq_true (by rw [hoffset]; exact hend)
      cases hresult : g.close with
      | ok fieldList =>
        rw [hresult] at hclose
        exact ⟨_, newBitField hclose.1 hclose.2 hbit hstart hoffset⟩
      | error e =>
        rw [hresult] at hclose
        exact ⟨hstart, hclose⟩
    have hlast := h.last
    cases hcreate : g.bitfieldInCreate with
    | none =>
      rw [hcreate] at hlast
      exact hopen hlast.2
    | some b =>
      rw [hcreate] at hlast
      obtain ⟨stretch, hstretches, hmade, hstruct, htotal⟩ := hlast
      rw [Option.bind_some, BitField.addField]
      by_cases hsplit : b.bitLength % 8 = 0
      · rw [if_pos ⟨hmade.pos, hsplit⟩]
        exact hopen (by omega)
      · rw [if_neg (fun hboth => hsplit hboth.2)]
        exact ⟨front, h.append hcreate hsplit hbit hoffset⟩

/-- A list of fields. The stretch that has no format is not the last one. -/
theorem foldlM (h : GeneratorInv done front g) {fieldList : List NamedField}
    (hcontiguous : ContiguousFrom (totalBits done) fieldList)
    (haligned : ∀ f ∈ fieldList, f.isBitValue = false → f.bitOffset % 8 = 0 ∧ f.bitLength % 8 = 0) :
    match fieldList.foldlM Generator.checkBfAddField g with
    | .ok g' => ∃ front', GeneratorInv (done ++ fieldList) front' g'
    | .error _ => ∃ stretch ∈ (stretches (done ++ fieldList)).dropLast, ¬ Supported stretch := by
  induction fieldList generalizing done front g with
  | nil =>
    rw [List.append_nil]
    exact ⟨front, h⟩
  | cons f fieldList ih =>
    have hfield := h.checkBfAddField hcontiguous.1 (haligned f List.mem_cons_self)
    rw [List.foldlM_cons]
    cases hresult : g.checkBfAddField f with
    | ok g' =>
      rw [hresult] at hfield
      obtain ⟨front', hinv⟩ := hfield
      have hrest := ih hinv (by rw [totalBits_append, totalBits_singleton]; exact hcontiguous.2)
        (fun f' hf' => haligned f' (List.mem_cons_of_mem f hf'))
      rw [List.append_assoc, List.singleton_append] at hrest
      exact hrest
    | error e =>
      rw [hresult] at hfield
      obtain ⟨hstart, stretch, hmem, hunsupported⟩ := hfield
      refine ⟨stretch, ?_, hunsupported⟩
      rw [stretches_append_cons done fieldList hstart, List.dropLast_append_of_ne_nil]
      · exact List.mem_append_left _ hmem
      · exact List.splitBy_ne_nil.mpr (List.cons_ne_nil f fieldList)

theorem init : GeneratorInv [] [] ⟨[], none, 1⟩ where
  made := .nil
  closed := by simp
  last := ⟨rfl, rfl⟩

end GeneratorInv

/-! ## 4. Decoding -/

/-- The bits of a payload that the definition gives to a field. -/
def NamedField.bits (f : NamedField) (data : Bytes) : Nat :=
  (⟨f.bitLength, f.bitOffset⟩ : PackedField).extract (ofLE data)

/-- A number as the field shows it, with the name that its own enumeration has
for it. -/
def NamedField.valueOf (f : NamedField) (n : Nat) : FieldValue :=
  if f.isEnum then
    match f.valuePair.lookup n with
    | some name => .name name
    | none => .number n
  else .number n

/-- The fields, with the bits of each sub field under its name. -/
def BitField.decoded (b : BitField) (data : Bytes) (fields : Fields) : Fields :=
  b.fields.foldl (fun fields s =>
    Function.update fields s.field.name (some (s.field.valueOf (s.field.bits data)))) fields

/-- The word of a bit field is the number that its bytes hold. -/
theorem process_unpack {n : Nat} {format : List Slot} (h : structFormat n = some format) {data : Bytes}
    (hdata : data.length = n) :
    ∃ v, unpack format data = some v ∧ process n v = .ok ((ofLE data : Nat) : Int) := by
  unfold structFormat at h
  split at h
  case h_3 =>
    cases h
    have hsplit := ofLE_append (data.take 2) (data.drop 2)
    rw [List.take_append_drop, List.length_take_of_le (by omega)] at hsplit
    refine ⟨_, if_pos hdata, ?_⟩
    have htake : (data.drop 2).take 1 = data.drop 2 := List.take_of_length_le (by simp [hdata])
    simp only [readSlots, Slot.read, process, if_true, htake, hsplit]
    exact congrArg Except.ok (by push_cast; ring)
  case h_6 => cases h
  all_goals
    cases h
    refine ⟨_, if_pos hdata, ?_⟩
    have htake : data.take _ = data := List.take_of_length_le (Nat.le_of_eq hdata)
    simp [readSlots, Slot.read, process, item, htake]

/-- The bits of a word are those of the payload around it. -/
theorem extract_word {data : Bytes} {startByte n offset length : Nat} (h : offset + length ≤ 8 * n) :
    ofLE ((data.drop startByte).take n) / 2 ^ offset % 2 ^ length
      = (⟨length, 8 * startByte + offset⟩ : PackedField).extract (ofLE data) := by
  have hpow (k : Nat) : 256 ^ k = 2 ^ (8 * k) := by rw [Nat.pow_mul]
  rw [ofLE_take, ofLE_drop, hpow, hpow]
  refine Nat.eq_of_testBit_eq fun i => ?_
  rw [PackedField.testBit_extract, Nat.testBit_mod_two_pow, Nat.testBit_div_two_pow,
    Nat.testBit_mod_two_pow, Nat.testBit_div_two_pow]
  by_cases hi : i < length
  · have hin : i + offset < 8 * n := by omega
    have hindex : 8 * startByte + offset + i = i + offset + 8 * startByte := by omega
    simp [hi, hin, hindex]
  · simp [hi]

/-- A sub field without a global enumeration has a value. -/
theorem BitFieldDef.getValue_eq {s : BitFieldDef} (h : s.field.isEnum = true → s.field.globalEnum = false)
    (word : Nat) :
    s.getValue (word : Int)
      = .ok (s.field.valueOf (word / 2 ^ s.relOffset % 2 ^ s.field.bitLength)) := by
  have hvalue : ((word : Int) / 2 ^ s.relOffset % 2 ^ s.field.bitLength).toNat
      = word / 2 ^ s.relOffset % 2 ^ s.field.bitLength := by
    exact_mod_cast Int.toNat_natCast _
  unfold BitFieldDef.getValue NamedField.valueOf
  dsimp only
  rw [hvalue]
  cases henum : s.field.isEnum with
  | false => rfl
  | true =>
    unfold NamedField.getName
    rw [h henum]
    cases s.field.valuePair.lookup (word / 2 ^ s.relOffset % 2 ^ s.field.bitLength) <;> rfl

/-- One with a global enumeration has none. -/
theorem BitFieldDef.getValue_globalEnum {s : BitFieldDef} (henum : s.field.isEnum = true)
    (hglobal : s.field.globalEnum = true) (word : Int) : s.getValue word = .error .typeError := by
  unfold BitFieldDef.getValue NamedField.getName
  rw [henum, hglobal]
  rfl

namespace BitField

variable {b : BitField} {stretch : List NamedField}

/-- A sub field lies behind those in front of it. -/
theorem Made.relOffset_eq (h : b.Made stretch) {front back : List BitFieldDef} {s : BitFieldDef}
    (hfields : b.fields = front ++ s :: back) : s.relOffset = totalBits (front.map BitFieldDef.field) := by
  have hcontiguous := h.contiguous
  rw [← h.fields, hfields, List.map_append, List.map_cons, contiguousFrom_append] at hcontiguous
  have hoffset := h.relOffset s (by simp [hfields])
  have hhere := hcontiguous.2.1
  omega

theorem Made.end_le (h : b.Made stretch) {s : BitFieldDef} (hs : s ∈ b.fields) :
    s.relOffset + s.field.bitLength ≤ b.bitLength := by
  obtain ⟨front, back, hfields⟩ := List.append_of_mem hs
  have htotal : totalBits (s.field :: back.map BitFieldDef.field)
      = s.field.bitLength + totalBits (back.map BitFieldDef.field) := by simp [totalBits]
  rw [h.bitLength, ← h.fields, h.relOffset_eq hfields, hfields, List.map_append, List.map_cons,
    totalBits_append, htotal]
  omega

theorem foldlM_update {l : List BitFieldDef} {getValue : BitFieldDef → Except Exn FieldValue}
    {value : BitFieldDef → FieldValue} (h : ∀ s ∈ l, getValue s = .ok (value s)) (fields : Fields) :
    l.foldlM (fun (fields : Fields) s => do
        return Function.update fields s.field.name (some (← getValue s))) fields
      = .ok (l.foldl (fun fields s => Function.update fields s.field.name (some (value s))) fields) := by
  induction l generalizing fields with
  | nil => rfl
  | cons s l ih =>
    rw [List.foldlM_cons, h s List.mem_cons_self]
    exact ih (fun s' hs' => h s' (List.mem_cons_of_mem s hs')) _

theorem exists_of_foldlM_update {l : List BitFieldDef} {getValue : BitFieldDef → Except Exn FieldValue}
    {fields result : Fields}
    (h : l.foldlM (fun (fields : Fields) s => do
        return Function.update fields s.field.name (some (← getValue s))) fields = .ok result) :
    ∀ s ∈ l, ∃ v, getValue s = .ok v := by
  induction l generalizing fields with
  | nil => simp
  | cons s l ih =>
    rw [List.foldlM_cons] at h
    obtain ⟨next, hnext, hrest⟩ := bind_eq_ok.mp h
    obtain ⟨v, hv, -⟩ := bind_eq_ok.mp hnext
    exact List.forall_mem_cons.mpr ⟨⟨v, hv⟩, ih hrest⟩

/-- A bit field with a `struct` takes its sub fields out of the word at the index. -/
theorem Made.decode_word (h : b.Made stretch) (hfinalized : b.Finalized) (hstruct : b.struct.isSome = true)
    (hglobal : ∀ f ∈ stretch, f.isEnum = true → f.globalEnum = false) {data : Bytes} {index : Nat}
    (hdata : index + b.byteLength ≤ data.length) (fields : Fields) :
    b.decode data index fields = .ok (b.fields.foldl (fun fields s =>
      Function.update fields s.field.name (some (s.field.valueOf
        (ofLE ((data.drop index).take b.byteLength) / 2 ^ s.relOffset % 2 ^ s.field.bitLength)))) fields) := by
  obtain ⟨format, hformat⟩ := Option.isSome_iff_exists.mp hstruct
  have hlength : ((data.drop index).take b.byteLength).length = b.byteLength := by
    rw [List.length_take, List.length_drop]
    omega
  obtain ⟨v, hunpack, hprocess⟩ := process_unpack (hfinalized.struct.symm.trans hformat) hlength
  unfold decode
  rw [hformat]
  dsimp only
  rw [slice_natCast, Nat.add_sub_cancel_left, hunpack]
  dsimp only
  rw [hprocess]
  refine foldlM_update ?_ fields
  intro s hs
  have hmem : s.field ∈ stretch := h.fields ▸ List.mem_map_of_mem hs
  exact BitFieldDef.getValue_eq (hglobal s.field hmem) _

/-- At its own byte these are the bits of each sub field. -/
theorem Made.decode_eq (h : b.Made stretch) (hfinalized : b.Finalized) (hstruct : b.struct.isSome = true)
    (hglobal : ∀ f ∈ stretch, f.isEnum = true → f.globalEnum = false) {data : Bytes}
    (hdata : b.startByte + b.byteLength ≤ data.length) (fields : Fields) :
    b.decode data b.startByte fields = .ok (b.decoded data fields) := by
  rw [h.decode_word hfinalized hstruct hglobal hdata, decoded]
  refine congrArg Except.ok (List.foldl_ext _ _ _ ?_)
  intro fields s hs
  have hend := h.end_le hs
  rw [extract_word (by rw [hfinalized.byteLength]; omega), h.relOffset s hs]
  rfl

/-- A bit field that can be decoded has a `struct`, and a value for each sub
field. -/
theorem of_decode_ok {data : Bytes} {index : Nat} {fields result : Fields}
    (h : b.decode data index fields = .ok result) :
    b.struct.isSome = true ∧ ∀ s ∈ b.fields, ∃ word v, s.getValue word = .ok v := by
  unfold decode at h
  split at h
  · cases h
  · rename_i format hformat
    refine ⟨by rw [hformat]; rfl, ?_⟩
    split at h
    · cases h
    · obtain ⟨word, -, hfold⟩ := bind_eq_ok.mp h
      intro s hs
      obtain ⟨v, hv⟩ := exists_of_foldlM_update hfold s hs
      exact ⟨word, v, hv⟩

end BitField

/-! ## 5. The whole list -/

/-- The fields of the definition in an item. -/
def Item.fields : Item → List NamedField
  | .field f => [f]
  | .bitField b => b.fields.map BitFieldDef.field

/-- What is claimed of a bit field. -/
structure BitField.Reads (b : BitField) : Prop where
  ne : b.fields ≠ []
  bitValues : ∀ s ∈ b.fields, s.field.isBitValue = true
  relOffset : ∀ s ∈ b.fields, 8 * b.startByte + s.relOffset = s.field.bitOffset
  contiguous : ∀ front s back, b.fields = front ++ s :: back →
    s.relOffset = totalBits (front.map BitFieldDef.field)
  bytes : b.byteLength = BitFieldGenerator.byteLength (b.fields.map BitFieldDef.field)
  decode : ∀ data fields, b.startByte + b.byteLength ≤ data.length →
    b.decode data b.startByte fields = .ok (b.decoded data fields)

/-- What is claimed of a list: its fields are in the items in their order, the
bit values in bit fields and the others by themselves. Only the last item may
end within a byte. -/
structure Partitions (fieldList : List NamedField) (items : List Item) : Prop where
  order : items.flatMap Item.fields = fieldList
  fields : ∀ f, .field f ∈ items → f.isBitValue = false
  bitFields : ∀ b, .bitField b ∈ items → b.Reads
  wholeBytes : ∀ b, .bitField b ∈ items.dropLast →
    totalBits (b.fields.map BitFieldDef.field) = 8 * b.byteLength

/-- The definition fails at a stretch that has no format and is not the last
one, or all stretches have one and every name is looked up in the field. -/
def Groupable (fieldList : List NamedField) : Prop :=
  (∃ stretch ∈ (stretches fieldList).dropLast, ¬ Supported stretch) ∨
    (∀ stretch ∈ stretches fieldList, Supported stretch) ∧
      ∀ f ∈ fieldList, f.isBitValue = true → f.isEnum = true → f.globalEnum = false

variable {fieldList : List NamedField} {items : List Item}

/-- What the generator makes of a list. -/
theorem generate_spec (h : Regular fieldList) :
    match generate fieldList with
    | .ok items => List.Forall₂ Item.Made items (stretches fieldList) ∧
        (∀ b, .bitField b ∈ items → b.Finalized) ∧ ∀ i ∈ items.dropLast, i.Closed
    | .error _ => ∃ stretch ∈ (stretches fieldList).dropLast, ¬ Supported stretch := by
  have hrun := GeneratorInv.init.foldlM (by simpa [totalBits] using h.contiguous) h.aligned
  rw [List.nil_append] at hrun
  unfold generate
  cases hresult : fieldList.foldlM Generator.checkBfAddField ⟨[], none, 1⟩ with
  | error e =>
    rw [hresult] at hrun
    exact hrun
  | ok g =>
    rw [hresult] at hrun
    obtain ⟨front, hinv⟩ := hrun
    have hlast := hinv.last
    have hfinalized : ∀ b, .bitField b ∈ g.fieldList → b.Finalized :=
      fun b hb => (hinv.closed _ hb).1
    show List.Forall₂ Item.Made g.checkAndFinalize _ ∧ (∀ b, .bitField b ∈ g.checkAndFinalize → _) ∧
      ∀ i ∈ g.checkAndFinalize.dropLast, _
    unfold Generator.checkAndFinalize Generator.items
    cases hcreate : g.bitfieldInCreate with
    | none =>
      rw [hcreate] at hlast
      simp only [Option.map_none, Option.toList_none, List.append_nil]
      rw [hlast.1]
      exact ⟨hinv.made, hfinalized, fun i hi => hinv.closed i (List.mem_of_mem_dropLast hi)⟩
    | some b =>
      rw [hcreate] at hlast
      obtain ⟨stretch, hstretches, hmade, hstruct, -⟩ := hlast
      simp only [Option.map_some, Option.toList_some]
      rw [hstretches]
      refine ⟨List.rel_append hinv.made (.cons hmade.finalize .nil), ?_, ?_⟩
      · intro b' hb'
        rcases List.mem_append.mp hb' with hb' | hb'
        · exact hfinalized b' hb'
        · cases List.mem_singleton.mp hb'
          exact BitField.finalized_finalize hstruct
      · rw [List.dropLast_concat]
        exact hinv.closed

theorem Item.Made.fields_eq {i : Item} {stretch : List NamedField} (h : i.Made stretch) :
    i.fields = stretch := by
  cases i with
  | field f => exact h.1.symm
  | bitField b => exact h.fields

theorem flatMap_fields {stretches : List (List NamedField)} (h : List.Forall₂ Item.Made items stretches) :
    items.flatMap Item.fields = stretches.flatten := by
  induction h with
  | nil => rfl
  | cons hmade _ ih => rw [List.flatMap_cons, List.flatten_cons, hmade.fields_eq, ih]

/-- Everything on the right has its partner on the left. -/
theorem exists_of_forall₂ {α β : Type} {R : α → β → Prop} {as : List α} {bs : List β}
    (h : List.Forall₂ R as bs) {b : β} (hb : b ∈ bs) : ∃ a ∈ as, R a b := by
  induction h with
  | nil => cases hb
  | cons hab _ ih =>
    rcases List.mem_cons.mp hb with rfl | hb
    · exact ⟨_, List.mem_cons_self, hab⟩
    · obtain ⟨a, ha, hr⟩ := ih hb
      exact ⟨a, List.mem_cons_of_mem _ ha, hr⟩

/-- An item that has its stretch and its `struct` makes the stretch supported. -/
theorem supported_of_made {i : Item} {stretch : List NamedField} (hmade : i.Made stretch)
    (hstruct : ∀ b, i = .bitField b → b.Finalized ∧ b.struct.isSome = true) : Supported stretch := by
  cases i with
  | field f =>
    intro hbits
    obtain ⟨rfl, hbit⟩ := hmade
    rw [hbits f (List.mem_singleton_self f)] at hbit
    cases hbit
  | bitField b =>
    intro _
    obtain ⟨hfinalized, hsome⟩ := hstruct b rfl
    rwa [byteLength, ← BitField.Made.bitLength hmade, ← hfinalized.byteLength, ← hfinalized.struct]

/-- A bit field of a supported stretch reads its fields. -/
theorem BitField.Made.reads {b : BitField} {stretch : List NamedField} (hmade : b.Made stretch)
    (hfinalized : b.Finalized) (hsupported : Supported stretch)
    (hglobal : ∀ f ∈ stretch, f.isEnum = true → f.globalEnum = false) : b.Reads where
  ne := by
    intro hnil
    have htotal := hmade.bitLength
    rw [← hmade.fields, hnil] at htotal
    exact absurd htotal (Nat.ne_of_gt hmade.pos)
  bitValues := fun s hs => hmade.bitValues _ (hmade.fields ▸ List.mem_map_of_mem hs)
  relOffset := hmade.relOffset
  contiguous := fun _ _ _ hfields => hmade.relOffset_eq hfields
  bytes := by rw [hfinalized.byteLength, hmade.fields, hmade.bitLength, BitFieldGenerator.byteLength]
  decode := by
    intro data fields hdata
    refine hmade.decode_eq hfinalized ?_ hglobal hdata fields
    rw [hfinalized.struct, hfinalized.byteLength, hmade.bitLength]
    exact hsupported hmade.bitValues

/-- A bit field that reads its fields has a `struct`, and no global enumeration. -/
theorem BitField.Reads.forall_field {b : BitField} (h : b.Reads) :
    b.struct.isSome = true ∧ ∀ s ∈ b.fields, s.field.isEnum = true → s.field.globalEnum = false := by
  have hdecode := h.decode (List.replicate (b.startByte + b.byteLength) 0) (fun _ => none) (by simp)
  obtain ⟨hstruct, hvalues⟩ := BitField.of_decode_ok hdecode
  refine ⟨hstruct, fun s hs henum => ?_⟩
  obtain ⟨word, v, hv⟩ := hvalues s hs
  by_contra hglobal
  rw [BitFieldDef.getValue_globalEnum henum (eq_true_of_ne_false hglobal)] at hv
  cases hv

/-- Where a stretch without a format is not the last one, the definition fails. -/
theorem generate_error (h : Regular fieldList)
    (hstretch : ∃ stretch ∈ (stretches fieldList).dropLast, ¬ Supported stretch) :
    ∃ e, generate fieldList = .error e := by
  have hspec := generate_spec h
  cases hresult : generate fieldList with
  | error e => exact ⟨e, rfl⟩
  | ok items =>
    rw [hresult] at hspec
    obtain ⟨hmade, -, hclosed⟩ := hspec
    obtain ⟨stretch, hmem, hunsupported⟩ := hstretch
    have hfront : List.Forall₂ Item.Made items.dropLast (stretches fieldList).dropLast := by
      rw [List.dropLast_eq_take, List.dropLast_eq_take, hmade.length_eq]
      exact List.forall₂_take _ hmade
    obtain ⟨i, hi, himade⟩ := exists_of_forall₂ hfront hmem
    refine absurd (supported_of_made himade ?_) hunsupported
    rintro b rfl
    exact ⟨(hclosed _ hi).1, (hclosed _ hi).2.1⟩

theorem partitions_of_supported (h : Regular fieldList)
    (hsupported : ∀ stretch ∈ stretches fieldList, Supported stretch)
    (hglobal : ∀ f ∈ fieldList, f.isBitValue = true → f.isEnum = true → f.globalEnum = false)
    (hgenerate : generate fieldList = .ok items) : Partitions fieldList items := by
  have hspec := generate_spec h
  rw [hgenerate] at hspec
  obtain ⟨hmade, hfinalized, hclosed⟩ := hspec
  have hflatten : (stretches fieldList).flatten = fieldList := List.flatten_splitBy _ fieldList
  have hitem : ∀ i ∈ items, ∃ stretch ∈ stretches fieldList, i.Made stretch :=
    fun i hi => exists_of_forall₂ hmade.flip hi
  refine ⟨(flatMap_fields hmade).trans hflatten, ?_, ?_, ?_⟩
  · intro f hf
    obtain ⟨stretch, -, himade⟩ := hitem _ hf
    exact himade.2
  · intro b hb
    obtain ⟨stretch, hmem, himade⟩ := hitem _ hb
    refine BitField.Made.reads himade (hfinalized b hb) (hsupported stretch hmem) ?_
    intro f hf
    have hbit := BitField.Made.bitValues himade f hf
    exact hglobal f (hflatten ▸ List.mem_flatten.mpr ⟨stretch, hmem, hf⟩) hbit
  · intro b hb
    obtain ⟨stretch, -, himade⟩ := hitem _ (List.mem_of_mem_dropLast hb)
    rw [BitField.Made.fields himade, ← BitField.Made.bitLength himade]
    exact (hclosed _ hb).2.2

theorem groupable_of_partitions (h : Regular fieldList) (hgenerate : generate fieldList = .ok items)
    (hpartitions : Partitions fieldList items) : Groupable fieldList := by
  have hspec := generate_spec h
  rw [hgenerate] at hspec
  obtain ⟨hmade, hfinalized, -⟩ := hspec
  have hreads : ∀ b, .bitField b ∈ items → b.Reads := hpartitions.bitFields
  refine .inr ⟨?_, ?_⟩
  · intro stretch hmem
    obtain ⟨i, hi, himade⟩ := exists_of_forall₂ hmade hmem
    refine supported_of_made himade ?_
    rintro b rfl
    exact ⟨hfinalized b hi, (hreads b hi).forall_field.1⟩
  · intro f hf hbit
    rw [← hpartitions.order] at hf
    obtain ⟨i, hi, hfi⟩ := List.mem_flatMap.mp hf
    cases i with
    | field f' =>
      rw [List.mem_singleton.mp hfi, hpartitions.fields f' hi] at hbit
      cases hbit
    | bitField b =>
      obtain ⟨s, hs, rfl⟩ := List.mem_map.mp hfi
      exact (hreads b hi).forall_field.2 s hs

/-- **The definition fails or the bit values are partitioned** exactly if the
list can be grouped. -/
theorem partitions_iff (h : Regular fieldList) :
    ((∃ e, generate fieldList = .error e) ∨
        ∃ items, generate fieldList = .ok items ∧ Partitions fieldList items) ↔
      Groupable fieldList := by
  constructor
  · rintro (⟨e, herror⟩ | ⟨items, hgenerate, hpartitions⟩)
    · have hspec := generate_spec h
      rw [herror] at hspec
      exact .inl hspec
    · exact groupable_of_partitions h hgenerate hpartitions
  · rintro (hstretch | ⟨hsupported, hglobal⟩)
    · exact .inl (generate_error h hstretch)
    · cases hgenerate : generate fieldList with
      | error e => exact .inl ⟨e, rfl⟩
      | ok items => exact .inr ⟨items, rfl, partitions_of_supported h hsupported hglobal hgenerate⟩

/-- The fields of PGN 65286: a code of 11 bits, two bits and the industry. -/
def bootStateFields : List NamedField :=
  [⟨"Manufacturer Code", ⟨.uintField, none, 0, 11, none, none, none⟩, false, []⟩,
    ⟨"Reserved", ⟨.uintField, none, 11, 2, none, none, none⟩, false, []⟩,
    ⟨"Industry Code", ⟨.enumField, none, 13, 3, none, none, none⟩, false, [(4, "Marine")]⟩]

theorem regular_bootStateFields : Regular bootStateFields :=
  ⟨⟨rfl, rfl, rfl, trivial⟩, by decide⟩

/-- They make one bit field. -/
theorem partitions_bootStateFields :
    ∃ items, generate bootStateFields = .ok items ∧ Partitions bootStateFields items := by
  have hgroupable : Groupable bootStateFields := .inr ⟨by decide, by decide⟩
  rcases (partitions_iff regular_bootStateFields).mpr hgroupable with ⟨e, herror⟩ | hpartitions
  · cases herror
  · exact hpartitions

/-- The fields of PGN 129029, where the GNSS type is a global enumeration. -/
def gnssPositionFields : List NamedField :=
  [⟨"SID", ⟨.uintField, some "sequence_id", 0, 8, none, none, none⟩, false, []⟩,
    ⟨"Date", ⟨.uintField, some "date", 8, 16, none, none, none⟩, false, []⟩,
    ⟨"Time", ⟨.udblField, some "time", 24, 32, some (1 / 10000), none, none⟩, false, []⟩,
    ⟨"Latitude", ⟨.dblField, some "latitude", 56, 64, some (1 / 10 ^ 16), none, none⟩, false, []⟩,
    ⟨"Longitude", ⟨.dblField, some "longitude", 120, 64, some (1 / 10 ^ 16), none, none⟩, false, []⟩,
    ⟨"Altitude", ⟨.dblField, some "altitude", 184, 64, some (1 / 10 ^ 6), none, none⟩, false, []⟩,
    ⟨"GNSS type", ⟨.enumField, some "GNSS_type", 248, 4, none, none, none⟩, true, []⟩,
    ⟨"Method", ⟨.enumField, some "method", 252, 4, none, none, none⟩, false,
      [(0, "no GNSS"), (1, "GNSS fix"), (2, "DGNSS fix"), (3, "Precise GNSS"), (4, "RTK Fixed Integer"),
        (5, "RTK float"), (6, "Estimated (DR) mode"), (7, "Manual Input"), (8, "Simulate mode")]⟩,
    ⟨"Integrity", ⟨.enumField, some "integrity", 256, 2, none, none, none⟩, false,
      [(0, "No integrity checking"), (1, "Safe"), (2, "Caution")]⟩,
    ⟨"Reserved", ⟨.uintField, none, 258, 6, none, none, none⟩, false, []⟩,
    ⟨"Number of SVs", ⟨.uintField, some "number_of_sv", 264, 8, none, none, none⟩, false, []⟩,
    ⟨"HDOP", ⟨.dblField, some "HDOP", 272, 16, some (1 / 100), none, none⟩, false, []⟩,
    ⟨"PDOP", ⟨.dblField, some "PDOP", 288, 16, some (1 / 100), none, none⟩, false, []⟩,
    ⟨"Geoidal Separation", ⟨.dblField, some "geoidal_separation", 304, 32, some (1 / 100), none, none⟩,
      false, []⟩,
    ⟨"nStations", ⟨.uintField, some "nb_ref_stations", 336, 8, none, none, none⟩, false, []⟩]

/-- The list is regular and its definition does not fail, but the bit field of the
GNSS type cannot be decoded. -/
theorem not_partitions_gnssPosition : Regular gnssPositionFields ∧
    ¬ ((∃ e, generate gnssPositionFields = .error e) ∨
      ∃ items, generate gnssPositionFields = .ok items ∧ Partitions gnssPositionFields items) := by
  have hregular : Regular gnssPositionFields :=
    ⟨⟨rfl, rfl, rfl, rfl, rfl, rfl, rfl, rfl, rfl, rfl, rfl, rfl, rfl, rfl, rfl, trivial⟩, by decide⟩
  refine ⟨hregular, ?_⟩
  rintro (⟨e, herror⟩ | ⟨items, hgenerate, hpartitions⟩)
  · cases herror
  · rcases groupable_of_partitions hregular hgenerate hpartitions with hstretch | ⟨-, hglobal⟩
    · exact absurd hstretch (by decide)
    · exact absurd hglobal (by decide)

/-! ## 6. The bit fields of the code generator -/

/-- The bit field as the code generator sees it. -/
def BitField.erased (b : BitField) : Nmea2000Datamodel.BitField :=
  ⟨b.startByte, b.fields.map (fun s => s.field.definition)⟩

/-- The item as the code generator sees it. -/
def Item.erased : Item → FieldItem
  | .field f => .field f.definition
  | .bitField b => .bitField b.erased

theorem subFieldsFrom_map (l : List BitFieldDef) {offset : Nat}
    (h : ∀ front s back, l = front ++ s :: back →
      s.relOffset = offset + totalBits (front.map BitFieldDef.field)) :
    subFieldsFrom offset (l.map (fun s => s.field.definition))
      = l.map (fun s => ⟨s.field.definition, s.relOffset⟩) := by
  induction l generalizing offset with
  | nil => rfl
  | cons s l ih =>
    have hoffset : s.relOffset = offset := h [] s l rfl
    rw [List.map_cons, List.map_cons, subFieldsFrom, hoffset, ih]
    intro front s' back hl
    rw [h (s :: front) s' back (by rw [hl, List.cons_append])]
    simp [totalBits, NamedField.bitLength, Nat.add_assoc]

theorem decodeUintStr_of_structFormat {n : Nat} {format : List Slot} (h : structFormat n = some format) :
    decodeUintStr n = .ok format := by
  unfold structFormat at h
  split at h <;> cases h <;> rfl

/-- It has the same sub fields, the same length and the same format. -/
theorem BitField.Reads.erased {b : BitField} (h : b.Reads) (hfinalized : b.Finalized) :
    b.erased.subFields = b.fields.map (fun s => ⟨s.field.definition, s.relOffset⟩) ∧
      b.erased.byteLength = b.byteLength ∧
      ∃ format, b.struct = some format ∧ b.erased.decodeString = .ok format := by
  have hlength : b.erased.byteLength = b.byteLength := by
    rw [h.bytes]
    simp [BitField.erased, Nmea2000Datamodel.BitField.byteLength, BitFieldGenerator.byteLength, totalBits,
      NamedField.bitLength, Function.comp_def]
  obtain ⟨format, hformat⟩ := Option.isSome_iff_exists.mp h.forall_field.1
  refine ⟨subFieldsFrom_map b.fields (fun front s back hl => ?_), hlength, format, hformat, ?_⟩
  · rw [h.contiguous front s back hl, Nat.zero_add]
  · unfold Nmea2000Datamodel.BitField.decodeString
    rw [hlength]
    exact decodeUintStr_of_structFormat (hfinalized.struct.symm.trans hformat)

end NavigationServer.Nmea2000Datamodel.BitFieldGenerator
