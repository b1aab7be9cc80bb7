/-
NavigationServer.CodeGeneration.AgreementTheorems — the decoder of a definition
and the class that is generated from it.

Both read a field from its own bits and make a value of it. A number is the same
for both where the class has no other use for it (`shows_reported`), and a plain
text is (`Filled.reads`). What the definition declares is reported for the items
that the index finds (`readsFound`), and not for all (`not_readsDeclared`).
-/
import NavigationServer.CodeGeneration.DecodeTheorems
import NavigationServer.CodeGeneration.StringTheorems

namespace NavigationServer.CodeGeneration

open NavigationServer.Lib NavigationServer.Nmea2000Datamodel
open BitFieldGenerator (NamedField)
open BitFieldGenerator renaming Item → ListItem
open PythonFloat (toFloatOps)

variable {F : Type}

/-! ## 1. Texts -/

/-- A plain text that does not begin with padding, filled with it. -/
def Filled (s : String) (bytes : Bytes) : Prop :=
  Plain s ∧ (∀ c ∈ s.toList.head?, isPadding c = false) ∧
    ∃ fill : List Char, (∀ c ∈ fill, isPadding c) ∧ bytes = encode (s.toList ++ fill)

theorem fromUTF8_encode (text : List Char) :
    String.fromUTF8? ⟨(encode text).toArray⟩ = some (String.ofList text) := by
  have h := fromUTF8_utf8 (String.ofList text)
  rwa [utf8_eq_encode, String.toList_ofList] at h

theorem rdropWhile_append_of_pos {α : Type} {p : α → Bool} {l back : List α} (h : ∀ x ∈ back, p x) :
    (l ++ back).rdropWhile p = l.rdropWhile p := by
  unfold List.rdropWhile
  rw [List.reverse_append, List.dropWhile_append_of_pos (fun x hx => h x (List.mem_reverse.mp hx))]

/-- What the definition reads. -/
theorem stripPadding_filled {s : String} (h : Plain s) (hhead : ∀ c ∈ s.toList.head?, isPadding c = false)
    {fill : List Char} (hfill : ∀ c ∈ fill, isPadding c) :
    stripPadding (String.ofList (s.toList ++ fill)) = s := by
  have hfront : ((s.toList ++ fill).dropWhile isPadding).rdropWhile isPadding = s.toList := by
    rcases hs : s.toList with _ | ⟨c, rest⟩
    · rw [List.nil_append, List.dropWhile_eq_nil_iff.mpr (fun c hc => hfill c hc)]
      rfl
    · rw [hs] at hhead
      rw [List.cons_append, List.dropWhile_cons_of_neg (by simp [hhead c rfl]), ← List.cons_append,
        rdropWhile_append_of_pos hfill, ← hs]
      exact h.rdropWhile_eq
  rw [stripPadding, String.toList_ofList, hfront, String.ofList_toList]

/-- What padding there is after a cut is padding. -/
theorem takeWhile_filled {s : String} (h : Plain s) {fill : List Char} (hfill : ∀ c ∈ fill, isPadding c) :
    ∃ rest : List Char, (∀ c ∈ rest, isPadding c) ∧
      ((encode (s.toList ++ fill)).takeWhile (· ≠ 0xFF)).takeWhile (· ≠ 0) = encode (s.toList ++ rest) := by
  have happend : ∀ text : List Char, encode (s.toList ++ text) = utf8 s ++ encode text := by
    intro text
    rw [utf8_eq_encode, encode, List.flatMap_append]
    rfl
  have hpadding : ∀ c ∈ fill, c = '@' ∨ c = ' ' ∨ c.toNat = 0 := fun c hc => of_decide_eq_true (hfill c hc)
  have hascii : ∀ c ∈ fill, c.toNat < 128 := by
    intro c hc
    rcases hpadding c hc with rfl | rfl | hzero
    · decide
    · decide
    · omega
  have hall : (encode fill).takeWhile (· ≠ 0xFF) = encode fill := by
    rw [encode_ascii hascii, List.takeWhile_eq_self_iff]
    intro b hb
    obtain ⟨c, hc, rfl⟩ := List.mem_map.mp hb
    rcases hpadding c hc with rfl | rfl | hzero
    · decide
    · decide
    · rw [hzero]
      decide
  have hinitial := List.takeWhile_prefix (l := fill) ((· ≠ 0) ∘ fun c => UInt8.ofNat c.toNat)
  refine ⟨_, fun c hc => hfill c (hinitial.subset hc), ?_⟩
  rw [happend, happend, List.takeWhile_append_of_pos (fun b hb => decide_eq_true (h.utf8_ne hb).1), hall,
    List.takeWhile_append_of_pos (fun b hb => decide_eq_true (h.utf8_ne hb).2), encode_ascii hascii,
    List.takeWhile_map, encode_ascii (fun c hc => hascii c (hinitial.subset hc))]

/-- **A text with its padding is the same text for both.** -/
theorem Filled.reads {s : String} {bytes : Bytes} (h : Filled s bytes) :
    (decodeText bytes).map (fun text => .text (stripPadding text)) = some (.text s : Value F) ∧
      ∀ printable : Char → Bool, (∀ c : Char, 0x20 ≤ c.toNat → c.toNat < 0x7F → printable c) →
        cleanString printable bytes = s := by
  obtain ⟨hplain, hhead, fill, hfill, rfl⟩ := h
  refine ⟨?_, fun printable hprintable => ?_⟩
  · rw [decodeText, fromUTF8_encode, Option.map_some, stripPadding_filled hplain hhead hfill]
  · obtain ⟨rest, hrest, hcut⟩ := takeWhile_filled hplain hfill
    have hstrip : (s.toList ++ rest).rdropWhile (fun c => c = '@' ∨ c = ' ' ∨ c.toNat = 0) = s.toList :=
      (rdropWhile_append_of_pos hrest).trans hplain.rdropWhile_eq
    have hall : s.toList.all printable = true :=
      List.all_eq_true.mpr fun c hc => hprintable c (hplain.ascii c hc).1 (hplain.ascii c hc).2
    unfold cleanString
    dsimp only
    rw [hcut, fromUTF8_encode]
    dsimp only
    rw [String.toList_ofList, hstrip, if_pos hall, String.ofList_toList]

/-! ## 2. One value in two forms -/

/-- How the decoder shows a number of the field. -/
def Presents [PythonFloat F] (f : NamedField) (n : Int) (v : Value F) : Prop :=
  if f.isBitValue then v = .ofSubField (f.valueOf n.toNat) else f.present n = .ok v

/-- A slot has the value that the decoder reports, or stands for none. The class adds
0.0 where the definition has no offset, and makes a float of an integer that the
decoder reports as it is. -/
inductive Shows [PythonFloat F] (f : NamedField) : Option (Value F) → PyValue F → Prop where
  | int {n : Int} {v : Value F} (presents : Presents f n v) : Shows f (some v) (.int n)
  | float (x : F) : Shows f (some (.float x)) (.float x)
  | addZero (x : F) :
      Shows f (some (.float x)) (.float (PythonFloat.add x (toFloatOps.literal 0)))
  | ofInt (n : Int) : Shows f (some (.number n)) (.float (toFloatOps.ofInt n))
  | str (s : String) : Shows f (some (.text s)) (.str s)
  | nan : Shows f none (.float PythonFloat.nan)
  | invalid : Shows f none (.int f.definition.invalidValue)
  | empty : Shows f none (.str "")

/-- The two forms of the field are made in the same way: an integer has no scale, a
scaled number with a sign is not one that the class takes for a missing one, one
without a sign and without a scale has not all bits set, and a string is plain. -/
def Comparable (f : NamedField) (data : Bytes) : Prop :=
  match f.definition.fieldClass with
  | .dblField => f.definition.scale ≠ none →
      f.number data ≠ -1 ∧ f.number data ≠ f.definition.invalidValue
  | .udblField => f.definition.scale = none → f.bits data ≠ f.definition.invalidValue
  | .fixLengthStringField => ∃ s, Filled s (f.bytes data)
  | _ => f.isBitValue = true ∨ f.definition.scale = none

variable [PythonFloat F] {f : NamedField} {data : Bytes}

/-- The value of a scaled number, unless the class takes it for a missing one. -/
theorem shows_slotValue (hfloat : f.definition.pythonType = .ok .float) {n : Int}
    (h : f.definition.scale ≠ none → n ≠ -1 ∧ n ≠ f.definition.invalidValue) :
    Shows f (some (f.applyScaleOffset n : Value F)) (slotValue f.definition n) := by
  unfold slotValue NamedField.applyScaleOffset
  cases hscale : f.definition.scale with
  | none =>
    dsimp only
    rw [if_pos hfloat]
    cases f.definition.offset with
    | none => exact .ofInt n
    | some offset => exact .float _
  | some scale =>
    obtain ⟨hminus, hinvalid⟩ := h (by simp [hscale])
    dsimp only
    rw [checkConvertFloat, if_neg (by simp [hminus, hinvalid])]
    cases f.definition.offset with
    | none => exact .addZero _
    | some offset => exact .float _

theorem slotValue_int (hint : f.definition.pythonType = .ok .int) (hscale : f.definition.scale = none)
    (n : Int) : slotValue (F := F) f.definition n = .int n := by
  unfold slotValue
  rw [hscale]
  dsimp only
  rw [if_neg (by rw [hint]; simp)]

/-- A number without a sign that the decoder reports as missing. -/
theorem number_of_invalid (hsigned : f.definition.signed = false)
    (hinvalid : f.bits data = 2 ^ f.bitLength - 1) : f.number data = f.definition.invalidValue := by
  rw [NamedField.number, if_neg (by simp [hsigned]), hinvalid, FieldDef.invalidValue,
    if_neg (by simp [hsigned])]
  rfl

/-- An integer, or the index of an enumeration. -/
theorem shows_int (hbit : f.isBitValue = false) (hint : f.definition.pythonType = .ok .int)
    (hscale : f.definition.scale = none) (hcoder : f.HasCoder) :
    Shows f (if f.definition.signed = false ∧ f.bits data = 2 ^ f.bitLength - 1 then none
      else (f.present (F := F) (f.number data)).toOption) (slotValue f.definition (f.number data)) := by
  rw [slotValue_int hint hscale]
  split
  · rename_i hboth
    rw [number_of_invalid hboth.1 hboth.2]
    exact .invalid
  · obtain ⟨v, hv⟩ := hcoder.present_ok (F := F) (f.number data)
    rw [hv]
    refine .int ?_
    rw [Presents, if_neg (by simp [hbit])]
    exact hv

theorem present_float (hclass : f.definition.fieldClass = .dblField ∨ f.definition.fieldClass = .udblField)
    (n : Int) : f.present (F := F) n = .ok (f.applyScaleOffset n) := by
  rcases hclass with hclass | hclass
  · rw [NamedField.present, hclass]
  · rw [NamedField.present, hclass]

/-- A scaled number. -/
theorem shows_float (hclass : f.definition.fieldClass = .dblField ∨ f.definition.fieldClass = .udblField)
    (hcomparable : Comparable f data) :
    Shows f (if f.definition.signed = false ∧ f.bits data = 2 ^ f.bitLength - 1 then none
      else (f.present (F := F) (f.number data)).toOption) (slotValue f.definition (f.number data)) := by
  have hfloat : f.definition.pythonType = .ok .float := by
    rcases hclass with hclass | hclass
    · rw [FieldDef.pythonType, hclass]
    · rw [FieldDef.pythonType, hclass]
  unfold Comparable at hcomparable
  rw [present_float hclass]
  rcases hclass with hclass | hclass
  · rw [hclass] at hcomparable
    have hsigned : f.definition.signed = true := by rw [FieldDef.signed, hclass]
    rw [if_neg (by simp [hsigned])]
    exact shows_slotValue hfloat hcomparable
  · rw [hclass] at hcomparable
    have hsigned : f.definition.signed = false := by rw [FieldDef.signed, hclass]
    have hinvalid : f.definition.invalidValue = 2 ^ f.bitLength - 1 := by
      rw [FieldDef.invalidValue, if_neg (by simp [hsigned])]
      rfl
    have hnumber : f.number data = f.bits data := by rw [NamedField.number, if_neg (by simp [hsigned])]
    split
    · rename_i hboth
      cases hscale : f.definition.scale with
      | none => exact absurd (hboth.2.trans hinvalid.symm) (hcomparable hscale)
      | some scale =>
        rw [number_of_invalid hsigned hboth.2, slotValue, hscale]
        dsimp only
        rw [checkConvertFloat, if_pos (.inr rfl)]
        exact .nan
    · rename_i hboth
      refine shows_slotValue hfloat fun _ => ?_
      rw [hnumber, hinvalid]
      refine ⟨by omega, fun heq => hboth ⟨hsigned, ?_⟩⟩
      exact_mod_cast heq

/-- A plain text. -/
theorem shows_text {printable : Char → Bool}
    (hprintable : ∀ c : Char, 0x20 ≤ c.toNat → c.toNat < 0x7F → printable c) (hbit : f.isBitValue = false)
    (hclass : f.definition.fieldClass = .fixLengthStringField) (hcomparable : Comparable f data) :
    Shows f (f.reported (F := F) data) (generatedValue printable f data) := by
  rw [Comparable, hclass] at hcomparable
  obtain ⟨s, hfilled⟩ := hcomparable
  obtain ⟨hreported, hclean⟩ := hfilled.reads
  rw [NamedField.reported, if_neg (by simp [hbit]), if_pos hclass, hreported, generatedValue,
    if_neg (by simp [hbit]), if_pos hclass, hclean printable hprintable]
  exact .str s

/-- **The slot shows what the decoder reports**, where both read a number from its
own bits. -/
theorem shows_reported (printable : Char → Bool) (hnumber : f.isNumber = true)
    (hcoder : f.isBitValue = false → f.HasCoder) (hcomparable : Comparable f data) :
    Shows f (f.reported (F := F) data) (generatedValue printable f data) := by
  unfold NamedField.reported generatedValue
  cases hbit : f.isBitValue with
  | true =>
    rw [if_pos rfl, if_pos rfl]
    refine .int ?_
    rw [Presents, if_pos hbit, Int.toNat_natCast]
  | false =>
    have hcoder := hcoder hbit
    unfold NamedField.isNumber at hnumber
    simp only [Bool.false_eq_true, if_false]
    cases hclass : f.definition.fieldClass with
    | varLengthStringField | fixLengthStringField | nameField | bytesField =>
      rw [hclass] at hnumber
      cases hnumber
    | dblField => exact shows_float (.inl hclass) hcomparable
    | udblField => exact shows_float (.inr hclass) hcomparable
    | uintField | instanceField | enumField | enumIntField | intField =>
      unfold Comparable at hcomparable
      rw [hclass, hbit] at hcomparable
      have hscale := hcomparable.resolve_left (by decide)
      exact shows_int hbit (by rw [FieldDef.pythonType, hclass]) hscale hcoder

/-! ## 3. What is claimed -/

/-- The bits are the pattern for a value that is not available. -/
def NotAvailable (f : NamedField) (data : Bytes) : Prop := f.bits data = f.definition.invalidValue

/-- The value that the definition declares for the bits of the field: the text of
its bytes, or its number with sign, scale and offset or with the name it has. -/
def Declares (f : NamedField) (data : Bytes) (v : Value F) : Prop :=
  if f.definition.fieldClass = .fixLengthStringField then
    ∃ s, v = .text s ∧ decodeText (f.bytes data) = some s
  else if f.definition.scale = none ∧ f.definition.offset = none then Presents f (f.number data) v
  else v = f.applyScaleOffset (f.number data)

/-- The class is generated from these items. -/
def GeneratedFrom (items : List ListItem) (c : GeneratedClass) : Prop :=
  ∃ d, FieldSetMeta.init (items.map ListItem.erased) none = .ok d.fields ∧ genClass d = .ok c

/-- **What is claimed of a definition**, of every payload of its length. A field
that is reserved has no value. -/
def ReadsDeclared (F : Type) [PythonFloat F] (fieldList : List NamedField) : Prop :=
  ∀ (id : Nat) (name : String) (data : Bytes), data.length = BitFieldGenerator.byteLength fieldList →
    ∃ items, ∃ values : Values F, BitFieldGenerator.generate fieldList = .ok items ∧
      decodePgnData id name items data = .ok ⟨id, name, values⟩ ∧
      ∀ f ∈ fieldList, f.name ≠ "Reserved" →
        ((∃ v, values f.name = some v ∧ Declares f data v) ∨
          values f.name = none ∧ NotAvailable f data) ∧
        ∀ printable c o, GeneratedFrom items c → c.decodePayload printable data = .ok o →
          ∀ k, f.definition.keyword = some k →
            ∃ slot, o.slots k = some slot ∧ Shows f (values f.name) slot

/-- A scaled number, or one that has no scale and no offset. -/
def UsesScale (f : NamedField) : Prop :=
  match f.definition.fieldClass with
  | .dblField | .udblField => True
  | _ => f.definition.scale = none ∧ f.definition.offset = none

/-- The decoder finds the field: a string, or a number of an item that is read from
its own place. -/
def Finds (items : List ListItem) (i : ListItem) : Prop :=
  ∃ front back, items = front ++ i :: back ∧ i.Found (∀ j ∈ front, j.Advances)

/-- What the code does with the items that are found: a number is reported as its
definition declares it, a string without what it is filled with, and the class
shows the same values where it has the lines for them. -/
structure ReadsFound (fieldList : List NamedField) (data : Bytes) (items : List ListItem)
    (values : Values F) : Prop where
  generated : BitFieldGenerator.generate fieldList = .ok items
  numbers : ∀ i, Finds items i → ∀ f ∈ i.fields, f.name ≠ "Reserved" → f.isNumber = true → UsesScale f →
    (∃ v, values f.name = some v ∧ Declares f data v) ∨ values f.name = none ∧ NotAvailable f data
  absent : ∀ f, Finds items (.field f) → f.name ≠ "Reserved" → f.isNumber = true →
    f.definition.signed = false → NotAvailable f data → values f.name = none
  strings : ∀ f ∈ fieldList, f.name ≠ "Reserved" → f.isNumber = false →
    values f.name = (decodeText (f.bytes data)).map (fun s => .text (stripPadding s))
  decodes : ∀ c, GeneratedFrom items c → (∀ i ∈ items, Ends i) →
    ∀ printable, ∃ o : Obj F, c.decodePayload printable data = .ok o
  shows : ∀ printable : Char → Bool, (∀ c : Char, 0x20 ≤ c.toNat → c.toNat < 0x7F → printable c) →
    ∀ c, ∀ o : Obj F, GeneratedFrom items c → c.decodePayload printable data = .ok o →
      ∀ i, Finds items i → Coded i → ∀ f ∈ i.fields, f.name ≠ "Reserved" → Comparable f data →
        ∀ k, f.definition.keyword = some k → ∃ slot, o.slots k = some slot ∧ Shows f (values f.name) slot
  texts : ∀ printable c, ∀ o : Obj F, GeneratedFrom items c → c.decodePayload printable data = .ok o →
    ∀ f ∈ fieldList, f.isNumber = false → ∀ k, f.definition.keyword = some k →
      o.slots k = some (.str (cleanString printable (f.bytes data)))

theorem not_string_of_isNumber (h : f.isNumber = true) :
    f.definition.fieldClass ≠ .fixLengthStringField := by
  intro hclass
  rw [NamedField.isNumber, hclass] at h
  cases h

/-- A number without a sign whose bits are all set is not reported. -/
theorem reported_none (hnumber : f.isNumber = true) (hbit : f.isBitValue = false)
    (hsigned : f.definition.signed = false) (hnot : NotAvailable f data) :
    f.reported (F := F) data = none := by
  rw [NotAvailable, FieldDef.invalidValue, if_neg (by simp [hsigned])] at hnot
  rw [NamedField.reported, if_neg (by simp [hbit]), if_neg (not_string_of_isNumber hnumber)]
  exact if_pos ⟨hsigned, hnot⟩

/-- A field that has a scale or an offset, and uses it, is a scaled number. -/
theorem UsesScale.cases (h : UsesScale f) :
    (f.definition.scale = none ∧ f.definition.offset = none) ∨
      f.definition.fieldClass = .dblField ∨ f.definition.fieldClass = .udblField := by
  unfold UsesScale at h
  cases hclass : f.definition.fieldClass with
  | dblField => exact .inr (.inl rfl)
  | udblField => exact .inr (.inr rfl)
  | _ =>
    rw [hclass] at h
    exact .inl h

/-- **What is reported for a number is what is declared.** -/
theorem declares_reported (hnumber : f.isNumber = true) (hcoder : f.isBitValue = false → f.HasCoder)
    (huses : UsesScale f) :
    (∃ v : Value F, f.reported data = some v ∧ Declares f data v) ∨
      f.reported (F := F) data = none ∧ NotAvailable f data := by
  have hstring := not_string_of_isNumber hnumber
  unfold NamedField.reported Declares
  simp only [if_neg hstring]
  cases hbit : f.isBitValue with
  | true =>
    have hclass : f.definition.fieldClass ≠ .dblField ∧ f.definition.fieldClass ≠ .udblField ∧
        f.definition.signed = false := by
      have hvalue : f.definition.isBitValue = true := hbit
      unfold FieldDef.isBitValue at hvalue
      unfold FieldDef.signed
      cases hclass : f.definition.fieldClass <;> rw [hclass] at hvalue <;> simp at hvalue ⊢
    have hnone := huses.cases.resolve_right (fun hfloat => hfloat.elim hclass.1 hclass.2.1)
    refine .inl ⟨_, if_pos rfl, ?_⟩
    rw [if_pos hnone, Presents, if_pos hbit, NamedField.number, if_neg (by simp [hclass.2.2]),
      Int.toNat_natCast]
  | false =>
    rw [if_neg (by simp)]
    split
    · rename_i hboth
      refine .inr ⟨rfl, ?_⟩
      rw [NotAvailable, hboth.2, FieldDef.invalidValue, if_neg (by simp [hboth.1])]
      rfl
    · obtain ⟨v, hv⟩ := (hcoder hbit).present_ok (F := F) (f.number data)
      rw [hv]
      refine .inl ⟨v, rfl, ?_⟩
      split
      · rw [Presents, if_neg (by simp [hbit])]
        exact hv
      · rename_i hscale
        have hfloat := huses.cases.resolve_left hscale
        rw [present_float hfloat] at hv
        exact (Except.ok.inj hv).symm

section Finds

variable {fieldList : List NamedField} {items : List ListItem} {values : Values F} {i : ListItem}

theorem Finds.mem (h : Finds items i) : i ∈ items := by
  obtain ⟨front, back, rfl, -⟩ := h
  exact List.mem_append_right _ List.mem_cons_self

/-- A field that is found is reported from its own bits. -/
theorem Finds.reported (h : Finds items i) (hreports : Reports data 0 0 (fun _ => none) items values)
    (hf : f ∈ i.fields) (hreserved : f.name ≠ "Reserved") : values f.name = f.reported data := by
  obtain ⟨front, back, heq, hfound⟩ := h
  refine hreports.reads front i back heq ?_ f hf hreserved rfl
  cases i with
  | field g => exact hfound
  | bitField b => exact ⟨rfl, hfound⟩

/-- The bits of a bit field are bit values. -/
theorem isBitValue_of_mem (hlayout : Layout fieldList items) {b : BitFieldGenerator.BitField}
    (hb : .bitField b ∈ items) (hf : f ∈ (ListItem.bitField b).fields) : f.isBitValue = true := by
  obtain ⟨⟨stretch, hmade, -⟩, -⟩ := hlayout.readable _ hb
  exact hmade.bitValues f (hmade.fields ▸ hf)

theorem Finds.hasCoder (h : Finds items i) (hlayout : Layout fieldList items) (hf : f ∈ i.fields)
    (hnumber : f.isNumber = true) (hbit : f.isBitValue = false) : f.HasCoder := by
  have hmem := h.mem
  obtain ⟨front, back, -, hfound⟩ := h
  cases i with
  | field g =>
    cases List.mem_singleton.mp hf
    exact (hfound.resolve_left (not_string_of_isNumber hnumber)).1
  | bitField b =>
    rw [isBitValue_of_mem hlayout hmem hf] at hbit
    cases hbit

/-- A field that is no number is a string. -/
theorem string_of_isNumber (h : FixedLength fieldList) (hf : f ∈ fieldList) (hnumber : f.isNumber = false) :
    f.isBitValue = false ∧ f.definition.fieldClass = .fixLengthStringField := by
  have hbit : f.isBitValue = false := by
    by_contra hbit
    rw [h.bitValues f hf (eq_true_of_ne_false hbit)] at hnumber
    cases hnumber
  refine ⟨hbit, ?_⟩
  rcases (h.whole f hf hbit).kind with ⟨hno, -⟩ | ⟨hclass, -⟩
  · rw [hnumber] at hno
    cases hno
  · exact hclass

/-- A string is an item of its own, and is found. -/
theorem finds_string (hlayout : Layout fieldList items) (hf : f ∈ fieldList) (hbit : f.isBitValue = false)
    (hclass : f.definition.fieldClass = .fixLengthStringField) : Finds items (.field f) := by
  rw [← hlayout.order] at hf
  obtain ⟨i, hi, hfi⟩ := List.mem_flatMap.mp hf
  cases i with
  | field g =>
    cases List.mem_singleton.mp hfi
    obtain ⟨front, back, heq⟩ := List.append_of_mem hi
    exact ⟨front, back, heq, .inl hclass⟩
  | bitField b =>
    rw [isBitValue_of_mem hlayout hi hfi] at hbit
    cases hbit

end Finds

/-- The fields of PGN 130306: three numbers and a bit field. -/
def windFields : List NamedField :=
  [⟨"SID", ⟨.uintField, some "sequence_id", 0, 8, none, none, none⟩, false, []⟩,
    ⟨"Wind Speed", ⟨.dblField, some "wind_speed", 8, 16, some (1 / 100), none, none⟩, false, []⟩,
    ⟨"Wind Angle", ⟨.udblField, some "wind_angle", 24, 16, some (1 / 10000), none, none⟩, false, []⟩,
    ⟨"Reference", ⟨.enumField, some "reference", 40, 3, none, none, none⟩, false,
      [(0, "True (referenced to North)"), (1, "Magnetic"), (2, "Apparent"), (3, "True (boat referenced)"),
        (4, "True (water referenced)"), (6, "Error"), (7, "Unavailable")]⟩,
    ⟨"Reserved", ⟨.uintField, none, 43, 21, none, none, none⟩, false, []⟩]

theorem fixedLength_windFields : FixedLength windFields :=
  ⟨⟨⟨rfl, rfl, rfl, rfl, rfl, trivial⟩, by decide⟩, by decide, by decide, by decide, by decide⟩

/-- A wind of 5.28 m/s. -/
def windPayload : Bytes := [5, 0x10, 0x02, 0x3C, 0xFA, 0x02, 0, 0]

/-- One value that is not the declared one is enough. -/
theorem not_readsDeclared_of {fieldList : List NamedField} {items : List ListItem}
    {values : Values F} {id : Nat} {name : String} {v : Value F}
    (hgenerate : BitFieldGenerator.generate fieldList = .ok items)
    (hdecode : decodePgnData id name items data = .ok ⟨id, name, values⟩)
    (hdata : data.length = BitFieldGenerator.byteLength fieldList) (hf : f ∈ fieldList)
    (hreserved : f.name ≠ "Reserved") (hvalue : values f.name = some v) (hno : ¬ Declares f data v) :
    ¬ ReadsDeclared F fieldList := by
  intro h
  obtain ⟨items', values', hgenerate', hdecode', hall⟩ := h id name data hdata
  cases hgenerate.symm.trans hgenerate'
  cases hdecode.symm.trans hdecode'
  rcases (hall f hf hreserved).1 with ⟨v', hv', hdeclares⟩ | ⟨hnone, -⟩
  · cases hvalue.symm.trans hv'
    exact hno hdeclares
  · rw [hvalue] at hnone
    cases hnone

/-- The fields of PGN 129044, with strings at both ends. -/
def datumFields : List NamedField :=
  [⟨"Local Datum", ⟨.fixLengthStringField, none, 0, 32, none, none, none⟩, false, []⟩,
    ⟨"Delta Latitude", ⟨.dblField, none, 32, 32, some (1 / 10 ^ 7), none, none⟩, false, []⟩,
    ⟨"Delta Longitude", ⟨.dblField, none, 64, 32, some (1 / 10 ^ 7), none, none⟩, false, []⟩,
    ⟨"Delta Altitude", ⟨.dblField, none, 96, 32, none, none, none⟩, false, []⟩,
    ⟨"Reference Datum", ⟨.fixLengthStringField, none, 128, 32, none, none, none⟩, false, []⟩]

/-- The fields of PGN 65408: a bit field, a number, and a bit field. -/
def depthQualityFields : List NamedField :=
  [⟨"Manufacturer Code", ⟨.uintField, none, 0, 11, none, none, none⟩, false, []⟩,
    ⟨"Reserved", ⟨.uintField, none, 11, 2, none, none, none⟩, false, []⟩,
    ⟨"Industry Code", ⟨.enumField, none, 13, 3, none, none, none⟩, false, []⟩,
    ⟨"SID", ⟨.uintField, none, 16, 8, none, none, none⟩, false, []⟩,
    ⟨"Depth Quality Factor", ⟨.enumField, none, 24, 4, none, none, none⟩, false, [(0, "No Depth Lock")]⟩]

/-- The blank at the end of a string is not reported, and the second bit field is
read from the second byte. -/
theorem not_readsDeclared : (FixedLength datumFields ∧ KeysApart datumFields ∧
      ¬ ReadsDeclared (Option ℚ) datumFields) ∧
    FixedLength depthQualityFields ∧ KeysApart depthQualityFields ∧
      ¬ ReadsDeclared (Option ℚ) depthQualityFields := by
  refine ⟨⟨?_, by decide, ?_⟩, ?_, by decide, ?_⟩
  · exact ⟨⟨⟨rfl, rfl, rfl, rfl, rfl, trivial⟩, by decide⟩, by decide, by decide, by decide, by decide⟩
  · have hvalue : ∃ items, ∃ values : Values (Option ℚ), BitFieldGenerator.generate datumFields = .ok items ∧
        decodePgnData 129044 "Datum" items
          (ascii "W84 " ++ (List.replicate 12 0 ++ ascii "W84 ")) = .ok ⟨129044, "Datum", values⟩ ∧
        values "Local Datum" = some (.text "W84") := ⟨_, _, rfl, rfl, by decide +kernel⟩
    obtain ⟨items, values, hgenerate, hdecode, hvalue⟩ := hvalue
    refine not_readsDeclared_of hgenerate hdecode rfl List.mem_cons_self (by decide) hvalue ?_
    rw [Declares, if_pos rfl]
    rintro ⟨s, hs, htext⟩
    cases hs
    exact absurd htext (by decide +kernel)
  · exact ⟨⟨⟨rfl, rfl, rfl, rfl, rfl, trivial⟩, by decide⟩, by decide, by decide, by decide, by decide⟩
  · have hvalue : ∃ items, ∃ values : Values (Option ℚ), BitFieldGenerator.generate depthQualityFields = .ok items ∧
        decodePgnData 65408 "Depth Quality Factor" items [0x87, 0x98, 7, 0]
          = .ok ⟨65408, "Depth Quality Factor", values⟩ ∧
        values "Depth Quality Factor" = some (.number 8) := ⟨_, _, rfl, rfl, by decide +kernel⟩
    obtain ⟨items, values, hgenerate, hdecode, hvalue⟩ := hvalue
    refine not_readsDeclared_of (f := depthQualityFields.get ⟨4, by decide⟩) hgenerate hdecode rfl
      (List.get_mem _ _) (by decide) hvalue ?_
    rw [Declares, if_neg (by decide), if_pos (by decide), Presents, if_pos (by decide)]
    decide +kernel

end NavigationServer.CodeGeneration
