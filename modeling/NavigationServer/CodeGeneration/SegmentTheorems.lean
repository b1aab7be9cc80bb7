/-
NavigationServer.CodeGeneration.SegmentTheorems — the segments of a field list.

`tiles_init`: the segments that the analysis builds follow the list. A segment
begins where the ones before it end, a value segment has the `struct` slots of
its fields one behind the other, an attribute has the index of the first slot of
its field, and the static size is the sum of the lengths. The length of a value
segment is the sum of the byte lengths of its fields but for an ISO name: that is
decoded as a number of 8 bytes whatever length its definition has.

`ValueRun` is a run of numbers with what a value segment has of it, and
`AnalysisInv` what holds behind every field of the list.
-/
import NavigationServer.CodeGeneration.EncodeTheorems

namespace NavigationServer.CodeGeneration

open NavigationServer.Lib NavigationServer.Nmea2000Datamodel

/-! ## 1. What a field asks for -/

namespace Attribute

def fieldIndex : Attribute → Nat
  | .scalar _ _ fieldIndex => fieldIndex
  | .reserved _ fieldIndex => fieldIndex
  | .bitField _ _ _ _ fieldIndex => fieldIndex
  | .reservedBitField _ _ _ fieldIndex => fieldIndex

/-- The field of the definition that the attribute is for. -/
def field : Attribute → FieldDef
  | .scalar field _ _ => field
  | .reserved field _ => field
  | .bitField _ subField _ _ _ => subField.field
  | .reservedBitField _ subField _ _ => subField.field

end Attribute

/-- The fields of the definition, those of a bit field one by one. -/
def itemFields : FieldItem → List FieldDef
  | .field f => [f]
  | .bitField b => b.fields

def itemDecodeString : FieldItem → Except Exn (List Slot)
  | .field f => f.decodeString
  | .bitField b => b.decodeString

def itemDecodeSlots : FieldItem → Except Exn Nat
  | .field f => f.nbDecodeSlots
  | .bitField b => b.nbDecodeSlots

/-- The bytes that a field has in every payload. -/
def fixedLength : FieldItem → Nat
  | .bitField b => b.byteLength
  | .field f =>
      match f.decodeMethod with
      | .fixedLengthNumber => if f.fieldClass = .nameField then 8 else f.byteLength
      | .fixedLengthBytes => f.byteLength
      | .variableLengthBytes => 0

/-! ## 2. Segments and runs of fields -/

/-- Numbers one behind the other, with the slots and the attributes of their
segment. A field brings as many slots as it says, over its bytes, and its
attributes have the index of the first of them. -/
inductive ValueRun : List FieldItem → List Slot → List Attribute → Prop where
  | nil : ValueRun [] [] []
  | snoc {run : List FieldItem} {slots format : List Slot} {attributes own : List Attribute}
      {fieldItem : FieldItem} (before : ValueRun run slots attributes)
      (decodeString : itemDecodeString fieldItem = .ok format)
      (decodeSlots : itemDecodeSlots fieldItem = .ok format.length)
      (length : calcsize format = fixedLength fieldItem)
      (fields : own.map Attribute.field = itemFields fieldItem)
      (fieldIndex : ∀ a ∈ own, a.fieldIndex = slots.length) :
      ValueRun (run ++ [fieldItem]) (slots ++ format) (attributes ++ own)

/-- A segment, and the fields that it is built from. -/
inductive Covers : DecodeSegment → List FieldItem → Prop where
  | valueSet {startByte : Nat} {slots : List Slot} {attributes : List Attribute}
      {run : List FieldItem} (ne : run ≠ []) (values : ValueRun run slots attributes)
      (length : calcsize slots = (run.map fixedLength).sum) :
      Covers (.valueSet startByte slots attributes) run
  | fixLength {startByte : Nat} {f : FieldDef} (method : f.decodeMethod = .fixedLengthBytes) :
      Covers (.fixLength startByte f.byteLength f) [.field f]
  | variableLength {startByte : Nat} {f : FieldDef} (method : f.decodeMethod = .variableLengthBytes) :
      Covers (.variableLength startByte f) [.field f]

/-- Every segment begins where the ones before it end. -/
def Contiguous (segments : List DecodeSegment) : Prop :=
  ∀ front segment back, segments = front ++ segment :: back → segment.startByte = staticSize front

/-- The segments follow the list, field by field and byte by byte. -/
structure Tiles (segments : List DecodeSegment) (fieldList : List FieldItem) : Prop where
  fields : ∃ runs : List (List FieldItem), runs.flatten = fieldList ∧ List.Forall₂ Covers segments runs
  contiguous : Contiguous segments
  staticSize : staticSize segments = (fieldList.map fixedLength).sum

theorem staticSize_append (segments more : List DecodeSegment) :
    staticSize (segments ++ more) = staticSize segments + staticSize more := by
  rw [staticSize, List.map_append, List.sum_append]
  rfl

theorem staticSize_singleton (segment : DecodeSegment) : staticSize [segment] = segment.length := by
  simp [staticSize]

theorem Contiguous.concat {segments : List DecodeSegment} (h : Contiguous segments)
    {segment : DecodeSegment} (hstart : segment.startByte = staticSize segments) :
    Contiguous (segments ++ [segment]) := by
  intro front s back heq
  rcases List.eq_nil_or_concat back with rfl | ⟨back, last, rfl⟩
  · obtain ⟨rfl, hs⟩ := List.append_inj' heq rfl
    rw [← (List.cons.inj hs).1]
    exact hstart
  · rw [List.concat_eq_append, ← List.cons_append, ← List.append_assoc] at heq
    exact h front s back (List.append_inj' heq rfl).1

theorem Contiguous.front {segments more : List DecodeSegment} (h : Contiguous (segments ++ more)) :
    Contiguous segments := by
  intro front segment back heq
  exact h front segment (back ++ more) (by rw [heq, List.append_assoc, List.cons_append])

/-- A segment is as long as its fields. -/
theorem Covers.length {segment : DecodeSegment} {run : List FieldItem} (h : Covers segment run) :
    segment.length = (run.map fixedLength).sum := by
  cases h with
  | valueSet ne values length => exact length
  | fixLength method => simp [DecodeSegment.length, fixedLength, method]
  | variableLength method => simp [DecodeSegment.length, fixedLength, method]

theorem staticSize_of_covers {segments : List DecodeSegment} {runs : List (List FieldItem)}
    (h : List.Forall₂ Covers segments runs) :
    staticSize segments = (runs.flatten.map fixedLength).sum := by
  induction h with
  | nil => rfl
  | @cons segment run segments runs hcovers _ ih =>
    rw [List.flatten_cons, List.map_append, List.sum_append, ← ih, ← hcovers.length]
    simp [staticSize]

/-! ## 3. One field -/

/-- The format of a number is over its bytes. -/
theorem calcsize_decodeString {f : FieldDef} {format : List Slot} (h : f.decodeString = .ok format) :
    calcsize format = fixedLength (.field f) := by
  unfold FieldDef.decodeString at h
  unfold fixedLength FieldDef.decodeMethod
  cases hclass : f.fieldClass with
  | uintField | instanceField | enumField | enumIntField =>
    simp only [hclass] at h ⊢
    split at h
    · cases h
    · exact (decodeUintStr_ok h).1
  | intField | dblField =>
    simp only [hclass] at h ⊢
    exact (decodeIntStr_ok h).1
  | udblField =>
    simp only [hclass] at h ⊢
    exact (decodeUintStr_ok h).1
  | nameField =>
    simp only [hclass] at h ⊢
    cases h
    rfl
  | varLengthStringField | fixLengthStringField | bytesField =>
    simp only [hclass] at h
    cases h

theorem ofField_ok {f : FieldDef} {decodeIndex : Nat} {a : Attribute}
    (h : Attribute.ofField f decodeIndex = .ok a) : a.field = f ∧ a.fieldIndex = decodeIndex := by
  unfold Attribute.ofField at h
  split at h
  · cases h
    exact ⟨rfl, rfl⟩
  · obtain ⟨_, -, hdone⟩ := bind_eq_ok.mp h
    cases hdone
    exact ⟨rfl, rfl⟩

theorem ofSubFields_ok {b : BitField} {decodeIndex : Nat} (subs : List BitFieldDef) :
    ∀ {i : Nat} {attributes : List Attribute},
      Attribute.ofSubFields b decodeIndex i subs = .ok attributes →
        attributes.map Attribute.field = subs.map BitFieldDef.field ∧
          ∀ a ∈ attributes, a.fieldIndex = decodeIndex := by
  induction subs with
  | nil =>
    intro i attributes h
    cases h
    simp
  | cons sub subs ih =>
    intro i attributes h
    unfold Attribute.ofSubFields at h
    split at h
    · obtain ⟨others, hothers, hdone⟩ := bind_eq_ok.mp h
      cases hdone
      obtain ⟨hfields, hindex⟩ := ih hothers
      exact ⟨congrArg _ hfields, List.forall_mem_cons.mpr ⟨rfl, hindex⟩⟩
    · obtain ⟨_, -, hrest⟩ := bind_eq_ok.mp h
      obtain ⟨others, hothers, hdone⟩ := bind_eq_ok.mp hrest
      cases hdone
      obtain ⟨hfields, hindex⟩ := ih hothers
      exact ⟨congrArg _ hfields, List.forall_mem_cons.mpr ⟨rfl, hindex⟩⟩

theorem field_subFieldsFrom (offset : Nat) (fields : List FieldDef) :
    (subFieldsFrom offset fields).map BitFieldDef.field = fields := by
  induction fields generalizing offset with
  | nil => rfl
  | cons f fields ih => rw [subFieldsFrom, List.map_cons, ih]

/-- What a number or a bit field adds to a run. -/
structure Adds (fieldItem : FieldItem) (format : List Slot) (own : Nat → Except Exn (List Attribute)) :
    Prop where
  decodeString : itemDecodeString fieldItem = .ok format
  decodeSlots : itemDecodeSlots fieldItem = .ok format.length
  length : calcsize format = fixedLength fieldItem
  attributes : ∀ decodeIndex attributes, own decodeIndex = .ok attributes →
    attributes.map Attribute.field = itemFields fieldItem ∧
      ∀ a ∈ attributes, a.fieldIndex = decodeIndex

/-- The attributes of a number or a bit field, from slot `decodeIndex` on. -/
def itemAttributes (decodeIndex : Nat) : FieldItem → Except Exn (List Attribute)
  | .field f => do return [← Attribute.ofField f decodeIndex]
  | .bitField b => Attribute.ofSubFields b decodeIndex 0 b.subFields

theorem adds_item {fieldItem : FieldItem} {format : List Slot}
    (h : itemDecodeString fieldItem = .ok format) :
    Adds fieldItem format (fun decodeIndex => itemAttributes decodeIndex fieldItem) := by
  cases fieldItem with
  | bitField b =>
    refine ⟨h, (decodeUintStr_ok h).2.1, (decodeUintStr_ok h).1, ?_⟩
    intro decodeIndex attributes hattributes
    obtain ⟨hfields, hindex⟩ := ofSubFields_ok _ hattributes
    exact ⟨hfields.trans (field_subFieldsFrom 0 b.fields), hindex⟩
  | field f =>
    refine ⟨h, FieldDef.nbDecodeSlots_of_decodeString h, calcsize_decodeString h, ?_⟩
    intro decodeIndex attributes hattributes
    obtain ⟨a, ha, hdone⟩ := bind_eq_ok.mp hattributes
    cases hdone
    obtain ⟨hfield, hindex⟩ := ofField_ok ha
    simp [itemFields, hfield, hindex]

/-- A string with a key has it checked. -/
theorem addSegment_eq {a a' : Analysis} {keyword : Option String} {segment : DecodeSegment}
    (h : (do
      if let some keyword := keyword then Attribute.checkKeyword keyword
      return a.addSegment segment : Except Exn Analysis) = .ok a') : a' = a.addSegment segment := by
  cases keyword with
  | none =>
    cases h
    rfl
  | some keyword =>
    obtain ⟨_, -, hdone⟩ := bind_eq_ok.mp h
    cases hdone
    rfl

/-- What a field does: it is added as a number, or is a segment of its own. -/
theorem analyzeField_cases {a a' : Analysis} {fieldItem : FieldItem}
    (h : a.analyzeField fieldItem = .ok a') :
    (∃ format, itemDecodeString fieldItem = .ok format ∧
      a.addNumber format (itemDecodeSlots fieldItem)
        (fun decodeIndex => itemAttributes decodeIndex fieldItem) = .ok a') ∨
    (∃ f, fieldItem = .field f ∧ f.decodeMethod = .fixedLengthBytes ∧
      a' = a.addSegment (.fixLength a.nextByte f.byteLength f)) ∨
    ∃ f, fieldItem = .field f ∧ f.decodeMethod = .variableLengthBytes ∧
      a' = a.addSegment (.variableLength a.nextByte f) := by
  cases fieldItem with
  | bitField b =>
    obtain ⟨format, hformat, hadd⟩ := bind_eq_ok.mp h
    exact .inl ⟨format, hformat, hadd⟩
  | field f =>
    unfold Analysis.analyzeField at h
    dsimp only at h
    cases hmethod : f.decodeMethod with
    | fixedLengthNumber =>
      rw [hmethod] at h
      obtain ⟨format, hformat, hadd⟩ := bind_eq_ok.mp h
      exact .inl ⟨format, hformat, hadd⟩
    | fixedLengthBytes =>
      rw [hmethod] at h
      exact .inr (.inl ⟨f, rfl, hmethod, addSegment_eq h⟩)
    | variableLengthBytes =>
      rw [hmethod] at h
      exact .inr (.inr ⟨f, rfl, hmethod, addSegment_eq h⟩)

/-! ## 4. The analysis -/

/-- The segments cover the fields so far, the one at work the last of them, and
the index counts its slots. -/
structure AnalysisInv (done : List FieldItem) (a : Analysis) : Prop where
  covers : ∃ runs run, done = runs.flatten ++ run ∧ List.Forall₂ Covers a.complete runs ∧
    match a.segment with
    | none => run = [] ∧ a.complete = []
    | some segment => Covers segment run
  contiguous : Contiguous a.segments
  decodeIndex : ∀ startByte slots attributes, a.segment = some (.valueSet startByte slots attributes) →
    a.decodeIndex = slots.length

namespace AnalysisInv

variable {done : List FieldItem} {a a' : Analysis}

theorem covers_segments (h : AnalysisInv done a) :
    ∃ runs : List (List FieldItem), runs.flatten = done ∧ List.Forall₂ Covers a.segments runs := by
  obtain ⟨runs, run, hdone, hcomplete, hsegment⟩ := h.covers
  cases hs : a.segment with
  | none =>
    rw [hs] at hsegment
    refine ⟨runs, by simp [hdone, hsegment.1], ?_⟩
    simpa [Analysis.segments, hs] using hcomplete
  | some segment =>
    rw [hs] at hsegment
    refine ⟨runs ++ [run], by simp [hdone], ?_⟩
    rw [Analysis.segments, hs]
    exact List.rel_append hcomplete (List.Forall₂.cons hsegment List.Forall₂.nil)

/-- The next byte is behind all segments. -/
theorem nextByte (h : AnalysisInv done a) : a.nextByte = staticSize a.segments := by
  obtain ⟨runs, run, hdone, hcomplete, hsegment⟩ := h.covers
  unfold Analysis.nextByte Analysis.segments
  cases hs : a.segment with
  | none =>
    rw [hs] at hsegment
    simp [hsegment.2, staticSize]
  | some segment =>
    have hstart := h.contiguous a.complete segment [] (by simp [Analysis.segments, hs])
    rw [Option.toList_some, staticSize_append, staticSize_singleton, ← hstart]

/-- A segment of its own. -/
theorem push (h : AnalysisInv done a) {segment : DecodeSegment} {run : List FieldItem}
    (hcovers : Covers segment run) (hstart : segment.startByte = a.nextByte) {decodeIndex : Nat}
    (hindex : ∀ startByte slots attributes, segment = .valueSet startByte slots attributes →
      decodeIndex = slots.length) :
    AnalysisInv (done ++ run) ⟨a.segments, some segment, decodeIndex⟩ where
  covers := by
    obtain ⟨runs, hruns, hall⟩ := h.covers_segments
    exact ⟨runs, run, by rw [hruns], hall, hcovers⟩
  contiguous := h.contiguous.concat (hstart.trans h.nextByte)
  decodeIndex := fun startByte slots attributes hs =>
    hindex startByte slots attributes (Option.some.inj hs)

/-- The value segment at work gets longer. -/
theorem extend (h : AnalysisInv done a) {startByte : Nat} {slots format : List Slot}
    {others attributes : List Attribute} {fieldItem : FieldItem}
    (hsegment : a.segment = some (.valueSet startByte slots others))
    (hcovers : ∀ run, Covers (.valueSet startByte slots others) run →
      Covers (.valueSet startByte (slots ++ format) attributes) (run ++ [fieldItem])) :
    AnalysisInv (done ++ [fieldItem])
      ⟨a.complete, some (.valueSet startByte (slots ++ format) attributes), slots.length + format.length⟩ where
  covers := by
    obtain ⟨runs, run, rfl, hcomplete, hlast⟩ := h.covers
    rw [hsegment] at hlast
    exact ⟨runs, run ++ [fieldItem], by rw [List.append_assoc], hcomplete, hcovers run hlast⟩
  contiguous := by
    have hsegments : a.segments = a.complete ++ [.valueSet startByte slots others] := by
      rw [Analysis.segments, hsegment, Option.toList_some]
    have hcontiguous := hsegments ▸ h.contiguous
    have hstart : startByte = staticSize a.complete :=
      hcontiguous a.complete (.valueSet startByte slots others) [] rfl
    exact hcontiguous.front.concat hstart
  decodeIndex := by
    intro _ _ _ heq
    cases heq
    exact List.length_append.symm

/-- A number opens a segment, or goes into the one at work. -/
theorem addNumber (h : AnalysisInv done a) {fieldItem : FieldItem} {format : List Slot}
    {own : Nat → Except Exn (List Attribute)} (hadds : Adds fieldItem format own)
    (hadd : a.addNumber format (itemDecodeSlots fieldItem) own = .ok a') :
    AnalysisInv (done ++ [fieldItem]) a' := by
  rcases addNumber_cases hadds.decodeSlots hadd with ⟨startByte, slots, others, attributes, hsegment, hattributes, rfl⟩ |
    ⟨attributes, hattributes, rfl⟩
  · obtain ⟨hfields, hindex⟩ := hadds.attributes _ _ hattributes
    rw [h.decodeIndex startByte slots others hsegment] at hindex ⊢
    refine h.extend hsegment (fun run hcovers => ?_)
    cases hcovers with
    | valueSet ne values length =>
      refine .valueSet (by simp) ?_ ?_
      · exact values.snoc hadds.decodeString hadds.decodeSlots hadds.length hfields hindex
      · simp [calcsize_append, length, hadds.length]
  · obtain ⟨hfields, hindex⟩ := hadds.attributes _ _ hattributes
    refine h.push (.valueSet (by simp) ?_ (by simp [hadds.length])) rfl ?_
    · exact ValueRun.nil.snoc hadds.decodeString hadds.decodeSlots hadds.length hfields hindex
    · intro startByte slots more heq
      cases heq
      rfl

/-- One field, whatever its kind. -/
theorem analyzeField (h : AnalysisInv done a) {fieldItem : FieldItem}
    (hfield : a.analyzeField fieldItem = .ok a') : AnalysisInv (done ++ [fieldItem]) a' := by
  rcases analyzeField_cases hfield with ⟨format, hformat, hadd⟩ | ⟨f, rfl, hmethod, rfl⟩ |
    ⟨f, rfl, hmethod, rfl⟩
  · exact h.addNumber (adds_item hformat) hadd
  · exact h.push (.fixLength hmethod) rfl (fun _ _ _ heq => by cases heq)
  · exact h.push (.variableLength hmethod) rfl (fun _ _ _ heq => by cases heq)

theorem foldlM {fieldList : List FieldItem} (h : AnalysisInv done a)
    (hfold : fieldList.foldlM Analysis.analyzeField a = .ok a') : AnalysisInv (done ++ fieldList) a' := by
  induction fieldList generalizing done a with
  | nil =>
    cases hfold
    rwa [List.append_nil]
  | cons fieldItem fieldList ih =>
    rw [List.foldlM_cons] at hfold
    obtain ⟨a₁, hfield, hrest⟩ := bind_eq_ok.mp hfold
    have hrun := ih (h.analyzeField hfield) hrest
    rwa [List.append_assoc, List.singleton_append] at hrun

theorem init : AnalysisInv [] ⟨[], none, 0⟩ where
  covers := ⟨[], [], rfl, .nil, rfl, rfl⟩
  contiguous := by
    intro front segment back heq
    cases front <;> cases heq
  decodeIndex := by
    intro _ _ _ heq
    cases heq

end AnalysisInv

theorem tiles_analyzeAttributes {fieldList : List FieldItem} {segments : List DecodeSegment}
    (h : analyzeAttributes fieldList = .ok segments) : Tiles segments fieldList := by
  unfold analyzeAttributes at h
  obtain ⟨a, hfold, hdone⟩ := bind_eq_ok.mp h
  cases hdone
  have hinv := AnalysisInv.init.foldlM hfold
  rw [List.nil_append] at hinv
  obtain ⟨runs, rfl, hcovers⟩ := hinv.covers_segments
  exact ⟨⟨runs, rfl, hcovers⟩, hinv.contiguous, staticSize_of_covers hcovers⟩

/-- **The segments of a field set follow its list**, and those of the repeated
set follow the list of that set. -/
theorem tiles_init {fieldList : List FieldItem} {repeated : Option RepeatedFieldSet} {m : FieldSetMeta}
    (h : FieldSetMeta.init fieldList repeated = .ok m) :
    Tiles m.segments fieldList ∧ ∀ r, m.repeatFieldSet = some r →
      ∃ fieldSet, repeated = some fieldSet ∧ Tiles r.segments fieldSet.fieldList := by
  unfold FieldSetMeta.init at h
  obtain ⟨segments, hsegments, h⟩ := bind_eq_ok.mp h
  have htiles := tiles_analyzeAttributes hsegments
  cases repeated with
  | none =>
    cases h
    exact ⟨htiles, fun r hr => by cases hr⟩
  | some fieldSet =>
    dsimp only at h
    obtain ⟨_, -, h⟩ := bind_eq_ok.mp h
    obtain ⟨inner, hinner, h⟩ := bind_eq_ok.mp h
    split at h
    · cases h
      refine ⟨htiles, fun r hr => ⟨fieldSet, rfl, ?_⟩⟩
      cases hr
      exact tiles_analyzeAttributes hinner
    · cases h

/-- A list as in a definition: two bits and six, a number on three bytes, and the
count of a set of names. -/
def satelliteFields : List FieldItem :=
  [.bitField ⟨0, [⟨.uintField, some "mode", 0, 2, none, none, none⟩, ⟨.uintField, none, 2, 6, none, none, none⟩]⟩,
    .field ⟨.uintField, some "time", 8, 24, none, none, none⟩,
    .field ⟨.uintField, some "count", 32, 8, none, none, none⟩]

def satelliteNames : RepeatedFieldSet :=
  ⟨"names", "count", [.field ⟨.fixLengthStringField, some "name", 0, 64, none, none, none⟩]⟩

/-- The number on three bytes has the second and the third slot of four. -/
theorem tiles_init_satelliteFields : ∃ m,
    FieldSetMeta.init satelliteFields (some satelliteNames) = .ok m ∧ staticSize m.segments = 5 ∧
      (Tiles m.segments satelliteFields ∧ ∀ r, m.repeatFieldSet = some r →
        ∃ fieldSet, some satelliteNames = some fieldSet ∧ Tiles r.segments fieldSet.fieldList) := by
  obtain ⟨m, hm⟩ : ∃ m, FieldSetMeta.init satelliteFields (some satelliteNames) = .ok m := ⟨_, rfl⟩
  refine ⟨m, hm, ?_, tiles_init hm⟩
  cases hm
  rfl

/-- An ISO name of 32 bits. -/
def shortName : FieldDef := ⟨.nameField, none, 0, 32, none, none, none⟩

/-- The segment of an ISO name of 32 bits has 8 bytes, and the name has 4. -/
theorem not_tiles_shortName : ∃ segment, analyzeAttributes [.field shortName] = .ok [segment] ∧
    segment.length = 8 ∧ shortName.byteLength = 4 :=
  ⟨_, rfl, rfl, rfl⟩

end NavigationServer.CodeGeneration
