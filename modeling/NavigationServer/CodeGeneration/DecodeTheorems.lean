/-
NavigationServer.CodeGeneration.DecodeTheorems — what the generated
`decode_payload` reads.

The lines of an attribute write one slot (`reads_scalar`, `reads_subFields`), and
the others stay. The numbers of a segment are unpacked together, so a run of them
is read item by item (`NumberRun.stores`). The analysis puts every item into one
segment (`CodesInv`); so the class reads each field from its own bits
(`decodePayload_stores`), and without a validation hook no payload of the length
raises (`decodePayload_ok`).

The way up is the same for both: a line, the lines of an attribute, those of an item, of
a run of numbers, of a segment, of the class. `Stores` is what is said on each level:
the slots of these items have their values, and no other slot is touched. It needs
keys that differ (`KeysApart`), since the generated attributes share one object.

A number of three bytes stands on two slots, and its lines put them together in
`word`. `Coded` leaves out where that goes wrong: with a sign, and in a bit
field whose first sub field is reserved, so that nobody sets `word`. A class with a
repeated set is left out too, as are strings of variable length.
-/
import NavigationServer.CodeGeneration.SegmentTheorems
import NavigationServer.Nmea2000Datamodel.DecodePgnTheorems

namespace NavigationServer.CodeGeneration

open NavigationServer.Lib NavigationServer.Nmea2000Datamodel
open BitFieldGenerator (NamedField)
open BitFieldGenerator renaming Item → ListItem

variable {F : Type} [PythonFloat F]

/-! ## 1. Lines -/

/-- The slot that a line writes. -/
def DecodeStmt.key : DecodeStmt → Option String
  | .checkValid keyword .. => some keyword
  | .checkConvertFloat keyword .. => some keyword
  | .toFloat keyword .. => some keyword
  | .copy keyword .. => some keyword
  | .bits keyword .. => some keyword
  | .setWord .. | .raiseIfInvalid .. => none

variable {vals : List Int} {word word' : Option Int} {slots slots' : Slots F}

omit [PythonFloat F] in
/-- A slot that is not set. -/
theorem Slots.set_of_ne (slots : Slots F) {keyword other : String} (h : keyword ≠ other) (v : PyValue F) :
    slots.set other v keyword = slots keyword := Function.update_of_ne h _ _

omit [PythonFloat F] in
/-- The slot that is set. -/
theorem Slots.set_self (slots : Slots F) (keyword : String) (v : PyValue F) :
    slots.set keyword v keyword = some v := Function.update_self _ _ _

/-- A line leaves the other slots. -/
theorem DecodeStmt.run_other {s : DecodeStmt} {k : String} (hk : s.key ≠ some k)
    (h : s.run vals word slots = .ok (word', slots')) : slots' k = slots k := by
  have hset : ∀ {keyword : String} {v : PyValue F}, some keyword ≠ some k →
      slots.set keyword v k = slots k := fun hne =>
    slots.set_of_ne (fun heq => hne (congrArg some heq.symm)) _
  cases s with
  | setWord i =>
    obtain ⟨low, -, h⟩ := bind_eq_ok.mp h
    obtain ⟨high, -, h⟩ := bind_eq_ok.mp h
    cases h
    rfl
  | raiseIfInvalid keyword invalid =>
    obtain ⟨v, -, h⟩ := bind_eq_ok.mp h
    dsimp only at h
    split at h
    · cases h
    · cases h
      rfl
  | checkValid | checkConvertFloat | toFloat | copy | bits =>
    obtain ⟨n, -, h⟩ := bind_eq_ok.mp h
    cases h
    exact hset hk

/-- The first line, and the others with what it left. -/
theorem runDecodeStmts_cons (vals : List Int) (word : Option Int) (slots : Slots F) (s : DecodeStmt)
    (code : List DecodeStmt) :
    runDecodeStmts vals word slots (s :: code)
      = s.run vals word slots >>= fun r => runDecodeStmts vals r.1 r.2 code := rfl

/-- Lines run one part behind the other. -/
theorem runDecodeStmts_append (vals : List Int) (code more : List DecodeStmt) (word : Option Int)
    (slots : Slots F) :
    runDecodeStmts vals word slots (code ++ more)
      = runDecodeStmts vals word slots code >>= fun r => runDecodeStmts vals r.1 r.2 more := by
  induction code generalizing word slots with
  | nil => rfl
  | cons s code ih =>
    rw [List.cons_append, runDecodeStmts_cons, runDecodeStmts_cons]
    cases s.run vals word slots with
    | error e => rfl
    | ok r => exact ih r.1 r.2

/-- When all run, the first part ran, and then the second. -/
theorem runDecodeStmts_append_ok {code more : List DecodeStmt}
    (h : runDecodeStmts vals word slots (code ++ more) = .ok (word', slots')) :
    ∃ word₁ slots₁, runDecodeStmts vals word slots code = .ok (word₁, slots₁) ∧
      runDecodeStmts vals word₁ slots₁ more = .ok (word', slots') := by
  rw [runDecodeStmts_append] at h
  obtain ⟨⟨word₁, slots₁⟩, hcode, hmore⟩ := bind_eq_ok.mp h
  exact ⟨word₁, slots₁, hcode, hmore⟩

/-- Lines that all leave a slot. -/
theorem runDecodeStmts_other {k : String} {code : List DecodeStmt} (hk : ∀ s ∈ code, s.key ≠ some k)
    (h : runDecodeStmts vals word slots code = .ok (word', slots')) : slots' k = slots k := by
  induction code generalizing word slots with
  | nil =>
    cases h
    rfl
  | cons s code ih =>
    obtain ⟨hs, hcode⟩ := List.forall_mem_cons.mp hk
    obtain ⟨⟨word₁, slots₁⟩, hrun, hrest⟩ := bind_eq_ok.mp h
    exact (ih hcode hrest).trans (DecodeStmt.run_other hs hrun)

/-! ## 2. Attributes -/

/-- A validation hook raises or does nothing. -/
theorem runDecodeStmts_hook {f : FieldDef} {keyword : String} {hook : List DecodeStmt}
    (hgen : genCheckHook f keyword = .ok hook)
    (h : runDecodeStmts vals word slots hook = .ok (word', slots')) : word' = word ∧ slots' = slots := by
  unfold genCheckHook at hgen
  split at hgen
  · cases hgen
    cases h
    exact ⟨rfl, rfl⟩
  · cases hgen
    obtain ⟨⟨word₁, slots₁⟩, hrun, hrest⟩ := bind_eq_ok.mp h
    cases hrest
    obtain ⟨v, -, hrun⟩ := bind_eq_ok.mp hrun
    dsimp only at hrun
    split at hrun
    · cases hrun
    · cases hrun
      exact ⟨rfl, rfl⟩
  · cases hgen

/-- A validation hook writes no slot. -/
theorem key_of_genCheckHook {f : FieldDef} {keyword : String} {hook : List DecodeStmt}
    (hgen : genCheckHook f keyword = .ok hook) : ∀ s ∈ hook, s.key = none := by
  unfold genCheckHook at hgen
  split at hgen
  · cases hgen
    exact fun s hs => absurd hs List.not_mem_nil
  · cases hgen
    intro s hs
    rw [List.mem_singleton.mp hs]
    rfl
  · cases hgen

/-- The slot that an attribute gets from its number. -/
def slotValue (f : FieldDef) (n : Int) : PyValue F :=
  match f.scale with
  | some scale => checkConvertFloat n f.invalidValue scale (f.offset.getD 0)
  | none => if f.pythonType = .ok .float then .float (toFloat n f.offset) else .int n

/-- `n` is in the slots from `i` on, two of which are one number. -/
def HasNumber (vals : List Int) (format : List Slot) (i : Nat) (n : Int) : Prop :=
  if format.length = 2 then
    ∃ low high, item vals i = .ok low ∧ item vals (i + 1) = .ok high ∧ n = low + high * 2 ^ 16
  else item vals i = .ok n

/-- Where the lines of an attribute take their number from. -/
def sourceOf (format : List Slot) (i : Nat) : Source := if format.length = 2 then .word else .val i

variable {format : List Slot} {i : Nat} {n : Int} {code : List DecodeStmt}

/-- A number on one slot is read from there. -/
theorem HasNumber.eval_val (h : HasNumber vals format i n) (htwo : format.length ≠ 2) :
    (sourceOf format i).eval vals word = .ok n := by
  rw [HasNumber, if_neg htwo] at h
  rw [sourceOf, if_neg htwo]
  exact h

/-- A number on two slots is read from `word`. -/
theorem eval_word (htwo : format.length = 2) : (sourceOf format i).eval vals (some n) = .ok n := by
  rw [sourceOf, if_pos htwo]
  rfl

/-- The line that puts the two slots together. -/
theorem HasNumber.setWord_ok (h : HasNumber vals format i n) (htwo : format.length = 2)
    (word : Option Int) (slots : Slots F) :
    runDecodeStmts vals word slots [.setWord i] = .ok (some n, slots) := by
  rw [HasNumber, if_pos htwo] at h
  obtain ⟨low, high, hlow, hhigh, rfl⟩ := h
  rw [runDecodeStmts_cons, DecodeStmt.run, hlow, hhigh]
  rfl

/-- The line behind `word` gives the slot its number. -/
theorem reads_scalar {f : FieldDef} {keyword : String} (hformat : f.decodeString = .ok format)
    (hgen : genDecodeAttribute none (.scalar f keyword i) = .ok code) (hn : HasNumber vals format i n)
    (hrun : runDecodeStmts vals word slots code = .ok (word', slots')) :
    slots' keyword = some (slotValue f n) := by
  obtain ⟨_, heq, hgen⟩ := bind_eq_ok.mp hgen
  cases hformat.symm.trans heq
  obtain ⟨type, htype, hgen⟩ := bind_eq_ok.mp hgen
  obtain ⟨hook, hhook, hdone⟩ := bind_eq_ok.mp hgen
  cases hdone
  obtain ⟨word₁, slots₁, hfirst, hrest⟩ := runDecodeStmts_append_ok hrun
  obtain ⟨⟨word₂, slots₂⟩, hvalue, hlast⟩ := bind_eq_ok.mp hrest
  obtain ⟨-, rfl⟩ := runDecodeStmts_hook hhook hlast
  have hsource : (sourceOf format i).eval vals word₁ = .ok n := by
    by_cases htwo : format.length = 2
    · rw [if_pos htwo, hn.setWord_ok htwo] at hfirst
      cases hfirst
      exact eval_word htwo
    · exact hn.eval_val htwo
  unfold slotValue
  rw [if_neg (by simp)] at hvalue
  cases hscale : f.scale with
  | some scale =>
    rw [hscale] at hvalue
    obtain ⟨m, hm, hdone⟩ := bind_eq_ok.mp hvalue
    cases hsource.symm.trans hm
    cases hdone
    exact slots₁.set_self _ _
  | none =>
    rw [hscale] at hvalue
    dsimp only at hvalue ⊢
    by_cases hfloat : type = .float
    · rw [if_pos hfloat] at hvalue
      obtain ⟨m, hm, hdone⟩ := bind_eq_ok.mp hvalue
      cases hsource.symm.trans hm
      cases hdone
      rw [if_pos (by rw [htype, hfloat])]
      exact slots₁.set_self _ _
    · rw [if_neg hfloat] at hvalue
      obtain ⟨m, hm, hdone⟩ := bind_eq_ok.mp hvalue
      cases hsource.symm.trans hm
      cases hdone
      rw [if_neg (fun heq => hfloat (Except.ok.inj (htype.symm.trans heq)))]
      exact slots₁.set_self _ _

/-- The lines of an attribute write no other slot. -/
theorem key_of_genDecodeAttribute {a : Attribute} (hgen : genDecodeAttribute none a = .ok code) :
    ∀ s ∈ code, ∀ k, s.key = some k → a.keyword = some k := by
  have hnil : ∀ {k : String} {hook : List DecodeStmt} {f : FieldDef} {keyword : String},
      genCheckHook f keyword = .ok hook → ∀ s ∈ hook, s.key = some k → False := by
    intro k hook f keyword hhook s hs hk
    rw [key_of_genCheckHook hhook s hs] at hk
    cases hk
  intro s hs k hk
  cases a with
  | reserved | reservedBitField =>
    cases hgen
    cases hs
  | scalar f keyword fieldIndex =>
    obtain ⟨format, -, hgen⟩ := bind_eq_ok.mp hgen
    obtain ⟨type, -, hgen⟩ := bind_eq_ok.mp hgen
    obtain ⟨hook, hhook, hdone⟩ := bind_eq_ok.mp hgen
    cases hdone
    rcases List.mem_append.mp hs with hs | hs
    · split at hs
      · rw [List.mem_singleton.mp hs] at hk
        cases hk
      · cases hs
    · rcases List.mem_cons.mp hs with rfl | hs
      · rw [if_neg (by simp)] at hk
        split at hk
        · exact hk
        · split at hk
          · exact hk
          · exact hk
      · exact (hnil hhook s hs hk).elim
  | bitField b sub keyword subFieldIndex fieldIndex =>
    obtain ⟨format, -, hgen⟩ := bind_eq_ok.mp hgen
    obtain ⟨hook, hhook, hdone⟩ := bind_eq_ok.mp hgen
    cases hdone
    rcases List.mem_append.mp hs with hs | hs
    · split at hs
      · rw [List.mem_singleton.mp hs] at hk
        cases hk
      · cases hs
    · rcases List.mem_cons.mp hs with rfl | hs
      · exact hk
      · exact (hnil hhook s hs hk).elim

/-- So for the lines of several attributes. -/
theorem key_of_mapM {attributes : List Attribute} {codes : List (List DecodeStmt)}
    (hgen : attributes.mapM (genDecodeAttribute none) = .ok codes) :
    ∀ s ∈ codes.flatten, ∀ k, s.key = some k → ∃ a ∈ attributes, a.keyword = some k := by
  intro s hs k hk
  obtain ⟨code, hcode, hs⟩ := List.mem_flatten.mp hs
  obtain ⟨a, ha, hgen⟩ := exists_of_mem_mapM hgen code hcode
  exact ⟨a, ha, key_of_genDecodeAttribute hgen s hs k hk⟩

/-- The key of an attribute is that of its field. -/
theorem keyword_subFieldAttr (b : BitField) (sub : BitFieldDef) (subFieldIndex fieldIndex : Nat) :
    (subFieldAttr b sub subFieldIndex fieldIndex).keyword = sub.field.keyword := by
  unfold subFieldAttr
  cases h : sub.field.keyword <;> rfl

/-- And for those of a bit field. -/
theorem keyword_of_ofSubFields {b : BitField} {subs : List BitFieldDef} {index : Nat}
    {attributes : List Attribute} (h : Attribute.ofSubFields b i index subs = .ok attributes) :
    ∀ a ∈ attributes, ∀ k, a.keyword = some k → ∃ sub ∈ subs, sub.field.keyword = some k := by
  induction subs generalizing index attributes with
  | nil =>
    cases h
    exact fun a ha => absurd ha List.not_mem_nil
  | cons sub subs ih =>
    obtain ⟨others, hothers, rfl⟩ := ofSubFields_cons h
    intro a ha k hk
    rcases List.mem_cons.mp ha with rfl | ha
    · exact ⟨sub, List.mem_cons_self, (keyword_subFieldAttr b sub index i).symm.trans hk⟩
    · obtain ⟨sub', hmem, hk⟩ := ih hothers a ha k hk
      exact ⟨sub', List.mem_cons_of_mem _ hmem, hk⟩

/-! ## 3. Bit fields -/

/-- The line of a sub field. `word` is there before the second one, if the first
one has a key. -/
theorem reads_subField {b : BitField} {sub : BitFieldDef} {index : Nat} {keyword : String}
    (hformat : b.decodeString = .ok format)
    (hgen : genDecodeAttribute none (.bitField b sub keyword index i) = .ok code)
    (hn : HasNumber vals format i n) (hword : format.length = 2 → word = some n ∨ index = 0)
    (hrun : runDecodeStmts vals word slots code = .ok (word', slots')) :
    slots' keyword = some (.int (n / 2 ^ sub.bitOffset % 2 ^ sub.field.bitLength)) ∧
      (format.length = 2 → word' = some n) := by
  obtain ⟨_, heq, hgen⟩ := bind_eq_ok.mp hgen
  cases hformat.symm.trans heq
  obtain ⟨hook, hhook, hdone⟩ := bind_eq_ok.mp hgen
  cases hdone
  obtain ⟨word₁, slots₁, hfirst, hrest⟩ := runDecodeStmts_append_ok hrun
  obtain ⟨⟨word₂, slots₂⟩, hbits, hlast⟩ := bind_eq_ok.mp hrest
  obtain ⟨rfl, rfl⟩ := runDecodeStmts_hook hhook hlast
  -- the first sub field sets `word`, and the others find it
  have hready : format.length = 2 → word₁ = some n := by
    intro htwo
    by_cases hindex : index = 0
    · rw [if_pos ⟨htwo, hindex⟩, hn.setWord_ok htwo] at hfirst
      cases hfirst
      rfl
    · rw [if_neg (fun hboth => hindex hboth.2)] at hfirst
      cases hfirst
      exact (hword htwo).resolve_right hindex
  have hsource : (sourceOf format i).eval vals word₁ = .ok n := by
    by_cases htwo : format.length = 2
    · rw [hready htwo]
      exact eval_word htwo
    · exact hn.eval_val htwo
  obtain ⟨m, hm, hdone⟩ := bind_eq_ok.mp hbits
  cases hsource.symm.trans hm
  cases hdone
  exact ⟨slots₁.set_self _ _, hready⟩

/-- The lines of a bit field, sub field by sub field. -/
theorem reads_subFields {b : BitField} {subs : List BitFieldDef} {index : Nat}
    {attributes : List Attribute} {codes : List (List DecodeStmt)} (hformat : b.decodeString = .ok format)
    (hattributes : Attribute.ofSubFields b i index subs = .ok attributes)
    (hgen : attributes.mapM (genDecodeAttribute none) = .ok codes) (hn : HasNumber vals format i n)
    (hword : format.length = 2 →
      word = some n ∨ index = 0 ∧ ∀ sub ∈ subs.head?, sub.field.keyword ≠ none)
    (hrun : runDecodeStmts vals word slots codes.flatten = .ok (word', slots'))
    (hkeys : subs.Pairwise (fun s t => s.field.keyword = t.field.keyword → s.field.keyword = none)) :
    ∀ sub ∈ subs, ∀ k, sub.field.keyword = some k →
      slots' k = some (.int (n / 2 ^ sub.bitOffset % 2 ^ sub.field.bitLength)) := by
  induction subs generalizing index attributes codes word slots with
  | nil => exact fun sub hsub => absurd hsub List.not_mem_nil
  | cons sub subs ih =>
    obtain ⟨others, hothers, rfl⟩ := ofSubFields_cons hattributes
    obtain ⟨code, rest, hcode, hrest, rfl⟩ := mapM_cons_eq_ok hgen
    rw [List.flatten_cons] at hrun
    obtain ⟨word₁, slots₁, hfirst, hlast⟩ := runDecodeStmts_append_ok hrun
    obtain ⟨hapart, hkeys⟩ := List.pairwise_cons.mp hkeys
    cases hkeyword : sub.field.keyword with
    | none =>
      have hattr : subFieldAttr b sub index i = .reservedBitField b sub index i := by
        simp only [subFieldAttr, hkeyword]
      rw [hattr] at hcode
      cases hcode
      cases hfirst
      -- a reserved sub field has no line: it is not the first one, if `word` is needed
      have hready : format.length = 2 → word = some n := by
        intro htwo
        rcases hword htwo with hword | ⟨-, hhead⟩
        · exact hword
        · exact absurd hkeyword (hhead sub rfl)
      intro sub' hsub' k hk
      rcases List.mem_cons.mp hsub' with rfl | hsub'
      · rw [hkeyword] at hk
        cases hk
      · exact ih hothers hrest (fun htwo => .inl (hready htwo)) hlast hkeys sub' hsub' k hk
    | some keyword =>
      have hattr : subFieldAttr b sub index i = .bitField b sub keyword index i := by
        simp only [subFieldAttr, hkeyword]
      rw [hattr] at hcode
      obtain ⟨hvalue, hready⟩ := reads_subField hformat hcode hn
        (fun htwo => (hword htwo).imp id (fun hboth => hboth.1)) hfirst
      intro sub' hsub' k hk
      rcases List.mem_cons.mp hsub' with rfl | hsub'
      -- the sub fields behind it have other keys
      · cases hkeyword.symm.trans hk
        rw [runDecodeStmts_other ?_ hlast, hvalue]
        intro s hs hkey
        obtain ⟨a, ha, hak⟩ := key_of_mapM hrest s hs keyword hkey
        obtain ⟨other, hother, hok⟩ := keyword_of_ofSubFields hothers a ha keyword hak
        rw [hapart other hother (hkeyword.trans hok.symm)] at hkeyword
        cases hkeyword
      · exact ih hothers hrest (fun htwo => .inl (hready htwo)) hlast hkeys sub' hsub' k hk

/-! ## 4. Numbers -/

/-- The slots without a sign that `unpack` returns hold the number of the bytes. -/
theorem hasNumber_uint {length : Nat} (hformat : decodeUintStr length = .ok format) (front back : List Int)
    {data : Bytes} (hdata : length ≤ data.length) :
    HasNumber (front ++ (readSlots format data ++ back)) format front.length
      ((ofLE (data.take length) : Nat) : Int) := by
  unfold decodeUintStr at hformat
  split at hformat
  case h_3 =>
    cases hformat
    have hsplit := ofLE_append (data.take 2) ((data.drop 2).take 1)
    have htake : data.take 2 ++ (data.drop 2).take 1 = data.take 3 := (List.take_add (i := 2) (j := 1)).symm
    rw [htake, List.length_take_of_le (by omega)] at hsplit
    refine (if_pos rfl).mpr ⟨(ofLE (data.take 2) : Nat), (ofLE ((data.drop 2).take 1) : Nat),
      item_append front _ _, item_append_add front _ 1, ?_⟩
    rw [hsplit]
    push_cast
    ring
  case h_6 => cases hformat
  all_goals
    cases hformat
    exact (if_neg (by decide)).mpr (item_append front _ _)

/-- Only a number of three bytes is on two slots. -/
theorem length_of_decodeUintStr {length : Nat} (hformat : decodeUintStr length = .ok format)
    (htwo : format.length = 2) : length = 3 := by
  unfold decodeUintStr at hformat
  split at hformat
  case h_3 => rfl
  case h_6 => cases hformat
  all_goals
    cases hformat
    cases htwo

/-- A slot with a sign holds the number with its sign, but for the one of three
bytes. -/
theorem hasNumber_int {length : Nat} (hformat : decodeIntStr length = .ok format) (hthree : length ≠ 3)
    (front back : List Int) (data : Bytes) :
    HasNumber (front ++ (readSlots format data ++ back)) format front.length
      (ofUnsigned length (ofLE (data.take length))) := by
  unfold decodeIntStr at hformat
  split at hformat
  case h_3 => exact absurd rfl hthree
  case h_6 => cases hformat
  all_goals
    cases hformat
    exact (if_neg (by decide)).mpr (item_append front _ _)

/-- The format of a number that fills bytes. -/
theorem decodeString_whole {f : NamedField} (h : f.Whole) (hnumber : f.isNumber = true) :
    f.definition.decodeString = if f.definition.signed then decodeIntStr f.definition.byteLength
      else decodeUintStr f.definition.byteLength := by
  have hbit : f.definition.isBitValue = false := h.bitValue
  unfold NamedField.isNumber at hnumber
  unfold FieldDef.decodeString FieldDef.signed
  cases hclass : f.definition.fieldClass with
  | varLengthStringField | fixLengthStringField | nameField | bytesField =>
    rw [hclass] at hnumber
    cases hnumber
  | _ => simp [hbit]

/-- The number of a field that fills bytes is on its slots, unless it has three bytes and a sign:
then the low slot is read with a sign too. -/
theorem hasNumber_whole {f : NamedField} (h : f.Whole) (hnumber : f.isNumber = true)
    (hthree : f.definition.signed = true → f.definition.byteLength ≠ 3)
    (hformat : f.definition.decodeString = .ok format) (front back : List Int) {data : Bytes}
    (hroom : f.definition.startByte + f.definition.byteLength ≤ data.length) :
    HasNumber (front ++ (readSlots format (data.drop f.definition.startByte) ++ back)) format front.length
      (f.number data) := by
  rw [decodeString_whole h hnumber] at hformat
  rw [NamedField.number, h.bits_eq]
  cases hsigned : f.definition.signed with
  | true =>
    rw [if_pos hsigned] at hformat
    exact hasNumber_int hformat (hthree hsigned) front back _
  | false =>
    rw [if_neg (by simp [hsigned])] at hformat
    exact hasNumber_uint hformat front back (by rw [List.length_drop]; omega)

/-! ## 5. One item -/

/-- What the class reads for a field, from its own bits. -/
def generatedValue (printable : Char → Bool) (f : NamedField) (data : Bytes) : PyValue F :=
  if f.isBitValue then .int (f.bits data)
  else if f.definition.fieldClass = .fixLengthStringField then .str (cleanString printable (f.bytes data))
  else slotValue f.definition (f.number data)

/-- The lines of the item read its number: it is no number of three bytes with a
sign, and no bit field of three bytes whose first field has no key. -/
def Coded : ListItem → Prop
  | .field f => f.definition.signed = true → f.definition.byteLength ≠ 3
  | .bitField b => b.byteLength = 3 → ∀ s ∈ b.fields.head?, s.field.definition.keyword ≠ none

/-- No two fields have the same key. -/
def KeysApart (fields : List NamedField) : Prop :=
  fields.Pairwise (fun f g => f.definition.keyword = g.definition.keyword → f.definition.keyword = none)

instance (fields : List NamedField) : Decidable (KeysApart fields) :=
  inferInstanceAs (Decidable (fields.Pairwise _))

/-- What the lines for these items do to the slots. -/
structure Stores (printable : Char → Bool) (data : Bytes) (items : List ListItem) (slots slots' : Slots F) :
    Prop where
  others : ∀ k, (∀ f ∈ items.flatMap ListItem.fields, f.definition.keyword ≠ some k) → slots' k = slots k
  reads : ∀ i ∈ items, Coded i → ∀ f ∈ i.fields, ∀ k, f.definition.keyword = some k →
    slots' k = some (generatedValue printable f data)

variable {printable : Char → Bool} {data : Bytes}

/-- No line is run. -/
theorem Stores.nil (printable : Char → Bool) (data : Bytes) (slots : Slots F) :
    Stores printable data [] slots slots :=
  ⟨fun _ _ => rfl, fun _ hi => absurd hi List.not_mem_nil⟩

/-- Lines behind others: what the first ones read stays, for the keys of the second are
other ones. -/
theorem Stores.append {items more : List ListItem} {a b c : Slots F} (h : Stores printable data items a b)
    (h' : Stores printable data more b c) (hkeys : KeysApart ((items ++ more).flatMap ListItem.fields)) :
    Stores printable data (items ++ more) a c := by
  rw [List.flatMap_append] at hkeys
  have hbetween := (List.pairwise_append.mp hkeys).2.2
  refine ⟨?_, ?_⟩
  · intro k hk
    rw [List.flatMap_append] at hk
    rw [h'.others k (fun f hf => hk f (List.mem_append_right _ hf)),
      h.others k (fun f hf => hk f (List.mem_append_left _ hf))]
  · intro i hi hcoded f hf k hk
    rcases List.mem_append.mp hi with hi | hi
    · rw [h'.others k ?_, h.reads i hi hcoded f hf k hk]
      intro g hg hgk
      have hnone := hbetween f (List.mem_flatMap.mpr ⟨i, hi, hf⟩) g hg (hk.trans hgk.symm)
      rw [hk] at hnone
      cases hnone
    · exact h'.reads i hi hcoded f hf k hk

/-- A field without a key is reserved, and has no line. -/
theorem keyword_of_ofField {f : FieldDef} {decodeIndex : Nat} {a : Attribute}
    (h : Attribute.ofField f decodeIndex = .ok a) :
    a = match f.keyword with
      | none => .reserved f decodeIndex
      | some keyword => .scalar f keyword decodeIndex := by
  unfold Attribute.ofField at h
  cases hkeyword : f.keyword with
  | none =>
    rw [hkeyword] at h
    cases h
    rfl
  | some keyword =>
    rw [hkeyword] at h
    obtain ⟨_, -, hdone⟩ := bind_eq_ok.mp h
    cases hdone
    rfl

/-- **The lines of a number.** -/
theorem stores_field {f : NamedField} (h : f.Whole) (hnumber : f.isNumber = true)
    (hformat : f.definition.decodeString = .ok format) {front back : List Int} {attributes : List Attribute}
    {codes : List (List DecodeStmt)}
    (hattributes : itemAttributes front.length (.field f.definition) = .ok attributes)
    (hgen : attributes.mapM (genDecodeAttribute none) = .ok codes)
    (hroom : f.definition.startByte + f.definition.byteLength ≤ data.length)
    (hrun : runDecodeStmts (front ++ (readSlots format (data.drop f.definition.startByte) ++ back)) word
      slots codes.flatten = .ok (word', slots')) :
    Stores printable data [.field f] slots slots' := by
  obtain ⟨a, ha, hdone⟩ := bind_eq_ok.mp hattributes
  cases hdone
  obtain ⟨code, rest, hcode, hrest, rfl⟩ := mapM_cons_eq_ok hgen
  obtain rfl : rest = [] := by
    cases hrest
    rfl
  rw [List.flatten_cons, List.flatten_nil, List.append_nil] at hrun
  have hattr := keyword_of_ofField ha
  refine ⟨?_, ?_⟩
  · intro k hk
    refine runDecodeStmts_other ?_ hrun
    intro s hs hkey
    have hkeyword := key_of_genDecodeAttribute hcode s hs k hkey
    have hne := hk f (by simp [ListItem.fields])
    subst hattr
    cases hf : f.definition.keyword with
    | none =>
      rw [hf] at hkeyword
      cases hkeyword
    | some keyword =>
      rw [hf] at hkeyword hne
      exact hne hkeyword
  · intro i hi hcoded g hg k hk
    cases List.mem_singleton.mp hi
    cases List.mem_singleton.mp hg
    subst hattr
    rw [hk] at hcode
    have hstring : f.definition.fieldClass ≠ .fixLengthStringField := by
      intro hclass
      rw [NamedField.isNumber, hclass] at hnumber
      cases hnumber
    rw [generatedValue, if_neg (by simp [h.bitValue]), if_neg hstring]
    exact reads_scalar hformat hcode (hasNumber_whole h hnumber hcoded hformat front back hroom) hrun

/-- A bit field of the decoder, as one of the generator. -/
theorem erased_spec {b : BitFieldGenerator.BitField} (h : (ListItem.bitField b).Readable) :
    b.erased.subFields = b.fields.map (fun s => ⟨s.field.definition, s.relOffset⟩) ∧
      b.erased.decodeString = decodeUintStr b.byteLength := by
  obtain ⟨⟨stretch, hmade, hglobal⟩, hfinalized, hstruct⟩ := h
  have hreads : b.Reads := hmade.reads hfinalized (fun _ => ?_) hglobal
  · obtain ⟨hsubFields, hlength, -⟩ := hreads.erased hfinalized
    exact ⟨hsubFields, by rw [Nmea2000Datamodel.BitField.decodeString, hlength]⟩
  · rwa [BitFieldGenerator.byteLength, ← hmade.bitLength, ← hfinalized.byteLength, ← hfinalized.struct]

/-- **The lines of a bit field.** -/
theorem stores_bitField {b : BitFieldGenerator.BitField} (h : (ListItem.bitField b).Readable)
    (hformat : b.erased.decodeString = .ok format) {front back : List Int} {attributes : List Attribute}
    {codes : List (List DecodeStmt)}
    (hattributes : itemAttributes front.length (.bitField b.erased) = .ok attributes)
    (hgen : attributes.mapM (genDecodeAttribute none) = .ok codes)
    (hroom : b.startByte + b.byteLength ≤ data.length) (hkeys : KeysApart (ListItem.bitField b).fields)
    (hrun : runDecodeStmts (front ++ (readSlots format (data.drop b.startByte) ++ back)) word slots
      codes.flatten = .ok (word', slots')) :
    Stores printable data [.bitField b] slots slots' := by
  obtain ⟨hsubFields, hstring⟩ := erased_spec h
  obtain ⟨⟨stretch, hmade, -⟩, hfinalized, -⟩ := h
  have hlong : b.byteLength ≤ (data.drop b.startByte).length := by
    rw [List.length_drop]
    omega
  have hnumber := hasNumber_uint (hstring.symm.trans hformat) front back hlong
  rw [itemAttributes, hsubFields] at hattributes
  refine ⟨?_, ?_⟩
  · intro k hk
    refine runDecodeStmts_other ?_ hrun
    intro s hs hkey
    obtain ⟨a, ha, hak⟩ := key_of_mapM hgen s hs k hkey
    obtain ⟨sub, hsub, hsubk⟩ := keyword_of_ofSubFields hattributes a ha k hak
    obtain ⟨s', hs', rfl⟩ := List.mem_map.mp hsub
    exact hk s'.field (by simpa [ListItem.fields] using ⟨s', hs', rfl⟩) hsubk
  · intro i hi hcoded f hf k hk
    cases List.mem_singleton.mp hi
    obtain ⟨s, hs, rfl⟩ := List.mem_map.mp hf
    have hapart : (b.fields.map (fun s => (⟨s.field.definition, s.relOffset⟩ : BitFieldDef))).Pairwise
        (fun s t => s.field.keyword = t.field.keyword → s.field.keyword = none) :=
      List.pairwise_map.mpr (List.pairwise_map.mp hkeys)
    have hreads := reads_subFields hformat hattributes hgen hnumber ?_ hrun hapart
      ⟨s.field.definition, s.relOffset⟩ (List.mem_map_of_mem hs) k hk
    · have hend := hmade.end_le hs
      have hbits : ofLE ((data.drop b.startByte).take b.byteLength) / 2 ^ s.relOffset % 2 ^ s.field.bitLength
          = s.field.bits data := by
        rw [BitFieldGenerator.extract_word (by rw [hfinalized.byteLength]; omega), hmade.relOffset s hs]
        rfl
      rw [hreads, generatedValue, if_pos (hmade.bitValues s.field (hmade.fields ▸ List.mem_map_of_mem hs)),
        ← hbits]
      push_cast
      rfl
    · intro htwo
      have hthree := length_of_decodeUintStr (hstring.symm.trans hformat) htwo
      refine .inr ⟨rfl, ?_⟩
      intro sub hsub
      rw [List.head?_map] at hsub
      obtain ⟨s', hs', rfl⟩ := Option.map_eq_some_iff.mp hsub
      exact hcoded hthree s' hs'

/-! ## 6. Runs and segments -/

/-- Numbers and bit fields one behind the other, with the slots and the attributes
of their segment. -/
inductive NumberRun : List ListItem → List Slot → List Attribute → Prop where
  | nil : NumberRun [] [] []
  | snoc {run : List ListItem} {slots format : List Slot} {attributes own : List Attribute} {i : ListItem}
      (before : NumberRun run slots attributes) (decodeString : itemDecodeString i.erased = .ok format)
      (itemAttributes : itemAttributes slots.length i.erased = .ok own) :
      NumberRun (run ++ [i]) (slots ++ format) (attributes ++ own)

/-- A format gives a number for each of its slots. -/
theorem length_readSlots (format : List Slot) (data : Bytes) :
    (readSlots format data).length = format.length := by
  induction format generalizing data with
  | nil => rfl
  | cons s format ih => rw [readSlots, List.length_cons, List.length_cons, ih]

/-- The second format reads behind the bytes of the first. -/
theorem readSlots_append (format more : List Slot) (data : Bytes) :
    readSlots (format ++ more) data = readSlots format data ++ readSlots more (data.drop (calcsize format)) := by
  induction format generalizing data with
  | nil => simp [readSlots, calcsize]
  | cons s format ih =>
    rw [List.cons_append, readSlots, readSlots, List.cons_append, ih, calcsize_cons, List.drop_drop]

/-- Items one behind the other, in two parts. -/
theorem placedFrom_append {start : Nat} {items more : List ListItem} :
    PlacedFrom start (items ++ more) ↔
      PlacedFrom start items ∧ PlacedFrom (start + (items.map ListItem.byteLength).sum) more := by
  induction items generalizing start with
  | nil => simp [PlacedFrom]
  | cons i items ih =>
    rw [List.cons_append, PlacedFrom, PlacedFrom, ih, List.map_cons, List.sum_cons, and_assoc, Nat.add_assoc]

/-- A string has no slots. -/
theorem isNumber_of_decodeString {f : NamedField} (h : f.Whole)
    (hformat : f.definition.decodeString = .ok format) : f.isNumber = true := by
  rcases h.kind with ⟨hnumber, -⟩ | ⟨hclass, -⟩
  · exact hnumber
  · rw [FieldDef.decodeString, hclass] at hformat
    cases hformat

/-- A number of the list is as long as its slots. -/
theorem calcsize_itemDecodeString {i : ListItem} (h : i.Readable)
    (hformat : itemDecodeString i.erased = .ok format) : calcsize format = i.byteLength := by
  cases i with
  | field f =>
    have hstring : f.definition.decodeString = .ok format := hformat
    rw [decodeString_whole h (isNumber_of_decodeString h hstring)] at hstring
    split at hstring
    · exact (decodeIntStr_ok hstring).1
    · exact (decodeUintStr_ok hstring).1
  | bitField b =>
    have hstring : b.erased.decodeString = .ok format := hformat
    rw [(erased_spec h).2] at hstring
    exact (decodeUintStr_ok hstring).1

/-- A list in two parts is worked through part by part. -/
theorem mapM_append_eq_ok {α β ε : Type} {f : α → Except ε β} {l more : List α} {result : List β}
    (h : (l ++ more).mapM f = .ok result) :
    ∃ front back, l.mapM f = .ok front ∧ more.mapM f = .ok back ∧ result = front ++ back := by
  rw [List.mapM_append] at h
  obtain ⟨front, hfront, h⟩ := bind_eq_ok.mp h
  obtain ⟨back, hback, hdone⟩ := bind_eq_ok.mp h
  cases hdone
  exact ⟨front, back, hfront, hback, rfl⟩

/-- **The lines of an item.** -/
theorem stores_item {i : ListItem} (h : i.Readable) (hformat : itemDecodeString i.erased = .ok format)
    {front back : List Int} {attributes : List Attribute} {codes : List (List DecodeStmt)}
    (hattributes : itemAttributes front.length i.erased = .ok attributes)
    (hgen : attributes.mapM (genDecodeAttribute none) = .ok codes)
    (hroom : i.startByte + i.byteLength ≤ data.length) (hkeys : KeysApart i.fields)
    (hrun : runDecodeStmts (front ++ (readSlots format (data.drop i.startByte) ++ back)) word slots
      codes.flatten = .ok (word', slots')) :
    Stores printable data [i] slots slots' := by
  cases i with
  | field f =>
    exact stores_field h (isNumber_of_decodeString h hformat) hformat hattributes hgen hroom hrun
  | bitField b => exact stores_bitField h hformat hattributes hgen hroom hkeys hrun

/-- The format of a run is as long as its items. -/
theorem NumberRun.calcsize_eq {run : List ListItem} {slotFormat : List Slot} {attributes : List Attribute}
    (h : NumberRun run slotFormat attributes) (hreadable : ∀ i ∈ run, i.Readable) :
    calcsize slotFormat = (run.map ListItem.byteLength).sum := by
  induction h with
  | nil => rfl
  | @snoc run slotFormat format attributes own i before decodeString itemAttributes ih =>
    have hi := hreadable i (by simp)
    rw [calcsize_append, ih (fun j hj => hreadable j (List.mem_append_left _ hj)),
      calcsize_itemDecodeString hi decodeString]
    simp

/-- **The lines of a run**, by induction on its items. -/
theorem NumberRun.stores {run : List ListItem} {slotFormat : List Slot} {attributes : List Attribute}
    (h : NumberRun run slotFormat attributes) {start : Nat} {codes : List (List DecodeStmt)}
    (hreadable : ∀ i ∈ run, i.Readable) (hplaced : PlacedFrom start run)
    (hkeys : KeysApart (run.flatMap ListItem.fields))
    (hgen : attributes.mapM (genDecodeAttribute none) = .ok codes)
    (hroom : start + (run.map ListItem.byteLength).sum ≤ data.length) {back : List Int}
    (hrun : runDecodeStmts (readSlots slotFormat (data.drop start) ++ back) word slots codes.flatten
      = .ok (word', slots')) :
    Stores printable data run slots slots' := by
  induction h generalizing codes back word' slots' with
  | nil =>
    cases hgen
    cases hrun
    exact Stores.nil printable data slots
  | @snoc run slotFormat format attributes own i before decodeString itemAttributes ih =>
    obtain ⟨codes, ownCodes, hfront, hback, rfl⟩ := mapM_append_eq_ok hgen
    obtain ⟨hplaced, hlast⟩ := placedFrom_append.mp hplaced
    have hi := hreadable i (by simp)
    have hsum : ((run ++ [i]).map ListItem.byteLength).sum = (run.map ListItem.byteLength).sum + i.byteLength := by
      simp
    rw [hsum] at hroom
    rw [List.flatten_append] at hrun
    obtain ⟨word₁, slots₁, hfirst, hsecond⟩ := runDecodeStmts_append_ok hrun
    rw [readSlots_append, List.append_assoc] at hfirst hsecond
    have hkeys' := hkeys
    rw [List.flatMap_append, List.flatMap_singleton] at hkeys'
    obtain ⟨hkeysRun, hkeysItem, -⟩ := List.pairwise_append.mp hkeys'
    have hrun : ∀ j ∈ run, j.Readable := fun j hj => hreadable j (List.mem_append_left _ hj)
    have hsize := before.calcsize_eq hrun
    -- the item begins where the slots before it end
    have hstores := ih hrun hplaced hkeysRun hfront (by omega) hfirst
    have hstart : i.startByte = start + calcsize slotFormat := by rw [hsize]; exact hlast.1
    rw [List.drop_drop, ← hstart] at hsecond
    rw [← length_readSlots slotFormat (data.drop start)] at itemAttributes
    have hitem : Stores printable data [i] slots₁ slots' :=
      stores_item hi decodeString itemAttributes hback (by rw [hstart, hsize]; omega) hkeysItem hsecond
    exact hstores.append hitem hkeys

/-- A segment, with the lines of its items. -/
inductive Codes : DecodeSegment → List ListItem → Prop where
  | valueSet {startByte : Nat} {slots : List Slot} {attributes : List Attribute} {run : List ListItem}
      (numbers : NumberRun run slots attributes) : Codes (.valueSet startByte slots attributes) run
  | fixLength {startByte : Nat} {f : NamedField} (fieldClass : f.definition.fieldClass = .fixLengthStringField) :
      Codes (.fixLength startByte f.definition.byteLength f.definition) [.field f]

/-- A segment moves on by the bytes of its items. -/
theorem Codes.startByte_eq {segment : DecodeSegment} {run : List ListItem} (h : Codes segment run)
    {step : DecodeStep} {st st' : DecodeState F} (hreadable : ∀ i ∈ run, i.Readable)
    (hgen : genDecodeSegment none segment = .ok step) (hrun : step.run printable data st = .ok st') :
    st'.startByte = st.startByte + (run.map ListItem.byteLength).sum := by
  cases h with
  | @valueSet startByte slots attributes _ numbers =>
    obtain ⟨codes, -, hdone⟩ := bind_eq_ok.mp hgen
    cases hdone
    unfold DecodeStep.run at hrun
    dsimp only at hrun
    split at hrun
    · cases hrun
    · obtain ⟨r, -, hdone⟩ := bind_eq_ok.mp hrun
      cases hdone
      rw [← numbers.calcsize_eq hreadable]
  | @fixLength startByte f _ =>
    unfold genDecodeSegment at hgen
    dsimp only at hgen
    split at hgen
    · cases hgen
    · obtain ⟨type, -, hdone⟩ := bind_eq_ok.mp hgen
      cases hdone
      cases hrun
      simp [ListItem.byteLength]

/-- **What a segment reads.** -/
theorem Codes.stores {segment : DecodeSegment} {run : List ListItem} (h : Codes segment run)
    {step : DecodeStep} {st st' : DecodeState F} (hreadable : ∀ i ∈ run, i.Readable)
    (hplaced : PlacedFrom st.startByte run) (hkeys : KeysApart (run.flatMap ListItem.fields))
    (hroom : st.startByte + (run.map ListItem.byteLength).sum ≤ data.length)
    (hgen : genDecodeSegment none segment = .ok step) (hrun : step.run printable data st = .ok st') :
    Stores printable data run st.slots st'.slots := by
  cases h with
  | @valueSet startByte slots attributes _ numbers =>
    obtain ⟨codes, hcodes, hdone⟩ := bind_eq_ok.mp hgen
    cases hdone
    unfold DecodeStep.run at hrun
    dsimp only at hrun
    split at hrun
    · cases hrun
    · rename_i vals hvals
      obtain ⟨⟨word', slots'⟩, hlines, hdone⟩ := bind_eq_ok.mp hrun
      cases hdone
      obtain ⟨-, rfl⟩ : _ ∧ readSlots slots (data.drop st.startByte) = vals := by
        unfold unpackFrom at hvals
        split at hvals
        · exact ⟨‹_›, Option.some.inj hvals⟩
        · cases hvals
      rw [← List.append_nil (readSlots slots _)] at hlines
      exact numbers.stores hreadable hplaced hkeys hcodes hroom hlines
  | @fixLength startByte f hclass =>
    unfold genDecodeSegment at hgen
    dsimp only at hgen
    cases hkeyword : f.definition.keyword with
    | none =>
      rw [hkeyword] at hgen
      cases hgen
    | some keyword =>
      rw [hkeyword] at hgen
      obtain ⟨type, -, hdone⟩ := bind_eq_ok.mp hgen
      cases hdone
      cases hrun
      have hstart : f.definition.startByte = st.startByte := hplaced.1
      refine ⟨?_, ?_⟩
      · intro k hk
        refine st.slots.set_of_ne (fun heq => hk f (by simp [ListItem.fields]) ?_) _
        rw [heq]
        exact hkeyword
      · intro i hi _ g hg k hk
        cases List.mem_singleton.mp hi
        cases List.mem_singleton.mp hg
        cases hkeyword.symm.trans hk
        have hbit : f.isBitValue = false := (hreadable (.field f) (by simp) : f.Whole).bitValue
        rw [generatedValue, if_neg (by simp [hbit]), if_pos hclass, ← hstart, NamedField.slice_eq]
        exact st.slots.set_self _ _

/-- **What the segments read**, by induction: each begins where the one before it ended. -/
theorem stores_runDecode {segments : List DecodeSegment} {runs : List (List ListItem)}
    (h : List.Forall₂ Codes segments runs) {steps : List DecodeStep} {st st' : DecodeState F}
    (hreadable : ∀ i ∈ runs.flatten, i.Readable) (hplaced : PlacedFrom st.startByte runs.flatten)
    (hkeys : KeysApart (runs.flatten.flatMap ListItem.fields))
    (hroom : st.startByte + (runs.flatten.map ListItem.byteLength).sum ≤ data.length)
    (hgen : segments.mapM (genDecodeSegment none) = .ok steps)
    (hrun : runDecode printable data st steps = .ok st') :
    Stores printable data runs.flatten st.slots st'.slots := by
  induction h generalizing steps st with
  | nil =>
    cases hgen
    cases hrun
    exact Stores.nil printable data _
  | @cons segment run segments runs hcodes _ ih =>
    obtain ⟨step, rest, hstep, hrest, rfl⟩ := mapM_cons_eq_ok hgen
    obtain ⟨st₁, hfirst, hlast⟩ := bind_eq_ok.mp hrun
    rw [List.flatten_cons] at hreadable hplaced hkeys hroom ⊢
    rw [List.map_append, List.sum_append] at hroom
    obtain ⟨hhere, hthere⟩ := placedFrom_append.mp hplaced
    have hkeys' := hkeys
    rw [List.flatMap_append] at hkeys'
    obtain ⟨hkeysRun, hkeysRest, -⟩ := List.pairwise_append.mp hkeys'
    have hrunReadable : ∀ i ∈ run, i.Readable := fun i hi => hreadable i (List.mem_append_left _ hi)
    have hstart := hcodes.startByte_eq hrunReadable hstep hfirst
    have hstores : Stores printable data run st.slots st₁.slots :=
      hcodes.stores hrunReadable hhere hkeysRun (by omega) hstep hfirst
    rw [← hstart] at hthere
    exact hstores.append (ih (fun i hi => hreadable i (List.mem_append_right _ hi)) hthere hkeysRest
      (by omega) hrest hlast) hkeys

/-! ## 7. The analysis -/

/-- A field of the list that is no number is a string of fixed length. -/
theorem class_of_decodeMethod {f : NamedField} (h : (ListItem.field f).Readable)
    (hmethod : f.definition.decodeMethod ≠ .fixedLengthNumber) :
    f.definition.fieldClass = .fixLengthStringField := by
  rcases (h : f.Whole).kind with ⟨hnumber, -⟩ | ⟨hclass, -⟩
  · unfold NamedField.isNumber at hnumber
    unfold FieldDef.decodeMethod at hmethod
    cases hclass : f.definition.fieldClass <;> rw [hclass] at hnumber hmethod
    all_goals first
      | exact absurd rfl hmethod
      | cases hnumber
  · exact hclass

/-- What stands for the last one is the last. -/
theorem exists_of_forall₂_concat {α β : Type} {R : α → β → Prop} {as : List α} {a : α} {bs : List β}
    (h : List.Forall₂ R (as ++ [a]) bs) : ∃ front b, bs = front ++ [b] ∧ List.Forall₂ R as front ∧ R a b := by
  induction as generalizing bs with
  | nil =>
    obtain ⟨b, back, hb, hback, rfl⟩ := List.forall₂_cons_left_iff.mp h
    cases hback
    exact ⟨[], b, rfl, .nil, hb⟩
  | cons a' as ih =>
    obtain ⟨b', back, hb', hback, rfl⟩ := List.forall₂_cons_left_iff.mp h
    obtain ⟨front, b, rfl, hfront, hb⟩ := ih hback
    exact ⟨b' :: front, b, rfl, .cons hb' hfront, hb⟩

/-- The segments have the lines of the items so far, the one at work those of the
last of them. -/
structure CodesInv (done : List ListItem) (a : Analysis) : Prop where
  codes : ∃ runs : List (List ListItem), runs.flatten = done ∧ List.Forall₂ Codes a.segments runs
  decodeIndex : ∀ startByte slots attributes, a.segment = some (.valueSet startByte slots attributes) →
    a.decodeIndex = slots.length

namespace CodesInv

variable {done : List ListItem} {a a' : Analysis}

/-- No item yet. -/
theorem init : CodesInv [] ⟨[], none, 0⟩ :=
  ⟨⟨[], rfl, .nil⟩, fun _ _ _ heq => by cases heq⟩

/-- A segment of its own. -/
theorem push (h : CodesInv done a) {segment : DecodeSegment} {run : List ListItem} (hcodes : Codes segment run)
    {decodeIndex : Nat} (hindex : ∀ startByte slots attributes,
      segment = .valueSet startByte slots attributes → decodeIndex = slots.length) :
    CodesInv (done ++ run) ⟨a.segments, some segment, decodeIndex⟩ := by
  obtain ⟨runs, rfl, hall⟩ := h.codes
  refine ⟨⟨runs ++ [run], by simp, List.rel_append hall (.cons hcodes .nil)⟩, ?_⟩
  intro startByte slots attributes hs
  exact hindex startByte slots attributes (Option.some.inj hs)

/-- A number goes to the end of the value set at work, whose index is the number of slots
so far, or begins a new one. -/
theorem addNumber (h : CodesInv done a) {i : ListItem} (hformat : itemDecodeString i.erased = .ok format)
    (hadd : a.addNumber format (itemDecodeSlots i.erased)
      (fun decodeIndex => itemAttributes decodeIndex i.erased) = .ok a') :
    CodesInv (done ++ [i]) a' := by
  rcases addNumber_cases (adds_item hformat).decodeSlots hadd with ⟨startByte, slots, others, own, hsegment, hown, rfl⟩ | ⟨own, hown, rfl⟩
  · obtain ⟨runs, hruns, hall⟩ := h.codes
    rw [h.decodeIndex startByte slots others hsegment] at hown ⊢
    rw [Analysis.segments, hsegment, Option.toList_some] at hall
    obtain ⟨front, run, rfl, hfront, hlast⟩ := exists_of_forall₂_concat hall
    cases hlast with
    | valueSet numbers =>
      refine ⟨⟨front ++ [run ++ [i]], by simp [← hruns], ?_⟩, ?_⟩
      · exact List.rel_append hfront (.cons (.valueSet (numbers.snoc hformat hown)) .nil)
      · intro _ _ _ heq
        cases heq
        exact List.length_append.symm
  · refine h.push (.valueSet (NumberRun.nil.snoc hformat hown)) ?_
    intro startByte slots attributes heq
    cases heq
    rfl

/-- A string of fixed length is a segment of its own, and there is no other. -/
theorem analyzeField (h : CodesInv done a) {i : ListItem} (hreadable : i.Readable)
    (hfield : a.analyzeField i.erased = .ok a') : CodesInv (done ++ [i]) a' := by
  rcases analyzeField_cases hfield with ⟨format, hformat, hadd⟩ | ⟨d, heq, hmethod, rfl⟩ |
    ⟨d, heq, hmethod, rfl⟩
  · exact h.addNumber hformat hadd
  · cases i with
    | bitField b => cases heq
    | field f =>
      cases heq
      have hclass := class_of_decodeMethod hreadable (by rw [hmethod]; decide)
      exact h.push (.fixLength hclass) (fun _ _ _ heq => by cases heq)
  · cases i with
    | bitField b => cases heq
    | field f =>
      cases heq
      have hclass := class_of_decodeMethod hreadable (by rw [hmethod]; decide)
      rw [FieldDef.decodeMethod, hclass] at hmethod
      cases hmethod

/-- All items. -/
theorem foldlM {items : List ListItem} (h : CodesInv done a) (hreadable : ∀ i ∈ items, i.Readable)
    (hfold : (items.map ListItem.erased).foldlM Analysis.analyzeField a = .ok a') :
    CodesInv (done ++ items) a' := by
  induction items generalizing done a with
  | nil =>
    cases hfold
    rwa [List.append_nil]
  | cons i items ih =>
    rw [List.map_cons, List.foldlM_cons] at hfold
    obtain ⟨a₁, hfield, hrest⟩ := bind_eq_ok.mp hfold
    obtain ⟨hi, hitems⟩ := List.forall_mem_cons.mp hreadable
    have hrun := ih (h.analyzeField hi hfield) hitems hrest
    rwa [List.append_assoc, List.singleton_append] at hrun

end CodesInv

/-- **The analysis** puts every item into one segment, in order. -/
theorem codes_analyzeAttributes {items : List ListItem} (hreadable : ∀ i ∈ items, i.Readable)
    {segments : List DecodeSegment} (h : analyzeAttributes (items.map ListItem.erased) = .ok segments) :
    ∃ runs : List (List ListItem), runs.flatten = items ∧ List.Forall₂ Codes segments runs := by
  obtain ⟨a, hfold, hdone⟩ := bind_eq_ok.mp h
  cases hdone
  exact (CodesInv.init.foldlM hreadable hfold).codes

/-! ## 8. No exception -/

/-- Without a hook there is no line for it. -/
theorem genCheckHook_none {f : FieldDef} {keyword : String} {hook : List DecodeStmt}
    (hnone : f.validationHook = none) (hgen : genCheckHook f keyword = .ok hook) : hook = [] := by
  rw [genCheckHook, hnone] at hgen
  exact (Except.ok.inj hgen).symm

/-- Where a line takes its number from. -/
def DecodeStmt.source : DecodeStmt → Option Source
  | .checkValid _ source .. | .checkConvertFloat _ source .. | .toFloat _ source _ | .copy _ source
  | .bits _ source .. => some source
  | .setWord _ | .raiseIfInvalid .. => none

/-- A line whose number is there ends. -/
theorem DecodeStmt.run_of_source {s : DecodeStmt} {source : Source} (hs : s.source = some source)
    (heval : source.eval vals word = .ok n) (slots : Slots F) :
    ∃ slots', s.run vals word slots = .ok (word, slots') := by
  cases s with
  | setWord | raiseIfInvalid => cases hs
  | checkValid | checkConvertFloat | toFloat | copy | bits =>
    cases hs
    rw [DecodeStmt.run, heval]
    exact ⟨_, rfl⟩

/-- A line behind `word`, where the number needs it. -/
theorem HasNumber.runs {p : Prop} [Decidable p] {s : DecodeStmt} (h : HasNumber vals format i n)
    (hs : s.source = some (sourceOf format i)) (hsets : p → format.length = 2)
    (hword : format.length = 2 → ¬ p → word = some n) (slots : Slots F) :
    ∃ word' slots', runDecodeStmts vals word slots ((if p then [.setWord i] else []) ++ [s])
        = .ok (word', slots') ∧ (format.length = 2 → word' = some n) := by
  obtain ⟨word₁, hfirst, hready⟩ : ∃ word₁, runDecodeStmts vals word slots
      (if p then [.setWord i] else []) = .ok (word₁, slots) ∧ (format.length = 2 → word₁ = some n) := by
    by_cases hp : p
    · rw [if_pos hp]
      exact ⟨some n, h.setWord_ok (hsets hp) word slots, fun _ => rfl⟩
    · rw [if_neg hp]
      exact ⟨word, rfl, fun htwo => hword htwo hp⟩
  have hsource : (sourceOf format i).eval vals word₁ = .ok n := by
    by_cases htwo : format.length = 2
    · rw [hready htwo]
      exact eval_word htwo
    · exact h.eval_val htwo
  obtain ⟨slots', hrun⟩ := DecodeStmt.run_of_source hs hsource slots
  refine ⟨word₁, slots', ?_, hready⟩
  rw [runDecodeStmts_append, hfirst]
  change runDecodeStmts vals word₁ slots [s] = _
  rw [runDecodeStmts_cons, hrun]
  rfl

/-- The lines of a number end, if it has no validation hook. -/
theorem runs_scalar {f : FieldDef} {keyword : String} (hhook : f.validationHook = none)
    (hformat : f.decodeString = .ok format)
    (hgen : genDecodeAttribute none (.scalar f keyword i) = .ok code) (hn : HasNumber vals format i n)
    (word : Option Int) (slots : Slots F) : ∃ r, runDecodeStmts vals word slots code = .ok r := by
  obtain ⟨_, heq, hgen⟩ := bind_eq_ok.mp hgen
  cases hformat.symm.trans heq
  obtain ⟨type, -, hgen⟩ := bind_eq_ok.mp hgen
  obtain ⟨hook, hgenHook, hdone⟩ := bind_eq_ok.mp hgen
  cases hdone
  cases genCheckHook_none hhook hgenHook
  have hline : ∀ value : DecodeStmt, value.source = some (sourceOf format i) → ∃ r, runDecodeStmts vals
      word slots ((if format.length = 2 then [.setWord i] else []) ++ [value]) = .ok r := by
    intro value hvalue
    obtain ⟨word', slots', hrun, -⟩ := hn.runs hvalue id (fun htwo h => absurd htwo h) slots
    exact ⟨_, hrun⟩
  refine hline _ ?_
  rw [if_neg (by simp)]
  cases f.scale with
  | some scale => rfl
  | none =>
    dsimp only
    split <;> rfl

/-- The lines of a bit field end, sub field by sub field. -/
theorem runs_subFields {b : BitField} {subs : List BitFieldDef} {index : Nat}
    {attributes : List Attribute} {codes : List (List DecodeStmt)}
    (hhooks : ∀ sub ∈ subs, sub.field.validationHook = none) (hformat : b.decodeString = .ok format)
    (hattributes : Attribute.ofSubFields b i index subs = .ok attributes)
    (hgen : attributes.mapM (genDecodeAttribute none) = .ok codes) (hn : HasNumber vals format i n)
    (hword : format.length = 2 →
      word = some n ∨ index = 0 ∧ ∀ sub ∈ subs.head?, sub.field.keyword ≠ none) :
    ∃ r, runDecodeStmts vals word slots codes.flatten = .ok r := by
  induction subs generalizing index attributes codes word slots with
  | nil =>
    cases hattributes
    cases hgen
    exact ⟨_, rfl⟩
  | cons sub subs ih =>
    obtain ⟨others, hothers, rfl⟩ := ofSubFields_cons hattributes
    obtain ⟨code, rest, hcode, hrest, rfl⟩ := mapM_cons_eq_ok hgen
    obtain ⟨hhook, hhooks⟩ := List.forall_mem_cons.mp hhooks
    rw [List.flatten_cons, runDecodeStmts_append]
    obtain ⟨word₁, slots₁, hrun, hready⟩ : ∃ word₁ slots₁, runDecodeStmts vals word slots code
        = .ok (word₁, slots₁) ∧ (format.length = 2 → word₁ = some n) := by
      unfold subFieldAttr at hcode
      cases hkeyword : sub.field.keyword with
      | none =>
        rw [hkeyword] at hcode
        cases hcode
        refine ⟨word, slots, rfl, fun htwo => (hword htwo).resolve_right ?_⟩
        rintro ⟨-, hhead⟩
        exact hhead sub rfl hkeyword
      | some keyword =>
        rw [hkeyword] at hcode
        obtain ⟨_, heq, hcode⟩ := bind_eq_ok.mp hcode
        cases hformat.symm.trans heq
        obtain ⟨hook, hgenHook, hdone⟩ := bind_eq_ok.mp hcode
        cases hdone
        cases genCheckHook_none hhook hgenHook
        refine hn.runs rfl (fun hboth => hboth.1) (fun htwo hnot => ?_) slots
        exact (hword htwo).resolve_right (fun hboth => hnot ⟨htwo, hboth.1⟩)
    rw [hrun]
    exact ih hhooks hothers hrest (fun htwo => .inl (hready htwo))

/-- The slots of a number hold one. -/
theorem exists_hasNumber (front back : List Int) {values : List Int} (hformat : format ≠ [])
    (hvalues : values.length = format.length) :
    ∃ n, HasNumber (front ++ (values ++ back)) format front.length n := by
  unfold HasNumber
  split
  · rename_i htwo
    obtain ⟨low, high, rfl⟩ := List.length_eq_two.mp (hvalues.trans htwo)
    exact ⟨_, low, high, item_append front _ _, item_append_add front _ 1, rfl⟩
  · cases values with
    | nil => exact absurd (List.length_eq_zero_iff.mp hvalues.symm) hformat
    | cons x values => exact ⟨x, item_append front _ _⟩

/-- No field of the item has a validation hook, and the lines of a bit field have
the word they read. -/
def Ends : ListItem → Prop
  | .field f => f.definition.validationHook = none
  | .bitField b => (∀ s ∈ b.fields, s.field.definition.validationHook = none) ∧ Coded (.bitField b)

instance : DecidablePred Ends
  | .field f => inferInstanceAs (Decidable (f.definition.validationHook = none))
  | .bitField b => inferInstanceAs (Decidable ((∀ s ∈ b.fields, s.field.definition.validationHook = none) ∧
      (b.byteLength = 3 → ∀ s ∈ b.fields.head?, s.field.definition.keyword ≠ none)))

/-- The lines of an item end. -/
theorem runs_item {i : ListItem} (h : i.Readable) (hends : Ends i)
    (hformat : itemDecodeString i.erased = .ok format) {front values back : List Int}
    {attributes : List Attribute} {codes : List (List DecodeStmt)}
    (hattributes : itemAttributes front.length i.erased = .ok attributes)
    (hgen : attributes.mapM (genDecodeAttribute none) = .ok codes)
    (hvalues : values.length = format.length) (word : Option Int) (slots : Slots F) :
    ∃ r, runDecodeStmts (front ++ (values ++ back)) word slots codes.flatten = .ok r := by
  cases i with
  | field f =>
    obtain ⟨n, hn⟩ := exists_hasNumber front back (decodeString_ne_nil hformat) hvalues
    obtain ⟨a, ha, hdone⟩ := bind_eq_ok.mp hattributes
    cases hdone
    obtain ⟨code, rest, hcode, hrest, rfl⟩ := mapM_cons_eq_ok hgen
    obtain rfl : rest = [] := by
      cases hrest
      rfl
    rw [List.flatten_cons, List.flatten_nil, List.append_nil]
    have hattr := keyword_of_ofField ha
    cases hkeyword : f.definition.keyword with
    | none =>
      rw [hkeyword] at hattr
      cases hattr
      cases hcode
      exact ⟨_, rfl⟩
    | some keyword =>
      rw [hkeyword] at hattr
      cases hattr
      exact runs_scalar hends hformat hcode hn word slots
  | bitField b =>
    obtain ⟨hsubFields, hstring⟩ := erased_spec h
    have hformat : b.erased.decodeString = .ok format := hformat
    have hattributes : itemAttributes front.length (.bitField b.erased) = .ok attributes := hattributes
    have huint := hstring.symm.trans hformat
    obtain ⟨n, hn⟩ := exists_hasNumber front back (decodeUintStr_ne_nil huint) hvalues
    rw [itemAttributes, hsubFields] at hattributes
    refine runs_subFields ?_ hformat hattributes hgen hn (fun htwo => .inr ⟨rfl, ?_⟩)
    · intro sub hsub
      obtain ⟨s, hs, rfl⟩ := List.mem_map.mp hsub
      exact hends.1 s hs
    · intro sub hsub
      rw [List.head?_map] at hsub
      obtain ⟨s, hs, rfl⟩ := Option.map_eq_some_iff.mp hsub
      exact hends.2 (length_of_decodeUintStr huint htwo) s hs

/-- The lines of a run end, by induction on its items. -/
theorem NumberRun.runs {run : List ListItem} {slotFormat : List Slot} {attributes : List Attribute}
    (h : NumberRun run slotFormat attributes) {codes : List (List DecodeStmt)}
    (hreadable : ∀ i ∈ run, i.Readable) (hends : ∀ i ∈ run, Ends i)
    (hgen : attributes.mapM (genDecodeAttribute none) = .ok codes) {values : List Int}
    (hvalues : values.length = slotFormat.length) (back : List Int) (word : Option Int) (slots : Slots F) :
    ∃ r, runDecodeStmts (values ++ back) word slots codes.flatten = .ok r := by
  induction h generalizing codes values back with
  | nil =>
    cases hgen
    exact ⟨_, rfl⟩
  | @snoc run slotFormat format attributes own i before decodeString itemAttributes ih =>
    obtain ⟨codes, ownCodes, hfront, hback, rfl⟩ := mapM_append_eq_ok hgen
    rw [List.length_append] at hvalues
    have hlength : (values.take slotFormat.length).length = slotFormat.length := by
      rw [List.length_take]
      omega
    obtain ⟨⟨word₁, slots₁⟩, hfirst⟩ := ih (fun j hj => hreadable j (List.mem_append_left _ hj))
      (fun j hj => hends j (List.mem_append_left _ hj)) hfront hlength
      (values.drop slotFormat.length ++ back)
    rw [← hlength] at itemAttributes
    have hown : (values.drop slotFormat.length).length = format.length := by
      rw [List.length_drop]
      omega
    obtain ⟨r, hsecond⟩ : ∃ r, runDecodeStmts (values.take slotFormat.length ++
        (values.drop slotFormat.length ++ back)) word₁ slots₁ ownCodes.flatten = .ok r :=
      runs_item (hreadable i (by simp)) (hends i (by simp)) decodeString itemAttributes hback hown word₁ slots₁
    rw [← List.append_assoc, List.take_append_drop] at hfirst hsecond
    rw [List.flatten_append, runDecodeStmts_append, hfirst]
    exact ⟨r, hsecond⟩

/-- A segment ends, where the payload has its bytes. -/
theorem Codes.runs {segment : DecodeSegment} {run : List ListItem} (h : Codes segment run)
    {step : DecodeStep} {st : DecodeState F} (hreadable : ∀ i ∈ run, i.Readable)
    (hends : ∀ i ∈ run, Ends i) (hroom : st.startByte + (run.map ListItem.byteLength).sum ≤ data.length)
    (hgen : genDecodeSegment none segment = .ok step) : ∃ st', step.run printable data st = .ok st' := by
  cases h with
  | @valueSet startByte slots attributes _ numbers =>
    obtain ⟨codes, hcodes, hdone⟩ := bind_eq_ok.mp hgen
    cases hdone
    have hvals : unpackFrom slots data st.startByte = some (readSlots slots (data.drop st.startByte)) :=
      if_pos (by rw [numbers.calcsize_eq hreadable]; exact hroom)
    obtain ⟨r, hrun⟩ := numbers.runs hreadable hends hcodes (length_readSlots slots _) [] st.word st.slots
    rw [List.append_nil] at hrun
    rw [DecodeStep.run, hvals]
    dsimp only
    rw [hrun]
    exact ⟨_, rfl⟩
  | fixLength =>
    unfold genDecodeSegment at hgen
    dsimp only at hgen
    split at hgen
    · cases hgen
    · obtain ⟨type, -, hdone⟩ := bind_eq_ok.mp hgen
      cases hdone
      exact ⟨_, rfl⟩

/-- All segments end. -/
theorem runs_runDecode {segments : List DecodeSegment} {runs : List (List ListItem)}
    (h : List.Forall₂ Codes segments runs) {steps : List DecodeStep} {st : DecodeState F}
    (hreadable : ∀ i ∈ runs.flatten, i.Readable) (hends : ∀ i ∈ runs.flatten, Ends i)
    (hroom : st.startByte + (runs.flatten.map ListItem.byteLength).sum ≤ data.length)
    (hgen : segments.mapM (genDecodeSegment none) = .ok steps) :
    ∃ st', runDecode printable data st steps = .ok st' := by
  induction h generalizing steps st with
  | nil =>
    cases hgen
    exact ⟨st, rfl⟩
  | @cons segment run segments runs hcodes _ ih =>
    obtain ⟨step, rest, hstep, hrest, rfl⟩ := mapM_cons_eq_ok hgen
    rw [List.flatten_cons] at hreadable hends hroom
    rw [List.map_append, List.sum_append] at hroom
    have hrun : ∀ i ∈ run, i.Readable := fun i hi => hreadable i (List.mem_append_left _ hi)
    have hhere : st.startByte + (run.map ListItem.byteLength).sum ≤ data.length := by omega
    obtain ⟨st₁, hfirst⟩ : ∃ st₁, step.run printable data st = .ok st₁ :=
      hcodes.runs hrun (fun i hi => hends i (List.mem_append_left _ hi)) hhere hstep
    have hstart := hcodes.startByte_eq hrun hstep hfirst
    have hthere : st₁.startByte + (runs.flatten.map ListItem.byteLength).sum ≤ data.length := by omega
    obtain ⟨st', hlast⟩ := ih (fun i hi => hreadable i (List.mem_append_right _ hi))
      (fun i hi => hends i (List.mem_append_right _ hi)) hthere hrest
    refine ⟨st', ?_⟩
    rw [runDecode, hfirst]
    exact hlast

/-! ## 9. The class -/

/-- The `decode_payload` of a class without a repeated set. -/
theorem genClass_decode {d : NMEA2000Meta} {c : GeneratedClass} (h : genClass d = .ok c)
    (hrepeated : d.fields.repeatFieldSet = none) :
    c.repeated = none ∧ d.fields.segments.mapM (genDecodeSegment none) = .ok c.codec.decode := by
  unfold genClass at h
  rw [hrepeated] at h
  obtain ⟨_, heq, h⟩ := bind_eq_ok.mp h
  cases heq
  obtain ⟨codec, hcodec, hdone⟩ := bind_eq_ok.mp h
  cases hdone
  refine ⟨rfl, ?_⟩
  unfold genCodec at hcodec
  dsimp only at hcodec
  split at hcodec
  · cases hcodec
  · obtain ⟨decode, hdecode, hcodec⟩ := bind_eq_ok.mp hcodec
    split at hcodec
    · cases hcodec
      exact hdecode
    · obtain ⟨encode, -, hdone⟩ := bind_eq_ok.mp hcodec
      cases hdone
      exact hdecode

/-- **What the class of a definition of fixed length reads.** -/
theorem decodePayload_stores {fieldList : List NamedField} {items : List ListItem}
    (hlayout : Layout fieldList items) (hkeys : KeysApart fieldList)
    (hdata : data.length = BitFieldGenerator.byteLength fieldList) {d : NMEA2000Meta} {c : GeneratedClass}
    (hmeta : FieldSetMeta.init (items.map ListItem.erased) none = .ok d.fields) (hclass : genClass d = .ok c)
    {o : Obj F} (hdecode : c.decodePayload printable data = .ok o) :
    Stores printable data items (fun _ => none) o.slots := by
  obtain ⟨segments, hsegments, hdone⟩ := bind_eq_ok.mp hmeta
  obtain ⟨runs, rfl, hcodes⟩ := codes_analyzeAttributes hlayout.readable hsegments
  have hfields : d.fields = ⟨segments, none⟩ := (Except.ok.inj hdone).symm
  obtain ⟨hrepeated, hgen⟩ := genClass_decode hclass (by rw [hfields])
  rw [hfields] at hgen
  unfold GeneratedClass.decodePayload at hdecode
  rw [hrepeated] at hdecode
  obtain ⟨st, hrun, hdone⟩ := bind_eq_ok.mp hdecode
  cases hdone
  exact stores_runDecode hcodes hlayout.readable hlayout.placed (by rwa [hlayout.order])
    (by rw [hlayout.length, hdata, Nat.zero_add]) hgen hrun

/-- **The class decodes every payload of the length**, if it has no validation hook. -/
theorem decodePayload_ok {fieldList : List NamedField} {items : List ListItem}
    (hlayout : Layout fieldList items) (hends : ∀ i ∈ items, Ends i)
    (hdata : data.length = BitFieldGenerator.byteLength fieldList) {d : NMEA2000Meta} {c : GeneratedClass}
    (hmeta : FieldSetMeta.init (items.map ListItem.erased) none = .ok d.fields) (hclass : genClass d = .ok c) :
    ∃ o : Obj F, c.decodePayload printable data = .ok o := by
  obtain ⟨segments, hsegments, hdone⟩ := bind_eq_ok.mp hmeta
  obtain ⟨runs, rfl, hcodes⟩ := codes_analyzeAttributes hlayout.readable hsegments
  have hfields : d.fields = ⟨segments, none⟩ := (Except.ok.inj hdone).symm
  obtain ⟨hrepeated, hgen⟩ := genClass_decode hclass (by rw [hfields])
  rw [hfields] at hgen
  have hroom : 0 + (runs.flatten.map ListItem.byteLength).sum ≤ data.length := by
    rw [hlayout.length, hdata, Nat.zero_add]
  obtain ⟨st, hrun⟩ : ∃ st : DecodeState F, runDecode printable data ⟨0, none, fun _ => none⟩ c.codec.decode = .ok st :=
    runs_runDecode hcodes hlayout.readable hends hroom hgen
  unfold GeneratedClass.decodePayload
  rw [hrepeated]
  dsimp only
  rw [hrun]
  exact ⟨_, rfl⟩

end NavigationServer.CodeGeneration
