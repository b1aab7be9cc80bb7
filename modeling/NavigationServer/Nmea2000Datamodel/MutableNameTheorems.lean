/-
NavigationServer.Nmea2000Datamodel.MutableNameTheorems — the NAME, field by
field.

`mutableName_fields`: the number gives back each field that was given, and
`modify_parameters` changes the fields named by the pairs it accepts, and no
other. The fields lie apart in the number (`packedFields_apart`), so what is
written into one is not seen in another.
-/
import NavigationServer.Lib.BitFields
import NavigationServer.Lib.Lists
import NavigationServer.Nmea2000Datamodel.MutableName

namespace NavigationServer.Nmea2000Datamodel

open NavigationServer.Lib

/-! ## 1. The fields in the number -/

/-- The bits of a field. -/
def NameField.bits (f : NameField) : PackedField := ⟨f.bitSize, f.bitOffset⟩

theorem NameField.extractField_eq (f : NameField) (value : Nat) :
    f.extractField value = f.bits.extract value := rfl

theorem packedFields_apart : packedFields.Pairwise fun f g => f.bits.Apart g.bits := by decide

theorem packedFields_end : ∀ f ∈ packedFields, f.bits.offset + f.bits.size ≤ 64 := by decide

namespace NMEA2000MutableName

/-- A dictionary without the whole value is packed field by field. -/
theorem intValue_eq {dict : NMEA2000MutableName} (h : dict.lookup "name_value" = none) :
    dict.intValue
      = packedFields.foldl (PackedField.addValue NameField.bits fun f => dict.lookup f.name) 0 := by
  have hsplit : nameFields = packedFields ++ [nameValueField] := rfl
  have hlast : ∀ value, dict.addField value nameValueField = value := by
    intro value
    rw [addField, nameValueField, h]
  have hfun : dict.addField = PackedField.addValue NameField.bits fun f => dict.lookup f.name := by
    funext value f
    rw [addField, PackedField.addValue]
    rfl
  rw [intValue, hsplit, List.foldl_append, List.foldl_cons, List.foldl_nil, hlast, hfun]

/-- **The number gives back each field**, as far as it holds the value. -/
theorem extractField_intValue {dict : NMEA2000MutableName} (h : dict.lookup "name_value" = none)
    {f : NameField} (hf : f ∈ packedFields) :
    f.extractField dict.intValue = (dict.lookup f.name).getD 0 % 2 ^ f.bitSize := by
  rw [NameField.extractField_eq, intValue_eq h]
  exact PackedField.extract_foldl _ _ packedFields_apart hf (PackedField.extract_zero _)

theorem intValue_lt {dict : NMEA2000MutableName} (h : dict.lookup "name_value" = none) :
    dict.intValue < 2 ^ 64 := by
  rw [intValue_eq h]
  exact PackedField.foldl_addValue_lt _ _ packedFields_end (Nat.two_pow_pos _)

end NMEA2000MutableName

namespace MutableName

/-! ## 2. What holds of every NAME -/

/-- The number and the bytes are those of the dictionary, which has no entry for
the whole value. -/
structure Sound (m : MutableName) : Prop where
  value : m.value = m.valueDict.intValue
  bytes : m.bytes = toLE 8 m.value
  noValue : m.valueDict.lookup "name_value" = none

theorem sound_buildValue {dict : NMEA2000MutableName} (h : dict.lookup "name_value" = none) :
    (buildValue dict).Sound := ⟨rfl, rfl, h⟩

/-- The bytes are the number, the lowest byte first. -/
theorem Sound.ofLE_bytes {m : MutableName} (h : m.Sound) : ofLE m.bytes = m.value := by
  have hlt := NMEA2000MutableName.intValue_lt h.noValue
  rw [h.bytes, ofLE_toLE, h.value]
  exact Nat.mod_eq_of_lt hlt

theorem Sound.extractField {m : MutableName} (h : m.Sound) {f : NameField}
    (hf : f ∈ packedFields) :
    f.extractField m.value = (m.valueDict.lookup f.name).getD 0 % 2 ^ f.bitSize := by
  rw [h.value]
  exact NMEA2000MutableName.extractField_intValue h.noValue hf

/-- The name of a field finds the field. -/
theorem getattr_eq (m : MutableName) {f : NameField} (hf : f ∈ packedFields) :
    m.getattr f.name = .ok (f.extractField m.value) := by
  have hfind : nameFields.find? (fun g => g.name = f.name) = some f := by
    revert f
    decide
  rw [getattr, hfind]

/-! ## 3. A new NAME -/

/-- The values given are within the widths of their fields, and the whole value
is not among them. -/
structure WithinWidths (kwargs : AList (fun _ : String => Nat)) : Prop where
  noValue : kwargs.lookup "name_value" = none
  width : ∀ f ∈ packedFields, ∀ x ∈ kwargs.lookup f.name, x ≤ f.mask

/-- What `__init__` keeps of the arguments. -/
theorem lookup_foldl_insert {key : String} (hkey : knownField key)
    (entries : List (Sigma fun _ : String => Nat)) (hnodup : entries.NodupKeys)
    (dict : NMEA2000MutableName) :
    (entries.foldl (fun dict entry =>
        if knownField entry.1 then dict.insert entry.1 entry.2 else dict) dict).lookup key
      = (entries.dlookup key).or (dict.lookup key) := by
  induction entries generalizing dict with
  | nil => rfl
  | cons e entries ih =>
    obtain ⟨hnot, hnodup⟩ := List.nodupKeys_cons.mp hnodup
    rw [List.foldl_cons, ih hnodup]
    obtain ⟨k, x⟩ := e
    by_cases hk : key = k
    · subst hk
      rw [List.dlookup_eq_none.mpr hnot, List.dlookup_cons_eq, if_pos hkey, AList.lookup_insert]
      rfl
    · rw [List.dlookup_cons_ne _ _ hk]
      split
      · rw [AList.lookup_insert_ne hk]
      · rfl

theorem lookup_init (kwargs : AList (fun _ : String => Nat)) {key : String}
    (hkey : knownField key) : (init kwargs).valueDict.lookup key = kwargs.lookup key := by
  have hfold := lookup_foldl_insert hkey kwargs.entries kwargs.nodupKeys ∅
  rw [AList.lookup_empty, Option.or_none] at hfold
  exact hfold

theorem sound_init {kwargs : AList (fun _ : String => Nat)}
    (h : kwargs.lookup "name_value" = none) : (init kwargs).Sound :=
  sound_buildValue ((lookup_init kwargs (by decide)).trans h)

/-! ## 4. Modifying a NAME -/

/-- The field and the value of a pair that is accepted. -/
def accepted (param : Int × Int) : Option (NameField × Nat) :=
  match parameterField param.1 with
  | none => none
  | some field =>
      if param.2 < 0 ∨ (field.mask : Int) < param.2 then none else some (field, param.2.toNat)

/-- The result for a pair: 0 when it is accepted, 1 when the number is not one
of a field that can be changed, 3 when the value is out of range. -/
def resultCode (param : Int × Int) : Nat :=
  if (accepted param).isSome then 0 else if (parameterField param.1).isSome then 3 else 1

/-- The value that a pair gives to a field. -/
def acceptedFor (f : NameField) (param : Int × Int) : Option Nat :=
  (accepted param).bind fun p => if p.1 = f then some p.2 else none

/-- The last value that is accepted for a field. -/
def lastAccepted (f : NameField) (params : List (Int × Int)) : Option Nat :=
  (params.filterMap (acceptedFor f)).getLast?

/-- The dictionary, with a value that is accepted. -/
def writeAccepted (dict : NMEA2000MutableName) : Option (NameField × Nat) → NMEA2000MutableName
  | some (field, x) => dict.insert field.name x
  | none => dict

/-- A turn of the loop. -/
theorem modifyTurn_eq (result : List Nat) (change : Bool) (dict : NMEA2000MutableName)
    (param : Int × Int) :
    modifyTurn (result, change, dict) param
      = (result ++ [resultCode param], change || (accepted param).isSome,
          writeAccepted dict (accepted param)) := by
  rw [modifyTurn, resultCode, accepted]
  cases parameterField param.1 with
  | none => simp [writeAccepted]
  | some field =>
    by_cases h : param.2 < 0 ∨ (field.mask : Int) < param.2
    · simp [h, writeAccepted]
    · simp [h, writeAccepted]

/-- The loop. -/
theorem foldl_modifyTurn (params : List (Int × Int)) (result : List Nat) (change : Bool)
    (dict : NMEA2000MutableName) :
    params.foldl modifyTurn (result, change, dict)
      = (result ++ params.map resultCode, change || params.any fun p => (accepted p).isSome,
          (params.map accepted).foldl writeAccepted dict) := by
  induction params generalizing result change dict with
  | nil => simp
  | cons p params ih =>
    rw [List.foldl_cons, modifyTurn_eq, ih]
    simp [Bool.or_assoc]

/-- What `modify_parameters` returns. -/
theorem modifyParameters_results (m : MutableName) (params : List (Int × Int)) :
    (m.modifyParameters params).1 = params.map resultCode := by
  rw [modifyParameters, foldl_modifyTurn]
  rfl

/-- A pair that is accepted is one for a field of the number, within its width. -/
theorem accepted_some {param : Int × Int} {f : NameField} {x : Nat}
    (h : accepted param = some (f, x)) : f ∈ packedFields ∧ x ≤ f.mask := by
  have hfield : ∀ g, parameterField param.1 = some g → g ∈ packedFields := by
    intro g hg
    cases hn : param.1 with
    | negSucc n =>
      rw [hn] at hg
      cases hg
    | ofNat n =>
      rw [hn] at hg
      simp only [parameterField, NMEA2000MutableName.parameterSetTable] at hg
      split_ifs at hg <;> cases hg <;> decide
  unfold accepted at h
  split at h
  · cases h
  · rename_i g hg
    split at h
    · cases h
    · rename_i hrange
      obtain ⟨rfl, rfl⟩ := Prod.mk.inj (Option.some.inj h)
      exact ⟨hfield _ hg, by omega⟩

theorem name_injective {f g : NameField} (hf : f ∈ packedFields) (hg : g ∈ packedFields)
    (h : f.name = g.name) : f = g := by
  have hall : ∀ f ∈ packedFields, ∀ g ∈ packedFields, f.name = g.name → f = g := by decide
  exact hall f hf g hg h

theorem name_ne_nameValue : ∀ f ∈ packedFields, "name_value" ≠ f.name := by decide

theorem lookup_writeAccepted_of_ne {key : String} {p : Option (NameField × Nat)}
    (h : ∀ f x, p = some (f, x) → key ≠ f.name) (dict : NMEA2000MutableName) :
    (writeAccepted dict p).lookup key = dict.lookup key := by
  cases p with
  | none => rfl
  | some q => exact AList.lookup_insert_ne (h q.1 q.2 rfl)

/-- **What the dictionary has for a field** is the last value accepted for it,
or what it was. -/
theorem lookup_foldl_writeAccepted {f : NameField} (hf : f ∈ packedFields)
    (params : List (Int × Int)) (dict : NMEA2000MutableName) :
    ((params.map accepted).foldl writeAccepted dict).lookup f.name
      = (lastAccepted f params).or (dict.lookup f.name) := by
  induction params generalizing dict with
  | nil => rfl
  | cons p params ih =>
    have hlast : lastAccepted f (p :: params) = (lastAccepted f params).or (acceptedFor f p) :=
      getLast?_filterMap_cons _ p params
    rw [List.map_cons, List.foldl_cons, ih, hlast, Option.or_assoc, acceptedFor]
    congr 1
    cases hp : accepted p with
    | none => rfl
    | some q =>
      obtain ⟨g, x⟩ := q
      by_cases hg : g = f
      · subst hg
        rw [writeAccepted, AList.lookup_insert]
        simp
      · have hne : f.name ≠ g.name := fun h => hg (name_injective hf (accepted_some hp).1 h).symm
        rw [writeAccepted, AList.lookup_insert_ne hne]
        simp [hg]

theorem lookup_nameValue_foldl (params : List (Int × Int)) (dict : NMEA2000MutableName) :
    ((params.map accepted).foldl writeAccepted dict).lookup "name_value"
      = dict.lookup "name_value" := by
  induction params generalizing dict with
  | nil => rfl
  | cons p params ih =>
    rw [List.map_cons, List.foldl_cons, ih]
    refine lookup_writeAccepted_of_ne (fun f x h => ?_) dict
    exact name_ne_nameValue f (accepted_some h).1

/-- Without an accepted pair the dictionary is as it was. -/
theorem foldl_writeAccepted_none {params : List (Int × Int)}
    (h : ∀ p ∈ params, accepted p = none) (dict : NMEA2000MutableName) :
    (params.map accepted).foldl writeAccepted dict = dict := by
  induction params generalizing dict with
  | nil => rfl
  | cons p params ih =>
    rw [List.map_cons, List.foldl_cons, h p List.mem_cons_self, writeAccepted,
      ih fun q hq => h q (List.mem_cons_of_mem _ hq)]

/-- What the object is after `modify_parameters`. -/
theorem modifyParameters_eq (m : MutableName) (params : List (Int × Int)) :
    (m.modifyParameters params).2
        = buildValue ((params.map accepted).foldl writeAccepted m.valueDict) ∨
      (m.modifyParameters params).2 = m ∧
        (params.map accepted).foldl writeAccepted m.valueDict = m.valueDict := by
  rw [modifyParameters, foldl_modifyTurn]
  simp only [Bool.false_or]
  split
  · exact .inl rfl
  · rename_i hnone
    refine .inr ⟨rfl, foldl_writeAccepted_none (fun p hp => ?_) _⟩
    by_contra hsome
    exact hnone (List.any_eq_true.mpr ⟨p, hp, Option.isSome_iff_ne_none.mpr hsome⟩)

theorem valueDict_modifyParameters (m : MutableName) (params : List (Int × Int)) :
    (m.modifyParameters params).2.valueDict
      = (params.map accepted).foldl writeAccepted m.valueDict := by
  rcases m.modifyParameters_eq params with h | ⟨h, hdict⟩
  · rw [h]
    rfl
  · rw [h, hdict]

/-- The NAME after `modify_parameters` is the one of the dictionary. -/
theorem Sound.modifyParameters_eq {m : MutableName} (h : m.Sound) (params : List (Int × Int)) :
    (m.modifyParameters params).2
      = buildValue ((params.map accepted).foldl writeAccepted m.valueDict) := by
  rcases m.modifyParameters_eq params with hbuild | ⟨hsame, hdict⟩
  · exact hbuild
  · obtain ⟨hvalue, hbytes, -⟩ := h
    rw [hvalue] at hbytes
    rw [hsame, hdict, buildValue, ← hvalue]
    cases m
    simp_all

theorem Sound.modifyParameters {m : MutableName} (h : m.Sound) (params : List (Int × Int)) :
    (m.modifyParameters params).2.Sound := by
  rw [h.modifyParameters_eq]
  exact sound_buildValue ((lookup_nameValue_foldl params m.valueDict).trans h.noValue)

/-- **Each field after `modify_parameters`**: the last value accepted for it, or
what it was. -/
theorem Sound.extractField_modify {m : MutableName} (h : m.Sound) (params : List (Int × Int))
    {f : NameField} (hf : f ∈ packedFields) :
    f.extractField (m.modifyParameters params).2.value
      = (lastAccepted f params).getD (f.extractField m.value) := by
  have hwidth : ∀ x ∈ lastAccepted f params, x < 2 ^ f.bitSize := by
    intro x hx
    obtain ⟨p, -, hp⟩ := List.mem_filterMap.mp (List.mem_of_getLast? hx)
    obtain ⟨⟨g, y⟩, hg, hy⟩ := Option.bind_eq_some_iff.mp hp
    have hle := (accepted_some hg).2
    simp only at hy
    split at hy
    · rename_i hgf
      obtain rfl := Option.some.inj hy
      subst hgf
      have hpos := Nat.two_pow_pos g.bitSize
      rw [NameField.mask] at hle
      omega
    · cases hy
  rw [(h.modifyParameters params).extractField hf, h.extractField hf, h.modifyParameters_eq,
    buildValue, lookup_foldl_writeAccepted hf]
  cases hlast : lastAccepted f params with
  | none => rfl
  | some x => exact Nat.mod_eq_of_lt (hwidth x hlast)

theorem foldl_writeAccepted_filter (params : List (Int × Int)) (dict : NMEA2000MutableName) :
    (params.map accepted).foldl writeAccepted dict
      = ((params.filter fun p => (accepted p).isSome).map accepted).foldl writeAccepted dict := by
  induction params generalizing dict with
  | nil => rfl
  | cons p params ih =>
    cases hp : accepted p with
    | none => simpa [hp, writeAccepted] using ih dict
    | some q => simpa [hp] using ih (writeAccepted dict (some q))

/-- A pair that is rejected changes nothing. -/
theorem Sound.modifyParameters_filter {m : MutableName} (h : m.Sound)
    (params : List (Int × Int)) :
    (m.modifyParameters params).2
      = (m.modifyParameters (params.filter fun p => (accepted p).isSome)).2 := by
  rw [h.modifyParameters_eq, h.modifyParameters_eq, ← foldl_writeAccepted_filter]

/-! ## 5. The NAME, field by field -/

/-- What one call of `modify_parameters` does: a result for each pair, in their
order; each field has the last value accepted for it, or what it was; the bytes
are those of the number; and the pairs that are rejected do nothing. -/
structure Modifies (m : MutableName) (params : List (Int × Int)) : Prop where
  results : (m.modifyParameters params).1 = params.map resultCode
  fields : ∀ f ∈ packedFields, ∃ x, m.getattr f.name = .ok x ∧
    (m.modifyParameters params).2.getattr f.name = .ok ((lastAccepted f params).getD x)
  bytes : ofLE (m.modifyParameters params).2.bytes = (m.modifyParameters params).2.value ∧
    (m.modifyParameters params).2.bytes.length = 8
  rejected : (m.modifyParameters params).2
    = (m.modifyParameters (params.filter fun p => (accepted p).isSome)).2

theorem Sound.length_bytes {m : MutableName} (h : m.Sound) : m.bytes.length = 8 := by
  rw [h.bytes, length_toLE]

theorem Sound.modifies {m : MutableName} (h : m.Sound) (params : List (Int × Int)) :
    m.Modifies params where
  results := modifyParameters_results m params
  fields f hf :=
    ⟨_, getattr_eq m hf, by rw [getattr_eq _ hf, h.extractField_modify params hf]⟩
  bytes := ⟨(h.modifyParameters params).ofLE_bytes, (h.modifyParameters params).length_bytes⟩
  rejected := h.modifyParameters_filter params

/-- The NAME after some calls of `modify_parameters`. -/
def modifyAll (m : MutableName) (calls : List (List (Int × Int))) : MutableName :=
  calls.foldl (fun m params => (m.modifyParameters params).2) m

theorem Sound.modifyAll {m : MutableName} (h : m.Sound) (calls : List (List (Int × Int))) :
    (m.modifyAll calls).Sound := by
  unfold MutableName.modifyAll
  induction calls generalizing m with
  | nil => exact h
  | cons params calls ih => exact ih (h.modifyParameters params)

/-- **The NAME is assembled and modified field by field.** Built from values
within the widths of their fields, it gives each of them back, and its bytes are
its number; and this NAME, also after any calls of `modify_parameters`, is
modified as `Modifies` says. -/
theorem mutableName_fields (kwargs : AList (fun _ : String => Nat)) (h : WithinWidths kwargs) :
    (∀ f ∈ packedFields, (init kwargs).getattr f.name = .ok ((kwargs.lookup f.name).getD 0)) ∧
      (ofLE (init kwargs).bytes = (init kwargs).value ∧ (init kwargs).bytes.length = 8) ∧
      ∀ calls params, ((init kwargs).modifyAll calls).Modifies params := by
  have hsound := sound_init h.noValue
  refine ⟨fun f hf => ?_, ⟨hsound.ofLE_bytes, hsound.length_bytes⟩,
    fun calls params => (hsound.modifyAll calls).modifies params⟩
  have hknown : knownField f.name := by
    revert f
    decide
  have hlt : (kwargs.lookup f.name).getD 0 < 2 ^ f.bitSize := by
    have hpos := Nat.two_pow_pos f.bitSize
    cases hx : kwargs.lookup f.name with
    | none => exact hpos
    | some x =>
      have hle := h.width f hf x hx
      rw [NameField.mask] at hle
      simp only [Option.getD_some]
      omega
  rw [getattr_eq _ hf, hsound.extractField hf, lookup_init kwargs hknown, Nat.mod_eq_of_lt hlt]

/-- Some fields of a NAME. -/
def threeFields : AList (fun _ : String => Nat) :=
  ((∅ : AList (fun _ : String => Nat)).insert "identity_number" 5).insert "manufacturer_code" 999
    |>.insert "device_instance_upper" 31

theorem withinWidths_threeFields : WithinWidths threeFields := by
  refine ⟨by decide, ?_⟩
  have hall : ∀ f ∈ packedFields, (threeFields.lookup f.name).getD 0 ≤ f.mask := by decide
  intro f hf x hx
  have hle := hall f hf
  rwa [Option.mem_def.mp hx] at hle

theorem mutableName_fields_threeFields :
    (init threeFields).getattr "manufacturer_code" = .ok 999 ∧
      (init threeFields).getattr "device_class" = .ok 0 ∧
      ((init threeFields).modifyParameters [(3, 5), (4, 32), (1, 7), (3, 2)]).1 = [0, 3, 1, 0] ∧
      ((init threeFields).modifyParameters [(3, 5), (4, 32), (1, 7), (3, 2)]).2.getattr
        "device_instance_lower" = .ok 2 := by
  obtain ⟨hfields, -, hmodify⟩ := mutableName_fields threeFields withinWidths_threeFields
  have hcall := hmodify [] [(3, 5), (4, 32), (1, 7), (3, 2)]
  refine ⟨hfields ⟨"manufacturer_code", 11, 21⟩ (by decide),
    hfields ⟨"device_class", 7, 49⟩ (by decide), hcall.results.trans (by decide), ?_⟩
  obtain ⟨x, -, hx⟩ := hcall.fields ⟨"device_instance_lower", 3, 32⟩ (by decide)
  exact hx

end MutableName

end NavigationServer.Nmea2000Datamodel
