/-
NavigationServer.Nmea2000Datamodel.Name — the 64-bit NAME.

A NAME received is its number. `NMEA2000MutableName` is the NAME of a local
application: the dictionary of its fields, from which the number is built. The
arbitration of addresses compares numbers, and a group function may change
three of the fields (`modifyParameters`). The identity number is not one of
them, so it tells the applications of a node apart (`HasIdentity.intValue_mod`).
-/
import Mathlib.Data.List.AList
import Mathlib.Data.Nat.Bitwise

namespace NavigationServer.Nmea2000Datamodel

/-! ## 1. Fields -/

structure NameField where
  name : String
  bitSize : Nat
  bitOffset : Nat
  deriving DecidableEq, Repr

namespace NameField

def mask (f : NameField) : Nat := 2 ^ f.bitSize - 1

def byteSize (f : NameField) : Nat := (f.bitSize + 7) / 8

def extractField (f : NameField) (value : Nat) : Nat := (value >>> f.bitOffset) &&& f.mask

def setField (f : NameField) (nameValue value : Nat) : Nat :=
  nameValue ||| ((value &&& f.mask) <<< f.bitOffset)

end NameField

def identityNumber : NameField := ⟨"identity_number", 21, 0⟩

def nameValueField : NameField := ⟨"name_value", 64, 0⟩

/-- The fields of `NMEA2000Name`, in their order. -/
def nameFields : List NameField :=
  [identityNumber, ⟨"manufacturer_code", 11, 21⟩, ⟨"device_instance_lower", 3, 32⟩,
    ⟨"device_instance_upper", 5, 35⟩, ⟨"device_function", 8, 40⟩, ⟨"reserved", 1, 48⟩,
    ⟨"device_class", 7, 49⟩, ⟨"system_instance", 4, 56⟩, ⟨"industry_group", 3, 60⟩,
    ⟨"arbitrary_address_capable", 1, 63⟩, nameValueField]

/-- `name_value` of a NAME. -/
def nameValue (value : Nat) : Nat := nameValueField.extractField value

/-! ## 2. The NAME of an application -/

/-- The dictionary of the fields that are given. -/
abbrev NMEA2000MutableName := AList (fun _ : String => Nat)

namespace NMEA2000MutableName

/-- What a field adds to the number. -/
def addField (dict : NMEA2000MutableName) (value : Nat) (f : NameField) : Nat :=
  match dict.lookup f.name with
  | some x => f.setField value x
  | none => value

/-- `build_value`. -/
def intValue (dict : NMEA2000MutableName) : Nat := nameFields.foldl dict.addField 0

/-- The field that a parameter number of a group function changes. -/
def parameterSetTable (number : Nat) : Option NameField :=
  if number = 3 then some ⟨"device_instance_lower", 3, 32⟩
  else if number = 4 then some ⟨"device_instance_upper", 5, 35⟩
  else if number = 8 then some ⟨"system_instance", 4, 56⟩
  else none

/-- One parameter: the result that is acknowledged, and the dictionary. -/
def modifyParameter (dict : NMEA2000MutableName) (param : Nat × Nat) :
    Nat × NMEA2000MutableName :=
  match parameterSetTable param.1 with
  | none => (1, dict)
  | some field =>
      if param.2 > field.mask then (3, dict) else (0, dict.insert field.name param.2)

/-- `modify_parameters`, without the results. -/
def modifyParameters (dict : NMEA2000MutableName) (params : List (Nat × Nat)) :
    NMEA2000MutableName :=
  params.foldl (fun dict param => (dict.modifyParameter param).2) dict

/-! ## 3. The identity number -/

/-- The NAME has this identity number, and no field lies over it. -/
structure HasIdentity (dict : NMEA2000MutableName) (identity : Nat) : Prop where
  identity : dict.lookup "identity_number" = some identity
  noValue : dict.lookup "name_value" = none

theorem setField_mod {f : NameField} (hf : 21 ≤ f.bitOffset) (value x : Nat) :
    f.setField value x % 2 ^ 21 = value % 2 ^ 21 := by
  have hzero : ((x &&& f.mask) <<< f.bitOffset) % 2 ^ 21 = 0 := by
    rw [Nat.shiftLeft_eq]
    exact Nat.mod_eq_zero_of_dvd ((pow_dvd_pow 2 hf).trans (Nat.dvd_mul_left _ _))
  rw [NameField.setField, Nat.or_mod_two_pow, hzero, Nat.or_zero]

theorem addField_mod (dict : NMEA2000MutableName) {f : NameField} (hf : 21 ≤ f.bitOffset)
    (value : Nat) : dict.addField value f % 2 ^ 21 = value % 2 ^ 21 := by
  unfold addField
  split
  · exact setField_mod hf value _
  · rfl

theorem foldl_addField_mod (dict : NMEA2000MutableName) (fs : List NameField)
    (hfs : ∀ f ∈ fs, 21 ≤ f.bitOffset) (value : Nat) :
    fs.foldl dict.addField value % 2 ^ 21 = value % 2 ^ 21 := by
  induction fs generalizing value with
  | nil => rfl
  | cons f fs ih =>
    rw [List.foldl_cons, ih (fun f' hf' => hfs f' (List.mem_cons_of_mem _ hf')),
      addField_mod dict (hfs f List.mem_cons_self)]

/-- The low bits of the number are the identity number. -/
theorem HasIdentity.intValue_mod {dict : NMEA2000MutableName} {identity : Nat}
    (h : dict.HasIdentity identity) : dict.intValue % 2 ^ 21 = identity % 2 ^ 21 := by
  have hsplit : nameFields = identityNumber :: (nameFields.drop 1).take 9 ++ [nameValueField] := rfl
  have hmiddle : ∀ f ∈ (nameFields.drop 1).take 9, 21 ≤ f.bitOffset := by decide
  have hfirst : dict.addField 0 identityNumber = identity % 2 ^ 21 := by
    rw [addField, identityNumber, h.identity]
    change 0 ||| ((identity &&& (2 ^ 21 - 1)) <<< 0) = _
    rw [Nat.zero_or, Nat.shiftLeft_zero, Nat.and_two_pow_sub_one_eq_mod]
  have hlast : ∀ value, dict.addField value nameValueField = value := by
    intro value
    rw [addField, nameValueField, h.noValue]
  rw [intValue, hsplit, List.foldl_append, List.foldl_cons, List.foldl_cons, List.foldl_nil, hlast,
    foldl_addField_mod dict _ hmiddle, hfirst, Nat.mod_mod]

theorem HasIdentity.modifyParameter {dict : NMEA2000MutableName} {identity : Nat}
    (h : dict.HasIdentity identity) (param : Nat × Nat) :
    (dict.modifyParameter param).2.HasIdentity identity := by
  have hname : ∀ field, parameterSetTable param.1 = some field →
      "identity_number" ≠ field.name ∧ "name_value" ≠ field.name := by
    intro field hfield
    unfold parameterSetTable at hfield
    split_ifs at hfield <;> cases hfield <;> exact ⟨by decide, by decide⟩
  unfold NMEA2000MutableName.modifyParameter
  split
  · exact h
  · rename_i field hfield
    obtain ⟨h1, h2⟩ := hname field hfield
    split
    · exact h
    · refine ⟨?_, ?_⟩
      · rw [AList.lookup_insert_ne h1, h.identity]
      · rw [AList.lookup_insert_ne h2, h.noValue]

/-- No group function changes the identity number. -/
theorem HasIdentity.modifyParameters {dict : NMEA2000MutableName} {identity : Nat}
    (h : dict.HasIdentity identity) (params : List (Nat × Nat)) :
    (dict.modifyParameters params).HasIdentity identity := by
  unfold NMEA2000MutableName.modifyParameters
  induction params generalizing dict with
  | nil => exact h
  | cons param params ih => exact ih (h.modifyParameter param)

end NMEA2000MutableName

end NavigationServer.Nmea2000Datamodel
