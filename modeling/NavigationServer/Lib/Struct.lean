/-
NavigationServer.Lib.Struct — packed records of little-endian numbers.

A format is a list of slots, each a number of bytes with or without a sign.
`unpack` reads one number for each slot and `pack` writes them; `pack` refuses
what does not fit, and other numbers than there are slots. Reading undoes
writing (`readSlots_pack`).
-/
import Mathlib.Algebra.Order.Ring.Int
import Mathlib.Tactic.Positivity
import Mathlib.Tactic.Zify
import NavigationServer.Lib.Words

namespace NavigationServer.Lib

/-! ## 1. Signed numbers -/

/-- The number with a sign that `n` stands for on `w` bytes. -/
def ofUnsigned (w n : Nat) : Int := if 2 * n < 256 ^ w then n else (n : Int) - 256 ^ w

/-- The bit pattern of a number on `w` bytes. -/
def toUnsigned (w : Nat) (v : Int) : Nat := (v % 256 ^ w).toNat

theorem natCast_toUnsigned (w : Nat) (v : Int) : (toUnsigned w v : Int) = v % 256 ^ w :=
  Int.toNat_of_nonneg (Int.emod_nonneg v (by positivity))

theorem toUnsigned_lt (w : Nat) (v : Int) : toUnsigned w v < 256 ^ w := by
  have hlt := Int.emod_lt_of_pos v (show (0 : Int) < 256 ^ w by positivity)
  rw [← natCast_toUnsigned] at hlt
  exact_mod_cast hlt

theorem ofUnsigned_toUnsigned {w : Nat} {v : Int} (hlow : -(256 ^ w) ≤ 2 * v) (hhigh : 2 * v < 256 ^ w) :
    ofUnsigned w (toUnsigned w v) = v := by
  have hpos : (0 : Int) < 256 ^ w := by positivity
  have hcast := natCast_toUnsigned w v
  rcases lt_or_ge v 0 with hneg | hnonneg
  · have hmod : v % 256 ^ w = v + 256 ^ w := by
      rw [← Int.add_emod_right, Int.emod_eq_of_lt (by omega) (by omega)]
    rw [hmod] at hcast
    unfold ofUnsigned
    rw [if_neg (by zify; omega), hcast]
    omega
  · rw [Int.emod_eq_of_lt hnonneg (by omega)] at hcast
    unfold ofUnsigned
    rw [if_pos (by zify; omega), hcast]

/-! ## 2. Slots -/

structure Slot where
  width : Nat
  signed : Bool
  deriving DecidableEq, Repr

namespace Slot

/-- The numbers that a slot holds. -/
def Fits (s : Slot) (v : Int) : Prop :=
  if s.signed then -(256 ^ s.width) ≤ 2 * v ∧ 2 * v < 256 ^ s.width else 0 ≤ v ∧ v < 256 ^ s.width

instance (s : Slot) (v : Int) : Decidable (s.Fits v) := by
  unfold Fits
  infer_instance

/-- The number that a bit pattern stands for. -/
def read (s : Slot) (n : Nat) : Int := if s.signed then ofUnsigned s.width n else n

theorem read_toUnsigned {s : Slot} {v : Int} (h : s.Fits v) : s.read (toUnsigned s.width v) = v := by
  unfold Fits at h
  unfold read
  split
  · rename_i hs
    rw [if_pos hs] at h
    exact ofUnsigned_toUnsigned h.1 h.2
  · rename_i hs
    rw [if_neg hs] at h
    rw [natCast_toUnsigned, Int.emod_eq_of_lt h.1 h.2]

end Slot

/-! ## 3. Records -/

def calcsize (format : List Slot) : Nat := (format.map Slot.width).sum

/-- The numbers at the beginning of `data`. -/
def readSlots : List Slot → Bytes → List Int
  | [], _ => []
  | s :: format, data => s.read (ofLE (data.take s.width)) :: readSlots format (data.drop s.width)

/-- `unpack`, of exactly the size of the format. -/
def unpack (format : List Slot) (data : Bytes) : Option (List Int) :=
  if data.length = calcsize format then some (readSlots format data) else none

/-- `unpack_from`. -/
def unpackFrom (format : List Slot) (buffer : Bytes) (offset : Nat) : Option (List Int) :=
  if offset + calcsize format ≤ buffer.length then some (readSlots format (buffer.drop offset))
  else none

def pack : List Slot → List Int → Option Bytes
  | [], [] => some []
  | s :: format, v :: values =>
      if s.Fits v then (pack format values).map (toLE s.width (toUnsigned s.width v) ++ ·) else none
  | _, _ => none

/-- `pack_into`. -/
def packInto (format : List Slot) (buffer : Bytes) (offset : Nat) (values : List Int) :
    Option Bytes :=
  if offset + calcsize format ≤ buffer.length then
    (pack format values).map
      (fun data => buffer.take offset ++ (data ++ buffer.drop (offset + calcsize format)))
  else none

/-- Each number has its slot. -/
def FitAll (format : List Slot) (values : List Int) : Prop := List.Forall₂ Slot.Fits format values

theorem calcsize_cons (s : Slot) (format : List Slot) :
    calcsize (s :: format) = s.width + calcsize format := by
  simp [calcsize]

theorem pack_isSome_iff {format : List Slot} {values : List Int} :
    (pack format values).isSome ↔ FitAll format values := by
  unfold FitAll
  induction format generalizing values with
  | nil => cases values <;> simp [pack]
  | cons s format ih =>
    cases values with
    | nil => simp [pack]
    | cons v values =>
      rw [pack, List.forall₂_cons, ← ih]
      by_cases h : s.Fits v
      · simp [h]
      · simp [h]

theorem pack_cons_of_fits {s : Slot} {v : Int} (format : List Slot) (values : List Int)
    (h : s.Fits v) : pack (s :: format) (v :: values)
      = (pack format values).map (toLE s.width (toUnsigned s.width v) ++ ·) := by
  rw [pack, if_pos h]

theorem length_pack {format : List Slot} {values : List Int} {data : Bytes}
    (h : pack format values = some data) : data.length = calcsize format := by
  induction format generalizing values data with
  | nil =>
    cases values with
    | nil => cases h; rfl
    | cons v values => cases h
  | cons s format ih =>
    cases values with
    | nil => cases h
    | cons v values =>
      rw [pack] at h
      split at h
      · obtain ⟨rest, hrest, rfl⟩ := Option.map_eq_some_iff.mp h
        rw [List.length_append, length_toLE, ih hrest, calcsize_cons]
      · cases h

/-- **What is written is read back**, whatever stands behind. -/
theorem readSlots_pack {format : List Slot} {values : List Int} {data : Bytes} (rest : Bytes)
    (h : pack format values = some data) : readSlots format (data ++ rest) = values := by
  induction format generalizing values data with
  | nil =>
    cases values with
    | nil => rfl
    | cons v values => cases h
  | cons s format ih =>
    cases values with
    | nil => cases h
    | cons v values =>
      rw [pack] at h
      split at h
      · rename_i hfits
        obtain ⟨tail, htail, rfl⟩ := Option.map_eq_some_iff.mp h
        have hlt := toUnsigned_lt s.width v
        rw [readSlots, List.append_assoc, List.take_left' (length_toLE _ _),
          List.drop_left' (length_toLE _ _), ofLE_toLE, Nat.mod_eq_of_lt hlt,
          Slot.read_toUnsigned hfits, ih htail]
      · cases h

/-- A record of one slot. -/
theorem unpack_toLE {s : Slot} {n : Nat} (h : n < 256 ^ s.width) :
    unpack [s] (toLE s.width n) = some [s.read n] := by
  have hsize : (toLE s.width n).length = calcsize [s] := by
    rw [length_toLE, calcsize_cons]
    rfl
  rw [unpack, if_pos hsize, readSlots, readSlots, List.take_of_length_le (by rw [length_toLE]),
    ofLE_toLE, Nat.mod_eq_of_lt h]

theorem pack_singleton {s : Slot} {v : Int} (h : s.Fits v) :
    pack [s] [v] = some (toLE s.width (toUnsigned s.width v)) := by
  rw [pack_cons_of_fits _ _ h, pack, Option.map_some, List.append_nil]

/-! ## 4. Records in a buffer -/

/-- `pack_into` writes what fits, when there is room for it. -/
theorem packInto_isSome_iff {format : List Slot} {buffer : Bytes} {offset : Nat} {values : List Int}
    (h : offset + calcsize format ≤ buffer.length) :
    (packInto format buffer offset values).isSome ↔ FitAll format values := by
  rw [packInto, if_pos h, Option.isSome_map, pack_isSome_iff]

/-- **What `pack_into` does**: the record is read back where it was written, and
the rest of the buffer is as before. -/
theorem packInto_eq_some {format : List Slot} {buffer buffer' : Bytes} {offset : Nat}
    {values : List Int} (h : packInto format buffer offset values = some buffer') :
    ∃ data, buffer' = buffer.take offset ++ (data ++ buffer.drop (offset + calcsize format)) ∧
      data.length = calcsize format ∧ pack format values = some data ∧
      unpack format data = some values := by
  unfold packInto at h
  split at h
  · obtain ⟨data, hdata, rfl⟩ := Option.map_eq_some_iff.mp h
    have hread := readSlots_pack [] hdata
    rw [List.append_nil] at hread
    refine ⟨data, rfl, length_pack hdata, hdata, ?_⟩
    rw [unpack, if_pos (length_pack hdata), hread]
  · cases h

end NavigationServer.Lib
