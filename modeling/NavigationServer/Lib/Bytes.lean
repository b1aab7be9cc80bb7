/-
NavigationServer.Lib.Bytes — byte strings and slices.

A byte string is a list of octets. `slice` and `setSlice` are the two uses of
the bracket operator with a colon: reading `l[a:b]` and assigning to it. An
index may be negative (it then counts from the end) and is clamped to the
length; assigning to a slice replaces it whatever the length of the new
value, so an assignment can make the list longer or shorter. An assignment
whose stop lies before its start inserts at the start. `getItem` reads one
place and `setItem` assigns to it. `ascii` is the text of a string constant.
-/
import Mathlib.Data.List.Basic

namespace NavigationServer.Lib

/-- A byte string. -/
abbrev Bytes := List UInt8

/-- The octets of a string of ASCII characters. -/
def ascii (s : String) : Bytes := s.toList.map (fun c => UInt8.ofNat c.toNat)

variable {α : Type*}

/-! ## Slices -/

/-- The position an index of a slice stands for, in a list of length `len`. -/
def clampIndex (len : Nat) (i : Int) : Nat :=
  if i < 0 then (len + i).toNat else min i.toNat len

/-- `l[start:stop]`. -/
def slice (l : List α) (start stop : Int) : List α :=
  (l.take (clampIndex l.length stop)).drop (clampIndex l.length start)

/-- `l[start:stop] = new`. -/
def setSlice (l : List α) (start stop : Int) (new : List α) : List α :=
  let a := clampIndex l.length start
  let b := max a (clampIndex l.length stop)
  l.take a ++ new ++ l.drop b

/-- `l[i]`, or `none` for an index that is out of range. -/
def getItem (l : List α) (i : Int) : Option α :=
  let k := if i < 0 then (l.length : Int) + i else i
  if 0 ≤ k then l[k.toNat]? else none

/-- `l[i] = x`, or `none` for an index that is out of range. -/
def setItem (l : List α) (i : Int) (x : α) : Option (List α) :=
  let k := if i < 0 then (l.length : Int) + i else i
  if 0 ≤ k ∧ k < l.length then some (l.set k.toNat x) else none

@[simp] theorem clampIndex_natCast (len n : Nat) : clampIndex len (n : Int) = min n len := by
  rw [clampIndex, if_neg (by omega), Int.toNat_natCast]

theorem clampIndex_le (len : Nat) (i : Int) : clampIndex len i ≤ len := by
  unfold clampIndex
  split <;> omega

theorem clampIndex_of_neg {len : Nat} {i : Int} (h : i < 0) :
    clampIndex len i = (len + i).toNat := by
  simp [clampIndex, h]

/-- A slice with bounds that are not negative is a window of the list. -/
theorem slice_natCast (l : List α) (a b : Nat) :
    slice l (a : Int) (b : Int) = (l.drop a).take (b - a) := by
  simp only [slice, clampIndex_natCast]
  rw [List.drop_take]
  rcases Nat.lt_or_ge l.length a with h | h
  · simp [Nat.min_eq_right (Nat.le_of_lt h), List.drop_eq_nil_of_le (Nat.le_of_lt h)]
  · rw [Nat.min_eq_left h]
    rcases Nat.le_total b l.length with hb | hb
    · rw [Nat.min_eq_left hb]
    · rw [Nat.min_eq_right hb, List.take_of_length_le (by simp), List.take_of_length_le (by simp; omega)]

/-- A slice from the start is a prefix. -/
theorem slice_zero (l : List α) (b : Nat) : slice l 0 (b : Int) = l.take b := by
  simpa using slice_natCast l 0 b

/-- The part between two others. -/
theorem slice_append (front part back : List α) :
    slice (front ++ (part ++ back)) (front.length : Int) ((front.length + part.length : Nat) : Int)
      = part := by
  rw [slice_natCast, List.drop_left, Nat.add_sub_cancel_left, List.take_left]

/-- What follows a part, without its last place. -/
theorem slice_append_dropLast (front back : List α) :
    slice (front ++ back) (front.length : Int) (-1) = back.dropLast := by
  have hstop : clampIndex (front ++ back).length (-1) = front.length + back.length - 1 := by
    rw [clampIndex_of_neg (by decide), List.length_append]
    omega
  unfold slice
  rw [hstop, clampIndex_natCast, Nat.min_eq_left (by simp), List.dropLast_eq_take]
  cases back with
  | nil => simp
  | cons x back =>
    rw [List.length_cons, ← Nat.add_assoc, Nat.add_sub_cancel, Nat.add_sub_cancel, List.take_length_add_append,
      List.drop_left]

/-- Assigning to the slice that starts at `a` and has no stop cuts the list there. -/
theorem setSlice_to_end (l new : List α) (a : Nat) :
    setSlice l (a : Int) (l.length : Int) new = l.take a ++ new := by
  simp only [setSlice, clampIndex_natCast, Nat.min_self]
  rw [List.drop_eq_nil_of_le (by omega), List.append_nil]
  rcases Nat.le_total a l.length with h | h
  · rw [Nat.min_eq_left h]
  · rw [Nat.min_eq_right h, List.take_of_length_le h, List.take_length]

/-- Assigning inside the list keeps what stands before and after the slice. -/
theorem setSlice_natCast (l new : List α) {a b : Nat} (hab : a ≤ b) (hb : b ≤ l.length) :
    setSlice l (a : Int) (b : Int) new = l.take a ++ new ++ l.drop b := by
  simp only [setSlice, clampIndex_natCast]
  rw [Nat.min_eq_left (Nat.le_trans hab hb), Nat.min_eq_left hb, Nat.max_eq_right hab]

/-- Assigning to the part between two others. -/
theorem setSlice_append (front part back new : List α) :
    setSlice (front ++ (part ++ back)) (front.length : Int)
      ((front.length + part.length : Nat) : Int) new = front ++ (new ++ back) := by
  have hroom : front.length + part.length ≤ (front ++ (part ++ back)).length := by
    rw [List.length_append, List.length_append]
    omega
  rw [setSlice_natCast _ _ (Nat.le_add_right _ _) hroom, List.take_left, List.drop_length_add_append,
    List.drop_left, List.append_assoc]

theorem getItem_natCast (l : List α) (i : Nat) : getItem l (i : Int) = l[i]? := by
  have hneg : ¬ (i : Int) < 0 := by omega
  simp [getItem, hneg]

theorem setItem_natCast (l : List α) {i : Nat} (h : i < l.length) (x : α) :
    setItem l (i : Int) x = some (l.set i x) := by
  have hneg : ¬ (i : Int) < 0 := by omega
  simp only [setItem, if_neg hneg]
  rw [if_pos (by omega), Int.toNat_natCast]

/-- What an assignment to a slice does to the length. -/
theorem length_setSlice (l new : List α) (a b : Int) :
    (setSlice l a b new).length
      = clampIndex l.length a + new.length
        + (l.length - max (clampIndex l.length a) (clampIndex l.length b)) := by
  have := clampIndex_le l.length a
  simp only [setSlice, List.length_append, List.length_take, List.length_drop]
  omega

end NavigationServer.Lib
