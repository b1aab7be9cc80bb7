/-
NavigationServer.Lib.BitFields — fields packed into a number.

A field is a run of bits: so many, from an offset on. `extract` reads it and
`place` is the number that holds a value there. A number made of values placed
in fields that lie apart gives each value back (`extract_foldl`).
-/
import Mathlib.Data.List.Pairwise
import Mathlib.Data.Nat.Bitwise

namespace NavigationServer.Lib

/-- A run of bits. -/
structure PackedField where
  size : Nat
  offset : Nat
  deriving DecidableEq, Repr

namespace PackedField

def extract (f : PackedField) (n : Nat) : Nat := (n >>> f.offset) &&& (2 ^ f.size - 1)

def place (f : PackedField) (x : Nat) : Nat := (x &&& (2 ^ f.size - 1)) <<< f.offset

/-- The fields have no bit in common. -/
def Apart (f g : PackedField) : Prop := f.offset + f.size ≤ g.offset ∨ g.offset + g.size ≤ f.offset

instance (f g : PackedField) : Decidable (f.Apart g) := inferInstanceAs (Decidable (_ ∨ _))

theorem Apart.symm {f g : PackedField} (h : f.Apart g) : g.Apart f := Or.symm h

theorem testBit_extract (f : PackedField) (n i : Nat) :
    (f.extract n).testBit i = (decide (i < f.size) && n.testBit (f.offset + i)) := by
  rw [extract, Nat.and_two_pow_sub_one_eq_mod, Nat.testBit_mod_two_pow, Nat.testBit_shiftRight]

theorem testBit_place (f : PackedField) (x i : Nat) :
    (f.place x).testBit i
      = (decide (f.offset ≤ i) && decide (i - f.offset < f.size) && x.testBit (i - f.offset)) := by
  rw [place, Nat.and_two_pow_sub_one_eq_mod, Nat.testBit_shiftLeft, Nat.testBit_mod_two_pow,
    Bool.and_assoc]

@[simp] theorem extract_zero (f : PackedField) : f.extract 0 = 0 := by
  rw [extract, Nat.zero_shiftRight, Nat.zero_and]

@[simp] theorem extract_or (f : PackedField) (m n : Nat) :
    f.extract (m ||| n) = f.extract m ||| f.extract n := by
  refine Nat.eq_of_testBit_eq fun i => ?_
  simp only [testBit_extract, Nat.testBit_or, Bool.and_or_distrib_left]

/-- A value that is placed is read, as far as the field holds it. -/
@[simp] theorem extract_place (f : PackedField) (x : Nat) : f.extract (f.place x) = x % 2 ^ f.size := by
  refine Nat.eq_of_testBit_eq fun i => ?_
  simp only [testBit_extract, testBit_place, Nat.testBit_mod_two_pow, Nat.le_add_right,
    Nat.add_sub_cancel_left, decide_true, Bool.true_and]
  cases decide (i < f.size) <;> simp

/-- Fields that lie apart do not see each other. -/
theorem Apart.extract_place {f g : PackedField} (h : f.Apart g) (x : Nat) :
    f.extract (g.place x) = 0 := by
  refine Nat.eq_of_testBit_eq fun i => ?_
  rw [testBit_extract, testBit_place, Nat.zero_testBit]
  rcases h with h | h
  · by_cases hi : i < f.size
    · have hbelow : ¬ g.offset ≤ f.offset + i := by omega
      simp [hbelow]
    · simp [hi]
  · have habove : ¬ f.offset + i - g.offset < g.size := by omega
    simp [habove]

/-- A value that is placed stays below the end of its field. -/
theorem place_lt (f : PackedField) {k : Nat} (h : f.offset + f.size ≤ k) (x : Nat) :
    f.place x < 2 ^ k := by
  rw [place, Nat.and_two_pow_sub_one_eq_mod, Nat.shiftLeft_eq]
  calc x % 2 ^ f.size * 2 ^ f.offset
      < 2 ^ f.size * 2 ^ f.offset :=
        Nat.mul_lt_mul_of_pos_right (Nat.mod_lt _ (Nat.two_pow_pos _)) (Nat.two_pow_pos _)
    _ = 2 ^ (f.offset + f.size) := by rw [← Nat.pow_add, Nat.add_comm]
    _ ≤ 2 ^ k := Nat.pow_le_pow_right Nat.two_pos h

/-! ## Values placed one after the other -/

variable {α : Type*} (field : α → PackedField) (given : α → Option Nat)

/-- The number, with the value of one more field if it has one. -/
def addValue (n : Nat) (a : α) : Nat :=
  match given a with
  | some x => n ||| (field a).place x
  | none => n

/-- Fields apart from `f` leave it as it is. -/
theorem extract_foldl_apart {f : PackedField} {as : List α} (h : ∀ a ∈ as, f.Apart (field a))
    (n : Nat) : f.extract (as.foldl (addValue field given) n) = f.extract n := by
  induction as generalizing n with
  | nil => rfl
  | cons a as ih =>
    rw [List.foldl_cons, ih fun b hb => h b (List.mem_cons_of_mem _ hb), addValue]
    split
    · rw [extract_or, (h a List.mem_cons_self).extract_place, Nat.or_zero]
    · rfl

/-- **Each field reads the value given for it**, or nothing. -/
theorem extract_foldl {as : List α} (hp : as.Pairwise fun a b => (field a).Apart (field b))
    {a : α} (ha : a ∈ as) {n : Nat} (hn : (field a).extract n = 0) :
    (field a).extract (as.foldl (addValue field given) n)
      = (given a).getD 0 % 2 ^ (field a).size := by
  induction as generalizing n with
  | nil => exact absurd ha List.not_mem_nil
  | cons b as ih =>
    obtain ⟨hb, hp⟩ := List.pairwise_cons.mp hp
    rw [List.foldl_cons]
    rcases List.mem_cons.mp ha with rfl | ha
    · rw [extract_foldl_apart field given hb, addValue]
      cases given a with
      | some x => simp [hn]
      | none => simp [hn]
    · refine ih hp ha ?_
      rw [addValue]
      split
      · rw [extract_or, hn, (hb a ha).symm.extract_place, Nat.or_zero]
      · exact hn

theorem foldl_addValue_lt {as : List α} {k : Nat}
    (h : ∀ a ∈ as, (field a).offset + (field a).size ≤ k) {n : Nat} (hn : n < 2 ^ k) :
    as.foldl (addValue field given) n < 2 ^ k := by
  induction as generalizing n with
  | nil => exact hn
  | cons a as ih =>
    rw [List.foldl_cons]
    refine ih (fun b hb => h b (List.mem_cons_of_mem _ hb)) ?_
    rw [addValue]
    split
    · exact Nat.or_lt_two_pow hn (place_lt _ (h a List.mem_cons_self) _)
    · exact hn

end PackedField

end NavigationServer.Lib
