/-
NavigationServer.Lib.Words — little-endian words.

`ofLE` is the number whose bytes are given, the lowest first, and `toLE` writes
a number in that many bytes. What is written is read back modulo the range
(`ofLE_toLE`), the front of the bytes holds the low part of the number
(`ofLE_take`) and the rest the high part (`ofLE_drop`).
-/
import NavigationServer.Lib.Bytes
import Mathlib.Tactic.Ring

namespace NavigationServer.Lib

/-- The number with these bytes, the lowest first. -/
def ofLE : Bytes → Nat
  | [] => 0
  | b :: bs => b.toNat + 256 * ofLE bs

/-- The `w` lowest bytes of a number, the lowest first. -/
def toLE : Nat → Nat → Bytes
  | 0, _ => []
  | w + 1, n => UInt8.ofNat n :: toLE w (n / 256)

@[simp] theorem ofLE_nil : ofLE [] = 0 := rfl

@[simp] theorem ofLE_cons (b : UInt8) (bs : Bytes) : ofLE (b :: bs) = b.toNat + 256 * ofLE bs := rfl

@[simp] theorem toLE_zero (n : Nat) : toLE 0 n = [] := rfl

@[simp] theorem toLE_succ (w n : Nat) : toLE (w + 1) n = UInt8.ofNat n :: toLE w (n / 256) := rfl

@[simp] theorem length_toLE (w n : Nat) : (toLE w n).length = w := by
  induction w generalizing n with
  | zero => rfl
  | succ w ih => rw [toLE_succ, List.length_cons, ih]

theorem ofLE_lt (l : Bytes) : ofLE l < 256 ^ l.length := by
  induction l with
  | nil => simp
  | cons b bs ih =>
    have hb : b.toNat < 256 := b.toNat_lt
    rw [ofLE_cons, List.length_cons, pow_succ]
    omega

theorem ofLE_append (a b : Bytes) : ofLE (a ++ b) = ofLE a + 256 ^ a.length * ofLE b := by
  induction a with
  | nil => simp
  | cons x a ih =>
    rw [List.cons_append, ofLE_cons, ofLE_cons, ih, List.length_cons, pow_succ]
    ring

/-- Keeping bytes is a remainder. -/
theorem ofLE_take (l : Bytes) (k : Nat) : ofLE (l.take k) = ofLE l % 256 ^ k := by
  rcases Nat.lt_or_ge k l.length with h | h
  · conv_rhs => rw [← List.take_append_drop k l, ofLE_append]
    have hlen : (l.take k).length = k := List.length_take_of_le (Nat.le_of_lt h)
    have hlt : ofLE (l.take k) < 256 ^ k := by
      have := ofLE_lt (l.take k)
      rwa [hlen] at this
    rw [hlen, Nat.add_mul_mod_self_left, Nat.mod_eq_of_lt hlt]
  · rw [List.take_of_length_le h, Nat.mod_eq_of_lt]
    exact lt_of_lt_of_le (ofLE_lt l) (Nat.pow_le_pow_right (by omega) h)

/-- Dropping bytes is a quotient. -/
theorem ofLE_drop (l : Bytes) (k : Nat) : ofLE (l.drop k) = ofLE l / 256 ^ k := by
  rcases Nat.lt_or_ge k l.length with h | h
  · conv_rhs => rw [← List.take_append_drop k l, ofLE_append]
    have hlen : (l.take k).length = k := List.length_take_of_le (Nat.le_of_lt h)
    have hlt : ofLE (l.take k) < 256 ^ k := by
      have := ofLE_lt (l.take k)
      rwa [hlen] at this
    rw [hlen, Nat.add_mul_div_left _ _ (Nat.pow_pos (by omega)), Nat.div_eq_of_lt hlt, Nat.zero_add]
  · rw [List.drop_of_length_le h, Nat.div_eq_of_lt]
    · rfl
    · exact lt_of_lt_of_le (ofLE_lt l) (Nat.pow_le_pow_right (by omega) h)

theorem ofLE_toLE (w n : Nat) : ofLE (toLE w n) = n % 256 ^ w := by
  induction w generalizing n with
  | zero => simp [Nat.mod_one]
  | succ w ih =>
    have hb : (UInt8.ofNat n).toNat = n % 256 := by simp
    rw [toLE_succ, ofLE_cons, ih, hb, pow_succ', Nat.mod_mul]

/-- Numbers that fit have different words. -/
theorem toLE_inj {w a b : Nat} (ha : a < 256 ^ w) (hb : b < 256 ^ w) :
    toLE w a = toLE w b ↔ a = b := by
  constructor
  · intro h
    have hof := congrArg ofLE h
    rwa [ofLE_toLE, ofLE_toLE, Nat.mod_eq_of_lt ha, Nat.mod_eq_of_lt hb] at hof
  · exact congrArg (toLE w)

end NavigationServer.Lib
