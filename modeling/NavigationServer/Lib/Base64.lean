/-
NavigationServer.Lib.Base64 — bytes as base 64 text.

`b64encode` writes four characters for three bytes and fills the last four up
with `=`. `b64decode` is the reader of a general purpose library: it passes over
the characters that are not in the alphabet, stops where four characters are
full by padding, and has no result for a text that ends within four
characters. What is written is read back (`b64decode_b64encode`), whatever
characters outside the alphabet follow (`b64decode_append`).
-/
import NavigationServer.Lib.Bytes

namespace NavigationServer.Lib

/-! ## 1. The alphabet -/

def base64Char (d : Nat) : UInt8 :=
  if d < 26 then UInt8.ofNat (65 + d)
  else if d < 52 then UInt8.ofNat (71 + d)
  else if d < 62 then UInt8.ofNat (d - 4)
  else if d = 62 then 43
  else 47

def base64Val (c : UInt8) : Option Nat :=
  if 65 ≤ c ∧ c ≤ 90 then some (c.toNat - 65)
  else if 97 ≤ c ∧ c ≤ 122 then some (c.toNat - 71)
  else if 48 ≤ c ∧ c ≤ 57 then some (c.toNat + 4)
  else if c = 43 then some 62
  else if c = 47 then some 63
  else none

def base64Pad : UInt8 := 61

theorem base64Val_base64Char {d : Nat} (h : d < 64) : base64Val (base64Char d) = some d := by
  decide +revert

theorem base64Char_ne_pad {d : Nat} (h : d < 64) : base64Char d ≠ base64Pad := by
  decide +revert

/-! ## 2. Writing and reading -/

def b64encode : Bytes → Bytes
  | [] => []
  | [a] => [base64Char (a.toNat / 4), base64Char (a.toNat % 4 * 16), base64Pad, base64Pad]
  | [a, b] =>
      [base64Char (a.toNat / 4), base64Char (a.toNat % 4 * 16 + b.toNat / 16),
        base64Char (b.toNat % 16 * 4), base64Pad]
  | a :: b :: c :: data =>
      base64Char (a.toNat / 4) :: base64Char (a.toNat % 4 * 16 + b.toNat / 16)
        :: base64Char (b.toNat % 16 * 4 + c.toNat / 64) :: base64Char (c.toNat % 64)
        :: b64encode data

/-- The bytes of a text, behind `quad` characters of four, of which `left` is
what no byte has taken yet, and `pads` of padding. -/
def decodeQuads (quad left pads : Nat) : Bytes → Option Bytes
  | [] => if quad = 0 then some [] else none
  | c :: text =>
      if c = base64Pad then
        if 2 ≤ quad then
          if 4 ≤ quad + (pads + 1) then some [] else decodeQuads quad left (pads + 1) text
        else decodeQuads quad left pads text
      else
        match base64Val c with
        | none => decodeQuads quad left pads text
        | some v =>
            if quad = 0 then decodeQuads 1 v 0 text
            else if quad = 1 then
              (decodeQuads 2 (v % 16) 0 text).map (UInt8.ofNat (left * 4 + v / 16) :: ·)
            else if quad = 2 then
              (decodeQuads 3 (v % 4) 0 text).map (UInt8.ofNat (left * 16 + v / 4) :: ·)
            else (decodeQuads 0 0 0 text).map (UInt8.ofNat (left * 64 + v) :: ·)

def b64decode (text : Bytes) : Option Bytes := decodeQuads 0 0 0 text

/-! ## 3. What is written is read back -/

section Characters

variable {d : Nat} (left pads : Nat) (text : Bytes)

theorem decodeQuads_first (h : d < 64) :
    decodeQuads 0 left pads (base64Char d :: text) = decodeQuads 1 d 0 text := by
  rw [decodeQuads, if_neg (base64Char_ne_pad h), base64Val_base64Char h]
  rfl

theorem decodeQuads_second (h : d < 64) :
    decodeQuads 1 left pads (base64Char d :: text)
      = (decodeQuads 2 (d % 16) 0 text).map (UInt8.ofNat (left * 4 + d / 16) :: ·) := by
  rw [decodeQuads, if_neg (base64Char_ne_pad h), base64Val_base64Char h]
  rfl

theorem decodeQuads_third (h : d < 64) :
    decodeQuads 2 left pads (base64Char d :: text)
      = (decodeQuads 3 (d % 4) 0 text).map (UInt8.ofNat (left * 16 + d / 4) :: ·) := by
  rw [decodeQuads, if_neg (base64Char_ne_pad h), base64Val_base64Char h]
  rfl

theorem decodeQuads_fourth (h : d < 64) :
    decodeQuads 3 left pads (base64Char d :: text)
      = (decodeQuads 0 0 0 text).map (UInt8.ofNat (left * 64 + d) :: ·) := by
  rw [decodeQuads, if_neg (base64Char_ne_pad h), base64Val_base64Char h]
  rfl

end Characters

/-- **Bytes that are written are read back.** -/
theorem b64decode_b64encode : ∀ data : Bytes, b64decode (b64encode data) = some data
  | [] => rfl
  | [a] => by
      have ha := a.toNat_lt
      rw [b64decode, b64encode, decodeQuads_first _ _ _ (by omega),
        decodeQuads_second _ _ _ (by omega)]
      rw [show a.toNat / 4 * 4 + a.toNat % 4 * 16 / 16 = a.toNat by omega, UInt8.ofNat_toNat]
      rfl
  | [a, b] => by
      have ha := a.toNat_lt
      have hb := b.toNat_lt
      rw [b64decode, b64encode, decodeQuads_first _ _ _ (by omega),
        decodeQuads_second _ _ _ (by omega), decodeQuads_third _ _ _ (by omega)]
      rw [show a.toNat / 4 * 4 + (a.toNat % 4 * 16 + b.toNat / 16) / 16 = a.toNat by omega,
        show (a.toNat % 4 * 16 + b.toNat / 16) % 16 * 16 + b.toNat % 16 * 4 / 4 = b.toNat by omega,
        UInt8.ofNat_toNat, UInt8.ofNat_toNat]
      rfl
  | a :: b :: c :: data => by
      have ha := a.toNat_lt
      have hb := b.toNat_lt
      have hc := c.toNat_lt
      have hrest := b64decode_b64encode data
      rw [b64decode] at hrest
      rw [b64decode, b64encode, decodeQuads_first _ _ _ (by omega),
        decodeQuads_second _ _ _ (by omega), decodeQuads_third _ _ _ (by omega),
        decodeQuads_fourth _ _ _ (by omega), hrest]
      rw [show a.toNat / 4 * 4 + (a.toNat % 4 * 16 + b.toNat / 16) / 16 = a.toNat by omega,
        show (a.toNat % 4 * 16 + b.toNat / 16) % 16 * 16
          + (b.toNat % 16 * 4 + c.toNat / 64) / 4 = b.toNat by omega,
        show (b.toNat % 16 * 4 + c.toNat / 64) % 4 * 64 + c.toNat % 64 = c.toNat by omega,
        UInt8.ofNat_toNat, UInt8.ofNat_toNat, UInt8.ofNat_toNat]
      rfl

theorem mem_b64encode : ∀ {data : Bytes} {c : UInt8}, c ∈ b64encode data →
    c = base64Pad ∨ (base64Val c).isSome = true := by
  have hdigit : ∀ {c : UInt8} {d : Nat}, d < 64 → c = base64Char d →
      c = base64Pad ∨ (base64Val c).isSome = true := by
    rintro c d hd rfl
    rw [base64Val_base64Char hd]
    exact .inr rfl
  intro data
  induction data using b64encode.induct with
  | case1 => exact fun h => absurd h List.not_mem_nil
  | case2 a =>
    intro c h
    have ha := a.toNat_lt
    simp only [b64encode, List.mem_cons, List.not_mem_nil, or_false] at h
    rcases h with h | h | h | h
    · exact hdigit (by omega) h
    · exact hdigit (by omega) h
    · exact .inl h
    · exact .inl h
  | case3 a b =>
    intro c h
    have ha := a.toNat_lt
    have hb := b.toNat_lt
    simp only [b64encode, List.mem_cons, List.not_mem_nil, or_false] at h
    rcases h with h | h | h | h
    · exact hdigit (by omega) h
    · exact hdigit (by omega) h
    · exact hdigit (by omega) h
    · exact .inl h
  | case4 a b c data ih =>
    intro x h
    have ha := a.toNat_lt
    have hb := b.toNat_lt
    have hc := c.toNat_lt
    simp only [b64encode, List.mem_cons] at h
    rcases h with h | h | h | h | h
    · exact hdigit (by omega) h
    · exact hdigit (by omega) h
    · exact hdigit (by omega) h
    · exact hdigit (by omega) h
    · exact ih h

/-- A character that is passed over. -/
def Foreign (c : UInt8) : Prop := c ≠ base64Pad ∧ base64Val c = none

theorem foreign_notMem_b64encode {c : UInt8} (h : Foreign c) (data : Bytes) :
    c ∉ b64encode data := by
  intro hc
  rcases mem_b64encode hc with hpad | hval
  · exact h.1 hpad
  · rw [h.2] at hval
    exact absurd hval (by decide)

theorem decodeQuads_foreign {tail : Bytes} (h : ∀ c ∈ tail, Foreign c) (quad left pads : Nat) :
    decodeQuads quad left pads tail = decodeQuads quad left pads [] := by
  induction tail with
  | nil => rfl
  | cons c tail ih =>
    obtain ⟨hpad, hval⟩ := h c List.mem_cons_self
    have hstep : decodeQuads quad left pads (c :: tail) = decodeQuads quad left pads tail := by
      rw [decodeQuads, if_neg hpad, hval]
    rw [hstep]
    exact ih (fun x hx => h x (List.mem_cons_of_mem _ hx))

/-- What is passed over may follow. -/
theorem b64decode_append (text : Bytes) {tail : Bytes} (h : ∀ c ∈ tail, Foreign c) :
    b64decode (text ++ tail) = b64decode text := by
  have hquads : ∀ quad left pads, decodeQuads quad left pads (text ++ tail)
      = decodeQuads quad left pads text := by
    induction text with
    | nil => exact decodeQuads_foreign h
    | cons c text ih =>
      intro quad left pads
      rw [List.cons_append, decodeQuads, decodeQuads]
      simp only [ih]
  exact hquads 0 0 0

end NavigationServer.Lib
