/-
NavigationServer.Lib.Text — texts as the octets of their UTF-8 form.

`encode` is the form of a text, and `decodes` tells whether octets are a text.
`rstrip` takes characters off the end; the characters are ASCII, so octets do.
-/
import Mathlib.Data.List.DropRight
import NavigationServer.Lib.Bytes

namespace NavigationServer.Lib

/-- The UTF-8 form of a text. -/
def encode (text : List Char) : Bytes := text.flatMap String.utf8EncodeChar

/-- The octets are the UTF-8 form of a text. -/
def decodes (msg : Bytes) : Bool := (ByteArray.mk msg.toArray).validateUTF8

/-- `msg.rstrip(chars)`. -/
def rstrip (msg chars : Bytes) : Bytes := msg.rdropWhile (· ∈ chars)

theorem utf8EncodeChar_ascii {c : UInt8} (h : c < 128) :
    String.utf8EncodeChar (Char.ofUInt8 c) = [c] := by
  have hval : (Char.ofUInt8 c).val.toNat = c.toNat := c.toNat_toUInt32
  have hle : c.toNat ≤ 127 := Nat.le_of_lt_succ (UInt8.lt_iff_toNat_lt.mp h)
  unfold String.utf8EncodeChar
  dsimp only
  rw [hval, if_pos hle, UInt8.ofNat_toNat]

/-- A text of ASCII characters has an octet for each of them. -/
theorem encode_ascii {text : List Char} (h : ∀ c ∈ text, c.toNat < 128) :
    encode text = text.map (fun c => UInt8.ofNat c.toNat) := by
  induction text with
  | nil => rfl
  | cons c text ih =>
    have hc := h c List.mem_cons_self
    have hchar : String.utf8EncodeChar c = [UInt8.ofNat c.toNat] := by
      unfold String.utf8EncodeChar
      exact if_pos (Nat.le_of_lt_succ hc)
    have htail := ih fun c' hc' => h c' (List.mem_cons_of_mem _ hc')
    rw [encode] at htail ⊢
    rw [List.flatMap_cons, hchar, htail, List.map_cons, List.singleton_append]

/-- ASCII characters are a text. -/
theorem decodes_ascii {msg : Bytes} (h : ∀ c ∈ msg, c < 128) : decodes msg = true := by
  have hencode : (msg.map Char.ofUInt8).flatMap String.utf8EncodeChar = msg := by
    induction msg with
    | nil => rfl
    | cons c msg ih =>
      rw [List.map_cons, List.flatMap_cons, utf8EncodeChar_ascii (h c List.mem_cons_self),
        ih (fun x hx => h x (List.mem_cons_of_mem _ hx)), List.singleton_append]
  unfold decodes
  rw [ByteArray.validateUTF8_eq_true_iff]
  refine ⟨msg.map Char.ofUInt8, ?_⟩
  unfold List.utf8Encode
  rw [hencode, ← List.data_toByteArray]

/-- No text has an octet with all bits set. -/
theorem allOnes_notMem_encode (text : List Char) : 0xFF ∉ encode text := by
  have hbyte : ∀ {n : Nat}, n % 256 ≠ 255 → UInt8.ofNat n ≠ 0xFF := by
    intro n hn heq
    have hnat := congrArg UInt8.toNat heq
    rw [UInt8.toNat_ofNat'] at hnat
    exact hn hnat
  intro hmem
  obtain ⟨c, -, hc⟩ := List.mem_flatMap.mp hmem
  -- a first octet has a bit that is not set, and so has one that follows it
  unfold String.utf8EncodeChar at hc
  dsimp only at hc
  split at hc
  · exact hbyte (by omega) (List.mem_singleton.mp hc).symm
  · split at hc
    · rcases List.mem_pair.mp hc with hc | hc
      · exact hbyte (by omega) hc.symm
      · exact hbyte (by omega) hc.symm
    · split at hc
      · simp only [List.mem_cons, List.not_mem_nil, or_false] at hc
        rcases hc with hc | hc | hc
        all_goals exact hbyte (by omega) hc.symm
      · simp only [List.mem_cons, List.not_mem_nil, or_false] at hc
        rcases hc with hc | hc | hc | hc
        all_goals exact hbyte (by omega) hc.symm

theorem rstrip_eq_self {msg chars : Bytes} (h : ∀ x ∈ chars, x ∉ msg) : rstrip msg chars = msg := by
  unfold rstrip
  rw [List.rdropWhile_eq_self_iff]
  intro hne hlast
  exact h _ (of_decide_eq_true hlast) (List.getLast_mem hne)

end NavigationServer.Lib
