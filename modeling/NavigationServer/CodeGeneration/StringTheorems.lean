/-
NavigationServer.CodeGeneration.StringTheorems — where an inserted string stays
inside its field.

`insert_string` counts characters and writes their octets. When the octets of
the characters that it takes are no more than the field, the rest of the field is
padded; the octets beyond the field go over what follows, or make the buffer
longer. An ASCII text has an octet for each character, and is read back.
-/
import NavigationServer.CodeGeneration.PythonGen
import NavigationServer.Lib.Text

namespace NavigationServer.CodeGeneration

open NavigationServer.Lib

/-! ## 1. What is said of a string -/

/-- The octets of the characters that are no more than the field is long. -/
def bytesToInsert (length : Nat) (s : String) : Bytes := encode (s.toList.take length)

/-- The field: the octets as far as they go, and the padding. -/
def fieldBytes (length : Nat) (s : String) : Bytes :=
  (bytesToInsert length s ++ List.replicate length 0xFF).take length

/-- All octets of the field are set, and all others are as they were. -/
def StaysInside (buffer : Bytes) (start length : Nat) (s : String) : Prop :=
  insertString buffer start length s
    = .ok (buffer.take start ++ (fieldBytes length s ++ buffer.drop (start + length)))

/-- A printable ASCII text that does not end with what is taken for padding. -/
structure Plain (s : String) : Prop where
  ascii : ∀ c ∈ s.toList, 0x20 ≤ c.toNat ∧ c.toNat < 0x7F
  last : ∀ c ∈ s.toList.getLast?, c ≠ ' ' ∧ c ≠ '@'

/-! ## 2. The octets of a string -/

theorem utf8_eq_encode (s : String) : utf8 s = encode s.toList := by
  have hbytes : s.toList.utf8Encode.data.toList = s.toByteArray.data.toList := by
    rw [String.utf8Encode_toList]
  rw [utf8, String.toUTF8_eq_toByteArray, ← hbytes]
  unfold List.utf8Encode encode
  rw [List.data_toByteArray]

theorem fromUTF8_utf8 (s : String) : String.fromUTF8? ⟨(utf8 s).toArray⟩ = some s := by
  have hbytes : ByteArray.mk (utf8 s).toArray = s.toByteArray := by
    rw [utf8, String.toUTF8_eq_toByteArray]
  rw [hbytes, String.fromUTF8?, dif_pos s.isValidUTF8]
  rfl

/-- An ASCII text has as many octets as characters. -/
theorem length_utf8_ascii {s : String} (h : ∀ c ∈ s.toList, c.toNat < 128) :
    (utf8 s).length = s.length := by
  rw [utf8_eq_encode, encode_ascii h, List.length_map, String.length_toList]

theorem Plain.length_utf8 {s : String} (h : Plain s) : (utf8 s).length = s.length :=
  length_utf8_ascii fun c hc => Nat.lt_of_lt_of_le (h.ascii c hc).2 (by decide)

/-- No octet of a plain text ends it. -/
theorem Plain.utf8_ne {s : String} (h : Plain s) {b : UInt8} (hb : b ∈ utf8 s) : b ≠ 0xFF ∧ b ≠ 0 := by
  rw [utf8_eq_encode, encode_ascii fun c hc => Nat.lt_of_lt_of_le (h.ascii c hc).2 (by decide)] at hb
  obtain ⟨c, hc, rfl⟩ := List.mem_map.mp hb
  obtain ⟨hlow, hhigh⟩ := h.ascii c hc
  have hnat : (UInt8.ofNat c.toNat).toNat = c.toNat := by
    rw [UInt8.toNat_ofNat']
    omega
  constructor
  · intro heq
    rw [heq] at hnat
    change 0xFF = c.toNat at hnat
    omega
  · intro heq
    rw [heq] at hnat
    change 0 = c.toNat at hnat
    omega

/-- Nothing is taken off the end of a plain text. -/
theorem Plain.rdropWhile_eq {s : String} (h : Plain s) :
    s.toList.rdropWhile (fun c => c = '@' ∨ c = ' ' ∨ c.toNat = 0) = s.toList := by
  rw [List.rdropWhile_eq_self_iff]
  intro hne hlast
  obtain ⟨hblank, hat⟩ := h.last _ (List.getLast?_eq_some_getLast hne)
  rcases of_decide_eq_true hlast with heq | heq | heq
  · exact hat heq
  · exact hblank heq
  · have hlow := (h.ascii _ (List.getLast_mem hne)).1
    omega

/-! ## 3. Inserting -/

/-- The octets that `insert_string` takes. -/
theorem bytesToInsert_eq (length : Nat) (s : String) :
    (if length < s.length then utf8 (s.take length).toString else utf8 s) = bytesToInsert length s := by
  unfold bytesToInsert
  split
  · rw [utf8_eq_encode]
    exact congrArg encode String.toList_copy_take
  · rename_i h
    rw [utf8_eq_encode, List.take_of_length_le (by rw [String.length_toList]; omega)]

theorem length_encode_ge (text : List Char) : text.length ≤ (encode text).length := by
  induction text with
  | nil => exact Nat.le_refl _
  | cons c text ih =>
    have hpos : 0 < (String.utf8EncodeChar c).length := by
      rw [String.length_utf8EncodeChar]
      exact c.utf8Size_pos
    unfold encode at ih ⊢
    rw [List.flatMap_cons, List.length_append, List.length_cons]
    omega

variable {buffer : Bytes} {start length : Nat}

/-- Octets that may go beyond the end of the buffer. -/
theorem setSlice_bytes (hstart : start ≤ buffer.length) (bytes : Bytes) :
    setSlice buffer (start : Int) ((start + bytes.length : Nat) : Int) bytes
      = (buffer.take start ++ bytes) ++ buffer.drop (start + bytes.length) := by
  simp only [setSlice, clampIndex_natCast]
  rw [Nat.min_eq_left hstart]
  rcases Nat.le_total (start + bytes.length) buffer.length with h | h
  · rw [Nat.min_eq_left h, Nat.max_eq_right (Nat.le_add_right _ _)]
  · rw [Nat.min_eq_right h, Nat.max_eq_right hstart, List.drop_length, List.drop_eq_nil_of_le h]

/-- **What `insert_string` does**: all octets stand at the start, and the padding
behind them as far as the field goes. -/
theorem insertString_eq (hroom : start + length ≤ buffer.length) (s : String) :
    insertString buffer start length s
      = .ok (buffer.take start ++ (bytesToInsert length s ++
          (List.replicate (length - (bytesToInsert length s).length) 0xFF ++
            buffer.drop (start + max length (bytesToInsert length s).length)))) := by
  have hcount : length ≤ s.length → length ≤ (bytesToInsert length s).length := by
    intro h
    refine Nat.le_trans ?_ (length_encode_ge _)
    rw [List.length_take, String.length_toList]
    omega
  unfold insertString
  simp only [bytesToInsert_eq]
  generalize bytesToInsert length s = bytes at hcount
  have hstart : start ≤ buffer.length := by omega
  have hfront : (buffer.take start ++ bytes).length = start + bytes.length := by
    rw [List.length_append, List.length_take_of_le hstart]
  have hpad : start + length - (start + bytes.length) = length - bytes.length := by omega
  have hmax : max (start + bytes.length) (start + length) = start + max length bytes.length := by
    omega
  rw [setSlice_bytes hstart]
  split
  · have hbuffer : start + length ≤ max (start + bytes.length)
        ((buffer.take start ++ bytes) ++ buffer.drop (start + bytes.length)).length := by
      rw [List.length_append, hfront, List.length_drop]
      omega
    rw [if_pos hbuffer, List.take_left' hfront, List.drop_append, hfront, List.drop_eq_nil_of_le,
      List.nil_append, List.drop_drop, hpad, hmax, List.append_assoc,
      show start + bytes.length + (start + max length bytes.length - (start + bytes.length))
        = start + max length bytes.length by omega]
    rw [hfront]
    omega
  · rename_i hlength
    have hbytes := hcount (by omega)
    rw [Nat.sub_eq_zero_of_le hbytes, Nat.max_eq_right hbytes, List.replicate_zero, List.nil_append,
      List.append_assoc]

/-- **Where a string stays inside its field**: what its octets have beyond the
field is what the buffer has there. -/
theorem staysInside_iff (hroom : start + length ≤ buffer.length) (s : String) :
    StaysInside buffer start length s
      ↔ (bytesToInsert length s).drop length <+: buffer.drop (start + length) := by
  unfold StaysInside fieldBytes
  rw [insertString_eq hroom, Except.ok.injEq, List.append_cancel_left_eq]
  generalize bytesToInsert length s = bytes
  rcases Nat.le_total bytes.length length with h | h
  · rw [List.drop_eq_nil_of_le h, Nat.max_eq_left h, List.take_append, List.take_of_length_le h,
      List.take_replicate, Nat.min_eq_left (Nat.sub_le _ _), List.append_assoc]
    exact iff_of_true rfl List.nil_prefix
  · obtain ⟨inside, beyond, rfl, rfl⟩ : ∃ inside beyond, bytes = inside ++ beyond ∧ inside.length = length :=
      ⟨_, _, (List.take_append_drop length bytes).symm, List.length_take_of_le h⟩
    rw [Nat.sub_eq_zero_of_le h, Nat.max_eq_right h, List.take_append_of_le_length h,
      List.replicate_zero, List.nil_append, List.take_left, List.drop_left, List.append_assoc,
      List.append_cancel_left_eq, List.length_append, ← Nat.add_assoc, ← List.drop_drop]
    exact ⟨fun heq => ⟨_, heq⟩, fun hprefix => List.prefix_iff_eq_append.mp hprefix⟩

/-- Two bytes and `n` more of a buffer. -/
theorem exists_append_cons_cons {buffer : Bytes} {start n : Nat} (h : start + n + 2 ≤ buffer.length) :
    ∃ front a b old back, buffer = front ++ (a :: b :: (old ++ back)) ∧ front.length = start ∧
      old.length = n := by
  have hlength : (buffer.drop start).length = buffer.length - start := List.length_drop
  rcases hdrop : buffer.drop start with _ | ⟨a, _ | ⟨b, rest⟩⟩
  · rw [hdrop, List.length_nil] at hlength
    omega
  · rw [hdrop, List.length_singleton] at hlength
    omega
  · rw [hdrop, List.length_cons, List.length_cons] at hlength
    refine ⟨buffer.take start, a, b, rest.take n, rest.drop n, ?_, ?_, ?_⟩
    · rw [List.take_append_drop, ← hdrop, List.take_append_drop]
    · exact List.length_take_of_le (by omega)
    · exact List.length_take_of_le (by omega)

/-- A string of variable length stands behind its length and its type. -/
theorem insertVarStr_eq {s : String} (hlength : (utf8 s).length ≤ 253)
    (hroom : start + (utf8 s).length + 2 ≤ buffer.length) :
    insertVarStr buffer start s
      = .ok (buffer.take start ++ (UInt8.ofNat ((utf8 s).length + 2) :: 1 ::
          (utf8 s ++ buffer.drop (start + (utf8 s).length + 2))), (utf8 s).length + 2) := by
  unfold insertVarStr
  generalize utf8 s = bytes at hlength hroom
  obtain ⟨front, a, b, old, back, rfl, rfl, hold⟩ := exists_append_cons_cons hroom
  have hfirst := setByte_append front (b :: (old ++ back)) a (show bytes.length + 2 < 256 by omega)
  have hsecond := setByte_append (front ++ [UInt8.ofNat (bytes.length + 2)]) (old ++ back) b
    (show 1 < 256 by decide)
  rw [List.length_append, List.length_singleton, List.append_assoc, List.append_assoc,
    List.singleton_append, List.singleton_append] at hsecond
  have hdrop : (front ++ (a :: b :: (old ++ back))).drop (front.length + bytes.length + 2) = back := by
    rw [← hold, Nat.add_assoc, List.drop_length_add_append]
    exact List.drop_left
  rw [List.take_left, hdrop]
  change (setByte _ _ _ >>= _) = _
  rw [hfirst]
  change (setByte _ _ _ >>= _) = _
  rw [hsecond]
  change (if bytes.isEmpty then _ else _) = _
  split
  · rename_i hempty
    have hbytes : bytes = [] := List.isEmpty_iff.mp hempty
    have hold : old = [] := List.length_eq_zero_iff.mp (by rw [hold, hbytes]; rfl)
    rw [hbytes, hold]
    rfl
  · have hset := setSlice_append (front ++ [UInt8.ofNat (bytes.length + 2), 1]) old back bytes
    rw [List.length_append, hold, List.append_assoc, List.append_assoc] at hset
    rw [show bytes.length + front.length + 2 = front.length + 2 + bytes.length by omega]
    exact congrArg (fun buffer => Except.ok (buffer, bytes.length + 2)) hset

/-! ## 4. Reading back -/

section Text

variable {printable : Char → Bool}

/-- A plain text with its padding is cleaned to the text. -/
theorem cleanString_padded (hprintable : ∀ c : Char, 0x20 ≤ c.toNat → c.toNat < 0x7F → printable c)
    {s : String} (h : Plain s) (n : Nat) :
    cleanString printable (utf8 s ++ List.replicate n 0xFF) = s := by
  have hcut : (utf8 s ++ List.replicate n 0xFF).takeWhile (· ≠ 0xFF) = utf8 s := by
    rw [List.takeWhile_append_of_pos (fun b hb => decide_eq_true (h.utf8_ne hb).1)]
    cases n with
    | zero => exact List.append_nil _
    | succ n => exact List.append_nil _
  have hnull : (utf8 s).takeWhile (· ≠ 0) = utf8 s :=
    List.takeWhile_eq_self_iff.mpr fun b hb => decide_eq_true (h.utf8_ne hb).2
  have hall : s.toList.all printable = true :=
    List.all_eq_true.mpr fun c hc => hprintable c (h.ascii c hc).1 (h.ascii c hc).2
  simp only [cleanString, hcut, hnull, fromUTF8_utf8, h.rdropWhile_eq, hall]
  exact String.ofList_toList

/-- **A plain text that fits is read back from its field.** -/
theorem cleanString_insertString
    (hprintable : ∀ c : Char, 0x20 ≤ c.toNat → c.toNat < 0x7F → printable c) {s : String}
    (h : Plain s) (hroom : start + length ≤ buffer.length) (hfits : s.length ≤ length) :
    ∃ buffer', insertString buffer start length s = .ok buffer' ∧
      cleanString printable (slice buffer' (start : Int) ((start + length : Nat) : Int)) = s := by
  have hbytes : bytesToInsert length s = utf8 s := by
    rw [bytesToInsert, utf8_eq_encode, List.take_of_length_le (by rwa [String.length_toList])]
  have hle : (utf8 s).length ≤ length := by
    rw [h.length_utf8]
    exact hfits
  have hinside : StaysInside buffer start length s := by
    rw [staysInside_iff hroom, hbytes, List.drop_eq_nil_of_le hle]
    exact List.nil_prefix
  have hfield : fieldBytes length s = utf8 s ++ List.replicate (length - (utf8 s).length) 0xFF := by
    rw [fieldBytes, hbytes, List.take_append, List.take_of_length_le hle, List.take_replicate,
      Nat.min_eq_left (Nat.sub_le _ _)]
  have hsize : (fieldBytes length s).length = length := by
    rw [hfield, List.length_append, List.length_replicate]
    omega
  have hstart : (buffer.take start).length = start := List.length_take_of_le (by omega)
  refine ⟨_, hinside, ?_⟩
  have hslice := slice_append (buffer.take start) (fieldBytes length s) (buffer.drop (start + length))
  rw [hstart, hsize] at hslice
  rw [hslice, hfield]
  exact cleanString_padded hprintable h _

/-- **A plain text of variable length is read back**, and so is its length. -/
theorem extractVarStr_insertVarStr
    (hprintable : ∀ c : Char, 0x20 ≤ c.toNat → c.toNat < 0x7F → printable c) {s : String}
    (h : Plain s) (hlength : s.length ≤ 253) (hroom : start + s.length + 2 ≤ buffer.length) :
    ∃ buffer' n, insertVarStr buffer start s = .ok (buffer', n) ∧
      extractVarStr printable buffer' start = .ok (s, n) := by
  rw [← h.length_utf8] at hlength hroom
  refine ⟨_, _, insertVarStr_eq hlength hroom, ?_⟩
  have hclean := cleanString_padded hprintable h 0
  rw [List.replicate_zero, List.append_nil] at hclean
  have hempty : (utf8 s).length = 0 → s = "" := by
    rw [h.length_utf8, ← String.length_toList, List.length_eq_zero_iff, String.toList_eq_nil_iff]
    exact id
  generalize utf8 s = bytes at *
  generalize buffer.drop (start + bytes.length + 2) = back
  obtain ⟨front, hfront⟩ : ∃ front, front = buffer.take start := ⟨_, rfl⟩
  have hstart : front.length = start := by
    rw [hfront]
    exact List.length_take_of_le (by omega)
  have hslice := slice_append (front ++ [UInt8.ofNat (bytes.length + 2), 1]) bytes back
  have hnat : (UInt8.ofNat (bytes.length + 2)).toNat = bytes.length + 2 := by
    rw [UInt8.toNat_ofNat']
    omega
  have hfirst := item_append front (1 :: (bytes ++ back)) (UInt8.ofNat (bytes.length + 2))
  have hsecond := item_append (front ++ [UInt8.ofNat (bytes.length + 2)]) (bytes ++ back) 1
  rw [List.length_append, List.length_singleton, List.append_assoc, List.singleton_append] at hsecond
  rw [← hfront, ← hstart]
  unfold extractVarStr
  rw [hfirst]
  change (item _ _ >>= _) = _
  rw [hsecond]
  change (if (UInt8.ofNat (bytes.length + 2)).toNat = 2 then _ else _) = _
  rw [hnat]
  split
  · rename_i htotal
    rw [hempty (by omega)]
    rfl
  · rw [List.length_append, List.append_assoc] at hslice
    change Except.ok (cleanString printable (slice _ _ _), _) = _
    rw [show front.length + (bytes.length + 2) = front.length + 2 + bytes.length by omega]
    exact congrArg (fun text => Except.ok (text, bytes.length + 2)) ((congrArg _ hslice).trans hclean)

end Text

/-! ## 5. All strings -/

/-- **Where insertion stays inside the field.** A string does where the octets of
its characters that go beyond the field are those of the buffer, so where there
are none; plain texts are read back from a field and from a variable length. -/
theorem insertion_iff (printable : Char → Bool)
    (hprintable : ∀ c : Char, 0x20 ≤ c.toNat → c.toNat < 0x7F → printable c) :
    (∀ (buffer : Bytes) (start length : Nat) (s : String), start + length ≤ buffer.length →
      (StaysInside buffer start length s
        ↔ (bytesToInsert length s).drop length <+: buffer.drop (start + length))) ∧
    (∀ (buffer : Bytes) (start length : Nat) (s : String), start + length ≤ buffer.length →
      Plain s → s.length ≤ length →
      ∃ buffer', insertString buffer start length s = .ok buffer' ∧
        cleanString printable (slice buffer' (start : Int) ((start + length : Nat) : Int)) = s) ∧
    (∀ (buffer : Bytes) (start : Nat) (s : String), start + s.length + 2 ≤ buffer.length →
      Plain s → s.length ≤ 253 →
      ∃ buffer' n, insertVarStr buffer start s = .ok (buffer', n) ∧
        extractVarStr printable buffer' start = .ok (s, n)) := by
  refine ⟨?_, ?_, ?_⟩
  · intro buffer start length s hroom
    exact staysInside_iff hroom s
  · intro buffer start length s hroom h hfits
    exact cleanString_insertString hprintable h hroom hfits
  · intro buffer start s hroom h hlength
    exact extractVarStr_insertVarStr hprintable h hlength hroom

/-- `isprintable`, of an ASCII character. -/
def asciiPrintable (c : Char) : Bool := 0x20 ≤ c.toNat ∧ c.toNat < 0x7F

/-- A text of two letters in a field of two bytes, and of variable length. -/
theorem insertion_ascii : StaysInside [0, 0, 0] 0 2 "ab" ∧
    (∃ buffer, insertString [0, 0, 0] 0 2 "ab" = .ok buffer ∧
      cleanString asciiPrintable (slice buffer 0 2) = "ab") ∧
    ∃ buffer n, insertVarStr [0, 0, 0, 0] 0 "ab" = .ok (buffer, n) ∧
      extractVarStr asciiPrintable buffer 0 = .ok ("ab", n) := by
  have hprintable : ∀ c : Char, 0x20 ≤ c.toNat → c.toNat < 0x7F → asciiPrintable c :=
    fun _ hlow hhigh => decide_eq_true ⟨hlow, hhigh⟩
  have hplain : Plain "ab" := ⟨by simp, by simp⟩
  obtain ⟨hstays, hfixed, hvariable⟩ := insertion_iff asciiPrintable hprintable
  exact ⟨(hstays [0, 0, 0] 0 2 "ab" (by decide)).mpr (by decide),
    hfixed [0, 0, 0] 0 2 "ab" (by decide) hplain (by decide),
    hvariable [0, 0, 0, 0] 0 "ab" (by decide) hplain (by decide)⟩

/-- A letter of two octets goes over the byte behind a field of one. -/
theorem not_staysInside_twoOctets : ¬ StaysInside [0, 0] 0 1 "é" := by
  rw [staysInside_iff (by decide)]
  decide

end NavigationServer.CodeGeneration
