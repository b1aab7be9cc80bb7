/-
NavigationServer.CanInterface.GroupFunctionTheorems — what an acknowledgement
carries.

* `not_roundTrips` : no acknowledgement is read back, since the message is asked
  for its items.
* `answered_iff` : when each parameter of a command is answered. The codes are
  packed two in a byte, and of an odd number the last one is not written
  (`encodePayload_eq`, `ackCodes_eq`).
* `groupFunctionHandler_name` : the handler that the address model has of this one,
  with the NAME only, gives an application the same NAME.
-/
import NavigationServer.CanInterface.GroupFunction
import NavigationServer.Nmea2000Datamodel.MutableNameTheorems

namespace NavigationServer.CanInterface

open NavigationServer.CodeGeneration (setByte utf8 cleanString)
open NavigationServer.Lib
open NavigationServer.Nmea2000
open NavigationServer.Nmea2000Datamodel
open NavigationServer.RouterCore

namespace AcknowledgeGroupFunction

/-! ## 1. Two codes in a byte -/

/-- The bytes of the codes. -/
def packed : List Nat → Bytes
  | a :: b :: codes => UInt8.ofNat (a <<< 4 ||| b) :: packed codes
  | [_] => [0]
  | [] => []

/-- What is read of the codes: the last of an odd number is lost. -/
def readBack : List Nat → List Nat
  | a :: b :: codes => a :: b :: readBack codes
  | [_] => [0]
  | [] => []

@[simp] theorem length_readBack (codes : List Nat) : (readBack codes).length = codes.length := by
  induction codes using readBack.induct with
  | case1 a b codes ih => simp [readBack, ih]
  | case2 => rfl
  | case3 => rfl

/-- An even number of codes comes back. -/
theorem readBack_even (codes : List Nat) (h : codes.length % 2 = 0) : readBack codes = codes := by
  induction codes using readBack.induct with
  | case1 a b codes ih =>
    rw [readBack, ih (by simp only [List.length_cons] at h; omega)]
  | case2 a => simp at h
  | case3 => rfl

/-- Of an odd number the last one is read as 0. -/
theorem readBack_odd (codes : List Nat) (h : codes.length % 2 = 1) :
    readBack codes = codes.dropLast ++ [0] := by
  induction codes using readBack.induct with
  | case1 a b codes ih =>
    have hodd : codes.length % 2 = 1 := by simp only [List.length_cons] at h; omega
    have hne : codes ≠ [] := by
      rintro rfl
      simp at hodd
    rw [readBack, ih hodd, List.dropLast_cons_of_ne_nil (List.cons_ne_nil b codes),
      List.dropLast_cons_of_ne_nil hne]
    rfl
  | case2 a => rfl
  | case3 => simp at h

/-- A byte of two codes. -/
theorem nibbles {a b : Nat} (ha : a < 16) (hb : b < 16) :
    a <<< 4 ||| b < 256 ∧ ((a <<< 4 ||| b) >>> 4) &&& 0xF = a ∧ (a <<< 4 ||| b) &&& 0xF = b := by
  have hsum : a <<< 4 ||| b = a * 16 + b := by
    rw [← Nat.shiftLeft_add_eq_or_of_lt (show b < 2 ^ 4 from hb), Nat.shiftLeft_eq]
  rw [hsum, Nat.shiftRight_eq_div_pow, show (0xF : Nat) = 2 ^ 4 - 1 from rfl,
    Nat.and_two_pow_sub_one_eq_mod, Nat.and_two_pow_sub_one_eq_mod]
  omega

/-- The loop that packs the codes. -/
theorem packLoop_eq (codes : List Nat) : ∀ (front : List Nat) (v : Nat) (done : Bytes),
    front.length % 2 = 0 → (∀ c ∈ codes, c < 16) →
    packLoop (front ++ codes) codes.length front.length v
        (done ++ List.replicate ((codes.length + 1) / 2) 0) done.length
      = .ok (done ++ packed codes) := by
  induction codes using packed.induct with
  | case1 a b codes ih =>
    intro front v done heven hcodes
    obtain ⟨hlt, -, -⟩ := nibbles (hcodes a (by simp)) (hcodes b (by simp))
    have hodd : ¬ (front.length + 1) % 2 = 0 := by omega
    have hspace : ((a :: b :: codes).length + 1) / 2 = (codes.length + 1) / 2 + 1 := by
      simp only [List.length_cons]
      omega
    have hb : item (front ++ a :: b :: codes) (front.length + 1) = .ok b := by
      have := item_append (front ++ [a]) codes b
      simpa using this
    rw [hspace, List.replicate_succ]
    simp only [List.length_cons, packLoop, item_append, hb, heven, if_true, if_neg hodd,
      CodeGeneration.setByte_append _ _ _ hlt, bind, Except.bind]
    have hrest := ih (front ++ [a, b]) (a <<< 4 ||| b) (done ++ [UInt8.ofNat (a <<< 4 ||| b)])
      (by simp; omega) (fun c hc => hcodes c (by simp [hc]))
    simpa [packed] using hrest
  | case2 a =>
    intro front v done heven _
    simp [packLoop, item_append, heven, packed, bind, Except.bind]
  | case3 =>
    intro front v done _ _
    simp [packLoop, packed]

/-- The loop that reads them. -/
theorem unpackLoop_eq (codes : List Nat) : ∀ (pIdx : Nat) (done : Bytes),
    pIdx % 2 = 0 → (∀ c ∈ codes, c < 16) →
    unpackLoop (done ++ packed codes) codes.length pIdx done.length = .ok (readBack codes) := by
  induction codes using packed.induct with
  | case1 a b codes ih =>
    intro pIdx done heven hcodes
    obtain ⟨hlt, ha, hb⟩ := nibbles (hcodes a (by simp)) (hcodes b (by simp))
    have hodd : ¬ (pIdx + 1) % 2 = 0 := by omega
    have hbyte : (UInt8.ofNat (a <<< 4 ||| b)).toNat = a <<< 4 ||| b := by
      rw [UInt8.toNat_ofNat']
      exact Nat.mod_eq_of_lt hlt
    have hrest := ih (pIdx + 2) (done ++ [UInt8.ofNat (a <<< 4 ||| b)]) (by omega)
      (fun c hc => hcodes c (by simp [hc]))
    rw [List.append_assoc, List.singleton_append, List.length_append, List.length_singleton] at hrest
    simp only [packed, List.length_cons, unpackLoop, item_append, heven, if_true, if_neg hodd,
      hbyte, ha, hb, hrest, readBack, bind, Except.bind, pure, Except.pure]
  | case2 a =>
    intro pIdx done heven _
    simp [unpackLoop, packed, readBack, item_append, heven, bind, Except.bind, pure, Except.pure]
  | case3 =>
    intro pIdx done _ _
    rfl

/-! ## 2. The message -/

/-- The codes are counted and each is one of four bits, and so are the two error
codes. -/
structure Codes (a : AcknowledgeGroupFunction) : Prop where
  count : a.nbParam = a.params.length
  count_le : a.params.length ≤ 255
  code : ∀ c ∈ a.params, c < 16
  pgnError : a.pgnErrorCode < 16
  transmissionError : a.transmissionErrorCode < 16

/-- **The payload of an acknowledgement**: a header of six bytes, the fifth of
which counts the codes, and the codes. -/
theorem encodePayload_eq {a : AcknowledgeGroupFunction} (h : a.Codes) :
    ∃ header : Bytes, header.length = 5 ∧ a.encodePayload
      = .ok (header ++ UInt8.ofNat a.params.length :: packed a.params) := by
  obtain ⟨herr, -, -⟩ := nibbles h.pgnError h.transmissionError
  have hcount := h.count_le
  have hspace : a.params.length / 2 + a.params.length % 2 = (a.params.length + 1) / 2 := by omega
  obtain ⟨head, hhead⟩ : ∃ head : Bytes, head = 2 :: toLE 2 (a.functionPgn &&& 0xFFFF)
    ++ [UInt8.ofNat ((a.functionPgn >>> 16) &&& 0xFF),
      UInt8.ofNat (a.pgnErrorCode <<< 4 ||| a.transmissionErrorCode)] := ⟨_, rfl⟩
  have hlen : head.length = 5 := by simp [hhead]
  have hheader : a.fullHeader = .ok (head ++ [UInt8.ofNat a.params.length]) := by
    rw [fullHeader, h.count, if_neg (by omega), hhead]
    simp
  have hpack := packLoop_eq a.params [] 0 (head ++ [UInt8.ofNat a.params.length]) rfl h.code
  refine ⟨head, hlen, ?_⟩
  rw [encodePayload, hheader]
  simp only [bind, Except.bind, packParams, h.count, hspace]
  have hsix : (head ++ [UInt8.ofNat a.params.length]).length = 6 := by simp [hlen]
  rw [hsix] at hpack
  simpa using hpack

/-- The codes that a message carries. -/
def ackCodes (payload : Bytes) : Except Exn (List Nat) := do
  let n ← item payload 5
  unpackParams n.toNat (payload.drop 6)

/-- **The codes of an acknowledgement are carried**, up to the last one of an
odd number. -/
theorem ackCodes_eq {a : AcknowledgeGroupFunction} (h : a.Codes) :
    ∃ payload, a.encodePayload = .ok payload ∧ ackCodes payload = .ok (readBack a.params) := by
  obtain ⟨header, hlen, hpayload⟩ := encodePayload_eq h
  have hcount := h.count_le
  refine ⟨_, hpayload, ?_⟩
  have hitem := item_append header (packed a.params) (UInt8.ofNat a.params.length)
  rw [hlen] at hitem
  have hdrop : (header ++ UInt8.ofNat a.params.length :: packed a.params).drop 6
      = packed a.params := by
    rw [show (6 : Nat) = header.length + 1 by omega, List.drop_append]
    simp
  have hbyte : (UInt8.ofNat a.params.length).toNat = a.params.length := by
    rw [UInt8.toNat_ofNat']
    exact Nat.mod_eq_of_lt (by omega)
  have hloop := unpackLoop_eq a.params 0 [] rfl h.code
  simp only [ackCodes, hitem, bind, Except.bind, hdrop, hbyte]
  exact hloop

/-! ## 3. Reading an acknowledgement -/

/-- The acknowledgement is encoded, and the message is read back: the same PGN,
error codes and codes of the parameters. -/
def RoundTrips (defs : PGNDefinitions) (prio sa da : Nat) (a : AcknowledgeGroupFunction) : Prop :=
  ∃ payload b, a.encodePayload = .ok payload ∧
    ofMessage defs (.of 126208 prio sa da payload) = .ok b ∧
    b.functionPgn = a.functionPgn ∧ b.pgnErrorCode = a.pgnErrorCode ∧
    b.transmissionErrorCode = a.transmissionErrorCode ∧ b.params = a.params

/-- Reading a message always raises. -/
theorem ofMessage_error (defs : PGNDefinitions) (msg : NMEA2000Msg) :
    ∃ e, ofMessage defs msg = .error e := by
  unfold ofMessage
  cases groupFunctionHeader defs msg.payload with
  | error e => exact ⟨e, rfl⟩
  | ok header =>
    cases unpackFrom 2 msg.payload 4 with
    | error e => exact ⟨e, rfl⟩
    | ok v => exact ⟨_, rfl⟩

/-- **No acknowledgement is read back.** -/
theorem not_roundTrips (defs : PGNDefinitions) (prio sa da : Nat) (a : AcknowledgeGroupFunction) :
    ¬ RoundTrips defs prio sa da a := by
  rintro ⟨payload, b, -, hread, -⟩
  obtain ⟨e, he⟩ := ofMessage_error defs (.of 126208 prio sa da payload)
  rw [hread] at he
  cases he

/-- A definition of the PGN of group functions. -/
def groupDefs : PGNDefinitions :=
  .init [⟨126208, "NMEA - Command group function", none, some 9,
    some (.ok ⟨72, .error .keyError⟩)⟩]

/-- Two codes are packed into the last byte, and then the message is asked for
its items. -/
theorem not_roundTrips_twoCodes :
    (AcknowledgeGroupFunction.encodePayload ⟨60928, 0, 0, 2, [1, 3]⟩
        = .ok [2, 0, 238, 0, 0, 2, 0x13]) ∧
      ofMessage groupDefs (.of 126208 3 128 1 [2, 0, 238, 0, 0, 2, 0x13]) = .error .typeError ∧
      ¬ RoundTrips groupDefs 3 128 1 ⟨60928, 0, 0, 2, [1, 3]⟩ := by
  have hencode : AcknowledgeGroupFunction.encodePayload ⟨60928, 0, 0, 2, [1, 3]⟩
      = .ok [2, 0, 238, 0, 0, 2, 0x13] := by decide +kernel
  have hread : ofMessage groupDefs (.of 126208 3 128 1 [2, 0, 238, 0, 0, 2, 0x13])
      = .error .typeError := rfl
  refine ⟨hencode, hread, ?_⟩
  rintro ⟨payload, b, hpayload, hok, -⟩
  rw [hencode] at hpayload
  cases hpayload
  rw [hread] at hok
  cases hok

end AcknowledgeGroupFunction

/-! ## 4. Commands -/

/-- A command: numbers and values for the NAME, or numbers and texts for the
configuration information. -/
inductive Command where
  | addressClaim (params : List (Nat × Nat))
  | configuration (params : List (Nat × String))

namespace Command

/-- How many bytes the value of a field of the NAME takes. -/
def valueSize (number : Nat) : Nat := ((packedFields[number - 1]?).map NameField.byteSize).getD 0

/-- A parameter of a NAME: its number, and its value in as many bytes as it takes. -/
def nameParameter (p : Nat × Nat) : Bytes := UInt8.ofNat p.1 :: toLE (valueSize p.1) p.2

/-- A text is written as `insert_var_str` does it. -/
def textParameter (p : Nat × String) : Bytes :=
  UInt8.ofNat p.1 :: UInt8.ofNat ((utf8 p.2).length + 2) :: 1 :: utf8 p.2

/-- The PGN that a command is about. -/
def functionPgn : Command → Nat
  | .addressClaim _ => 60928
  | .configuration _ => 126998

/-- The number of its parameters. -/
def count : Command → Nat
  | .addressClaim params => params.length
  | .configuration params => params.length

/-- The parameters. -/
def body : Command → Bytes
  | .addressClaim params => params.flatMap nameParameter
  | .configuration params => params.flatMap textParameter

/-- The message: the function, the PGN, the priority, the count and the
parameters. -/
def payload (priority : UInt8) (c : Command) : Bytes :=
  1 :: (toLE 3 c.functionPgn ++ priority :: UInt8.ofNat c.count :: c.body)

/-- The numbers are those of fields of the PGN, and the values fit. -/
def WellFormed : Command → Prop
  | .addressClaim params => params.length ≤ 255 ∧
      ∀ p ∈ params, 1 ≤ p.1 ∧ p.1 ≤ 10 ∧ p.2 < 256 ^ valueSize p.1
  | .configuration params => params.length ≤ 255 ∧
      ∀ p ∈ params, 1 ≤ p.1 ∧ p.1 ≤ 3 ∧ (utf8 p.2).length ≤ 253

/-- A part of a payload is read at its place. -/
theorem unpackFrom_append (front : Bytes) {part : Bytes} (back : Bytes) {size : Nat}
    (h : part.length = size) :
    unpackFrom size (front ++ (part ++ back)) front.length = .ok part := by
  rw [Nmea2000.unpackFrom, if_pos (by simp only [List.length_append]; omega), List.drop_left,
    List.take_left' h]

/-- The field of a number from 1 to 10. -/
theorem nameField_number {number : Nat} (h1 : 1 ≤ number) (h10 : number ≤ 10) :
    ∃ field, (none :: nameFields.map some)[number]? = some (some field) ∧
      valueSize number = field.byteSize ∧ 1 ≤ field.byteSize ∧ field.byteSize ≤ 3 := by
  have hall : ∀ k ∈ List.range' 1 10, ∃ field ∈ packedFields,
      (none :: nameFields.map some)[k]? = some (some field) ∧
        valueSize k = field.byteSize ∧ 1 ≤ field.byteSize ∧ field.byteSize ≤ 3 := by decide
  obtain ⟨field, -, h⟩ := hall number (List.mem_range'_1.mpr ⟨h1, by omega⟩)
  exact ⟨field, h⟩

/-- The value of a field of one byte is an item, and of more bytes a number that
is unpacked. -/
theorem readValue_eq {size value : Nat} (hpos : 1 ≤ size) (h : value < 256 ^ size)
    (front back : Bytes) :
    (if size = 1 then
        (fun b : UInt8 => b.toNat) <$> item (front ++ (toLE size value ++ back)) front.length
      else ofLE <$> Nmea2000.unpackFrom size (front ++ (toLE size value ++ back)) front.length)
      = .ok value := by
  split
  · rename_i hone
    subst hone
    have hbyte : (UInt8.ofNat value).toNat = value := by
      rw [UInt8.toNat_ofNat']
      exact Nat.mod_eq_of_lt h
    rw [toLE_succ, toLE_zero, List.singleton_append, item_append]
    exact congrArg Except.ok hbyte
  · rw [unpackFrom_append front back (length_toLE size value)]
    exact congrArg Except.ok ((ofLE_toLE size value).trans (Nat.mod_eq_of_lt h))

/-- **The parameters of a command on the NAME are read** one after the other. -/
theorem decodeCommandParameters_eq (params : List (Nat × Nat)) : ∀ front : Bytes,
    (∀ p ∈ params, 1 ≤ p.1 ∧ p.1 ≤ 10 ∧ p.2 < 256 ^ valueSize p.1) →
    AddressClaim.decodeCommandParameters (front ++ params.flatMap nameParameter) params.length
      front.length = .ok params := by
  induction params with
  | nil => exact fun front _ => rfl
  | cons p params ih =>
    intro front hparams
    obtain ⟨h1, h10, hvalue⟩ := hparams p List.mem_cons_self
    obtain ⟨field, hfield, hsize, hpos, h3⟩ := nameField_number h1 h10
    have hnumber : (UInt8.ofNat p.1).toNat = p.1 := by
      rw [UInt8.toNat_ofNat']
      exact Nat.mod_eq_of_lt (by omega)
    rw [hsize] at hvalue
    have hbuffer : front ++ (p :: params).flatMap nameParameter
        = front ++ UInt8.ofNat p.1 :: (toLE field.byteSize p.2 ++ params.flatMap nameParameter) := by
      rw [List.flatMap_cons, nameParameter, hsize]
      rfl
    have hrest := ih (front ++ UInt8.ofNat p.1 :: toLE field.byteSize p.2)
      (fun q hq => hparams q (List.mem_cons_of_mem _ hq))
    have hread := readValue_eq hpos hvalue (front ++ [UInt8.ofNat p.1])
      (params.flatMap nameParameter)
    simp only [List.append_assoc, List.cons_append, List.nil_append, List.length_append,
      List.length_cons, List.length_nil, length_toLE, Nat.zero_add] at hrest hread
    have hindex : front.length + 1 + field.byteSize = front.length + (field.byteSize + 1) := by
      omega
    rw [hbuffer, List.length_cons, AddressClaim.decodeCommandParameters]
    simp only [item_append, bind, Except.bind, hnumber, hfield,
      if_neg (show ¬ field.byteSize > 3 by omega), hindex, hrest]
    split at hread
    · rename_i hone
      rw [if_pos hone, hread]
      rfl
    · rename_i hmore
      rw [if_neg hmore, hread]
      rfl

section Texts

variable (printable : Char → Bool)

/-- An empty text stays empty. -/
theorem cleanString_nil : cleanString printable [] = "" := by
  unfold CodeGeneration.cleanString
  rfl

/-- A text of variable length is read at its place, and cleaned. -/
theorem extractVarStr_eq (front back : Bytes) {text : Bytes} (h : text.length ≤ 253) :
    CodeGeneration.extractVarStr printable
        (front ++ UInt8.ofNat (text.length + 2) :: 1 :: (text ++ back)) front.length
      = .ok (cleanString printable text, text.length + 2) := by
  have hlen : (UInt8.ofNat (text.length + 2)).toNat = text.length + 2 := by
    rw [UInt8.toNat_ofNat']
    exact Nat.mod_eq_of_lt (by omega)
  have htype : item (front ++ UInt8.ofNat (text.length + 2) :: 1 :: (text ++ back))
      (front.length + 1) = .ok 1 := by
    have := item_append (front ++ [UInt8.ofNat (text.length + 2)])
      (text ++ back) 1
    simpa using this
  have hslice : slice (front ++ UInt8.ofNat (text.length + 2) :: 1 :: (text ++ back))
      ((front.length + 2 : Nat) : Int) ((front.length + (text.length + 2) : Nat) : Int) = text := by
    have hpart := slice_append (front ++ [UInt8.ofNat (text.length + 2), 1]) text back
    rw [List.append_assoc, List.length_append] at hpart
    rw [show front.length + (text.length + 2) = front.length + 2 + text.length by omega]
    exact hpart
  unfold CodeGeneration.extractVarStr
  simp only [item_append, bind, Except.bind, hlen, htype, hslice]
  rw [if_neg (by simp)]
  split
  · rename_i hempty
    obtain rfl : text = [] := List.eq_nil_of_length_eq_zero (by omega)
    rw [cleanString_nil]
    rfl
  · rfl

/-- What the application reads of a text. -/
def cleaned (text : String) : String := cleanString printable (utf8 text)

/-- The parameters with the texts as they are read. -/
def cleanTexts (params : List (Nat × String)) : List (Nat × String) :=
  params.map fun p => (p.1, cleaned printable p.2)

/-- A parameter that is read, and the ones behind it. -/
theorem commandParameters_text (n : Nat) (front back : Bytes) {p : Nat × String}
    (hnumber : p.1 = 1 ∨ p.1 = 2) (hlen : (utf8 p.2).length ≤ 253) :
    ConfigurationInformation.commandParameters printable (front ++ (textParameter p ++ back)) (n + 1)
        front.length
      = (do
        let rest ← ConfigurationInformation.commandParameters printable
          ((front ++ textParameter p) ++ back) n (front ++ textParameter p).length
        return (p.1, cleaned printable p.2) :: rest) := by
  have hfirst : (UInt8.ofNat p.1 = 1 ∨ UInt8.ofNat p.1 = 2) ∧ (UInt8.ofNat p.1).toNat = p.1 := by
    rcases hnumber with h | h <;> rw [h] <;> decide
  have hstr := extractVarStr_eq printable (front ++ [UInt8.ofNat p.1]) back hlen
  have hindex : (front ++ [UInt8.ofNat p.1]).length = front.length + 1 := by simp
  have hend : (front ++ textParameter p).length = front.length + 1 + ((utf8 p.2).length + 2) := by
    simp only [textParameter, List.length_append, List.length_cons]
    omega
  rw [hindex] at hstr
  simp only [List.append_assoc, List.cons_append, List.nil_append] at hstr ⊢
  rw [hend, ConfigurationInformation.commandParameters]
  simp only [textParameter, List.cons_append, item_append, bind,
    Except.bind, hfirst.1, hfirst.2, if_true, hstr]
  rfl

/-- **The texts are read** one after the other, if there is a place for each. -/
theorem commandParameters_eq (params : List (Nat × String)) : ∀ front : Bytes,
    (∀ p ∈ params, (p.1 = 1 ∨ p.1 = 2) ∧ (utf8 p.2).length ≤ 253) →
    ConfigurationInformation.commandParameters printable (front ++ params.flatMap textParameter)
        params.length front.length
      = .ok (cleanTexts printable params) := by
  induction params with
  | nil => exact fun front _ => rfl
  | cons p params ih =>
    intro front hparams
    obtain ⟨hnumber, hlen⟩ := hparams p List.mem_cons_self
    have hrest := ih (front ++ textParameter p) fun q hq => hparams q (List.mem_cons_of_mem _ hq)
    rw [List.flatMap_cons, List.length_cons,
      commandParameters_text printable _ front _ hnumber hlen, hrest]
    rfl

/-- No more parameters are read than are counted. -/
theorem length_commandParameters (buffer : Bytes) (n index : Nat) {params : List (Nat × String)}
    (h : ConfigurationInformation.commandParameters printable buffer n index = .ok params) :
    params.length ≤ n := by
  induction n generalizing index params with
  | zero =>
    cases h
    exact Nat.le_refl 0
  | succ n ih =>
    rw [ConfigurationInformation.commandParameters] at h
    obtain ⟨number, -, h⟩ := bind_eq_ok.mp h
    split at h
    · obtain ⟨⟨text, len⟩, -, h⟩ := bind_eq_ok.mp h
      obtain ⟨rest, hrest, h⟩ := bind_eq_ok.mp h
      cases h
      exact Nat.succ_le_succ (ih _ hrest)
    · exact Nat.le_succ_of_le (ih _ h)

/-- With a number that is not known there are fewer. -/
theorem length_commandParameters_lt (params : List (Nat × String)) : ∀ front : Bytes,
    (∀ p ∈ params, 1 ≤ p.1 ∧ p.1 ≤ 3 ∧ (utf8 p.2).length ≤ 253) → (∃ p ∈ params, p.1 = 3) →
    ∀ read, ConfigurationInformation.commandParameters printable
        (front ++ params.flatMap textParameter) params.length front.length = .ok read →
      read.length < params.length := by
  induction params with
  | nil => exact fun _ _ ⟨p, hp, _⟩ => absurd hp List.not_mem_nil
  | cons p params ih =>
    intro front hparams hthree read hread
    obtain ⟨h1, h3, hlen⟩ := hparams p List.mem_cons_self
    rw [List.flatMap_cons, List.length_cons] at hread
    by_cases hp : p.1 = 3
    · rw [textParameter, hp, List.cons_append, ConfigurationInformation.commandParameters] at hread
      simp only [item_append, bind, Except.bind] at hread
      rw [if_neg (by decide)] at hread
      exact Nat.lt_succ_of_le (length_commandParameters printable _ _ _ hread)
    · have hnumber : p.1 = 1 ∨ p.1 = 2 := by omega
      rw [commandParameters_text printable _ front _ hnumber hlen] at hread
      obtain ⟨rest, hrest, hread⟩ := bind_eq_ok.mp hread
      cases hread
      refine Nat.succ_lt_succ (ih _ (fun q hq => hparams q (List.mem_cons_of_mem _ hq)) ?_ _ hrest)
      obtain ⟨q, hq, hq3⟩ := hthree
      rcases List.mem_cons.mp hq with rfl | hq
      · exact absurd hq3 hp
      · exact ⟨q, hq, hq3⟩

/-! ## 5. The command that is created -/

/-- The bytes in front of the parameters. -/
def front (priority : UInt8) (c : Command) : Bytes :=
  1 :: (toLE 3 c.functionPgn ++ [priority, UInt8.ofNat c.count])

/-- The payload is the six bytes in front and the parameters. -/
theorem payload_eq (priority : UInt8) (c : Command) :
    c.payload priority = c.front priority ++ c.body := by
  simp [payload, front]

/-- Where the parameters begin. -/
theorem length_front (priority : UInt8) (c : Command) : (c.front priority).length = 6 := by
  simp [front]

/-- The PGN fits its three bytes. -/
theorem functionPgn_lt (c : Command) : c.functionPgn < 256 ^ 3 := by
  cases c with
  | addressClaim _ => exact show 60928 < 256 ^ 3 by decide
  | configuration _ => exact show 126998 < 256 ^ 3 by decide

/-- The count fits its byte. -/
theorem WellFormed.count_le {c : Command} (h : c.WellFormed) : c.count ≤ 255 := by
  cases c <;> exact h.1

/-- `create` finds a command. -/
theorem create_eq {defs : PGNDefinitions} {d : Option PGNDef}
    (hdef : defs.pgnDefinition 126208 0 = .ok d) (prio sa da : Nat) (priority : UInt8)
    (c : Command) :
    GroupFunction.create printable defs (.of 126208 prio sa da (c.payload priority))
      = GroupFunction.command printable (c.payload priority) c.functionPgn := by
  have hhead : Nmea2000.unpackFrom 4 (c.payload priority) 0 = .ok (1 :: toLE 3 c.functionPgn) := by
    have := unpackFrom_append [] (priority :: UInt8.ofNat c.count :: c.body)
      (show (1 :: toLE 3 c.functionPgn : Bytes).length = 4 by simp)
    exact this
  have hpgn : ofLE (toLE 3 c.functionPgn) = c.functionPgn :=
    (ofLE_toLE 3 _).trans (Nat.mod_eq_of_lt c.functionPgn_lt)
  have hheader : groupFunctionHeader defs (c.payload priority) = .ok (1, c.functionPgn) := by
    rw [groupFunctionHeader, hdef, hhead]
    simp only [bind, Except.bind, List.take_succ_cons, List.take_zero, List.drop_succ_cons,
      List.drop_zero, hpgn]
    rfl
  have hfirst : item (c.payload priority) 0 = .ok 1 := rfl
  simp only [GroupFunction.create, NMEA2000Msg.of, hfirst, hheader, bind, Except.bind]
  rfl

/-- Without a definition of the PGN it raises. -/
theorem create_undefined {defs : PGNDefinitions} {e : Exn}
    (hdef : defs.pgnDefinition 126208 0 = .error e) (prio sa da : Nat) (priority : UInt8)
    (c : Command) :
    GroupFunction.create printable defs (.of 126208 prio sa da (c.payload priority)) = .error e := by
  have hheader : groupFunctionHeader defs (c.payload priority) = .error e := by
    rw [groupFunctionHeader, hdef]
    rfl
  have hfirst : item (c.payload priority) 0 = .ok 1 := rfl
  simp only [GroupFunction.create, NMEA2000Msg.of, hfirst, hheader, bind, Except.bind]
  rfl

/-- The count of a command is read. -/
theorem unpack_count {c : Command} (h : c.WellFormed) (priority : UInt8) :
    ∃ v, Nmea2000.unpackFrom 2 (c.payload priority) 4 = .ok v ∧ ofLE (v.drop 1) = c.count := by
  have hread := unpackFrom_append (1 :: toLE 3 c.functionPgn) c.body
    (show ([priority, UInt8.ofNat c.count] : Bytes).length = 2 from rfl)
  have hlen : (1 :: toLE 3 c.functionPgn : Bytes).length = 4 := by simp
  have hcount := h.count_le
  rw [hlen] at hread
  refine ⟨_, hread, ?_⟩
  rw [List.drop_succ_cons, List.drop_zero, ofLE_cons, ofLE_nil, UInt8.toNat_ofNat']
  omega

/-- The parameters of a NAME are read as they were written, by induction on them. -/
theorem command_addressClaim {params : List (Nat × Nat)}
    (h : (addressClaim params).WellFormed) (priority : UInt8) :
    GroupFunction.command printable ((addressClaim params).payload priority) 60928
      = .ok ⟨60928, some (.name params)⟩ := by
  obtain ⟨v, hv, hcount⟩ := unpack_count h priority
  have hread := decodeCommandParameters_eq params ((addressClaim params).front priority) h.2
  rw [length_front] at hread
  have htable : pgnFunctionTable 60928 = some .addressClaim := rfl
  rw [← body, ← payload_eq] at hread
  simp only [GroupFunction.command, hv, bind, Except.bind, hcount, htable, count, hread]
  rfl

/-- Those of a configuration are texts. -/
theorem command_configuration {params : List (Nat × String)}
    (h : (configuration params).WellFormed) (priority : UInt8) :
    GroupFunction.command printable ((configuration params).payload priority) 126998
      = (ConfigurationInformation.commandParameters printable
          ((configuration params).front priority ++ params.flatMap textParameter) params.length
          ((configuration params).front priority).length).map
        fun read => ⟨126998, some (.configuration read)⟩ := by
  obtain ⟨v, hv, hcount⟩ := unpack_count h priority
  have htable : pgnFunctionTable 126998 = some .configurationInformation := rfl
  have hpayload := payload_eq priority (configuration params)
  rw [body] at hpayload
  rw [length_front, ← hpayload]
  simp only [GroupFunction.command, hv, bind, Except.bind, hcount, htable, count]
  cases ConfigurationInformation.commandParameters printable
    ((configuration params).payload priority) params.length 6 <;> rfl

/-! ## 6. The acknowledgement that is built -/

/-- An acknowledgement with these codes. -/
def acknowledging (functionPgn : Nat) (codes : List Nat) : AcknowledgeGroupFunction :=
  ⟨functionPgn, 0, 0, codes.length, codes⟩

/-- The codes are added one by one. -/
theorem foldl_addParameter (functionPgn : Nat) (done codes : List Nat) :
    codes.foldl AcknowledgeGroupFunction.addParameter (acknowledging functionPgn done)
      = acknowledging functionPgn (done ++ codes) := by
  induction codes generalizing done with
  | nil => rw [List.append_nil, List.foldl_nil]
  | cons code codes ih =>
    have hadd : (acknowledging functionPgn done).addParameter code
        = acknowledging functionPgn (done ++ [code]) := by
      simp [acknowledging, AcknowledgeGroupFunction.addParameter]
    rw [List.foldl_cons, hadd, ih, List.append_assoc, List.singleton_append]

/-- An acknowledgement begins with no codes. -/
theorem create_acknowledging {defs : PGNDefinitions} {d : Option PGNDef}
    (hdef : defs.pgnDefinition 126208 0 = .ok d) (c : Command) :
    AcknowledgeGroupFunction.create defs c.functionPgn 0 = .ok (acknowledging c.functionPgn []) := by
  have hpos : 0 < c.functionPgn := by cases c <;> exact Nat.zero_lt_succ _
  rw [AcknowledgeGroupFunction.create, hdef]
  simp only [bind, Except.bind, if_pos hpos]
  rfl

/-- The codes of an acknowledgement that is sent. -/
theorem ackCodes_acknowledging (functionPgn : Nat) (codes : List Nat) (hle : codes.length ≤ 255)
    (hcodes : ∀ c ∈ codes, c < 16) :
    ∃ payload, (acknowledging functionPgn codes).encodePayload = .ok payload ∧
      AcknowledgeGroupFunction.ackCodes payload = .ok (AcknowledgeGroupFunction.readBack codes) :=
  AcknowledgeGroupFunction.ackCodes_eq
    (a := acknowledging functionPgn codes) ⟨rfl, hle, hcodes, Nat.zero_lt_succ _, Nat.zero_lt_succ _⟩

/-- The parameters as `modify_parameters` is given them. -/
def intPairs (params : List (Nat × Nat)) : List (Int × Int) :=
  params.map fun p => ((p.1 : Int), (p.2 : Int))

/-- **The handler on a command for the NAME**: each parameter is tried and has its code. -/
theorem handler_addressClaim {defs : PGNDefinitions} {d : Option PGNDef}
    (hdef : defs.pgnDefinition 126208 0 = .ok d) (t : CommandTarget) (prio sa da : Nat)
    (priority : UInt8) {params : List (Nat × Nat)} (h : (addressClaim params).WellFormed) :
    t.groupFunctionHandler printable defs
        (.of 126208 prio sa da ((addressClaim params).payload priority))
      = ((acknowledging 60928 ((intPairs params).map MutableName.resultCode)).encodePayload,
          { t with isoName := (t.isoName.modifyParameters (intPairs params)).2 }) := by
  have hcreate := create_eq printable hdef prio sa da priority (addressClaim params)
  have hack := create_acknowledging hdef (addressClaim params)
  rw [functionPgn] at hcreate hack
  rw [command_addressClaim printable h] at hcreate
  have hcodes := MutableName.modifyParameters_results t.isoName (intPairs params)
  rw [CommandTarget.groupFunctionHandler, hcreate]
  simp only [hack, CommandTarget.processCommand]
  rw [← intPairs, hcodes, foldl_addParameter, List.nil_append]

/-- What the parameters do to the texts. -/
def writeTexts (t : CommandTarget) (read : List (Nat × String)) : CommandTarget :=
  read.foldl (fun t p => if p.1 = 1 then { t with installation1 := p.2 }
    else if p.1 = 2 then { t with installation2 := p.2 } else t) t

/-- The code for a text. -/
def textCode (p : Nat × String) : Nat := if p.1 = 1 ∨ p.1 = 2 then 0 else 1

/-- The texts are written one by one, each with its code. -/
theorem foldl_executeConfiguration (read : List (Nat × String)) (t : CommandTarget)
    (done : List Nat) :
    read.foldl CommandTarget.executeConfiguration (t, acknowledging 126998 done)
      = (writeTexts t read, acknowledging 126998
          (done ++ read.map textCode)) := by
  induction read generalizing t done with
  | nil => simp [writeTexts]
  | cons p read ih =>
    have hadd : ∀ code, (acknowledging 126998 done).addParameter code
        = acknowledging 126998 (done ++ [code]) := by
      intro code
      simp [acknowledging, AcknowledgeGroupFunction.addParameter]
    rw [List.foldl_cons, CommandTarget.executeConfiguration, writeTexts, List.foldl_cons]
    by_cases h1 : p.1 = 1
    · rw [if_pos h1, if_pos h1, hadd, ih]
      simp [h1, textCode, writeTexts]
    · by_cases h2 : p.1 = 2
      · rw [if_neg h1, if_pos h2, if_neg h1, if_pos h2, hadd, ih]
        simp [h2, textCode, writeTexts]
      · rw [if_neg h1, if_neg h2, if_neg h1, if_neg h2, hadd, ih]
        simp [h1, h2, textCode, writeTexts]

/-- The texts of a command as the application reads them. -/
def readTexts (params : List (Nat × String)) (priority : UInt8) :
    Except Exn (List (Nat × String)) :=
  ConfigurationInformation.commandParameters printable
    ((configuration params).front priority ++ params.flatMap textParameter) params.length
    ((configuration params).front priority).length

/-- **The handler on a command for the configuration.** -/
theorem handler_configuration {defs : PGNDefinitions} {d : Option PGNDef}
    (hdef : defs.pgnDefinition 126208 0 = .ok d) (t : CommandTarget) (prio sa da : Nat)
    {priority : UInt8} {params : List (Nat × String)} (h : (configuration params).WellFormed)
    {read : List (Nat × String)} (hread : readTexts printable params priority = .ok read) :
    t.groupFunctionHandler printable defs
        (.of 126208 prio sa da ((configuration params).payload priority))
      = ((acknowledging 126998 (read.map textCode)).encodePayload, writeTexts t read) := by
  have hcreate := create_eq printable hdef prio sa da priority (configuration params)
  have hack := create_acknowledging hdef (configuration params)
  rw [functionPgn] at hcreate hack
  rw [command_configuration printable h, ← readTexts, hread] at hcreate
  rw [CommandTarget.groupFunctionHandler, hcreate]
  simp only [Except.map, hack, CommandTarget.processCommand, foldl_executeConfiguration,
    List.nil_append]

/-- A text that cannot be read ends it. -/
theorem handler_configuration_error {defs : PGNDefinitions} {d : Option PGNDef}
    (hdef : defs.pgnDefinition 126208 0 = .ok d) (t : CommandTarget) (prio sa da : Nat)
    {priority : UInt8} {params : List (Nat × String)} (h : (configuration params).WellFormed)
    {e : Exn} (hread : readTexts printable params priority = .error e) :
    t.groupFunctionHandler printable defs
        (.of 126208 prio sa da ((configuration params).payload priority)) = (.error e, t) := by
  have hcreate := create_eq printable hdef prio sa da priority (configuration params)
  rw [functionPgn] at hcreate
  rw [command_configuration printable h, ← readTexts, hread] at hcreate
  rw [CommandTarget.groupFunctionHandler, hcreate]
  rfl

/-! ## 7. When a command is answered -/

/-- The last text given for a number. -/
def lastText (number : Nat) (params : List (Nat × String)) : Option String :=
  (params.filterMap fun p => if p.1 = number then some p.2 else none).getLast?

/-- The codes answer the parameters, and what they name has the last value that
was applied, and nothing else has changed. -/
def AnsweredBy (t t' : CommandTarget) (codes : List Nat) : Command → Prop
  | .addressClaim params => codes.length = params.length ∧
      (∀ (k : Nat) (p : Nat × Nat), params[k]? = some p →
        (codes[k]? = some 0 ↔ (MutableName.accepted ((p.1 : Int), (p.2 : Int))).isSome)) ∧
      (∀ f ∈ packedFields, ∃ x, t.isoName.getattr f.name = .ok x ∧ t'.isoName.getattr f.name
        = .ok ((MutableName.lastAccepted f (intPairs params)).getD x)) ∧
      t'.installation1 = t.installation1 ∧ t'.installation2 = t.installation2 ∧
      t'.manufacturerInfo = t.manufacturerInfo
  | .configuration params => codes.length = params.length ∧
      (∀ (k : Nat) (p : Nat × String), params[k]? = some p →
        (codes[k]? = some 0 ↔ p.1 = 1 ∨ p.1 = 2)) ∧
      t'.installation1 = (lastText 1 params).getD t.installation1 ∧
      t'.installation2 = (lastText 2 params).getD t.installation2 ∧
      t'.manufacturerInfo = t.manufacturerInfo ∧ t'.isoName = t.isoName

/-- The application sends an acknowledgement, and its codes answer the command. -/
def Answered (defs : PGNDefinitions) (t : CommandTarget) (prio sa da : Nat) (priority : UInt8)
    (c : Command) : Prop :=
  ∃ payload codes t', t.groupFunctionHandler printable defs
      (.of 126208 prio sa da (c.payload priority)) = (.ok payload, t') ∧
    AcknowledgeGroupFunction.ackCodes payload = .ok codes ∧ c.AnsweredBy t t' codes

/-- The commands that are answered: on the NAME those with an even number of
parameters, or with a last one that is accepted; on the configuration
information those of the two texts that can be changed, with texts that are
left as they are. -/
def Answerable : Command → Prop
  | .addressClaim params => params.length % 2 = 0 ∨
      ∃ p ∈ params.getLast?, (MutableName.accepted ((p.1 : Int), (p.2 : Int))).isSome
  | .configuration params => (∀ p ∈ params, p.1 = 1 ∨ p.1 = 2) ∧
      ∀ number ∈ [1, 2], ∀ text ∈ lastText number params, cleaned printable text = text

/-- Code 0 is for a parameter that is accepted. -/
theorem resultCode_eq_zero (param : Int × Int) :
    MutableName.resultCode param = 0 ↔ (MutableName.accepted param).isSome := by
  unfold MutableName.resultCode
  split_ifs with h h' <;> simp [h]

/-- A code fits half a byte. -/
theorem resultCode_lt (param : Int × Int) : MutableName.resultCode param < 16 := by
  unfold MutableName.resultCode
  split_ifs <;> decide

/-- What is read of the codes answers the parameters when the last code is not
lost, or is 0. -/
theorem readBack_answers_iff {α : Type} (params : List α) (code : α → Nat) :
    (∀ (k : Nat) (p : α), params[k]? = some p →
      ((AcknowledgeGroupFunction.readBack (params.map code))[k]? = some 0 ↔ code p = 0)) ↔
      params.length % 2 = 0 ∨ ∃ p ∈ params.getLast?, code p = 0 := by
  have hmap : ∀ (k : Nat) (p : α), params[k]? = some p → (params.map code)[k]? = some (code p) := by
    intro k p hp
    rw [List.getElem?_map, hp]
    rfl
  rcases Nat.mod_two_eq_zero_or_one params.length with heven | hodd
  · rw [AcknowledgeGroupFunction.readBack_even _ (by simpa using heven)]
    refine iff_of_true (fun k p hp => ?_) (.inl heven)
    rw [hmap k p hp, Option.some.injEq]
  · have hback := AcknowledgeGroupFunction.readBack_odd (params.map code) (by simpa using hodd)
    obtain ⟨init, last, rfl⟩ : ∃ init last, params = init ++ [last] := by
      rcases List.eq_nil_or_concat params with rfl | ⟨init, last, rfl⟩
      · simp at hodd
      · exact ⟨init, last, List.concat_eq_append⟩
    simp only [List.map_append, List.map_cons, List.map_nil, List.dropLast_concat] at hback
    rw [List.map_append, List.map_cons, List.map_nil, hback]
    have hlast : (∃ p ∈ (init ++ [last]).getLast?, code p = 0) ↔ code last = 0 := by simp
    rw [hlast]
    constructor
    · intro h
      refine .inr ((h init.length last (by simp)).mp ?_)
      simp
    · rintro (h | h) k p hp
      · omega
      · rcases Nat.lt_trichotomy k init.length with hk | rfl | hk
        · rw [List.getElem?_append_left hk] at hp
          rw [List.getElem?_append_left (by simpa using hk), List.getElem?_map, hp]
          simp
        · have hp' : last = p := by simpa using hp
          rw [← hp', h]
          simp
        · rw [List.getElem?_eq_none (by simp; omega)] at hp
          cases hp

/-- **A command for the NAME**: of an odd number of codes the last one has to be 0. -/
theorem answered_addressClaim_iff {defs : PGNDefinitions} {d : Option PGNDef}
    (hdef : defs.pgnDefinition 126208 0 = .ok d) {t : CommandTarget} (ht : t.isoName.Sound)
    (prio sa da : Nat) (priority : UInt8) {params : List (Nat × Nat)}
    (h : (addressClaim params).WellFormed) :
    (addressClaim params).Answered printable defs t prio sa da priority ↔
      (addressClaim params).Answerable printable := by
  have hhandler := handler_addressClaim printable hdef t prio sa da priority h
  have hcodes : (intPairs params).map MutableName.resultCode
      = params.map fun p => MutableName.resultCode ((p.1 : Int), (p.2 : Int)) := by
    simp [intPairs]
  rw [hcodes] at hhandler
  obtain ⟨payload, hpayload, hack⟩ := ackCodes_acknowledging 60928
    (params.map fun p => MutableName.resultCode ((p.1 : Int), (p.2 : Int)))
    (by simpa using h.1) (by
      intro c hc
      obtain ⟨p, -, rfl⟩ := List.mem_map.mp hc
      exact resultCode_lt _)
  rw [hpayload] at hhandler
  have hiff := readBack_answers_iff params
    fun p => MutableName.resultCode ((p.1 : Int), (p.2 : Int))
  simp only [resultCode_eq_zero] at hiff
  rw [Answerable, ← hiff]
  constructor
  · rintro ⟨payload', codes, t', hrun, hread, -, hanswers, -⟩
    rw [hhandler] at hrun
    cases hrun
    rw [hack] at hread
    cases hread
    exact hanswers
  · intro hanswers
    refine ⟨payload, _, _, hhandler, hack, by simp, hanswers, ?_, rfl, rfl, rfl⟩
    exact (ht.modifies (intPairs params)).fields

/-- **What the texts are** after the parameters: the last one given, or what it
was. -/
theorem writeTexts_eq (read : List (Nat × String)) (t : CommandTarget) :
    writeTexts t read = { t with
      installation1 := (lastText 1 read).getD t.installation1
      installation2 := (lastText 2 read).getD t.installation2 } := by
  induction read generalizing t with
  | nil => rfl
  | cons p read ih =>
    have hlast : ∀ number, lastText number (p :: read)
        = (lastText number read).or (if p.1 = number then some p.2 else none) :=
      fun number => getLast?_filterMap_cons _ p read
    rw [writeTexts, List.foldl_cons, ← writeTexts, ih, hlast, hlast]
    by_cases h1 : p.1 = 1
    · simp [h1]
    · by_cases h2 : p.1 = 2
      · simp [h2]
      · simp [h1, h2]

/-- The last text of a number, cleaned or not. -/
theorem lastText_cleanTexts (number : Nat) (params : List (Nat × String)) :
    lastText number (cleanTexts printable params)
      = (lastText number params).map (cleaned printable) := by
  rw [lastText, lastText, cleanTexts, List.filterMap_map, ← List.getLast?_map, List.map_filterMap]
  congr 1
  refine List.filterMap_congr fun p _ => ?_
  by_cases h : p.1 = number <;> simp [h]

/-- Texts that are read in another form are those that were given only where
the last one of each number is left as it is. -/
theorem getD_map_cleaned_iff (last : Option String) (text : String) :
    ((last.map (cleaned printable)).getD text = last.getD text) ↔
      ∀ s ∈ last, cleaned printable s = s := by
  cases last <;> simp

/-- As `resultCode_lt`. -/
theorem textCode_lt {read : List (Nat × String)} {c : Nat} (hc : c ∈ read.map textCode) :
    c < 16 := by
  obtain ⟨p, -, rfl⟩ := List.mem_map.mp hc
  unfold textCode
  split <;> decide

/-- Two of the texts can be changed. -/
theorem textCode_eq_zero (p : Nat × String) : textCode p = 0 ↔ p.1 = 1 ∨ p.1 = 2 := by
  unfold textCode
  split <;> simp_all

/-- A command with a number that is not known has fewer codes than parameters. -/
theorem not_answered_unknown {defs : PGNDefinitions} {d : Option PGNDef}
    (hdef : defs.pgnDefinition 126208 0 = .ok d) (t : CommandTarget)
    (prio sa da : Nat) (priority : UInt8) {params : List (Nat × String)}
    (h : (configuration params).WellFormed) (hthree : ∃ p ∈ params, p.1 = 3) :
    ¬ (configuration params).Answered printable defs t prio sa da priority := by
  rintro ⟨payload, codes, t', hrun, hread, hlen, -⟩
  cases htexts : readTexts printable params priority with
  | error e =>
    rw [handler_configuration_error printable hdef t prio sa da h htexts] at hrun
    cases hrun
  | ok read =>
    rw [handler_configuration printable hdef t prio sa da h htexts] at hrun
    have hless := length_commandParameters_lt printable params _ h.2 hthree read htexts
    have hle := h.1
    obtain ⟨payload', hpayload, hack⟩ := ackCodes_acknowledging 126998 (read.map textCode)
      (by rw [List.length_map]; omega) (fun c hc => textCode_lt hc)
    rw [hpayload] at hrun
    cases hrun
    rw [hack] at hread
    cases hread
    rw [AcknowledgeGroupFunction.length_readBack, List.length_map] at hlen
    omega

/-- **A command for the configuration**, whose texts are cleaned before they are set. -/
theorem answered_configuration_iff {defs : PGNDefinitions} {d : Option PGNDef}
    (hdef : defs.pgnDefinition 126208 0 = .ok d) (t : CommandTarget)
    (prio sa da : Nat) (priority : UInt8) {params : List (Nat × String)}
    (h : (configuration params).WellFormed) :
    (configuration params).Answered printable defs t prio sa da priority ↔
      (configuration params).Answerable printable := by
  by_cases hthree : ∃ p ∈ params, p.1 = 3
  · refine iff_of_false (not_answered_unknown printable hdef t prio sa da priority h hthree) ?_
    rintro ⟨hknown, -⟩
    obtain ⟨p, hp, hp3⟩ := hthree
    rcases hknown p hp with h1 | h2 <;> omega
  have hknown : ∀ p ∈ params, p.1 = 1 ∨ p.1 = 2 := by
    intro p hp
    obtain ⟨h1, h3, -⟩ := h.2 p hp
    have hne : p.1 ≠ 3 := fun hp3 => hthree ⟨p, hp, hp3⟩
    omega
  have htexts : readTexts printable params priority = .ok (cleanTexts printable params) :=
    commandParameters_eq printable params _ fun p hp => ⟨hknown p hp, (h.2 p hp).2.2⟩
  have hhandler := handler_configuration printable hdef t prio sa da h htexts
  have hcodes : (cleanTexts printable params).map textCode = params.map textCode := by
    rw [cleanTexts, List.map_map]
    rfl
  obtain ⟨payload, hpayload, hack⟩ := ackCodes_acknowledging 126998 (params.map textCode)
    (by simpa using h.1) (fun c hc => textCode_lt hc)
  rw [hcodes, hpayload, writeTexts_eq, lastText_cleanTexts, lastText_cleanTexts] at hhandler
  have hanswers := (readBack_answers_iff params textCode).mpr (by
    rcases List.eq_nil_or_concat params with hnil | ⟨init, last, hconcat⟩
    · exact .inl (by rw [hnil]; rfl)
    · refine .inr ⟨last, by rw [hconcat, List.concat_eq_append]; simp, ?_⟩
      exact (textCode_eq_zero last).mpr (hknown last (by rw [hconcat]; simp)))
  simp only [textCode_eq_zero] at hanswers
  constructor
  · rintro ⟨payload', codes, t', hrun, hread, -, -, hone, htwo, -⟩
    rw [hhandler] at hrun
    cases hrun
    refine ⟨hknown, ?_⟩
    intro number hnumber
    rcases List.mem_cons.mp hnumber with rfl | hnumber
    · exact (getD_map_cleaned_iff printable _ _).mp hone
    · obtain rfl := List.mem_singleton.mp hnumber
      exact (getD_map_cleaned_iff printable _ _).mp htwo
  · rintro ⟨-, hclean⟩
    refine ⟨payload, _, _, hhandler, hack, by simp, hanswers, ?_, ?_, rfl, rfl⟩
    · exact (getD_map_cleaned_iff printable _ _).mpr (hclean 1 (by simp))
    · exact (getD_map_cleaned_iff printable _ _).mpr (hclean 2 (by simp))

/-- **The commands whose parameters are all answered.** -/
theorem answered_iff (defs : PGNDefinitions) {t : CommandTarget} (ht : t.isoName.Sound)
    (prio sa da : Nat) (priority : UInt8) {c : Command} (h : c.WellFormed) :
    c.Answered printable defs t prio sa da priority ↔
      (∃ d, defs.pgnDefinition 126208 0 = .ok d) ∧ c.Answerable printable := by
  cases hdef : defs.pgnDefinition 126208 0 with
  | error e =>
    refine iff_of_false ?_ (fun hok => by obtain ⟨⟨d, hd⟩, -⟩ := hok; cases hd)
    rintro ⟨payload, codes, t', hrun, -⟩
    rw [CommandTarget.groupFunctionHandler, create_undefined printable hdef] at hrun
    cases hrun
  | ok d =>
    have hany : ∃ d', (Except.ok d : Except Exn (Option PGNDef)) = .ok d' := ⟨d, rfl⟩
    rw [and_iff_right hany]
    cases c with
    | addressClaim params => exact answered_addressClaim_iff printable hdef ht prio sa da priority h
    | configuration params => exact answered_configuration_iff printable hdef t prio sa da priority h

end Texts

/-- An application with the fields of `threeFields` and no texts. -/
def freshTarget : CommandTarget := ⟨.init MutableName.threeFields, "", "", ""⟩

/-- The target of the examples has a NAME in range. -/
theorem sound_freshTarget : freshTarget.isoName.Sound :=
  MutableName.sound_init MutableName.withinWidths_threeFields.noValue

/-- Two parameters, the second of them out of range. -/
theorem answered_twoParameters :
    (addressClaim [(3, 5), (4, 32)]).Answered (fun _ => true)
      AcknowledgeGroupFunction.groupDefs freshTarget 3 1 128 8 := by
  refine (answered_iff (fun _ => true) AcknowledgeGroupFunction.groupDefs sound_freshTarget 3 1 128
    8 ?_).mpr ⟨⟨_, rfl⟩, .inl rfl⟩
  refine ⟨by decide, fun p hp => ?_⟩
  rcases List.mem_cons.mp hp with rfl | hp
  · decide
  · obtain rfl := List.mem_singleton.mp hp
    decide

/-- A parameter that cannot be changed is answered with 0. -/
theorem not_answered_identity :
    ¬ (addressClaim [(1, 5)]).Answered (fun _ => true)
      AcknowledgeGroupFunction.groupDefs freshTarget 3 1 128 8 := by
  rintro ⟨payload, codes, t', hrun, hread, -, hanswers, -⟩
  have hpayload : (freshTarget.groupFunctionHandler (fun _ => true)
      AcknowledgeGroupFunction.groupDefs (.of 126208 3 1 128
        ((addressClaim [(1, 5)]).payload 8))).1 = .ok [2, 0, 238, 0, 0, 1, 0] := rfl
  rw [hrun] at hpayload
  cases hpayload
  have hcodes : AcknowledgeGroupFunction.ackCodes [2, 0, 238, 0, 0, 1, 0] = .ok [0] := rfl
  rw [hcodes] at hread
  cases hread
  exact absurd ((hanswers 0 (1, 5) rfl).mp rfl) (by decide)

end Command

/-! ## 8. The handler of a node

The model of the node keeps of a group function the parameters for the NAME, and
of a NAME the dictionary. -/

/-- The parameters for the NAME. -/
def GroupFunction.nameParameters (g : GroupFunction) : Option (List (Nat × Nat)) :=
  match g.parameters with
  | some (.name params) => some params
  | _ => none

/-- A string takes as many bytes, whatever is made of it. -/
theorem extractVarStr_map (printable : Char → Bool) (buffer : Bytes) (start : Nat) :
    (CodeGeneration.extractVarStr printable buffer start).map Prod.snd
      = (extractVarStr buffer start).map Prod.snd := by
  rw [CodeGeneration.extractVarStr, extractVarStr]
  cases item buffer start with
  | error e => rfl
  | ok totalLen =>
    cases item buffer (start + 1) with
    | error e => rfl
    | ok type =>
      have hlen : totalLen.toNat = 2 ↔ totalLen = 2 :=
        ⟨fun h => UInt8.toNat_inj.mp h, fun h => h ▸ rfl⟩
      simp only [bind, Except.bind, hlen]
      split_ifs <;> rfl

/-- The commands on the configuration information are read as far. -/
theorem commandParameters_map (printable : Char → Bool) (buffer : Bytes) (n index : Nat) :
    (ConfigurationInformation.commandParameters printable buffer n index).map (fun _ => ())
      = ConfigurationInformation.decodeCommandParameters buffer n index := by
  induction n generalizing index with
  | zero => rfl
  | succ n ih =>
    rw [ConfigurationInformation.commandParameters, ConfigurationInformation.decodeCommandParameters]
    cases item buffer index with
    | error e => rfl
    | ok number =>
      simp only [bind, Except.bind]
      split
      · have hstr := extractVarStr_map printable buffer (index + 1)
        cases hnew : CodeGeneration.extractVarStr printable buffer (index + 1) with
        | error e =>
          cases hold : extractVarStr buffer (index + 1) with
          | error e' =>
            rw [hnew, hold] at hstr
            cases hstr
            rfl
          | ok r =>
            rw [hnew, hold] at hstr
            cases hstr
        | ok r =>
          cases hold : extractVarStr buffer (index + 1) with
          | error e' =>
            rw [hnew, hold] at hstr
            cases hstr
          | ok r' =>
            rw [hnew, hold] at hstr
            simp only [Except.map, Except.ok.injEq] at hstr
            simp only [← ih, hstr]
            cases ConfigurationInformation.commandParameters printable buffer n
              (index + 1 + r'.2) <;> rfl
      · exact ih _

/-- **The head of the handler is the one of the node**, once the PGN of group
functions is defined. -/
theorem createGroupFunction_eq (printable : Char → Bool) {defs : PGNDefinitions} {d : Option PGNDef}
    (hdef : defs.pgnDefinition 126208 0 = .ok d) (msg : NMEA2000Msg) :
    createGroupFunction msg.payload
      = (do
        let g ← GroupFunction.create printable defs msg
        let _ ← AcknowledgeGroupFunction.create defs g.functionPgn 0
        return g.nameParameters) := by
  rw [createGroupFunction, GroupFunction.create]
  cases item msg.payload 0 with
  | error e => rfl
  | ok function =>
    simp only [bind, Except.bind]
    split
    · rfl
    · cases hhead : Nmea2000.unpackFrom 4 msg.payload 0 with
      | error e => simp only [groupFunctionHeader, hdef, hhead, bind, Except.bind]
      | ok header =>
        have hheader : groupFunctionHeader defs msg.payload
            = .ok (ofLE (header.take 1), ofLE (header.drop 1)) := by
          simp only [groupFunctionHeader, hdef, hhead, bind, Except.bind]
          rfl
        simp only [hheader, AcknowledgeGroupFunction.ofMessage, GroupFunction.command,
          AcknowledgeGroupFunction.create, hdef, bind, Except.bind]
        generalize ofLE (header.drop 1) = pgn
        have h12 : ¬ (1 : UInt8) = 2 := by decide
        have h21 : ¬ (2 : UInt8) = 1 := by decide
        by_cases h1 : function = 1
        · subst h1
          cases Nmea2000.unpackFrom 2 msg.payload 4 with
          | error e => simp [h12]
          | ok v =>
            simp only [h12, if_true, if_false]
            by_cases hname : pgn = 60928
            · subst hname
              cases AddressClaim.decodeCommandParameters msg.payload (ofLE (v.drop 1)) 6 <;>
                simp [pgnFunctionTable, GroupFunction.nameParameters, pure, Except.pure]
            · by_cases hconfiguration : pgn = 126998
              · subst hconfiguration
                have hmap := commandParameters_map printable msg.payload (ofLE (v.drop 1)) 6
                simp only [← hmap]
                cases ConfigurationInformation.commandParameters printable msg.payload
                  (ofLE (v.drop 1)) 6 <;>
                  simp [pgnFunctionTable, GroupFunction.nameParameters, pure, Except.pure,
                    Except.map]
              · by_cases hproduct : pgn = 126996
                · subst hproduct
                  simp [pgnFunctionTable, throw, throwThe, MonadExceptOf.throw]
                · have hclass : pgnFunctionTable pgn = none := by
                    rw [pgnFunctionTable, if_neg hname, if_neg hproduct, if_neg hconfiguration]
                  by_cases hzero : pgn = 0
                  · subst hzero
                    simp [hclass, throw, throwThe, MonadExceptOf.throw, pure, Except.pure]
                  · have hpos : 0 < pgn := Nat.pos_of_ne_zero hzero
                    simp [hname, hconfiguration, hproduct, hclass, hzero, hpos,
                      GroupFunction.nameParameters, pure, Except.pure]
        · by_cases h2 : function = 2
          · subst h2
            cases Nmea2000.unpackFrom 2 msg.payload 4 <;>
              simp [h21, throw, throwThe, MonadExceptOf.throw]
          · by_cases hzero : pgn = 0
            · subst hzero
              simp [h1, h2, throw, throwThe, MonadExceptOf.throw, pure, Except.pure]
            · have hpos : 0 < pgn := Nat.pos_of_ne_zero hzero
              simp [h1, h2, hzero, hpos, GroupFunction.nameParameters, pure, Except.pure]

/-- The dictionary after a command on the NAME. -/
theorem valueDict_command (m : MutableName) (params : List (Nat × Nat)) :
    (m.modifyParameters (Command.intPairs params)).2.valueDict
      = m.valueDict.modifyParameters params := by
  have hturn : ∀ (dict : NMEA2000MutableName) (p : Nat × Nat),
      MutableName.writeAccepted dict (MutableName.accepted ((p.1 : Int), (p.2 : Int)))
        = (dict.modifyParameter p).2 := by
    intro dict p
    have hfield : MutableName.parameterField (p.1 : Int)
        = NMEA2000MutableName.parameterSetTable p.1 := rfl
    rw [MutableName.accepted, NMEA2000MutableName.modifyParameter, hfield]
    cases NMEA2000MutableName.parameterSetTable p.1 with
    | none => rfl
    | some field =>
      dsimp only
      by_cases h : p.2 > field.mask
      · rw [if_pos (.inr (by exact_mod_cast h)), if_pos h]
        rfl
      · rw [if_neg (by omega), if_neg h]
        rfl
  rw [m.valueDict_modifyParameters]
  generalize m.valueDict = dict
  unfold NMEA2000MutableName.modifyParameters Command.intPairs
  induction params generalizing dict with
  | nil => rfl
  | cons p params ih =>
    rw [List.map_cons, List.map_cons, List.foldl_cons, List.foldl_cons, hturn]
    exact ih _

/-- A command leaves the NAME alone that has no parameters for it. -/
theorem isoName_foldl_executeConfiguration (params : List (Nat × String)) :
    ∀ r : CommandTarget × AcknowledgeGroupFunction,
      (params.foldl CommandTarget.executeConfiguration r).1.isoName = r.1.isoName := by
  induction params with
  | nil => exact fun _ => rfl
  | cons param params ih =>
    intro r
    rw [List.foldl_cons, ih, CommandTarget.executeConfiguration]
    split_ifs <;> rfl

/-- The NAME that the node's handler leaves behind. -/
theorem name_groupFunctionHandler {s : NMEA2KActiveController} {k : Nat} {app : NMEA2000Application}
    (hk : s.applications[k]? = some app) (msg : NMEA2000Msg) :
    (s.groupFunctionHandler k msg).2.applications[k]?.map NMEA2000Application.name
      = some (match createGroupFunction msg.payload with
        | .error _ => app.name
        | .ok params => app.name.modifyParameters (params.getD [])) := by
  rw [NMEA2KActiveController.groupFunctionHandler, hk]
  cases createGroupFunction msg.payload with
  | error e => exact congrArg _ hk
  | ok params =>
    dsimp only
    rw [apply_ite NMEA2KActiveController.applications, NMEA2KActiveController.send,
      NMEA2KActiveController.modifyApp, ite_self, List.getElem?_modify, hk]
    simp

/-- **The two models of the handler agree**: whatever the message is, the application
has behind it the NAME that the command has made. -/
theorem groupFunctionHandler_name (printable : Char → Bool) {defs : PGNDefinitions} {d : Option PGNDef}
    (hdef : defs.pgnDefinition 126208 0 = .ok d) {s : NMEA2KActiveController} {k : Nat}
    {app : NMEA2000Application} (hk : s.applications[k]? = some app) {t : CommandTarget}
    (ht : t.isoName.valueDict = app.name) (msg : NMEA2000Msg) :
    (s.groupFunctionHandler k msg).2.applications[k]?.map NMEA2000Application.name
      = some (t.groupFunctionHandler printable defs msg).2.isoName.valueDict := by
  rw [name_groupFunctionHandler hk, createGroupFunction_eq printable hdef, Option.some.injEq,
    CommandTarget.groupFunctionHandler, ← ht]
  cases GroupFunction.create printable defs msg with
  | error e => rfl
  | ok g =>
    obtain ⟨functionPgn, parameters⟩ := g
    simp only [bind, Except.bind, AcknowledgeGroupFunction.create, hdef]
    by_cases hpgn : 0 < functionPgn
    · rcases parameters with _ | ⟨params | params⟩
      · simp only [if_pos hpgn]
        rfl
      · simp only [if_pos hpgn]
        exact (valueDict_command t.isoName params).symm
      · simp only [if_pos hpgn, pure, Except.pure, CommandTarget.processCommand]
        rw [isoName_foldl_executeConfiguration]
        rfl
    · rcases parameters with _ | parameters <;> simp only [if_neg hpgn] <;> rfl

end NavigationServer.CanInterface
