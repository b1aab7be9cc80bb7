/-
NavigationServer.Couplers.VedirectTheorems — a record on the queue is one block
of the stream.

`Fields` is the grammar of a block: fields, each a line end, a label and a value
between their separators, and behind them the field of the checksum
(`IsBlock`). As long as a block is not disturbed, the parser stands in it where
the grammar says (`Reading`), its sum is that of the bytes, and its dictionary
is what was carried into the block with the fields of the block over it
(`Follows`). So a record is its block if nothing but labels of the block was
carried into it (`isRecord_of_put`).
-/
import NavigationServer.Couplers.VedirectCoupler

namespace NavigationServer.Couplers

open NavigationServer.Lib

open Vedirect

/-! ## 1. Blocks -/

/-- A text of fields, with their labels and values. -/
inductive Fields : Bytes → List (Bytes × Bytes) → Prop
  | nil : Fields [] []
  | field {text skip key value : Bytes} {ps : List (Bytes × Bytes)} (h : Fields text ps)
      (hskip : header2 ∉ skip) (hkey : delimiter ∉ key) (hlabel : key ≠ checksumLabel)
      (hvalue : header1 ∉ value) :
      Fields (text ++ (skip ++ header2 :: (key ++ delimiter :: (value ++ [header1]))))
        (ps ++ [(key, value)])

/-- Fields, and the checksum byte behind its label. -/
def IsBlock (block : Bytes) (ps : List (Bytes × Bytes)) : Prop :=
  ∃ text skip checksum,
    block = text ++ (skip ++ header2 :: (checksumLabel ++ [delimiter, checksum])) ∧
      Fields text ps ∧ header2 ∉ skip

def byteSum (bytes : Bytes) : Nat := (bytes.map UInt8.toNat).sum

/-- Labels and values over a dictionary: the last value of a label is kept. -/
def overlay (dict : VedirectDict) (ps : List (Bytes × Bytes)) : VedirectDict :=
  ps.foldl (fun dict p => Function.update dict p.1 (some (.text p.2))) dict

/-- The dictionary is the block's fields and the time, and the block's bytes sum
up to 0. -/
def IsRecord (put : Recorder.Put) (now : Time) : Prop :=
  ∃ ps, IsBlock put.block ps ∧ byteSum put.block % 256 = 0 ∧ timestamp ∉ ps.map Prod.fst ∧
    put.dict = Function.update (overlay .empty ps) timestamp (some (.time now))

theorem overlay_concat (dict : VedirectDict) (ps : List (Bytes × Bytes)) (p : Bytes × Bytes) :
    overlay dict (ps ++ [p]) = Function.update (overlay dict ps) p.1 (some (.text p.2)) := by
  unfold overlay
  rw [List.foldl_append]
  rfl

/-- A label that is there hides what the dictionary held. -/
theorem overlay_of_mem {ps : List (Bytes × Bytes)} {key : Bytes} (h : key ∈ ps.map Prod.fst)
    (dict dict' : VedirectDict) : overlay dict ps key = overlay dict' ps key := by
  induction ps using List.reverseRecOn with
  | nil => exact absurd h List.not_mem_nil
  | append_singleton ps p ih =>
    rw [overlay_concat, overlay_concat]
    by_cases hkey : key = p.1
    · rw [hkey, Function.update_self, Function.update_self]
    · rw [Function.update_of_ne hkey, Function.update_of_ne hkey]
      apply ih
      simpa [hkey] using h

theorem overlay_of_not_mem {ps : List (Bytes × Bytes)} {key : Bytes} (h : key ∉ ps.map Prod.fst)
    (dict : VedirectDict) : overlay dict ps key = dict key := by
  induction ps using List.reverseRecOn with
  | nil => rfl
  | append_singleton ps p ih =>
    have hboth : key ∉ ps.map Prod.fst ∧ key ≠ p.1 := by simpa using h
    rw [overlay_concat, Function.update_of_ne hboth.2, ih hboth.1]

/-- A field stands in the text, behind a line end. -/
theorem infix_of_fields {text : Bytes} {ps : List (Bytes × Bytes)} (h : Fields text ps) {key : Bytes}
    (hkey : key ∈ ps.map Prod.fst) : (header2 :: (key ++ [delimiter])) <:+: text := by
  induction h with
  | nil => exact absurd hkey List.not_mem_nil
  | @field text skip label value ps _ _ _ _ _ ih =>
    rw [List.map_append, List.mem_append] at hkey
    rcases hkey with hkey | hkey
    · exact (ih hkey).trans (List.prefix_append text _).isInfix
    · have hlabel : key = label := by simpa using hkey
      subst hlabel
      exact ⟨text ++ skip, value ++ [header1], by simp⟩

theorem infix_of_isBlock {block : Bytes} {ps : List (Bytes × Bytes)} (h : IsBlock block ps)
    {key : Bytes} (hkey : key ∈ ps.map Prod.fst) : (header2 :: (key ++ [delimiter])) <:+: block := by
  obtain ⟨text, skip, checksum, rfl, hfields, -⟩ := h
  exact (infix_of_fields hfields hkey).trans (List.prefix_append text _).isInfix

theorem byteSum_concat (bytes : Bytes) (b : UInt8) :
    byteSum (bytes ++ [b]) = byteSum bytes + b.toNat := by
  simp [byteSum]

/-! ## 2. Where the parser stands in a block -/

/-- The part of a block that was read, in each state of the parser. -/
def Reading (p : Vedirect) (block : Bytes) (ps : List (Bytes × Bytes)) : Prop :=
  match p.state with
  | .hex => block = [] ∧ ps = [] ∧ p.key = [] ∧ p.value = []
  | .waitHeader => ∃ text skip, block = text ++ skip ∧ Fields text ps ∧ header2 ∉ skip ∧
      p.key = [] ∧ p.value = []
  | .inKey => ∃ text skip, block = text ++ (skip ++ header2 :: p.key) ∧ Fields text ps ∧
      header2 ∉ skip ∧ delimiter ∉ p.key ∧ p.value = []
  | .inValue => ∃ text skip,
      block = text ++ (skip ++ header2 :: (p.key ++ delimiter :: p.value)) ∧ Fields text ps ∧
      header2 ∉ skip ∧ delimiter ∉ p.key ∧ p.key ≠ checksumLabel ∧ header1 ∉ p.value
  | .inChecksum => ∃ text skip,
      block = text ++ (skip ++ header2 :: (checksumLabel ++ [delimiter])) ∧ Fields text ps ∧
      header2 ∉ skip

/-- What the parser holds in a part of a block. -/
structure Holds (p : Vedirect) (block : Bytes) (carried : VedirectDict)
    (ps : List (Bytes × Bytes)) : Prop where
  reading : Reading p block ps
  sum_eq : p.bytesSum = byteSum block
  dict_eq : p.dict = overlay carried ps

/-- The state of the parser, in a block that is not disturbed. -/
def Follows (r : Recorder) : Prop :=
  r.disturbed = false → ∃ ps, Holds r.parser r.block r.carried ps

section Step

variable {p : Vedirect} {block : Bytes} {carried : VedirectDict} {ps : List (Bytes × Bytes)}
  {byte : UInt8}

theorem Holds.inputHeader (h : Holds p block carried ps) (hstate : p.state = .waitHeader) :
    Holds (p.inputHeader byte) (block ++ [byte]) carried ps := by
  obtain ⟨key, value, sum, state, dict, buflen⟩ := p
  dsimp only at hstate
  subst hstate
  obtain ⟨text, skip, hblock, hfields, hskip, hkey, hvalue⟩ := h.reading
  have hsum : sum + byte.toNat = byteSum (block ++ [byte]) := by
    rw [byteSum_concat, ← h.sum_eq]
  unfold Vedirect.inputHeader addToSum
  dsimp only at hkey hvalue ⊢
  by_cases h1 : byte = header1
  · rw [if_pos h1]
    refine ⟨⟨text, skip ++ [byte], by simp [hblock], hfields, ?_, hkey, hvalue⟩, hsum, h.dict_eq⟩
    rw [List.mem_append, List.mem_singleton, not_or, h1]
    exact ⟨hskip, by decide⟩
  · rw [if_neg h1]
    by_cases h2 : byte = header2
    · rw [if_pos h2]
      refine ⟨⟨text, skip, by simp [hblock, h2, hkey], hfields, hskip, ?_, hvalue⟩, hsum, h.dict_eq⟩
      rw [hkey]
      exact List.not_mem_nil
    · rw [if_neg h2]
      refine ⟨⟨text, skip ++ [byte], by simp [hblock], hfields, ?_, hkey, hvalue⟩, hsum, h.dict_eq⟩
      rw [List.mem_append, List.mem_singleton, not_or]
      exact ⟨hskip, fun heq => h2 heq.symm⟩

theorem Holds.inputKey (h : Holds p block carried ps) (hstate : p.state = .inKey) :
    Holds (p.inputKey byte) (block ++ [byte]) carried ps := by
  obtain ⟨key, value, sum, state, dict, buflen⟩ := p
  dsimp only at hstate
  subst hstate
  obtain ⟨text, skip, hblock, hfields, hskip, hkey, hvalue⟩ := h.reading
  have hsum : sum + byte.toNat = byteSum (block ++ [byte]) := by
    rw [byteSum_concat, ← h.sum_eq]
  unfold Vedirect.inputKey addToSum
  dsimp only at hblock hkey hvalue ⊢
  by_cases htab : byte = delimiter
  · rw [if_pos htab]
    by_cases hlabel : key = checksumLabel
    · rw [if_pos hlabel]
      exact ⟨⟨text, skip, by simp [hblock, htab, hlabel], hfields, hskip⟩, hsum, h.dict_eq⟩
    · rw [if_neg hlabel]
      refine ⟨⟨text, skip, by simp [hblock, htab, hvalue], hfields, hskip, hkey, hlabel, ?_⟩,
        hsum, h.dict_eq⟩
      rw [hvalue]
      exact List.not_mem_nil
  · rw [if_neg htab]
    refine ⟨⟨text, skip, by simp [hblock], hfields, hskip, ?_, hvalue⟩, hsum, h.dict_eq⟩
    rw [List.mem_append, List.mem_singleton, not_or]
    exact ⟨hkey, fun heq => htab heq.symm⟩

/-- A value that ends is a field more. -/
theorem Holds.inputValue (h : Holds p block carried ps) (hstate : p.state = .inValue) :
    ∃ ps', Holds (p.inputValue byte) (block ++ [byte]) carried ps' := by
  obtain ⟨key, value, sum, state, dict, buflen⟩ := p
  dsimp only at hstate
  subst hstate
  obtain ⟨text, skip, hblock, hfields, hskip, hkey, hlabel, hvalue⟩ := h.reading
  have hsum : sum + byte.toNat = byteSum (block ++ [byte]) := by
    rw [byteSum_concat, ← h.sum_eq]
  have hdict : dict = overlay carried ps := h.dict_eq
  unfold Vedirect.inputValue addToSum
  dsimp only at hblock hkey hlabel hvalue ⊢
  by_cases h1 : byte = header1
  · rw [if_pos h1]
    refine ⟨ps ++ [(key, value)], ⟨_, [], ?_, .field hfields hskip hkey hlabel hvalue,
      List.not_mem_nil, rfl, rfl⟩, hsum, ?_⟩
    · simp [hblock, h1]
    · rw [overlay_concat, ← hdict]
  · rw [if_neg h1]
    refine ⟨ps, ⟨text, skip, by simp [hblock], hfields, hskip, hkey, hlabel, ?_⟩, hsum, hdict⟩
    rw [List.mem_append, List.mem_singleton, not_or]
    exact ⟨hvalue, fun heq => h1 heq.symm⟩

theorem fields_nil (h : Fields [] ps) : ps = [] := by
  generalize htext : ([] : Bytes) = text at h
  cases h with
  | nil => rfl
  | field => exact absurd htext (by simp)

/-- Before the first byte of a block nothing is held. -/
theorem Holds.nil (h : Holds p [] carried ps) : ps = [] ∧ p.key = [] ∧ p.value = [] := by
  have hread := h.reading
  unfold Reading at hread
  split at hread
  · exact hread.2
  · obtain ⟨text, skip, hblock, hfields, -, hkey, hvalue⟩ := hread
    obtain ⟨rfl, -⟩ := List.append_eq_nil_iff.mp hblock.symm
    exact ⟨fields_nil hfields, hkey, hvalue⟩
  · obtain ⟨text, skip, hblock, -⟩ := hread
    exact absurd hblock (by simp)
  · obtain ⟨text, skip, hblock, -⟩ := hread
    exact absurd hblock (by simp)
  · obtain ⟨text, skip, hblock, -⟩ := hread
    exact absurd hblock (by simp)

/-- A HEX response between two blocks leaves nothing behind. -/
theorem Holds.inputHex (h : Holds p [] carried ps) (hstate : p.state = .hex) :
    Holds (p.inputHex byte) [] carried ps := by
  obtain ⟨rfl, hkey, hvalue⟩ := h.nil
  unfold Vedirect.inputHex
  split
  · exact ⟨⟨[], [], rfl, .nil, List.not_mem_nil, hkey, hvalue⟩, rfl, h.dict_eq⟩
  · refine ⟨?_, rfl, h.dict_eq⟩
    unfold Reading
    dsimp only
    rw [hstate]
    exact ⟨rfl, rfl, hkey, hvalue⟩

/-- The checksum byte closes the block. -/
theorem Holds.isBlock (h : Holds p block carried ps) (hstate : p.state = .inChecksum) :
    IsBlock (block ++ [byte]) ps := by
  have hread := h.reading
  unfold Reading at hread
  rw [hstate] at hread
  obtain ⟨text, skip, hblock, hfields, hskip⟩ := hread
  exact ⟨text, skip, byte, by simp [hblock], hfields, hskip⟩

end Step

/-! ## 3. One turn -/

section Turn

variable {p : Vedirect} {i : VedirectInput}

theorem turn_full (hfull : 512 ≤ p.buflen) : p.turn i = (none, { p with buflen := 0 }) := by
  unfold Vedirect.turn Vedirect.input
  rw [if_pos hfull]

theorem turn_header (hroom : ¬ 512 ≤ p.buflen) (hbyte : i.byte ≠ hexmarker)
    (hstate : p.state = .waitHeader) :
    p.turn i = (none, { p with buflen := p.buflen + 1 }.inputHeader i.byte) := by
  unfold Vedirect.turn Vedirect.input
  simp [if_neg hroom, hbyte, hstate]

theorem turn_key (hroom : ¬ 512 ≤ p.buflen) (hbyte : i.byte ≠ hexmarker) (hstate : p.state = .inKey) :
    p.turn i = (none, { p with buflen := p.buflen + 1 }.inputKey i.byte) := by
  unfold Vedirect.turn Vedirect.input
  simp [if_neg hroom, hbyte, hstate]

theorem turn_value (hroom : ¬ 512 ≤ p.buflen) (hbyte : i.byte ≠ hexmarker)
    (hstate : p.state = .inValue) :
    p.turn i = (none, { p with buflen := p.buflen + 1 }.inputValue i.byte) := by
  unfold Vedirect.turn Vedirect.input
  simp [if_neg hroom, hbyte, hstate]

theorem turn_hex (hroom : ¬ 512 ≤ p.buflen) (hstate : p.state ≠ .inChecksum)
    (h : i.byte = hexmarker ∨ p.state = .hex) :
    p.turn i = (none, { p with buflen := p.buflen + 1, state := .hex }.inputHex i.byte) := by
  have hhex : (if i.byte = hexmarker ∧ p.state ≠ VedirectState.inChecksum then VedirectState.hex
      else p.state) = .hex := by
    rcases h with h | h
    · rw [if_pos ⟨h, hstate⟩]
    · rw [h, ite_self]
  unfold Vedirect.turn Vedirect.input
  rw [if_neg hroom]
  simp only [hhex]

/-- At the checksum byte: a wrong sum, a full queue or a record. -/
theorem turn_checksum (hroom : ¬ 512 ≤ p.buflen) (hstate : p.state = .inChecksum) :
    ∃ dict buflen, (p.turn i).2
        = { key := [], value := [], bytesSum := 0, state := .waitHeader, dict, buflen } ∧
      ((p.turn i).1 = none ∨
        (p.bytesSum + i.byte.toNat) % 256 = 0 ∧
          (p.turn i).1 = some (Function.update p.dict timestamp (some (.time i.now)))) := by
  unfold Vedirect.turn Vedirect.input
  rw [if_neg hroom]
  simp only [hstate, ne_eq, not_true_eq_false, and_false, if_false, inputChecksum, addToSum]
  by_cases hsum : (p.bytesSum + i.byte.toNat) % 256 = 0
  · simp only [hsum, if_true]
    by_cases haccepted : i.accepted = true
    · simp only [haccepted, if_true]
      exact ⟨_, _, rfl, .inr ⟨trivial, trivial⟩⟩
    · rw [Bool.not_eq_true] at haccepted
      simp only [haccepted, Bool.false_eq_true, if_false]
      exact ⟨_, _, rfl, .inl trivial⟩
  · simp only [hsum, if_false]
    exact ⟨_, _, rfl, .inl trivial⟩

end Turn

/-! ## 4. The thread and the note -/

namespace Recorder

/-- **The parser follows the block that is going on.** -/
theorem Follows.step {r : Recorder} (h : Follows r) (i : VedirectInput) :
    Follows (recorder.step r i).2 := by
  unfold recorder
  dsimp only
  unfold note
  by_cases hroom : 512 ≤ r.parser.buflen
  · rw [if_pos hroom]
    intro hdisturbed
    exact absurd hdisturbed (by simp)
  · rw [if_neg hroom]
    by_cases hstate : r.parser.state = .inChecksum
    · rw [if_pos hstate]
      obtain ⟨dict, buflen, hparser, -⟩ := turn_checksum (i := i) hroom hstate
      rw [hparser]
      intro _
      exact ⟨[], ⟨⟨[], [], rfl, .nil, List.not_mem_nil, rfl, rfl⟩, rfl, rfl⟩⟩
    · rw [if_neg hstate]
      by_cases hhex : i.byte = hexmarker ∨ r.parser.state = .hex
      · rw [turn_hex hroom hstate hhex]
        by_cases hblock : r.block = []
        · rw [if_pos ⟨hblock, hhex⟩]
          intro hdisturbed
          obtain ⟨ps, hholds⟩ := h hdisturbed
          rw [hblock] at hholds ⊢
          refine ⟨ps, Holds.inputHex ?_ rfl⟩
          obtain ⟨rfl, hkey, hvalue⟩ := hholds.nil
          exact ⟨⟨rfl, rfl, hkey, hvalue⟩, hholds.sum_eq, hholds.dict_eq⟩
        · rw [if_neg (fun hboth => hblock hboth.1)]
          intro hdisturbed
          simp [hhex] at hdisturbed
      · rw [if_neg (fun hboth => hhex hboth.2)]
        intro hdisturbed
        have hcalm : r.disturbed = false := by simpa [hhex] using hdisturbed
        obtain ⟨ps, hholds⟩ := h hcalm
        have hroomy : Holds { r.parser with buflen := r.parser.buflen + 1 } r.block r.carried ps :=
          ⟨hholds.reading, hholds.sum_eq, hholds.dict_eq⟩
        rw [not_or] at hhex
        cases hs : r.parser.state with
        | hex => exact absurd hs hhex.2
        | waitHeader =>
          rw [turn_header hroom hhex.1 hs]
          exact ⟨ps, hroomy.inputHeader hs⟩
        | inKey =>
          rw [turn_key hroom hhex.1 hs]
          exact ⟨ps, hroomy.inputKey hs⟩
        | inValue =>
          rw [turn_value hroom hhex.1 hs]
          exact hroomy.inputValue hs
        | inChecksum => exact absurd hs hstate

/-- Nothing is put but at the checksum byte. -/
theorem turn_none {p : Vedirect} {i : VedirectInput} (h : 512 ≤ p.buflen ∨ p.state ≠ .inChecksum) :
    (p.turn i).1 = none := by
  by_cases hfull : 512 ≤ p.buflen
  · rw [turn_full hfull]
  · have hstate : p.state ≠ .inChecksum := h.resolve_left hfull
    by_cases hhex : i.byte = hexmarker ∨ p.state = .hex
    · rw [turn_hex hfull hstate hhex]
    · rw [not_or] at hhex
      cases hs : p.state with
      | hex => exact absurd hs hhex.2
      | waitHeader => rw [turn_header hfull hhex.1 hs]
      | inKey => rw [turn_key hfull hhex.1 hs]
      | inValue => rw [turn_value hfull hhex.1 hs]
      | inChecksum => exact absurd hs hstate

/-- The block that ends with a byte is not disturbed, has no label `timestamp`, and has every
label that was carried into it. -/
def Calm (r : Recorder) (byte : UInt8) : Prop :=
  r.disturbed = false ∧ ∀ ps, IsBlock (r.block ++ [byte]) ps →
    timestamp ∉ ps.map Prod.fst ∧
      ∀ key, r.carried key ≠ none → key ≠ timestamp → key ∈ ps.map Prod.fst

/-- What was carried in is hidden by the labels of the block. -/
theorem update_overlay {carried : VedirectDict} {ps : List (Bytes × Bytes)} {t : VedirectValue}
    (h : ∀ key, carried key ≠ none → key ≠ timestamp → key ∈ ps.map Prod.fst) :
    Function.update (overlay carried ps) timestamp (some t)
      = Function.update (overlay .empty ps) timestamp (some t) := by
  funext key
  by_cases htime : key = timestamp
  · rw [htime, Function.update_self, Function.update_self]
  · rw [Function.update_of_ne htime, Function.update_of_ne htime]
    by_cases hmem : key ∈ ps.map Prod.fst
    · exact overlay_of_mem hmem _ _
    · rw [overlay_of_not_mem hmem, overlay_of_not_mem hmem]
      by_contra hne
      exact hmem (h key hne htime)

theorem isRecord_of_put {r : Recorder} {i : VedirectInput} {put : Put} (hfollows : Follows r)
    (hput : (recorder.step r i).1 = some put) (hcalm : Calm r i.byte) : IsRecord put i.now := by
  have hput : (r.parser.turn i).1.map
      (fun dict => ({ dict, before := r.before, block := r.block ++ [i.byte] } : Put)) = some put :=
    hput
  have hturn : ¬ (512 ≤ r.parser.buflen ∨ r.parser.state ≠ .inChecksum) := by
    intro h
    rw [turn_none h] at hput
    exact absurd hput (by simp)
  rw [not_or, not_not] at hturn
  obtain ⟨ps, hholds⟩ := hfollows hcalm.1
  have hblock : IsBlock (_ ++ [i.byte]) ps := hholds.isBlock hturn.2
  obtain ⟨htimestamp, hlabels⟩ := hcalm.2 ps hblock
  obtain ⟨-, -, -, hnone | ⟨hsum, hdict⟩⟩ := turn_checksum (i := i) hturn.1 hturn.2
  · rw [hnone] at hput
    exact absurd hput (by simp)
  · rw [hdict, Option.map_some, Option.some.injEq] at hput
    subst hput
    refine ⟨ps, hblock, ?_, htimestamp, ?_⟩
    · rw [byteSum_concat, ← hholds.sum_eq]
      exact hsum
    · dsimp only
      rw [hholds.dict_eq, update_overlay hlabels]

/-! ## 5. Streams -/

def bytesOf (inputs : List VedirectInput) : Bytes := inputs.map (·.byte)

theorem follows_final (inputs : List VedirectInput) : Follows (recorder.final .new inputs) := by
  have hreach : recorder.Reachable .new (recorder.final .new inputs) := ⟨inputs, rfl⟩
  refine hreach.induction Follows ?_ (fun r i h => Follows.step h i)
  intro _
  exact ⟨[], ⟨⟨[], [], rfl, .nil, List.not_mem_nil, rfl, rfl⟩, rfl, rfl⟩⟩

/-- The note is the stream: what came before the block, and the block. -/
theorem before_append_block (r : Recorder) (i : VedirectInput) :
    (recorder.step r i).2.before ++ (recorder.step r i).2.block
      = r.before ++ r.block ++ [i.byte] := by
  unfold recorder
  dsimp only
  unfold note
  split
  · simp
  · split
    · simp
    · split
      · rename_i hhex
        simp [hhex.1]
      · simp

theorem stream_eq (inputs : List VedirectInput) :
    (recorder.final .new inputs).before ++ (recorder.final .new inputs).block = bytesOf inputs := by
  induction inputs using List.reverseRecOn with
  | nil => rfl
  | append_singleton inputs i ih =>
    rw [Machine.final_append, Machine.final_cons, Machine.final_nil, before_append_block, ih]
    simp [bytesOf]

/-- Every record that is put is the block that ends the stream so far. -/
def Records (inputs : List VedirectInput) : Prop :=
  ∀ sofar i rest, inputs = sofar ++ i :: rest →
    ∀ put, (recorder.step (recorder.final .new sofar) i).1 = some put →
      bytesOf (sofar ++ [i]) = put.before ++ put.block ∧ IsRecord put i.now

/-- Wherever a record is put, the block is calm. -/
def Undisturbed (inputs : List VedirectInput) : Prop :=
  ∀ sofar i rest, inputs = sofar ++ i :: rest →
    (recorder.step (recorder.final .new sofar) i).1 ≠ none → Calm (recorder.final .new sofar) i.byte

/-- **In a stream whose blocks are calm where they are put, every record is
exactly one block.** -/
theorem records_of_undisturbed {inputs : List VedirectInput} (h : Undisturbed inputs) :
    Records inputs := by
  intro sofar i rest hsplit put hput
  have hcalm := h sofar i rest hsplit (by rw [hput]; simp)
  refine ⟨?_, isRecord_of_put (follows_final sofar) hput hcalm⟩
  have hstream := stream_eq sofar
  have hparts : put.before = (recorder.final .new sofar).before ∧
      put.block = (recorder.final .new sofar).block ++ [i.byte] := by
    obtain ⟨dict, -, rfl⟩ := Option.map_eq_some_iff.mp hput
    exact ⟨rfl, rfl⟩
  rw [hparts.1, hparts.2, ← List.append_assoc, hstream]
  simp [bytesOf]

/-- The bytes of a stream, with a queue that has a place. -/
def line (bytes : Bytes) : List VedirectInput := bytes.map (fun byte => ⟨byte, 0, true⟩)

/-- A block of one field. -/
def blockV : Bytes := ascii "\r\nV\t1\r\nChecksum\t" ++ [6]

/-- A block of another field, with a wrong checksum. -/
def corruptedI : Bytes := ascii "\r\nI\t2\r\nChecksum\t" ++ [0]

/-- The records of a stream are put at the places of its bytes. -/
theorem splits_at {inputs sofar rest : List VedirectInput} {i : VedirectInput}
    (h : inputs = sofar ++ i :: rest) :
    sofar.length < inputs.length ∧ inputs.take sofar.length = sofar ∧
      inputs.getD sofar.length ⟨0, 0, true⟩ = i := by
  subst h
  exact ⟨by simp, List.take_left, by simp⟩

theorem calm_blockV : Calm (recorder.final .new ((line blockV).take 16)) 6 := by
  refine ⟨by decide, ?_⟩
  intro ps hblock
  have heq : (recorder.final .new ((line blockV).take 16)).block ++ [6] = blockV := by decide
  rw [heq] at hblock
  refine ⟨?_, ?_⟩
  · intro hmem
    have ht : (116 : UInt8) ∈ blockV := (infix_of_isBlock hblock hmem).subset (by decide)
    exact absurd ht (by decide)
  · intro key hcarried
    exact absurd rfl hcarried

theorem records_blockV : Records (line blockV) := by
  refine records_of_undisturbed ?_
  intro sofar i rest hsplit hput
  obtain ⟨hlen, hsofar, hi⟩ := splits_at hsplit
  have hearly : ∀ k < 16, (recorder.step (recorder.final .new ((line blockV).take k))
      ((line blockV).getD k ⟨0, 0, true⟩)).1.isNone = true := by decide
  rcases Nat.lt_or_ge sofar.length 16 with hlt | hge
  · have hnone := hearly sofar.length hlt
    rw [hsofar, hi, Option.isNone_iff_eq_none] at hnone
    exact absurd hnone hput
  · have hlast : sofar.length = 16 := Nat.le_antisymm (Nat.le_of_lt_succ hlen) hge
    rw [hlast] at hsofar hi
    rw [← hsofar, ← hi]
    exact calm_blockV

/-- The field of the block that failed is in the record of the next one. -/
theorem not_records_corruptedI : ¬ Records (line (corruptedI ++ blockV)) := by
  intro h
  have hsplit : line (corruptedI ++ blockV)
      = (line (corruptedI ++ blockV)).take 33 ++ ⟨6, 0, true⟩ :: [] := rfl
  have hput : ((recorder.step (recorder.final .new ((line (corruptedI ++ blockV)).take 33))
      ⟨6, 0, true⟩).1.map (fun put => (put.block, put.dict (ascii "I"))))
        = some (blockV, some (.text (ascii "2"))) := by decide +kernel
  obtain ⟨put, hstep, hpair⟩ := Option.map_eq_some_iff.mp hput
  obtain ⟨hblock, hdict⟩ := Prod.mk.inj hpair
  obtain ⟨-, ps, hisBlock, -, -, heq⟩ := h _ _ _ hsplit put hstep
  rw [heq, Function.update_of_ne (by decide)] at hdict
  have hmem : ascii "I" ∈ ps.map Prod.fst := by
    by_contra hno
    rw [overlay_of_not_mem hno] at hdict
    exact absurd hdict (by simp [VedirectDict.empty])
  rw [hblock] at hisBlock
  have hI : (73 : UInt8) ∈ blockV := (infix_of_isBlock hisBlock hmem).subset (by decide)
  exact absurd hI (by decide)

end Recorder

end NavigationServer.Couplers
