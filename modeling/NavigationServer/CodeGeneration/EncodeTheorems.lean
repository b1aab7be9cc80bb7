/-
NavigationServer.CodeGeneration.EncodeTheorems — what `encode_payload` writes
first, and that it stays.

Each step writes at its own place or behind (`Keeps`), so what the first segment
puts into the buffer is in the payload. A bit field is or'ed together in one
variable, and no later line of the segment touches that variable (`Settled`); so
the low bits of the payload are those of the first sub field
(`encodePayload_first`).

The proof follows the generator: what one attribute adds (`Settled.scalar`,
`Settled.subField`), what the attributes of a segment add (`Later`, `Settles`), how the
analysis puts fields into segments (`Opened`), and at last the run of the emitted
lines. Only the first sub field is looked at here; `PayloadTheorems` has the others.
-/
import NavigationServer.CodeGeneration.PythonGen

namespace NavigationServer.CodeGeneration

open NavigationServer.Lib NavigationServer.Nmea2000Datamodel

variable {F : Type} [PythonFloat F]

/-! ## 1. The first bytes stay -/

/-- The first `k` bytes are there and are the same. -/
def Keeps (k : Nat) (buffer buffer' : Bytes) : Prop :=
  k ≤ buffer'.length ∧ buffer'.take k = buffer.take k

/-- What is kept twice is kept. -/
theorem Keeps.trans {k : Nat} {a b c : Bytes} (h : Keeps k a b) (h' : Keeps k b c) : Keeps k a c :=
  ⟨h'.1, h'.2.trans h.2⟩

/-- Another end behind the first `k` bytes. -/
theorem keeps_append {k : Nat} {buffer tail : Bytes} {n : Nat} (hk : k ≤ buffer.length) (hn : k ≤ n) :
    Keeps k buffer (buffer.take n ++ tail) := by
  have hlength : k ≤ (buffer.take n).length := by
    rw [List.length_take]
    omega
  refine ⟨by rw [List.length_append]; omega, ?_⟩
  rw [List.take_append_of_le_length hlength, List.take_take, Nat.min_eq_left hn]

/-- `pack_into` at `k` or behind. -/
theorem keeps_packArgs {k : Nat} {format : List Slot} {buffer buffer' : Bytes} {start : Nat}
    {args : List (Option Int)} (hk : k ≤ buffer.length) (hstart : k ≤ start)
    (h : packArgs format buffer start args = .ok buffer') : Keeps k buffer buffer' := by
  unfold packArgs packInto at h
  split at h
  · cases h
  · split at h
    · rename_i hpack
      split at hpack
      · obtain ⟨data, -, rfl⟩ := Option.map_eq_some_iff.mp hpack
        cases h
        exact keeps_append hk hstart
      · cases hpack
    · cases h

/-- A slice assignment at `k` or behind, even one that changes the length. -/
theorem keeps_setSlice {k : Nat} {buffer new : Bytes} {start stop : Nat} (hk : k ≤ buffer.length)
    (hstart : k ≤ start) : Keeps k buffer (setSlice buffer (start : Int) (stop : Int) new) := by
  unfold setSlice
  simp only [clampIndex_natCast]
  rw [List.append_assoc]
  exact keeps_append hk (by omega)

/-- `insert_string` at `k` or behind: the text, and the padding behind the text. -/
theorem keeps_insertString {k : Nat} {buffer buffer' : Bytes} {start length : Nat} {s : String}
    (hk : k ≤ buffer.length) (hstart : k ≤ start)
    (h : insertString buffer start length s = .ok buffer') : Keeps k buffer buffer' := by
  unfold insertString at h
  dsimp only at h
  generalize hbytes : (if length < s.length then utf8 (s.take length).toString else utf8 s) = bytes at h
  have hslice : Keeps k buffer (setSlice buffer start ((start + bytes.length : Nat) : Int) bytes) :=
    keeps_setSlice hk hstart
  split at h
  · split at h
    · cases h
      exact hslice.trans (keeps_append hslice.1 (by omega))
    · cases h
  · cases h
    exact hslice

/-- One byte at `k` or behind. -/
theorem keeps_setByte {k : Nat} {buffer buffer' : Bytes} {i value : Nat} (hk : k ≤ buffer.length)
    (hi : k ≤ i) (h : setByte buffer i value = .ok buffer') : Keeps k buffer buffer' := by
  unfold setByte at h
  split at h
  · cases h
  · split at h
    · cases h
    · cases h
      exact ⟨by rw [List.length_set]; exact hk, List.take_set_of_le hi⟩

/-- `insert_var_str` at `k` or behind: the length byte, the type byte and the text. -/
theorem keeps_insertVarStr {k : Nat} {buffer : Bytes} {result : Bytes × Nat} {start : Nat} {s : String}
    (hk : k ≤ buffer.length) (hstart : k ≤ start) (h : insertVarStr buffer start s = .ok result) :
    Keeps k buffer result.1 := by
  unfold insertVarStr at h
  obtain ⟨b₁, h₁, h⟩ := bind_eq_ok.mp h
  obtain ⟨b₂, h₂, h⟩ := bind_eq_ok.mp h
  have hkeeps₁ := keeps_setByte hk hstart h₁
  have hkeeps₂ := keeps_setByte hkeeps₁.1 (by omega) h₂
  split at h
  · cases h
    exact hkeeps₁.trans hkeeps₂
  · cases h
    exact (hkeeps₁.trans hkeeps₂).trans (keeps_setSlice hkeeps₂.1 (by omega))

/-- Where a step starts in a class of fixed size. A variable length does not
occur there. -/
def EncodeStep.From (k : Nat) : EncodeStep → Prop
  | .packInto startByte _ _ _ => k ≤ startByte
  | .insertString startByte _ _ => k ≤ startByte
  | .insertVarStr _ => False

/-- A step behind the first `k` bytes. -/
theorem EncodeStep.keeps {k : Nat} {variableSize : Bool} {st st' : EncodeState F} {step : EncodeStep}
    (hk : k ≤ st.buffer.length) (hfixed : variableSize = false → step.From k ∨ k ≤ st.startByte)
    (hvariable : variableSize = true → k ≤ st.startByte) (h : step.run variableSize st = .ok st') :
    Keeps k st.buffer st'.buffer ∧ st.startByte ≤ st'.startByte := by
  have hstart : ∀ startByte, (variableSize = false → k ≤ startByte ∨ k ≤ st.startByte) →
      k ≤ (if variableSize then st.startByte else startByte + st.startByte) := by
    intro startByte hfrom
    cases variableSize with
    | true => exact hvariable rfl
    | false =>
      rw [if_neg (by decide)]
      rcases hfrom rfl with hfrom | hfrom <;> omega
  cases step with
  | packInto startByte format code args =>
    unfold EncodeStep.run at h
    obtain ⟨env, -, h⟩ := bind_eq_ok.mp h
    obtain ⟨values, -, h⟩ := bind_eq_ok.mp h
    obtain ⟨buffer, hpack, h⟩ := bind_eq_ok.mp h
    cases h
    refine ⟨keeps_packArgs hk (hstart startByte hfixed) hpack, ?_⟩
    dsimp only
    split <;> omega
  | insertString startByte length keyword =>
    unfold EncodeStep.run at h
    obtain ⟨s, -, h⟩ := bind_eq_ok.mp h
    obtain ⟨buffer, hinsert, h⟩ := bind_eq_ok.mp h
    cases h
    refine ⟨keeps_insertString hk (hstart startByte hfixed) hinsert, ?_⟩
    dsimp only
    split <;> omega
  | insertVarStr keyword =>
    unfold EncodeStep.run at h
    obtain ⟨s, -, h⟩ := bind_eq_ok.mp h
    obtain ⟨result, hinsert, h⟩ := bind_eq_ok.mp h
    cases h
    have hle : k ≤ st.startByte := by
      cases variableSize with
      | true => exact hvariable rfl
      | false => exact (hfixed rfl).resolve_left id
    exact ⟨keeps_insertVarStr hk hle hinsert, Nat.le_add_right _ _⟩

/-- The steps behind the first `k` bytes. -/
theorem keeps_runEncode {k : Nat} {variableSize : Bool} {st st' : EncodeState F} {steps : List EncodeStep}
    (hk : k ≤ st.buffer.length)
    (hfixed : variableSize = false → (∀ step ∈ steps, step.From k) ∨ k ≤ st.startByte)
    (hvariable : variableSize = true → k ≤ st.startByte) (h : runEncode variableSize st steps = .ok st') :
    Keeps k st.buffer st'.buffer ∧ st.startByte ≤ st'.startByte := by
  induction steps generalizing st with
  | nil =>
    cases h
    exact ⟨⟨hk, rfl⟩, Nat.le_refl _⟩
  | cons step steps ih =>
    unfold runEncode at h
    obtain ⟨next, hstep, hrest⟩ := bind_eq_ok.mp h
    obtain ⟨hkeeps, hle⟩ := step.keeps hk
      (fun hf => (hfixed hf).imp_left (fun hall => hall step List.mem_cons_self)) hvariable hstep
    obtain ⟨hkeeps', hle'⟩ := ih hkeeps.1
      (fun hf => (hfixed hf).imp (fun hall s hs => hall s (List.mem_cons_of_mem step hs)) (by omega))
      (fun hv => Nat.le_trans (hvariable hv) hle) hrest
    exact ⟨hkeeps.trans hkeeps', Nat.le_trans hle hle'⟩

/-- The objects of a repeated set are written where it starts, or behind. -/
theorem keeps_encodeItems {k : Nat} {c : Codec} {items : List (Slots F)} {buffer : Bytes} {startByte : Nat}
    {result : Bytes × Nat} (hk : k ≤ buffer.length) (hstart : k ≤ startByte)
    (h : c.encodeItems items buffer startByte = .ok result) :
    Keeps k buffer result.1 ∧ k ≤ result.2 := by
  induction items generalizing buffer startByte with
  | nil =>
    cases h
    exact ⟨⟨hk, rfl⟩, hstart⟩
  | cons slots items ih =>
    unfold Codec.encodeItems Codec.encodeItem at h
    obtain ⟨item, hitem, hrest⟩ := bind_eq_ok.mp h
    obtain ⟨st, hrun, hdone⟩ := bind_eq_ok.mp hitem
    cases hdone
    obtain ⟨hkeeps, hle⟩ := keeps_runEncode hk (fun _ => .inr hstart) (fun _ => hstart) hrun
    obtain ⟨hkeeps', hle'⟩ := ih hkeeps.1 (by dsimp only at hle ⊢; split <;> omega) hrest
    exact ⟨hkeeps.trans hkeeps', hle'⟩

/-! ## 2. The lines of a segment -/

/-- The variable that a line sets. -/
def Stmt.target : Stmt → Option Var
  | .assign (.var x) _ => some x
  | .assign (.attr _) _ => none
  | .orAssign x _ => some x

/-- A line leaves the variables alone that it does not set. -/
theorem Stmt.run_other {s : Stmt} {slots : Slots F} {locals : Locals} {result : Slots F × Locals} {x : Var}
    (hx : s.target ≠ some x) (h : s.run slots locals = .ok result) : result.2 x = locals x := by
  cases s with
  | assign target e =>
    cases target with
    | var y =>
      unfold Stmt.run at h
      obtain ⟨n, -, h⟩ := bind_eq_ok.mp h
      cases h
      have hne : x ≠ y := fun heq => hx (by rw [heq]; rfl)
      exact Function.update_of_ne hne _ _
    | attr keyword =>
      unfold Stmt.run at h
      obtain ⟨n, -, h⟩ := bind_eq_ok.mp h
      cases h
      rfl
  | orAssign y e =>
    unfold Stmt.run at h
    obtain ⟨old, -, h⟩ := bind_eq_ok.mp h
    obtain ⟨n, -, h⟩ := bind_eq_ok.mp h
    cases h
    have hne : x ≠ y := fun heq => hx (by rw [heq]; rfl)
    exact Function.update_of_ne hne _ _

theorem runStmts_cons (slots : Slots F) (locals : Locals) (s : Stmt) (code : List Stmt) :
    runStmts slots locals (s :: code)
      = s.run slots locals >>= fun result => runStmts result.1 result.2 code := rfl

/-- One line is run. -/
theorem runStmts_singleton (slots : Slots F) (locals : Locals) (s : Stmt) :
    runStmts slots locals [s] = s.run slots locals := by
  rw [runStmts_cons]
  cases s.run slots locals <;> rfl

/-- Lines run one part behind the other. -/
theorem runStmts_append (slots : Slots F) (locals : Locals) (code more : List Stmt) :
    runStmts slots locals (code ++ more)
      = runStmts slots locals code >>= fun result => runStmts result.1 result.2 more := by
  induction code generalizing slots locals with
  | nil => rfl
  | cons s code ih =>
    rw [List.cons_append, runStmts_cons, runStmts_cons]
    cases s.run slots locals with
    | error e => rfl
    | ok result => exact ih result.1 result.2

/-- Where the lines come to an end, `x` holds a number with these low bits. -/
def Holds (L low : Nat) (slots : Slots F) (x : Var) (code : List Stmt) : Prop :=
  ∀ result, runStmts slots (fun _ => none) code = .ok result →
    ∀ n, result.2 x = some n → ∃ m : Nat, n = m ∧ m % 2 ^ L = low

/-- A line that sets another variable. -/
theorem Holds.line {L low : Nat} {slots : Slots F} {x : Var} {code : List Stmt} {s : Stmt}
    (h : Holds L low slots x code) (hs : s.target ≠ some x) : Holds L low slots x (code ++ [s]) := by
  intro result hrun n hn
  rw [runStmts_append] at hrun
  obtain ⟨middle, hmiddle, hlast⟩ := bind_eq_ok.mp hrun
  rw [runStmts_singleton] at hlast
  rw [Stmt.run_other hs hlast] at hn
  exact h middle hmiddle n hn

/-- The lines leave the slots alone. -/
def Pure (slots : Slots F) (code : List Stmt) : Prop :=
  ∀ result, runStmts slots (fun _ => none) code = .ok result → result.1 = slots

/-- The last line runs with the slots as they were at the beginning. -/
theorem runStmts_line {slots : Slots F} {code : List Stmt} {s : Stmt} {result : Slots F × Locals}
    (hpure : Pure slots code) (h : runStmts slots (fun _ => none) (code ++ [s]) = .ok result) :
    ∃ locals, runStmts slots (fun _ => none) code = .ok (slots, locals) ∧
      s.run slots locals = .ok result := by
  rw [runStmts_append] at h
  obtain ⟨middle, hmiddle, hlast⟩ := bind_eq_ok.mp h
  have hslots := hpure middle hmiddle
  rw [runStmts_singleton] at hlast
  obtain ⟨slots', locals'⟩ := middle
  dsimp only at hslots hlast
  subst hslots
  exact ⟨locals', hmiddle, hlast⟩

/-- A line that sets a variable. -/
theorem Pure.line {slots : Slots F} {code : List Stmt} {s : Stmt} (h : Pure slots code)
    (hs : s.target.isSome) : Pure slots (code ++ [s]) := by
  intro result hrun
  obtain ⟨locals, -, hlast⟩ := runStmts_line h hrun
  cases s with
  | assign target e =>
    cases target with
    | var x =>
      unfold Stmt.run at hlast
      obtain ⟨n, -, hdone⟩ := bind_eq_ok.mp hlast
      cases hdone
      rfl
    | attr keyword => cases hs
  | orAssign x e =>
    unfold Stmt.run at hlast
    obtain ⟨old, -, hlast⟩ := bind_eq_ok.mp hlast
    obtain ⟨n, -, hdone⟩ := bind_eq_ok.mp hlast
    cases hdone
    rfl

/-! ## 3. Sub fields -/

/-- What is written for a sub field. -/
def subFieldExpr (sub : BitFieldDef) : Expr :=
  match sub.field.keyword with
  | none => .shifted sub.field.invalidValue sub.bitOffset
  | some keyword => .bits keyword sub.field.bitLength sub.bitOffset

/-- The attribute of a sub field. -/
def subFieldAttr (b : BitField) (sub : BitFieldDef) (subFieldIndex fieldIndex : Nat) : Attribute :=
  match sub.field.keyword with
  | none => .reservedBitField b sub subFieldIndex fieldIndex
  | some keyword => .bitField b sub keyword subFieldIndex fieldIndex

/-- The bits that a field puts into its bit field. -/
def fieldBits (slots : Slots F) (f : FieldDef) : Nat :=
  match f.keyword with
  | none => f.invalidValue
  | some keyword =>
      match slots keyword with
      | some (.int n) => (n % 2 ^ f.bitLength).toNat
      | _ => 0

/-- The attributes of a bit field come one for each sub field, in order. -/
theorem ofSubFields_cons {b : BitField} {decodeIndex i : Nat} {sub : BitFieldDef}
    {subs : List BitFieldDef} {l : List Attribute}
    (h : Attribute.ofSubFields b decodeIndex i (sub :: subs) = .ok l) :
    ∃ others, Attribute.ofSubFields b decodeIndex (i + 1) subs = .ok others ∧
      l = subFieldAttr b sub i decodeIndex :: others := by
  unfold Attribute.ofSubFields at h
  unfold subFieldAttr
  split at h
  · obtain ⟨others, hothers, hdone⟩ := bind_eq_ok.mp h
    cases hdone
    exact ⟨others, hothers, by simp [*]⟩
  · obtain ⟨_, -, h⟩ := bind_eq_ok.mp h
    obtain ⟨others, hothers, hdone⟩ := bind_eq_ok.mp h
    cases hdone
    exact ⟨others, hothers, by simp [*]⟩

/-- What the generator adds for a sub field, with or without a keyword. -/
theorem attr_subFieldAttr (g : EncodeGen) {b : BitField} {format : List Slot}
    (hformat : b.decodeString = .ok format) (sub : BitFieldDef) (subFieldIndex fieldIndex : Nat) :
    g.attr (subFieldAttr b sub subFieldIndex fieldIndex)
      = g.subField b format.length subFieldIndex fieldIndex (subFieldExpr sub) := by
  unfold subFieldAttr subFieldExpr
  split <;> unfold EncodeGen.attr <;> dsimp only <;> rw [hformat] <;> rfl

/-- The not-available value has no more bits than its field. -/
theorem invalidValue_lt (f : FieldDef) : f.invalidValue < 2 ^ f.bitLength := by
  have hpos : 0 < 2 ^ f.bitLength := Nat.two_pow_pos _
  have hle : 2 ^ (f.bitLength - 1) ≤ 2 ^ f.bitLength :=
    Nat.pow_le_pow_right (by decide) (Nat.sub_le _ _)
  unfold FieldDef.invalidValue
  split <;> omega

omit [PythonFloat F] in
/-- Only an integer is masked. -/
theorem maskBits_eq_ok {v : PyValue F} {length n : Nat} (h : maskBits v length = .ok n) :
    ∃ i, v = .int i ∧ n = (i % 2 ^ length).toNat := by
  unfold maskBits at h
  split at h
  · cases h
    exact ⟨_, rfl, rfl⟩
  · cases h

omit [PythonFloat F] in
/-- A slot is read where it is set. -/
theorem read_eq_ok {slots : Slots F} {keyword : String} {v : PyValue F} :
    slots.read keyword = .ok v ↔ slots keyword = some v := by
  unfold Slots.read
  cases slots keyword <;> simp

omit [PythonFloat F] in
/-- The bits of a field stay within its width. -/
theorem fieldBits_lt (slots : Slots F) (f : FieldDef) : fieldBits slots f < 2 ^ f.bitLength := by
  have hpos : 0 < 2 ^ f.bitLength := Nat.two_pow_pos _
  unfold fieldBits
  split
  · exact invalidValue_lt f
  · split
    · rename_i n _
      have hlt := Int.emod_lt_of_pos n (show (0 : Int) < 2 ^ f.bitLength by positivity)
      have hnonneg := Int.emod_nonneg n (show (2 : Int) ^ f.bitLength ≠ 0 by positivity)
      have hcast : ((2 ^ f.bitLength : Nat) : Int) = 2 ^ f.bitLength := by push_cast; rfl
      omega
    · exact hpos

/-- A sub field is its bits, moved to its place. -/
theorem eval_subFieldExpr {sub : BitFieldDef} {slots : Slots F} {locals : Locals} {n : Int}
    (h : (subFieldExpr sub).eval slots locals = .ok n) :
    n = (fieldBits slots sub.field * 2 ^ sub.bitOffset : Nat) := by
  unfold subFieldExpr at h
  unfold fieldBits
  split at h
  · cases h
    rfl
  · rename_i keyword hkey
    unfold Expr.eval at h
    obtain ⟨v, hread, h⟩ := bind_eq_ok.mp h
    obtain ⟨m, hmask, hdone⟩ := bind_eq_ok.mp h
    obtain ⟨i, rfl, rfl⟩ := maskBits_eq_ok hmask
    cases hdone
    simp only [read_eq_ok.mp hread]

/-- What is or'ed above `L` bits leaves them alone. -/
theorem lor_shifted_mod {m k L offset : Nat} (h : L ≤ offset) :
    (m ||| k * 2 ^ offset) % 2 ^ L = m % 2 ^ L := by
  have hzero : k * 2 ^ offset % 2 ^ L = 0 := by
    rw [← Nat.dvd_iff_mod_eq_zero]
    exact Dvd.dvd.mul_left (Nat.pow_dvd_pow 2 h) k
  rw [Nat.or_mod_two_pow, hzero, Nat.or_zero]

/-- A variable that is read has been set. -/
theorem readVar_eq_ok {locals : Locals} {x : Var} {n : Int} (h : readVar locals x = .ok n) :
    locals x = some n := by
  unfold readVar at h
  split at h
  · rename_i hx
    rw [hx, Except.ok.inj h]
  · cases h

/-- The line of the first sub field, which is at bit 0. -/
theorem Holds.assign {slots : Slots F} {x : Var} {code : List Stmt} (hpure : Pure slots code)
    {f : FieldDef} : Holds f.bitLength (fieldBits slots f) slots x
      (code ++ [.assign (.var x) (subFieldExpr ⟨f, 0⟩)]) := by
  intro result hrun n hn
  obtain ⟨locals, -, hlast⟩ := runStmts_line hpure hrun
  unfold Stmt.run at hlast
  obtain ⟨value, hvalue, hdone⟩ := bind_eq_ok.mp hlast
  cases hdone
  simp only [Function.update_self] at hn
  rw [← Option.some.inj hn, eval_subFieldExpr hvalue]
  exact ⟨_, rfl, by rw [pow_zero, Nat.mul_one, Nat.mod_eq_of_lt (fieldBits_lt slots f)]⟩

/-- The line of a sub field behind the low bits. -/
theorem Holds.orAssign {L low : Nat} {slots : Slots F} {x : Var} {code : List Stmt}
    (h : Holds L low slots x code) (hpure : Pure slots code) {sub : BitFieldDef}
    (hoffset : L ≤ sub.bitOffset) : Holds L low slots x (code ++ [.orAssign x (subFieldExpr sub)]) := by
  intro result hrun n hn
  obtain ⟨locals, hcode, hlast⟩ := runStmts_line hpure hrun
  unfold Stmt.run at hlast
  obtain ⟨old, hold, hlast⟩ := bind_eq_ok.mp hlast
  obtain ⟨value, hvalue, hdone⟩ := bind_eq_ok.mp hlast
  cases hdone
  obtain ⟨m, rfl, hm⟩ := h _ hcode old (readVar_eq_ok hold)
  simp only [Function.update_self] at hn
  rw [← Option.some.inj hn, eval_subFieldExpr hvalue]
  exact ⟨_, rfl, by rw [lor_shifted_mod hoffset, hm]⟩

/-- The low half of a word has its low bits. -/
theorem Holds.low16 {L low : Nat} {slots : Slots F} {code : List Stmt} {y : Var}
    (h : Holds L low slots .word code) (hpure : Pure slots code) (hL : L ≤ 16) :
    Holds L low slots y (code ++ [.assign (.var y) (.low16 .word)]) := by
  intro result hrun n hn
  obtain ⟨locals, hcode, hlast⟩ := runStmts_line hpure hrun
  unfold Stmt.run Expr.eval at hlast
  obtain ⟨value, hvalue, hdone⟩ := bind_eq_ok.mp hlast
  obtain ⟨old, hold, hvalue⟩ := bind_eq_ok.mp hvalue
  cases hdone
  cases hvalue
  obtain ⟨m, rfl, hm⟩ := h _ hcode old (readVar_eq_ok hold)
  simp only [Function.update_self] at hn
  rw [← Option.some.inj hn]
  refine ⟨m % 2 ^ 16, by push_cast; rfl, ?_⟩
  rw [Nat.mod_mod_of_dvd m (Nat.pow_dvd_pow 2 hL), hm]

/-! ## 4. The arguments of a segment -/

section Settled

variable {L low : Nat} {slots : Slots F}

/-- The first argument is `v0`, which holds a number with these low bits, and
what the generator adds from here on is elsewhere. -/
structure Settled (L low : Nat) (slots : Slots F) (g : EncodeGen) : Prop where
  numvi_pos : 1 ≤ g.numvi
  valEncode : ∃ tail, g.valEncode = .var (.v 0) :: tail ∧ .var (.v 0) ∉ tail
  holds : Holds L low slots (.v 0) g.code

/-- The next variable is not `v0`. -/
theorem Settled.vi_ne {g : EncodeGen} (h : Settled L low slots g) : g.vi ≠ .v 0 := by
  have hpos := h.numvi_pos
  unfold EncodeGen.vi
  intro heq
  rw [Var.v.inj heq] at hpos
  exact absurd hpos (by decide)

/-- A line that leaves `v0` alone. -/
theorem Settled.line {g : EncodeGen} (h : Settled L low slots g) {s : Stmt}
    (hs : s.target ≠ some (.v 0)) : Settled L low slots (g.line s) :=
  ⟨h.numvi_pos, h.valEncode, h.holds.line hs⟩

/-- Which variable is at work does not count. -/
theorem Settled.setVar {g : EncodeGen} (h : Settled L low slots g) (x : Option Var) :
    Settled L low slots { g with valVar := x } :=
  ⟨h.numvi_pos, h.valEncode, h.holds⟩

/-- Another argument. -/
theorem Settled.arg {g : EncodeGen} (h : Settled L low slots g) {arg : Arg} (harg : arg ≠ .var (.v 0)) :
    Settled L low slots { g with valEncode := g.valEncode ++ [arg] } := by
  obtain ⟨tail, heq, htail⟩ := h.valEncode
  refine ⟨h.numvi_pos, ⟨tail ++ [arg], ?_, ?_⟩, h.holds⟩
  · dsimp only
    rw [heq, List.cons_append]
  · rw [List.mem_append, List.mem_singleton]
    rintro (hmem | rfl)
    · exact htail hmem
    · exact harg rfl

/-- The next argument is a new variable. -/
theorem Settled.newVar {g : EncodeGen} (h : Settled L low slots g) : Settled L low slots g.newVar := by
  have harg := h.arg (fun heq => h.vi_ne (Arg.var.inj heq))
  exact ⟨Nat.le_add_left _ _, harg.valEncode, harg.holds⟩

/-- A new variable and its line. -/
theorem Settled.newVar_line {g : EncodeGen} (h : Settled L low slots g) (e : Expr) :
    Settled L low slots (g.newVar.line (.assign (.var g.vi) e)) :=
  h.newVar.line (fun heq => h.vi_ne (Option.some.inj heq))

/-- Lists of attributes that leave the first argument alone. -/
def Later (F : Type) [PythonFloat F] (attributes : List Attribute) : Prop :=
  ∀ (L low : Nat) (slots : Slots F) (g g' : EncodeGen), Settled L low slots g →
    attributes.foldlM EncodeGen.attr g = .ok g' → Settled L low slots g'

theorem foldlM_attr_cons (g : EncodeGen) (a : Attribute) (attributes : List Attribute) :
    (a :: attributes).foldlM EncodeGen.attr g
      = g.attr a >>= fun g' => attributes.foldlM EncodeGen.attr g' := rfl

/-- A reserved number has a variable of its own. -/
theorem Settled.reserved {g g' : EncodeGen} (h : Settled L low slots g) {f : FieldDef}
    {fieldIndex : Nat} (hattr : g.attr (.reserved f fieldIndex) = .ok g') :
    Settled L low slots g' := by
  unfold EncodeGen.attr at hattr
  cases hattr
  exact h.newVar_line _

/-- A number: a variable of its own where it is scaled or cut into two slots, else the
attribute itself. -/
theorem Settled.scalar {g g' : EncodeGen} (h : Settled L low slots g) {f : FieldDef}
    {keyword : String} {fieldIndex : Nat} (hattr : g.attr (.scalar f keyword fieldIndex) = .ok g') :
    Settled L low slots g' := by
  unfold EncodeGen.attr at hattr
  obtain ⟨format, -, hattr⟩ := bind_eq_ok.mp hattr
  obtain ⟨type, -, hattr⟩ := bind_eq_ok.mp hattr
  split at hattr
  · split at hattr
    · cases hattr
      have hword := (h.newVar.setVar (some .word)).line (s := .assign (.var .word)
        (.convertToInt keyword f.invalidValue f.scale (f.offset.getD 0))) (fun heq => by cases heq)
      have hlow := hword.line (s := .assign (.var g.vi) (.low16 .word))
        (fun heq => h.vi_ne (Option.some.inj heq))
      exact hlow.newVar_line _
    · cases hattr
      exact (h.newVar.setVar (some g.vi)).line (fun heq => h.vi_ne (Option.some.inj heq))
  · have hne : Arg.attr keyword ≠ .var (.v 0) := fun heq => by cases heq
    have harg := h.arg hne
    split at hattr
    · obtain ⟨x, -, hdone⟩ := bind_eq_ok.mp hattr
      cases hdone
      exact (harg.newVar_line _).newVar_line _
    · cases hattr
      exact harg

/-- The attribute of a number. -/
theorem later_ofField {f : FieldDef} {decodeIndex : Nat} {a : Attribute}
    (h : Attribute.ofField f decodeIndex = .ok a) : Later F [a] := by
  intro L low slots g g' hg hfold
  rw [foldlM_attr_cons] at hfold
  obtain ⟨g'', hattr, hdone⟩ := bind_eq_ok.mp hfold
  cases hdone
  unfold Attribute.ofField at h
  split at h
  · cases h
    exact hg.reserved hattr
  · obtain ⟨_, -, hdone⟩ := bind_eq_ok.mp h
    cases hdone
    exact hg.scalar hattr

/-- The sub fields of a group behind the first argument are or'ed to another
variable than `v0`. -/
def OtherVar (g : EncodeGen) : Prop := ∃ x, g.valVar = some x ∧ x ≠ .v 0

/-- A sub field of a group that does not begin the class. -/
theorem Settled.subField {g g' : EncodeGen} (h : Settled L low slots g) {b : BitField}
    {nbSlots subFieldIndex fieldIndex : Nat} {e : Expr} (hindex : 1 ≤ fieldIndex)
    (hvar : subFieldIndex ≠ 0 → OtherVar g)
    (hsub : g.subField b nbSlots subFieldIndex fieldIndex e = .ok g') :
    Settled L low slots g' ∧ OtherVar g' := by
  unfold EncodeGen.subField at hsub
  split at hsub
  · cases hsub
    have hx : (if nbSlots = 2 then Var.word else g.vi) ≠ .v 0 := by
      split
      · exact fun heq => by cases heq
      · exact h.vi_ne
    exact ⟨(h.newVar.setVar _).line (fun heq => hx (Option.some.inj heq)), _, rfl, hx⟩
  · rename_i hne
    obtain ⟨x, hvalVar, hx⟩ := hvar hne
    have hlast : g.lastVar = .ok x := by
      unfold EncodeGen.lastVar
      rw [hvalVar]
    rw [hlast] at hsub
    have hor : Settled L low slots (g.line (.orAssign x e)) :=
      h.line (fun heq => hx (Option.some.inj heq))
    obtain ⟨_, heq, hsub⟩ := bind_eq_ok.mp hsub
    cases heq
    split at hsub
    · obtain ⟨target, htarget, hdone⟩ := bind_eq_ok.mp hsub
      cases hdone
      refine ⟨(hor.line (s := .assign target (.low16 x)) ?_).newVar_line _, x, hvalVar, hx⟩
      -- the argument that is cut stands behind the first one
      obtain ⟨tail, htail, hnot⟩ := hor.valEncode
      intro heq
      rw [htail] at htarget
      obtain ⟨k, rfl⟩ : ∃ k, fieldIndex = k + 1 := ⟨fieldIndex - 1, by omega⟩
      have hmem : target ∈ tail := by
        unfold item at htarget
        rw [List.getElem?_cons_succ] at htarget
        split at htarget
        · rename_i hget
          cases htarget
          exact List.mem_of_getElem? hget
        · cases htarget
      cases target with
      | var y => exact hnot (Option.some.inj heq ▸ hmem)
      | attr keyword => cases heq
    · cases hsub
      exact ⟨hor, x, hvalVar, hx⟩

/-- The attributes of a bit field that does not begin the class. -/
theorem later_ofSubFields {b : BitField} {format : List Slot} (hformat : b.decodeString = .ok format)
    {decodeIndex : Nat} (hindex : 1 ≤ decodeIndex) {attributes : List Attribute}
    (h : Attribute.ofSubFields b decodeIndex 0 b.subFields = .ok attributes) : Later F attributes := by
  intro L low slots g g' hg hfold
  -- by induction on the sub fields that are left, with the index of the next one
  have hrun : ∀ (subs : List BitFieldDef) (i : Nat) (l : List Attribute) (g : EncodeGen),
      Attribute.ofSubFields b decodeIndex i subs = .ok l → Settled L low slots g →
      (i ≠ 0 → OtherVar g) → l.foldlM EncodeGen.attr g = .ok g' → Settled L low slots g' := by
    intro subs
    induction subs with
    | nil =>
      intro i l g hl hg _ hfold
      cases hl
      cases hfold
      exact hg
    | cons sub subs ih =>
      intro i l g hl hg hvar hfold
      obtain ⟨others, hothers, rfl⟩ := ofSubFields_cons hl
      rw [foldlM_attr_cons, attr_subFieldAttr g hformat] at hfold
      obtain ⟨g'', hsub, hrest⟩ := bind_eq_ok.mp hfold
      obtain ⟨hsettled, hother⟩ := hg.subField hindex hvar hsub
      exact ih (i + 1) others g'' hothers hsettled (fun _ => hother) hrest
  exact hrun b.subFields 0 attributes g h hg (fun hne => absurd rfl hne) hfold

/-! ## 5. The first sub field -/

/-- The first group at work, in the variable `x`. -/
structure Opening (L low : Nat) (slots : Slots F) (x : Var) (g : EncodeGen) : Prop where
  numvi : g.numvi = 1
  valEncode : g.valEncode = [.var (.v 0)]
  valVar : g.valVar = some x
  target : x = .v 0 ∨ x = .word
  holds : Holds L low slots x g.code
  first : Holds L low slots (.v 0) g.code
  unchanged : Pure slots g.code

/-- The first group has settled the argument at any time. -/
theorem Opening.settled {x : Var} {g : EncodeGen} (h : Opening L low slots x g) :
    Settled L low slots g :=
  ⟨by rw [h.numvi], ⟨[], h.valEncode, List.not_mem_nil⟩, h.first⟩

/-- The line of the first sub field opens the group. -/
theorem Opening.start {g : EncodeGen} {b : BitField} {nbSlots fieldIndex : Nat} {f : FieldDef}
    (h : EncodeGen.subField ⟨0, [], none, []⟩ b nbSlots 0 fieldIndex (subFieldExpr ⟨f, 0⟩) = .ok g) :
    Opening f.bitLength (fieldBits slots f) slots (if nbSlots = 2 then .word else .v 0) g := by
  have hpure : Pure slots [] := by
    intro result hrun
    cases hrun
    rfl
  have hnone : Holds f.bitLength (fieldBits slots f) slots (.v 0) [] := by
    intro result hrun n hn
    cases hrun
    cases hn
  unfold EncodeGen.subField at h
  rw [if_pos rfl] at h
  cases h
  refine ⟨rfl, rfl, rfl, ?_, Holds.assign hpure, ?_, hpure.line rfl⟩
  · split
    · exact .inr rfl
    · exact .inl rfl
  · split
    · exact hnone.line (fun heq => by cases heq)
    · exact Holds.assign hpure

/-- Another sub field of the first group. Behind the last one of a word the word
is cut. -/
theorem Opening.subField {x : Var} {g g' : EncodeGen} (h : Opening L low slots x g) {b : BitField}
    {nbSlots subFieldIndex : Nat} {sub : BitFieldDef} (hL : L ≤ 16) (hindex : subFieldIndex ≠ 0)
    (hoffset : L ≤ sub.bitOffset) (hword : nbSlots = 2 → x = .word)
    (hsub : g.subField b nbSlots subFieldIndex 0 (subFieldExpr sub) = .ok g') :
    Opening L low slots x g' ∨ (subFieldIndex = b.subFields.length - 1 ∧ Settled L low slots g') := by
  have hfirst : Holds L low slots (.v 0) (g.code ++ [.orAssign x (subFieldExpr sub)]) := by
    rcases h.target with rfl | rfl
    · exact h.first.orAssign h.unchanged hoffset
    · exact h.first.line (fun heq => by cases heq)
  have hor : Opening L low slots x (g.line (.orAssign x (subFieldExpr sub))) :=
    ⟨h.numvi, h.valEncode, h.valVar, h.target, h.holds.orAssign h.unchanged hoffset, hfirst,
      h.unchanged.line rfl⟩
  have hlast : g.lastVar = .ok x := by
    unfold EncodeGen.lastVar
    rw [h.valVar]
  unfold EncodeGen.subField at hsub
  rw [if_neg hindex, hlast] at hsub
  obtain ⟨_, heq, hsub⟩ := bind_eq_ok.mp hsub
  cases heq
  split at hsub
  · rename_i hcut
    have hx := hword hcut.1
    subst hx
    have hitem : item (g.line (.orAssign .word (subFieldExpr sub))).valEncode 0 = .ok (.var (.v 0)) := by
      rw [hor.valEncode]
      rfl
    dsimp only at hsub
    rw [hitem] at hsub
    obtain ⟨target, heq, hdone⟩ := bind_eq_ok.mp hsub
    cases heq
    cases hdone
    -- the low half goes to `v0`, the high one to a new variable
    have hlow : Settled L low slots
        ((g.line (.orAssign .word (subFieldExpr sub))).line (.assign (.var (.v 0)) (.low16 .word))) :=
      ⟨hor.settled.numvi_pos, hor.settled.valEncode, hor.holds.low16 hor.unchanged hL⟩
    exact .inr ⟨hcut.2, hlow.newVar_line _⟩
  · cases hsub
    exact .inl hor

/-- Sub fields stand one behind the other. -/
theorem le_bitOffset_subFieldsFrom {L offset : Nat} {fields : List FieldDef} (h : L ≤ offset) :
    ∀ sub ∈ subFieldsFrom offset fields, L ≤ sub.bitOffset := by
  induction fields generalizing offset with
  | nil => exact fun sub hsub => absurd hsub List.not_mem_nil
  | cons f fields ih =>
    intro sub hsub
    rcases List.mem_cons.mp hsub with rfl | hsub
    · exact h
    · exact ih (Nat.le_add_right_of_le h) sub hsub

/-- The first group of a class, where it stands at the beginning. -/
theorem settled_firstGroup {b : BitField} {format : List Slot} {f : FieldDef} {fields : List FieldDef}
    (hformat : b.decodeString = .ok format) (hfields : b.fields = f :: fields) (hL : f.bitLength ≤ 16)
    {attributes : List Attribute} (h : Attribute.ofSubFields b 0 0 b.subFields = .ok attributes)
    {g : EncodeGen} (hfold : attributes.foldlM EncodeGen.attr ⟨0, [], none, []⟩ = .ok g) :
    Settled f.bitLength (fieldBits slots f) slots g := by
  have hsubs : b.subFields = ⟨f, 0⟩ :: subFieldsFrom f.bitLength fields := by
    unfold BitField.subFields
    rw [hfields, subFieldsFrom, Nat.zero_add]
  have hrun : ∀ (x : Var), (format.length = 2 → x = .word) → ∀ (subs : List BitFieldDef) (i : Nat)
      (l : List Attribute) (g₀ : EncodeGen), i ≠ 0 → i + subs.length = b.subFields.length →
      (∀ sub ∈ subs, f.bitLength ≤ sub.bitOffset) → Attribute.ofSubFields b 0 i subs = .ok l →
      Opening f.bitLength (fieldBits slots f) slots x g₀ → l.foldlM EncodeGen.attr g₀ = .ok g →
      Settled f.bitLength (fieldBits slots f) slots g := by
    intro x hword subs
    induction subs with
    | nil =>
      intro i l g₀ _ _ _ hl hg₀ hfold
      cases hl
      cases hfold
      exact hg₀.settled
    | cons sub subs ih =>
      intro i l g₀ hi hlength hoffset hl hg₀ hfold
      obtain ⟨others, hothers, rfl⟩ := ofSubFields_cons hl
      rw [foldlM_attr_cons, attr_subFieldAttr g₀ hformat] at hfold
      obtain ⟨g₁, hsub, hrest⟩ := bind_eq_ok.mp hfold
      rw [List.length_cons] at hlength
      rcases hg₀.subField hL hi (hoffset sub List.mem_cons_self) hword hsub with hg₁ | ⟨hlast, hg₁⟩
      · exact ih (i + 1) others g₁ (Nat.succ_ne_zero i) (by omega)
          (fun s hs => hoffset s (List.mem_cons_of_mem sub hs)) hothers hg₁ hrest
      · -- the word is cut behind the last sub field only
        have hnil : subs = [] := List.eq_nil_of_length_eq_zero (by omega)
        subst hnil
        cases hothers
        cases hrest
        exact hg₁
  rw [hsubs] at h
  obtain ⟨others, hothers, rfl⟩ := ofSubFields_cons h
  rw [foldlM_attr_cons, attr_subFieldAttr _ hformat] at hfold
  obtain ⟨g₁, hsub, hrest⟩ := bind_eq_ok.mp hfold
  refine hrun (if format.length = 2 then .word else .v 0) (fun htwo => if_pos htwo) _ 1 others g₁
    Nat.one_ne_zero ?_ (le_bitOffset_subFieldsFrom (Nat.le_refl _)) hothers (Opening.start hsub) hrest
  rw [hsubs, List.length_cons, Nat.add_comm]

end Settled

/-! ## 6. The segments of a class -/

/-- Two bytes or more begin with a slot of two bytes or more. -/
theorem decodeUintStr_cons {n : Nat} {format : List Slot} (hn : 2 ≤ n)
    (h : decodeUintStr n = .ok format) : ∃ w others, format = ⟨w, false⟩ :: others ∧ 2 ≤ w := by
  unfold decodeUintStr at h
  split at h <;> cases h
  · exact absurd hn (by decide)
  all_goals exact ⟨_, _, rfl, by decide⟩

/-- A number has a slot. -/
theorem decodeUintStr_ne_nil {n : Nat} {format : List Slot} (h : decodeUintStr n = .ok format) :
    format ≠ [] := by
  unfold decodeUintStr at h
  split at h <;> cases h <;> exact List.cons_ne_nil _ _

/-- So has every field with a format. -/
theorem decodeString_ne_nil {f : FieldDef} {format : List Slot} (h : f.decodeString = .ok format) :
    format ≠ [] := by
  have hsigned : ∀ n, decodeIntStr n = .ok format → format ≠ [] := by
    intro n hn
    unfold decodeIntStr at hn
    split at hn <;> cases hn <;> exact List.cons_ne_nil _ _
  unfold FieldDef.decodeString at h
  split at h
  case h_1 | h_2 | h_3 | h_4 =>
    split at h
    · cases h
    · exact decodeUintStr_ne_nil h
  case h_5 | h_6 => exact hsigned _ h
  case h_7 => exact decodeUintStr_ne_nil h
  case h_8 =>
    cases h
    exact List.cons_ne_nil _ _
  case h_9 | h_10 | h_11 => cases h

/-- A list of attributes that settles the first argument. -/
def Settles (F : Type) [PythonFloat F] (f : FieldDef) (attributes : List Attribute) : Prop :=
  ∀ (slots : Slots F) (g : EncodeGen), attributes.foldlM EncodeGen.attr ⟨0, [], none, []⟩ = .ok g →
    Settled f.bitLength (fieldBits slots f) slots g

/-- More attributes behind those that settle it. -/
theorem Settles.append {f : FieldDef} {attributes more : List Attribute} (h : Settles F f attributes)
    (hmore : Later F more) : Settles F f (attributes ++ more) := by
  intro slots g hfold
  rw [List.foldlM_append] at hfold
  obtain ⟨g', hfirst, hrest⟩ := bind_eq_ok.mp hfold
  exact hmore _ _ _ g' g (h slots g' hfirst) hrest

/-- Segments that begin with a group whose first field is `f`. -/
inductive Headed (F : Type) [PythonFloat F] (f : FieldDef) : List DecodeSegment → Prop where
  | intro {w : Nat} {format : List Slot} {attributes : List Attribute} {others : List DecodeSegment}
      (width : 2 ≤ w) (settles : Settles F f attributes)
      (behind : ∀ segment ∈ others, 2 ≤ segment.startByte) :
      Headed F f (.valueSet 0 (⟨w, false⟩ :: format) attributes :: others)

/-- More segments behind the first one. -/
theorem Headed.append {f : FieldDef} {segments more : List DecodeSegment} (h : Headed F f segments)
    (hmore : ∀ segment ∈ more, 2 ≤ segment.startByte) : Headed F f (segments ++ more) := by
  obtain ⟨hwidth, hsettles, hbehind⟩ := h
  refine .intro hwidth hsettles ?_
  intro segment hmem
  rcases List.mem_append.mp hmem with hmem | hmem
  · exact hbehind segment hmem
  · exact hmore segment hmem

/-- The analysis behind the first group: the next number and the next segment
are not the first. -/
structure Opened (F : Type) [PythonFloat F] (f : FieldDef) (a : Analysis) : Prop where
  headed : Headed F f a.segments
  decodeIndex : a.complete = [] → 1 ≤ a.decodeIndex
  nextByte : 2 ≤ a.nextByte

/-- The sizes of two formats add up. -/
theorem calcsize_append (format more : List Slot) :
    calcsize (format ++ more) = calcsize format + calcsize more := by
  unfold calcsize
  rw [List.map_append, List.sum_append]

/-- A number goes into the value segment at work, or opens one. -/
theorem addNumber_cases {a a' : Analysis} {format : List Slot}
    {nbDecodeSlots : Except Exn Nat} (hslots : nbDecodeSlots = .ok format.length)
    {attributes : Nat → Except Exn (List Attribute)}
    (h : a.addNumber format nbDecodeSlots attributes = .ok a') :
    (∃ startByte slots others own, a.segment = some (.valueSet startByte slots others) ∧
      attributes a.decodeIndex = .ok own ∧ a' = ⟨a.complete,
        some (.valueSet startByte (slots ++ format) (others ++ own)), a.decodeIndex + format.length⟩) ∨
    ∃ own, attributes 0 = .ok own ∧
      a' = ⟨a.segments, some (.valueSet a.nextByte format own), format.length⟩ := by
  unfold Analysis.addNumber at h
  rw [hslots] at h
  split at h
  · rename_i startByte slots others hsegment
    obtain ⟨own, hown, hdone⟩ := bind_eq_ok.mp h
    cases hdone
    exact .inl ⟨startByte, slots, others, own, hsegment, hown, rfl⟩
  · obtain ⟨own, hown, hdone⟩ := bind_eq_ok.mp h
    cases hdone
    exact .inr ⟨own, hown, rfl⟩

/-- A number behind the first group. -/
theorem Opened.addNumber {f : FieldDef} {a a' : Analysis} (h : Opened F f a) {format : List Slot}
    {nbDecodeSlots : Except Exn Nat} (hslots : nbDecodeSlots = .ok format.length)
    {attributes : Nat → Except Exn (List Attribute)} (hformat : format ≠ [])
    (hlater : ∀ i l, 1 ≤ i → attributes i = .ok l → Later F l)
    (hadd : a.addNumber format nbDecodeSlots attributes = .ok a') : Opened F f a' := by
  have hpos : 1 ≤ format.length := List.length_pos_of_ne_nil hformat
  rcases addNumber_cases hslots hadd with ⟨startByte, slots, others, more, hsegment, hmore, rfl⟩ | ⟨more, -, rfl⟩
  · have hheaded := h.headed
    have hnext := h.nextByte
    unfold Analysis.segments at hheaded
    unfold Analysis.nextByte at hnext
    rw [hsegment] at hheaded hnext
    refine ⟨?_, fun _ => Nat.le_add_left_of_le hpos, ?_⟩
    · unfold Analysis.segments
      dsimp only [Option.toList] at hheaded ⊢
      cases hcomplete : a.complete with
      | nil =>
        -- the segment at work is the first one, and its number is not the first
        rw [hcomplete, List.nil_append] at hheaded
        obtain ⟨hwidth, hsettles, -⟩ := hheaded
        exact .intro hwidth (hsettles.append (hlater _ _ (h.decodeIndex hcomplete) hmore))
          (fun segment hmem => absurd hmem List.not_mem_nil)
      | cons first complete =>
        rw [hcomplete] at hheaded
        obtain ⟨hwidth, hsettles, hbehind⟩ := hheaded
        refine .intro hwidth hsettles ?_
        intro segment hmem
        rcases List.mem_append.mp hmem with hmem | hmem
        · exact hbehind segment (List.mem_append_left _ hmem)
        · rw [List.mem_singleton.mp hmem]
          exact hbehind (.valueSet startByte slots _) (List.mem_append_right _ (List.mem_singleton_self _))
    · unfold Analysis.nextByte
      dsimp only [DecodeSegment.startByte, DecodeSegment.length] at hnext ⊢
      rw [calcsize_append]
      omega
  · refine ⟨?_, fun _ => hpos, ?_⟩
    · refine h.headed.append ?_
      intro segment hmem
      rw [List.mem_singleton.mp hmem]
      exact h.nextByte
    · exact Nat.le_add_right_of_le h.nextByte

/-- A text behind the first group. -/
theorem Opened.addSegment {f : FieldDef} {a : Analysis} (h : Opened F f a) {segment : DecodeSegment}
    (hsegment : segment.startByte = a.nextByte) : Opened F f (a.addSegment segment) := by
  refine ⟨?_, ?_, ?_⟩
  · refine h.headed.append ?_
    intro s hmem
    rw [List.mem_singleton.mp hmem, hsegment]
    exact h.nextByte
  · intro hnil
    have hheaded := h.headed
    rw [show a.segments = [] from hnil] at hheaded
    cases hheaded
  · unfold Analysis.nextByte Analysis.addSegment
    dsimp only
    rw [hsegment]
    exact Nat.le_add_right_of_le h.nextByte

/-- A field behind the first group, by its class. -/
theorem Opened.analyzeField {f : FieldDef} {a a' : Analysis} (h : Opened F f a) {fieldItem : FieldItem}
    (hfield : a.analyzeField fieldItem = .ok a') : Opened F f a' := by
  cases fieldItem with
  | bitField b =>
    unfold Analysis.analyzeField at hfield
    obtain ⟨format, hformat, hadd⟩ := bind_eq_ok.mp hfield
    exact h.addNumber (decodeUintStr_ok hformat).2.1 (decodeUintStr_ne_nil hformat)
      (fun i l hi hl => later_ofSubFields hformat hi hl) hadd
  | field g =>
    unfold Analysis.analyzeField at hfield
    dsimp only at hfield
    split at hfield
    · obtain ⟨format, hformat, hadd⟩ := bind_eq_ok.mp hfield
      refine h.addNumber (FieldDef.nbDecodeSlots_of_decodeString hformat)
        (decodeString_ne_nil hformat) ?_ hadd
      intro i l _ hl
      obtain ⟨number, hnumber, hdone⟩ := bind_eq_ok.mp hl
      cases hdone
      exact later_ofField hnumber
    -- a string with a key has it checked
    all_goals
      split at hfield
      · obtain ⟨_, -, hdone⟩ := bind_eq_ok.mp hfield
        cases hdone
        exact h.addSegment rfl
      · cases hfield
        exact h.addSegment rfl

/-- All fields behind the first group. -/
theorem Opened.foldlM {f : FieldDef} {fieldList : List FieldItem} {a a' : Analysis} (h : Opened F f a)
    (hfold : fieldList.foldlM Analysis.analyzeField a = .ok a') : Opened F f a' := by
  induction fieldList generalizing a with
  | nil =>
    cases hfold
    exact h
  | cons fieldItem fieldList ih =>
    rw [List.foldlM_cons] at hfold
    obtain ⟨a₁, hfield, hrest⟩ := bind_eq_ok.mp hfold
    exact ih (h.analyzeField hfield) hrest

/-- The fields of a list whose first ones are in a bit field, and the first of
these has more than one byte. -/
structure BeginsWith (f : FieldDef) (fieldList : List FieldItem) : Prop where
  first : ∃ b fields others, fieldList = .bitField b :: others ∧ b.fields = f :: fields
  longer : 8 < f.bitLength
  shorter : f.bitLength ≤ 16

/-- A class whose fields begin with such a bit field has it in its first segment. -/
theorem headed_analyzeAttributes {f : FieldDef} {fieldList : List FieldItem}
    (hbegins : BeginsWith f fieldList) {segments : List DecodeSegment}
    (h : analyzeAttributes fieldList = .ok segments) : Headed F f segments := by
  obtain ⟨⟨b, fields, others, rfl, hfields⟩, hlonger, hshorter⟩ := hbegins
  unfold analyzeAttributes at h
  rw [List.foldlM_cons] at h
  obtain ⟨a, hfold, hdone⟩ := bind_eq_ok.mp h
  cases hdone
  obtain ⟨a₁, hfirst, hrest⟩ := bind_eq_ok.mp hfold
  unfold Analysis.analyzeField Analysis.addNumber at hfirst
  obtain ⟨format, hformat, hadd⟩ := bind_eq_ok.mp hfirst
  obtain ⟨attributes, hattributes, hadd⟩ := bind_eq_ok.mp hadd
  rw [show b.nbDecodeSlots = .ok format.length from (decodeUintStr_ok hformat).2.1] at hadd
  cases hadd
  have hlength : 2 ≤ b.byteLength := by
    unfold BitField.byteLength
    rw [hfields, List.map_cons, List.sum_cons]
    omega
  obtain ⟨w, slots, rfl, hw⟩ := decodeUintStr_cons hlength hformat
  have hsettles : Settles F f attributes := fun values g hg =>
    settled_firstGroup hformat hfields hshorter hattributes hg
  have hopened : Opened F f ⟨[], some (.valueSet 0 (⟨w, false⟩ :: slots) attributes),
      (⟨w, false⟩ :: slots).length⟩ := by
    refine ⟨.intro hw hsettles (fun segment hmem => absurd hmem List.not_mem_nil), ?_, ?_⟩
    · intro _
      exact Nat.le_add_left _ _
    · unfold Analysis.nextByte
      dsimp only [DecodeSegment.startByte, DecodeSegment.length]
      rw [calcsize_cons, Nat.zero_add]
      exact Nat.le_add_right_of_le hw
  exact (hopened.foldlM hrest).headed

/-! ## 7. The payload -/

/-- `mapM` comes to the end only where each element does. -/
theorem mapM_cons_eq_ok {α β ε : Type} {f : α → Except ε β} {a : α} {l : List α} {result : List β}
    (h : (a :: l).mapM f = .ok result) :
    ∃ b rest, f a = .ok b ∧ l.mapM f = .ok rest ∧ result = b :: rest := by
  rw [List.mapM_cons] at h
  obtain ⟨b, hb, h⟩ := bind_eq_ok.mp h
  obtain ⟨rest, hrest, hdone⟩ := bind_eq_ok.mp h
  cases hdone
  exact ⟨b, rest, hb, hrest, rfl⟩

/-- Each result comes of an element. -/
theorem exists_of_mem_mapM {α β ε : Type} {f : α → Except ε β} {l : List α} {result : List β}
    (h : l.mapM f = .ok result) : ∀ b ∈ result, ∃ a ∈ l, f a = .ok b := by
  induction l generalizing result with
  | nil =>
    cases h
    exact fun b hb => absurd hb List.not_mem_nil
  | cons a l ih =>
    obtain ⟨b, rest, hb, hrest, rfl⟩ := mapM_cons_eq_ok h
    intro c hc
    rcases List.mem_cons.mp hc with rfl | hc
    · exact ⟨a, List.mem_cons_self, hb⟩
    · obtain ⟨a', ha', hc⟩ := ih hrest c hc
      exact ⟨a', List.mem_cons_of_mem a ha', hc⟩

/-- A step starts where its segment does. -/
theorem from_of_genEncodeSegment {k : Nat} {segment : DecodeSegment} {step : EncodeStep}
    (h : genEncodeSegment segment = .ok step) (hstart : k ≤ segment.startByte)
    (hfixed : segment.isVariable = false) : step.From k := by
  cases segment with
  | valueSet startByte format attributes =>
    unfold genEncodeSegment genEncodeValueSetSegment at h
    obtain ⟨g, -, hdone⟩ := bind_eq_ok.mp h
    cases hdone
    exact hstart
  | fixLength startByte length f =>
    unfold genEncodeSegment at h
    dsimp only at h
    split at h <;> cases h
    exact hstart
  | variableLength startByte f => cases hfixed

/-- The first slot, where it has two bytes or more. -/
theorem take_two_packArgs {w m : Nat} {format : List Slot} {buffer buffer' : Bytes}
    {args : List (Option Int)} (hw : 2 ≤ w)
    (h : packArgs (⟨w, false⟩ :: format) buffer 0 (some (m : Int) :: args) = .ok buffer') :
    2 ≤ buffer'.length ∧ ofLE (buffer'.take 2) = m % 256 ^ 2 := by
  unfold packArgs at h
  split at h
  · cases h
  rename_i values hvalues
  rw [List.mapM_cons] at hvalues
  obtain ⟨rest, -, heq⟩ : ∃ rest, args.mapM id = some rest ∧ values = (m : Int) :: rest := by
    cases hrest : args.mapM id with
    | none =>
      rw [hrest] at hvalues
      cases hvalues
    | some rest =>
      rw [hrest] at hvalues
      cases hvalues
      exact ⟨rest, rfl, rfl⟩
  subst heq
  -- a number that does not fit raises, so the slot holds it as it is
  unfold packInto pack at h
  by_cases hfits : (⟨w, false⟩ : Slot).Fits (m : Int)
  · rw [if_pos hfits] at h
    split at h
    · rename_i written hpack
      cases h
      split at hpack
      · obtain ⟨data, hdata, rfl⟩ := Option.map_eq_some_iff.mp hpack
        obtain ⟨tail, -, rfl⟩ := Option.map_eq_some_iff.mp hdata
        have hunsigned : toUnsigned w (m : Int) = m := by
          have hbound := hfits.2
          unfold toUnsigned
          rw [Int.emod_eq_of_lt (Int.natCast_nonneg m) hbound, Int.toNat_natCast]
        have hlength : 2 ≤ (toLE w m).length := by
          rw [length_toLE]
          exact hw
        rw [hunsigned, List.take_zero, List.nil_append, List.append_assoc]
        dsimp only
        refine ⟨by rw [List.length_append]; omega, ?_⟩
        rw [List.take_append_of_le_length hlength, ofLE_take, ofLE_toLE,
          Nat.mod_mod_of_dvd m (Nat.pow_dvd_pow 256 hw)]
      · cases hpack
    · cases h
  · rw [if_neg hfits] at h
    split at h
    · rename_i written hpack
      split at hpack <;> cases hpack
    · cases h

/-- The first segment puts the bits of the field into the first two bytes. -/
theorem take_two_head {f : FieldDef} {w : Nat} {format : List Slot} {attributes : List Attribute}
    {step : EncodeStep} {variableSize : Bool} {st st' : EncodeState F} (hw : 2 ≤ w)
    (hshorter : f.bitLength ≤ 16) (hsettles : Settles F f attributes)
    (hgen : genEncodeSegment (.valueSet 0 (⟨w, false⟩ :: format) attributes) = .ok step)
    (hlocals : st.locals = fun _ => none) (hstart : st.startByte = 0)
    (h : step.run variableSize st = .ok st') :
    2 ≤ st'.buffer.length ∧ ofLE (st'.buffer.take 2) % 2 ^ f.bitLength = fieldBits st.slots f ∧
      (variableSize = true → 2 ≤ st'.startByte) := by
  unfold genEncodeSegment genEncodeValueSetSegment at hgen
  obtain ⟨g, hfold, hdone⟩ := bind_eq_ok.mp hgen
  cases hdone
  have hsettled := hsettles st.slots g hfold
  obtain ⟨tail, hargs, -⟩ := hsettled.valEncode
  unfold EncodeStep.run at h
  obtain ⟨env, hrun, h⟩ := bind_eq_ok.mp h
  obtain ⟨values, hvalues, h⟩ := bind_eq_ok.mp h
  obtain ⟨buffer, hpack, hdone⟩ := bind_eq_ok.mp h
  cases hdone
  rw [hargs] at hvalues
  obtain ⟨value, rest, hvalue, -, rfl⟩ := mapM_cons_eq_ok hvalues
  obtain ⟨n, hread, hdone⟩ := bind_eq_ok.mp hvalue
  cases hdone
  rw [hlocals] at hrun
  obtain ⟨m, rfl, hm⟩ := hsettled.holds env hrun n (readVar_eq_ok hread)
  have hzero : (if variableSize then st.startByte else 0 + st.startByte) = 0 := by
    rw [hstart]
    split <;> rfl
  rw [hzero] at hpack
  obtain ⟨hlength, hword⟩ := take_two_packArgs hw hpack
  refine ⟨hlength, ?_, ?_⟩
  · have hdvd : 2 ^ f.bitLength ∣ 256 ^ 2 := Nat.pow_dvd_pow 2 hshorter
    dsimp only
    rw [hword, Nat.mod_mod_of_dvd m hdvd, hm]
  · intro hvariable
    dsimp only
    rw [if_pos hvariable, calcsize_cons]
    exact Nat.le_add_left_of_le (Nat.le_add_right_of_le hw)

/-- The methods of a class that is not read only are those of its segments. -/
theorem genClass_eq_ok {d : NMEA2000Meta} {c : GeneratedClass} (h : genClass d = .ok c) :
    c.pgn = d.pgn ∧ c.manufacturerId = d.manufacturer ∧ c.readOnly = d.readOnly ∧
      c.codec.variableSize = d.fields.variableSize ∧
      c.repeated.isSome = d.fields.repeatFieldSet.isSome ∧
      (d.readOnly = false → d.fields.segments.mapM genEncodeSegment = .ok c.codec.encode) := by
  have hcodec : ∃ repeated codec, c = ⟨d.pgn, d.isProprietary, d.manufacturer, d.readOnly, codec, repeated⟩ ∧
      repeated.isSome = d.fields.repeatFieldSet.isSome ∧ genCodec d.fields.segments (d.fields.repeatFieldSet.map (·.countMethod)) d.fields.variableSize
        d.readOnly = .ok codec := by
    unfold genClass at h
    dsimp only at h
    split at h
    · rename_i hnone
      obtain ⟨_, heq, h⟩ := bind_eq_ok.mp h
      cases heq
      obtain ⟨codec, hcodec, hdone⟩ := bind_eq_ok.mp h
      cases hdone
      exact ⟨_, codec, rfl, by rw [hnone]; rfl, hcodec⟩
    · rename_i r hsome
      obtain ⟨inner, -, h⟩ := bind_eq_ok.mp h
      obtain ⟨_, heq, h⟩ := bind_eq_ok.mp h
      cases heq
      obtain ⟨codec, hcodec, hdone⟩ := bind_eq_ok.mp h
      cases hdone
      exact ⟨_, codec, rfl, by rw [hsome]; rfl, hcodec⟩
  obtain ⟨repeated, codec, rfl, hrepeated, hcodec⟩ := hcodec
  unfold genCodec at hcodec
  dsimp only at hcodec
  split at hcodec
  · cases hcodec
  obtain ⟨decode, -, hcodec⟩ := bind_eq_ok.mp hcodec
  split at hcodec
  · rename_i hreadOnly
    cases hcodec
    exact ⟨rfl, rfl, rfl, rfl, hrepeated, fun hwrites => absurd hreadOnly (by rw [hwrites]; decide)⟩
  · obtain ⟨encode, hencode, hdone⟩ := bind_eq_ok.mp hcodec
    cases hdone
    exact ⟨rfl, rfl, rfl, rfl, hrepeated, fun _ => hencode⟩

/-- **The low bits of a payload are those of the first field**, where the class
begins with a group of bits and the first field of the group needs two bytes;
what the other fields hold does not matter. -/
theorem encodePayload_first {d : NMEA2000Meta} {c : GeneratedClass} {fieldList : List FieldItem}
    {f : FieldDef} (hclass : genClass d = .ok c)
    (hsegments : analyzeAttributes fieldList = .ok d.fields.segments)
    (hbegins : BeginsWith f fieldList) {o : Obj F} {payload : Bytes}
    (h : c.encodePayload o = .ok payload) :
    2 ≤ payload.length ∧ ofLE (payload.take 2) % 2 ^ f.bitLength = fieldBits o.slots f := by
  obtain ⟨-, -, hreadOnly, hvariable, hrepeated, hencode⟩ := genClass_eq_ok hclass
  unfold GeneratedClass.encodePayload at h
  dsimp only at h
  split at h
  · cases h
  rename_i hwrites
  rw [hreadOnly, Bool.not_eq_true] at hwrites
  have hencode := hencode hwrites
  obtain ⟨st, hrun, h⟩ := bind_eq_ok.mp h
  have hheaded := headed_analyzeAttributes (F := F) hbegins hsegments
  -- a variable length makes the size of the class variable
  have hfixed : d.fields.variableSize = false → ∀ segment ∈ d.fields.segments,
      segment.isVariable = false := by
    intro hsize segment hmem
    unfold FieldSetMeta.variableSize at hsize
    exact Bool.eq_false_iff.mpr (List.any_eq_false.mp (Bool.or_eq_false_iff.mp hsize).1 segment hmem)
  generalize hsegs : d.fields.segments = segments at hencode hheaded hfixed
  obtain ⟨hwidth, hsettles, hbehind⟩ := hheaded
  obtain ⟨step, steps, hfirst, hothers, hsteps⟩ := mapM_cons_eq_ok hencode
  rw [hsteps] at hrun
  unfold runEncode at hrun
  obtain ⟨st₁, hstep, hrest⟩ := bind_eq_ok.mp hrun
  obtain ⟨hlength, hlow, hstart⟩ := take_two_head hwidth hbegins.shorter hsettles hfirst rfl rfl hstep
  have hfrom : c.codec.variableSize = false → (∀ s ∈ steps, s.From 2) ∨ 2 ≤ st₁.startByte := by
    intro hsize
    rw [hvariable] at hsize
    left
    intro s hs
    obtain ⟨segment, hmem, hgen⟩ := exists_of_mem_mapM hothers s hs
    exact from_of_genEncodeSegment hgen (hbehind segment hmem)
      (hfixed hsize segment (List.mem_cons_of_mem _ hmem))
  obtain ⟨hkeeps, hle⟩ := keeps_runEncode hlength hfrom hstart hrest
  -- the objects of the repeated set stand behind, and the end is behind too
  have hdone : ∃ buffer startByte, Keeps 2 st₁.buffer buffer ∧
      (c.codec.variableSize = true → 2 ≤ startByte) ∧
      payload = if c.codec.variableSize then buffer.take startByte else buffer := by
    split at h
    · obtain ⟨_, heq, hdone⟩ := bind_eq_ok.mp h
      cases heq
      cases hdone
      exact ⟨st.buffer, st.startByte, hkeeps, fun hsize => Nat.le_trans (hstart hsize) hle, rfl⟩
    · rename_i r hsome
      have hsize : c.codec.variableSize = true := by
        rw [hvariable]
        unfold FieldSetMeta.variableSize
        rw [← hrepeated, hsome, Option.isSome_some, Bool.or_true]
      obtain ⟨result, hitems, hdone⟩ := bind_eq_ok.mp h
      cases hdone
      obtain ⟨hkeeps', hle'⟩ := keeps_encodeItems hkeeps.1 (Nat.le_trans (hstart hsize) hle) hitems
      exact ⟨result.1, result.2, hkeeps.trans hkeeps', fun _ => hle', rfl⟩
  obtain ⟨buffer, startByte, hall, hend, rfl⟩ := hdone
  have htake : (if c.codec.variableSize then buffer.take startByte else buffer).take 2
      = st₁.buffer.take 2 := by
    split
    · rename_i hsize
      rw [List.take_take, Nat.min_eq_left (hend hsize)]
      exact hall.2
    · exact hall.2
  refine ⟨?_, by rw [htake]; exact hlow⟩
  split
  · rename_i hsize
    rw [List.length_take]
    exact le_min (hend hsize) hall.1
  · exact hall.1

end NavigationServer.CodeGeneration
