/-
NavigationServer.CodeGeneration.PayloadTheorems — the payload that a generated
class writes.

A number has one argument of `pack_into`, or two where it takes three bytes, and
a bit field has one that its sub fields are or'ed to. What a line sets is no
argument that is already there (`Ready`); so the arguments of a segment are the
numbers of its items one behind the other (`NumberRun.ready`), and the payload of
a class of fixed length is the bytes of its items (`encodePayload_eq`). The last
byte of a bit field of three is 0 whatever its sub fields hold.

A variable may be set again as long as it is no argument, which the generator sees to by
counting: the variables of the arguments are `Older` than the next one. In the middle of a
bit field the invariant is `Gathering`: its argument is in the list already, and its
number is not complete. So the induction over the sub fields goes from one `Gathering` to
the next, and ends in `Ready`.

`Writable` leaves out what the lines do not write as the definition says: three bytes that
have a sign, no fraction or no key, and a bit field of three bytes with one sub field.
Buffers of variable length are left out, as are repeated sets.
-/
import NavigationServer.CodeGeneration.DecodeTheorems
import NavigationServer.CodeGeneration.StringTheorems

namespace NavigationServer.CodeGeneration

open NavigationServer.Lib NavigationServer.Nmea2000Datamodel
open BitFieldGenerator (NamedField)
open BitFieldGenerator renaming Item → ListItem

variable {F : Type}

/-! ## 1. What an item is written as -/

/-- The number that a field is written as. A reserved field has all bits set. -/
def sentNumber [PythonFloat F] (slots : Slots F) (f : FieldDef) : Option Int :=
  match f.keyword with
  | none => some f.invalidValue
  | some keyword => do
      let v ← slots keyword
      if f.pythonType = .ok .float then
        (convertToInt v f.invalidValue f.scale (f.offset.getD 0)).toOption
      else
        match v with
        | .int n => some n
        | _ => none

/-- The text that a field is written as. -/
def sentText (slots : Slots F) (f : FieldDef) : Option String := do
  match ← slots (← f.keyword) with
  | .str s => some s
  | _ => none

/-- Where a sub field lies in its bit field. -/
def packedField (s : BitFieldGenerator.BitFieldDef) : PackedField := ⟨s.field.bitLength, s.relOffset⟩

/-- The number that the sub fields make. -/
def wordOf (slots : Slots F) (b : BitFieldGenerator.BitField) : Nat :=
  b.fields.foldl (PackedField.addValue packedField (fun s => some (fieldBits slots s.field.definition))) 0

/-- What is written of it: `(word & 0xFF) >> 16` is the last byte of three. -/
def sentWord (slots : Slots F) (b : BitFieldGenerator.BitField) : Nat :=
  if b.byteLength = 3 then wordOf slots b % 2 ^ 16 else wordOf slots b

/-- The bytes of an item. -/
def itemBytes [PythonFloat F] (slots : Slots F) : ListItem → Bytes
  | .bitField b => toLE b.byteLength (sentWord slots b)
  | .field f =>
      if f.isNumber then
        toLE f.definition.byteLength
          (toUnsigned f.definition.byteLength ((sentNumber slots f.definition).getD 0))
      else fieldBytes f.definition.byteLength ((sentText slots f.definition).getD "")

/-- The arguments of `pack_into` for an item. -/
def itemValues [PythonFloat F] (slots : Slots F) : ListItem → List Int
  | .bitField b =>
      if b.byteLength = 3 then [((wordOf slots b % 2 ^ 16 : Nat) : Int), 0] else [(wordOf slots b : Int)]
  | .field f =>
      let n := (sentNumber slots f.definition).getD 0
      if f.definition.byteLength = 3 then [n % 2 ^ 16, n / 2 ^ 16 % 2 ^ 8] else [n]

/-- The lines of the item write its number: a number that is cut in two has a
fraction and no sign, and a bit field that is cut has two sub fields or more. -/
def Writable : ListItem → Prop
  | .field f => f.isNumber = true → f.definition.byteLength = 3 →
      f.definition.fieldClass = .udblField ∧ f.definition.keyword ≠ none
  | .bitField b => b.byteLength = 3 → 2 ≤ b.fields.length

instance : DecidablePred Writable
  | .field f => inferInstanceAs (Decidable (f.isNumber = true → f.definition.byteLength = 3 →
      f.definition.fieldClass = .udblField ∧ f.definition.keyword ≠ none))
  | .bitField b => inferInstanceAs (Decidable (b.byteLength = 3 → 2 ≤ b.fields.length))

/-- The slots of the item have what it takes. -/
def Carries [PythonFloat F] (slots : Slots F) : ListItem → Prop
  | .bitField b => ∀ s ∈ b.fields, ∀ k, s.field.definition.keyword = some k → ∃ n, slots k = some (.int n)
  | .field f =>
      if f.isNumber then
        ∃ n, sentNumber slots f.definition = some n ∧
          (⟨f.definition.byteLength, f.definition.signed⟩ : Slot).Fits n
      else
        ∀ k, f.definition.keyword = some k → ∃ s, slots k = some (.str s) ∧
          (bytesToInsert f.definition.byteLength s).length ≤ f.definition.byteLength

/-! ## 2. Lines and arguments -/

variable [PythonFloat F] {slots : Slots F}

/-- The lines run, whatever the variables hold, and leave the arguments these
numbers and the variables as `P` says. -/
def Runs (slots : Slots F) (code : List Stmt) (args : List Arg) (vals : List Int) (P : Locals → Prop) : Prop :=
  ∀ locals, ∃ locals', runStmts slots locals code = .ok (slots, locals') ∧
    args.mapM (Arg.eval slots locals') = .ok (vals.map some) ∧ P locals'

/-- The variable is no argument. -/
def Unused (x : Var) (args : List Arg) : Prop := .var x ∉ args

omit [PythonFloat F] in
/-- A variable that is no argument may change. -/
theorem mapM_eval_update {x : Var} {args : List Arg} (h : Unused x args) (locals : Locals) (n : Int) :
    args.mapM (Arg.eval slots (Function.update locals x (some n))) = args.mapM (Arg.eval slots locals) := by
  induction args with
  | nil => rfl
  | cons a args ih =>
    have hargs : Unused x args := fun hmem => h (List.mem_cons_of_mem a hmem)
    have ha : a.eval slots (Function.update locals x (some n)) = a.eval slots locals := by
      cases a with
      | attr keyword => rfl
      | var y =>
        have hne : y ≠ x := fun heq => h (by rw [heq]; exact List.mem_cons_self)
        simp only [Arg.eval, readVar, Function.update_of_ne hne]
    rw [List.mapM_cons, List.mapM_cons, ha, ih hargs]

variable {codeOf : List Stmt} {args : List Arg} {vals : List Int} {P Q : Locals → Prop}

/-- One more line, which sets a variable that is no argument. -/
theorem Runs.assign {x : Var} {e : Expr} (h : Runs slots codeOf args vals P) (hx : Unused x args)
    (he : ∀ locals, P locals → ∃ n, e.eval slots locals = .ok n ∧ Q (Function.update locals x (some n))) :
    Runs slots (codeOf ++ [.assign (.var x) e]) args vals Q := by
  intro locals
  obtain ⟨locals', hrun, hargs, hP⟩ := h locals
  obtain ⟨n, heval, hQ⟩ := he locals' hP
  refine ⟨Function.update locals' x (some n), ?_, ?_, hQ⟩
  · rw [runStmts_append, hrun]
    change runStmts slots locals' [_] = _
    rw [runStmts_singleton, Stmt.run, heval]
    rfl
  · rw [mapM_eval_update hx, hargs]

/-- And one that or's to it. -/
theorem Runs.orAssign {x : Var} {e : Expr} (h : Runs slots codeOf args vals P) (hx : Unused x args)
    (he : ∀ locals, P locals → ∃ old n, locals x = some old ∧ e.eval slots locals = .ok n ∧
      Q (Function.update locals x (some (Int.lor old n)))) :
    Runs slots (codeOf ++ [.orAssign x e]) args vals Q := by
  intro locals
  obtain ⟨locals', hrun, hargs, hP⟩ := h locals
  obtain ⟨old, n, hold, heval, hQ⟩ := he locals' hP
  refine ⟨Function.update locals' x (some (Int.lor old n)), ?_, ?_, hQ⟩
  · rw [runStmts_append, hrun]
    change runStmts slots locals' [_] = _
    have hread : readVar locals' x = .ok old := by rw [readVar, hold]
    rw [runStmts_singleton, Stmt.run, hread, heval]
    rfl
  · rw [mapM_eval_update hx, hargs]

/-- One more element at the end. -/
theorem mapM_concat_ok {α β ε : Type} {f : α → Except ε β} {l : List α} {a : α} {bs : List β} {b : β}
    (hl : l.mapM f = .ok bs) (ha : f a = .ok b) : (l ++ [a]).mapM f = .ok (bs ++ [b]) := by
  rw [List.mapM_append, hl, List.mapM_cons, ha, List.mapM_nil]
  rfl

/-- One more argument. -/
theorem Runs.arg {a : Arg} {n : Int} (h : Runs slots codeOf args vals P)
    (ha : ∀ locals, P locals → a.eval slots locals = .ok (some n)) :
    Runs slots codeOf (args ++ [a]) (vals ++ [n]) P := by
  intro locals
  obtain ⟨locals', hrun, hargs, hP⟩ := h locals
  refine ⟨locals', hrun, ?_, hP⟩
  rw [List.map_append]
  exact mapM_concat_ok hargs (ha locals' hP)

/-- Less is said of the variables. -/
theorem Runs.imp (h : Runs slots codeOf args vals P) (hPQ : ∀ locals, P locals → Q locals) :
    Runs slots codeOf args vals Q := by
  intro locals
  obtain ⟨locals', hrun, hargs, hP⟩ := h locals
  exact ⟨locals', hrun, hargs, hPQ locals' hP⟩

omit [PythonFloat F] in
/-- A variable that is set is read. -/
theorem eval_var {locals : Locals} {x : Var} {n : Int} (h : locals x = some n) :
    (Arg.var x).eval slots locals = .ok (some n) := by
  rw [Arg.eval, readVar, h]
  rfl

/-! ## 3. The generator -/

/-- The variables of the arguments are older than the next one. -/
def Older (g : EncodeGen) : Prop := ∀ x, .var x ∈ g.valEncode → ∃ m, x = .v m ∧ m < g.numvi

/-- The lines so far leave the arguments these numbers. -/
structure Ready (slots : Slots F) (vals : List Int) (g : EncodeGen) : Prop where
  runs : Runs slots g.code g.valEncode vals (fun _ => True)
  older : Older g

/-- The next variable is no argument. -/
theorem Older.unused_vi {g : EncodeGen} (h : Older g) : Unused g.vi g.valEncode := by
  intro hmem
  obtain ⟨m, heq, hm⟩ := h _ hmem
  have hvi : g.numvi = m := Var.v.inj heq
  omega

/-- `word` is never one. -/
theorem Older.unused_word {g : EncodeGen} (h : Older g) : Unused .word g.valEncode := by
  intro hmem
  obtain ⟨m, heq, -⟩ := h _ hmem
  cases heq

/-- The next variable becomes an argument, and is older from then on. -/
theorem Older.newVar {g : EncodeGen} (h : Older g) : Older g.newVar := by
  intro x hmem
  rcases List.mem_append.mp hmem with hmem | hmem
  · obtain ⟨m, rfl, hm⟩ := h x hmem
    exact ⟨m, rfl, Nat.lt_succ_of_lt hm⟩
  · exact ⟨g.numvi, Arg.var.inj (List.mem_singleton.mp hmem), Nat.lt_succ_self _⟩

/-- No line and no argument. -/
theorem ready_start (slots : Slots F) : Ready slots [] ⟨0, [], none, []⟩ :=
  ⟨fun locals => ⟨locals, rfl, rfl, trivial⟩, fun _ hmem => absurd hmem List.not_mem_nil⟩

/-- A new variable with its line. -/
theorem Ready.newVar {g g' : EncodeGen} (h : Ready slots vals g) {e : Expr} {n : Int}
    (he : ∀ locals, e.eval slots locals = .ok n) (hnumvi : g'.numvi = g.newVar.numvi)
    (hargs : g'.valEncode = g.newVar.valEncode) (hcode : g'.code = g.code ++ [.assign (.var g.vi) e]) :
    Ready slots (vals ++ [n]) g' := by
  have hruns : Runs slots (g.code ++ [.assign (.var g.vi) e]) g.valEncode vals
      (fun locals => locals g.vi = some n) :=
    h.runs.assign h.older.unused_vi (fun locals _ => ⟨n, he locals, Function.update_self _ _ _⟩)
  refine ⟨?_, ?_⟩
  · rw [hcode, hargs]
    exact (hruns.arg (fun locals hn => eval_var hn)).imp (fun _ _ => trivial)
  · have holder := h.older.newVar
    unfold Older at holder ⊢
    rwa [hargs, hnumvi]

/-- An integer goes into the call as it is. -/
theorem Ready.attr {g : EncodeGen} (h : Ready slots vals g) {keyword : String} {n : Int}
    (hn : slots keyword = some (.int n)) :
    Ready slots (vals ++ [n]) { g with valEncode := g.valEncode ++ [.attr keyword] } := by
  refine ⟨h.runs.arg (fun locals _ => ?_), ?_⟩
  · rw [Arg.eval, read_eq_ok.mpr hn]
    rfl
  · intro x hmem
    rcases List.mem_append.mp hmem with hmem | hmem
    · exact h.older x hmem
    · cases List.mem_singleton.mp hmem

/-- A number of three bytes is cut in two. -/
theorem Ready.cut {g g' : EncodeGen} (h : Ready slots vals g) {e : Expr} {n : Int}
    (he : ∀ locals, e.eval slots locals = .ok n) (hnumvi : g'.numvi = g.numvi + 2)
    (hargs : g'.valEncode = g.valEncode ++ [.var g.vi] ++ [.var (.v (g.numvi + 1))])
    (hcode : g'.code = g.code ++ [.assign (.var .word) e] ++ [.assign (.var g.vi) (.low16 .word)]
      ++ [.assign (.var (.v (g.numvi + 1))) (.high8 .word)]) :
    Ready slots (vals ++ [n % 2 ^ 16, n / 2 ^ 16 % 2 ^ 8]) g' := by
  have hword : Runs slots (g.code ++ [.assign (.var .word) e]) g.valEncode vals
      (fun locals => locals .word = some n) :=
    h.runs.assign h.older.unused_word (fun locals _ => ⟨n, he locals, Function.update_self _ _ _⟩)
  have hread : ∀ locals : Locals, locals .word = some n → readVar locals .word = .ok n := by
    intro locals hn
    rw [readVar, hn]
  have hlow : Runs slots (g.code ++ [.assign (.var .word) e] ++ [.assign (.var g.vi) (.low16 .word)])
      g.valEncode vals (fun locals => locals .word = some n ∧ locals g.vi = some (n % 2 ^ 16)) := by
    refine hword.assign h.older.unused_vi (fun locals hn => ⟨n % 2 ^ 16, ?_, ?_, Function.update_self _ _ _⟩)
    · rw [Expr.eval, hread locals hn]
      rfl
    · exact (Function.update_of_ne (fun heq => by cases heq) _ _).trans hn
  have hfirst := hlow.arg (a := .var g.vi) (fun locals hn => eval_var hn.2)
  have hne : Unused (.v (g.numvi + 1)) (g.valEncode ++ [.var g.vi]) := by
    intro hmem
    obtain ⟨m, heq, hm⟩ := h.older.newVar _ hmem
    cases heq
    exact absurd hm (Nat.lt_irrefl _)
  have hhigh := hfirst.assign (x := .v (g.numvi + 1)) (e := .high8 .word)
    (Q := fun locals => locals (.v (g.numvi + 1)) = some (n / 2 ^ 16 % 2 ^ 8)) hne (fun locals hn => by
      refine ⟨n / 2 ^ 16 % 2 ^ 8, ?_, Function.update_self _ _ _⟩
      rw [Expr.eval, hread locals hn.1]
      rfl)
  have hsecond := hhigh.arg (a := .var (.v (g.numvi + 1))) (fun locals hn => eval_var hn)
  refine ⟨?_, ?_⟩
  · rw [hcode, hargs]
    rw [List.append_assoc vals, List.singleton_append] at hsecond
    exact hsecond.imp (fun _ _ => trivial)
  · intro x hmem
    rw [hargs] at hmem
    rw [hnumvi]
    rcases List.mem_append.mp hmem with hmem | hmem
    · obtain ⟨m, rfl, hm⟩ := h.older.newVar x hmem
      exact ⟨m, rfl, Nat.lt_succ_of_lt hm⟩
    · exact ⟨g.numvi + 1, Arg.var.inj (List.mem_singleton.mp hmem), Nat.lt_succ_self _⟩

/-! ## 4. Items -/

/-- Three bytes are on two slots. -/
theorem length_decodeUintStr {n : Nat} {format : List Slot} (h : decodeUintStr n = .ok format) :
    format.length = 2 ↔ n = 3 := by
  unfold decodeUintStr at h
  split at h <;> cases h <;> simp [*]

/-- Only three bytes are on two slots. -/
theorem length_decodeString {f : NamedField} (h : f.Whole) (hnumber : f.isNumber = true)
    {format : List Slot} (hformat : f.definition.decodeString = .ok format) :
    format.length = 2 ↔ f.definition.byteLength = 3 := by
  rw [decodeString_whole h hnumber] at hformat
  split at hformat
  · unfold decodeIntStr at hformat
    split at hformat <;> cases hformat <;> simp [*]
  · exact length_decodeUintStr hformat

/-- A number without a key is all bits set. -/
theorem ready_reserved {g g' : EncodeGen} (h : Ready slots vals g) {f : FieldDef} {i : Nat}
    (hattr : g.attr (.reserved f i) = .ok g') : Ready slots (vals ++ [(f.invalidValue : Int)]) g' := by
  cases hattr
  exact h.newVar (fun _ => rfl) rfl rfl rfl

/-- What the line of a number evaluates: a fraction is converted, an integer is in its
slot. -/
theorem sentNumber_some {f : FieldDef} {keyword : String} (hkeyword : f.keyword = some keyword) {n : Int}
    (h : sentNumber slots f = some n) :
    (f.pythonType = .ok .float → ∀ locals,
      (Expr.convertToInt keyword f.invalidValue f.scale (f.offset.getD 0)).eval slots locals = .ok n) ∧
    (f.pythonType ≠ .ok .float → slots keyword = some (.int n)) := by
  unfold sentNumber at h
  rw [hkeyword] at h
  obtain ⟨v, hv, h⟩ := Option.bind_eq_some_iff.mp h
  refine ⟨fun hfloat locals => ?_, fun hfloat => ?_⟩
  · rw [if_pos hfloat] at h
    rw [Expr.eval, read_eq_ok.mpr hv]
    change convertToInt v f.invalidValue f.scale (f.offset.getD 0) = .ok n
    cases hconvert : convertToInt v f.invalidValue f.scale (f.offset.getD 0) with
    | error e =>
      rw [hconvert] at h
      cases h
    | ok m =>
      rw [hconvert] at h
      exact congrArg _ (Option.some.inj h)
  · rw [if_neg hfloat] at h
    cases v with
    | int m =>
      cases h
      exact hv
    | float | str => cases h

/-- **The argument of a number**, or the two of it. -/
theorem ready_scalar {g g' : EncodeGen} (h : Ready slots vals g) {f : FieldDef} {keyword : String}
    {i : Nat} {n : Int} {format : List Slot} (hkeyword : f.keyword = some keyword)
    (hn : sentNumber slots f = some n) (hformat : f.decodeString = .ok format)
    (htwo : format.length = 2 → f.fieldClass = .udblField)
    (hattr : g.attr (.scalar f keyword i) = .ok g') :
    Ready slots (vals ++ if format.length = 2 then [n % 2 ^ 16, n / 2 ^ 16 % 2 ^ 8] else [n]) g' := by
  obtain ⟨hfloat, hint⟩ := sentNumber_some hkeyword hn
  obtain ⟨_, heq, hattr⟩ := bind_eq_ok.mp hattr
  cases hformat.symm.trans heq
  obtain ⟨type, htype, hattr⟩ := bind_eq_ok.mp hattr
  by_cases hslots : format.length = 2
  · have htypeFloat : type = .float := by
      rw [FieldDef.pythonType, htwo hslots] at htype
      exact (Except.ok.inj htype).symm
    rw [if_pos hslots]
    simp only [htypeFloat, if_true, hslots] at hattr
    cases hattr
    exact h.cut (hfloat (by rw [htype, htypeFloat])) rfl rfl rfl
  · rw [if_neg hslots]
    simp only [hslots, if_false] at hattr
    by_cases htypeFloat : type = .float
    · rw [if_pos htypeFloat] at hattr
      cases hattr
      exact h.newVar (hfloat (by rw [htype, htypeFloat])) rfl rfl rfl
    · rw [if_neg htypeFloat] at hattr
      cases hattr
      exact h.attr (hint (fun heq => htypeFloat (Except.ok.inj (htype.symm.trans heq))))

/-! ## 5. Bit fields -/

/-- The last argument is `v`m, behind `args`, and the sub fields so far are in `x`,
which is that variable or `word`. -/
structure Gathering (slots : Slots F) (vals : List Int) (word : Nat) (x : Var) (m : Nat) (args : List Arg)
    (g : EncodeGen) : Prop where
  valEncode : g.valEncode = args ++ [.var (.v m)]
  valVar : g.valVar = some x
  lt : m < g.numvi
  older : ∀ y, .var y ∈ args → ∃ j, y = .v j ∧ j < m
  target : x = .v m ∨ x = .word
  runs : Runs slots g.code args vals (fun locals => locals x = some (word : Int))

section Gathering

variable {word m : Nat} {x : Var} {g g' : EncodeGen}

/-- The argument of the group is behind the others. -/
theorem Gathering.unused_var (h : Gathering slots vals word x m args g) : Unused (.v m) args := by
  intro hmem
  obtain ⟨j, heq, hj⟩ := h.older _ hmem
  have hvar : m = j := Var.v.inj heq
  omega

/-- So is the variable that gathers, or it is `word`. -/
theorem Gathering.unused (h : Gathering slots vals word x m args g) : Unused x args := by
  rcases h.target with rfl | rfl
  · exact h.unused_var
  · intro hmem
    obtain ⟨j, heq, -⟩ := h.older _ hmem
    cases heq

/-- All of them are older than the next one. -/
theorem Gathering.older_args (h : Gathering slots vals word x m args g) : Older g := by
  intro y hmem
  rw [h.valEncode] at hmem
  rcases List.mem_append.mp hmem with hmem | hmem
  · obtain ⟨j, rfl, hj⟩ := h.older y hmem
    exact ⟨j, rfl, Nat.lt_trans hj h.lt⟩
  · exact ⟨m, Arg.var.inj (List.mem_singleton.mp hmem), h.lt⟩

/-- A bit field on one slot is complete. -/
theorem Gathering.ready (h : Gathering slots vals word (.v m) m args g) :
    Ready slots (vals ++ [(word : Int)]) g := by
  refine ⟨?_, h.older_args⟩
  rw [h.valEncode]
  exact (h.runs.arg (fun locals hx => eval_var hx)).imp (fun _ _ => trivial)

/-- There are as many arguments as numbers. -/
theorem Runs.length (h : Runs slots codeOf args vals P) : args.length = vals.length := by
  obtain ⟨locals, -, hargs, -⟩ := h (fun _ => none)
  have hlength : ∀ (l : List Arg) (result : List (Option Int)),
      l.mapM (Arg.eval slots locals) = .ok result → l.length = result.length := by
    intro l
    induction l with
    | nil =>
      intro result hl
      cases hl
      rfl
    | cons a l ih =>
      intro result hl
      obtain ⟨b, rest, -, hrest, rfl⟩ := mapM_cons_eq_ok hl
      rw [List.length_cons, List.length_cons, ih rest hrest]
  rw [hlength _ _ hargs, List.length_map]

/-- A word is cut: the low half goes to the argument that waits for it, and the
argument behind it is 0. -/
theorem Gathering.cut (h : Gathering slots vals word .word m args g) (hnumvi : g'.numvi = g.numvi + 1)
    (hargs : g'.valEncode = g.valEncode ++ [.var g.vi])
    (hcode : g'.code = g.code ++ [.assign (.var (.v m)) (.low16 .word)]
      ++ [.assign (.var g.vi) (.low8Shifted .word)]) :
    Ready slots (vals ++ [((word % 2 ^ 16 : Nat) : Int), 0]) g' := by
  have hread : ∀ locals : Locals, locals .word = some (word : Int) → readVar locals .word = .ok (word : Int) := by
    intro locals hn
    rw [readVar, hn]
  have hlow : Runs slots (g.code ++ [.assign (.var (.v m)) (.low16 .word)]) args vals
      (fun locals => locals .word = some (word : Int) ∧ locals (.v m) = some ((word % 2 ^ 16 : Nat) : Int)) := by
    refine h.runs.assign h.unused_var (fun locals hn => ⟨((word % 2 ^ 16 : Nat) : Int), ?_, ?_, ?_⟩)
    · rw [Expr.eval, hread locals hn]
      push_cast
      rfl
    · exact (Function.update_of_ne (fun heq => by cases heq) _ _).trans hn
    · exact Function.update_self _ _ _
  have hfirst := hlow.arg (a := .var (.v m)) (fun locals hn => eval_var hn.2)
  rw [← h.valEncode] at hfirst
  have hhigh := hfirst.assign (x := g.vi) (e := .low8Shifted .word) (Q := fun locals => locals g.vi = some 0)
    h.older_args.unused_vi (fun locals hn => by
      refine ⟨0, ?_, Function.update_self _ _ _⟩
      rw [Expr.eval, hread locals hn.1]
      have hzero : (word : Int) % 2 ^ 8 / 2 ^ 16 = 0 := by omega
      exact congrArg Except.ok hzero)
  have hsecond := hhigh.arg (a := .var g.vi) (fun locals hn => eval_var hn)
  refine ⟨?_, ?_⟩
  · rw [hcode, hargs]
    rw [List.append_assoc vals, List.singleton_append] at hsecond
    exact hsecond.imp (fun _ _ => trivial)
  · have holder := h.older_args.newVar
    unfold Older at holder ⊢
    rw [hargs, hnumvi]
    exact holder

end Gathering

omit [PythonFloat F] in
/-- The slot of a sub field has an integer, or there is none. -/
def HasBits (slots : Slots F) (f : FieldDef) : Prop := ∀ k, f.keyword = some k → ∃ n, slots k = some (.int n)

/-- The line of a sub field shifts its bits to their place. -/
theorem eval_subFieldExpr_ok {sub : BitFieldDef} (h : HasBits slots sub.field) (locals : Locals) :
    (subFieldExpr sub).eval slots locals = .ok (fieldBits slots sub.field * 2 ^ sub.bitOffset : Nat) := by
  have hok : ∃ n, (subFieldExpr sub).eval slots locals = .ok n := by
    unfold subFieldExpr
    cases hkeyword : sub.field.keyword with
    | none => exact ⟨_, rfl⟩
    | some keyword =>
      obtain ⟨n, hn⟩ := h keyword hkeyword
      dsimp only
      rw [Expr.eval, read_eq_ok.mpr hn]
      exact ⟨_, rfl⟩
  obtain ⟨n, hn⟩ := hok
  rw [hn, eval_subFieldExpr hn]

omit [PythonFloat F] in
/-- The bits of a sub field at their place. -/
theorem place_fieldBits (s : BitFieldGenerator.BitFieldDef) :
    (packedField s).place (fieldBits slots s.field.definition)
      = fieldBits slots s.field.definition * 2 ^ s.relOffset := by
  rw [PackedField.place, Nat.and_two_pow_sub_one_eq_mod, Nat.shiftLeft_eq]
  exact congrArg (· * 2 ^ s.relOffset) (Nat.mod_eq_of_lt (fieldBits_lt slots s.field.definition))

/-- A sub field as the generator has it. -/
def subFieldOf (s : BitFieldGenerator.BitFieldDef) : BitFieldDef := ⟨s.field.definition, s.relOffset⟩

omit [PythonFloat F] in
/-- The word with one more sub field. -/
def addSubField (slots : Slots F) (word : Nat) (s : BitFieldGenerator.BitFieldDef) : Nat :=
  PackedField.addValue packedField (fun s => some (fieldBits slots s.field.definition)) word s

omit [PythonFloat F] in
/-- A sub field is put into the word. -/
theorem addSubField_eq (word : Nat) (s : BitFieldGenerator.BitFieldDef) :
    addSubField slots word s = word ||| fieldBits slots s.field.definition * 2 ^ s.relOffset := by
  rw [← place_fieldBits]
  rfl

section SubFields

variable {word m : Nat} {x : Var} {g g' : EncodeGen} {b : BitField} {nbSlots index fieldIndex : Nat}
  {s : BitFieldGenerator.BitFieldDef}

/-- The first sub field opens a variable. -/
theorem Ready.gather (h : Ready slots vals g) (hbits : HasBits slots s.field.definition)
    (hsub : g.subField b nbSlots 0 fieldIndex (subFieldExpr (subFieldOf s)) = .ok g') :
    Gathering slots vals (addSubField slots 0 s) (if nbSlots = 2 then .word else g.vi) g.numvi g.valEncode g' := by
  rw [EncodeGen.subField, if_pos rfl] at hsub
  cases hsub
  have hunused : Unused (if nbSlots = 2 then .word else g.vi) g.valEncode := by
    split
    · exact h.older.unused_word
    · exact h.older.unused_vi
  refine ⟨rfl, rfl, Nat.lt_succ_self _, h.older, ?_, ?_⟩
  · split
    · exact .inr rfl
    · exact .inl rfl
  · refine h.runs.assign hunused (fun locals _ => ⟨_, eval_subFieldExpr_ok hbits locals, ?_⟩)
    rw [Function.update_self, addSubField_eq, Nat.zero_or]
    rfl

/-- The line of another one. -/
theorem Gathering.orLine (h : Gathering slots vals word x m args g) (hbits : HasBits slots s.field.definition) :
    Gathering slots vals (addSubField slots word s) x m args
      (g.line (.orAssign x (subFieldExpr (subFieldOf s)))) := by
  refine ⟨h.valEncode, h.valVar, h.lt, h.older, h.target, ?_⟩
  refine h.runs.orAssign h.unused (fun locals hx => ⟨_, _, hx, eval_subFieldExpr_ok hbits locals, ?_⟩)
  rw [Function.update_self, addSubField_eq]
  rfl

/-- The variable that gathers is the last one. -/
theorem Gathering.lastVar_eq (h : Gathering slots vals word x m args g) : g.lastVar = .ok x := by
  unfold EncodeGen.lastVar
  rw [h.valVar]

/-- A sub field behind the first one, where no word is cut. -/
theorem Gathering.add (h : Gathering slots vals word x m args g) (hindex : index ≠ 0)
    (huncut : ¬ (nbSlots = 2 ∧ index = b.subFields.length - 1)) (hbits : HasBits slots s.field.definition)
    (hsub : g.subField b nbSlots index fieldIndex (subFieldExpr (subFieldOf s)) = .ok g') :
    Gathering slots vals (addSubField slots word s) x m args g' := by
  rw [EncodeGen.subField, if_neg hindex, h.lastVar_eq] at hsub
  obtain ⟨_, heq, hsub⟩ := bind_eq_ok.mp hsub
  cases heq
  rw [if_neg huncut] at hsub
  cases hsub
  exact h.orLine hbits

/-- The last one of a word. -/
theorem Gathering.addLast (h : Gathering slots vals word .word m args g) (hindex : index ≠ 0)
    (hcut : nbSlots = 2 ∧ index = b.subFields.length - 1) (hfieldIndex : fieldIndex = vals.length)
    (hbits : HasBits slots s.field.definition)
    (hsub : g.subField b nbSlots index fieldIndex (subFieldExpr (subFieldOf s)) = .ok g') :
    Ready slots (vals ++ [((addSubField slots word s % 2 ^ 16 : Nat) : Int), 0]) g' := by
  rw [EncodeGen.subField, if_neg hindex, h.lastVar_eq] at hsub
  obtain ⟨_, heq, hsub⟩ := bind_eq_ok.mp hsub
  cases heq
  rw [if_pos hcut] at hsub
  have hor := h.orLine hbits
  have htarget : item (g.line (.orAssign .word (subFieldExpr (subFieldOf s)))).valEncode fieldIndex
      = .ok (.var (.v m)) := by
    rw [hor.valEncode, hfieldIndex, ← h.runs.length]
    exact item_append args _ _
  dsimp only at hsub
  rw [htarget] at hsub
  obtain ⟨_, heq, hdone⟩ := bind_eq_ok.mp hsub
  cases heq
  cases hdone
  exact hor.cut rfl rfl rfl

/-- The arguments of a bit field. -/
def wordValues (format : List Slot) (word : Nat) : List Int :=
  if format.length = 2 then [((word % 2 ^ 16 : Nat) : Int), 0] else [(word : Int)]

/-- **The arguments of a bit field**, sub field by sub field. A word is cut behind
the last one. -/
theorem Gathering.addAll {format : List Slot} (hformat : b.decodeString = .ok format)
    {l : List BitFieldGenerator.BitFieldDef} {attributes : List Attribute}
    (h : Gathering slots vals word x m args g) (hindex : index ≠ 0)
    (hx : x = if format.length = 2 then .word else .v m) (hlast : format.length = 2 → l ≠ [])
    (hcount : index + l.length = b.subFields.length) (hfieldIndex : fieldIndex = vals.length)
    (hbits : ∀ s ∈ l, HasBits slots s.field.definition)
    (hattributes : Attribute.ofSubFields b fieldIndex index (l.map subFieldOf) = .ok attributes)
    (hfold : attributes.foldlM EncodeGen.attr g = .ok g') :
    Ready slots (vals ++ wordValues format (l.foldl (addSubField slots) word)) g' := by
  induction l generalizing word index g attributes with
  | nil =>
    cases hattributes
    cases hfold
    have hone : format.length ≠ 2 := fun htwo => hlast htwo rfl
    rw [if_neg hone] at hx
    subst hx
    rw [wordValues, if_neg hone]
    exact h.ready
  | cons s l ih =>
    obtain ⟨others, hothers, rfl⟩ := ofSubFields_cons hattributes
    rw [foldlM_attr_cons, attr_subFieldAttr g hformat] at hfold
    obtain ⟨g₁, hsub, hrest⟩ := bind_eq_ok.mp hfold
    obtain ⟨hs, hl⟩ := List.forall_mem_cons.mp hbits
    rw [List.length_cons] at hcount
    by_cases hcut : format.length = 2 ∧ index = b.subFields.length - 1
    · have hnil : l = [] := List.eq_nil_of_length_eq_zero (by omega)
      subst hnil
      cases hothers
      cases hrest
      rw [if_pos hcut.1] at hx
      subst hx
      rw [wordValues, if_pos hcut.1]
      exact h.addLast hindex hcut hfieldIndex hs hsub
    · refine ih (h.add hindex hcut hs hsub) (Nat.succ_ne_zero index) ?_ (by omega) hl hothers hrest
      intro htwo hnil
      subst hnil
      exact hcut ⟨htwo, by simp at hcount; omega⟩

/-- **The arguments of a bit field**, by induction on its sub fields. -/
theorem ready_bitField {format : List Slot} (hformat : b.decodeString = .ok format)
    {l : List BitFieldGenerator.BitFieldDef} (hl : l ≠ []) (htwo : format.length = 2 → 2 ≤ l.length)
    (hcount : l.length = b.subFields.length) (h : Ready slots vals g) (hfieldIndex : fieldIndex = vals.length)
    (hbits : ∀ s ∈ l, HasBits slots s.field.definition) {attributes : List Attribute}
    (hattributes : Attribute.ofSubFields b fieldIndex 0 (l.map subFieldOf) = .ok attributes)
    (hfold : attributes.foldlM EncodeGen.attr g = .ok g') :
    Ready slots (vals ++ wordValues format (l.foldl (addSubField slots) 0)) g' := by
  cases l with
  | nil => exact absurd rfl hl
  | cons s l =>
    obtain ⟨others, hothers, rfl⟩ := ofSubFields_cons hattributes
    rw [foldlM_attr_cons, attr_subFieldAttr g hformat] at hfold
    obtain ⟨g₁, hsub, hrest⟩ := bind_eq_ok.mp hfold
    obtain ⟨hs, hrestBits⟩ := List.forall_mem_cons.mp hbits
    rw [List.length_cons] at hcount htwo
    refine (h.gather hs hsub).addAll hformat Nat.one_ne_zero rfl ?_ (by omega) hfieldIndex hrestBits hothers hrest
    intro hslots hnil
    have hlong := htwo hslots
    rw [hnil, List.length_nil] at hlong
    omega

end SubFields

/-! ## 6. Runs -/

/-- A bit field has a sub field. -/
theorem Made.ne_nil {b : BitFieldGenerator.BitField} {stretch : List NamedField} (h : b.Made stretch) :
    b.fields ≠ [] := by
  intro hnil
  have hpos := h.pos
  rw [h.bitLength, ← h.fields, hnil] at hpos
  exact absurd hpos (by decide)

/-- **The arguments of an item.** -/
theorem ready_item {i : ListItem} (hi : i.Readable) (hwritable : Writable i) (hcarries : Carries slots i)
    {format : List Slot} (hformat : itemDecodeString i.erased = .ok format) {g g' : EncodeGen}
    (h : Ready slots vals g) {fieldIndex : Nat} (hfieldIndex : fieldIndex = vals.length)
    {attributes : List Attribute} (hattributes : itemAttributes fieldIndex i.erased = .ok attributes)
    (hfold : attributes.foldlM EncodeGen.attr g = .ok g') : Ready slots (vals ++ itemValues slots i) g' := by
  cases i with
  | field f =>
    have hformat : f.definition.decodeString = .ok format := hformat
    have hnumber := isNumber_of_decodeString hi hformat
    have hslots := length_decodeString hi hnumber hformat
    rw [Carries, if_pos hnumber] at hcarries
    obtain ⟨n, hn, -⟩ := hcarries
    obtain ⟨a, ha, hdone⟩ := bind_eq_ok.mp hattributes
    cases hdone
    rw [foldlM_attr_cons] at hfold
    obtain ⟨g₁, hattr, hdone⟩ := bind_eq_ok.mp hfold
    cases hdone
    have ha := keyword_of_ofField ha
    rw [itemValues, hn, Option.getD_some]
    cases hkeyword : f.definition.keyword with
    | none =>
      rw [hkeyword] at ha
      subst ha
      have hthree : f.definition.byteLength ≠ 3 := fun heq => (hwritable hnumber heq).2 hkeyword
      rw [sentNumber, hkeyword] at hn
      cases hn
      rw [if_neg hthree]
      exact ready_reserved h hattr
    | some keyword =>
      rw [hkeyword] at ha
      subst ha
      have hready := ready_scalar h hkeyword hn hformat (fun htwo => (hwritable hnumber (hslots.mp htwo)).1) hattr
      simpa only [hslots] using hready
  | bitField b =>
    obtain ⟨hsubFields, hstring⟩ := erased_spec hi
    obtain ⟨⟨stretch, hmade, -⟩, -, -⟩ := hi
    have hformat : b.erased.decodeString = .ok format := hformat
    have hthree := length_decodeUintStr (hstring.symm.trans hformat)
    have hattributes : Attribute.ofSubFields b.erased fieldIndex 0 b.erased.subFields = .ok attributes :=
      hattributes
    rw [hsubFields] at hattributes
    have hready : Ready slots (vals ++ wordValues format (wordOf slots b)) g' :=
      ready_bitField hformat (Made.ne_nil hmade) (fun htwo => hwritable (hthree.mp htwo))
        (by rw [hsubFields, List.length_map]) h hfieldIndex hcarries hattributes hfold
    rw [itemValues]
    simpa only [wordValues, hthree] using hready

/-! ## 7. Bytes -/

/-- Two formats one behind the other. -/
theorem pack_append {format more : List Slot} {vals others : List Int} {data rest : Bytes}
    (h : pack format vals = some data) (h' : pack more others = some rest) :
    pack (format ++ more) (vals ++ others) = some (data ++ rest) := by
  induction format generalizing vals data with
  | nil =>
    cases vals with
    | nil =>
      cases h
      exact h'
    | cons v vals => cases h
  | cons s format ih =>
    cases vals with
    | nil => cases h
    | cons v vals =>
      have hfits : s.Fits v := by
        by_contra hnot
        rw [pack, if_neg hnot] at h
        cases h
      rw [pack_cons_of_fits _ _ hfits] at h
      obtain ⟨tail, htail, rfl⟩ := Option.map_eq_some_iff.mp h
      rw [List.cons_append, List.cons_append, pack_cons_of_fits _ _ hfits, ih htail, Option.map_some,
        List.append_assoc]

/-- Three bytes are two and one. -/
theorem toLE_three (n : Nat) : toLE 3 n = toLE 2 (n % 2 ^ 16) ++ toLE 1 (n / 2 ^ 16 % 2 ^ 8) := by
  have hbyte : ∀ {a b : Nat}, a % 256 = b % 256 → UInt8.ofNat a = UInt8.ofNat b := by
    intro a b h
    rw [← UInt8.toNat_inj, UInt8.toNat_ofNat', UInt8.toNat_ofNat']
    exact h
  simp only [toLE, List.cons_append, List.nil_append, List.cons.injEq, and_true]
  exact ⟨hbyte (by omega), hbyte (by omega), hbyte (by omega)⟩

/-- **A number of three bytes**, as its two slots. -/
theorem pack_three {n : Int} (h : (⟨3, false⟩ : Slot).Fits n) :
    pack [⟨2, false⟩, ⟨1, false⟩] [n % 2 ^ 16, n / 2 ^ 16 % 2 ^ 8] = some (toLE 3 (toUnsigned 3 n)) := by
  obtain ⟨m, rfl⟩ : ∃ m : Nat, n = m := Int.eq_ofNat_of_zero_le h.1
  have hlow : (⟨2, false⟩ : Slot).Fits ((m : Int) % 2 ^ 16) := ⟨by omega, by norm_num; omega⟩
  have hhigh : (⟨1, false⟩ : Slot).Fits ((m : Int) / 2 ^ 16 % 2 ^ 8) := ⟨by omega, by norm_num; omega⟩
  have hthree : toUnsigned 3 (m : Int) = m := by
    have hlt := h.2
    rw [toUnsigned, Int.emod_eq_of_lt h.1 hlt, Int.toNat_natCast]
  have htwo : toUnsigned 2 ((m : Int) % 2 ^ 16) = m % 2 ^ 16 := by
    rw [toUnsigned]
    omega
  have hone : toUnsigned 1 ((m : Int) / 2 ^ 16 % 2 ^ 8) = m / 2 ^ 16 % 2 ^ 8 := by
    rw [toUnsigned]
    omega
  rw [pack_cons_of_fits _ _ hlow, pack_singleton hhigh, Option.map_some, hthree, htwo, hone, toLE_three]

/-- Two bytes and a 0 are a number of three bytes below 2 ^ 16. -/
theorem pack_low {m : Nat} (h : m < 2 ^ 16) :
    pack [⟨2, false⟩, ⟨1, false⟩] [(m : Int), 0] = some (toLE 3 m) := by
  have hpack := pack_three (n := (m : Int)) ⟨Int.natCast_nonneg _, by norm_num; omega⟩
  have hlow : (m : Int) % 2 ^ 16 = m := by omega
  have hhigh : (m : Int) / 2 ^ 16 % 2 ^ 8 = 0 := by omega
  have hunsigned : toUnsigned 3 (m : Int) = m := by
    rw [toUnsigned]
    omega
  rw [hlow] at hpack
  rw [hhigh] at hpack
  rw [hunsigned] at hpack
  exact hpack

omit [PythonFloat F] in
/-- The number of a bit field fits its bytes. -/
theorem wordOf_lt {b : BitFieldGenerator.BitField} {stretch : List NamedField} (h : b.Made stretch)
    (hfinalized : b.Finalized) (slots : Slots F) : wordOf slots b < 256 ^ b.byteLength := by
  have hpow : 256 ^ b.byteLength = 2 ^ (8 * b.byteLength) := by rw [Nat.pow_mul]
  rw [hpow]
  refine PackedField.foldl_addValue_lt _ _ (fun s hs => ?_) (Nat.two_pow_pos _)
  have hend := h.end_le hs
  have hlength := hfinalized.byteLength
  dsimp only [packedField]
  omega

/-- Another number of bytes is one slot. -/
theorem decodeUintStr_single {n : Nat} {format : List Slot} (h : decodeUintStr n = .ok format) (hn : n ≠ 3) :
    format = [⟨n, false⟩] := by
  unfold decodeUintStr at h
  split at h <;> cases h
  case h_3 => exact absurd rfl hn
  all_goals rfl

/-- A number with a sign is on one slot, but for three bytes. -/
theorem decodeIntStr_single {n : Nat} {format : List Slot} (h : decodeIntStr n = .ok format) (hn : n ≠ 3) :
    format = [⟨n, true⟩] := by
  unfold decodeIntStr at h
  split at h <;> cases h
  case h_3 => exact absurd rfl hn
  all_goals rfl

/-- A number that is cut in two has no sign. -/
theorem signed_of_writable {f : NamedField} (hwritable : Writable (.field f)) (hnumber : f.isNumber = true)
    (hthree : f.definition.byteLength = 3) : f.definition.signed = false := by
  rw [FieldDef.signed, (hwritable hnumber hthree).1]

/-- **The arguments of an item are packed as its bytes.** -/
theorem pack_item {i : ListItem} (hi : i.Readable) (hwritable : Writable i) (hcarries : Carries slots i)
    {format : List Slot} (hformat : itemDecodeString i.erased = .ok format) :
    pack format (itemValues slots i) = some (itemBytes slots i) := by
  cases i with
  | field f =>
    have hformat : f.definition.decodeString = .ok format := hformat
    have hnumber := isNumber_of_decodeString hi hformat
    rw [Carries, if_pos hnumber] at hcarries
    obtain ⟨n, hn, hfits⟩ := hcarries
    rw [decodeString_whole hi hnumber] at hformat
    rw [itemBytes, if_pos hnumber, itemValues, hn, Option.getD_some]
    by_cases hthree : f.definition.byteLength = 3
    · have hsigned := signed_of_writable hwritable hnumber hthree
      rw [hsigned, hthree] at hfits
      rw [if_neg (by simp [hsigned]), hthree] at hformat
      cases hformat
      rw [if_pos hthree, hthree]
      exact pack_three hfits
    · rw [if_neg hthree]
      cases hsigned : f.definition.signed with
      | true =>
        rw [if_pos hsigned] at hformat
        rw [decodeIntStr_single hformat hthree]
        exact pack_singleton (hsigned ▸ hfits)
      | false =>
        rw [if_neg (by simp [hsigned])] at hformat
        rw [decodeUintStr_single hformat hthree]
        exact pack_singleton (hsigned ▸ hfits)
  | bitField b =>
    obtain ⟨-, hstring⟩ := erased_spec hi
    obtain ⟨⟨stretch, hmade, -⟩, hfinalized, -⟩ := hi
    have hformat : b.erased.decodeString = .ok format := hformat
    have hlt := wordOf_lt hmade hfinalized slots
    have hformat := hstring.symm.trans hformat
    rw [itemValues, itemBytes, sentWord]
    by_cases hthree : b.byteLength = 3
    · rw [hthree] at hformat
      cases hformat
      rw [if_pos hthree, if_pos hthree, hthree]
      exact pack_low (Nat.mod_lt _ (Nat.two_pow_pos _))
    · have hfits : (⟨b.byteLength, false⟩ : Slot).Fits (wordOf slots b : Int) :=
        ⟨Int.natCast_nonneg _, by exact_mod_cast hlt⟩
      have hword : toUnsigned b.byteLength (wordOf slots b : Int) = wordOf slots b := by
        rw [toUnsigned, Int.emod_eq_of_lt hfits.1 hfits.2, Int.toNat_natCast]
      rw [if_neg hthree, if_neg hthree, decodeUintStr_single hformat hthree, pack_singleton hfits, hword]

/-- **The bytes of a run**, by induction on its items. -/
theorem NumberRun.pack {run : List ListItem} {slotFormat : List Slot} {attributes : List Attribute}
    (h : NumberRun run slotFormat attributes) (hreadable : ∀ i ∈ run, i.Readable)
    (hwritable : ∀ i ∈ run, Writable i) (hcarries : ∀ i ∈ run, Carries slots i) :
    pack slotFormat (run.flatMap (itemValues slots)) = some (run.flatMap (itemBytes slots)) := by
  induction h with
  | nil => rfl
  | @snoc run slotFormat format attributes own i before decodeString itemAttributes ih =>
    rw [List.flatMap_append, List.flatMap_append, List.flatMap_singleton, List.flatMap_singleton]
    refine pack_append ?_ ?_
    · exact ih (fun j hj => hreadable j (List.mem_append_left _ hj))
        (fun j hj => hwritable j (List.mem_append_left _ hj))
        (fun j hj => hcarries j (List.mem_append_left _ hj))
    · exact pack_item (hreadable i (by simp)) (hwritable i (by simp)) (hcarries i (by simp)) decodeString

/-- Only as many numbers as slots are packed. -/
theorem length_of_pack {format : List Slot} {vals : List Int} {data : Bytes}
    (h : Lib.pack format vals = some data) : format.length = vals.length := by
  have hfits : FitAll format vals := pack_isSome_iff.mp (by rw [h]; rfl)
  exact List.Forall₂.length_eq hfits

/-- **The arguments of a run**, by induction on its items. -/
theorem NumberRun.ready {run : List ListItem} {slotFormat : List Slot} {attributes : List Attribute}
    (h : NumberRun run slotFormat attributes) (hreadable : ∀ i ∈ run, i.Readable)
    (hwritable : ∀ i ∈ run, Writable i) (hcarries : ∀ i ∈ run, Carries slots i) {g : EncodeGen}
    (hfold : attributes.foldlM EncodeGen.attr ⟨0, [], none, []⟩ = .ok g) :
    Ready slots (run.flatMap (itemValues slots)) g := by
  induction h generalizing g with
  | nil =>
    cases hfold
    exact ready_start slots
  | @snoc run slotFormat format attributes own i before decodeString itemAttributes ih =>
    rw [List.foldlM_append] at hfold
    obtain ⟨g₁, hfirst, hlast⟩ := bind_eq_ok.mp hfold
    have hready := ih (fun j hj => hreadable j (List.mem_append_left _ hj))
      (fun j hj => hwritable j (List.mem_append_left _ hj))
      (fun j hj => hcarries j (List.mem_append_left _ hj)) hfirst
    have hpack : Lib.pack slotFormat (run.flatMap (itemValues slots)) = some (run.flatMap (itemBytes slots)) :=
      before.pack (fun j hj => hreadable j (List.mem_append_left _ hj))
        (fun j hj => hwritable j (List.mem_append_left _ hj))
        (fun j hj => hcarries j (List.mem_append_left _ hj))
    have hcount := length_of_pack hpack
    rw [List.flatMap_append, List.flatMap_singleton]
    exact ready_item (hreadable i (by simp)) (hwritable i (by simp)) (hcarries i (by simp)) decodeString
      hready hcount itemAttributes hlast

/-! ## 8. The payload -/

/-- A text fills its field. -/
theorem length_fieldBytes (length : Nat) (s : String) : (fieldBytes length s).length = length := by
  rw [fieldBytes, List.length_take, List.length_append, List.length_replicate]
  omega

/-- An item fills its bytes. -/
theorem length_itemBytes (slots : Slots F) (i : ListItem) : (itemBytes slots i).length = i.byteLength := by
  cases i with
  | bitField b => exact length_toLE _ _
  | field f =>
    rw [itemBytes]
    split
    · exact length_toLE _ _
    · exact length_fieldBytes _ _

/-- All items fill the payload. -/
theorem length_flatMap_itemBytes (slots : Slots F) (items : List ListItem) :
    (items.flatMap (itemBytes slots)).length = (items.map ListItem.byteLength).sum := by
  rw [List.length_flatMap]
  exact congrArg List.sum (List.map_congr_left fun i _ => length_itemBytes slots i)

/-- What is packed takes the place of as many bytes. -/
theorem packInto_append {format : List Slot} {vals : List Int} {data : Bytes}
    (h : Lib.pack format vals = some data) (front : Bytes) {old : Bytes} (hold : old.length = calcsize format)
    (back : Bytes) :
    packInto format (front ++ (old ++ back)) front.length vals = some (front ++ (data ++ back)) := by
  have hroom : front.length + calcsize format ≤ (front ++ (old ++ back)).length := by
    rw [List.length_append, List.length_append, hold]
    omega
  rw [packInto, if_pos hroom, h, Option.map_some, List.take_left, ← List.append_assoc front old back,
    List.drop_left' (by rw [List.length_append, hold])]

/-- No argument is None. -/
theorem mapM_id_map_some (vals : List Int) : (vals.map some).mapM id = some vals := by
  induction vals with
  | nil => rfl
  | cons v vals ih => rw [List.map_cons, List.mapM_cons, ih]; rfl

/-- The segment is as long as its items. -/
theorem Codes.length {segment : DecodeSegment} {run : List ListItem} (h : Codes segment run)
    (hreadable : ∀ i ∈ run, i.Readable) : segment.length = (run.map ListItem.byteLength).sum := by
  cases h with
  | valueSet numbers => exact numbers.calcsize_eq hreadable
  | fixLength => simp [DecodeSegment.length, ListItem.byteLength]

/-- The step of a value set. -/
theorem run_packInto {startByte : Nat} {format : List Slot} {code : List Stmt} {args : List Arg}
    {values : List (Option Int)} {buffer buffer' : Bytes} {locals locals' : Locals}
    (hrun : runStmts slots locals code = .ok (slots, locals'))
    (hargs : args.mapM (Arg.eval slots locals') = .ok values)
    (hpack : packArgs format buffer startByte values = .ok buffer') :
    (EncodeStep.packInto startByte format code args).run false ⟨buffer, 0, locals, slots⟩
      = .ok ⟨buffer', 0, locals', slots⟩ := by
  rw [EncodeStep.run, hrun]
  change (args.mapM (Arg.eval slots locals') >>= _) = _
  rw [hargs]
  change (packArgs format buffer startByte values >>= _) = _
  rw [hpack]
  rfl

/-- The step of a string. -/
theorem run_insertString {startByte length : Nat} {keyword s : String} {buffer buffer' : Bytes}
    (hs : slots keyword = some (.str s)) (hinsert : insertString buffer startByte length s = .ok buffer')
    (locals : Locals) :
    (EncodeStep.insertString startByte length keyword).run false ⟨buffer, 0, locals, slots⟩
      = .ok ⟨buffer', 0, locals, slots⟩ := by
  have hread : readString slots keyword = .ok s := by
    rw [readString, read_eq_ok.mpr hs]
    rfl
  rw [EncodeStep.run, hread]
  change (insertString buffer startByte length s >>= _) = _
  rw [hinsert]
  rfl

omit [PythonFloat F] in
/-- The text of a slot. -/
theorem sentText_eq {f : FieldDef} {keyword s : String} (hkeyword : f.keyword = some keyword)
    (hs : slots keyword = some (.str s)) : sentText slots f = some s := by
  simp only [sentText, hkeyword, hs, Option.bind_eq_bind, Option.bind_some]

/-- **What a segment writes**, at its place. -/
theorem Codes.writes {segment : DecodeSegment} {run : List ListItem} (h : Codes segment run)
    (hreadable : ∀ i ∈ run, i.Readable) (hwritable : ∀ i ∈ run, Writable i)
    (hcarries : ∀ i ∈ run, Carries slots i) {step : EncodeStep} (hgen : genEncodeSegment segment = .ok step)
    {front old : Bytes} (hfront : front.length = segment.startByte) (hold : old.length = segment.length)
    (back : Bytes) (locals : Locals) :
    ∃ locals', step.run false ⟨front ++ (old ++ back), 0, locals, slots⟩
      = .ok ⟨front ++ (run.flatMap (itemBytes slots) ++ back), 0, locals', slots⟩ := by
  cases h with
  | @valueSet startByte slotFormat attributes _ numbers =>
    obtain ⟨g, hfold, hdone⟩ := bind_eq_ok.mp hgen
    cases hdone
    obtain ⟨locals', hrun, hargs, -⟩ := (numbers.ready hreadable hwritable hcarries hfold).runs locals
    have hpack := packInto_append (numbers.pack hreadable hwritable hcarries) front hold back
    refine ⟨locals', run_packInto hrun hargs ?_⟩
    have hstart : startByte = front.length := hfront.symm
    unfold packArgs
    rw [mapM_id_map_some, hstart]
    dsimp only
    rw [hpack]
  | @fixLength startByte f hclass =>
    have hnumber : f.isNumber = false := by rw [NamedField.isNumber, hclass]
    have hcarries := hcarries (.field f) (List.mem_singleton_self _)
    rw [Carries, if_neg (by simp [hnumber])] at hcarries
    unfold genEncodeSegment at hgen
    dsimp only at hgen
    cases hkeyword : f.definition.keyword with
    | none =>
      rw [hkeyword] at hgen
      cases hgen
    | some keyword =>
      rw [hkeyword] at hgen
      cases hgen
      obtain ⟨s, hs, hfits⟩ := hcarries keyword hkeyword
      have hlength : old.length = f.definition.byteLength := hold
      have hroom : startByte + f.definition.byteLength ≤ (front ++ (old ++ back)).length := by
        have hstart : front.length = startByte := hfront
        rw [List.length_append, List.length_append]
        omega
      have hinside : StaysInside (front ++ (old ++ back)) startByte f.definition.byteLength s := by
        rw [staysInside_iff hroom, List.drop_eq_nil_of_le hfits]
        exact List.nil_prefix
      have hstart : startByte = front.length := hfront.symm
      have hinsert : insertString (front ++ (old ++ back)) startByte f.definition.byteLength s
          = .ok (front ++ (fieldBytes f.definition.byteLength s ++ back)) := by
        rw [hinside, hstart, List.take_left, ← hlength, ← List.append_assoc front old back,
          List.drop_left' List.length_append]
      refine ⟨locals, ?_⟩
      rw [List.flatMap_singleton, itemBytes, if_neg (by simp [hnumber]), sentText_eq hkeyword hs]
      exact run_insertString hs hinsert locals

/-- **What the segments write**, one behind the other. -/
theorem writes_runEncode {segments : List DecodeSegment} {runs : List (List ListItem)}
    (h : List.Forall₂ Codes segments runs) (hreadable : ∀ i ∈ runs.flatten, i.Readable)
    (hwritable : ∀ i ∈ runs.flatten, Writable i) (hcarries : ∀ i ∈ runs.flatten, Carries slots i)
    {steps : List EncodeStep} (hgen : segments.mapM genEncodeSegment = .ok steps) {front : Bytes}
    (hstarts : ∀ before segment after, segments = before ++ segment :: after →
      segment.startByte = front.length + staticSize before) (locals : Locals) :
    ∃ locals', runEncode false ⟨front ++ List.replicate (staticSize segments) 0, 0, locals, slots⟩ steps
      = .ok ⟨front ++ runs.flatten.flatMap (itemBytes slots), 0, locals', slots⟩ := by
  induction h generalizing steps front locals with
  | nil =>
    cases hgen
    exact ⟨locals, rfl⟩
  | @cons segment run segments runs hcodes hrest ih =>
    obtain ⟨step, rest, hstep, hrest, rfl⟩ := mapM_cons_eq_ok hgen
    rw [List.flatten_cons] at hreadable hwritable hcarries ⊢
    have hrun : ∀ i ∈ run, i.Readable := fun i hi => hreadable i (List.mem_append_left _ hi)
    have hlength := hcodes.length hrun
    have hsize : staticSize (segment :: segments) = segment.length + staticSize segments := by
      simp [staticSize]
    have hfront : front.length = segment.startByte := by
      rw [hstarts [] segment segments rfl]
      rfl
    obtain ⟨locals₁, hfirst⟩ := hcodes.writes hrun (fun i hi => hwritable i (List.mem_append_left _ hi))
      (fun i hi => hcarries i (List.mem_append_left _ hi)) hstep hfront
      (List.length_replicate (a := (0 : UInt8))) (List.replicate (staticSize segments) 0) locals
    have hstarts' : ∀ before segment' after, segments = before ++ segment' :: after →
        segment'.startByte = (front ++ run.flatMap (itemBytes slots)).length + staticSize before := by
      intro before segment' after heq
      rw [hstarts (segment :: before) segment' after (by rw [heq, List.cons_append]), List.length_append,
        length_flatMap_itemBytes, ← hlength]
      simp [staticSize, Nat.add_assoc]
    obtain ⟨locals', hlast⟩ := ih (fun i hi => hreadable i (List.mem_append_right _ hi))
      (fun i hi => hwritable i (List.mem_append_right _ hi))
      (fun i hi => hcarries i (List.mem_append_right _ hi)) hrest hstarts' locals₁
    refine ⟨locals', ?_⟩
    rw [hsize, List.replicate_add, runEncode, hfirst, List.flatMap_append, ← List.append_assoc,
      ← List.append_assoc]
    exact hlast

/-- The size that the class gives its buffer. -/
theorem genClass_staticSize {d : NMEA2000Meta} {c : GeneratedClass} (h : genClass d = .ok c) :
    c.codec.staticSize = staticSize d.fields.segments := by
  have hcodec : ∃ count variableSize readOnly,
      genCodec d.fields.segments count variableSize readOnly = .ok c.codec := by
    unfold genClass at h
    dsimp only at h
    split at h
    · obtain ⟨_, -, h⟩ := bind_eq_ok.mp h
      obtain ⟨codec, hcodec, hdone⟩ := bind_eq_ok.mp h
      cases hdone
      exact ⟨_, _, _, hcodec⟩
    · obtain ⟨inner, -, h⟩ := bind_eq_ok.mp h
      obtain ⟨_, -, h⟩ := bind_eq_ok.mp h
      obtain ⟨codec, hcodec, hdone⟩ := bind_eq_ok.mp h
      cases hdone
      exact ⟨_, _, _, hcodec⟩
  obtain ⟨count, variableSize, readOnly, hcodec⟩ := hcodec
  unfold genCodec at hcodec
  dsimp only at hcodec
  split at hcodec
  · cases hcodec
  · obtain ⟨decode, -, hcodec⟩ := bind_eq_ok.mp hcodec
    split at hcodec
    · exact congrArg Codec.staticSize (Except.ok.inj hcodec).symm
    · obtain ⟨encode, -, hdone⟩ := bind_eq_ok.mp hcodec
      exact congrArg Codec.staticSize (Except.ok.inj hdone).symm

/-- **The payload of a class of fixed length** is the bytes of its items, one
behind the other, wherever the slots have what the items take. -/
theorem encodePayload_eq {items : List ListItem} (hreadable : ∀ i ∈ items, i.Readable)
    (hwritable : ∀ i ∈ items, Writable i) {d : NMEA2000Meta} {c : GeneratedClass}
    (hmeta : FieldSetMeta.init (items.map ListItem.erased) none = .ok d.fields) (hclass : genClass d = .ok c)
    (hreadOnly : d.readOnly = false) {o : Obj F} (hcarries : ∀ i ∈ items, Carries o.slots i) :
    c.encodePayload o = .ok (items.flatMap (itemBytes o.slots)) := by
  obtain ⟨segments, hsegments, hdone⟩ := bind_eq_ok.mp hmeta
  have hcontiguous := (tiles_analyzeAttributes hsegments).contiguous
  obtain ⟨runs, rfl, hcodes⟩ := codes_analyzeAttributes hreadable hsegments
  have hfields : d.fields = ⟨segments, none⟩ := (Except.ok.inj hdone).symm
  obtain ⟨-, -, hread, hvariable, hrepeated, hencode⟩ := genClass_eq_ok hclass
  have hencode := hencode hreadOnly
  rw [hfields] at hvariable hrepeated hencode
  have hnone : c.repeated = none := by
    cases hrep : c.repeated with
    | none => rfl
    | some r =>
      rw [hrep] at hrepeated
      cases hrepeated
  have hfixed : c.codec.variableSize = false := by
    rw [hvariable, FieldSetMeta.variableSize, Option.isSome_none, Bool.or_false]
    refine List.any_eq_false.mpr fun segment hmem => ?_
    obtain ⟨run, -, hrun⟩ := BitFieldGenerator.exists_of_forall₂ hcodes.flip hmem
    cases hrun <;> simp [DecodeSegment.isVariable]
  have hstatic : c.codec.staticSize = staticSize segments := by rw [genClass_staticSize hclass, hfields]
  have hstarts : ∀ before segment after, segments = before ++ segment :: after →
      segment.startByte = ([] : Bytes).length + staticSize before := by
    intro before segment after heq
    rw [hcontiguous before segment after heq, List.length_nil, Nat.zero_add]
  obtain ⟨locals', hrun⟩ := writes_runEncode hcodes hreadable hwritable hcarries hencode hstarts (fun _ => none)
  unfold GeneratedClass.encodePayload
  rw [hread, hreadOnly, hfixed, hstatic, hnone]
  rw [List.nil_append, List.nil_append] at hrun
  change (runEncode false ⟨List.replicate (staticSize segments) 0, 0, fun _ => none, o.slots⟩ c.codec.encode
    >>= _) = _
  rw [hrun]
  rfl

end NavigationServer.CodeGeneration
