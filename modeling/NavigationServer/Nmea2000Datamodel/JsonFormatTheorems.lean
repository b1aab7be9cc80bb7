/-
NavigationServer.Nmea2000Datamodel.JsonFormatTheorems — what is written is JSON.

`document` is the object that a message stands for: the header, and in `fields`
an entry for each exported field, with the list behind its counter. A formatter
writes the text of its entries under a condition on the message, its `Sound`, and
not otherwise (`Outputs`); the conditions of the pieces add up to the one of the
message. The texts are written as they are, so that a quote, a backslash or a
control character is not escaped; infinity and a unit without a precision have no
number; and the commas behind the items follow the counter.

The proof goes up with the text. Each piece has a lemma of the form `Outputs`, which says
what it writes and when, and the lemmas are put together as the code puts the pieces
together, so that no step looks at characters again. A JSON reader is a library of its own
(`Lib.Json`); how it orders or merges members is left out.
-/
import Mathlib.Data.Bool.AllAny
import NavigationServer.Nmea2000Datamodel.JsonFormat

namespace NavigationServer.Nmea2000Datamodel

open NavigationServer.Lib
open NavigationServer.Lib.Json
open FormattingOptions

/-! ## 1. Numbers -/

/-- A number is written with digits, -/
theorem isDigits_toDigits (n : Nat) : IsDigits (Nat.toDigits 10 n) :=
  ⟨Nat.toDigits_ne_nil, fun _ hc => Nat.isDigit_of_mem_toDigits (by decide) (Nat.le_refl 10) hc⟩

/-- and with no zero in front, -/
theorem head_toDigits {n : Nat} (h : (Nat.toDigits 10 n).head? = some '0') : n = 0 := by
  induction n using Nat.strongRecOn with
  | ind n ih =>
    rcases Nat.lt_or_ge n 10 with hlt | hge
    · rw [Nat.toDigits_of_lt_base hlt] at h
      have hdigit := Option.some.inj h
      clear ih h
      decide +revert
    · rw [Nat.toDigits_of_base_le (by decide) hge,
        List.head?_append_of_ne_nil _ Nat.toDigits_ne_nil] at h
      have := ih (n / 10) (Nat.div_lt_self (by omega) (by decide)) h
      omega

/-- so it is a whole number of JSON. -/
theorem isWhole_toDigits (n : Nat) : IsWhole (Nat.toDigits 10 n) := by
  refine ⟨isDigits_toDigits n, fun h => ?_⟩
  rw [head_toDigits h]
  rfl

/-- The decimals are digits, with zeros in front or not. -/
theorem isDigits_padded (width n : Nat) : IsDigits (padded width n) := by
  obtain ⟨hne, hdigits⟩ := isDigits_toDigits n
  unfold padded List.leftpad
  refine ⟨fun hnil => hne (List.append_eq_nil_iff.mp hnil).2, fun c hc => ?_⟩
  rcases List.mem_append.mp hc with hc | hc
  · rw [List.eq_of_mem_replicate hc]
    rfl
  · exact hdigits c hc

/-- An integer is a number of JSON. -/
theorem isNumber_str (n : Int) : IsNumber (str n) := by
  refine ⟨if n < 0 then ['-'] else [], Nat.toDigits 10 n.natAbs, [], [], ?_, ?_,
    isWhole_toDigits _, .inl rfl, .inl rfl⟩
  · rw [List.append_nil, List.append_nil]
    rfl
  · split
    · exact .inr rfl
    · exact .inl rfl

/-- A number with decimals, or without any. -/
theorem isNumber_fixed (places : Nat) (negative : Bool) (size : NNRat) :
    IsNumber ((PyFloat.finite negative size).fixed places) := by
  unfold PyFloat.fixed
  dsimp only
  generalize (roundHalfEven (size * 10 ^ places)).toNat = n
  refine ⟨PyFloat.sign negative, Nat.toDigits 10 (n / 10 ^ places),
    if places = 0 then [] else '.' :: padded places (n % 10 ^ places), [], ?_, ?_,
    isWhole_toDigits _, ?_, .inl rfl⟩
  · rw [List.append_nil]
  · cases negative
    · exact .inl rfl
    · exact .inr rfl
  · split
    · exact .inl rfl
    · exact .inr ⟨_, rfl, isDigits_padded _ _⟩

namespace FormatStr

/-- The unit has a precision. -/
def HasPrecision : FormatStr → Prop
  | precision _ => True
  | none => False

end FormatStr

/-- **A format writes a number for a number.** Infinity is written as `inf`, and
`None` is written where there is no precision. -/
theorem writes_format (formatStr : FormatStr) (value : PyFloat) :
    Writes (formatStr.format value) (.number (formatStr.format value))
      (formatStr.HasPrecision ∧ value.isfinite = true) := by
  have hword : ∀ (text : List Char) (x : Char), x ∈ text → ¬ IsNumberChar x →
      (∀ c ∈ text, ¬ IsBlank c) → Writes text (.number text) False := by
    intro text x hx hchar hblank
    have hwrites := writes_number (List.ne_nil_of_mem hx) hblank
    refine ⟨fun s r => (hwrites.reads s r).trans (and_congr_left' ?_), hwrites.head⟩
    exact iff_of_false (fun hnumber => hchar (hnumber.chars x hx)) id
  cases formatStr with
  | none =>
    have := hword ['N', 'o', 'n', 'e'] 'N' (by decide) (by decide)
      (List.all_iff_forall_prop.mp (by decide))
    simpa only [FormatStr.format, FormatStr.HasPrecision, false_and] using this
  | precision places =>
    cases value with
    | nan =>
      have := hword ['n', 'a', 'n'] 'n' (by decide) (by decide)
        (List.all_iff_forall_prop.mp (by decide))
      simpa only [FormatStr.format, PyFloat.fixed, PyFloat.isfinite, Bool.false_eq_true, and_false]
        using this
    | infinite negative =>
      have := hword (PyFloat.sign negative ++ ['i', 'n', 'f']) 'i'
        (by cases negative <;> decide) (by decide)
        (List.all_iff_forall_prop.mp (by cases negative <;> decide))
      simpa only [FormatStr.format, PyFloat.fixed, PyFloat.isfinite, Bool.false_eq_true, and_false]
        using this
    | finite negative size =>
      have := (isNumber_fixed places negative size).writes
      simpa only [FormatStr.format, PyFloat.isfinite, FormatStr.HasPrecision, and_true] using this

/-! ## 2. What a message stands for -/

/-- The members of objects. -/
abbrev Members := List (List Char × Json)

/-- The entries of all formatters. -/
def collect {F : Type} (entries : F → Except Exn Members) : List F → Except Exn Members
  | [] => .ok []
  | fmt :: formatters => do return (← entries fmt) ++ (← collect entries formatters)

namespace FieldFormatter

/-- The value of a field. -/
def value (env : Environment) (option : Nat) (o : Attributes) : FieldFormatter → Except Exn Json
  | generic attr _ _ => do return .number (str (← getattribute (o.int attr)))
  | float attr _ formatStr scale => do
      let value ← getattribute (o.float attr)
      return if value.isnan then .string ['n', 'a', 'n']
        else .number (formatStr.format (shown env option scale value))
  | enum attr fieldName _ enumDef globalRef =>
      if isSet option resolveEnum then do
        let enumDef ← enumDefinition env fieldName enumDef globalRef
        let value ← getattribute (o.int attr)
        return .string (← enumText enumDef value)
      else do return .number (str (← getattribute (o.int attr)))
  | text attr _ => do return .string (← getattribute (o.text attr))

/-- What a field formatter writes, as members of an object. -/
def entries (env : Environment) (option : Nat) (o : Attributes) (fmt : FieldFormatter) :
    Except Exn Members := do
  return [(fmt.fieldName, ← fmt.value env option o)]

end FieldFormatter

/-- The object of an item has an entry for each exported field of the item. -/
def Item.object (env : Environment) (option : Nat) (formatters : List FieldFormatter) (i : Item) :
    Except Exn Json := do
  let kept ← selected option (FieldFormatter.checkValid i.attributes) formatters
  return .object (← collect (FieldFormatter.entries env option i.attributes) kept)

/-- The objects of the items. -/
def itemObjects (env : Environment) (option : Nat) (formatters : List FieldFormatter) :
    List Item → Except Exn (List Json)
  | [] => .ok []
  | i :: items => do
      return (← i.object env option formatters) :: (← itemObjects env option formatters items)

namespace Formatter

/-- The list behind a counter, with an element for each item. -/
def list (env : Environment) (option : Nat) (msg : DecodedMsg) (listAttr : String) :
    Except Exn Members := do
  let items ← getattribute (msg.lists listAttr)
  let first ← item items 0
  let formatters ← first.jsonFormat.formatters
  if formatters.length = 0 then .error .assertionError
  else do return [(['l', 'i', 's', 't'], .array (← itemObjects env option formatters items))]

/-- A counter above 0 has its list behind it. -/
def listBehind (env : Environment) (option : Nat) (msg : DecodedMsg) (listAttr : String) (nbItems : Int) :
    Except Exn Members :=
  if 0 < nbItems then list env option msg listAttr else .ok []

/-- The entry of a field, with the list behind a counter. -/
def entries (env : Environment) (option : Nat) (msg : DecodedMsg) : Formatter → Except Exn Members
  | field fmt => fmt.entries env option msg.attributes
  | repeated attr fieldName listAttr => do
      let nbItems ← getattribute (msg.attributes.int attr)
      return (fieldName, .number (str nbItems)) :: (← listBehind env option msg listAttr nbItems)

end Formatter

namespace DecodedMsg

/-- The header and the fields, of which there is an entry for each exported one. -/
def document (env : Environment) (msg : DecodedMsg) (option : Nat) : Except Exn Json := do
  let timestamp ← env.fromtimestamp msg.timestamp
  let formatters ← msg.formatters option
  let fields ← collect (Formatter.entries env option msg) formatters
  return .object [("timestamp:".toList, .string (isoformat timestamp)),
    ("prio".toList, .number (str msg.priority)), ("navigation_server".toList, .number (str msg.sa)),
    ("dst".toList, .number (str msg.da)), ("pgn".toList, .number (str msg.pgn)),
    ("description".toList, .string msg.name), ("fields".toList, .object fields)]

/-- The list of a counter that is exported has an element for each item. -/
def ListsItems (env : Environment) (msg : DecodedMsg) (option : Nat) (fmt : Formatter)
    (items : List Item) : Prop :=
  ∃ formatters members vs, msg.formatters option = .ok formatters ∧ fmt ∈ formatters ∧
    fmt.entries env option msg = .ok members ∧ (['l', 'i', 's', 't'], .array vs) ∈ members ∧
    vs.length = items.length

/-- **A message prints as JSON**: nothing is raised, what is written is a single
value, the object that the message stands for, and its list has an element for
each repeated item. -/
def PrintsJson (env : Environment) (msg : DecodedMsg) (option : Nat) : Prop :=
  (msg.pushJson env option).raised = none ∧
    (∃ v, msg.document env option = .ok v ∧ IsText v (msg.pushJson env option).text) ∧
    ∀ attr fieldName listAttr formatters items,
      msg.jsonFormat.formatters = .ok formatters →
        .repeated attr fieldName listAttr ∈ formatters → msg.lists listAttr = some items → items ≠ [] →
          msg.ListsItems env option (.repeated attr fieldName listAttr) items

end DecodedMsg

/-! ## 3. When it is written -/

namespace FieldFormatter

/-- The attribute is set; a number is not infinite, and its unit has a precision;
the name of a value is defined, and needs no escape; nor does a text. -/
def SoundValue (env : Environment) (option : Nat) (o : Attributes) : FieldFormatter → Prop
  | generic attr _ _ => ∃ value, o.int attr = some value
  | float attr _ formatStr scale => ∃ value, o.float attr = some value ∧
      (value.isnan = true ∨
        formatStr.HasPrecision ∧ (shown env option scale value).isfinite = true)
  | enum attr fieldName _ enumDef globalRef =>
      (isSet option resolveEnum = true → ∃ enumDef' value,
        enumDefinition env fieldName enumDef globalRef = .ok enumDef' ∧ o.int attr = some value ∧
          ∀ name, enumDef'.lookup value = some name → ∃ text, name = some text ∧ Clean text) ∧
      ∃ value, o.int attr = some value
  | text attr _ => ∃ text, o.text attr = some text ∧ Clean text

/-- The condition under which it writes them. -/
def Sound (env : Environment) (option : Nat) (o : Attributes) (fmt : FieldFormatter) : Prop :=
  Clean fmt.fieldName ∧ fmt.SoundValue env option o

end FieldFormatter

/-- What is exported of the item is sound. -/
def Item.Sound (env : Environment) (option : Nat) (formatters : List FieldFormatter) (i : Item) : Prop :=
  ∃ kept, selected option (FieldFormatter.checkValid i.attributes) formatters = .ok kept ∧
    ∀ fmt ∈ kept, fmt.Sound env option i.attributes

namespace Formatter

/-- A counter above 0 is the number of the items, the class of the items has a
tuple with a formatter, and the items are sound. -/
def Sound (env : Environment) (option : Nat) (msg : DecodedMsg) : Formatter → Prop
  | field fmt => fmt.Sound env option msg.attributes
  | repeated attr fieldName listAttr =>
      Clean fieldName ∧ ∃ nbItems, msg.attributes.int attr = some nbItems ∧
        (0 < nbItems → ∃ first rest fmt formatters,
          msg.lists listAttr = some (first :: rest) ∧ nbItems = (first :: rest).length ∧
            first.jsonFormat = .tuple (fmt :: formatters) ∧
            ∀ i ∈ first :: rest, i.Sound env option (fmt :: formatters))

end Formatter

namespace DecodedMsg

/-- The time is one of the calendar and the name needs no escape; the class has a
tuple, of which a formatter is left, and those left are sound; and a counter with
items is above 0. -/
structure Sound (env : Environment) (msg : DecodedMsg) (option : Nat) : Prop where
  time : ∃ timestamp, env.fromtimestamp msg.timestamp = .ok timestamp
  name : Clean msg.name
  fields : ∃ formatters, msg.formatters option = .ok formatters ∧ formatters ≠ [] ∧
    ∀ fmt ∈ formatters, fmt.Sound env option msg
  counted : ∀ attr fieldName listAttr formatters items,
    msg.jsonFormat.formatters = .ok formatters →
      .repeated attr fieldName listAttr ∈ formatters → msg.lists listAttr = some items → items ≠ [] →
        ∃ nbItems, msg.attributes.int attr = some nbItems ∧ 0 < nbItems

end DecodedMsg

/-! ## 4. Pieces -/

/-- A call writes a text that reads as what it stands for, under a condition and
not otherwise; or it raises, and the condition does not hold. -/
inductive Outputs {α : Type} (Rd : List Char → α → Prop → Prop) (w : Written) (x : Except Exn α)
    (P : Prop) : Prop
  | writes {text a} : w = write text → x = .ok a → Rd text a P → Outputs Rd w x P
  | raises {e} : w.raised = some e → ¬ P → Outputs Rd w x P

@[simp] theorem write_andThen_write (text text' : List Char) :
    (write text).andThen (write text') = write (text ++ text') := rfl

@[simp] theorem raised_write_andThen (text : List Char) (w : Written) :
    ((write text).andThen w).raised = w.raised := rfl

theorem reading_andThen {α : Type} (x : Except Exn α) (f : α → Written) (w : Written) :
    (reading x f).andThen w = reading x fun a => (f a).andThen w := by
  cases x <;> rfl

/-- An exception goes through to the whole. -/
theorem raised_andThen {w : Written} {e : Exn} (h : w.raised = some e) (w' : Written) :
    (w.andThen w').raised = some e := by
  unfold Written.andThen
  rw [h]
  exact h

namespace Outputs

variable {α β : Type} {Rd : List Char → α → Prop → Prop} {T : List Char → β → Prop → Prop}
  {w : Written} {x : Except Exn α} {P P' : Prop}

/-- The condition may be put another way. -/
theorem congr (h : Outputs Rd w x P) (hP : P ↔ P') : Outputs Rd w x P' := propext hP ▸ h

/-- A piece with other pieces around it. -/
theorem wrap {f : Written → Written} {k : List Char → List Char} {g : α → β} (h : Outputs Rd w x P)
    (hwrite : ∀ text, f (write text) = write (k text))
    (hraise : ∀ w e, w.raised = some e → (f w).raised = some e)
    (hrd : ∀ text a, x = .ok a → Rd text a P → T (k text) (g a) P') (hP : P' → P) :
    Outputs T (f w) (g <$> x) P' := by
  cases h with
  | writes hw hx htext =>
    rw [hw, hwrite, hx]
    exact .writes rfl rfl (hrd _ _ hx htext)
  | raises hw hnot => exact .raises (hraise _ _ hw) (fun h' => hnot (hP h'))

/-- A value that is read first. -/
theorem bind {y : Except Exn β} {f : β → Written} {g : β → Except Exn α} {P : β → Prop}
    (h : ∀ b, y = .ok b → Outputs Rd (f b) (g b) (P b)) :
    Outputs Rd (reading y f) (y >>= g) (∃ b, y = .ok b ∧ P b) := by
  cases y with
  | error e =>
    refine .raises rfl ?_
    rintro ⟨b, hb, -⟩
    cases hb
  | ok b =>
    refine (h b rfl).congr ⟨fun hP => ⟨b, rfl, hP⟩, ?_⟩
    rintro ⟨b', hb, hP⟩
    cases hb
    exact hP

/-- **Entries and entries, with a comma between them.** -/
theorem append {w' : Written} {x x' : Except Exn Members} (h : Outputs WritesMembers w x P)
    (h' : Outputs WritesMembers w' x' P') :
    Outputs WritesMembers (w.andThen ((write [',']).andThen w'))
      (do return (← x) ++ (← x')) (P ∧ P') := by
  cases h with
  | raises hw hnot => exact .raises (raised_andThen hw _) (fun hP => hnot hP.1)
  | writes hw hx htext =>
    cases h' with
    | raises hw' hnot' =>
      rw [hw]
      exact .raises hw' (fun hP => hnot' hP.2)
    | writes hw' hx' htext' =>
      rw [hw, hw', hx, hx']
      exact .writes rfl rfl (htext.append htext')

/-- A single value is written, and nothing raised, exactly under the condition. -/
theorem isText_iff {x : Except Exn Json} (h : Outputs Writes w x P) :
    (w.raised = none ∧ ∃ v, x = .ok v ∧ IsText v w.text) ↔ P := by
  cases h with
  | writes hw hx htext =>
    rw [hw, hx, ← htext.isText]
    constructor
    · rintro ⟨-, v, hv, hread⟩
      cases hv
      exact hread
    · intro hread
      exact ⟨rfl, _, rfl, hread⟩
  | raises hw hnot =>
    refine iff_of_false ?_ hnot
    rintro ⟨hraised, -⟩
    rw [hw] at hraised
    cases hraised

/-- **The entries of all formatters, with commas between them.** -/
theorem all {F : Type} {output : F → Written} {entries : F → Except Exn Members} {Q : F → Prop}
    {formatters : List F} (hne : formatters ≠ [])
    (h : ∀ fmt ∈ formatters, Outputs WritesMembers (output fmt) (entries fmt) (Q fmt)) :
    Outputs WritesMembers (outputAll output formatters) (collect entries formatters)
      (∀ fmt ∈ formatters, Q fmt) := by
  induction formatters with
  | nil => exact absurd rfl hne
  | cons fmt formatters ih =>
    obtain ⟨hfmt, hrest⟩ := List.forall_mem_cons.mp h
    cases formatters with
    | nil =>
      have hcollect : collect entries [fmt] = id <$> entries fmt := by
        rw [collect, collect]
        cases entries fmt with
        | error e => rfl
        | ok members => exact congrArg Except.ok (List.append_nil members)
      rw [hcollect]
      refine (hfmt.wrap (k := id) (fun _ => rfl) (fun _ _ hw => hw) (fun _ _ _ htext => htext) id).congr ?_
      rw [List.forall_mem_singleton]
    | cons fmt' formatters =>
      have hrest := ih (List.cons_ne_nil _ _) hrest
      rw [List.forall_mem_cons]
      exact hfmt.append hrest

end Outputs

/-! ## 5. Fields -/

/-- An attribute is there, or an AttributeError is raised. -/
theorem getattribute_eq_ok {α : Type} {x : Option α} {a : α} : getattribute x = .ok a ↔ x = some a := by
  cases x with
  | none => exact iff_of_false nofun nofun
  | some b => exact ⟨fun h => congrArg some (Except.ok.inj h), fun h => congrArg Except.ok (Option.some.inj h)⟩

theorem exists_getattribute {α : Type} {x : Option α} {P : α → Prop} :
    (∃ a, getattribute x = .ok a ∧ P a) ↔ ∃ a, x = some a ∧ P a :=
  exists_congr fun _ => and_congr_left' getattribute_eq_ok

/-- A digit needs no escape. -/
theorem plain_of_isDigit {c : Char} (hdigit : c.isDigit = true) : Plain c := by
  rw [Char.isDigit, Bool.and_eq_true, decide_eq_true_eq, decide_eq_true_eq] at hdigit
  have hlow : 48 ≤ c.toNat := hdigit.1
  have hhigh : c.toNat ≤ 57 := hdigit.2
  refine ⟨by omega, ?_, ?_⟩
  · rintro rfl
    exact absurd hlow (by decide)
  · rintro rfl
    exact absurd hhigh (by decide)

/-- Nor does an integer. -/
theorem clean_str (n : Int) : Clean (str n) := by
  intro c hc
  rcases (isNumber_str n).chars c hc with hdigit | hmem
  · exact plain_of_isDigit hdigit
  · simp only [List.mem_cons, List.not_mem_nil, or_false] at hmem
    rcases hmem with rfl | rfl | rfl | rfl | rfl <;> decide

/-- Two clean texts make one. -/
theorem clean_append {text text' : List Char} (h : Clean text) (h' : Clean text') :
    Clean (text ++ text') :=
  fun c hc => (List.mem_append.mp hc).elim (h c) (h' c)

/-- A text between the quotes that are written before it and behind it. -/
theorem outputs_quoted {x : Except Exn (List Char)} :
    Outputs Writes ((write ['"']).andThen ((reading x write).andThen (write ['"'])))
      (do return .string (← x)) (∃ text, x = .ok text ∧ Clean text) := by
  cases x with
  | error e =>
    refine .raises rfl ?_
    rintro ⟨text, htext, -⟩
    cases htext
  | ok text =>
    refine Outputs.congr (.writes rfl rfl (writes_string text)) ?_
    exact ⟨fun h => ⟨text, rfl, h⟩, fun ⟨_, heq, h⟩ => Except.ok.inj heq ▸ h⟩

/-- A value without a name is written with its number, which needs no escape. -/
theorem exists_enumText {enumDef : EnumDef} {value : Int} :
    (∃ text, enumText enumDef value = .ok text ∧ Clean text) ↔
      ∀ name, enumDef.lookup value = some name → ∃ text, name = some text ∧ Clean text := by
  unfold enumText
  cases enumDef.lookup value with
  | none =>
    refine iff_of_true ⟨_, rfl, clean_append (by decide) (clean_str value)⟩ ?_
    intro name hname
    cases hname
  | some name =>
    cases name with
    | none =>
      refine iff_of_false nofun ?_
      intro h
      obtain ⟨text, htext, -⟩ := h _ rfl
      cases htext
    | some text =>
      constructor
      · rintro ⟨text', htext, hclean⟩ name hname
        cases htext
        exact ⟨text, (Option.some.inj hname).symm, hclean⟩
      · intro h
        obtain ⟨text', htext, hclean⟩ := h _ rfl
        cases htext
        exact ⟨text, rfl, hclean⟩

namespace FieldFormatter

variable {env : Environment} {option : Nat} {o : Attributes}

/-- A whole number is always JSON. -/
theorem outputs_int (attr : String) :
    Outputs Writes (reading (getattribute (o.int attr)) fun value => write (str value))
      (do return .number (str (← getattribute (o.int attr)))) (∃ value, o.int attr = some value) := by
  have h := Outputs.bind (y := getattribute (o.int attr)) (f := fun value => write (str value))
    (g := fun value => .ok (Json.number (str value))) (P := fun _ => True)
    fun value _ => .writes rfl rfl (isNumber_str value).writes
  refine h.congr (exists_getattribute.trans ?_)
  simp only [and_true]

/-- **A value is written as JSON exactly when it is sound.** -/
theorem outputs_format (fmt : FieldFormatter) :
    Outputs Writes (fmt.format env option o) (fmt.value env option o) (fmt.SoundValue env option o) := by
  cases fmt with
  | generic attr fieldName invalidMask => exact outputs_int attr
  | float attr fieldName formatStr scale =>
    refine Outputs.congr (Outputs.bind (P := fun value => value.isnan = true ∨
      formatStr.HasPrecision ∧ (shown env option scale value).isfinite = true) ?_) exists_getattribute
    intro value _
    cases hnan : value.isnan with
    | true =>
      refine Outputs.congr (.writes rfl rfl (writes_string ['n', 'a', 'n'])) ?_
      exact iff_of_true (by decide) (.inl rfl)
    | false =>
      refine Outputs.congr (.writes rfl rfl (writes_format formatStr _)) ?_
      exact (or_iff_right Bool.false_ne_true).symm
  | enum attr fieldName invalidMask enumDef globalRef =>
    unfold format value SoundValue
    cases isSet option resolveEnum with
    | false =>
      refine (outputs_int attr).congr ?_
      exact (and_iff_right nofun).symm
    | true =>
      refine Outputs.congr (Outputs.bind fun enumDef' _ => Outputs.bind fun value _ => outputs_quoted) ?_
      simp only [exists_getattribute, exists_enumText]
      constructor
      · rintro ⟨enumDef', hdef, value, hvalue, hname⟩
        exact ⟨fun _ => ⟨enumDef', value, hdef, hvalue, hname⟩, value, hvalue⟩
      · rintro ⟨h, -⟩
        obtain ⟨enumDef', value, hdef, hvalue, hname⟩ := h trivial
        exact ⟨enumDef', hdef, value, hvalue, hname⟩
  | text attr fieldName => exact outputs_quoted.congr exists_getattribute

/-- **An entry is written as JSON exactly when it is sound.** -/
theorem outputs_outputValid (fmt : FieldFormatter) :
    Outputs WritesMembers (fmt.outputValid env option o) (fmt.entries env option o)
      (fmt.Sound env option o) := by
  refine (outputs_format fmt).wrap (k := fun text => quoted fmt.fieldName ++ [':'] ++ text)
    (g := fun v => [(fmt.fieldName, v)]) (fun _ => rfl) (fun _ _ hw => hw) ?_ And.right
  intro text v _ htext
  have heq : quoted fmt.fieldName ++ [':'] ++ text = quoted fmt.fieldName ++ ':' :: text := by simp
  rw [heq]
  exact htext.member fmt.fieldName

end FieldFormatter

/-! ## 6. Items -/

/-- A formatter has an entry. -/
theorem collect_ne_nil {F : Type} {entries : F → Except Exn Members} {formatters : List F}
    {members : Members} (hne : formatters ≠ [])
    (hentries : ∀ fmt members, entries fmt = .ok members → members ≠ [])
    (h : collect entries formatters = .ok members) : members ≠ [] := by
  obtain ⟨fmt, rest, rfl⟩ := List.exists_cons_of_ne_nil hne
  rw [collect] at h
  obtain ⟨front, hfront, h⟩ := bind_eq_ok.mp h
  obtain ⟨back, -, h⟩ := bind_eq_ok.mp h
  rw [← Except.ok.inj h]
  exact List.append_ne_nil_of_left_ne_nil (hentries fmt front hfront) back

/-- A field formatter writes an entry, so the comma behind it has one before it. -/
theorem FieldFormatter.entries_ne_nil {env : Environment} {option : Nat} {o : Attributes}
    (fmt : FieldFormatter) (members : Members) (h : fmt.entries env option o = .ok members) :
    members ≠ [] := by
  obtain ⟨v, -, h⟩ := bind_eq_ok.mp h
  rw [← Except.ok.inj h]
  exact List.cons_ne_nil _ _

section

variable {env : Environment} {option : Nat} {formatters : List FieldFormatter}

/-- The text of an item starts with its brace. -/
def WritesItem (text : List Char) (v : Json) (P : Prop) : Prop :=
  Writes text v P ∧ ∃ rest, text = '{' :: rest

/-- **An item is written as JSON exactly when what is exported of it is sound.** -/
theorem outputs_writeItem (i : Item) :
    Outputs WritesItem (writeItem env option formatters i) (i.object env option formatters)
      (i.Sound env option formatters) := by
  unfold writeItem Item.object Item.Sound
  cases selected option (FieldFormatter.checkValid i.attributes) formatters with
  | error e =>
    refine .raises rfl ?_
    rintro ⟨kept, hkept, -⟩
    cases hkept
  | ok kept =>
    refine Outputs.congr (P := ∀ fmt ∈ kept, fmt.Sound env option i.attributes) ?_
      ⟨fun h => ⟨kept, rfl, h⟩, fun ⟨_, heq, h⟩ => Except.ok.inj heq ▸ h⟩
    cases kept with
    | nil =>
      refine Outputs.congr (.writes rfl rfl ⟨writes_noMember, _, rfl⟩) ?_
      exact iff_of_true trivial (fun _ hmem => absurd hmem List.not_mem_nil)
    | cons fmt kept =>
      refine (Outputs.all (List.cons_ne_nil fmt kept)
        fun fmt _ => @FieldFormatter.outputs_outputValid env option i.attributes fmt).wrap
          (f := fun w => (write ['{']).andThen (w.andThen (write ['}'])))
          (k := fun text => '{' :: text ++ ['}']) (g := Json.object)
          (fun _ => rfl) (fun w e hw => raised_andThen hw _) ?_ id
      intro text members hmembers htext
      have hne := collect_ne_nil (List.cons_ne_nil fmt kept) FieldFormatter.entries_ne_nil hmembers
      exact ⟨htext.object hne, _, rfl⟩

/-- The texts of the items, with a comma behind an item as long as the counter is
not reached. -/
def separated (nbItems : Int) : Nat → List (List Char) → List Char
  | _, [] => []
  | itemsWritten, text :: texts =>
      text ++ ((if ((itemsWritten + 1 : Nat) : Int) < nbItems then [','] else []) ++
        separated nbItems (itemsWritten + 1) texts)

/-- Texts of items, one for each value. -/
inductive WritesItems : List (List Char) → List Json → Prop → Prop
  | nil : WritesItems [] [] True
  | cons {text v P texts vs Q} : WritesItem text v P → WritesItems texts vs Q →
      WritesItems (text :: texts) (v :: vs) (P ∧ Q)

/-- **The commas are in place exactly when the counter is the number of items.** A
comma is left over where the counter is above it, and missing where it is below. -/
theorem WritesItems.reads {texts : List (List Char)} {vs : List Json} {Q : Prop}
    (h : WritesItems texts vs Q) (hne : texts ≠ []) {nbItems : Int} {itemsWritten : Nat}
    (hlt : (itemsWritten : Int) < nbItems) (s r : List Char) :
    ReadsItems vs (separated nbItems itemsWritten texts ++ ']' :: s) r ↔
      (Q ∧ nbItems = itemsWritten + texts.length) ∧ r = s := by
  induction h generalizing itemsWritten with
  | nil => exact absurd rfl hne
  | @cons text v P texts vs Q hitem hitems ih =>
    obtain ⟨hwrites, -⟩ := hitem
    have hskip : ∀ {s t}, Skips (text ++ s) t → t = text ++ s := hwrites.skips.mp
    cases hitems with
    | nil =>
      rw [separated, separated, List.append_nil, List.append_assoc, List.length_singleton, and_true]
      constructor
      · intro hreads
        cases hreads with
        | last hfront hv hback =>
          obtain rfl := hskip hfront
          obtain ⟨hP, rfl⟩ := (hwrites.reads _ _).mp hv
          split at hback
          · exact absurd ((skips_cons (by decide)).mp hback) (by simp)
          · exact ⟨⟨hP, by push_cast at *; omega⟩, (List.cons.inj ((skips_cons (by decide)).mp hback)).2⟩
        | more hfront hv hback hvs => cases hvs
      · rintro ⟨⟨hP, hcount⟩, rfl⟩
        rw [if_neg (by push_cast; omega)]
        exact .last (skips_self _) ((hwrites.reads _ _).mpr ⟨hP, rfl⟩) (skips_self _)
    | @cons text' v' P' texts vs Q' hitem' hitems' =>
      obtain ⟨-, rest, hrest⟩ := hitem'
      rw [separated, List.append_assoc, List.append_assoc]
      constructor
      · intro hreads
        cases hreads with
        | more hfront hv hback hvs =>
          obtain rfl := hskip hfront
          obtain ⟨hP, rfl⟩ := (hwrites.reads _ _).mp hv
          split at hback
          · next hcomma =>
            obtain rfl := (List.cons.inj ((skips_cons (by decide)).mp hback)).2
            obtain ⟨⟨hQ, hcount⟩, hr⟩ := (ih (List.cons_ne_nil _ _) hcomma).mp hvs
            refine ⟨⟨⟨hP, hQ⟩, ?_⟩, hr⟩
            rw [hcount]
            push_cast [List.length_cons]
            omega
          · rw [separated, hrest] at hback
            exact absurd ((skips_cons (by decide)).mp hback) (by simp)
      · rintro ⟨⟨⟨hP, hQ⟩, hcount⟩, rfl⟩
        have hcomma : ((itemsWritten + 1 : Nat) : Int) < nbItems := by
          rw [hcount]
          push_cast [List.length_cons]
          omega
        rw [if_pos hcomma]
        refine .more (skips_self _) ((hwrites.reads _ _).mpr ⟨hP, rfl⟩) (skips_self _) ?_
        refine (ih (List.cons_ne_nil _ _) hcomma).mpr ⟨⟨hQ, ?_⟩, rfl⟩
        rw [hcount]
        push_cast [List.length_cons]
        omega

/-- The texts of the items, or what one of them raises. -/
theorem outputs_writeItems (nbItems : Int) (itemsWritten : Nat) (items : List Item) :
    Outputs (fun text vs P => ∃ texts, text = separated nbItems itemsWritten texts ∧
        texts.length = items.length ∧ vs.length = items.length ∧ WritesItems texts vs P)
      (writeItems env option formatters nbItems itemsWritten items)
      (itemObjects env option formatters items) (∀ i ∈ items, i.Sound env option formatters) := by
  induction items generalizing itemsWritten with
  | nil =>
    refine Outputs.congr (.writes rfl rfl ⟨[], rfl, rfl, rfl, .nil⟩) ?_
    exact iff_of_true trivial (fun _ hmem => absurd hmem List.not_mem_nil)
  | cons i items ih =>
    rw [List.forall_mem_cons, writeItems, itemObjects]
    cases @outputs_writeItem env option formatters i with
    | raises hw hnot => exact .raises (raised_andThen hw _) (fun h => hnot h.1)
    | writes hw hx htext =>
      rw [hw, hx]
      cases ih (itemsWritten + 1) with
      | raises hw' hnot' => exact .raises hw' (fun h => hnot' h.2)
      | writes hw' hx' htexts =>
        obtain ⟨texts, rfl, hlength, hlength', htexts⟩ := htexts
        rw [hw', hx']
        exact .writes rfl rfl ⟨_ :: texts, rfl, congrArg Nat.succ hlength, congrArg Nat.succ hlength',
          .cons htext htexts⟩

end

/-! ## 7. Messages -/

namespace Formatter

variable {env : Environment} {option : Nat} {msg : DecodedMsg}

/-- The items and the bracket behind them. -/
theorem outputs_items {nbItems : Int} (hpos : 0 < nbItems) (formatters : List FieldFormatter)
    {items : List Item} (hne : items ≠ []) :
    Outputs (fun text members P => WritesMembers (quoted ['l', 'i', 's', 't'] ++ [':', '['] ++ text) members P)
      ((writeItems env option formatters nbItems 0 items).andThen (write [']']))
      ((fun vs => [(['l', 'i', 's', 't'], .array vs)]) <$> itemObjects env option formatters items)
      ((∀ i ∈ items, i.Sound env option formatters) ∧ nbItems = items.length) := by
  refine (outputs_writeItems nbItems 0 items).wrap (k := fun text => text ++ [']'])
    (f := fun w => w.andThen (write [']'])) (fun _ => rfl) (fun w e hw => raised_andThen hw _) ?_ And.left
  rintro text vs - ⟨texts, rfl, hlength, hlength', htexts⟩
  have hitems := List.length_pos_iff.mpr hne
  have harray : Writes ('[' :: separated nbItems 0 texts ++ [']']) (.array vs)
      ((∀ i ∈ items, i.Sound env option formatters) ∧ nbItems = items.length) := by
    refine writes_array (List.length_pos_iff.mp (hlength' ▸ hitems)) fun s r => ?_
    rw [htexts.reads (List.length_pos_iff.mp (hlength ▸ hitems)) (by exact_mod_cast hpos), hlength]
    simp only [Nat.cast_zero, Int.zero_add]
  have hmember := harray.member ['l', 'i', 's', 't']
  rw [propext (and_iff_right (show Clean ['l', 'i', 's', 't'] by decide))] at hmember
  have heq : quoted ['l', 'i', 's', 't'] ++ [':', '['] ++ (separated nbItems 0 texts ++ [']'])
      = quoted ['l', 'i', 's', 't'] ++ ':' :: ('[' :: separated nbItems 0 texts ++ [']']) := by simp
  rw [heq]
  exact hmember

/-- The first item is there when the list has one. -/
theorem exists_item_zero {α : Type*} {l : List α} {P : α → Prop} :
    (∃ a, item l 0 = .ok a ∧ P a) ↔ ∃ first rest, l = first :: rest ∧ P first := by
  cases l with
  | nil =>
    refine iff_of_false ?_ ?_
    · rintro ⟨a, ha, -⟩
      cases ha
    · rintro ⟨first, rest, h, -⟩
      cases h
  | cons first rest =>
    constructor
    · rintro ⟨a, ha, hP⟩
      cases ha
      exact ⟨first, rest, rfl, hP⟩
    · rintro ⟨first', rest', h, hP⟩
      cases h
      exact ⟨first, rfl, hP⟩

/-- A class of items without a formatter is refused. -/
theorem outputs_checkedItems {nbItems : Int} (hpos : 0 < nbItems) (formatters : List FieldFormatter)
    {items : List Item} (hne : items ≠ []) :
    Outputs (fun text members P => WritesMembers (quoted ['l', 'i', 's', 't'] ++ [':', '['] ++ text) members P)
      (if formatters.length = 0 then ⟨[], some .assertionError⟩
        else (writeItems env option formatters nbItems 0 items).andThen (write [']']))
      (if formatters.length = 0 then .error .assertionError
        else (fun vs => [(['l', 'i', 's', 't'], .array vs)]) <$> itemObjects env option formatters items)
      (formatters ≠ [] ∧ (∀ i ∈ items, i.Sound env option formatters) ∧ nbItems = items.length) := by
  cases formatters with
  | nil => exact .raises rfl (fun h => h.1 rfl)
  | cons fmt formatters =>
    exact (outputs_items hpos (fmt :: formatters) hne).congr
      (and_iff_right (List.cons_ne_nil fmt formatters)).symm

/-- **The list is written as JSON exactly when the counter is the number of the
items and they are sound.** -/
theorem outputs_outputList {nbItems : Int} (hpos : 0 < nbItems) (listAttr : String) :
    Outputs (fun text members P => ∃ rest, text = ',' :: rest ∧ WritesMembers rest members P)
      (outputList env option msg listAttr nbItems) (list env option msg listAttr)
      (∃ first rest fmt formatters, msg.lists listAttr = some (first :: rest) ∧
        nbItems = (first :: rest).length ∧ first.jsonFormat = .tuple (fmt :: formatters) ∧
        ∀ i ∈ first :: rest, i.Sound env option (fmt :: formatters)) := by
  have hlist := Outputs.bind (y := getattribute (msg.lists listAttr)) fun items _ =>
    Outputs.bind (y := item items 0) fun first hfirst =>
      Outputs.bind (y := first.jsonFormat.formatters) fun formatters _ =>
        @outputs_checkedItems env option nbItems hpos formatters items (by rintro rfl; cases hfirst)
  have hwrap := hlist.wrap (k := fun text => ',' :: quoted ['l', 'i', 's', 't'] ++ [':', '['] ++ text)
    (f := fun w => (write (',' :: quoted ['l', 'i', 's', 't'] ++ [':', '['])).andThen w) (g := id)
    (T := fun text members P => ∃ rest, text = ',' :: rest ∧ WritesMembers rest members P)
    (fun _ => rfl) (fun _ _ hw => hw) (fun _ _ _ htext => ⟨_, rfl, htext⟩) id
  rw [id_map] at hwrap
  refine hwrap.congr ?_
  simp only [exists_getattribute, exists_item_zero]
  constructor
  · rintro ⟨items, hitems, first, rest, rfl, formatters, hformat, hne, hsound, hcount⟩
    obtain ⟨fmt, formatters, rfl⟩ := List.exists_cons_of_ne_nil hne
    refine ⟨first, rest, fmt, formatters, hitems, hcount, ?_, hsound⟩
    cases hjson : first.jsonFormat with
    | single fmt =>
      rw [hjson] at hformat
      cases hformat
    | tuple formatters =>
      rw [hjson] at hformat
      exact congrArg JsonFormat.tuple (Except.ok.inj hformat)
  · rintro ⟨first, rest, fmt, formatters, hitems, hcount, hformat, hsound⟩
    exact ⟨_, hitems, first, rest, rfl, _, by rw [hformat]; rfl, List.cons_ne_nil _ _, hsound, hcount⟩

/-- A counter, with its list. -/
theorem outputs_counter (fieldName : List Char) (listAttr : String) (nbItems : Int) :
    Outputs (fun text members P => WritesMembers (quoted fieldName ++ [':'] ++ text) members P)
      ((write (str nbItems)).andThen
        (if 0 < nbItems then outputList env option msg listAttr nbItems else write []))
      ((fun rest => (fieldName, Json.number (str nbItems)) :: rest) <$>
        listBehind env option msg listAttr nbItems)
      (Clean fieldName ∧ (0 < nbItems → ∃ first rest fmt formatters,
        msg.lists listAttr = some (first :: rest) ∧ nbItems = (first :: rest).length ∧
          first.jsonFormat = .tuple (fmt :: formatters) ∧
          ∀ i ∈ first :: rest, i.Sound env option (fmt :: formatters))) := by
  have hcounter := (isNumber_str nbItems).writes.member fieldName
  rw [and_true] at hcounter
  unfold listBehind
  by_cases hpos : 0 < nbItems
  · rw [if_pos hpos, if_pos hpos]
    refine (outputs_outputList hpos listAttr).wrap (k := fun text => str nbItems ++ text)
      (f := fun w => (write (str nbItems)).andThen w) (fun _ => rfl) (fun _ _ hw => hw) ?_
      (fun h => h.2 hpos)
    rintro text members - ⟨rest, rfl, hrest⟩
    have heq : quoted fieldName ++ [':'] ++ (str nbItems ++ ',' :: rest)
        = quoted fieldName ++ ':' :: str nbItems ++ ',' :: rest := by simp
    rw [heq, propext (forall_prop_of_true hpos)]
    exact hcounter.append hrest
  · rw [if_neg hpos, if_neg hpos]
    have heq : quoted fieldName ++ [':'] ++ (str nbItems ++ [])
        = quoted fieldName ++ ':' :: str nbItems := by simp
    refine Outputs.congr (.writes (P := Clean fieldName) rfl rfl (heq ▸ hcounter)) ?_
    exact (and_iff_left fun h => absurd h hpos).symm

/-- **What a formatter writes is JSON exactly when it is sound.** -/
theorem outputs_outputValid (fmt : Formatter) :
    Outputs WritesMembers (fmt.outputValid env option msg) (fmt.entries env option msg)
      (fmt.Sound env option msg) := by
  cases fmt with
  | field fmt => exact FieldFormatter.outputs_outputValid fmt
  | repeated attr fieldName listAttr =>
    have hcounter := Outputs.bind (y := getattribute (msg.attributes.int attr)) fun nbItems _ =>
      @outputs_counter env option msg fieldName listAttr nbItems
    have hwrap := hcounter.wrap (k := fun text => quoted fieldName ++ [':'] ++ text)
      (f := fun w => (write (quoted fieldName ++ [':'])).andThen w) (g := id) (T := WritesMembers)
      (fun _ => rfl) (fun _ _ hw => hw) (fun _ _ _ htext => htext) id
    rw [id_map] at hwrap
    refine hwrap.congr ?_
    rw [exists_getattribute]
    constructor
    · rintro ⟨nbItems, hint, hclean, h⟩
      exact ⟨hclean, nbItems, hint, h⟩
    · rintro ⟨hclean, nbItems, hint, h⟩
      exact ⟨nbItems, hint, hclean, h⟩

/-- As `FieldFormatter.entries_ne_nil`, for the formatters of a message. -/
theorem entries_ne_nil (fmt : Formatter) (members : Members) (h : fmt.entries env option msg = .ok members) :
    members ≠ [] := by
  cases fmt with
  | field fmt => exact fmt.entries_ne_nil members h
  | repeated attr fieldName listAttr =>
    obtain ⟨nbItems, -, h⟩ := bind_eq_ok.mp h
    obtain ⟨rest, -, h⟩ := bind_eq_ok.mp h
    rw [← Except.ok.inj h]
    exact List.cons_ne_nil _ _

end Formatter

/-! ## 8. The whole text -/

/-- A plain character in front of a clean text. -/
theorem clean_cons {c : Char} {text : List Char} (hc : Plain c) (h : Clean text) : Clean (c :: text) :=
  List.forall_mem_cons.mpr ⟨hc, h⟩

/-- A time stamp has digits and its marks, and none of them needs an escape. -/
theorem clean_isoformat (d : DateTime) : Clean (isoformat d) := by
  have hpadded : ∀ width n, Clean (padded width n) := 
    fun width n c hc => plain_of_isDigit ((isDigits_padded width n).2 c hc)
  have hmicrosecond : Clean (if d.microsecond = 0 then [] else '.' :: padded 6 d.microsecond) := by
    split
    · decide
    · exact clean_cons (by decide) (hpadded _ _)
  unfold isoformat
  refine clean_append ?_ hmicrosecond
  have hfield : ∀ {text : List Char} {c : Char} (width n : Nat), Clean text → Plain c →
      Clean (text ++ c :: padded width n) :=
    fun width n htext hc => clean_append htext (clean_cons hc (hpadded width n))
  have hday := hfield (c := '-') 2 d.day (hfield (c := '-') 2 d.month (hpadded 4 d.year) (by decide))
    (by decide)
  have hminute := hfield (c := ':') 2 d.minute (hfield (c := 'T') 2 d.hour hday (by decide)) (by decide)
  exact hfield 2 d.second hminute (by decide)

namespace DecodedMsg

/-- The header and the fields are an object. -/
theorem writes_document (timestamp : DateTime) (priority sa da pgn : Int) (name : List Char)
    {text : List Char} {members : Members} {P : Prop} (h : WritesMembers text members P)
    (hne : members ≠ []) :
    Writes (activeHeader (isoformat timestamp) priority sa da pgn name ++ (text ++ ['}', '}']))
      (.object [("timestamp:".toList, .string (isoformat timestamp)),
        ("prio".toList, .number (str priority)), ("navigation_server".toList, .number (str sa)),
        ("dst".toList, .number (str da)), ("pgn".toList, .number (str pgn)),
        ("description".toList, .string name), ("fields".toList, .object members)])
      (Clean name ∧ P) := by
  have hmembers := ((((((writes_string (isoformat timestamp)).member "timestamp:".toList).append
    ((isNumber_str priority).writes.member "prio".toList)).append
    ((isNumber_str sa).writes.member "navigation_server".toList)).append
    ((isNumber_str da).writes.member "dst".toList)).append
    ((isNumber_str pgn).writes.member "pgn".toList)).append
    ((writes_string name).member "description".toList) |>.append
    ((h.object hne).member "fields".toList).blank
  have hobject := hmembers.object (List.cons_ne_nil _ _)
  have hP : ((((((Clean "timestamp:".toList ∧ Clean (isoformat timestamp)) ∧
      Clean "prio".toList ∧ True) ∧ Clean "navigation_server".toList ∧ True) ∧
      Clean "dst".toList ∧ True) ∧ Clean "pgn".toList ∧ True) ∧ Clean "description".toList ∧ Clean name) ∧
      Clean "fields".toList ∧ P ↔ Clean name ∧ P := by
    have hnames : Clean "timestamp:".toList ∧ Clean "prio".toList ∧ Clean "navigation_server".toList ∧
      Clean "dst".toList ∧ Clean "pgn".toList ∧ Clean "description".toList ∧
      Clean "fields".toList := by decide
    have hiso := clean_isoformat timestamp
    tauto
  rw [propext hP] at hobject
  have heq : activeHeader (isoformat timestamp) priority sa da pgn name ++ (text ++ ['}', '}'])
      = '{' :: (quoted "timestamp:".toList ++ ':' :: quoted (isoformat timestamp) ++
        ',' :: (quoted "prio".toList ++ ':' :: str priority) ++
        ',' :: (quoted "navigation_server".toList ++ ':' :: str sa) ++
        ',' :: (quoted "dst".toList ++ ':' :: str da) ++
        ',' :: (quoted "pgn".toList ++ ':' :: str pgn) ++
        ',' :: (quoted "description".toList ++ ':' :: quoted name) ++
        ',' :: (' ' :: (quoted "fields".toList ++ ':' :: ('{' :: text ++ ['}'])))) ++ ['}'] := by
    simp only [activeHeader, List.append_assoc, List.cons_append, List.nil_append]
  rw [heq]
  exact hobject

variable {env : Environment} {msg : DecodedMsg} {option : Nat}

/-- The fields, behind the header. -/
theorem outputs_fields (timestamp : DateTime) (formatters : List Formatter) :
    Outputs (fun text v P => Writes (activeHeader (isoformat timestamp) msg.priority msg.sa msg.da
        msg.pgn msg.name ++ text) v P)
      (if formatters.length = 0 then ⟨[], some .assertionError⟩
        else (outputAll (Formatter.outputValid env option msg) formatters).andThen (write ['}', '}']))
      ((fun members => Json.object [("timestamp:".toList, .string (isoformat timestamp)),
        ("prio".toList, .number (str msg.priority)), ("navigation_server".toList, .number (str msg.sa)),
        ("dst".toList, .number (str msg.da)), ("pgn".toList, .number (str msg.pgn)),
        ("description".toList, .string msg.name), ("fields".toList, .object members)]) <$>
          collect (Formatter.entries env option msg) formatters)
      (formatters ≠ [] ∧ Clean msg.name ∧ ∀ fmt ∈ formatters, fmt.Sound env option msg) := by
  cases formatters with
  | nil => exact .raises rfl (fun h => h.1 rfl)
  | cons fmt formatters =>
    rw [and_iff_right (List.cons_ne_nil fmt formatters)]
    refine (Outputs.all (List.cons_ne_nil fmt formatters)
      fun fmt _ => Formatter.outputs_outputValid fmt).wrap (k := fun text => text ++ ['}', '}'])
        (f := fun w => w.andThen (write ['}', '}'])) (fun _ => rfl) (fun w e hw => raised_andThen hw _)
        ?_ And.right
    intro text members hmembers htext
    exact writes_document timestamp msg.priority msg.sa msg.da msg.pgn msg.name htext
      (collect_ne_nil (List.cons_ne_nil fmt formatters) Formatter.entries_ne_nil hmembers)

/-- **The text is the object of the message exactly when the time is one of the
calendar, a formatter is left, the name needs no escape and the formatters left
are sound.** -/
theorem outputs_pushJson :
    Outputs Writes (msg.pushJson env option) (msg.document env option)
      (∃ timestamp, env.fromtimestamp msg.timestamp = .ok timestamp ∧
        ∃ formatters, msg.formatters option = .ok formatters ∧ formatters ≠ [] ∧ Clean msg.name ∧
          ∀ fmt ∈ formatters, fmt.Sound env option msg) := by
  rw [pushJson, reading_andThen]
  refine Outputs.bind fun timestamp _ => ?_
  have hfields := Outputs.bind (y := msg.formatters option) (fun formatters _ =>
    @outputs_fields env msg option timestamp formatters)
  have hwrap := hfields.wrap (T := Writes) (g := id)
    (f := fun w => (write (activeHeader (isoformat timestamp) msg.priority msg.sa msg.da msg.pgn
      msg.name)).andThen w)
    (fun _ => rfl) (fun _ _ hw => hw) (fun _ _ _ htext => htext) id
  rw [id_map] at hwrap
  exact hwrap

/-- A valid formatter is selected. -/
theorem mem_selected {F : Type} {checkValid : F → Except Exn Bool} {formatters kept : List F} {fmt : F}
    (h : selected option checkValid formatters = .ok kept) (hmem : fmt ∈ formatters)
    (hvalid : checkValid fmt = .ok true) : fmt ∈ kept := by
  have hvalidFormatters : ∀ {formatters kept : List F}, validFormatters checkValid formatters = .ok kept →
      fmt ∈ formatters → fmt ∈ kept := by
    intro formatters
    induction formatters with
    | nil => exact fun _ hmem => absurd hmem List.not_mem_nil
    | cons fmt' formatters ih =>
      intro kept h hmem
      obtain ⟨valid, hfmt', h⟩ := bind_eq_ok.mp h
      obtain ⟨rest, hrest, h⟩ := bind_eq_ok.mp h
      rw [← Except.ok.inj h]
      rcases List.mem_cons.mp hmem with rfl | hmem
      · rw [hvalid] at hfmt'
        rw [← Except.ok.inj hfmt', if_pos rfl]
        exact List.mem_cons_self
      · have hmem := ih hrest hmem
        split
        · exact List.mem_cons_of_mem _ hmem
        · exact hmem
  unfold selected at h
  split at h
  · exact hvalidFormatters h hmem
  · rwa [← Except.ok.inj h]

/-- There is an object for each item. -/
theorem length_itemObjects {formatters : List FieldFormatter} {items : List Item} {vs : List Json}
    (h : itemObjects env option formatters items = .ok vs) : vs.length = items.length := by
  induction items generalizing vs with
  | nil =>
    rw [← Except.ok.inj h]
    rfl
  | cons i items ih =>
    obtain ⟨v, -, h⟩ := bind_eq_ok.mp h
    obtain ⟨vs', hvs', h⟩ := bind_eq_ok.mp h
    rw [← Except.ok.inj h, List.length_cons, List.length_cons, ih hvs']

/-- The list has an element for each item. -/
theorem list_eq_ok {listAttr : String} {members : Members}
    (h : Formatter.list env option msg listAttr = .ok members) :
    ∃ items vs, msg.lists listAttr = some items ∧ vs.length = items.length ∧
      members = [(['l', 'i', 's', 't'], .array vs)] := by
  obtain ⟨items, hitems, h⟩ := bind_eq_ok.mp h
  obtain ⟨first, -, h⟩ := bind_eq_ok.mp h
  obtain ⟨formatters, -, h⟩ := bind_eq_ok.mp h
  split at h
  · cases h
  · obtain ⟨vs, hvs, h⟩ := bind_eq_ok.mp h
    exact ⟨items, vs, getattribute_eq_ok.mp hitems, length_itemObjects hvs, (Except.ok.inj h).symm⟩

/-- **The items are listed exactly when their counter is above 0**, where what is
exported is sound. -/
theorem listsItems_iff {formatters kept : List Formatter} {attr listAttr : String} {fieldName : List Char}
    {items : List Item} (hformatters : msg.jsonFormat.formatters = .ok formatters)
    (hkept : msg.formatters option = .ok kept) (hsound : ∀ fmt ∈ kept, fmt.Sound env option msg)
    (hmem : .repeated attr fieldName listAttr ∈ formatters) (hitems : msg.lists listAttr = some items) :
    msg.ListsItems env option (.repeated attr fieldName listAttr) items ↔
      ∃ nbItems, msg.attributes.int attr = some nbItems ∧ 0 < nbItems := by
  constructor
  · rintro ⟨-, members, vs, -, -, hmembers, hlist, -⟩
    obtain ⟨nbItems, hint, hmembers⟩ := bind_eq_ok.mp hmembers
    obtain ⟨rest, hrest, hmembers⟩ := bind_eq_ok.mp hmembers
    refine ⟨nbItems, getattribute_eq_ok.mp hint, ?_⟩
    by_contra hpos
    rw [Formatter.listBehind, if_neg hpos] at hrest
    rw [← Except.ok.inj hmembers, ← Except.ok.inj hrest, List.mem_singleton, Prod.mk.injEq] at hlist
    exact Json.noConfusion hlist.2
  · rintro ⟨nbItems, hint, hpos⟩
    have hvalid : Formatter.checkValid msg (.repeated attr fieldName listAttr) = .ok true := by
      rw [Formatter.checkValid, hint]
      exact congrArg Except.ok (bne_iff_ne.mpr (by omega))
    obtain ⟨formatters', hformatters', hselected⟩ := bind_eq_ok.mp hkept
    rw [hformatters] at hformatters'
    cases hformatters'
    have hmem := mem_selected hselected hmem hvalid
    have houtputs := @Formatter.outputs_outputValid env option msg
      (.repeated attr fieldName listAttr)
    cases houtputs with
    | raises hw hnot => exact absurd (hsound _ hmem) hnot
    | @writes text members hw hx htext =>
      obtain ⟨nbItems', hint', hmembers⟩ := bind_eq_ok.mp hx
      rw [getattribute_eq_ok.mp hint'] at hint
      cases hint
      obtain ⟨rest, hrest, hmembers⟩ := bind_eq_ok.mp hmembers
      rw [Formatter.listBehind, if_pos hpos] at hrest
      obtain ⟨items', vs, hitems', hlength, rfl⟩ := list_eq_ok hrest
      rw [hitems] at hitems'
      cases hitems'
      refine ⟨kept, members, vs, hkept, hmem, hx, ?_, hlength⟩
      rw [← Except.ok.inj hmembers]
      exact List.mem_cons_of_mem _ List.mem_cons_self

/-- **A message prints as JSON exactly when it is sound.** -/
theorem printsJson_iff (env : Environment) (msg : DecodedMsg) (option : Nat) :
    msg.PrintsJson env option ↔ msg.Sound env option := by
  rw [PrintsJson, ← and_assoc, outputs_pushJson.isText_iff]
  constructor
  · rintro ⟨⟨timestamp, htime, kept, hkept, hne, hname, hsound⟩, hlists⟩
    refine ⟨⟨timestamp, htime⟩, hname, ⟨kept, hkept, hne, hsound⟩, ?_⟩
    intro attr fieldName listAttr formatters items hformatters hmem hitems hitems'
    exact (listsItems_iff hformatters hkept hsound hmem hitems).mp
      (hlists attr fieldName listAttr formatters items hformatters hmem hitems hitems')
  · rintro ⟨⟨timestamp, htime⟩, hname, ⟨kept, hkept, hne, hsound⟩, hcounted⟩
    refine ⟨⟨timestamp, htime, kept, hkept, hne, hname, hsound⟩, ?_⟩
    intro attr fieldName listAttr formatters items hformatters hmem hitems hitems'
    exact (listsItems_iff hformatters hkept hsound hmem hitems).mpr
      (hcounted attr fieldName listAttr formatters items hformatters hmem hitems hitems')

end DecodedMsg

/-- Without global enumerations, other units and a time zone. -/
def plainEnvironment : Environment where
  getGlobalEnum _ := .error .keyError
  convert value _ := value
  fromtimestamp _ := .ok ⟨2025, 3, 11, 21, 57, 0, 0, by decide⟩

/-- The pilot mode of a display, of which no field is available. -/
def pilotModeUnavailable : DecodedMsg where
  timestamp := .finite false 1741730220
  priority := 7
  sa := 204
  da := 255
  pgn := 65379
  name := "Raymarine: Pilot mode".toList
  attributes := ⟨fun _ => some 0xff, fun _ => none, fun _ => none⟩
  lists _ := none
  jsonFormat := .tuple [.field (.generic "_sequence_id" "SID".toList 0xff),
    .field (.generic "_pilot_mode" "Pilot Mode".toList 0xff),
    .field (.generic "_sub_mode" "Sub Mode".toList 0xff),
    .field (.generic "_pilot_mode_data" "Pilot Mode Data".toList 0xff)]

/-- A waypoint of a route. -/
def waypoint (name : List Char) : Item where
  attributes := ⟨fun _ => some 1, fun _ => some (.finite false 45), fun _ => some name⟩
  jsonFormat := .tuple [.generic "_waypoint_id" "WP ID".toList 0xffff,
    .text "_waypoint_name" "WP Name".toList,
    floatFormatter "_waypoint_latitude" "WP Latitude".toList (.precision 6) none,
    floatFormatter "_waypoint_longitude" "WP Longitude".toList (.precision 6) none]

/-- A route with a name, a counter and its waypoints. -/
def route (name : List Char) (nbItems : Int) (waypoints : List Item) : DecodedMsg where
  timestamp := .finite false 1741730220
  priority := 7
  sa := 204
  da := 255
  pgn := 129285
  name := "Navigation - Route/WP Information".toList
  attributes := ⟨fun attr => if attr = "_nb_items" then some nbItems else some 1, fun _ => none,
    fun _ => some name⟩
  lists _ := some waypoints
  jsonFormat := .tuple [.field (.generic "_start_waypoint_id" "Start RPS#".toList 0xffff),
    .repeated "_nb_items" "nItems".toList "_WP_definitions",
    .field (.generic "_database_id" "Database ID".toList 0xffff),
    .field (.generic "_route_id" "Route ID".toList 0xffff),
    .field (.generic "_navigation_direction" "Navigation direction in route".toList 0x7),
    .field (.generic "_supplementary_data" "Supplementary Route/WP data available".toList 0x3),
    .field (.text "_route_name" "Route Name".toList)]

/-- **Messages that do not print.** Without a valid field nothing is left to
write; a quote in a text ends the string; and behind the last item there is a
comma when the counter is above the number of the items. -/
theorem not_printsJson :
    ¬ pilotModeUnavailable.PrintsJson plainEnvironment removeInvalid ∧
      ¬ (route "a\"b".toList 0 []).PrintsJson plainEnvironment 0 ∧
      ¬ (route "Home".toList 2 [waypoint "A".toList]).PrintsJson plainEnvironment 0 := by
  have hsound : ∀ {msg : DecodedMsg} {formatters : List Formatter} (fmt : Formatter),
      msg.PrintsJson plainEnvironment 0 → msg.formatters 0 = .ok formatters → fmt ∈ formatters →
        fmt.Sound plainEnvironment 0 msg := by
    rintro msg formatters fmt ⟨hraised, htext, -⟩ hformatters hmem
    obtain ⟨-, -, kept, hkept, -, -, hsound⟩ := DecodedMsg.outputs_pushJson.isText_iff.mp ⟨hraised, htext⟩
    rw [hformatters] at hkept
    exact hsound fmt (Except.ok.inj hkept ▸ hmem)
  refine ⟨?_, fun h => ?_, fun h => ?_⟩
  · rintro ⟨hraised, -⟩
    have hassertion : (pilotModeUnavailable.pushJson plainEnvironment removeInvalid).raised
        = some .assertionError := rfl
    rw [hassertion] at hraised
    cases hraised
  · have htext := hsound (.field (.text "_route_name" "Route Name".toList)) h rfl (by simp)
    obtain ⟨-, text, heq, hclean⟩ := htext
    rw [← Option.some.inj heq] at hclean
    exact absurd hclean (by decide)
  · have hlist := hsound (.repeated "_nb_items" "nItems".toList "_WP_definitions") h rfl (by simp)
    obtain ⟨-, nbItems, hint, hcount⟩ := hlist
    have hint : nbItems = 2 := (Option.some.inj hint).symm
    obtain ⟨first, rest, fmt, formatters, heq, hlength, -⟩ := hcount (by omega)
    rw [← Option.some.inj heq, hint] at hlength
    exact absurd hlength (by decide)

end NavigationServer.Nmea2000Datamodel
