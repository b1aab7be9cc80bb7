/-
NavigationServer.Lib.Json — texts that are JSON values.

`Reads v s r` is the grammar: a value stands in front of the text `s`, and `r`
follows it. Numbers are kept as they are written, strings as the characters that
they stand for. A text that is written between quotes as it is reads back as
itself when it has no quote, no backslash and no control character, and not
otherwise (`readsString_iff`). `Writes` and `WritesMembers` say for a piece of a
text under which condition it reads as what it is meant for, whatever follows;
pieces are put together by `WritesMembers.append` and `WritesMembers.object`.
-/
import Mathlib.Data.List.Basic
import Mathlib.Tactic.Cases

namespace NavigationServer.Lib

inductive Json where
  | null
  | bool (b : Bool)
  | number (text : List Char)
  | string (text : List Char)
  | array (items : List Json)
  | object (members : List (List Char × Json))

namespace Json

/-! ## 1. Strings -/

/-- A character that stands in a string as it is. -/
def Plain (c : Char) : Prop := 0x20 ≤ c.toNat ∧ c ≠ '"' ∧ c ≠ '\\'

instance (c : Char) : Decidable (Plain c) := inferInstanceAs (Decidable (_ ∧ _))

/-- No character of the text needs an escape. -/
def Clean (text : List Char) : Prop := ∀ c ∈ text, Plain c

instance (text : List Char) : Decidable (Clean text) := List.decidableBAll Plain text

/-- What a backslash and a character stand for. -/
def escaped : Char → Option Char
  | '"' => some '"'
  | '\\' => some '\\'
  | '/' => some '/'
  | 'b' => some (Char.ofNat 8)
  | 'f' => some (Char.ofNat 12)
  | 'n' => some '\n'
  | 'r' => some '\r'
  | 't' => some '\t'
  | _ => none

/-- The value of a hexadecimal digit. -/
def hexDigit (c : Char) : Option Nat :=
  if '0' ≤ c ∧ c ≤ '9' then some (c.toNat - 48)
  else if 'a' ≤ c ∧ c ≤ 'f' then some (c.toNat - 87)
  else if 'A' ≤ c ∧ c ≤ 'F' then some (c.toNat - 55)
  else none

/-- The value of four hexadecimal digits. -/
def hexFour : List Char → Option Nat
  | [a, b, c, d] => do
      return (((← hexDigit a) * 16 + (← hexDigit b)) * 16 + (← hexDigit c)) * 16 + (← hexDigit d)
  | _ => none

/-- What stands between the quotes of a string, and the text that it stands for. -/
inductive StringBody : List Char → List Char → Prop
  | nil : StringBody [] []
  | plain {c body text} : Plain c → StringBody body text → StringBody (c :: body) (c :: text)
  | escape {c d body text} : escaped c = some d → StringBody body text →
      StringBody ('\\' :: c :: body) (d :: text)
  | unicode {digits n body text} : hexFour digits = some n → n.isValidChar → StringBody body text →
      StringBody ('\\' :: 'u' :: digits ++ body) (Char.ofNat n :: text)
  | surrogates {high m low n body text} : hexFour high = some (0xD800 + m) → m < 0x400 →
      hexFour low = some (0xDC00 + n) → n < 0x400 → StringBody body text →
      StringBody ('\\' :: 'u' :: high ++ '\\' :: 'u' :: low ++ body)
        (Char.ofNat (0x10000 + m * 0x400 + n) :: text)

/-- A string stands behind its opening quote. -/
def ReadsString (text s r : List Char) : Prop := ∃ body, s = body ++ '"' :: r ∧ StringBody body text

theorem quote_notMem_hexFour {digits : List Char} {n : Nat} (h : hexFour digits = some n) :
    '"' ∉ digits := by
  have hquote : hexDigit '"' = none := by decide
  unfold hexFour at h
  split at h
  · next a b c d =>
    intro hmem
    simp only [List.mem_cons, List.not_mem_nil, or_false] at hmem
    rcases hmem with rfl | rfl | rfl | rfl <;> simp [hquote, Option.bind_eq_bind] at h
  · cases h

theorem StringBody.length_le {body text : List Char} (h : StringBody body text) :
    text.length ≤ body.length := by
  induction h with
  | nil => exact Nat.le_refl 0
  | plain _ _ ih => exact Nat.succ_le_succ ih
  | escape _ _ ih =>
    simp only [List.length_cons]
    omega
  | unicode _ _ _ ih =>
    simp only [List.length_cons, List.length_append]
    omega
  | surrogates _ _ _ _ _ ih =>
    simp only [List.length_cons, List.length_append]
    omega

/-- A quote between the quotes is escaped, and stands for a quote. -/
theorem StringBody.count_quote_le {body text : List Char} (h : StringBody body text) :
    body.count '"' ≤ text.count '"' := by
  induction h with
  | nil => exact Nat.le_refl _
  | @plain c body text hc _ ih =>
    rw [List.count_cons_of_ne hc.2.1, List.count_cons_of_ne hc.2.1]
    exact ih
  | @escape c d body text hc _ ih =>
    rw [List.count_cons_of_ne (by decide)]
    by_cases hquote : c = '"'
    · rw [hquote] at hc ⊢
      rw [← Option.some.inj hc, List.count_cons_self, List.count_cons_self]
      exact Nat.succ_le_succ ih
    · rw [List.count_cons_of_ne hquote]
      exact Nat.le_trans ih List.count_le_count_cons
  | unicode hdigits _ _ ih =>
    have hnone := List.count_eq_zero.mpr (quote_notMem_hexFour hdigits)
    simp only [List.cons_append, List.count_append,
      List.count_cons_of_ne (show ('\\' : Char) ≠ '"' by decide),
      List.count_cons_of_ne (show ('u' : Char) ≠ '"' by decide), hnone, Nat.zero_add]
    exact Nat.le_trans ih List.count_le_count_cons
  | surrogates hhigh _ hlow _ _ ih =>
    have hnone := List.count_eq_zero.mpr (quote_notMem_hexFour hhigh)
    have hnone' := List.count_eq_zero.mpr (quote_notMem_hexFour hlow)
    simp only [List.cons_append, List.count_append,
      List.count_cons_of_ne (show ('\\' : Char) ≠ '"' by decide),
      List.count_cons_of_ne (show ('u' : Char) ≠ '"' by decide), hnone, hnone', Nat.zero_add]
    exact Nat.le_trans ih List.count_le_count_cons

/-- Without a character to spare there is no escape. -/
theorem StringBody.eq_of_length {body text : List Char} (h : StringBody body text)
    (hlength : body.length = text.length) : body = text ∧ Clean text := by
  induction h with
  | nil => exact ⟨rfl, fun c hc => absurd hc List.not_mem_nil⟩
  | @plain c body text hc _ ih =>
    obtain ⟨heq, hclean⟩ := ih (Nat.succ.inj hlength)
    exact ⟨by rw [heq], List.forall_mem_cons.mpr ⟨hc, hclean⟩⟩
  | escape _ hbody _ =>
    have := hbody.length_le
    simp only [List.length_cons] at hlength
    omega
  | unicode _ _ hbody _ =>
    have := hbody.length_le
    simp only [List.length_cons, List.length_append] at hlength
    omega
  | surrogates _ _ _ _ hbody _ =>
    have := hbody.length_le
    simp only [List.length_cons, List.length_append] at hlength
    omega

theorem stringBody_of_clean {text : List Char} (h : Clean text) : StringBody text text := by
  induction text with
  | nil => exact .nil
  | cons c text ih =>
    obtain ⟨hc, htext⟩ := List.forall_mem_cons.mp h
    exact .plain hc (ih htext)

/-- **A text between quotes reads as itself exactly when it needs no escape.** The
closing quote cannot be taken for an escaped one: there would be one more quote
between the quotes than the text has. -/
theorem readsString_iff {text s r : List Char} :
    ReadsString text (text ++ '"' :: s) r ↔ Clean text ∧ r = s := by
  constructor
  · rintro ⟨body, heq, hbody⟩
    have hlength := hbody.length_le
    rcases List.append_eq_append_iff.mp heq with ⟨more, rfl, hmore⟩ | ⟨more, rfl, hmore⟩
    · cases more with
      | nil =>
        rw [List.append_nil] at hbody
        exact ⟨(hbody.eq_of_length rfl).2, (List.cons.inj hmore).2.symm⟩
      | cons c more =>
        obtain ⟨rfl, -⟩ := List.cons.inj hmore
        have hcount := hbody.count_quote_le
        rw [List.count_append, List.count_cons_self] at hcount
        omega
    · cases more with
      | nil =>
        rw [List.append_nil] at hbody ⊢
        exact ⟨(hbody.eq_of_length rfl).2, (List.cons.inj hmore).2⟩
      | cons c more =>
        rw [List.length_append, List.length_cons] at hlength
        omega
  · rintro ⟨hclean, rfl⟩
    exact ⟨text, rfl, stringBody_of_clean hclean⟩

/-! ## 2. Numbers -/

/-- A digit or more. -/
def IsDigits (text : List Char) : Prop := text ≠ [] ∧ ∀ c ∈ text, c.isDigit = true

/-- The digits of a whole number, of which the first is a zero only alone. -/
def IsWhole (text : List Char) : Prop := IsDigits text ∧ (text.head? = some '0' → text = ['0'])

/-- A sign, whole digits, a fraction and an exponent. -/
def IsNumber (text : List Char) : Prop :=
  ∃ sign whole fraction exponent, text = sign ++ (whole ++ (fraction ++ exponent)) ∧
    (sign = [] ∨ sign = ['-']) ∧ IsWhole whole ∧
    (fraction = [] ∨ ∃ digits, fraction = '.' :: digits ∧ IsDigits digits) ∧
    (exponent = [] ∨ ∃ e sign digits, exponent = e :: (sign ++ digits) ∧ (e = 'e' ∨ e = 'E') ∧
      (sign = [] ∨ sign = ['-'] ∨ sign = ['+']) ∧ IsDigits digits)

/-- The characters of a number. -/
def IsNumberChar (c : Char) : Prop := c.isDigit = true ∨ c ∈ ['-', '+', '.', 'e', 'E']

instance (c : Char) : Decidable (IsNumberChar c) := inferInstanceAs (Decidable (_ ∨ _))

theorem IsNumber.chars {text : List Char} (h : IsNumber text) : ∀ c ∈ text, IsNumberChar c := by
  obtain ⟨sign, whole, fraction, exponent, rfl, hsign, ⟨⟨-, hwhole⟩, -⟩, hfraction, hexponent⟩ := h
  intro c hc
  rcases List.mem_append.mp hc with hc | hc
  · rcases hsign with rfl | rfl
    · exact absurd hc List.not_mem_nil
    · rw [List.mem_singleton.mp hc]
      decide
  rcases List.mem_append.mp hc with hc | hc
  · exact .inl (hwhole c hc)
  rcases List.mem_append.mp hc with hc | hc
  · rcases hfraction with rfl | ⟨digits, rfl, -, hdigits⟩
    · exact absurd hc List.not_mem_nil
    · rcases List.mem_cons.mp hc with rfl | hc
      · decide
      · exact .inl (hdigits c hc)
  · rcases hexponent with rfl | ⟨e, sign, digits, rfl, he, hsign, -, hdigits⟩
    · exact absurd hc List.not_mem_nil
    · rcases List.mem_cons.mp hc with rfl | hc
      · rcases he with rfl | rfl <;> decide
      rcases List.mem_append.mp hc with hc | hc
      · rcases hsign with rfl | rfl | rfl
        · exact absurd hc List.not_mem_nil
        · rw [List.mem_singleton.mp hc]
          decide
        · rw [List.mem_singleton.mp hc]
          decide
      · exact .inl (hdigits c hc)

theorem IsNumber.ne_nil {text : List Char} (h : IsNumber text) : text ≠ [] := by
  obtain ⟨sign, whole, fraction, exponent, rfl, -, ⟨⟨hne, -⟩, -⟩, -⟩ := h
  intro hnil
  exact hne (List.append_eq_nil_iff.mp (List.append_eq_nil_iff.mp hnil).2).1

/-! ## 3. Values -/

def IsBlank (c : Char) : Prop := c ∈ [' ', '\t', '\n', '\r']

instance (c : Char) : Decidable (IsBlank c) := inferInstanceAs (Decidable (_ ∈ _))

/-- Blanks in front of a text are passed over. -/
def Skips (s r : List Char) : Prop := ∃ blanks, (∀ c ∈ blanks, IsBlank c) ∧ s = blanks ++ r

mutual

/-- A value stands in front of the text `s`, and `r` follows it. -/
inductive Reads : Json → List Char → List Char → Prop
  | null {s r} : s = ['n', 'u', 'l', 'l'] ++ r → Reads .null s r
  | true {s r} : s = ['t', 'r', 'u', 'e'] ++ r → Reads (.bool true) s r
  | false {s r} : s = ['f', 'a', 'l', 's', 'e'] ++ r → Reads (.bool false) s r
  | number {n s r} : IsNumber n → s = n ++ r → Reads (.number n) s r
  | string {text s r} : ReadsString text s r → Reads (.string text) ('"' :: s) r
  | noItem {s r} : Skips s (']' :: r) → Reads (.array []) ('[' :: s) r
  | array {vs s r} : ReadsItems vs s r → Reads (.array vs) ('[' :: s) r
  | noMember {s r} : Skips s ('}' :: r) → Reads (.object []) ('{' :: s) r
  | object {ms s r} : ReadsMembers ms s r → Reads (.object ms) ('{' :: s) r

/-- The items of an array, and its closing bracket. -/
inductive ReadsItems : List Json → List Char → List Char → Prop
  | last {v s s' t r} : Skips s s' → Reads v s' t → Skips t (']' :: r) → ReadsItems [v] s r
  | more {v vs s s' t u r} : Skips s s' → Reads v s' t → Skips t (',' :: u) → ReadsItems vs u r →
      ReadsItems (v :: vs) s r

/-- A member of an object. -/
inductive ReadsMember : List Char × Json → List Char → List Char → Prop
  | mk {name v s s' t u u' r} : Skips s ('"' :: s') → ReadsString name s' t → Skips t (':' :: u) →
      Skips u u' → Reads v u' r → ReadsMember (name, v) s r

/-- The members of an object, and its closing brace. -/
inductive ReadsMembers : List (List Char × Json) → List Char → List Char → Prop
  | last {m s t r} : ReadsMember m s t → Skips t ('}' :: r) → ReadsMembers [m] s r
  | more {m ms s t u r} : ReadsMember m s t → Skips t (',' :: u) → ReadsMembers ms u r →
      ReadsMembers (m :: ms) s r

end

/-- The text is a single value, with blanks around it. -/
def IsText (v : Json) (text : List Char) : Prop := ∃ s r, Skips text s ∧ Reads v s r ∧ Skips r []

theorem skips_self (s : List Char) : Skips s s := ⟨[], fun _ hc => absurd hc List.not_mem_nil, rfl⟩

/-- In front of a character that is no blank there is nothing to pass over. -/
theorem skips_cons {c : Char} {s r : List Char} (hc : ¬ IsBlank c) : Skips (c :: s) r ↔ r = c :: s := by
  constructor
  · rintro ⟨blanks, hblanks, heq⟩
    cases blanks with
    | nil => exact heq.symm
    | cons b blanks =>
      rw [(List.cons.inj heq).1] at hc
      exact absurd (hblanks b List.mem_cons_self) hc
  · rintro rfl
    exact skips_self _

theorem skips_blank {c d : Char} {s r : List Char} (hc : IsBlank c) (hd : ¬ IsBlank d) :
    Skips (c :: s) (d :: r) ↔ Skips s (d :: r) := by
  constructor
  · rintro ⟨blanks, hblanks, heq⟩
    cases blanks with
    | nil =>
      rw [(List.cons.inj heq).1] at hc
      exact absurd hc hd
    | cons b blanks =>
      exact ⟨blanks, fun x hx => hblanks x (List.mem_cons_of_mem _ hx), (List.cons.inj heq).2⟩
  · rintro ⟨blanks, hblanks, rfl⟩
    exact ⟨c :: blanks, List.forall_mem_cons.mpr ⟨hc, hblanks⟩, rfl⟩

/-! ## 4. Pieces of a text -/

/-- The text reads as the value, whatever follows it, under a condition and not
otherwise. -/
structure Writes (text : List Char) (v : Json) (P : Prop) : Prop where
  reads : ∀ s r, Reads v (text ++ s) r ↔ P ∧ r = s
  head : ∃ c rest, text = c :: rest ∧ ¬ IsBlank c

/-- The text reads as members of an object, whatever members follow it, and
before the closing brace. -/
structure WritesMembers (text : List Char) (ms : List (List Char × Json)) (P : Prop) : Prop where
  more : ∀ others s r,
    ReadsMembers (ms ++ others) (text ++ ',' :: s) r ↔ P ∧ ReadsMembers others s r
  last : ∀ s r, ReadsMembers ms (text ++ '}' :: s) r ↔ P ∧ r = s

/-- A text between quotes. -/
def quoted (text : List Char) : List Char := '"' :: (text ++ ['"'])

theorem quoted_append (text s : List Char) : quoted text ++ s = '"' :: (text ++ '"' :: s) := by
  simp [quoted]

theorem writes_string (text : List Char) : Writes (quoted text) (.string text) (Clean text) where
  reads s r := by
    rw [← readsString_iff (s := s), quoted_append]
    constructor
    · intro h
      cases h with
      | string h => exact h
    · exact Reads.string
  head := ⟨'"', _, rfl, by decide⟩

/-- A text without blanks is a number when it is one. -/
theorem writes_number {text : List Char} (hne : text ≠ []) (hblank : ∀ c ∈ text, ¬ IsBlank c) :
    Writes text (.number text) (IsNumber text) where
  reads s r := by
    constructor
    · intro h
      cases h with
      | number hn heq => exact ⟨hn, (List.append_cancel_left heq).symm⟩
    · rintro ⟨hn, rfl⟩
      exact .number hn rfl
  head := by
    obtain ⟨c, rest, heq⟩ := List.exists_cons_of_ne_nil hne
    exact ⟨c, rest, heq, hblank c (heq ▸ List.mem_cons_self)⟩

theorem IsNumber.writes {text : List Char} (h : IsNumber text) : Writes text (.number text) True := by
  have hblank : ∀ c ∈ text, ¬ IsBlank c := by
    intro c hc hblank
    rcases h.chars c hc with hdigit | hmem
    · simp only [IsBlank, List.mem_cons, List.not_mem_nil, or_false] at hblank
      rcases hblank with rfl | rfl | rfl | rfl <;> exact absurd hdigit (by decide)
    · simp only [List.mem_cons, List.not_mem_nil, or_false] at hmem
      rcases hmem with rfl | rfl | rfl | rfl | rfl <;> exact absurd hblank (by decide)
  have hwrites := writes_number h.ne_nil hblank
  exact ⟨fun s r => (hwrites.reads s r).trans (and_congr_left' (iff_true_intro h)), hwrites.head⟩

theorem Writes.skips {text : List Char} {v : Json} {P : Prop} (h : Writes text v P) {s t : List Char} :
    Skips (text ++ s) t ↔ t = text ++ s := by
  obtain ⟨c, rest, rfl, hc⟩ := h.head
  exact skips_cons hc

/-- A member with the name between quotes. -/
theorem Writes.readsMember {text : List Char} {v : Json} {P : Prop} (h : Writes text v P)
    (name s r : List Char) :
    ReadsMember (name, v) (quoted name ++ ':' :: text ++ s) r ↔ (Clean name ∧ P) ∧ r = s := by
  rw [List.append_assoc, List.cons_append, quoted_append]
  constructor
  · intro hmember
    cases hmember with
    | mk hquote hname hcolon hskip hvalue =>
      obtain rfl := (List.cons.inj ((skips_cons (by decide)).mp hquote)).2
      obtain ⟨hclean, rfl⟩ := readsString_iff.mp hname
      obtain rfl := (List.cons.inj ((skips_cons (by decide)).mp hcolon)).2
      obtain rfl := h.skips.mp hskip
      obtain ⟨hP, hr⟩ := (h.reads s r).mp hvalue
      exact ⟨⟨hclean, hP⟩, hr⟩
  · rintro ⟨⟨hclean, hP⟩, rfl⟩
    exact .mk (skips_self _) (readsString_iff.mpr ⟨hclean, rfl⟩) (skips_self _) (skips_self _)
      ((h.reads r r).mpr ⟨hP, rfl⟩)

theorem readsMembers_cons_more {m : List Char × Json} {ms : List (List Char × Json)} {text s r : List Char}
    {P : Prop} (h : ∀ s r, ReadsMember m (text ++ s) r ↔ P ∧ r = s) :
    ReadsMembers (m :: ms) (text ++ ',' :: s) r ↔ P ∧ ReadsMembers ms s r := by
  constructor
  · intro hmembers
    cases hmembers with
    | last hm hskip =>
      obtain ⟨-, rfl⟩ := (h _ _).mp hm
      exact absurd ((skips_cons (by decide)).mp hskip) (by simp)
    | more hm hskip hms =>
      obtain ⟨hP, rfl⟩ := (h _ _).mp hm
      obtain rfl := (List.cons.inj ((skips_cons (by decide)).mp hskip)).2
      exact ⟨hP, hms⟩
  · rintro ⟨hP, hms⟩
    exact .more ((h _ _).mpr ⟨hP, rfl⟩) (skips_self _) hms

theorem readsMembers_singleton {m : List Char × Json} {text s r : List Char} {P : Prop}
    (h : ∀ s r, ReadsMember m (text ++ s) r ↔ P ∧ r = s) :
    ReadsMembers [m] (text ++ '}' :: s) r ↔ P ∧ r = s := by
  constructor
  · intro hmembers
    cases hmembers with
    | last hm hskip =>
      obtain ⟨hP, rfl⟩ := (h _ _).mp hm
      exact ⟨hP, (List.cons.inj ((skips_cons (by decide)).mp hskip)).2⟩
    | more hm hskip hms =>
      obtain ⟨-, rfl⟩ := (h _ _).mp hm
      exact absurd ((skips_cons (by decide)).mp hskip) (by simp)
  · rintro ⟨hP, rfl⟩
    exact .last ((h _ _).mpr ⟨hP, rfl⟩) (skips_self _)

theorem Writes.member {text : List Char} {v : Json} {P : Prop} (h : Writes text v P)
    (name : List Char) :
    WritesMembers (quoted name ++ ':' :: text) [(name, v)] (Clean name ∧ P) where
  more _ _ _ := readsMembers_cons_more (h.readsMember name)
  last _ _ := readsMembers_singleton (h.readsMember name)

/-- **Members and members, with a comma between them.** -/
theorem WritesMembers.append {text text' : List Char} {ms ms' : List (List Char × Json)} {P P' : Prop}
    (h : WritesMembers text ms P) (h' : WritesMembers text' ms' P') :
    WritesMembers (text ++ ',' :: text') (ms ++ ms') (P ∧ P') where
  more others s r := by
    rw [List.append_assoc, List.append_assoc, List.cons_append, h.more, h'.more, and_assoc]
  last s r := by
    rw [List.append_assoc, List.cons_append, h.more, h'.last, and_assoc]

/-- A blank in front of the first member. -/
theorem WritesMembers.blank {text : List Char} {ms : List (List Char × Json)} {P : Prop}
    (h : WritesMembers text ms P) : WritesMembers (' ' :: text) ms P := by
  have hmember : ∀ m s r, ReadsMember m (' ' :: s) r ↔ ReadsMember m s r := by
    intro m s r
    constructor
    · intro hm
      cases hm with
      | mk hquote hname hcolon hskip hvalue =>
        exact .mk ((skips_blank (by decide) (by decide)).mp hquote) hname hcolon hskip hvalue
    · intro hm
      cases hm with
      | mk hquote hname hcolon hskip hvalue =>
        exact .mk ((skips_blank (by decide) (by decide)).mpr hquote) hname hcolon hskip hvalue
  have hmembers : ∀ ms s r, ReadsMembers ms (' ' :: s) r ↔ ReadsMembers ms s r := by
    intro ms s r
    constructor
    · intro hms
      cases hms with
      | last hm hskip => exact .last ((hmember _ _ _).mp hm) hskip
      | more hm hskip hms => exact .more ((hmember _ _ _).mp hm) hskip hms
    · intro hms
      cases hms with
      | last hm hskip => exact .last ((hmember _ _ _).mpr hm) hskip
      | more hm hskip hms => exact .more ((hmember _ _ _).mpr hm) hskip hms
  exact ⟨fun others s r => (hmembers _ _ _).trans (h.more others s r),
    fun s r => (hmembers _ _ _).trans (h.last s r)⟩

/-- **The members between braces are an object.** -/
theorem WritesMembers.object {text : List Char} {ms : List (List Char × Json)} {P : Prop}
    (h : WritesMembers text ms P) (hne : ms ≠ []) :
    Writes ('{' :: text ++ ['}']) (.object ms) P where
  reads s r := by
    rw [← h.last s r, List.append_assoc, List.cons_append]
    constructor
    · intro hobject
      cases hobject with
      | noMember => exact absurd rfl hne
      | object hms => exact hms
    · exact Reads.object
  head := ⟨'{', _, rfl, by decide⟩

theorem writes_noMember : Writes ['{', '}'] (.object []) True where
  reads s r := by
    rw [true_and]
    constructor
    · intro hobject
      cases hobject with
      | noMember hskip => exact (List.cons.inj ((skips_cons (by decide)).mp hskip)).2
      | object hms => cases hms
    · rintro rfl
      exact .noMember (skips_self _)
  head := ⟨'{', _, rfl, by decide⟩

/-- The items of an array and its closing bracket are an array. -/
theorem writes_array {text : List Char} {vs : List Json} {P : Prop} (hne : vs ≠ [])
    (h : ∀ s r, ReadsItems vs (text ++ ']' :: s) r ↔ P ∧ r = s) :
    Writes ('[' :: text ++ [']']) (.array vs) P where
  reads s r := by
    rw [← h s r, List.append_assoc, List.cons_append]
    constructor
    · intro harray
      cases harray with
      | noItem => exact absurd rfl hne
      | array hvs => exact hvs
    · exact Reads.array
  head := ⟨'[', _, rfl, by decide⟩

/-- A text alone. -/
theorem Writes.isText {text : List Char} {v : Json} {P : Prop} (h : Writes text v P) :
    IsText v text ↔ P := by
  constructor
  · rintro ⟨s, r, hskip, hreads, -⟩
    rw [← List.append_nil text] at hskip
    rw [h.skips.mp hskip] at hreads
    exact ((h.reads _ _).mp hreads).1
  · intro hP
    refine ⟨text, [], skips_self _, ?_, skips_self _⟩
    have hreads := (h.reads [] []).mpr ⟨hP, rfl⟩
    rwa [List.append_nil] at hreads

end Json

end NavigationServer.Lib
