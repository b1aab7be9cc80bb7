/-
NavigationServer.Network.SplitResponseTheorems — a response and its parameters.

`splitResponse_iff`: the parameters come back exactly when every empty one
stands behind a quoted one and before another parameter. Behind a quoted string
the comma is still to be read, and two commas in a row are an empty parameter;
behind any other parameter its comma is gone, so an empty one leaves a single
comma that is skipped. At the end of the response an empty parameter leaves
nothing, or a comma with no character behind it, which is an `IndexError`.

`scanText` is the loop on what is left of the response in place of an index.
-/
import NavigationServer.Lib.Lists
import NavigationServer.Network.UsbModemAtLib

namespace NavigationServer.Network

open NavigationServer.Lib

/-! ## 1. Parameters -/

/-- A parameter as the modem sends it. -/
inductive AtParam where
  | integer (n : Nat)
  | quoted (text : Bytes) (clean : ∀ c ∈ text, c < 128 ∧ c ≠ quote)
  | word (text : Bytes) (ne : text ≠ []) (clean : ∀ c ∈ text, c < 128 ∧ c ≠ comma ∧ c ≠ quote)
  | empty

namespace AtParam

/-- Its text in the response. -/
def text : AtParam → Bytes
  | .integer n => decimal n
  | .quoted s _ => quote :: (s ++ [quote])
  | .word w _ _ => w
  | .empty => []

/-- A text of digits is a number. -/
def ofText (s : Bytes) : AtValue :=
  if s ≠ [] ∧ s.all isDigit = true then .int (decValue s) else .str s

/-- What it stands for. -/
def value : AtParam → AtValue
  | .integer n => .int n
  | .quoted s _ => ofText s
  | .word w _ _ => ofText w
  | .empty => .str []

/-- The parameters joined with commas. -/
def joined (params : List AtParam) : Bytes := [comma].intercalate (params.map text)

/-- The response to a command. -/
def response (cmd : Bytes) (params : List AtParam) : Bytes := cmd ++ 58 :: 32 :: joined params

/-- Every empty parameter stands right behind a quoted one, and is not the last
one. -/
def EmptiesFramed (params : List AtParam) : Prop :=
  ∀ front back, params = front ++ .empty :: back →
    back ≠ [] ∧ ∃ s h, front.getLast? = some (.quoted s h)

end AtParam

/-! ## 2. The loop on texts -/

/-- A turn of the loop on what is left of the response. -/
def turnText : Bytes → Option (Option Bytes × Bytes)
  | [] => none
  | c :: text =>
      if c = quote then
        (text.idxOf? quote).map (fun k => (some (text.take k), text.drop (k + 1)))
      else if c = comma then
        text.head?.map (fun d => if d = comma then (some [], text.tail) else (none, text))
      else
        some (((c :: text).idxOf? comma).elim (some (c :: text), [])
          (fun k => (some ((c :: text).take k), (c :: text).drop (k + 1))))

def scanText : Nat → Bytes → Option (List AtValue)
  | 0, _ => some []
  | fuel + 1, text =>
      if text = [] then some []
      else (turnText text).bind fun r =>
        (scanText fuel r.2).map ((r.1.map decodeParam).toList ++ ·)

theorem find_of_drop {resp text : Bytes} {index : Nat} (h : resp.drop index = text) (c : UInt8) :
    find resp c index = (text.idxOf? c).map (index + ·) := by
  rw [find, h]

theorem slice_of_drop {resp text : Bytes} {index : Nat} (h : resp.drop index = text) (k : Nat) :
    slice resp index ((index + k : Nat) : Int) = text.take k := by
  rw [slice_natCast, h, Nat.add_sub_cancel_left]

theorem item_of_drop {resp text : Bytes} {index : Nat} {c : UInt8}
    (h : resp.drop index = c :: text) : item resp index = .ok c := by
  have hc : resp[index]? = some c := by
    rw [← List.head?_drop, h]
    rfl
  rw [item, hc]

theorem drop_add {resp text : Bytes} {index : Nat} (h : resp.drop index = text) (k : Nat) :
    resp.drop (index + k) = text.drop k := by
  rw [← h, List.drop_drop]

/-- A turn of the loop reads what is left only. -/
theorem turn_of_drop {resp text : Bytes} {index : Nat} (h : resp.drop index = text)
    (hne : text ≠ []) :
    match turnText text with
    | none => ∃ e, turn resp index = .error e
    | some (s, rest) => ∃ next, turn resp index = .ok (s, next) ∧ resp.drop next = rest := by
  rcases text with _ | ⟨c, text⟩
  · exact absurd rfl hne
  have hnext : resp.drop (index + 1) = text := drop_add h 1
  simp only [turn, item_of_drop h, turnText, bind, Except.bind]
  by_cases hquote : c = quote
  · -- up to the closing quote
    simp only [if_pos hquote, find_of_drop hnext]
    cases hk : text.idxOf? quote with
    | none => exact ⟨_, rfl⟩
    | some k =>
      refine ⟨index + 1 + k + 1, ?_, ?_⟩
      · have hslice := slice_of_drop hnext k
        push_cast at hslice
        simp [hslice, pure, Except.pure]
      · rw [Nat.add_assoc, drop_add hnext]
  · simp only [if_neg hquote]
    by_cases hcomma : c = comma
    · simp only [if_pos hcomma]
      rcases text with _ | ⟨d, rest⟩
      · have hend : item resp (index + 1) = .error .indexError := by
          rw [item, ← List.head?_drop, hnext]
          rfl
        exact ⟨_, by rw [hend]⟩
      · rw [item_of_drop hnext]
        by_cases hd : d = comma
        · simp only [List.head?_cons, Option.map_some, if_pos hd, List.tail_cons]
          exact ⟨_, rfl, drop_add h 2⟩
        · simp only [List.head?_cons, Option.map_some, if_neg hd]
          exact ⟨_, rfl, hnext⟩
    · -- up to the next comma
      simp only [if_neg hcomma, find_of_drop h]
      cases hk : (c :: text).idxOf? comma with
      | none => exact ⟨_, by rw [← h]; rfl, by simp⟩
      | some k =>
        refine ⟨index + k + 1, ?_, ?_⟩
        · have hslice := slice_of_drop h k
          push_cast at hslice
          simp [hslice, pure, Except.pure]
        · rw [Nat.add_assoc, drop_add h]
          rfl

/-- The loop reads what is left only. -/
theorem scan_of_drop {resp text : Bytes} {index fuel : Nat} (h : resp.drop index = text) :
    (scan resp fuel index).toOption = scanText fuel text := by
  induction fuel generalizing index text with
  | zero => rfl
  | succ fuel ih =>
    rw [scan, scanText]
    by_cases htext : text = []
    · rw [if_pos htext, if_neg (by rw [htext, List.drop_eq_nil_iff] at h; omega)]
      rfl
    · have hlt : index < resp.length := by
        by_contra hge
        exact htext (h ▸ List.drop_eq_nil_iff.mpr (by omega))
      rw [if_neg htext, if_pos hlt]
      have hturn := turn_of_drop h htext
      cases hr : turnText text with
      | none =>
        rw [hr] at hturn
        obtain ⟨e, he⟩ := hturn
        rw [he]
        rfl
      | some r =>
        rw [hr] at hturn
        obtain ⟨next, hok, hdrop⟩ := hturn
        rw [hok, Option.bind_some, ← ih hdrop]
        cases hrest : scan resp fuel next with
        | error e => simp [bind, Except.bind, Except.toOption, hrest]
        | ok param => simp [bind, Except.bind, Except.toOption, hrest, pure, Except.pure]

/-! ## 3. One parameter -/

namespace AtParam

theorem decodeParam_eq (s : Bytes) : decodeParam s = ofText s := by
  rw [decodeParam, ofText, isdigit]
  cases s <;> simp

/-- What the loop makes of the text of a parameter. -/
def content : AtParam → Bytes
  | .integer n => decimal n
  | .quoted s _ => s
  | .word w _ _ => w
  | .empty => []

theorem decodeParam_content (p : AtParam) : decodeParam p.content = p.value := by
  cases p with
  | integer n =>
    have hdigits : (decimal n).all isDigit = true :=
      List.all_eq_true.mpr fun _ hc => isDigit_of_mem_decimal hc
    rw [content, decodeParam_eq, ofText, if_pos ⟨decimal_ne_nil n, hdigits⟩, decValue_decimal]
    rfl
  | quoted s h => exact decodeParam_eq s
  | word w hne h => exact decodeParam_eq w
  | empty => rfl

/-- What follows a parameter. -/
def behind : List AtParam → Bytes
  | [] => []
  | p :: params => comma :: joined (p :: params)

theorem joined_cons (p : AtParam) (params : List AtParam) :
    joined (p :: params) = p.text ++ behind params := by
  cases params with
  | nil => simp [joined, behind]
  | cons q params => simp [joined, behind, List.intercalate]

/-- An empty parameter leaves the comma behind it. -/
theorem joined_empty (params : List AtParam) : joined (.empty :: params) = behind params :=
  joined_cons .empty params

def isQuoted : AtParam → Bool
  | .quoted _ _ => true
  | _ => false

/-- Where the loop goes on behind a parameter: the comma behind a quoted string
is still there. -/
def rest (p : AtParam) (params : List AtParam) : Bytes :=
  if p.isQuoted then behind params else joined params

theorem turnText_quoted {s : Bytes} (h : quote ∉ s) (rest : Bytes) :
    turnText (quote :: (s ++ quote :: rest)) = some (some s, rest) := by
  rw [turnText, if_pos rfl, idxOf?_append_cons h, Option.map_some, List.take_left,
    List.append_cons, List.drop_left' (by simp)]

theorem turnText_plain {w : Bytes} (hne : w ≠ []) (hquote : quote ∉ w) (hcomma : comma ∉ w)
    (params : List AtParam) :
    turnText (w ++ behind params) = some (some w, joined params) := by
  rcases w with _ | ⟨c, w⟩
  · exact absurd rfl hne
  have hc : c ≠ quote := fun hc => hquote (hc ▸ List.mem_cons_self ..)
  have hc' : c ≠ comma := fun hc => hcomma (hc ▸ List.mem_cons_self ..)
  rw [List.cons_append, turnText, if_neg hc, if_neg hc', ← List.cons_append]
  cases params with
  | nil =>
    rw [behind, List.append_nil, List.idxOf?_eq_none_iff.mpr hcomma]
    rfl
  | cons q params =>
    rw [behind, idxOf?_append_cons hcomma, Option.elim_some, List.take_left, List.append_cons,
      List.drop_left' (by simp)]

/-- A parameter with a text is found in one turn. -/
theorem turnText_joined {p : AtParam} (hp : p ≠ .empty) (params : List AtParam) :
    turnText (joined (p :: params)) = some (some p.content, p.rest params) := by
  rw [joined_cons]
  cases p with
  | integer n =>
    have hdigit : ∀ c ∈ decimal n, isDigit c = true := fun _ hc => isDigit_of_mem_decimal hc
    exact turnText_plain (decimal_ne_nil n) (fun h => absurd (hdigit _ h) (by decide))
      (fun h => absurd (hdigit _ h) (by decide)) params
  | quoted s h =>
    have hquote : quote ∉ s := fun hmem => (h quote hmem).2 rfl
    rw [text, List.cons_append, List.append_assoc, List.singleton_append, turnText_quoted hquote]
    rfl
  | word w hne h =>
    exact turnText_plain hne (fun hmem => (h quote hmem).2.2 rfl) (fun hmem => (h comma hmem).2.1 rfl)
      params
  | empty => exact absurd rfl hp

/-! ## 4. The parameters -/

theorem text_ne_nil {p : AtParam} (hp : p ≠ .empty) : p.text ≠ [] := by
  cases p with
  | integer n => exact decimal_ne_nil n
  | quoted s h => simp [text]
  | word w hne h => exact hne
  | empty => exact absurd rfl hp

theorem length_rest_lt {p : AtParam} (hp : p ≠ .empty) (params : List AtParam) :
    (p.rest params).length < (joined (p :: params)).length := by
  have hpos : 0 < p.text.length := List.length_pos_iff.mpr (text_ne_nil hp)
  have hle : (joined params).length ≤ (behind params).length := by
    cases params with
    | nil => simp [joined, behind]
    | cons q params => simp [behind]
  rw [joined_cons, List.length_append, rest]
  split <;> omega

@[simp] theorem scanText_nil (fuel : Nat) : scanText fuel [] = some [] := by
  cases fuel <;> rfl

/-- The loop over a parameter with a text. -/
theorem scanText_joined {p : AtParam} (hp : p ≠ .empty) (params : List AtParam) (fuel : Nat) :
    scanText (fuel + 1) (joined (p :: params))
      = (scanText fuel (p.rest params)).map (p.value :: ·) := by
  have hne : joined (p :: params) ≠ [] := by
    intro hnil
    have := length_rest_lt hp params
    rw [hnil] at this
    simp at this
  rw [scanText, if_neg hne, turnText_joined hp, Option.bind_some]
  simp [decodeParam_content]

/-- A parameter with a text does not start with a comma. -/
theorem joined_head {p : AtParam} (hp : p ≠ .empty) (params : List AtParam) :
    ∃ d text, joined (p :: params) = d :: text ∧ d ≠ comma := by
  rcases htext : p.text with _ | ⟨d, text⟩
  · exact absurd htext (text_ne_nil hp)
  refine ⟨d, text ++ behind params, by rw [joined_cons, htext]; rfl, ?_⟩
  have hmem : d ∈ p.text := htext ▸ List.mem_cons_self ..
  rintro rfl
  cases p with
  | integer n => exact absurd (isDigit_of_mem_decimal hmem) (by decide)
  | quoted s h => exact absurd (List.cons.inj htext).1 (by decide)
  | word w hne h => exact (h comma hmem).2.1 rfl
  | empty => exact absurd rfl hp

/-- The comma behind a quoted string, before a parameter with a text. -/
theorem scanText_behind {p : AtParam} (hp : p ≠ .empty) (params : List AtParam) (fuel : Nat) :
    scanText (fuel + 1) (behind (p :: params)) = scanText fuel (joined (p :: params)) := by
  obtain ⟨d, text, hjoined, hd⟩ := joined_head hp params
  rw [behind, scanText, if_neg (List.cons_ne_nil _ _), hjoined, turnText,
    if_neg (by decide), if_pos rfl, List.head?_cons, Option.map_some, if_neg hd, Option.bind_some]
  simp

/-- Before an empty one. -/
theorem scanText_behind_empty (params : List AtParam) (fuel : Nat) :
    scanText (fuel + 1) (behind (.empty :: params))
      = if params = [] then none
        else (scanText fuel (joined params)).map (.str [] :: ·) := by
  rw [behind, joined_cons, text, List.nil_append, scanText, if_neg (List.cons_ne_nil _ _), turnText,
    if_neg (by decide), if_pos rfl]
  cases params with
  | nil => rfl
  | cons q params =>
    rw [behind, List.head?_cons, Option.map_some, if_pos rfl, Option.bind_some, if_neg (by simp)]
    rfl

/-- No more parameters come out than went in. -/
theorem length_scanText_le (params : List AtParam) (fuel : Nat) (vs : List AtValue) :
    (scanText fuel (joined params) = some vs → vs.length ≤ params.length) ∧
      (scanText fuel (behind params) = some vs → vs.length ≤ params.length) := by
  induction params generalizing fuel vs with
  | nil => simp [joined, behind, eq_comm]
  | cons p params ih =>
    have hrest : ∀ fuel ws, scanText fuel (p.rest params) = some ws → ws.length ≤ params.length := by
      intro fuel ws
      rw [rest]
      split
      · exact (ih fuel ws).2
      · exact (ih fuel ws).1
    have hstart : ∀ fuel ws, scanText fuel (joined (p :: params)) = some ws →
        ws.length ≤ (p :: params).length := by
      intro fuel ws h
      by_cases hp : p = .empty
      · rw [hp, joined_empty] at h
        exact Nat.le_succ_of_le ((ih fuel ws).2 h)
      · cases fuel with
        | zero => simp_all [scanText]
        | succ fuel =>
          rw [scanText_joined hp, Option.map_eq_some_iff] at h
          obtain ⟨ws, hws, rfl⟩ := h
          exact Nat.succ_le_succ (hrest fuel ws hws)
    refine ⟨hstart fuel vs, fun h => ?_⟩
    cases fuel with
    | zero => simp_all [scanText]
    | succ fuel =>
      by_cases hp : p = .empty
      · rw [hp, scanText_behind_empty] at h
        split at h
        · cases h
        · obtain ⟨ws, hws, rfl⟩ := Option.map_eq_some_iff.mp h
          exact Nat.succ_le_succ ((ih fuel ws).1 hws)
      · rw [scanText_behind hp] at h
        exact hstart fuel vs h

/-- The condition, from left to right. -/
def Separated (behindQuoted : Bool) : List AtParam → Prop
  | [] => True
  | p :: params =>
      (p = .empty → behindQuoted = true ∧ params ≠ []) ∧ Separated p.isQuoted params

/-- **The loop over all parameters**, at the start of one and behind a quoted
one. -/
theorem scanText_iff (params : List AtParam) :
    (∀ fuel, (joined params).length ≤ fuel →
      (scanText fuel (joined params) = some (params.map value) ↔ Separated false params)) ∧
    (∀ fuel, (behind params).length ≤ fuel →
      (scanText fuel (behind params) = some (params.map value) ↔ Separated true params)) := by
  induction params with
  | nil => simp [joined, behind, Separated]
  | cons p params ih =>
    have hstart : ∀ fuel, (joined (p :: params)).length ≤ fuel →
        (scanText fuel (joined (p :: params)) = some ((p :: params).map value) ↔
          Separated false (p :: params)) := by
      intro fuel hfuel
      by_cases hp : p = .empty
      · -- the parameter is lost
        refine iff_of_false ?_ (by simp [Separated, hp])
        rw [hp, joined_empty]
        intro h
        have hle := (length_scanText_le params fuel _).2 h
        simp at hle
      · have hlt := length_rest_lt hp params
        obtain ⟨fuel, rfl⟩ : ∃ k, fuel = k + 1 := ⟨fuel - 1, by omega⟩
        rw [scanText_joined hp, List.map_cons, Option.map_eq_some_iff]
        simp only [List.cons.injEq, true_and, exists_eq_right, Separated, hp, false_implies]
        rw [rest] at hlt ⊢
        cases hq : p.isQuoted with
        | true => exact ih.2 fuel (by rw [hq, if_pos rfl] at hlt; omega)
        | false => exact ih.1 fuel (by rw [hq, if_neg (by decide)] at hlt; omega)
    refine ⟨hstart, ?_⟩
    intro fuel hfuel
    rw [behind, List.length_cons] at hfuel
    obtain ⟨fuel, rfl⟩ : ∃ k, fuel = k + 1 := ⟨fuel - 1, by omega⟩
    by_cases hp : p = .empty
    · subst hp
      have hfront : (joined params).length ≤ fuel := by
        rw [joined_empty] at hfuel
        cases params with
        | nil => simp [joined]
        | cons q params =>
          rw [behind, List.length_cons] at hfuel
          omega
      rw [scanText_behind_empty]
      by_cases hparams : params = []
      · simp [hparams, Separated]
      · rw [if_neg hparams, List.map_cons, Option.map_eq_some_iff]
        simp only [value, List.cons.injEq, true_and, exists_eq_right, Separated]
        simpa [hparams, isQuoted] using ih.1 fuel hfront
    · rw [scanText_behind hp, hstart fuel (by omega)]
      simp [Separated, hp]

/-! ## 5. The response -/

/-- The parameter before a place, if there is one, is quoted. -/
def Behind (behindQuoted : Bool) (front : List AtParam) : Prop :=
  ((front.getLast?.map isQuoted).getD behindQuoted) = true

theorem separated_iff (params : List AtParam) (behindQuoted : Bool) :
    Separated behindQuoted params ↔
      ∀ front back, params = front ++ .empty :: back → back ≠ [] ∧ Behind behindQuoted front := by
  induction params generalizing behindQuoted with
  | nil => simp [Separated]
  | cons p params ih =>
    rw [Separated, ih]
    constructor
    · rintro ⟨hp, hrest⟩ front back heq
      rcases front with _ | ⟨q, front⟩
      · obtain ⟨rfl, rfl⟩ := List.cons.inj heq
        exact ⟨(hp rfl).2, (hp rfl).1⟩
      · obtain ⟨rfl, rfl⟩ := List.cons.inj heq
        obtain ⟨hback, hbehind⟩ := hrest front back rfl
        refine ⟨hback, ?_⟩
        rw [Behind, List.getLast?_cons, Option.map_some, Option.getD_some]
        cases hlast : front.getLast? with
        | none => simpa [Behind, hlast] using hbehind
        | some r => simpa [Behind, hlast] using hbehind
    · intro h
      refine ⟨?_, ?_⟩
      · rintro rfl
        obtain ⟨hback, hbehind⟩ := h [] params rfl
        exact ⟨hbehind, hback⟩
      · rintro front back rfl
        obtain ⟨hback, hbehind⟩ := h (p :: front) back rfl
        refine ⟨hback, ?_⟩
        rw [Behind, List.getLast?_cons, Option.map_some, Option.getD_some] at hbehind
        cases hlast : front.getLast? with
        | none => simpa [Behind, hlast] using hbehind
        | some r => simpa [Behind, hlast] using hbehind

theorem emptiesFramed_iff (params : List AtParam) :
    EmptiesFramed params ↔ Separated false params := by
  rw [separated_iff, EmptiesFramed]
  refine forall_congr' fun front => forall_congr' fun back => imp_congr_right fun _ =>
    and_congr_right fun _ => ?_
  cases hlast : front.getLast? with
  | none => simp [Behind, hlast]
  | some p =>
    cases p with
    | quoted s h => exact iff_of_true ⟨s, h, rfl⟩ (by simp [Behind, hlast, isQuoted])
    | integer n | word w hne h | empty => simp [Behind, hlast, isQuoted]

theorem scan_response (cmd : Bytes) (params : List AtParam) :
    (scan (response cmd params) (response cmd params).length (cmd.length + 2)).toOption
      = scanText (response cmd params).length (joined params) := by
  refine scan_of_drop ?_
  rw [response, List.drop_append, List.drop_eq_nil_of_le (by omega), Nat.add_sub_cancel_left]
  rfl

end AtParam

open AtParam

/-- **The parameters of a response.** For every command and every list of
parameters. -/
theorem splitResponse_iff (cmd : Bytes) (params : List AtParam) (raiseException : Bool) :
    splitResponse cmd (response cmd params) raiseException = .ok (some (params.map value)) ↔
      EmptiesFramed params := by
  have hinfix : cmd <:+: response cmd params := ⟨[], _, rfl⟩
  have hlen : (joined params).length ≤ (response cmd params).length := by
    simp [response]
    omega
  rw [emptiesFramed_iff, ← (scanText_iff params).1 _ hlen, ← scan_response, splitResponse,
    if_pos hinfix]
  cases scan (response cmd params) (response cmd params).length (cmd.length + 2) with
  | error e => simp [Except.map, Except.toOption]
  | ok param => simp [Except.map, Except.toOption]

/-- An empty parameter at the start, and one at the end behind a string. -/
theorem not_splitResponse :
    ¬ (splitResponse (ascii "+COPS") (response (ascii "+COPS") [.empty, .integer 2]) true
        = .ok (some ([AtParam.empty, .integer 2].map value))) ∧
    splitResponse (ascii "+CPIN")
        (response (ascii "+CPIN") [.quoted [97] (List.forall_mem_singleton.mpr (by decide)), .empty]) true
      = .error .indexError := by
  constructor <;> decide +kernel

end NavigationServer.Network
