/-
NavigationServer.RouterCore.IPReaderTheorems — when the frames do not depend
on how the stream is cut.

`framing_iff` : for any frames, any cutting of their stream and any
`msg_processing`, the frames handed over are the frames of the stream exactly
when no buffer ends between CR and LF of a frame that began in an earlier
buffer, no read error comes in the middle of a buffer, and no frame but the last
makes `msg_processing` raise what the loop does not catch.

One direction follows the reader through the stream: it stands between two
frames, before a LF, or inside a frame (`Reached`), and a buffer without an
event leads to such a place again. The other is a count. A frame that is
handed over has used up its own bytes and a CR (`weight_readBuffer`), so what
an event loses is missing at the end. Both are about a loop that catches every
exception (`Calm`), and the loop of the source runs beside it until an exception
ends its thread (`beside_nrun`).
-/
import Mathlib.Algebra.BigOperators.Group.List.Basic
import Mathlib.Algebra.Ring.Nat
import Mathlib.Data.List.Chain
import NavigationServer.RouterCore.IPReader

namespace NavigationServer.RouterCore

open NavigationServer.Lib

/-! ## 1. Streams -/

/-- The frames, each followed by CR LF. -/
def stream (frames : List Bytes) : Bytes := frames.flatMap (· ++ separator)

/-- A frame that is not empty, without CR and LF. -/
structure Clean (f : Bytes) : Prop where
  ne_nil : f ≠ []
  no_separator : ∀ b ∈ f, b ∉ separator

@[simp] theorem stream_nil : stream [] = [] := rfl

theorem stream_cons (f : Bytes) (fs : List Bytes) :
    stream (f :: fs) = f ++ cr :: lf :: stream fs := by
  simp [stream, separator]

theorem stream_append (fs gs : List Bytes) : stream (fs ++ gs) = stream fs ++ stream gs :=
  List.flatMap_append

theorem length_stream_cons (f : Bytes) (fs : List Bytes) :
    (stream (f :: fs)).length = f.length + 2 + (stream fs).length := by
  rw [stream_cons, List.length_append, List.length_cons, List.length_cons]
  omega

/-- LF comes behind CR only. -/
def LfAfterCr (l : Bytes) : Prop := l.IsChain (fun a b => b = lf → a = cr)

/-- A frame without CR and LF has no LF, so none that lacks its CR. -/
theorem lfAfterCr_of_clean {f : Bytes} (h : ∀ b ∈ f, b ∉ separator) : LfAfterCr f := by
  induction f with
  | nil => exact List.isChain_nil
  | cons a f ih =>
    have hf := ih (fun b hb => h b (by simp [hb]))
    cases f with
    | nil => exact List.isChain_singleton a
    | cons b f =>
      refine List.isChain_cons_cons.mpr ⟨fun hb => ?_, hf⟩
      exact absurd (by rw [hb]; simp [separator]) (h b (by simp))

/-- In the stream of clean frames a LF only stands behind a CR. -/
theorem lfAfterCr_stream {frames : List Bytes} (h : ∀ f ∈ frames, Clean f) :
    LfAfterCr (stream frames) := by
  induction frames with
  | nil => exact List.isChain_nil
  | cons f fs ih =>
    have hf := h f (by simp)
    have hfs := ih (fun g hg => h g (by simp [hg]))
    have hhead : ∀ b ∈ (stream fs).head?, b ≠ lf := by
      cases fs with
      | nil => simp
      | cons g gs =>
        obtain ⟨a, rest, rfl⟩ := List.exists_cons_of_ne_nil (h g (by simp)).ne_nil
        rw [stream_cons]
        intro b hb
        obtain rfl : a = b := by simpa using hb
        rintro rfl
        exact (h (lf :: rest) (by simp)).no_separator lf (by simp) (by simp [separator])
    rw [stream_cons, LfAfterCr, List.isChain_append]
    refine ⟨lfAfterCr_of_clean hf.no_separator, ?_, ?_⟩
    · refine List.isChain_cons_cons.mpr ⟨fun _ => rfl, ?_⟩
      refine List.isChain_cons.mpr ⟨fun b hb hlf => absurd hlf (hhead b hb), hfs⟩
    · intro a _ b hb hlf
      obtain rfl : cr = b := by simpa using hb
      exact absurd hlf (by decide)

theorem LfAfterCr.drop {l : Bytes} (h : LfAfterCr l) (n : Nat) : LfAfterCr (l.drop n) :=
  List.IsChain.drop h n

/-! ## 2. Finding the separator -/

/-- The search stops at the end of the first frame. -/
theorem findSeparator_clean {f : Bytes} (h : ∀ b ∈ f, b ∉ separator) (rest : Bytes) :
    findSeparator (f ++ cr :: lf :: rest) = some f.length := by
  induction f with
  | nil => simp [findSeparator]
  | cons a f ih =>
    have ha : a ≠ cr := fun heq => h a (by simp) (by simp [heq, separator])
    have hf := ih (fun b hb => h b (by simp [hb]))
    cases f with
    | nil => simp [findSeparator, ha]
    | cons b f =>
      rw [List.cons_append] at hf ⊢
      rw [List.cons_append, findSeparator, if_neg (fun hab => ha hab.1), hf]
      rfl

/-- A frame that is not complete has no separator yet, with or without its CR. -/
theorem findSeparator_none {f : Bytes} (h : ∀ b ∈ f, b ∉ separator) :
    findSeparator f = none ∧ findSeparator (f ++ [cr]) = none := by
  induction f with
  | nil => exact ⟨rfl, rfl⟩
  | cons a f ih =>
    have ha : a ≠ cr := fun heq => h a (by simp) (by simp [heq, separator])
    obtain ⟨h1, h2⟩ := ih (fun b hb => h b (by simp [hb]))
    cases f with
    | nil => exact ⟨rfl, by simp [findSeparator, ha]⟩
    | cons b f =>
      constructor
      · rw [findSeparator, if_neg (fun hab => ha hab.1), h1]
        rfl
      · rw [List.cons_append] at h2 ⊢
        rw [List.cons_append, findSeparator, if_neg (fun hab => ha hab.1), h2]
        rfl

/-- The LF left over by the buffer before is passed over. -/
theorem findSeparator_lf (rest : Bytes) :
    findSeparator (lf :: rest) = (findSeparator rest).map (· + 1) := by
  cases rest with
  | nil => rfl
  | cons b rest => rw [findSeparator, if_neg (fun h => absurd h.1 (by decide))]

/-- The index that is found is that of a CR. -/
theorem getElem_findSeparator {rest : Bytes} {index : Nat} (h : findSeparator rest = some index) :
    rest[index]? = some cr := by
  induction rest using findSeparator.induct generalizing index with
  | case1 => simp [findSeparator] at h
  | case2 b => simp [findSeparator] at h
  | case3 a b rest hab =>
    rw [findSeparator, if_pos hab] at h
    obtain rfl : 0 = index := by simpa using h
    simp [hab.1]
  | case4 a b rest hab ih =>
    rw [findSeparator, if_neg hab] at h
    obtain ⟨i, hi, rfl⟩ := Option.map_eq_some_iff.mp h
    exact ih hi

/-- Without CR LF, a LF at the end is all there is. -/
theorem eq_lf_of_findSeparator {rest : Bytes} (hchain : LfAfterCr rest)
    (h : findSeparator rest = none) (hlast : rest.getLast? = some lf) : rest = [lf] := by
  induction rest using findSeparator.induct with
  | case1 => simp at hlast
  | case2 b => simpa using hlast
  | case3 a b rest hab => simp [findSeparator, hab] at h
  | case4 a b rest hab ih =>
    rw [findSeparator, if_neg hab, Option.map_eq_none_iff] at h
    have hchain' := List.isChain_cons_cons.mp hchain
    have htail := ih hchain'.2 h (by simpa using hlast)
    have hb : b = lf := by simpa using congrArg List.head? htail
    exact absurd ⟨hchain'.1 hb, hb⟩ hab

/-! ## 3. The turns of a buffer -/

/-- The state behind a turn. -/
def Turn.state : Turn → ReaderState
  | .leave st => st
  | .skip _ st => st
  | .frame _ _ st => st

theorem kept_atIndex (st : ReaderState) (rest : Bytes) (index : Nat) :
    (atIndex st rest index).state.handed = st.handed ∧
      (atIndex st rest index).state.raised = st.raised := by
  unfold atIndex
  split
  · dsimp only
    split <;> split <;> exact ⟨rfl, rfl⟩
  · dsimp only
    split
    · exact ⟨rfl, rfl⟩
    · split <;> exact ⟨rfl, rfl⟩

/-- A turn hands nothing over itself, and ends nothing. -/
theorem kept_turn (st : ReaderState) (rest : Bytes) :
    (turn st rest).state.handed = st.handed ∧ (turn st rest).state.raised = st.raised := by
  unfold turn
  split
  · exact kept_atIndex st rest _
  · dsimp only
    split
    · exact ⟨rfl, rfl⟩
    · split
      · exact kept_atIndex st rest _
      · split <;> exact ⟨rfl, rfl⟩

section Turns

variable (proc : MsgProcessing) {st st' : ReaderState} {rest : Bytes}

/-- A buffer takes back no frame that was handed over. -/
theorem handed_scan (fuel : Nat) (st : ReaderState) (rest : Bytes) :
    st.handed <+: (scan proc fuel st rest).handed := by
  induction fuel generalizing st rest with
  | zero => exact List.prefix_rfl
  | succ fuel ih =>
    have hturn := (kept_turn st rest).1
    rw [scan]
    split
    · exact List.prefix_rfl
    · cases h : turn st rest with
      | leave st' =>
        rw [h] at hturn
        exact hturn ▸ List.prefix_rfl
      | skip index st' =>
        rw [h] at hturn
        exact hturn ▸ ih st' _
      | frame f index st' =>
        rw [h] at hturn
        have hput : st.handed <+: st'.handed ++ [f] := hturn ▸ List.prefix_append _ _
        dsimp only
        split
        · exact hput
        · exact hput
        · exact hput.trans (ih { st' with handed := st'.handed ++ [f] } _)

/-- The loop catches every exception. -/
def Calm (proc : MsgProcessing) : Prop := ∀ handed f, proc handed f ≠ .raised

/-- Where every exception is caught, no buffer ends the thread. -/
theorem raised_scan (hcalm : Calm proc) (fuel : Nat) (st : ReaderState) (rest : Bytes) :
    (scan proc fuel st rest).raised = st.raised := by
  induction fuel generalizing st rest with
  | zero => rfl
  | succ fuel ih =>
    have hturn := (kept_turn st rest).2
    rw [scan]
    split
    · rfl
    · cases h : turn st rest with
      | leave st' =>
        rw [h] at hturn
        exact hturn
      | skip index st' =>
        rw [h] at hturn
        exact (ih st' _).trans hturn
      | frame f index st' =>
        rw [h] at hturn
        dsimp only
        split
        · exact hturn
        · rename_i hraised
          exact absurd hraised (hcalm _ _)
        · exact (ih _ _).trans hturn

theorem readBuffer_nil : readBuffer proc st [] = st := rfl

/-- A turn that leaves the loop ends the buffer. -/
theorem readBuffer_leave (hne : rest ≠ []) (h : turn st rest = .leave st') :
    readBuffer proc st rest = st' := by
  obtain ⟨b, tail, rfl⟩ := List.exists_cons_of_ne_nil hne
  rw [readBuffer, List.length_cons, scan, h]
  rfl

/-- A turn that skips a separator goes on behind it. -/
theorem readBuffer_skip {index : Nat} (hne : rest ≠ []) (h : turn st rest = .skip index st') :
    readBuffer proc st rest = readBuffer proc st' (rest.drop (index + 2)) := by
  obtain ⟨b, tail, rfl⟩ := List.exists_cons_of_ne_nil hne
  rw [readBuffer, List.length_cons, scan, h, readBuffer]
  exact scan_fuel proc _ _ _ _ (by rw [List.length_drop, List.length_cons]; omega) (Nat.le_refl _)

/-- A frame is handed over, and the loop goes on unless it was a read error. -/
theorem readBuffer_frame (hcalm : Calm proc) {f : Bytes} {index : Nat} (hne : rest ≠ [])
    (h : turn st rest = .frame f index st') :
    readBuffer proc st rest
      = if proc st'.handed f = .readError then { st' with handed := st'.handed ++ [f] }
        else readBuffer proc { st' with handed := st'.handed ++ [f] } (rest.drop (index + 2)) := by
  obtain ⟨b, tail, rfl⟩ := List.exists_cons_of_ne_nil hne
  have hfuel : ∀ st, scan proc tail.length st ((b :: tail).drop (index + 2))
      = readBuffer proc st ((b :: tail).drop (index + 2)) := fun st =>
    scan_fuel proc _ _ _ _ (by rw [List.length_drop, List.length_cons]; omega) (Nat.le_refl _)
  rw [readBuffer, List.length_cons, scan, h]
  simp only [List.isEmpty_cons, Bool.false_eq_true, if_false, hfuel]
  cases hproc : proc st'.handed f with
  | raised => exact absurd hproc (hcalm st'.handed f)
  | _ => rfl

end Turns

/-! ## 4. The count -/

/-- The bytes other than LF. -/
def nonLf (l : Bytes) : Nat := l.countP (fun b => b ≠ lf)

@[simp] theorem nonLf_nil : nonLf [] = 0 := rfl

@[simp] theorem nonLf_append (l l' : Bytes) : nonLf (l ++ l') = nonLf l + nonLf l' :=
  List.countP_append

theorem nonLf_cons_cr (l : Bytes) : nonLf (cr :: l) = nonLf l + 1 :=
  List.countP_cons_of_pos (by decide)

theorem nonLf_cons_lf (l : Bytes) : nonLf (lf :: l) = nonLf l :=
  List.countP_cons_of_neg (by decide)

theorem nonLf_take_add_drop (l : Bytes) (n : Nat) : nonLf (l.take n) + nonLf (l.drop n) = nonLf l := by
  rw [← nonLf_append, List.take_append_drop]

theorem nonLf_le_of_sublist {l l' : Bytes} (h : l.Sublist l') : nonLf l ≤ nonLf l' :=
  h.countP_le

/-- What a reader has used up: the bytes of the frames that it handed over and
one CR for each of them, and the bytes it keeps. -/
def weight (st : ReaderState) : Nat :=
  (st.handed.map (fun f => nonLf f + 1)).sum + if st.part then nonLf st.partBuf else 0

/-- A frame handed over weighs its bytes and its CR. -/
theorem weight_handed (st : ReaderState) (f : Bytes) (h : st.part = false) :
    weight { st with handed := st.handed ++ [f] } = weight st + nonLf f + 1 := by
  simp [weight, h]
  omega

/-- A turn leaves or skips, or hands over a frame, within the bytes up to and
with its CR. -/
def TurnWithin (st : ReaderState) (rest : Bytes) : Turn → Prop
  | .leave st' => weight st' ≤ weight st + nonLf rest
  | .skip index st' => weight st' ≤ weight st + nonLf (rest.take (index + 2))
  | .frame f index st' => st'.part = false ∧
      weight st' + nonLf f + 1 ≤ weight st + nonLf (rest.take (index + 2))

theorem turnWithin_atIndex {st : ReaderState} {rest : Bytes} {index : Nat}
    (h : rest[index]? = some cr) : TurnWithin st rest (atIndex st rest index) := by
  obtain ⟨hlt, hget⟩ := List.getElem?_eq_some_iff.mp h
  have htake : nonLf (rest.take index) + 1 ≤ nonLf (rest.take (index + 2)) := by
    have hsub : (rest.take (index + 1)).Sublist (rest.take (index + 2)) :=
      (List.take_prefix_take_left (by omega)).sublist
    have := nonLf_le_of_sublist hsub
    rw [List.take_succ_eq_append_getElem hlt, hget, nonLf_append, nonLf_cons_cr] at this
    exact this
  have hslice : ∀ n, nonLf ((rest.take index).drop n) ≤ nonLf (rest.take index) := fun n =>
    nonLf_le_of_sublist (List.drop_sublist n _)
  unfold atIndex
  cases hpart : st.part with
  | true =>
    have hweight : weight { st with part := false } + nonLf st.partBuf = weight st := by
      simp [weight, hpart]
    simp only [if_true]
    have hframe : nonLf (if index = 0 then st.partBuf
        else st.partBuf ++ (rest.take index).drop (skipSeparator rest))
          ≤ nonLf st.partBuf + nonLf (rest.take index) := by
      have := hslice (skipSeparator rest)
      split
      · omega
      · rw [nonLf_append]
        omega
    generalize (if index = 0 then st.partBuf
      else st.partBuf ++ (rest.take index).drop (skipSeparator rest)) = frame at hframe ⊢
    split
    · change weight { st with part := false } ≤ weight st + nonLf (rest.take (index + 2))
      omega
    · exact ⟨rfl, by omega⟩
  | false =>
    simp only [Bool.false_eq_true, if_false]
    have := hslice (skipSeparator rest)
    split
    · exact Nat.le_add_right _ _
    · split
      · exact Nat.le_add_right _ _
      · exact ⟨hpart, by omega⟩

/-- No turn gains weight: what it hands over or keeps, it takes from the buffer. -/
theorem turnWithin_turn {st : ReaderState} {rest : Bytes} (hne : rest ≠ [])
    (hchain : LfAfterCr rest) : TurnWithin st rest (turn st rest) := by
  unfold turn
  cases hfind : findSeparator rest with
  | some index => exact turnWithin_atIndex (getElem_findSeparator hfind)
  | none =>
    obtain ⟨init, z, rfl⟩ : ∃ init z, rest = init ++ [z] := by
      obtain ⟨init, z, h⟩ := (List.eq_nil_or_concat rest).resolve_left hne
      exact ⟨init, z, by rw [h, List.concat_eq_append]⟩
    simp only
    cases hpart : st.part with
    | true =>
      simp only [if_true]
      have hfront : ∀ n, nonLf ((init ++ [z]).take n) ≤ nonLf (init ++ [z]) := fun n =>
        nonLf_le_of_sublist (List.take_sublist n _)
      have := hfront (if (init ++ [z]).getLastD 0 ∈ separator then (init ++ [z]).length - 1
        else (init ++ [z]).length)
      simp only [TurnWithin, weight, hpart, if_true] at this ⊢
      rw [nonLf_append]
      omega
    | false =>
      simp only [Bool.false_eq_true, if_false]
      split
      · rename_i hlast
        rw [List.getLastD_concat] at hlast
        rcases List.mem_pair.mp hlast with rfl | rfl
        · exact turnWithin_atIndex (by simp)
        · -- a LF by itself is no frame
          have hlone := eq_lf_of_findSeparator hchain hfind (by simp)
          rw [hlone]
          have hskip : atIndex st [lf] ([lf].length - 1) = .skip 0 st := by
            simp [atIndex, hpart, skipSeparator, separator]
          rw [hskip]
          exact Nat.le_add_right _ _
      · split
        · have hsub := nonLf_le_of_sublist (List.drop_sublist (skipSeparator (init ++ [z])) (init ++ [z]))
          simp only [TurnWithin, weight, hpart, if_true, Bool.false_eq_true, if_false]
          omega
        · exact Nat.le_add_right _ _

/-- A reader uses up no more than it is given. -/
theorem weight_readBuffer {proc : MsgProcessing} (hcalm : Calm proc) (n : Nat) :
    ∀ {st : ReaderState} {rest : Bytes}, rest.length ≤ n → LfAfterCr rest →
      weight (readBuffer proc st rest) ≤ weight st + nonLf rest := by
  induction n with
  | zero =>
    intro st rest hn _
    rw [List.length_eq_zero_iff.mp (Nat.le_zero.mp hn)]
    exact Nat.le_refl _
  | succ n ih =>
    intro st rest hn hchain
    rcases eq_or_ne rest [] with rfl | hne
    · exact Nat.le_refl _
    have hwithin := @turnWithin_turn st rest hne hchain
    cases hturn : turn st rest with
    | leave st' =>
      rw [hturn] at hwithin
      rw [readBuffer_leave proc hne hturn]
      exact hwithin
    | skip index st' =>
      rw [hturn] at hwithin
      have hlen : (rest.drop (index + 2)).length ≤ n := by
        rw [List.length_drop]
        omega
      have hrest := @ih st' _ hlen (hchain.drop _)
      have hsplit := nonLf_take_add_drop rest (index + 2)
      rw [readBuffer_skip proc hne hturn]
      simp only [TurnWithin] at hwithin
      omega
    | frame f index st' =>
      rw [hturn] at hwithin
      have hlen : (rest.drop (index + 2)).length ≤ n := by
        rw [List.length_drop]
        omega
      have hrest := @ih { st' with handed := st'.handed ++ [f] } _ hlen (hchain.drop _)
      have hsplit := nonLf_take_add_drop rest (index + 2)
      have hhanded := weight_handed st' f hwithin.1
      have hle := hwithin.2
      rw [readBuffer_frame proc hcalm hne hturn]
      split <;> omega

/-! ## 5. The turns over frames -/

/-- What may stand before the bytes of a frame: nothing, or the LF of the
frame before. -/
def Lead (lead : Bytes) : Prop := lead = [] ∨ lead = [lf]

theorem skipSeparator_clean {f : Bytes} (hne : f ≠ []) (hf : ∀ b ∈ f, b ∉ separator)
    (rest : Bytes) : skipSeparator (f ++ rest) = 0 := by
  obtain ⟨a, tail, rfl⟩ := List.exists_cons_of_ne_nil hne
  exact if_neg (hf a (by simp))

/-- Only the separator left over is skipped, and nothing of the frame. -/
theorem skipSeparator_lead {lead f : Bytes} (hl : Lead lead) (hne : f ≠ [])
    (hf : ∀ b ∈ f, b ∉ separator) (rest : Bytes) :
    skipSeparator (lead ++ (f ++ rest)) = lead.length := by
  rcases hl with rfl | rfl
  · exact skipSeparator_clean hne hf rest
  · exact if_pos (by simp [separator])

theorem findSeparator_lead {lead : Bytes} (hl : Lead lead) (rest : Bytes) :
    findSeparator (lead ++ rest) = (findSeparator rest).map (· + lead.length) := by
  rcases hl with rfl | rfl
  · simp
  · exact findSeparator_lf rest

section Frames

variable {st : ReaderState} {lead f : Bytes}

/-- A whole frame at the start of the rest is handed over. -/
theorem atIndex_line (hpart : st.part = false) (hl : Lead lead) (hf : Clean f) (rest : Bytes) :
    atIndex st (lead ++ (f ++ rest)) (lead.length + f.length)
      = .frame f (lead.length + f.length) st := by
  have hpos := List.length_pos_of_ne_nil hf.ne_nil
  have htake : ((lead ++ (f ++ rest)).take (lead.length + f.length)).drop lead.length = f := by
    rw [← List.append_assoc, List.take_left' (by simp), List.drop_left]
  rw [atIndex, hpart]
  simp only [Bool.false_eq_true, if_false]
  rw [skipSeparator_lead hl hf.ne_nil hf.no_separator, htake, if_neg (by omega),
    if_neg (by omega)]

/-- A frame with its CR LF. -/
theorem turn_line (hpart : st.part = false) (hl : Lead lead) (hf : Clean f) (rest : Bytes) :
    turn st (lead ++ (f ++ cr :: lf :: rest)) = .frame f (lead.length + f.length) st := by
  have hfind : findSeparator (lead ++ (f ++ cr :: lf :: rest)) = some (lead.length + f.length) := by
    rw [findSeparator_lead hl, findSeparator_clean hf.no_separator, Option.map_some, Nat.add_comm]
  rw [turn, hfind]
  exact atIndex_line hpart hl hf _

/-- A frame with its CR at the end of the buffer. -/
theorem turn_cr (hpart : st.part = false) (hl : Lead lead) (hf : Clean f) :
    turn st (lead ++ (f ++ [cr])) = .frame f (lead.length + f.length) st := by
  have hfind : findSeparator (lead ++ (f ++ [cr])) = none := by
    rw [findSeparator_lead hl, (findSeparator_none hf.no_separator).2]
    rfl
  have hlast : (lead ++ (f ++ [cr])).getLastD 0 = cr := by
    rw [← List.append_assoc, List.getLastD_concat]
  have hlen : (lead ++ (f ++ [cr])).length - 1 = lead.length + f.length := by
    simp only [List.length_append, List.length_singleton]
    omega
  rw [turn, hfind]
  simp only [hpart, Bool.false_eq_true, if_false]
  rw [hlast, if_pos (by decide), hlen]
  exact atIndex_line hpart hl hf _

/-- The beginning of a frame. -/
theorem turn_begin (hpart : st.part = false) (hl : Lead lead) {p : Bytes} (hne : p ≠ [])
    (hp : ∀ b ∈ p, b ∉ separator) :
    turn st (lead ++ p) = .leave { st with part := true, partBuf := p } := by
  have hfind : findSeparator (lead ++ p) = none := by
    rw [findSeparator_lead hl, (findSeparator_none hp).1]
    rfl
  have hskip : skipSeparator (lead ++ p) = lead.length := by
    simpa using skipSeparator_lead hl hne hp []
  have hlast : (lead ++ p).getLastD 0 ∉ separator := by
    obtain ⟨init, z, rfl⟩ := (List.eq_nil_or_concat p).resolve_left hne
    rw [List.concat_eq_append, ← List.append_assoc, List.getLastD_concat]
    exact hp z (by simp)
  have hpos := List.length_pos_of_ne_nil hne
  rw [turn, hfind]
  simp only [hpart, Bool.false_eq_true, if_false]
  rw [if_neg hlast, hskip, if_pos (by rw [List.length_append]; omega), List.drop_left]

/-- A buffer that is a LF alone is skipped. -/
theorem turn_lf (hpart : st.part = false) : turn st [lf] = .skip 0 st := by
  simp [turn, findSeparator, hpart, atIndex, skipSeparator, separator]

/-- The rest of a frame with its CR LF. -/
theorem turn_part_line (hpart : st.part = true) (hbuf : st.partBuf ≠ []) {q : Bytes}
    (hq : ∀ b ∈ q, b ∉ separator) (rest : Bytes) :
    turn st (q ++ cr :: lf :: rest)
      = .frame (st.partBuf ++ q) q.length { st with part := false } := by
  have hframe : (if q.length = 0 then st.partBuf else st.partBuf ++
      ((q ++ cr :: lf :: rest).take q.length).drop (skipSeparator (q ++ cr :: lf :: rest)))
        = st.partBuf ++ q := by
    rcases eq_or_ne q [] with rfl | hne
    · simp
    · rw [if_neg (by simpa using hne), skipSeparator_clean hne hq, List.take_left, List.drop_zero]
  rw [turn, findSeparator_clean hq]
  simp only [atIndex, hpart, if_true]
  rw [hframe, if_neg (by simp [hbuf])]

/-- More of a frame. -/
theorem turn_part (hpart : st.part = true) {q : Bytes} (hne : q ≠ [])
    (hq : ∀ b ∈ q, b ∉ separator) :
    turn st q = .leave { st with partBuf := st.partBuf ++ q } := by
  have hlast : q.getLastD 0 ∉ separator := by
    obtain ⟨init, z, rfl⟩ := (List.eq_nil_or_concat q).resolve_left hne
    rw [List.concat_eq_append, List.getLastD_concat]
    exact hq z (by simp)
  rw [turn, (findSeparator_none hq).1]
  simp only [hpart, if_true]
  rw [if_neg hlast, List.take_length]

/-- The rest of a frame with its CR at the end of the buffer: the CR is taken
off and the frame stays open. -/
theorem turn_part_cr (hpart : st.part = true) {q : Bytes} (hq : ∀ b ∈ q, b ∉ separator) :
    turn st (q ++ [cr]) = .leave { st with partBuf := st.partBuf ++ q } := by
  rw [turn, (findSeparator_none hq).2]
  simp only [hpart, if_true]
  rw [List.getLastD_concat, if_pos (by decide), List.length_append, List.length_singleton,
    Nat.add_sub_cancel, List.take_left]

end Frames

/-! ## 6. One buffer -/

/-- The buffer ends between CR and LF of a frame that began in an earlier one. -/
def CutInside (frames : List Bytes) (before buffer : Bytes) : Prop :=
  ∃ fs₁ p q fs₂, frames = fs₁ ++ (p ++ q) :: fs₂ ∧ p ≠ [] ∧
    before = stream fs₁ ++ p ∧ buffer = q ++ [cr]

/-- `msg_processing` raises a read error on a frame that ends in the buffer,
and the buffer goes on behind it. -/
def ErrorInside (proc : MsgProcessing) (frames : List Bytes) (before buffer : Bytes) : Prop :=
  ∃ fs₁ f fs₂ s, frames = fs₁ ++ f :: fs₂ ∧ proc fs₁ f = .readError ∧
    before <+: stream fs₁ ++ f ∧ before ++ buffer = stream (fs₁ ++ [f]) ++ s ∧ s ≠ []

/-- Where a reader is that has lost nothing: between two frames, perhaps
before a LF, or inside a frame. -/
inductive Reached (frames : List Bytes) (before : Bytes) (st : ReaderState) : Prop where
  | between (hpart : st.part = false) (fs : List Bytes) (hframes : frames = st.handed ++ fs)
      (lead : Bytes) (hl : Lead lead) (hbefore : before ++ lead = stream st.handed)
  | inside (hpart : st.part = true) (q : Bytes) (fs : List Bytes)
      (hframes : frames = st.handed ++ (st.partBuf ++ q) :: fs) (hbuf : st.partBuf ≠ [])
      (hbefore : before = stream st.handed ++ st.partBuf)

/-- Before the first byte the reader stands between two frames. -/
theorem reached_start (frames : List Bytes) : Reached frames [] .start :=
  .between rfl frames rfl [] (Or.inl rfl) rfl

/-- The stream weighs its frames and a CR for each. -/
theorem nonLf_stream {fs : List Bytes} :
    nonLf (stream fs) = (fs.map (fun f => nonLf f + 1)).sum := by
  induction fs with
  | nil => rfl
  | cons f fs ih =>
    rw [stream_cons, nonLf_append, nonLf_cons_cr, nonLf_cons_lf, ih, List.map_cons, List.sum_cons]
    omega

/-- It has used up what it was given. -/
theorem Reached.weight_eq {frames : List Bytes} {before : Bytes} {st : ReaderState}
    (h : Reached frames before st) : weight st = nonLf before := by
  cases h with
  | between hpart fs hframes lead hl hbefore =>
    have hlead : nonLf lead = 0 := by rcases hl with rfl | rfl <;> rfl
    have hcount := congrArg nonLf hbefore
    rw [nonLf_append, hlead, nonLf_stream] at hcount
    simp [weight, hpart, ← hcount]
  | inside hpart q fs hframes hbuf hbefore =>
    rw [hbefore, nonLf_append, nonLf_stream]
    simp [weight, hpart]

/-- A frame that ends behind the reader is one of those still to come. -/
theorem exists_eq_append_of_prefix {frames handed fs fs₁ fs₂ : List Bytes} {f before : Bytes}
    (hframes : frames = handed ++ fs) (hle : (stream handed).length ≤ before.length + 1)
    (h : frames = fs₁ ++ f :: fs₂) (hpre : before <+: stream fs₁ ++ f) :
    ∃ gs, fs₁ = handed ++ gs ∧ fs = gs ++ f :: fs₂ := by
  rw [hframes] at h
  rcases List.append_eq_append_iff.mp h with ⟨gs, h1, h2⟩ | ⟨gs, h1, h2⟩
  · exact ⟨gs, h1, h2⟩
  · cases gs with
    | nil => exact ⟨[], by simpa using h1.symm, by simpa using h2.symm⟩
    | cons g gs =>
      obtain ⟨rfl, -⟩ := List.cons_eq_cons.mp h2
      have hlen := hpre.length_le
      rw [h1, stream_append, List.length_append, length_stream_cons] at hle
      rw [List.length_append] at hlen
      omega

/-- How a buffer can be cut off around a CR LF. -/
theorem cut_cases {s r x y : Bytes} (h : s ++ r = x ++ cr :: lf :: y) :
    (∃ q, x = s ++ q ∧ r = q ++ cr :: lf :: y) ∨ (s = x ++ [cr] ∧ r = lf :: y) ∨
      ∃ s', s = x ++ cr :: lf :: s' ∧ s' ++ r = y := by
  rcases List.append_eq_append_iff.mp h with ⟨q, h1, h2⟩ | ⟨t, h1, h2⟩
  · exact Or.inl ⟨q, h1, h2⟩
  · match t, h1, h2 with
    | [], h1, h2 => exact Or.inl ⟨[], by simpa using h1.symm, by simpa using h2.symm⟩
    | [a], h1, h2 =>
      obtain ⟨rfl, h3⟩ := List.cons_eq_cons.mp h2
      exact Or.inr (Or.inl ⟨h1, h3.symm⟩)
    | a :: b :: s', h1, h2 =>
      obtain ⟨rfl, h3⟩ := List.cons_eq_cons.mp h2
      obtain ⟨rfl, h4⟩ := List.cons_eq_cons.mp h3
      exact Or.inr (Or.inr ⟨s', h1, h4.symm⟩)

theorem length_stream_concat (fs : List Bytes) (f : Bytes) :
    (stream (fs ++ [f])).length = (stream fs).length + f.length + 2 := by
  rw [stream_append, List.length_append, length_stream_cons, stream_nil, List.length_nil]
  omega

theorem stream_concat (fs : List Bytes) (f : Bytes) :
    stream (fs ++ [f]) = stream fs ++ (f ++ [cr, lf]) := by
  rw [stream_append, stream_cons, stream_nil]

section Events

variable {proc : MsgProcessing} {frames handed fs : List Bytes} {f before buffer : Bytes}

/-- No read error, in a buffer that ends with the next frame or earlier. -/
theorem not_errorInside (hframes : frames = handed ++ fs)
    (hle : (stream handed).length ≤ before.length + 1)
    (hend : ∀ f fs', fs = f :: fs' →
      (before ++ buffer).length ≤ (stream (handed ++ [f])).length) :
    ¬ ErrorInside proc frames before buffer := by
  rintro ⟨fs₁, f, fs₂, s, h, -, hpre, hs, hne⟩
  obtain ⟨gs, rfl, rfl⟩ := exists_eq_append_of_prefix hframes hle h hpre
  have hpos := List.length_pos_of_ne_nil hne
  have hlen : (before ++ buffer).length
      = (stream handed).length + (stream gs).length + f.length + 2 + s.length := by
    rw [hs, List.length_append, length_stream_concat, stream_append, List.length_append]
  cases gs with
  | nil =>
    have hnext := hend f fs₂ rfl
    rw [length_stream_concat] at hnext
    omega
  | cons g gs =>
    have hnext := hend g (gs ++ f :: fs₂) rfl
    rw [length_stream_concat] at hnext
    rw [length_stream_cons] at hlen
    omega

/-- A read error on the next frame or on a later one. -/
theorem errorInside_iff (proc : MsgProcessing) {s : Bytes} (hframes : frames = handed ++ f :: fs)
    (hle : (stream handed).length ≤ before.length + 1) (hpre : before <+: stream handed ++ f)
    (hbuffer : before ++ buffer = stream (handed ++ [f]) ++ s) :
    ErrorInside proc frames before buffer ↔
      (proc handed f = .readError ∧ s ≠ []) ∨
        ErrorInside proc frames (stream (handed ++ [f])) s := by
  constructor
  · rintro ⟨fs₁, g, fs₂, t, h, herr, hpre', ht, hne⟩
    obtain ⟨gs, rfl, hgs⟩ := exists_eq_append_of_prefix hframes hle h hpre'
    cases gs with
    | nil =>
      obtain ⟨rfl, -⟩ := List.cons_eq_cons.mp hgs
      rw [List.append_nil] at herr ht
      rw [hbuffer, List.append_cancel_left_eq] at ht
      exact Or.inl ⟨herr, ht ▸ hne⟩
    | cons f' gs =>
      obtain ⟨rfl, -⟩ := List.cons_eq_cons.mp hgs
      refine Or.inr ⟨_, g, fs₂, t, h, herr, ?_, hbuffer ▸ ht, hne⟩
      rw [List.append_cons handed f gs, stream_append (handed ++ [f]), List.append_assoc]
      exact List.prefix_append _ _
  · rintro (⟨herr, hne⟩ | ⟨fs₁, g, fs₂, t, h, herr, hpre', ht, hne⟩)
    · exact ⟨handed, f, fs, s, hframes, herr, hpre, hbuffer, hne⟩
    · refine ⟨fs₁, g, fs₂, t, h, herr, ?_, hbuffer.trans ht, hne⟩
      refine hpre.trans (List.IsPrefix.trans ?_ hpre')
      rw [stream_concat, ← List.append_assoc]
      exact List.prefix_append _ _

/-- Between two frames a cut does no harm. -/
theorem not_cutInside (buffer : Bytes) {lead : Bytes} (hframes : frames = handed ++ fs) (hl : Lead lead)
    (hbefore : before ++ lead = stream handed) : ¬ CutInside frames before buffer := by
  rintro ⟨fs₁, p, q, fs₂, h, hne, hp, -⟩
  have hlen := congrArg List.length hbefore
  have hlead : lead.length ≤ 1 := by rcases hl with rfl | rfl <;> simp
  have hpos := List.length_pos_of_ne_nil hne
  rw [List.length_append] at hlen
  have hpre : before <+: stream fs₁ ++ (p ++ q) := by
    rw [hp, ← List.append_assoc]
    exact List.prefix_append _ _
  obtain ⟨gs, rfl, -⟩ := exists_eq_append_of_prefix hframes (by omega) h hpre
  rw [stream_append] at hp
  have := congrArg List.length hp
  simp only [List.length_append] at this
  omega

/-- Inside a frame it does when the CR comes off it. -/
theorem cutInside_iff (buffer : Bytes) {p q : Bytes} (hframes : frames = handed ++ (p ++ q) :: fs) (hne : p ≠ [])
    (hbefore : before = stream handed ++ p) : CutInside frames before buffer ↔ buffer = q ++ [cr] := by
  constructor
  · rintro ⟨fs₁, p', q', fs₂, h, hne', hp, hbuffer⟩
    have hpre : before <+: stream fs₁ ++ (p' ++ q') := by
      rw [hp, ← List.append_assoc]
      exact List.prefix_append _ _
    obtain ⟨gs, rfl, hgs⟩ := exists_eq_append_of_prefix hframes
      (by rw [hbefore, List.length_append]; omega) h hpre
    rw [hbefore, stream_append, List.append_assoc, List.append_cancel_left_eq] at hp
    cases gs with
    | nil =>
      obtain ⟨hf, -⟩ := List.cons_eq_cons.mp hgs
      obtain rfl : p = p' := by simpa using hp
      rw [List.append_cancel_left_eq] at hf
      rw [hbuffer, hf]
    | cons g gs =>
      obtain ⟨rfl, -⟩ := List.cons_eq_cons.mp hgs
      have hlen := congrArg List.length hp
      rw [List.length_append, length_stream_cons, List.length_append] at hlen
      omega
  · intro hbuffer
    exact ⟨handed, p, q, fs, hframes, hne, hbefore, hbuffer⟩

end Events

/-- What a buffer leads to: on without a loss, or to a loss. -/
structure Read (proc : MsgProcessing) (frames : List Bytes) (before buffer : Bytes)
    (st : ReaderState) : Prop where
  reached : ¬ ErrorInside proc frames before buffer → Reached frames (before ++ buffer) st
  lost : ErrorInside proc frames before buffer → weight st < nonLf (before ++ buffer)

theorem Clean.left {p q : Bytes} (h : Clean (p ++ q)) : ∀ b ∈ p, b ∉ separator :=
  fun b hb => h.no_separator b (List.mem_append_left q hb)

theorem Clean.right {p q : Bytes} (h : Clean (p ++ q)) : ∀ b ∈ q, b ∉ separator :=
  fun b hb => h.no_separator b (List.mem_append_right p hb)

/-- What begins a stream of clean frames is never a LF alone. -/
theorem nonLf_pos_of_stream {fs : List Bytes} {s r : Bytes} (hclean : ∀ f ∈ fs, Clean f)
    (h : s ++ r = stream fs) (hne : s ≠ []) : 0 < nonLf s := by
  cases fs with
  | nil => exact absurd (List.append_eq_nil_iff.mp h).1 hne
  | cons f fs =>
    have hf := hclean f (by simp)
    obtain ⟨a, f', rfl⟩ := List.exists_cons_of_ne_nil hf.ne_nil
    obtain ⟨b, s', rfl⟩ := List.exists_cons_of_ne_nil hne
    rw [stream_cons] at h
    obtain ⟨rfl, -⟩ := List.cons_eq_cons.mp h
    refine List.countP_pos_iff.mpr ⟨b, by simp, ?_⟩
    have := hf.no_separator b (by simp)
    simp only [separator, List.mem_cons, not_or] at this
    simp [this.2.1]

section Buffers

variable {proc : MsgProcessing} {frames fs : List Bytes} {f before buffer rest : Bytes}
  {st : ReaderState}

/-- A buffer that hands the next frame over and goes on with `s`. -/
theorem read_next {handed : List Bytes} (st : ReaderState) {s : Bytes} (hframes : frames = handed ++ f :: fs)
    (hclean : ∀ g ∈ fs, Clean g) (hs : s ++ rest = stream fs)
    (hle : (stream handed).length ≤ before.length + 1) (hpre : before <+: stream handed ++ f)
    (hbuffer : before ++ buffer = stream (handed ++ [f]) ++ s)
    (hpart : st.part = false) (hhanded : st.handed = handed ++ [f])
    (hread : Read proc frames (stream (handed ++ [f])) s (readBuffer proc st s)) :
    Read proc frames before buffer
      (if proc handed f = .readError then st else readBuffer proc st s) := by
  have hiff := errorInside_iff proc hframes hle hpre hbuffer
  by_cases herr : proc handed f = .readError ∧ s ≠ []
  · have hat : Reached frames (stream (handed ++ [f])) st :=
      .between hpart fs (by rw [hhanded, hframes, List.append_assoc, List.singleton_append]) []
        (Or.inl rfl) (by rw [List.append_nil, hhanded])
    have hpos := nonLf_pos_of_stream hclean hs herr.2
    refine ⟨fun h => absurd (hiff.mpr (Or.inl herr)) h, fun _ => ?_⟩
    rw [if_pos herr.1, hbuffer, nonLf_append, hat.weight_eq]
    omega
  · have hgo : (if proc handed f = .readError then st else readBuffer proc st s)
        = readBuffer proc st s := by
      split
      · rename_i h
        rw [not_not.mp (fun hne => herr ⟨h, hne⟩), readBuffer_nil]
      · rfl
    rw [hgo]
    constructor
    · intro h
      rw [hbuffer]
      exact hread.reached (fun h' => h (hiff.mpr (Or.inr h')))
    · intro h
      rw [hbuffer]
      exact hread.lost ((hiff.mp h).resolve_left herr)

/-- A buffer inside the separator leaves the reader as it is. -/
theorem readBuffer_lead (proc : MsgProcessing) {lead q : Bytes} (hpart : st.part = false) (hl : Lead lead)
    (h : lead = buffer ++ q) : readBuffer proc st buffer = st ∧ Lead q := by
  cases buffer with
  | nil =>
    obtain rfl : lead = q := h
    exact ⟨rfl, hl⟩
  | cons b buffer =>
    rcases hl with rfl | rfl
    · cases h
    · obtain ⟨rfl, htail⟩ := List.cons_eq_cons.mp h
      obtain ⟨rfl, rfl⟩ := List.append_eq_nil_iff.mp htail.symm
      exact ⟨by rw [readBuffer_skip proc (by simp) (turn_lf hpart)]; rfl, Or.inl rfl⟩

/-- From between two frames. -/
theorem read_between (hcalm : Calm proc) (fs : List Bytes) :
    ∀ {st : ReaderState} {lead before buffer : Bytes}, st.part = false →
      frames = st.handed ++ fs → Lead lead → before ++ lead = stream st.handed →
      (∀ f ∈ fs, Clean f) → buffer ++ rest = lead ++ stream fs →
      Read proc frames before buffer (readBuffer proc st buffer) := by
  induction fs with
  | nil =>
    intro st lead before buffer hpart hframes hl hbefore _ hbuffer
    rw [stream_nil, List.append_nil] at hbuffer
    obtain ⟨hst, hrest⟩ := readBuffer_lead proc hpart hl hbuffer.symm
    have hno : ¬ ErrorInside proc frames before buffer :=
      not_errorInside hframes (by rw [← hbefore, List.length_append]; rcases hl with rfl | rfl <;> simp)
        (fun f fs' h => by cases h)
    refine ⟨fun _ => ?_, fun h => absurd h hno⟩
    rw [hst]
    exact .between hpart [] hframes rest hrest (by rw [List.append_assoc, hbuffer, hbefore])
  | cons f fs ih =>
    intro st lead before buffer hpart hframes hl hbefore hclean hbuffer
    have hf := hclean f (by simp)
    have hle : (stream st.handed).length ≤ before.length + 1 := by
      rw [← hbefore, List.length_append]
      rcases hl with rfl | rfl <;> simp
    rw [stream_cons, ← List.append_assoc] at hbuffer
    rcases cut_cases hbuffer with ⟨q, hq, -⟩ | ⟨hbuffer, -⟩ | ⟨s, hbuffer, hs⟩
    · have hno : ¬ ErrorInside proc frames before buffer := by
        refine not_errorInside hframes hle (fun g gs h => ?_)
        obtain ⟨rfl, rfl⟩ := List.cons_eq_cons.mp h
        have := congrArg List.length hq
        rw [length_stream_concat, ← hbefore]
        simp only [List.length_append] at this ⊢
        omega
      refine ⟨fun _ => ?_, fun h => absurd h hno⟩
      rcases List.append_eq_append_iff.mp hq with ⟨p, hp, hfp⟩ | ⟨l, hlead, hfq⟩
      · rcases eq_or_ne p [] with rfl | hne
        · rw [List.append_nil] at hp
          obtain ⟨hst, hrest⟩ := readBuffer_lead proc hpart hl
            (hp.symm.trans (List.append_nil _).symm)
          rw [hst, hp]
          exact .between hpart (f :: fs) hframes [] hrest (by rw [List.append_nil, hbefore])
        · have hturn := turn_begin hpart hl hne (hfp ▸ hf).left
          rw [hp, readBuffer_leave proc (by simp [hne]) hturn]
          exact .inside rfl q fs (hfp ▸ hframes) hne (by rw [← List.append_assoc, hbefore])
      · obtain ⟨hst, hrest⟩ := readBuffer_lead proc hpart hl hlead
        rw [hst]
        exact .between hpart (f :: fs) hframes l hrest (by rw [List.append_assoc, ← hlead, hbefore])
    · -- the LF of this frame leads the next buffer
      have hturn := turn_cr hpart hl hf
      have hno : ¬ ErrorInside proc frames before buffer := by
        refine not_errorInside hframes hle (fun g gs h => ?_)
        obtain ⟨rfl, rfl⟩ := List.cons_eq_cons.mp h
        rw [length_stream_concat, ← hbefore, hbuffer]
        simp only [List.length_append, List.length_singleton]
        omega
      refine ⟨fun _ => ?_, fun h => absurd h hno⟩
      have hdrop : (lead ++ (f ++ [cr])).drop (lead.length + f.length + 2) = [] :=
        List.drop_eq_nil_of_le (by simp only [List.length_append, List.length_singleton]; omega)
      rw [hbuffer, List.append_assoc, readBuffer_frame proc hcalm (by simp) hturn, hdrop, readBuffer_nil,
        ite_self]
      refine .between hpart fs (by rw [hframes, List.append_assoc, List.singleton_append]) [lf]
        (Or.inr rfl) ?_
      rw [← List.append_assoc before, hbefore, stream_concat]
      simp
    · have hturn := turn_line hpart hl hf s
      have hdrop : (lead ++ (f ++ cr :: lf :: s)).drop (lead.length + f.length + 2) = s := by
        have : lead ++ (f ++ cr :: lf :: s) = (lead ++ f ++ [cr, lf]) ++ s := by simp
        rw [this, List.drop_left' (by simp only [List.length_append, List.length_cons, List.length_nil])]
      have hbytes : before ++ buffer = stream (st.handed ++ [f]) ++ s := by
        rw [hbuffer, stream_concat, ← hbefore]
        simp
      have hpre : before <+: stream st.handed ++ f := by
        rw [← hbefore, List.append_assoc]
        exact List.prefix_append _ _
      have hfs : ∀ g ∈ fs, Clean g := fun g hg => hclean g (by simp [hg])
      have hread := @ih { st with handed := st.handed ++ [f] } [] (stream (st.handed ++ [f])) s hpart
        (by rw [hframes, List.append_assoc, List.singleton_append]) (Or.inl rfl)
        (List.append_nil _) hfs hs
      have hnext := read_next { st with handed := st.handed ++ [f] } hframes hfs hs hle hpre hbytes
        hpart rfl hread
      have hrun := readBuffer_frame proc hcalm (by simp) hturn
      rw [hdrop] at hrun
      rw [hbuffer, List.append_assoc, hrun, ← List.append_assoc, ← hbuffer]
      exact hnext

/-- From inside a frame. -/
theorem read_inside (hcalm : Calm proc) {q : Bytes} (hpart : st.part = true)
    (hframes : frames = st.handed ++ (st.partBuf ++ q) :: fs) (hbuf : st.partBuf ≠ [])
    (hbefore : before = stream st.handed ++ st.partBuf)
    (hclean : ∀ f ∈ (st.partBuf ++ q) :: fs, Clean f)
    (hbuffer : buffer ++ rest = q ++ cr :: lf :: stream fs) (hcut : buffer ≠ q ++ [cr]) :
    Read proc frames before buffer (readBuffer proc st buffer) := by
  have hf := hclean (st.partBuf ++ q) (by simp)
  have hle : (stream st.handed).length ≤ before.length + 1 := by
    rw [hbefore, List.length_append]
    omega
  rcases cut_cases hbuffer with ⟨q', rfl, -⟩ | ⟨hcr, -⟩ | ⟨s, rfl, hs⟩
  · have hno : ¬ ErrorInside proc frames before buffer := by
      refine not_errorInside hframes hle (fun g gs h => ?_)
      obtain ⟨rfl, rfl⟩ := List.cons_eq_cons.mp h
      rw [length_stream_concat, hbefore]
      simp only [List.length_append]
      omega
    refine ⟨fun _ => ?_, fun h => absurd h hno⟩
    rcases eq_or_ne buffer [] with rfl | hne
    · rw [readBuffer_nil, List.append_nil]
      exact .inside hpart q' fs hframes hbuf hbefore
    · have hbytes : ∀ b ∈ buffer, b ∉ separator := fun b hb =>
        hf.no_separator b (by simp [hb])
      rw [readBuffer_leave proc hne (turn_part hpart hne hbytes)]
      refine .inside hpart q' fs (by rw [hframes, List.append_assoc]) (by simp [hbuf]) ?_
      rw [hbefore, List.append_assoc]
  · exact absurd hcr hcut
  · have hturn := turn_part_line hpart hbuf hf.right s
    have hdrop : (q ++ cr :: lf :: s).drop (q.length + 2) = s := by
      have : q ++ cr :: lf :: s = (q ++ [cr, lf]) ++ s := by simp
      rw [this, List.drop_left' (by simp only [List.length_append, List.length_cons, List.length_nil])]
    have hbytes : before ++ (q ++ cr :: lf :: s)
        = stream (st.handed ++ [st.partBuf ++ q]) ++ s := by
      rw [stream_concat, hbefore]
      simp
    have hpre : before <+: stream st.handed ++ (st.partBuf ++ q) := by
      rw [hbefore, ← List.append_assoc]
      exact List.prefix_append _ _
    have hfs : ∀ g ∈ fs, Clean g := fun g hg => hclean g (by simp [hg])
    let st' : ReaderState := { st with part := false, handed := st.handed ++ [st.partBuf ++ q] }
    have hread : Read proc frames (stream (st.handed ++ [st.partBuf ++ q])) s
        (readBuffer proc st' s) :=
      read_between hcalm fs rfl (by rw [hframes, List.append_assoc, List.singleton_append]) (Or.inl rfl)
        (List.append_nil _) hfs hs
    have hnext := read_next st' hframes hfs hs hle hpre hbytes rfl rfl hread
    have hrun := readBuffer_frame proc hcalm (by simp) hturn
    rw [hdrop] at hrun
    rw [hrun]
    exact hnext

/-- A CR that is taken off a frame is lost. -/
theorem lost_of_cut (proc : MsgProcessing) {q : Bytes} (hpart : st.part = true) (hq : ∀ b ∈ q, b ∉ separator) :
    weight (readBuffer proc st (q ++ [cr])) + 1 = weight st + nonLf (q ++ [cr]) := by
  rw [readBuffer_leave proc (by simp) (turn_part_cr hpart hq), nonLf_append, nonLf_cons_cr]
  simp [weight, hpart]
  omega

/-- A buffer leads on when nothing happens in it, and to a loss otherwise. -/
theorem reached_readBuffer (hcalm : Calm proc) (hclean : ∀ f ∈ frames, Clean f)
    (hat : Reached frames before st) (hbytes : before ++ (buffer ++ rest) = stream frames) :
    (¬ CutInside frames before buffer → ¬ ErrorInside proc frames before buffer →
      Reached frames (before ++ buffer) (readBuffer proc st buffer)) ∧
    (CutInside frames before buffer ∨ ErrorInside proc frames before buffer →
      weight (readBuffer proc st buffer) < nonLf (before ++ buffer)) := by
  have hweight := hat.weight_eq
  cases hat with
  | between hpart fs hframes lead hl hbefore =>
    have hcut := not_cutInside buffer hframes hl hbefore
    have hrest : buffer ++ rest = lead ++ stream fs := by
      rw [hframes, stream_append, ← hbefore, List.append_assoc, List.append_cancel_left_eq] at hbytes
      exact hbytes
    have hread : Read proc frames before buffer (readBuffer proc st buffer) :=
      read_between hcalm fs hpart hframes hl hbefore (fun f hf => hclean f (by simp [hframes, hf])) hrest
    exact ⟨fun _ => hread.reached, fun h => hread.lost (h.resolve_left hcut)⟩
  | inside hpart q fs hframes hbuf hbefore =>
    have hfs : ∀ f ∈ (st.partBuf ++ q) :: fs, Clean f := fun f hf =>
      hclean f (by rw [hframes]; exact List.mem_append_right _ hf)
    have hrest : buffer ++ rest = q ++ cr :: lf :: stream fs := by
      rw [hframes, stream_append, stream_cons, hbefore, List.append_assoc, List.append_assoc,
        List.append_cancel_left_eq, List.append_cancel_left_eq] at hbytes
      exact hbytes
    have hiff := cutInside_iff buffer hframes hbuf hbefore
    by_cases hcut : buffer = q ++ [cr]
    · refine ⟨fun h => absurd (hiff.mpr hcut) h, fun _ => ?_⟩
      have hlost := lost_of_cut proc hpart (hfs (st.partBuf ++ q) (by simp)).right
      rw [hcut, nonLf_append, ← hweight]
      omega
    · have hread : Read proc frames before buffer (readBuffer proc st buffer) :=
        read_inside hcalm hpart hframes hbuf hbefore hfs hrest hcut
      exact ⟨fun _ => hread.reached, fun h => hread.lost (h.resolve_left (fun h => hcut (hiff.mp h)))⟩

end Buffers

/-! ## 7. The stream -/

/-- The buffers, each with the bytes before it, without an event. -/
def WellCut (proc : MsgProcessing) (frames buffers : List Bytes) : Prop :=
  ∀ bs₁ buffer bs₂, buffers = bs₁ ++ buffer :: bs₂ →
    ¬ CutInside frames bs₁.flatten buffer ∧ ¬ ErrorInside proc frames bs₁.flatten buffer

section Streams

variable {proc : MsgProcessing} {frames : List Bytes}

/-- The run over two lists of buffers is one run behind the other. -/
theorem nrun_append (st : ReaderState) (bs₁ bs₂ : List Bytes) :
    nrun proc st (bs₁ ++ bs₂) = nrun proc (nrun proc st bs₁) bs₂ :=
  List.foldl_append

theorem nrun_concat (st : ReaderState) (bs : List Bytes) (buffer : Bytes) :
    nrun proc st (bs ++ [buffer]) = nextBuffer proc (nrun proc st bs) buffer :=
  List.foldl_append

theorem nextBuffer_of_not_raised {st : ReaderState} (h : st.raised = false) (buffer : Bytes) :
    nextBuffer proc st buffer = readBuffer proc st buffer := by
  rw [nextBuffer, h]
  rfl

/-- `weight_readBuffer` for the step of the run. -/
theorem weight_nextBuffer (hcalm : Calm proc) (st : ReaderState) {buffer : Bytes}
    (hchain : LfAfterCr buffer) : weight (nextBuffer proc st buffer) ≤ weight st + nonLf buffer := by
  rw [nextBuffer]
  split
  · exact Nat.le_add_right _ _
  · exact weight_readBuffer hcalm buffer.length (Nat.le_refl _) hchain

/-- **No run gains weight**, by induction on its buffers. -/
theorem weight_nrun_le (hcalm : Calm proc) (hclean : ∀ f ∈ frames, Clean f)
    {buffers : List Bytes} (hbytes : buffers.flatten = stream frames) :
    weight (nrun proc .start buffers) ≤ nonLf (stream frames) := by
  have hchain := lfAfterCr_stream hclean
  rw [← hbytes] at hchain ⊢
  clear hbytes
  induction buffers using List.reverseRecOn with
  | nil => exact Nat.le_refl _
  | append_singleton buffers buffer ih =>
    have hflat : (buffers ++ [buffer]).flatten = buffers.flatten ++ buffer := by simp
    rw [hflat] at hchain ⊢
    obtain ⟨hfront, hbuffer, -⟩ := List.isChain_append.mp hchain
    have hlast := weight_nextBuffer hcalm (nrun proc .start buffers) hbuffer
    have hbefore := ih hfront
    rw [nrun_concat, nonLf_append]
    omega

/-- Nothing ends the thread. -/
theorem raised_nrun (hcalm : Calm proc) (buffers : List Bytes) :
    (nrun proc .start buffers).raised = false := by
  induction buffers using List.reverseRecOn with
  | nil => rfl
  | append_singleton buffers buffer ih =>
    rw [nrun_concat, nextBuffer_of_not_raised ih, readBuffer, raised_scan proc hcalm]
    exact ih

/-- A loss is not made up for. -/
theorem lost_nrun (hcalm : Calm proc) (hclean : ∀ f ∈ frames, Clean f) (buffers : List Bytes) :
    ∀ {st : ReaderState} {before : Bytes} (rest : Bytes), weight st < nonLf before →
      before ++ (buffers.flatten ++ rest) = stream frames →
      weight (nrun proc st buffers) < nonLf (before ++ buffers.flatten) := by
  induction buffers with
  | nil =>
    intro st before rest hlost _
    rw [List.flatten_nil, List.append_nil]
    exact hlost
  | cons buffer buffers ih =>
    intro st before rest hlost hbytes
    have hchain : LfAfterCr buffer := by
      have := lfAfterCr_stream hclean
      rw [← hbytes, List.flatten_cons, List.append_assoc] at this
      exact (List.isChain_append.mp (List.isChain_append.mp this).2.1).1
    have hstep := weight_nextBuffer hcalm st hchain
    have hlost' : weight (nextBuffer proc st buffer) < nonLf (before ++ buffer) := by
      rw [nonLf_append]
      omega
    have := ih rest hlost' (by rw [← hbytes]; simp)
    rw [List.flatten_cons, ← List.append_assoc]
    exact this

/-- Reader and buffers, without an event. -/
theorem reached_nrun (hcalm : Calm proc) (hclean : ∀ f ∈ frames, Clean f) {buffers : List Bytes}
    {rest : Bytes} (hbytes : buffers.flatten ++ rest = stream frames)
    (hwell : WellCut proc frames buffers) :
    Reached frames buffers.flatten (nrun proc .start buffers) := by
  induction buffers using List.reverseRecOn generalizing rest with
  | nil => exact reached_start frames
  | append_singleton buffers buffer ih =>
    have hflat : (buffers ++ [buffer]).flatten = buffers.flatten ++ buffer := by simp
    rw [hflat, List.append_assoc] at hbytes
    have hwell' : WellCut proc frames buffers := fun bs₁ b bs₂ h =>
      hwell bs₁ b (bs₂ ++ [buffer]) (by rw [h]; simp)
    obtain ⟨hcut, herr⟩ := hwell buffers buffer [] rfl
    rw [hflat, nrun_concat, nextBuffer_of_not_raised (raised_nrun hcalm buffers)]
    exact (reached_readBuffer hcalm hclean (ih hbytes hwell') hbytes).1 hcut herr

/-- It is there or it has lost something. -/
theorem reached_or_lost (hcalm : Calm proc) (hclean : ∀ f ∈ frames, Clean f)
    {buffers : List Bytes} {rest : Bytes} (hbytes : buffers.flatten ++ rest = stream frames) :
    Reached frames buffers.flatten (nrun proc .start buffers) ∨
      weight (nrun proc .start buffers) < nonLf buffers.flatten := by
  induction buffers using List.reverseRecOn generalizing rest with
  | nil => exact Or.inl (reached_start frames)
  | append_singleton buffers buffer ih =>
    have hflat : (buffers ++ [buffer]).flatten = buffers.flatten ++ buffer := by simp
    rw [hflat, List.append_assoc] at hbytes
    rw [hflat]
    rcases ih hbytes with hat | hlost
    · obtain ⟨hon, hloss⟩ := reached_readBuffer hcalm hclean hat hbytes
      rw [nrun_concat, nextBuffer_of_not_raised (raised_nrun hcalm buffers)]
      by_cases hevent : CutInside frames buffers.flatten buffer ∨
          ErrorInside proc frames buffers.flatten buffer
      · exact Or.inr (hloss hevent)
      · rw [not_or] at hevent
        exact Or.inl (hon hevent.1 hevent.2)
    · have := lost_nrun hcalm hclean [buffer] rest hlost
        (by simpa using hbytes)
      rw [nrun_append]
      simpa using Or.inr this

/-- At the end of the stream all frames are handed over. -/
theorem Reached.handed_eq {st : ReaderState} (h : Reached frames (stream frames) st) :
    st.handed = frames := by
  cases h with
  | between hpart fs hframes lead hl hbefore =>
    have hlen := congrArg List.length hbefore
    rw [hframes, stream_append] at hlen
    simp only [List.length_append] at hlen
    cases fs with
    | nil => simpa using hframes.symm
    | cons f fs =>
      rw [length_stream_cons] at hlen
      omega
  | inside hpart q fs hframes hbuf hbefore =>
    have hlen := congrArg List.length hbefore
    rw [hframes, stream_append, List.length_append, length_stream_cons] at hlen
    simp only [List.length_append] at hlen
    omega

/-- What is handed over is part of the weight. -/
theorem weight_ge_handed (st : ReaderState) : nonLf (stream st.handed) ≤ weight st := by
  rw [nonLf_stream]
  exact Nat.le_add_right _ _

/-- A loop that catches every exception hands over the frames of the stream exactly
when the buffers are well cut. -/
theorem handed_nrun_iff (hcalm : Calm proc) {buffers : List Bytes}
    (hclean : ∀ f ∈ frames, Clean f) (hbytes : buffers.flatten = stream frames) :
    (nrun proc .start buffers).handed = frames ↔ WellCut proc frames buffers := by
  constructor
  · intro hhanded bs₁ buffer bs₂ h
    by_contra hevent
    rw [not_and_or, not_not, not_not] at hevent
    have hsplit : bs₁.flatten ++ (buffer ++ bs₂.flatten) = stream frames := by
      rw [← hbytes, h]
      simp
    have hlost : weight (nrun proc .start (bs₁ ++ [buffer])) < nonLf (bs₁.flatten ++ buffer) := by
      rcases reached_or_lost hcalm hclean hsplit with hat | hlost
      · rw [nrun_concat, nextBuffer_of_not_raised (raised_nrun hcalm bs₁)]
        exact (reached_readBuffer hcalm hclean hat hsplit).2 hevent
      · have := lost_nrun hcalm hclean [buffer] bs₂.flatten hlost
          (by simpa using hsplit)
        rw [nrun_append]
        simpa using this
    have hend := lost_nrun hcalm hclean bs₂ [] hlost
      (by rw [List.append_nil, List.append_assoc]; exact hsplit)
    rw [← nrun_append, List.append_assoc, List.append_assoc, List.singleton_append, ← h, hsplit]
      at hend
    have hle := weight_ge_handed (nrun proc .start buffers)
    rw [hhanded] at hle
    omega
  · intro hwell
    have hat := reached_nrun hcalm hclean ((List.append_nil _).trans hbytes) hwell
    rw [hbytes] at hat
    exact hat.handed_eq

/-! ## 8. Exceptions -/

/-- The loop as it would be with a handler for every exception. -/
def MsgProcessing.calm (proc : MsgProcessing) : MsgProcessing := fun handed f =>
  match proc handed f with
  | .raised => .message
  | p => p

theorem calm_calm (proc : MsgProcessing) : Calm proc.calm := by
  intro handed f
  unfold MsgProcessing.calm
  split
  · exact nofun
  · assumption

/-- The loop that catches everything differs at an exception only. -/
theorem calm_of_ne {handed : List Bytes} {f : Bytes} (h : proc handed f ≠ .raised) :
    proc.calm handed f = proc handed f := by
  unfold MsgProcessing.calm
  split
  · rename_i hraised
    exact absurd hraised h
  · rfl

theorem calm_readError (proc : MsgProcessing) (handed : List Bytes) (f : Bytes) :
    proc.calm handed f = .readError ↔ proc handed f = .readError := by
  unfold MsgProcessing.calm
  split
  · rename_i hraised
    rw [hraised]
    exact ⟨nofun, nofun⟩
  · rfl

/-- How the stream is cut does not depend on the exceptions. -/
theorem wellCut_calm (proc : MsgProcessing) (frames buffers : List Bytes) :
    WellCut proc.calm frames buffers ↔ WellCut proc frames buffers := by
  unfold WellCut ErrorInside
  simp only [calm_readError]

/-- No frame of the list was one that ends the thread. -/
def NeverRaised (proc : MsgProcessing) (handed : List Bytes) : Prop :=
  ∀ hs f back, handed = hs ++ f :: back → proc hs f ≠ .raised

theorem NeverRaised.concat {handed : List Bytes} (h : NeverRaised proc handed) {f : Bytes}
    (hf : proc handed f ≠ .raised) : NeverRaised proc (handed ++ [f]) := by
  intro hs g back heq
  rcases List.eq_nil_or_concat back with rfl | ⟨back, a, rfl⟩
  · obtain ⟨rfl, hfg⟩ := List.append_inj' heq rfl
    obtain ⟨rfl, -⟩ := List.cons_eq_cons.mp hfg
    exact hf
  · rw [List.concat_eq_append, ← List.cons_append, ← List.append_assoc] at heq
    exact h hs g back (List.append_inj' heq rfl).1

/-- The reader beside one that catches every exception: it is in the same place, or
the last frame that it handed over has ended it and the other went on. -/
inductive Beside (proc : MsgProcessing) (st calm : ReaderState) : Prop where
  | same (heq : st = calm) (hraised : st.raised = false) (hnever : NeverRaised proc st.handed)
  | ended (hraised : st.raised = true) (hs : List Bytes) (f : Bytes)
      (hhanded : st.handed = hs ++ [f]) (hnever : NeverRaised proc hs) (hf : proc hs f = .raised)
      (hon : st.handed <+: calm.handed)

/-- Within one buffer the two loops agree until an exception, by induction on the fuel. -/
theorem beside_scan (fuel : Nat) (st : ReaderState) (rest : Bytes) (hraised : st.raised = false)
    (hnever : NeverRaised proc st.handed) :
    Beside proc (scan proc fuel st rest) (scan proc.calm fuel st rest) := by
  induction fuel generalizing st rest with
  | zero => exact .same rfl hraised hnever
  | succ fuel ih =>
    have hturn := kept_turn st rest
    rw [scan, scan]
    split
    · exact .same rfl hraised hnever
    · cases h : turn st rest with
      | leave st' =>
        rw [h] at hturn
        exact .same rfl (hturn.2.trans hraised) (hturn.1 ▸ hnever)
      | skip index st' =>
        rw [h] at hturn
        exact ih st' _ (hturn.2.trans hraised) (hturn.1 ▸ hnever)
      | frame f index st' =>
        rw [h] at hturn
        obtain ⟨hhanded, hst'⟩ := hturn
        change st'.handed = st.handed at hhanded
        dsimp only
        by_cases hf : proc st'.handed f = .raised
        · have hcalm : proc.calm st'.handed f = .message := by rw [MsgProcessing.calm, hf]
          rw [hf, hcalm]
          refine .ended rfl st'.handed f rfl (hhanded ▸ hnever) hf ?_
          exact handed_scan proc.calm fuel { st' with handed := st'.handed ++ [f] } _
        · have hnext : NeverRaised proc (st'.handed ++ [f]) :=
            NeverRaised.concat (hhanded ▸ hnever) hf
          rw [calm_of_ne hf]
          split
          · exact .same rfl (hst'.trans hraised) hnext
          · rename_i heq
            exact absurd heq hf
          · exact ih _ _ (hst'.trans hraised) hnext

/-- **The two loops side by side**, by induction on the buffers. -/
theorem beside_nrun (proc : MsgProcessing) (buffers : List Bytes) :
    Beside proc (nrun proc .start buffers) (nrun proc.calm .start buffers) := by
  induction buffers using List.reverseRecOn with
  | nil =>
    refine .same rfl rfl fun hs f back h => ?_
    exact absurd h.symm (List.append_ne_nil_of_right_ne_nil hs (List.cons_ne_nil f back))
  | append_singleton buffers buffer ih =>
    rw [nrun_concat, nrun_concat,
      nextBuffer_of_not_raised (raised_nrun (calm_calm proc) buffers)]
    cases ih with
    | same heq hraised hnever =>
      rw [nextBuffer_of_not_raised hraised, ← heq]
      exact beside_scan _ _ _ hraised hnever
    | ended hraised hs f hhanded hnever hf hon =>
      rw [nextBuffer, if_pos hraised]
      exact .ended hraised hs f hhanded hnever hf
        (hon.trans (handed_scan proc.calm _ _ _))

/-- A frame in front of another one ends the thread. -/
def EndsEarly (proc : MsgProcessing) (frames : List Bytes) : Prop :=
  ∃ fs₁ f g fs₂, frames = fs₁ ++ f :: g :: fs₂ ∧ proc fs₁ f = .raised

/-- **The frames handed over are the frames of the stream exactly when no
buffer ends between CR and LF of a frame that began in an earlier buffer, no
read error comes with more of its buffer to read, and no other exception with more
frames to come.** -/
theorem framing_iff (proc : MsgProcessing) {frames buffers : List Bytes}
    (hclean : ∀ f ∈ frames, Clean f) (hbytes : buffers.flatten = stream frames) :
    (nrun proc .start buffers).handed = frames ↔
      WellCut proc frames buffers ∧ ¬ EndsEarly proc frames := by
  have hcalm := handed_nrun_iff (calm_calm proc) hclean hbytes
  rw [wellCut_calm] at hcalm
  rw [← hcalm]
  cases beside_nrun proc buffers with
  | same heq hraised hnever =>
    rw [← heq]
    refine ⟨fun hhanded => ⟨hhanded, ?_⟩, And.left⟩
    rintro ⟨fs₁, f, g, fs₂, hframes, hf⟩
    exact hnever fs₁ f (g :: fs₂) (hhanded.trans hframes) hf
  | ended hraised hs f hhanded hnever hf hon =>
    obtain ⟨back, hback⟩ := hon
    constructor
    · intro hall
      -- the other reader has no more frames to hand over
      have hweight := weight_nrun_le (calm_calm proc) hclean hbytes
      have hle := weight_ge_handed (nrun proc.calm .start buffers)
      rw [← hback, hall, stream_append, nonLf_append] at hle
      have hnone : back = [] := by
        cases back with
        | nil => rfl
        | cons b back =>
          rw [stream_cons, nonLf_append, nonLf_cons_cr] at hle
          omega
      rw [hnone, List.append_nil] at hback
      refine ⟨hback.symm.trans hall, ?_⟩
      rintro ⟨fs₁, f', g, fs₂, hframes, hf'⟩
      obtain ⟨fs, a, hconcat⟩ : ∃ fs a, g :: fs₂ = fs ++ [a] := by
        rcases List.eq_nil_or_concat (g :: fs₂) with h | ⟨fs, a, h⟩
        · cases h
        · exact ⟨fs, a, h.trans (List.concat_eq_append ..)⟩
      rw [← hall, hhanded, hconcat, ← List.cons_append, ← List.append_assoc] at hframes
      exact hnever fs₁ f' fs (List.append_inj' hframes rfl).1 hf'
    · rintro ⟨hcalmed, hearly⟩
      rw [hcalmed, hhanded] at hback
      cases back with
      | nil => rw [hhanded, ← hback, List.append_nil]
      | cons b back =>
        refine absurd ⟨hs, f, b, back, ?_, hf⟩ hearly
        rw [← hback, List.append_assoc, List.singleton_append]

theorem clean_twoFrames : ∀ f ∈ ([[97, 98], [99, 100]] : List Bytes), Clean f := by
  intro f hf
  rcases List.mem_pair.mp hf with rfl | rfl
  · exact ⟨by simp, by simp [separator, cr, lf]⟩
  · exact ⟨by simp, by simp [separator, cr, lf]⟩

/-- A cut between CR and LF, of a frame that began in the same buffer, and a
frame in two parts. -/
theorem framing_twoFrames :
    WellCut (fun _ _ => .message) [[97, 98], [99, 100]] [[97, 98, 13], [10, 99], [100, 13, 10]] ∧
      ¬ EndsEarly (fun _ _ => .message) [[97, 98], [99, 100]] :=
  (@framing_iff (fun _ _ => .message) _ [[97, 98, 13], [10, 99], [100, 13, 10]]
    clean_twoFrames rfl).mp (by decide)

/-- The first of two frames in one buffer ends the thread. -/
example :
    (nrun (fun _ f => if f = [97, 98] then .raised else .message) .start
      [[97, 98, 13, 10, 99, 100, 13, 10]]).handed = [[97, 98]] := by decide

/-- A frame in two parts, the second with its CR at the end: it comes out with
the next frame behind it. -/
theorem not_framing_merged :
    ¬ ∀ (proc : MsgProcessing) (frames buffers : List Bytes), (∀ f ∈ frames, Clean f) →
      (∀ b ∈ buffers, b ≠ []) → buffers.flatten = stream frames →
      (nrun proc .start buffers).handed = frames := by
  intro h
  have hmerged := h (fun _ _ => .message) _ [[97], [98, 13], [10, 99, 100, 13, 10]]
    clean_twoFrames (by decide) rfl
  exact absurd hmerged (by decide)

end Streams

end NavigationServer.RouterCore
