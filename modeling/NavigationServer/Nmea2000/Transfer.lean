/-
NavigationServer.Nmea2000.Transfer — what one slot does with the frames of
one transfer.

A `Transfer` is a payload as it goes over the bus: the announced length, the
bytes behind it in frame 0, and the bytes of the frames 1 to n. Its frames
may reach the slot in any order behind frame 0. `Collecting t got p` says
that the record `p` holds frame 0 and the continuation frames `got`; a frame
that is not there yet extends it (`Collecting.add`), the two completion tests
agree that the last frame is the one that completes (`Collecting.complete`),
and then the frames are put together by their numbers, whatever the order
they came in (`Collecting.totalFrame`). `outs_transfer` is the whole run.

`assemble` is `total_frame` on a list of chunks in place of a table.
-/
import Mathlib.Algebra.Order.BigOperators.Group.List
import Mathlib.Algebra.Order.Floor.Div
import NavigationServer.Nmea2000.Reassembly

namespace NavigationServer.Nmea2000

open NavigationServer.Lib
open FastPacketHandler (controlByte)

/-! ## 1. Putting chunks together -/

/-- `totalStep` on a chunk that is at hand. -/
def assembleStep (byteLength : Nat) (acc : Bytes × Nat) (f : Bytes) : Bytes × Nat :=
  (setSlice acc.1 acc.2 acc.1.length
    (if byteLength ≤ acc.2 + f.length then slice f 0 ((byteLength : Int) - acc.2 + 1) else f),
   acc.2 + f.length)

/-- The buffer `total_frame` makes of the chunks 0, 1, … of a payload. -/
def assemble (byteLength : Nat) (chunks : List Bytes) : Bytes :=
  (chunks.foldl (assembleStep byteLength) (List.replicate byteLength 0, 0)).1

namespace FastPacket

theorem totalStep_some {p : FastPacket} {i : Nat} {f : Bytes} (h : p.frames.lookup i = some f)
    (acc : Bytes × Nat) : p.totalStep acc i = .ok (assembleStep p.byteLength acc f) := by
  simp [totalStep, assembleStep, h]

theorem totalStep_none {p : FastPacket} {i : Nat} (h : p.frames.lookup i = none)
    (acc : Bytes × Nat) :
    p.totalStep acc i = .error (.fastPacket s!"Missing frame {i}") := by
  simp [totalStep, h]

theorem foldlM_totalStep (p : FastPacket) : ∀ (chunks : List Bytes) (k : Nat) (acc : Bytes × Nat),
    (∀ i, (h : i < chunks.length) → p.frames.lookup (k + i) = some chunks[i]) →
    (List.range' k chunks.length).foldlM p.totalStep acc
      = .ok (chunks.foldl (assembleStep p.byteLength) acc)
  | [], _, _, _ => rfl
  | f :: fs, k, acc, h => by
      have h0 : p.frames.lookup k = some f := h 0 (by simp)
      rw [List.length_cons, List.range'_succ, List.foldlM_cons, totalStep_some h0]
      refine foldlM_totalStep p fs (k + 1) _ (fun i hi => ?_)
      rw [show k + 1 + i = k + (i + 1) by omega]
      exact h (i + 1) (by simpa using hi)

/-- With every frame there, `total_frame` returns their assembly. -/
theorem totalFrame_eq {p : FastPacket} (chunks : List Bytes) (hn : p.nbFrames = chunks.length)
    (h : ∀ i, (hi : i < chunks.length) → p.frames.lookup i = some chunks[i]) :
    p.totalFrame = .ok (assemble p.byteLength chunks) := by
  have hfold := foldlM_totalStep p chunks 0 (List.replicate p.byteLength 0, 0)
    (fun i hi => by rw [Nat.zero_add]; exact h i hi)
  rw [totalFrame, hn, List.range_eq_range', hfold]
  rfl

/-- A step of the loop raises nothing but a `FastPacketException`. -/
theorem foldlM_totalStep_missing (p : FastPacket) {i : Nat} (hi : p.frames.lookup i = none) :
    ∀ (is : List Nat) (acc : Bytes × Nat), i ∈ is →
      ∃ text, is.foldlM p.totalStep acc = .error (.fastPacket text)
  | [], _, hmem => by simp at hmem
  | j :: js, acc, hmem => by
      rw [List.foldlM_cons]
      cases hj : p.frames.lookup j with
      | none => exact ⟨_, by rw [totalStep_none hj]; rfl⟩
      | some f =>
        have hne : i ≠ j := fun h => by rw [h, hj] at hi; simp at hi
        have hmem' : i ∈ js := by simpa [hne] using hmem
        obtain ⟨text, ht⟩ := foldlM_totalStep_missing p hi js (assembleStep p.byteLength acc f) hmem'
        exact ⟨text, by rw [totalStep_some hj]; exact ht⟩

/-- A missing frame is an exception. -/
theorem totalFrame_missing {p : FastPacket} {i : Nat} (hi : i < p.nbFrames)
    (h : p.frames.lookup i = none) : ∃ text, p.totalFrame = .error (.fastPacket text) := by
  obtain ⟨text, ht⟩ := foldlM_totalStep_missing p h (List.range p.nbFrames)
    (List.replicate p.byteLength 0, 0) (by simpa using hi)
  exact ⟨text, by rw [totalFrame, ht]; rfl⟩

/-- `total_frame` returns a buffer exactly when every frame is there. -/
theorem totalFrame_isOk_iff (p : FastPacket) :
    (∃ buf, p.totalFrame = .ok buf) ↔ ∀ i < p.nbFrames, p.frames.lookup i ≠ none := by
  constructor
  · rintro ⟨buf, hbuf⟩ i hi hnone
    obtain ⟨text, ht⟩ := totalFrame_missing hi hnone
    simp [hbuf] at ht
  · intro h
    refine ⟨_, totalFrame_eq
      ((List.range p.nbFrames).map (fun i => (p.frames.lookup i).getD [])) (by simp) ?_⟩
    intro i hi
    obtain ⟨f, hf⟩ := Option.ne_none_iff_exists'.mp (h i (by simpa using hi))
    rw [List.getElem_map, List.getElem_range, hf]
    rfl

/-- The number of frames announced by a length of at least 6. -/
theorem nbFramesFor_eq {byteLength : Nat} (h : 6 ≤ byteLength) :
    nbFramesFor byteLength = (byteLength - 6) ⌈/⌉ 7 + 1 := by
  rw [Nat.ceilDiv_eq_add_pred_div, nbFramesFor]
  simp only [Int.tdiv_eq_ediv_of_nonneg (show (0 : Int) ≤ (byteLength : Int) - 6 by omega)]
  split <;> omega

/-- A length below 6 counts two frames. -/
theorem nbFramesFor_of_lt {byteLength : Nat} (h : byteLength < 6) : nbFramesFor byteLength = 2 := by
  match byteLength, h with
  | 0, _ | 1, _ | 2, _ | 3, _ | 4, _ | 5, _ => rfl

theorem nbFramesFor_pos (byteLength : Nat) : 0 < nbFramesFor byteLength := by
  rcases Nat.lt_or_ge byteLength 6 with h | h
  · simp [nbFramesFor_of_lt h]
  · simp [nbFramesFor_eq h]

/-- The record after a frame 0. -/
def withFirst (p : FastPacket) (byteLength : Nat) (data : Bytes) : FastPacket :=
  { p with
    byteLength := byteLength
    nbFrames := nbFramesFor byteLength
    length := p.length + 6
    frames := p.frames.insert 0 data
    count := p.count + 1 }

/-- The record after a new continuation frame. -/
def withCont (p : FastPacket) (i : Nat) (data : Bytes) : FastPacket :=
  { p with
    frames := p.frames.insert i data
    count := p.count + 1
    length := p.length + data.length }

theorem takeFrame_zero (p : FastPacket) (b len : UInt8) (data : Bytes) :
    p.takeFrame 0 (b :: len :: data) = .ok (p.withFirst len.toNat data) := rfl

/-- A frame 0 with no length byte. -/
theorem takeFrame_zero_short (p : FastPacket) (b : UInt8) :
    p.takeFrame 0 [b] = .error .indexError := rfl

theorem takeFrame_new {p : FastPacket} {b : UInt8} {i : Nat} (data : Bytes)
    (hi : FastPacketHandler.counterOf b = i) (h0 : i ≠ 0) (h : p.frames.lookup i = none) :
    p.takeFrame i (b :: data) = .ok (p.withCont i data) := by
  subst hi
  simp only [FastPacketHandler.counterOf] at h h0 ⊢
  simp only [takeFrame, if_neg h0, addPacket, h, withCont]

theorem takeFrame_duplicate {p : FastPacket} {b : UInt8} {i : Nat} (data : Bytes)
    (hi : FastPacketHandler.counterOf b = i) (h0 : i ≠ 0) (h : p.frames.lookup i ≠ none) :
    p.takeFrame i (b :: data) = .error (.fastPacket s!"Frame Index duplicate {i}") := by
  subst hi
  obtain ⟨f, hf⟩ := Option.ne_none_iff_exists'.mp h
  simp only [FastPacketHandler.counterOf] at hf h0 ⊢
  simp only [takeFrame, if_neg h0, addPacket, hf]

end FastPacket

/-! ## 2. Transfers -/

/-- A payload as its frames carry it: frame 0 announces the length and brings
`first`, frame `i + 1` brings `conts[i]`. The continuation frames bring 7
bytes, the last one at least what is left. -/
structure Transfer where
  seq : Nat
  byteLength : Nat
  first : Bytes
  conts : List Bytes
  seq_lt : seq < 8
  le_byteLength : 6 ≤ byteLength
  byteLength_le : byteLength ≤ 223
  length_conts : conts.length = (byteLength - 6) ⌈/⌉ 7
  full : ∀ d ∈ conts.dropLast, d.length = 7
  last : ∀ d ∈ conts.getLast?, byteLength ≤ 6 + 7 * (conts.length - 1) + d.length ∧ d.length ≤ 7
  deriving DecidableEq

namespace Transfer

variable (t : Transfer)

/-- The continuation frames with their numbers, from 1. -/
def numbered : List (Bytes × Nat) := t.conts.zipIdx 1

def frame0 : Bytes := controlByte t.seq 0 :: UInt8.ofNat t.byteLength :: t.first

def cont (c : Bytes × Nat) : Bytes := controlByte t.seq c.2 :: c.1

/-- The frames in order. -/
def frames : List Bytes := t.frame0 :: t.numbered.map t.cont

/-- What the receiver makes of the transfer. -/
def buffer : Bytes := assemble t.byteLength (t.first :: t.conts)

theorem length_conts_eq : t.conts.length = t.byteLength / 7 := by
  have := t.le_byteLength
  rw [t.length_conts, Nat.ceilDiv_eq_add_pred_div]
  omega

theorem length_conts_lt : t.conts.length < 32 := by
  have := t.byteLength_le
  rw [t.length_conts_eq]
  omega

theorem nbFramesFor_byteLength : FastPacket.nbFramesFor t.byteLength = t.conts.length + 1 := by
  rw [FastPacket.nbFramesFor_eq t.le_byteLength, t.length_conts]

@[simp] theorem length_numbered : t.numbered.length = t.conts.length := by
  simp [numbered]

theorem length_cont_le {d : Bytes} (hd : d ∈ t.conts) : d.length ≤ 7 := by
  rcases List.eq_nil_or_concat t.conts with h | ⟨init, l, h⟩
  · simp [h] at hd
  · have hfull := t.full
    have hlast := t.last
    simp only [h, List.concat_eq_append, List.dropLast_concat, List.getLast?_concat,
      List.mem_append, List.mem_singleton, Option.mem_some_iff, forall_eq'] at hd hfull hlast
    rcases hd with hd | rfl
    · exact Nat.le_of_eq (hfull d hd)
    · exact hlast.2

theorem mem_numbered {c : Bytes × Nat} (hc : c ∈ t.numbered) :
    0 < c.2 ∧ c.2 < 32 ∧ c.1 ∈ t.conts := by
  obtain ⟨d, i⟩ := c
  obtain ⟨hi, hlt, hd⟩ := List.mem_zipIdx hc
  have := t.length_conts_lt
  exact ⟨by omega, by simp only; omega, by rw [hd]; exact List.getElem_mem _⟩

theorem nodup_numbered : (t.numbered.map Prod.snd).Nodup := by
  simp [numbered, List.nodup_range']

end Transfer

/-! ## 3. Collecting the frames -/

/-- The record `p` holds frame 0 of `t` and the continuation frames `got`. -/
structure Collecting (t : Transfer) (got : List (Bytes × Nat)) (p : FastPacket) : Prop where
  byteLength : p.byteLength = t.byteLength
  nbFrames : p.nbFrames = t.conts.length + 1
  count : p.count = got.length + 1
  length : p.length = 6 + (got.map (fun c => c.1.length)).sum
  first : p.frames.lookup 0 = some t.first
  mem : ∀ c ∈ got, p.frames.lookup c.2 = some c.1
  missing : ∀ i, i ≠ 0 → i ∉ got.map Prod.snd → p.frames.lookup i = none

namespace Collecting

variable {t : Transfer} {got : List (Bytes × Nat)} {p : FastPacket}

/-- Frame 0 in a record that holds nothing yet. -/
theorem start (hcount : p.count = 0) (hlength : p.length = 0) (hframes : p.frames = ∅) :
    ∃ p', p.takeFrame 0 t.frame0 = .ok p' ∧ Collecting t [] p' := by
  have hL : (UInt8.ofNat t.byteLength).toNat = t.byteLength := by
    have := t.byteLength_le
    rw [UInt8.toNat_ofNat']
    omega
  refine ⟨_, FastPacket.takeFrame_zero p _ _ _, ?_⟩
  rw [hL]
  constructor
  · rfl
  · exact t.nbFramesFor_byteLength
  · simp [FastPacket.withFirst, hcount]
  · simp [FastPacket.withFirst, hlength]
  · simp [FastPacket.withFirst]
  · simp
  · intro i hi _
    rw [FastPacket.withFirst, hframes, AList.lookup_insert_ne hi, AList.lookup_empty]

/-- A continuation frame that is not there yet. -/
theorem add (h : Collecting t got p) {c : Bytes × Nat} (h0 : 0 < c.2) (h32 : c.2 < 32)
    (hnew : c.2 ∉ got.map Prod.snd) :
    ∃ p', p.takeFrame c.2 (t.cont c) = .ok p' ∧ Collecting t (c :: got) p' := by
  have hne : c.2 ≠ 0 := by omega
  refine ⟨_, FastPacket.takeFrame_new c.1
    (FastPacketHandler.counterOf_controlByte t.seq_lt h32) hne (h.missing c.2 hne hnew), ?_⟩
  constructor
  · exact h.byteLength
  · exact h.nbFrames
  · simp [FastPacket.withCont, h.count]
  · simp only [FastPacket.withCont, h.length, List.map_cons, List.sum_cons]
    omega
  · rw [FastPacket.withCont, AList.lookup_insert_ne (Ne.symm hne), h.first]
  · intro c' hc'
    rcases List.mem_cons.mp hc' with rfl | hc'
    · simp [FastPacket.withCont]
    · have : c'.2 ≠ c.2 := fun he => hnew (he ▸ List.mem_map_of_mem hc')
      rw [FastPacket.withCont, AList.lookup_insert_ne this, h.mem c' hc']
  · intro i hi hmem
    simp only [List.map_cons, List.mem_cons, not_or] at hmem
    rw [FastPacket.withCont, AList.lookup_insert_ne hmem.1, h.missing i hi hmem.2]

/-- The length test and the count test are met together, at the last frame. -/
theorem complete (h : Collecting t got p) (hle : got.length ≤ t.conts.length)
    (hlen : ∀ c ∈ got, c.1.length ≤ 7) :
    p.checkComplete = decide (got.length = t.conts.length) := by
  have hsum : (got.map (fun c => c.1.length)).sum ≤ got.length * 7 := by
    have hall : ∀ x ∈ got.map (fun c => c.1.length), x ≤ 7 := by
      intro x hx
      obtain ⟨c, hc, rfl⟩ := List.mem_map.mp hx
      exact hlen c hc
    simpa using List.sum_le_card_nsmul _ 7 hall
  have hn := t.length_conts_eq
  have hL := t.le_byteLength
  rw [FastPacket.checkComplete, h.byteLength, h.nbFrames, h.count, h.length, if_neg (by omega)]
  apply decide_eq_decide.mpr
  omega

/-- The frames are put together by their numbers. -/
theorem totalFrame (h : Collecting t got p) (hp : got.Perm t.numbered) :
    p.totalFrame = .ok t.buffer := by
  have hbuf := FastPacket.totalFrame_eq (p := p) (t.first :: t.conts) (by simp [h.nbFrames]) ?_
  · rw [hbuf, h.byteLength]
    rfl
  · intro i hi
    cases i with
    | zero => exact h.first
    | succ i =>
      have hi' : i < t.conts.length := by simpa using hi
      have hmem : (t.conts[i], i + 1) ∈ t.numbered := by
        rw [Transfer.numbered, List.mem_iff_getElem]
        exact ⟨i, by simpa using hi', by simp [Nat.add_comm]⟩
      exact h.mem _ (hp.mem_iff.mpr hmem)

end Collecting

/-! ## 4. The run of a transfer -/

/-- A frame that is not empty, in a slot that is open. -/
theorem slotStep_open (p : FastPacket) (rx : Received) {b : UInt8} {data : Bytes}
    (h : rx.frame = b :: data) :
    slotStep (some p) rx = feedSlot (FastPacketHandler.counterOf b) p (b :: data) := by
  simp [slotStep, h]

/-- A frame 0 opens a slot that is free. -/
theorem slotStep_free (rx : Received) {b : UInt8} {data : Bytes} (h : rx.frame = b :: data)
    (h0 : FastPacketHandler.counterOf b = 0) :
    slotStep none rx = feedSlot 0
      (FastPacket.new rx.now rx.pgn rx.addr (FastPacketHandler.seqOf b)) (b :: data) := by
  simp [slotStep, h, h0]

theorem feedSlot_ok {counter : Nat} {p p' : FastPacket} {frame : Bytes}
    (h : p.takeFrame counter frame = .ok p') :
    feedSlot counter p frame
      = if p'.checkComplete then (p'.totalFrame.map some, none) else (.ok none, some p') := by
  simp [feedSlot, h]

variable {t : Transfer}

/-- One continuation frame: `none`, or the payload if it was the last. -/
theorem slotStep_cont {got : List (Bytes × Nat)} {p : FastPacket} (h : Collecting t got p)
    {c : Bytes × Nat} {todo : List (Bytes × Nat)} (hp : (c :: todo ++ got).Perm t.numbered)
    (rx : Received) (hrx : rx.frame = t.cont c) :
    (todo = [] → slotStep (some p) rx = (.ok (some t.buffer), none)) ∧
    (todo ≠ [] → ∃ p', slotStep (some p) rx = (.ok none, some p') ∧
      Collecting t (c :: got) p') := by
  have hmem : ∀ c' ∈ c :: todo ++ got, 0 < c'.2 ∧ c'.2 < 32 ∧ c'.1 ∈ t.conts :=
    fun c' hc' => t.mem_numbered (hp.mem_iff.mp hc')
  obtain ⟨h0, h32, -⟩ := hmem c (by simp)
  have hnodup : ((c :: todo ++ got).map Prod.snd).Nodup :=
    (hp.map Prod.snd).nodup_iff.mpr t.nodup_numbered
  have hnew : c.2 ∉ got.map Prod.snd := by
    simp only [List.cons_append, List.map_cons, List.map_append, List.nodup_cons,
      List.mem_append, not_or] at hnodup
    exact hnodup.1.2
  have hlen : todo.length + (got.length + 1) = t.conts.length := by
    have := hp.length_eq
    simp only [List.cons_append, List.length_cons, List.length_append,
      Transfer.length_numbered] at this
    omega
  obtain ⟨p', hp', hc'⟩ := h.add h0 h32 hnew
  have hcomplete := hc'.complete (by simp; omega)
    (fun c' hc' => t.length_cont_le (hmem c' (by
      rcases List.mem_cons.mp hc' with rfl | hc'
      · simp
      · simp [hc'])).2.2)
  have hstep : slotStep (some p) rx = feedSlot c.2 p (t.cont c) := by
    rw [slotStep_open p rx hrx,
      FastPacketHandler.counterOf_controlByte t.seq_lt h32]
    rfl
  rw [hstep, feedSlot_ok hp', hcomplete]
  constructor
  · rintro rfl
    have hperm : (c :: got).Perm t.numbered := by simpa using hp
    rw [if_pos (decide_eq_true (by simpa using hlen)), hc'.totalFrame hperm]
    rfl
  · intro hne
    have : 0 < todo.length := List.length_pos_iff.mpr hne
    refine ⟨p', ?_, hc'⟩
    rw [if_neg (by simp; omega)]

/-- The continuation frames in any order, behind frame 0. -/
theorem outs_conts : ∀ (todo : List (Bytes × Nat)) {got : List (Bytes × Nat)} {p : FastPacket}
    (rxs : List Received), Collecting t got p → todo ≠ [] → (todo ++ got).Perm t.numbered →
    rxs.map Received.frame = todo.map t.cont →
    slotMachine.outs (some p) rxs
        = List.replicate (todo.length - 1) (.ok none) ++ [.ok (some t.buffer)] ∧
      slotMachine.final (some p) rxs = none
  | [], _, _, _, _, hne, _, _ => absurd rfl hne
  | c :: todo, got, p, [], _, _, _, hf => by simp at hf
  | c :: todo, got, p, rx :: rxs, h, _, hp, hf => by
      simp only [List.map_cons, List.cons.injEq] at hf
      obtain ⟨hlast, hmore⟩ := slotStep_cont h hp rx hf.1
      rw [Machine.outs_cons, Machine.final_cons,
        show slotMachine.step (some p) rx = slotStep (some p) rx from rfl]
      rcases eq_or_ne todo [] with htodo | htodo
      · have hnil : rxs = [] := by simpa [htodo] using hf.2
        rw [hlast htodo, hnil]
        simp [htodo]
      · obtain ⟨p', hstep, hc'⟩ := hmore htodo
        have hp' : (todo ++ c :: got).Perm t.numbered := List.perm_middle.trans hp
        obtain ⟨houts, hfinal⟩ := outs_conts todo rxs hc' htodo hp' hf.2
        have hlen : todo.length - 1 + 1 = todo.length := by
          have := List.length_pos_iff.mpr htodo
          omega
        rw [hstep, houts, hfinal, List.length_cons, Nat.add_sub_cancel, ← hlen,
          List.replicate_succ]
        simp

/-- A record that has been opened and holds nothing yet. -/
def FastPacket.Blank (p : FastPacket) : Prop :=
  p.count = 0 ∧ p.length = 0 ∧ p.frames = ∅

theorem FastPacket.blank_new (now : Time) (pgn addr seq : Nat) :
    (FastPacket.new now pgn addr seq).Blank := ⟨rfl, rfl, rfl⟩

/-- **The run of a transfer.** From a free slot, frame 0 and then the other
frames in any order: `none` until the last, which returns the buffer and frees
the slot. -/
theorem outs_transfer {todo : List (Bytes × Nat)} (hp : todo.Perm t.numbered)
    {rxs : List Received} (hf : rxs.map Received.frame = t.frame0 :: todo.map t.cont) :
    slotMachine.outs none rxs
        = List.replicate t.conts.length (.ok none) ++ [.ok (some t.buffer)] ∧
      slotMachine.final none rxs = none := by
  obtain ⟨rx, rxs, rfl⟩ : ∃ rx rest, rxs = rx :: rest := by
    cases rxs with
    | nil => simp at hf
    | cons rx rest => exact ⟨rx, rest, rfl⟩
  simp only [List.map_cons, List.cons.injEq] at hf
  have hctr : FastPacketHandler.counterOf (controlByte t.seq 0) = 0 :=
    FastPacketHandler.counterOf_controlByte t.seq_lt (by omega)
  have hstep : slotStep none rx = feedSlot 0
      (FastPacket.new rx.now rx.pgn rx.addr (FastPacketHandler.seqOf (controlByte t.seq 0)))
      t.frame0 := slotStep_free rx hf.1 hctr
  obtain ⟨p', hp', hc'⟩ := Collecting.start (t := t)
    (p := FastPacket.new rx.now rx.pgn rx.addr (FastPacketHandler.seqOf (controlByte t.seq 0)))
    rfl rfl rfl
  have hlen : todo.length = t.conts.length := by
    rw [hp.length_eq, Transfer.length_numbered]
  rw [Machine.outs_cons, Machine.final_cons,
    show slotMachine.step none rx = slotStep none rx from rfl, hstep, feedSlot_ok hp',
    hc'.complete (by simp) (by simp)]
  rcases eq_or_ne todo [] with htodo | htodo
  · -- the length is 6: frame 0 is the whole transfer
    have h0 : t.conts.length = 0 := by rw [← hlen, htodo]; rfl
    have hnil : rxs = [] := by simpa [htodo] using hf.2
    rw [if_pos (decide_eq_true (by rw [h0]; rfl)), hc'.totalFrame (by rw [← htodo]; exact hp),
      hnil, h0]
    exact ⟨rfl, rfl⟩
  · have hpos : 0 < todo.length := List.length_pos_iff.mpr htodo
    rw [if_neg (by simp; omega)]
    obtain ⟨houts, hfinal⟩ := outs_conts todo rxs hc' htodo (by simpa using hp) hf.2
    have hsucc : t.conts.length = (t.conts.length - 1) + 1 := by omega
    rw [houts, hfinal, hlen, hsucc, List.replicate_succ]
    simp

end NavigationServer.Nmea2000
