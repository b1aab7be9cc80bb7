/-
NavigationServer.Nmea2000.OpenTransfers — what the table of open sequences
holds.

An `OpenTransfer` is an entry as the table should have it: under the key of
its own PGN, address and sequence number, with its frame 0, as many frames as
it counts, and not complete. `wellFormed_iff`: every entry stays one, and
`process_frame` raises nothing but a `FastPacketException`, along exactly the
calls in which every frame 0 has its length byte and completes the sequence it
meets, if there is one. A frame 0 of one byte raises an `IndexError` behind
the creation of the entry; a second frame 0 is counted although it replaces
the first one.
-/
import NavigationServer.Nmea2000.FastPacketTheorems

namespace NavigationServer.Nmea2000

open NavigationServer.Lib
open FastPacketHandler

/-! ## 1. The frames of an entry -/

/-- A frame that is there already is replaced. -/
theorem length_insert_of_mem {β : Type} {s : AList (fun _ : Nat => β)} {i : Nat} (b : β)
    (h : i ∈ s) : (s.insert i b).entries.length = s.entries.length := by
  have hkeys : (s.insert i b).keys.length = s.keys.length := by
    have hpos : 0 < s.keys.length := List.length_pos_of_mem (AList.mem_keys.mp h)
    rw [AList.keys_insert, List.length_cons, List.length_erase_of_mem (AList.mem_keys.mp h)]
    omega
  simpa [AList.keys, List.keys] using hkeys

theorem length_insert_of_notMem {β : Type} {s : AList (fun _ : Nat => β)} {i : Nat} (b : β)
    (h : i ∉ s) : (s.insert i b).entries.length = s.entries.length + 1 := by
  rw [AList.entries_insert_of_notMem h, List.length_cons]

namespace FastPacket

/-- `total_frame` raises nothing but a `FastPacketException`. -/
theorem totalFrame_error {p : FastPacket} {e : Exn} (h : p.totalFrame = .error e) :
    e.isFastPacket = true := by
  have hnot : ¬ ∃ buf, p.totalFrame = .ok buf := by
    rintro ⟨buf, hbuf⟩
    rw [h] at hbuf
    cases hbuf
  rw [totalFrame_isOk_iff] at hnot
  simp only [not_forall, not_not] at hnot
  obtain ⟨i, hi, hnone⟩ := hnot
  obtain ⟨text, ht⟩ := totalFrame_missing hi hnone
  rw [h] at ht
  cases ht
  rfl

/-- A frame 0 completes the record it is put in. -/
theorem checkComplete_withFirst (p : FastPacket) (byteLength : Nat) (data : Bytes) :
    (p.withFirst byteLength data).checkComplete
      = decide (byteLength ≤ p.length + 6 ∨ nbFramesFor byteLength ≤ p.count + 1) := by
  have hpos := nbFramesFor_pos byteLength
  rw [checkComplete, withFirst, if_neg (by simp only; omega)]

end FastPacket

/-! ## 2. Well-formed entries -/

/-- A call of `process_frame` with a frame 0 of at least two bytes. -/
structure BringsFirst (rx : Received) (key : Nat) (data : Bytes) : Prop where
  key : rx.key = key
  frame : ∃ control announced, rx.frame = control :: announced :: data ∧ counterOf control = 0

/-- An entry as it should stand in the table under `key`, behind the calls
`received`. -/
structure OpenTransfer (received : List Received) (key : Nat) (p : FastPacket) : Prop where
  stored : key = p.key
  own : p.key = FastPacket.computeKey p.pgn p.source p.seq
  first : ∃ data, p.frames.lookup 0 = some data ∧ ∃ rx ∈ received, BringsFirst rx key data
  count : p.count = p.frames.entries.length
  waiting : p.checkComplete = false

/-- Every entry of the table. -/
def FastPacketHandler.WellFormed (h : FastPacketHandler) (received : List Received) : Prop :=
  ∀ key p, h.sequences.lookup key = some p → OpenTransfer received key p

namespace OpenTransfer

variable {received : List Received} {key : Nat} {p : FastPacket}

theorem mono (h : OpenTransfer received key p) (later : List Received) :
    OpenTransfer (received ++ later) key p where
  stored := h.stored
  own := h.own
  first := by
    obtain ⟨data, hdata, rx, hrx, hb⟩ := h.first
    exact ⟨data, hdata, rx, List.mem_append_left _ hrx, hb⟩
  count := h.count
  waiting := h.waiting

/-- A frame 0 that opens a sequence and does not complete it. -/
theorem withFirst_new {rx : Received} {control announced : UInt8} {data : Bytes}
    (hf : rx.frame = control :: announced :: data) (h0 : counterOf control = 0)
    (hw : ((FastPacket.new rx.now rx.pgn rx.addr (seqOf control)).withFirst announced.toNat
      data).checkComplete = false) :
    OpenTransfer (received ++ [rx]) rx.key
      ((FastPacket.new rx.now rx.pgn rx.addr (seqOf control)).withFirst announced.toNat data) where
  stored := by
    rw [Received.key, hf]
    rfl
  own := rfl
  first := by
    refine ⟨data, AList.lookup_insert _, rx, by simp, rfl, control, announced, hf, h0⟩
  count := rfl
  waiting := hw

/-- A continuation frame that is not there yet. -/
theorem withCont (h : OpenTransfer received key p) {i : Nat} (data : Bytes) (h0 : i ≠ 0)
    (hnew : p.frames.lookup i = none) (hw : (p.withCont i data).checkComplete = false) :
    OpenTransfer received key (p.withCont i data) where
  stored := h.stored
  own := h.own
  first := by
    rw [FastPacket.withCont, AList.lookup_insert_ne (Ne.symm h0)]
    exact h.first
  count := by
    rw [FastPacket.withCont, length_insert_of_notMem _ (AList.lookup_eq_none.mp hnew), ← h.count]
  waiting := hw

/-- Another frame 0 is counted and not stored beside the first one. -/
theorem not_withFirst (h : OpenTransfer received key p) (later : List Received) (byteLength : Nat)
    (data : Bytes) : ¬ OpenTransfer later key (p.withFirst byteLength data) := by
  intro h'
  obtain ⟨data0, hdata0, -⟩ := h.first
  have hmem : (0 : Nat) ∈ p.frames := AList.lookup_isSome.mp (by rw [hdata0]; rfl)
  have hcount := h'.count
  rw [FastPacket.withFirst, length_insert_of_mem _ hmem, ← h.count] at hcount
  simp at hcount

end OpenTransfer

/-! ## 3. One call of `process_frame` -/

/-- A frame with a control byte that, if it is a frame 0, has a length byte
and completes the sequence that is open under its key, if there is one. -/
def RegularFrame (slot : Option FastPacket) (frame : Bytes) : Prop :=
  ∃ control data, frame = control :: data ∧
    (counterOf control = 0 → ∃ announced rest, data = announced :: rest ∧
      ∀ p, slot = some p →
        announced.toNat ≤ p.length + 6 ∨
          FastPacket.nbFramesFor announced.toNat ≤ p.count + 1)

/-- The entry left under the key is well-formed, and nothing is raised but a
`FastPacketException`. -/
def SlotKept (received : List Received) (key : Nat)
    (r : Except Exn (Option Bytes) × Option FastPacket) : Prop :=
  (∀ p, r.2 = some p → OpenTransfer received key p) ∧
    ∀ e, r.1 = .error e → e.isFastPacket = true

section Slot

variable {received : List Received} {key counter : Nat} {p p' : FastPacket} {frame : Bytes}

/-- A record that has taken its frame. -/
theorem slotKept_feedSlot (h : p.takeFrame counter frame = .ok p') :
    SlotKept received key (feedSlot counter p frame) ↔
      (p'.checkComplete = false → OpenTransfer received key p') := by
  rw [feedSlot_ok h]
  cases hc : p'.checkComplete with
  | true =>
    simp only [if_true, SlotKept]
    refine ⟨fun _ h => absurd h (by simp), fun _ => ⟨fun q hq => absurd hq (by simp), fun e he => ?_⟩⟩
    cases ht : p'.totalFrame with
    | ok buf => simp [ht, Except.map] at he
    | error e' =>
      rw [ht] at he
      cases he
      exact FastPacket.totalFrame_error ht
  | false => simp [SlotKept]

/-- A frame that is refused. -/
theorem slotKept_refused {text : String} (h : p.takeFrame counter frame = .error (.fastPacket text)) :
    SlotKept received key (feedSlot counter p frame) := by
  rw [feedSlot, h]
  simp [SlotKept, Exn.isFastPacket]

/-- A frame 0 of one byte. -/
theorem not_slotKept_short (b : UInt8) : ¬ SlotKept received key (feedSlot 0 p [b]) := by
  rw [feedSlot, FastPacket.takeFrame_zero_short]
  simp [SlotKept, Exn.isFastPacket]

end Slot

/-- **One slot.** -/
theorem slotKept_iff {received : List Received} {slot : Option FastPacket} (rx : Received)
    (hslot : ∀ p, slot = some p → OpenTransfer received rx.key p) :
    SlotKept (received ++ [rx]) rx.key (slotStep slot rx) ↔ RegularFrame slot rx.frame := by
  rcases hf : rx.frame with _ | ⟨control, data⟩
  · simp [slotStep, hf, SlotKept, RegularFrame, Exn.isFastPacket]
  have hregular : RegularFrame slot (control :: data) ↔
      (counterOf control = 0 → ∃ announced rest, data = announced :: rest ∧
        ∀ p, slot = some p → (p.withFirst announced.toNat rest).checkComplete = true) := by
    simp [RegularFrame, FastPacket.checkComplete_withFirst]
  rw [hregular, slotStep, hf]
  simp only
  by_cases h0 : counterOf control = 0
  · -- a frame 0, in the entry that is there or in a new one
    simp only [h0, ne_eq, not_true_eq_false, if_false, forall_const]
    rcases data with _ | ⟨announced, rest⟩
    · cases slot <;> simp [not_slotKept_short]
    · simp only [List.cons.injEq, exists_and_left, exists_eq_left', and_assoc]
      cases slot with
      | none =>
        rw [slotKept_feedSlot (FastPacket.takeFrame_zero _ _ _ _)]
        simpa using OpenTransfer.withFirst_new hf h0
      | some p =>
        rw [slotKept_feedSlot (FastPacket.takeFrame_zero _ _ _ _)]
        have hnot := (hslot p rfl).not_withFirst (received ++ [rx]) announced.toNat rest
        simp [hnot]
  · -- a continuation frame
    simp only [h0, false_implies, iff_true]
    cases slot with
    | none =>
      rw [if_pos h0]
      simp [SlotKept, Exn.isFastPacket]
    | some p =>
      simp only
      cases hnew : p.frames.lookup (counterOf control) with
      | none =>
        rw [slotKept_feedSlot (FastPacket.takeFrame_new data rfl h0 hnew)]
        exact ((hslot p rfl).mono [rx]).withCont data h0 hnew
      | some f =>
        exact slotKept_refused (FastPacket.takeFrame_duplicate data rfl h0 (by simp [hnew]))

/-! ## 4. Runs -/

/-- The calls of `process_frame` so far. -/
def noteReceived (_ : FastPacketHandler) (received : List Received) : HandlerCall → List Received
  | .processFrame rx => received ++ [rx]
  | _ => received

/-- A handler under any calls, beside the frames it was given. -/
def observedCalls :
    Machine (FastPacketHandler × List Received) HandlerCall (Except Exn (Option Bytes)) :=
  handlerCalls.withHistory noteReceived

/-- A call leaves well-formed entries, and if it is one of `process_frame` it
raises nothing but a `FastPacketException`. -/
def KeepsTable
    (mv : Move (FastPacketHandler × List Received) HandlerCall (Except Exn (Option Bytes))) :
    Prop :=
  mv.post.1.WellFormed mv.post.2 ∧
    ∀ rx, mv.input = .processFrame rx → ∀ e, mv.output = .error e → e.isFastPacket = true

/-- The call has a regular frame, if it is one of `process_frame`. -/
def RegularCall (h : FastPacketHandler) : HandlerCall → Prop
  | .processFrame rx => RegularFrame (h.sequences.lookup rx.key) rx.frame
  | _ => True

theorem wellFormed_new : FastPacketHandler.new.WellFormed [] := by
  intro key p hp
  simp [FastPacketHandler.new] at hp

/-- Only the entry of the frame's key is at stake. -/
theorem wellFormed_receive_iff {h : FastPacketHandler} {received : List Received} (rx : Received)
    (hw : h.WellFormed received) :
    (h.receive rx).2.WellFormed (received ++ [rx]) ↔
      ∀ p, (slotStep (h.sequences.lookup rx.key) rx).2 = some p →
        OpenTransfer (received ++ [rx]) rx.key p := by
  rw [← lookup_receive]
  constructor
  · exact fun h' p hp => h' rx.key p hp
  · intro hslot key p hp
    rcases eq_or_ne key rx.key with rfl | hne
    · exact hslot p hp
    · rw [lookup_receive_ne h rx hne] at hp
      exact (hw key p hp).mono [rx]

theorem sequences_allocateSeq {h h' : FastPacketHandler} {pgn seq : Nat}
    (hok : h.allocateSeq pgn = .ok (seq, h')) : h'.sequences = h.sequences := by
  rw [allocateSeq] at hok
  split at hok
  · cases hok
    rfl
  · cases hok

/-- The calls other than `process_frame` open no sequence. -/
theorem wellFormed_other {h : FastPacketHandler} {received : List Received} {call : HandlerCall}
    (hw : h.WellFormed received) (hcall : ∀ rx, call ≠ .processFrame rx) :
    (handlerCalls.step h call).2.WellFormed received := by
  cases call with
  | processFrame rx => exact absurd rfl (hcall rx)
  | collectGarbage now => exact fun key p hp => hw key p (lookup_foldl_delete _ hp)
  | freeSeq pgn => exact hw
  | allocateSeq pgn =>
    simp only [handlerCalls]
    cases hok : h.allocateSeq pgn with
    | error e => exact hw
    | ok r =>
      intro key p hp
      exact hw key p (sequences_allocateSeq hok ▸ hp)

/-- One call. -/
theorem keepsTable_iff (s : FastPacketHandler × List Received) (call : HandlerCall)
    (hw : s.1.WellFormed s.2) :
    KeepsTable ⟨s, call, (observedCalls.step s call).1, (observedCalls.step s call).2⟩ ↔
      RegularCall s.1 call := by
  by_cases hcall : ∃ rx, call = .processFrame rx
  · obtain ⟨rx, rfl⟩ := hcall
    rw [RegularCall, ← slotKept_iff rx (fun p hp => hw rx.key p hp), SlotKept,
      ← wellFormed_receive_iff rx hw, ← receive_fst]
    simp [KeepsTable, observedCalls, Machine.withHistory, noteReceived, handlerCalls]
  · simp only [not_exists] at hcall
    have hkept := wellFormed_other hw hcall
    cases call with
    | processFrame rx => exact absurd rfl (hcall rx)
    | collectGarbage now | allocateSeq pgn | freeSeq pgn =>
      simpa [KeepsTable, RegularCall, observedCalls, Machine.withHistory, noteReceived] using hkept

/-- **The table holds open transfers.** For every sequence of calls on a new
handler, also of calls that raise. -/
theorem wellFormed_iff (calls : List HandlerCall) :
    (∀ mv ∈ observedCalls.trace (FastPacketHandler.new, []) calls, KeepsTable mv) ↔
      ∀ mv ∈ observedCalls.trace (FastPacketHandler.new, []) calls,
        RegularCall mv.pre.1 mv.input :=
  observedCalls.trace_forall_iff_of_invariant (fun s => s.1.WellFormed s.2) KeepsTable
    (fun s call => RegularCall s.1 call) (fun s call hw => keepsTable_iff s call hw)
    (fun s call hw hr => ((keepsTable_iff s call hw).mpr hr).1) wellFormed_new calls

/-- A frame 0 without a length byte, and two frames 0 of a payload of 30
bytes. -/
theorem not_wellFormed :
    ¬ (∀ mv ∈ observedCalls.trace (FastPacketHandler.new, [])
        [.processFrame ⟨0, 129029, 3, [32]⟩], KeepsTable mv) ∧
    ¬ (∀ mv ∈ observedCalls.trace (FastPacketHandler.new, [])
        [.processFrame ⟨0, 129029, 3, [32, 30, 1, 2, 3, 4, 5, 6]⟩,
          .processFrame ⟨1, 129029, 3, [32, 30, 1, 2, 3, 4, 5, 6]⟩], KeepsTable mv) := by
  constructor
  · intro h
    exact absurd ((h _ (List.mem_cons_self ..)).2 _ rfl .indexError rfl) (by decide)
  · intro h
    have hopen := (h _ (List.mem_cons_of_mem _ (List.mem_cons_self ..))).1
      (FastPacket.computeKey 129029 3 1) _ rfl
    exact absurd hopen.count (by decide)

end NavigationServer.Nmea2000
