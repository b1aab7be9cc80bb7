/-
NavigationServer.Nmea2000.FastPacketTheorems — what the fast packet layer
delivers.

* `decodesBack_iff` : sending a payload of up to 223 bytes and reassembling
  it. The buffer is the payload exactly when its length is 6 modulo 7, and
  for a length of 6 when its last byte is 0xFF: `total_frame` takes one byte
  too many from a last frame that is padded, a payload below 6 bytes is never
  complete, and one of 6 bytes loses its last byte on the sending side.
* `restart_iff` : a transfer that meets a sequence left open under its key.
  It comes out as from a fresh handler exactly when the open record is still
  blank or the transfer is a single frame.
* `outs_interleaved` : transfers with different keys, in any interleaving and
  with the continuation frames in any order.
-/
import NavigationServer.Nmea2000.Splitting

namespace NavigationServer.Nmea2000

open NavigationServer.Lib
open FastPacketHandler

/-! ## 1. The buffer of a payload -/

theorem assembleStep_inner {L : Nat} {acc : Bytes × Nat} {f : Bytes} (h : acc.2 + f.length < L) :
    assembleStep L acc f = (acc.1.take acc.2 ++ f, acc.2 + f.length) := by
  rw [assembleStep, if_neg (by omega), setSlice_to_end]

/-- The last chunk is cut one byte behind the end of the payload. -/
theorem assembleStep_last {L : Nat} {acc : Bytes × Nat} {f : Bytes} (hs : acc.2 ≤ L)
    (h : L ≤ acc.2 + f.length) :
    assembleStep L acc f = (acc.1.take acc.2 ++ f.take (L - acc.2 + 1), acc.2 + f.length) := by
  have hcast : (L : Int) - acc.2 + 1 = ((L - acc.2 + 1 : Nat) : Int) := by omega
  rw [assembleStep, if_pos h, setSlice_to_end, hcast, slice_zero]

/-- The chunks that are followed by another one give back their part of the
payload. -/
theorem foldl_inner (data : Bytes) (j : Nat) (h : 7 * (j + 1) ≤ data.length) :
    (firstChunk data :: (List.range' 1 j).map (fun k => chunkAt data (7 * k - 1))).foldl
        (assembleStep data.length) (List.replicate data.length 0, 0)
      = (data.take (7 * j + 6), 7 * j + 6) := by
  induction j with
  | zero =>
    have hsix : min 6 (data.length - 1) = 6 := by omega
    rw [List.range'_zero, List.map_nil, List.foldl_cons, List.foldl_nil,
      assembleStep_inner (by simp; omega)]
    simp [firstChunk, hsix]
    omega
  | succ j ih =>
    have hlen : (chunkAt data (7 * (j + 1) - 1)).length = 7 := length_chunkAt _ _
    have hchunk : chunkAt data (7 * (j + 1) - 1) = (data.drop (7 * j + 6)).take 7 := by
      rw [chunkAt, show 7 - (data.length - (7 * (j + 1) - 1)) = 0 by omega]
      simp [show 7 * (j + 1) - 1 = 7 * j + 6 by omega]
    rw [List.range'_1_concat, List.map_append, ← List.cons_append, List.foldl_append,
      ih (by omega), List.map_singleton, List.foldl_cons, List.foldl_nil, Nat.add_comm 1 j,
      assembleStep_inner (by simp only [hlen]; omega), hlen, hchunk]
    simp only [List.take_take, Nat.min_self, Prod.mk.injEq]
    refine ⟨?_, by omega⟩
    rw [← List.take_add, show 7 * j + 6 + 7 = 7 * (j + 1) + 6 by omega]

namespace Transfer

variable {data : Bytes} {h6 : 6 ≤ data.length} {h223 : data.length ≤ 223}

/-- What the receiver makes of a payload of 7 bytes and more: the payload, and
one byte of the padding if there is any. -/
theorem buffer_ofPayload (h7 : 7 ≤ data.length) :
    (ofPayload data h6 h223).buffer = data ++ (if data.length % 7 = 6 then [] else [0xFF]) := by
  obtain ⟨q, hq⟩ : ∃ q, data.length / 7 = q + 1 := ⟨data.length / 7 - 1, by omega⟩
  have hlast : chunkAt data (7 * (1 + q) - 1)
      = data.drop (7 * q + 6) ++ List.replicate (6 - data.length % 7) 0xFF := by
    rw [chunkAt, show 7 * (1 + q) - 1 = 7 * q + 6 by omega, List.take_of_length_le (by simp; omega),
      show 7 - (data.length - (7 * q + 6)) = 6 - data.length % 7 by omega]
  have hdrop : (data.drop (7 * q + 6)).length = data.length - (7 * q + 6) := List.length_drop
  simp only [buffer, assemble, ofPayload]
  rw [hq, List.range'_1_concat, List.map_append, ← List.cons_append, List.foldl_append,
    foldl_inner data q (by omega), List.map_singleton, List.foldl_cons, List.foldl_nil,
    assembleStep_last (by simp only; omega) (by simp only [length_chunkAt]; omega), hlast]
  simp only [List.take_take, Nat.min_self]
  rw [List.take_append, List.take_of_length_le (Nat.le_succ_of_le hdrop.le), hdrop,
    ← List.append_assoc, List.take_append_drop,
    show data.length - (7 * q + 6) + 1 - (data.length - (7 * q + 6)) = 1 by omega]
  split
  · rename_i h
    rw [h]
    rfl
  · obtain ⟨m, hm⟩ : ∃ m, 6 - data.length % 7 = m + 1 := ⟨6 - data.length % 7 - 1, by omega⟩
    rw [hm]
    simp [List.replicate_succ]

/-- A payload of 6 bytes comes out with 0xFF for its last byte. -/
theorem buffer_ofPayload_six (h : data.length = 6) :
    (ofPayload data h6 h223).buffer = data.take 5 ++ [0xFF] := by
  simp only [buffer, assemble, ofPayload, h]
  rw [List.range'_zero, List.map_nil, List.foldl_cons, List.foldl_nil,
    assembleStep_last (by simp) (by simp), firstChunk, h]
  simp

/-- The buffer is the payload for the lengths 13, 20, …, 223, and for a payload
of 6 bytes that ends with 0xFF. -/
theorem buffer_ofPayload_eq_iff :
    (ofPayload data h6 h223).buffer = data ↔
      data.length % 7 = 6 ∧ (data.length = 6 → data[5]? = some 0xFF) := by
  rcases Nat.eq_or_lt_of_le h6 with h | h7
  · rw [buffer_ofPayload_six h.symm]
    match data, h with
    | [a, b, c, d, e, f], _ => simp [eq_comm]
  · rw [buffer_ofPayload h7]
    split <;> simp <;> omega

end Transfer

/-! ## 2. Encode, then decode -/

/-- The calls of `process_frame` that feed a list of frames, at any times. -/
def Feeds (pgn addr : Nat) (frames : List Bytes) (rxs : List Received) : Prop :=
  rxs.map Received.frame = frames ∧ ∀ rx ∈ rxs, rx.pgn = pgn ∧ rx.addr = addr

/-- The calls return `None` but for the last one, which returns `buf`. -/
def DeliversAtEnd (h : FastPacketHandler) (rxs : List Received) (buf : Bytes) : Prop :=
  reassembly.outs h rxs = List.replicate (rxs.length - 1) (.ok none) ++ [.ok (some buf)]

/-- The handler `s` sends a payload without raising; the frames, given to `r`,
deliver the payload at the last one and leave no sequence open. -/
def DecodesBack (s r : FastPacketHandler) (pgn addr : Nat) (payload : Bytes)
    (rxs : List Received) : Prop :=
  (s.splitMessage pgn payload).1.2 = none ∧
  DeliversAtEnd r rxs payload ∧
  ∀ seq < 8, (reassembly.final r rxs).sequences.lookup (FastPacket.computeKey pgn addr seq) = none

theorem key_of_frame {rx : Received} {seq i : Nat} {data : Bytes} (hs : seq < 8) (hi : i < 32)
    (h : rx.frame = controlByte seq i :: data) :
    rx.key = FastPacket.computeKey rx.pgn rx.addr seq := by
  rw [Received.key, h]
  simp only [seqOf_controlByte hs hi]

/-- The calls that feed the frames of a transfer all have its key. -/
theorem Transfer.key_eq (t : Transfer) {pgn addr : Nat} {todo : List (Bytes × Nat)}
    (hp : todo.Perm t.numbered) {rxs : List Received}
    (h : Feeds pgn addr (t.frame0 :: todo.map t.cont) rxs) :
    ∀ rx ∈ rxs, rx.key = FastPacket.computeKey pgn addr t.seq := by
  intro rx hrx
  obtain ⟨hp', ha'⟩ := h.2 rx hrx
  have hmem : rx.frame ∈ t.frame0 :: todo.map t.cont := h.1 ▸ List.mem_map_of_mem hrx
  rcases List.mem_cons.mp hmem with h0 | hc
  · rw [key_of_frame t.seq_lt (by omega) h0, hp', ha']
  · obtain ⟨c, hc, hcf⟩ := List.mem_map.mp hc
    rw [key_of_frame t.seq_lt (t.mem_numbered (hp.mem_iff.mp hc)).2.1 hcf.symm, hp', ha']

theorem computeKey_seq_ne {pgn addr seq seq' : Nat} (h : seq ≠ seq') :
    FastPacket.computeKey pgn addr seq ≠ FastPacket.computeKey pgn addr seq' := by
  rw [FastPacket.computeKey_eq, FastPacket.computeKey_eq]
  omega

theorem splitMessage_free {s : FastPacketHandler} {pgn : Nat}
    (hfree : (s.writeSequences.lookup pgn).getD 0 = 0) (data : Bytes) :
    (s.splitMessage pgn data).1 = splitFrames data 1 := by
  simp only [splitMessage, allocateSeq, hfree, if_pos]
  rcases splitFrames data 1 with ⟨frames, _ | e⟩ <;> rfl

/-- A payload below 6 bytes is one frame, and that frame is an exception. -/
theorem outs_short {payload : Bytes} (h6 : payload.length < 6) {rxs : List Received}
    (h : rxs.map Received.frame = (splitFrames payload 1).1) :
    ∃ text, slotMachine.outs none rxs = [.error (.fastPacket text)] := by
  have hframes := splitFrames_eq payload 1 (by omega) (by omega)
  rw [hframes, show payload.length / 7 = 0 by omega] at h
  obtain ⟨rx, hrx, hf⟩ := List.map_eq_singleton_iff.mp h
  have hL : (UInt8.ofNat payload.length).toNat = payload.length := by
    rw [UInt8.toNat_ofNat']
    omega
  have hstep := slotStep_free rx hf (@counterOf_controlByte 1 0 (by omega) (by omega))
  obtain ⟨p, hp⟩ : ∃ p, p = (FastPacket.new rx.now rx.pgn rx.addr
    (seqOf (UInt8.ofNat (1 * 32)))).withFirst payload.length (firstChunk payload) := ⟨_, rfl⟩
  have hnb : p.nbFrames = 2 := by
    rw [hp]
    exact FastPacket.nbFramesFor_of_lt h6
  have hcomplete : p.checkComplete = true := by
    have hlen : p.length = 6 := by rw [hp]; rfl
    have hbyte : p.byteLength = payload.length := by rw [hp]; rfl
    rw [FastPacket.checkComplete, hnb, hlen, hbyte, if_neg (by omega)]
    exact decide_eq_true (by omega)
  have hmissing : p.frames.lookup 1 = none := by
    rw [hp]
    exact AList.lookup_insert_ne (by omega)
  obtain ⟨text, ht⟩ := FastPacket.totalFrame_missing (by omega) hmissing
  rw [feedSlot_ok (FastPacket.takeFrame_zero _ _ _ _), hL, ← hp, if_pos hcomplete, ht] at hstep
  exact ⟨text, by rw [hrx, Machine.outs_cons, Machine.outs_nil]; exact congrArg (fun r => [r.1]) hstep⟩

/-- **Encode, then decode.** For a free sender, a receiver with no sequence
open, and a payload of up to 223 bytes. -/
theorem decodesBack_iff (s r : FastPacketHandler) (pgn addr : Nat) (payload : Bytes)
    (hlen : payload.length ≤ 223) (hfree : (s.writeSequences.lookup pgn).getD 0 = 0)
    (hclosed : ∀ seq < 8, r.sequences.lookup (FastPacket.computeKey pgn addr seq) = none)
    (rxs : List Received) (hrxs : Feeds pgn addr (s.splitMessage pgn payload).1.1 rxs) :
    DecodesBack s r pgn addr payload rxs ↔
      payload.length % 7 = 6 ∧ (payload.length = 6 → payload[5]? = some 0xFF) := by
  rw [DecodesBack, DeliversAtEnd]
  rw [splitMessage_free hfree] at hrxs ⊢
  rcases Nat.lt_or_ge payload.length 6 with h6 | h6
  · have hkey : ∀ rx ∈ rxs, rx.key = FastPacket.computeKey pgn addr 1 := by
      intro rx hrx
      obtain ⟨hp, ha⟩ := hrxs.2 rx hrx
      have hmem : rx.frame ∈ (splitFrames payload 1).1 := hrxs.1 ▸ List.mem_map_of_mem hrx
      rw [splitFrames_eq payload 1 (by omega) (by omega), show payload.length / 7 = 0 by omega,
        List.range'_zero, List.map_nil, List.mem_singleton] at hmem
      rw [@key_of_frame rx 1 0 _ (by omega) (by omega) hmem, hp, ha]
    obtain ⟨text, ht⟩ := outs_short h6 hrxs.1
    rw [outs_reassembly r rxs hkey, hclosed 1 (by omega), ht]
    constructor
    · rintro ⟨-, houts, -⟩
      have hlast := congrArg List.getLast? houts
      simp at hlast
    · rintro ⟨h, -⟩
      omega
  · obtain ⟨t, ht⟩ : ∃ t, t = Transfer.ofPayload payload h6 hlen := ⟨_, rfl⟩
    have hfeeds : Feeds pgn addr (t.frame0 :: t.numbered.map t.cont) rxs := by
      rw [frames_ofPayload h6 hlen, ← ht] at hrxs
      exact hrxs
    have hkey := t.key_eq (List.Perm.refl _) hfeeds
    have hseq : t.seq = 1 := by rw [ht]; rfl
    obtain ⟨houts, hfinal⟩ := outs_transfer (List.Perm.refl _) hfeeds.1
    have hcount : rxs.length - 1 = t.conts.length := by
      have := congrArg List.length hfeeds.1
      simp only [List.length_map, List.length_cons, Transfer.length_numbered] at this
      omega
    rw [outs_reassembly r rxs hkey, hseq, hclosed 1 (by omega), houts, hcount,
      frames_ofPayload h6 hlen, ← @Transfer.buffer_ofPayload_eq_iff payload h6 hlen, ← ht]
    constructor
    · rintro ⟨-, h, -⟩
      simpa using h
    · intro h
      refine ⟨rfl, by rw [h], fun seq hseq8 => ?_⟩
      rcases eq_or_ne seq 1 with rfl | hne
      · rw [lookup_reassembly r rxs (hseq ▸ hkey), hclosed 1 (by omega), hfinal]
      · have hother : ∀ rx ∈ rxs, reassembly.key rx ≠ FastPacket.computeKey pgn addr seq := by
          intro rx hrx
          rw [show reassembly.key rx = rx.key from rfl, hkey rx hrx, hseq]
          exact computeKey_seq_ne (Ne.symm hne)
        exact (reassembly.slot_final_of_ne hother r).trans (hclosed seq hseq8)

/-- Thirteen bytes are two full frames. -/
theorem decodesBack_thirteen :
    DecodesBack FastPacketHandler.new FastPacketHandler.new 129029 3
      [1, 2, 3, 4, 5, 6, 7, 8, 9, 10, 11, 12, 13]
      [⟨0, 129029, 3, [32, 13, 1, 2, 3, 4, 5, 6]⟩, ⟨1, 129029, 3, [33, 7, 8, 9, 10, 11, 12, 13]⟩] :=
  (decodesBack_iff _ _ _ _ _ (by decide) rfl (fun _ _ => rfl) _
    ⟨by decide +kernel, by simp⟩).mpr (by decide)

/-- Seven bytes come back as eight. -/
theorem not_decodesBack_seven :
    Feeds 129029 3 (FastPacketHandler.new.splitMessage 129029 [1, 2, 3, 4, 5, 6, 7]).1.1
      [⟨0, 129029, 3, [32, 7, 1, 2, 3, 4, 5, 6]⟩,
        ⟨1, 129029, 3, [33, 7, 255, 255, 255, 255, 255, 255]⟩] ∧
    ¬ DecodesBack FastPacketHandler.new FastPacketHandler.new 129029 3 [1, 2, 3, 4, 5, 6, 7]
      [⟨0, 129029, 3, [32, 7, 1, 2, 3, 4, 5, 6]⟩,
        ⟨1, 129029, 3, [33, 7, 255, 255, 255, 255, 255, 255]⟩] := by
  refine ⟨⟨by decide +kernel, by simp⟩, fun h => ?_⟩
  have hlast := congrArg List.getLast? h.2.1
  have houts : reassembly.outs FastPacketHandler.new
      [⟨0, 129029, 3, [32, 7, 1, 2, 3, 4, 5, 6]⟩,
        ⟨1, 129029, 3, [33, 7, 255, 255, 255, 255, 255, 255]⟩]
      = [.ok none, .ok (some [1, 2, 3, 4, 5, 6, 7, 255])] := rfl
  rw [houts] at hlast
  simp at hlast

/-! ## 3. A transfer over an abandoned one -/

/-- The calls that change a handler. The last two are the ends of the
generator `split_message`. -/
inductive HandlerCall where
  | processFrame (rx : Received)
  | collectGarbage (now : Time)
  | allocateSeq (pgn : Nat)
  | freeSeq (pgn : Nat)

/-- A handler under any calls. -/
def handlerCalls : Machine FastPacketHandler HandlerCall (Except Exn (Option Bytes)) where
  step h
    | .processFrame rx => h.receive rx
    | .collectGarbage now => (.ok none, h.collectGarbage now)
    | .allocateSeq pgn =>
        match h.allocateSeq pgn with
        | .error e => (.error e, h)
        | .ok (_, h) => (.ok none, h)
    | .freeSeq pgn => (.ok none, h.freeSeq pgn)

/-- A state that calls on a new handler lead to. -/
def ReachableHandler (h : FastPacketHandler) : Prop :=
  handlerCalls.Reachable FastPacketHandler.new h

theorem takeFrame_count {p p' : FastPacket} {counter : Nat} {frame : Bytes}
    (h : p.takeFrame counter frame = .ok p') : p'.count = p.count + 1 := by
  unfold FastPacket.takeFrame FastPacket.firstPacket FastPacket.addPacket at h
  split at h
  · cases hlen : frame[1]? with
    | none => simp [hlen] at h
    | some b =>
      simp only [hlen, Except.ok.injEq] at h
      rw [← h]
  · cases frame with
    | nil => simp at h
    | cons b data =>
      simp only at h
      split at h
      · simp at h
      · simp only [Except.ok.injEq] at h
        rw [← h]

/-- A record without a frame is one that holds nothing at all. -/
def SlotInv (slot : Option FastPacket) : Prop :=
  ∀ p, slot = some p → p.count = 0 → p.Blank

theorem slotInv_feedSlot {counter : Nat} {p : FastPacket} (frame : Bytes)
    (hp : p.count = 0 → p.Blank) : SlotInv (feedSlot counter p frame).2 := by
  intro q hq h0
  rw [feedSlot] at hq
  cases htake : p.takeFrame counter frame with
  | error e =>
    rw [htake] at hq
    by_cases he : e.isFastPacket
    · simp [he] at hq
    · simp only [he] at hq
      obtain rfl : p = q := by simpa using hq
      exact hp h0
  | ok p' =>
    rw [htake] at hq
    have hcount := takeFrame_count htake
    by_cases hc : p'.checkComplete
    · simp [hc] at hq
    · obtain rfl : p' = q := by simpa [hc] using hq
      omega

theorem slotInv_slotStep {slot : Option FastPacket} (rx : Received) (h : SlotInv slot) :
    SlotInv (slotStep slot rx).2 := by
  obtain ⟨now, pgn, addr, frame⟩ := rx
  cases frame with
  | nil => exact h
  | cons b data =>
    cases slot with
    | some p => exact slotInv_feedSlot _ (h p rfl)
    | none =>
      simp only [slotStep]
      split
      · exact h
      · exact slotInv_feedSlot _ (fun _ => FastPacket.blank_new _ _ _ _)

/-- Collecting garbage only removes entries. -/
theorem lookup_foldl_delete (ks : List Nat) : ∀ {h : FastPacketHandler} {k : Nat} {p : FastPacket},
    (ks.foldl delete h).sequences.lookup k = some p → h.sequences.lookup k = some p := by
  induction ks with
  | nil => exact fun hk => hk
  | cons k' ks ih =>
    intro h k p hk
    have hdel := ih hk
    by_cases he : k = k'
    · subst he
      simp at hdel
    · rwa [lookup_delete_ne h he] at hdel

theorem slotInv_reachable {h : FastPacketHandler} (hr : ReachableHandler h) (k : Nat) :
    SlotInv (h.sequences.lookup k) := by
  refine Machine.Reachable.induction (fun h => ∀ k, SlotInv (h.sequences.lookup k)) ?_ ?_ hr k
  · intro k p hp
    exact absurd hp (by simp [FastPacketHandler.new])
  · intro h call ih k
    cases call with
    | processFrame rx =>
      rcases eq_or_ne k rx.key with rfl | hne
      · exact lookup_receive h rx ▸ slotInv_slotStep rx (ih _)
      · exact lookup_receive_ne h rx hne ▸ ih k
    | collectGarbage now => exact fun p hp => ih k p (lookup_foldl_delete _ hp)
    | allocateSeq pgn =>
      simp only [handlerCalls, allocateSeq]
      split
      · exact ih k
      · rename_i hok
        split at hok
        · simp only [Except.ok.injEq, Prod.mk.injEq] at hok
          rw [← hok.2]
          exact ih k
        · simp at hok
    | freeSeq pgn => exact ih k

/-- The frames `i`, `i + 1`, … of a sequence. -/
def FramesFrom (seq : Nat) : Nat → List Bytes → Prop
  | _, [] => True
  | i, f :: fs => (∃ data, f = controlByte seq i :: data) ∧ FramesFrom seq (i + 1) fs

/-- The fields of a record that no result depends on. -/
def FastPacket.rekey (p r : FastPacket) : FastPacket :=
  { p with key := r.key, source := r.source, seq := r.seq, pgn := r.pgn, timestamp := r.timestamp }

theorem takeFrame_rekey (p r : FastPacket) (counter : Nat) (frame : Bytes) :
    (p.rekey r).takeFrame counter frame = (p.takeFrame counter frame).map (fun q => q.rekey r) := by
  unfold FastPacket.takeFrame
  split
  · unfold FastPacket.firstPacket
    cases frame[1]? <;> rfl
  · cases frame with
    | nil => rfl
    | cons b data =>
      simp only [FastPacket.addPacket, FastPacket.rekey]
      cases p.frames.lookup (b.toNat &&& 0x1F) <;> rfl

theorem withFirst_rekey (p r : FastPacket) (byteLength : Nat) (data : Bytes) :
    (p.rekey r).withFirst byteLength data = (p.withFirst byteLength data).rekey r := rfl

/-- Two slots that differ in those fields only. -/
def SlotRel (s s' : Option FastPacket) : Prop :=
  s' = s ∨ ∃ p r, s = some p ∧ s' = some (p.rekey r)

theorem feedSlot_rekey (p r : FastPacket) (counter : Nat) (frame : Bytes) :
    (feedSlot counter p frame).1 = (feedSlot counter (p.rekey r) frame).1 ∧
      SlotRel (feedSlot counter p frame).2 (feedSlot counter (p.rekey r) frame).2 := by
  rw [feedSlot, feedSlot, takeFrame_rekey]
  cases p.takeFrame counter frame with
  | error e =>
    simp only [Except.map]
    split
    · exact ⟨trivial, Or.inl rfl⟩
    · exact ⟨trivial, Or.inr ⟨p, r, rfl, rfl⟩⟩
  | ok q =>
    simp only [Except.map, show (q.rekey r).checkComplete = q.checkComplete from rfl,
      show (q.rekey r).totalFrame = q.totalFrame from rfl]
    split
    · exact ⟨rfl, Or.inl rfl⟩
    · exact ⟨rfl, Or.inr ⟨q, r, rfl, rfl⟩⟩

theorem slotStep_rel {s s' : Option FastPacket} (h : SlotRel s s') (rx : Received) :
    (slotStep s rx).1 = (slotStep s' rx).1 ∧ SlotRel (slotStep s rx).2 (slotStep s' rx).2 := by
  rcases h with rfl | ⟨p, r, rfl, rfl⟩
  · exact ⟨rfl, Or.inl rfl⟩
  · cases hf : rx.frame with
    | nil => exact ⟨by simp [slotStep, hf], Or.inr ⟨p, r, by simp [slotStep, hf], by simp [slotStep, hf]⟩⟩
    | cons b data =>
      rw [slotStep_open p rx hf, slotStep_open _ rx hf]
      exact feedSlot_rekey p r _ _

theorem outs_rel {s s' : Option FastPacket} (h : SlotRel s s') (rxs : List Received) :
    slotMachine.outs s rxs = slotMachine.outs s' rxs := by
  have hsim := Machine.simulation (m := slotMachine) (n := slotMachine) SlotRel (fun _ _ => True)
    Eq id (fun s t rx hR _ => slotStep_rel hR rx) h rxs (fun _ _ => trivial)
  rwa [List.map_id, List.forall₂_eq_eq_eq] at hsim

/-- A blank record is as good as a free slot for a frame 0. -/
theorem outs_blank {p : FastPacket} (hp : p.Blank) (rx : Received) (rxs : List Received)
    {b len : UInt8} {data : Bytes} (hf : rx.frame = b :: len :: data) (hb : counterOf b = 0) :
    slotMachine.outs (some p) (rx :: rxs) = slotMachine.outs none (rx :: rxs) := by
  obtain ⟨hcount, hlength, hframes⟩ := hp
  obtain ⟨q, hq, hqb⟩ : ∃ q, q = FastPacket.new rx.now rx.pgn rx.addr (seqOf b) ∧ q.Blank :=
    ⟨_, rfl, FastPacket.blank_new _ _ _ _⟩
  have hsame : q.withFirst len.toNat data = (p.withFirst len.toNat data).rekey q := by
    simp [FastPacket.withFirst, FastPacket.rekey, hcount, hlength, hframes, hqb.1, hqb.2.1,
      hqb.2.2]
  have hrel := feedSlot_rekey p q 0 rx.frame
  have hstep : slotStep none rx = feedSlot 0 (p.rekey q) rx.frame := by
    rw [slotStep_free rx hf hb, hf, ← hq, feedSlot_ok (FastPacket.takeFrame_zero _ _ _ _), hsame,
      feedSlot_ok (FastPacket.takeFrame_zero _ _ _ _), withFirst_rekey]
  rw [Machine.outs_cons, Machine.outs_cons,
    show slotMachine.step (some p) rx = slotStep (some p) rx from rfl,
    show slotMachine.step none rx = slotStep none rx from rfl,
    hstep, slotStep_open p rx hf, hb, ← hf, hrel.1, outs_rel hrel.2]

/-- A frame 0 that returns `None` leaves the record waiting. -/
theorem waiting_first {p : FastPacket} {rx : Received} {b len : UInt8} {data : Bytes}
    (hf : rx.frame = b :: len :: data) (hb : counterOf b = 0)
    (h : (slotStep (some p) rx).1 = .ok none) :
    (slotStep (some p) rx).2 = some (p.withFirst len.toNat data) ∧
      (p.withFirst len.toNat data).checkComplete = false := by
  rw [slotStep_open p rx hf, hb, feedSlot_ok (FastPacket.takeFrame_zero _ _ _ _)] at h ⊢
  by_cases hc : (p.withFirst len.toNat data).checkComplete
  · rw [if_pos hc] at h
    cases ht : (p.withFirst len.toNat data).totalFrame <;> simp [ht, Except.map] at h
  · rw [if_neg hc]
    exact ⟨rfl, by simpa using hc⟩

/-- So does a continuation frame. -/
theorem waiting_cont {p : FastPacket} {rx : Received} {seq i : Nat} {data : Bytes} (hs : seq < 8)
    (hi0 : 0 < i) (hi : i < 32) (hf : rx.frame = controlByte seq i :: data)
    (h : (slotStep (some p) rx).1 = .ok none) :
    (slotStep (some p) rx).2 = some (p.withCont i data) ∧
      (p.withCont i data).checkComplete = false := by
  have hctr := counterOf_controlByte hs hi
  rw [slotStep_open p rx hf, hctr] at h ⊢
  cases hl : p.frames.lookup i with
  | some f =>
    rw [feedSlot, FastPacket.takeFrame_duplicate data hctr (by omega) (by simp [hl])] at h
    simp at h
  | none =>
    rw [feedSlot_ok (FastPacket.takeFrame_new data hctr (by omega) hl)] at h ⊢
    by_cases hc : (p.withCont i data).checkComplete
    · rw [if_pos hc] at h
      cases ht : (p.withCont i data).totalFrame <;> simp [ht, Except.map] at h
    · rw [if_neg hc]
      exact ⟨rfl, by simpa using hc⟩

/-- Frames that all return `None` are counted one by one. -/
theorem waiting_run {seq : Nat} (hs : seq < 8) : ∀ (rxs : List Received) (i : Nat) (p : FastPacket),
    FramesFrom seq i (rxs.map Received.frame) → 0 < i → i + rxs.length ≤ 32 →
    slotMachine.outs (some p) rxs = List.replicate rxs.length (.ok none) →
    p.checkComplete = false →
    ∃ p', slotMachine.final (some p) rxs = some p' ∧ p'.checkComplete = false ∧
      p'.count = p.count + rxs.length ∧ p'.nbFrames = p.nbFrames ∧
      ∀ j, i + rxs.length ≤ j → p'.frames.lookup j = p.frames.lookup j
  | [], _, p, _, _, _, _, hc => ⟨p, rfl, hc, rfl, rfl, fun _ _ => rfl⟩
  | rx :: rxs, i, p, hframes, hi, hlen, houts, _ => by
      obtain ⟨⟨data, hf⟩, hframes⟩ := hframes
      simp only [List.length_cons] at hlen
      simp only [Machine.outs_cons, List.length_cons, List.replicate_succ, List.cons.injEq] at houts
      obtain ⟨hpost, hc⟩ := waiting_cont hs hi (by omega) hf houts.1
      rw [show slotMachine.step (some p) rx = slotStep (some p) rx from rfl, hpost] at houts
      obtain ⟨p', hfinal, hc', hcount, hnb, hlook⟩ :=
        waiting_run hs rxs (i + 1) _ hframes (by omega) (by omega) houts.2 hc
      refine ⟨p', ?_, hc', ?_, hnb, fun j hj => ?_⟩
      · rw [Machine.final_cons, show slotMachine.step (some p) rx = slotStep (some p) rx from rfl,
          hpost, hfinal]
      · rw [hcount, List.length_cons, FastPacket.withCont]
        simp only
        omega
      · simp only [List.length_cons] at hj
        rw [hlook j (by omega), FastPacket.withCont, AList.lookup_insert_ne (by omega)]

/-- Frame 0 and some continuation frames, all of which return `None`. -/
theorem waiting_prefix {seq : Nat} (hs : seq < 8) {p : FastPacket} {rx : Received}
    {rxs : List Received} {len : UInt8} {data : Bytes}
    (hf : rx.frame = controlByte seq 0 :: len :: data)
    (hframes : FramesFrom seq 1 (rxs.map Received.frame)) (hlen : 1 + rxs.length ≤ 32)
    (houts : slotMachine.outs (some p) (rx :: rxs) = List.replicate (rxs.length + 1) (.ok none)) :
    ∃ p', slotMachine.final (some p) (rx :: rxs) = some p' ∧
      p.count + 1 + rxs.length < p'.nbFrames ∧ p'.nbFrames = FastPacket.nbFramesFor len.toNat ∧
      ∀ j, 1 + rxs.length ≤ j → p'.frames.lookup j = p.frames.lookup j := by
  simp only [Machine.outs_cons, List.replicate_succ, List.cons.injEq] at houts
  have hctr : counterOf (controlByte seq 0) = 0 := counterOf_controlByte hs (by omega)
  obtain ⟨hpost, hc⟩ := waiting_first hf hctr houts.1
  rw [show slotMachine.step (some p) rx = slotStep (some p) rx from rfl, hpost] at houts
  obtain ⟨p', hfinal, hc', hcount, hnb, hlook⟩ :=
    waiting_run hs rxs 1 _ hframes (by omega) hlen houts.2 hc
  have hpos : p'.nbFrames ≠ 0 := by
    rw [hnb]
    exact Nat.pos_iff_ne_zero.mp (FastPacket.nbFramesFor_pos _)
  rw [FastPacket.checkComplete, if_neg hpos, decide_eq_false_iff_not] at hc'
  refine ⟨p', ?_, ?_, hnb, fun j hj => ?_⟩
  · rw [Machine.final_cons, show slotMachine.step (some p) rx = slotStep (some p) rx from rfl,
      hpost, hfinal]
  · have hfirst : (p.withFirst len.toNat data).count = p.count + 1 := rfl
    omega
  · rw [hlook j hj, FastPacket.withFirst, AList.lookup_insert_ne (by omega)]

/-- A record whose frames stop at `i` delivers only what has no frame behind
`i`. -/
theorem delivered_nbFrames {p : FastPacket} {i : Nat} {buf : Bytes}
    (h : p.totalFrame = .ok buf) (hl : ∀ j, i < j → p.frames.lookup j = none) :
    p.nbFrames ≤ i + 1 := by
  by_contra hlt
  exact (FastPacket.totalFrame_isOk_iff p).mp ⟨buf, h⟩ (i + 1) (by omega) (hl _ (by omega))

/-- The frame that delivers has completed its record. -/
theorem delivered_cont {p : FastPacket} {rx : Received} {seq i : Nat} {data buf : Bytes}
    (hs : seq < 8) (hi0 : 0 < i) (hi : i < 32) (hf : rx.frame = controlByte seq i :: data)
    (h : (slotStep (some p) rx).1 = .ok (some buf))
    (hl : ∀ j, i ≤ j → p.frames.lookup j = none) : p.nbFrames ≤ i + 1 := by
  have hctr := counterOf_controlByte hs hi
  rw [slotStep_open p rx hf, hctr,
    feedSlot_ok (FastPacket.takeFrame_new data hctr (by omega) (hl i (by omega)))] at h
  by_cases hc : (p.withCont i data).checkComplete
  · rw [if_pos hc] at h
    cases ht : (p.withCont i data).totalFrame with
    | error e => simp [ht, Except.map] at h
    | ok b =>
      refine delivered_nbFrames (p := p.withCont i data) ht (fun j hj => ?_)
      rw [FastPacket.withCont, AList.lookup_insert_ne (by omega), hl j (by omega)]
  · simp [hc] at h

theorem framesFrom_mem {seq : Nat} : ∀ {i : Nat} {frames : List Bytes}, FramesFrom seq i frames →
    ∀ f ∈ frames, ∃ j data, j < i + frames.length ∧ f = controlByte seq j :: data
  | _, [], _, _, hf => by simp at hf
  | i, f :: fs, h, g, hg => by
      rcases List.mem_cons.mp hg with rfl | hg
      · obtain ⟨data, hdata⟩ := h.1
        exact ⟨i, data, by simp, hdata⟩
      · obtain ⟨j, data, hj, hdata⟩ := framesFrom_mem h.2 g hg
        exact ⟨j, data, by simp only [List.length_cons]; omega, hdata⟩

theorem framesFrom_append {seq : Nat} : ∀ {i : Nat} {fs gs : List Bytes},
    FramesFrom seq i (fs ++ gs) → FramesFrom seq i fs ∧ FramesFrom seq (i + fs.length) gs
  | _, [], _, h => ⟨trivial, h⟩
  | i, f :: fs, gs, h => by
      obtain ⟨hfs, hgs⟩ := framesFrom_append h.2
      refine ⟨⟨h.1, hfs⟩, ?_⟩
      rwa [List.length_cons, Nat.add_comm fs.length 1, ← Nat.add_assoc]

/-- A free slot takes a frame 0 as a new record does. -/
theorem outs_free {rx : Received} {b : UInt8} {data : Bytes} (hf : rx.frame = b :: data)
    (hb : counterOf b = 0) (rxs : List Received) :
    slotMachine.outs none (rx :: rxs)
      = slotMachine.outs (some (FastPacket.new rx.now rx.pgn rx.addr (seqOf b))) (rx :: rxs) := by
  have hstep : slotStep none rx
      = slotStep (some (FastPacket.new rx.now rx.pgn rx.addr (seqOf b))) rx := by
    rw [slotStep_free rx hf hb, slotStep_open _ rx hf, hb]
  rw [Machine.outs_cons, Machine.outs_cons, show slotMachine.step none rx = slotStep none rx from rfl,
    hstep]
  rfl

/-- A record that holds a frame already cannot take a transfer of several
frames: it counts to the end too early. -/
theorem not_delivers_over {seq : Nat} (hs : seq < 8) {p : FastPacket} (hp : p.count ≠ 0)
    {rx last : Received} {mid : List Received} {buf buf' : Bytes} {len : UInt8} {data : Bytes}
    (hf : rx.frame = controlByte seq 0 :: len :: data)
    (hframes : FramesFrom seq 1 ((mid ++ [last]).map Received.frame)) (hlen : mid.length + 2 ≤ 32)
    (hfresh : slotMachine.outs none (rx :: mid ++ [last])
      = List.replicate (mid.length + 1) (.ok none) ++ [.ok (some buf)]) :
    slotMachine.outs (some p) (rx :: mid ++ [last])
      ≠ List.replicate (mid.length + 1) (.ok none) ++ [.ok (some buf')] := by
  intro hover
  have hctr : counterOf (controlByte seq 0) = 0 := counterOf_controlByte hs (by omega)
  rw [List.cons_append, outs_free hf hctr, ← List.cons_append] at hfresh
  rw [Machine.outs_append] at hfresh hover
  obtain ⟨hfresh, hlastf⟩ := List.append_inj hfresh (by simp)
  obtain ⟨hover, -⟩ := List.append_inj hover (by simp)
  rw [List.map_append] at hframes
  obtain ⟨hmid, hlast⟩ := framesFrom_append hframes
  obtain ⟨⟨ldata, hldata⟩, -⟩ := hlast
  rw [List.length_map] at hldata
  -- the fresh record says how many frames the length announces
  obtain ⟨q, hfinal, -, hnb, hlook⟩ := waiting_prefix hs hf hmid (by omega) hfresh
  have hbound : q.nbFrames ≤ 1 + mid.length + 1 := by
    rw [hfinal] at hlastf
    have hout : (slotStep (some q) last).1 = .ok (some buf) := (List.cons.inj hlastf).1
    refine delivered_cont hs (by omega) (by omega) hldata hout (fun j hj => ?_)
    · rw [hlook j hj]
      exact AList.lookup_empty j
  -- the old record has counted that many before the last frame
  obtain ⟨q', -, hcount, hnb', -⟩ := waiting_prefix hs hf hmid (by omega) hover
  omega

/-- A transfer that is only frame 0 comes out of any record. -/
theorem delivers_single {seq : Nat} (hs : seq < 8) (p : FastPacket) {rx : Received} {buf : Bytes}
    {len : UInt8} {data : Bytes} (hf : rx.frame = controlByte seq 0 :: len :: data)
    (hfresh : slotMachine.outs none [rx] = [.ok (some buf)]) :
    slotMachine.outs (some p) [rx] = [.ok (some buf)] := by
  have hctr : counterOf (controlByte seq 0) = 0 := counterOf_controlByte hs (by omega)
  have hframe : rx.frame = controlByte seq 0 :: len :: data := hf
  obtain ⟨q, hq, hqb⟩ : ∃ q, q = FastPacket.new rx.now rx.pgn rx.addr (seqOf (controlByte seq 0)) ∧
      q.frames = ∅ := ⟨_, rfl, rfl⟩
  have hstep : (slotStep none rx).1 = .ok (some buf) := (List.cons.inj hfresh).1
  rw [slotStep_free rx hf hctr, ← hq, feedSlot_ok (FastPacket.takeFrame_zero _ _ _ _)] at hstep
  by_cases hc : (q.withFirst len.toNat data).checkComplete
  · rw [if_pos hc] at hstep
    cases ht : (q.withFirst len.toNat data).totalFrame with
    | error e => simp [ht, Except.map] at hstep
    | ok b =>
      obtain rfl : b = buf := by simpa [ht, Except.map] using hstep
      have hone : FastPacket.nbFramesFor len.toNat = 1 := by
        have hle : (q.withFirst len.toNat data).nbFrames ≤ 0 + 1 :=
          delivered_nbFrames ht (fun j hj => by
            rw [FastPacket.withFirst, AList.lookup_insert_ne (by omega), hqb, AList.lookup_empty])
        have := FastPacket.nbFramesFor_pos len.toNat
        rw [FastPacket.withFirst] at hle
        simp only at hle
        omega
      have htotal : ∀ r : FastPacket,
          (r.withFirst len.toNat data).totalFrame = .ok (assemble len.toNat [data]) := by
        intro r
        refine FastPacket.totalFrame_eq [data] hone (fun i hi => ?_)
        obtain rfl : i = 0 := by simpa using hi
        exact AList.lookup_insert _
      have hcp : (p.withFirst len.toNat data).checkComplete = true := by
        have hnb : (p.withFirst len.toNat data).nbFrames = 1 := hone
        have hcnt : (p.withFirst len.toNat data).count = p.count + 1 := rfl
        rw [FastPacket.checkComplete, if_neg (by omega)]
        exact decide_eq_true (Or.inr (by omega))
      rw [htotal q] at ht
      rw [Machine.outs_cons, Machine.outs_nil,
        show slotMachine.step (some p) rx = slotStep (some p) rx from rfl, slotStep_open p rx hf,
        hctr, feedSlot_ok (FastPacket.takeFrame_zero _ _ _ _), if_pos hcp, htotal p, ht]
      rfl
  · simp [hc] at hstep

/-- **A transfer over an abandoned one.** For any reachable handler and any
frames 0 to n that a fresh handler delivers at the last one: they come out the
same exactly when the record open under their key holds no frame yet, or they
are a frame 0 alone. -/
theorem restart_iff {h : FastPacketHandler} (hr : ReachableHandler h) {pgn addr seq : Nat}
    (hs : seq < 8) {frames : List Bytes} (hn : FramesFrom seq 0 frames) (hlen : frames.length ≤ 32)
    {rxs : List Received} (hrxs : Feeds pgn addr frames rxs) {buf : Bytes}
    (hfresh : DeliversAtEnd FastPacketHandler.new rxs buf) :
    DeliversAtEnd h rxs buf ↔
      (∀ p, h.sequences.lookup (FastPacket.computeKey pgn addr seq) = some p → p.count = 0) ∨
        frames.length = 1 := by
  have hkey : ∀ rx ∈ rxs, rx.key = FastPacket.computeKey pgn addr seq := by
    intro rx hrx
    obtain ⟨hp, ha⟩ := hrxs.2 rx hrx
    obtain ⟨j, data, hj, hf⟩ := framesFrom_mem hn rx.frame (hrxs.1 ▸ List.mem_map_of_mem hrx)
    rw [key_of_frame hs (by omega) hf, hp, ha]
  have hslot := slotInv_reachable hr (FastPacket.computeKey pgn addr seq)
  rw [DeliversAtEnd, outs_reassembly _ rxs hkey] at hfresh ⊢
  rw [show FastPacketHandler.new.sequences.lookup (FastPacket.computeKey pgn addr seq) = none
    from rfl] at hfresh
  have hframes := hrxs.1
  obtain ⟨rx, rest, rfl⟩ : ∃ rx rest, rxs = rx :: rest := by
    cases rxs with
    | nil => simp at hfresh
    | cons rx rest => exact ⟨rx, rest, rfl⟩
  rw [List.map_cons] at hframes
  rw [← hframes] at hn hlen ⊢
  obtain ⟨⟨data, hf⟩, hn⟩ := hn
  have hctr : counterOf (controlByte seq 0) = 0 := counterOf_controlByte hs (by omega)
  obtain ⟨len, data, rfl⟩ : ∃ len rest, data = len :: rest := by
    cases data with
    | nil =>
      have hout : (slotStep none rx).1 = .error .indexError := by
        rw [slotStep_free rx hf hctr, feedSlot, FastPacket.takeFrame_zero_short]
      have hhead := congrArg List.head? hfresh
      rw [Machine.outs_cons, show slotMachine.step none rx = slotStep none rx from rfl, hout] at hhead
      cases rest <;> simp [List.replicate_succ] at hhead
    | cons len rest => exact ⟨len, rest, rfl⟩
  cases hopen : h.sequences.lookup (FastPacket.computeKey pgn addr seq) with
  | none => exact iff_of_true hfresh (Or.inl (by simp))
  | some p =>
    rcases eq_or_ne p.count 0 with h0 | h0
    · refine iff_of_true ?_ (Or.inl (fun q hq => by rw [← Option.some.inj hq]; exact h0))
      rw [outs_blank (hslot p hopen h0) rx rest hf hctr]
      exact hfresh
    · rcases List.eq_nil_or_concat rest with rfl | ⟨mid, last, rfl⟩
      · exact iff_of_true (delivers_single hs p hf hfresh) (Or.inr (by simp))
      · rw [List.concat_eq_append] at *
        refine iff_of_false ?_ (by simp [h0])
        have hcount : (rx :: (mid ++ [last])).length - 1 = mid.length + 1 := by simp
        simp only [List.length_cons, List.length_append, List.length_map, List.map_append,
          List.map_cons, List.map_nil, List.length_nil] at hlen
        rw [hcount] at hfresh ⊢
        exact not_delivers_over hs h0 hf hn (by omega) hfresh

/-- The handler that has seen frame 0 of a transfer of 20 bytes, and no more. -/
def abandoned : FastPacketHandler :=
  (FastPacketHandler.new.receive ⟨0, 129029, 3, [32, 20, 1, 2, 3, 4, 5, 6]⟩).2

theorem reachable_abandoned : ReachableHandler abandoned :=
  ⟨[.processFrame ⟨0, 129029, 3, [32, 20, 1, 2, 3, 4, 5, 6]⟩], rfl⟩

/-- A transfer of six bytes comes out over the abandoned one. -/
theorem restart_six :
    DeliversAtEnd abandoned [⟨1, 129029, 3, [32, 6, 1, 2, 3, 4, 5, 6]⟩] [1, 2, 3, 4, 5, 6] :=
  have hfresh : DeliversAtEnd FastPacketHandler.new [⟨1, 129029, 3, [32, 6, 1, 2, 3, 4, 5, 6]⟩]
      [1, 2, 3, 4, 5, 6] := by
    unfold DeliversAtEnd
    rfl
  (@restart_iff abandoned reachable_abandoned 129029 3 1 (by omega) [[32, 6, 1, 2, 3, 4, 5, 6]]
    ⟨⟨_, rfl⟩, trivial⟩ (by decide) _ ⟨rfl, by simp⟩ _ hfresh).mpr (Or.inr rfl)

/-- A transfer of thirteen bytes does not. -/
theorem not_restart_thirteen :
    ReachableHandler abandoned ∧
    FramesFrom 1 0 [[32, 13, 1, 2, 3, 4, 5, 6], [33, 7, 8, 9, 10, 11, 12, 13]] ∧
    DeliversAtEnd FastPacketHandler.new
      [⟨1, 129029, 3, [32, 13, 1, 2, 3, 4, 5, 6]⟩, ⟨1, 129029, 3, [33, 7, 8, 9, 10, 11, 12, 13]⟩]
      [1, 2, 3, 4, 5, 6, 7, 8, 9, 10, 11, 12, 13] ∧
    ¬ DeliversAtEnd abandoned
      [⟨1, 129029, 3, [32, 13, 1, 2, 3, 4, 5, 6]⟩, ⟨1, 129029, 3, [33, 7, 8, 9, 10, 11, 12, 13]⟩]
      [1, 2, 3, 4, 5, 6, 7, 8, 9, 10, 11, 12, 13] := by
  refine ⟨reachable_abandoned, ⟨⟨_, rfl⟩, ⟨_, rfl⟩, trivial⟩, rfl, fun h => ?_⟩
  have hhead := congrArg List.head? h
  have houts : reassembly.outs abandoned
      [⟨1, 129029, 3, [32, 13, 1, 2, 3, 4, 5, 6]⟩, ⟨1, 129029, 3, [33, 7, 8, 9, 10, 11, 12, 13]⟩]
      = [.error (.fastPacket "Missing frame 1"),
        .error (.fastPacket "Fast packet PGN 129029 from address 3 wrong first packet 1")] := rfl
  rw [houts] at hhead
  simp at hhead

/-! ## 4. Many transfers at once -/

/-- A transfer and where it comes from. -/
structure Sent extends Transfer where
  pgn : Nat
  addr : Nat
  pgn_lt : pgn < 1048576
  addr_lt : addr < 256
  deriving DecidableEq

namespace Sent

/-- What tells a transfer from the others. -/
def ident (t : Sent) : Nat × Nat × Nat := (t.pgn, t.addr, t.seq)

def key (t : Sent) : Nat := FastPacket.computeKey t.pgn t.addr t.seq

theorem key_eq_iff (t t' : Sent) : t.key = t'.key ↔ t.ident = t'.ident := by
  constructor
  · intro h
    obtain ⟨hp, ha, hs⟩ :=
      FastPacket.computeKey_inj t.pgn_lt t'.pgn_lt t.addr_lt t'.addr_lt h
    rw [ident, ident, hp, ha, hs]
  · intro h
    simp only [ident, Prod.mk.injEq] at h
    rw [key, key, h.1, h.2.1, h.2.2]

end Sent

/-- A frame on the bus, with the transfer it belongs to. -/
structure Arrival where
  sent : Sent
  now : Time
  frame : Bytes

/-- The call of `process_frame` it leads to. -/
def Arrival.received (a : Arrival) : Received := ⟨a.now, a.sent.pgn, a.sent.addr, a.frame⟩

/-- The frames of `t` in a run. -/
def arrivalsOf (t : Sent) (run : List Arrival) : List Arrival :=
  run.filter (fun a => a.sent = t)

/-- What `process_frame` returns for the frames of `t` in a run. -/
def returnsFor (t : Sent) (h : FastPacketHandler) (run : List Arrival) :
    List (Except Exn (Option Bytes)) :=
  ((run.zip (reassembly.outs h (run.map Arrival.received))).filter
    (fun x => x.1.sent = t)).map Prod.snd

/-- A run is made of the frames of the transfers `ts`, each with its frame 0
first and its other frames in some order. -/
def Interleaves (ts : List Sent) (run : List Arrival) : Prop :=
  (∀ a ∈ run, a.sent ∈ ts) ∧
  ∀ t ∈ ts, ∃ todo : List (Bytes × Nat), todo.Perm t.numbered ∧
    (arrivalsOf t run).map Arrival.frame = t.frame0 :: todo.map t.cont

/-- The frames of `t` alone, in order. -/
def Alone (t : Sent) (rxs : List Received) : Prop := Feeds t.pgn t.addr t.frames rxs

theorem deliversAtEnd_alone {t : Sent} {rxs : List Received} (h : Alone t rxs) :
    DeliversAtEnd FastPacketHandler.new rxs t.buffer := by
  have hkey := t.key_eq (List.Perm.refl _) h
  have hlen : rxs.length - 1 = t.conts.length := by
    have := congrArg List.length h.1
    simp only [List.length_map, Transfer.frames, List.length_cons, Transfer.length_numbered] at this
    omega
  rw [DeliversAtEnd, outs_reassembly _ rxs hkey, hlen]
  exact (outs_transfer (List.Perm.refl _) h.1).1

/-- **Transfers do not disturb each other.** Transfers that differ in PGN,
source or sequence number, in any interleaving that starts with none of them
open: each returns `None` for its frames but the last to arrive, and for that
one the buffer that it delivers alone and in order. -/
theorem outs_interleaved (ts : List Sent) (hdistinct : (ts.map Sent.ident).Nodup)
    (h : FastPacketHandler) (hclosed : ∀ t ∈ ts, h.sequences.lookup t.key = none)
    (run : List Arrival) (hrun : Interleaves ts run) :
    ∀ t ∈ ts, ∃ buf,
      (∀ rxs, Alone t rxs → DeliversAtEnd FastPacketHandler.new rxs buf) ∧
      returnsFor t h run
        = List.replicate ((arrivalsOf t run).length - 1) (.ok none) ++ [.ok (some buf)] := by
  intro t ht
  refine ⟨t.buffer, fun rxs hrxs => deliversAtEnd_alone hrxs, ?_⟩
  have hkey : ∀ a ∈ run, a.received.key = a.sent.key := by
    intro a ha
    obtain ⟨todo, hperm, hframes⟩ := hrun.2 a.sent (hrun.1 a ha)
    have hmem : a ∈ arrivalsOf a.sent run := List.mem_filter.mpr ⟨ha, by simp⟩
    have hfeeds : Feeds a.sent.pgn a.sent.addr (a.sent.frame0 :: todo.map a.sent.cont)
        (((arrivalsOf a.sent run).map Arrival.frame).map
          (fun f => (⟨a.now, a.sent.pgn, a.sent.addr, f⟩ : Received))) := by
      refine ⟨by simp [← hframes, Function.comp_def], ?_⟩
      intro rx hrx
      obtain ⟨f, -, rfl⟩ := List.mem_map.mp hrx
      exact ⟨rfl, rfl⟩
    exact a.sent.key_eq hperm hfeeds _ (List.mem_map_of_mem (List.mem_map_of_mem hmem))
  obtain ⟨todo, hperm, hframes⟩ := hrun.2 t ht
  have hreturns : returnsFor t h run
      = slotMachine.outs none ((arrivalsOf t run).map Arrival.received) := by
    have := reassembly.outs_tagged Arrival.received (fun a => decide (a.sent = t))
      t.key h run (fun a ha => by
        rw [show reassembly.key a.received = a.received.key from rfl, hkey a ha, Sent.key_eq_iff,
          decide_eq_true_eq]
        exact ⟨fun he => List.inj_on_of_nodup_map hdistinct (hrun.1 a ha) ht he, congrArg _⟩)
    rw [show reassembly.slot h t.key = h.sequences.lookup t.key from rfl, hclosed t ht] at this
    exact this
  have hlen : (arrivalsOf t run).length - 1 = t.conts.length := by
    have := congrArg List.length hframes
    rw [List.length_map, List.length_cons, List.length_map, hperm.length_eq,
      Transfer.length_numbered] at this
    omega
  rw [hreturns, hlen]
  refine (outs_transfer hperm ?_).1
  rw [List.map_map]
  exact hframes

/-- Thirteen bytes from address 3. -/
def sentThirteen : Sent where
  seq := 1
  byteLength := 13
  first := [1, 2, 3, 4, 5, 6]
  conts := [[7, 8, 9, 10, 11, 12, 13]]
  seq_lt := by decide
  le_byteLength := by decide
  byteLength_le := by decide
  length_conts := rfl
  full := by simp
  last := by simp
  pgn := 129029
  addr := 3
  pgn_lt := by decide
  addr_lt := by decide

/-- Fifteen bytes with the same PGN and sequence number from address 4. -/
def sentFifteen : Sent where
  seq := 1
  byteLength := 15
  first := [1, 2, 3, 4, 5, 6]
  conts := [[7, 8, 9, 10, 11, 12, 13], [14, 15, 255]]
  seq_lt := by decide
  le_byteLength := by decide
  byteLength_le := by decide
  length_conts := rfl
  full := by simp
  last := by simp
  pgn := 129029
  addr := 4
  pgn_lt := by decide
  addr_lt := by decide

/-- The two of them interleaved, the second with its last frame first. -/
def twoTransfers : List Arrival :=
  [⟨sentThirteen, 0, [32, 13, 1, 2, 3, 4, 5, 6]⟩, ⟨sentFifteen, 1, [32, 15, 1, 2, 3, 4, 5, 6]⟩,
    ⟨sentFifteen, 2, [34, 14, 15, 255]⟩, ⟨sentThirteen, 3, [33, 7, 8, 9, 10, 11, 12, 13]⟩,
    ⟨sentFifteen, 4, [33, 7, 8, 9, 10, 11, 12, 13]⟩]

theorem outs_twoTransfers :
    (∃ buf, (∀ rxs, Alone sentThirteen rxs → DeliversAtEnd FastPacketHandler.new rxs buf) ∧
      returnsFor sentThirteen FastPacketHandler.new twoTransfers
        = List.replicate ((arrivalsOf sentThirteen twoTransfers).length - 1) (.ok none)
            ++ [.ok (some buf)]) ∧
    ∃ buf, (∀ rxs, Alone sentFifteen rxs → DeliversAtEnd FastPacketHandler.new rxs buf) ∧
      returnsFor sentFifteen FastPacketHandler.new twoTransfers
        = List.replicate ((arrivalsOf sentFifteen twoTransfers).length - 1) (.ok none)
            ++ [.ok (some buf)] := by
  have hboth := outs_interleaved [sentThirteen, sentFifteen] (by decide) .new (fun _ _ => rfl)
    twoTransfers ⟨by decide, fun t ht => ?_⟩
  · exact ⟨hboth sentThirteen (by decide), hboth sentFifteen (by decide)⟩
  · rcases List.mem_pair.mp ht with rfl | rfl
    · exact ⟨[([7, 8, 9, 10, 11, 12, 13], 1)], List.Perm.refl _, by decide⟩
    · exact ⟨[([14, 15, 255], 2), ([7, 8, 9, 10, 11, 12, 13], 1)], List.Perm.swap _ _ _, by decide⟩

end NavigationServer.Nmea2000
