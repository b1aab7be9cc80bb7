/-
NavigationServer.Nmea2000.SplitDelivery — what comes out of the frames of a
payload of any length.

Below 6 bytes nothing does, from 6 to 223 the one buffer of the transfer, and
from 256 on there is no frame. In between, frame 32 has the control byte of a
frame 0 (`seq_en | counter` does not carry), so it announces a new length with
its first byte of payload: what it completes is a buffer if that length needs
no more than the 32 frames there are, and an exception if not.
`deliveries_splitFrames` counts the buffers.
-/
import NavigationServer.Nmea2000.FastPacketTheorems

namespace NavigationServer.Nmea2000

open NavigationServer.Lib
open FastPacketHandler

/-- The buffers among the results of `process_frame`. -/
def deliveries (outs : List (Except Exn (Option Bytes))) : List Bytes :=
  outs.filterMap (fun out => match out with
    | .ok buf => buf
    | .error _ => none)

@[simp] theorem deliveries_nil : deliveries [] = [] := rfl

@[simp] theorem deliveries_none (outs : List (Except Exn (Option Bytes))) :
    deliveries (.ok none :: outs) = deliveries outs := rfl

@[simp] theorem deliveries_some (buf : Bytes) (outs : List (Except Exn (Option Bytes))) :
    deliveries (.ok (some buf) :: outs) = buf :: deliveries outs := rfl

@[simp] theorem deliveries_error (e : Exn) (outs : List (Except Exn (Option Bytes))) :
    deliveries (.error e :: outs) = deliveries outs := rfl

/-- Deliveries of one run behind another. -/
theorem deliveries_append (outs outs' : List (Except Exn (Option Bytes))) :
    deliveries (outs ++ outs') = deliveries outs ++ deliveries outs' := List.filterMap_append

/-- Frames that complete nothing deliver nothing. -/
theorem deliveries_replicate (n : Nat) : deliveries (List.replicate n (.ok none)) = [] := by
  induction n with
  | zero => rfl
  | succ n ih => rw [List.replicate_succ, deliveries_none, ih]

/-- No frame carries the length of 256 bytes and more. -/
theorem splitFrames_long {data : Bytes} (h : 255 < data.length) :
    splitFrames data 1 = ([], some .valueError) := by
  have hsucc : (data.length + 7) / 7 = data.length / 7 + 1 := by omega
  rw [splitFrames, ceil_nbFramesOut, hsucc, List.range_eq_range', List.range'_succ, splitLoop,
    splitFrame, if_pos (Or.inr ⟨rfl, h⟩)]
  rfl

/-- A payload that the frames carry to a buffer. -/
def FastCarried (payload : Bytes) : Prop :=
  6 ≤ payload.length ∧ payload.length ≤ 223 ∨
    224 ≤ payload.length ∧ payload.length ≤ 255 ∧ (payload.getD 223 0).toNat ≤ 223

/-! ## 1. The frames up to 31 -/

/-- A record with the frames 0 to `i` of a payload that needs more than 32. -/
structure Filling (byteLength i : Nat) (p : FastPacket) : Prop where
  byteLength_eq : p.byteLength = byteLength
  nbFrames : p.nbFrames = FastPacket.nbFramesFor byteLength
  count : p.count = i + 1
  length : p.length = 7 * i + 6
  stored : ∀ j ≤ i, p.frames.lookup j ≠ none
  missing : ∀ j, i < j → p.frames.lookup j = none

/-- The frames hold the payload, and the last one holds some of it. -/
theorem nbFramesFor_bounds {byteLength : Nat} (h : 6 ≤ byteLength) :
    byteLength ≤ 7 * FastPacket.nbFramesFor byteLength - 1 ∧
      7 * FastPacket.nbFramesFor byteLength ≤ byteLength + 7 := by
  rw [FastPacket.nbFramesFor_eq h, Nat.ceilDiv_eq_add_pred_div]
  omega

/-- A payload of 224 bytes or more is not complete with 32 frames. -/
theorem Filling.not_complete {byteLength i : Nat} {p : FastPacket} (h : Filling byteLength i p)
    (hlen : 224 ≤ byteLength) (hi : i < 32) : p.checkComplete = false := by
  have hn := @nbFramesFor_bounds byteLength (by omega)
  rw [FastPacket.checkComplete, h.nbFrames, h.byteLength_eq, h.count, h.length,
    if_neg (by omega)]
  exact decide_eq_false (by omega)

/-- A continuation frame adds its seven bytes. -/
theorem Filling.withCont {byteLength i : Nat} {p : FastPacket} (h : Filling byteLength i p)
    {data : Bytes} (hdata : data.length = 7) : Filling byteLength (i + 1) (p.withCont (i + 1) data) where
  byteLength_eq := h.byteLength_eq
  nbFrames := h.nbFrames
  count := by rw [← h.count]; rfl
  length := by
    have hl : (p.withCont (i + 1) data).length = p.length + data.length := rfl
    rw [hl, h.length, hdata]
    omega
  stored := by
    intro j hj
    rcases Nat.eq_or_lt_of_le hj with rfl | hj
    · rw [FastPacket.withCont, AList.lookup_insert]
      simp
    · rw [FastPacket.withCont, AList.lookup_insert_ne (by omega)]
      exact h.stored j (by omega)
  missing := by
    intro j hj
    rw [FastPacket.withCont, AList.lookup_insert_ne (by omega)]
    exact h.missing j (by omega)

/-- The control byte of a continuation frame that the counter has room for. -/
theorem contFrame_eq (data : Bytes) {k : Nat} (hk : k < 32) :
    contFrame data (1 * 32) k = controlByte 1 k :: chunkAt data (7 * k - 1) := by
  have hor : 1 * 32 ||| k = 1 * 32 + k := by
    simpa using (Nat.two_pow_add_eq_or_of_lt (i := 5) hk 1).symm
  rw [contFrame, hor, controlByte]

/-- Frames i + 1 to 31. -/
theorem outs_filling {payload : Bytes} (hlen : 224 ≤ payload.length) (m : Nat) :
    ∀ {i : Nat} {p : FastPacket} {rxs : List Received}, i + m = 31 →
      Filling payload.length i p →
      rxs.map Received.frame = (List.range' (i + 1) m).map (contFrame payload (1 * 32)) →
      slotMachine.outs (some p) rxs = List.replicate m (.ok none) ∧
      ∃ p', slotMachine.final (some p) rxs = some p' ∧ Filling payload.length 31 p' := by
  induction m with
  | zero =>
    intro i p rxs hi h hrxs
    obtain rfl : i = 31 := by omega
    obtain rfl : rxs = [] := List.map_eq_nil_iff.mp hrxs
    exact ⟨rfl, p, rfl, h⟩
  | succ m ih =>
    intro i p rxs hi h hrxs
    rw [List.range'_succ, List.map_cons] at hrxs
    obtain ⟨rx, rest, rfl, hrx, hrest⟩ := List.map_eq_cons_iff.mp hrxs
    rw [contFrame_eq payload (by omega)] at hrx
    have hctr : counterOf (controlByte 1 (i + 1)) = i + 1 :=
      counterOf_controlByte (by omega) (by omega)
    have hnext := h.withCont (length_chunkAt payload (7 * (i + 1) - 1))
    have hstep : slotMachine.step (some p) rx
        = (.ok none, some (p.withCont (i + 1) (chunkAt payload (7 * (i + 1) - 1)))) := by
      rw [show slotMachine.step (some p) rx = slotStep (some p) rx from rfl, slotStep_open p rx hrx,
        hctr, feedSlot_ok (FastPacket.takeFrame_new _ hctr (by omega) (h.missing _ (by omega))),
        hnext.not_complete hlen (by omega)]
      rfl
    obtain ⟨houts, p', hfinal, hp'⟩ := ih (by omega) hnext hrest
    rw [Machine.outs_cons, Machine.final_cons, hstep, houts]
    exact ⟨rfl, p', hfinal, hp'⟩

/-- Frame 0 of a payload that needs more than 32 frames. -/
theorem outs_first {payload : Bytes} (hlen : 224 ≤ payload.length) (h255 : payload.length ≤ 255)
    {rx : Received} (hrx : rx.frame
      = UInt8.ofNat (1 * 32) :: UInt8.ofNat payload.length :: firstChunk payload) :
    ∃ p, slotMachine.step none rx = (.ok none, some p) ∧ Filling payload.length 0 p := by
  have hctr : counterOf (UInt8.ofNat (1 * 32)) = 0 := rfl
  have hL : (UInt8.ofNat payload.length).toNat = payload.length := by
    rw [UInt8.toNat_ofNat']
    omega
  obtain ⟨q, hq, hc, hl, hf⟩ : ∃ q,
      q = FastPacket.new rx.now rx.pgn rx.addr (seqOf (UInt8.ofNat (1 * 32))) ∧
      q.count = 0 ∧ q.length = 0 ∧ q.frames = ∅ := ⟨_, rfl, rfl, rfl, rfl⟩
  have hfill : Filling payload.length 0 (q.withFirst payload.length (firstChunk payload)) := by
    refine ⟨rfl, rfl, ?_, ?_, fun j hj => ?_, fun j hj => ?_⟩
    · rw [FastPacket.withFirst, hc]
    · rw [FastPacket.withFirst, hl]
    · obtain rfl : j = 0 := by omega
      rw [FastPacket.withFirst, AList.lookup_insert]
      simp
    · rw [FastPacket.withFirst, AList.lookup_insert_ne (by omega), hf, AList.lookup_empty]
  refine ⟨_, ?_, hfill⟩
  rw [show slotMachine.step none rx = slotStep none rx from rfl, slotStep_free rx hrx hctr, ← hq,
    feedSlot_ok (FastPacket.takeFrame_zero _ _ _ _), hL, hfill.not_complete hlen (by omega)]
  rfl

/-! ## 2. Frame 32 and the frames behind it -/

/-- A slot that nothing comes out of any more. -/
def Spent (slot : Option FastPacket) : Prop :=
  ∀ p, slot = some p → ∀ j, 1 ≤ j → j < 32 → p.frames.lookup j ≠ none

/-- A continuation frame, for a spent slot. -/
theorem spent_step {slot : Option FastPacket} (h : Spent slot) {rx : Received} {b : UInt8}
    {data : Bytes} (hrx : rx.frame = b :: data) (hb : counterOf b ≠ 0) :
    (∃ e, (slotMachine.step slot rx).1 = .error e) ∧ (slotMachine.step slot rx).2 = none := by
  cases slot with
  | none =>
    rw [show slotMachine.step none rx = slotStep none rx from rfl, slotStep, hrx]
    simp only
    rw [if_pos hb]
    exact ⟨⟨_, rfl⟩, rfl⟩
  | some p =>
    rw [show slotMachine.step (some p) rx = slotStep (some p) rx from rfl, slotStep_open p rx hrx,
      feedSlot, FastPacket.takeFrame_duplicate data rfl hb (h p rfl _ (by omega) (counterOf_lt b))]
    exact ⟨⟨_, rfl⟩, rfl⟩

/-- Behind the announcement that frame 32 makes, no frame delivers: by induction on them. -/
theorem deliveries_spent {rxs : List Received}
    (hrxs : ∀ rx ∈ rxs, ∃ b data, rx.frame = b :: data ∧ counterOf b ≠ 0) :
    ∀ {slot : Option FastPacket}, Spent slot → deliveries (slotMachine.outs slot rxs) = [] := by
  induction rxs with
  | nil => exact fun _ => rfl
  | cons rx rxs ih =>
    intro slot h
    obtain ⟨b, data, hrx, hb⟩ := hrxs rx (by simp)
    obtain ⟨⟨e, he⟩, hfree⟩ := spent_step h hrx hb
    rw [Machine.outs_cons, he, hfree, deliveries_error]
    exact ih (fun r hr => hrxs r (by simp [hr])) (fun p hp => by simp at hp)

/-- A frame 0 over the record with the frames 0 to 31: a buffer if the new
length needs no other frames. -/
theorem restart_filled {payloadLength : Nat} {p : FastPacket} (h : Filling payloadLength 31 p)
    {rx : Received} {b len : UInt8} {data : Bytes} (hrx : rx.frame = b :: len :: data)
    (hb : counterOf b = 0) :
    (deliveries [(slotMachine.step (some p) rx).1]).length = (if len.toNat ≤ 223 then 1 else 0) ∧
      Spent (slotMachine.step (some p) rx).2 := by
  obtain ⟨q, hq⟩ : ∃ q, q = p.withFirst len.toNat data := ⟨_, rfl⟩
  have hcount : q.count = 33 := by
    rw [hq, FastPacket.withFirst, h.count]
  have hlength : q.length = 229 := by
    rw [hq, FastPacket.withFirst, h.length]
  have hbyte : q.byteLength = len.toNat := by rw [hq]; rfl
  have hnb : q.nbFrames = FastPacket.nbFramesFor len.toNat := by rw [hq]; rfl
  have hstored : ∀ j < 32, q.frames.lookup j ≠ none := by
    intro j hj
    rw [hq, FastPacket.withFirst]
    rcases Nat.eq_zero_or_pos j with rfl | hpos
    · rw [AList.lookup_insert]
      simp
    · rw [AList.lookup_insert_ne (by omega)]
      exact h.stored j (by omega)
  have hmissing : q.frames.lookup 32 = none := by
    rw [hq, FastPacket.withFirst, AList.lookup_insert_ne (by omega)]
    exact h.missing 32 (by omega)
  have hpos := FastPacket.nbFramesFor_pos len.toNat
  rw [show slotMachine.step (some p) rx = slotStep (some p) rx from rfl, slotStep_open p rx hrx, hb,
    feedSlot_ok (FastPacket.takeFrame_zero _ _ _ _), ← hq]
  rcases Nat.lt_or_ge 223 len.toNat with hlong | hshort
  · have hn := @nbFramesFor_bounds len.toNat (by omega)
    rw [if_neg (show ¬ len.toNat ≤ 223 by omega)]
    by_cases hc : q.checkComplete
    · -- complete by the old count or length, with frame 32 missing
      obtain ⟨text, ht⟩ := FastPacket.totalFrame_missing (by omega) hmissing
      rw [if_pos hc, ht]
      exact ⟨rfl, fun p hp => by simp at hp⟩
    · rw [if_neg hc]
      refine ⟨rfl, fun p' hp' j hj1 hj => ?_⟩
      obtain rfl : q = p' := Option.some.inj hp'
      exact hstored j hj
  · have hn : FastPacket.nbFramesFor len.toNat ≤ 32 := by
      rcases Nat.lt_or_ge len.toNat 6 with h6 | h6
      · rw [FastPacket.nbFramesFor_of_lt h6]
        omega
      · have := nbFramesFor_bounds h6
        omega
    have hc : q.checkComplete = true := by
      rw [FastPacket.checkComplete, hnb, hcount, if_neg (by omega)]
      exact decide_eq_true (Or.inr (by omega))
    obtain ⟨buf, hbuf⟩ := (FastPacket.totalFrame_isOk_iff q).mpr
      (fun j hj => hstored j (by omega))
    rw [if_pos hc, hbuf, if_pos hshort]
    exact ⟨rfl, fun p hp => by simp at hp⟩

/-- The control bytes from frame 32 on are those of a frame 0 and its
continuations. -/
theorem counterOf_overflow {k : Nat} (h32 : 32 ≤ k) (h36 : k ≤ 36) :
    counterOf (UInt8.ofNat (1 * 32 ||| k)) = k - 32 ∧ seqOf (UInt8.ofNat (1 * 32 ||| k)) = 1 := by
  obtain rfl | rfl | rfl | rfl | rfl : k = 32 ∨ k = 33 ∨ k = 34 ∨ k = 35 ∨ k = 36 := by omega
  all_goals decide

/-- **From 224 bytes on** the first payload byte of frame 32 decides. -/
theorem deliveries_overflow {payload : Bytes} (hlen : 224 ≤ payload.length)
    (h255 : payload.length ≤ 255) {rxs : List Received}
    (hrxs : rxs.map Received.frame = (splitFrames payload 1).1) :
    (deliveries (slotMachine.outs none rxs)).length
      = if (payload.getD 223 0).toNat ≤ 223 then 1 else 0 := by
  have hsplit : List.range' 1 (payload.length / 7)
      = List.range' 1 31 ++ 32 :: List.range' 33 (payload.length / 7 - 32) := by
    obtain ⟨n, hn⟩ : ∃ n, payload.length / 7 = 31 + (n + 1) := ⟨payload.length / 7 - 32, by omega⟩
    have happ := @List.range'_append_1 1 31 (n + 1)
    rw [hn, show 31 + (n + 1) - 32 = n by omega, ← happ]
    rfl
  rw [splitFrames_eq payload 1 (by omega) h255, hsplit, List.map_append, List.map_cons] at hrxs
  obtain ⟨rx, rest, rfl, hrx, hrest⟩ := List.map_eq_cons_iff.mp hrxs
  obtain ⟨inner, rest, rfl, hinner, hrest⟩ := List.map_eq_append_iff.mp hrest
  obtain ⟨ovr, rest, rfl, hover, hrest⟩ := List.map_eq_cons_iff.mp hrest
  obtain ⟨p0, hstep, hfill0⟩ := outs_first hlen h255 hrx
  obtain ⟨houts, p, hfinal, hfill⟩ := outs_filling hlen 31 (by omega) hfill0 hinner
  have hchunk : ∃ data, chunkAt payload (7 * 32 - 1) = payload.getD 223 0 :: data := by
    have hget : payload.getD 223 0 = payload[223] := by
      rw [List.getD, List.getElem?_eq_getElem (by omega)]
      rfl
    rw [chunkAt, show 7 * 32 - 1 = 223 by omega, List.drop_eq_getElem_cons (by omega), hget]
    exact ⟨_, rfl⟩
  obtain ⟨data, hdata⟩ := hchunk
  rw [contFrame, hdata] at hover
  obtain ⟨hone, hspent⟩ := restart_filled hfill hover (counterOf_overflow (by omega) (by omega)).1
  have hnone : deliveries (slotMachine.outs (slotMachine.step (some p) ovr).2 rest) = [] := by
    refine deliveries_spent (fun r hr => ?_) hspent
    have hmem : r.frame ∈ (List.range' 33 (payload.length / 7 - 32)).map (contFrame payload (1 * 32)) :=
      hrest ▸ List.mem_map_of_mem hr
    obtain ⟨k, hk, hkf⟩ := List.mem_map.mp hmem
    rw [List.mem_range'_1] at hk
    refine ⟨_, _, hkf.symm, ?_⟩
    rw [(counterOf_overflow (by omega) (by omega)).1]
    omega
  rw [Machine.outs_cons, hstep, deliveries_none, Machine.outs_append, houts, hfinal,
    deliveries_append, deliveries_replicate, List.nil_append, Machine.outs_cons,
    ← List.singleton_append, deliveries_append, hnone, List.append_nil, hone]

/-! ## 3. Any length -/

/-- The calls that feed the frames of a payload have one key. -/
theorem key_splitFrames {payload : Bytes} {pgn addr : Nat} {rxs : List Received}
    (h : Feeds pgn addr (splitFrames payload 1).1 rxs) :
    ∀ rx ∈ rxs, rx.key = FastPacket.computeKey pgn addr 1 ∧ ∃ b data, rx.frame = b :: data := by
  intro rx hrx
  obtain ⟨hp, ha⟩ := h.2 rx hrx
  have hmem : rx.frame ∈ (splitFrames payload 1).1 := h.1 ▸ List.mem_map_of_mem hrx
  rcases Nat.lt_or_ge 255 payload.length with hlong | h255
  · rw [splitFrames_long hlong] at hmem
    exact absurd hmem List.not_mem_nil
  · rw [splitFrames_eq payload 1 (by omega) h255] at hmem
    rcases List.mem_cons.mp hmem with h0 | hk
    · exact ⟨by rw [Received.key, h0, hp, ha]; rfl, _, _, h0⟩
    · obtain ⟨k, hk, hkf⟩ := List.mem_map.mp hk
      rw [List.mem_range'_1] at hk
      refine ⟨?_, _, _, hkf.symm⟩
      have hseq : seqOf (UInt8.ofNat (1 * 32 ||| k)) = 1 := by
        rcases Nat.lt_or_ge k 32 with hlt | hge
        · have hor : 1 * 32 ||| k = 1 * 32 + k := by
            simpa using (Nat.two_pow_add_eq_or_of_lt (i := 5) hlt 1).symm
          rw [hor]
          exact seqOf_controlByte (by omega) hlt
        · exact (counterOf_overflow hge (by omega)).2
      rw [Received.key, ← hkf, contFrame, hp, ha]
      simp only [hseq]

/-- **What comes out of the frames of a payload**, in a free slot: one buffer
or none. -/
theorem deliveries_splitFrames (payload : Bytes) {rxs : List Received}
    (h : rxs.map Received.frame = (splitFrames payload 1).1) :
    (deliveries (slotMachine.outs none rxs)).length = 1 ↔ FastCarried payload := by
  rcases Nat.lt_or_ge 255 payload.length with hlong | h255
  · rw [splitFrames_long hlong, List.map_eq_nil_iff] at h
    subst h
    refine iff_of_false (by simp) ?_
    rintro (h | h) <;> omega
  rcases Nat.lt_or_ge payload.length 6 with h6 | h6
  · obtain ⟨text, ht⟩ := outs_short h6 h
    rw [ht]
    refine iff_of_false (by simp) ?_
    rintro (h | h) <;> omega
  rcases Nat.lt_or_ge 223 payload.length with hover | h223
  · rw [deliveries_overflow hover h255 h]
    constructor
    · intro hone
      by_contra hno
      rw [if_neg (fun hle => hno (Or.inr ⟨hover, h255, hle⟩))] at hone
      omega
    · rintro (h | h)
      · omega
      · rw [if_pos h.2.2]
  · rw [frames_ofPayload h6 h223, Transfer.frames] at h
    rw [(outs_transfer (List.Perm.refl _) h).1, deliveries_append, deliveries_replicate]
    exact iff_of_true rfl (Or.inl ⟨h6, h223⟩)

/-! ## 4. The payload itself -/

/-- The frames of a payload of up to 223 bytes deliver that payload and no
other for the lengths that leave no padding. -/
theorem deliveries_eq_payload_iff {payload : Bytes} (h223 : payload.length ≤ 223)
    {rxs : List Received} (h : rxs.map Received.frame = (splitFrames payload 1).1) :
    deliveries (slotMachine.outs none rxs) = [payload] ↔
      payload.length % 7 = 6 ∧ (payload.length = 6 → payload[5]? = some 0xFF) := by
  rcases Nat.lt_or_ge payload.length 6 with h6 | h6
  · obtain ⟨text, ht⟩ := outs_short h6 h
    rw [ht]
    refine iff_of_false (by simp) ?_
    rintro ⟨h, -⟩
    omega
  · rw [frames_ofPayload h6 h223, Transfer.frames] at h
    rw [(outs_transfer (List.Perm.refl _) h).1, deliveries_append, deliveries_replicate,
      ← @Transfer.buffer_ofPayload_eq_iff payload h6 h223]
    simp

/-- One frame gives no more than its own bytes. -/
theorem assemble_singleton (byteLength : Nat) (f : Bytes) :
    (assemble byteLength [f]).length ≤ f.length := by
  have hzero := setSlice_to_end (List.replicate byteLength (0 : UInt8))
    (if byteLength ≤ 0 + f.length then slice f 0 ((byteLength : Int) - (0 : Nat) + 1) else f) 0
  rw [assemble, List.foldl_cons, List.foldl_nil, assembleStep, hzero, List.take_zero,
    List.nil_append]
  split
  · rw [slice, List.length_drop, List.length_take]
    omega
  · exact le_refl _

/-- A frame that stands for itself does not come out of a free slot. -/
theorem deliveries_ne_frame (rx : Received) :
    deliveries (slotMachine.outs none [rx]) ≠ [rx.frame] := by
  intro hself
  have hout : (slotStep none rx).1 = .ok (some rx.frame) := by
    rw [Machine.outs_cons, Machine.outs_nil,
      show slotMachine.step none rx = slotStep none rx from rfl] at hself
    generalize (slotStep none rx).1 = r at hself
    cases r with
    | error e => simp at hself
    | ok o =>
      cases o with
      | none => simp at hself
      | some data => simpa using hself
  obtain ⟨b, rest, hf⟩ : ∃ b rest, rx.frame = b :: rest := by
    cases hf : rx.frame with
    | nil =>
      rw [slotStep, hf] at hout
      simp at hout
    | cons b rest => exact ⟨b, rest, rfl⟩
  by_cases hc : counterOf b = 0
  · rw [slotStep_free rx hf hc] at hout
    cases rest with
    | nil =>
      rw [feedSlot, FastPacket.takeFrame_zero_short] at hout
      simp at hout
    | cons len data =>
      rw [feedSlot_ok (FastPacket.takeFrame_zero _ _ _ _)] at hout
      obtain ⟨p, hp⟩ : ∃ p, p = (FastPacket.new rx.now rx.pgn rx.addr (seqOf b)).withFirst
        len.toNat data := ⟨_, rfl⟩
      rw [← hp] at hout
      have hcount : p.count = 1 ∧ p.length = 6 ∧ p.nbFrames = FastPacket.nbFramesFor len.toNat ∧
          p.byteLength = len.toNat := by
        rw [hp]
        exact ⟨rfl, rfl, rfl, rfl⟩
      split at hout
      · rename_i hcomplete
        rw [FastPacket.checkComplete, hcount.1, hcount.2.1, hcount.2.2.1, hcount.2.2.2] at hcomplete
        rcases Nat.lt_trichotomy len.toNat 6 with hlt | heq | hgt
        · -- two frames are counted, and the second is not there
          have hmissing : p.frames.lookup 1 = none := by
            rw [hp]
            exact AList.lookup_insert_ne (by omega)
          have hnb : 1 < p.nbFrames := by
            rw [hcount.2.2.1, FastPacket.nbFramesFor_of_lt hlt]
            omega
          obtain ⟨text, ht⟩ := FastPacket.totalFrame_missing hnb hmissing
          rw [ht] at hout
          simp [Except.map] at hout
        · -- the payload is shorter than the frame
          have hnb : p.nbFrames = [data].length := by
            rw [hcount.2.2.1, heq]
            rfl
          have htotal := FastPacket.totalFrame_eq [data] hnb (by
            intro i hi
            obtain rfl : i = 0 := by simpa using hi
            rw [hp]
            exact AList.lookup_insert _)
          have hle := assemble_singleton p.byteLength data
          rw [htotal, hf] at hout
          simp only [Except.map, Except.ok.injEq, Option.some.injEq] at hout
          rw [hout] at hle
          simp only [List.length_cons] at hle
          omega
        · have hnb := FastPacket.nbFramesFor_eq (show 6 ≤ len.toNat by omega)
          rw [Nat.ceilDiv_eq_add_pred_div] at hnb
          rw [if_neg (by omega), decide_eq_true_eq] at hcomplete
          omega
      · simp at hout
  · rw [slotStep, hf] at hout
    simp [hc] at hout

end NavigationServer.Nmea2000
