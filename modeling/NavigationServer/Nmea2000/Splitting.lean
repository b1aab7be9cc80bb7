/-
NavigationServer.Nmea2000.Splitting — the frames `split_message` yields.

`copyBytes_append` and `padBytes_append` turn the two inner loops into slices,
`splitFrame_zero` and `splitFrame_succ` give one frame, and
`splitFrames_eq` the whole list: a payload of `n` bytes is sent as frame 0
with `firstChunk` and the frames 1 to `n / 7` with `chunkAt`, each filled up
with 0xFF to 8 bytes.

Frame 0 stops one byte early for a payload of 1 to 6 bytes (`firstChunk`
holds `n - 1` of them): `frame_len` counts one byte of header and frame 0
has two.
-/
import Mathlib.Tactic.Linarith
import NavigationServer.Nmea2000.Transfer

namespace NavigationServer.Nmea2000

open NavigationServer.Lib

namespace FastPacketHandler

/-! ## 1. The inner loops -/

/-- The copying loop writes `n` bytes of the payload behind what is there. -/
theorem copyBytes_append (data : Bytes) : ∀ (n : Nat) (pre suf : Bytes) (dataPtr : Nat),
    n ≤ suf.length → dataPtr + n ≤ data.length →
    copyBytes data n (pre ++ suf) pre.length dataPtr
      = .ok (pre ++ (data.drop dataPtr).take n ++ suf.drop n, pre.length + n, dataPtr + n)
  | 0, pre, suf, dataPtr, _, _ => by simp [copyBytes]
  | n + 1, pre, [], dataPtr, hn, _ => by simp at hn
  | n + 1, pre, x :: suf, dataPtr, hn, hd => by
      have hlt : dataPtr < data.length := by omega
      have hset : (pre ++ x :: suf).set pre.length data[dataPtr]
          = (pre ++ [data[dataPtr]]) ++ suf := by
        simp
      have ih := copyBytes_append data n (pre ++ [data[dataPtr]]) suf (dataPtr + 1)
        (by simpa using hn) (by omega)
      rw [List.length_append, List.length_singleton] at ih
      rw [copyBytes, List.getElem?_eq_getElem hlt]
      simp only
      rw [hset, ih, List.drop_eq_getElem_cons hlt, List.take_succ_cons]
      simp only [List.append_assoc, List.nil_append, List.cons_append, List.drop_succ_cons,
        Nat.add_assoc, Nat.add_comm 1 n]

/-- The filling loop writes 0xFF behind what is there. -/
theorem padBytes_append : ∀ (n : Nat) (pre suf : Bytes), n ≤ suf.length →
    padBytes n (pre ++ suf) pre.length = pre ++ List.replicate n 0xFF ++ suf.drop n
  | 0, pre, suf, _ => by simp [padBytes]
  | n + 1, pre, [], hn => by simp at hn
  | n + 1, pre, x :: suf, hn => by
      have hset : (pre ++ x :: suf).set pre.length 0xFF = (pre ++ [0xFF]) ++ suf := by simp
      have ih := padBytes_append n (pre ++ [0xFF]) suf (by simpa using hn)
      rw [List.length_append, List.length_singleton] at ih
      rw [padBytes, hset, ih, List.replicate_succ]
      simp only [List.append_assoc, List.nil_append, List.cons_append, List.drop_succ_cons]

/-- Copying `n` bytes behind a header and filling the rest of the 8 bytes. -/
theorem copy_pad (data pre : Bytes) {n : Nat} (dataPtr : Nat) (hn : pre.length + n ≤ 8)
    (hd : dataPtr + n ≤ data.length) :
    ∃ frame, copyBytes data n (pre ++ List.replicate (8 - pre.length) 0) pre.length dataPtr
        = .ok (frame, pre.length + n, dataPtr + n) ∧
      (pre.length + n = 8 → frame = pre ++ (data.drop dataPtr).take n) ∧
      padBytes (8 - (pre.length + n)) frame (pre.length + n)
        = pre ++ (data.drop dataPtr).take n ++ List.replicate (8 - (pre.length + n)) 0xFF := by
  have hlen : ((data.drop dataPtr).take n).length = n := by simp; omega
  refine ⟨_, copyBytes_append data n pre (List.replicate (8 - pre.length) 0) dataPtr
    (by simp; omega) hd, ?_, ?_⟩
  · intro h8
    have hnil : (List.replicate (8 - pre.length) (0 : UInt8)).drop n = [] :=
      List.drop_eq_nil_of_le (by simp; omega)
    rw [hnil, List.append_nil]
  · have hpad := padBytes_append (8 - (pre.length + n)) (pre ++ (data.drop dataPtr).take n)
      ((List.replicate (8 - pre.length) 0).drop n) (by simp; omega)
    rw [List.length_append, hlen] at hpad
    have hnil : ((List.replicate (8 - pre.length) (0 : UInt8)).drop n).drop
        (8 - (pre.length + n)) = [] :=
      List.drop_eq_nil_of_le (by simp; omega)
    rw [hpad, hnil, List.append_nil]

/-! ## 2. One frame -/

/-- The bytes of frame 0 behind the announced length. -/
def firstChunk (data : Bytes) : Bytes :=
  data.take (min 6 (data.length - 1)) ++ List.replicate (6 - min 6 (data.length - 1)) 0xFF

/-- The bytes of the frame that starts at `dataPtr` of the payload. -/
def chunkAt (data : Bytes) (dataPtr : Nat) : Bytes :=
  (data.drop dataPtr).take 7 ++ List.replicate (7 - (data.length - dataPtr)) 0xFF

@[simp] theorem length_firstChunk (data : Bytes) : (firstChunk data).length = 6 := by
  simp only [firstChunk, List.length_append, List.length_take, List.length_replicate]
  omega

@[simp] theorem length_chunkAt (data : Bytes) (dataPtr : Nat) :
    (chunkAt data dataPtr).length = 7 := by
  simp only [chunkAt, List.length_append, List.length_take, List.length_replicate,
    List.length_drop]
  omega

/-- Frame 0. -/
theorem splitFrame_zero (data : Bytes) {seqEn : Nat} (hs : seqEn ≤ 255)
    (hlen : data.length ≤ 255) :
    splitFrame data seqEn 0 0
      = .ok (UInt8.ofNat seqEn :: UInt8.ofNat data.length :: firstChunk data,
          min 6 (data.length - 1)) := by
  have hguard : ¬ (255 < seqEn ||| 0 ∨ 0 = 0 ∧ 255 < data.length) := by simp; omega
  have hcopy : min 8 (data.length - 0 + 1) - 2 = min 6 (data.length - 1) := by omega
  obtain ⟨frame, hframe, hfull, hpad⟩ := copy_pad data
    [UInt8.ofNat seqEn, UInt8.ofNat data.length] (n := min 6 (data.length - 1)) 0
    (by simp; omega) (by omega)
  have hsix : 8 - (2 + min 6 (data.length - 1)) = 6 - min 6 (data.length - 1) := by omega
  simp only [List.length_cons, List.length_nil, Nat.zero_add, Nat.reduceAdd, Nat.reduceSub,
    List.drop_zero, hsix] at hframe hfull hpad
  rw [splitFrame, if_neg hguard]
  simp only [pure, Except.pure, bind, Except.bind, Nat.or_zero, if_pos, hcopy]
  rw [show ((List.replicate 8 (0 : UInt8)).set 0 (UInt8.ofNat seqEn)).set 1
      (UInt8.ofNat data.length)
    = [UInt8.ofNat seqEn, UInt8.ofNat data.length] ++ List.replicate 6 0 from rfl, hframe]
  simp only
  by_cases hshort : min 8 (data.length - 0 + 1) < 8
  · rw [if_pos hshort, hsix, hpad]
    rfl
  · have h6 : min 6 (data.length - 1) = 6 := by omega
    rw [if_neg hshort, hfull (by omega), firstChunk, h6]
    simp

/-- A continuation frame. -/
theorem splitFrame_succ (data : Bytes) {seqEn counter dataPtr : Nat} (hc : counter ≠ 0)
    (hs : seqEn ||| counter ≤ 255) (hp : dataPtr ≤ data.length) :
    splitFrame data seqEn counter dataPtr
      = .ok (UInt8.ofNat (seqEn ||| counter) :: chunkAt data dataPtr,
          dataPtr + min 7 (data.length - dataPtr)) := by
  have hguard : ¬ (255 < seqEn ||| counter ∨ counter = 0 ∧ 255 < data.length) := by omega
  have hcopy : min 8 (data.length - dataPtr + 1) - 1 = min 7 (data.length - dataPtr) := by omega
  obtain ⟨frame, hframe, hfull, hpad⟩ := copy_pad data [UInt8.ofNat (seqEn ||| counter)]
    (n := min 7 (data.length - dataPtr)) dataPtr (by simp; omega) (by omega)
  have htake : (data.drop dataPtr).take (min 7 (data.length - dataPtr))
      = (data.drop dataPtr).take 7 := by
    rw [← List.length_drop, ← List.take_eq_take_min]
  have hseven : 8 - (1 + min 7 (data.length - dataPtr)) = 7 - (data.length - dataPtr) := by omega
  simp only [List.length_cons, List.length_nil, Nat.zero_add, Nat.reduceSub, hseven, htake]
    at hframe hfull hpad
  rw [splitFrame, if_neg hguard]
  simp only [pure, Except.pure, bind, Except.bind, if_neg hc, hcopy]
  rw [show (List.replicate 8 (0 : UInt8)).set 0 (UInt8.ofNat (seqEn ||| counter))
    = [UInt8.ofNat (seqEn ||| counter)] ++ List.replicate 7 0 from rfl, hframe]
  simp only
  by_cases hshort : min 8 (data.length - dataPtr + 1) < 8
  · rw [if_pos hshort, hseven, hpad]
    rfl
  · rw [if_neg hshort, hfull (by omega), chunkAt, show 7 - (data.length - dataPtr) = 0 by omega]
    simp

/-! ## 3. All the frames -/

/-- Continuation frame `k` of a payload; it starts at byte `7 * k - 1`. -/
def contFrame (data : Bytes) (seqEn k : Nat) : Bytes :=
  UInt8.ofNat (seqEn ||| k) :: chunkAt data (7 * k - 1)

theorem splitLoop_conts (data : Bytes) {seqEn : Nat} (m k : Nat) (hk : 0 < k)
    (hm : 7 * (k + m) ≤ data.length + 8) (hs : ∀ j < k + m, seqEn ||| j ≤ 255) :
    splitLoop data seqEn (List.range' k m) (7 * k - 1)
      = ((List.range' k m).map (contFrame data seqEn), none) := by
  induction m generalizing k with
  | zero => rfl
  | succ m ih =>
    rw [List.range'_succ, splitLoop, splitFrame_succ data (by omega) (hs k (by omega)) (by omega)]
    simp only
    rcases Nat.eq_zero_or_pos m with rfl | hpos
    · rfl
    · -- another frame follows, so this one is full
      have hptr : 7 * k - 1 + min 7 (data.length - (7 * k - 1)) = 7 * (k + 1) - 1 := by omega
      rw [hptr, ih (k + 1) (by omega) (by omega) (fun j hj => hs j (by omega))]
      rfl

/-- The number of turns of the loop. -/
theorem ceil_nbFramesOut (data : Bytes) : ⌈nbFramesOut data⌉₊ = (data.length + 7) / 7 := by
  have hq : (data.length + 7) / 7 ≠ 0 := by omega
  rw [Nat.ceil_eq_iff hq, nbFramesOut]
  have h1 : 7 * ((data.length + 7) / 7 - 1) ≤ data.length := by omega
  have h2 : data.length + 1 ≤ 7 * ((data.length + 7) / 7) := by omega
  have h1' : (7 : ℚ) * (((data.length + 7) / 7 - 1 : Nat) : ℚ) ≤ data.length := by exact_mod_cast h1
  have h2' : (data.length : ℚ) + 1 ≤ 7 * (((data.length + 7) / 7 : Nat) : ℚ) := by exact_mod_cast h2
  constructor <;> linarith

/-- **The frames of a payload**, up to the 255 bytes that the length byte can
announce. -/
theorem splitFrames_eq (data : Bytes) (seq : Nat) (hseq : seq < 8) (hlen : data.length ≤ 255) :
    splitFrames data seq
      = ((UInt8.ofNat (seq * 32) :: UInt8.ofNat data.length :: firstChunk data)
          :: (List.range' 1 (data.length / 7)).map (contFrame data (seq * 32)), none) := by
  have hshift : seq <<< 5 = seq * 32 := Nat.shiftLeft_eq seq 5
  have hor : ∀ j < 256, seq * 32 ||| j ≤ 255 := fun j hj => by
    have := Nat.or_lt_two_pow (n := 8) (show seq * 32 < 2 ^ 8 by omega) (show j < 2 ^ 8 by omega)
    omega
  have hsucc : (data.length + 7) / 7 = data.length / 7 + 1 := by omega
  rw [splitFrames, ceil_nbFramesOut, hshift, hsucc, List.range_eq_range', List.range'_succ,
    splitLoop, splitFrame_zero data (by omega) hlen]
  simp only
  rcases Nat.lt_or_ge data.length 7 with h7 | h7
  · rw [show data.length / 7 = 0 by omega]
    rfl
  · have hptr : min 6 (data.length - 1) = 7 * 1 - 1 := by omega
    rw [hptr, splitLoop_conts data _ (0 + 1) (by omega) (by omega) (fun j hj => hor j (by omega))]

end FastPacketHandler

/-! ## 4. The transfer of a payload -/

open FastPacketHandler

/-- A payload of 6 to 223 bytes as `split_message` sends it. -/
def Transfer.ofPayload (data : Bytes) (h6 : 6 ≤ data.length) (h223 : data.length ≤ 223) :
    Transfer where
  seq := 1
  byteLength := data.length
  first := firstChunk data
  conts := (List.range' 1 (data.length / 7)).map (fun k => chunkAt data (7 * k - 1))
  seq_lt := by omega
  le_byteLength := h6
  byteLength_le := h223
  length_conts := by
    rw [List.length_map, List.length_range', Nat.ceilDiv_eq_add_pred_div]
    omega
  full := by
    intro d hd
    obtain ⟨k, -, rfl⟩ := List.mem_map.mp (List.mem_of_mem_dropLast hd)
    simp
  last := by
    intro d hd
    obtain ⟨k, -, rfl⟩ := List.mem_map.mp (List.mem_of_getLast? hd)
    simp only [List.length_map, List.length_range', length_chunkAt]
    omega

theorem zipIdx_map_range' {α : Type*} (f : Nat → α) (k m : Nat) :
    ((List.range' k m).map f).zipIdx k = (List.range' k m).map (fun i => (f i, i)) := by
  induction m generalizing k with
  | zero => rfl
  | succ m ih => simp [List.range'_succ, ih]

/-- The frames `split_message` yields are those of the transfer. -/
theorem frames_ofPayload {data : Bytes} (h6 : 6 ≤ data.length) (h223 : data.length ≤ 223) :
    splitFrames data 1 = ((Transfer.ofPayload data h6 h223).frames, none) := by
  rw [splitFrames_eq data 1 (by omega) (by omega), Transfer.frames, Transfer.numbered]
  simp only [Transfer.ofPayload, zipIdx_map_range', List.map_map, Transfer.frame0, controlByte,
    Nat.add_zero, Prod.mk.injEq, List.cons.injEq, and_true, true_and]
  apply List.map_congr_left
  intro k hk
  have hk' : k < 32 := by
    rw [List.mem_range'_1] at hk
    omega
  have hor : 1 * 32 ||| k = 1 * 32 + k := by
    simpa using (Nat.two_pow_add_eq_or_of_lt (i := 5) hk' 1).symm
  simp [contFrame, Transfer.cont, controlByte, hor]

end NavigationServer.Nmea2000
