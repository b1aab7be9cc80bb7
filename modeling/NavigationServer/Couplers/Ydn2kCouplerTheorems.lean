/-
NavigationServer.Couplers.Ydn2kCouplerTheorems — the RAW format of the Yacht
Devices gateway, read and written.

`decodeFrame_lineOf` : what `decode_frame` does with a line, in terms of the
fields of the 29-bit identifier. `rawCodec_iff` : from `encode_nmea2000` to
`decode_frame`, and the header that `decode_frame` reports. The encoder puts
the destination into the low byte of the identifier, where the decoder finds a
source, and the decoder reports destination 0 for every line.
-/
import NavigationServer.Couplers.FrontEnds
import NavigationServer.Nmea2000.SplitDelivery
import NavigationServer.RouterCore.Nmea2000MsgTheorems

namespace NavigationServer.Couplers

open NavigationServer.Lib
open NavigationServer.Nmea2000
open NavigationServer.Nmea2000Datamodel
open NavigationServer.RouterCore
open NavigationServer.CanInterface
open FastPacketHandler (splitFrames)

/-! ## 1. The identifier -/

/-- The PGN field of the identifier, on 18 bits. -/
def pgnField (m : CanMessage) : Nat := (m.arbitrationId >>> 8) &&& 0x3FFFF

section Fields

/-- A mask of low bits is a remainder. -/
theorem and_mask (n w : Nat) : n &&& (2 ^ w - 1) = n % 2 ^ w := Nat.and_two_pow_sub_one_eq_mod n w

variable (m : CanMessage)

/-- The 18 bits above the source. -/
theorem pgnField_eq : pgnField m = m.arbitrationId / 256 % 262144 := by
  rw [pgnField, Nat.shiftRight_eq_div_pow]
  exact and_mask _ 18

/-- And 17 of them, which `decode_frame` takes. -/
theorem rawPgn_eq : m.rawPgn = m.arbitrationId / 256 % 131072 := by
  rw [CanMessage.rawPgn, Nat.shiftRight_eq_div_pow]
  exact and_mask _ 17

/-- The three bits on top. -/
theorem prio_eq : m.prio = m.arbitrationId / 67108864 % 8 := by
  rw [CanMessage.prio, Nat.shiftRight_eq_div_pow]
  exact and_mask _ 3

/-- The low byte. -/
theorem sa_eq : m.sa = m.arbitrationId % 256 := and_mask _ 8

end Fields

/-! ## 2. A line -/

namespace YDCoupler

/-- A line: the time, the direction, the identifier and the data fields. -/
def lineOf (idCase : LetterCase) (time direction : Bytes) (m : CanMessage) (texts : List Bytes) :
    Bytes :=
  [blank].intercalate (time :: direction :: hexNumber idCase 8 m.arbitrationId :: texts)

/-- A line of the RAW format. -/
def rawLine (idCase dataCase : LetterCase) (time direction : Bytes) (m : CanMessage) : Bytes :=
  lineOf idCase time direction m (m.data.map (hexByte dataCase))

/-- Digits are no blanks, so the fields of a line are found again. -/
theorem blank_notMem_hexNumber (c : LetterCase) (w n : Nat) : blank ∉ hexNumber c w n :=
  fun h => (isHexDigit_of_mem_hexNumber h).ne (by decide) rfl

section Line

variable {idCase : LetterCase} {time direction : Bytes} {m : CanMessage} {texts : List Bytes}

/-- The fields of a line. -/
theorem splitOn_lineOf (htime : blank ∉ time) (hdirection : blank ∉ direction)
    (htexts : ∀ t ∈ texts, blank ∉ t) :
    (lineOf idCase time direction m texts).splitOn blank
      = time :: direction :: hexNumber idCase 8 m.arbitrationId :: texts := by
  refine List.splitOn_intercalate _ ?_ (by simp)
  intro f hf
  simp only [List.mem_cons] at hf
  rcases hf with rfl | rfl | rfl | hf
  · exact htime
  · exact hdirection
  · exact blank_notMem_hexNumber _ _ _
  · exact htexts f hf

/-- The identifier is read in three pieces. -/
theorem decodeMsgid_hexNumber (c : LetterCase) (hid : m.arbitrationId < 2 ^ 29) :
    decodeMsgid (hexNumber c 8 m.arbitrationId) = .ok (pgnField m, m.prio, m.sa) := by
  have h1 := hexNumber_add c 1 7 m.arbitrationId
  have h5 := hexNumber_add c 5 2 m.arbitrationId
  have h2 := hexNumber_add c 2 6 m.arbitrationId
  have h6 := hexNumber_add c 6 2 m.arbitrationId
  have hpgn : slice (hexNumber c 8 m.arbitrationId) 1 6
      = hexNumber c 5 (m.arbitrationId / 16 ^ 2) := by
    rw [show (1 : Int) = ((1 : Nat) : Int) from rfl, show (6 : Int) = ((6 : Nat) : Int) from rfl,
      slice_natCast, h1, List.drop_left' (by simp), h5, List.take_left' (by simp)]
  have hprio : slice (hexNumber c 8 m.arbitrationId) 0 2
      = hexNumber c 2 (m.arbitrationId / 16 ^ 6) := by
    rw [show (2 : Int) = ((2 : Nat) : Int) from rfl, slice_zero, h2, List.take_left' (by simp)]
  have hsa : slice (hexNumber c 8 m.arbitrationId) 6 8 = hexNumber c 2 m.arbitrationId := by
    rw [show (6 : Int) = ((6 : Nat) : Int) from rfl, show (8 : Int) = ((8 : Nat) : Int) from rfl,
      slice_natCast, h6, List.drop_left' (by simp), List.take_of_length_le (by simp)]
  have hpgnField : (m.arbitrationId / 16 ^ 2 % 16 ^ 5) &&& 0x3FFFF = pgnField m := by
    rw [show (0x3FFFF : Nat) = 2 ^ 18 - 1 from rfl, and_mask, pgnField_eq]
    omega
  have hprioField : ((m.arbitrationId / 16 ^ 6 % 16 ^ 2) >>> 2) &&& 7 = m.prio := by
    rw [show (7 : Nat) = 2 ^ 3 - 1 from rfl, and_mask, Nat.shiftRight_eq_div_pow, prio_eq]
    omega
  rw [decodeMsgid, hpgn, hprio, hsa, int16_hexNumber c (by decide), int16_hexNumber c (by decide),
    int16_hexNumber c (by decide)]
  simp only [bind, Except.bind, hpgnField, hprioField, sa_eq]
  rfl

/-- The data bytes are read back, in capitals or not. -/
theorem mapM_dataByte (c : LetterCase) (data : Bytes) :
    (data.map (hexByte c)).mapM dataByte = .ok data := by
  induction data with
  | nil => rfl
  | cons b data ih =>
    have hb := b.toNat_lt
    have hbyte : dataByte (hexByte c b) = .ok b := by
      rw [dataByte, hexByte, int16_hexNumber c (by decide), Nat.mod_eq_of_lt (by omega)]
      simp only [bind, Except.bind]
      rw [if_neg (by omega), UInt8.ofNat_toNat]
      rfl
    rw [List.map_cons, List.mapM_cons, hbyte, ih]
    rfl

/-- A line whose time does not start with byte 4 is no end mark. -/
theorem item_lineOf (hhead : time.head? ≠ some 4) :
    ∃ first, item (lineOf idCase time direction m texts) 0 = .ok first ∧ first ≠ 4 := by
  obtain ⟨rest, hrest⟩ : ∃ rest, lineOf idCase time direction m texts = time ++ blank :: rest :=
    ⟨_, by rw [lineOf, List.intercalate_cons_of_ne_nil (by simp), List.append_assoc]; rfl⟩
  rw [hrest]
  cases time with
  | nil => exact ⟨blank, rfl, by decide⟩
  | cons b time => exact ⟨b, rfl, fun h => hhead (congrArg some h)⟩

/-- **What `decode_frame` does with a line.** -/
theorem decodeFrame_lineOf (defs : PGNDefinitions) (c : YDCoupler) (now : Time)
    (white : Option (List Nat)) (hid : m.arbitrationId < 2 ^ 29) (hne : texts ≠ [])
    (htime : blank ∉ time) (hhead : time.head? ≠ some 4) (hdirection : blank ∉ direction)
    (htexts : ∀ t ∈ texts, blank ∉ t) :
    c.decodeFrame defs now (lineOf idCase time direction m texts) white
      = if ∃ l ∈ white, pgnField m ∉ l then (.error .incompleteMessage, c)
        else
          match c.checkDirection direction (pgnField m)
              (lineOf idCase time direction m texts) with
          | (.error e, c) => (.error e, c)
          | (.ok (), c) =>
              match texts.mapM dataByte with
              | .error e => (.error e, c)
              | .ok data =>
                  let (r, c) := c.reassemble defs now (pgnField m) m.prio m.sa data
                  (r.map some, c) := by
  obtain ⟨first, hfirst, hfour⟩ := @item_lineOf idCase time direction m texts hhead
  have hlen : ¬ (time :: direction :: hexNumber idCase 8 m.arbitrationId :: texts).length ≤ 3 := by
    have := List.length_pos_of_ne_nil hne
    simp only [List.length_cons]
    omega
  rw [decodeFrame, hfirst]
  simp only [if_neg hfour, splitOn_lineOf htime hdirection htexts, if_neg hlen]
  rw [show item (time :: direction :: hexNumber idCase 8 m.arbitrationId :: texts) 2
    = .ok (hexNumber idCase 8 m.arbitrationId) from rfl]
  dsimp only [bind, Except.bind]
  rw [decodeMsgid_hexNumber idCase hid]
  dsimp only
  generalize hfield : (time :: direction :: hexNumber idCase 8 m.arbitrationId :: texts).getD 1 []
    = field
  generalize hdata : (time :: direction :: hexNumber idCase 8 m.arbitrationId :: texts).drop 3 = data
  obtain rfl : direction = field := hfield
  obtain rfl : texts = data := hdata
  split
  · rfl
  · generalize c.checkDirection direction (pgnField m) (lineOf idCase time direction m texts)
      = result
    obtain ⟨(_ | _), c'⟩ := result <;> rfl

theorem blank_notMem_map_hexByte (dataCase : LetterCase) (data : Bytes) :
    ∀ t ∈ data.map (hexByte dataCase), blank ∉ t := by
  intro t ht
  obtain ⟨b, -, rfl⟩ := List.mem_map.mp ht
  exact blank_notMem_hexNumber _ _ _

/-- A line with the direction `R` goes to the reassembly. -/
theorem decodeFrame_received (defs : PGNDefinitions) (c : YDCoupler) (now : Time)
    (dataCase : LetterCase) (hid : m.arbitrationId < 2 ^ 29) (hne : m.data ≠ [])
    (htime : blank ∉ time) (hhead : time.head? ≠ some 4) :
    c.decodeFrame defs now (rawLine idCase dataCase time [82] m) none
      = ((c.reassemble defs now (pgnField m) m.prio m.sa m.data).1.map some,
          (c.reassemble defs now (pgnField m) m.prio m.sa m.data).2) := by
  have hdirection : c.checkDirection [82] (pgnField m) (rawLine idCase dataCase time [82] m)
      = (.ok (), c) := by
    rw [checkDirection, if_neg (by decide), if_neg (by decide)]
  unfold rawLine at hdirection ⊢
  rw [decodeFrame_lineOf defs c now none hid (by simpa using hne) htime hhead (by decide)
    (blank_notMem_map_hexByte dataCase m.data), if_neg (by simp), hdirection, mapM_dataByte]

end Line

/-! ## 3. The reassembly of the lines -/

/-- The reassembly on its own, as a machine. -/
def received (defs : PGNDefinitions) (prio : Nat) :
    Machine YDCoupler Received (Except Exn (Option NMEA2000Msg)) where
  step c rx :=
    let (r, c) := c.reassemble defs rx.now rx.pgn prio rx.addr rx.frame
    (r.map some, c)

/-- The messages among the results of `decode_frame`. -/
def decoded (outs : List (Except Exn (Option NMEA2000Msg))) : List NMEA2000Msg :=
  outs.filterMap (fun r => match r with
    | .ok msg => msg
    | .error _ => none)

/-- What is decoded is decoded line by line. -/
theorem decoded_cons (r : Except Exn (Option NMEA2000Msg))
    (outs : List (Except Exn (Option NMEA2000Msg))) :
    decoded (r :: outs) = decoded [r] ++ decoded outs := by
  unfold decoded
  rw [← List.filterMap_append, List.singleton_append]

/-- A frame for the reassembly: the message is made of what it delivers. -/
theorem reassemble_fast {defs : PGNDefinitions} (c : YDCoupler) (prio : Nat) {rx : Received}
    (hfast : definedFastPacket defs rx.pgn = .ok true) (hne : rx.frame ≠ []) :
    let r := c.reassemble defs rx.now rx.pgn prio rx.addr rx.frame
    decoded [r.1.map some]
        = (deliveries [(c.fastPacketHandler.receive rx).1]).map (.of rx.pgn prio rx.addr 0) ∧
      r.2.fastPacketHandler = (c.fastPacketHandler.receive rx).2 := by
  have hprocess : c.fastPacketHandler.processFrame rx.now rx.pgn rx.addr rx.frame
      = c.fastPacketHandler.receive rx := rfl
  simp only [reassemble, isPgnActive_eq _ hne, hprocess, hfast]
  generalize c.fastPacketHandler.receive rx = result
  obtain ⟨r, fp⟩ := result
  cases (c.fastPacketHandler.sequences.lookup rx.key).isSome with
  | true =>
    cases r with
    | ok o => cases o <;> exact ⟨rfl, rfl⟩
    | error e => cases e <;> exact ⟨rfl, rfl⟩
  | false =>
    cases r with
    | ok o => cases o <;> exact ⟨rfl, rfl⟩
    | error e => exact ⟨rfl, rfl⟩

/-- The lines of a fast packet PGN go through the reassembly. -/
theorem decoded_fast {defs : PGNDefinitions} (prio : Nat) {pgn addr : Nat}
    (hfast : definedFastPacket defs pgn = .ok true) {rxs : List Received}
    (hrxs : ∀ rx ∈ rxs, rx.pgn = pgn ∧ rx.addr = addr ∧ rx.frame ≠ []) (c : YDCoupler) :
    decoded ((received defs prio).outs c rxs)
      = (deliveries (reassembly.outs c.fastPacketHandler rxs)).map (.of pgn prio addr 0) := by
  induction rxs generalizing c with
  | nil => rfl
  | cons rx rxs ih =>
    obtain ⟨rfl, rfl, hne⟩ := hrxs rx List.mem_cons_self
    obtain ⟨hout, hfp⟩ := reassemble_fast c prio hfast hne
    have hrest := ih (fun rx' h => hrxs rx' (List.mem_cons_of_mem _ h))
      ((received defs prio).step c rx).2
    have hfp' : ((received defs prio).step c rx).2.fastPacketHandler
        = (c.fastPacketHandler.receive rx).2 := hfp
    rw [Machine.outs_cons, decoded_cons, hrest, hfp', Machine.outs_cons,
      ← List.singleton_append (x := (reassembly.step c.fastPacketHandler rx).1), deliveries_append,
      List.map_append]
    exact congrArg (· ++ _) hout

/-- Frames of a PGN that is not fast packet are messages. -/
theorem decoded_single {defs : PGNDefinitions} (prio : Nat) {pgn addr : Nat}
    (hsingle : definedFastPacket defs pgn = .ok false) {c : YDCoupler}
    (hclosed : ∀ seq < 8,
      c.fastPacketHandler.sequences.lookup (FastPacket.computeKey pgn addr seq) = none)
    {rxs : List Received} (hrxs : ∀ rx ∈ rxs, rx.pgn = pgn ∧ rx.addr = addr ∧ rx.frame ≠ []) :
    decoded ((received defs prio).outs c rxs)
      = (rxs.map Received.frame).map (.of pgn prio addr 0) := by
  induction rxs with
  | nil => rfl
  | cons rx rxs ih =>
    obtain ⟨rfl, rfl, hne⟩ := hrxs rx List.mem_cons_self
    have hkey : c.fastPacketHandler.sequences.lookup rx.key = none := by
      obtain ⟨b, rest, hf⟩ := List.exists_cons_of_ne_nil hne
      rw [Received.key, hf]
      exact hclosed _ (FastPacketHandler.seqOf_lt b)
    have hstep : (received defs prio).step c rx
        = (.ok (some (.of rx.pgn prio rx.addr 0 rx.frame)), c) := by
      rw [received]
      simp only [reassemble, isPgnActive_eq _ hne, hkey, Option.isSome_none, hsingle]
      rfl
    rw [Machine.outs_cons, hstep, List.map_cons, List.map_cons,
      ← ih (fun rx' h => hrxs rx' (List.mem_cons_of_mem _ h))]
    rfl

/-! ## 4. From the encoder to the decoder -/

/-- A message as it is encoded. -/
structure Encodable (msg : NMEA2000Msg) : Prop where
  pgn : ValidPgn msg.pgn
  prio : msg.prio < 8
  da : msg.da < 256

/-- An encoded line with a time and the direction `R`, and without CR LF. -/
def completed (time line : Bytes) : Bytes :=
  time ++ blank :: 82 :: blank :: line.take (line.length - 2)

/-- An encoded line on its way to a decoder: what the clock reads there, and
the time in the line. -/
structure LineBack where
  now : Time
  time : Bytes
  line : Bytes
  blank_notMem_time : blank ∉ time
  head_time : time.head? ≠ some 4

/-- A coupler that is given the lines. -/
def lineDecoder (defs : PGNDefinitions) :
    Machine YDCoupler LineBack (Except Exn (Option NMEA2000Msg)) where
  step c l := c.decodeFrame defs l.now (completed l.time l.line) none

/-- A step is the call of `decode_frame` for the completed line. -/
theorem lineDecoder_step (defs : PGNDefinitions) (c : YDCoupler) (l : LineBack) :
    (lineDecoder defs).step c l = c.decodeFrame defs l.now (completed l.time l.line) none := rfl

/-- With its time and direction, an encoded line is one that the gateway could have sent. -/
theorem completed_encodeLine (time : Bytes) (m : CanMessage) (data : Bytes) :
    completed time (encodeLine (hexNumber .upper 8 m.arbitrationId) data)
      = lineOf .upper time [82] m (if data = [] then [[]] else data.map (hexByte .lower)) := by
  have htake : ∀ l : Bytes, (l ++ [13, 10]).take ((l ++ [13, 10]).length - 2) = l := by
    intro l
    rw [List.length_append, List.length_cons, List.length_singleton, Nat.add_sub_cancel,
      List.take_left]
  have hcut : ∀ texts : List Bytes, texts ≠ [] → lineOf .upper time [82] m texts
      = time ++ blank :: 82 :: blank :: (hexNumber .upper 8 m.arbitrationId
          ++ blank :: [blank].intercalate texts) := by
    intro texts hne
    rw [lineOf, List.intercalate_cons_of_ne_nil (by simp),
      List.intercalate_cons_of_ne_nil (by simp), List.intercalate_cons_of_ne_nil hne]
    simp
  rw [completed, encodeLine, htake]
  split
  · rename_i hnil
    rw [hcut _ (by simp), hexText, hnil]
    rfl
  · rename_i hne
    rw [hcut _ (by simpa using hne), hexText]

section Codec

variable {msg : NMEA2000Msg}

/-- The identifier that the encoder makes, with the destination in the low byte. -/
theorem canId_eq (h : Encodable msg) :
    canId msg = msg.prio * 67108864 + msg.pgn * 256 + msg.da := by
  have hpgn := h.pgn.1
  have hda := h.da
  have hshift : msg.pgn <<< 8 < 2 ^ 26 := by
    rw [Nat.shiftLeft_eq]
    omega
  have hsum : msg.prio <<< 26 + msg.pgn <<< 8 = (msg.prio * 262144 + msg.pgn) <<< 8 := by
    simp only [Nat.shiftLeft_eq]
    omega
  rw [canId, Nat.or_comm (msg.pgn <<< 8), ← Nat.shiftLeft_add_eq_or_of_lt hshift, hsum,
    ← Nat.shiftLeft_add_eq_or_of_lt (show msg.da < 2 ^ 8 from hda), Nat.shiftLeft_eq]
  omega

/-- It has 29 bits. -/
theorem canId_lt (h : Encodable msg) : canId msg < 2 ^ 29 := by
  have hpgn := h.pgn.1
  have hprio := h.prio
  have hda := h.da
  rw [canId_eq h]
  omega

/-- The fields of the identifier: the destination stands for the source. -/
theorem fields_canId (h : Encodable msg) (data : Bytes) :
    pgnField ⟨canId msg, data⟩ = msg.pgn ∧ CanMessage.prio ⟨canId msg, data⟩ = msg.prio ∧
      CanMessage.sa ⟨canId msg, data⟩ = msg.da := by
  have hpgn := h.pgn.1
  have hprio := h.prio
  have hda := h.da
  rw [pgnField_eq, prio_eq, sa_eq]
  simp only [canId_eq h]
  refine ⟨?_, ?_, ?_⟩ <;> omega

/-- So it is written with eight digits. -/
theorem formatId_canId (h : Encodable msg) :
    formatId (canId msg) = hexNumber .upper 8 (canId msg) := by
  have hlt := canId_lt h
  have hlog : Nat.log 16 (canId msg) + 1 ≤ 8 := by
    rcases Nat.eq_zero_or_pos (canId msg) with h0 | hpos
    · rw [h0, Nat.log_zero_right]
      decide
    · exact Nat.log_lt_of_lt_pow (by omega) (show canId msg < 16 ^ 8 by omega)
  rw [formatId, Nat.max_eq_left hlog]

/-- The lines of frames that are not empty reach the reassembly as these
frames. -/
theorem exists_received (defs : PGNDefinitions) (h : Encodable msg) :
    ∀ (ls : List LineBack) (frames : List Bytes),
    ls.map LineBack.line = frames.map (encodeLine (formatId (canId msg))) →
    (∀ f ∈ frames, f ≠ []) →
    ∃ rxs : List Received, rxs.map Received.frame = frames ∧
      (∀ rx ∈ rxs, rx.pgn = msg.pgn ∧ rx.addr = msg.da ∧ rx.frame ≠ []) ∧
      ∀ c, (lineDecoder defs).outs c ls = (received defs msg.prio).outs c rxs
  | [], frames, hls, _ => by
      refine ⟨[], ?_, by simp, fun _ => rfl⟩
      simpa using hls
  | l :: ls, [], hls, _ => by simp at hls
  | l :: ls, f :: frames, hls, hne => by
      simp only [List.map_cons, List.cons.injEq] at hls
      obtain ⟨rxs, hframes, hrxs, houts⟩ := exists_received defs h ls frames hls.2
        (fun g hg => hne g (List.mem_cons_of_mem _ hg))
      have hf := hne f List.mem_cons_self
      refine ⟨⟨l.now, msg.pgn, msg.da, f⟩ :: rxs, by rw [List.map_cons, hframes], ?_, ?_⟩
      · intro rx hrx
        rcases List.mem_cons.mp hrx with rfl | hrx
        · exact ⟨rfl, rfl, hf⟩
        · exact hrxs rx hrx
      · intro c
        have hstep : (lineDecoder defs).step c l
            = (received defs msg.prio).step c ⟨l.now, msg.pgn, msg.da, f⟩ := by
          obtain ⟨hpgn, hprio, hsa⟩ := fields_canId h f
          have hline := completed_encodeLine l.time ⟨canId msg, f⟩ f
          have hdec := @decodeFrame_received .upper l.time ⟨canId msg, f⟩ defs c l.now .lower
            (canId_lt h) hf l.blank_notMem_time l.head_time
          rw [if_neg hf] at hline
          rw [hpgn, hprio, hsa] at hdec
          rw [lineDecoder_step, hls.1, formatId_canId h]
          exact (congrArg (fun line => c.decodeFrame defs l.now line none) hline).trans hdec
        rw [Machine.outs_cons, Machine.outs_cons, hstep, houts]

/-- The line of no data is refused. -/
theorem decoded_empty (defs : PGNDefinitions) (h : Encodable msg) (c : YDCoupler) (l : LineBack)
    (hl : l.line = encodeLine (formatId (canId msg)) []) :
    decoded ((lineDecoder defs).outs c [l]) = [] := by
  have hline := completed_encodeLine l.time ⟨canId msg, []⟩ []
  rw [if_pos rfl] at hline
  have hdec := @decodeFrame_lineOf .upper l.time [82] ⟨canId msg, []⟩ [[]] defs c l.now none
    (canId_lt h) (by simp) l.blank_notMem_time l.head_time (by decide) (by simp)
  have hdirection : ∀ line, c.checkDirection [82] (pgnField ⟨canId msg, []⟩) line = (.ok (), c) := by
    intro line
    rw [checkDirection, if_neg (by decide), if_neg (by decide)]
  have hstep : (lineDecoder defs).step c l = (.error .valueError, c) := by
    rw [lineDecoder_step, hl, formatId_canId h]
    refine (congrArg (fun line => c.decodeFrame defs l.now line none) hline).trans ?_
    rw [hdec, if_neg (by simp), hdirection]
    rfl
  rw [Machine.outs_cons, hstep]
  rfl

end Codec

/-- The lines of a message decode to one message with its PGN, its priority, its
payload and, for an addressed PGN, its destination. -/
def RoundTrips (defs : PGNDefinitions) (s r : YDCoupler) (msg : NMEA2000Msg)
    (ls : List LineBack) : Prop :=
  (s.encodeNmea2000 msg).1.2 = none ∧
  ∃ msg', decoded ((lineDecoder defs).outs r ls) = [msg'] ∧ msg'.pgn = msg.pgn ∧
    msg'.prio = msg.prio ∧ msg'.payload = msg.payload ∧
    (msg.pgn / 256 % 256 < 240 → msg'.da = msg.da)

/-- A payload of its transport, be it that of the definition or that of the
message. -/
def Transportable (d : PGNDef) (msg : NMEA2000Msg) : Prop :=
  if msg.fastPacket = true ∨ d.fastPacket = true then msg.payload.length ≤ 223
  else 1 ≤ msg.payload.length ∧ msg.payload.length ≤ 8

instance (d : PGNDef) (msg : NMEA2000Msg) : Decidable (Transportable d msg) :=
  inferInstanceAs (Decidable (if msg.fastPacket = true ∨ d.fastPacket = true
    then msg.payload.length ≤ 223 else 1 ≤ msg.payload.length ∧ msg.payload.length ≤ 8))

/-- A coupler that has no transfer of a PGN to an address open. -/
def Closed (c : YDCoupler) (pgn addr : Nat) : Prop :=
  ∀ seq < 8, c.fastPacketHandler.sequences.lookup (FastPacket.computeKey pgn addr seq) = none

section RoundTrip

variable {defs : PGNDefinitions} {s r : YDCoupler} {msg : NMEA2000Msg} {d : PGNDef}
  {ls : List LineBack}

/-- The definition of the PGN tells which kind it is. -/
theorem definedFastPacket_eq (hd : defs.Defines msg.pgn d) :
    definedFastPacket defs msg.pgn = .ok d.fastPacket := by
  rw [definedFastPacket_of_defines hd, fastPacketCheck_of_defines hd]

/-- One message, made of the payload. -/
theorem exists_message_iff (payloads : List Bytes) :
    (∃ msg', payloads.map (NMEA2000Msg.of msg.pgn msg.prio msg.da 0) = [msg'] ∧
        msg'.pgn = msg.pgn ∧ msg'.prio = msg.prio ∧ msg'.payload = msg.payload ∧
        (msg.pgn / 256 % 256 < 240 → msg'.da = msg.da)) ↔
      payloads = [msg.payload] ∧ (msg.pgn / 256 % 256 < 240 → msg.da = 0) := by
  constructor
  · rintro ⟨msg', hmap, -, -, hpayload, hda⟩
    obtain ⟨data, rfl, rfl⟩ := List.map_eq_singleton_iff.mp hmap
    have hdata : data = msg.payload := hpayload
    exact ⟨by rw [hdata], fun h => (hda h).symm⟩
  · rintro ⟨rfl, hda⟩
    exact ⟨_, rfl, rfl, rfl, rfl, fun h => (hda h).symm⟩

/-- The frames of a payload are not empty. -/
theorem splitFrames_ne_nil {payload : Bytes} (h223 : payload.length ≤ 223) :
    ∀ f ∈ (splitFrames payload 1).1, f ≠ [] := by
  intro f hf
  rw [FastPacketHandler.splitFrames_eq payload 1 (by omega) (by omega)] at hf
  rcases List.mem_cons.mp hf with rfl | hf
  · simp
  · obtain ⟨k, -, rfl⟩ := List.mem_map.mp hf
    simp [FastPacketHandler.contFrame]

/-- The frames of a payload are not the payload. -/
theorem splitFrames_ne_singleton {payload : Bytes} (h223 : payload.length ≤ 223) :
    (splitFrames payload 1).1 ≠ [payload] := by
  intro h
  rw [FastPacketHandler.splitFrames_eq payload 1 (by omega) (by omega)] at h
  obtain ⟨hfirst, hrest⟩ := List.cons_eq_cons.mp h
  have hlen := congrArg List.length hfirst
  have hcount := congrArg List.length hrest
  simp only [List.length_cons, FastPacketHandler.length_firstChunk, List.length_map,
    List.length_range', List.length_nil] at hlen hcount
  omega

/-- The single line of a message that is not split. -/
theorem roundTrips_unsplit (hmsg : Encodable msg) (hd : defs.Defines msg.pgn d)
    (htransport : Transportable d msg) (hclosed : Closed r msg.pgn msg.da)
    (hflag : msg.fastPacket = false)
    (hls : ls.map LineBack.line = (s.encodeNmea2000 msg).1.1) :
    RoundTrips defs s r msg ls ↔
      (msg.pgn / 256 % 256 < 240 → msg.da = 0) ∧ d.fastPacket = false := by
  have henc : s.encodeNmea2000 msg
      = (([encodeLine (formatId (canId msg)) msg.payload], none), s) := by
    rw [encodeNmea2000, hflag]
    rfl
  unfold RoundTrips
  rw [henc] at hls ⊢
  rcases eq_or_ne msg.payload [] with hnil | hne
  · -- no data, so the definition is of a fast packet
    obtain ⟨l, rfl, hl⟩ := List.map_eq_singleton_iff.mp hls
    rw [hnil] at hl
    rw [decoded_empty defs hmsg r l hl]
    refine iff_of_false (by simp) ?_
    rintro ⟨-, hsingle⟩
    rw [Transportable, if_neg (by simp [hflag, hsingle]), hnil] at htransport
    simp at htransport
  · obtain ⟨rxs, hframes, hrxs, houts⟩ := exists_received defs hmsg ls [msg.payload] hls
      (by simpa using hne)
    rw [houts]
    cases hfast : d.fastPacket with
    | false =>
      rw [decoded_single msg.prio (hfast ▸ definedFastPacket_eq hd) hclosed hrxs, hframes,
        exists_message_iff]
      simp
    | true =>
      obtain ⟨rx, rfl, hrx⟩ := List.map_eq_singleton_iff.mp hframes
      obtain ⟨hpgn, haddr, hdata⟩ := hrxs rx List.mem_cons_self
      have hkey : ∀ rx' ∈ [rx], rx'.key = rx.key := by simp
      have hfree : r.fastPacketHandler.sequences.lookup rx.key = none := by
        obtain ⟨b, rest, hf⟩ := List.exists_cons_of_ne_nil hdata
        rw [Received.key, hf, hpgn, haddr]
        exact hclosed _ (FastPacketHandler.seqOf_lt b)
      rw [decoded_fast msg.prio (hfast ▸ definedFastPacket_eq hd) hrxs,
        outs_reassembly r.fastPacketHandler [rx] hkey, hfree, exists_message_iff, ← hrx]
      refine iff_of_false ?_ (by simp)
      rintro ⟨-, h, -⟩
      exact deliveries_ne_frame rx h

/-- The lines of a message that is split. -/
theorem roundTrips_split (hmsg : Encodable msg) (hd : defs.Defines msg.pgn d)
    (htransport : Transportable d msg)
    (hfree : (s.fastPacketHandler.writeSequences.lookup msg.pgn).getD 0 = 0)
    (hclosed : Closed r msg.pgn msg.da) (hflag : msg.fastPacket = true)
    (hls : ls.map LineBack.line = (s.encodeNmea2000 msg).1.1) :
    RoundTrips defs s r msg ls ↔
      (msg.pgn / 256 % 256 < 240 → msg.da = 0) ∧ d.fastPacket = true ∧
        msg.payload.length % 7 = 6 ∧ (msg.payload.length = 6 → msg.payload[5]? = some 0xFF) := by
  have h223 : msg.payload.length ≤ 223 := by
    rwa [Transportable, if_pos (Or.inl hflag)] at htransport
  have hended : (splitFrames msg.payload 1).2 = none := by
    rw [FastPacketHandler.splitFrames_eq msg.payload 1 (by omega) (by omega)]
  have henc : (s.encodeNmea2000 msg).1
      = ((splitFrames msg.payload 1).1.map (encodeLine (formatId (canId msg))), none) := by
    have hsplit := splitMessage_free hfree msg.payload
    rw [encodeNmea2000, if_pos hflag]
    generalize s.fastPacketHandler.splitMessage msg.pgn msg.payload = result at hsplit
    obtain ⟨⟨frames, e⟩, fp⟩ := result
    simp only at hsplit ⊢
    rw [← hsplit] at hended ⊢
    exact congrArg _ hended
  unfold RoundTrips
  rw [henc] at hls ⊢
  obtain ⟨rxs, hframes, hrxs, houts⟩ := exists_received defs hmsg ls _ hls
    (splitFrames_ne_nil h223)
  rw [houts]
  cases hfast : d.fastPacket with
  | false =>
    rw [decoded_single msg.prio (hfast ▸ definedFastPacket_eq hd) hclosed hrxs, hframes,
      exists_message_iff]
    refine iff_of_false ?_ (by simp)
    rintro ⟨-, h, -⟩
    exact splitFrames_ne_singleton h223 h
  | true =>
    have hfeeds : Feeds msg.pgn msg.da (splitFrames msg.payload 1).1 rxs :=
      ⟨hframes, fun rx hrx => ⟨(hrxs rx hrx).1, (hrxs rx hrx).2.1⟩⟩
    rw [decoded_fast msg.prio (hfast ▸ definedFastPacket_eq hd) hrxs,
      outs_reassembly r.fastPacketHandler rxs (fun rx hrx => (key_splitFrames hfeeds rx hrx).1),
      hclosed 1 (by omega), exists_message_iff, deliveries_eq_payload_iff h223 hframes]
    simp only [true_and]
    exact and_comm

end RoundTrip

/-! ## 5. The header of a line -/

/-- Whatever is reassembled has the header of the line, and destination 0. -/
theorem reassemble_header {defs : PGNDefinitions} {c : YDCoupler} {now : Time} {pgn prio sa : Nat}
    {data : Bytes} {msg : NMEA2000Msg}
    (h : (c.reassemble defs now pgn prio sa data).1 = .ok msg) :
    ∃ payload, msg = .of pgn prio sa 0 payload := by
  rw [reassemble] at h
  split at h
  · cases h
  · split at h
    · exact ⟨_, (Except.ok.inj h).symm⟩
    · cases h
    · cases h
    · cases h
  · split at h
    · cases h
    · cases h
    · split at h
      · exact ⟨_, (Except.ok.inj h).symm⟩
      · cases h
      · cases h
    · exact ⟨_, (Except.ok.inj h).symm⟩

/-- A message that is found was made. -/
theorem ok_of_map_some {r : Except Exn NMEA2000Msg} {msg : NMEA2000Msg}
    (h : r.map some = .ok (some msg)) : r = .ok msg := by
  cases r with
  | error e => cases h
  | ok msg' => rw [Option.some.inj (Except.ok.inj h)]

section Header

variable {idCase dataCase : LetterCase} {time direction : Bytes} {m : CanMessage}

/-- The header of the message that `decode_frame` makes of a line. -/
theorem decodeFrame_header {defs : PGNDefinitions} {c : YDCoupler} {now : Time}
    {white : Option (List Nat)} (hid : m.arbitrationId < 2 ^ 29) (htime : blank ∉ time)
    (hdirection : blank ∉ direction) {msg : NMEA2000Msg}
    (h : (c.decodeFrame defs now (rawLine idCase dataCase time direction m) white).1
      = .ok (some msg)) :
    msg.pgn = pgnField m ∧ msg.prio = m.prio ∧ msg.sa = m.sa ∧ msg.da = 0 := by
  have hhead : time.head? ≠ some 4 := by
    intro hfour
    obtain ⟨rest, rfl⟩ := List.head?_eq_some_iff.mp hfour
    have hitem : item (rawLine idCase dataCase (4 :: rest) direction m) 0 = .ok 4 := by
      rw [rawLine, lineOf, List.intercalate_cons_of_ne_nil (by simp)]
      rfl
    rw [decodeFrame, hitem] at h
    simp at h
  have hne : m.data ≠ [] := by
    intro hnil
    have hsplit := @splitOn_lineOf idCase time direction m [] htime hdirection (by simp)
    obtain ⟨first, hfirst, hfour⟩ := @item_lineOf idCase time direction m [] hhead
    rw [rawLine, hnil, List.map_nil, decodeFrame, hfirst] at h
    simp [hfour, hsplit] at h
  rw [rawLine, decodeFrame_lineOf defs c now white hid (by simpa using hne) htime hhead hdirection
    (blank_notMem_map_hexByte dataCase m.data), mapM_dataByte] at h
  split at h
  · simp at h
  · split at h
    · simp at h
    · obtain ⟨payload, rfl⟩ := reassemble_header (ok_of_map_some h)
      exact ⟨rfl, rfl, rfl, rfl⟩

/-- The message has the header of the 29-bit identifier. -/
def ReportsHeader (m : CanMessage) (msg : NMEA2000Msg) : Prop :=
  msg.pgn = m.pgn ∧ msg.prio = m.prio ∧ msg.sa = m.sa ∧ msg.da = m.da

/-- An identifier of a PDU1 PGN to address 0, with the reserved bit clear. -/
def ToAddressZero (m : CanMessage) : Prop :=
  m.arbitrationId / 33554432 % 2 = 0 ∧ m.arbitrationId / 65536 % 256 < 240 ∧
    m.arbitrationId / 256 % 256 = 0

instance (m : CanMessage) : Decidable (ToAddressZero m) :=
  inferInstanceAs (Decidable (_ ∧ _ ∧ _))

/-- **The reported header** is that of the identifier for the PDU1 PGNs to address 0 only. -/
theorem reportsHeader_iff {defs : PGNDefinitions} {c : YDCoupler} {now : Time}
    {white : Option (List Nat)} (hid : m.arbitrationId < 2 ^ 29) (htime : blank ∉ time)
    (hdirection : blank ∉ direction) {msg : NMEA2000Msg}
    (h : (c.decodeFrame defs now (rawLine idCase dataCase time direction m) white).1
      = .ok (some msg)) :
    ReportsHeader m msg ↔ ToAddressZero m := by
  obtain ⟨hpgn, hprio, hsa, hda⟩ := decodeFrame_header hid htime hdirection h
  have hraw := m.rawPgn_lt
  have hfield := pgnField_eq m
  have hrawPgn := rawPgn_eq m
  rw [ReportsHeader, hpgn, hprio, hsa, hda, CanMessage.pgn, CanMessage.da, ToAddressZero]
  rcases Nat.lt_or_ge (m.rawPgn / 256 % 256) 240 with hpdu1 | hpdu2
  · rw [pgnPdu1Adjust_pdu1 hraw hpdu1]
    simp only [true_and]
    omega
  · rw [pgnPdu1Adjust_pdu2 hpdu2]
    simp only [true_and]
    omega

end Header

/-! ## 6. The codec -/

/-- **The RAW codec.** A message that is encoded and decoded, and the header of
a line that is decoded. -/
theorem rawCodec_iff (defs : PGNDefinitions) :
    (∀ (s r : YDCoupler) (msg : NMEA2000Msg) (d : PGNDef) (ls : List LineBack),
      Encodable msg → defs.Defines msg.pgn d → Transportable d msg →
      (s.fastPacketHandler.writeSequences.lookup msg.pgn).getD 0 = 0 →
      Closed r msg.pgn msg.da → ls.map LineBack.line = (s.encodeNmea2000 msg).1.1 →
      (RoundTrips defs s r msg ls ↔
        (msg.pgn / 256 % 256 < 240 → msg.da = 0) ∧ d.fastPacket = msg.fastPacket ∧
          (msg.fastPacket = true → msg.payload.length % 7 = 6 ∧
            (msg.payload.length = 6 → msg.payload[5]? = some 0xFF)))) ∧
    ∀ (c : YDCoupler) (now : Time) (white : Option (List Nat)) (idCase dataCase : LetterCase)
      (time direction : Bytes) (m : CanMessage) (msg : NMEA2000Msg),
      m.arbitrationId < 2 ^ 29 → blank ∉ time → blank ∉ direction →
      (c.decodeFrame defs now (rawLine idCase dataCase time direction m) white).1
        = .ok (some msg) →
      (ReportsHeader m msg ↔ ToAddressZero m) := by
  constructor
  · intro s r msg d ls hmsg hd htransport hfree hclosed hls
    cases hflag : msg.fastPacket with
    | false =>
      rw [roundTrips_unsplit hmsg hd htransport hclosed hflag hls]
      simp
    | true =>
      rw [roundTrips_split hmsg hd htransport hfree hclosed hflag hls]
      simp
  · intro c now white idCase dataCase time direction m msg hid htime hdirection h
    exact reportsHeader_iff hid htime hdirection h

/-- An encoded line that comes back without a time. -/
def LineBack.of (line : Bytes) : LineBack := ⟨0, [], line, by simp, by simp⟩

/-- A list of PGNs in thirteen bytes, to an address. -/
def pgnListMessage (da : Nat) : NMEA2000Msg :=
  .of 126464 6 3 da [0, 0, 238, 0, 20, 240, 1, 5, 248, 1, 17, 240, 1]

/-- A list of PGNs in one frame, from address 3 to an address. -/
def shortPgnList (da : Nat) : CanMessage :=
  ⟨0x19EE0003 + da * 256, [32, 6, 0, 0, 238, 0, 20, 240]⟩

/-- A message of destination 0 to compare with. -/
theorem decodeFrame_shortPgnList :
    (YDCoupler.new.decodeFrame pgnListDefinitions 0 (rawLine .upper .upper [] [82] (shortPgnList 0))
      none).1 = .ok (some (.of 126464 6 3 0 [0, 0, 238, 0, 20, 240])) := by
  rw [decodeFrame_received pgnListDefinitions YDCoupler.new 0 .upper (by decide)
    (by simp [shortPgnList]) (by simp) (by simp)]
  rfl

/-- To address 0, in both directions. -/
theorem rawCodec_addressZero :
    RoundTrips pgnListDefinitions YDCoupler.new YDCoupler.new (pgnListMessage 0)
      ((YDCoupler.new.encodeNmea2000 (pgnListMessage 0)).1.1.map LineBack.of) ∧
    ReportsHeader (shortPgnList 0) (.of 126464 6 3 0 [0, 0, 238, 0, 20, 240]) := by
  obtain ⟨hmessages, hlines⟩ := rawCodec_iff pgnListDefinitions
  constructor
  · refine (hmessages .new .new (pgnListMessage 0) pgnList _
      ⟨⟨by decide, by decide⟩, by decide, by decide⟩ defines_pgnList (by decide) rfl
      (fun _ _ => rfl) ?_).mpr (by decide)
    rw [List.map_map]
    exact List.map_id _
  · exact (hlines .new 0 none .upper .upper [] [82] (shortPgnList 0) _ (by decide) (by simp)
      (by decide) decodeFrame_shortPgnList).mpr (by decide)

/-- A message to address 5 comes back for address 0. -/
theorem not_rawCodec_addressFive :
    ¬ ∀ (defs : PGNDefinitions) (s r : YDCoupler) (msg : NMEA2000Msg) (d : PGNDef)
      (ls : List LineBack), Encodable msg → defs.Defines msg.pgn d → Transportable d msg →
      (s.fastPacketHandler.writeSequences.lookup msg.pgn).getD 0 = 0 →
      Closed r msg.pgn msg.da → ls.map LineBack.line = (s.encodeNmea2000 msg).1.1 →
      RoundTrips defs s r msg ls := by
  intro h
  have hmsg : Encodable (pgnListMessage 5) := ⟨⟨by decide, by decide⟩, by decide, by decide⟩
  have htransport : Transportable pgnList (pgnListMessage 5) := by decide
  have hls : ((YDCoupler.new.encodeNmea2000 (pgnListMessage 5)).1.1.map LineBack.of).map
      LineBack.line = (YDCoupler.new.encodeNmea2000 (pgnListMessage 5)).1.1 := by
    rw [List.map_map]
    exact List.map_id _
  have hback := h pgnListDefinitions .new .new (pgnListMessage 5) pgnList _ hmsg defines_pgnList
    htransport rfl (fun _ _ => rfl) hls
  have hda := ((roundTrips_split hmsg defines_pgnList htransport rfl (fun _ _ => rfl) rfl hls).mp
    hback).1
  exact absurd (hda (by decide)) (by decide)

end YDCoupler

end NavigationServer.Couplers
