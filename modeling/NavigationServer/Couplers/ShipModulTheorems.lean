/-
NavigationServer.Couplers.ShipModulTheorems — the sentences of the Shipmodul
interface, written and read.

`mxpgnCodec_iff` : from `encode_nmea2000` to `mxpgn_decode`, and a sentence
behind a tag block. `mxpgn_decode` returns no message for a transfer that is
complete with its first frame. Behind a tag block the sentence is read from
two bytes before its start.

A sentence is written field by field and read field by field (`mxpgnFields_mxpgnOf`), and
of a frame that is read back the reassembly makes what it makes on the bus. So the message
of several frames is settled by the handler of fast packets, and the codec adds only the
first frame.
-/
import NavigationServer.Couplers.FrontEndTheorems
import NavigationServer.RouterCore.Nmea0183MsgTheorems

namespace NavigationServer.Couplers

open NavigationServer.Lib
open NavigationServer.Nmea2000
open NavigationServer.Nmea2000Datamodel
open NavigationServer.RouterCore
open FastPacketHandler (splitFrames counterOf seqOf)
open YDCoupler (Encodable Transportable)

namespace ShipModulInterface

/-! ## 1. The buffer -/

/-- A packet stands in the buffer from its end down, with the last byte
first. -/
theorem writeReversed_eq : ∀ (data rdata : Bytes) (k : Nat), k ≤ rdata.length → data.length ≤ k →
    writeReversed data rdata ((k : Int) - 1)
      = .ok (rdata.take (k - data.length) ++ data.reverse ++ rdata.drop k,
          ((k - data.length : Nat) : Int) - 1)
  | [], rdata, k, _, _ => by simp [writeReversed]
  | b :: data, rdata, k, hk, hdata => by
      obtain ⟨j, rfl⟩ : ∃ j, k = j + 1 := Nat.exists_eq_add_one.mpr (by
        rw [List.length_cons] at hdata
        omega)
      have hset : setItem rdata (((j + 1 : Nat) : Int) - 1) b = some (rdata.set j b) := by
        rw [show ((j + 1 : Nat) : Int) - 1 = (j : Int) by omega]
        exact setItem_natCast rdata (by omega) b
      have hrest := writeReversed_eq data (rdata.set j b) j (by simp; omega)
        (by simpa using hdata)
      have hdrop : (rdata.set j b).drop j = b :: rdata.drop (j + 1) := by
        rw [List.drop_eq_getElem_cons (by simp; omega), List.getElem_set_self,
          List.drop_set_of_lt (by omega)]
      rw [writeReversed, hset]
      simp only
      rw [show ((j + 1 : Nat) : Int) - 1 - 1 = (j : Int) - 1 by omega, hrest, hdrop,
        List.take_set_of_le (by omega)]
      simp [Nat.add_sub_add_right]

/-! ## 2. The sentence -/

/-- The sentence with an attribute word for `l` bytes, and the bytes that it
shows. -/
def mxpgnOf (msg : NMEA2000Msg) (l : Nat) (shown : Bytes) : Bytes :=
  sentence (36 :: [77, 88, 80, 71, 78] ++ comma :: [comma].intercalate
    [hexFormat .upper 6 msg.pgn, hexFormat .upper 4 (attributeOf msg l), hexBytes .lower shown])

/-- A sentence that is written has the form of one. -/
theorem encode_of_ok {msg : NMEA2000Msg} {rdata data frame rdata' : Bytes}
    (h : encode msg rdata data = .ok (frame, rdata')) :
    ∃ shown, frame = mxpgnOf msg data.length shown ++ crLf := by
  unfold encode at h
  cases hw : writeReversed data rdata 7 with
  | error e =>
    rw [hw] at h
    cases h
  | ok r =>
    rw [hw] at h
    obtain ⟨hframe, -⟩ := Prod.mk.inj (Except.ok.inj h)
    exact ⟨_, hframe.symm⟩

/-- **The sentence of a frame**, with its bytes the other way round. -/
theorem encode_eq (msg : NMEA2000Msg) {rdata data : Bytes} (hbuffer : rdata.length = 8)
    (hdata : data.length ≤ 8) :
    ∃ rdata', rdata'.length = 8 ∧
      encode msg rdata data = .ok (mxpgnOf msg data.length data.reverse ++ crLf, rdata') := by
  have hwrite := writeReversed_eq data rdata 8 (by omega) hdata
  have hdrop : rdata.drop 8 = [] := List.drop_eq_nil_of_le (by omega)
  obtain ⟨rdata', hrdata'⟩ : ∃ r, r = rdata.take (8 - data.length) ++ data.reverse := ⟨_, rfl⟩
  have hlen : rdata'.length = 8 := by
    rw [hrdata', List.length_append, List.length_take, List.length_reverse]
    omega
  have hshown : slice rdata' (((8 - data.length : Nat) : Int) - 1 + 1) rdata'.length
      = data.reverse := by
    rw [Int.sub_add_cancel, slice_natCast, List.take_of_length_le (by simp), hrdata',
      List.drop_left' (by rw [List.length_take]; omega)]
  refine ⟨rdata', hlen, ?_⟩
  rw [hdrop, List.append_nil, ← hrdata'] at hwrite
  unfold encode
  rw [show (7 : Int) = ((8 : Nat) : Int) - 1 from rfl, hwrite]
  simp only [bind, Except.bind]
  rw [hshown]
  rfl

/-- Packets of up to eight bytes are written one after the other. -/
theorem encodeAll_eq (msg : NMEA2000Msg) : ∀ (packets : List Bytes) (rdata : Bytes),
    rdata.length = 8 → (∀ p ∈ packets, p.length ≤ 8) →
    encodeAll msg rdata packets
      = (packets.map (fun p => mxpgnOf msg p.length p.reverse ++ crLf), none)
  | [], _, _, _ => rfl
  | p :: packets, rdata, hbuffer, hpackets => by
      obtain ⟨rdata', hlen, hencode⟩ := encode_eq msg hbuffer (hpackets p List.mem_cons_self)
      have hrest := encodeAll_eq msg packets rdata' hlen
        (fun p' h => hpackets p' (List.mem_cons_of_mem _ h))
      rw [encodeAll, hencode]
      simp only [hrest, List.map_cons]

/-! ## 3. Reading the sentence -/

section Reading

variable {msg : NMEA2000Msg}

/-- The attribute word: priority and length above, the destination below. -/
theorem attributeOf_eq (msg : NMEA2000Msg) (l : Nat) (hda : msg.da < 256) :
    attributeOf msg l = (0x80 ||| msg.prio <<< 4 ||| l) * 256 + msg.da := by
  have hprio : msg.prio <<< 12 = (msg.prio <<< 4) <<< 8 := by rw [← Nat.shiftLeft_add]
  have hword : 0x8000 ||| msg.prio <<< 12 ||| l <<< 8 = (0x80 ||| msg.prio <<< 4 ||| l) <<< 8 := by
    rw [hprio, Nat.shiftLeft_or_distrib, Nat.shiftLeft_or_distrib]
    rfl
  rw [attributeOf, hword, ← Nat.shiftLeft_add_eq_or_of_lt (show msg.da < 2 ^ 8 from hda),
    Nat.shiftLeft_eq]

/-- The destination is its low byte. -/
theorem address_attributeOf (hda : msg.da < 256) (l : Nat) :
    attributeOf msg l &&& 0xFF = msg.da := by
  rw [show (0xFF : Nat) = 2 ^ 8 - 1 from rfl, and_mask, attributeOf_eq msg l hda]
  omega

/-- And the priority is found above the length. -/
theorem prio_attributeOf (hda : msg.da < 256) (hprio : msg.prio < 8) {l : Nat} (hl : l < 16) :
    (attributeOf msg l >>> 12) &&& 7 = msg.prio := by
  have hword : 0x80 ||| msg.prio <<< 4 ||| l = 128 + msg.prio * 16 + l := by
    have hhigh : 0x80 ||| msg.prio <<< 4 = (8 + msg.prio) <<< 4 := by
      rw [show (0x80 : Nat) = 8 <<< 4 from rfl, ← Nat.shiftLeft_or_distrib,
        show (8 : Nat) = 1 <<< 3 from rfl,
        ← Nat.shiftLeft_add_eq_or_of_lt (show msg.prio < 2 ^ 3 from hprio)]
    rw [hhigh, ← Nat.shiftLeft_add_eq_or_of_lt (show l < 2 ^ 4 from hl), Nat.shiftLeft_eq]
    omega
  rw [show (7 : Nat) = 2 ^ 3 - 1 from rfl, and_mask, Nat.shiftRight_eq_div_pow,
    attributeOf_eq msg l hda, hword]
  omega

/-- Digits are no commas, so the fields are found again. -/
theorem comma_notMem_hexFormat (c : LetterCase) (w n : Nat) : comma ∉ hexFormat c w n :=
  comma_notMem_hexNumber c _ n

/-- The fields of the sentence. -/
theorem init_mxpgnOf (msg : NMEA2000Msg) (l : Nat) (shown : Bytes) :
    ∃ m0183, NMEA0183Msg.init (mxpgnOf msg l shown) true = .ok m0183 ∧
      m0183.address = [77, 88, 80, 71, 78] ∧ m0183.fields =
        [hexFormat .upper 6 msg.pgn, hexFormat .upper 4 (attributeOf msg l),
          hexBytes .lower shown] := by
  refine init_sentence (by simp) (by decide) (by simp) ?_
  intro f hf
  rcases List.mem_cons.mp hf with rfl | hf
  · exact comma_notMem_hexFormat _ _ _
  · rcases List.mem_pair.mp hf with rfl | rfl
    · exact comma_notMem_hexFormat _ _ _
    · exact comma_notMem_hexBytes _ _

/-- The three fields of a written sentence. -/
theorem mxpgnFields_mxpgnOf {c : ShipModulInterface} (hmode : c.mode = .nmea2000)
    (h : Encodable msg) (l : Nat) (shown : Bytes) {m0183 : NMEA0183Msg}
    (hfields : m0183.fields = [hexFormat .upper 6 msg.pgn, hexFormat .upper 4 (attributeOf msg l),
      hexBytes .lower shown]) :
    c.mxpgnFields m0183 = .ok (msg.pgn, (attributeOf msg l >>> 12) &&& 7, msg.da,
      (pgnPdu1Adjust msg.pgn).2, shown.reverse) := by
  have hadjust := pgnPdu1Adjust_valid h.pgn
  rw [mxpgnFields, hfields]
  simp only [item, List.getElem?_cons_zero, List.getElem?_cons_succ, bind, Except.bind,
    int16_hexFormat, fromhex_hexBytes, hmode, address_attributeOf h.da]
  rw [if_neg (by simp), hadjust]
  rfl

/-- A sentence without a tag block is read as it is. -/
theorem shipmodulProcessFrame_mxpgnOf (check : ConnectionCheck) (msg : NMEA2000Msg) (l : Nat)
    (shown : Bytes) :
    (shipmodulProcessFrame check (mxpgnOf msg l shown)).1
      = (NMEA0183Msg.init (mxpgnOf msg l shown) true).map some := by
  obtain ⟨rest, hrest⟩ : ∃ rest, mxpgnOf msg l shown = 36 :: 77 :: rest := ⟨_, rfl⟩
  have htag : slice (36 :: 77 :: rest) 0 2 ≠ ascii "\\s" := by
    rw [show (2 : Int) = ((2 : Nat) : Int) from rfl, slice_zero]
    exact fun heq => absurd (List.cons.inj heq).1 (by decide)
  rw [hrest]
  unfold shipmodulProcessFrame
  simp only [if_neg htag]
  rw [if_neg (by decide)]
  -- the answer that the check waits for is read in the same way
  split <;> rfl

/-- The sentence goes to the reassembly. -/
theorem extract_mxpgnOf (defs : PGNDefinitions) {c : ShipModulInterface}
    (hmode : c.mode = .nmea2000) (now : Time) (check : ConnectionCheck) (h : Encodable msg)
    (l : Nat) (shown : Bytes) :
    let r := c.reassemble defs now msg.pgn ((attributeOf msg l >>> 12) &&& 7) msg.da
      (pgnPdu1Adjust msg.pgn).2 shown.reverse
    c.shipmodulExtractNmea2000 defs now check (mxpgnOf msg l shown)
      = (r.1.map .nmea2000, r.2) := by
  obtain ⟨m0183, hinit, haddress, hfields⟩ := init_mxpgnOf msg l shown
  intro r
  have hdecode : c.mxpgnDecode defs now m0183 = r := by
    rw [mxpgnDecode, mxpgnFields_mxpgnOf hmode h l shown hfields]
  unfold shipmodulExtractNmea2000
  rw [shipmodulProcessFrame_mxpgnOf, hinit]
  simp only [Except.map]
  rw [haddress, if_pos (by decide), hdecode]

end Reading

/-! ## 4. The reassembly of the sentences -/

/-- The reassembly on its own, as a machine. -/
def received (defs : PGNDefinitions) (prio da : Nat) :
    Machine ShipModulInterface Received (Except Exn Extracted) where
  step c rx :=
    let (r, c) := c.reassemble defs rx.now rx.pgn prio rx.addr da rx.frame
    (r.map .nmea2000, c)

/-- What the frames come to. -/
def decoded (outs : List (Except Exn Extracted)) : List Extracted :=
  outs.filterMap (fun r => match r with
    | .ok x => some x
    | .error _ => none)

/-- What is decoded is decoded sentence by sentence. -/
theorem decoded_cons (r : Except Exn Extracted) (outs : List (Except Exn Extracted)) :
    decoded (r :: outs) = decoded [r] ++ decoded outs := by
  unfold decoded
  rw [← List.filterMap_append, List.singleton_append]

/-- The message with a payload, as it comes out of the reassembly. -/
def extractedOf (pgn prio sa da : Nat) (payload : Bytes) : Extracted :=
  .nmea2000 (.of pgn prio sa da payload)

/-- A frame that does not complete a transfer as its first one: if it is a
frame 0, the length it announces is of more than its own bytes. -/
def Unfinished (frame : Bytes) : Prop :=
  ∀ b rest, frame = b :: rest → counterOf b = 0 → ∀ len ∈ rest.head?, 7 ≤ len.toNat

/-- A first frame that announces more delivers nothing. -/
theorem deliveries_unfinished {rx : Received} (h : Unfinished rx.frame) :
    deliveries [(slotStep none rx).1] = [] := by
  cases hf : rx.frame with
  | nil =>
    rw [slotStep, hf]
    rfl
  | cons b rest =>
    rcases Nat.eq_zero_or_pos (counterOf b) with hc | hc
    · rw [slotStep_free rx hf hc]
      cases rest with
      | nil =>
        rw [feedSlot, FastPacket.takeFrame_zero_short]
        rfl
      | cons len data =>
        have h7 := h b (len :: data) hf hc len rfl
        have hblank := FastPacket.blank_new rx.now rx.pgn rx.addr (seqOf b)
        rw [feedSlot_ok (FastPacket.takeFrame_zero _ b len data),
          checkComplete_first hblank data h7]
        rfl
    · rw [slotStep, hf]
      simp only [if_pos (Nat.ne_of_gt hc)]
      rfl

section Reassembly

variable {defs : PGNDefinitions} {c : ShipModulInterface} {rx : Received}

/-- For an open key the message is made of what the reassembly delivers. A free
key brings none. -/
theorem reassemble_fast (c : ShipModulInterface) (prio da : Nat)
    (hfast : fastPacketCheck defs rx.pgn = .ok true) (hne : rx.frame ≠ []) :
    let r := c.reassemble defs rx.now rx.pgn prio rx.addr da rx.frame
    decoded [r.1.map .nmea2000]
        = (if (c.fastPacketHandler.sequences.lookup rx.key).isSome then
            deliveries [(c.fastPacketHandler.receive rx).1] else []).map
              (extractedOf rx.pgn prio rx.addr da) ∧
      r.2.fastPacketHandler = (c.fastPacketHandler.receive rx).2 := by
  have hprocess : c.fastPacketHandler.processFrame rx.now rx.pgn rx.addr rx.frame
      = c.fastPacketHandler.receive rx := rfl
  simp only [reassemble, isPgnActive_eq _ hne, hprocess, hfast]
  generalize c.fastPacketHandler.receive rx = result
  obtain ⟨r, fp⟩ := result
  cases (c.fastPacketHandler.sequences.lookup rx.key).isSome with
  | true =>
    cases r with
    | ok o => cases o <;> exact ⟨rfl, rfl⟩
    | error e => cases e <;> exact ⟨rfl, rfl⟩
  | false =>
    cases r with
    | ok o => exact ⟨rfl, rfl⟩
    | error e => cases e <;> exact ⟨rfl, rfl⟩

/-- So the frames that do not complete a transfer as its first one come to what
the reassembly delivers. -/
theorem decoded_fast (prio da : Nat) {pgn addr : Nat}
    (hfast : fastPacketCheck defs pgn = .ok true) {rxs : List Received}
    (hrxs : ∀ rx ∈ rxs, rx.pgn = pgn ∧ rx.addr = addr ∧ rx.frame ≠ [])
    (hunfinished : ∀ rx ∈ rxs, Unfinished rx.frame) (c : ShipModulInterface) :
    decoded ((received defs prio da).outs c rxs)
      = (deliveries (reassembly.outs c.fastPacketHandler rxs)).map
          (extractedOf pgn prio addr da) := by
  induction rxs generalizing c with
  | nil => rfl
  | cons rx rxs ih =>
    obtain ⟨rfl, rfl, hne⟩ := hrxs rx List.mem_cons_self
    obtain ⟨hout, hfp⟩ := reassemble_fast c prio da hfast hne
    have hrest := ih (fun rx' h => hrxs rx' (List.mem_cons_of_mem _ h))
      (fun rx' h => hunfinished rx' (List.mem_cons_of_mem _ h))
      ((received defs prio da).step c rx).2
    have hfp' : ((received defs prio da).step c rx).2.fastPacketHandler
        = (c.fastPacketHandler.receive rx).2 := hfp
    have hfirst : (if (c.fastPacketHandler.sequences.lookup rx.key).isSome then
        deliveries [(c.fastPacketHandler.receive rx).1] else [])
          = deliveries [(c.fastPacketHandler.receive rx).1] := by
      cases hopen : c.fastPacketHandler.sequences.lookup rx.key with
      | some p => rfl
      | none =>
        rw [FastPacketHandler.receive_fst, hopen,
          deliveries_unfinished (hunfinished rx List.mem_cons_self)]
        rfl
    rw [hfirst] at hout
    rw [Machine.outs_cons, decoded_cons, hrest, hfp', Machine.outs_cons,
      ← List.singleton_append (x := (reassembly.step c.fastPacketHandler rx).1), deliveries_append,
      List.map_append]
    exact congrArg (· ++ _) hout

/-- Frames of a PGN that is not fast packet are messages. -/
theorem decoded_single (prio da : Nat) {pgn addr : Nat}
    (hsingle : fastPacketCheck defs pgn = .ok false)
    (hclosed : ∀ seq < 8,
      c.fastPacketHandler.sequences.lookup (FastPacket.computeKey pgn addr seq) = none)
    {rxs : List Received} (hrxs : ∀ rx ∈ rxs, rx.pgn = pgn ∧ rx.addr = addr ∧ rx.frame ≠ []) :
    decoded ((received defs prio da).outs c rxs)
      = (rxs.map Received.frame).map (extractedOf pgn prio addr da) := by
  induction rxs with
  | nil => rfl
  | cons rx rxs ih =>
    obtain ⟨rfl, rfl, hne⟩ := hrxs rx List.mem_cons_self
    have hkey : c.fastPacketHandler.sequences.lookup rx.key = none := by
      obtain ⟨b, rest, hf⟩ := List.exists_cons_of_ne_nil hne
      rw [Received.key, hf]
      exact hclosed _ (FastPacketHandler.seqOf_lt b)
    have hstep : (received defs prio da).step c rx
        = (.ok (extractedOf rx.pgn prio rx.addr da rx.frame), c) := by
      rw [received]
      simp only [reassemble, isPgnActive_eq _ hne, hkey, Option.isSome_none, hsingle]
      rfl
    rw [Machine.outs_cons, hstep, List.map_cons, List.map_cons,
      ← ih (fun rx' h => hrxs rx' (List.mem_cons_of_mem _ h))]
    rfl

/-- The first frame of a transfer brings no message. -/
theorem reassemble_first (c : ShipModulInterface) (now : Time) {pgn : Nat} (prio sa da : Nat)
    (frame : Bytes) (hfast : fastPacketCheck defs pgn = .ok true)
    (hclosed : ∀ seq < 8,
      c.fastPacketHandler.sequences.lookup (FastPacket.computeKey pgn sa seq) = none) :
    decoded [(c.reassemble defs now pgn prio sa da frame).1.map .nmea2000] = [] := by
  cases frame with
  | nil => rfl
  | cons b rest =>
    have hkey : c.fastPacketHandler.sequences.lookup
        (⟨now, pgn, sa, b :: rest⟩ : Received).key = none :=
      hclosed _ (FastPacketHandler.seqOf_lt b)
    have hout := (@reassemble_fast defs ⟨now, pgn, sa, b :: rest⟩ c prio da hfast (by simp)).1
    rw [hkey] at hout
    exact hout

/-- Reassembling does not change the mode of the interface. -/
theorem reassemble_mode (defs : PGNDefinitions) (c : ShipModulInterface) (now : Time)
    (pgn prio sa da : Nat) (data : Bytes) :
    (c.reassemble defs now pgn prio sa da data).2.mode = c.mode := by
  unfold reassemble
  repeat' split
  all_goals rfl

end Reassembly

/-! ## 5. From the encoder to the decoder -/

/-- A sentence on its way to a decoder: what the clock reads there, and the
state of the connection check. -/
structure SentenceBack where
  now : Time
  check : ConnectionCheck
  frame : Bytes

/-- An interface that is given the sentences. -/
def sentenceDecoder (defs : PGNDefinitions) :
    Machine ShipModulInterface SentenceBack (Except Exn Extracted) where
  step c l := c.shipmodulExtractNmea2000 defs l.now l.check l.frame

/-- A step is the call for one sentence. -/
theorem sentenceDecoder_step (defs : PGNDefinitions) (c : ShipModulInterface) (l : SentenceBack) :
    (sentenceDecoder defs).step c l = c.shipmodulExtractNmea2000 defs l.now l.check l.frame := rfl

/-- A frame without CR LF. -/
def stripped (frame : Bytes) : Bytes := frame.take (frame.length - 2)

/-- CR LF is stripped by the reader in front. -/
theorem stripped_append (frame : Bytes) : stripped (frame ++ crLf) = frame := by
  rw [stripped, List.length_append, show crLf.length = 2 from rfl, Nat.add_sub_cancel,
    List.take_left]

/-- The sentences of a message come to one message, with its PGN, its priority
and its payload. -/
def RoundTrips (defs : PGNDefinitions) (s r : ShipModulInterface) (msg : NMEA2000Msg)
    (ls : List SentenceBack) : Prop :=
  (s.encodeNmea2000 msg).1.2 = none ∧
  ∃ msg', decoded ((sentenceDecoder defs).outs r ls) = [.nmea2000 msg'] ∧ msg'.pgn = msg.pgn ∧
    msg'.prio = msg.prio ∧ msg'.payload = msg.payload

/-- An interface that has no transfer of a PGN from an address open. -/
def Closed (c : ShipModulInterface) (pgn addr : Nat) : Prop :=
  ∀ seq < 8, c.fastPacketHandler.sequences.lookup (FastPacket.computeKey pgn addr seq) = none

section RoundTrip

variable {defs : PGNDefinitions} {s r : ShipModulInterface} {msg : NMEA2000Msg} {d : PGNDef}
  {ls : List SentenceBack}

/-- The sentences of packets reach the reassembly as these packets. -/
theorem exists_received (defs : PGNDefinitions) (h : Encodable msg) :
    ∀ (ls : List SentenceBack) (packets : List Bytes),
    ls.map SentenceBack.frame = packets.map (fun p => mxpgnOf msg p.length p.reverse) →
    (∀ p ∈ packets, p ≠ [] ∧ p.length ≤ 8) →
    ∃ rxs : List Received, rxs.map Received.frame = packets ∧
      (∀ rx ∈ rxs, rx.pgn = msg.pgn ∧ rx.addr = msg.da ∧ rx.frame ≠ []) ∧
      ∀ c : ShipModulInterface, c.mode = .nmea2000 → (sentenceDecoder defs).outs c ls
        = (received defs msg.prio (pgnPdu1Adjust msg.pgn).2).outs c rxs
  | [], packets, hls, _ => by
      refine ⟨[], ?_, by simp, fun _ _ => rfl⟩
      simpa using hls
  | l :: ls, [], hls, _ => by simp at hls
  | l :: ls, p :: packets, hls, hpackets => by
      simp only [List.map_cons, List.cons.injEq] at hls
      obtain ⟨rxs, hframes, hrxs, houts⟩ := exists_received defs h ls packets hls.2
        (fun q hq => hpackets q (List.mem_cons_of_mem _ hq))
      obtain ⟨hne, hlen⟩ := hpackets p List.mem_cons_self
      refine ⟨⟨l.now, msg.pgn, msg.da, p⟩ :: rxs, by rw [List.map_cons, hframes], ?_, ?_⟩
      · intro rx hrx
        rcases List.mem_cons.mp hrx with rfl | hrx
        · exact ⟨rfl, rfl, hne⟩
        · exact hrxs rx hrx
      · intro c hmode
        have hstep : (sentenceDecoder defs).step c l
            = (received defs msg.prio (pgnPdu1Adjust msg.pgn).2).step c
                ⟨l.now, msg.pgn, msg.da, p⟩ := by
          have hextract := extract_mxpgnOf defs hmode l.now l.check h p.length p.reverse
          rw [sentenceDecoder_step, hls.1]
          rw [prio_attributeOf h.da h.prio (by omega), List.reverse_reverse] at hextract
          exact hextract
        have hkept : ((sentenceDecoder defs).step c l).2.mode = .nmea2000 := by
          rw [hstep]
          exact (reassemble_mode defs c l.now msg.pgn msg.prio msg.da _ p).trans hmode
        rw [Machine.outs_cons, Machine.outs_cons, houts _ hkept, hstep]

/-- One message, made of the payload. -/
theorem exists_message_iff (payloads : List Bytes) (sa da : Nat) :
    (∃ msg', payloads.map (extractedOf msg.pgn msg.prio sa da) = [.nmea2000 msg'] ∧
        msg'.pgn = msg.pgn ∧ msg'.prio = msg.prio ∧ msg'.payload = msg.payload) ↔
      payloads = [msg.payload] := by
  constructor
  · rintro ⟨msg', hmap, -, -, hpayload⟩
    obtain ⟨data, rfl, hdata⟩ := List.map_eq_singleton_iff.mp hmap
    obtain rfl := Extracted.nmea2000.inj hdata
    exact congrArg (fun data : Bytes => [data]) hpayload
  · rintro rfl
    exact ⟨_, rfl, rfl, rfl, rfl⟩

/-- The sentence of a message that is not split. -/
theorem roundTrips_unsplit (hmsg : Encodable msg) (hd : defs.Defines msg.pgn d)
    (htransport : Transportable d msg) (hmode : r.mode = .nmea2000)
    (hclosed : Closed r msg.pgn msg.da) (hflag : msg.fastPacket = false)
    (hls : ls.map SentenceBack.frame = (s.encodeNmea2000 msg).1.1.map stripped) :
    RoundTrips defs s r msg ls ↔ d.fastPacket = false := by
  have henc : s.encodeNmea2000 msg = (encodeAll msg (List.replicate 8 0) [msg.payload], s) := by
    rw [encodeNmea2000, hflag]
    rfl
  unfold RoundTrips
  rw [henc] at hls ⊢
  cases hfast : d.fastPacket with
  | false =>
    have hbytes : 1 ≤ msg.payload.length ∧ msg.payload.length ≤ 8 := by
      rwa [Transportable, if_neg (by simp [hflag, hfast])] at htransport
    have hne : msg.payload ≠ [] := List.ne_nil_of_length_pos hbytes.1
    have hall := encodeAll_eq msg [msg.payload] (List.replicate 8 0) rfl (by simpa using hbytes.2)
    rw [hall] at hls ⊢
    obtain ⟨rxs, hframes, hrxs, houts⟩ := exists_received defs hmsg ls [msg.payload]
      (by rw [hls]; exact congrArg (fun f : Bytes => [f]) (stripped_append _))
      (by simpa using ⟨hne, hbytes.2⟩)
    rw [houts r hmode, decoded_single msg.prio _ (hfast ▸ fastPacketCheck_of_defines hd) hclosed
      hrxs, hframes, exists_message_iff]
    simp
  | true =>
    refine iff_of_false ?_ (by simp)
    rintro ⟨hended, msg', hmsg', -⟩
    -- the only sentence, whatever it shows, is of a first frame
    rw [encodeAll] at hls hended
    cases hsingle : encode msg (List.replicate 8 0) msg.payload with
    | error e =>
      rw [hsingle] at hended
      cases hended
    | ok result =>
      obtain ⟨frame, rdata⟩ := result
      rw [hsingle] at hls
      obtain ⟨l, rfl, hl⟩ := List.map_eq_singleton_iff.mp hls
      obtain ⟨shown, rfl⟩ := encode_of_ok hsingle
      rw [stripped_append] at hl
      have hfirst := reassemble_first r l.now ((attributeOf msg msg.payload.length >>> 12) &&& 7)
        msg.da (pgnPdu1Adjust msg.pgn).2 shown.reverse (hfast ▸ fastPacketCheck_of_defines hd)
        hclosed
      rw [Machine.outs_cons, Machine.outs_nil, sentenceDecoder_step, hl,
        extract_mxpgnOf defs hmode l.now l.check hmsg, hfirst] at hmsg'
      cases hmsg'

/-- The frames of a payload have eight bytes. -/
theorem length_splitFrames {payload : Bytes} (h223 : payload.length ≤ 223) :
    ∀ f ∈ (splitFrames payload 1).1, f.length = 8 := by
  intro f hf
  rw [FastPacketHandler.splitFrames_eq payload 1 (by omega) (by omega)] at hf
  rcases List.mem_cons.mp hf with rfl | hf
  · simp
  · obtain ⟨k, -, rfl⟩ := List.mem_map.mp hf
    simp [FastPacketHandler.contFrame]

/-- The frames of a payload of seven bytes or more: none completes a transfer
as its first one. -/
theorem unfinished_splitFrames {payload : Bytes} (h7 : 7 ≤ payload.length)
    (h223 : payload.length ≤ 223) : ∀ f ∈ (splitFrames payload 1).1, Unfinished f := by
  intro f hf
  rw [FastPacketHandler.splitFrames_eq payload 1 (by omega) (by omega)] at hf
  intro b rest hbytes hzero
  rcases List.mem_cons.mp hf with rfl | hf
  · obtain ⟨-, rfl⟩ := List.cons.inj hbytes
    intro len hlen
    obtain rfl := Option.some.inj hlen
    rw [UInt8.toNat_ofNat']
    omega
  · obtain ⟨k, hk, rfl⟩ := List.mem_map.mp hf
    rw [List.mem_range'_1] at hk
    obtain ⟨rfl, -⟩ := List.cons.inj hbytes
    have hor : 1 * 32 ||| k = 1 * 32 + k := by
      simpa using (Nat.two_pow_add_eq_or_of_lt (i := 5) (show k < 2 ^ 5 by omega) 1).symm
    rw [hor] at hzero
    have hcounter := @FastPacketHandler.counterOf_controlByte 1 k (by omega) (by omega)
    unfold FastPacketHandler.controlByte at hcounter
    rw [hzero] at hcounter
    omega

/-- The sentences of a message that is split. -/
theorem roundTrips_split (hmsg : Encodable msg) (hd : defs.Defines msg.pgn d)
    (htransport : Transportable d msg)
    (hfree : (s.fastPacketHandler.writeSequences.lookup msg.pgn).getD 0 = 0)
    (hmode : r.mode = .nmea2000) (hclosed : Closed r msg.pgn msg.da) (hflag : msg.fastPacket = true)
    (hls : ls.map SentenceBack.frame = (s.encodeNmea2000 msg).1.1.map stripped) :
    RoundTrips defs s r msg ls ↔
      d.fastPacket = true ∧ msg.payload.length % 7 = 6 ∧ 6 < msg.payload.length := by
  have h223 : msg.payload.length ≤ 223 := by
    rwa [Transportable, if_pos (Or.inl hflag)] at htransport
  have hended : (splitFrames msg.payload 1).2 = none := by
    rw [FastPacketHandler.splitFrames_eq msg.payload 1 (by omega) (by omega)]
  have henc : (s.encodeNmea2000 msg).1 = ((splitFrames msg.payload 1).1.map
      (fun p => mxpgnOf msg p.length p.reverse ++ crLf), none) := by
    have hsplit := splitMessage_free hfree msg.payload
    have hall := encodeAll_eq msg (splitFrames msg.payload 1).1 (List.replicate 8 0) rfl
      (fun f hf => (length_splitFrames h223 f hf).le)
    rw [encodeNmea2000, if_pos hflag]
    generalize s.fastPacketHandler.splitMessage msg.pgn msg.payload = result at hsplit
    obtain ⟨⟨frames, e⟩, fp⟩ := result
    simp only at hsplit ⊢
    rw [← hsplit] at hended hall ⊢
    simp only at hended hall ⊢
    rw [hall, hended]
    rfl
  unfold RoundTrips
  rw [henc] at hls ⊢
  rw [List.map_map] at hls
  obtain ⟨rxs, hframes, hrxs, houts⟩ := exists_received defs hmsg ls (splitFrames msg.payload 1).1
    (hls.trans (List.map_congr_left (fun p _ => stripped_append _)))
    (fun f hf => ⟨YDCoupler.splitFrames_ne_nil h223 f hf, (length_splitFrames h223 f hf).le⟩)
  rw [houts r hmode]
  cases hfast : d.fastPacket with
  | false =>
    rw [decoded_single msg.prio _ (hfast ▸ fastPacketCheck_of_defines hd) hclosed hrxs, hframes,
      exists_message_iff]
    refine iff_of_false ?_ (by simp)
    rintro ⟨-, h⟩
    exact YDCoupler.splitFrames_ne_singleton h223 h
  | true =>
    have hcheck : fastPacketCheck defs msg.pgn = .ok true := hfast ▸ fastPacketCheck_of_defines hd
    rcases Nat.lt_or_ge msg.payload.length 7 with hshort | h7
    · -- a single frame, which completes its transfer or is refused
      refine iff_of_false ?_ (by omega)
      rintro ⟨-, msg', hmsg', -⟩
      rw [FastPacketHandler.splitFrames_eq msg.payload 1 (by omega) (by omega),
        show msg.payload.length / 7 = 0 by omega] at hframes
      obtain ⟨rx, rfl, -⟩ := List.map_eq_singleton_iff.mp hframes
      obtain ⟨hpgn, haddr, -⟩ := hrxs rx List.mem_cons_self
      have hfirst := reassemble_first r rx.now msg.prio rx.addr (pgnPdu1Adjust msg.pgn).2 rx.frame
        (hpgn ▸ hcheck) (hpgn ▸ haddr ▸ hclosed)
      rw [Machine.outs_cons, Machine.outs_nil] at hmsg'
      exact absurd (hfirst.symm.trans hmsg') (by simp)
    · have hfeeds : Feeds msg.pgn msg.da (splitFrames msg.payload 1).1 rxs :=
        ⟨hframes, fun rx hrx => ⟨(hrxs rx hrx).1, (hrxs rx hrx).2.1⟩⟩
      have hunfinished : ∀ rx ∈ rxs, Unfinished rx.frame := fun rx hrx =>
        unfinished_splitFrames h7 h223 rx.frame (hframes ▸ List.mem_map_of_mem hrx)
      rw [decoded_fast msg.prio _ hcheck hrxs hunfinished,
        outs_reassembly r.fastPacketHandler rxs (fun rx hrx => (key_splitFrames hfeeds rx hrx).1),
        hclosed 1 (by omega), exists_message_iff, deliveries_eq_payload_iff h223 hframes]
      simp only [true_and]
      constructor
      · rintro ⟨hmod, -⟩
        exact ⟨hmod, by omega⟩
      · rintro ⟨hmod, h6⟩
        exact ⟨hmod, by omega⟩

end RoundTrip

/-! ## 6. A tag block -/

/-- A sentence behind a tag block. -/
def tagged (b s : Bytes) : Bytes := ascii "\\s" ++ b ++ backslash :: s

/-- The frame is read as a sentence that was read. -/
def ReadsAs (check : ConnectionCheck) (frame : Bytes) (m : NMEA0183Msg) : Prop :=
  ∃ m', (shipmodulProcessFrame check frame).1 = .ok (some m') ∧ m'.delimiter = m.delimiter ∧
    m'.address = m.address ∧ m'.fields = m.fields

/-- The address is what stands behind the delimiter and before the first
comma. -/
theorem split_of_init {data : Bytes} {m : NMEA0183Msg} (h : NMEA0183Msg.init data true = .ok m) :
    ∃ front rest, trimmed data ++ crLf = front ++ comma :: rest ∧ comma ∉ front ∧ front ≠ [] ∧
      m.address = front.tail := by
  cases data with
  | nil => cases h
  | cons delimiter tail =>
    unfold NMEA0183Msg.init at h
    simp only [withCrLf_eq] at h
    split at h
    · cases h
    · split at h
      · cases h
      · rename_i indComma hindex
        split at h
        · cases h
        · rename_i hne
          obtain ⟨front, rest, hsplit, hcomma, hlen⟩ := idxOf?_split hindex
          have haddress : slice (trimmed (delimiter :: tail) ++ crLf) 1 (indComma : Int)
              = front.tail := by
            rw [hsplit, ← hlen, show (1 : Int) = ((1 : Nat) : Int) from rfl, slice_natCast]
            cases front <;> simp
          refine ⟨front, rest, hsplit, hcomma, ?_, ?_⟩
          · rintro rfl
            rw [haddress] at hne
            exact hne rfl
          · rw [← Except.ok.inj h]
            exact haddress

/-- Behind a tag block the sentence is read with the two bytes before it. -/
theorem shipmodulProcessFrame_tagged (check : ConnectionCheck) {b : Bytes} (s : Bytes)
    (hb : backslash ∉ b) :
    ∃ x, (shipmodulProcessFrame check (tagged b s)).1
      = (NMEA0183Msg.init (x :: backslash :: s) true).map some := by
  obtain ⟨x, hx⟩ : ∃ x, (tagged b s).drop (b.length + 1) = x :: backslash :: s := by
    have hlast : (115 :: b).drop b.length ≠ [] := by simp
    obtain ⟨x, rest, hrest⟩ := List.exists_cons_of_ne_nil hlast
    have hone : rest = [] := by
      have hlen := congrArg List.length hrest
      simp only [List.length_drop, List.length_cons] at hlen
      exact List.eq_nil_of_length_eq_zero (by omega)
    refine ⟨x, ?_⟩
    rw [tagged, show ascii "\\s" ++ b = backslash :: 115 :: b from rfl, List.cons_append,
      List.drop_succ_cons, List.drop_append_of_le_length (by simp), hrest, hone]
    rfl
  have hhead : tagged b s = backslash :: 115 :: (b ++ backslash :: s) := rfl
  have htag : slice (tagged b s) 0 2 = ascii "\\s" := by
    rw [show (2 : Int) = ((2 : Nat) : Int) from rfl, slice_zero, hhead]
    rfl
  have hversion : slice (tagged b s) 0 8 ≠ versionFmt := by
    rw [show (8 : Int) = ((8 : Nat) : Int) from rfl, slice_zero, hhead]
    exact fun heq => absurd (List.cons.inj heq).1 (by decide)
  have hindex : ((tagged b s).drop 2).idxOf? backslash = some b.length := by
    rw [hhead]
    exact idxOf?_append_cons hb s
  refine ⟨x, ?_⟩
  rw [← hx]
  generalize tagged b s = frame at htag hversion hindex hhead ⊢
  subst hhead
  unfold shipmodulProcessFrame
  simp only
  rw [if_neg (by decide), if_neg (fun h => hversion h.2), if_pos htag, hindex]

/-- **A tagged sentence is not read as the sentence**: its address is not the
one that is read without the tag block. -/
theorem not_readsAs_tagged (check : ConnectionCheck) {b s : Bytes} {m : NMEA0183Msg}
    (hb : backslash ∉ b) (hs : NMEA0183Msg.init s true = .ok m) :
    ¬ ReadsAs check (tagged b s) m := by
  rintro ⟨m', hread, -, haddress, -⟩
  obtain ⟨x, hx⟩ := shipmodulProcessFrame_tagged check s hb
  have hinit : NMEA0183Msg.init (x :: backslash :: s) true = .ok m' := by
    rw [hx] at hread
    cases hr : NMEA0183Msg.init (x :: backslash :: s) true with
    | error e =>
      rw [hr] at hread
      cases hread
    | ok m'' =>
      rw [hr] at hread
      rw [Option.some.inj (Except.ok.inj hread)]
  obtain ⟨front, rest, hsplit, hcomma, hne, hm⟩ := split_of_init hs
  obtain ⟨front', rest', hsplit', hcomma', hne', hm'⟩ := split_of_init hinit
  have htrimmed : trimmed (x :: backslash :: s) = x :: backslash :: trimmed s :=
    trimmed_append_cons [x] (by decide) (by decide) s
  rw [htrimmed, List.cons_append, List.cons_append, hsplit] at hsplit'
  have hx' : x ≠ comma := by
    rintro rfl
    obtain ⟨c, front'', rfl⟩ := List.exists_cons_of_ne_nil hne'
    exact hcomma' (by rw [(List.cons.inj hsplit').1]; exact List.mem_cons_self)
  have hlonger : comma ∉ x :: backslash :: front := by
    simp [hcomma, hx'.symm, show comma ≠ backslash by decide]
  obtain ⟨hfront, -⟩ := append_cons_cancel hlonger hcomma' hsplit'
  have hlen := congrArg List.length haddress
  have hpos := List.length_pos_of_ne_nil hne
  rw [hm, hm', ← hfront, List.tail_cons, List.length_cons, List.length_tail] at hlen
  omega

/-! ## 7. The codec -/

/-- **The Shipmodul codec.** A message that is encoded and decoded, and a
sentence behind a tag block. -/
theorem mxpgnCodec_iff (defs : PGNDefinitions) :
    (∀ (s r : ShipModulInterface) (msg : NMEA2000Msg) (d : PGNDef) (ls : List SentenceBack),
      Encodable msg → defs.Defines msg.pgn d → Transportable d msg →
      (s.fastPacketHandler.writeSequences.lookup msg.pgn).getD 0 = 0 → r.mode = .nmea2000 →
      Closed r msg.pgn msg.da →
      ls.map SentenceBack.frame = (s.encodeNmea2000 msg).1.1.map stripped →
      (RoundTrips defs s r msg ls ↔
        d.fastPacket = msg.fastPacket ∧ (msg.fastPacket = true →
          msg.payload.length % 7 = 6 ∧ 6 < msg.payload.length))) ∧
    ∀ (check : ConnectionCheck) (b s : Bytes) (m : NMEA0183Msg), backslash ∉ b →
      NMEA0183Msg.init s true = .ok m → ¬ ReadsAs check (tagged b s) m := by
  constructor
  · intro s r msg d ls hmsg hd htransport hfree hmode hclosed hls
    cases hflag : msg.fastPacket with
    | false =>
      rw [roundTrips_unsplit hmsg hd htransport hmode hclosed hflag hls]
      simp
    | true =>
      rw [roundTrips_split hmsg hd htransport hfree hmode hclosed hflag hls]
      simp
  · intro check b s m hb hs
    exact not_readsAs_tagged check hb hs

/-- An encoded sentence that comes back. -/
def SentenceBack.of (frame : Bytes) : SentenceBack := ⟨0, ⟨false, false⟩, stripped frame⟩

/-- The sentences as the reader hands them over. -/
theorem map_frame_of (frames : List Bytes) :
    (frames.map SentenceBack.of).map SentenceBack.frame = frames.map stripped := by
  rw [List.map_map]
  rfl

/-- The temperature of the water. -/
def waterTemperature : Bytes :=
  sentence (36 :: ascii "IIMTW" ++ comma :: [comma].intercalate [ascii "10.0", ascii "C"])

/-- The sentence of the example is one. -/
theorem init_waterTemperature : ∃ m, NMEA0183Msg.init waterTemperature true = .ok m := by
  obtain ⟨m, hm, -⟩ := @init_sentence 36 (ascii "IIMTW") [ascii "10.0", ascii "C"] (by decide)
    (by decide) (by decide) (by decide)
  exact ⟨m, hm⟩

/-- Thirteen bytes of a fast packet come back, and a tagged sentence does not. -/
theorem mxpgnCodec_pgnList :
    RoundTrips pgnListDefinitions new new (YDCoupler.pgnListMessage 0)
      ((new.encodeNmea2000 (YDCoupler.pgnListMessage 0)).1.1.map SentenceBack.of) ∧
    ∃ m, NMEA0183Msg.init waterTemperature true = .ok m ∧
      ¬ ReadsAs ⟨false, false⟩ (tagged (ascii ":1") waterTemperature) m := by
  obtain ⟨hmessages, htags⟩ := mxpgnCodec_iff pgnListDefinitions
  constructor
  · exact (hmessages new new (YDCoupler.pgnListMessage 0) pgnList _
      ⟨⟨by decide, by decide⟩, by decide, by decide⟩ defines_pgnList (by decide) rfl rfl
      (fun _ _ => rfl) (map_frame_of _)).mpr (by decide)
  · obtain ⟨m, hm⟩ := init_waterTemperature
    exact ⟨m, hm, htags _ _ _ m (by decide) hm⟩

/-- Six bytes of a PGN that is defined as fast packet. -/
def shortListMessage : NMEA2000Msg := .of 126464 6 3 0 [0, 0, 238, 0, 20, 240]

/-- Six bytes do not come back, and a tagged sentence is not read. -/
theorem not_mxpgnCodec_shortList :
    (¬ ∀ (defs : PGNDefinitions) (s r : ShipModulInterface) (msg : NMEA2000Msg) (d : PGNDef)
      (ls : List SentenceBack), Encodable msg → defs.Defines msg.pgn d → Transportable d msg →
      (s.fastPacketHandler.writeSequences.lookup msg.pgn).getD 0 = 0 → r.mode = .nmea2000 →
      Closed r msg.pgn msg.da →
      ls.map SentenceBack.frame = (s.encodeNmea2000 msg).1.1.map stripped →
      RoundTrips defs s r msg ls) ∧
    ¬ ∀ (check : ConnectionCheck) (b s : Bytes) (m : NMEA0183Msg), backslash ∉ b →
      NMEA0183Msg.init s true = .ok m → ReadsAs check (tagged b s) m := by
  constructor
  · intro h
    have hmsg : Encodable shortListMessage := ⟨⟨by decide, by decide⟩, by decide, by decide⟩
    have htransport : Transportable pgnList shortListMessage := by decide
    have hls := map_frame_of (new.encodeNmea2000 shortListMessage).1.1
    have hback := h pgnListDefinitions new new shortListMessage pgnList _ hmsg defines_pgnList
      htransport rfl rfl (fun _ _ => rfl) hls
    have hsingle := (roundTrips_unsplit hmsg defines_pgnList htransport rfl (fun _ _ => rfl) rfl
      hls).mp hback
    exact absurd hsingle (by decide)
  · intro h
    obtain ⟨m, hm⟩ := init_waterTemperature
    exact not_readsAs_tagged ⟨false, false⟩ (by decide) hm
      (h _ (ascii ":1") waterTemperature m (by decide) hm)

end ShipModulInterface

end NavigationServer.Couplers
