/-
NavigationServer.Couplers.PdgyTheorems — the PDGY format, written once and read
by two decoders.

`pdgyCodec_iff` : when a written message is read back, and which received lines
the decoders agree on. `fromPGDY` takes destination 0 for all addresses, where
the decoder of the gateway takes it as it stands; it raises exceptions that the
loop of the client reader does not catch; and it has a second form with three
fields, which the other decoder refuses.

Each decoder has one lemma that gives its result from the fields (`decodePGDY_six`,
`decodeN2k_six`) and one for what it raises, and the comparison goes by the number of the
fields. Time stamps are left out: neither decoder looks at them.
-/
import NavigationServer.Couplers.IKonvertMsg
import NavigationServer.RouterCore.Nmea0183MsgTheorems

namespace NavigationServer.Couplers

open NavigationServer.Lib
open NavigationServer.RouterCore
open IKonvertMsg (rstripCrLf caughtByRead)

/-! ## 1. What the decoders have to do -/

/-- The header and the payload of a message. -/
def readOf (msg : NMEA2000Msg) : ReadMsg := ⟨msg.pgn, msg.prio, msg.sa, msg.da, msg.payload⟩

/-- Both decoders read the same message, or both refuse the frame with an
exception that their reader catches. -/
def DecodersAgree (frame : Bytes) : Prop :=
  (∃ msg, fromPGDY frame = .ok (some msg) ∧ IKonvertMsg.decode frame = .ok (.n2k msg)) ∨
  ∃ e e', fromPGDY frame = .error e ∧ caughtByIPReader e = true ∧
    IKonvertMsg.decode frame = .error e' ∧ caughtByRead e' = true

/-- Six fields, with four numbers and base 64 data, and a destination that is
not 0. -/
def ReceivedForm (frame : Bytes) : Prop :=
  ∃ body pgn prio sa da ts data, frame = ascii "!PDGY" ++ comma :: body ∧
    body.splitOn comma = [pgn, prio, sa, da, ts, data] ∧
    (intOfDecimal pgn).isSome = true ∧ (intOfDecimal prio).isSome = true ∧
    (intOfDecimal sa).isSome = true ∧ (∃ n, intOfDecimal da = some n ∧ n ≠ 0) ∧
    rstripCrLf data ≠ [] ∧ (b64decode data).isSome = true

/-- Another address, in a text that can be shown. -/
def OtherAddress (frame : Bytes) : Prop :=
  frame[5]? ≠ some comma ∧ comma ∈ frame ∧
    (String.fromUTF8? ⟨(trimmed frame).toArray⟩).isSome = true

/-! ## 2. The fields -/

/-- CR and LF are no base64 digits, so the decoder drops them. -/
theorem foreign_crLf {c : UInt8} (h : c = 13 ∨ c = 10) : Foreign c := by
  rcases h with rfl | rfl <;> exact ⟨by decide, by decide⟩

/-- CR LF at the end is passed over with the other foreign characters. -/
theorem b64decode_trimmed (text : Bytes) : b64decode (trimmed text) = b64decode text := by
  obtain ⟨tail, htail, hcrLf⟩ := trimmed_append_tail text
  have happend := b64decode_append (trimmed text) (fun c hc => foreign_crLf (hcrLf c hc))
  rw [← htail] at happend
  exact happend.symm

/-- It makes no difference where CR and LF are stripped. -/
theorem b64decode_rstripCrLf (text : Bytes) : b64decode (rstripCrLf text) = b64decode text := by
  have htail : ∀ c ∈ text.rtakeWhile (fun c => decide (c = 13 ∨ c = 10)), Foreign c := by
    intro c hc
    exact foreign_crLf (by simpa using List.mem_rtakeWhile_imp hc)
  have happend := b64decode_append (rstripCrLf text) htail
  rw [rstripCrLf, List.rdropWhile_append_rtakeWhile] at happend
  exact happend.symm

/-- CR LF belongs to the last field. -/
theorem splitOn_trimmed (body : Bytes) :
    ∃ front last, body.splitOn comma = front ++ [last] ∧
      (trimmed body).splitOn comma = front ++ [trimmed last] := by
  have htrimmed : ∀ text : Bytes, comma ∉ text → comma ∉ trimmed text := by
    intro text h hmem
    obtain ⟨tail, htail, -⟩ := trimmed_append_tail text
    exact h (htail ▸ List.mem_append_left _ hmem)
  by_cases hmem : comma ∈ body
  · obtain ⟨back, front, hback, hcomma⟩ := List.eq_append_cons_of_mem (List.mem_reverse.mpr hmem)
    obtain rfl : body = front.reverse ++ comma :: back.reverse := by
      rw [← List.reverse_reverse body, hback]
      simp
    have hlast : comma ∉ back.reverse := fun h => hcomma (List.mem_reverse.mp h)
    refine ⟨front.reverse.splitOn comma, back.reverse, ?_, ?_⟩
    · rw [List.splitOn_append_cons_self, List.splitOn_eq_singleton hlast]
    · rw [trimmed_append_cons _ (by decide) (by decide), List.splitOn_append_cons_self,
        List.splitOn_eq_singleton (htrimmed _ hlast)]
  · refine ⟨[], body, List.splitOn_eq_singleton hmem, ?_⟩
    exact List.splitOn_eq_singleton (htrimmed _ hmem)

/-! ## 3. The decoder of the sentences -/

/-- Six fields. -/
theorem decodePGDY_six {m : NMEA0183Msg} {pgn prio sa da ts data : Bytes}
    (h : m.fields = [pgn, prio, sa, da, ts, data]) (msg : ReadMsg) :
    decodePGDY m = .ok msg ↔
      intOfDecimal pgn = some msg.pgn ∧ intOfDecimal prio = some msg.prio ∧
        intOfDecimal sa = some msg.sa ∧
        (∃ n, intOfDecimal da = some n ∧ msg.da = if n = 0 then 255 else n) ∧
        b64decode data = some msg.payload := by
  have hpayload : ∀ payload, base64Payload data = .ok payload ↔ b64decode data = some payload := by
    intro payload
    unfold base64Payload
    cases b64decode data <;> simp
  unfold decodePGDY pdgyDestination
  rw [h]
  simp only [bind_eq_ok, int10_eq_ok, hpayload, pure, Except.pure, Except.ok.injEq]
  constructor
  · rintro ⟨_, ⟨n, hda, rfl⟩, p, hpgn, q, hprio, s, hsa, payload, hdata, rfl⟩
    exact ⟨hpgn, hprio, hsa, ⟨n, hda, rfl⟩, hdata⟩
  · rintro ⟨hpgn, hprio, hsa, ⟨n, hda, hmsg⟩, hdata⟩
    refine ⟨_, ⟨n, hda, rfl⟩, _, hpgn, _, hprio, _, hsa, _, hdata, ?_⟩
    rw [← hmsg]

/-- A text that is no base64 raises `binascii.Error`, which is a `ValueError`. -/
theorem base64Payload_error {text : Bytes} {e : Exn} (h : base64Payload text = .error e) :
    e = .valueError := by
  unfold base64Payload at h
  split at h
  · cases h
  · exact (Except.error.inj h).symm

/-- So does a destination that is no number. -/
theorem pdgyDestination_error {field : Bytes} {e : Exn} (h : pdgyDestination field = .error e) :
    e = .valueError := by
  rcases bind_eq_error.mp h with h | ⟨n, -, h⟩
  · exact int10_error h
  · cases h

/-- What the decoder raises is not caught. -/
theorem decodePGDY_error {m : NMEA0183Msg} {e : Exn} (h : decodePGDY m = .error e) :
    e = .valueError ∨ ∃ text, e = .n2kRawDecodeError text := by
  unfold decodePGDY at h
  split at h
  · rcases bind_eq_error.mp h with h | ⟨_, -, h⟩
    · exact .inl (pdgyDestination_error h)
    rcases bind_eq_error.mp h with h | ⟨_, -, h⟩
    · exact .inl (int10_error h)
    rcases bind_eq_error.mp h with h | ⟨_, -, h⟩
    · exact .inl (int10_error h)
    rcases bind_eq_error.mp h with h | ⟨_, -, h⟩
    · exact .inl (int10_error h)
    rcases bind_eq_error.mp h with h | ⟨_, -, h⟩
    · exact .inl (base64Payload_error h)
    · cases h
  · rcases bind_eq_error.mp h with h | ⟨_, -, h⟩
    · exact .inl (pdgyDestination_error h)
    split at h
    · exact .inr ⟨_, (Except.error.inj h).symm⟩
    · rcases bind_eq_error.mp h with h | ⟨_, -, h⟩
      · exact .inl (int10_error h)
      · cases h
  · exact .inr ⟨_, (Except.error.inj h).symm⟩

/-- And a sentence that is no text. -/
theorem str_error {m : NMEA0183Msg} {e : Exn} (h : m.str = .error e) : e = .valueError := by
  unfold NMEA0183Msg.str at h
  split at h
  · cases h
  · exact (Except.error.inj h).symm

/-- A PDGY frame goes to the decoder of its fields. -/
theorem fromPGDY_eq (body : Bytes) :
    ∃ m, m.fields = (trimmed body).splitOn comma ∧
      (∀ msg, fromPGDY (ascii "!PDGY" ++ comma :: body) = .ok (some msg) ↔ decodePGDY m = .ok msg) ∧
      ∀ e, fromPGDY (ascii "!PDGY" ++ comma :: body) = .error e → caughtByIPReader e = false := by
  have htrimmed : trimmed (ascii "!PDGY" ++ comma :: body)
      = 33 :: ascii "PDGY" ++ comma :: trimmed body := by
    rw [trimmed_append_cons _ (by decide) (by decide)]
    rfl
  obtain ⟨m, hinit, hhead, haddress, hfields, -⟩ := init_unchecked (by decide) (by decide) htrimmed
  have hdelimiter : m.delimiter = 33 := (Option.some.inj hhead).symm
  have hprocess : processNmea0183Frame (ascii "!PDGY" ++ comma :: body) false = .ok (some m) := by
    rw [process_of_mem rfl (show (33 : UInt8) ∈ ascii "$!" by decide), hinit]
    rfl
  have hnot : ¬ (m.address ≠ ascii "PDGY" ∨ m.delimiter ≠ 33) := by simp [haddress, hdelimiter]
  -- the three ways in which the decoder of the fields ends
  have hok : ∀ rmsg, decodePGDY m = .ok rmsg →
      fromPGDY (ascii "!PDGY" ++ comma :: body) = .ok (some rmsg) := by
    intro rmsg h
    simp only [fromPGDY, hprocess, bind, Except.bind, if_neg hnot, h, pure, Except.pure]
  have hraw : ∀ text, decodePGDY m = .error (.n2kRawDecodeError text) →
      fromPGDY (ascii "!PDGY" ++ comma :: body)
        = m.str >>= fun _ => .error (.n2kRawDecodeError text) := by
    intro text h
    simp only [fromPGDY, hprocess, bind, Except.bind, if_neg hnot, h, throw, throwThe,
      MonadExceptOf.throw]
  have hother : decodePGDY m = .error .valueError →
      fromPGDY (ascii "!PDGY" ++ comma :: body) = .error .valueError := by
    intro h
    simp only [fromPGDY, hprocess, bind, Except.bind, if_neg hnot, h, throw, throwThe,
      MonadExceptOf.throw]
  refine ⟨m, hfields, ?_, ?_⟩
  · intro msg
    cases hdecode : decodePGDY m with
    | ok rmsg =>
      rw [hok rmsg hdecode]
      simp only [Except.ok.injEq, Option.some.injEq]
    | error e =>
      refine iff_of_false ?_ (by simp)
      rcases decodePGDY_error hdecode with rfl | ⟨text, rfl⟩
      · rw [hother hdecode]
        exact fun h => by cases h
      · rw [hraw text hdecode]
        intro h
        obtain ⟨_, -, h⟩ := bind_eq_ok.mp h
        cases h
  · intro e h
    cases hdecode : decodePGDY m with
    | ok rmsg =>
      rw [hok rmsg hdecode] at h
      cases h
    | error e' =>
      rcases decodePGDY_error hdecode with rfl | ⟨text, rfl⟩
      · rw [hother hdecode] at h
        rw [← Except.error.inj h]
        rfl
      · rw [hraw text hdecode] at h
        rcases bind_eq_error.mp h with h | ⟨_, -, h⟩
        · rw [str_error h]
          rfl
        · rw [← Except.error.inj h]
          rfl

/-- The two forms have six fields and three. -/
theorem decodePGDY_length {m : NMEA0183Msg} {msg : ReadMsg} (h : decodePGDY m = .ok msg) :
    m.fields.length = 6 ∨ m.fields.length = 3 := by
  unfold decodePGDY at h
  split at h
  · rename_i hfields
    exact .inl (by rw [hfields]; rfl)
  · rename_i hfields
    exact .inr (by rw [hfields]; rfl)
  · cases h

/-! ## 4. The decoder of the gateway -/

/-- The gateway has the long form only. -/
theorem decodeN2k_length {head : Bytes} {fields : List Bytes} {msg : IKonvertMsg}
    (h : IKonvertMsg.decodeN2k (head :: fields) = .ok msg) : 6 ≤ fields.length := by
  obtain ⟨data, hdata, -⟩ := bind_eq_ok.mp h
  by_contra hshort
  have hnone : (head :: fields)[6]? = none := by
    rw [List.getElem?_eq_none_iff, List.length_cons]
    omega
  rw [item, hnone] at hdata
  cases hdata

/-- With six fields every one of them has to be what it stands for. -/
theorem decodeN2k_six {head pgn prio sa da ts data : Bytes} (msg : ReadMsg) :
    IKonvertMsg.decodeN2k [head, pgn, prio, sa, da, ts, data] = .ok (.n2k msg) ↔
      rstripCrLf data ≠ [] ∧ intOfDecimal pgn = some msg.pgn ∧
        intOfDecimal prio = some msg.prio ∧ intOfDecimal sa = some msg.sa ∧
        intOfDecimal da = some msg.da ∧ b64decode data = some msg.payload := by
  have hpayload : ∀ payload, base64Payload (rstripCrLf data) = .ok payload ↔
      b64decode data = some payload := by
    intro payload
    unfold base64Payload
    rw [b64decode_rstripCrLf]
    cases b64decode data <;> simp
  unfold IKonvertMsg.decodeN2k
  simp only [item, List.getElem?_cons_succ, List.getElem?_cons_zero]
  rcases eq_or_ne (rstripCrLf data) [] with hnil | hne
  · simp only [bind, Except.bind, hnil, List.length_nil, if_true]
    refine iff_of_false (fun h => by cases h) (fun h => h.1 rfl)
  · simp only [bind, Except.bind]
    rw [if_neg (by simpa using hne)]
    constructor
    · intro h
      obtain ⟨p, hpgn, h⟩ := bind_eq_ok.mp h
      obtain ⟨q, hprio, h⟩ := bind_eq_ok.mp h
      obtain ⟨s, hsa, h⟩ := bind_eq_ok.mp h
      obtain ⟨d, hda, h⟩ := bind_eq_ok.mp h
      obtain ⟨payload, hdata, h⟩ := bind_eq_ok.mp h
      obtain rfl := IKonvertMsg.n2k.inj (Except.ok.inj h)
      exact ⟨hne, int10_eq_ok.mp hpgn, int10_eq_ok.mp hprio, int10_eq_ok.mp hsa,
        int10_eq_ok.mp hda, (hpayload _).mp hdata⟩
    · rintro ⟨-, hpgn, hprio, hsa, hda, hdata⟩
      rw [int10_eq_ok.mpr hpgn, int10_eq_ok.mpr hprio, int10_eq_ok.mpr hsa, int10_eq_ok.mpr hda,
        (hpayload _).mpr hdata]
      rfl

/-- A line with the address PDGY is a message of the bus. -/
theorem decode_eq (body : Bytes) :
    IKonvertMsg.decode (ascii "!PDGY" ++ comma :: body)
      = if body.length < 2 then .error .valueError
        else IKonvertMsg.decodeN2k (ascii "!PDGY" :: body.splitOn comma) := by
  have hsplit : (ascii "!PDGY" ++ comma :: body).splitOn comma
      = ascii "!PDGY" :: body.splitOn comma :=
    List.splitOn_append_cons_self_of_not_mem (by decide) body
  have hlen : (ascii "!PDGY" ++ comma :: body).length = body.length + 6 := by
    rw [List.length_append, List.length_cons, show (ascii "!PDGY").length = 5 from rfl]
    omega
  have hfields : ¬ (ascii "!PDGY" :: body.splitOn comma).length < 2 := by
    have := List.length_pos_of_ne_nil (List.splitOn_ne_nil comma body)
    rw [List.length_cons]
    omega
  unfold IKonvertMsg.decode
  simp only [hsplit, if_neg hfields, hlen]
  by_cases hshort : body.length < 2
  · rw [if_pos (by omega), if_pos hshort]
  · rw [if_neg (by omega), if_neg hshort]
    rfl

/-! ## 5. The two decoders on one frame -/

/-- A line of the received form is read alike by both. -/
theorem decodersAgree_of_received {frame : Bytes} (h : ReceivedForm frame) :
    DecodersAgree frame := by
  obtain ⟨body, pgn, prio, sa, da, ts, data, rfl, hsplit, hpgn, hprio, hsa, ⟨d, hda, hzero⟩,
    hne, hdata⟩ := h
  obtain ⟨p, hp⟩ := Option.isSome_iff_exists.mp hpgn
  obtain ⟨q, hq⟩ := Option.isSome_iff_exists.mp hprio
  obtain ⟨s, hs⟩ := Option.isSome_iff_exists.mp hsa
  obtain ⟨payload, hpayload⟩ := Option.isSome_iff_exists.mp hdata
  obtain ⟨front, last, hfront, htrimmed⟩ := splitOn_trimmed body
  rw [hsplit] at hfront
  obtain ⟨rfl, rfl⟩ : front = [pgn, prio, sa, da, ts] ∧ last = data := by
    have hcut := List.append_inj' (show [pgn, prio, sa, da, ts] ++ [data] = front ++ [last] from hfront) rfl
    exact ⟨hcut.1.symm, (List.cons.inj hcut.2).1.symm⟩
  obtain ⟨m, hfields, hok, -⟩ := fromPGDY_eq body
  have hlong : ¬ body.length < 2 := by
    have hbody : [comma].intercalate [pgn, prio, sa, da, ts, last] = body := by
      rw [← hsplit, List.intercalate_splitOn]
    rw [← hbody]
    simp only [List.intercalate_cons_cons, List.length_append, List.length_singleton]
    omega
  refine .inl ⟨⟨p, q, s, d, payload⟩, ?_, ?_⟩
  · rw [hok, decodePGDY_six (hfields.trans htrimmed)]
    exact ⟨hp, hq, hs, ⟨d, hda, (if_neg hzero).symm⟩, by rw [b64decode_trimmed]; exact hpayload⟩
  · rw [decode_eq, if_neg hlong, hsplit, decodeN2k_six]
    exact ⟨hne, hp, hq, hs, hda, hpayload⟩

/-- With the address PDGY the decoders agree on messages only. -/
theorem decodersAgree_pdgy (body : Bytes) :
    DecodersAgree (ascii "!PDGY" ++ comma :: body) ↔
      ReceivedForm (ascii "!PDGY" ++ comma :: body) := by
  constructor
  · rintro (⟨msg, hpdgy, hgateway⟩ | ⟨e, e', hpdgy, hcaught, -⟩)
    · obtain ⟨m, hfields, hok, -⟩ := fromPGDY_eq body
      obtain ⟨front, last, hsplit, htrimmed⟩ := splitOn_trimmed body
      have hdecode := (hok msg).mp hpdgy
      rw [decode_eq] at hgateway
      split at hgateway
      · cases hgateway
      · have hmany := decodeN2k_length hgateway
        have hfew := decodePGDY_length hdecode
        rw [hfields, htrimmed, List.length_append, List.length_singleton] at hfew
        rw [hsplit, List.length_append, List.length_singleton] at hmany
        obtain ⟨pgn, prio, sa, da, ts, rfl⟩ : ∃ a b c d e, front = [a, b, c, d, e] := by
          match front, show front.length = 5 by omega with
          | [a, b, c, d, e], _ => exact ⟨a, b, c, d, e, rfl⟩
        obtain ⟨hpgn, hprio, hsa, ⟨n, hda, hmsg⟩, hdata⟩ :=
          (decodePGDY_six (hfields.trans htrimmed) msg).mp hdecode
        rw [hsplit] at hgateway
        obtain ⟨hne, -, -, -, hda', hdata'⟩ := (decodeN2k_six msg).mp hgateway
        have hn : n = msg.da := Option.some.inj (hda.symm.trans hda')
        have hzero : n ≠ 0 := by
          rintro rfl
          rw [if_pos rfl, ← hn] at hmsg
          exact absurd hmsg (by decide)
        exact ⟨body, pgn, prio, sa, da, ts, last, rfl, hsplit, by simp [hpgn], by simp [hprio],
          by simp [hsa], ⟨n, hda, hzero⟩, hne, by simp [hdata']⟩
    · obtain ⟨-, -, -, herror⟩ := fromPGDY_eq body
      rw [herror e hpdgy] at hcaught
      cases hcaught
  · exact decodersAgree_of_received

/-- The address goes on in front of a first comma. -/
theorem exists_longer_address {rest : Bytes} (hhead : rest.head? ≠ some comma)
    (hmem : comma ∈ rest) :
    ∃ c front back, rest = c :: front ++ comma :: back ∧ comma ∉ c :: front := by
  obtain ⟨front, back, rfl, hcomma⟩ := List.eq_append_cons_of_mem hmem
  cases front with
  | nil => exact absurd rfl hhead
  | cons c front => exact ⟨c, front, back, rfl, hcomma⟩

/-- With another address the gateway refuses the line. -/
theorem decode_other {rest : Bytes} (h : rest.head? ≠ some comma) :
    IKonvertMsg.decode (ascii "!PDGY" ++ rest) = .error .valueError := by
  unfold IKonvertMsg.decode
  split
  · rfl
  · by_cases hmem : comma ∈ rest
    · obtain ⟨c, front, back, rfl, hcomma⟩ := exists_longer_address h hmem
      have hsplit : (ascii "!PDGY" ++ (c :: front ++ comma :: back)).splitOn comma
          = (ascii "!PDGY" ++ c :: front) :: back.splitOn comma := by
        rw [← List.append_assoc]
        refine List.splitOn_append_cons_self_of_not_mem ?_ back
        exact fun hc => (List.mem_append.mp hc).elim (by decide) hcomma
      have hslice : slice (ascii "!PDGY" ++ c :: front) 0 6 = ascii "!PDGY" ++ [c] := by
        rw [show (6 : Int) = ((6 : Nat) : Int) from rfl, slice_zero]
        rfl
      have hlonger : ∀ text : Bytes, text.length = 5 → ascii "!PDGY" ++ [c] ≠ text := by
        rintro text hlen rfl
        cases hlen
      simp only [hsplit]
      split
      · rfl
      · simp only [item, List.getElem?_cons_zero, bind, Except.bind, hslice]
        rw [if_neg (hlonger _ rfl), if_neg (hlonger _ rfl)]
        rfl
    · have hsplit : (ascii "!PDGY" ++ rest).splitOn comma = [ascii "!PDGY" ++ rest] :=
        List.splitOn_eq_singleton (fun hc => (List.mem_append.mp hc).elim (by decide) hmem)
      simp only [hsplit]
      rfl

/-- With another address `fromPGDY` refuses the frame, as invalid where there is
a comma and the text can be shown. -/
theorem fromPGDY_other {rest : Bytes} (h : rest.head? ≠ some comma) :
    ∃ e, fromPGDY (ascii "!PDGY" ++ rest) = .error e ∧
      (caughtByIPReader e = true ↔ OtherAddress (ascii "!PDGY" ++ rest)) := by
  have hprocess : processNmea0183Frame (ascii "!PDGY" ++ rest) false
      = (NMEA0183Msg.init (ascii "!PDGY" ++ rest) false).map some :=
    process_of_mem rfl (show (33 : UInt8) ∈ ascii "$!" by decide)
  by_cases hmem : comma ∈ rest
  · obtain ⟨c, front, back, hrest, hcomma⟩ := exists_longer_address h hmem
    have htrimmed : trimmed (ascii "!PDGY" ++ rest)
        = 33 :: (ascii "PDGY" ++ c :: front) ++ comma :: trimmed back := by
      rw [hrest, ← List.append_assoc, trimmed_append_cons _ (by decide) (by decide)]
      rfl
    have haddress : comma ∉ 33 :: (ascii "PDGY" ++ c :: front) := by
      intro hc
      rcases List.mem_cons.mp hc with hc | hc
      · exact absurd hc (by decide)
      · exact (List.mem_append.mp hc).elim (by decide) hcomma
    obtain ⟨m, hinit, -, hm, -, hraw⟩ := init_unchecked (by simp [ascii]) haddress htrimmed
    have hother : m.address ≠ ascii "PDGY" := by
      intro heq
      have hlen := congrArg List.length (hm.symm.trans heq)
      simp [ascii] at hlen
    have hstr : m.str.isOk = true ↔
        (String.fromUTF8? ⟨(trimmed (ascii "!PDGY" ++ rest)).toArray⟩).isSome = true := by
      rw [NMEA0183Msg.str, hraw]
      cases String.fromUTF8? ⟨(trimmed (ascii "!PDGY" ++ rest)).toArray⟩ <;> simp [Except.isOk, Except.toBool]
    have heq : fromPGDY (ascii "!PDGY" ++ rest) = (m.str >>= fun _ => throw .nmeaInvalidFrame) := by
      unfold fromPGDY
      rw [hprocess, hinit]
      simp only [Except.map, bind, Except.bind]
      rw [if_pos (.inl hother)]
    have hshown : OtherAddress (ascii "!PDGY" ++ rest) ↔ m.str.isOk = true := by
      rw [hstr]
      refine ⟨fun ho => ho.2.2, fun ho => ⟨?_, List.mem_append_right _ hmem, ho⟩⟩
      rw [hrest]
      intro hfifth
      exact hcomma (by rw [Option.some.inj hfifth]; exact List.mem_cons_self)
    rw [heq, hshown]
    cases hs : m.str with
    | ok text => exact ⟨_, rfl, iff_of_true rfl rfl⟩
    | error e =>
      rw [str_error hs]
      exact ⟨_, rfl, iff_of_false (by decide) (by decide)⟩
  · have hnone : comma ∉ ascii "!PDGY" ++ rest :=
      fun hc => (List.mem_append.mp hc).elim (by decide) hmem
    refine ⟨.valueError, ?_, iff_of_false (by decide) (fun ho => hnone ho.2.1)⟩
    unfold fromPGDY
    rw [hprocess, init_without_comma (by simp [ascii]) hnone]
    rfl

/-- **No other line is**, but for those with another address. -/
theorem decodersAgree_iff {frame : Bytes} (h : ascii "!PDGY" <+: frame) :
    DecodersAgree frame ↔ ReceivedForm frame ∨ OtherAddress frame := by
  obtain ⟨rest, rfl⟩ := h
  by_cases hcomma : rest.head? = some comma
  · obtain ⟨body, rfl⟩ := List.head?_eq_some_iff.mp hcomma
    rw [decodersAgree_pdgy, or_iff_left]
    rintro ⟨hfifth, -⟩
    exact hfifth rfl
  · obtain ⟨e, hpdgy, hcaught⟩ := fromPGDY_other hcomma
    have hgateway := decode_other hcomma
    have hreceived : ¬ ReceivedForm (ascii "!PDGY" ++ rest) := by
      rintro ⟨body, -, -, -, -, -, -, hframe, -⟩
      rw [List.append_cancel_left hframe] at hcomma
      exact hcomma rfl
    rw [or_iff_right hreceived, ← hcaught]
    constructor
    · rintro (⟨msg, hok, -⟩ | ⟨e', -, he', hcaught', -⟩)
      · rw [hpdgy] at hok
        cases hok
      · rw [hpdgy] at he'
        rw [Except.error.inj he']
        exact hcaught'
    · intro hc
      exact .inr ⟨e, .valueError, hpdgy, hc, hgateway, rfl⟩

/-! ## 6. A message that is written -/

/-- A number has no comma, so the fields are found again. -/
theorem comma_notMem_decimal (n : Nat) : comma ∉ decimal n :=
  fun h => absurd (isDigit_of_mem_decimal h) (by decide)

/-- Nor has one with a sign. -/
theorem comma_notMem_formatInt (n : Int) : comma ∉ formatInt n := by
  unfold formatInt
  split
  · intro h
    rcases List.mem_cons.mp h with h | h
    · exact absurd h (by decide)
    · exact comma_notMem_decimal _ h
  · exact comma_notMem_decimal _

/-- The written text is what the reader has behind its trimming. -/
theorem trimmed_append_crLf (text : Bytes) : trimmed (text ++ crLf) = text := by
  unfold trimmed
  rw [if_pos (List.suffix_append text crLf), List.length_append, show crLf.length = 2 from rfl,
    Nat.add_sub_cancel, List.take_left]

/-- A written message is read back unless it is for destination 0. -/
theorem fromPGDY_asPDGY (msg : NMEA2000Msg) (ts : Time) :
    fromPGDY (asPDGY msg ts) = .ok (some (readOf msg)) ↔ msg.da ≠ 0 := by
  obtain ⟨fields, hfields⟩ : ∃ fields, fields = [decimal msg.pgn, decimal msg.prio,
    decimal msg.sa, decimal msg.da, formatInt (ts.num.tdiv ts.den), b64encode msg.payload] :=
    ⟨_, rfl⟩
  have hframe : asPDGY msg ts
      = ascii "!PDGY" ++ comma :: ([comma].intercalate fields ++ crLf) := by
    rw [hfields, asPDGY, List.append_assoc, List.cons_append]
  have hparts : ∀ f ∈ fields, comma ∉ f := by
    intro f hf
    simp only [hfields, List.mem_cons, List.not_mem_nil, or_false] at hf
    rcases hf with rfl | rfl | rfl | rfl | rfl | rfl
    · exact comma_notMem_decimal _
    · exact comma_notMem_decimal _
    · exact comma_notMem_decimal _
    · exact comma_notMem_decimal _
    · exact comma_notMem_formatInt _
    · exact foreign_notMem_b64encode ⟨by decide, by decide⟩ _
  obtain ⟨m, hm, hok, -⟩ := fromPGDY_eq ([comma].intercalate fields ++ crLf)
  rw [trimmed_append_crLf, List.splitOn_intercalate comma hparts (by simp [hfields]), hfields] at hm
  rw [hframe, hok, decodePGDY_six hm]
  simp only [readOf, intOfDecimal_decimal, b64decode_b64encode, true_and, and_true]
  constructor
  · rintro ⟨n, hn, hda⟩ hzero
    rw [hzero] at hn hda
    rw [← Option.some.inj hn] at hda
    exact absurd hda (by decide)
  · intro hne
    exact ⟨msg.da, rfl, (if_neg (by simpa using hne)).symm⟩

/-! ## 7. The format -/

/-- **The PDGY format**, from `asPDGY` to `fromPGDY`, and a received frame at
both decoders. -/
theorem pdgyCodec_iff (msg : NMEA2000Msg) (ts : Time) (frame : Bytes) :
    (fromPGDY (asPDGY msg ts) = .ok (some (readOf msg)) ↔ msg.da ≠ 0) ∧
    (ascii "!PDGY" <+: frame →
      (DecodersAgree frame ↔ ReceivedForm frame ∨ OtherAddress frame)) := by
  constructor
  · exact fromPGDY_asPDGY msg ts
  · intro h
    exact decodersAgree_iff h

/-- A heading for all addresses. -/
def headingFrame : Bytes := ascii "!PDGY,127250,2,3,255,0,AQID"

/-- The decoders agree on it. -/
theorem pdgyCodec_heading :
    fromPGDY (asPDGY (.of 127250 2 3 255 [1, 2, 3]) 0) = .ok (some ⟨127250, 2, 3, 255, [1, 2, 3]⟩) ∧
    DecodersAgree headingFrame := by
  obtain ⟨hmessage, hframe⟩ := pdgyCodec_iff (.of 127250 2 3 255 [1, 2, 3]) 0 headingFrame
  constructor
  · exact hmessage.mpr (by decide)
  · refine (hframe ⟨ascii ",127250,2,3,255,0,AQID", by decide⟩).mpr (.inl ?_)
    exact ⟨ascii "127250,2,3,255,0,AQID", ascii "127250", ascii "2", ascii "3", ascii "255",
      ascii "0", ascii "AQID", by decide, by decide, by decide, by decide, by decide,
      ⟨255, by decide, by decide⟩, by decide, by decide⟩

/-- A message for destination 0 comes back for all addresses, and a frame of
three fields is a message to one decoder only. -/
theorem not_pdgyCodec_zero :
    (¬ ∀ (msg : NMEA2000Msg) (ts : Time), msg.prio < 8 → msg.sa < 256 → msg.da < 256 →
      msg.payload ≠ [] → fromPGDY (asPDGY msg ts) = .ok (some (readOf msg))) ∧
    ¬ ∀ frame, ascii "!PDGY" <+: frame → DecodersAgree frame := by
  constructor
  · intro h
    have hback := h (.of 127250 2 3 0 [1, 2, 3]) 0 (by decide) (by decide) (by decide) (by decide)
    exact (fromPGDY_asPDGY _ _).mp hback rfl
  · intro h
    have hagree := h (ascii "!PDGY,127250,255,AQID") ⟨ascii ",127250,255,AQID", by decide⟩
    rcases (decodersAgree_iff ⟨ascii ",127250,255,AQID", by decide⟩).mp hagree with hform | hother
    · obtain ⟨body, pgn, prio, sa, da, ts, data, hframe, hsplit, -⟩ := hform
      have hbody : body = ascii "127250,255,AQID" := by
        rw [show ascii "!PDGY,127250,255,AQID"
          = ascii "!PDGY" ++ comma :: ascii "127250,255,AQID" by decide] at hframe
        exact (List.cons.inj (List.append_cancel_left hframe)).2.symm
      have hcount := congrArg List.length hsplit
      rw [hbody, show (ascii "127250,255,AQID").splitOn comma
        = [ascii "127250", ascii "255", ascii "AQID"] by decide] at hcount
      cases hcount
    · exact hother.1 (by decide)

end NavigationServer.Couplers
