/-
NavigationServer.RouterCore.ClientPublisherTheorems — what a coupler gets over a
connection in DY format.

`dyLink_delivers` : whatever the order in which publisher, reader and sender take
their steps and wherever the stream is cut, as long as no buffer ends between CR
and LF of a frame that began in an earlier one, the reader hands over the frames that
were sent, in their order and each of them once, and no frame that has not arrived.
It puts their messages, but for those for which its queue was full, and the sender
has handed the first of these to its coupler. A stop of the sender may keep it from
frames that have arrived; while it is `UpToDate` it has missed none. A message for
destination 0 is read for all addresses. Sentences of NMEA0183 between the messages
are passed over.

A frame is taken through `asPDGY` and `fromPGDY` (section 2). The thread of the reader
is followed step by step on its way to the state in which the loop of `IPReader` leaves
the buffers (`ReadsOn`), and how that loop stands in the stream is known (`Reached`). A
run keeps both, and what the sender has taken (`LinkInv`).
-/
import NavigationServer.Couplers.PdgyTheorems
import NavigationServer.RouterCore.AsynchReaderTheorems
import NavigationServer.RouterCore.ClientPublisher
import NavigationServer.RouterCore.IPReaderTheorems

namespace NavigationServer.RouterCore

open NavigationServer.Lib
open NavigationServer.Couplers (comma_notMem_decimal comma_notMem_formatInt decodePGDY_six
  fromPGDY_eq trimmed_append_crLf)

/-! ## 1. What is read of a message -/

/-- What `fromPGDY` makes of a message that was written. -/
def PublishedMsg.readBack : PublishedMsg → Option ReadMsg
  | .n2k msg _ => some ⟨msg.pgn, msg.prio, msg.sa, if msg.da = 0 then 255 else msg.da, msg.payload⟩
  | .other _ => none

/-- The frame that goes out, without CR LF. -/
def PublishedMsg.frame (msg : PublishedMsg) : Bytes := trimmed (msg.data.getD [])

/-- A sentence of NMEA0183 that is not a PDGY sentence, in a text that can be
shown. -/
def OtherSentence (raw : Bytes) : Prop :=
  ∃ delimiter address rest text, raw = text ++ crLf ∧ text = delimiter :: address ++ comma :: rest ∧
    delimiter ∈ ascii "$!" ∧ address ≠ [] ∧ comma ∉ address ∧
    (address ≠ ascii "PDGY" ∨ delimiter ≠ 33) ∧ (∀ b ∈ text, b ∉ separator) ∧
    (String.fromUTF8? ⟨text.toArray⟩).isSome = true

/-- A message of NMEA2000, or a sentence. -/
def PublishedMsg.Sendable : PublishedMsg → Prop
  | .n2k _ _ => True
  | .other raw => ∃ data, raw = some data ∧ OtherSentence data

/-- The answers that are there, but for those that are marked in `full`. -/
def kept {M : Type*} (full : List Bool) (rs : List (Option M)) : List M :=
  (rs.zip full).filterMap fun r => if r.2 then none else r.1

/-- Answers without a mark are left out. -/
theorem kept_append_left {M : Type*} {full : List Bool} {rs ts : List (Option M)}
    (h : full.length = rs.length) : kept full (rs ++ ts) = kept full rs := by
  have hzip := @List.zip_append _ _ rs ts full [] h.symm
  rw [List.append_nil, List.zip_nil_right, List.append_nil] at hzip
  rw [kept, hzip, kept]

/-- One more answer, with its mark. -/
theorem kept_concat {M : Type*} {full : List Bool} {rs : List (Option M)}
    (h : full.length = rs.length) (lost : Bool) (r : Option M) :
    kept (full ++ [lost]) (rs ++ [r]) = kept full rs ++ (if lost then none else r).toList := by
  rw [kept, List.zip_append h.symm, List.filterMap_append, kept]
  cases lost <;> cases r <;> rfl

/-! ## 2. One frame -/

/-- A byte that is neither CR nor LF is no separator. -/
theorem notMem_separator {b : UInt8} (hcr : b ≠ 13) (hlf : b ≠ 10) : b ∉ separator := by
  intro h
  rcases List.mem_pair.mp h with h | h
  · exact hcr h
  · exact hlf h

/-- So no digit of a number is one, -/
theorem ne_of_mem_decimal {b : UInt8} {n : Nat} (h : b ∈ decimal n) : b ∉ separator := by
  refine notMem_separator ?_ ?_
  all_goals
    rintro rfl
    exact absurd (isDigit_of_mem_decimal h) (by decide)

/-- nor a sign, -/
theorem ne_of_mem_formatInt {b : UInt8} {n : Int} (h : b ∈ formatInt n) : b ∉ separator := by
  unfold formatInt at h
  split at h
  · rcases List.mem_cons.mp h with rfl | h
    · decide
    · exact ne_of_mem_decimal h
  · exact ne_of_mem_decimal h

/-- nor a character of base64. -/
theorem ne_of_mem_b64encode {b : UInt8} {payload : Bytes} (h : b ∈ b64encode payload) :
    b ∉ separator := by
  refine notMem_separator ?_ ?_
  all_goals
    rintro rfl
    exact foreign_notMem_b64encode ⟨by decide, by decide⟩ payload h

/-- Nothing is trimmed off a text without CR and LF. -/
theorem trimmed_of_notMem {text : Bytes} (h : ∀ b ∈ text, b ∉ separator) : trimmed text = text := by
  unfold trimmed
  rw [if_neg]
  rintro ⟨front, rfl⟩
  exact h 13 (List.mem_append_right _ (by decide)) (by decide)

/-- The fields of a sentence with its address. -/
def pdgyFields (msg : NMEA2000Msg) (ts : Time) : List Bytes :=
  [decimal msg.pgn, decimal msg.prio, decimal msg.sa, decimal msg.da,
    formatInt (ts.num.tdiv ts.den), b64encode msg.payload]

/-- The fields have no comma. -/
theorem comma_notMem_pdgyFields {msg : NMEA2000Msg} {ts : Time} {f : Bytes}
    (h : f ∈ pdgyFields msg ts) : comma ∉ f := by
  simp only [pdgyFields, List.mem_cons, List.not_mem_nil, or_false] at h
  rcases h with rfl | rfl | rfl | rfl | rfl | rfl
  · exact comma_notMem_decimal _
  · exact comma_notMem_decimal _
  · exact comma_notMem_decimal _
  · exact comma_notMem_decimal _
  · exact comma_notMem_formatInt _
  · exact foreign_notMem_b64encode ⟨by decide, by decide⟩ _

/-- A byte of the joined fields is a comma or one of a field. -/
theorem mem_intercalate_comma {fields : List Bytes} {b : UInt8}
    (h : b ∈ [comma].intercalate fields) : b = comma ∨ ∃ f ∈ fields, b ∈ f := by
  induction fields with
  | nil => exact absurd h List.not_mem_nil
  | cons f fields ih =>
    cases fields with
    | nil => exact Or.inr ⟨f, List.mem_singleton_self f, by rwa [List.intercalate_singleton] at h⟩
    | cons g fields =>
      rw [List.intercalate_cons_cons, List.append_assoc] at h
      rcases List.mem_append.mp h with h | h
      · exact Or.inr ⟨f, List.mem_cons_self, h⟩
      · rcases List.mem_append.mp h with h | h
        · exact Or.inl (List.mem_singleton.mp h)
        · rcases ih h with h | ⟨f', hf', h⟩
          · exact Or.inl h
          · exact Or.inr ⟨f', List.mem_cons_of_mem _ hf', h⟩

/-- The frame of a message is its fields with commas between them. -/
theorem frame_n2k (msg : NMEA2000Msg) (ts : Time) :
    (PublishedMsg.n2k msg ts).frame
      = ascii "!PDGY" ++ comma :: [comma].intercalate (pdgyFields msg ts) :=
  trimmed_append_crLf _

/-- It is one line. -/
theorem notMem_separator_frame_n2k {msg : NMEA2000Msg} {ts : Time} {b : UInt8}
    (h : b ∈ (PublishedMsg.n2k msg ts).frame) : b ∉ separator := by
  have haddress : ∀ b ∈ ascii "!PDGY", b ∉ separator := by decide +kernel
  rw [frame_n2k] at h
  rcases List.mem_append.mp h with h | h
  · exact haddress b h
  · rcases List.mem_cons.mp h with rfl | h
    · decide
    · rcases mem_intercalate_comma h with rfl | ⟨f, hf, h⟩
      · decide
      · simp only [pdgyFields, List.mem_cons, List.not_mem_nil, or_false] at hf
        rcases hf with rfl | rfl | rfl | rfl | rfl | rfl
        · exact ne_of_mem_decimal h
        · exact ne_of_mem_decimal h
        · exact ne_of_mem_decimal h
        · exact ne_of_mem_decimal h
        · exact ne_of_mem_formatInt h
        · exact ne_of_mem_b64encode h

/-- A written message is read. -/
theorem fromPGDY_frame_n2k (msg : NMEA2000Msg) (ts : Time) :
    fromPGDY (PublishedMsg.n2k msg ts).frame = .ok (PublishedMsg.n2k msg ts).readBack := by
  obtain ⟨m, hm, hok, -⟩ := fromPGDY_eq ([comma].intercalate (pdgyFields msg ts))
  have htrimmed : trimmed ([comma].intercalate (pdgyFields msg ts))
      = [comma].intercalate (pdgyFields msg ts) := by
    refine trimmed_of_notMem fun b hb => @notMem_separator_frame_n2k msg ts b ?_
    rw [frame_n2k]
    exact List.mem_append_right _ (List.mem_cons_of_mem _ hb)
  rw [htrimmed, List.splitOn_intercalate comma (fun f hf => comma_notMem_pdgyFields hf)
    (by simp [pdgyFields])] at hm
  rw [frame_n2k, PublishedMsg.readBack, hok, decodePGDY_six hm]
  simp only [intOfDecimal_decimal, b64decode_b64encode, true_and, and_true]
  refine ⟨msg.da, rfl, ?_⟩
  split_ifs with h h' h'
  · rfl
  · exact absurd (by exact_mod_cast h) h'
  · exact absurd (by exact_mod_cast h') h
  · rfl

/-- A sentence is refused. -/
theorem fromPGDY_sentence {delimiter : UInt8} {address rest text : Bytes}
    (htext : text = delimiter :: address ++ comma :: rest) (hdelimiter : delimiter ∈ ascii "$!")
    (hne : address ≠ []) (hcomma : comma ∉ address)
    (hother : address ≠ ascii "PDGY" ∨ delimiter ≠ 33)
    (hclean : ∀ b ∈ text, b ∉ separator)
    (hshown : (String.fromUTF8? ⟨text.toArray⟩).isSome = true) :
    fromPGDY text = .error .nmeaInvalidFrame := by
  have htrimmed := trimmed_of_notMem hclean
  have hfront : comma ∉ delimiter :: address := by
    intro h
    rcases List.mem_cons.mp h with rfl | h
    · exact absurd hdelimiter (by decide)
    · exact hcomma h
  obtain ⟨m, hinit, hhead, haddress, -, hraw⟩ := init_unchecked hne hfront (htrimmed.trans htext)
  have hprocess : processNmea0183Frame text false = .ok (some m) := by
    rw [process_of_mem (by rw [htext]; rfl) hdelimiter, hinit]
    rfl
  have hm : m.address ≠ ascii "PDGY" ∨ m.delimiter ≠ 33 := by
    rw [htext] at hhead
    obtain rfl : delimiter = m.delimiter := Option.some.inj hhead
    rwa [haddress]
  obtain ⟨shown, hstr⟩ := Option.isSome_iff_exists.mp hshown
  have hm' : m.str = .ok shown := by
    rw [NMEA0183Msg.str, hraw, htrimmed, hstr]
  simp only [fromPGDY, hprocess, bind, Except.bind, if_pos hm, hm']
  rfl

/-- A frame that can be sent. -/
structure PublishedMsg.Framed (msg : PublishedMsg) : Prop where
  data : msg.data = some (msg.frame ++ crLf)
  clean : Clean msg.frame
  read : fromPGDY msg.frame = .ok msg.readBack ∧ msg.readBack.isSome = true ∨
    fromPGDY msg.frame = .error .nmeaInvalidFrame ∧ msg.readBack = none

/-- **What may be sent comes back**, by the two forms of a message. -/
theorem PublishedMsg.Sendable.framed {msg : PublishedMsg} (h : msg.Sendable) : msg.Framed := by
  cases msg with
  | n2k msg ts =>
    refine ⟨?_, ⟨?_, fun b hb => notMem_separator_frame_n2k hb⟩, ?_⟩
    · rw [frame_n2k]
      rfl
    · rw [frame_n2k]
      simp
    · exact Or.inl ⟨fromPGDY_frame_n2k msg ts, rfl⟩
  | other raw =>
    obtain ⟨data, rfl, delimiter, address, rest, text, rfl, htext, hdelimiter, hne, hcomma, hother,
      hclean, hshown⟩ := h
    have hframe : (PublishedMsg.other (some (text ++ crLf))).frame = text :=
      trimmed_append_crLf text
    refine ⟨?_, ⟨?_, ?_⟩, ?_⟩
    · rw [hframe]
      rfl
    · rw [hframe, htext]
      simp
    · rwa [hframe]
    · rw [hframe]
      exact Or.inr
        ⟨fromPGDY_sentence htext hdelimiter hne hcomma hother hclean hshown, rfl⟩

/-! ## 3. The reader -/

/-- What is left of the buffer. -/
def ReaderPlace.rest {M : Type*} : ReaderPlace M → Bytes
  | .inBuffer rest => rest
  | .putting _ rest => rest
  | .checking rest => rest
  | _ => []

/-- The thread is in the loop over a buffer. -/
def ReaderPlace.InBuffer {M : Type*} : ReaderPlace M → Prop
  | .inBuffer _ => True
  | .putting _ _ => True
  | .checking _ => True
  | _ => False

/-- The thread has left its outer loop. -/
def ReaderPlace.Behind {M : Type*} : ReaderPlace M → Prop
  | .ending _ => True
  | .left => True
  | _ => False

/-- The thread ends at the next turn, or has left its loop. -/
def ReaderPlace.Closes {M : Type*} (place : ReaderPlace M) : Prop := place = .head ∨ place.Behind

/-- One frame waits in `put`. -/
def ReaderPlace.waiting {M : Type*} : ReaderPlace M → Nat
  | .putting _ _ => 1
  | _ => 0

/-- What the thread puts behind its loop. -/
def ReaderPlace.lastPut {M : Type*} : ReaderPlace M → List (QueueItem M)
  | .left => [.endOfFlow none]
  | _ => []

section Reader

variable {M : Type*} {proc : MsgProcess M} {read : Bytes → Option M} {goal : ReaderState}
  {stopped : Prop} {r : TCPBufferedReader M}

/-- `msg_processing` reads the frame, or refuses it and the loop goes on. -/
def Answers (proc : MsgProcess M) (read : Bytes → Option M) (f : Bytes) : Prop :=
  ∀ handed, (∃ m, proc handed f = .ok (some m) ∧ read f = some m) ∨
    (proc handed f = .error .nmeaInvalidFrame ∧ read f = none)

/-- A frame that is answered is no read error. -/
theorem Answers.calm_ne {f : Bytes} (h : Answers proc read f) (handed : List Bytes) :
    proc.processing.calm handed f ≠ .readError := by
  unfold MsgProcessing.calm MsgProcess.processing
  rcases h handed with ⟨m, hm, -⟩ | ⟨he, -⟩
  · rw [hm]
    exact nofun
  · rw [he]
    exact nofun

theorem Answers.processing_ne {f : Bytes} (h : Answers proc read f) (handed : List Bytes) :
    proc.processing handed f ≠ .readError := fun herror =>
  h.calm_ne handed ((calm_readError proc.processing handed f).mpr herror)

/-- The reader on its way to `goal`, where the loop of `IPReader` would stand behind
the buffer: what is left of the buffer leads there, or a stop has made it leave
the buffer. Its messages are on the queue, but for those that were lost. -/
structure ReadsOn (proc : MsgProcess M) (read : Bytes → Option M) (goal : ReaderState)
    (stopped : Prop) (r : TCPBufferedReader M) : Prop where
  way : readBuffer proc.processing.calm r.reader r.place.rest = goal ∨
    (stopped ∧ r.stopFlag = true ∧ r.place.Closes ∧ r.reader.handed <+: goal.handed)
  flag : r.stopFlag = true → stopped ∨ r.place.Behind
  calm : ∀ e, r.place ≠ .raised e
  full : r.full.length + r.place.waiting = r.reader.handed.length
  put : r.put = (kept r.full (r.reader.handed.map read)).map (fun m => .received (some m))
    ++ r.place.lastPut
  putting : ∀ msg rest, r.place = .putting msg rest →
    ∃ hs f m, r.reader.handed = hs ++ [f] ∧ msg = some m ∧ read f = some m
  ending : ∀ msg, r.place = .ending msg → msg = none

/-- What is handed over is a beginning of what will be. -/
theorem ReadsOn.handed_isPrefix (h : ReadsOn proc read goal stopped r) :
    r.reader.handed <+: goal.handed := by
  rcases h.way with hway | ⟨-, -, -, hprefix⟩
  · rw [← hway]
    exact handed_scan _ _ _ _
  · exact hprefix

/-- In a buffer nothing was left out. -/
theorem ReadsOn.way_of_not_closes (h : ReadsOn proc read goal stopped r)
    (hplace : ¬ r.place.Closes) :
    readBuffer proc.processing.calm r.reader r.place.rest = goal :=
  h.way.resolve_right fun hcut => hplace hcut.2.2.1

/-- The start of a reader. -/
theorem readsOn_start : ReadsOn proc read .start stopped .start where
  way := Or.inl rfl
  flag := nofun
  calm := nofun
  full := rfl
  put := rfl
  putting := nofun
  ending := nofun

/-- Behind the loop the reader has the NULL message to put. -/
theorem ReadsOn.behindLoop (h : ReadsOn proc read goal stopped r)
    (hplace : r.place = .head ∨ r.place = .receiving) (hnull : ∀ hs, proc hs [4] = .ok none) :
    ReadsOn proc read goal stopped (r.behindLoop proc) := by
  have heq : r.behindLoop proc = { r with stopFlag := true, place := .ending none } := by
    rw [TCPBufferedReader.behindLoop, hnull]
  have hrest : r.place.rest = [] := by rcases hplace with hp | hp <;> rw [hp] <;> rfl
  have hfull := h.full
  have hput := h.put
  have hwaiting : r.place.waiting = 0 := by rcases hplace with hp | hp <;> rw [hp] <;> rfl
  have hlast : r.place.lastPut = [] := by rcases hplace with hp | hp <;> rw [hp] <;> rfl
  rw [hwaiting] at hfull
  rw [hlast] at hput
  rw [heq]
  refine ⟨?_, fun _ => Or.inr trivial, nofun, hfull, hput, nofun, ?_⟩
  · rcases h.way with hway | ⟨hstopped, -, -, hprefix⟩
    · rw [hrest] at hway
      exact Or.inl hway
    · exact Or.inr ⟨hstopped, rfl, Or.inr trivial, hprefix⟩
  · intro msg hmsg
    cases hmsg
    rfl

/-- The thread goes on to a place where nothing waits. -/
theorem ReadsOn.goTo (h : ReadsOn proc read goal stopped r) {st : ReaderState}
    {place : ReaderPlace M} (hway : readBuffer proc.processing.calm st place.rest = goal)
    (hhanded : st.handed = r.reader.handed)
    (hflag : r.stopFlag = true → stopped)
    (hold : r.place.waiting = 0 ∧ r.place.lastPut = [])
    (hplace : place = .head ∨ place = .receiving ∨ ∃ rest, place = .inBuffer rest) :
    ReadsOn proc read goal stopped { r with reader := st, place := place } := by
  have hfull := h.full
  have hput := h.put
  rw [hold.1] at hfull
  rw [hold.2] at hput
  have hnew : place.waiting = 0 ∧ place.lastPut = [] ∧ (∀ e, place ≠ .raised e) ∧
      (∀ msg rest, place ≠ .putting msg rest) ∧ ∀ msg, place ≠ .ending msg := by
    rcases hplace with rfl | rfl | ⟨rest, rfl⟩
    all_goals exact ⟨rfl, rfl, nofun, nofun, nofun⟩
  obtain ⟨hwaiting, hlast, hcalm, hputting, hending⟩ := hnew
  refine ⟨Or.inl hway, fun hset => Or.inl (hflag hset), hcalm, ?_, ?_,
    fun msg rest heq => absurd heq (hputting msg rest), fun msg heq => absurd heq (hending msg)⟩
  · show r.full.length + place.waiting = st.handed.length
    rw [hhanded, hwaiting]
    exact hfull
  · show r.put = (kept r.full (st.handed.map read)).map _ ++ place.lastPut
    rw [hhanded, hlast]
    exact hput

/-- A frame of the buffer is read or refused. -/
theorem ReadsOn.frame (h : ReadsOn proc read goal stopped r) {rest f tail : Bytes}
    {st : ReaderState} (hplace : r.place = .inBuffer rest) (hhanded : st.handed = r.reader.handed)
    (hf : Answers proc read f)
    (hway : readBuffer proc.processing.calm { st with handed := st.handed ++ [f] } tail = goal) :
    ReadsOn proc read goal stopped (({ r with reader := st }).frame proc f tail) := by
  have hflag : r.stopFlag = true → stopped := fun hset =>
    (h.flag hset).resolve_right (by rw [hplace]; exact id)
  have hlen : r.full.length = (r.reader.handed.map read).length := by
    have hfull := h.full
    rw [hplace] at hfull
    rw [List.length_map]
    exact hfull
  have hput : r.put = (kept r.full (r.reader.handed.map read)).map (fun m => .received (some m)) := by
    have hput := h.put
    rw [hplace] at hput
    exact hput.trans (List.append_nil _)
  unfold TCPBufferedReader.frame
  rcases hf st.handed with ⟨m, hm, hread⟩ | ⟨he, hread⟩
  · -- the message is not put yet
    simp only [hm]
    refine ⟨Or.inl hway, fun hset => Or.inl (hflag hset), nofun, ?_, ?_, ?_, nofun⟩
    · show r.full.length + 1 = (st.handed ++ [f]).length
      rw [hhanded, hlen, List.length_map, List.length_append, List.length_singleton]
    · show r.put = (kept r.full ((st.handed ++ [f]).map read)).map _ ++ []
      rw [hhanded, List.map_append, kept_append_left hlen, List.append_nil]
      exact hput
    · intro msg rest' heq
      cases heq
      exact ⟨st.handed, f, m, rfl, rfl, hread⟩
  · simp only [he]
    refine ⟨Or.inl hway, fun hset => Or.inl (hflag hset), nofun, ?_, ?_, nofun, nofun⟩
    · show (r.full ++ [false]).length + 0 = (st.handed ++ [f]).length
      rw [hhanded, List.length_append, List.length_append, hlen, List.length_map]
      rfl
    · show r.put = (kept (r.full ++ [false]) ((st.handed ++ [f]).map read)).map _ ++ []
      rw [hhanded, List.map_append, List.map_singleton, kept_concat hlen, hread, List.append_nil]
      exact hput.trans (congrArg _ (List.append_nil _).symm)

/-- A turn of the loop over a buffer. -/
theorem ReadsOn.bufferTurn (h : ReadsOn proc read goal stopped r) {rest : Bytes}
    (hplace : r.place = .inBuffer rest) (hanswers : ∀ f ∈ goal.handed, Answers proc read f) :
    ReadsOn proc read goal stopped (r.bufferTurn proc rest) := by
  have hway := h.way_of_not_closes (by rw [hplace]; exact fun hc => hc.elim nofun id)
  rw [hplace] at hway
  change readBuffer proc.processing.calm r.reader rest = goal at hway
  have hflag : r.stopFlag = true → stopped := fun hset =>
    (h.flag hset).resolve_right (by rw [hplace]; exact id)
  have hold : r.place.waiting = 0 ∧ r.place.lastPut = [] := by rw [hplace]; exact ⟨rfl, rfl⟩
  rw [TCPBufferedReader.bufferTurn]
  by_cases hempty : rest.isEmpty = true
  · rw [if_pos hempty]
    obtain rfl := List.isEmpty_iff.mp hempty
    exact h.goTo hway rfl hflag hold (Or.inl rfl)
  · rw [if_neg hempty]
    have hne : rest ≠ [] := fun hnil => hempty (List.isEmpty_iff.mpr hnil)
    have hturn := (kept_turn r.reader rest).1
    cases hcase : RouterCore.turn r.reader rest with
    | leave st =>
      rw [hcase] at hturn
      rw [readBuffer_leave _ hne hcase] at hway
      exact h.goTo hway hturn hflag hold (Or.inl rfl)
    | skip index st =>
      rw [hcase] at hturn
      rw [readBuffer_skip _ hne hcase] at hway
      exact h.goTo hway hturn hflag hold (Or.inr (Or.inr ⟨_, rfl⟩))
    | frame f index st =>
      rw [hcase] at hturn
      rw [readBuffer_frame _ (calm_calm _) hne hcase] at hway
      have hmem : f ∈ goal.handed := by
        have hlast : f ∈ st.handed ++ [f] := List.mem_append_right _ (List.mem_singleton_self f)
        rw [← hway]
        split
        · exact hlast
        · exact (handed_scan _ _ { st with handed := st.handed ++ [f] } _).subset hlast
      have hf := hanswers f hmem
      rw [if_neg (hf.calm_ne st.handed)] at hway
      exact h.frame hplace hturn hf hway

/-- A message is put, or is lost. -/
theorem ReadsOn.settle (h : ReadsOn proc read goal stopped r) {msg : Option M} {rest : Bytes}
    (hplace : r.place = .putting msg rest) (lost : Bool) {place : ReaderPlace M}
    {items : List (QueueItem M)} (hitems : items = if lost then [] else [.received msg])
    (hnew : place = .checking rest ∨ place = .inBuffer rest) (inQueue : List (QueueItem M)) :
    ReadsOn proc read goal stopped
      { r with
        inQueue := inQueue, put := r.put ++ items, full := r.full ++ [lost], place := place } := by
  obtain ⟨hs, f, m, hhanded, rfl, hread⟩ := h.putting msg rest hplace
  have hway := h.way_of_not_closes (by rw [hplace]; exact fun hc => hc.elim nofun id)
  have hflag : r.stopFlag = true → stopped := fun hset =>
    (h.flag hset).resolve_right (by rw [hplace]; exact id)
  have hfull := h.full
  have hput := h.put
  rw [hplace] at hway hfull hput
  have hlen : r.full.length = (hs.map read).length := by
    rw [List.length_map]
    have := congrArg List.length hhanded
    rw [List.length_append, List.length_singleton] at this
    exact Nat.add_right_cancel (hfull.trans this)
  have hplace' : place.rest = rest ∧ place.waiting = 0 ∧ place.lastPut = [] ∧
      (∀ e, place ≠ .raised e) ∧ (∀ msg rest, place ≠ .putting msg rest) ∧
      ∀ msg, place ≠ .ending msg := by
    rcases hnew with rfl | rfl
    all_goals exact ⟨rfl, rfl, rfl, nofun, nofun, nofun⟩
  obtain ⟨hrest, hwaiting, hlast, hcalm, hputting, hending⟩ := hplace'
  refine ⟨Or.inl ?_, fun hset => Or.inl (hflag hset), hcalm, ?_, ?_,
    fun msg rest heq => absurd heq (hputting msg rest), fun msg heq => absurd heq (hending msg)⟩
  · show readBuffer proc.processing.calm r.reader place.rest = goal
    rw [hrest]
    exact hway
  · show (r.full ++ [lost]).length + place.waiting = r.reader.handed.length
    rw [hwaiting, List.length_append, List.length_singleton]
    exact hfull
  · show r.put ++ items = (kept (r.full ++ [lost]) (r.reader.handed.map read)).map _ ++ place.lastPut
    rw [hput, hhanded, List.map_append, List.map_singleton, kept_append_left hlen,
      kept_concat hlen, hread, hlast, hitems, List.append_nil]
    cases lost <;> simp [ReaderPlace.lastPut]

/-- **One step of the thread.** -/
theorem ReadsOn.turn (h : ReadsOn proc read goal stopped r)
    (hanswers : ∀ f ∈ goal.handed, Answers proc read f) (hnull : ∀ hs, proc hs [4] = .ok none) :
    ReadsOn proc read goal stopped (r.turn proc) := by
  rw [TCPBufferedReader.turn]
  cases hplace : r.place with
  | head =>
    dsimp only
    rw [TCPBufferedReader.atHead]
    split
    · exact h.behindLoop (Or.inl hplace) hnull
    · rename_i hset
      have hway := h.way.resolve_right fun hcut => hset hcut.2.1
      rw [hplace] at hway
      exact h.goTo hway rfl (fun hset' => absurd hset' hset) (by rw [hplace]; exact ⟨rfl, rfl⟩)
        (Or.inr (Or.inl rfl))
  | inBuffer rest => exact h.bufferTurn hplace hanswers
  | putting msg rest =>
    dsimp only
    rw [TCPBufferedReader.putNext]
    split
    · exact h.settle hplace false rfl (Or.inl rfl) _
    · exact h
  | checking rest =>
    have hway := h.way_of_not_closes (by rw [hplace]; exact fun hc => hc.elim nofun id)
    have hflag : r.stopFlag = true → stopped := fun hset =>
      (h.flag hset).resolve_right (by rw [hplace]; exact id)
    have hfull := h.full
    have hput := h.put
    rw [hplace] at hway hfull hput
    dsimp only
    split
    · rename_i hset
      exact ⟨Or.inr ⟨hflag hset, hset, Or.inl rfl, h.handed_isPrefix⟩, fun hset => Or.inl (hflag hset),
        nofun, hfull, hput, nofun, nofun⟩
    · exact ⟨Or.inl hway, fun hset => Or.inl (hflag hset), nofun, hfull, hput, nofun, nofun⟩
  | ending msg =>
    obtain rfl := h.ending msg hplace
    dsimp only
    rw [TCPBufferedReader.putNext]
    split
    · have hway := h.way
      have hfull := h.full
      have hput := h.put
      rw [hplace] at hway hfull hput
      rw [List.append_nil]
      refine ⟨?_, fun _ => Or.inr trivial, nofun, hfull, ?_, nofun, nofun⟩
      · rcases hway with hway | ⟨hstopped, hset, -, hprefix⟩
        · exact Or.inl hway
        · exact Or.inr ⟨hstopped, hset, Or.inr trivial, hprefix⟩
      · show r.put ++ [.endOfFlow none] = _ ++ [.endOfFlow none]
        rw [hput]
        exact congrArg (· ++ _) (List.append_nil _)
    · exact h
  | receiving => exact h
  | left => exact h
  | raised e => exact h

/-- The time of a `put` is over. -/
theorem ReadsOn.putTimeOut (h : ReadsOn proc read goal stopped r) :
    ReadsOn proc read goal stopped r.putTimeOut := by
  rw [TCPBufferedReader.putTimeOut]
  split
  · rename_i msg rest hplace
    split
    · exact h
    · have hnone : ([] : List (QueueItem M)) = if true then [] else [.received msg] := rfl
      have hlost := h.settle hplace true hnone (Or.inr rfl) r.inQueue
      rw [List.append_nil] at hlost
      exact hlost
  · exact h

/-- A stop. -/
theorem ReadsOn.stop (h : ReadsOn proc read goal stopped r) : ReadsOn proc read goal True r.stop :=
  ⟨h.way.imp_right fun ⟨_, _, hplace, hprefix⟩ => ⟨trivial, rfl, hplace, hprefix⟩,
    fun _ => Or.inl trivial, h.calm, h.full, h.put, h.putting, h.ending⟩

/-- A buffer comes. -/
theorem ReadsOn.received (h : ReadsOn proc read goal stopped r) (hplace : r.place = .receiving)
    (buffer : Bytes) :
    ReadsOn proc read (readBuffer proc.processing.calm goal buffer) stopped (r.received buffer) := by
  have hway := h.way_of_not_closes (by rw [hplace]; exact fun hc => hc.elim nofun id)
  have hflag : r.stopFlag = true → stopped := fun hset =>
    (h.flag hset).resolve_right (by rw [hplace]; exact id)
  have hfull := h.full
  have hput := h.put
  rw [hplace] at hway hfull hput
  change r.reader = goal at hway
  rw [← hway, TCPBufferedReader.received]
  split
  · rename_i hempty
    obtain rfl := List.eq_nil_of_length_eq_zero hempty
    exact ⟨Or.inl rfl, fun hset => Or.inl (hflag hset), nofun, hfull, hput, nofun, nofun⟩
  · exact ⟨Or.inl rfl, fun hset => Or.inl (hflag hset), nofun, hfull, hput, nofun, nofun⟩

/-- What the thread puts comes behind what there was. -/
theorem queued_turn (proc : MsgProcess M) (r : TCPBufferedReader M) :
    ∃ items, (r.turn proc).put = r.put ++ items ∧ (r.turn proc).inQueue = r.inQueue ++ items := by
  have hsame : ∀ r' : TCPBufferedReader M, r'.put = r.put → r'.inQueue = r.inQueue →
      ∃ items, r'.put = r.put ++ items ∧ r'.inQueue = r.inQueue ++ items := fun r' hput hqueue =>
    ⟨[], by rw [hput, List.append_nil], by rw [hqueue, List.append_nil]⟩
  have hnext : ∀ item place full, ∃ items, (r.putNext item place full).put = r.put ++ items ∧
      (r.putNext item place full).inQueue = r.inQueue ++ items := by
    intro item place full
    rw [TCPBufferedReader.putNext]
    split
    · exact ⟨[item], rfl, rfl⟩
    · exact hsame r rfl rfl
  have hbehind : (r.behindLoop proc).put = r.put ∧ (r.behindLoop proc).inQueue = r.inQueue := by
    rw [TCPBufferedReader.behindLoop]
    split <;> exact ⟨rfl, rfl⟩
  rw [TCPBufferedReader.turn]
  split
  · rw [TCPBufferedReader.atHead]
    split
    · exact hsame _ hbehind.1 hbehind.2
    · exact hsame _ rfl rfl
  · rw [TCPBufferedReader.bufferTurn]
    split
    · exact hsame _ rfl rfl
    · split
      · exact hsame _ rfl rfl
      · exact hsame _ rfl rfl
      · rw [TCPBufferedReader.frame]
        dsimp only
        split <;> exact hsame _ rfl rfl
  · exact hnext _ _ _
  · exact hsame _ rfl rfl
  · exact hnext _ _ _
  · exact hsame _ rfl rfl

end Reader

/-! ## 4. How far the reader is -/

section Places

variable {frames : List Bytes} {before : Bytes} {st : ReaderState}

/-- At every place in the stream the frames handed over are the first of all frames. -/
theorem Reached.handed_isPrefix (h : Reached frames before st) : st.handed <+: frames := by
  cases h with
  | between hpart fs hframes lead hl hbefore => exact ⟨fs, hframes.symm⟩
  | inside hpart q fs hframes hbuf hbefore => exact ⟨(st.partBuf ++ q) :: fs, hframes.symm⟩

/-- Fewer frames make a shorter stream. -/
theorem length_stream_take (fs gs : List Bytes) (j : Nat) (h : j ≤ fs.length) :
    (stream ((fs ++ gs).take j)).length ≤ (stream fs).length := by
  rw [List.take_append_of_le_length h]
  conv_rhs => rw [← List.take_append_drop j fs, stream_append, List.length_append]
  exact Nat.le_add_right _ _

/-- More frames make one that has the next frame, CR and LF in it. -/
theorem length_stream_take_cons (fs gs : List Bytes) (f : Bytes) (j : Nat) (h : fs.length < j) :
    (stream fs).length + f.length + 2 ≤ (stream ((fs ++ f :: gs).take j)).length := by
  obtain ⟨n, rfl⟩ := Nat.exists_eq_add_of_lt h
  rw [List.take_append, List.take_of_length_le (by omega), stream_append, List.length_append,
    show fs.length + n + 1 - fs.length = n + 1 by omega, List.take_succ_cons, length_stream_cons]
  omega

/-- The frames handed over are those that have arrived up to their CR. -/
theorem Reached.le_handed_iff (h : Reached frames before st) {j : Nat} (hj : j ≤ frames.length) :
    j ≤ st.handed.length ↔ (stream (frames.take j)).length ≤ before.length + 1 := by
  cases h with
  | between hpart fs hframes lead hl hbefore =>
    have hlen := congrArg List.length hbefore
    rw [List.length_append] at hlen
    have hlead : lead.length ≤ 1 := by
      rcases hl with rfl | rfl
      · exact Nat.zero_le 1
      · exact Nat.le_refl 1
    constructor
    · intro hle
      have := length_stream_take st.handed fs j hle
      rw [← hframes] at this
      omega
    · intro hle
      by_contra hlt
      cases fs with
      | nil =>
        rw [hframes, List.append_nil] at hj
        exact hlt hj
      | cons f fs =>
        have := length_stream_take_cons st.handed fs f j (Nat.lt_of_not_le hlt)
        rw [← hframes] at this
        omega
  | inside hpart q fs hframes hbuf hbefore =>
    have hlen := congrArg List.length hbefore
    rw [List.length_append] at hlen
    constructor
    · intro hle
      have := length_stream_take st.handed ((st.partBuf ++ q) :: fs) j hle
      rw [← hframes] at this
      omega
    · intro hle
      by_contra hlt
      have := length_stream_take_cons st.handed fs (st.partBuf ++ q) j (Nat.lt_of_not_le hlt)
      rw [← hframes, List.length_append] at this
      omega

end Places

/-! ## 5. The invariant -/

/-- What `fromPGDY` reads, and nothing where it raises. -/
def readFrame (f : Bytes) : Option ReadMsg :=
  match fromPGDY f with
  | .ok r => r
  | .error _ => none

/-- What is read of the frame. -/
theorem PublishedMsg.Framed.readFrame_eq {msg : PublishedMsg} (h : msg.Framed) :
    readFrame msg.frame = msg.readBack := by
  unfold readFrame
  rcases h.read with ⟨hread, -⟩ | ⟨hread, hnone⟩
  · rw [hread]
  · rw [hread, hnone]

/-- The answer of `fromPGDY` depends on the frame only. -/
theorem PublishedMsg.Framed.answers {msg : PublishedMsg} (h : msg.Framed) :
    Answers DyLink.dyfmt readFrame msg.frame := by
  intro handed
  rw [h.readFrame_eq]
  rcases h.read with ⟨hread, hsome⟩ | ⟨hread, hnone⟩
  · obtain ⟨m, hm⟩ := Option.isSome_iff_exists.mp hsome
    exact Or.inl ⟨m, hread.trans (congrArg Except.ok hm), hm⟩
  · exact Or.inr ⟨hread, hnone⟩

namespace DyLink

/-- The frames that the publisher has sent. -/
def frames (s : DyLink) : List Bytes := s.publisher.sent.map PublishedMsg.frame

/-- No buffer ends between CR and LF of a frame that began in an earlier one. -/
def CutOutside (s : DyLink) : Prop :=
  ∀ front buffer back, s.arrived = front ++ buffer :: back →
    ¬ CutInside s.frames front.flatten buffer

/-- What can be sent has been sent, and no buffer has been cut badly. -/
structure Fair (s : DyLink) : Prop where
  sent : ∀ msg ∈ s.publisher.sent, msg.Sendable
  cut : s.CutOutside

/-- The loop of `IPReader` over the buffers that have arrived. -/
def goal (s : DyLink) : ReaderState := nrun dyfmt.processing.calm .start s.arrived

/-- The sender has called `reader.stop`. -/
def ReaderStopped (s : DyLink) : Prop := s.finish = .joining ∨ s.finish = .closed

/-- The reader waits for bytes, or is in no buffer and was never stopped. -/
def UpToDate (s : DyLink) : Prop :=
  s.reader.place = .receiving ∨ (¬ s.reader.place.InBuffer ∧ ¬ s.ReaderStopped)

/-- The reader is on its way through what has arrived, which is what was written,
and the sender has taken the front of what was put. -/
structure LinkInv (s : DyLink) : Prop where
  wire : ∃ rest, s.publisher.wire ++ rest = stream s.frames ∧
    (s.publisher.running = true → rest = [])
  arrived : s.arrived.flatten <+: s.publisher.wire
  reads : ReadsOn dyfmt readFrame s.goal s.ReaderStopped s.reader
  taken : s.reader.put = s.taken ++ s.reader.inQueue
  handed : s.sender.handed = s.taken.filter (fun m => !m.isNull)

variable {s : DyLink}

/-- In a fair run every frame on the wire is one that is answered. -/
theorem frame_of_mem (h : s.Fair) {f : Bytes} (hf : f ∈ s.frames) :
    Clean f ∧ Answers dyfmt readFrame f := by
  obtain ⟨msg, hmsg, rfl⟩ := List.mem_map.mp hf
  have hframed := (h.sent msg hmsg).framed
  exact ⟨hframed.clean, hframed.answers⟩

/-- A fair run is one whose stream is well cut for the loop of `IPReader`. -/
theorem wellCut (h : s.Fair) : WellCut dyfmt.processing.calm s.frames s.arrived := by
  rw [wellCut_calm]
  intro front buffer back heq
  refine ⟨h.cut front buffer back heq, ?_⟩
  rintro ⟨fs₁, f, fs₂, rest, hframes, herror, -⟩
  have hf : f ∈ s.frames := hframes ▸ List.mem_append_right _ List.mem_cons_self
  exact (frame_of_mem h hf).2.processing_ne fs₁ herror

/-- Where the loop over all that has arrived is in the stream. -/
theorem reached (h : s.Fair)
    (hwire : ∃ rest, s.publisher.wire ++ rest = stream s.frames ∧
      (s.publisher.running = true → rest = []))
    (harrived : s.arrived.flatten <+: s.publisher.wire) :
    Reached s.frames s.arrived.flatten s.goal := by
  obtain ⟨rest, hbytes, -⟩ := hwire
  obtain ⟨rest', hfront⟩ := harrived
  have hall : s.arrived.flatten ++ (rest' ++ rest) = stream s.frames := by
    rw [← List.append_assoc, hfront, hbytes]
  exact reached_nrun (calm_calm _) (fun f hf => (frame_of_mem h hf).1) hall (wellCut h)

/-- What the reader is on its way to hand over is answered. -/
theorem answers_goal (h : s.Fair) (hinv : LinkInv s) :
    ∀ f ∈ s.goal.handed, Answers dyfmt readFrame f := fun _ hf =>
  (frame_of_mem h ((reached h hinv.wire hinv.arrived).handed_isPrefix.subset hf)).2

/-! ## 6. One step -/

/-- The end of the flow gives the NULL message. -/
theorem dyfmt_endOfFlow (handed : List Bytes) : dyfmt handed [4] = .ok none := rfl

/-- The publisher takes nothing back. -/
theorem sent_prefix_turn (p : NMEA2000DYPublisher) (msg : PublishedMsg) (fails : Option Nat) :
    p.sent <+: (p.turn msg fails).sent := by
  unfold NMEA2000DYPublisher.turn
  split
  · split
    · exact List.prefix_rfl
    · split <;> exact List.prefix_append _ _
  · exact List.prefix_rfl

/-- The threads behind the connection leave the publisher and the bytes alone. -/
theorem senderTurn_keeps (s : DyLink) :
    s.senderTurn.publisher = s.publisher ∧ s.senderTurn.arrived = s.arrived := by
  unfold senderTurn
  split
  · exact ⟨rfl, rfl⟩
  · exact ⟨rfl, rfl⟩
  · split <;> exact ⟨rfl, rfl⟩
  · exact ⟨rfl, rfl⟩

/-- The sender touches neither the publisher nor the wire. -/
theorem got_keeps (s : DyLink) (result : SendResult) :
    (s.got result).publisher = s.publisher ∧ (s.got result).arrived = s.arrived := by
  unfold got
  split <;> exact ⟨rfl, rfl⟩

/-- Nor does the reader. -/
theorem recv_keeps (s : DyLink) (f : TCPBufferedReader ReadMsg → TCPBufferedReader ReadMsg) :
    (s.recv f).publisher = s.publisher ∧ (s.recv f).arrived = s.arrived := by
  unfold recv
  split <;> exact ⟨rfl, rfl⟩

/-- A run goes on writing and receiving. -/
theorem step_extends (s : DyLink) (i : LinkInput) :
    s.publisher.sent <+: (s.step i).publisher.sent ∧ s.arrived <+: (s.step i).arrived := by
  have hkeeps : ∀ s' : DyLink, s'.publisher = s.publisher ∧ s'.arrived = s.arrived →
      s.publisher.sent <+: s'.publisher.sent ∧ s.arrived <+: s'.arrived := by
    rintro s' ⟨hpublisher, harrived⟩
    rw [hpublisher, harrived]
    exact ⟨List.prefix_rfl, List.prefix_rfl⟩
  cases i with
  | publish msg fails => exact ⟨sent_prefix_turn _ _ _, List.prefix_rfl⟩
  | received n =>
    simp only [step]
    split
    · exact ⟨List.prefix_rfl, List.prefix_append _ _⟩
    · exact ⟨List.prefix_rfl, List.prefix_rfl⟩
  | timeOut => exact hkeeps _ (recv_keeps s _)
  | readError => exact hkeeps _ (recv_keeps s _)
  | readerTurn => exact hkeeps _ ⟨rfl, rfl⟩
  | putTimeOut => exact hkeeps _ ⟨rfl, rfl⟩
  | turn => exact hkeeps _ (senderTurn_keeps s)
  | got result => exact hkeeps _ (got_keeps s result)
  | stop => exact hkeeps _ ⟨rfl, rfl⟩

/-- What was fair at the end was fair before. -/
theorem Fair.of_step {i : LinkInput} (h : (s.step i).Fair) : s.Fair := by
  obtain ⟨⟨msgs, hsent⟩, ⟨buffers, harrived⟩⟩ := step_extends s i
  refine ⟨fun msg hmsg => h.sent msg ?_, ?_⟩
  · rw [← hsent]
    exact List.mem_append_left _ hmsg
  · rintro front buffer back heq ⟨fs₁, p, q, fs₂, hframes, hne, hbefore, hbuffer⟩
    refine h.cut front buffer (back ++ buffers) ?_
      ⟨fs₁, p, q, fs₂ ++ msgs.map PublishedMsg.frame, ?_, hne, hbefore, hbuffer⟩
    · rw [← harrived, heq, List.append_assoc, List.cons_append]
    · unfold frames at hframes ⊢
      rw [← hsent, List.map_append, hframes, List.append_assoc, List.cons_append]

/-- The publisher writes its frame, or the beginning of it. -/
theorem LinkInv.publish (h : LinkInv s) (msg : PublishedMsg) (fails : Option Nat)
    (hfair : (s.step (.publish msg fails)).Fair) : LinkInv (s.step (.publish msg fails)) := by
  change LinkInv { s with publisher := s.publisher.turn msg fails }
  change ({ s with publisher := s.publisher.turn msg fails } : DyLink).Fair at hfair
  have hsame : s.publisher.turn msg fails = s.publisher →
      LinkInv { s with publisher := s.publisher.turn msg fails } := by
    intro heq
    rw [heq]
    exact h
  by_cases hrunning : s.publisher.running = true
  · cases hdata : msg.data with
    | none => exact hsame (by rw [NMEA2000DYPublisher.turn, if_pos hrunning, hdata])
    | some data =>
      obtain ⟨p, hp, hsent, hwire⟩ : ∃ p, s.publisher.turn msg fails = p ∧
          p.sent = s.publisher.sent ++ [msg] ∧
          ∃ rest, p.wire ++ rest = s.publisher.wire ++ data ∧
            s.publisher.wire <+: p.wire ∧ (p.running = true → rest = []) := by
        refine ⟨_, rfl, ?_⟩
        rw [NMEA2000DYPublisher.turn, if_pos hrunning, hdata]
        cases fails with
        | none => exact ⟨rfl, [], List.append_nil _, List.prefix_append _ _, fun _ => rfl⟩
        | some n =>
          refine ⟨rfl, data.drop n, ?_, List.prefix_append _ _, fun hrun => nomatch hrun⟩
          rw [List.append_assoc, List.take_append_drop]
      rw [hp] at hfair ⊢
      obtain ⟨rest, hbytes, hprefix, hrest⟩ := hwire
      obtain ⟨rest', hbefore, hnone⟩ := h.wire
      rw [hnone hrunning, List.append_nil] at hbefore
      have hframed : msg.Framed := (hfair.sent msg (by
        show msg ∈ p.sent
        rw [hsent]
        exact List.mem_append_right _ (List.mem_singleton_self msg))).framed
      have hdata' : data = stream [msg.frame] := by
        have := Option.some.inj (hdata.symm.trans hframed.data)
        rw [this, stream_cons]
        rfl
      refine ⟨⟨rest, ?_, hrest⟩, h.arrived.trans hprefix, h.reads, h.taken, h.handed⟩
      show p.wire ++ rest = stream (p.sent.map PublishedMsg.frame)
      rw [hbytes, hbefore, hdata', hsent, List.map_append, stream_append]
      rfl
  · exact hsame (by rw [NMEA2000DYPublisher.turn, if_neg hrunning])

/-- A buffer. -/
theorem LinkInv.received (h : LinkInv s) (n : Nat) : LinkInv (s.step (.received n)) := by
  simp only [step]
  split
  · rename_i hplace
    have hwire : s.arrived.flatten ++ s.underWay.take n <+: s.publisher.wire := by
      obtain ⟨rest, harrived⟩ := h.arrived
      unfold underWay
      rw [← harrived, List.drop_left]
      exact List.prefix_append_right_inj _ |>.mpr (List.take_prefix n rest)
    obtain ⟨buffer, hbuffer⟩ : ∃ buffer, s.underWay.take n = buffer := ⟨_, rfl⟩
    rw [hbuffer] at hwire ⊢
    have hgoal : nrun dyfmt.processing.calm .start (s.arrived ++ [buffer])
        = readBuffer dyfmt.processing.calm s.goal buffer := by
      rw [nrun_concat]
      exact nextBuffer_of_not_raised (raised_nrun (calm_calm _) s.arrived) buffer
    have hreads := h.reads.received hplace buffer
    rw [← hgoal] at hreads
    refine ⟨h.wire, ?_, hreads, ?_, h.handed⟩
    · show (s.arrived ++ [buffer]).flatten <+: s.publisher.wire
      rw [List.flatten_append, List.flatten_singleton]
      exact hwire
    · show (s.reader.received buffer).put = s.taken ++ (s.reader.received buffer).inQueue
      rw [TCPBufferedReader.received]
      split <;> exact h.taken
  · exact h

/-- `recv` ends without a buffer. -/
theorem LinkInv.recv (h : LinkInv s) {f : TCPBufferedReader ReadMsg → TCPBufferedReader ReadMsg}
    (hf : s.reader.place = .receiving →
      ReadsOn dyfmt readFrame s.goal s.ReaderStopped (f s.reader) ∧
        (f s.reader).put = s.reader.put ∧ (f s.reader).inQueue = s.reader.inQueue) :
    LinkInv (s.recv f) := by
  unfold DyLink.recv
  split
  · rename_i hplace
    obtain ⟨hreads, hput, hqueue⟩ := hf hplace
    refine ⟨h.wire, h.arrived, hreads, ?_, h.handed⟩
    show (f s.reader).put = s.taken ++ (f s.reader).inQueue
    rw [hput, hqueue]
    exact h.taken
  · exact h

/-- A time out of recv changes nothing. -/
theorem LinkInv.timeOut (h : LinkInv s) : LinkInv (s.step .timeOut) := by
  show LinkInv (s.recv fun r => { r with place := .head })
  refine h.recv fun hplace => ⟨?_, rfl, rfl⟩
  have hway := h.reads.way_of_not_closes (by rw [hplace]; exact fun hc => hc.elim nofun id)
  rw [hplace] at hway
  exact h.reads.goTo hway rfl
    (fun hset => (h.reads.flag hset).resolve_right (by rw [hplace]; exact id))
    (by rw [hplace]; exact ⟨rfl, rfl⟩) (Or.inl rfl)

/-- A read error is the end of the stream for the reader. -/
theorem LinkInv.readError (h : LinkInv s) : LinkInv (s.step .readError) := by
  show LinkInv (s.recv fun r => r.behindLoop dyfmt)
  exact h.recv fun hplace => ⟨h.reads.behindLoop (Or.inr hplace) dyfmt_endOfFlow, rfl, rfl⟩

/-- A statement of the reader, by `ReadsOn.turn`. -/
theorem LinkInv.readerTurn (h : LinkInv s) (hfair : s.Fair) : LinkInv (s.step .readerTurn) := by
  obtain ⟨items, hput, hqueue⟩ := queued_turn dyfmt s.reader
  refine ⟨h.wire, h.arrived, h.reads.turn (answers_goal hfair h) dyfmt_endOfFlow, ?_, h.handed⟩
  show (s.reader.turn dyfmt).put = s.taken ++ (s.reader.turn dyfmt).inQueue
  rw [hput, hqueue, h.taken, List.append_assoc]

/-- A put that times out loses the message in hand. -/
theorem LinkInv.putTimeOut (h : LinkInv s) : LinkInv (s.step .putTimeOut) := by
  refine ⟨h.wire, h.arrived, h.reads.putTimeOut, ?_, h.handed⟩
  show s.reader.putTimeOut.put = s.taken ++ s.reader.putTimeOut.inQueue
  rw [TCPBufferedReader.putTimeOut]
  split
  · split <;> exact h.taken
  · exact h.taken

/-- The sender goes on, or stops the reader behind its loop. -/
theorem LinkInv.senderTurn (h : LinkInv s) : LinkInv (s.step .turn) := by
  simp only [step, DyLink.senderTurn]
  split
  · refine ⟨h.wire, h.arrived, h.reads, h.taken, ?_⟩
    show s.sender.atHead.handed = _
    rw [← h.handed]
    unfold NMEASender.atHead
    split <;> rfl
  · have hstop := h.reads.stop
    have hstopped : ({ s with reader := s.reader.stop, finish := .joining } : DyLink).ReaderStopped
        = True := eq_true (Or.inl rfl)
    exact ⟨h.wire, h.arrived, hstopped ▸ hstop, h.taken, h.handed⟩
  · rename_i hjoining
    have hclosed : s.ReaderStopped = ({ s with finish := .closed } : DyLink).ReaderStopped :=
      (eq_true (Or.inl hjoining)).trans (eq_true (Or.inr rfl)).symm
    have hdone : LinkInv { s with finish := .closed } :=
      ⟨h.wire, h.arrived, hclosed ▸ h.reads, h.taken, h.handed⟩
    split
    · exact hdone
    · exact hdone
    · exact h
  · exact h

/-- The sender takes one item off the queue, and hands it over unless it is the
NULL message. -/
theorem LinkInv.got (h : LinkInv s) (result : SendResult)
    (hfinish : s.sender.place = .reading → s.finish = .before) :
    LinkInv (s.step (.got result)) := by
  simp only [step, DyLink.got]
  split
  · rename_i msg queue hplace hqueue
    have hbefore := hfinish hplace
    have hstopped : s.ReaderStopped = ({ s with
        finish := if msg.isNull || result != .raised then s.finish else .died } :
          DyLink).ReaderStopped := by
      refine (eq_false ?_).trans (eq_false ?_).symm
      · rintro (hj | hc)
        · rw [hbefore] at hj
          cases hj
        · rw [hbefore] at hc
          cases hc
      · unfold ReaderStopped
        dsimp only
        rw [hbefore]
        split
        · rintro (hj | hc)
          · cases hj
          · cases hc
        · rintro (hj | hc)
          · cases hj
          · cases hc
    have hreads : ReadsOn dyfmt readFrame s.goal s.ReaderStopped
        { s.reader with inQueue := queue } :=
      ⟨h.reads.way, h.reads.flag, h.reads.calm, h.reads.full, h.reads.put, h.reads.putting,
        h.reads.ending⟩
    refine ⟨h.wire, h.arrived, hstopped ▸ hreads, ?_, ?_⟩
    · show s.reader.put = (s.taken ++ [msg]) ++ queue
      rw [h.taken, hqueue, List.append_assoc, List.singleton_append]
    · show (s.sender.read msg (result != .sent)).handed = _
      rw [List.filter_append, ← h.handed]
      unfold NMEASender.read
      cases hnull : msg.isNull with
      | true => simp [hnull]
      | false => simp [hnull]
  · exact h

/-- The sender is in `read` before it has left its loop. -/
theorem finish_before (h : dyLink.Reachable start s) :
    s.sender.place ≠ .left → s.finish = .before := by
  refine h.induction (fun s => s.sender.place ≠ .left → s.finish = .before) (fun _ => rfl) ?_
  intro s i ih
  show (s.step i).sender.place ≠ .left → (s.step i).finish = .before
  cases i with
  | publish msg fails => exact ih
  | received n =>
    simp only [step]
    split <;> exact ih
  | timeOut =>
    simp only [step, DyLink.recv]
    split <;> exact ih
  | readError =>
    simp only [step, DyLink.recv]
    split <;> exact ih
  | readerTurn => exact ih
  | putTimeOut => exact ih
  | turn =>
    simp only [step, DyLink.senderTurn]
    split
    · rename_i hplace
      intro _
      exact ih (by rw [hplace]; exact nofun)
    · rename_i hplace _
      exact fun hne => absurd hplace hne
    · rename_i hplace _
      split <;> exact fun hne => absurd hplace hne
    · exact ih
  | got result =>
    simp only [step, DyLink.got]
    split
    · rename_i msg queue hplace _
      intro hne
      have hbefore := ih (by rw [hplace]; exact nofun)
      unfold NMEASender.read at hne
      cases hnull : msg.isNull with
      | true => simp [hnull] at hne
      | false =>
        cases result with
        | sent => simpa [hnull] using hbefore
        | writeError => simp [hnull] at hne
        | raised => simp [hnull] at hne
    · exact ih
  | stop => exact ih

/-- **One step.** -/
theorem LinkInv.step (h : LinkInv s) (hreachable : dyLink.Reachable start s) (i : LinkInput)
    (hfair : (s.step i).Fair) : LinkInv (s.step i) := by
  cases i with
  | publish msg fails => exact h.publish msg fails hfair
  | received n => exact h.received n
  | timeOut => exact h.timeOut
  | readError => exact h.readError
  | readerTurn => exact h.readerTurn hfair.of_step
  | putTimeOut => exact h.putTimeOut
  | turn => exact h.senderTurn
  | got result =>
    exact h.got result fun hplace =>
      finish_before hreachable (by rw [hplace]; exact nofun)
  | stop => exact ⟨h.wire, h.arrived, h.reads, h.taken, h.handed⟩

/-- Before the connection has sent anything. -/
theorem linkInv_start : LinkInv start where
  wire := ⟨[], rfl, fun _ => rfl⟩
  arrived := List.prefix_rfl
  reads := readsOn_start
  taken := rfl
  handed := rfl

/-! ## 7. Runs -/

/-- **A run.** -/
theorem linkInv_of_reachable (h : dyLink.Reachable start s) : s.Fair → LinkInv s := by
  have hboth := h.induction (fun s => dyLink.Reachable start s ∧ (s.Fair → LinkInv s))
    ⟨⟨[], rfl⟩, fun _ => linkInv_start⟩ ?_
  · exact hboth.2
  · rintro s i ⟨hreachable, ih⟩
    exact ⟨hreachable.step i, fun hfair => (ih hfair.of_step).step hreachable i hfair⟩

/-- Nothing that the reader has put in its loop is the NULL message. -/
theorem filter_received (items : List ReadMsg) :
    (items.map (fun m => QueueItem.received (some m))).filter (fun m => !m.isNull)
      = items.map (fun m => QueueItem.received (some m)) := by
  refine List.filter_eq_self.mpr fun item hitem => ?_
  obtain ⟨m, -, rfl⟩ := List.mem_map.mp hitem
  rfl

/-- The last put is that of the NULL message. -/
theorem filter_lastPut (place : ReaderPlace ReadMsg) (n : Nat) :
    (place.lastPut.take n).filter (fun m => !m.isNull) = [] := by
  cases place with
  | left => cases n <;> simp [ReaderPlace.lastPut, QueueItem.isNull]
  | _ => simp [ReaderPlace.lastPut]

/-- A reader that is up to date has handed over what the loop of `IPReader` does. -/
theorem LinkInv.handed_of_upToDate (h : LinkInv s) (hdate : s.UpToDate) :
    s.reader.reader.handed = s.goal.handed := by
  have hrest : s.reader.place.rest = [] := by
    have hnot : ¬ s.reader.place.InBuffer := by
      rcases hdate with hplace | ⟨hnot, -⟩
      · rw [hplace]
        exact id
      · exact hnot
    cases hplace : s.reader.place with
    | inBuffer rest => exact absurd (by rw [hplace]; trivial) hnot
    | putting msg rest => exact absurd (by rw [hplace]; trivial) hnot
    | checking rest => exact absurd (by rw [hplace]; trivial) hnot
    | _ => rfl
  have hway := h.reads.way.resolve_right fun hcut => by
    rcases hdate with hplace | ⟨-, hnever⟩
    · have hcloses := hcut.2.2.1
      rw [hplace] at hcloses
      exact hcloses.elim nofun id
    · exact hnever hcut.1
  rw [hrest] at hway
  exact congrArg ReaderState.handed hway

/-- **The reader hands over the frames that were sent, in their order and none of
them twice, and no further than they have arrived; all that have arrived when it is
up to date. What it puts on its queue are their messages, but for those for which the
queue was full, and what the coupler gets are the first of these.** -/
theorem dyLink_delivers (h : dyLink.Reachable start s)
    (hsent : ∀ msg ∈ s.publisher.sent, msg.Sendable) (hcut : s.CutOutside) :
    ∃ k ≤ s.publisher.sent.length,
      s.reader.reader.handed = s.frames.take k ∧
      (stream (s.frames.take k)).length ≤ s.arrived.flatten.length + 1 ∧
      (s.UpToDate → ∀ j ≤ s.publisher.sent.length,
        (stream (s.frames.take j)).length ≤ s.arrived.flatten.length + 1 → j ≤ k) ∧
      (s.UpToDate → s.publisher.running = true → s.arrived.flatten = s.publisher.wire →
        k = s.publisher.sent.length) ∧
      (∀ e, s.reader.place ≠ .raised e) ∧
      (s.reader.full.length = k ∨
        ∃ msg rest, s.reader.place = .putting msg rest ∧ s.reader.full.length + 1 = k) ∧
      s.reader.put
        = (kept s.reader.full ((s.publisher.sent.take k).map PublishedMsg.readBack)).map
            (fun m => .received (some m))
          ++ (if s.reader.place = .left then [.endOfFlow none] else []) ∧
      s.sender.handed
        = ((kept s.reader.full ((s.publisher.sent.take k).map PublishedMsg.readBack)).take
            s.taken.length).map (fun m => .received (some m)) := by
  have hfair : s.Fair := ⟨hsent, hcut⟩
  have hinv := linkInv_of_reachable h hfair
  have hreached := reached hfair hinv.wire hinv.arrived
  have hlen : s.frames.length = s.publisher.sent.length := List.length_map _
  have hprefix := hinv.reads.handed_isPrefix.trans hreached.handed_isPrefix
  have hframes : s.reader.reader.handed = s.frames.take s.reader.reader.handed.length :=
    List.prefix_iff_eq_take.mp hprefix
  have hk : s.reader.reader.handed.length ≤ s.publisher.sent.length := hlen ▸ hprefix.length_le
  have hread : s.reader.reader.handed.map readFrame
      = (s.publisher.sent.take s.reader.reader.handed.length).map PublishedMsg.readBack := by
    conv_lhs => rw [hframes, frames, ← List.map_take, List.map_map]
    refine List.map_congr_left fun msg hmsg => ?_
    exact (hsent msg (List.mem_of_mem_take hmsg)).framed.readFrame_eq
  have hlast : s.reader.place.lastPut
      = if s.reader.place = .left then [.endOfFlow none] else [] := by
    cases s.reader.place <;> rfl
  have hput := hinv.reads.put
  rw [hread] at hput
  refine ⟨s.reader.reader.handed.length, hk, hframes, ?_, ?_, ?_, hinv.reads.calm, ?_, ?_, ?_⟩
  · exact (hreached.le_handed_iff (hlen ▸ hk)).mp hinv.reads.handed_isPrefix.length_le
  · intro hdate j hj hle
    rw [hinv.handed_of_upToDate hdate]
    exact (hreached.le_handed_iff (hlen ▸ hj)).mpr hle
  · intro hdate hrunning hall
    obtain ⟨rest, hwire, hnone⟩ := hinv.wire
    rw [hnone hrunning, List.append_nil] at hwire
    rw [hall, hwire] at hreached
    rw [hinv.handed_of_upToDate hdate, hreached.handed_eq, hlen]
  · have hfull := hinv.reads.full
    cases hplace : s.reader.place with
    | putting msg rest =>
      rw [hplace] at hfull
      exact Or.inr ⟨msg, rest, rfl, hfull⟩
    | _ =>
      rw [hplace] at hfull
      exact Or.inl hfull
  · rw [hput, hlast]
  · have htaken : s.taken = s.reader.put.take s.taken.length := by
      rw [hinv.taken, List.take_left]
    rw [hinv.handed]
    conv_lhs => rw [htaken, hput]
    rw [List.take_append, List.filter_append, ← List.map_take, filter_received, filter_lastPut,
      List.append_nil]

/-- A buffer that does not end with CR. -/
theorem not_cutInside_of_getLast {frames : List Bytes} {before buffer : Bytes}
    (h : buffer.getLast? ≠ some cr) : ¬ CutInside frames before buffer := by
  rintro ⟨-, -, q, -, -, -, -, rfl⟩
  exact h (by simp)

/-- A heading for destination 0, a sentence between, and a second heading that
has not arrived completely. -/
def headings : List LinkInput :=
  [.publish (.n2k (.of 127250 2 3 0 [1, 2, 3]) 0) none,
    .publish (.other (some (ascii "$HCHDG,1\r\n"))) none, .turn, .readerTurn, .received 12,
    .readerTurn, .readerTurn, .timeOut, .readerTurn,
    .publish (.n2k (.of 127250 2 3 7 [4]) 0) none, .received 40, .readerTurn, .readerTurn,
    .readerTurn, .got .sent, .readerTurn, .readerTurn, .readerTurn]

/-- The first one is handed over, for all addresses. -/
theorem dyLink_delivers_headings :
    (dyLink.final start headings).sender.handed
      = [.received (some ⟨127250, 2, 3, 255, [1, 2, 3]⟩)] := by
  have harrived : ∀ b ∈ (dyLink.final start headings).arrived, b.getLast? ≠ some cr := by
    decide +kernel
  have hsent : (dyLink.final start headings).publisher.sent
      = [.n2k (.of 127250 2 3 0 [1, 2, 3]) 0, .other (some (ascii "$HCHDG,1\r\n")),
        .n2k (.of 127250 2 3 7 [4]) 0] := by decide +kernel
  have hplace : (dyLink.final start headings).reader.place = .receiving := by decide +kernel
  have hfull : (dyLink.final start headings).reader.full = [false, false] := by decide +kernel
  obtain ⟨k, hk, -, harrival, -, -, -, hcount, -, hhanded⟩ :=
    @dyLink_delivers (dyLink.final start headings) ⟨_, rfl⟩
      (by
        intro msg hmsg
        rw [hsent] at hmsg
        simp only [List.mem_cons, List.not_mem_nil, or_false] at hmsg
        rcases hmsg with rfl | rfl | rfl
        · trivial
        · exact ⟨_, rfl, 36, ascii "HCHDG", ascii "1", ascii "$HCHDG,1", by decide, by decide,
            by decide, by decide, by decide, Or.inl (by decide), by decide +kernel,
            by decide +kernel⟩
        · trivial)
      (fun front buffer back heq => not_cutInside_of_getLast
        (harrived buffer (heq ▸ List.mem_append_right _ List.mem_cons_self)))
  have htwo : k = 2 := by
    rw [hfull, hplace] at hcount
    rcases hcount with hcount | ⟨msg, rest, hne, -⟩
    · exact hcount.symm
    · cases hne
  rw [hhanded, hsent, hfull, htwo]
  decide +kernel

/-- Three headings in one buffer. The coupler raises a write error on the first, and
the sender stops the reader when the second is put: the third is never put. -/
example :
    (dyLink.final start
      [.publish (.n2k (.of 127250 2 3 7 [1]) 0) none, .publish (.n2k (.of 127250 2 3 7 [2]) 0) none,
        .publish (.n2k (.of 127250 2 3 7 [3]) 0) none, .turn, .readerTurn, .received 200,
        .readerTurn, .readerTurn, .got .writeError, .readerTurn, .readerTurn, .turn, .readerTurn,
        .readerTurn, .readerTurn, .readerTurn, .readerTurn, .turn]).reader.put
      = [.received (some ⟨127250, 2, 3, 7, [1]⟩), .received (some ⟨127250, 2, 3, 7, [2]⟩),
        .endOfFlow none] := by decide +kernel

end DyLink

end NavigationServer.RouterCore
