/-
NavigationServer.LogReplay.ReplayTheorems — a trace is replayed, or not.

A line is a record exactly when it has the form `R…#date>text`
(`readDecode_eq_ok_iff`). The entries of received frames have this form, those
of sent frames have not, unless a text of several lines brings such a line
along; so the records of a file are its received frames
(`decodedLines_callLines`). Reading starts when there is a received frame and
only lines that begin with `R` stand before it (`readFirst_callLines`).

A trace of the CAN interface is replayed exactly under these conditions, and
no trace of the other two couplers is (`replays_iff`): the reader refuses the
type of the Yacht Devices coupler, and the functions that are to process
Shipmodul records take the frame out of a record twice.
-/
import NavigationServer.Lib.Lists
import NavigationServer.LogReplay.RawLogReader
import NavigationServer.RouterCommon.MessageTrace

namespace NavigationServer.LogReplay

open NavigationServer.Lib
open NavigationServer.Couplers
open NavigationServer.RouterCommon
open NavigationServer.RouterCore

/-! ## 1. Lines that are records -/

/-- `R`, a text up to the first `#`, a date up to the first `>`, and a text. -/
def RecordForm (l : Bytes) : Prop := ∃ (count date rest : Bytes) (ts : DateTime),
  l = 82 :: (count ++ 35 :: (date ++ 62 :: rest)) ∧ 35 ∉ count ∧ 62 ∉ count ∧ 62 ∉ date ∧
    strptime date = some ts

namespace RawLogFile

/-- The first `#`, and the first `>` behind it, cut a line. -/
theorem readDecode_form {count date : Bytes} (rest : Bytes) (h35 : 35 ∉ count) (h62 : 62 ∉ count)
    (hdate : 62 ∉ date) : readDecode (82 :: (count ++ 35 :: (date ++ 62 :: rest)))
      = match strptime date with
        | some ts => .ok (ts, rest.dropLast)
        | none => .error .valueError := by
  have hih : (82 :: (count ++ 35 :: (date ++ 62 :: rest))).idxOf? 35 = some (82 :: count).length :=
    idxOf?_append_cons (l := 82 :: count) (by simpa using h35) (date ++ 62 :: rest)
  have hsup : (82 :: (count ++ 35 :: (date ++ 62 :: rest))).idxOf? 62
      = some (82 :: count ++ 35 :: date).length := by
    have h := idxOf?_append_cons (l := 82 :: count ++ 35 :: date) (x := 62)
      (by simpa using ⟨h62, hdate⟩) rest
    simpa only [List.cons_append, List.append_assoc] using h
  have hdateSlice : slice (82 :: (count ++ 35 :: (date ++ 62 :: rest)))
      (((82 :: count).length : Int) + 1) ((82 :: count ++ 35 :: date).length : Int) = date := by
    have h := slice_append (82 :: count ++ [35]) date (62 :: rest)
    have hl : (82 :: count ++ [35]) ++ (date ++ 62 :: rest)
        = 82 :: (count ++ 35 :: (date ++ 62 :: rest)) := by simp
    have hstart : ((82 :: count ++ [35]).length : Int) = ((82 :: count).length : Int) + 1 := by simp
    have hstop : (82 :: count ++ [35]).length + date.length = (82 :: count ++ 35 :: date).length := by
      simp
      omega
    rwa [hl, hstart, hstop] at h
  have hrest : slice (82 :: (count ++ 35 :: (date ++ 62 :: rest)))
      (((82 :: count ++ 35 :: date).length : Int) + 1) (-1) = rest.dropLast := by
    have h := slice_append_dropLast (82 :: count ++ 35 :: date ++ [62]) rest
    have hl : (82 :: count ++ 35 :: date ++ [62]) ++ rest
        = 82 :: (count ++ 35 :: (date ++ 62 :: rest)) := by simp
    have hstart : ((82 :: count ++ 35 :: date ++ [62]).length : Int)
        = ((82 :: count ++ 35 :: date).length : Int) + 1 := by
      simp
      omega
    rwa [hl, hstart] at h
  unfold readDecode
  rw [hih, hsup]
  dsimp only
  rw [hdateSlice, hrest]
  cases strptime date <;> rfl

/-- The places of the first `#` and the first `>` of a line that is read as a
record. -/
theorem readDecode_places {l : Bytes} {record : DateTime × Bytes} (h : readDecode l = .ok record) :
    ∃ ih iSup : Nat, l.head? = some 82 ∧ l.idxOf? 35 = some ih ∧ l.idxOf? 62 = some iSup ∧
      (strptime (slice l (ih + 1) iSup)).isSome := by
  cases l with
  | nil => cases h
  | cons c l =>
    unfold readDecode item at h
    dsimp only [List.getElem?_cons_zero, bind, Except.bind] at h
    by_cases hc : c = 82
    · rw [if_neg (not_not.mpr hc)] at h
      split at h
      · rename_i ih iSup hih hsup
        split at h
        · rename_i ts hts
          exact ⟨ih, iSup, congrArg some hc, hih, hsup, by rw [hts]; rfl⟩
        · cases h
      · cases h
    · rw [if_pos hc] at h
      cases h

/-- **A line is read as a record when it has the form of one.** -/
theorem readDecode_eq_ok_iff {l : Bytes} :
    (∃ record, readDecode l = .ok record) ↔ RecordForm l := by
  constructor
  · rintro ⟨record, h⟩
    obtain ⟨ih, iSup, hhead, hih, hsup, hdate⟩ := readDecode_places h
    obtain ⟨a, b, hab, ha, rfl⟩ := idxOf?_split hih
    obtain ⟨a', b', hab', ha', rfl⟩ := idxOf?_split hsup
    subst hab
    rcases List.append_eq_append_iff.mp hab' with ⟨c, rfl, hc⟩ | ⟨c, rfl, hc⟩
    · -- the `#` stands before the `>`
      cases c with
      | nil => cases hc
      | cons x date =>
        obtain ⟨rfl, rfl⟩ := List.cons.inj hc
        cases a with
        | nil => cases hhead
        | cons y count =>
          cases hhead
          simp only [List.cons_append, List.mem_cons, List.mem_append, not_or] at ha ha'
          have hform := readDecode_form b' ha.2 ha'.2.1 ha'.2.2.2
          have h : readDecode (82 :: (count ++ 35 :: (date ++ 62 :: b'))) = .ok record := h
          rw [h] at hform
          cases hts : strptime date with
          | none => rw [hts] at hform; cases hform
          | some ts => exact ⟨count, date, b', ts, rfl, ha.2, ha'.2.1, ha'.2.2.2, hts⟩
    · have hempty : slice (a' ++ c ++ 35 :: b) (((a' ++ c).length : Int) + 1) (a'.length : Int) = [] := by
        have h := slice_natCast (a' ++ c ++ 35 :: b) ((a' ++ c).length + 1) a'.length
        rw [Nat.sub_eq_zero_of_le (by simp; omega), List.take_zero] at h
        exact_mod_cast h
      rw [hempty] at hdate
      cases hdate
  · rintro ⟨count, date, rest, ts, rfl, h35, h62, hdate, hts⟩
    rw [readDecode_form rest h35 h62 hdate, hts]
    exact ⟨_, rfl⟩

/-- What is no record is passed over, or has another prefix. -/
theorem readDecode_error {l : Bytes} (hne : l ≠ []) (h : ¬ RecordForm l) :
    readDecode l
      = .error (if l.head? = some 82 then .valueError else .logReadError "WRONG PREFIX") := by
  cases hl : readDecode l with
  | ok record => exact absurd (readDecode_eq_ok_iff.mp ⟨record, hl⟩) h
  | error e =>
    cases l with
    | nil => exact absurd rfl hne
    | cons c l =>
      unfold readDecode item at hl
      dsimp only [List.getElem?_cons_zero, bind, Except.bind] at hl
      by_cases hc : c = 82
      · subst hc
        rw [if_neg (by decide)] at hl
        rw [List.head?_cons, if_pos rfl]
        split at hl
        · split at hl
          · cases hl
          · cases hl
            rfl
        · cases hl
          rfl
      · rw [if_pos hc] at hl
        cases hl
        rw [if_neg (by simpa using hc)]

/-- A count has digits only. -/
theorem notMem_decimal {x : UInt8} (hx : isDigit x = false) (n : Nat) : x ∉ decimal n := by
  intro h
  rw [isDigit_of_mem_decimal h] at hx
  cases hx

/-- A date has digits and its four marks only. -/
theorem notMem_strftime {x : UInt8} (hx : isDigit x = false) (hmark : x ∉ [45, 32, 58, 46])
    (ts : DateTime) : x ∉ strftime ts := by
  intro h
  rcases mem_strftime h with hdigit | hmem
  · rw [hdigit] at hx
    cases hx
  · exact hmark hmem

/-- **The entry of a received frame is read back.** -/
theorem readDecode_received (n : Nat) {ts : DateTime} (hyear : 1000 ≤ ts.year) (frame : Bytes) :
    readDecode (fc 82 n ts .traceIn ++ frame ++ [10]) = .ok (ts, frame) := by
  have h := readDecode_form (frame ++ [10]) (notMem_decimal (x := 35) (by decide) n)
    (notMem_decimal (x := 62) (by decide) n)
    (notMem_strftime (x := 62) (by decide) (by decide) ts)
  rw [strptime_strftime ts hyear, List.dropLast_concat] at h
  have hline : fc 82 n ts .traceIn ++ frame ++ [10]
      = 82 :: (decimal n ++ 35 :: (strftime ts ++ 62 :: (frame ++ [10]))) := by
    unfold fc Direction.mark
    simp
  rw [hline, h]

/-- The first line of what is sent has a `<` in the date. -/
theorem not_recordForm_sent (letter : UInt8) (n : Nat) (ts : DateTime) (rest : Bytes) :
    ¬ RecordForm (fc letter n ts .traceOut ++ rest) := by
  rintro ⟨count, date, back, d, heq, h35, h62, hdate, hd⟩
  have hline : fc letter n ts .traceOut ++ rest
      = letter :: (decimal n ++ 35 :: (strftime ts ++ 60 :: rest)) := by
    unfold fc Direction.mark
    simp
  rw [hline] at heq
  obtain ⟨-, heq⟩ := List.cons.inj heq
  obtain ⟨-, heq⟩ := append_cons_cancel (notMem_decimal (by decide) n) h35 heq
  rcases List.append_eq_append_iff.mp heq with ⟨c, rfl, hc⟩ | ⟨c, hts, hc⟩
  · cases c with
    | nil => cases hc
    | cons x c =>
      cases hc
      rw [strptime_foreign (x := 60) (by simp) (by unfold DateChar; decide)] at hd
      cases hd
  · cases c with
    | nil => cases hc
    | cons x c =>
      cases hc
      exact absurd (hts ▸ by simp) (notMem_strftime (x := 62) (by decide) (by decide) ts)

end RawLogFile

/-! ## 2. The lines of a trace -/

/-- The coupler types with a branch in the replay coupler. -/
inductive TracedType where
  | socketCANInterface
  | shipModulInterface
  | ydCoupler
  deriving DecidableEq, Repr

def TracedType.name : TracedType → Bytes
  | .socketCANInterface => ascii "SocketCANInterface"
  | .shipModulInterface => ascii "ShipModulInterface"
  | .ydCoupler => ascii "YDCoupler"

def Printable (text : Bytes) : Prop := ∀ c ∈ text, 32 ≤ c ∧ c ≤ 126

/-- The text of a CAN frame: `%08X,%s` of the identifier and the data. -/
def IsCanFrame (text : Bytes) : Prop := ∃ (canId : Nat) (data : Bytes),
  text = hexNumber .upper 8 canId ++ comma :: hexBytes .lower data

/-- The frame that a call traces. -/
def tracedFrame : TraceCall → Bytes
  | .message _ _ outMsg => outMsg
  | .raw _ _ msg _ => msg
  | .can _ _ _ traceStr => traceStr

/-- The suffix that a call strips. -/
def strippedSuffix : TraceCall → Bytes
  | .raw _ _ _ (some suffix) => suffix
  | _ => []

/-- A frame as a coupler traces it when it is received: raw, in printable
characters, with no more than line ends stripped. -/
structure ReceivedFrame (type : TracedType) (c : TraceCall) : Prop where
  raw : c.letter = 82
  printable : Printable (tracedFrame c)
  stripped : ∀ x ∈ strippedSuffix c, x = 10 ∨ x = 13
  clock : 1970 ≤ c.time.year
  canFrame : type = .socketCANInterface → IsCanFrame (tracedFrame c)

/-- The received frames of a sequence of calls are such frames. -/
def Traced (type : TracedType) (calls : List TraceCall) : Prop :=
  ∀ c ∈ calls, c.direction = .traceIn → ReceivedFrame type c

/-- No line of a sent frame has the form of a record. -/
def NoneMistaken (calls : List TraceCall) : Prop :=
  ∀ c ∈ calls, c.direction = .traceOut → ∀ l ∈ c.moreLines, ¬ RecordForm l

/-- A text without control characters is one line. -/
theorem Printable.oneLine {text : Bytes} (h : Printable text) : OneLine text := by
  intro c hc
  obtain ⟨hlow, -⟩ := h c hc
  exact ⟨fun heq => absurd (heq ▸ hlow) (by decide), fun heq => absurd (heq ▸ hlow) (by decide)⟩

/-- What the trace has of a received frame. -/
theorem ReceivedFrame.text {type : TracedType} {c : TraceCall} (h : ReceivedFrame type c) :
    c.text = some (tracedFrame c) := by
  cases c with
  | message direction ts outMsg => rfl
  | can timeStamp msgCount direction traceStr => rfl
  | raw direction now msg stripSuffix =>
    have hprintable : Printable msg := h.printable
    have hascii : ∀ c ∈ msg, c < 128 := by
      intro c hc
      exact UInt8.lt_of_le_of_lt (hprintable c hc).2 (by decide)
    unfold TraceCall.text
    dsimp only
    rw [if_pos (decodes_ascii hascii)]
    cases stripSuffix with
    | none => rfl
    | some suffix =>
      refine congrArg some (rstrip_eq_self ?_)
      intro x hx hmem
      have hone := hprintable.oneLine x hmem
      exact (h.stripped x hx).elim hone.1 hone.2

namespace RawLogFile

/-- The records among some lines. -/
def decodedLines (lines : List Bytes) : List (DateTime × Bytes) :=
  lines.filterMap (fun l => (readDecode l).toOption)

/-- The records of two parts of a file. -/
theorem decodedLines_append (lines lines' : List Bytes) :
    decodedLines (lines ++ lines') = decodedLines lines ++ decodedLines lines' :=
  List.filterMap_append

/-- A line of another form is no record. -/
theorem toOption_readDecode {l : Bytes} (h : ¬ RecordForm l) : (readDecode l).toOption = none := by
  cases hl : readDecode l with
  | ok record => exact absurd (readDecode_eq_ok_iff.mp ⟨record, hl⟩) h
  | error e => rfl

/-- A line that is decoded is a record. -/
theorem decodedLines_cons_ok {l : Bytes} {record : DateTime × Bytes} (lines : List Bytes)
    (h : readDecode l = .ok record) : decodedLines (l :: lines) = record :: decodedLines lines := by
  unfold decodedLines
  exact List.filterMap_cons_some (by rw [h]; rfl)

/-- A line that is not is passed over. -/
theorem decodedLines_cons_error {l : Bytes} {e : Exn} (lines : List Bytes)
    (h : readDecode l = .error e) : decodedLines (l :: lines) = decodedLines lines := by
  unfold decodedLines
  exact List.filterMap_cons_none (by rw [h]; rfl)

/-- A file without records has no line of the form. -/
theorem decodedLines_eq_nil_iff {lines : List Bytes} :
    decodedLines lines = [] ↔ ∀ l ∈ lines, ¬ RecordForm l := by
  unfold decodedLines
  rw [List.filterMap_eq_nil_iff]
  constructor
  · intro h l hl hform
    obtain ⟨record, hrecord⟩ := readDecode_eq_ok_iff.mpr hform
    have hnone := h l hl
    rw [hrecord] at hnone
    cases hnone
  · intro h l hl
    exact toOption_readDecode (h l hl)

/-- The entry of a received frame is one line. -/
theorem entryLines_received {type : TracedType} {c : TraceCall} (n : Nat)
    (h : ReceivedFrame type c) : c.entryLines n
      = [fc 82 (c.count n) c.time c.direction ++ tracedFrame c ++ [10]] := by
  rw [TraceCall.entryLines_oneLine n h.text h.printable.oneLine, h.raw]

/-- That line is a record, of the time and the text of the frame. -/
theorem decodedLines_received {type : TracedType} {c : TraceCall} (n : Nat)
    (hin : c.direction = .traceIn) (h : ReceivedFrame type c) :
    decodedLines (c.entryLines n) = [(c.time, tracedFrame c)] := by
  have hyear : 1000 ≤ c.time.year := Nat.le_trans (by decide) h.clock
  rw [entryLines_received n h, hin]
  exact decodedLines_cons_ok [] (readDecode_received _ hyear _)

/-- Of what is sent only the lines behind the first count. -/
theorem decodedLines_sent {c : TraceCall} (n : Nat) (hout : c.direction = .traceOut) :
    decodedLines (c.entryLines n) = decodedLines c.moreLines := by
  cases htext : c.text with
  | none =>
    unfold TraceCall.entryLines TraceCall.moreLines
    rw [htext]
  | some text =>
    obtain ⟨first, hlines⟩ := TraceCall.entryLines_cons n htext
    rw [hlines, hout]
    exact List.filterMap_cons_none (toOption_readDecode (not_recordForm_sent _ _ _ _))

/-- The received frames. -/
def received (calls : List TraceCall) : List TraceCall :=
  calls.filter (fun c => c.direction = .traceIn)

/-- **The records of a trace are its received frames.** -/
theorem decodedLines_callLines {type : TracedType} {calls : List TraceCall} (n : Nat)
    (htraced : Traced type calls) (hnone : NoneMistaken calls) :
    decodedLines (TraceCall.callLines n calls)
      = (received calls).map (fun c => (c.time, tracedFrame c)) := by
  induction calls generalizing n with
  | nil => rfl
  | cons c calls ih =>
    have ih := ih (n + 1) (fun d hd => htraced d (List.mem_cons_of_mem _ hd))
      (fun d hd => hnone d (List.mem_cons_of_mem _ hd))
    unfold received at ih ⊢
    rw [TraceCall.callLines, decodedLines_append, ih]
    cases hdir : c.direction with
    | traceIn =>
      rw [decodedLines_received n hdir (htraced c List.mem_cons_self hdir),
        List.filter_cons_of_pos (by simp [hdir])]
      rfl
    | traceOut =>
      rw [decodedLines_sent n hdir, decodedLines_eq_nil_iff.mpr (hnone c List.mem_cons_self hdir),
        List.filter_cons_of_neg (by simp [hdir])]
      rfl

/-- Every received frame is a record, so a mistaken line makes one too many. -/
theorem length_decodedLines {type : TracedType} {calls : List TraceCall} (n : Nat)
    (htraced : Traced type calls) :
    (received calls).length ≤ (decodedLines (TraceCall.callLines n calls)).length ∧
      ((decodedLines (TraceCall.callLines n calls)).length ≤ (received calls).length →
        NoneMistaken calls) := by
  induction calls generalizing n with
  | nil => exact ⟨Nat.le_refl _, fun _ _ h => absurd h List.not_mem_nil⟩
  | cons c calls ih =>
    obtain ⟨hle, himp⟩ := ih (n + 1) (fun d hd => htraced d (List.mem_cons_of_mem _ hd))
    unfold received at hle himp ⊢
    rw [TraceCall.callLines, decodedLines_append, List.length_append]
    cases hdir : c.direction with
    | traceIn =>
      rw [decodedLines_received n hdir (htraced c List.mem_cons_self hdir),
        List.filter_cons_of_pos (by simp [hdir]), List.length_cons, List.length_singleton]
      refine ⟨by omega, fun h => ?_⟩
      intro d hd hout
      rcases List.mem_cons.mp hd with rfl | hd
      · rw [hdir] at hout
        cases hout
      · exact himp (by omega) d hd hout
    | traceOut =>
      rw [decodedLines_sent n hdir, List.filter_cons_of_neg (by simp [hdir])]
      refine ⟨by omega, fun h => ?_⟩
      intro d hd hout
      rcases List.mem_cons.mp hd with rfl | hd
      · exact decodedLines_eq_nil_iff.mp (List.length_eq_zero_iff.mp (by omega))
      · exact himp (by omega) d hd hout

/-! ## 3. Loading -/

/-- No line of a trace is empty, so none ends the file early. -/
theorem ne_nil_of_mem_callLines {calls : List TraceCall} {n : Nat} {l : Bytes}
    (h : l ∈ TraceCall.callLines n calls) : l ≠ [] := by
  induction calls generalizing n with
  | nil => cases h
  | cons c calls ih =>
    rcases List.mem_append.mp h with h | h
    · unfold TraceCall.entryLines at h
      cases htext : c.text with
      | none => rw [htext] at h; cases h
      | some text => rw [htext] at h; exact ne_nil_of_mem_linesFrom h
    · exact ih h

/-- The loop over the lines keeps the records, by induction on the lines. -/
theorem readRecords_eq {lines : List Bytes} (hne : ∀ l ∈ lines, l ≠ []) :
    readRecords lines = .ok (decodedLines lines) := by
  induction lines with
  | nil => rfl
  | cons l lines ih =>
    have ih := ih (fun x hx => hne x (List.mem_cons_of_mem _ hx))
    unfold readRecords
    by_cases hform : RecordForm l
    · obtain ⟨record, hl⟩ := readDecode_eq_ok_iff.mpr hform
      rw [decodedLines_cons_ok lines hl, hl, ih]
      rfl
    · have hl := readDecode_error (hne l List.mem_cons_self) hform
      rw [decodedLines_cons_error lines hl, hl]
      split_ifs <;> exact ih

/-- The first record found is the first one there is. -/
theorem readFirst_eq_ok {lines rest : List Bytes} {record : DateTime × Bytes}
    (h : readFirst lines = .ok (record, rest)) :
    decodedLines lines = record :: decodedLines rest ∧ ∀ l ∈ rest, l ∈ lines := by
  induction lines with
  | nil => cases h
  | cons l lines ih =>
    unfold readFirst at h
    split at h
    · rename_i hl
      cases h
      rw [decodedLines_cons_ok _ hl]
      exact ⟨rfl, fun x hx => List.mem_cons_of_mem _ hx⟩
    · rename_i hl
      rw [decodedLines_cons_error lines hl]
      exact ⟨(ih h).1, fun x hx => List.mem_cons_of_mem _ ((ih h).2 x hx)⟩
    · cases h

/-- Lines with an `R` that are no records are passed over; another line that
stands before the first record ends the loading. -/
theorem readFirst_append {lines : List Bytes} (rest : List Bytes) (hne : ∀ l ∈ lines, l ≠ [])
    (hform : ∀ l ∈ lines, ¬ RecordForm l) :
    readFirst (lines ++ rest) = if ∀ l ∈ lines, l.head? = some 82 then readFirst rest
      else .error (.logReadError "WRONG PREFIX") := by
  induction lines with
  | nil => simp
  | cons l lines ih =>
    have ih := ih (fun x hx => hne x (List.mem_cons_of_mem _ hx))
      (fun x hx => hform x (List.mem_cons_of_mem _ hx))
    have herror := readDecode_error (hne l List.mem_cons_self) (hform l List.mem_cons_self)
    rw [List.cons_append, readFirst, herror]
    by_cases hhead : l.head? = some 82
    · rw [if_pos hhead]
      simp only [List.forall_mem_cons, hhead, true_and]
      exact ih
    · rw [if_neg hhead, if_neg (fun h => hhead (h l List.mem_cons_self))]

end RawLogFile

/-- The entry of a call has only lines that begin with `R`. -/
def PassedOver (c : TraceCall) : Prop :=
  c.text ≠ none → c.letter = 82 ∧ ∀ l ∈ c.moreLines, l.head? = some 82

/-- There is a received frame, and the lines before it begin with `R`. -/
def BeginsRaw : List TraceCall → Prop
  | [] => False
  | c :: calls => c.direction = .traceIn ∨ PassedOver c ∧ BeginsRaw calls

namespace RawLogFile

/-- An entry is passed over when all its lines begin with `R`. -/
theorem passedOver_iff (c : TraceCall) (n : Nat) :
    PassedOver c ↔ ∀ l ∈ c.entryLines n, l.head? = some 82 := by
  unfold PassedOver
  cases htext : c.text with
  | none =>
    unfold TraceCall.entryLines
    rw [htext]
    simp
  | some text =>
    obtain ⟨first, hlines⟩ := TraceCall.entryLines_cons n htext
    rw [hlines, List.forall_mem_cons]
    unfold fc
    simp

/-- **A first record is found when a received frame comes early enough.** -/
theorem readFirst_callLines {type : TracedType} {calls : List TraceCall} (n : Nat)
    (htraced : Traced type calls) (hnone : NoneMistaken calls) :
    (∃ x, readFirst (TraceCall.callLines n calls) = .ok x) ↔ BeginsRaw calls := by
  induction calls generalizing n with
  | nil =>
    constructor
    · rintro ⟨x, h⟩
      cases h
    · exact fun h => h.elim
  | cons c calls ih =>
    have ih := ih (n + 1) (fun d hd => htraced d (List.mem_cons_of_mem _ hd))
      (fun d hd => hnone d (List.mem_cons_of_mem _ hd))
    have hne : ∀ l ∈ c.entryLines n, l ≠ [] := by
      intro l hl
      have hmem : l ∈ TraceCall.callLines n (c :: calls) := List.mem_append_left _ hl
      exact ne_nil_of_mem_callLines hmem
    rw [TraceCall.callLines, BeginsRaw]
    cases hdir : c.direction with
    | traceIn =>
      have hc := htraced c List.mem_cons_self hdir
      have hyear : 1000 ≤ c.time.year := Nat.le_trans (by decide) hc.clock
      rw [entryLines_received n hc, hdir, List.singleton_append, readFirst,
        readDecode_received _ hyear]
      exact ⟨fun _ => Or.inl rfl, fun _ => ⟨_, rfl⟩⟩
    | traceOut =>
      have hform : ∀ l ∈ c.entryLines n, ¬ RecordForm l := by
        rw [← decodedLines_eq_nil_iff, decodedLines_sent n hdir, decodedLines_eq_nil_iff]
        exact hnone c List.mem_cons_self hdir
      rw [readFirst_append _ hne hform, passedOver_iff c n]
      by_cases hhead : ∀ l ∈ c.entryLines n, l.head? = some 82
      · rw [if_pos hhead, ih]
        exact ⟨fun h => Or.inr ⟨hhead, h⟩, fun h => (h.resolve_left (by decide)).2⟩
      · rw [if_neg hhead]
        constructor
        · rintro ⟨x, h⟩
          cases h
        · rintro (h | h)
          · cases h
          · exact absurd h.1 hhead

/-- The lines of the file: the header, then the entries. -/
theorem fileLines_traceFile (type : TracedType) (calls : List TraceCall) :
    ∃ header : Bytes, headerType header = .ok type.name ∧
      fileLines (TraceCall.traceFile type.name calls) = header :: TraceCall.callLines 0 calls := by
  have hheader : OneLine (ascii "H0|" ++ type.name ++ ascii "|V1.4") := by
    unfold OneLine
    cases type <;> decide +kernel
  refine ⟨ascii "H0|" ++ type.name ++ ascii "|V1.4" ++ [10], ?_, ?_⟩
  · cases type <;> decide
  · have hlines := TraceCall.fileLines_foldl_run calls (ascii "H0|" ++ type.name ++ ascii "|V1.4") 0
    have hend : ascii "|V1.4\n" = ascii "|V1.4" ++ [10] := rfl
    rw [fileLines_line hheader, List.singleton_append] at hlines
    unfold TraceCall.traceFile NMEAMsgTrace.new
    rw [hend, ← List.append_assoc]
    exact hlines

/-- What is loaded: the records among the lines. -/
theorem loadFile_traceFile {type : TracedType} {calls : List TraceCall} {file : RawLogFile}
    (h : loadFile (TraceCall.traceFile type.name calls) = .ok file) :
    ∃ cls x, recordClass type.name = .ok cls ∧ readFirst (TraceCall.callLines 0 calls) = .ok x ∧
      file.type = type.name ∧ file.records
        = (decodedLines (TraceCall.callLines 0 calls)).map (fun record => cls record.1 record.2) := by
  obtain ⟨header, htype, hlines⟩ := fileLines_traceFile type calls
  unfold loadFile at h
  rw [hlines] at h
  dsimp only [bind, Except.bind] at h
  rw [htype] at h
  dsimp only at h
  cases hcls : recordClass type.name with
  | error e => rw [hcls] at h; cases h
  | ok cls =>
    rw [hcls] at h
    dsimp only at h
    cases hfirst : readFirst (TraceCall.callLines 0 calls) with
    | error e => rw [hfirst] at h; cases h
    | ok x =>
      obtain ⟨record, rest⟩ := x
      obtain ⟨hdecoded, hrest⟩ := readFirst_eq_ok hfirst
      rw [hfirst] at h
      dsimp only at h
      rw [readRecords_eq (fun l hl => ne_nil_of_mem_callLines (hrest l hl))] at h
      cases h
      exact ⟨cls, _, rfl, rfl, rfl, by rw [hdecoded]⟩

/-- With a class for its type and a first record, the file is loaded. -/
theorem loadFile_traceFile_ok {type : TracedType} {calls : List TraceCall}
    {cls : DateTime → Bytes → RawLogRecord} (hcls : recordClass type.name = .ok cls)
    (hfirst : ∃ x, readFirst (TraceCall.callLines 0 calls) = .ok x) :
    ∃ file, loadFile (TraceCall.traceFile type.name calls) = .ok file := by
  obtain ⟨header, htype, hlines⟩ := fileLines_traceFile type calls
  obtain ⟨⟨record, rest⟩, hfirst⟩ := hfirst
  have hrest := (readFirst_eq_ok hfirst).2
  unfold loadFile
  rw [hlines]
  dsimp only [bind, Except.bind]
  rw [htype]
  dsimp only
  rw [hcls]
  dsimp only
  rw [hfirst]
  dsimp only
  rw [readRecords_eq (fun l hl => ne_nil_of_mem_callLines (hrest l hl))]
  exact ⟨_, rfl⟩

/-! ## 4. Reading -/

/-- A reading gives the next record. -/
theorem readMessage_next {file : RawLogFile} {r : RawLogRecord} (h : file.firstRecord = false)
    (hr : file.records[file.index + 1]? = some r) :
    file.readMessage = (.ok (some r), { file with index := file.index + 1 }) := by
  unfold readMessage
  rw [if_neg (by rw [h]; exact Bool.false_ne_true)]
  dsimp only
  rw [hr]

/-- Behind the last record it raises. -/
theorem readMessage_eof {file : RawLogFile} (h : file.firstRecord = false)
    (hr : file.records[file.index + 1]? = none) :
    file.readMessage = (.error (.logReadError "EOF"), { file with index := file.index + 1 }) := by
  unfold readMessage
  rw [if_neg (by rw [h]; exact Bool.false_ne_true)]
  dsimp only
  rw [hr]

/-- **Reading to the end**, by induction on the records that are left. -/
theorem readsToEof_rest {file : RawLogFile} (h : file.firstRecord = false) (rs : List RawLogRecord)
    (hrs : file.records.drop (file.index + 1) = rs) : ReadsToEof file rs := by
  induction rs generalizing file with
  | nil =>
    exact .eof (readMessage_eof h (List.getElem?_eq_none (List.drop_eq_nil_iff.mp hrs)))
  | cons r rs ih =>
    have hr : file.records[file.index + 1]? = some r := by
      rw [← List.head?_drop, hrs]
      rfl
    refine .next (readMessage_next h hr) (ih h ?_)
    rw [← List.tail_drop, hrs]
    rfl

/-- There is one way to read a file. -/
theorem ReadsToEof.unique {file : RawLogFile} {rs rs' : List RawLogRecord}
    (h : ReadsToEof file rs) (h' : ReadsToEof file rs') : rs = rs' := by
  induction h generalizing rs' with
  | eof h =>
    cases h' with
    | eof => rfl
    | next h' => rw [h] at h'; cases h'
  | next h hrest ih =>
    cases h' with
    | eof h' => rw [h] at h'; cases h'
    | next h' hrest' =>
      rw [h] at h'
      cases h'
      rw [ih hrest']

/-- **From `prepare_read` on the records are read in their order.** -/
theorem readsToEof_iff {file prepared : RawLogFile} (h : file.prepareRead 0 = .ok prepared)
    (rs : List RawLogRecord) : ReadsToEof prepared rs ↔ rs = file.records := by
  have hread : ReadsToEof prepared file.records := by
    unfold prepareRead setReferences item at h
    dsimp only [bind, Except.bind] at h
    cases hrecords : file.records with
    | nil => rw [hrecords] at h; cases h
    | cons r rs =>
      rw [hrecords] at h
      cases h
      exact .next rfl (readsToEof_rest rfl rs rfl)
  exact ⟨fun hrs => hrs.unique hread, fun hrs => hrs ▸ hread⟩

/-- A file with a record can be read from its start. -/
theorem prepareRead_ok {file : RawLogFile} (h : file.records ≠ []) :
    ∃ prepared, file.prepareRead 0 = .ok prepared ∧ prepared.type = file.type := by
  unfold prepareRead setReferences item
  dsimp only [bind, Except.bind]
  cases hrecords : file.records with
  | nil => exact absurd hrecords h
  | cons r rs => exact ⟨_, rfl, rfl⟩

end RawLogFile

/-! ## 5. Replay -/

/-- The record is that of the received frame: its time and its text, with CR LF
where the reader adds it. -/
def IsRecordOf (r : RawLogRecord) (c : TraceCall) : Prop :=
  r.timestamp = c.time ∧ (r.message = .str (tracedFrame c) ∨ r.message = .bytes (tracedFrame c) ∨
    r.message = .bytes (tracedFrame c ++ crLf))

/-- The processing function takes a frame out of the record. -/
def ProcessMessage.Accepts (f : ProcessMessage) (r : RawLogRecord) : Prop :=
  ∃ frame, f.frameOf (.record r) = .ok frame

/-- The trace file of the calls is loaded; read from the beginning to its end it
gives the received frames, and the processing function of a coupler in `mode`
accepts each record. -/
def Replays (type : TracedType) (mode : CouplerMode) (calls : List TraceCall) : Prop :=
  ∃ (file prepared : RawLogFile) (records : List RawLogRecord) (f : ProcessMessage),
    RawLogFile.loadFile (TraceCall.traceFile type.name calls) = .ok file ∧
    file.prepareRead 0 = .ok prepared ∧ RawLogFile.ReadsToEof prepared records ∧
    List.Forall₂ IsRecordOf records (RawLogFile.received calls) ∧
    selectProcess file.type mode = some f ∧ ∀ r ∈ records, f.Accepts r

/-- The functions for Shipmodul records look for the frame in the frame. -/
theorem not_accepts_shipModul {f : ProcessMessage} {mode : CouplerMode} (r : RawLogRecord)
    (h : selectProcess (TracedType.name .shipModulInterface) mode = some f) : ¬ f.Accepts r := by
  rintro ⟨frame, hframe⟩
  unfold selectProcess TracedType.name at h
  rw [if_pos rfl] at h
  split at h <;> cases h <;> cases hframe

/-- A frame of the CAN interface is taken by its own function. -/
theorem accepts_canFrame {r : RawLogRecord} {text : Bytes} (hr : r.message = .str text)
    (h : IsCanFrame text) : ProcessMessage.processCanFrame.Accepts r := by
  obtain ⟨canId, data, rfl⟩ := h
  have hid : slice (hexNumber .upper 8 canId ++ comma :: hexBytes .lower data) 0 8
      = hexNumber .upper 8 canId := by
    rw [show (8 : Int) = ((8 : Nat) : Int) from rfl, slice_zero]
    exact List.take_left' (length_hexNumber _ _ _)
  have hdata : (hexNumber .upper 8 canId ++ comma :: hexBytes .lower data).drop 9
      = hexBytes .lower data := by
    rw [← List.singleton_append, ← List.append_assoc]
    exact List.drop_left' (by simp)
  refine ⟨.can (canId % 16 ^ 8) data, ?_⟩
  unfold ProcessMessage.frameOf canFrame Argument.getMessage
  dsimp only [bind, Except.bind]
  rw [hr]
  dsimp only
  rw [hid, hdata, int16_hexNumber .upper (by decide), fromhex_hexBytes]
  rfl

/-- What the loading of a replayed trace gives. -/
theorem Replays.loaded {type : TracedType} {mode : CouplerMode} {calls : List TraceCall}
    (h : Replays type mode calls) :
    ∃ cls x f, RawLogFile.recordClass type.name = .ok cls ∧
      RawLogFile.readFirst (TraceCall.callLines 0 calls) = .ok x ∧
      selectProcess type.name mode = some f ∧
      List.Forall₂ IsRecordOf ((RawLogFile.decodedLines (TraceCall.callLines 0 calls)).map
        (fun record => cls record.1 record.2)) (RawLogFile.received calls) ∧
      ∀ r ∈ (RawLogFile.decodedLines (TraceCall.callLines 0 calls)).map
        (fun record => cls record.1 record.2), f.Accepts r := by
  obtain ⟨file, prepared, records, f, hload, hprepare, hread, hrecords, hselect, haccepts⟩ := h
  obtain ⟨cls, x, hcls, hfirst, htype, hloaded⟩ := RawLogFile.loadFile_traceFile hload
  have heq := (RawLogFile.readsToEof_iff hprepare records).mp hread
  rw [heq, hloaded] at hrecords haccepts
  rw [htype] at hselect
  exact ⟨cls, x, f, hcls, hfirst, hselect, hrecords, haccepts⟩

/-- The function of the Shipmodul records takes the frame out a second time. -/
theorem not_replays_shipModul (mode : CouplerMode) (calls : List TraceCall) :
    ¬ Replays .shipModulInterface mode calls := by
  intro h
  obtain ⟨cls, ⟨record, rest⟩, f, -, hfirst, hselect, -, haccepts⟩ := h.loaded
  rw [(RawLogFile.readFirst_eq_ok hfirst).1, List.map_cons] at haccepts
  exact not_accepts_shipModul _ hselect (haccepts _ List.mem_cons_self)

/-- The type of the Yacht Devices coupler has no class. -/
theorem not_replays_ydCoupler (mode : CouplerMode) (calls : List TraceCall) :
    ¬ Replays .ydCoupler mode calls := by
  intro h
  obtain ⟨cls, -, -, hcls, -⟩ := h.loaded
  cases hcls

/-- **A trace is replayed exactly when it is one of the CAN interface, the
lines before its first received frame begin with `R`, and no sent frame brings
a line along that has the form of a record.** -/
theorem replays_iff {type : TracedType} (mode : CouplerMode) {calls : List TraceCall}
    (htraced : Traced type calls) :
    Replays type mode calls
      ↔ type = .socketCANInterface ∧ BeginsRaw calls ∧ NoneMistaken calls := by
  constructor
  · intro h
    cases type with
    | shipModulInterface => exact absurd h (not_replays_shipModul mode calls)
    | ydCoupler => exact absurd h (not_replays_ydCoupler mode calls)
    | socketCANInterface =>
      obtain ⟨cls, x, f, -, hfirst, -, hrecords, -⟩ := h.loaded
      have hlength := hrecords.length_eq
      rw [List.length_map] at hlength
      have hnone := (RawLogFile.length_decodedLines 0 htraced).2 (Nat.le_of_eq hlength)
      exact ⟨rfl, (RawLogFile.readFirst_callLines 0 htraced hnone).mp ⟨x, hfirst⟩, hnone⟩
  · rintro ⟨rfl, hbegins, hnone⟩
    have hfirst := (RawLogFile.readFirst_callLines 0 htraced hnone).mpr hbegins
    have hcls : RawLogFile.recordClass (TracedType.name .socketCANInterface)
        = .ok rawLogCANMessage := rfl
    obtain ⟨file, hload⟩ := RawLogFile.loadFile_traceFile_ok hcls hfirst
    obtain ⟨cls, ⟨record, rest⟩, hcls', hx, htype, hrecords⟩ := RawLogFile.loadFile_traceFile hload
    cases hcls'
    have hne : file.records ≠ [] := by
      rw [hrecords, (RawLogFile.readFirst_eq_ok hx).1]
      exact List.cons_ne_nil _ _
    obtain ⟨prepared, hprepare, -⟩ := RawLogFile.prepareRead_ok hne
    rw [RawLogFile.decodedLines_callLines 0 htraced hnone, List.map_map] at hrecords
    refine ⟨file, prepared, file.records, .processCanFrame, hload, hprepare,
      (RawLogFile.readsToEof_iff hprepare _).mpr rfl, ?_, by rw [htype]; rfl, ?_⟩
    · rw [hrecords, List.forall₂_map_left_iff, List.forall₂_same]
      exact fun c _ => ⟨rfl, Or.inl rfl⟩
    · intro r hr
      rw [hrecords] at hr
      obtain ⟨c, hc, rfl⟩ := List.mem_map.mp hr
      obtain ⟨hmem, hin⟩ := List.mem_filter.mp hc
      exact accepts_canFrame rfl ((htraced c hmem (of_decide_eq_true hin)).canFrame rfl)

/-- A time of the day on which a trace is taken. -/
def traceTime : DateTime := ⟨2024, 5, 6, 7, 8, 9, 10, by decide⟩

/-- A sent frame, then a received one. -/
def canCalls : List TraceCall :=
  [.can traceTime 0 .traceOut (ascii "0CEAFF01,00ee00"), .can traceTime 1 .traceIn (ascii "09F80102,00112233")]

theorem replays_canCalls : Replays .socketCANInterface .nmea2000 canCalls := by
  have htraced : Traced .socketCANInterface canCalls := by
    intro c hc hin
    simp only [canCalls, List.mem_cons, List.not_mem_nil, or_false] at hc
    rcases hc with rfl | rfl
    · cases hin
    · exact ⟨rfl, by unfold Printable; decide +kernel, by decide +kernel, by decide +kernel,
        fun _ => ⟨0x09F80102, [0x00, 0x11, 0x22, 0x33], by decide⟩⟩
  have hpassed : PassedOver (.can traceTime 0 .traceOut (ascii "0CEAFF01,00ee00")) :=
    fun _ => ⟨rfl, by decide⟩
  have hnone : NoneMistaken canCalls := by
    intro c hc hout
    simp only [canCalls, List.mem_cons, List.not_mem_nil, or_false] at hc
    rcases hc with rfl | rfl
    · intro l hl
      exact absurd hl (by decide +revert)
    · cases hout
  exact (replays_iff .nmea2000 htraced).mpr ⟨rfl, Or.inr ⟨hpassed, Or.inl rfl⟩, hnone⟩

/-- One sentence of the Shipmodul interface. -/
def shipCalls : List TraceCall := [.raw .traceIn traceTime (ascii "$IIHDG,101.1,,,7.1,W*3C") none]

theorem not_replays_shipCalls : ¬ ∀ (type : TracedType) (mode : CouplerMode) (calls : List TraceCall),
    Traced type calls → Replays type mode calls := by
  intro h
  have htraced : Traced .shipModulInterface shipCalls := by
    intro c hc hin
    rw [shipCalls, List.mem_singleton] at hc
    subst hc
    exact ⟨rfl, by unfold Printable; decide +kernel, by decide +kernel, by decide +kernel, fun h => by cases h⟩
  exact not_replays_shipModul .nmea0183 shipCalls (h _ _ _ htraced)

end NavigationServer.LogReplay
