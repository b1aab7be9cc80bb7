/-
NavigationServer.RouterCommon.MessageTrace — the trace file of a coupler.

The file begins with a header that names the class of the coupler. Each call
writes an entry: a letter, a count, the date, the direction and the text, with
a line feed behind it. A text that holds a line end itself goes over several
lines (`entryLines_cons`).

What is modelled is `trace`, `trace_raw` and `trace_n2k_raw_can`, while the
file is open; a text is the octets of its UTF-8 form.
-/
import NavigationServer.Lib.DateTime
import NavigationServer.Lib.Lines
import NavigationServer.Lib.Text

namespace NavigationServer.RouterCommon

open NavigationServer.Lib

/-! ## 1. The trace -/

inductive Direction where
  | traceIn
  | traceOut
  deriving DecidableEq, Repr

/-- `>` or `<`. -/
def Direction.mark : Direction → UInt8
  | .traceIn => 62
  | .traceOut => 60

/-- `R%d#%s>`, with the letter of the entry. -/
def fc (letter : UInt8) (count : Nat) (ts : DateTime) (direction : Direction) : Bytes :=
  letter :: decimal count ++ 35 :: strftime ts ++ [direction.mark]

/-- `traceFd` is what was written to the file. -/
structure NMEAMsgTrace where
  traceFd : Bytes
  msgCount : Nat
  deriving DecidableEq, Repr

namespace NMEAMsgTrace

/-- `NMEAMsgTrace.__init__`. -/
def new (traceType : Bytes) : NMEAMsgTrace := ⟨ascii "H0|" ++ traceType ++ ascii "|V1.4\n", 0⟩

/-- The entry is written, and counted. -/
def write (t : NMEAMsgTrace) (fc msg : Bytes) : NMEAMsgTrace :=
  ⟨t.traceFd ++ (fc ++ msg ++ [10]), t.msgCount + 1⟩

/-- `trace`, of a message that is not NULL_MSG; `outMsg` is its printable
form. -/
def trace (t : NMEAMsgTrace) (direction : Direction) (ts : DateTime) (outMsg : Bytes) :
    NMEAMsgTrace :=
  t.write (fc 77 t.msgCount ts direction) outMsg

/-- `trace_raw`. An entry whose octets are no text is counted and not
written. -/
def traceRaw (t : NMEAMsgTrace) (direction : Direction) (now : DateTime) (msg : Bytes)
    (stripSuffix : Option Bytes) : NMEAMsgTrace :=
  if decodes msg then
    t.write (fc 82 t.msgCount now direction)
      (match stripSuffix with
        | some suffix => rstrip msg suffix
        | none => msg)
  else { t with msgCount := t.msgCount + 1 }

/-- `trace_n2k_raw_can`. The count of the entry is that of the caller. -/
def traceN2kRawCan (t : NMEAMsgTrace) (timeStamp : DateTime) (msgCount : Nat)
    (direction : Direction) (traceStr : Bytes) : NMEAMsgTrace :=
  t.write (fc 82 msgCount timeStamp direction) traceStr

end NMEAMsgTrace

/-! ## 2. Calls -/

/-- A call of the trace, with the clock and the arguments. -/
inductive TraceCall where
  | message (direction : Direction) (ts : DateTime) (outMsg : Bytes)
  | raw (direction : Direction) (now : DateTime) (msg : Bytes) (stripSuffix : Option Bytes)
  | can (timeStamp : DateTime) (msgCount : Nat) (direction : Direction) (traceStr : Bytes)
  deriving DecidableEq

namespace TraceCall

def run (t : NMEAMsgTrace) : TraceCall → NMEAMsgTrace
  | .message direction ts outMsg => t.trace direction ts outMsg
  | .raw direction now msg stripSuffix => t.traceRaw direction now msg stripSuffix
  | .can timeStamp msgCount direction traceStr => t.traceN2kRawCan timeStamp msgCount direction traceStr

/-- The file that a sequence of calls writes. -/
def traceFile (traceType : Bytes) (calls : List TraceCall) : Bytes :=
  (calls.foldl run (.new traceType)).traceFd

def letter : TraceCall → UInt8
  | .message .. => 77
  | .raw .. => 82
  | .can .. => 82

def direction : TraceCall → Direction
  | .message direction _ _ => direction
  | .raw direction _ _ _ => direction
  | .can _ _ direction _ => direction

def time : TraceCall → DateTime
  | .message _ ts _ => ts
  | .raw _ now _ _ => now
  | .can timeStamp _ _ _ => timeStamp

/-- The text of the entry, if one is written. -/
def text : TraceCall → Option Bytes
  | .message _ _ outMsg => some outMsg
  | .raw _ _ msg stripSuffix =>
      if decodes msg then
        some (match stripSuffix with
          | some suffix => rstrip msg suffix
          | none => msg)
      else none
  | .can _ _ _ traceStr => some traceStr

/-- The count of the entry, in a trace that has counted `msgCount` ones. -/
def count (msgCount : Nat) : TraceCall → Nat
  | .can _ count _ _ => count
  | _ => msgCount

/-- The lines of the entry. -/
def entryLines (msgCount : Nat) (c : TraceCall) : List Bytes :=
  match c.text with
  | some text => fileLines (fc c.letter (c.count msgCount) c.time c.direction ++ text ++ [10])
  | none => []

/-! ## 3. What a call writes -/

theorem run_eq (t : NMEAMsgTrace) (c : TraceCall) :
    c.run t = match c.text with
      | some text => t.write (fc c.letter (c.count t.msgCount) c.time c.direction) text
      | none => { t with msgCount := t.msgCount + 1 } := by
  cases c with
  | message direction ts outMsg => rfl
  | can timeStamp msgCount direction traceStr => rfl
  | raw direction now msg stripSuffix =>
    unfold run text NMEAMsgTrace.traceRaw
    dsimp only
    cases decodes msg <;> rfl

/-- The lines of the file, call by call. -/
def callLines : Nat → List TraceCall → List Bytes
  | _, [] => []
  | msgCount, c :: calls => c.entryLines msgCount ++ callLines (msgCount + 1) calls

/-- What is written stays, and ends with a line feed. -/
theorem fileLines_foldl_run (calls : List TraceCall) (start : Bytes) (msgCount : Nat) :
    fileLines (calls.foldl run ⟨start ++ [10], msgCount⟩).traceFd
      = fileLines (start ++ [10]) ++ callLines msgCount calls := by
  induction calls generalizing start msgCount with
  | nil => exact (List.append_nil _).symm
  | cons c calls ih =>
    rw [List.foldl_cons, run_eq, callLines, entryLines]
    cases htext : c.text with
    | none => exact ih start (msgCount + 1)
    | some text =>
      have hwrite := ih
        (start ++ 10 :: (fc c.letter (c.count msgCount) c.time c.direction ++ text)) (msgCount + 1)
      unfold NMEAMsgTrace.write
      dsimp only
      simp only [List.append_assoc, List.cons_append, List.nil_append] at hwrite ⊢
      rw [hwrite, fileLines_append, List.append_assoc]

theorem oneLine_digit {c : UInt8} (hc : isDigit c = true) : c ≠ 10 ∧ c ≠ 13 :=
  ⟨fun h => absurd (h ▸ hc) (by decide), fun h => absurd (h ▸ hc) (by decide)⟩

theorem oneLine_strftime (ts : DateTime) : OneLine (strftime ts) := by
  intro c hc
  rcases mem_strftime hc with hc | hc
  · exact oneLine_digit hc
  · simp only [List.mem_cons, List.not_mem_nil, or_false] at hc
    rcases hc with rfl | rfl | rfl | rfl <;> exact ⟨by decide, by decide⟩

theorem letter_cases (c : TraceCall) : c.letter = 77 ∨ c.letter = 82 := by
  cases c with
  | message direction ts outMsg => exact Or.inl rfl
  | raw direction now msg stripSuffix => exact Or.inr rfl
  | can timeStamp msgCount direction traceStr => exact Or.inr rfl

theorem oneLine_fc (c : TraceCall) (count : Nat) : OneLine (fc c.letter count c.time c.direction) := by
  have hletter : c.letter ≠ 10 ∧ c.letter ≠ 13 := by
    rcases letter_cases c with h | h <;> rw [h] <;> exact ⟨by decide, by decide⟩
  have hmark : c.direction.mark ≠ 10 ∧ c.direction.mark ≠ 13 := by
    unfold Direction.mark
    cases c.direction <;> exact ⟨by decide, by decide⟩
  intro x hx
  unfold fc at hx
  simp only [List.append_assoc, List.cons_append, List.mem_cons, List.mem_append,
    List.not_mem_nil, or_false] at hx
  rcases hx with rfl | hx | rfl | hx | rfl
  · exact hletter
  · exact oneLine_digit (isDigit_of_mem_decimal hx)
  · exact ⟨by decide, by decide⟩
  · exact oneLine_strftime c.time x hx
  · exact hmark

/-- An entry on one line. -/
theorem entryLines_oneLine {c : TraceCall} {text : Bytes} (msgCount : Nat) (htext : c.text = some text)
    (h : OneLine text) : c.entryLines msgCount
      = [fc c.letter (c.count msgCount) c.time c.direction ++ text ++ [10]] := by
  unfold entryLines
  rw [htext]
  exact fileLines_line (fun x hx => (List.mem_append.mp hx).elim (oneLine_fc c _ x) (h x))

/-- The lines that an entry goes on to, behind the first. -/
def moreLines (c : TraceCall) : List Bytes :=
  match c.text with
  | some text => (fileLines (text ++ [10])).tail
  | none => []

theorem entryLines_cons {c : TraceCall} {text : Bytes} (msgCount : Nat) (htext : c.text = some text) :
    ∃ first : Bytes, c.entryLines msgCount
      = (fc c.letter (c.count msgCount) c.time c.direction ++ first) :: c.moreLines := by
  refine ⟨(fileLines (text ++ [10])).headD [], ?_⟩
  unfold entryLines moreLines
  rw [htext]
  exact fileLines_prefix text (oneLine_fc c _)

end TraceCall

end NavigationServer.RouterCommon
