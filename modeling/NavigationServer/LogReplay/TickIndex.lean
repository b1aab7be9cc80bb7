/-
NavigationServer.LogReplay.TickIndex — a loaded log, its tick table and its lock.

`load_file` enters a record into the tick table each time one reaches the next
boundary of the tick interval, one entry for a record, so after a gap the entries
run behind the boundaries. The calls that move in the log take the lock, and give
it back on the exits that the source has thought of; a call that finds it taken
does not come back. `_t0` is a number until the references are set, and no time
can be subtracted from it.

Dates are in microseconds. The quotient of two durations is exact, as the one of
the source is for a log of less than 79 years. The pauses of the replay are left
out.
-/
import NavigationServer.Lib.Machine
import NavigationServer.Lib.Round
import NavigationServer.LogReplay.RawLogReader

namespace NavigationServer.LogReplay

open NavigationServer.Lib

/-! ## 1. Dates -/

/-- `toordinal`, less one. -/
def ordinal (d : DateTime) : Nat :=
  let y := d.year - 1
  y * 365 + y / 4 - y / 100 + y / 400
    + ((List.range (d.month - 1)).map (fun i => daysInMonth d.year (i + 1))).sum + (d.day - 1)

/-- The microseconds up to a date. -/
def microseconds (d : DateTime) : Int :=
  (((ordinal d * 24 + d.hour) * 60 + d.minute) * 60 + d.second : Nat) * 1000000 + d.microsecond

/-! ## 2. The log -/

/-- A log behind `load_file`. Before the references are set `_t0` is 0.0. -/
structure LoadedLog where
  file : RawLogFile
  tickInterval : Nat
  tickIndex : List Nat
  nbTick : Nat
  startDate : DateTime
  t0 : Option DateTime
  locked : Bool

/-- What a move is asked for: a date without a time zone, or something that no
such date can be subtracted from. -/
inductive TargetDate where
  | date (d : DateTime)
  | other

/-- What becomes of a call. -/
inductive LogOutcome where
  | returned (record : Option RawLogRecord)
  | raised (e : Exn)
  | blocked
  deriving DecidableEq

namespace LoadedLog

/-- The tick interval, in microseconds. -/
def tick (log : LoadedLog) : Int := log.tickInterval * 1000000

/-- The tick table: the numbers of the records that reach a boundary, from those
of the given times on, the first of which has the number `nbRecord`. -/
def tickTable (t0 tick : Int) : List Int → Nat → Nat → List Nat
  | [], _, _ => []
  | ts :: rest, nbRecord, nbTick =>
      if t0 + tick * (nbTick + 1) ≤ ts then nbRecord :: tickTable t0 tick rest (nbRecord + 1) (nbTick + 1)
      else tickTable t0 tick rest (nbRecord + 1) nbTick

/-- The times of the records. -/
def times (file : RawLogFile) : List Int := file.records.map (fun r => microseconds r.timestamp)

/-- `load_file`, with the tick table. -/
def loadFile (text : Bytes) (tickInterval : Nat) : Except Exn LoadedLog := do
  let file ← RawLogFile.loadFile text
  let first ← item file.records 0
  let tickIndex := tickTable (microseconds first.timestamp) (tickInterval * 1000000)
    (times file).tail 1 0
  return {
    file
    tickInterval
    tickIndex
    nbTick := tickIndex.length
    startDate := first.timestamp
    t0 := none
    locked := false }

/-- `set_references`. -/
def setReferences (log : LoadedLog) : Except Exn LoadedLog := do
  let record ← item log.file.records log.file.index
  let file ← log.file.setReferences
  return { log with file, t0 := some record.timestamp }

/-- `prepare_read`. -/
def prepareRead (log : LoadedLog) (first : Nat) : LogOutcome × LoadedLog :=
  let log := { log with file := { log.file with index := first } }
  match log.setReferences with
  | .ok log => (.returned none, log)
  | .error e => (.raised e, log)

/-- The rest of a move, with the lock: the references are set, and the lock is
given back. -/
def moveTo (log : LoadedLog) (index : Nat) : LogOutcome × LoadedLog :=
  let log := { log with file := { log.file with index } }
  match log.setReferences with
  | .ok log => (.returned none, { log with locked := false })
  | .error e => (.raised e, log)

/-- `move_to_date`. -/
def moveToDate (log : LoadedLog) (target : TargetDate) : LogOutcome × LoadedLog :=
  if log.locked then (.blocked, log)
  else
    let log := { log with locked := true }
    match target with
    | .other => (.raised .typeError, log)
    | .date d =>
        if log.tickInterval = 0 then (.raised .zeroDivisionError, log)
        else
          let tickIndex := roundHalfEven ((microseconds d - microseconds log.startDate : Int) / log.tick)
          if tickIndex < 0 ∨ (log.nbTick : Int) - 1 < tickIndex then
            (.raised .valueError, { log with locked := false })
          else
            match log.tickIndex[tickIndex.toNat]? with
            | some index => log.moveTo index
            | none => (.raised .indexError, log)

/-- `move_forward`. A date is divided by a duration, which raises. -/
def moveForward (log : LoadedLog) : LogOutcome × LoadedLog :=
  if log.locked then (.blocked, log)
  else
    let log := { log with locked := true }
    match log.file.records[log.file.index]? with
    | none => (.raised .indexError, log)
    | some _ => (.raised .typeError, log)

/-- `restart`. -/
def restart (log : LoadedLog) : LogOutcome × LoadedLog :=
  if log.locked then (.blocked, log) else { log with locked := true }.moveTo 0

/-- `read_message`. -/
def readMessage (log : LoadedLog) : LogOutcome × LoadedLog :=
  if log.locked then (.blocked, log)
  else
    match log.file.readMessage with
    | (.error e, file) => (.raised e, { log with file })
    | (.ok record, file) =>
        if log.file.firstRecord ∨ log.t0.isSome then (.returned record, { log with file })
        else (.raised .typeError, { log with file, locked := true })

/-! ## 3. Calls -/

end LoadedLog

inductive LogCall where
  | prepareRead (first : Nat)
  | readMessage
  | moveForward (seconds : ℚ)
  | moveToDate (target : TargetDate)
  | restart

namespace LoadedLog

def call (log : LoadedLog) : LogCall → LogOutcome × LoadedLog
  | .prepareRead first => log.prepareRead first
  | .readMessage => log.readMessage
  | .moveForward _ => log.moveForward
  | .moveToDate target => log.moveToDate target
  | .restart => log.restart

def machine : Machine LoadedLog LogCall LogOutcome := ⟨call⟩

/-- The log is read until EOF, with these records. -/
inductive ReadsToEof : LoadedLog → List RawLogRecord → Prop where
  | eof {log log' : LoadedLog} (h : log.readMessage = (.raised (.logReadError "EOF"), log')) :
      ReadsToEof log []
  | next {log log' : LoadedLog} {r : RawLogRecord} {rs : List RawLogRecord}
      (h : log.readMessage = (.returned (some r), log')) (hrest : ReadsToEof log' rs) :
      ReadsToEof log (r :: rs)

end LoadedLog

end NavigationServer.LogReplay
