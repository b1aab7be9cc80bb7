/-
NavigationServer.NavigationData.EngineService — an engine, its events and its
files.

`EngineData` keeps the events of the day in memory and appends each to the file
of the date. `World` is the object with its directory: the event files, found
under their dates, and the status file. A file of JSON lines is the list of what
was written to it. The clock is read once in each call, `today` is its date, and
a value that is no number is `none`. `recorded` keeps all events, in the order
they were written.
-/
import Mathlib.Logic.Function.Basic
import NavigationServer.Lib.Machine
import NavigationServer.RouterCommon.Exceptions

namespace NavigationServer.NavigationData

open NavigationServer.Lib

/-! ## 1. Data -/

inductive EngineState where
  | off
  | on
  | running
  deriving DecidableEq, Repr

/-- A date, whose parts are the name of an event file. -/
structure Date where
  year : Nat
  month : Nat
  day : Nat
  deriving DecidableEq, Repr

/-- The clock in one call. -/
structure Clock where
  today : Date
  now : Time
  deriving DecidableEq, Repr

structure EngineEvent where
  ts : Time
  totalHours : Option ℚ
  previousState : EngineState
  currentState : EngineState
  deriving DecidableEq, Repr

/-- What the status file holds. -/
structure EngineStatus where
  lastSave : Date
  state : EngineState
  firstOn : Time
  lastMessage : Time
  speed : Option ℚ
  totalHours : Option ℚ
  temperature : Option ℚ
  alternatorVoltage : Option ℚ
  startTime : Option Time
  stopTime : Option Time
  deriving DecidableEq, Repr

structure EngineData where
  currentDate : Option Date
  state : EngineState
  speed : Option ℚ
  firstOn : Time
  lastMessage : Time
  temperature : Option ℚ
  totalHours : Option ℚ
  alternatorVoltage : Option ℚ
  startTime : Option Time
  stopTime : Option Time
  dayEvents : List EngineEvent
  deriving DecidableEq, Repr

/-- A message with the data of an engine. -/
structure EngineMessage where
  temperature : Option ℚ
  alternatorVoltage : Option ℚ
  totalEngineHours : Option ℚ
  deriving DecidableEq, Repr

structure World where
  engine : EngineData
  eventFiles : Date → List EngineEvent
  statusFile : Option EngineStatus
  today : Date
  recorded : List EngineEvent

/-! ## 2. The object -/

namespace EngineData

/-- `__init__` without a directory. -/
def new (clock : Clock) : EngineData where
  currentDate := some clock.today
  state := .off
  speed := some 0
  firstOn := clock.now
  lastMessage := clock.now
  temperature := some 0
  totalHours := some 0
  alternatorVoltage := some 0
  startTime := none
  stopTime := none
  dayEvents := []

/-- The date tells the event file, and nothing else changes with it. -/
def checkDate (e : EngineData) (today : Date) : EngineData :=
  if e.currentDate ≠ some today then { e with currentDate := some today } else e

def asDict (e : EngineData) (today : Date) : EngineStatus where
  lastSave := today
  state := e.state
  firstOn := e.firstOn
  lastMessage := e.lastMessage
  speed := e.speed
  totalHours := e.totalHours
  temperature := e.temperature
  alternatorVoltage := e.alternatorVoltage
  startTime := e.startTime
  stopTime := e.stopTime

/-- `__init__` with a directory, from the status and the event file of the day. -/
def load (today : Date) (status : EngineStatus) (events : List EngineEvent) : EngineData where
  currentDate := some today
  state := status.state
  speed := status.speed
  firstOn := status.firstOn
  lastMessage := if status.lastSave = today then status.lastMessage else 0
  temperature := if status.lastSave = today then status.temperature else some 0
  totalHours := status.totalHours
  alternatorVoltage := if status.lastSave = today then status.alternatorVoltage else some 0
  startTime := status.startTime
  stopTime := status.stopTime
  dayEvents := events

end EngineData

namespace World

/-- A new engine, in a new directory. -/
def start (clock : Clock) : World where
  engine := .new clock
  eventFiles := fun _ => []
  statusFile := none
  today := clock.today
  recorded := []

def setEngine (w : World) (engine : EngineData) : World := { w with engine }

def saveStatus (w : World) (today : Date) : World :=
  { w with statusFile := some (w.engine.asDict today) }

/-- The event goes to memory, then to the file of the date; then the state
changes and is saved. -/
def addEvent (w : World) (clock : Clock) (currentState : EngineState) : World :=
  let event : EngineEvent :=
    { ts := clock.now, totalHours := w.engine.totalHours, previousState := w.engine.state,
      currentState }
  let engine := { w.engine with dayEvents := w.engine.dayEvents ++ [event] }.checkDate clock.today
  { w with
    eventFiles := Function.update w.eventFiles clock.today (w.eventFiles clock.today ++ [event])
    recorded := w.recorded ++ [event]
    engine := { engine with state := currentState } }.saveStatus clock.today

def updateSpeed (w : World) (clock : Clock) (speed : Option ℚ) : World :=
  let w :=
    match speed with
    | none => w
    | some value =>
        if value > 0 then
          if w.engine.state ≠ EngineState.running then
            let w := w.addEvent clock .running
            w.setEngine { w.engine with startTime := some clock.now }
          else w
        else if value = 0 then
          if w.engine.state = EngineState.running then
            (w.setEngine { w.engine with stopTime := some clock.now }).addEvent clock .on
          else if w.engine.state = EngineState.off then w.addEvent clock .on
          else w
        else w
  w.setEngine { w.engine with speed }

def updateData (w : World) (clock : Clock) (msg : EngineMessage) : World :=
  let w := if w.engine.state = EngineState.off then w.addEvent clock .on else w
  w.setEngine
    { w.engine with
      temperature := msg.temperature
      alternatorVoltage := msg.alternatorVoltage
      totalHours := msg.totalEngineHours }

def newMessage (w : World) (clock : Clock) : World :=
  w.setEngine { w.engine with lastMessage := clock.now }

def checkOff (w : World) (clock : Clock) : Bool × World :=
  if w.engine.state = EngineState.off then (true, w)
  else if clock.now - w.engine.lastMessage > 30 then
    let w :=
      if w.engine.state = EngineState.running then w.setEngine { w.engine with stopTime := some clock.now }
      else w
    let w := w.addEvent clock .off
    (true, w.setEngine { w.engine with speed := some 0, temperature := some 0 })
  else (false, w)

/-- `EngineData(engine_id, root_dir, engine_dir)` in place of the object. -/
def reload (w : World) (clock : Clock) : Except Exn World :=
  match w.statusFile with
  | none => .error .fileNotFoundError
  | some status =>
      .ok (w.setEngine (.load clock.today status (w.eventFiles clock.today)))

inductive Call where
  | updateSpeed (speed : Option ℚ)
  | updateData (msg : EngineMessage)
  | newMessage
  | checkOff
  | saveStatus
  | getEvents
  | reload
  deriving DecidableEq, Repr

/-- A call on its date. A reload that fails leaves the object that was there. -/
def run (w : World) (clock : Clock) : Call → World
  | .updateSpeed speed => w.updateSpeed clock speed
  | .updateData msg => w.updateData clock msg
  | .newMessage => w.newMessage clock
  | .checkOff => (w.checkOff clock).2
  | .saveStatus => w.saveStatus clock.today
  | .getEvents => w
  | .reload =>
      match w.reload clock with
      | .ok w => w
      | .error _ => w

/-- Calls, each with its reading of the clock. -/
def service : Machine World (Clock × Call) Unit where
  step w input := ((), { w with today := input.1.today }.run input.1 input.2)

end World

end NavigationServer.NavigationData
