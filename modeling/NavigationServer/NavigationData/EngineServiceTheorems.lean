/-
NavigationServer.NavigationData.EngineServiceTheorems — the events of an engine
form a chain, and the list in memory is the file of the day while the date
stays.

A call does one of three things (`run_effect`): it leaves the events alone, adds
one, or reads the object from its files. So the chain is kept by every call
(`chained_of_reachable`), and the list in memory is the file of the day after a
call exactly when it was so before, on the date of the call, or the call is a
reload (`sameEvents_run`). The list is never cleared, so a run keeps it equal to
the file exactly when the date changes between files with the same events only
(`eventsKept_iff`).
-/
import Mathlib.Data.List.Chain
import NavigationServer.NavigationData.EngineService

namespace NavigationServer.NavigationData

open NavigationServer.Lib

namespace World

/-! ## 1. What a call can do -/

/-- No event is added. -/
structure Quiet (w w' : World) : Prop where
  dayEvents : w'.engine.dayEvents = w.engine.dayEvents
  eventFiles : w'.eventFiles = w.eventFiles
  recorded : w'.recorded = w.recorded
  state : w'.engine.state = w.engine.state
  today : w'.today = w.today
  status : ∀ status, w'.statusFile = some status →
    w.statusFile = some status ∨ status.state = w.engine.state

/-- One event is added, in memory and to the file of the date. -/
structure Adds (w w' : World) (date : Date) (event : EngineEvent) : Prop where
  dayEvents : w'.engine.dayEvents = w.engine.dayEvents ++ [event]
  eventFiles : w'.eventFiles = Function.update w.eventFiles date (w.eventFiles date ++ [event])
  recorded : w'.recorded = w.recorded ++ [event]
  previous : event.previousState = w.engine.state
  changes : event.previousState ≠ event.currentState
  state : w'.engine.state = event.currentState
  today : w'.today = w.today
  status : ∀ status, w'.statusFile = some status → status.state = event.currentState

/-- The object is read from its files. -/
structure Reloads (w w' : World) (date : Date) (status : EngineStatus) : Prop where
  present : w.statusFile = some status
  dayEvents : w'.engine.dayEvents = w.eventFiles date
  eventFiles : w'.eventFiles = w.eventFiles
  recorded : w'.recorded = w.recorded
  state : w'.engine.state = status.state
  today : w'.today = w.today
  statusFile : w'.statusFile = w.statusFile

theorem Quiet.refl (w : World) : Quiet w w :=
  ⟨rfl, rfl, rfl, rfl, rfl, fun _ h => .inl h⟩

theorem adds_addEvent {w : World} {current : EngineState} (clock : Clock)
    (h : w.engine.state ≠ current) :
    ∃ event, Adds w (w.addEvent clock current) clock.today event := by
  refine ⟨_, ?_, rfl, rfl, rfl, h, rfl, rfl, ?_⟩
  · unfold addEvent saveStatus EngineData.checkDate
    dsimp only
    split <;> rfl
  · intro status hstatus
    rw [← Option.some.inj hstatus]
    rfl

/-- A change of the other values of the object. -/
theorem Adds.setEngine {w w' : World} {date : Date} {event : EngineEvent} (h : Adds w w' date event)
    {engine : EngineData} (hday : engine.dayEvents = w'.engine.dayEvents)
    (hstate : engine.state = w'.engine.state) : Adds w (w'.setEngine engine) date event :=
  ⟨hday.trans h.dayEvents, h.eventFiles, h.recorded, h.previous, h.changes, hstate.trans h.state,
    h.today, h.status⟩

theorem Quiet.setEngine {w w' : World} (h : Quiet w w') {engine : EngineData}
    (hday : engine.dayEvents = w'.engine.dayEvents) (hstate : engine.state = w'.engine.state) :
    Quiet w (w'.setEngine engine) :=
  ⟨hday.trans h.dayEvents, h.eventFiles, h.recorded, hstate.trans h.state, h.today, h.status⟩

/-- The two ends of a call that is no reload. -/
def QuietOrAdds (w w' : World) (date : Date) : Prop := Quiet w w' ∨ ∃ event, Adds w w' date event

theorem QuietOrAdds.setEngine {w w' : World} {date : Date} (h : QuietOrAdds w w' date)
    {engine : EngineData} (hday : engine.dayEvents = w'.engine.dayEvents)
    (hstate : engine.state = w'.engine.state) : QuietOrAdds w (w'.setEngine engine) date := by
  rcases h with h | ⟨event, h⟩
  · exact .inl (h.setEngine hday hstate)
  · exact .inr ⟨event, h.setEngine hday hstate⟩

theorem updateSpeed_effect (w : World) (clock : Clock) (speed : Option ℚ) :
    QuietOrAdds w (w.updateSpeed clock speed) clock.today := by
  unfold updateSpeed
  refine QuietOrAdds.setEngine ?_ rfl rfl
  cases speed with
  | none => exact .inl (.refl w)
  | some value =>
    dsimp only
    split
    · split
      · rename_i hstate
        obtain ⟨event, hadds⟩ := adds_addEvent clock hstate
        exact .inr ⟨event, hadds.setEngine rfl rfl⟩
      · exact .inl (.refl w)
    · split
      · split
        · rename_i hstate
          have hne : (w.setEngine { w.engine with stopTime := some clock.now }).engine.state
              ≠ EngineState.on := by
            intro hon
            exact absurd (hstate.symm.trans hon) (by decide)
          obtain ⟨event, hadds⟩ := adds_addEvent clock hne
          exact .inr ⟨event, ⟨hadds.dayEvents, hadds.eventFiles, hadds.recorded, hadds.previous,
            hadds.changes, hadds.state, hadds.today, hadds.status⟩⟩
        · split
          · rename_i hstate
            exact .inr (adds_addEvent clock (by rw [hstate]; decide))
          · exact .inl (.refl w)
      · exact .inl (.refl w)

theorem updateData_effect (w : World) (clock : Clock) (msg : EngineMessage) :
    QuietOrAdds w (w.updateData clock msg) clock.today := by
  unfold updateData
  refine QuietOrAdds.setEngine ?_ rfl rfl
  split
  · rename_i hstate
    exact .inr (adds_addEvent clock (by rw [hstate]; decide))
  · exact .inl (.refl w)

theorem checkOff_effect (w : World) (clock : Clock) :
    QuietOrAdds w (w.checkOff clock).2 clock.today := by
  unfold checkOff
  split
  · exact .inl (.refl w)
  · rename_i hstate
    split
    · refine QuietOrAdds.setEngine ?_ rfl rfl
      split
      · have hne : (w.setEngine { w.engine with stopTime := some clock.now }).engine.state
            ≠ EngineState.off := hstate
        obtain ⟨event, hadds⟩ := adds_addEvent clock hne
        exact .inr ⟨event, ⟨hadds.dayEvents, hadds.eventFiles, hadds.recorded, hadds.previous,
          hadds.changes, hadds.state, hadds.today, hadds.status⟩⟩
      · exact .inr (adds_addEvent clock hstate)
    · exact .inl (.refl w)

/-- **What a call can do.** -/
theorem run_effect (w : World) (clock : Clock) (call : Call) :
    QuietOrAdds w (w.run clock call) clock.today ∨
      call = .reload ∧ ∃ status, Reloads w (w.run clock call) clock.today status := by
  cases call with
  | updateSpeed speed => exact .inl (updateSpeed_effect w clock speed)
  | updateData msg => exact .inl (updateData_effect w clock msg)
  | newMessage => exact .inl (.inl ((Quiet.refl w).setEngine rfl rfl))
  | checkOff => exact .inl (checkOff_effect w clock)
  | saveStatus =>
    refine .inl (.inl ⟨rfl, rfl, rfl, rfl, rfl, ?_⟩)
    intro status hstatus
    rw [← Option.some.inj hstatus]
    exact .inr rfl
  | getEvents => exact .inl (.inl (.refl w))
  | reload =>
    unfold run reload
    cases hstatus : w.statusFile with
    | none => exact .inl (.inl (.refl w))
    | some status => exact .inr ⟨rfl, status, hstatus, rfl, rfl, rfl, rfl, rfl, hstatus.symm ▸ rfl⟩

/-! ## 2. The chain -/

/-- Each event goes on where the one before it ended, the object is where the
last one ended, and every event changes the state. -/
structure Chained (w : World) : Prop where
  linked : w.recorded.IsChain (fun a b => b.previousState = a.currentState)
  last : ∀ event, w.recorded.getLast? = some event → w.engine.state = event.currentState
  changes : ∀ event ∈ w.recorded, event.previousState ≠ event.currentState

/-- The status file holds the state of the object. -/
def Saved (w : World) : Prop := ∀ status, w.statusFile = some status → status.state = w.engine.state

theorem Chained.congr {w w' : World} (h : Chained w) (hrecorded : w'.recorded = w.recorded)
    (hstate : w'.engine.state = w.engine.state) : Chained w' where
  linked := by
    rw [hrecorded]
    exact h.linked
  last := by
    rw [hrecorded, hstate]
    exact h.last
  changes := by
    rw [hrecorded]
    exact h.changes

theorem Chained.adds {w w' : World} {date : Date} {event : EngineEvent} (h : Chained w)
    (hadds : Adds w w' date event) : Chained w' where
  linked := by
    rw [hadds.recorded, List.isChain_append]
    refine ⟨h.linked, List.isChain_singleton event, ?_⟩
    intro a ha b hb
    obtain rfl : event = b := by simpa using hb
    rw [hadds.previous]
    exact h.last a ha
  last := by
    intro last hlast
    rw [hadds.recorded, List.getLast?_concat, Option.some.injEq] at hlast
    rw [← hlast]
    exact hadds.state
  changes := by
    intro a ha
    rw [hadds.recorded, List.mem_append, List.mem_singleton] at ha
    rcases ha with ha | rfl
    · exact h.changes a ha
    · exact hadds.changes

theorem chained_run {w : World} (h : Chained w ∧ Saved w) (clock : Clock) (call : Call) :
    Chained (w.run clock call) ∧ Saved (w.run clock call) := by
  obtain ⟨hchained, hsaved⟩ := h
  rcases run_effect w clock call with (hquiet | ⟨event, hadds⟩) | ⟨-, status, hreloads⟩
  · refine ⟨hchained.congr hquiet.recorded hquiet.state, ?_⟩
    intro status hstatus
    rw [hquiet.state]
    rcases hquiet.status status hstatus with hold | hnew
    · exact hsaved status hold
    · exact hnew
  · refine ⟨hchained.adds hadds, ?_⟩
    intro status hstatus
    rw [hadds.state]
    exact hadds.status status hstatus
  · have hstate : (w.run clock call).engine.state = w.engine.state := by
      rw [hreloads.state]
      exact hsaved status hreloads.present
    refine ⟨hchained.congr hreloads.recorded hstate, ?_⟩
    intro other hother
    rw [hstate]
    rw [hreloads.statusFile] at hother
    exact hsaved other hother

/-- **The recorded events form a chain that ends in the state of the object.** -/
theorem chained_of_reachable {clock : Clock} {w : World} (h : service.Reachable (start clock) w) :
    Chained w := by
  have hboth : Chained w ∧ Saved w := by
    refine h.induction (fun w => Chained w ∧ Saved w) ?_ ?_
    · exact ⟨⟨.nil, by simp [start], by simp [start]⟩, by simp [Saved, start]⟩
    · intro w input hw
      have htoday : Chained { w with today := input.1.today } ∧
          Saved { w with today := input.1.today } := ⟨hw.1.congr rfl rfl, hw.2⟩
      exact chained_run htoday input.1 input.2
  exact hboth.1

/-! ## 3. Memory and file -/

/-- The events in memory are those that a reload on this date would read. -/
def SameEvents (w : World) : Prop := w.engine.dayEvents = w.eventFiles w.today

theorem sameEvents_of_quietOrAdds {w w' : World} (h : QuietOrAdds w w' w.today) :
    SameEvents w' ↔ SameEvents w := by
  unfold SameEvents
  rcases h with h | ⟨event, h⟩
  · rw [h.dayEvents, h.eventFiles, h.today]
  · rw [h.dayEvents, h.eventFiles, h.today, Function.update_self, List.append_left_inj]

/-- The call is a reload that finds the status. -/
def Reloading (w : World) (call : Call) : Prop := call = .reload ∧ w.statusFile ≠ none

theorem sameEvents_run {w : World} {clock : Clock} (htoday : w.today = clock.today) (call : Call) :
    SameEvents (w.run clock call) ↔ Reloading w call ∨ SameEvents w := by
  by_cases hreload : Reloading w call
  · obtain ⟨rfl, hpresent⟩ := hreload
    obtain ⟨status, hstatus⟩ := Option.ne_none_iff_exists'.mp hpresent
    have hsame : SameEvents (w.run clock .reload) := by
      unfold run reload SameEvents
      rw [hstatus]
      dsimp only [setEngine, EngineData.load]
      rw [htoday]
    simp [hsame, Reloading, hpresent]
  · have heffect : QuietOrAdds w (w.run clock call) w.today := by
      rw [htoday]
      rcases run_effect w clock call with h | ⟨hcall, status, hreloads⟩
      · exact h
      · exact absurd ⟨hcall, by rw [hreloads.present]; simp⟩ hreload
    rw [sameEvents_of_quietOrAdds heffect]
    simp [hreload]

/-- The date of the call is that of the call before, or the event files of the
two dates hold the same events, or the call is a reload. -/
def DateKept (mv : Move World (Clock × Call) Unit) : Prop :=
  Reloading mv.pre mv.input.2 ∨ mv.pre.eventFiles mv.pre.today = mv.pre.eventFiles mv.input.1.today

theorem sameEvents_step {w : World} (h : SameEvents w) (input : Clock × Call) :
    SameEvents (service.step w input).2 ↔
      DateKept ⟨w, input, (service.step w input).1, (service.step w input).2⟩ := by
  have hrun := @sameEvents_run { w with today := input.1.today } input.1 rfl input.2
  have hsame : SameEvents { w with today := input.1.today } ↔
      w.eventFiles w.today = w.eventFiles input.1.today := by
    unfold SameEvents at h ⊢
    dsimp only
    rw [h]
  rw [hsame] at hrun
  exact hrun

theorem sameEvents_trace {w : World} (h : SameEvents w) (inputs : List (Clock × Call)) :
    (∀ mv ∈ service.trace w inputs, SameEvents mv.post) ↔
      ∀ mv ∈ service.trace w inputs, DateKept mv := by
  induction inputs generalizing w with
  | nil => simp
  | cons input inputs ih =>
    simp only [Machine.trace_cons, List.forall_mem_cons]
    rw [← sameEvents_step h input]
    constructor
    · rintro ⟨hpost, hrest⟩
      exact ⟨hpost, (ih hpost).mp hrest⟩
    · rintro ⟨hpost, hrest⟩
      exact ⟨hpost, (ih hpost).mpr hrest⟩

/-- At every point of a run the events form a chain, and those in memory are
those of the file of the day. -/
def EventsKept (clock : Clock) (inputs : List (Clock × Call)) : Prop :=
  ∀ mv ∈ service.trace (start clock) inputs, Chained mv.post ∧ SameEvents mv.post

/-- **The events are kept exactly when the date changes between files of the
same events only, or at a reload.** -/
theorem eventsKept_iff (clock : Clock) (inputs : List (Clock × Call)) :
    EventsKept clock inputs ↔ ∀ mv ∈ service.trace (start clock) inputs, DateKept mv := by
  have hstart : SameEvents (start clock) := rfl
  rw [← sameEvents_trace hstart]
  constructor
  · intro h mv hmv
    exact (h mv hmv).2
  · intro h mv hmv
    exact ⟨chained_of_reachable ((Machine.Reachable.init _ _).of_mem_trace hmv), h mv hmv⟩

/-- An engine that starts before midnight, looked at after midnight. -/
theorem not_eventsKept_midnight :
    ¬ EventsKept ⟨⟨2025, 6, 1⟩, 0⟩
      [(⟨⟨2025, 6, 1⟩, 10⟩, .updateSpeed (some 1500)), (⟨⟨2025, 6, 2⟩, 20⟩, .getEvents)] := by
  intro h
  unfold EventsKept at h
  simp only [Machine.trace_cons, Machine.trace_nil, List.forall_mem_cons] at h
  have hsame := congrArg List.length h.2.1.2
  exact absurd hsame (by decide)

end World

end NavigationServer.NavigationData
