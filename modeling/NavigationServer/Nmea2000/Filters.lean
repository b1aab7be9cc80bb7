/-
NavigationServer.Nmea2000.Filters — the filters of a publisher.

A filter set asks its filters, in their order, whether they select a message, and
the first one that does acts on it. A time filter has a timer for each of its
PGNs: a message passes when it comes more than a period behind the tick of the
timer, and the tick then goes on by one period. Without a list of PGNs there is
one timer, of the PGN 0.

What the filters look at is modelled, and when the clock is read. Reading the
configuration and the messages for the log are left out.
-/
import Mathlib.Algebra.Order.Ring.Rat
import NavigationServer.Lib.Machine
import NavigationServer.RouterCore.Nmea0183Protobuf
import NavigationServer.RouterCore.Nmea2000Msg

namespace NavigationServer.Nmea2000

open NavigationServer.Lib
open NavigationServer.RouterCore

/-! ## 1. Filters -/

inductive FilterType where
  | discard
  | select
  deriving DecidableEq, Repr

structure TimeFilter where
  period : Time
  tickTime : Time
  deriving DecidableEq

/-- `check_period`, when the clock reads `t`. -/
def TimeFilter.checkPeriod (f : TimeFilter) (t : Time) : Bool × TimeFilter :=
  if f.period < t - f.tickTime then (true, { f with tickTime := f.tickTime + f.period })
  else (false, f)

structure NMEAFilter where
  name : String
  type : FilterType
  deriving DecidableEq

/-- `action`, of a filter without a timer. -/
def NMEAFilter.action (f : NMEAFilter) : Bool := f.type = .select

structure NMEA0183Filter extends NMEAFilter where
  talker : Option Bytes
  formatter : Option Bytes
  deriving DecidableEq

namespace NMEA0183Filter

def valid (f : NMEA0183Filter) : Bool := f.talker.isSome || f.formatter.isSome

def processNmea0183 (f : NMEA0183Filter) (msg : NMEA0183Msg) : Except Exn Bool := do
  let talker ← match f.talker with
    | none => pure true
    | some talker => do pure (decide (talker = (← msg.talker)))
  let formatter ← match f.formatter with
    | none => pure true
    | some formatter => do pure (decide (formatter = (← msg.formatter)))
  return talker && formatter

end NMEA0183Filter

structure NMEA2000Filter extends NMEAFilter where
  pgns : Option (List Nat)
  sa : Option Nat
  deriving DecidableEq

namespace NMEA2000Filter

def valid (f : NMEA2000Filter) : Bool := f.pgns.isSome || f.sa.isSome

def processN2k (f : NMEA2000Filter) (msg : NMEA2000Msg) : Bool :=
  f.sa.all (· = msg.sa) && f.pgns.all (msg.pgn ∈ ·)

end NMEA2000Filter

/-- There is a timer for each PGN, and all have the period of the filter. -/
structure NMEA2000TimeFilter extends NMEA2000Filter where
  period : Time
  timers : AList (fun _ : Nat => TimeFilter)
  mem_timers : ∀ pgn, pgn ∈ timers ↔ pgn ∈ pgns.getD [0]
  period_timers : ∀ pgn timer, timers.lookup pgn = some timer → timer.period = period

namespace NMEA2000TimeFilter

/-- The timers of these PGNs; `clock` is the time each one is made at. -/
def newTimers (period : Time) (clock : Nat → Time) (pgns : List Nat) :
    AList (fun _ : Nat => TimeFilter) :=
  pgns.foldl (fun timers pgn => timers.insert pgn ⟨period, clock pgn⟩) ∅

theorem mem_foldl_insert (period : Time) (clock : Nat → Time) (pgns : List Nat)
    (timers : AList (fun _ : Nat => TimeFilter)) (pgn : Nat) :
    pgn ∈ pgns.foldl (fun timers pgn => timers.insert pgn ⟨period, clock pgn⟩) timers
      ↔ pgn ∈ timers ∨ pgn ∈ pgns := by
  induction pgns generalizing timers with
  | nil => simp
  | cons p pgns ih =>
    rw [List.foldl_cons, ih, AList.mem_insert, List.mem_cons]
    tauto

theorem period_foldl_insert (period : Time) (clock : Nat → Time) (pgns : List Nat)
    (timers : AList (fun _ : Nat => TimeFilter))
    (h : ∀ pgn timer, timers.lookup pgn = some timer → timer.period = period) :
    ∀ pgn timer,
      (pgns.foldl (fun timers pgn => timers.insert pgn ⟨period, clock pgn⟩) timers).lookup pgn
        = some timer → timer.period = period := by
  induction pgns generalizing timers with
  | nil => exact h
  | cons p pgns ih =>
    refine ih _ fun pgn timer hlookup => ?_
    rcases eq_or_ne pgn p with rfl | hne
    · rw [AList.lookup_insert] at hlookup
      rw [← Option.some.inj hlookup]
    · rw [AList.lookup_insert_ne hne] at hlookup
      exact h pgn timer hlookup

/-- `__init__`. -/
def init (f : NMEA2000Filter) (period : Time) (clock : Nat → Time) : NMEA2000TimeFilter where
  toNMEA2000Filter := f
  period
  timers := newTimers period clock (f.pgns.getD [0])
  mem_timers := by
    intro pgn
    unfold newTimers
    rw [mem_foldl_insert]
    simp
  period_timers := period_foldl_insert period clock _ ∅ (by simp)

def valid (f : NMEA2000TimeFilter) : Bool := decide (0 < f.period) && f.toNMEA2000Filter.valid

/-- A timer takes the place of the one of its PGN. -/
def setTimer (f : NMEA2000TimeFilter) (pgn : Nat) (timer : TimeFilter) (hmem : pgn ∈ f.timers)
    (hperiod : timer.period = f.period) : NMEA2000TimeFilter :=
  { f with
    timers := f.timers.insert pgn timer
    mem_timers := by
      intro pgn'
      rw [AList.mem_insert, ← f.mem_timers]
      exact or_iff_right_of_imp fun h => h ▸ hmem
    period_timers := by
      intro pgn' timer' hlookup
      rcases eq_or_ne pgn' pgn with rfl | hne
      · rw [AList.lookup_insert] at hlookup
        rw [← Option.some.inj hlookup, hperiod]
      · rw [AList.lookup_insert_ne hne] at hlookup
        exact f.period_timers pgn' timer' hlookup }

theorem period_checkPeriod (timer : TimeFilter) (t : Time) :
    (timer.checkPeriod t).2.period = timer.period := by
  unfold TimeFilter.checkPeriod
  split <;> rfl

/-- `action`, when the clock reads `now`. -/
def action (f : NMEA2000TimeFilter) (now : Time) (msg : NMEA2000Msg) :
    Except Exn Bool × NMEA2000TimeFilter :=
  match h : f.timers.lookup msg.pgn with
  | none => (.error .keyError, f)
  | some timer =>
      (.ok ((timer.checkPeriod now).1 && f.type = .select),
        f.setTimer msg.pgn (timer.checkPeriod now).2
          (AList.lookup_isSome.mp (by rw [h]; rfl))
          (by rw [period_checkPeriod, f.period_timers msg.pgn timer h]))

end NMEA2000TimeFilter

/-! ## 2. Filter sets -/

inductive N2kFilter where
  | filter (f : NMEA2000Filter)
  | timeFilter (f : NMEA2000TimeFilter)

namespace N2kFilter

def valid : N2kFilter → Bool
  | .filter f => f.valid
  | .timeFilter f => f.valid

def processN2k (msg : NMEA2000Msg) : N2kFilter → Bool
  | .filter f => f.processN2k msg
  | .timeFilter f => f.processN2k msg

def action (now : Time) (msg : NMEA2000Msg) : N2kFilter → Except Exn Bool × N2kFilter
  | .filter f => (.ok f.toNMEAFilter.action, .filter f)
  | .timeFilter f => ((f.action now msg).1, .timeFilter (f.action now msg).2)

end N2kFilter

/-- A message with its type. -/
inductive FilterMsg where
  | n0183 (msg : NMEA0183Msg)
  | n2k (msg : NMEA2000Msg)
  | other

structure FilterSet where
  nmea0183Filters : List NMEA0183Filter
  n2kFilters : List N2kFilter

namespace FilterSet

/-- `add_filter`. -/
def addFilter (set : FilterSet) : NMEA0183Filter ⊕ N2kFilter → FilterSet
  | .inl f => if f.valid then { set with nmea0183Filters := set.nmea0183Filters ++ [f] } else set
  | .inr f => if f.valid then { set with n2kFilters := set.n2kFilters ++ [f] } else set

/-- `__init__`, of the filters that are found. -/
def init (filters : List (NMEA0183Filter ⊕ N2kFilter)) : Except Exn FilterSet :=
  let set := filters.foldl addFilter ⟨[], []⟩
  if set.n2kFilters.length + set.nmea0183Filters.length ≤ 0 then .error .valueError else .ok set

/-- The first filter that selects a sentence. -/
def firstNmea0183 (msg : NMEA0183Msg) : List NMEA0183Filter → Except Exn (Option NMEA0183Filter)
  | [] => .ok none
  | f :: filters => do
      if ← f.processNmea0183 msg then return some f else firstNmea0183 msg filters

/-- `process_filter`: whether the message is to be discarded. Only the search for
a filter is inside the handler of exceptions. -/
def processFilter (set : FilterSet) (now : Time) (msg : FilterMsg) (executeAction selectFilter : Bool) :
    Except Exn Bool × FilterSet :=
  match msg with
  | .other => (.ok selectFilter, set)
  | .n0183 msg =>
      match firstNmea0183 msg set.nmea0183Filters with
      | .error _ => (.ok false, set)
      | .ok none => (.ok selectFilter, set)
      | .ok (some f) => (.ok (if executeAction then !f.toNMEAFilter.action else !selectFilter), set)
  | .n2k msg =>
      match set.n2kFilters.find? (N2kFilter.processN2k msg) with
      | none => (.ok selectFilter, set)
      | some f =>
          if executeAction then
            let (result, f) := f.action now msg
            (result.map (! ·),
              { set with
                n2kFilters := set.n2kFilters.set
                  (set.n2kFilters.findIdx (N2kFilter.processN2k msg)) f })
          else (.ok (!selectFilter), set)

/-- NMEA2000 messages, each with the time it comes at. -/
def filtering (selectFilter : Bool) : Machine FilterSet (Time × NMEA2000Msg) (Except Exn Bool) where
  step set input := set.processFilter input.1 (.n2k input.2) true selectFilter

end FilterSet

end NavigationServer.Nmea2000
