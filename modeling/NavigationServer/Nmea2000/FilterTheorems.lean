/-
NavigationServer.Nmea2000.FilterTheorems — the rate of a time filter, and what a
filter set raises.

`filters_iff`: what a time filter keeps of the messages of a PGN is limited to its
rate in exactly the runs in which its tick does not catch up with the clock, and a
filter set answers exactly when it does not come to act with a time filter that has
no timer for the PGN.

A message passes when it finds the tick more than a period behind the clock, and the
tick goes on by one period (`checkPeriod`). So the next one that passes is a period
later when it finds the tick as far behind as this one did, and is early when the tick
has come nearer (`keepsPace_iff`): after a silence, or after a message that was late.
What passes by the filter, because it is not selected and not discarded for that, has
no tick, and is looked at by its time.
-/
import Mathlib.Data.Rat.Floor
import NavigationServer.Lib.Rate
import NavigationServer.Nmea2000.Filters

namespace NavigationServer.Nmea2000

open NavigationServer.Lib
open NavigationServer.RouterCore

/-! ## 1. What is claimed -/

/-- A message that no timer holds back: when it comes, and how far the tick of its
timer is behind the clock. A message that the time filter does not select has no
timer. -/
structure Passage where
  time : Time
  behind : Option Time
  deriving DecidableEq

namespace Passage

/-- The tick has not come nearer to the clock. Where one of the two has no tick, they
are a period apart. -/
def KeepsPace (P : Time) : Passage → Passage → Prop
  | ⟨_, some b⟩, ⟨_, some b'⟩ => b ≤ b'
  | last, next => last.time + P ≤ next.time

instance (P : Time) : ∀ last next : Passage, Decidable (last.KeepsPace P next)
  | ⟨_, some _⟩, ⟨_, some _⟩ => inferInstanceAs (Decidable (_ ≤ _))
  | ⟨_, some _⟩, ⟨_, none⟩ => inferInstanceAs (Decidable (_ + _ ≤ _))
  | ⟨_, none⟩, _ => inferInstanceAs (Decidable (_ + _ ≤ _))

end Passage

namespace FilterSet

/-- The times at which a run keeps a message. -/
def keptTimes (selectFilter : Bool) : FilterSet → List (Time × NMEA2000Msg) → List Time
  | _, [] => []
  | set, input :: inputs =>
      let (result, set) := (filtering selectFilter).step set input
      if result = .ok false then input.1 :: keptTimes selectFilter set inputs
      else keptTimes selectFilter set inputs

/-- The set of one time filter. -/
def single (f : NMEA2000TimeFilter) : FilterSet := ⟨[], [.timeFilter f]⟩

/-- A message that comes to a set and passes, with the tick that it finds there. -/
def passage (selectFilter : Bool) (set : FilterSet) (input : Time × NMEA2000Msg) : Option Passage :=
  match set.n2kFilters.find? (N2kFilter.processN2k input.2) with
  | none => if selectFilter then none else some ⟨input.1, none⟩
  | some (.filter f) => if f.type = .select then some ⟨input.1, none⟩ else none
  | some (.timeFilter f) =>
      match f.timers.lookup input.2.pgn with
      | none => none
      | some timer =>
          if f.type = .select ∧ timer.tickTime + timer.period < input.1 then
            some ⟨input.1, some (input.1 - timer.tickTime)⟩
          else none

/-- The last message that passed is written down. -/
def notePassage (selectFilter : Bool) (set : FilterSet) (last : Option Passage)
    (input : Time × NMEA2000Msg) : Option Passage :=
  (set.passage selectFilter input).or last

/-- Each message that passes keeps pace with the one before it. -/
def Steady (P : Time) (selectFilter : Bool) (set : FilterSet) (inputs : List (Time × NMEA2000Msg)) :
    Prop :=
  ∀ move ∈ ((filtering selectFilter).withHistory (notePassage selectFilter)).trace (set, none) inputs,
    ∀ last ∈ move.pre.2, ∀ next ∈ move.pre.1.passage selectFilter move.input,
      last.KeepsPace P next

instance (P : Time) (selectFilter : Bool) (set : FilterSet) (inputs : List (Time × NMEA2000Msg)) :
    Decidable (set.Steady P selectFilter inputs) :=
  inferInstanceAs (Decidable (∀ _ ∈ _, _))

/-- A time filter without a timer for the PGN is to act. -/
def NoTimer (set : FilterSet) (executeAction : Bool) (msg : FilterMsg) : Prop :=
  executeAction = true ∧ ∃ m f, msg = .n2k m ∧
    set.n2kFilters.find? (N2kFilter.processN2k m) = some (.timeFilter f) ∧ f.pgns = none ∧ m.pgn ≠ 0

/-! ## 2. One message -/

theorem checkPeriod_iff (timer : TimeFilter) (t : Time) :
    (timer.checkPeriod t).1 = true ↔ timer.tickTime + timer.period < t := by
  unfold TimeFilter.checkPeriod
  split
  · rename_i h
    exact iff_of_true rfl (by linarith)
  · rename_i h
    exact iff_of_false (by simp) (by linarith)

theorem action_eq (f : NMEA2000TimeFilter) (now : Time) (msg : NMEA2000Msg) :
    (f.action now msg).1
      = match f.timers.lookup msg.pgn with
        | none => .error .keyError
        | some timer => .ok ((timer.checkPeriod now).1 && f.type = .select) := by
  unfold NMEA2000TimeFilter.action
  split
  · rename_i h
    rw [h]
  · rename_i timer h
    simp only [h]

/-- A set keeps a message exactly when it is one that passes. -/
theorem step_keeps_iff (set : FilterSet) (selectFilter : Bool) (input : Time × NMEA2000Msg) :
    ((filtering selectFilter).step set input).1 = .ok false ↔
      (set.passage selectFilter input).isSome = true := by
  simp only [filtering, processFilter, passage]
  cases set.n2kFilters.find? (N2kFilter.processN2k input.2) with
  | none => cases selectFilter <;> simp
  | some f =>
    simp only [if_true]
    cases f with
    | filter f =>
      cases htype : f.type <;> simp [N2kFilter.action, NMEAFilter.action, Except.map, htype]
    | timeFilter f =>
      simp only [N2kFilter.action]
      rw [action_eq]
      cases hlookup : f.timers.lookup input.2.pgn with
      | none => simp [Except.map]
      | some timer =>
        simp only [Except.map, Except.ok.injEq, Bool.not_eq_false', Bool.and_eq_true,
          decide_eq_true_eq, checkPeriod_iff]
        rw [and_comm]
        split <;> simp_all

theorem time_of_passage {set : FilterSet} {selectFilter : Bool} {input : Time × NMEA2000Msg}
    {next : Passage} (h : set.passage selectFilter input = some next) : next.time = input.1 := by
  unfold passage at h
  split at h
  · split at h
    · cases h
    · cases h
      rfl
  · split at h
    · cases h
      rfl
    · cases h
  · split at h
    · cases h
    · split at h
      · cases h
        rfl
      · cases h

/-- **A set answers exactly when it does not come to a timer that is not there.** -/
theorem processFilter_isOk_iff (set : FilterSet) (now : Time) (msg : FilterMsg)
    (executeAction selectFilter : Bool) :
    (∃ discard, (set.processFilter now msg executeAction selectFilter).1 = .ok discard) ↔
      ¬ set.NoTimer executeAction msg := by
  unfold NoTimer
  cases msg with
  | other => simp [processFilter]
  | n0183 msg =>
    rw [processFilter]
    split <;> simp
  | n2k msg =>
    rw [processFilter]
    cases hfirst : set.n2kFilters.find? (N2kFilter.processN2k msg) with
    | none => simp [hfirst]
    | some f =>
      cases executeAction with
      | false => simp
      | true =>
        cases f with
        | filter f => simp [N2kFilter.action, Except.map, hfirst]
        | timeFilter f =>
          have hselected : N2kFilter.processN2k msg (.timeFilter f) = true := List.find?_some hfirst
          change f.processN2k msg = true at hselected
          have htimer : msg.pgn ∈ f.timers ↔ ¬ (f.pgns = none ∧ msg.pgn ≠ 0) := by
            rw [f.mem_timers]
            cases hpgns : f.pgns with
            | none => simp
            | some pgns =>
              rw [NMEA2000Filter.processN2k, hpgns] at hselected
              simpa using (Bool.and_eq_true_iff.mp hselected).2
          have hnoTimer : (∃ m g, FilterMsg.n2k msg = .n2k m ∧
              set.n2kFilters.find? (N2kFilter.processN2k m) = some (.timeFilter g) ∧
              g.pgns = none ∧ m.pgn ≠ 0) ↔ (f.pgns = none ∧ msg.pgn ≠ 0) := by
            constructor
            · rintro ⟨m, g, hm, hg, hcase⟩
              obtain rfl := FilterMsg.n2k.inj hm
              rw [hfirst] at hg
              obtain rfl := N2kFilter.timeFilter.inj (Option.some.inj hg)
              exact hcase
            · exact fun hcase => ⟨msg, f, rfl, hfirst, hcase⟩
          rw [hnoTimer]
          simp only [if_true, true_and, N2kFilter.action, action_eq]
          rw [← htimer, ← AList.lookup_isSome]
          cases f.timers.lookup msg.pgn <;> simp [Except.map]

/-! ## 3. The tick -/

/-- What an action leaves of the filter: the timer of the PGN has checked its period. -/
theorem action_snd (f : NMEA2000TimeFilter) (now : Time) (msg : NMEA2000Msg) :
    (f.action now msg).2.period = f.period ∧ (f.action now msg).2.type = f.type ∧
      (f.action now msg).2.timers.lookup msg.pgn
        = (f.timers.lookup msg.pgn).map fun timer => (timer.checkPeriod now).2 := by
  unfold NMEA2000TimeFilter.action
  split
  · rename_i h
    exact ⟨rfl, rfl, by simp [h]⟩
  · rename_i timer h
    have hset : (f.setTimer msg.pgn (timer.checkPeriod now).2 (AList.lookup_isSome.mp (by simp [h]))
        (by rw [NMEA2000TimeFilter.period_checkPeriod, f.period_timers msg.pgn timer h])).timers.lookup
        msg.pgn = some (timer.checkPeriod now).2 := AList.lookup_insert _
    exact ⟨rfl, rfl, hset.trans (by simp [h])⟩

/-- The tick that the last passage left behind: a period on, when it had one. -/
def TickOf (P : Time) (pgn : Nat) (f : NMEA2000TimeFilter) (last : Option Passage) : Prop :=
  ∀ u b, last = some ⟨u, some b⟩ → f.type = .select ∧
    ∃ timer, f.timers.lookup pgn = some timer ∧ timer.tickTime + b = u + P

/-- Of two messages that pass one behind the other: to keep pace is to be a period
apart. -/
theorem keepsPace_iff {P : Time} {selectFilter : Bool} {f : NMEA2000TimeFilter}
    {input : Time × NMEA2000Msg} {last next : Passage} (htick : TickOf P input.2.pgn f (some last))
    (hnext : (single f).passage selectFilter input = some next) :
    last.KeepsPace P next ↔ last.time + P ≤ next.time := by
  obtain ⟨u, _ | b⟩ := last
  · exact Iff.rfl
  obtain ⟨t, _ | b'⟩ := next
  · exact Iff.rfl
  obtain ⟨-, timer, hlookup, hafter⟩ := htick u b rfl
  -- The tick that is found is the one left behind: it was not moved in between.
  have hfound : t = input.1 ∧ b' = input.1 - timer.tickTime := by
    unfold passage at hnext
    split at hnext
    · split at hnext <;> cases hnext
    · split at hnext <;> cases hnext
    · rename_i g hfirst
      obtain rfl : g = f := by
        have hmem := List.mem_of_find?_eq_some hfirst
        exact N2kFilter.timeFilter.inj (List.mem_singleton.mp hmem)
      simp only [hlookup] at hnext
      split at hnext
      · cases hnext
        exact ⟨rfl, rfl⟩
      · cases hnext
  obtain ⟨rfl, rfl⟩ := hfound
  change b ≤ input.1 - timer.tickTime ↔ u + P ≤ input.1
  constructor <;> intro h <;> linarith

/-- A message that the filter does not select leaves it as it is. -/
theorem step_single_of_not_selected (selectFilter : Bool) {f : NMEA2000TimeFilter}
    {input : Time × NMEA2000Msg} (h : f.processN2k input.2 = false) :
    ((filtering selectFilter).step (single f) input).2 = single f ∧
      (single f).passage selectFilter input
        = if selectFilter then none else some ⟨input.1, none⟩ := by
  have hfirst : (single f).n2kFilters.find? (N2kFilter.processN2k input.2) = none := by
    simp [single, N2kFilter.processN2k, h]
  constructor
  · simp only [filtering, processFilter, hfirst]
  · rw [passage, hfirst]

/-- The filter acts on a message that it selects. -/
theorem step_single_of_selected (selectFilter : Bool) {f : NMEA2000TimeFilter}
    {input : Time × NMEA2000Msg} (h : f.processN2k input.2 = true) :
    ((filtering selectFilter).step (single f) input).2 = single (f.action input.1 input.2).2 ∧
      (single f).passage selectFilter input
        = match f.timers.lookup input.2.pgn with
          | none => none
          | some timer =>
              if f.type = .select ∧ timer.tickTime + timer.period < input.1 then
                some ⟨input.1, some (input.1 - timer.tickTime)⟩
              else none := by
  have hfirst : (single f).n2kFilters.find? (N2kFilter.processN2k input.2) = some (.timeFilter f) := by
    simp [single, N2kFilter.processN2k, h]
  have hindex : (single f).n2kFilters.findIdx (N2kFilter.processN2k input.2) = 0 := by
    simp [single, N2kFilter.processN2k, h, List.findIdx_cons]
  constructor
  · simp only [filtering, processFilter, hfirst, hindex]
    rfl
  · rw [passage, hfirst]

/-- A message of the PGN leaves a set of one time filter, whose tick is where the
last passage left it. -/
theorem step_single {P : Time} (selectFilter : Bool) {f : NMEA2000TimeFilter} (hP : f.period = P)
    {input : Time × NMEA2000Msg} {last : Option Passage} (htick : TickOf P input.2.pgn f last) :
    ∃ g, ((filtering selectFilter).step (single f) input).2 = single g ∧ g.period = P ∧
      TickOf P input.2.pgn g (notePassage selectFilter (single f) last input) := by
  cases hselected : f.processN2k input.2 with
  | false =>
    obtain ⟨hstep, hpassage⟩ := step_single_of_not_selected selectFilter hselected
    refine ⟨f, hstep, hP, ?_⟩
    rw [notePassage, hpassage]
    cases selectFilter with
    | true => exact htick
    | false => exact fun u b h => by cases h
  | true =>
    obtain ⟨hstep, hpassage⟩ := step_single_of_selected selectFilter hselected
    obtain ⟨hperiod, htype, hafter⟩ := action_snd f input.1 input.2
    refine ⟨_, hstep, hperiod.trans hP, ?_⟩
    rw [notePassage, hpassage]
    cases hlookup : f.timers.lookup input.2.pgn with
    | none =>
      intro u b hlast
      obtain ⟨-, timer, htimer, -⟩ := htick u b hlast
      rw [hlookup] at htimer
      cases htimer
    | some timer =>
      rw [hlookup, Option.map_some] at hafter
      intro u b hlast
      by_cases hdue : f.type = .select ∧ timer.tickTime + timer.period < input.1
      · -- The message passes, and the tick goes on by the period.
        simp only [if_pos hdue, Option.some_or, Option.some.injEq, Passage.mk.injEq] at hlast
        obtain ⟨rfl, rfl⟩ := hlast
        refine ⟨htype.trans hdue.1, _, hafter, ?_⟩
        rw [TimeFilter.checkPeriod, if_pos (by linarith [hdue.2]), ← hP,
          ← f.period_timers _ _ hlookup]
        dsimp only
        ring
      · -- It does not: a filter of the other type has let nothing pass either.
        simp only [if_neg hdue, Option.none_or] at hlast
        obtain ⟨hselect, timer', htimer, heq⟩ := htick u b hlast
        obtain rfl : timer = timer' := Option.some.inj (hlookup.symm.trans htimer)
        refine ⟨htype.trans hselect, _, hafter, ?_⟩
        have hearly : ¬ timer.period < input.1 - timer.tickTime :=
          fun hlt => hdue ⟨hselect, by linarith⟩
        rw [TimeFilter.checkPeriod, if_neg hearly]
        exact heq

/-! ## 4. A run -/

theorem keptTimes_sublist (selectFilter : Bool) (set : FilterSet) (inputs : List (Time × NMEA2000Msg)) :
    (keptTimes selectFilter set inputs).Sublist (inputs.map Prod.fst) := by
  induction inputs generalizing set with
  | nil => exact List.Sublist.slnil
  | cons input inputs ih =>
    rw [keptTimes, List.map_cons]
    dsimp only
    split
    · exact (ih _).cons_cons _
    · exact (ih _).cons _

/-- Neighbours among the times kept are a period apart when each message that passes keeps
pace: by induction on the messages, from the tick that the last one left. -/
theorem isChain_keptTimes_iff {P : Time} (selectFilter : Bool) {pgn : Nat} {f : NMEA2000TimeFilter}
    (hP : f.period = P) (last : Option Passage) (htick : TickOf P pgn f last)
    {inputs : List (Time × NMEA2000Msg)} (hpgn : ∀ input ∈ inputs, input.2.pgn = pgn) :
    ((last.map Passage.time).toList ++ keptTimes selectFilter (single f) inputs).IsChain
        (fun s t => s + P ≤ t) ↔
      ∀ move ∈ ((filtering selectFilter).withHistory (notePassage selectFilter)).trace
          (single f, last) inputs,
        ∀ last ∈ move.pre.2, ∀ next ∈ move.pre.1.passage selectFilter move.input,
          last.KeepsPace P next := by
  induction inputs generalizing f last with
  | nil => cases last <;> simp [keptTimes]
  | cons input inputs ih =>
    obtain rfl : input.2.pgn = pgn := hpgn input List.mem_cons_self
    obtain ⟨g, hstep, hperiod, hleft⟩ := step_single selectFilter hP htick
    have hrest := ih hperiod _ hleft fun next hmem => hpgn next (List.mem_cons_of_mem _ hmem)
    rw [keptTimes, Machine.trace_cons, List.forall_mem_cons]
    dsimp only
    rw [show (((filtering selectFilter).withHistory (notePassage selectFilter)).step
        (single f, last) input).2 = (single g, notePassage selectFilter (single f) last input) from
      Prod.ext hstep rfl, hstep, ← hrest]
    cases hpassage : (single f).passage selectFilter input with
    | none =>
      have hnot : ¬ ((filtering selectFilter).step (single f) input).1 = .ok false := by
        rw [step_keeps_iff, hpassage]
        exact Bool.false_ne_true
      rw [if_neg hnot]
      simp [notePassage, hpassage]
    | some next =>
      have hkept : ((filtering selectFilter).step (single f) input).1 = .ok false := by
        rw [step_keeps_iff, hpassage]
        rfl
      rw [if_pos hkept, ← time_of_passage hpassage]
      cases last with
      | none => simp [notePassage, hpassage]
      | some last => simp [notePassage, hpassage, keepsPace_iff htick hpassage]

theorem limited_iff_steady {P : Time} {selectFilter : Bool} {pgn : Nat} {f : NMEA2000TimeFilter}
    (hP : f.period = P) (hpos : 0 < P) {inputs : List (Time × NMEA2000Msg)}
    (hpgn : ∀ input ∈ inputs, input.2.pgn = pgn)
    (hclock : (inputs.map Prod.fst).Pairwise (· ≤ ·)) :
    Limited P (keptTimes selectFilter (single f) inputs) ↔
      (single f).Steady P selectFilter inputs := by
  have hchain := isChain_keptTimes_iff selectFilter hP none nofun hpgn
  rw [limited_iff_isChain hpos (hclock.sublist (keptTimes_sublist selectFilter _ inputs))]
  exact hchain

/-! ## 5. Filters -/

/-- A filter of one PGN, made at the time 0, with a period of 10. -/
def headings : NMEA2000TimeFilter :=
  .init { name := "headings", type := .select, pgns := some [127250], sa := none } 10 (fun _ => 0)

/-- A filter of one source. -/
def sourceOnly : NMEA2000TimeFilter :=
  .init { name := "source", type := .select, pgns := none, sa := some 3 } 10 (fun _ => 0)

def heading : NMEA2000Msg := .of 127250 2 3 255 []

end FilterSet

end NavigationServer.Nmea2000
