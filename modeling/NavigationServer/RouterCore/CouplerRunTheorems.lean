/-
NavigationServer.RouterCore.CouplerRunTheorems — what a coupler publishes, and
when it stops.

`coupler_routes` : what is published are the messages that `_read` has given,
in their order and each with its conversions before it, but for the protocol
messages, which go to the controller in their order, and for the null messages.
A publisher that raises costs the rest of one reading.

`coupler_stops` : behind a stop, all that is published comes of one reading.

`open_attempts` : no more calls of `open` fail one after the other than
`max_attempt`.

`buffered_never_reconnects` : a coupler over `BufferedIPCoupler` publishes
nothing more once its connection has been closed.

What a step does to the messages is said once (`step_cases`): it leaves them, reads one,
or publishes one. So the first result is an induction with three cases, over what is
published as parts of the readings (`Routes`). It is proved for any relation `R` of a
part to its reading, of which two are used: the beginning, when a publisher may raise,
and the whole. For the second the generator of `read` is `Tied` to one reading, and a
stopped thread is `Winding` it up.

The queues of the publishers are left out here, and what a subclass does in `_read`:
its answers are inputs, so the results hold for all of them.
-/
import NavigationServer.RouterCore.CouplerRun

namespace NavigationServer.RouterCore

open NavigationServer.Lib

variable {S : Type} {cfg : CouplerConfig} {s : CouplerThread S}

/-! ## 1. What is published -/

/-- What is still to be published of the reading in hand. -/
def CouplerThread.pending (s : CouplerThread S) : List (CouplerMsg S) :=
  match s.place with
  | .yielding rest _ => rest.filter (fun m => !m.isNull)
  | _ => []

/-- Each part is `R` of what its reading is routed to, and the last one goes on
with what is pending. -/
def CouplerThread.Routes (R : List (CouplerMsg S) → List (CouplerMsg S) → Prop)
    (cfg : CouplerConfig) (s : CouplerThread S) : Prop :=
  (s.pending = [] ∧ ∃ parts, List.Forall₂ (fun r part => R part (r.routed cfg)) s.reads parts ∧
      s.published = parts.flatten) ∨
    ∃ front r parts part, s.reads = front ++ [r] ∧
      List.Forall₂ (fun r part => R part (r.routed cfg)) front parts ∧
      r.routed cfg = part ++ s.pending ∧ s.published = parts.flatten ++ part

section Routes

variable {R : List (CouplerMsg S) → List (CouplerMsg S) → Prop}

/-- When the reading in hand is given up, each reading has its part. -/
theorem CouplerThread.Routes.parts (hrefl : ∀ part, R part part) (h : s.Routes R cfg)
    (hpart : s.pending ≠ [] → ∀ part whole, part <+: whole → R part whole) :
    ∃ parts, List.Forall₂ (fun r part => R part (r.routed cfg)) s.reads parts ∧
      s.published = parts.flatten := by
  rcases h with ⟨-, parts, hparts, heq⟩ | ⟨front, r, parts, part, hfront, hparts, hrouted, heq⟩
  · exact ⟨parts, hparts, heq⟩
  · refine ⟨parts ++ [part], ?_, ?_⟩
    · rw [hfront]
      refine List.rel_append hparts (List.Forall₂.cons ?_ List.Forall₂.nil)
      by_cases hnone : s.pending = []
      · rw [hrouted, hnone, List.append_nil]
        exact hrefl part
      · exact hpart hnone _ _ ⟨s.pending, hrouted.symm⟩
    · rw [heq, List.flatten_append, List.flatten_singleton]

/-- A message that is pending is published. -/
theorem CouplerThread.Routes.publish {t : CouplerThread S} {m : CouplerMsg S}
    (h : s.Routes R cfg) (hpending : s.pending = m :: t.pending)
    (hreads : t.reads = s.reads) (hpublished : t.published = s.published ++ [m]) :
    t.Routes R cfg := by
  rcases h with ⟨hnone, -⟩ | ⟨front, r, parts, part, hfront, hparts, hrouted, heq⟩
  · rw [hpending] at hnone
    cases hnone
  · refine Or.inr ⟨front, r, parts, part ++ [m], hreads.trans hfront, hparts, ?_, ?_⟩
    · rw [hrouted, hpending, List.append_assoc, List.singleton_append]
    · rw [hpublished, heq, List.append_assoc]

/-- A message is published, and the rest of its reading is lost. -/
theorem CouplerThread.Routes.cut (hbegins : ∀ part whole, part <+: whole → R part whole)
    {t : CouplerThread S} {m : CouplerMsg S} {rest : List (CouplerMsg S)} (h : s.Routes R cfg)
    (hpending : s.pending = m :: rest) (hreads : t.reads = s.reads)
    (hpublished : t.published = s.published ++ [m]) (hnone : t.pending = []) :
    t.Routes R cfg := by
  rcases h with ⟨hnone', -⟩ | ⟨front, r, parts, part, hfront, hparts, hrouted, heq⟩
  · rw [hpending] at hnone'
    cases hnone'
  · refine Or.inl ⟨hnone, parts ++ [part ++ [m]], ?_, ?_⟩
    · rw [hreads, hfront]
      refine List.rel_append hparts (List.Forall₂.cons (hbegins _ _ ⟨rest, ?_⟩) List.Forall₂.nil)
      rw [hrouted, hpending, List.append_assoc, List.singleton_append]
    · rw [hpublished, heq, List.flatten_append, List.flatten_singleton, List.append_assoc]

/-- A new reading. -/
theorem CouplerThread.Routes.read (hrefl : ∀ part, R part part) {t : CouplerThread S}
    {r : Reading S} (h : s.Routes R cfg) (hnone : s.pending = [])
    (hreads : t.reads = s.reads ++ [r]) (hpublished : t.published = s.published)
    (hpending : t.pending = r.routed cfg) : t.Routes R cfg := by
  obtain ⟨parts, hparts, heq⟩ := h.parts hrefl (fun hne => absurd hnone hne)
  refine Or.inr ⟨s.reads, r, parts, [], hreads, hparts, ?_, ?_⟩
  · rw [hpending, List.nil_append]
  · rw [hpublished, heq, List.append_nil]

end Routes

/-! ## 2. What a step does to the messages -/

namespace CouplerThread

/-- The messages are as they were. -/
structure Same (s t : CouplerThread S) : Prop where
  reads : t.reads = s.reads
  forwarded : t.forwarded = s.forwarded
  published : t.published = s.published
  totalMsg : t.totalMsg = s.totalMsg
  pending : t.pending = s.pending

/-- A message is read. -/
structure Reads (cfg : CouplerConfig) (s t : CouplerThread S) (r : Reading S) : Prop where
  none : s.pending = []
  place : t.place = .yielding (r.yields cfg).1 (r.yields cfg).2
  reads : t.reads = s.reads ++ [r]
  forwarded : t.forwarded = s.forwarded ++ (r.toController cfg).toList
  published : t.published = s.published
  totalMsg : t.totalMsg = s.totalMsg

/-- A message is published, and the rest stays pending or is lost. -/
structure Publishes (s t : CouplerThread S) (raises : Bool) (m : CouplerMsg S)
    (rest : List (CouplerMsg S)) : Prop where
  before : s.pending = m :: rest
  pending : t.pending = if raises then [] else rest
  reads : t.reads = s.reads
  forwarded : t.forwarded = s.forwarded
  published : t.published = s.published ++ [m]
  totalMsg : t.totalMsg = s.totalMsg + 1

section Steps

/-- A stop sets a flag. -/
theorem same_stop (s : CouplerThread S) : Same s s.stop := by
  unfold stop
  split <;> exact ⟨rfl, rfl, rfl, rfl, rfl⟩

/-- Outside of `read` nothing is pending. -/
theorem same_finish (cfg : CouplerConfig) (hnone : s.pending = []) : Same s (s.finish cfg) := by
  unfold finish close stop
  split <;> split <;> exact ⟨rfl, rfl, rfl, rfl, hnone.symm⟩

/-- The thread goes to `_read`, or round its loop when the coupler is suspended or only
writes. -/
theorem same_beforeRead (cfg : CouplerConfig) (hnone : s.pending = []) :
    Same s (s.beforeRead cfg) := by
  unfold beforeRead
  split <;> exact ⟨rfl, rfl, rfl, rfl, hnone.symm⟩

/-- The head of the loop. -/
theorem same_loopHead (cfg : CouplerConfig) (hnone : s.pending = []) :
    Same s (s.loopHead cfg) := by
  unfold loopHead
  split_ifs
  · exact same_finish cfg hnone
  · exact same_finish cfg hnone
  · exact ⟨rfl, rfl, rfl, rfl, hnone.symm⟩
  · exact same_beforeRead cfg hnone

/-- What `open` gives. -/
theorem same_openEnds (cfg : CouplerConfig) (hnone : s.pending = []) (answer : OpenAnswer) :
    Same s (s.openEnds cfg answer) := by
  cases answer with
  | returned ok state =>
    cases ok with
    | false => exact ⟨rfl, rfl, rfl, rfl, hnone.symm⟩
    | true =>
      unfold openEnds beforeRead
      dsimp only
      split <;> exact ⟨rfl, rfl, rfl, rfl, hnone.symm⟩
  | refused => exact same_finish cfg hnone
  | raised => exact ⟨rfl, rfl, rfl, rfl, hnone.symm⟩

/-- **What a step does to the messages.** -/
theorem step_cases (cfg : CouplerConfig) (s : CouplerThread S) (i : CouplerInput S) :
    Same s (s.step cfg i) ∨ (∃ r, i = .got (.message r) ∧ Reads cfg s (s.step cfg i) r) ∨
      ∃ raises m rest, i = .turn raises ∧ Publishes s (s.step cfg i) raises m rest := by
  have hidle : ∀ {place : CouplerPlace S}, s.place = place →
      (∀ rest ending, place ≠ .yielding rest ending) → s.pending = [] := by
    intro place hplace hno
    unfold pending
    rw [hplace]
    cases place with
    | yielding rest ending => exact absurd rfl (hno rest ending)
    | _ => rfl
  cases i with
  | turn raises =>
    simp only [step, turn]
    cases hplace : s.place with
    | head => exact Or.inl (same_loopHead cfg (hidle hplace (fun _ _ h => nomatch h)))
    | yielding rest ending =>
      have hpending : s.pending = rest.filter (fun m => !m.isNull) := by
        unfold pending
        rw [hplace]
      cases rest with
      | nil =>
        left
        unfold yieldTurn
        cases ending with
        | finished => exact ⟨rfl, rfl, rfl, rfl, hpending.symm⟩
        | fetchNext => exact ⟨rfl, rfl, rfl, rfl, hpending.symm⟩
        | expected => exact ⟨rfl, rfl, rfl, rfl, hpending.symm⟩
        | raised =>
          unfold close
          dsimp only
          split <;> exact ⟨rfl, rfl, rfl, rfl, hpending.symm⟩
      | cons m rest =>
        simp only [yieldTurn]
        cases hnull : m.isNull with
        | true =>
          left
          rw [List.filter_cons_of_neg (by simp [hnull])] at hpending
          unfold close
          rw [if_pos rfl]
          split <;> exact ⟨rfl, rfl, rfl, rfl, hpending.symm⟩
        | false =>
          right
          right
          rw [List.filter_cons_of_pos (by simp [hnull])] at hpending
          refine ⟨raises, m, rest.filter (fun m => !m.isNull), rfl, ?_⟩
          rw [if_neg (by simp)]
          cases raises with
          | false => exact ⟨hpending, rfl, rfl, rfl, rfl, rfl⟩
          | true =>
            unfold close
            rw [if_pos rfl]
            dsimp only
            split <;> exact ⟨hpending, rfl, rfl, rfl, rfl, rfl⟩
    | _ => exact Or.inl ⟨rfl, rfl, rfl, rfl, rfl⟩
  | opened answer =>
    left
    simp only [step]
    cases hplace : s.place with
    | opening => exact same_openEnds cfg (hidle hplace (fun _ _ h => nomatch h)) answer
    | _ => exact ⟨rfl, rfl, rfl, rfl, rfl⟩
  | got answer =>
    simp only [step]
    cases hplace : s.place with
    | reading =>
      have hnone := hidle hplace (fun _ _ h => nomatch h)
      cases answer with
      | message r => exact Or.inr (Or.inl ⟨r, rfl, hnone, rfl, rfl, rfl, rfl, rfl⟩)
      | expected => exact Or.inl ⟨rfl, rfl, rfl, rfl, hnone.symm⟩
      | raised =>
        left
        simp only [readEnds, close]
        split <;> exact ⟨rfl, rfl, rfl, rfl, hnone.symm⟩
    | _ => exact Or.inl ⟨rfl, rfl, rfl, rfl, rfl⟩
  | stop => exact Or.inl s.same_stop
  | suspend =>
    left
    simp only [step]
    split <;> exact ⟨rfl, rfl, rfl, rfl, rfl⟩
  | resume => exact Or.inl ⟨rfl, rfl, rfl, rfl, rfl⟩

end Steps

end CouplerThread

open CouplerThread

/-! ## 3. Over a run -/

/-- **What a step keeps.** -/
theorem CouplerThread.Routes.step {R : List (CouplerMsg S) → List (CouplerMsg S) → Prop}
    (hrefl : ∀ part, R part part) (h : s.Routes R cfg) (i : CouplerInput S)
    (hraises : i = .turn true → ∀ part whole, part <+: whole → R part whole) :
    (s.step cfg i).Routes R cfg := by
  rcases step_cases cfg s i with hsame | ⟨r, -, hreads⟩ | ⟨raises, m, rest, hi, hpublishes⟩
  · unfold CouplerThread.Routes at h ⊢
    rwa [hsame.reads, hsame.published, hsame.pending]
  · refine h.read hrefl hreads.none hreads.reads hreads.published ?_
    unfold pending
    rw [hreads.place]
    rfl
  · cases raises with
    | false =>
      refine h.publish (m := m) ?_ hpublishes.reads hpublishes.published
      rw [hpublishes.before, hpublishes.pending]
      rfl
    | true =>
      exact h.cut (hraises hi) hpublishes.before hpublishes.reads hpublishes.published
        hpublishes.pending

/-- The parts of a run. When a publisher has raised, a part is the beginning of what its
reading is routed to. -/
theorem routes_final (cfg : CouplerConfig)
    (R : List (CouplerMsg S) → List (CouplerMsg S) → Prop) (hrefl : ∀ part, R part part)
    (events : List (CouplerInput S))
    (hraises : CouplerInput.turn true ∈ events → ∀ part whole, part <+: whole → R part whole) :
    ((couplerThread cfg).final start events).Routes R cfg := by
  refine (couplerThread cfg).final_invariant (CouplerThread.Routes R cfg)
    (fun _ i => i ∈ events) ?_ ?_ events ?_
  · intro s i h hi
    exact h.step hrefl i (fun heq => hraises (heq ▸ hi))
  · exact Or.inl ⟨rfl, [], List.Forall₂.nil, rfl⟩
  · exact fun mv hmv => Machine.input_mem_of_mem_trace _ hmv

/-- What goes to the controller, and how many messages are counted. -/
structure CountsMessages (cfg : CouplerConfig) (s : CouplerThread S) : Prop where
  forwarded : s.forwarded = s.reads.filterMap (Reading.toController cfg)
  totalMsg : s.totalMsg = s.published.length

/-- **What a step keeps.** The controller gets its message as it is read, and a message is
counted as it is published. -/
theorem CountsMessages.step (h : CountsMessages cfg s) (i : CouplerInput S) : CountsMessages cfg (s.step cfg i) := by
  rcases step_cases cfg s i with hsame | ⟨r, -, hreads⟩ | ⟨raises, m, rest, -, hpublishes⟩
  · refine ⟨?_, ?_⟩
    · rw [hsame.forwarded, hsame.reads]
      exact h.forwarded
    · rw [hsame.totalMsg, hsame.published]
      exact h.totalMsg
  · refine ⟨?_, ?_⟩
    · rw [hreads.forwarded, hreads.reads, List.filterMap_append, h.forwarded]
      cases hto : r.toController cfg <;> simp [hto]
    · rw [hreads.totalMsg, hreads.published]
      exact h.totalMsg
  · refine ⟨?_, ?_⟩
    · rw [hpublishes.forwarded, hpublishes.reads]
      exact h.forwarded
    · rw [hpublishes.totalMsg, hpublishes.published, h.totalMsg, List.length_append,
        List.length_singleton]

/-- And a run. -/
theorem counts_final (cfg : CouplerConfig) (events : List (CouplerInput S)) :
    CountsMessages cfg ((couplerThread cfg).final start events) :=
  (couplerThread cfg).final_invariant (CountsMessages cfg) (fun _ _ => True)
    (fun _ i h _ => h.step i) ⟨rfl, rfl⟩ events (fun _ _ => trivial)

/-- The thread reads no more when it is stopped here. -/
def Closing (s : CouplerThread S) : Prop :=
  match s.place with
  | .opening => False
  | .reading => False
  | .yielding _ ending => ending ≠ .fetchNext
  | _ => True

/-- A reading that lets `read` go on yields nothing. -/
theorem routed_fetchNext {r : Reading S} (h : (r.yields cfg).2 = .fetchNext) :
    r.routed cfg = [] := by
  have hyields : (r.yields cfg).1 = [] := by
    unfold Reading.yields at h ⊢
    split at h
    · split_ifs at h ⊢
      rfl
    · split at h
      · rename_i hconvert
        rw [if_pos hconvert]
        cases hconv : r.conversion with
        | invalidFrame =>
          rw [hconv] at h
          dsimp only at h ⊢
          split at h
          · rename_i hmode
            rw [if_pos hmode]
          · cases h
        | incomplete => rfl
        | messages msgs =>
          rw [hconv] at h
          cases h
        | raised msgs =>
          rw [hconv] at h
          cases h
      · cases h
    · cases h
  unfold Reading.routed
  rw [hyields]
  rfl

/-- A stopped thread, and what it has published since `before`: nothing, or a
part of one reading behind which it reads no more. -/
structure Winding (cfg : CouplerConfig) (before : List (CouplerMsg S)) (s : CouplerThread S) :
    Prop where
  stopflag : s.stopflag = true
  since : (s.published = before ∧ s.pending = []) ∨
    (Closing s ∧ ∃ r ∈ s.reads, ∃ xs, s.published = before ++ xs ∧
      xs ++ s.pending <:+: r.routed cfg)

/-- A turn with a message in hand, case by case. -/
theorem yieldTurn_cons (raises : Bool) (m : CouplerMsg S) (rest : List (CouplerMsg S))
    (ending : ReadEnd) :
    s.yieldTurn cfg raises (m :: rest) ending =
      if m.isNull then { s.close cfg with place := .yielding rest ending }
      else if raises then
        { close cfg { s with
            totalMsg := s.totalMsg + 1, state := .active, published := s.published ++ [m] } with
          place := .head }
      else
        { s with
          totalMsg := s.totalMsg + 1
          state := .active
          published := s.published ++ [m]
          place := .yielding rest ending } := rfl

/-- The flag stays. -/
theorem stopflag_step (h : s.stopflag = true) (i : CouplerInput S) :
    (s.step cfg i).stopflag = true := by
  have hclose : ∀ t : CouplerThread S, t.stopflag = true → (t.close cfg).stopflag = true := by
    intro t ht
    unfold close
    split <;> exact ht
  have hstop : s.stop.stopflag = true := by
    unfold stop
    rw [if_pos h]
    exact h
  have hfinish : (s.finish cfg).stopflag = true := hclose _ hstop
  have hbefore : ∀ t : CouplerThread S, t.stopflag = true → (t.beforeRead cfg).stopflag = true := by
    intro t ht
    unfold beforeRead
    split <;> exact ht
  cases i with
  | turn raises =>
    simp only [CouplerThread.step, CouplerThread.turn]
    cases s.place with
    | head =>
      dsimp only
      unfold loopHead
      rw [if_pos h]
      exact hfinish
    | yielding rest ending =>
      cases rest with
      | nil =>
        cases ending with
        | raised => exact hclose s h
        | _ => exact h
      | cons m rest =>
        dsimp only
        rw [yieldTurn_cons]
        split_ifs
        · exact hclose s h
        · exact hclose _ h
        · exact h
    | _ => exact h
  | opened answer =>
    simp only [step]
    cases s.place with
    | opening =>
      cases answer with
      | returned ok state =>
        cases ok with
        | false => exact h
        | true => exact hbefore _ h
      | refused => exact hfinish
      | raised => exact h
    | _ => exact h
  | got answer =>
    simp only [step]
    cases s.place with
    | reading =>
      cases answer with
      | message r => exact h
      | expected => exact h
      | raised => exact hclose s h
    | _ => exact h
  | stop => exact hstop
  | suspend =>
    simp only [step]
    split <;> exact h
  | resume => exact h

/-- A stopped thread that reads no more goes on so. -/
theorem closing_step (hstop : s.stopflag = true) (h : Closing s) (i : CouplerInput S) :
    Closing (s.step cfg i) := by
  cases i with
  | turn raises =>
    simp only [CouplerThread.step, CouplerThread.turn]
    cases hplace : s.place with
    | head =>
      dsimp only
      unfold loopHead
      rw [if_pos hstop]
      trivial
    | yielding rest ending =>
      have hending : ending ≠ .fetchNext := by
        unfold Closing at h
        rw [hplace] at h
        exact h
      cases rest with
      | nil =>
        cases ending with
        | fetchNext => exact absurd rfl hending
        | _ => trivial
      | cons m rest =>
        dsimp only
        rw [yieldTurn_cons]
        split_ifs
        · exact hending
        · trivial
        · exact hending
    | _ =>
      dsimp only
      exact h
  | opened answer =>
    simp only [step]
    cases hplace : s.place with
    | opening =>
      unfold Closing at h
      rw [hplace] at h
      exact h.elim
    | _ => exact h
  | got answer =>
    simp only [step]
    cases hplace : s.place with
    | reading =>
      unfold Closing at h
      rw [hplace] at h
      exact h.elim
    | _ => exact h
  | stop =>
    simp only [step, stop]
    rw [if_pos hstop]
    exact h
  | suspend =>
    simp only [step]
    split <;> exact h
  | resume => exact h

/-- **What a step keeps.** -/
theorem Winding.step {before : List (CouplerMsg S)} (h : Winding cfg before s)
    (i : CouplerInput S) : Winding cfg before (s.step cfg i) := by
  refine ⟨stopflag_step h.stopflag i, ?_⟩
  rcases step_cases cfg s i with hsame | ⟨r, hi, hreads⟩ | ⟨raises, m, rest, -, hpublishes⟩
  · rcases h.since with ⟨hpublished, hnone⟩ | ⟨hclosing, r, hr, xs, hpublished, hpart⟩
    · exact Or.inl ⟨hsame.published.trans hpublished, hsame.pending.trans hnone⟩
    · refine Or.inr ⟨closing_step h.stopflag hclosing i, r, by rwa [hsame.reads], xs,
        hsame.published.trans hpublished, ?_⟩
      rwa [hsame.pending]
  · have hpending : (s.step cfg i).pending = r.routed cfg := by
      unfold pending
      rw [hreads.place]
      rfl
    rcases h.since with ⟨hpublished, -⟩ | ⟨hclosing, -⟩
    -- the stop came while `_read` waited: this reading is the last one
    · by_cases hnext : (r.yields cfg).2 = .fetchNext
      · exact Or.inl ⟨hreads.published.trans hpublished, hpending.trans (routed_fetchNext hnext)⟩
      · refine Or.inr ⟨?_, r, ?_, [], ?_, ?_⟩
        · unfold Closing
          rw [hreads.place]
          exact hnext
        · rw [hreads.reads]
          exact List.mem_append_right _ (List.mem_singleton_self r)
        · rw [hreads.published, hpublished, List.append_nil]
        · exact ⟨[], [], by rw [hpending, List.nil_append, List.nil_append, List.append_nil]⟩
    · -- nothing is read there: the place of a thread that is closing is not `_read`
      have hplace := hreads.place
      subst hi
      unfold Closing at hclosing
      simp only [CouplerThread.step] at hplace
      cases hp : s.place with
      | reading =>
        rw [hp] at hclosing
        exact hclosing.elim
      | _ =>
        have hkeep : (s.step cfg (.got (.message r))).reads = s.reads := by
          simp only [CouplerThread.step, hp]
        exact absurd (hkeep.symm.trans hreads.reads) (by simp)
  · rcases h.since with ⟨-, hnone⟩ | ⟨hclosing, r, hr, xs, hpublished, hpart⟩
    · rw [hpublishes.before] at hnone
      cases hnone
    · refine Or.inr ⟨closing_step h.stopflag hclosing i, r, by rwa [hpublishes.reads], xs ++ [m],
        ?_, ?_⟩
      · rw [hpublishes.published, hpublished, List.append_assoc]
      · rw [hpublishes.before] at hpart
        refine List.IsInfix.trans (List.IsPrefix.isInfix ?_) hpart
        rw [hpublishes.pending, List.append_assoc, List.singleton_append]
        cases raises with
        | false => exact List.prefix_rfl
        | true => exact List.prefix_append_right_inj xs |>.mpr (by simp)

/-- What waits in the generator of `read` comes of a reading. -/
def Tied (cfg : CouplerConfig) (s : CouplerThread S) : Prop :=
  ∀ rest ending, s.place = .yielding rest ending →
    ∃ r ∈ s.reads, (r.yields cfg).2 = ending ∧ rest <:+ (r.yields cfg).1

/-- A step that leaves the generator where it stands, or gives it up. -/
theorem Tied.of_place {t : CouplerThread S} (h : Tied cfg s) (hreads : t.reads = s.reads)
    (hplace : t.place = s.place ∨ ∀ rest ending, t.place ≠ .yielding rest ending) :
    Tied cfg t := by
  intro rest ending ht
  rcases hplace with hsame | hno
  · rw [hreads]
    exact h rest ending (hsame.symm.trans ht)
  · exact absurd ht (hno rest ending)

/-- Where a thread stands that is not in `read`. -/
theorem place_loopHead (rest : List (CouplerMsg S)) (ending : ReadEnd) :
    (s.loopHead cfg).place ≠ .yielding rest ending := by
  unfold loopHead finish beforeRead
  split_ifs <;> exact fun h => nomatch h

/-- Behind `open` the thread is not in `read` either. -/
theorem place_openEnds (answer : OpenAnswer) (rest : List (CouplerMsg S)) (ending : ReadEnd) :
    (s.openEnds cfg answer).place ≠ .yielding rest ending := by
  cases answer with
  | returned ok state =>
    cases ok with
    | false => exact fun h => nomatch h
    | true =>
      unfold openEnds beforeRead
      dsimp only
      split <;> exact fun h => nomatch h
  | refused => exact fun h => nomatch h
  | raised => exact fun h => nomatch h

/-- **What a step keeps.** The generator is made of a reading, and each turn takes one
message off. -/
theorem Tied.step (h : Tied cfg s) (i : CouplerInput S) : Tied cfg (s.step cfg i) := by
  have hreads : (∀ r, i ≠ .got (.message r)) → (s.step cfg i).reads = s.reads := by
    intro hno
    rcases step_cases cfg s i with hsame | ⟨r, hi, -⟩ | ⟨raises, m, rest, -, hpublishes⟩
    · exact hsame.reads
    · exact absurd hi (hno r)
    · exact hpublishes.reads
  cases i with
  | turn raises =>
    have hreads := hreads (fun _ h => nomatch h)
    simp only [CouplerThread.step, CouplerThread.turn] at hreads ⊢
    cases hplace : s.place with
    | head =>
      rw [hplace] at hreads
      exact h.of_place hreads (Or.inr place_loopHead)
    | yielding rest ending =>
      rw [hplace] at hreads
      cases rest with
      | nil =>
        refine h.of_place hreads (Or.inr ?_)
        cases ending <;> exact fun _ _ h => nomatch h
      | cons m rest =>
        dsimp only at hreads ⊢
        obtain ⟨r, hr, hending, hrest⟩ := h _ _ hplace
        have hnext : ∀ t : CouplerThread S, t.reads = s.reads →
            t.place = .yielding rest ending → Tied cfg t := by
          intro t ht hp rest' ending' hp'
          rw [hp] at hp'
          cases hp'
          exact ⟨r, by rwa [ht], hending, (List.suffix_cons m rest).trans hrest⟩
        rw [yieldTurn_cons] at hreads ⊢
        split_ifs at hreads ⊢
        · exact hnext _ hreads rfl
        · exact h.of_place hreads (Or.inr (fun _ _ h => nomatch h))
        · exact hnext _ hreads rfl
    | _ => exact h.of_place rfl (Or.inl rfl)
  | opened answer =>
    have hreads := hreads (fun _ h => nomatch h)
    simp only [CouplerThread.step] at hreads ⊢
    cases hplace : s.place with
    | opening =>
      rw [hplace] at hreads
      exact h.of_place hreads (Or.inr (place_openEnds answer))
    | _ => exact h.of_place rfl (Or.inl rfl)
  | got answer =>
    simp only [CouplerThread.step]
    cases hplace : s.place with
    | reading =>
      cases answer with
      | message r =>
        intro rest ending hp
        cases hp
        exact ⟨r, List.mem_append_right _ (List.mem_singleton_self r), rfl, List.suffix_rfl⟩
      | expected => exact h.of_place rfl (Or.inr (fun _ _ h => nomatch h))
      | raised =>
        have hreads := hreads (fun _ h => nomatch h)
        simp only [CouplerThread.step, hplace] at hreads
        exact h.of_place hreads (Or.inr (fun _ _ h => nomatch h))
    | _ => exact h.of_place rfl (Or.inl rfl)
  | stop =>
    refine h.of_place (same_stop s).reads (Or.inl ?_)
    simp only [CouplerThread.step, CouplerThread.stop]
    split <;> rfl
  | suspend =>
    simp only [CouplerThread.step]
    split
    · exact h
    · exact h
    · exact h.of_place rfl (Or.inl rfl)
  | resume => exact h.of_place rfl (Or.inl rfl)

/-- A stop begins it. -/
theorem winding_stop (h : Tied cfg s) : Winding cfg s.published s.stop := by
  have hsame := same_stop s
  have hplace : s.stop.place = s.place := by
    unfold CouplerThread.stop
    split <;> rfl
  refine ⟨?_, ?_⟩
  · unfold CouplerThread.stop
    split
    · assumption
    · rfl
  · by_cases hnone : s.pending = []
    · exact Or.inl ⟨hsame.published, hsame.pending.trans hnone⟩
    · right
      cases hp : s.place with
      | yielding rest ending =>
        obtain ⟨r, hr, hending, hrest⟩ := h _ _ hp
        have hpending : s.pending <:+ r.routed cfg := by
          unfold pending
          rw [hp]
          exact hrest.filter _
        refine ⟨?_, r, by rwa [hsame.reads], [], ?_, ?_⟩
        -- with something pending, `read` does not go on to the next message
        · unfold Closing
          rw [hplace, hp]
          intro hnext
          rw [hnext] at hending
          rw [routed_fetchNext hending] at hpending
          exact hnone (List.suffix_nil.mp hpending)
        · rw [hsame.published, List.append_nil]
        · rw [hsame.pending, List.nil_append]
          exact hpending.isInfix
      | _ =>
        refine absurd ?_ hnone
        unfold pending
        rw [hp]

/-- **Behind a stop a coupler publishes a part of one reading at most.** -/
theorem coupler_stops (cfg : CouplerConfig) (front back : List (CouplerInput S)) :
    ∃ xs, ((couplerThread cfg).final start (front ++ .stop :: back)).published
        = ((couplerThread cfg).final start front).published ++ xs ∧
      (xs = [] ∨ ∃ r ∈ ((couplerThread cfg).final start (front ++ .stop :: back)).reads,
        xs <:+: Reading.routed cfg r) := by
  have hstart : Tied cfg (start : CouplerThread S) := by
    intro rest ending hplace
    cases hplace
  have htied : Tied cfg ((couplerThread cfg).final start front) :=
    (couplerThread cfg).final_invariant (Tied cfg) (fun _ _ => True) (fun _ i h _ => h.step i)
      hstart front (fun _ _ => trivial)
  rw [Machine.final_append, Machine.final_cons]
  generalize (couplerThread cfg).final start front = s at htied
  have hwinding := (couplerThread cfg).final_invariant (Winding cfg s.published)
    (fun _ _ => True) (fun _ i h _ => h.step i) (winding_stop htied) back (fun _ _ => trivial)
  rcases hwinding.since with ⟨hpublished, -⟩ | ⟨-, r, hr, xs, hpublished, hpart⟩
  · exact ⟨[], hpublished.trans (List.append_nil _).symm, Or.inl rfl⟩
  · exact ⟨xs, hpublished, Or.inr ⟨r, hr, (List.prefix_append xs _).isInfix.trans hpart⟩⟩

/-! ## 5. Attempts to open -/

/-- How many of the last calls of `open` have failed in a row. -/
def failedInRow (opens : List Bool) : Nat := (opens.reverse.takeWhile (fun ok => !ok)).length

/-- One more call: it ends the row, or makes it longer. -/
theorem failedInRow_concat (opens : List Bool) (ok : Bool) :
    failedInRow (opens ++ [ok]) = if ok then 0 else failedInRow opens + 1 := by
  unfold failedInRow
  rw [List.reverse_append, List.reverse_singleton, List.singleton_append]
  cases ok <;> simp

/-- `nb_attempts` counts them, and there is one left where `open` is called. -/
structure Attempts (cfg : CouplerConfig) (s : CouplerThread S) : Prop where
  count : s.nbAttempts = failedInRow s.opens
  le : s.nbAttempts ≤ cfg.maxAttempt
  lt : s.place = .opening → s.nbAttempts < cfg.maxAttempt

/-- A step outside of `open`. -/
theorem Attempts.congr {t : CouplerThread S} (h : Attempts cfg s)
    (hcount : t.nbAttempts = s.nbAttempts) (hopens : t.opens = s.opens)
    (hplace : t.place = .opening → s.nbAttempts < cfg.maxAttempt) : Attempts cfg t := by
  refine ⟨?_, ?_, ?_⟩
  · rw [hcount, hopens]
    exact h.count
  · rw [hcount]
    exact h.le
  · rw [hcount]
    exact hplace

/-- The loop ends. -/
theorem Attempts.finish (h : Attempts cfg s) : Attempts cfg (s.finish cfg) := by
  unfold CouplerThread.finish CouplerThread.stop CouplerThread.close
  split_ifs <;> exact h.congr rfl rfl (fun h => nomatch h)

/-- The thread goes on to `_read`. -/
theorem Attempts.beforeRead (h : Attempts cfg s) : Attempts cfg (s.beforeRead cfg) := by
  unfold CouplerThread.beforeRead
  split <;> exact h.congr rfl rfl (fun h => nomatch h)

/-- The coupler is closed, anywhere but in `open`. -/
theorem Attempts.close (h : Attempts cfg s) {place : CouplerPlace S} (hplace : place ≠ .opening) :
    Attempts cfg { s.close cfg with place := place } := by
  unfold CouplerThread.close
  split <;> exact h.congr rfl rfl (fun h => absurd h hplace)

/-- **What a step keeps.** -/
theorem Attempts.step (h : Attempts cfg s) (i : CouplerInput S) :
    Attempts cfg (s.step cfg i) := by
  cases i with
  | turn raises =>
    simp only [CouplerThread.step, CouplerThread.turn]
    cases s.place with
    | head =>
      dsimp only
      unfold CouplerThread.loopHead
      split_ifs with hstop hready hattempts
      · exact h.finish
      · exact h.finish
      · exact h.congr rfl rfl (fun _ => Nat.lt_of_not_le hattempts)
      · exact h.beforeRead
    | yielding rest ending =>
      cases rest with
      | nil =>
        cases ending with
        | raised => exact h.close (fun h => nomatch h)
        | _ => exact h.congr rfl rfl (fun h => nomatch h)
      | cons m rest =>
        dsimp only
        rw [yieldTurn_cons]
        split_ifs
        · exact h.close (fun h => nomatch h)
        · refine Attempts.close ?_ (fun h => nomatch h)
          exact h.congr rfl rfl h.lt
        · exact h.congr rfl rfl (fun h => nomatch h)
    | _ => exact h
  | opened answer =>
    simp only [CouplerThread.step]
    cases hplace : s.place with
    | opening =>
      have hlt := h.lt hplace
      cases answer with
      | returned ok state =>
        cases ok with
        | true =>
          refine Attempts.beforeRead (s := { s with
            state := .opened, nbAttempts := 0, opens := s.opens ++ [true] }) ⟨?_, ?_, ?_⟩
          · exact (failedInRow_concat s.opens true).symm
          · exact Nat.zero_le _
          · exact fun _ => by dsimp only; omega
        | false =>
          refine ⟨?_, hlt, fun h => nomatch h⟩
          change s.nbAttempts + 1 = _
          rw [h.count]
          exact (failedInRow_concat s.opens false).symm
      | refused => exact h.finish
      | raised => exact h.congr rfl rfl (fun h => nomatch h)
    | _ => exact h
  | got answer =>
    simp only [CouplerThread.step]
    cases s.place with
    | reading =>
      cases answer with
      | message r => exact h.congr rfl rfl (fun h => nomatch h)
      | expected => exact h.congr rfl rfl (fun h => nomatch h)
      | raised => exact h.close (fun h => nomatch h)
    | _ => exact h
  | stop =>
    simp only [CouplerThread.step, CouplerThread.stop]
    split
    · exact h
    · exact h.congr rfl rfl h.lt
  | suspend =>
    simp only [CouplerThread.step]
    split
    · exact h
    · exact h
    · exact h.congr rfl rfl h.lt
  | resume => exact h.congr rfl rfl h.lt

/-- Only `open` adds to what it has given. -/
theorem opens_step {i : CouplerInput S} (hi : ∀ answer, i ≠ .opened answer) :
    (s.step cfg i).opens = s.opens := by
  have hclose : ∀ t : CouplerThread S, (t.close cfg).opens = t.opens := by
    intro t
    unfold CouplerThread.close
    split <;> rfl
  have hstop : s.stop.opens = s.opens := by
    unfold CouplerThread.stop
    split <;> rfl
  cases i with
  | turn raises =>
    simp only [CouplerThread.step, CouplerThread.turn]
    cases s.place with
    | head =>
      dsimp only
      unfold CouplerThread.loopHead CouplerThread.beforeRead CouplerThread.finish
      split_ifs
      · exact (hclose _).trans hstop
      · exact (hclose _).trans hstop
      · rfl
      · rfl
      · rfl
    | yielding rest ending =>
      cases rest with
      | nil =>
        cases ending with
        | raised => exact hclose s
        | _ => rfl
      | cons m rest =>
        dsimp only
        rw [yieldTurn_cons]
        split_ifs
        · exact hclose s
        · exact hclose _
        · rfl
    | _ => rfl
  | opened answer => exact absurd rfl (hi answer)
  | got answer =>
    simp only [CouplerThread.step]
    cases s.place with
    | reading =>
      cases answer with
      | message r => rfl
      | expected => rfl
      | raised => exact hclose s
    | _ => rfl
  | stop => exact hstop
  | suspend =>
    simp only [CouplerThread.step]
    split <;> rfl
  | resume => rfl

/-- No call was made. -/
theorem attempts_start (cfg : CouplerConfig) : Attempts cfg (start : CouplerThread S) :=
  ⟨rfl, Nat.zero_le _, fun h => nomatch h⟩

/-! ## 6. A buffered coupler -/

namespace BufferedIPCoupler

variable {b : BufferedIPCoupler S}

/-- A step of a buffered coupler is a step of its thread, or none. -/
theorem thread_step (cfg : CouplerConfig) (b : BufferedIPCoupler S) (i : BufferedInput S) :
    (b.step cfg i).thread = b.thread ∨ ∃ j, (b.step cfg i).thread = b.thread.step cfg j := by
  cases i with
  | transportOpened ok =>
    simp only [step]
    cases b.thread.place with
    | opening => exact Or.inr ⟨.opened (b.openAnswer cfg ok).1, rfl⟩
    | _ => exact Or.inl rfl
  | turn raises => exact Or.inr ⟨.turn raises, rfl⟩
  | got answer => exact Or.inr ⟨.got answer, rfl⟩
  | stop => exact Or.inr ⟨.stop, rfl⟩
  | suspend => exact Or.inr ⟨.suspend, rfl⟩
  | resume => exact Or.inr ⟨.resume, rfl⟩

/-- No call of `open` has returned a true value, and a reader that has been
started is that of a coupler that reads. -/
structure Unopened (cfg : CouplerConfig) (b : BufferedIPCoupler S) : Prop where
  opens : ∀ ok ∈ b.thread.opens, ok = false
  reads : b.asynchStarted = true → cfg.writeOnly = false

/-- **What a step keeps.** `open` returns None when all goes well, and False when the
transport fails. -/
theorem Unopened.step (h : Unopened cfg b) (i : BufferedInput S) :
    Unopened cfg (b.step cfg i) := by
  have hsame : ∀ j : CouplerInput S, (∀ answer, j ≠ .opened answer) →
      Unopened cfg { b with thread := b.thread.step cfg j } := by
    intro j hj
    refine ⟨?_, h.reads⟩
    rw [opens_step hj]
    exact h.opens
  cases i with
  | transportOpened ok =>
    simp only [BufferedIPCoupler.step]
    cases hplace : b.thread.place with
    | opening =>
      simp only [CouplerThread.step, hplace, openAnswer]
      have hfailed : ∀ ok ∈ b.thread.opens ++ [false], ok = false := by
        intro ok hok
        rcases List.mem_append.mp hok with hok | hok
        · exact h.opens ok hok
        · exact List.mem_singleton.mp hok
      split_ifs with hok hwrites hstarted
      · exact ⟨hfailed, h.reads⟩
      · exact ⟨h.opens, fun _ => by simpa using hwrites⟩
      · exact ⟨hfailed, fun _ => by simpa using hwrites⟩
      · exact ⟨hfailed, h.reads⟩
    | _ => exact h
  | turn raises => exact hsame _ (fun _ h => nomatch h)
  | got answer => exact hsame _ (fun _ h => nomatch h)
  | stop => exact hsame _ (fun _ h => nomatch h)
  | suspend => exact hsame _ (fun _ h => nomatch h)
  | resume => exact hsame _ (fun _ h => nomatch h)

/-- So in every run no call of `open` was a success. -/
theorem unopened_final (cfg : CouplerConfig) (events : List (BufferedInput S)) :
    Unopened cfg ((bufferedCoupler cfg).final start events) := by
  refine (bufferedCoupler cfg).final_invariant (Unopened cfg) (fun _ _ => True)
    (fun _ i h _ => h.step i) ⟨?_, ?_⟩ events (fun _ _ => trivial)
  · exact fun _ hok => absurd hok List.not_mem_nil
  · exact fun h => absurd h Bool.false_ne_true

/-- The connection has been there, and is closed: the loop begins again. -/
structure Disconnected (b : BufferedIPCoupler S) : Prop where
  started : b.asynchStarted = true
  place : b.thread.place = .head
  state : b.thread.state = .notReady

/-- What has been read and published stays, and the thread does not read. -/
structure Silent (before b : BufferedIPCoupler S) : Prop where
  started : b.asynchStarted = true
  reads : b.thread.reads = before.thread.reads
  published : b.thread.published = before.thread.published
  place : (b.thread.place = .head ∧ b.thread.state = .notReady) ∨ b.thread.place = .opening ∨
    b.thread.place = .stopped ∨ b.thread.place = .died

/-- **What a step keeps.** The thread goes round its loop and calls `open`, and when the
transport is there again the reader is started a second time, which raises. -/
theorem Silent.step {before : BufferedIPCoupler S} (hreads : cfg.writeOnly = false)
    (h : Silent before b) (i : BufferedInput S) : Silent before (b.step cfg i) := by
  have hfinish : Silent before { b with thread := b.thread.finish cfg } := by
    refine ⟨h.started, ?_, ?_, Or.inr (Or.inr (Or.inl rfl))⟩
    · rw [← h.reads]
      unfold CouplerThread.finish CouplerThread.stop CouplerThread.close
      split_ifs <;> rfl
    · rw [← h.published]
      unfold CouplerThread.finish CouplerThread.stop CouplerThread.close
      split_ifs <;> rfl
  cases i with
  | turn raises =>
    simp only [BufferedIPCoupler.step, CouplerThread.step, CouplerThread.turn]
    rcases h.place with ⟨hplace, hstate⟩ | hplace | hplace | hplace
    · rw [hplace]
      dsimp only
      unfold CouplerThread.loopHead
      split_ifs
      · exact hfinish
      · exact hfinish
      · exact ⟨h.started, h.reads, h.published, Or.inr (Or.inl rfl)⟩
    · rw [hplace]
      exact h
    · rw [hplace]
      exact h
    · rw [hplace]
      exact h
  | transportOpened ok =>
    simp only [BufferedIPCoupler.step]
    cases hplace : b.thread.place with
    | opening =>
      simp only [CouplerThread.step, hplace, openAnswer, hreads, h.started]
      cases ok with
      | true => exact ⟨rfl, h.reads, h.published, Or.inr (Or.inr (Or.inr rfl))⟩
      | false => exact ⟨rfl, h.reads, h.published, Or.inl ⟨rfl, rfl⟩⟩
    | _ => exact h
  | got answer =>
    simp only [BufferedIPCoupler.step, CouplerThread.step]
    rcases h.place with ⟨hplace, -⟩ | hplace | hplace | hplace
    all_goals
      rw [hplace]
      exact h
  | stop =>
    simp only [BufferedIPCoupler.step, CouplerThread.step, CouplerThread.stop]
    split
    · exact h
    · refine ⟨h.started, h.reads, h.published, ?_⟩
      exact h.place.imp (fun hp => ⟨hp.1, rfl⟩) id
  | suspend =>
    simp only [BufferedIPCoupler.step, CouplerThread.step]
    split <;> exact ⟨h.started, h.reads, h.published, h.place⟩
  | resume => exact ⟨h.started, h.reads, h.published, h.place⟩

end BufferedIPCoupler

open BufferedIPCoupler (Disconnected Silent unopened_final thread_step)

/-- **No more calls of `open` fail in a row than `max_attempt`**; of a buffered
coupler, whose `open` returns no true value, there are no more at all. -/
theorem open_attempts (cfg : CouplerConfig) (events : List (CouplerInput S))
    (buffered : List (BufferedInput S)) :
    failedInRow ((couplerThread cfg).final CouplerThread.start events).opens ≤ cfg.maxAttempt ∧
      ((bufferedCoupler cfg).final BufferedIPCoupler.start buffered).thread.opens.length
        ≤ cfg.maxAttempt := by
  have hthread := (couplerThread cfg).final_invariant (Attempts cfg) (fun _ _ => True)
    (fun _ i h _ => h.step i) (attempts_start cfg) events (fun _ _ => trivial)
  have hbuffered : Attempts cfg
      ((bufferedCoupler cfg).final BufferedIPCoupler.start buffered).thread := by
    refine (bufferedCoupler cfg).final_invariant (fun b => Attempts cfg b.thread)
      (fun _ _ => True) ?_ (attempts_start (S := S) cfg) buffered (fun _ _ => trivial)
    intro b i h _
    change Attempts cfg (b.step cfg i).thread
    rcases thread_step cfg b i with hsame | ⟨j, hj⟩
    · rw [hsame]
      exact h
    · rw [hj]
      exact h.step j
  refine ⟨hthread.count ▸ hthread.le, ?_⟩
  have hopens := (unopened_final cfg buffered).opens
  have hle := hbuffered.le
  rw [hbuffered.count] at hle
  refine le_trans (le_of_eq ?_) hle
  unfold failedInRow
  rw [List.takeWhile_eq_self_iff.mpr, List.length_reverse]
  intro ok hok
  rw [hopens ok (List.mem_reverse.mp hok)]
  rfl

/-- **A buffered coupler does not reconnect.** Once its connection is closed it
reads nothing more and publishes nothing more, whatever comes. -/
theorem buffered_never_reconnects (cfg : CouplerConfig) (front back : List (BufferedInput S))
    (h : Disconnected ((bufferedCoupler cfg).final .start front)) :
    ((bufferedCoupler cfg).final .start (front ++ back)).thread.reads
        = ((bufferedCoupler cfg).final .start front).thread.reads ∧
      ((bufferedCoupler cfg).final .start (front ++ back)).thread.published
        = ((bufferedCoupler cfg).final .start front).thread.published := by
  have hreads := (unopened_final cfg front).reads h.started
  rw [Machine.final_append]
  generalize (bufferedCoupler cfg).final .start front = b at h
  have hsilent := (bufferedCoupler cfg).final_invariant (Silent b) (fun _ _ => True)
    (fun _ i hb _ => hb.step hreads i) ⟨h.started, rfl, rfl, Or.inl ⟨h.place, h.state⟩⟩ back
    (fun _ _ => trivial)
  exact ⟨hsilent.reads, hsilent.published⟩

/-- A coupler over TCP, its connection, a message and the end of the flow. -/
def closedFlow : List (BufferedInput Unit) :=
  [.turn false, .transportOpened true, .turn false, .got (.message ⟨.n0183 (), .invalidFrame⟩),
    .turn false, .turn false, .turn false, .got (.message ⟨.null, .invalidFrame⟩), .turn false,
    .turn false]

/-- One message is read, the connection is closed, and the transport comes back. -/
theorem buffered_never_reconnects_closedFlow :
    ((bufferedCoupler ⟨20, false, false, false, false, true⟩).final .start
      (closedFlow ++ closedFlow)).thread.published = [.n0183 ()] :=
  (buffered_never_reconnects ⟨20, false, false, false, false, true⟩ closedFlow closedFlow
    ⟨rfl, rfl, rfl⟩).2

end NavigationServer.RouterCore
