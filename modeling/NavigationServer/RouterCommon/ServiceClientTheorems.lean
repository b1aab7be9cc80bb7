/-
NavigationServer.RouterCommon.ServiceClientTheorems — the client knows its
reader.

`tracked_iff`: there is one live reader at most, and the client refers to it, in
exactly the runs in which a reader that ends, or whose end was waited for, finds
no other one in the client. Whoever ends clears the reference, so the end of a
reader that was stopped loses the one that was started after it.
-/
import NavigationServer.RouterCommon.ServiceClient

namespace NavigationServer.RouterCommon

open NavigationServer.Lib

namespace ServiceClient

/-! ## 1. Live readers -/

/-- The reader runs, and it was not asked to stop. -/
def Live (s : ServiceClient) (r : Nat) : Prop :=
  ∃ reader, s.readers[r]? = some reader ∧ reader.stopFlag = false ∧ reader.isAlive = true

/-- There is one live reader at most, the client refers to it, and
`stream_is_alive` tells whether there is one. -/
structure Tracked (s : ServiceClient) : Prop where
  unique : ∀ r r', s.Live r → s.Live r' → r = r'
  known : ∀ r, s.Live r → s.streamReader = some r
  alive : s.streamIsAlive = true ↔ ∃ r, s.Live r

/-- What the client refers to is live. -/
def RefersToLive (s : ServiceClient) : Prop := ∀ r, s.streamReader = some r → s.Live r

/-- A client that refers to live readers only is right when it knows every live
one. -/
theorem tracked_iff_known {s : ServiceClient} (h : s.RefersToLive) :
    s.Tracked ↔ ∀ r, s.Live r → s.streamReader = some r := by
  constructor
  · exact fun htracked => htracked.known
  · intro hknown
    refine ⟨fun r r' hr hr' => ?_, hknown, ?_, ?_⟩
    · exact Option.some.inj ((hknown r hr).symm.trans (hknown r' hr'))
    · intro halive
      rw [streamIsAlive] at halive
      split at halive
      · rename_i r href
        exact ⟨r, h r href⟩
      · cases halive
    · rintro ⟨r, hr⟩
      have href := hknown r hr
      obtain ⟨reader, hreader, -, hisAlive⟩ := hr
      rw [streamIsAlive, href]
      simp only [isAlive, hreader, hisAlive]

/-! ## 2. What each step does to the live readers -/

/-- A change of one reader is seen in that reader. -/
theorem live_modifyReader {s : ServiceClient} {r r' : Nat}
    {f : GrpcStreamingReader → GrpcStreamingReader} {reader : GrpcStreamingReader}
    (hr : s.readers[r]? = some reader) :
    (s.modifyReader r f).Live r' ↔
      if r' = r then (f reader).stopFlag = false ∧ (f reader).isAlive = true else s.Live r' := by
  rw [Live, modifyReader, List.getElem?_modify]
  by_cases h : r' = r
  · subst h
    simp [hr]
  · simp [h, Ne.symm h, Live]

/-- The live readers are those of the list. -/
theorem live_congr {s t : ServiceClient} (h : t.readers = s.readers) (r : Nat) :
    t.Live r ↔ s.Live r := by
  rw [Live, Live, h]

theorem live_start {s : ServiceClient} (h : s.streamIsAlive = false) (toQueue : Bool) (r : Nat) :
    (s.startReadStream toQueue).Live r ↔ s.Live r ∨ r = s.readers.length := by
  rw [startReadStream, if_neg (by simp [h]), Live, Live]
  rcases Nat.lt_trichotomy r s.readers.length with hr | rfl | hr
  · rw [List.getElem?_append_left hr]
    simp [Nat.ne_of_lt hr]
  · rw [List.getElem?_concat_length]
    simp [GrpcStreamingReader.isAlive]
  · rw [List.getElem?_eq_none (by simp only [List.length_append, List.length_singleton]; omega),
      List.getElem?_eq_none (by omega)]
    simp [Nat.ne_of_gt hr]

theorem live_leaves (s : ServiceClient) (r : Nat) (why : StreamEnd) (r' : Nat) :
    (s.leaves r why).Live r' ↔ s.Live r' := by
  rw [leaves]
  split
  · rename_i reader hr
    split
    · rename_i hreading
      rw [live_modifyReader hr]
      split
      · rename_i h
        subst h
        simp [Live, hr, GrpcStreamingReader.isAlive, hreading.1]
      · rfl
    · rfl
  · rfl

theorem live_stop {s : ServiceClient} {r : Nat} (href : s.streamReader = some r) (h : s.Live r)
    (r' : Nat) : s.stopReadStream.Live r' ↔ s.Live r' ∧ r' ≠ r := by
  obtain ⟨reader, hr, -, -⟩ := h
  rw [stopReadStream, href]
  refine (live_congr rfl r').trans ((live_modifyReader hr).trans ?_)
  by_cases h : r' = r
  · simp [h, GrpcStreamingReader.stop]
  · simp [h]

/-- The reader has left its loop, and did not yet call the client. -/
def Ending (s : ServiceClient) (r : Nat) : Prop :=
  ∃ reader, s.readers[r]? = some reader ∧ reader.phase = .ending

theorem streamError_of_not_ending {s : ServiceClient} {r : Nat} (h : ¬ s.Ending r) :
    s.streamError r = s := by
  rw [streamError]
  split
  · rename_i reader hr
    rw [if_neg fun hending => h ⟨reader, hr, hending⟩]
  · rfl

theorem streamError_of_ending {s : ServiceClient} {r : Nat} (h : s.Ending r) :
    (s.streamError r).streamReader = none ∧
      ∀ r', (s.streamError r).Live r' ↔ s.Live r' ∧ r' ≠ r := by
  obtain ⟨reader, hr, hending⟩ := h
  rw [streamError, hr]
  simp only [hending, if_true]
  refine ⟨trivial, fun r' => (live_congr rfl r').trans ((live_modifyReader hr).trans ?_)⟩
  by_cases h : r' = r
  · simp [h, GrpcStreamingReader.isAlive]
  · simp [h]

/-! ## 3. Runs -/

/-- A reader that ends, or was waited for, finds itself in the client or no
one. -/
def EndsAlone (s : ServiceClient) : ClientInput → Prop
  | .callback r => s.Ending r → ∀ r', s.streamReader = some r' → r' = r
  | .joined r => r ∈ s.waits ∧ s.isAlive r = false → ∀ r', s.streamReader = some r' → r' = r
  | _ => True

theorem refersToLive_step {s : ServiceClient} (h : s.RefersToLive) (i : ClientInput) :
    (s.step i).RefersToLive := by
  have hstart : ∀ toQueue, (s.startReadStream toQueue).RefersToLive := by
    intro toQueue r href
    cases halive : s.streamIsAlive with
    | true =>
      rw [startReadStream, if_pos halive] at href ⊢
      exact h r href
    | false =>
      rw [live_start halive]
      rw [startReadStream, if_neg (by simp [halive])] at href
      exact .inr (Option.some.inj href).symm
  cases i with
  | startToQueue => exact hstart true
  | startToCallback => exact hstart false
  | stop =>
    intro r href
    rw [step, stopReadStream] at href
    split at href
    · cases href
    · rename_i hnone
      rw [hnone] at href
      cases href
  | waitForEnd =>
    intro r href
    rw [step, waitForStreamEnd] at href ⊢
    split at href <;> exact h r href
  | joined r =>
    intro r' href
    rw [step, joined] at href ⊢
    split at href
    · cases href
    · rename_i hno
      rw [if_neg hno]
      exact h r' href
  | leaves r why =>
    intro r' href
    refine (live_leaves s r why r').mpr (h r' ?_)
    rw [step, leaves] at href
    split at href
    · split at href <;> exact href
    · exact href
  | callback r =>
    intro r' href
    by_cases hending : s.Ending r
    · rw [step, (streamError_of_ending hending).1] at href
      cases href
    · rw [step, streamError_of_not_ending hending] at href ⊢
      exact h r' href

/-- **One step**: of a client that is right. -/
theorem tracked_step_iff {s : ServiceClient} (h : s.Tracked) (hlive : s.RefersToLive)
    (i : ClientInput) : (s.step i).Tracked ↔ s.EndsAlone i := by
  rw [tracked_iff_known (refersToLive_step hlive i)]
  have hstart : ∀ toQueue, ∀ r, (s.startReadStream toQueue).Live r →
      (s.startReadStream toQueue).streamReader = some r := by
    intro toQueue r hr
    cases halive : s.streamIsAlive with
    | true =>
      rw [startReadStream, if_pos halive] at hr ⊢
      exact h.known r hr
    | false =>
      have hnone : ¬ ∃ r, s.Live r := fun hex => by
        rw [h.alive.mpr hex] at halive
        cases halive
      rcases (live_start halive toQueue r).mp hr with hr | rfl
      · exact absurd ⟨r, hr⟩ hnone
      · rw [startReadStream, if_neg (by simp [halive])]
  cases i with
  | startToQueue => exact iff_of_true (hstart true) trivial
  | startToCallback => exact iff_of_true (hstart false) trivial
  | stop =>
    refine iff_of_true (fun r hr => ?_) trivial
    cases href : s.streamReader with
    | none =>
      rw [step, stopReadStream, href] at hr
      rw [step, stopReadStream, href]
      exact h.known r hr
    | some r₀ =>
      obtain ⟨hr, hne⟩ := (live_stop href (hlive r₀ href) r).mp hr
      exact absurd (Option.some.inj ((h.known r hr).symm.trans href)) hne
  | waitForEnd =>
    refine iff_of_true (fun r hr => ?_) trivial
    rw [step, waitForStreamEnd] at hr ⊢
    split at hr <;> exact h.known r hr
  | joined r =>
    rw [EndsAlone]
    by_cases hdone : r ∈ s.waits ∧ s.isAlive r = false
    · rw [step, joined, if_pos hdone]
      constructor
      · intro hknown _ r' href
        exact absurd (hknown r' (hlive r' href)) (by simp)
      · intro halone r' hr'
        have hsame := halone hdone r' (h.known r' hr')
        obtain ⟨reader, hreader, -, halive⟩ := hr'
        rw [hsame] at hreader
        have hdead := hdone.2
        rw [isAlive, hreader] at hdead
        simp only [halive] at hdead
        cases hdead
    · rw [step, joined, if_neg hdone]
      exact iff_of_true h.known fun hyes => absurd hyes hdone
  | leaves r why =>
    refine iff_of_true (fun r' hr' => ?_) trivial
    have hknown := h.known r' ((live_leaves s r why r').mp hr')
    rw [step, leaves]
    split
    · split <;> exact hknown
    · exact hknown
  | callback r =>
    rw [EndsAlone]
    by_cases hending : s.Ending r
    · obtain ⟨hnone, hlives⟩ := streamError_of_ending hending
      rw [step, hnone]
      constructor
      · intro hknown _ r' href
        by_contra hne
        exact absurd (hknown r' ((hlives r').mpr ⟨hlive r' href, hne⟩)) (by simp)
      · intro halone r' hr'
        obtain ⟨hr', hne⟩ := (hlives r').mp hr'
        exact absurd (halone hending r' (h.known r' hr')) hne
    · rw [step, streamError_of_not_ending hending]
      exact iff_of_true h.known fun hyes => absurd hyes hending

theorem tracked_new : new.Tracked ∧ new.RefersToLive := by
  have hnone : ∀ r, ¬ new.Live r := by
    rintro r ⟨reader, hreader, -⟩
    cases hreader
  have hrefers : new.RefersToLive := fun r href => by cases href
  exact ⟨(tracked_iff_known hrefers).mpr fun r hr => absurd hr (hnone r), hrefers⟩

/-- **The client knows its one live reader in exactly the runs in which no
reader ends beside another one.** -/
theorem tracked_iff (is : List ClientInput) :
    (∀ mv ∈ machine.trace new is, mv.post.Tracked) ↔
      ∀ mv ∈ machine.trace new is, mv.pre.EndsAlone mv.input := by
  refine machine.trace_forall_iff_of_invariant (fun s => s.Tracked ∧ s.RefersToLive)
    (fun mv => mv.post.Tracked) EndsAlone ?_ ?_ tracked_new is
  · intro s i h
    exact tracked_step_iff h.1 h.2 i
  · intro s i h halone
    exact ⟨(tracked_step_iff h.1 h.2 i).mpr halone, refersToLive_step h.2 i⟩

/-- A stream is stopped and started again before the first reader has ended. -/
def restart : List ClientInput :=
  [.startToQueue, .stop, .startToQueue, .leaves 0 .stopFlag, .callback 0]

/-- The first reader loses the second one, and a third one is started beside
it. -/
theorem not_tracked_restart :
    (¬ ∀ mv ∈ machine.trace new restart, mv.post.Tracked) ∧
      (machine.final new (restart ++ [.startToQueue])).Live 1 ∧
      (machine.final new (restart ++ [.startToQueue])).Live 2 := by
  have hone : (machine.final new (restart ++ [.startToQueue])).Live 1 := ⟨_, rfl, rfl, rfl⟩
  have htwo : (machine.final new (restart ++ [.startToQueue])).Live 2 := ⟨_, rfl, rfl, rfl⟩
  refine ⟨fun h => ?_, hone, htwo⟩
  have hlast : (machine.final new restart).Tracked := by
    refine h ⟨machine.final new (restart.take 4), .callback 0, (), machine.final new restart⟩ ?_
    simp [restart, Machine.trace_cons, machine]
  have hlive : (machine.final new restart).Live 1 := ⟨_, rfl, rfl, rfl⟩
  exact absurd (hlast.known 1 hlive) (by decide)

end ServiceClient

end NavigationServer.RouterCommon
