/-
NavigationServer.Nmea2000.GrpcPublisherTheorems — one retry timer.

`disciplined_iff`: there is one pending timer at most, the publisher refers to it,
one is pending or under way while the publisher is not ready, none is pending behind a
stop, and nothing is transmitted while it is not ready, in exactly the runs whose steps
`TakesUpWell`. That is a condition on what happens, and the history of a run
(`RetryHistory`) has what it needs: which messages have an output that failed, whether
a retry goes on, and whether the channel was ready before it was over.

That nothing is transmitted while the publisher is not ready is then a fact about
the program: `process_msg` looks at `_ready`, a failure clears it, and only the channel
and a retry set it again (`RetryInv`). A timer whose `retry_timer` waits for the status
check is no longer pending, and is counted with the pending ones.
-/
import NavigationServer.Nmea2000.GrpcPublisher

namespace NavigationServer.Nmea2000

open NavigationServer.Lib

variable {M : Type*}

/-! ## 1. What is claimed of a step -/

namespace GrpcPublisher

/-- `waiting` and `atMostOne` count the timer that checks the status of the server. -/
structure OneTimer (s : GrpcPublisher M) : Prop where
  atMostOne : s.pendingTimers.length + s.checking ≤ 1
  known : ∀ t ∈ s.pendingTimers, s.timer = some t
  waiting : s.ready = false → s.stopFlag = false → 0 < s.pendingTimers.length + s.checking
  stopped : s.stopFlag = true → s.pendingTimers = []

/-- The state behind the step is right, and an output was transmitted only when
the publisher was ready. -/
structure Disciplined (mv : Move (GrpcPublisher M) (GrpcInput M) (Option (GrpcOutput M))) :
    Prop where
  timers : mv.post.OneTimer
  gated : mv.output.isSome → mv.pre.ready = true

end GrpcPublisher

/-! ## 2. The history of a run -/

/-- The failure starts a timer. -/
def arms : GrpcOutput M → RpcResult → Bool
  | _, .unavailable => true
  | .pushDecodedNMEA2K _, .otherError => true
  | _, _ => false

/-- `failed` : an output of the message in hand has failed so that a timer was started,
and neither the channel nor a retry has found the server since. `retrying` : a timer
was started and no retry has found the server since. `early` : meanwhile the channel
was ready. -/
structure RetryHistory where
  failed : Bool
  retrying : Bool
  early : Bool
  deriving DecidableEq

namespace RetryHistory

def new : RetryHistory := ⟨false, false, false⟩

end RetryHistory

/-- What is written down of a step. -/
def noteRetry (s : GrpcPublisher M) (h : RetryHistory) : GrpcInput M → RetryHistory
  | .message _ => if s.thread.isWaiting then { h with failed := false } else h
  | .reply result =>
      match s.thread with
      | .calling out _ _ _ => if arms out result then ⟨true, true, false⟩ else h
      | _ => h
  | .channel .ready => { h with failed := false, early := h.retrying }
  | .status .serverOk => if s.checking = 0 then h else ⟨false, false, false⟩
  | _ => h

/-- The publisher beside its history. -/
def observedGrpc (o : GrpcOptions) :
    Machine (GrpcPublisher M × RetryHistory) (GrpcInput M) (Option (GrpcOutput M)) :=
  (GrpcPublisher.machine o).withHistory noteRetry

/-- No output is transmitted behind one of the same message that has failed, unless the
server was found since. A failure that starts a timer does not come when the channel was
ready before a retry has found the server, nor behind a stop, nor does it call stop
itself. And no status check fails behind a stop, unless it is the last one. -/
def TakesUpWell (o : GrpcOptions) (s : GrpcPublisher M × RetryHistory) : GrpcInput M → Prop
  | .transmit => ∀ out outs guarded raised,
      s.1.thread = .sending (out :: outs) guarded raised → s.2.failed = false
  | .reply result => ∀ out outs guarded raised,
      s.1.thread = .calling out outs guarded raised → arms out result = true →
        s.2.early = false ∧ s.1.stopFlag = false ∧
          ¬ (result = .otherError ∧ o.stopOnError = true)
  | .status .failed => 0 < s.1.checking → s.1.lastRetry o ∨ s.1.stopFlag = false
  | _ => True

namespace GrpcPublisher

/-! ## 3. The timers of a state -/

theorem oneTimer_of_none {s : GrpcPublisher M} (hnone : s.pendingTimers = [])
    (hchecking : s.checking ≤ 1)
    (hready : s.ready = true ∨ s.stopFlag = true ∨ 0 < s.checking) : s.OneTimer := by
  refine ⟨by simp [hnone, hchecking], by simp [hnone], fun hnot hrun => ?_, fun _ => hnone⟩
  rcases hready with h | h | h
  · rw [h] at hnot
    cases hnot
  · rw [h] at hrun
    cases hrun
  · omega

/-- The thread of the publisher has no part in it. -/
theorem oneTimer_congr {s t : GrpcPublisher M} (h : s.OneTimer) (hready : t.ready = s.ready)
    (htimer : t.timer = s.timer) (hpending : t.pendingTimers = s.pendingTimers)
    (hchecking : t.checking = s.checking) (hstop : t.stopFlag = s.stopFlag) : t.OneTimer where
  atMostOne := by
    rw [hpending, hchecking]
    exact h.atMostOne
  known := by
    rw [hpending, htimer]
    exact h.known
  waiting := by
    rw [hready, hstop, hpending, hchecking]
    exact h.waiting
  stopped := by
    rw [hstop, hpending]
    exact h.stopped

theorem waiting_of_isWaiting {thread : SendThread M} (h : thread.isWaiting = true) :
    thread = .waiting := by
  cases thread with
  | waiting => rfl
  | sending | calling | ended => cases h

/-- The thread goes on, and is in no call. -/
theorem resume_eq (s : GrpcPublisher M) (guarded : Bool) (outs : Outputs M) :
    ∃ thread, s.resume guarded outs = { s with thread := thread } ∧
      ∀ out outs guarded raised, thread ≠ .calling out outs guarded raised := by
  obtain ⟨_ | ⟨out, outs⟩, _ | e⟩ := outs
  · refine ⟨_, rfl, fun _ _ _ _ => ?_⟩
    split <;> exact nofun
  · exact ⟨_, rfl, nofun⟩
  · exact ⟨_, rfl, nofun⟩
  · exact ⟨_, rfl, nofun⟩

@[simp] theorem oneTimer_thread (s : GrpcPublisher M) (thread : SendThread M) :
    ({ s with thread := thread } : GrpcPublisher M).OneTimer ↔ s.OneTimer :=
  ⟨fun h => oneTimer_congr h rfl rfl rfl rfl rfl, fun h => oneTimer_congr h rfl rfl rfl rfl rfl⟩

@[simp] theorem oneTimer_resume (s : GrpcPublisher M) (guarded : Bool) (outs : Outputs M) :
    (s.resume guarded outs).OneTimer ↔ s.OneTimer := by
  obtain ⟨thread, h, -⟩ := resume_eq s guarded outs
  rw [h, oneTimer_thread]

@[simp] theorem oneTimer_loopHead (s : GrpcPublisher M) : s.loopHead.OneTimer ↔ s.OneTimer :=
  oneTimer_thread s _

/-- A timer that is started behind another one, or of a stopped publisher, is
one too many. -/
theorem oneTimer_startTimer (s : GrpcPublisher M) :
    s.startTimer.OneTimer ↔
      s.pendingTimers = [] ∧ s.checking = 0 ∧ s.stopFlag = false := by
  constructor
  · intro h
    have hone := h.atMostOne
    rw [startTimer, List.length_cons] at hone
    dsimp only at hone
    refine ⟨List.eq_nil_of_length_eq_zero (by omega), by omega, ?_⟩
    rw [← Bool.not_eq_true]
    intro hstop
    exact absurd (h.stopped hstop) (by simp [startTimer])
  · rintro ⟨hnone, hchecking, hrun⟩
    constructor <;> simp [startTimer, hnone, hchecking, hrun]

/-- A stop cancels the timer that is known. -/
theorem stop_spec {s : GrpcPublisher M} (h : ∀ t ∈ s.pendingTimers, s.timer = some t) :
    s.stop.stopFlag = true ∧ s.stop.pendingTimers = [] ∧ s.stop.ready = s.ready ∧
      s.stop.checking = s.checking ∧ s.stop.thread = s.thread := by
  rw [stop, cancelTimer]
  cases htimer : s.timer with
  | none =>
    refine ⟨rfl, List.eq_nil_iff_forall_not_mem.mpr fun t ht => ?_, rfl, rfl, rfl⟩
    exact absurd (h t ht) (by simp [htimer])
  | some t =>
    refine ⟨rfl, List.filter_eq_nil_iff.mpr fun t' ht' => ?_, rfl, rfl, rfl⟩
    have hsame := h t' ht'
    rw [htimer] at hsame
    simp [Option.some.inj hsame]

theorem oneTimer_stop {s : GrpcPublisher M} (h : ∀ t ∈ s.pendingTimers, s.timer = some t)
    (hchecking : s.checking ≤ 1) : s.stop.OneTimer := by
  obtain ⟨hstop, hnone, -, hsame, -⟩ := stop_spec h
  exact oneTimer_of_none hnone (hsame ▸ hchecking) (Or.inr (Or.inl hstop))

theorem OneTimer.checking_le {s : GrpcPublisher M} (h : s.OneTimer) : s.checking ≤ 1 := by
  have := h.atMostOne
  omega

theorem OneTimer.stop {s : GrpcPublisher M} (h : s.OneTimer) : s.stop.OneTimer :=
  oneTimer_stop h.known h.checking_le

/-! ## 4. The invariant -/

/-- The timers are right. A retry that goes on has its timer, and without one there is
none. While nobody has found the server, the publisher is not ready; where outputs are
left it is ready or one of them has failed, and a call was begun when it was ready. -/
structure RetryInv (s : GrpcPublisher M × RetryHistory) : Prop where
  timers : s.1.OneTimer
  going : s.2.retrying = true → s.1.stopFlag = false →
    s.1.pendingTimers.length + s.1.checking = 1
  idle : s.2.retrying = false → s.1.pendingTimers = [] ∧ s.1.checking = 0 ∧ s.1.ready = true
  early : s.2.early = true → s.2.retrying = true
  unready : s.2.retrying = true → s.2.early = false → s.1.ready = false
  failed : s.2.failed = true → s.1.ready = false
  sending : ∀ outs guarded raised, s.1.thread = .sending outs guarded raised →
    s.1.ready = false → s.2.failed = true
  calling : ∀ out outs guarded raised, s.1.thread = .calling out outs guarded raised →
    s.1.ready = true

theorem retryInv_new : RetryInv ((new, RetryHistory.new) : GrpcPublisher M × RetryHistory) where
  timers := oneTimer_of_none rfl (Nat.zero_le 1) (.inl rfl)
  going := nofun
  idle := fun _ => ⟨rfl, rfl, rfl⟩
  early := nofun
  unready := nofun
  failed := nofun
  sending := nofun
  calling := nofun

section Step

variable {o : GrpcOptions} {s : GrpcPublisher M} {h : RetryHistory}

theorem RetryInv.ready_of_not_failed (hi : RetryInv (s, h)) {outs : List (GrpcOutput M)}
    {guarded : Bool} {raised : Option Exn} (hthread : s.thread = .sending outs guarded raised)
    (hfailed : h.failed = false) : s.ready = true := by
  rw [← Bool.not_eq_false]
  intro hready
  rw [hi.sending outs guarded raised hthread hready] at hfailed
  cases hfailed

/-- The timers have changed, and nothing else. -/
theorem RetryInv.retime (hi : RetryInv (s, h)) {t : GrpcPublisher M} (hready : t.ready = s.ready)
    (hthread : t.thread = s.thread) (htimers : t.OneTimer)
    (hgoing : h.retrying = true → t.stopFlag = false →
      t.pendingTimers.length + t.checking = 1)
    (hover : h.retrying = false → t.pendingTimers = [] ∧ t.checking = 0) : RetryInv (t, h) where
  timers := htimers
  going := hgoing
  idle := fun hnot =>
    ⟨(hover hnot).1, (hover hnot).2, hready.trans (hi.idle hnot).2.2⟩
  early := hi.early
  unready := fun hretrying hearly => hready.trans (hi.unready hretrying hearly)
  failed := fun hfailed => hready.trans (hi.failed hfailed)
  sending := fun outs guarded raised hsending hnot =>
    hi.sending outs guarded raised (hthread.symm.trans hsending) (hready.symm.trans hnot)
  calling := fun out outs guarded raised hcalling =>
    hready.trans (hi.calling out outs guarded raised (hthread.symm.trans hcalling))

/-- The thread has gone on, with the publisher ready or with no output in hand. -/
theorem RetryInv.thread (hi : RetryInv (s, h)) {thread : SendThread M}
    (hidle : s.ready = true ∨ thread = .waiting ∨ thread = .ended) :
    RetryInv ({ s with thread := thread }, h) where
  timers := (oneTimer_thread s thread).mpr hi.timers
  going := hi.going
  idle := hi.idle
  early := hi.early
  unready := hi.unready
  failed := hi.failed
  sending := fun outs guarded raised (hthread : thread = _) (hnot : s.ready = false) => by
    rcases hidle with hready | rfl | rfl
    · rw [hready] at hnot
      cases hnot
    · cases hthread
    · cases hthread
  calling := fun out outs guarded raised (hthread : thread = _) => by
    rcases hidle with hready | rfl | rfl
    · exact hready
    · cases hthread
    · cases hthread

theorem RetryInv.loopHead (hi : RetryInv (s, h)) : RetryInv (s.loopHead, h) := by
  rw [GrpcPublisher.loopHead]
  refine hi.thread (Or.inr ?_)
  split
  · exact Or.inr rfl
  · exact Or.inl rfl

/-- The next message is taken. -/
theorem RetryInv.forget (hi : RetryInv (s, h)) (hthread : s.thread = .waiting) :
    RetryInv (s, { h with failed := false }) where
  timers := hi.timers
  going := hi.going
  idle := hi.idle
  early := hi.early
  unready := hi.unready
  failed := nofun
  sending := fun _ _ _ hsending => by
    rw [hthread] at hsending
    cases hsending
  calling := hi.calling

theorem RetryInv.stop (hi : RetryInv (s, h)) : RetryInv (s.stop, h) := by
  obtain ⟨hstop, hnone, hready, hchecking, hthread⟩ := stop_spec hi.timers.known
  refine hi.retime hready hthread hi.timers.stop (fun _ hrun => ?_) fun hover => ?_
  · rw [hstop] at hrun
    cases hrun
  · exact ⟨hnone, hchecking.trans (hi.idle hover).2.1⟩

/-! ## 5. The end of a call -/

/-- The failure starts a timer, of a publisher that its own stop may have stopped. -/
theorem reply_of_arms {out : GrpcOutput M} {outs : List (GrpcOutput M)} {guarded : Bool}
    {raised : Option Exn} (hthread : s.thread = .calling out outs guarded raised)
    {result : RpcResult} (harms : arms out result = true) :
    ∃ t, t = (if result = RpcResult.otherError ∧ o.stopOnError = true then s.stop else s) ∧
      s.reply o result = ({ t with ready := false }.startTimer).resume guarded (outs, raised) := by
  cases out with
  | pushNMEA msg =>
    cases result with
    | unavailable => exact ⟨s, by simp, by simp [reply, hthread, sendMessage]⟩
    | answered | otherError | valueError => cases harms
  | pushDecodedNMEA2K msg =>
    cases result with
    | unavailable => exact ⟨s, by simp, by simp [reply, hthread, sendPbMessage]⟩
    | otherError =>
      exact ⟨if o.stopOnError then s.stop else s, by simp, by simp [reply, hthread, sendPbMessage]⟩
    | answered | valueError => cases harms

/-- Nothing is started: the thread goes on, and may have stopped the publisher. -/
theorem reply_of_not_arms {out : GrpcOutput M} {outs : List (GrpcOutput M)} {guarded : Bool}
    {raised : Option Exn} (hthread : s.thread = .calling out outs guarded raised)
    {result : RpcResult} (harms : arms out result = false) :
    ∃ thread, s.reply o result = { s with thread := thread } ∨
      s.reply o result = { s.stop with thread := thread } := by
  have hgoes : ∀ t : GrpcPublisher M, t = s ∨ t = s.stop →
      ∃ thread, t.resume guarded (outs, raised) = { s with thread := thread } ∨
        t.resume guarded (outs, raised) = { s.stop with thread := thread } := by
    rintro t (rfl | rfl)
    · obtain ⟨thread, h, -⟩ := resume_eq t guarded (outs, raised)
      exact ⟨thread, Or.inl h⟩
    · obtain ⟨thread, h, -⟩ := resume_eq s.stop guarded (outs, raised)
      exact ⟨thread, Or.inr h⟩
  cases out with
  | pushNMEA msg =>
    have hreply : s.reply o result = (s.sendMessage o result).resume guarded (outs, raised) := by
      rw [reply, hthread]
    rw [hreply]
    refine hgoes _ ?_
    cases result with
    | answered => exact Or.inl rfl
    | unavailable => cases harms
    | otherError =>
      rw [sendMessage]
      split
      · exact Or.inr rfl
      · exact Or.inl rfl
    | valueError => exact Or.inr rfl
  | pushDecodedNMEA2K msg =>
    cases result with
    | answered =>
      have hreply : s.reply o .answered = s.resume guarded (outs, raised) := by
        simp [reply, hthread, sendPbMessage]
      rw [hreply]
      exact hgoes s (Or.inl rfl)
    | unavailable | otherError => cases harms
    | valueError =>
      have hreply : s.reply o .valueError =
          if guarded then s.loopHead else { s with thread := .ended } := by
        simp [reply, hthread, sendPbMessage]
      rw [hreply]
      split
      · exact ⟨_, Or.inl rfl⟩
      · exact ⟨_, Or.inl rfl⟩

/-- In front of the failure the publisher was ready: it may start a timer unless a retry
goes on that the channel has come before. -/
theorem mayArm_iff (hi : RetryInv (s, h)) {out : GrpcOutput M} {outs : List (GrpcOutput M)}
    {guarded : Bool} {raised : Option Exn} (hthread : s.thread = .calling out outs guarded raised)
    (hrun : s.stopFlag = false) :
    (s.pendingTimers = [] ∧ s.checking = 0) ↔ h.early = false := by
  have hready : s.ready = true := hi.calling out outs guarded raised hthread
  constructor
  · rintro ⟨hnone, hchecking⟩
    rw [← Bool.not_eq_true]
    intro hearly
    have hgoing := hi.going (hi.early hearly) hrun
    dsimp only at hgoing
    rw [hnone, hchecking] at hgoing
    cases hgoing
  · intro hearly
    have hover : h.retrying = false := by
      rw [← Bool.not_eq_true]
      intro hretrying
      have hunready : s.ready = false := hi.unready hretrying hearly
      rw [hready] at hunready
      cases hunready
    exact ⟨(hi.idle hover).1, (hi.idle hover).2.1⟩

theorem oneTimer_reply_of_arms (hi : RetryInv (s, h)) {out : GrpcOutput M}
    {outs : List (GrpcOutput M)} {guarded : Bool} {raised : Option Exn}
    (hthread : s.thread = .calling out outs guarded raised) {result : RpcResult}
    (harms : arms out result = true) :
    (s.reply o result).OneTimer ↔ h.early = false ∧ s.stopFlag = false ∧
      ¬ (result = .otherError ∧ o.stopOnError = true) := by
  obtain ⟨t, ht, hreply⟩ := reply_of_arms (o := o) hthread harms
  rw [hreply, oneTimer_resume, oneTimer_startTimer]
  by_cases hown : result = .otherError ∧ o.stopOnError = true
  · rw [if_pos hown] at ht
    subst ht
    refine iff_of_false (fun hmay => ?_) fun hmay => hmay.2.2 hown
    have hrun := hmay.2.2
    dsimp only at hrun
    rw [(stop_spec hi.timers.known).1] at hrun
    cases hrun
  · rw [if_neg hown] at ht
    subst ht
    constructor
    · rintro ⟨hnone, hchecking, hrun⟩
      exact ⟨(mayArm_iff hi hthread hrun).mp ⟨hnone, hchecking⟩, hrun, hown⟩
    · rintro ⟨hearly, hrun, -⟩
      obtain ⟨hnone, hchecking⟩ := (mayArm_iff hi hthread hrun).mpr hearly
      exact ⟨hnone, hchecking, hrun⟩

theorem retryInv_reply_of_arms {out : GrpcOutput M} {outs : List (GrpcOutput M)} {guarded : Bool}
    {raised : Option Exn} (hthread : s.thread = .calling out outs guarded raised)
    {result : RpcResult} (harms : arms out result = true) (htimer : (s.reply o result).OneTimer) :
    RetryInv (s.reply o result, ⟨true, true, false⟩) := by
  obtain ⟨t, -, hreply⟩ := reply_of_arms (o := o) hthread harms
  rw [hreply] at htimer ⊢
  obtain ⟨hnone, hchecking, -⟩ := (oneTimer_startTimer _).mp ((oneTimer_resume _ _ _).mp htimer)
  obtain ⟨thread, hresume, hcalling⟩ := resume_eq _ guarded (outs, raised)
  rw [hresume] at htimer ⊢
  refine ⟨htimer, fun _ _ => ?_, nofun, nofun, fun _ _ => rfl, fun _ => rfl,
    fun _ _ _ _ _ => rfl, fun out outs guarded raised h =>
      absurd h (hcalling out outs guarded raised)⟩
  change (_ :: _).length + _ = 1
  rw [hnone]
  exact congrArg (1 + ·) hchecking

theorem retryInv_reply_of_not_arms (hi : RetryInv (s, h)) {out : GrpcOutput M}
    {outs : List (GrpcOutput M)} {guarded : Bool} {raised : Option Exn}
    (hthread : s.thread = .calling out outs guarded raised) {result : RpcResult}
    (harms : arms out result = false) : RetryInv (s.reply o result, h) := by
  have hready : s.ready = true := hi.calling out outs guarded raised hthread
  obtain ⟨thread, hreply | hreply⟩ := reply_of_not_arms (o := o) hthread harms
  · rw [hreply]
    exact hi.thread (Or.inl hready)
  · rw [hreply]
    exact hi.stop.thread (Or.inl ((stop_spec hi.timers.known).2.2.1.trans hready))

/-! ## 6. A step -/

/-- A step that transmits nothing. -/
theorem disciplined_quiet {i : GrpcInput M} {t : GrpcPublisher M} :
    Disciplined ⟨s, i, none, t⟩ ↔ t.OneTimer :=
  ⟨fun hd => hd.timers, fun ht => ⟨ht, nofun⟩⟩

theorem RetryInv.message (hi : RetryInv (s, h)) (hthread : s.thread = .waiting) (msg : GrpcMsg M) :
    RetryInv (s.processMsg o msg, { h with failed := false }) := by
  have hforget := hi.forget hthread
  rw [processMsg]
  split
  · rename_i hready
    obtain ⟨thread, hresume, -⟩ := resume_eq s (guarded o msg) (outputsOf o msg)
    rw [hresume]
    exact hforget.thread (Or.inl hready)
  · have hlost : RetryInv ({ s with nbLostMsg := s.nbLostMsg + 1 }, { h with failed := false }) :=
      hforget.retime rfl rfl (oneTimer_congr hi.timers rfl rfl rfl rfl rfl) hi.going
        fun hover => ⟨(hi.idle hover).1, (hi.idle hover).2.1⟩
    exact hlost.loopHead

/-- The timer is no longer pending, and checks the status of the server. -/
theorem RetryInv.expires (hi : RetryInv (s, h)) (t : Nat) : RetryInv (s.expires t, h) := by
  rw [GrpcPublisher.expires]
  split
  · rename_i ht
    have hone : s.pendingTimers.length + s.checking ≤ 1 := hi.timers.atMostOne
    have hpos : 0 < s.pendingTimers.length := List.length_pos_of_mem ht
    have hleft : (s.pendingTimers.erase t).length = 0 := by
      rw [List.length_erase_of_mem ht]
      omega
    have hnone := List.eq_nil_of_length_eq_zero hleft
    have hchecking : s.checking = 0 := by omega
    refine hi.retime rfl rfl (oneTimer_of_none hnone ?_ (Or.inr (Or.inr ?_))) (fun _ _ => ?_)
      fun hover => ?_
    · exact (congrArg (· + 1) hchecking).le
    · exact Nat.succ_pos _
    · dsimp only
      rw [hleft, hchecking]
    · have hempty : s.pendingTimers = [] := (hi.idle hover).1
      rw [hempty] at ht
      exact absurd ht List.not_mem_nil
  · exact hi

theorem RetryInv.checking_one (hi : RetryInv (s, h)) (hchecking : s.checking ≠ 0) :
    s.checking = 1 ∧ s.pendingTimers = [] ∧ h.retrying = true := by
  have hone : s.pendingTimers.length + s.checking ≤ 1 := hi.timers.atMostOne
  refine ⟨by omega, List.eq_nil_of_length_eq_zero (by omega), ?_⟩
  rw [← Bool.not_eq_false]
  intro hover
  exact hchecking (hi.idle hover).2.1

/-- The retry is over for a publisher that is stopped. -/
theorem RetryInv.stopped (hi : RetryInv (s, h)) (hretrying : h.retrying = true)
    {t : GrpcPublisher M} (hready : t.ready = s.ready) (hthread : t.thread = s.thread)
    (hnone : t.pendingTimers = []) (hchecking : t.checking ≤ 1) (hstop : t.stopFlag = true) :
    RetryInv (t, h) := by
  refine hi.retime hready hthread (oneTimer_of_none hnone hchecking (Or.inr (Or.inl hstop)))
    (fun _ hrun => ?_) fun hover => ?_
  · rw [hstop] at hrun
    cases hrun
  · rw [hretrying] at hover
    cases hover

/-- The status check of a retry ends. -/
theorem oneTimer_status_iff (hi : RetryInv (s, h)) (result : StatusResult) :
    (s.status o result).OneTimer ↔ TakesUpWell o (s, h) (.status result) := by
  rw [status]
  split
  · rename_i hzero
    refine iff_of_true hi.timers ?_
    cases result with
    | failed => exact fun hpos => absurd hzero hpos.ne'
    | serverOk | closed => trivial
  · rename_i hchecking
    obtain ⟨hone, hnone, -⟩ := hi.checking_one hchecking
    have hrest : s.checking - 1 = 0 := by rw [hone]
    cases result with
    | serverOk =>
      exact iff_of_true (oneTimer_of_none hnone (hrest.trans_le (Nat.zero_le 1)) (Or.inl rfl))
        trivial
    | failed =>
      simp only [TakesUpWell, Nat.pos_of_ne_zero hchecking, forall_const]
      split
      · rename_i hlast
        exact iff_of_true (oneTimer_stop (fun t ht => absurd ht (by simp [hnone]))
          (hrest.trans_le (Nat.zero_le 1))) (Or.inl hlast)
      · rename_i hlast
        rw [oneTimer_startTimer]
        exact ⟨fun hmay => Or.inr hmay.2.2, fun hmay =>
          ⟨hnone, hrest, hmay.resolve_left hlast⟩⟩
    | closed =>
      refine iff_of_true ?_ trivial
      dsimp only
      split
      · rename_i hstop
        exact oneTimer_of_none hnone (hrest.trans_le (Nat.zero_le 1)) (Or.inr (Or.inl hstop))
      · exact hi.timers

theorem retryInv_status (hi : RetryInv (s, h)) {result : StatusResult}
    (hwell : TakesUpWell o (s, h) (.status result)) :
    RetryInv (s.status o result, noteRetry s h (.status result)) := by
  have htimers := (oneTimer_status_iff hi result).mpr hwell
  rw [status] at htimers ⊢
  by_cases hzero : s.checking = 0
  · rw [if_pos hzero]
    cases result with
    | serverOk => simpa [noteRetry, hzero] using hi
    | failed | closed => exact hi
  · rw [if_neg hzero] at htimers ⊢
    obtain ⟨hone, hnone, hretrying⟩ := hi.checking_one hzero
    have hrest : s.checking - 1 = 0 := by rw [hone]
    have hle : s.checking - 1 ≤ 1 := hrest.trans_le (Nat.zero_le 1)
    cases result with
    | serverOk =>
      simp only [noteRetry, if_neg hzero]
      exact ⟨htimers, nofun, fun _ => ⟨hnone, hrest, rfl⟩, nofun, nofun, nofun,
        nofun, fun _ _ _ _ _ => rfl⟩
    | failed =>
      dsimp only at htimers ⊢
      split at htimers
      · rename_i hlast
        rw [if_pos hlast]
        obtain ⟨hstop, hempty, hready, hchecking, hthread⟩ :=
          stop_spec (s := { s with checking := s.checking - 1, nbRetry := s.nbRetry + 1 })
            fun t ht => absurd ht (by simp [hnone])
        exact hi.stopped hretrying hready hthread hempty (hchecking.trans_le hle) hstop
      · rename_i hlast
        rw [if_neg hlast]
        refine hi.retime rfl rfl htimers (fun _ _ => ?_) fun hover => ?_
        · simp [startTimer, hnone, hrest]
        · rw [hretrying] at hover
          cases hover
    | closed =>
      dsimp only at htimers ⊢
      split at htimers
      · rename_i hstop
        rw [if_pos hstop]
        exact hi.stopped hretrying rfl rfl hnone hle hstop
      · rename_i hstop
        rw [if_neg hstop]
        exact hi

/-- The channel is ready. -/
theorem RetryInv.channelReady (hi : RetryInv (s, h)) :
    RetryInv ({ s with ready := true }, { h with failed := false, early := h.retrying }) where
  timers := ⟨hi.timers.atMostOne, hi.timers.known, nofun, hi.timers.stopped⟩
  going := hi.going
  idle := fun hover => ⟨(hi.idle hover).1, (hi.idle hover).2.1, rfl⟩
  early := id
  unready := fun hretrying hearly => by
    dsimp only at hretrying hearly
    rw [hretrying] at hearly
    cases hearly
  failed := nofun
  sending := nofun
  calling := fun _ _ _ _ _ => rfl

/-- An output is transmitted when the publisher is ready, and only then. -/
theorem disciplined_transmit_iff (hi : RetryInv (s, h)) :
    Disciplined ⟨s, .transmit, s.transmit.1, s.transmit.2⟩ ↔ TakesUpWell o (s, h) .transmit := by
  rw [transmit]
  split
  · rename_i out outs guarded raised hthread
    constructor
    · rintro ⟨-, hgated⟩ out' outs' guarded' raised' -
      have hready : s.ready = true := hgated rfl
      rw [← Bool.not_eq_true]
      intro hfailed
      rw [hi.failed hfailed] at hready
      cases hready
    · intro hwell
      exact ⟨(oneTimer_thread s _).mpr hi.timers, fun _ =>
        hi.ready_of_not_failed hthread (hwell out outs guarded raised hthread)⟩
  · rename_i hthread
    refine iff_of_true ⟨hi.timers, nofun⟩ ?_
    intro out outs guarded raised hsending
    exact absurd hsending (hthread out outs guarded raised)

theorem retryInv_transmit (hi : RetryInv (s, h)) (hwell : TakesUpWell o (s, h) .transmit) :
    RetryInv (s.transmit.2, h) := by
  rw [transmit]
  split
  · rename_i out outs guarded raised hthread
    exact hi.thread (Or.inl
      (hi.ready_of_not_failed hthread (hwell out outs guarded raised hthread)))
  · exact hi

/-- The call of the stub ends. -/
theorem disciplined_reply_iff (hi : RetryInv (s, h)) (result : RpcResult) :
    (s.reply o result).OneTimer ↔ TakesUpWell o (s, h) (.reply result) := by
  by_cases hcalling : ∃ out outs guarded raised, s.thread = .calling out outs guarded raised
  · obtain ⟨out, outs, guarded, raised, hthread⟩ := hcalling
    have hwell : TakesUpWell o (s, h) (.reply result) ↔ (arms out result = true →
        h.early = false ∧ s.stopFlag = false ∧
          ¬ (result = .otherError ∧ o.stopOnError = true)) := by
      constructor
      · exact fun hwell => hwell out outs guarded raised hthread
      · intro hout out' outs' guarded' raised' hthread'
        rw [hthread] at hthread'
        cases hthread'
        exact hout
    rw [hwell]
    cases harms : arms out result with
    | true => simpa using oneTimer_reply_of_arms hi hthread harms
    | false => exact iff_of_true (retryInv_reply_of_not_arms hi hthread harms).timers nofun
  · have hreply : s.reply o result = s := by
      rw [reply]
      split
      · exact absurd ⟨_, _, _, _, ‹_›⟩ hcalling
      · exact absurd ⟨_, _, _, _, ‹_›⟩ hcalling
      · rfl
    rw [hreply]
    exact iff_of_true hi.timers fun out outs guarded raised hthread =>
      absurd ⟨out, outs, guarded, raised, hthread⟩ hcalling

theorem retryInv_reply (hi : RetryInv (s, h)) {result : RpcResult}
    (hwell : TakesUpWell o (s, h) (.reply result)) :
    RetryInv (s.reply o result, noteRetry s h (.reply result)) := by
  have htimers := (disciplined_reply_iff hi result).mpr hwell
  rw [noteRetry]
  split
  · rename_i out outs guarded raised hthread
    split
    · rename_i harms
      exact retryInv_reply_of_arms hthread harms htimers
    · rename_i harms
      exact retryInv_reply_of_not_arms hi hthread (Bool.eq_false_iff.mpr harms)
  · rename_i hthread
    have hreply : s.reply o result = s := by
      rw [reply]
      split
      · exact absurd ‹_› (hthread _ _ _ _)
      · exact absurd ‹_› (hthread _ _ _ _)
      · rfl
    rw [hreply]
    exact hi

end Step

/-- **One step** of a publisher and its history. -/
theorem disciplined_step_iff {o : GrpcOptions} {s : GrpcPublisher M} {h : RetryHistory}
    (hi : RetryInv (s, h)) (i : GrpcInput M) :
    Disciplined ⟨s, i, (s.step o i).1, (s.step o i).2⟩ ↔ TakesUpWell o (s, h) i := by
  cases i with
  | message msg =>
    refine disciplined_quiet.trans (iff_of_true ?_ trivial)
    dsimp only [step]
    split
    · rename_i hwaiting
      exact (hi.message (waiting_of_isWaiting hwaiting) msg).timers
    · exact hi.timers
  | queueEmpty =>
    refine disciplined_quiet.trans (iff_of_true ?_ trivial)
    dsimp only [step]
    split
    · exact hi.loopHead.timers
    · exact hi.timers
  | transmit => exact disciplined_transmit_iff hi
  | reply result => exact disciplined_quiet.trans (disciplined_reply_iff hi result)
  | expires t => exact disciplined_quiet.trans (iff_of_true (hi.expires t).timers trivial)
  | status result => exact disciplined_quiet.trans (oneTimer_status_iff hi result)
  | channel connectivity =>
    refine disciplined_quiet.trans (iff_of_true ?_ trivial)
    cases connectivity with
    | ready => exact hi.channelReady.timers
    | idle | connecting | transientFailure | shutdown => exact hi.timers
  | stop => exact disciplined_quiet.trans (iff_of_true hi.stop.timers trivial)

/-- A step that takes up well keeps the invariant. -/
theorem RetryInv.step {o : GrpcOptions} {s : GrpcPublisher M} {h : RetryHistory}
    (hi : RetryInv (s, h)) {i : GrpcInput M} (hwell : TakesUpWell o (s, h) i) :
    RetryInv ((s.step o i).2, noteRetry s h i) := by
  cases i with
  | message msg =>
    dsimp only [GrpcPublisher.step, noteRetry]
    split
    · rename_i hwaiting
      exact hi.message (waiting_of_isWaiting hwaiting) msg
    · exact hi
  | queueEmpty =>
    dsimp only [GrpcPublisher.step, noteRetry]
    split
    · exact hi.loopHead
    · exact hi
  | transmit => exact retryInv_transmit hi hwell
  | reply result => exact retryInv_reply hi hwell
  | expires t => exact hi.expires t
  | status result => exact retryInv_status hi hwell
  | channel connectivity =>
    cases connectivity with
    | ready => exact hi.channelReady
    | idle | connecting | transientFailure | shutdown => exact hi
  | stop => exact hi.stop

/-! ## 7. Runs -/

/-- **The publisher keeps one timer, and transmits nothing that it should not, in exactly
the runs whose steps are taken up well.** -/
theorem disciplined_iff (o : GrpcOptions) (is : List (GrpcInput M)) :
    (∀ mv ∈ (machine o).trace new is, Disciplined mv) ↔
      ∀ mv ∈ (observedGrpc o).trace (new, RetryHistory.new) is,
        TakesUpWell o mv.pre mv.input := by
  rw [← (machine o).forall_trace_withHistory noteRetry Disciplined (new, RetryHistory.new) is]
  refine (observedGrpc o).trace_forall_iff_of_invariant RetryInv
    (fun mv => Disciplined ⟨mv.pre.1, mv.input, mv.output, mv.post.1⟩) (TakesUpWell o) ?_ ?_
    retryInv_new is
  · intro s i hi
    exact disciplined_step_iff hi i
  · intro s i hi hwell
    exact hi.step hwell

/-- Decoded messages are sent, sentences are converted. -/
def converting : GrpcOptions := ⟨true, .convertStrict, 20, false⟩

/-- A sentence that is converted to two messages, with a server that cannot be
reached. -/
def twoFailures : List (GrpcInput Nat) :=
  [.message (.n0183 (.ok 0) [⟨.ok 1, .ok 1⟩, ⟨.ok 2, .ok 2⟩] none), .transmit,
    .reply .unavailable, .transmit, .reply .unavailable]

/-- Two timers are pending, and a stop cancels one of them. -/
theorem not_disciplined_twoFailures :
    (¬ ∀ mv ∈ (machine converting).trace new twoFailures, Disciplined mv) ∧
      ((machine converting).final new twoFailures).pendingTimers = [1, 0] ∧
      ((machine converting).final new (twoFailures ++ [.stop])).pendingTimers = [0] := by
  refine ⟨fun h => ?_, by decide, by decide⟩
  have hlast : ((machine converting).final new twoFailures).OneTimer := by
    refine (h ⟨(machine converting).final new (twoFailures.take 4), .reply .unavailable, none,
      (machine converting).final new twoFailures⟩ ?_).timers
    rw [twoFailures, Machine.trace_cons, Machine.trace_cons, Machine.trace_cons,
      Machine.trace_cons, Machine.trace_cons]
    exact List.mem_cons_of_mem _ (List.mem_cons_of_mem _ (List.mem_cons_of_mem _
      (List.mem_cons_of_mem _ (List.mem_cons_self ..))))
  exact absurd hlast.atMostOne (by decide)

end GrpcPublisher

end NavigationServer.Nmea2000
