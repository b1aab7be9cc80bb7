/-
NavigationServer.CanInterface.Writer — the thread that writes to the CAN bus.

`SocketCANWriter.nrun` is two nested loops over four variables: `msg`, `retry`,
`burst` and `nberr`. A turn of the thread is what it does between two calls
that another thread can come between, so `place` tells where in the loops it
stands. The other threads put messages into the queue, and stop the writer. How
the n-th call of `bus.send` ends is a parameter, `bus`. The pacing, the trace
and the log are left out: they take time, and nothing else.

The invariant is `InOrder`: the messages taken from the queue are those sent,
and behind them the one in hand where the writer holds one (`Holding`).
-/
import NavigationServer.Lib.Machine
import NavigationServer.RouterCommon.Exceptions

namespace NavigationServer.CanInterface

open NavigationServer.Lib

/-! ## 1. The thread -/

/-- How a call of `bus.send` ends. -/
inductive SendResult where
  | success
  | canError
  | valueError
  deriving DecidableEq, Repr

/-- The outer loop, the choice of the burst, the call of `bus.send`, the call of
`get` inside a burst, and the two ends of the thread. -/
inductive Place where
  | outer
  | pacing
  | sending
  | inBurst
  | returned
  | raised (e : Exn)
  deriving DecidableEq, Repr

/-- `put`, `taken` and `sent` are what was put into the queue, taken from it and
passed to the bus so far. -/
structure SocketCANWriter (Msg : Type*) where
  inQueue : List Msg
  stopFlag : Bool
  totalMsg : Nat
  place : Place
  msg : Option Msg
  retry : Bool
  burst : Nat
  nberr : Nat
  put : List Msg
  taken : List Msg
  sent : List Msg
  deriving DecidableEq, Repr

namespace SocketCANWriter

variable {Msg : Type*}

def start : SocketCANWriter Msg where
  inQueue := []
  stopFlag := false
  totalMsg := 0
  place := .outer
  msg := none
  retry := false
  burst := 0
  nberr := 0
  put := []
  taken := []
  sent := []

/-- `msg = self._in_queue.get(..)`, or `none` for `queue.Empty`. -/
def get (s : SocketCANWriter Msg) : Option (SocketCANWriter Msg) :=
  match s.inQueue with
  | [] => none
  | msg :: rest => some { s with inQueue := rest, msg := some msg, taken := s.taken ++ [msg] }

def outerTurn (s : SocketCANWriter Msg) : SocketCANWriter Msg :=
  if s.stopFlag then { s with place := .returned }
  else if s.retry then { s with place := .pacing }
  else
    match s.get with
    | none => s
    | some s => { s with place := .pacing }

def setBurst (inQueueSize : Nat) (s : SocketCANWriter Msg) : SocketCANWriter Msg :=
  if (s.inQueue.length : Int) > inQueueSize - 2 then { s with burst := 5, place := .sending }
  else { s with burst := 1, place := .sending }

/-- `burst -= 1`, and the test of the inner loop. -/
def endTurn (s : SocketCANWriter Msg) : SocketCANWriter Msg :=
  { s with burst := s.burst - 1, place := if s.burst - 1 > 0 then .inBurst else .outer }

def tooManyErrors : Exn :=
  .socketCanError "Too many errors in write operations - suspecting CAN bus problem"

def accessClosed : Exn :=
  .socketCanError "SocketCANWriter CAN access closed during write => STOP"

def trySend (bus : Nat → SendResult) (s : SocketCANWriter Msg) : SocketCANWriter Msg :=
  match s.msg with
  | none => { s with place := .raised .nameError }
  | some msg =>
      let s' := { s with totalMsg := s.totalMsg + 1 }
      match bus s.totalMsg with
      | .success => { s' with sent := s.sent ++ [msg], retry := false, nberr := 0 }.endTurn
      | .valueError => { s' with place := .raised accessClosed }
      | .canError =>
          let s' := { s' with nberr := s.nberr + 1, burst := 1, retry := true }
          if s'.nberr > 20 then { s' with place := .raised tooManyErrors } else s'.endTurn

def burstTurn (s : SocketCANWriter Msg) : SocketCANWriter Msg :=
  match s.get with
  | none => { s with place := .outer }
  | some s => { s with place := .sending }

def turn (inQueueSize : Nat) (bus : Nat → SendResult) (s : SocketCANWriter Msg) :
    SocketCANWriter Msg :=
  match s.place with
  | .outer => s.outerTurn
  | .pacing => s.setBurst inQueueSize
  | .sending => s.trySend bus
  | .inBurst => s.burstTurn
  | .returned => s
  | .raised _ => s

/-- `Queue.put` of another thread. A queue that has a size and is full lets it wait. -/
def putMsg (inQueueSize : Nat) (s : SocketCANWriter Msg) (msg : Msg) : SocketCANWriter Msg :=
  if 0 < inQueueSize ∧ inQueueSize ≤ s.inQueue.length then s
  else { s with inQueue := s.inQueue ++ [msg], put := s.put ++ [msg] }

inductive Act (Msg : Type*) where
  | put (msg : Msg)
  | stop
  | turn

/-- The writer and the threads around it, in any order of their steps. -/
def writer (inQueueSize : Nat) (bus : Nat → SendResult) :
    Machine (SocketCANWriter Msg) (Act Msg) Unit where
  step s
    | .put msg => ((), s.putMsg inQueueSize msg)
    | .stop => ((), { s with stopFlag := true })
    | .turn => ((), s.turn inQueueSize bus)

/-! ## 2. What one turn keeps -/

/-- The message in hand is not sent yet. -/
def Holding (s : SocketCANWriter Msg) : Prop :=
  s.place = .pacing ∨ s.place = .sending ∨ (s.place = .outer ∧ s.retry = true)

/-- The next call is one of `get`. -/
def AboutToGet (s : SocketCANWriter Msg) : Prop :=
  (s.place = .outer ∧ s.retry = false) ∨ s.place = .inBurst

structure InOrder (s : SocketCANWriter Msg) : Prop where
  put_eq : s.put = s.taken ++ s.inQueue
  holding : s.Holding → ∃ msg, s.msg = some msg ∧ s.taken = s.sent ++ [msg]
  free : s.AboutToGet → s.taken = s.sent
  noRetry : s.place = .inBurst → s.retry = false

theorem inOrder_start : InOrder (start : SocketCANWriter Msg) where
  put_eq := rfl
  holding := by simp [Holding, start]
  free := fun _ => rfl
  noRetry := fun _ => rfl

theorem InOrder.putMsg {s : SocketCANWriter Msg} (h : s.InOrder) (size : Nat) (msg : Msg) :
    (s.putMsg size msg).InOrder := by
  unfold SocketCANWriter.putMsg
  split
  · exact h
  · exact ⟨by simp [h.put_eq], h.holding, h.free, h.noRetry⟩

/-- Taking a message when none is in hand puts it in hand. -/
theorem InOrder.get {s s' : SocketCANWriter Msg} (h : s.InOrder) (hfree : s.AboutToGet)
    (hget : s.get = some s') :
    s'.put = s'.taken ++ s'.inQueue ∧ ∃ msg, s'.msg = some msg ∧ s'.taken = s'.sent ++ [msg] := by
  unfold SocketCANWriter.get at hget
  split at hget
  · exact absurd hget (by simp)
  · rename_i msg rest hqueue
    obtain rfl := Option.some.inj hget
    refine ⟨?_, msg, rfl, ?_⟩
    · simp [h.put_eq, hqueue]
    · rw [h.free hfree]

/-- A message in hand is kept at every place outside a burst. -/
theorem inOrder_of_holding {s : SocketCANWriter Msg} {place : Place}
    (hput : s.put = s.taken ++ s.inQueue)
    (hhand : ∃ msg, s.msg = some msg ∧ s.taken = s.sent ++ [msg])
    (hplace : place = .pacing ∨ place = .sending) : InOrder { s with place := place } where
  put_eq := hput
  holding := fun _ => hhand
  free := by rcases hplace with rfl | rfl <;> simp [AboutToGet]
  noRetry := by rcases hplace with rfl | rfl <;> simp

theorem InOrder.outerTurn {s : SocketCANWriter Msg} (h : s.InOrder) (hplace : s.place = .outer) :
    s.outerTurn.InOrder := by
  unfold SocketCANWriter.outerTurn
  split
  · exact ⟨h.put_eq, by simp [Holding], by simp [AboutToGet], by simp⟩
  · split
    · rename_i hretry
      exact inOrder_of_holding h.put_eq (h.holding (.inr (.inr ⟨hplace, hretry⟩))) (.inl rfl)
    · rename_i hretry
      have hfree : s.AboutToGet := .inl ⟨hplace, by simpa using hretry⟩
      split
      · exact h
      · rename_i s' hget
        obtain ⟨hput, hhand⟩ := h.get hfree hget
        exact inOrder_of_holding hput hhand (.inl rfl)

theorem InOrder.setBurst {s : SocketCANWriter Msg} (h : s.InOrder) (hplace : s.place = .pacing)
    (size : Nat) : (s.setBurst size).InOrder := by
  have hhand := h.holding (.inl hplace)
  unfold SocketCANWriter.setBurst
  split
  · exact inOrder_of_holding (s := { s with burst := 5 }) h.put_eq hhand (.inr rfl)
  · exact inOrder_of_holding (s := { s with burst := 1 }) h.put_eq hhand (.inr rfl)

/-- A success empties the hand; a failure keeps the message, and leaves the burst. -/
theorem InOrder.trySend {s : SocketCANWriter Msg} (h : s.InOrder) (hplace : s.place = .sending)
    (bus : Nat → SendResult) : (s.trySend bus).InOrder := by
  obtain ⟨msg, hmsg, htaken⟩ := h.holding (.inr (.inl hplace))
  unfold SocketCANWriter.trySend
  rw [hmsg]
  dsimp only
  split
  · refine ⟨h.put_eq, ?_, fun _ => htaken, fun _ => rfl⟩
    simp only [Holding, endTurn]
    split <;> simp
  · exact ⟨h.put_eq, by simp [Holding], by simp [AboutToGet], by simp⟩
  · split
    · exact ⟨h.put_eq, by simp [Holding], by simp [AboutToGet], by simp⟩
    · exact ⟨h.put_eq, fun _ => ⟨msg, rfl, htaken⟩, by simp [AboutToGet, endTurn], by simp [endTurn]⟩

theorem InOrder.burstTurn {s : SocketCANWriter Msg} (h : s.InOrder) (hplace : s.place = .inBurst) :
    s.burstTurn.InOrder := by
  have hfree : s.AboutToGet := .inr hplace
  unfold SocketCANWriter.burstTurn
  split
  · refine ⟨h.put_eq, ?_, fun _ => h.free hfree, by simp⟩
    simp [Holding, h.noRetry hplace]
  · rename_i s' hget
    obtain ⟨hput, hhand⟩ := h.get hfree hget
    exact inOrder_of_holding hput hhand (.inr rfl)

theorem InOrder.turn {s : SocketCANWriter Msg} (h : s.InOrder) (size : Nat)
    (bus : Nat → SendResult) : (s.turn size bus).InOrder := by
  unfold SocketCANWriter.turn
  cases hplace : s.place with
  | outer => exact h.outerTurn hplace
  | pacing => exact h.setBurst hplace size
  | sending => exact h.trySend hplace bus
  | inBurst => exact h.burstTurn hplace
  | returned => exact h
  | raised e => exact h

/-! ## 3. Whole runs -/

theorem inOrder_of_reachable {size : Nat} {bus : Nat → SendResult} {s : SocketCANWriter Msg}
    (h : (writer size bus).Reachable start s) : s.InOrder := by
  refine h.induction InOrder inOrder_start ?_
  intro s act hs
  cases act with
  | put msg => exact hs.putMsg size msg
  | stop => exact ⟨hs.put_eq, hs.holding, hs.free, hs.noRetry⟩
  | turn => exact hs.turn size bus

/-- **Whenever the writer is about to take a message, it has sent exactly those
it took, in the order they were put.** -/
theorem sent_eq_taken (size : Nat) (bus : Nat → SendResult) {s : SocketCANWriter Msg}
    (h : (writer size bus).Reachable start s) (hget : s.AboutToGet) :
    s.sent = s.taken ∧ s.put = s.taken ++ s.inQueue :=
  ⟨((inOrder_of_reachable h).free hget).symm, (inOrder_of_reachable h).put_eq⟩

/-- A burst of two behind a failed call. -/
theorem sent_eq_taken_retry :
    let bus : Nat → SendResult := fun n => if n = 0 then .canError else .success
    let acts : List (Act Nat) :=
      [.put 7, .put 8, .turn, .turn, .turn, .turn, .turn, .turn, .turn, .turn]
    let s := (writer 2 bus).final start acts
    s.sent = s.taken ∧ s.put = s.taken ++ s.inQueue :=
  sent_eq_taken 2 (fun n => if n = 0 then .canError else .success)
    ⟨[.put 7, .put 8, .turn, .turn, .turn, .turn, .turn, .turn, .turn, .turn], rfl⟩ (.inr (by decide))

/-! ## 4. Failures in a row -/

/-- No more than twenty calls in a row fail. -/
def FewErrors (bus : Nat → SendResult) : Prop := ∀ n, ∃ k ≤ 20, bus (n + k) ≠ .canError

/-- `nberr` counts the failures in a row, and more than twenty of them end the thread. -/
structure CountsErrors (bus : Nat → SendResult) (s : SocketCANWriter Msg) : Prop where
  le_totalMsg : s.nberr ≤ s.totalMsg
  failed : s.place ≠ .raised accessClosed →
    ∀ n, s.totalMsg - s.nberr ≤ n → n < s.totalMsg → bus n = .canError
  gaveUp : s.place = .raised tooManyErrors → 20 < s.nberr

theorem countsErrors_start (bus : Nat → SendResult) :
    CountsErrors bus (start : SocketCANWriter Msg) where
  le_totalMsg := Nat.le_refl 0
  failed := by
    intro _ n _ hn
    exact absurd hn (Nat.not_lt_zero n)
  gaveUp := by simp [start]

/-- A step that makes no call keeps the count. -/
theorem CountsErrors.congr {bus : Nat → SendResult} {s s' : SocketCANWriter Msg}
    (h : s.CountsErrors bus) (htotal : s'.totalMsg = s.totalMsg) (hnberr : s'.nberr = s.nberr)
    (hplace : ∀ e, s.place = .raised e ↔ s'.place = .raised e) : s'.CountsErrors bus where
  le_totalMsg := by
    rw [htotal, hnberr]
    exact h.le_totalMsg
  failed := by
    intro hopen
    rw [htotal, hnberr]
    exact h.failed (fun hclosed => hopen ((hplace _).mp hclosed))
  gaveUp := by
    intro hraised
    rw [hnberr]
    exact h.gaveUp ((hplace _).mpr hraised)

theorem endTurn_place (s : SocketCANWriter Msg) (e : Exn) : s.endTurn.place ≠ .raised e := by
  unfold endTurn
  dsimp only
  split <;> simp

theorem CountsErrors.trySend {bus : Nat → SendResult} {s : SocketCANWriter Msg}
    (h : s.CountsErrors bus) (hplace : s.place = .sending) : (s.trySend bus).CountsErrors bus := by
  have hfailed := h.failed (by rw [hplace]; simp)
  unfold SocketCANWriter.trySend
  split
  · exact ⟨h.le_totalMsg, fun _ => hfailed, by simp [tooManyErrors]⟩
  · dsimp only
    split
    · refine ⟨Nat.zero_le _, ?_, fun hraised => absurd hraised (endTurn_place _ _)⟩
      intro _ n hlow hn
      exact absurd hn (Nat.not_lt.mpr hlow)
    · exact ⟨Nat.le_succ_of_le h.le_totalMsg, fun hopen => absurd rfl hopen,
        by simp [tooManyErrors, accessClosed]⟩
    · rename_i herror
      have hwindow : ∀ n, s.totalMsg + 1 - (s.nberr + 1) ≤ n → n < s.totalMsg + 1 →
          bus n = .canError := by
        intro n hlow hn
        rcases Nat.lt_succ_iff_lt_or_eq.mp hn with hold | rfl
        · exact hfailed n (by omega) hold
        · exact herror
      split
      · rename_i hmany
        exact ⟨Nat.succ_le_succ h.le_totalMsg, fun _ => hwindow, fun _ => hmany⟩
      · exact ⟨Nat.succ_le_succ h.le_totalMsg, fun _ => hwindow,
          fun hraised => absurd hraised (endTurn_place _ _)⟩

theorem CountsErrors.turn {bus : Nat → SendResult} {s : SocketCANWriter Msg}
    (h : s.CountsErrors bus) (size : Nat) : (s.turn size bus).CountsErrors bus := by
  unfold SocketCANWriter.turn
  cases hplace : s.place with
  | outer =>
    dsimp only
    unfold SocketCANWriter.outerTurn SocketCANWriter.get
    split
    · exact h.congr rfl rfl (by simp [hplace])
    · split
      · exact h.congr rfl rfl (by simp [hplace])
      · cases s.inQueue with
        | nil => exact h
        | cons msg rest => exact h.congr rfl rfl (by simp [hplace])
  | pacing =>
    dsimp only
    unfold SocketCANWriter.setBurst
    split <;> exact h.congr rfl rfl (by simp [hplace])
  | sending => exact h.trySend hplace
  | inBurst =>
    dsimp only
    unfold SocketCANWriter.burstTurn SocketCANWriter.get
    cases s.inQueue with
    | nil => exact h.congr rfl rfl (by simp [hplace])
    | cons msg rest => exact h.congr rfl rfl (by simp [hplace])
  | returned => exact h
  | raised e => exact h

/-- **As long as no more than twenty calls in a row fail, the writer does not give up.** -/
theorem not_tooManyErrors (size : Nat) {bus : Nat → SendResult} (hfew : FewErrors bus)
    {s : SocketCANWriter Msg} (h : (writer size bus).Reachable start s) :
    s.place ≠ .raised tooManyErrors := by
  have hcounts : s.CountsErrors bus := by
    refine h.induction (CountsErrors bus) (countsErrors_start bus) ?_
    intro s act hs
    cases act with
    | put msg =>
      dsimp only [writer]
      unfold SocketCANWriter.putMsg
      split
      · exact hs
      · exact hs.congr rfl rfl (fun _ => Iff.rfl)
    | stop => exact hs.congr rfl rfl (fun _ => Iff.rfl)
    | turn => exact hs.turn size
  intro hraised
  obtain ⟨k, hk, hok⟩ := hfew (s.totalMsg - s.nberr)
  have hmany := hcounts.gaveUp hraised
  have hle := hcounts.le_totalMsg
  refine hok (hcounts.failed ?_ _ (Nat.le_add_right ..) (by omega))
  rw [hraised]
  simp [tooManyErrors, accessClosed]

end SocketCANWriter

end NavigationServer.CanInterface
