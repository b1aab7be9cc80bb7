/-
NavigationServer.RouterCore.AsynchReaderTheorems — when the stream reader ends.

`endsWithNull_iff`: the reader leaves its loop and puts the NULL message as its
last one in exactly the flows in which `recv` raises a read error, no frame
before it raises an exception that the loop does not catch, and `msg_processing`
gives the NULL message for the end of the flow. A socket that is closed gives
empty buffers, on which the loop turns for ever (`after_of_closed`), and a read
error of `msg_processing` ends the loop over its buffer only.
-/
import NavigationServer.RouterCore.AsynchReader
import NavigationServer.RouterCore.Nmea0183Msg

namespace NavigationServer.RouterCore

open NavigationServer.Lib

namespace IPAsynchReader

variable {M : Type*} {proc : MsgProcess M} {flow : Nat → Recv}

/-! ## 1. One turn -/

/-- A frame of the buffer makes `msg_processing` raise what the loop does not
catch. -/
def Raises (proc : MsgProcess M) (s : IPAsynchReader M) : Recv → Prop
  | .buffer content false full =>
      (scanFrames proc full content.length s.reader content).1.isSome = true
  | _ => False

theorem step_of_not_running {s : IPAsynchReader M} (h : s.phase ≠ .running) (recv : Recv) :
    s.step proc recv = s := by
  rw [step, if_neg h]

theorem step_of_running {s : IPAsynchReader M} (h : s.phase = .running) (recv : Recv) :
    s.step proc recv = s.outerTurn proc recv := by
  rw [step, if_pos h]

theorem step_readError {s : IPAsynchReader M} (h : s.phase = .running) :
    s.step proc .readError = s.endOfFlow proc := step_of_running h _

theorem endOfFlow_not_running (proc : MsgProcess M) (s : IPAsynchReader M) :
    (s.endOfFlow proc).phase ≠ .running := by
  rw [endOfFlow]
  split <;> simp

/-- The loop goes on behind everything but a read error of `recv` and an
exception it does not catch. -/
theorem running_step_iff {s : IPAsynchReader M} (h : s.phase = .running) (recv : Recv) :
    (s.step proc recv).phase = .running ↔ recv ≠ .readError ∧ ¬ s.Raises proc recv := by
  rw [step_of_running h]
  cases recv with
  | timeOut => simp [outerTurn, Raises, h]
  | readError => simp [outerTurn, endOfFlow_not_running]
  | buffer content transparent full =>
    cases transparent with
    | true => simp [outerTurn, Raises, h]
    | false =>
      simp only [outerTurn, Bool.false_eq_true, if_false]
      split
      · rename_i hempty
        obtain rfl := List.eq_nil_of_length_eq_zero hempty
        simp [Raises, scanFrames, h]
      · rw [Raises, readBuffer]
        cases hscan : scanFrames proc full content.length s.reader content with
        | mk raised rest =>
          cases raised <;> simp [h]

/-- A turn puts no end of flow, unless `recv` raises a read error. -/
theorem endOfFlow_mem_step {s : IPAsynchReader M} {recv : Recv} (hrecv : recv ≠ .readError)
    {msg : Option M} (h : .endOfFlow msg ∈ (s.step proc recv).outQueue) :
    .endOfFlow msg ∈ s.outQueue := by
  rw [step] at h
  split at h
  · cases recv with
    | timeOut => exact h
    | readError => exact absurd rfl hrecv
    | buffer content transparent full =>
      rw [outerTurn] at h
      split at h
      · simpa using h
      · split at h
        · exact h
        · rw [readBuffer] at h
          simpa using h
  · exact h

/-! ## 2. Flows -/

theorem after_of_not_running {n m : Nat} (h : (after proc flow n).phase ≠ .running) (hm : n ≤ m) :
    after proc flow m = after proc flow n := by
  induction m, hm using Nat.le_induction with
  | base => rfl
  | succ m hm ih => rw [after, ih, step_of_not_running h]

theorem running_after_iff (n : Nat) :
    (after proc flow n).phase = .running ↔
      ∀ k < n, flow k ≠ .readError ∧ ¬ (after proc flow k).Raises proc (flow k) := by
  induction n with
  | zero => simp [after, start]
  | succ n ih =>
    rw [after]
    constructor
    · intro h
      have hrunning : (after proc flow n).phase = .running := by
        by_contra hnot
        rw [step_of_not_running hnot] at h
        exact hnot h
      intro k hk
      rcases Nat.lt_succ_iff_lt_or_eq.mp hk with hk | rfl
      · exact ih.mp hrunning k hk
      · exact (running_step_iff hrunning _).mp h
    · intro h
      have hrunning := ih.mpr fun k hk => h k (Nat.lt_succ_of_lt hk)
      exact (running_step_iff hrunning _).mpr (h n (Nat.lt_succ_self n))

theorem endOfFlow_not_mem {n : Nat} (h : (after proc flow n).phase = .running) (msg : Option M) :
    .endOfFlow msg ∉ (after proc flow n).outQueue := by
  have hflow := (running_after_iff n).mp h
  clear h
  induction n with
  | zero => simp [after, start]
  | succ n ih =>
    intro hmem
    have hbefore := ih fun k hk => hflow k (Nat.lt_succ_of_lt hk)
    exact hbefore (endOfFlow_mem_step (hflow n (Nat.lt_succ_self n)).1 hmem)

/-- The reader that does not run any more has stopped at some turn. -/
theorem exists_last_turn {n : Nat} (h : (after proc flow n).phase ≠ .running) :
    ∃ j, (after proc flow j).phase = .running ∧
      after proc flow n = (after proc flow j).step proc (flow j) := by
  induction n with
  | zero => exact absurd rfl h
  | succ n ih =>
    by_cases hrunning : (after proc flow n).phase = .running
    · exact ⟨n, hrunning, rfl⟩
    · obtain ⟨j, hj, heq⟩ := ih hrunning
      refine ⟨j, hj, ?_⟩
      rw [after, step_of_not_running hrunning, heq]

/-- The loop is left in a turn in which `recv` raises a read error. -/
theorem left_step {s : IPAsynchReader M} (h : s.phase = .running) {recv : Recv}
    (hleft : (s.step proc recv).phase = .left) :
    recv = .readError ∧ ∃ msg, proc s.reader.handed [4] = .ok msg ∧
      (s.step proc recv).outQueue = s.outQueue ++ [.endOfFlow msg] := by
  rw [step_of_running h] at hleft ⊢
  cases recv with
  | timeOut =>
    rw [outerTurn, h] at hleft
    cases hleft
  | readError =>
    rw [outerTurn, endOfFlow] at hleft ⊢
    cases hproc : proc s.reader.handed [4] with
    | ok msg =>
      simp only
      exact ⟨trivial, msg, rfl, rfl⟩
    | error e =>
      rw [hproc] at hleft
      cases hleft
  | buffer content transparent full =>
    rw [outerTurn] at hleft
    split at hleft
    · simp [h] at hleft
    · split at hleft
      · simp [h] at hleft
      · rw [readBuffer] at hleft
        cases hscan : scanFrames proc full content.length s.reader content with
        | mk raised rest =>
          rw [hscan] at hleft
          cases raised <;> simp [h] at hleft

/-! ## 3. The end of the flow -/

/-- From some turn on the loop is left, and the NULL message is the last item on
the queue, once. -/
def EndsWithNull (proc : MsgProcess M) (flow : Nat → Recv) : Prop :=
  ∃ n items, (∀ m, n ≤ m → (after proc flow m).phase = .left ∧
      (after proc flow m).outQueue = items ++ [.endOfFlow none]) ∧
    ∀ msg, .endOfFlow msg ∉ items

/-- The first read error of `recv`, with no exception before that the loop does
not catch, and the NULL message for the end of the flow. -/
def ReadErrorEnds (proc : MsgProcess M) (flow : Nat → Recv) : Prop :=
  ∃ n, flow n = .readError ∧
    (∀ k < n, flow k ≠ .readError ∧ ¬ (after proc flow k).Raises proc (flow k)) ∧
    proc (after proc flow n).reader.handed [4] = .ok none

/-- **The reader ends with the NULL message in exactly the flows that `recv` ends
with a read error.** -/
theorem endsWithNull_iff (proc : MsgProcess M) (flow : Nat → Recv) :
    EndsWithNull proc flow ↔ ReadErrorEnds proc flow := by
  constructor
  · rintro ⟨n, items, hleft, -⟩
    obtain ⟨hphase, hqueue⟩ := hleft n (Nat.le_refl n)
    have hstopped : (after proc flow n).phase ≠ .running := by simp [hphase]
    obtain ⟨j, hrunning, heq⟩ := exists_last_turn hstopped
    rw [heq] at hphase hqueue
    obtain ⟨herror, msg, hproc, hlast⟩ := left_step hrunning hphase
    refine ⟨j, herror, (running_after_iff j).mp hrunning, ?_⟩
    have hmsg : QueueItem.endOfFlow msg = QueueItem.endOfFlow none := by
      have htail := congrArg List.getLast? (hlast.symm.trans hqueue)
      simpa using htail
    cases hmsg
    exact hproc
  · rintro ⟨n, herror, hflow, hproc⟩
    have hrunning := (running_after_iff n).mpr hflow
    have hend : after proc flow (n + 1) =
        { after proc flow n with
          outQueue := (after proc flow n).outQueue ++ [.endOfFlow none], phase := .left } := by
      rw [after, herror, step_readError hrunning, endOfFlow, hproc]
    refine ⟨n + 1, (after proc flow n).outQueue, fun m hm => ?_, endOfFlow_not_mem hrunning⟩
    rw [after_of_not_running (by simp [hend]) hm, hend]
    exact ⟨rfl, rfl⟩

/-- An empty buffer, as a closed socket gives it. -/
def closed : Recv := .buffer [] false fun _ => false

/-- **The loop turns for ever at the end of the file**, from every state. -/
theorem after_of_closed {n : Nat} (h : ∀ m, n ≤ m → flow m = closed) {m : Nat} (hm : n ≤ m) :
    after proc flow m = after proc flow n := by
  induction m, hm using Nat.le_induction with
  | base => rfl
  | succ m hm ih =>
    rw [after, h m hm, ih, step, closed, outerTurn]
    split <;> rfl

/-- A sentence, and then the end of the file. -/
def closedFlow : Nat → Recv
  | 0 => .buffer (ascii "$GPGLL,1*4D\r\n") false fun _ => false
  | _ => closed

/-- The sentence is put, and the NULL message never. -/
theorem not_endsWithNull_closedFlow :
    ¬ EndsWithNull (fun _ frame => processNmea0183Frame frame true) closedFlow ∧
      (after (fun _ frame => processNmea0183Frame frame true) closedFlow 1).outQueue.length = 1 := by
  refine ⟨?_, by decide +kernel⟩
  rintro ⟨n, items, hleft, -⟩
  obtain ⟨hphase, -⟩ := hleft n (Nat.le_refl n)
  have hstopped := hphase.trans_ne (show ThreadPhase.left ≠ .running by simp)
  obtain ⟨j, hrunning, heq⟩ := exists_last_turn hstopped
  rw [heq] at hphase
  have herror := (left_step hrunning hphase).1
  cases j <;> cases herror

end IPAsynchReader

end NavigationServer.RouterCore
