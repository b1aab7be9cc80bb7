/-
NavigationServer.Couplers.IKonvertTheorems — no answer is lost that comes in
time, and no permit is left over.

While the sender is not at the semaphore nothing is awaited, no permit is there
and the reader is between two messages; while it is, the wait goes through the
phases of `Waits`. This holds in every run (`sound_of_reachable`), so a permit
always belongs to the wait that goes on. An answer that is processed before its
sender has assigned the awaited event is taken as unexpected, and lost: the
sender gets every answer in the runs where each comes behind the assignment
(`handshakes_of_inTime`).

There are two invariants. `Sound` holds in every run and is about the semaphore and the
awaited event; `Current` holds in the runs that are in time and is about the answer
itself. Each is kept by every statement of the two threads, so the lemmas follow the
statements.
-/
import NavigationServer.Couplers.IKonvert

namespace NavigationServer.Couplers.IKonvert

open NavigationServer.Lib

/-! ## 1. The phases of a wait -/

/-- What the reader has taken down is the answer to the command that waits. -/
def Taken (op : Operation) (s : State) (answered : Option (Nat × Answer)) : Prop :=
  match answered with
  | none => op ≠ .sendLocCmd true
  | some (_, a) => op = .sendLocCmd true ∧ s.cmdResult = some a

/-- At the semaphore: the event is awaited, the reader is processing it, or its
permit is there. -/
def Waits (op : Operation) (s : State) : Prop :=
  match s.reader with
  | .ready => (s.permits = 0 ∧ s.waitEvent = expected op) ∨
      (s.permits = 1 ∧ s.waitEvent = .none ∧ (op = .sendLocCmd true → s.cmdResult ≠ none))
  | .storing _ _ => s.permits = 0 ∧ op = .sendLocCmd true
  | .clearing answered => s.permits = 0 ∧ Taken op s answered
  | .releasing answered => s.permits = 0 ∧ s.waitEvent = .none ∧ Taken op s answered

/-- Nothing is awaited. -/
def Quiet (s : State) : Prop := s.permits = 0 ∧ s.reader = .ready ∧ s.waitEvent = .none

/-- Permit, awaited event, flags and reader, by where the sender stands. -/
def Sound (s : State) : Prop :=
  match s.sender with
  | .waiting op => Waits op s
  | .reading => Quiet s ∧ s.cmdResult ≠ none
  | .raised _ => False
  | _ => Quiet s

/-- Only a local command that waits for its acknowledgement expects one. -/
theorem expected_eq_ackNak {op : Operation} (h : expected op = .ackNak) : op = .sendLocCmd true := by
  cases op with
  | sendLocCmd waitAck =>
    cases waitAck with
    | true => rfl
    | false => exact absurd h (by decide)
  | waitStatus => exact absurd h (by decide)

theorem expected_ne_ackNak {op : Operation} (h : expected op = .conn ∨ expected op = .msg) :
    op ≠ .sendLocCmd true := by
  rintro rfl
  exact absurd h (by decide)

/-! ## 2. What a step keeps -/

theorem sound_start : Sound .start := ⟨rfl, rfl, rfl⟩

/-- A sender that is at rest begins an operation. -/
theorem Sound.begin {s : State} (h : Sound s) (op : Operation) : Sound (s.begin op) := by
  unfold State.begin
  split
  · exact h
  · rename_i hidle
    rw [not_not] at hidle
    unfold Sound at h
    rw [hidle] at h
    cases op with
    | sendLocCmd waitAck => exact h
    | waitStatus => exact h

/-- One statement of the sender, by where it stands. -/
theorem Sound.senderStep {s : State} (h : Sound s) : Sound s.senderStep := by
  unfold State.senderStep
  unfold Sound at h
  cases hs : s.sender with
  | idle =>
    rw [hs] at h
    unfold Sound
    dsimp only
    rw [hs]
    exact h
  | writing waitAck =>
    rw [hs] at h
    exact h
  | assigning op =>
    rw [hs] at h
    obtain ⟨hpermits, hreader, -⟩ := h
    unfold Sound Waits
    dsimp only
    rw [hreader]
    exact .inl ⟨hpermits, rfl⟩
  | waiting op =>
    rw [hs] at h
    have hwaits : Waits op s := h
    dsimp only
    by_cases hzero : s.permits = 0
    · rw [if_pos hzero]
      unfold Sound
      rw [hs]
      exact h
    · rw [if_neg hzero]
      unfold Waits at hwaits
      split at hwaits
      · rename_i hreader
        rcases hwaits with ⟨hpermits, -⟩ | ⟨hpermits, hevent, hresult⟩
        · exact absurd hpermits hzero
        · by_cases hop : op = .sendLocCmd true
          · rw [if_pos hop]
            exact ⟨⟨by simp [hpermits], hreader, hevent⟩, hresult hop⟩
          · rw [if_neg hop]
            exact ⟨by simp [hpermits], hreader, hevent⟩
      · exact absurd hwaits.1 hzero
      · exact absurd hwaits.1 hzero
      · exact absurd hwaits.1 hzero
  | reading =>
    rw [hs] at h
    dsimp only
    rw [if_neg h.2]
    exact h.1
  | raised e =>
    rw [hs] at h
    exact h.elim

/-- Between two messages, what the sender sees. -/
theorem Sound.ready {s : State} (h : Sound s) (hready : s.reader = .ready) :
    s.waitEvent = .none ∨
      ∃ op, s.sender = .waiting op ∧ s.permits = 0 ∧ s.waitEvent = expected op := by
  unfold Sound at h
  split at h
  · rename_i op hs
    unfold Waits at h
    rw [hready] at h
    rcases h with ⟨hpermits, hevent⟩ | ⟨-, hevent, -⟩
    · exact .inr ⟨op, hs, hpermits, hevent⟩
    · exact .inl hevent
  · exact .inl h.1.2.2
  · exact h.elim
  · exact .inl h.2.2

/-- A change of what the handshake does not look at. -/
theorem Sound.congr {s s' : State} (h : Sound s) (hsender : s'.sender = s.sender)
    (hreader : s'.reader = s.reader) (hpermits : s'.permits = s.permits)
    (hevent : s'.waitEvent = s.waitEvent) (hresult : s'.cmdResult = s.cmdResult) : Sound s' := by
  unfold Sound Waits Quiet Taken at h ⊢
  rw [hsender, hreader, hpermits, hevent, hresult]
  exact h

/-- The reader takes down that the awaited event came. -/
theorem sound_of_waiting {s : State} {op : Operation} (hs : s.sender = .waiting op)
    (h : Waits op s) : Sound s := by
  unfold Sound
  rw [hs]
  exact h

/-- A status message gives a permit when it is what is awaited. -/
theorem Sound.processStatus {s : State} (h : Sound s) (hready : s.reader = .ready) (msg : GatewayMsg) :
    Sound (s.processStatus msg) := by
  unfold State.processStatus
  rcases h.ready hready with hnone | ⟨op, hs, hpermits, hevent⟩
  · split
    · exact h.congr rfl (by simp [hnone, hready]) rfl rfl rfl
    · exact h.congr rfl (by simp [hnone, hready]) rfl rfl rfl
  · split
    · by_cases hmsg : s.waitEvent = .msg
      · have hop := expected_ne_ackNak (.inr (hevent ▸ hmsg))
        refine sound_of_waiting hs ?_
        unfold Waits
        rw [if_pos hmsg]
        exact ⟨hpermits, hop⟩
      · exact h.congr rfl (by simp [hmsg, hready]) rfl rfl rfl
    · by_cases hmsg : s.waitEvent = .conn ∨ s.waitEvent = .msg
      · have hop := expected_ne_ackNak (hevent ▸ hmsg)
        refine sound_of_waiting hs ?_
        unfold Waits
        rw [if_pos hmsg]
        exact ⟨hpermits, hop⟩
      · exact h.congr rfl (by simp [hmsg, hready]) rfl rfl rfl

/-- An acknowledgement gives a permit when one is awaited. -/
theorem Sound.processAcknak {s : State} (h : Sound s) (hready : s.reader = .ready) (command : Nat)
    (a : Answer) : Sound (s.processAcknak command a).2 := by
  unfold State.processAcknak
  split
  · rename_i hack
    rcases h.ready hready with hnone | ⟨op, hs, hpermits, hevent⟩
    · rw [hnone] at hack
      exact absurd hack (by decide)
    · exact sound_of_waiting hs ⟨hpermits, expected_eq_ackNak (hevent ▸ hack)⟩
  · exact h

/-- A message of the gateway, by its kind. -/
theorem Sound.receive {s : State} (h : Sound s) (msg : GatewayMsg) : Sound (s.receive msg).2 := by
  unfold State.receive
  split
  · exact h
  · rename_i hready
    rw [not_not] at hready
    split
    · split
      · exact h.processAcknak hready _ _
      · exact h
    · split
      · exact h.processStatus hready _
      · exact h
    · split
      · exact h.processStatus hready _
      · exact h
    · exact h.processStatus hready _

/-- In a message whose event was awaited, the sender is at the semaphore. -/
theorem Sound.busy {s : State} (h : Sound s) (hbusy : s.reader ≠ .ready) :
    ∃ op, s.sender = .waiting op ∧ Waits op s := by
  unfold Sound at h
  split at h
  · rename_i op hs
    exact ⟨op, hs, h⟩
  · exact absurd h.1.2.1 hbusy
  · exact h.elim
  · exact absurd h.2.1 hbusy

/-- One statement of the reader: the answer is stored, the event cleared, the permit
released. -/
theorem Sound.readerStep {s : State} (h : Sound s) : Sound s.readerStep.2 := by
  unfold State.readerStep
  cases hr : s.reader with
  | ready => exact h
  | storing command a =>
    obtain ⟨op, hs, hwaits⟩ := h.busy (by rw [hr]; simp)
    unfold Waits at hwaits
    rw [hr] at hwaits
    exact sound_of_waiting hs ⟨hwaits.1, hwaits.2, rfl⟩
  | clearing answered =>
    obtain ⟨op, hs, hwaits⟩ := h.busy (by rw [hr]; simp)
    unfold Waits at hwaits
    rw [hr] at hwaits
    exact sound_of_waiting hs ⟨hwaits.1, rfl, hwaits.2⟩
  | releasing answered =>
    obtain ⟨op, hs, hwaits⟩ := h.busy (by rw [hr]; simp)
    unfold Waits at hwaits
    rw [hr] at hwaits
    obtain ⟨hpermits, hevent, htaken⟩ := hwaits
    refine sound_of_waiting hs (.inr ⟨by simp [hpermits], hevent, ?_⟩)
    intro hop
    cases answered with
    | none => exact absurd hop htaken
    | some pair =>
      have hresult : s.cmdResult = some pair.2 := htaken.2
      simp [hresult]

/-- **What a step keeps**, whichever thread takes it. -/
theorem Sound.step {s : State} (h : Sound s) (act : Act) : Sound (handshake.step s act).2 := by
  cases act with
  | begin op => exact h.begin op
  | sender => exact h.senderStep
  | receive msg => exact h.receive msg
  | reader => exact h.readerStep

/-- **Every run**, by induction on its steps. -/
theorem sound_of_reachable {s : State} (h : handshake.Reachable .start s) : Sound s :=
  h.induction Sound sound_start (fun _ act hs => hs.step act)

/-! ## 3. Permits -/

/-- A permit belongs to the wait that goes on, whose event came. -/
def NoStalePermit (s : State) : Prop :=
  0 < s.permits → s.permits = 1 ∧ s.waitEvent = .none ∧ ∃ op, s.sender = .waiting op

/-- A permit at rest would be one of a wait that is over. -/
theorem Sound.noStalePermit {s : State} (h : Sound s) : NoStalePermit s := by
  intro hpos
  unfold Sound at h
  split at h
  · rename_i op hs
    unfold Waits at h
    split at h
    · rcases h with ⟨hzero, -⟩ | ⟨hone, hevent, -⟩
      · exact absurd hzero (Nat.ne_of_gt hpos)
      · exact ⟨hone, hevent, op, hs⟩
    · exact absurd h.1 (Nat.ne_of_gt hpos)
    · exact absurd h.1 (Nat.ne_of_gt hpos)
    · exact absurd h.1 (Nat.ne_of_gt hpos)
  · exact absurd h.1.1 (Nat.ne_of_gt hpos)
  · exact h.elim
  · exact absurd h.1 (Nat.ne_of_gt hpos)

/-! ## 4. Answers -/

/-- The sender of the command goes on with the answer. -/
def Runnable (s : State) (command : Nat) (a : Answer) : Prop :=
  s.sender = .waiting (.sendLocCmd true) ∧ s.commands = command ∧ 0 < s.permits ∧
    s.cmdResult = some a

/-- The sender of the command is at the semaphore and awaits the answer, or has
just been given the same one. -/
def InTime (s : State) (command : Nat) (a : Answer) : Prop :=
  s.sender = .waiting (.sendLocCmd true) ∧ s.commands = command ∧
    (s.waitEvent = .ackNak ∨ 0 < s.permits ∧ s.cmdResult = some a)

/-- The answer in work is one to the last command. -/
def Current (s : State) : Prop :=
  match s.reader with
  | .storing command _ => command = s.commands
  | .clearing (some (command, _)) => command = s.commands
  | .releasing (some (command, _)) => command = s.commands
  | _ => True

/-- Between two messages no answer is in work. -/
theorem current_of_ready {s : State} (h : s.reader = .ready) : Current s := by
  unfold Current
  rw [h]
  trivial

/-- The number of commands changes between two messages only. -/
theorem Current.sender {s s' : State} (h : Current s) (hsound : Sound s)
    (hreader : s'.reader = s.reader)
    (hcommands : s'.commands = s.commands ∨ ∀ op, s.sender ≠ .waiting op) : Current s' := by
  rcases hcommands with hcommands | hsender
  · unfold Current at h ⊢
    rw [hreader, hcommands]
    exact h
  · apply current_of_ready
    rw [hreader]
    by_contra hbusy
    obtain ⟨op, hs, -⟩ := hsound.busy hbusy
    exact hsender op hs

/-- Every answer that begins to be processed comes in time. -/
def Timely (s : State) (act : Act) : Prop :=
  ∀ command a, act = .receive (.answer command a) → s.reader = .ready → 0 < command →
    command ≤ s.commands → InTime s command a

/-- A new operation has written no command yet. -/
theorem Current.begin {s : State} (h : Current s) (hsound : Sound s) (op : Operation) :
    Current (s.begin op) := by
  unfold State.begin
  split
  · exact h
  · cases op with
    | sendLocCmd waitAck => exact h.sender hsound rfl (.inl rfl)
    | waitStatus => exact h.sender hsound rfl (.inl rfl)

/-- A command is written while nothing is awaited, so no answer is in work then. -/
theorem Current.senderStep {s : State} (h : Current s) (hsound : Sound s) :
    Current s.senderStep := by
  unfold State.senderStep
  cases hs : s.sender with
  | idle => exact h
  | writing waitAck =>
    refine h.sender hsound rfl (.inr ?_)
    rw [hs]
    exact fun op heq => absurd heq (by simp)
  | assigning op => exact h.sender hsound rfl (.inl rfl)
  | waiting op =>
    dsimp only
    split
    · exact h
    · exact h.sender hsound rfl (.inl rfl)
  | reading => exact h.sender hsound rfl (.inl rfl)
  | raised e => exact h

/-- A status message ends the reader between two messages or before its clearing. -/
theorem reader_processStatus (s : State) (msg : GatewayMsg) :
    (s.processStatus msg).reader = .ready ∨ (s.processStatus msg).reader = .clearing none := by
  unfold State.processStatus
  split
  · by_cases hmsg : s.waitEvent = .msg
    · exact .inr (if_pos hmsg)
    · exact .inl (if_neg hmsg)
  · by_cases hmsg : s.waitEvent = .conn ∨ s.waitEvent = .msg
    · exact .inr (if_pos hmsg)
    · exact .inl (if_neg hmsg)

/-- So it carries no answer. -/
theorem current_processStatus (s : State) (msg : GatewayMsg) : Current (s.processStatus msg) := by
  rcases reader_processStatus s msg with hready | hclearing
  · exact current_of_ready hready
  · unfold Current
    rw [hclearing]
    trivial

/-- An answer in time is one to the last command. -/
theorem Current.receive {s : State} (h : Current s) (msg : GatewayMsg)
    (htimely : Timely s (.receive msg)) : Current (s.receive msg).2 := by
  unfold State.receive
  split
  · exact h
  · rename_i hready
    rw [not_not] at hready
    split
    · rename_i command a
      split
      · rename_i hwritten
        unfold State.processAcknak
        split
        · exact (htimely command a rfl hready hwritten.1 hwritten.2).2.1.symm
        · exact h
      · exact h
    · split
      · exact current_processStatus s _
      · exact h
    · split
      · exact current_processStatus s _
      · exact h
    · exact current_processStatus s _

theorem Current.readerStep {s : State} (h : Current s) : Current s.readerStep.2 := by
  unfold State.readerStep
  unfold Current at h
  cases hr : s.reader with
  | ready => exact current_of_ready hr
  | storing command a =>
    rw [hr] at h
    exact h
  | clearing answered =>
    rw [hr] at h
    cases answered with
    | none => trivial
    | some pair => exact h
  | releasing answered => exact current_of_ready rfl

/-- **What a step in time keeps**, beside `Sound.step`. -/
theorem Current.step {s : State} (h : Current s) (hsound : Sound s) {act : Act}
    (htimely : Timely s act) : Current (handshake.step s act).2 := by
  cases act with
  | begin op => exact h.begin hsound op
  | sender => exact h.senderStep hsound
  | receive msg => exact h.receive msg htimely
  | reader => exact h.readerStep

/-- An answer that is processed reaches the sender of its command. -/
theorem runnable_of_answered {s : State} (hsound : Sound s) (hcurrent : Current s) {act : Act}
    (htimely : Timely s act) {command : Nat} {a : Answer}
    (h : (handshake.step s act).1 = some (command, a)) :
    Runnable (handshake.step s act).2 command a := by
  cases act with
  | begin op => exact absurd h (by simp [handshake])
  | sender => exact absurd h (by simp [handshake])
  | receive msg =>
    have hreceive : (s.receive msg).1 = some (command, a) := h
    show Runnable (s.receive msg).2 command a
    unfold State.receive at hreceive ⊢
    split at hreceive
    · exact absurd hreceive (by simp)
    · rename_i hready
      rw [if_neg hready]
      rw [not_not] at hready
      split at hreceive
      · rename_i number answer
        split at hreceive
        · rename_i hwritten
          obtain ⟨hsender, hcommands, hevent | ⟨hpermits, hresult⟩⟩ :=
            htimely number answer rfl hready hwritten.1 hwritten.2
          · unfold State.processAcknak at hreceive
            rw [if_pos hevent] at hreceive
            exact absurd hreceive (by simp)
          · have hnone := (hsound.noStalePermit hpermits).2.1
            have hunexpected : s.waitEvent ≠ .ackNak := by
              rw [hnone]
              decide
            unfold State.processAcknak at hreceive ⊢
            rw [if_pos hwritten, if_neg hunexpected]
            rw [if_neg hunexpected] at hreceive
            obtain ⟨rfl, rfl⟩ := Prod.mk.inj (Option.some.inj hreceive)
            exact ⟨hsender, hcommands, hpermits, hresult⟩
        · exact absurd hreceive (by simp)
      · exact absurd hreceive (by simp)
      · exact absurd hreceive (by simp)
      · exact absurd hreceive (by simp)
  | reader =>
    have hstep : s.readerStep.1 = some (command, a) := h
    show Runnable s.readerStep.2 command a
    unfold State.readerStep at hstep ⊢
    cases hr : s.reader with
    | ready =>
      rw [hr] at hstep
      exact absurd hstep (by simp)
    | storing number answer =>
      rw [hr] at hstep
      exact absurd hstep (by simp)
    | clearing answered =>
      rw [hr] at hstep
      exact absurd hstep (by simp)
    | releasing answered =>
      rw [hr] at hstep
      have hanswered : answered = some (command, a) := hstep
      obtain ⟨op, hs, hwaits⟩ := hsound.busy (by rw [hr]; simp)
      unfold Waits at hwaits
      unfold Current at hcurrent
      rw [hr, hanswered] at hwaits hcurrent
      obtain ⟨-, -, hop, hresult⟩ := hwaits
      exact ⟨hs.trans (by rw [hop]), hcurrent.symm, Nat.succ_pos _, hresult⟩

/-- After every step of a run: an answer that was processed reaches the sender of
its command, and no permit is left over. -/
def Handshakes (acts : List Act) : Prop :=
  ∀ mv ∈ handshake.trace .start acts,
    (∀ command a, mv.output = some (command, a) → Runnable mv.post command a) ∧
      NoStalePermit mv.post

/-- **Answers that come behind the assignment of the awaited event reach their
senders.** -/
theorem handshakes_of_inTime {acts : List Act}
    (h : ∀ mv ∈ handshake.trace .start acts, Timely mv.pre mv.input) : Handshakes acts := by
  have hkeep := handshake.trace_invariant (fun s => Sound s ∧ Current s) Timely
    (fun s act hs htimely => ⟨hs.1.step act, hs.2.step hs.1 htimely⟩)
    (s := .start) ⟨sound_start, current_of_ready rfl⟩ acts h
  intro mv hmv
  obtain ⟨hpre, hpost⟩ := hkeep mv hmv
  refine ⟨?_, hpost.1.noStalePermit⟩
  intro command a hanswer
  have hstep := handshake.step_of_mem_trace hmv
  have houtput : (handshake.step mv.pre mv.input).1 = some (command, a) := by
    rw [hstep]
    exact hanswer
  have hrunnable := runnable_of_answered hpre.1 hpre.2 (h mv hmv) houtput
  rw [hstep] at hrunnable
  exact hrunnable

/-- An answer behind the assignment. -/
theorem handshakes_init :
    Handshakes [.begin (.sendLocCmd true), .sender, .sender, .receive (.answer 1 (.ack [])), .reader,
      .reader, .reader, .sender, .sender] := by
  apply handshakes_of_inTime
  simp only [Machine.trace_cons, Machine.trace_nil, List.forall_mem_cons]
  refine ⟨?_, ?_, ?_, ?_, ?_, ?_, ?_, ?_, ?_, fun _ h => absurd h List.not_mem_nil⟩
  all_goals
    intro command a hact hready hpos hle
    cases hact
  exact ⟨rfl, rfl, .inl rfl⟩

/-- An answer between the write and the assignment is lost. -/
theorem not_handshakes_early :
    ¬ Handshakes [.begin (.sendLocCmd true), .sender, .receive (.answer 1 (.ack [])), .sender] := by
  intro h
  unfold Handshakes at h
  simp only [Machine.trace_cons, Machine.trace_nil, List.forall_mem_cons] at h
  have hrunnable := h.2.2.1.1 1 (.ack []) rfl
  exact absurd hrunnable.1 (by decide)

end NavigationServer.Couplers.IKonvert
