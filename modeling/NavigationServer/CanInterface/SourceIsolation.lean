/-
NavigationServer.CanInterface.SourceIsolation — the nodes of the bus do not
disturb each other in the receiver.

All transport layers of the interface share its tables and its queue, and each
keys what it holds by source address. `AgreeFor a` says that two interfaces
hold the same for source `a`, and `isolated_reader` that no frame of another
source changes that, whatever the frame: any PGN, any transport, well formed or
not. So what comes of the frames of one node is decided by these frames alone.
-/
import NavigationServer.CanInterface.SendTheorems
import NavigationServer.Lib.Isolation

namespace NavigationServer.CanInterface

open NavigationServer.Lib
open NavigationServer.Nmea2000
open NavigationServer.Nmea2000Datamodel
open NavigationServer.RouterCore

/-! ## 1. What an interface holds for a source -/

theorem CanMessage.sa_lt (m : CanMessage) : m.sa < 256 := by
  rw [CanMessage.sa, show (0xFF : Nat) = 2 ^ 8 - 1 from rfl, Nat.and_two_pow_sub_one_eq_mod]
  exact Nat.mod_lt _ (by decide)

/-- The messages of a source. -/
def messagesFrom (a : Nat) (queue : List NMEA2000Msg) : List NMEA2000Msg :=
  queue.filter (fun msg => msg.sa = a)

theorem messagesFrom_append (a : Nat) (queue more : List NMEA2000Msg) :
    messagesFrom a (queue ++ more) = messagesFrom a queue ++ messagesFrom a more :=
  List.filter_append ..

theorem messagesFrom_other {a : Nat} {queue : List NMEA2000Msg} (h : ∀ msg ∈ queue, msg.sa ≠ a) :
    messagesFrom a queue = [] :=
  List.filter_eq_nil_iff.mpr (fun msg hmsg => by simpa using h msg hmsg)

/-- The transactions are under the source that announced them. -/
def OwnTransactions (h : IsoTransportHandler) : Prop :=
  ∀ a, ∀ t ∈ h.transactions.lookup a, t.sa = a

/-- Two interfaces that hold the same for source `a`. -/
structure AgreeFor (a : Nat) (s t : SocketCANInterface) : Prop where
  addresses : s.addresses = t.addresses
  sequences : ∀ pgn < 0x20000, ∀ seq < 8,
    s.fpHandler.sequences.lookup (FastPacket.computeKey pgn a seq)
      = t.fpHandler.sequences.lookup (FastPacket.computeKey pgn a seq)
  transaction : s.isoTpHandler.transactions.lookup a = t.isoTpHandler.transactions.lookup a
  messages : messagesFrom a s.queue = messagesFrom a t.queue
  owned : OwnTransactions s.isoTpHandler
  owned' : OwnTransactions t.isoTpHandler

/-! ## 2. The reassembly of a frame -/

/-- The call of `process_frame` for a frame. -/
def CanMessage.received (m : CanMessage) (now : Time) : Received := ⟨now, m.pgn, m.sa, m.data⟩

/-- The key of a frame is one of its source. -/
theorem CanMessage.key_received (m : CanMessage) (now : Time) :
    ∃ seq < 8, (m.received now).key = FastPacket.computeKey m.pgn m.sa seq := by
  rw [Received.key, CanMessage.received]
  cases m.data with
  | nil => exact ⟨0, by omega, rfl⟩
  | cons b rest => exact ⟨_, FastPacketHandler.seqOf_lt b, rfl⟩

/-- What `process_receive_msg` makes of the result of `process_frame`. -/
def caught (out : Except Exn (Option Bytes)) : Except Exn Unit :=
  match out with
  | .ok _ => .ok ()
  | .error (.fastPacket _) => .ok ()
  | .error e => .error e

/-- The messages that a frame puts on the queue. -/
def completed (full : Bool) (m : CanMessage) (out : Except Exn (Option Bytes)) : List NMEA2000Msg :=
  if full then [] else (deliveries [out]).map (.of m.pgn m.prio m.sa m.da)

theorem reassemble_eq (s : SocketCANInterface) (now : Time) (full : Bool) (m : CanMessage) :
    s.reassemble now full m.pgn m.prio m.sa m.da m.data
      = (caught (s.fpHandler.receive (m.received now)).1,
        { s with
          fpHandler := (s.fpHandler.receive (m.received now)).2
          queue := s.queue ++ completed full m (s.fpHandler.receive (m.received now)).1 }) := by
  rw [SocketCANInterface.reassemble, FastPacketHandler.receive]
  simp only [CanMessage.received]
  obtain ⟨out, fp⟩ := s.fpHandler.processFrame now m.pgn m.sa m.data
  cases out with
  | ok out =>
    cases out with
    | none => cases full <;> simp [caught, completed]
    | some data => cases full <;> simp [caught, completed, SocketCANInterface.putMessage]
  | error e => cases e <;> cases full <;> simp [caught, completed]

theorem completed_sa {full : Bool} {m : CanMessage} {out : Except Exn (Option Bytes)} :
    ∀ msg ∈ completed full m out, msg.sa = m.sa := by
  intro msg hmsg
  unfold completed at hmsg
  split at hmsg
  · exact absurd hmsg List.not_mem_nil
  · obtain ⟨data, -, rfl⟩ := List.mem_map.mp hmsg
    rfl

/-- The frames of a source that are given to the reassembly of two interfaces. -/
theorem AgreeFor.reassemble {a : Nat} {s t : SocketCANInterface} (h : AgreeFor a s t) {m : CanMessage}
    (hsa : m.sa = a) (now : Time) (full : Bool) :
    (s.reassemble now full m.pgn m.prio m.sa m.da m.data).1
        = (t.reassemble now full m.pgn m.prio m.sa m.da m.data).1 ∧
      AgreeFor a (s.reassemble now full m.pgn m.prio m.sa m.da m.data).2
        (t.reassemble now full m.pgn m.prio m.sa m.da m.data).2 := by
  obtain ⟨seq, hseq, hkey⟩ := m.key_received now
  have hslot : s.fpHandler.sequences.lookup (m.received now).key
      = t.fpHandler.sequences.lookup (m.received now).key := by
    rw [hkey, hsa]
    exact h.sequences _ m.pgn_lt seq hseq
  have hout : (s.fpHandler.receive (m.received now)).1 = (t.fpHandler.receive (m.received now)).1 := by
    rw [FastPacketHandler.receive_fst, FastPacketHandler.receive_fst, hslot]
  rw [reassemble_eq, reassemble_eq, hout]
  refine ⟨rfl, h.addresses, fun pgn hpgn seq' hseq' => ?_, h.transaction, ?_, h.owned, h.owned'⟩
  · simp only
    by_cases hk : FastPacket.computeKey pgn a seq' = (m.received now).key
    · rw [hk, FastPacketHandler.lookup_receive, FastPacketHandler.lookup_receive, hslot]
    · rw [FastPacketHandler.lookup_receive_ne _ _ hk, FastPacketHandler.lookup_receive_ne _ _ hk]
      exact h.sequences pgn hpgn seq' hseq'
  · simp only
    rw [messagesFrom_append, messagesFrom_append, h.messages]

/-- The frames of another source. -/
theorem AgreeFor.reassemble_other {a : Nat} {s t : SocketCANInterface} (h : AgreeFor a s t)
    {m : CanMessage} (ha : a < 256) (hsa : m.sa ≠ a) (now : Time) (full : Bool) :
    AgreeFor a (s.reassemble now full m.pgn m.prio m.sa m.da m.data).2 t := by
  obtain ⟨seq, hseq, hkey⟩ := m.key_received now
  rw [reassemble_eq]
  refine ⟨h.addresses, fun pgn hpgn seq' hseq' => ?_, h.transaction, ?_, h.owned, h.owned'⟩
  · have hne : FastPacket.computeKey pgn a seq' ≠ (m.received now).key := by
      intro heq
      rw [hkey] at heq
      have hlow := m.pgn_lt
      exact hsa (FastPacket.computeKey_inj (by omega) (by omega) ha m.sa_lt heq).2.1.symm
    simp only
    rw [FastPacketHandler.lookup_receive_ne _ _ hne]
    exact h.sequences pgn hpgn seq' hseq'
  · simp only
    have hnone : messagesFrom a (completed full m (s.fpHandler.receive (m.received now)).1) = [] :=
      messagesFrom_other (fun msg hmsg => by rw [completed_sa msg hmsg]; exact hsa)
    rw [messagesFrom_append, hnone, List.append_nil, h.messages]

/-! ## 3. ISO transport -/

theorem incomingBamTransaction_sa {t t' : IsoTransportTransaction} {sa prio : Nat} {frame : Bytes}
    (h : t.incomingBamTransaction sa prio frame = .ok t') : t'.sa = sa := by
  unfold IsoTransportTransaction.incomingBamTransaction at h
  cases frame with
  | nil => simp at h
  | cons b rest =>
    simp only at h
    split at h
    · simp at h
    · split at h
      · simp at h
      · obtain rfl := Except.ok.inj h
        rfl

/-- A packet does not change the source, and a message is of that source. -/
theorem incomingPacket_sa (t : IsoTransportTransaction) (frame : Bytes) :
    (t.incomingPacket frame).2.sa = t.sa ∧
      ∀ msg, (t.incomingPacket frame).1 = .ok (some msg) → msg.sa = t.sa := by
  unfold IsoTransportTransaction.incomingPacket
  split
  · exact ⟨rfl, fun msg h => by simp at h⟩
  · cases frame with
    | nil => exact ⟨rfl, fun msg h => by simp at h⟩
    | cons seqNum rest =>
      simp only
      split
      · refine ⟨rfl, fun msg h => ?_⟩
        obtain rfl := Option.some.inj (Except.ok.inj h)
        rfl
      · exact ⟨rfl, fun msg h => by simp at h⟩

/-- What an event leaves is owned, and what it delivers is of its source. -/
theorem owned_receive {h : IsoTransportHandler} (howned : OwnTransactions h) (e : IsoEvent) :
    OwnTransactions (h.receive e).2 ∧
      ∀ msg, (h.receive e).1 = .ok (some msg) → msg.sa = e.sa := by
  obtain ⟨hout, hslot, hother⟩ := receive_spec h e
  have hown : (∀ t ∈ (isoSlotStep (h.transactions.lookup e.sa) e).2, t.sa = e.sa) ∧
      ∀ msg, (isoSlotStep (h.transactions.lookup e.sa) e).1 = .ok (some msg) → msg.sa = e.sa := by
    have hbefore := howned e.sa
    cases e with
    | announce sa prio frame =>
      simp only [isoSlotStep, IsoEvent.sa] at hbefore ⊢
      cases hbam : IsoTransportTransaction.new.incomingBamTransaction sa prio frame with
      | error err => cases err <;> exact ⟨hbefore, fun msg hmsg => by simp at hmsg⟩
      | ok t =>
        refine ⟨fun t' ht' => ?_, fun msg hmsg => by simp at hmsg⟩
        obtain rfl := Option.some.inj ht'
        exact incomingBamTransaction_sa hbam
    | packet sa frame =>
      simp only [isoSlotStep, IsoEvent.sa] at hbefore ⊢
      cases hlook : h.transactions.lookup sa with
      | none => exact ⟨fun t ht => by simp at ht, fun msg hmsg => by simp at hmsg⟩
      | some t =>
        have hsa : t.sa = sa := hbefore t hlook
        obtain ⟨hkeep, hmsg⟩ := incomingPacket_sa t frame
        simp only
        generalize t.incomingPacket frame = r at hkeep hmsg
        obtain ⟨out, t'⟩ := r
        have hkept : ∀ t'' ∈ some t', t''.sa = sa := by
          intro t'' ht''
          obtain rfl := Option.some.inj ht''
          exact hkeep.trans hsa
        cases out with
        | error err =>
          cases err <;> first
            | exact ⟨hkept, fun msg hm => by simp at hm⟩
            | exact ⟨fun t ht => by simp at ht, fun msg hm => by simp at hm⟩
        | ok out =>
          cases out with
          | none => exact ⟨hkept, fun msg hm => by simp at hm⟩
          | some msg =>
            refine ⟨fun t ht => by simp at ht, fun msg' hm => ?_⟩
            obtain rfl := Option.some.inj (Except.ok.inj hm)
            exact (hmsg msg rfl).trans hsa
  refine ⟨fun a t ht => ?_, fun msg hmsg => hown.2 msg (hout ▸ hmsg)⟩
  by_cases ha : a = e.sa
  · subst ha
    rw [hslot] at ht
    exact hown.1 t ht
  · rw [hother a ha] at ht
    exact howned a t ht

/-- The event that a frame of a transport PGN is for the handler. -/
def isoEvent (m : CanMessage) : IsoEvent :=
  if m.pgn = 60416 then .announce m.sa m.prio m.data else .packet m.sa m.data

theorem isoEvent_sa (m : CanMessage) : (isoEvent m).sa = m.sa := by
  unfold isoEvent
  split <;> rfl

/-- What `process_receive_msg` makes of the answer of the handler. -/
def isoCaught (out : Except Exn (Option NMEA2000Msg)) : Except Exn Unit :=
  match out with
  | .ok _ => .ok ()
  | .error (.isoTransport _) => .ok ()
  | .error e => .error e

/-- The message that the handler answers with. -/
def isoCompleted (full : Bool) (out : Except Exn (Option NMEA2000Msg)) : List NMEA2000Msg :=
  match out with
  | .ok (some msg) => if full then [] else [msg]
  | _ => []

theorem processAccepted_iso (defs : PGNDefinitions) (s : SocketCANInterface) (now : Time)
    (full : Bool) {m : CanMessage} (h : m.pgn = 60416 ∨ m.pgn = 60160) :
    processAccepted defs s now full m
      = (isoCaught (s.isoTpHandler.receive (isoEvent m)).1,
        { s with
          isoTpHandler := (s.isoTpHandler.receive (isoEvent m)).2
          queue := s.queue ++ isoCompleted full (s.isoTpHandler.receive (isoEvent m)).1 }) := by
  rw [processAccepted]
  by_cases h1 : m.pgn = 60416
  · rw [if_pos h1, isoEvent, if_pos h1]
    simp only [IsoTransportHandler.receive, IsoTransportHandler.newTransaction]
    cases IsoTransportTransaction.new.incomingBamTransaction m.sa m.prio m.data with
    | error e => cases e <;> simp [isoCaught, isoCompleted, Except.map]
    | ok t => simp [isoCaught, isoCompleted, Except.map]
  · rw [if_neg h1, if_pos (h.resolve_left h1), isoEvent, if_neg h1]
    simp only [IsoTransportHandler.receive]
    obtain ⟨out, iso⟩ := s.isoTpHandler.incomingPacket m.sa m.data
    cases out with
    | error e => cases e <;> simp [isoCaught, isoCompleted]
    | ok out =>
      cases out with
      | none => simp [isoCaught, isoCompleted]
      | some msg => cases full <;> simp [isoCaught, isoCompleted, SocketCANInterface.putMessage]

/-- The transport frames of a source, given to two interfaces. -/
theorem AgreeFor.iso {a : Nat} {s t : SocketCANInterface} (h : AgreeFor a s t) {m : CanMessage}
    (hsa : m.sa = a) (defs : PGNDefinitions) (now : Time) (full : Bool)
    (hiso : m.pgn = 60416 ∨ m.pgn = 60160) :
    (processAccepted defs s now full m).1 = (processAccepted defs t now full m).1 ∧
      AgreeFor a (processAccepted defs s now full m).2 (processAccepted defs t now full m).2 := by
  have hkey : (isoEvent m).sa = a := (isoEvent_sa m).trans hsa
  obtain ⟨hout, hslot, -⟩ := receive_spec s.isoTpHandler (isoEvent m)
  obtain ⟨hout', hslot', -⟩ := receive_spec t.isoTpHandler (isoEvent m)
  rw [hkey] at hout hslot hout' hslot'
  rw [h.transaction] at hout hslot
  have hsame := hout.trans hout'.symm
  rw [processAccepted_iso defs s now full hiso, processAccepted_iso defs t now full hiso, hsame]
  refine ⟨rfl, h.addresses, h.sequences, hslot.trans hslot'.symm, ?_, (owned_receive h.owned _).1,
    (owned_receive h.owned' _).1⟩
  simp only
  rw [messagesFrom_append, messagesFrom_append, h.messages]

/-- The transport frames of another source. -/
theorem AgreeFor.iso_other {a : Nat} {s t : SocketCANInterface} (h : AgreeFor a s t) {m : CanMessage}
    (hsa : m.sa ≠ a) (defs : PGNDefinitions) (now : Time) (full : Bool)
    (hiso : m.pgn = 60416 ∨ m.pgn = 60160) : AgreeFor a (processAccepted defs s now full m).2 t := by
  have hkey : a ≠ (isoEvent m).sa := fun heq => hsa ((isoEvent_sa m).symm.trans heq.symm)
  obtain ⟨-, -, hother⟩ := receive_spec s.isoTpHandler (isoEvent m)
  obtain ⟨howned, hmsg⟩ := owned_receive h.owned (isoEvent m)
  rw [processAccepted_iso defs s now full hiso]
  refine ⟨h.addresses, h.sequences, (hother a hkey).trans h.transaction, ?_, howned, h.owned'⟩
  have hnone : messagesFrom a (isoCompleted full (s.isoTpHandler.receive (isoEvent m)).1) = [] := by
    refine messagesFrom_other (fun msg hin => ?_)
    unfold isoCompleted at hin
    split at hin
    · rename_i msg' hout
      split at hin
      · exact absurd hin List.not_mem_nil
      · obtain rfl := List.mem_singleton.mp hin
        rw [hmsg msg hout]
        exact hkey.symm
    · exact absurd hin List.not_mem_nil
  simp only
  rw [messagesFrom_append, hnone, List.append_nil, h.messages]

/-! ## 4. Any frame -/

/-- A frame that is not for a transport PGN: it goes to the reassembly, or is a
message, or stops the reader, as its key and its PGN tell. -/
theorem processAccepted_plain (defs : PGNDefinitions) (s : SocketCANInterface) (now : Time)
    (full : Bool) {m : CanMessage} (h : ¬ (m.pgn = 60416 ∨ m.pgn = 60160)) :
    processAccepted defs s now full m
      = match s.fpHandler.isPgnActive m.pgn m.sa m.data with
        | .error e => (.error e, s)
        | .ok active =>
            match (if active then .ok true else fastPacketCheck defs m.pgn) with
            | .error e => (.error e, s)
            | .ok true => s.reassemble now full m.pgn m.prio m.sa m.da m.data
            | .ok false => (.ok (), s.putMessage full (.of m.pgn m.prio m.sa m.da m.data)) := by
  rw [processAccepted, if_neg (fun h1 => h (.inl h1)), if_neg (fun h2 => h (.inr h2))]
  cases hdata : m.data with
  | nil => rfl
  | cons b rest =>
    rw [FastPacketHandler.isPgnActive]
    cases (s.fpHandler.sequences.lookup
        (FastPacket.computeKey m.pgn m.sa (FastPacketHandler.seqOf b))).isSome with
    | false =>
      cases fastPacketCheck defs m.pgn with
      | error e => rfl
      | ok fast => cases fast <;> rfl
    | true => rfl

theorem AgreeFor.isPgnActive {a : Nat} {s t : SocketCANInterface} (h : AgreeFor a s t)
    {m : CanMessage} (hsa : m.sa = a) :
    s.fpHandler.isPgnActive m.pgn m.sa m.data = t.fpHandler.isPgnActive m.pgn m.sa m.data := by
  cases m.data with
  | nil => rfl
  | cons b rest =>
    rw [FastPacketHandler.isPgnActive, FastPacketHandler.isPgnActive, hsa,
      h.sequences _ m.pgn_lt _ (FastPacketHandler.seqOf_lt b)]

theorem AgreeFor.putMessage {a : Nat} {s t : SocketCANInterface} (h : AgreeFor a s t) (full : Bool)
    (msg : NMEA2000Msg) : AgreeFor a (s.putMessage full msg) (t.putMessage full msg) := by
  cases full with
  | true => exact h
  | false =>
    refine ⟨h.addresses, h.sequences, h.transaction, ?_, h.owned, h.owned'⟩
    simp only [SocketCANInterface.putMessage, Bool.false_eq_true, if_false]
    rw [messagesFrom_append, messagesFrom_append, h.messages]

theorem AgreeFor.putMessage_other {a : Nat} {s t : SocketCANInterface} (h : AgreeFor a s t)
    (full : Bool) {msg : NMEA2000Msg} (hsa : msg.sa ≠ a) : AgreeFor a (s.putMessage full msg) t := by
  cases full with
  | true => exact h
  | false =>
    refine ⟨h.addresses, h.sequences, h.transaction, ?_, h.owned, h.owned'⟩
    simp only [SocketCANInterface.putMessage, Bool.false_eq_true, if_false]
    have hnone : messagesFrom a [msg] = [] := messagesFrom_other (by simpa using hsa)
    rw [messagesFrom_append, hnone, List.append_nil, h.messages]

theorem AgreeFor.counted {a : Nat} {s t : SocketCANInterface} (h : AgreeFor a s t) :
    AgreeFor a (counted s) (counted t) :=
  ⟨h.addresses, h.sequences, h.transaction, h.messages, h.owned, h.owned'⟩

theorem AgreeFor.counted_left {a : Nat} {s t : SocketCANInterface} (h : AgreeFor a s t) :
    AgreeFor a (CanInterface.counted s) t :=
  ⟨h.addresses, h.sequences, h.transaction, h.messages, h.owned, h.owned'⟩

/-- A frame of the source, given to two interfaces. -/
theorem AgreeFor.process {a : Nat} {s t : SocketCANInterface} (h : AgreeFor a s t) {m : CanMessage}
    (hsa : m.sa = a) (defs : PGNDefinitions) (now : Time) (full : Bool) :
    (s.processReceiveMsg defs now full m).1 = (t.processReceiveMsg defs now full m).1 ∧
      AgreeFor a (s.processReceiveMsg defs now full m).2 (t.processReceiveMsg defs now full m).2 := by
  by_cases hda : m.da ∈ s.addresses
  · rw [processReceiveMsg_accepted defs now full hda,
      processReceiveMsg_accepted defs now full (h.addresses ▸ hda)]
    by_cases hiso : m.pgn = 60416 ∨ m.pgn = 60160
    · exact h.counted.iso hsa defs now full hiso
    · rw [processAccepted_plain defs _ now full hiso, processAccepted_plain defs _ now full hiso,
        h.counted.isPgnActive hsa]
      cases (CanInterface.counted t).fpHandler.isPgnActive m.pgn m.sa m.data with
      | error e => exact ⟨rfl, h.counted⟩
      | ok active =>
        simp only
        cases (if active then .ok true else fastPacketCheck defs m.pgn) with
        | error e => exact ⟨rfl, h.counted⟩
        | ok fast =>
          cases fast with
          | true => exact h.counted.reassemble hsa now full
          | false => exact ⟨rfl, h.counted.putMessage full _⟩
  · rw [processReceiveMsg_ignored defs now full hda,
      processReceiveMsg_ignored defs now full (h.addresses ▸ hda)]
    exact ⟨rfl, h⟩

/-- A frame of another source. -/
theorem AgreeFor.process_other {a : Nat} {s t : SocketCANInterface} (h : AgreeFor a s t)
    {m : CanMessage} (ha : a < 256) (hsa : m.sa ≠ a) (defs : PGNDefinitions) (now : Time)
    (full : Bool) : AgreeFor a (s.processReceiveMsg defs now full m).2 t := by
  by_cases hda : m.da ∈ s.addresses
  · rw [processReceiveMsg_accepted defs now full hda]
    by_cases hiso : m.pgn = 60416 ∨ m.pgn = 60160
    · exact h.counted_left.iso_other hsa defs now full hiso
    · rw [processAccepted_plain defs _ now full hiso]
      cases (CanInterface.counted s).fpHandler.isPgnActive m.pgn m.sa m.data with
      | error e => exact h.counted_left
      | ok active =>
        simp only
        cases (if active then .ok true else fastPacketCheck defs m.pgn) with
        | error e => exact h.counted_left
        | ok fast =>
          cases fast with
          | true => exact h.counted_left.reassemble_other ha hsa now full
          | false => exact h.counted_left.putMessage_other full hsa
  · rw [processReceiveMsg_ignored defs now full hda]
    exact h

/-- The frames of a source in the reader. -/
theorem isolated_reader (defs : PGNDefinitions) {a : Nat} (ha : a < 256) :
    Isolated (reader defs) (AgreeFor a) (fun i => decide (i.msg.sa = a)) where
  outside h hi := h.process_other ha (by simpa using hi) defs _ _
  output h hi := (h.process (by simpa using hi) defs _ _).1
  inside h hi := (h.process (by simpa using hi) defs _ _).2

/-! ## 5. The queue only grows -/

/-- A frame puts messages of its source behind those on the queue. -/
theorem process_adds {s : SocketCANInterface} (howned : OwnTransactions s.isoTpHandler)
    (defs : PGNDefinitions) (now : Time) (full : Bool) (m : CanMessage) :
    ∃ added, (s.processReceiveMsg defs now full m).2.queue = s.queue ++ added ∧
      ∀ msg ∈ added, msg.sa = m.sa := by
  have hnothing : ∃ added, s.queue = s.queue ++ added ∧ ∀ msg ∈ added, msg.sa = m.sa :=
    ⟨[], (List.append_nil _).symm, by simp⟩
  by_cases hda : m.da ∈ s.addresses
  · rw [processReceiveMsg_accepted defs now full hda]
    by_cases hiso : m.pgn = 60416 ∨ m.pgn = 60160
    · rw [processAccepted_iso defs _ now full hiso]
      refine ⟨_, rfl, fun msg hmsg => ?_⟩
      have hanswer := (owned_receive howned (isoEvent m)).2
      unfold isoCompleted at hmsg
      split at hmsg
      · rename_i msg' hout
        split at hmsg
        · exact absurd hmsg List.not_mem_nil
        · obtain rfl := List.mem_singleton.mp hmsg
          exact (hanswer msg hout).trans (isoEvent_sa m)
      · exact absurd hmsg List.not_mem_nil
    · rw [processAccepted_plain defs _ now full hiso]
      cases (counted s).fpHandler.isPgnActive m.pgn m.sa m.data with
      | error e => exact hnothing
      | ok active =>
        simp only
        cases (if active then .ok true else fastPacketCheck defs m.pgn) with
        | error e => exact hnothing
        | ok fast =>
          cases fast with
          | true =>
            simp only
            rw [reassemble_eq]
            exact ⟨_, rfl, completed_sa⟩
          | false =>
            cases full with
            | true => exact hnothing
            | false => exact ⟨[.of m.pgn m.prio m.sa m.da m.data], rfl, by simp [NMEA2000Msg.of]⟩
  · rw [processReceiveMsg_ignored defs now full hda]
    exact hnothing

theorem owned_process {s : SocketCANInterface} (howned : OwnTransactions s.isoTpHandler)
    (defs : PGNDefinitions) (now : Time) (full : Bool) (m : CanMessage) :
    OwnTransactions (s.processReceiveMsg defs now full m).2.isoTpHandler :=
  ((AgreeFor.mk rfl (fun _ _ _ _ => rfl) rfl rfl howned howned : AgreeFor m.sa s s).process rfl
    defs now full).2.owned

/-- The messages on the queue of a run, and where they come from. -/
theorem final_adds (defs : PGNDefinitions) (inputs : List CanInput) :
    ∀ {s : SocketCANInterface}, OwnTransactions s.isoTpHandler →
      ∃ added, ((reader defs).final s inputs).queue = s.queue ++ added ∧
        ∀ msg ∈ added, ∃ i ∈ inputs, msg.sa = i.msg.sa := by
  induction inputs with
  | nil => exact fun _ => ⟨[], (List.append_nil _).symm, by simp⟩
  | cons i inputs ih =>
    intro s howned
    obtain ⟨first, hfirst, hsa⟩ := process_adds howned defs i.now i.full i.msg
    obtain ⟨rest, hrest, hsources⟩ := ih (owned_process howned defs i.now i.full i.msg)
    refine ⟨first ++ rest, ?_, fun msg hmsg => ?_⟩
    · rw [Machine.final_cons, ← List.append_assoc, ← hfirst]
      exact hrest
    · rcases List.mem_append.mp hmsg with hmsg | hmsg
      · exact ⟨i, List.mem_cons_self, hsa msg hmsg⟩
      · obtain ⟨j, hj, hjsa⟩ := hsources msg hmsg
        exact ⟨j, List.mem_cons_of_mem _ hj, hjsa⟩

/-! ## 6. Runs -/

/-- A reader that has just been started. -/
def listening (addresses : List Nat) : SocketCANInterface :=
  { SocketCANInterface.new with addresses }

theorem owned_listening (addresses : List Nat) :
    OwnTransactions (listening addresses).isoTpHandler := by
  intro a t ht
  simp [listening, SocketCANInterface.new, IsoTransportHandler.new] at ht

/-- The frames of a source among those that are received. -/
def inputsFrom (a : Nat) (inputs : List CanInput) : List CanInput :=
  inputs.filter (fun i => decide (i.msg.sa = a))

/-- What the reader returns for the frames of a source. -/
def resultsFrom (a : Nat) (inputs : List CanInput) (results : List (Except Exn Unit)) :
    List (Except Exn Unit) :=
  ((inputs.zip results).filter (fun x => decide (x.1.msg.sa = a))).map Prod.snd

theorem agreeFor_final (defs : PGNDefinitions) {a : Nat} (ha : a < 256) {s : SocketCANInterface}
    (howned : OwnTransactions s.isoTpHandler) (inputs : List CanInput) :
    AgreeFor a ((reader defs).final s inputs) ((reader defs).final s (inputsFrom a inputs)) :=
  (isolated_reader defs ha).final ⟨rfl, fun _ _ _ _ => rfl, rfl, rfl, howned, howned⟩ inputs

/-- On the frames of one source, every message is of that source. -/
theorem messagesFrom_final (defs : PGNDefinitions) (a : Nat) (addresses : List Nat)
    (inputs : List CanInput) :
    messagesFrom a ((reader defs).final (listening addresses) (inputsFrom a inputs)).queue
      = ((reader defs).final (listening addresses) (inputsFrom a inputs)).queue := by
  obtain ⟨added, hqueue, hsources⟩ :=
    final_adds defs (inputsFrom a inputs) (owned_listening addresses)
  rw [hqueue]
  refine List.filter_eq_self.mpr (fun msg hmsg => ?_)
  obtain ⟨i, hi, hsa⟩ := hsources msg (by simpa [listening, SocketCANInterface.new] using hmsg)
  rw [hsa]
  exact (List.mem_filter.mp hi).2

/-- What the reader makes of the frames of a source is what it makes of them
alone: the messages on the queue, the sequences and the transaction that are
open, and the calls that raise. -/
structure IsolatesSource (defs : PGNDefinitions) (addresses : List Nat) (inputs : List CanInput)
    (a : Nat) : Prop where
  messages : messagesFrom a ((reader defs).final (listening addresses) inputs).queue
    = ((reader defs).final (listening addresses) (inputsFrom a inputs)).queue
  sequences : ∀ pgn < 0x20000, ∀ seq < 8,
    ((reader defs).final (listening addresses) inputs).fpHandler.sequences.lookup
        (FastPacket.computeKey pgn a seq)
      = ((reader defs).final (listening addresses)
          (inputsFrom a inputs)).fpHandler.sequences.lookup (FastPacket.computeKey pgn a seq)
  transaction :
    ((reader defs).final (listening addresses) inputs).isoTpHandler.transactions.lookup a
      = ((reader defs).final (listening addresses)
          (inputsFrom a inputs)).isoTpHandler.transactions.lookup a
  results : resultsFrom a inputs ((reader defs).outs (listening addresses) inputs)
    = (reader defs).outs (listening addresses) (inputsFrom a inputs)

/-- **No node disturbs another.** Whatever frames come in, of any PGN and any
transport, malformed or not. -/
theorem reader_isolates (defs : PGNDefinitions) (addresses : List Nat) (inputs : List CanInput)
    {a : Nat} (ha : a < 256) : IsolatesSource defs addresses inputs a := by
  have howned := owned_listening addresses
  have hagree := agreeFor_final defs ha howned inputs
  exact ⟨hagree.messages.trans (messagesFrom_final defs a addresses inputs), hagree.sequences,
    hagree.transaction, (isolated_reader defs ha).outputs
      ⟨rfl, fun _ _ _ _ => rfl, rfl, rfl, howned, howned⟩ inputs⟩

/-- Node 3 sends two frames; node 5 opens a sequence of the same PGN between
them, and sends a frame that stops the reader. -/
theorem reader_isolates_two :
    IsolatesSource PGNDefinitions.empty [255]
      [⟨0, false, ⟨0x09FF0403, [32, 13, 1, 2, 3, 4, 5, 6]⟩⟩,
        ⟨1, false, ⟨0x09FF0405, [32, 13, 8, 8, 8, 8, 8, 8]⟩⟩,
        ⟨2, false, ⟨0x09FF0405, []⟩⟩,
        ⟨3, false, ⟨0x09FF0403, [33, 7, 8, 9, 10, 11, 12, 13]⟩⟩] 3 :=
  reader_isolates PGNDefinitions.empty [255] _ (by decide)

end NavigationServer.CanInterface
