/-
NavigationServer.CanInterface.InterfaceTheorems — which frames the reader
survives.

`processReceiveMsg_returns_iff` says for one frame, in any state, whether
`process_receive_msg` returns, and `reader_returns_iff` for a run. What stops the
reader is a control frame of the ISO transport that is not of eight bytes, a
frame without data, a frame 0 of one byte, and a PGN of the mixed range that
has no definition.
-/
import NavigationServer.CanInterface.Interface
import NavigationServer.Nmea2000.Transfer
import NavigationServer.Nmea2000Datamodel.PgnDefinitionTheorems

namespace NavigationServer.CanInterface

open NavigationServer.Lib
open NavigationServer.Nmea2000
open NavigationServer.Nmea2000Datamodel
open NavigationServer.RouterCore
open FastPacketHandler (counterOf seqOf)

/-! ## 1. The parts of an identifier -/

namespace CanMessage

/-- The PGN field of the identifier, on 17 bits. -/
def rawPgn (m : CanMessage) : Nat := (m.arbitrationId >>> 8) &&& 0x1FFFF

def pgn (m : CanMessage) : Nat := (pgnPdu1Adjust m.rawPgn).1

def da (m : CanMessage) : Nat := (pgnPdu1Adjust m.rawPgn).2

def sa (m : CanMessage) : Nat := m.arbitrationId &&& 0xFF

def prio (m : CanMessage) : Nat := (m.arbitrationId >>> 26) &&& 0x7

theorem rawPgn_lt (m : CanMessage) : m.rawPgn < 0x20000 := by
  rw [rawPgn, show (0x1FFFF : Nat) = 2 ^ 17 - 1 from rfl, Nat.and_two_pow_sub_one_eq_mod]
  exact Nat.mod_lt _ (by decide)

theorem pgn_lt (m : CanMessage) : m.pgn < 0x20000 := pgnPdu1Adjust_lt m.rawPgn_lt

end CanMessage

/-! ## 2. One frame -/

/-- An exception that is not one of the fast packet layer. -/
def Raises {α : Type*} (r : Except Exn α) : Prop := ∃ e, r = .error e ∧ e.isFastPacket = false

theorem not_raises_totalFrame (p : FastPacket) : ¬ Raises (p.totalFrame.map some) := by
  by_cases h : ∀ i < p.nbFrames, p.frames.lookup i ≠ none
  · obtain ⟨buf, hbuf⟩ := (FastPacket.totalFrame_isOk_iff p).mpr h
    rw [hbuf]
    rintro ⟨e, he, -⟩
    simp [Except.map] at he
  · obtain ⟨i, hi, hnone⟩ : ∃ i < p.nbFrames, p.frames.lookup i = none := by simpa using h
    obtain ⟨text, ht⟩ := FastPacket.totalFrame_missing hi hnone
    rw [ht]
    rintro ⟨e, he, hfp⟩
    obtain rfl : Exn.fastPacket text = e := Except.error.inj he
    simp [Exn.isFastPacket] at hfp

/-- The reassembly raises something else for a frame 0 of one byte only. -/
theorem raises_feedSlot_iff (p : FastPacket) (b : UInt8) (data : Bytes) :
    Raises (feedSlot (counterOf b) p (b :: data)).1 ↔ counterOf b = 0 ∧ data = [] := by
  rw [feedSlot]
  by_cases hc : counterOf b = 0
  · cases data with
    | nil =>
      rw [hc, FastPacket.takeFrame_zero_short]
      exact iff_of_true ⟨_, rfl, rfl⟩ ⟨rfl, rfl⟩
    | cons len rest =>
      rw [hc, FastPacket.takeFrame_zero]
      refine iff_of_false ?_ (by simp)
      simp only
      split_ifs
      · exact not_raises_totalFrame _
      · rintro ⟨e, he, -⟩
        simp at he
  · refine iff_of_false ?_ (fun h => hc h.1)
    cases htake : p.takeFrame (counterOf b) (b :: data) with
    | error e =>
      simp only [FastPacket.takeFrame, if_neg hc, FastPacket.addPacket] at htake
      rintro ⟨e', he', hfp⟩
      obtain rfl : e = e' := Except.error.inj he'
      split at htake
      · rw [← Except.error.inj htake] at hfp
        simp [Exn.isFastPacket] at hfp
      · simp at htake
    | ok p' =>
      simp only
      split_ifs
      · exact not_raises_totalFrame _
      · rintro ⟨e, he, -⟩
        simp at he

theorem raises_slotStep_iff (slot : Option FastPacket) (rx : Received) {b : UInt8} {data : Bytes}
    (hf : rx.frame = b :: data) :
    Raises (slotStep slot rx).1 ↔ counterOf b = 0 ∧ data = [] := by
  cases slot with
  | some p =>
    rw [slotStep_open p rx hf]
    exact raises_feedSlot_iff p b data
  | none =>
    by_cases hc : counterOf b = 0
    · have h := raises_feedSlot_iff (FastPacket.new rx.now rx.pgn rx.addr (seqOf b)) b data
      rw [hc] at h ⊢
      rw [slotStep_free rx hf hc]
      exact h
    · refine iff_of_false ?_ (fun h => hc h.1)
      simp only [slotStep, hf]
      rw [if_pos hc]
      rintro ⟨e, he, hfp⟩
      rw [← Except.error.inj he] at hfp
      simp [Exn.isFastPacket] at hfp

/-! ## 3. The reader -/

/-- The key of a frame is open in the reassembly. -/
def KeyOpen (s : SocketCANInterface) (m : CanMessage) (b : UInt8) : Prop :=
  (s.fpHandler.sequences.lookup (FastPacket.computeKey m.pgn m.sa (seqOf b))).isSome = true

/-- `process_receive_msg` on a frame for an accepted address. -/
def processAccepted (defs : PGNDefinitions) (s : SocketCANInterface) (now : Time) (full : Bool)
    (m : CanMessage) : Except Exn Unit × SocketCANInterface :=
  if m.pgn = 60416 then
    let (r, iso) := s.isoTpHandler.newTransaction m.sa m.prio m.data
    (r, { s with isoTpHandler := iso })
  else if m.pgn = 60160 then
    match s.isoTpHandler.incomingPacket m.sa m.data with
    | (.error (.isoTransport _), iso) => (.ok (), { s with isoTpHandler := iso })
    | (.error e, iso) => (.error e, { s with isoTpHandler := iso })
    | (.ok none, iso) => (.ok (), { s with isoTpHandler := iso })
    | (.ok (some msg), iso) => (.ok (), { s with isoTpHandler := iso }.putMessage full msg)
  else
    match s.fpHandler.isPgnActive m.pgn m.sa m.data with
    | .error (.fastPacket _) => (.ok (), s)
    | .error e => (.error e, s)
    | .ok true => s.reassemble now full m.pgn m.prio m.sa m.da m.data
    | .ok false =>
        match fastPacketCheck defs m.pgn with
        | .error e => (.error e, s)
        | .ok true => s.reassemble now full m.pgn m.prio m.sa m.da m.data
        | .ok false => (.ok (), s.putMessage full (.of m.pgn m.prio m.sa m.da m.data))

/-- The interface after it has counted a frame. -/
def counted (s : SocketCANInterface) : SocketCANInterface :=
  { s with totalMsgIn := s.totalMsgIn + 1 }

theorem processReceiveMsg_ignored (defs : PGNDefinitions) {s : SocketCANInterface} (now : Time)
    (full : Bool) {m : CanMessage} (h : m.da ∉ s.addresses) :
    s.processReceiveMsg defs now full m = (.ok (), s) := by
  rw [SocketCANInterface.processReceiveMsg]
  exact if_pos h

theorem processReceiveMsg_accepted (defs : PGNDefinitions) {s : SocketCANInterface} (now : Time)
    (full : Bool) {m : CanMessage} (h : m.da ∈ s.addresses) :
    s.processReceiveMsg defs now full m = processAccepted defs (counted s) now full m := by
  rw [SocketCANInterface.processReceiveMsg]
  exact if_neg (not_not_intro h)

/-- A frame that the reader survives: it is not for an accepted address, or
a BAM announce has its eight bytes, or a packet in a transaction has a first
byte, or any other frame has a first byte, can be classified, and is no frame
0 of one byte for the reassembly. -/
def SafeFrame (defs : PGNDefinitions) (s : SocketCANInterface) (m : CanMessage) : Prop :=
  m.da ∉ s.addresses ∨
  m.pgn = 60416 ∧ m.data ≠ [] ∧ (m.data.head? = some 32 → m.data.length = 8) ∨
  m.pgn = 60160 ∧ (m.data ≠ [] ∨
    ∀ t ∈ s.isoTpHandler.transactions.lookup m.sa, t.state ≠ .inTransmission) ∨
  m.pgn ≠ 60416 ∧ m.pgn ≠ 60160 ∧ ∃ b rest, m.data = b :: rest ∧
    (KeyOpen s m b ∨ Classified defs m.pgn) ∧
    (KeyOpen s m b ∨ fastPacketCheck defs m.pgn = .ok true → ¬ (counterOf b = 0 ∧ rest = []))

/-- The call returns. -/
def Returns {α : Type*} (r : Except Exn α) : Prop := ∃ x, r = .ok x

theorem returns_announce_iff (h : IsoTransportHandler) (sa prio : Nat) (data : Bytes) :
    Returns (h.newTransaction sa prio data).1 ↔
      data ≠ [] ∧ (data.head? = some 32 → data.length = 8) := by
  cases data with
  | nil => exact iff_of_false (by rintro ⟨x, hx⟩; simp [IsoTransportHandler.newTransaction,
      IsoTransportTransaction.incomingBamTransaction] at hx) (by simp)
  | cons b rest =>
    by_cases hb : b = 32
    · subst hb
      match rest with
      | [b1, b2, b3, b4, b5, b6, b7] => exact iff_of_true ⟨(), rfl⟩ ⟨by simp, fun _ => rfl⟩
      | [] | [_] | [_, _] | [_, _, _] | [_, _, _, _] | [_, _, _, _, _] | [_, _, _, _, _, _] =>
        exact iff_of_false (by rintro ⟨x, hx⟩; simp [IsoTransportHandler.newTransaction,
          IsoTransportTransaction.incomingBamTransaction, bamUnpack] at hx) (by simp)
      | _ :: _ :: _ :: _ :: _ :: _ :: _ :: _ :: _ =>
        exact iff_of_false (by rintro ⟨x, hx⟩; simp [IsoTransportHandler.newTransaction,
          IsoTransportTransaction.incomingBamTransaction, bamUnpack] at hx) (by simp)
    · refine iff_of_true ⟨(), ?_⟩ ⟨by simp, by simp [hb]⟩
      simp [IsoTransportHandler.newTransaction, IsoTransportTransaction.incomingBamTransaction, hb]

theorem returns_packet_iff (s : SocketCANInterface) (full : Bool) (sa : Nat) (data : Bytes) :
    Returns (match s.isoTpHandler.incomingPacket sa data with
      | (.error (.isoTransport _), iso) => (.ok (), { s with isoTpHandler := iso })
      | (.error e, iso) => (.error e, { s with isoTpHandler := iso })
      | (.ok none, iso) => (.ok (), { s with isoTpHandler := iso })
      | (.ok (some msg), iso) => (.ok (), { s with isoTpHandler := iso }.putMessage full msg)
      : Except Exn Unit × SocketCANInterface).1 ↔
      data ≠ [] ∨ ∀ t ∈ s.isoTpHandler.transactions.lookup sa, t.state ≠ .inTransmission := by
  rw [IsoTransportHandler.incomingPacket]
  cases hslot : s.isoTpHandler.transactions.lookup sa with
  | none => exact iff_of_true ⟨(), rfl⟩ (Or.inr (by simp))
  | some t =>
    simp only [IsoTransportTransaction.incomingPacket]
    by_cases hstate : t.state = .inTransmission
    · rw [if_neg (not_not_intro hstate)]
      cases data with
      | nil => exact iff_of_false (by rintro ⟨x, hx⟩; simp at hx) (by simp [hstate])
      | cons b rest =>
        refine iff_of_true ⟨(), ?_⟩ (Or.inl (by simp))
        simp only
        split_ifs <;> rfl
    · rw [if_pos hstate]
      exact iff_of_true ⟨(), rfl⟩ (Or.inr (by simpa using hstate))

/-- The reassembly of a frame returns unless it raises. -/
theorem returns_reassemble_iff (s : SocketCANInterface) (now : Time) (full : Bool)
    (pgn prio sa da : Nat) (b : UInt8) (rest : Bytes) :
    Returns (s.reassemble now full pgn prio sa da (b :: rest)).1 ↔
      ¬ (counterOf b = 0 ∧ rest = []) := by
  have hraise := raises_slotStep_iff
    (s.fpHandler.sequences.lookup (Received.key ⟨now, pgn, sa, b :: rest⟩))
    ⟨now, pgn, sa, b :: rest⟩ (rfl : (⟨now, pgn, sa, b :: rest⟩ : Received).frame = b :: rest)
  rw [← FastPacketHandler.receive_fst] at hraise
  rw [← hraise, SocketCANInterface.reassemble]
  change _ ↔ ¬ Raises (s.fpHandler.processFrame now pgn sa (b :: rest)).1
  obtain ⟨out, fp⟩ := s.fpHandler.processFrame now pgn sa (b :: rest)
  cases out with
  | ok out =>
    refine iff_of_true ⟨(), ?_⟩ (by rintro ⟨e, he, -⟩; simp at he)
    cases out <;> rfl
  | error e =>
    cases e with
    | fastPacket text =>
      refine iff_of_true ⟨(), rfl⟩ ?_
      rintro ⟨e, he, hfp⟩
      rw [← Except.error.inj he] at hfp
      simp [Exn.isFastPacket] at hfp
    | _ => exact iff_of_false (by rintro ⟨x, hx⟩; simp at hx) (not_not_intro ⟨_, rfl, rfl⟩)

/-- **One frame.** In any state `process_receive_msg` returns exactly for the
frames that are safe there. -/
theorem processReceiveMsg_returns_iff (defs : PGNDefinitions) (s : SocketCANInterface) (now : Time)
    (full : Bool) (m : CanMessage) :
    Returns (s.processReceiveMsg defs now full m).1 ↔ SafeFrame defs s m := by
  by_cases hda : m.da ∈ s.addresses
  · rw [processReceiveMsg_accepted defs now full hda, processAccepted]
    by_cases h1 : m.pgn = 60416
    · rw [if_pos h1]
      refine (returns_announce_iff _ _ _ _).trans ⟨fun h => Or.inr (Or.inl ⟨h1, h⟩), ?_⟩
      rintro (h | h | h | h)
      · exact absurd hda h
      · exact h.2
      · omega
      · exact absurd h1 h.1
    · rw [if_neg h1]
      by_cases h2 : m.pgn = 60160
      · rw [if_pos h2]
        refine (returns_packet_iff (counted s) full m.sa m.data).trans
          ⟨fun h => Or.inr (Or.inr (Or.inl ⟨h2, h⟩)), ?_⟩
        rintro (h | h | h | h)
        · exact absurd hda h
        · omega
        · exact h.2
        · exact absurd h2 h.2.1
      · rw [if_neg h2]
        have hsafe : SafeFrame defs s m ↔ ∃ b rest, m.data = b :: rest ∧
            (KeyOpen s m b ∨ Classified defs m.pgn) ∧
            (KeyOpen s m b ∨ fastPacketCheck defs m.pgn = .ok true →
              ¬ (counterOf b = 0 ∧ rest = [])) := by
          unfold SafeFrame
          constructor
          · rintro (h | h | h | h)
            · exact absurd hda h
            · exact absurd h.1 h1
            · exact absurd h.1 h2
            · exact h.2.2
          · exact fun h => Or.inr (Or.inr (Or.inr ⟨h1, h2, h⟩))
        rw [hsafe]
        cases hdata : m.data with
        | nil =>
          refine iff_of_false ?_ (by simp)
          rintro ⟨x, hx⟩
          simp [FastPacketHandler.isPgnActive] at hx
        | cons b rest =>
          have hex : ∀ P : UInt8 → Bytes → Prop,
              (∃ b' rest', b :: rest = b' :: rest' ∧ P b' rest') ↔ P b rest :=
            fun P => ⟨by rintro ⟨b', rest', h, hP⟩; cases h; exact hP, fun h => ⟨b, rest, rfl, h⟩⟩
          rw [hex (fun b rest => (KeyOpen s m b ∨ Classified defs m.pgn) ∧
            (KeyOpen s m b ∨ fastPacketCheck defs m.pgn = .ok true →
              ¬ (counterOf b = 0 ∧ rest = []))), FastPacketHandler.isPgnActive]
          by_cases hopen : KeyOpen s m b
          · have hlook : ((counted s).fpHandler.sequences.lookup
                (FastPacket.computeKey m.pgn m.sa (seqOf b))).isSome = true := hopen
            simp only [hlook, hopen, true_or, true_and, forall_true_left]
            exact returns_reassemble_iff _ _ _ _ _ _ _ _ _
          · have hlook : ((counted s).fpHandler.sequences.lookup
                (FastPacket.computeKey m.pgn m.sa (seqOf b))).isSome = false :=
              Bool.eq_false_iff.mpr hopen
            simp only [hlook, hopen, false_or]
            rw [← fastPacketCheck_isOk_iff defs m.pgn_lt]
            cases hcheck : fastPacketCheck defs m.pgn with
            | error e => exact iff_of_false (by rintro ⟨x, hx⟩; simp at hx) (by simp)
            | ok fast =>
              cases fast with
              | false => exact iff_of_true ⟨(), rfl⟩ ⟨⟨_, rfl⟩, by simp⟩
              | true =>
                refine (returns_reassemble_iff _ _ _ _ _ _ _ _ _).trans ?_
                simp
  · rw [processReceiveMsg_ignored defs now full hda]
    exact iff_of_true ⟨(), rfl⟩ (Or.inl hda)

/-- A frame that is received, with the clock and the state of the queue. -/
structure CanInput where
  now : Time
  full : Bool
  msg : CanMessage

/-- The reader: one call of `process_receive_msg` for each frame. -/
def reader (defs : PGNDefinitions) : Machine SocketCANInterface CanInput (Except Exn Unit) where
  step s i := s.processReceiveMsg defs i.now i.full i.msg

/-- **The reader.** From any state, over any frames: every call returns exactly
when every frame is safe in the state it meets. -/
theorem reader_returns_iff (defs : PGNDefinitions) (s : SocketCANInterface)
    (inputs : List CanInput) :
    (∀ mv ∈ (reader defs).trace s inputs, Returns mv.output) ↔
      ∀ mv ∈ (reader defs).trace s inputs, SafeFrame defs mv.pre mv.input.msg :=
  (reader defs).trace_forall_iff (fun mv => Returns mv.output)
    (fun s i => SafeFrame defs s i.msg)
    (fun s i => processReceiveMsg_returns_iff defs s i.now i.full i.msg) s inputs

/-- A frame of PGN 126977, which no definition describes, on a new interface. -/
theorem not_reader_returns_unknown :
    (⟨0, false, ⟨0x19F00105, [0, 1, 2, 3, 4, 5, 6, 7]⟩⟩ : CanInput).msg.arbitrationId < 2 ^ 29 ∧
    ¬ ∀ mv ∈ (reader PGNDefinitions.empty).trace SocketCANInterface.new
        [⟨0, false, ⟨0x19F00105, [0, 1, 2, 3, 4, 5, 6, 7]⟩⟩], Returns mv.output := by
  refine ⟨by decide, fun h => ?_⟩
  obtain ⟨x, hx⟩ := h _ (List.mem_cons_self ..)
  have hout : (SocketCANInterface.new.processReceiveMsg PGNDefinitions.empty 0 false
      ⟨0x19F00105, [0, 1, 2, 3, 4, 5, 6, 7]⟩).1 = .error (.unknownPGN "Unknown PGN 126977") := rfl
  rw [show (SocketCANInterface.new.processReceiveMsg PGNDefinitions.empty 0 false
      ⟨0x19F00105, [0, 1, 2, 3, 4, 5, 6, 7]⟩).1 = .ok x from hx] at hout
  simp at hout

end NavigationServer.CanInterface
