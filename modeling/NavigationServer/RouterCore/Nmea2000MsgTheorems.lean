/-
NavigationServer.RouterCore.Nmea2000MsgTheorems — the two classifiers of fast
packet PGNs.

Senders go by the flag of the message, receivers by the ranges and the table
of definitions, and the receivers agree among themselves
(`fastPacketCheck_of_defines`). `flagsAgree_iff` says for which messages the
sender agrees with them: not for a PGN between 0x10001 and 0x1EFFF with at
most 8 bytes, and in the mixed range not for a payload that is shorter or
longer than 8 bytes against its definition.
-/
import NavigationServer.Nmea2000Datamodel.PgnDefinitionTheorems
import NavigationServer.RouterCore.Nmea2000Msg

namespace NavigationServer.RouterCore

open NavigationServer.Nmea2000Datamodel

/-- The flag of a message is the one the receivers go by. -/
def FlagsAgree (defs : PGNDefinitions) (d : PGNDef) (msg : NMEA2000Msg) : Prop :=
  fastPacketCheck defs msg.pgn = .ok msg.fastPacket ∧ d.fastPacket = msg.fastPacket

/-- **Sender and receivers.** For a message of a defined PGN, whatever its
length. In the mixed range they agree on the payloads that are as long or as
short as the definition says. -/
theorem flagsAgree_iff (defs : PGNDefinitions) (d : PGNDef) (msg : NMEA2000Msg)
    (hd : defs.Defines msg.pgn d) :
    FlagsAgree defs d msg ↔
      msg.pgn ≤ 0x10000 ∨ 0x1FF00 ≤ msg.pgn ∨
        msg.pgn < 0x1F000 ∧ 8 < msg.payload.length ∨
        0x1F000 ≤ msg.pgn ∧
          (8 < msg.payload.length ↔ d.variableLength = true ∨ 8 < d.byteLength) := by
  have hle := hd.le
  have hcheck := fastPacketCheck_of_defines hd
  have hagree : FlagsAgree defs d msg ↔ d.fastPacket = checkFastPacket msg.pgn msg.payload := by
    rw [FlagsAgree, hcheck, msg.fastPacket_eq, Except.ok.injEq, and_self_iff]
  rw [hagree]
  rcases Nat.lt_or_ge msg.pgn 0x10000 with hlow | hlow
  · -- single frame on both sides
    have hflag : d.fastPacket = false := by
      have := fastPacketCheck_single defs hlow
      rwa [hcheck, Except.ok.injEq] at this
    rw [hflag, checkFastPacket, if_pos hlow]
    exact iff_of_true rfl (Or.inl (by omega))
  · rw [checkFastPacket, if_neg (by omega)]
    by_cases hmixed : 0x1F000 ≤ msg.pgn ∧ msg.pgn < 0x1FF00
    · -- the receivers ask the definition, the sender the payload
      have hflag := d.fastPacket_eq
      rw [determineFastPacket, hd.id_eq, if_neg (by rw [lastSingleFrame_eq]; omega)] at hflag
      have hrange := d.findRange_id
      rw [hd.id_eq, findRange_mixed hmixed.1 hmixed.2, Except.ok.injEq] at hrange
      rw [← hrange, if_neg (by simp)] at hflag
      have hiff : (d.variableLength || decide (d.byteLength > 8)) = decide (msg.payload.length > 8)
          ↔ (8 < msg.payload.length ↔ d.variableLength = true ∨ 8 < d.byteLength) := by
        rw [Bool.eq_iff_iff, Bool.or_eq_true, decide_eq_true_iff, decide_eq_true_iff]
        exact iff_comm
      rw [hflag, if_neg (by omega), if_neg (by omega), hiff]
      constructor
      · exact fun h => Or.inr (Or.inr (Or.inr ⟨hmixed.1, h⟩))
      · rintro (h | h | h | h)
        · omega
        · omega
        · omega
        · exact h.2
    · have hflag : d.fastPacket = true := by
        have := fastPacketCheck_fast defs hlow (by omega)
        rwa [hcheck, Except.ok.injEq] at this
      rw [hflag]
      rcases Nat.lt_or_ge msg.pgn 0x1F000 with h1 | h1
      · rcases Nat.eq_or_lt_of_le hlow with h0 | h0
        · rw [if_pos ⟨by omega, h1⟩]
          exact iff_of_true rfl (Or.inl (by omega))
        · -- the slip in the comparison: the payload decides here as well
          rw [if_neg (by omega), if_neg (by omega), eq_comm, decide_eq_true_iff]
          omega
      · rw [if_neg (by omega), if_pos (by omega)]
        exact iff_of_true rfl (Or.inr (Or.inl (by omega)))

/-- The PGN list, a fast packet PGN that can be addressed. -/
def pgnList : PGNDef where
  id := 126464
  name := "PGN List (Transmit and Receive)"
  range := ⟨0x10000, 0x1EE00, .pdu1, .stdFastPacketAddressed, "Standard fast packet addressed"⟩
  proprietary := false
  manufacturerId := none
  byteLength := 4
  variableLength := false
  fastPacket := true
  nbFields := 2
  findRange_id := rfl
  isPgnProprietary_id := rfl
  pdu1_low := fun _ => rfl
  fastPacket_eq := rfl
  isSome_manufacturerId := by simp

/-- The table that its element alone gives. -/
def pgnListDefinitions : PGNDefinitions :=
  PGNDefinitions.init
    [⟨126464, "PGN List (Transmit and Receive)", none, some 4, some (.ok ⟨2, .error .keyError⟩)⟩]

theorem defines_pgnList : pgnListDefinitions.Defines 126464 pgnList := rfl

/-- A list of three PGNs is sent as the receivers expect it. -/
theorem flagsAgree_pgnList :
    FlagsAgree pgnListDefinitions pgnList
      (.of 126464 6 3 255 [0, 0, 238, 0, 20, 240, 1, 5, 248, 1]) :=
  (flagsAgree_iff _ _ _ defines_pgnList).mpr (by decide)

/-- A list of one PGN goes out as a single frame, which the receivers take for
a part of a fast packet. -/
theorem not_flagsAgree_pgnList :
    pgnListDefinitions.Defines 126464 pgnList ∧
    ¬ FlagsAgree pgnListDefinitions pgnList (.of 126464 6 3 255 [0, 0, 238, 0]) := by
  refine ⟨defines_pgnList, fun h => ?_⟩
  have hflag := h.2
  rw [show (NMEA2000Msg.of 126464 6 3 255 [0, 0, 238, 0]).fastPacket = false from rfl] at hflag
  simp [pgnList] at hflag

end NavigationServer.RouterCore
