/-
NavigationServer.Nmea2000.Untimed — the reassembly does not look at the clock.

The clock reading of a sequence is for the collection of stale sequences only.
Two tables that are equal but for these readings (`Alike`) treat the same
frames alike, whenever they come (`Alike.receive`).
-/
import NavigationServer.Nmea2000.Transfer

namespace NavigationServer.Nmea2000

open NavigationServer.Lib

namespace FastPacket

/-- The record without its clock reading. -/
def untimed (p : FastPacket) : FastPacket := { p with timestamp := 0 }

theorem takeFrame_untimed (p : FastPacket) (counter : Nat) (frame : Bytes) :
    p.untimed.takeFrame counter frame = (p.takeFrame counter frame).map untimed := by
  by_cases h0 : counter = 0
  · simp only [takeFrame, if_pos h0, firstPacket]
    cases frame[1]? <;> rfl
  · simp only [takeFrame, if_neg h0]
    cases frame with
    | nil => rfl
    | cons control data =>
      simp only [addPacket]
      rw [show p.untimed.frames = p.frames from rfl]
      cases p.frames.lookup (control.toNat &&& 0x1F) <;> rfl

theorem checkComplete_untimed (p : FastPacket) : p.untimed.checkComplete = p.checkComplete := rfl

theorem totalFrame_untimed (p : FastPacket) : p.untimed.totalFrame = p.totalFrame := rfl

theorem new_untimed (now : Time) (pgn addr seq : Nat) :
    (FastPacket.new now pgn addr seq).untimed = FastPacket.new 0 pgn addr seq := rfl

end FastPacket

def Received.untimed (rx : Received) : Received := { rx with now := 0 }

theorem feedSlot_untimed (counter : Nat) (p : FastPacket) (frame : Bytes) :
    feedSlot counter p.untimed frame
      = ((feedSlot counter p frame).1, (feedSlot counter p frame).2.map FastPacket.untimed) := by
  have htimed := FastPacket.takeFrame_untimed p counter frame
  cases htake : p.takeFrame counter frame with
  | error e =>
    rw [feedSlot, feedSlot, htimed, htake]
    cases he : e.isFastPacket <;> simp [he, Except.map]
  | ok p' =>
    rw [htake] at htimed
    rw [feedSlot_ok htake, feedSlot_ok htimed, FastPacket.checkComplete_untimed,
      FastPacket.totalFrame_untimed]
    split <;> rfl

theorem slotStep_untimed (slot : Option FastPacket) (rx : Received) :
    slotStep (slot.map FastPacket.untimed) rx.untimed
      = ((slotStep slot rx).1, (slotStep slot rx).2.map FastPacket.untimed) := by
  cases hf : rx.frame with
  | nil =>
    have hf' : rx.untimed.frame = [] := hf
    rw [slotStep, slotStep, hf, hf']
  | cons control data =>
    have hf' : rx.untimed.frame = control :: data := hf
    cases slot with
    | some p =>
      rw [Option.map_some, slotStep_open _ _ hf', slotStep_open _ _ hf]
      exact feedSlot_untimed _ _ _
    | none =>
      by_cases hc : FastPacketHandler.counterOf control = 0
      · rw [Option.map_none, slotStep_free _ hf' hc, slotStep_free _ hf hc, ← feedSlot_untimed,
          FastPacket.new_untimed]
        rfl
      · rw [Option.map_none, slotStep, slotStep, hf, hf']
        simp only [ne_eq, hc, not_false_eq_true, if_true]
        rfl

/-- The tables are equal but for the clock readings. -/
def Alike (h h' : FastPacketHandler) : Prop :=
  ∀ k, (h.sequences.lookup k).map FastPacket.untimed
    = (h'.sequences.lookup k).map FastPacket.untimed

namespace Alike

variable {h h' : FastPacketHandler}

theorem refl (h : FastPacketHandler) : Alike h h := fun _ => rfl

/-- The same sequences are open. -/
theorem isSome_eq (ha : Alike h h') (k : Nat) :
    (h.sequences.lookup k).isSome = (h'.sequences.lookup k).isSome := by
  simpa using congrArg Option.isSome (ha k)

/-- The same frame has the same outcome, and leaves the tables alike. -/
theorem receive (ha : Alike h h') {rx rx' : Received} (hrx : rx.untimed = rx'.untimed) :
    (h.receive rx).1 = (h'.receive rx').1 ∧ Alike (h.receive rx).2 (h'.receive rx').2 := by
  have hkey : rx.key = rx'.key := by
    have := congrArg Received.key hrx
    exact this
  have hslot : slotStep ((h.sequences.lookup rx.key).map FastPacket.untimed) rx.untimed
      = slotStep ((h'.sequences.lookup rx'.key).map FastPacket.untimed) rx'.untimed := by
    rw [ha, hrx, hkey]
  rw [slotStep_untimed, slotStep_untimed, Prod.mk.injEq] at hslot
  refine ⟨?_, fun k => ?_⟩
  · rw [FastPacketHandler.receive_fst, FastPacketHandler.receive_fst]
    exact hslot.1
  · by_cases hk : k = rx.key
    · rw [hk, FastPacketHandler.lookup_receive, hslot.2, hkey, FastPacketHandler.lookup_receive]
    · rw [FastPacketHandler.lookup_receive_ne _ _ hk,
        FastPacketHandler.lookup_receive_ne _ _ (hkey ▸ hk)]
      exact ha k

end Alike

end NavigationServer.Nmea2000
