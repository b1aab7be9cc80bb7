/-
NavigationServer.RouterCore.Nmea0183ProtobufTheorems — what is left of a message
on the other side.

`survivesHop_iff`: a message comes through in exactly the cases in which the
clock on the other side reads its time stamp, and it was checked if and only if
the time stamp is not 0. The bytes are always the same, so the message made of
them is the one that the other mode of the constructor gives (`init_raw`), and
the two modes never give the same fields (`fields_ne`).
-/
import NavigationServer.RouterCore.Nmea0183Parts
import NavigationServer.RouterCore.Nmea0183Protobuf

namespace NavigationServer.RouterCore

open NavigationServer.Lib

/-- The message on the other side has the bytes, time stamp, delimiter, address
and fields of the message. -/
def SurvivesHop (now : Time) (m : StampedMsg) : Prop :=
  ∃ pb m', m.asProtobuf .empty true = .ok pb ∧ nmea0183msgFromProtobuf now pb = .ok (.inl m') ∧
    m'.msg.raw = m.msg.raw ∧ m'.ts = m.ts ∧ m'.msg.delimiter = m.msg.delimiter ∧
    m'.msg.address = m.msg.address ∧ m'.msg.fields = m.msg.fields

/-! ## 1. The bytes of a message -/

/-- The bytes of a message are read as what it was made of. -/
theorem init_raw {data : Bytes} {checksum : Bool} {m : NMEA0183Msg}
    (h : NMEA0183Msg.init data checksum = .ok m) (again : Bool) :
    NMEA0183Msg.init m.raw again = NMEA0183Msg.init data again := by
  obtain ⟨delimiter, address, rest, ends, hsplits, -, rfl⟩ := init_eq_ok_iff.mp h
  have htrimmed : trimmed (trimmed data ++ crLf) = trimmed data := trimmed_append_crLf_self _
  cases data with
  | nil => cases h
  | cons c tail =>
    have hhead : (trimmed (c :: tail) ++ crLf).head? = some c := by
      rw [hsplits.text_eq]
      have := head?_of_trimmed hsplits.text_eq
      simpa using this.symm
    change NMEA0183Msg.init (trimmed (c :: tail) ++ crLf) again = _
    cases hraw : trimmed (c :: tail) ++ crLf with
    | nil =>
      rw [hraw] at hhead
      cases hhead
    | cons d raw =>
      rw [hraw] at hhead htrimmed
      obtain rfl := Option.some.inj hhead
      rw [NMEA0183Msg.init, NMEA0183Msg.init, withCrLf_eq, withCrLf_eq, htrimmed]

theorem raw_pos {data : Bytes} {checksum : Bool} {m : NMEA0183Msg}
    (h : NMEA0183Msg.init data checksum = .ok m) : 0 < m.raw.length := by
  obtain ⟨delimiter, address, rest, ends, -, -, rfl⟩ := init_eq_ok_iff.mp h
  simp [NMEA0183Msg.ofParts, crLf]

/-! ## 2. The two modes -/

/-- **Checked and unchecked, a sentence has different fields**: unchecked, the
last one ends with the checksum. -/
theorem fields_ne {data : Bytes} {m m' : NMEA0183Msg} (h : NMEA0183Msg.init data true = .ok m)
    (h' : NMEA0183Msg.init data false = .ok m') : m.fields ≠ m'.fields := by
  obtain ⟨delimiter, address, rest, ends, hsplits, hchecked, rfl⟩ := init_eq_ok_iff.mp h
  obtain ⟨delimiter', address', rest', ends', hsplits', hchecked', rfl⟩ := init_eq_ok_iff.mp h'
  obtain ⟨rfl, rfl, rfl⟩ := hsplits.unique hsplits'
  rw [fields_unchecked hsplits hchecked']
  obtain ⟨shown, c1, c2, rfl, -, rfl⟩ := hsplits.checked_iff.mp hchecked
  rw [fields_checked hsplits]
  intro hfields
  have hrest := congrArg (fun fields => [comma].intercalate fields) hfields
  simp only [List.intercalate_splitOn] at hrest
  have hlen := congrArg List.length hrest
  simp at hlen

/-! ## 3. The hop -/

/-- **A message survives the hop exactly when the clock reads its time stamp, and
it was checked if and only if the time stamp is not 0.** -/
theorem survivesHop_iff {before now : Time} {data : Bytes} {checksum : Bool} {timestamp : Option Time}
    {m : StampedMsg} (h : StampedMsg.init before data checksum timestamp = .ok m) :
    SurvivesHop now m ↔ m.ts = now ∧ (checksum = true ↔ m.ts ≠ 0) := by
  obtain ⟨msg, ts⟩ := m
  have hmsg : NMEA0183Msg.init data checksum = .ok msg := by
    unfold StampedMsg.init at h
    cases hinit : NMEA0183Msg.init data checksum with
    | error e =>
      rw [hinit] at h
      cases h
    | ok msg' =>
      rw [hinit] at h
      cases h
      rfl
  have hfrom : ∀ pb, StampedMsg.asProtobuf ⟨msg, ts⟩ .empty true = .ok pb →
      nmea0183msgFromProtobuf now pb
        = (NMEA0183Msg.init data (decide (ts ≠ 0))).map fun msg' => .inl ⟨msg', now⟩ := by
    intro pb hpb
    obtain rfl := Except.ok.inj hpb
    rw [nmea0183msgFromProtobuf, if_pos (raw_pos hmsg), StampedMsg.init, init_raw hmsg]
    cases NMEA0183Msg.init data (decide (ts ≠ 0)) <;> rfl
  constructor
  · rintro ⟨pb, m', hpb, hm', -, hts, -, -, hfields⟩
    rw [hfrom pb hpb] at hm'
    cases hagain : NMEA0183Msg.init data (decide (ts ≠ 0)) with
    | error e =>
      rw [hagain] at hm'
      cases hm'
    | ok msg' =>
      rw [hagain] at hm'
      cases hm'
      refine ⟨hts.symm, ?_⟩
      by_cases hzero : ts = 0
      · rw [decide_eq_false (not_not_intro hzero)] at hagain
        cases checksum with
        | false => simp [hzero]
        | true => exact absurd hfields.symm (fields_ne hmsg hagain)
      · rw [decide_eq_true hzero] at hagain
        cases checksum with
        | false => exact absurd hfields (fields_ne hagain hmsg)
        | true => simp [hzero]
  · rintro ⟨rfl, hmode⟩
    have hsame : decide (ts ≠ 0) = checksum := by
      cases checksum with
      | false => simpa using hmode
      | true => simpa using hmode
    refine ⟨_, ⟨msg, ts⟩, rfl, ?_, rfl, rfl, rfl, rfl, rfl⟩
    rw [hfrom _ rfl, hsame, hmsg]
    rfl

/-- Checked, and converted at the time of its stamp. -/
theorem survivesHop_checked :
    StampedMsg.init 3 (ascii "$GPGLL,A*3D") true (some 12) = .ok ⟨gll (ascii "$GPGLL,A*3D") 8 61, 12⟩ ∧
      SurvivesHop 12 ⟨gll (ascii "$GPGLL,A*3D") 8 61, 12⟩ := by
  have h : StampedMsg.init 3 (ascii "$GPGLL,A*3D") true (some 12)
      = .ok ⟨gll (ascii "$GPGLL,A*3D") 8 61, 12⟩ := by decide +kernel
  exact ⟨h, (survivesHop_iff h).mpr ⟨rfl, by decide +kernel⟩⟩

/-- Unchecked, a message without a checksum is refused on the other side. -/
theorem not_survivesHop_unchecked :
    StampedMsg.init 3 (ascii "$GPGLL,A") false (some 12) = .ok ⟨gll (ascii "$GPGLL,A") 8 0, 12⟩ ∧
      ¬ SurvivesHop 12 ⟨gll (ascii "$GPGLL,A") 8 0, 12⟩ := by
  refine ⟨by decide +kernel, ?_⟩
  rintro ⟨pb, m', hpb, hm', -⟩
  obtain rfl := Except.ok.inj hpb
  have hrefused : nmea0183msgFromProtobuf 12
      { Nmea0183pb.empty with timestamp := 12, rawMessage := ascii "$GPGLL,A" ++ crLf }
      = .error .nmeaInvalidFrame := by rfl
  exact absurd (hrefused.symm.trans hm') (by simp)

end NavigationServer.RouterCore
