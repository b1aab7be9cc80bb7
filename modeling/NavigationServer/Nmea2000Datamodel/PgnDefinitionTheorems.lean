/-
NavigationServer.Nmea2000Datamodel.PgnDefinitionTheorems — PGNs as numbers and
intervals.

Masks and shifts become quotients and remainders, the range table becomes
intervals, and `fast_packet_check` becomes the flag of the definition
(`fastPacketCheck_of_defines`), so that the developments above do not look
into the table again.
-/
import NavigationServer.Nmea2000Datamodel.PgnDefinition

namespace NavigationServer.Nmea2000Datamodel

/-! ## 1. The destination address in a PGN -/

/-- On 17 bits the mask of a PDU1 PGN takes off the low byte. -/
theorem and_pdu1Mask {pgn : Nat} (h : pgn < 0x20000) : pgn &&& 0x1FF00 = pgn / 256 * 256 := by
  have hmask : (0x1FF00 : Nat) = (2 ^ 9 - 1) <<< 8 := by decide
  have hdiv : pgn / 256 * 256 = (pgn >>> 8) <<< 8 := by
    rw [Nat.shiftLeft_eq, Nat.shiftRight_eq_div_pow]
  rw [hmask, hdiv]
  refine Nat.eq_of_testBit_eq (fun i => ?_)
  rw [Nat.testBit_and, Nat.testBit_shiftLeft, Nat.testBit_shiftLeft, Nat.testBit_two_pow_sub_one,
    Nat.testBit_shiftRight]
  by_cases h8 : 8 ≤ i
  · by_cases h17 : i < 17
    · simp [h8, show 8 + (i - 8) = i by omega, show i - 8 < 9 by omega]
    · have hpow : 2 ^ 17 ≤ 2 ^ i := Nat.pow_le_pow_right (by decide) (by omega)
      have hlt : pgn < 2 ^ i := by omega
      simp [Nat.testBit_lt_two_pow hlt, show 8 + (i - 8) = i by omega]
  · simp [h8]

theorem pduFormat_eq (pgn : Nat) : (pgn >>> 8) &&& 0xFF = pgn / 256 % 256 := by
  rw [Nat.shiftRight_eq_div_pow, show (0xFF : Nat) = 2 ^ 8 - 1 from rfl,
    Nat.and_two_pow_sub_one_eq_mod]

/-- A PDU1 PGN loses its low byte, the destination. -/
theorem pgnPdu1Adjust_pdu1 {pgn : Nat} (h : pgn < 0x20000) (hf : pgn / 256 % 256 < 240) :
    pgnPdu1Adjust pgn = (pgn / 256 * 256, pgn % 256) := by
  rw [pgnPdu1Adjust, pduFormat_eq, if_pos hf, and_pdu1Mask h,
    show (0xFF : Nat) = 2 ^ 8 - 1 from rfl, Nat.and_two_pow_sub_one_eq_mod]

/-- A PDU2 PGN is kept, and goes to all. -/
theorem pgnPdu1Adjust_pdu2 {pgn : Nat} (hf : 240 ≤ pgn / 256 % 256) :
    pgnPdu1Adjust pgn = (pgn, 255) := by
  rw [pgnPdu1Adjust, pduFormat_eq, if_neg (by omega)]

theorem pgnPdu1Adjust_lt {pgn : Nat} (h : pgn < 0x20000) : (pgnPdu1Adjust pgn).1 < 0x20000 := by
  rcases Nat.lt_or_ge (pgn / 256 % 256) 240 with hf | hf
  · rw [pgnPdu1Adjust_pdu1 h hf]
    simp only
    omega
  · rwa [pgnPdu1Adjust_pdu2 hf]

/-- A PGN as the definitions have it: 17 bits, and no low byte in PDU1. -/
def ValidPgn (pgn : Nat) : Prop :=
  pgn < 0x20000 ∧ (pgn / 256 % 256 < 240 → pgn % 256 = 0)

theorem pgnPdu1Adjust_valid {pgn : Nat} (h : ValidPgn pgn) : (pgnPdu1Adjust pgn).1 = pgn := by
  rcases Nat.lt_or_ge (pgn / 256 % 256) 240 with hf | hf
  · have hlow := h.2 hf
    rw [pgnPdu1Adjust_pdu1 h.1 hf]
    simp only
    omega
  · rw [pgnPdu1Adjust_pdu2 hf]

theorem validPgn_pgnPdu1Adjust {pgn : Nat} (h : pgn < 0x20000) : ValidPgn (pgnPdu1Adjust pgn).1 := by
  refine ⟨pgnPdu1Adjust_lt h, ?_⟩
  rcases Nat.lt_or_ge (pgn / 256 % 256) 240 with hf | hf
  · rw [pgnPdu1Adjust_pdu1 h hf]
    simp only
    omega
  · rw [pgnPdu1Adjust_pdu2 hf]
    simp only
    omega

/-! ## 2. The ranges as intervals -/

theorem lastSingleFrame_eq : lastSingleFrame = 0xFFFF := rfl

/-- Between the single frame PGNs and the mixed ones. -/
theorem findRange_addressed {pgn : Nat} (h : 0x10000 ≤ pgn) (h' : pgn < 0x1F000) :
    ∃ r, findRange pgn = .ok r ∧ r.value ≠ .stdMixed := by
  rcases Nat.lt_or_ge 0x1EE00 pgn with hp | hp
  · refine ⟨⟨0x1EF00, 0x1EFFF, .pdu1, .propFastPacketAddressed,
      "Proprietary fast packet addressed"⟩, ?_, by decide⟩
    simp [findRange, lastSingleFrame_eq, pgnRange, List.find?,
      show ¬ pgn ≤ 0xFFFF by omega, show ¬ pgn ≤ 0x1EE00 by omega, show pgn ≤ 0x1EFFF by omega]
  · refine ⟨⟨0x10000, 0x1EE00, .pdu1, .stdFastPacketAddressed,
      "Standard fast packet addressed"⟩, ?_, by decide⟩
    simp [findRange, lastSingleFrame_eq, pgnRange, show ¬ pgn ≤ 0xFFFF by omega,
      show pgn ≤ 0x1EE00 by omega]

/-- The mixed range. -/
theorem findRange_mixed {pgn : Nat} (h : 0x1F000 ≤ pgn) (h' : pgn < 0x1FF00) :
    findRange pgn = .ok ⟨0x1F000, 0x1FEFF, .pdu2, .stdMixed,
      "Standard mixed (fast/single) packet non addressed"⟩ := by
  simp [findRange, lastSingleFrame_eq, pgnRange, List.find?, show ¬ pgn ≤ 0xFFFF by omega,
    show ¬ pgn ≤ 0x1EE00 by omega, show ¬ pgn ≤ 0x1EFFF by omega, show pgn ≤ 0x1FEFF by omega]

/-- The proprietary fast packet PGNs. -/
theorem findRange_proprietary {pgn : Nat} (h : 0x1FF00 ≤ pgn) (h' : pgn ≤ 0x1FFFF) :
    ∃ r, findRange pgn = .ok r ∧ r.value ≠ .stdMixed := by
  refine ⟨⟨0x1FF00, 0x1FFFF, .pdu2, .propFastPacket, "Proprietary fast packet non-addressed"⟩,
    ?_, by decide⟩
  simp [findRange, lastSingleFrame_eq, pgnRange, List.find?, show ¬ pgn ≤ 0xFFFF by omega,
    show ¬ pgn ≤ 0x1EE00 by omega, show ¬ pgn ≤ 0x1EFFF by omega, show ¬ pgn ≤ 0x1FEFF by omega,
    show pgn ≤ 0x1FFFF by omega]

/-- No range holds more than 17 bits. -/
theorem le_of_findRange {pgn : Nat} {r : PGNRange} (h : findRange pgn = .ok r) :
    pgn ≤ 0x1FFFF := by
  by_contra hgt
  simp [findRange, lastSingleFrame_eq, pgnRange, List.find?, show ¬ pgn ≤ 0xFFFF by omega,
    show ¬ pgn ≤ 0x1EE00 by omega, show ¬ pgn ≤ 0x1EFFF by omega, show ¬ pgn ≤ 0x1FEFF by omega,
    show ¬ pgn ≤ 0x1FFFF by omega] at h

/-! ## 3. The receivers -/

theorem fastPacketCheck_single (defs : PGNDefinitions) {pgn : Nat} (h : pgn < 0x10000) :
    fastPacketCheck defs pgn = .ok false := by
  rw [fastPacketCheck, if_pos (by rw [lastSingleFrame_eq]; omega)]
  rfl

/-- The PGNs that are fast packet whatever their definition. -/
theorem fastPacketCheck_fast (defs : PGNDefinitions) {pgn : Nat} (h : 0x10000 ≤ pgn)
    (h' : pgn < 0x1F000 ∨ 0x1FF00 ≤ pgn ∧ pgn ≤ 0x1FFFF) :
    fastPacketCheck defs pgn = .ok true := by
  obtain ⟨r, hr, hmixed⟩ : ∃ r, findRange pgn = .ok r ∧ r.value ≠ .stdMixed := by
    rcases h' with h' | h'
    · exact findRange_addressed h h'
    · exact findRange_proprietary h'.1 h'.2
  rw [fastPacketCheck, if_neg (by rw [lastSingleFrame_eq]; omega), hr]
  simp only [bind, Except.bind, if_pos hmixed, pure, Except.pure]

/-- In the mixed range the definition decides, and there has to be one. -/
theorem fastPacketCheck_mixed (defs : PGNDefinitions) {pgn : Nat} (h : 0x1F000 ≤ pgn)
    (h' : pgn < 0x1FF00) :
    fastPacketCheck defs pgn = (match defs.pgnDefinition pgn 0 with
      | .error e => .error e
      | .ok none => .error .attributeError
      | .ok (some d) => .ok d.fastPacket) := by
  rw [fastPacketCheck, if_neg (by rw [lastSingleFrame_eq]; omega), findRange_mixed h h']
  simp only [bind, Except.bind, ne_eq, not_true_eq_false, if_false]
  cases defs.pgnDefinition pgn 0 with
  | error e => rfl
  | ok o => cases o <;> rfl

/-- `d` is in the table as a definition of `pgn`. -/
def PGNDefinitions.Defines (defs : PGNDefinitions) (pgn : Nat) (d : PGNDef) : Prop :=
  match defs.pgnDefs.lookup pgn with
  | some (.definition d') => d' = d
  | some (.proprietarySet s) => s.default = some d ∨ ∃ m, s.variants.lookup m = some d
  | none => False

theorem PGNDefinitions.Defines.id_eq {defs : PGNDefinitions} {pgn : Nat} {d : PGNDef}
    (h : defs.Defines pgn d) : d.id = pgn := by
  unfold Defines at h
  split at h
  · rename_i d' hlook
    exact h ▸ (defs.wellFormed pgn _ hlook).1
  · rename_i s hlook
    have hwf := (defs.wellFormed pgn _ hlook).2
    rcases h with h | ⟨m, h⟩
    · exact hwf.default_id d h
    · exact hwf.variants_id m d h
  · exact h.elim

theorem PGNDefinitions.Defines.le {defs : PGNDefinitions} {pgn : Nat} {d : PGNDef}
    (h : defs.Defines pgn d) : pgn ≤ 0x1FFFF :=
  h.id_eq ▸ le_of_findRange d.findRange_id

theorem not_isPgnProprietary_mixed {pgn : Nat} (h : 0x1F000 ≤ pgn) (h' : pgn < 0x1FF00) :
    isPgnProprietary pgn = .ok false := by
  rw [isPgnProprietary, findRange_mixed h h']
  rfl

/-- The table hands out the definition of a mixed PGN itself. -/
theorem pgnDefinition_of_defines {defs : PGNDefinitions} {pgn : Nat} {d : PGNDef}
    (hd : defs.Defines pgn d) (h : 0x1F000 ≤ pgn) (h' : pgn < 0x1FF00) (m : Nat) :
    defs.pgnDefinition pgn m = .ok (some d) := by
  unfold PGNDefinitions.Defines at hd
  split at hd
  · rename_i d' hlook
    rw [PGNDefinitions.pgnDefinition, hlook, hd]
  · rename_i s hlook
    have hprop := (defs.wellFormed pgn _ hlook).1
    rw [not_isPgnProprietary_mixed h h'] at hprop
    simp at hprop
  · exact hd.elim

/-- A PGN that the receive paths can classify: in the mixed range there has to
be a definition. -/
def Classified (defs : PGNDefinitions) (pgn : Nat) : Prop :=
  0x1F000 ≤ pgn → pgn < 0x1FF00 → (defs.pgnDefs.lookup pgn).isSome = true

theorem fastPacketCheck_isOk_iff (defs : PGNDefinitions) {pgn : Nat} (h : pgn < 0x20000) :
    (∃ fast, fastPacketCheck defs pgn = .ok fast) ↔ Classified defs pgn := by
  rcases Nat.lt_or_ge pgn 0x10000 with hlow | hlow
  · exact iff_of_true ⟨_, fastPacketCheck_single defs hlow⟩ (fun h1 => by omega)
  · by_cases hmixed : 0x1F000 ≤ pgn ∧ pgn < 0x1FF00
    · rw [fastPacketCheck_mixed defs hmixed.1 hmixed.2, PGNDefinitions.pgnDefinition]
      cases hlook : defs.pgnDefs.lookup pgn with
      | none => exact iff_of_false (by simp) (fun h => by simpa [hlook] using h hmixed.1 hmixed.2)
      | some e =>
        refine iff_of_true ?_ (fun _ _ => by simp [hlook])
        cases e with
        | definition d => exact ⟨_, rfl⟩
        | proprietarySet s =>
          have hprop := (defs.wellFormed pgn _ hlook).1
          rw [not_isPgnProprietary_mixed hmixed.1 hmixed.2] at hprop
          simp at hprop
    · exact iff_of_true ⟨_, fastPacketCheck_fast defs hlow (by omega)⟩ (fun h1 h2 => by omega)

/-- **The receivers agree.** `fast_packet_check` is the flag of every
definition the table holds. -/
theorem fastPacketCheck_of_defines {defs : PGNDefinitions} {pgn : Nat} {d : PGNDef}
    (h : defs.Defines pgn d) : fastPacketCheck defs pgn = .ok d.fastPacket := by
  have hle := h.le
  have hflag := d.fastPacket_eq
  have hrange := d.findRange_id
  rw [h.id_eq] at hflag hrange
  rcases Nat.lt_or_ge pgn 0x10000 with hlow | hlow
  · rw [fastPacketCheck_single defs hlow, hflag, determineFastPacket,
      if_pos (by rw [lastSingleFrame_eq]; omega)]
  · rw [determineFastPacket, if_neg (by rw [lastSingleFrame_eq]; omega)] at hflag
    by_cases hmixed : 0x1F000 ≤ pgn ∧ pgn < 0x1FF00
    · rw [fastPacketCheck_mixed defs hmixed.1 hmixed.2,
        pgnDefinition_of_defines h hmixed.1 hmixed.2]
    · have hne : d.range.value ≠ .stdMixed := by
        obtain ⟨r, hr, hv⟩ : ∃ r, findRange pgn = .ok r ∧ r.value ≠ .stdMixed := by
          rcases Nat.lt_or_ge pgn 0x1F000 with h1 | h1
          · exact findRange_addressed hlow h1
          · exact findRange_proprietary (by omega) hle
        rw [hr, Except.ok.injEq] at hrange
        exact hrange ▸ hv
      rw [fastPacketCheck_fast defs hlow (by omega), hflag, if_pos hne]

end NavigationServer.Nmea2000Datamodel
