/-
NavigationServer.Gnss.SatsInView — PGN 129540 on the wire, and the cycles of GSV
sentences that it stands for.

`encodePayload` is the generated encoder: a head of three bytes and twelve bytes
for each satellite, in a buffer of 223. A `GsvCycle` is what a receiver tells of
one constellation: the satellites, spread over the sentences 1..n. What arrives
is a list of `Heard`, where a GSV sentence says which sentence of which cycle it
is, so sentences may be missing, repeated and in any order. `Reflected` says that
a message has the satellites of a cycle, with angles converted to radian once.
-/
import NavigationServer.Gnss.GnssData
import NavigationServer.Lib.Struct

namespace NavigationServer.Gnss

open NavigationServer.Lib

variable {K : Type} [Field K]

/-! ## 1. Encoding -/

section Encoding

-- `int`, on numbers with a fraction
variable (int : K → Int)

def defaultBufferSize : Nat := 31 * 7 + 6

/-- `convert_to_int`. -/
def convertToInt (value : Option K) (invalidMask : Int) (scale offset : K) : Int :=
  match value with
  | none => invalidMask
  | some value => int ((value - offset) / scale)

/-- `<BhHHiB`. -/
def satelliteFormat : List Slot :=
  [⟨1, false⟩, ⟨2, true⟩, ⟨2, false⟩, ⟨2, false⟩, ⟨4, true⟩, ⟨1, false⟩]

/-- `<BBB`. -/
def satsInViewFormat : List Slot := [⟨1, false⟩, ⟨1, false⟩, ⟨1, false⟩]

/-- `pack_into`. -/
def structPackInto (format : List Slot) (buffer : Bytes) (offset : Nat) (values : List Int) :
    Except Exn Bytes :=
  match packInto format buffer offset values with
  | some buffer => .ok buffer
  | none => .error .structError

/-- The `encode_payload` of a satellite: the buffer, and where the next one starts. -/
def SatellitesInView.encodePayload (sat : SatellitesInView K) (buffer : Bytes) (startByte : Nat) :
    Except Exn (Bytes × Nat) := do
  let v0 := convertToInt int sat.elevation 0x7fff (1 / 10000) 0
  let v1 := convertToInt int sat.azimuth 0xffff (1 / 10000) 0
  let v2 := convertToInt int sat.cno 0xffff (1 / 100) 0
  let v3 : Nat := (sat.status &&& 0xf) <<< 0 ||| 0xf <<< 4
  let buffer ← structPackInto satelliteFormat buffer (0 + startByte) [sat.svn, v0, v1, v2, 0x7fffffff, v3]
  return (buffer, 12 + startByte)

def encodeSatellites : List (SatellitesInView K) → Bytes → Nat → Except Exn (Bytes × Nat)
  | [], buffer, startByte => .ok (buffer, startByte)
  | sat :: satellites, buffer, startByte => do
      let (buffer, startByte) ← sat.encodePayload int buffer startByte
      encodeSatellites satellites buffer startByte

def Pgn129540.encodePayload (message : Pgn129540 K) : Except Exn Bytes := do
  let v0 : Nat := (message.mode &&& 0x3) <<< 0 ||| 0x3f <<< 2
  let buffer ← structPackInto satsInViewFormat (List.replicate defaultBufferSize 0) 0
    [message.sequenceId, v0, message.satsInView]
  let (buffer, startByte) ← encodeSatellites int message.satellitesData buffer 3
  return buffer.take startByte

theorem length_structPackInto {format : List Slot} {buffer buffer' : Bytes} {offset : Nat}
    {values : List Int} (h : structPackInto format buffer offset values = .ok buffer') :
    buffer'.length = buffer.length ∧ offset + calcsize format ≤ buffer.length := by
  unfold structPackInto packInto at h
  split at h
  · rename_i hpack
    split at hpack
    · rename_i hfits
      obtain ⟨data, hdata, rfl⟩ := Option.map_eq_some_iff.mp hpack
      cases h
      have hlength := length_pack hdata
      simp only [List.length_append, List.length_take, List.length_drop]
      omega
    · cases hpack
  · cases h

theorem encodeSatellites_eq_ok {satellites : List (SatellitesInView K)} {buffer : Bytes} {startByte : Nat}
    {result : Bytes × Nat} (hstart : startByte ≤ buffer.length)
    (h : encodeSatellites int satellites buffer startByte = .ok result) :
    result.1.length = buffer.length ∧ result.2 = startByte + 12 * satellites.length ∧
      result.2 ≤ buffer.length := by
  induction satellites generalizing buffer startByte with
  | nil =>
    cases h
    exact ⟨rfl, rfl, hstart⟩
  | cons sat satellites ih =>
    unfold encodeSatellites at h
    obtain ⟨next, hsat, hrest⟩ := bind_eq_ok.mp h
    unfold SatellitesInView.encodePayload at hsat
    obtain ⟨buffer', hpack, hnext⟩ := bind_eq_ok.mp hsat
    cases hnext
    obtain ⟨hlength, hfits⟩ := length_structPackInto hpack
    have hsize : calcsize satelliteFormat = 12 := rfl
    obtain ⟨hlength', hend, hle⟩ := ih (by omega) hrest
    rw [List.length_cons]
    omega

/-- **A payload has three bytes and twelve for each satellite, 223 at most.** -/
theorem length_encodePayload {message : Pgn129540 K} {payload : Bytes}
    (h : message.encodePayload int = .ok payload) :
    payload.length = 3 + 12 * message.satellitesData.length ∧ payload.length ≤ 223 := by
  unfold Pgn129540.encodePayload at h
  obtain ⟨buffer, hhead, hrest⟩ := bind_eq_ok.mp h
  obtain ⟨result, hsatellites, hpayload⟩ := bind_eq_ok.mp hrest
  cases hpayload
  obtain ⟨hlength, hfits⟩ := length_structPackInto hhead
  rw [List.length_replicate] at hlength
  have hsize : defaultBufferSize = 223 := rfl
  obtain ⟨hlength', hend, hle⟩ := encodeSatellites_eq_ok int (by omega) hsatellites
  rw [List.length_take]
  omega

end Encoding

/-! ## 2. Cycles -/

/-- The fields of one satellite. -/
structure GsvSat where
  prn : Bytes
  elevation : Bytes
  azimuth : Bytes
  snr : Bytes
  deriving DecidableEq, Repr

def GsvSat.fields (sat : GsvSat) : List Bytes := [sat.prn, sat.elevation, sat.azimuth, sat.snr]

def GsvSat.svn (sat : GsvSat) : Int := (intOfDecimal sat.prn).getD 0

/-- What a receiver tells of a constellation. `parts` are the satellites of each
sentence, and `count` is the field with their number. -/
structure GsvCycle where
  talker : String
  count : Bytes
  parts : List (List GsvSat)
  signal : Bytes
  deriving DecidableEq, Repr

namespace GsvCycle

def satellites (c : GsvCycle) : List GsvSat := c.parts.flatten

def part (c : GsvCycle) (number : Nat) : List GsvSat := c.parts.getD number []

/-- The sentences of a cycle are numbered from 1 on. -/
def sentence (c : GsvCycle) (number : Nat) : Sentence where
  talker := c.talker
  formatter := "GSV"
  fields := [decimal c.parts.length, decimal (number + 1), c.count]
    ++ ((c.part number).flatMap GsvSat.fields ++ [c.signal])

end GsvCycle

/-- A sentence that arrives: one of a cycle, numbered from 0 here, or one of
another kind. -/
inductive Heard where
  | gsv (cycle number : Nat)
  | other (s : Sentence)
  deriving DecidableEq, Repr

def Heard.sentence (cycles : Nat → GsvCycle) : Heard → Sentence
  | .gsv k number => (cycles k).sentence number
  | .other s => s

/-- Every sentence of the cycle was heard. -/
def Complete (cycles : Nat → GsvCycle) (k : Nat) (heard : List Heard) : Prop :=
  ∀ number < (cycles k).parts.length, Heard.gsv k number ∈ heard

section Values

variable (float : Bytes → Option K) (pi : K)

/-- A field that is empty tells no number. -/
def GsvSat.number (field : Bytes) : Option K := if field.isEmpty then none else float field

/-- What the fields of a satellite say, with the angles in radian. -/
def GsvSat.value (sat : GsvSat) : SatellitesInView K where
  svn := sat.svn
  elevation := (number float sat.elevation).map (· * degToRadian pi)
  azimuth := (number float sat.azimuth).map (· * degToRadian pi)
  cno := number float sat.snr
  status := 0

/-- A satellite without its status. -/
def SatellitesInView.bare (sat : SatellitesInView K) : SatellitesInView K := { sat with status := 0 }

/-- The message has the satellites of the cycle and their number. -/
def GsvCycle.Reflected (c : GsvCycle) (message : Pgn129540 K) : Prop :=
  message.satsInView = message.satellitesData.length ∧
    (message.satellitesData.map SatellitesInView.bare).Perm (c.satellites.map (GsvSat.value float pi))

/-- A field is empty or a number. -/
def Readable (field : Bytes) : Prop := field.isEmpty ∨ (float field).isSome

/-- The fields can be read, and no sentence has more than four satellites. -/
structure GsvCycle.WellFormed (c : GsvCycle) : Prop where
  short : ∀ part ∈ c.parts, part.length ≤ 4
  count : (intOfDecimal c.count).isSome
  prn : ∀ sat ∈ c.satellites, (intOfDecimal sat.prn).isSome
  numbers : ∀ sat ∈ c.satellites,
    Readable float sat.elevation ∧ Readable float sat.azimuth ∧ Readable float sat.snr

def Heard.WellFormed (cycles : Nat → GsvCycle) : Heard → Prop
  | .gsv k number => (cycles k).WellFormed float ∧ number < (cycles k).parts.length
  | .other s => s.formatter ≠ "GSV"

/-- Each message that comes out of a run, fed with what is heard, has the
satellites of a complete cycle of the talker it comes from, and its payload fits
a fast packet. -/
def ReflectsCycles {σ ι : Type} (m : Machine σ ι (Option (Pgn129540 K))) (init : σ)
    (int : K → Int) (cycles : Nat → GsvCycle) (heard : ι → Heard) (inputs : List ι) : Prop :=
  ∀ sofar i rest message, inputs = sofar ++ i :: rest →
    (m.step (m.final init sofar) i).1 = some message →
      (∃ k, Complete cycles k ((sofar ++ [i]).map heard) ∧
        (cycles k).talker = ((heard i).sentence cycles).talker ∧
        (cycles k).Reflected float pi message) ∧
      ∀ payload, message.encodePayload int = .ok payload → payload.length ≤ 223

/-! ## 3. Conditions -/

/-- No degree is told but 0, so converting the angles once more changes nothing. -/
def GsvSat.Level (sat : GsvSat) : Prop :=
  (sat.elevation.isEmpty ∨ float sat.elevation = some 0) ∧
    (sat.azimuth.isEmpty ∨ float sat.azimuth = some 0)

/-- The count is the number of the satellites, and each of them is level. -/
structure GsvCycle.Plain (c : GsvCycle) : Prop where
  count : intOfDecimal c.count = some (c.satellites.length : Int)
  level : ∀ sat ∈ c.satellites, sat.Level float

/-- No satellite is listed twice. -/
def GsvCycle.Distinct (c : GsvCycle) : Prop := (c.satellites.map GsvSat.svn).Nodup

instance [DecidableEq K] (sat : GsvSat) : Decidable (sat.Level float) := by
  unfold GsvSat.Level
  infer_instance

instance [DecidableEq K] (c : GsvCycle) : Decidable (c.Plain float) :=
  decidable_of_iff (intOfDecimal c.count = some (c.satellites.length : Int) ∧
      ∀ sat ∈ c.satellites, sat.Level float)
    ⟨fun h => ⟨h.1, h.2⟩, fun h => ⟨h.count, h.level⟩⟩

instance (c : GsvCycle) : Decidable c.Distinct :=
  inferInstanceAs (Decidable (List.Nodup _))

end Values

/-! ## 4. Reading a sentence -/

section Reading

variable (float : Bytes → Option K) (pi : K)

omit [Field K] in
theorem optionalFloat_of_readable {field : Bytes} (h : Readable float field) :
    optionalFloat float field = .ok (GsvSat.number float field) := by
  unfold optionalFloat GsvSat.number toFloat
  rcases h with h | h
  · rw [if_pos h, if_pos h]
  · split
    · rfl
    · obtain ⟨x, hx⟩ := Option.isSome_iff_exists.mp h
      rw [hx]
      rfl

/-- The fields of a satellite are read. -/
theorem readSatellite_fields {sat : GsvSat} (hprn : (intOfDecimal sat.prn).isSome)
    (hnumbers : Readable float sat.elevation ∧ Readable float sat.azimuth ∧ Readable float sat.snr)
    (front back : List Bytes) :
    GNSSDataManager.readSatellite float pi (front ++ (sat.fields ++ back)) front.length
      = .ok (sat.value float pi) := by
  obtain ⟨n, hn⟩ := Option.isSome_iff_exists.mp hprn
  obtain ⟨helevation, hazimuth, hsnr⟩ := hnumbers
  have hfields : sat.fields ++ back
      = sat.prn :: sat.elevation :: sat.azimuth :: sat.snr :: back := rfl
  unfold GNSSDataManager.readSatellite
  rw [hfields, item_append, item_append_add, item_append_add, item_append_add]
  simp only [item, List.getElem?_cons_succ, List.getElem?_cons_zero]
  simp only [bind, Except.bind, pure, Except.pure, int10, hn, optionalFloat_of_readable float helevation,
    optionalFloat_of_readable float hazimuth, optionalFloat_of_readable float hsnr]
  simp [GsvSat.value, GsvSat.svn, hn]

/-- One field is no satellite. -/
theorem readSatellite_last (front : List Bytes) (field : Bytes) :
    ∃ e, GNSSDataManager.readSatellite float pi (front ++ [field]) front.length = .error e := by
  unfold GNSSDataManager.readSatellite
  rw [item_append, item_append_add]
  simp only [bind, Except.bind]
  cases int10 field with
  | error e => exact ⟨e, rfl⟩
  | ok n => exact ⟨.indexError, by simp [item]⟩

end Reading

end NavigationServer.Gnss
