/-
NavigationServer.Nmea2000Datamodel.PgnDefinition — the PGN ranges, one PGN
definition, and the table of definitions.

A PGN is a natural number. A `PGNDef` is built from its XML element by
`PGNDef.init`, and its fields say what the constructor makes sure of: the PGN
is in a range, a PDU1 PGN has no low byte, and the fast packet flag is the one
the constructor determines. The analysis of the XML fields is an input: of it
the table reads only how many fields there are and the manufacturer.

`PGNDefinitions` holds the table with its invariant: what is stored under a
number is a definition of that number.
-/
import Mathlib.Data.List.AList
import NavigationServer.RouterCommon.Exceptions

namespace NavigationServer.Nmea2000Datamodel

/-! ## 1. Ranges -/

inductive PDU where
  | pdu1
  | pdu2
  deriving DecidableEq, Repr

inductive RangeValue where
  | canJ1939
  | stdSingleFrameAddressed
  | propSingleFrameAddressed
  | stdSingleFrame
  | propSingleFrame
  | stdFastPacketAddressed
  | propFastPacketAddressed
  | stdMixed
  | propFastPacket
  deriving DecidableEq, Repr

structure PGNRange where
  start : Nat
  upTo : Nat
  pdu : PDU
  value : RangeValue
  description : String
  deriving DecidableEq, Repr

def pgnRange : List PGNRange :=
  [⟨0, 0xE7FF, .pdu1, .canJ1939, "CAN J1939 PGN"⟩,
    ⟨0xE800, 0xEEFF, .pdu1, .stdSingleFrameAddressed, "Standard single-frame addressed"⟩,
    ⟨0xEF00, 0xEFFF, .pdu1, .propSingleFrameAddressed, "Proprietary single-frame addressed"⟩,
    ⟨0xF000, 0xFEFF, .pdu2, .stdSingleFrame, "Standard single-frame non-addressed"⟩,
    ⟨0xFF00, 0xFFFF, .pdu2, .propSingleFrame, "Proprietary single-frame non-addressed"⟩,
    ⟨0x10000, 0x1EE00, .pdu1, .stdFastPacketAddressed, "Standard fast packet addressed"⟩,
    ⟨0x1EF00, 0x1EFFF, .pdu1, .propFastPacketAddressed, "Proprietary fast packet addressed"⟩,
    ⟨0x1F000, 0x1FEFF, .pdu2, .stdMixed,
      "Standard mixed (fast/single) packet non addressed"⟩,
    ⟨0x1FF00, 0x1FFFF, .pdu2, .propFastPacket, "Proprietary fast packet non-addressed"⟩]

/-- `pgn_range[4].to`. -/
def lastSingleFrame : Nat := (pgnRange.get ⟨4, by decide⟩).upTo

/-- The first range whose end is not below the PGN; the starts are not
looked at. -/
def findRange (pgn : Nat) : Except Exn PGNRange :=
  let ranges := if pgn ≤ lastSingleFrame then pgnRange.take 5 else pgnRange.drop 5
  match ranges.find? (fun r => pgn ≤ r.upTo) with
  | some r => .ok r
  | none => .error (.definitionError s!"Invalid PGN {pgn}")

def isPgnProprietary (pgn : Nat) : Except Exn Bool := do
  let range ← findRange pgn
  return range.value = .propSingleFrameAddressed ∨ range.value = .propSingleFrame ∨
    range.value = .propFastPacketAddressed ∨ range.value = .propFastPacket

/-- The PGN without the destination address, and the destination address. -/
def pgnPdu1Adjust (pgn : Nat) : Nat × Nat :=
  let pduFormat := (pgn >>> 8) &&& 0xFF
  if pduFormat < 240 then (pgn &&& 0x1FF00, pgn &&& 0xFF) else (pgn, 0xFF)

/-! ## 2. A definition -/

/-- What the field analysis of an element finds. The manufacturer is looked up
only for a proprietary PGN, and not finding it refuses the definition. -/
structure FieldAnalysis where
  nbFields : Nat
  manufacturerId : Except Exn Nat

/-- The element of a PGN. `fields` is `none` when it has no `Fields`. -/
structure PGNXml where
  pgn : Nat
  name : String
  scope : Option String
  byteLength : Option Int
  fields : Option (Except Exn FieldAnalysis)

/-- The determination of fast packet in `PGNDef.__init__`. -/
def determineFastPacket (id : Nat) (range : PGNRange) (byteLength : Int) (variableLength : Bool) :
    Bool :=
  if id ≤ lastSingleFrame then false
  else if range.value ≠ .stdMixed then true
  else variableLength || decide (byteLength > 8)

structure PGNDef where
  id : Nat
  name : String
  range : PGNRange
  proprietary : Bool
  manufacturerId : Option Nat
  byteLength : Int
  variableLength : Bool
  fastPacket : Bool
  nbFields : Nat
  findRange_id : findRange id = .ok range
  isPgnProprietary_id : isPgnProprietary id = .ok proprietary
  pdu1_low : (id >>> 8) &&& 0xFF < 240 → id &&& 0xFF = 0
  fastPacket_eq : fastPacket = determineFastPacket id range byteLength variableLength
  isSome_manufacturerId : proprietary = true → nbFields ≠ 0 → manufacturerId.isSome = true

/-- `PGNDef.__init__`. -/
def PGNDef.init (xml : PGNXml) : Except Exn PGNDef :=
  if xml.scope = some "Ignored" then .error (.definitionError "Marked as Ignored")
  else
    let id := xml.pgn
    if hlow : (id >>> 8) &&& 0xFF < 240 ∧ id &&& 0xFF ≠ 0 then
      .error (.definitionError s!"Invalid PGN {id}")
    else
      have pdu1Low : (id >>> 8) &&& 0xFF < 240 → id &&& 0xFF = 0 := fun h =>
        Decidable.of_not_not (fun h0 => hlow ⟨h, h0⟩)
      match hrange : findRange id, hprop : isPgnProprietary id with
      | .error e, _ => .error e
      | _, .error e => .error e
      | .ok range, .ok proprietary =>
          let byteLength := xml.byteLength.getD 0
          let variableLength := decide (byteLength ≤ 0)
          let build (nbFields : Nat) (manufacturerId : Option Nat)
              (h : proprietary = true → nbFields ≠ 0 → manufacturerId.isSome = true) : PGNDef :=
            { id, name := xml.name, range, proprietary, manufacturerId, byteLength, variableLength,
              fastPacket := determineFastPacket id range byteLength variableLength, nbFields,
              findRange_id := hrange, isPgnProprietary_id := hprop, pdu1_low := pdu1Low,
              fastPacket_eq := rfl, isSome_manufacturerId := h }
          match xml.fields with
          | none => .ok (build 0 none (by simp))
          | some (.error e) => .error e
          | some (.ok fields) =>
              if hp : proprietary then
                match fields.manufacturerId with
                | .error e => .error e
                | .ok m => .ok (build fields.nbFields (some m) (by simp))
              else .ok (build fields.nbFields none (by simp [hp]))

/-! ## 3. The table -/

/-- The variants of a proprietary PGN by manufacturer. -/
structure ProprietaryPGNSet where
  variants : AList (fun _ : Nat => PGNDef)
  default : Option PGNDef
  pgn : Nat

namespace ProprietaryPGNSet

def new (pgn : Nat) : ProprietaryPGNSet := ⟨∅, none, pgn⟩

def addVariant (s : ProprietaryPGNSet) (manufacturerId : Nat) (pgnDef : PGNDef) :
    ProprietaryPGNSet :=
  { s with
    variants := s.variants.insert manufacturerId pgnDef
    default := if s.default.isNone then some pgnDef else s.default }

/-- `none` stands for a set without a default, which no table holds. -/
def getVariant (s : ProprietaryPGNSet) (manufacturerId : Nat) : Except Exn (Option PGNDef) :=
  if manufacturerId = 0 then .ok s.default
  else
    match s.variants.lookup manufacturerId with
    | some d => .ok (some d)
    | none =>
        let pgn := s.pgn
        .error (.unknownPGN s!"PGN {pgn} => Unknown variant for manufacturer {manufacturerId} ")

/-- A set stored under `n`: its definitions are those of PGN `n`, and one of
them is the default. -/
structure WellFormed (s : ProprietaryPGNSet) (n : Nat) : Prop where
  default_isSome : s.default.isSome = true
  default_id : ∀ d ∈ s.default, d.id = n
  variants_id : ∀ m, ∀ d ∈ s.variants.lookup m, d.id = n

end ProprietaryPGNSet

/-- An entry of the table. -/
inductive PGNEntry where
  | definition (d : PGNDef)
  | proprietarySet (s : ProprietaryPGNSet)

/-- An entry stored under `n` is a set exactly when `n` is proprietary. -/
def PGNEntry.WellFormed (n : Nat) : PGNEntry → Prop
  | .definition d => d.id = n ∧ d.proprietary = false
  | .proprietarySet s => isPgnProprietary n = .ok true ∧ s.WellFormed n

structure PGNDefinitions where
  pgnDefs : AList (fun _ : Nat => PGNEntry)
  wellFormed : ∀ n, ∀ e ∈ pgnDefs.lookup n, e.WellFormed n

namespace PGNDefinitions

def empty : PGNDefinitions := ⟨∅, by simp⟩

/-- Store an entry. -/
def store (defs : PGNDefinitions) (n : Nat) (e : PGNEntry) (he : e.WellFormed n) :
    PGNDefinitions where
  pgnDefs := defs.pgnDefs.insert n e
  wellFormed := by
    intro k e' he'
    rcases eq_or_ne k n with rfl | hk
    · rw [AList.lookup_insert, Option.mem_some_iff] at he'
      rwa [← he']
    · rw [AList.lookup_insert_ne hk] at he'
      exact defs.wellFormed k e' he'

/-- The set a variant of `n` is added to: the stored one, or a new one. -/
def setOf (defs : PGNDefinitions) (n : Nat) : ProprietaryPGNSet :=
  match defs.pgnDefs.lookup n with
  | some (.proprietarySet s) => s
  | _ => ProprietaryPGNSet.new n

theorem wellFormed_addVariant (defs : PGNDefinitions) (d : PGNDef) (m : Nat) :
    ((defs.setOf d.id).addVariant m d).WellFormed d.id := by
  obtain ⟨s, hs, hdef, hvar⟩ : ∃ s, s = defs.setOf d.id ∧ (∀ x ∈ s.default, x.id = d.id) ∧
      ∀ m, ∀ x ∈ s.variants.lookup m, x.id = d.id := by
    refine ⟨_, rfl, ?_⟩
    unfold setOf
    split
    · rename_i s hlook
      have hwf := (defs.wellFormed d.id _ hlook).2
      exact ⟨hwf.default_id, hwf.variants_id⟩
    · simp [ProprietaryPGNSet.new]
  rw [← hs]
  refine ⟨?_, ?_, ?_⟩
  · cases h : s.default <;> simp [ProprietaryPGNSet.addVariant, h]
  · intro x hx
    cases h : s.default with
    | none => rw [← (by simpa [ProprietaryPGNSet.addVariant, h] using hx : d = x)]
    | some y => exact hdef x (by simpa [ProprietaryPGNSet.addVariant, h] using hx)
  · intro k x hx
    rcases eq_or_ne k m with rfl | hk
    · rw [← (by simpa [ProprietaryPGNSet.addVariant] using hx : d = x)]
    · exact hvar k x (by simpa [ProprietaryPGNSet.addVariant, AList.lookup_insert_ne hk] using hx)

/-- One element of the XML file. A definition that is refused, has no field or
is a duplicate is passed over. -/
def addDefinition (defs : PGNDefinitions) (xml : PGNXml) : PGNDefinitions :=
  match PGNDef.init xml with
  | .error _ => defs
  | .ok pgn =>
      if hf : pgn.nbFields = 0 then defs
      else if hp : pgn.proprietary then
        let m := pgn.manufacturerId.get (pgn.isSome_manufacturerId hp hf)
        defs.store pgn.id (.proprietarySet ((defs.setOf pgn.id).addVariant m pgn))
          ⟨hp ▸ pgn.isPgnProprietary_id, defs.wellFormed_addVariant pgn m⟩
      else
        match defs.pgnDefs.lookup pgn.id with
        | none => defs.store pgn.id (.definition pgn) ⟨rfl, by simpa using hp⟩
        | some _ => defs

/-- `PGNDefinitions.__init__`. -/
def init (xmls : List PGNXml) : PGNDefinitions := xmls.foldl addDefinition empty

def pgnDefinition (defs : PGNDefinitions) (number manufacturerId : Nat) :
    Except Exn (Option PGNDef) :=
  match defs.pgnDefs.lookup number with
  | none => .error (.unknownPGN s!"Unknown PGN {number}")
  | some (.proprietarySet s) => s.getVariant manufacturerId
  | some (.definition d) => .ok (some d)

end PGNDefinitions

/-! ## 4. The checks of the receive paths -/

/-- `PGNDef.fast_packet_check`, on the table of definitions. A set without a
default has no `fast_packet`. -/
def fastPacketCheck (defs : PGNDefinitions) (pgn : Nat) : Except Exn Bool := do
  if pgn ≤ lastSingleFrame then return false
  let r ← findRange pgn
  if r.value ≠ .stdMixed then return true
  match ← defs.pgnDefinition pgn 0 with
  | some d => return d.fastPacket
  | none => throw .attributeError

/-- `find_pgn(pgn).fast_packet()`. -/
def definedFastPacket (defs : PGNDefinitions) (pgn : Nat) : Except Exn Bool := do
  match ← defs.pgnDefinition pgn 0 with
  | some d => return d.fastPacket
  | none => throw .attributeError

def PGNDef.pgnService : List Nat :=
  [59392, 59904, 60928, 65240, 126208, 126464, 126993, 126996, 126998]

/-- `PGNDef.pgn_for_controller`. The bound is `pgn_range[0].to`. -/
def pgnForController (pgn : Nat) : Bool :=
  decide (pgn ≤ 0xE7FF) || decide (pgn ∈ PGNDef.pgnService)

end NavigationServer.Nmea2000Datamodel
