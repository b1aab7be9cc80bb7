/-
NavigationServer.Nmea2000.DecodeDispatchTheorems — which class a message goes to.

The dictionary keeps the last class of each PGN, and a class among the values of
the dictionary is taken whatever the manufacturer code is. So a message is
dispatched to the last class of its PGN (`getN2kDecodedObject_eq_ok`), and the
code in a payload is what the first field of the class puts there
(`getManufacturer_message`).
-/
import NavigationServer.CodeGeneration.EncodeTheorems
import NavigationServer.Nmea2000.DecodeDispatch

namespace NavigationServer.Nmea2000

open NavigationServer.Lib NavigationServer.CodeGeneration NavigationServer.Nmea2000Datamodel
open NavigationServer.RouterCore

variable {F : Type} [PythonFloat F]

/-! ## 1. Decoding raises something else -/

/-- Not the exception of a missing class. -/
def NotMissing {α : Type} (x : Except Exn α) : Prop := x ≠ .error .n2kMissingDecodeEncode

theorem notMissing_ok {α : Type} (a : α) : NotMissing (.ok a : Except Exn α) := fun h => by cases h

theorem notMissing_error {α : Type} {e : Exn} (h : e ≠ .n2kMissingDecodeEncode) :
    NotMissing (.error e : Except Exn α) :=
  fun heq => h (Except.error.inj heq)

theorem NotMissing.bind {α β : Type} {x : Except Exn α} {f : α → Except Exn β} (hx : NotMissing x)
    (hf : ∀ a, NotMissing (f a)) : NotMissing (x >>= f) := by
  intro h
  rcases bind_eq_error.mp h with h | ⟨a, -, h⟩
  · exact hx h
  · exact hf a h

theorem notMissing_item {α : Type} (l : List α) (i : Nat) : NotMissing (item l i) := by
  unfold item
  split
  · exact notMissing_ok _
  · exact notMissing_error (by decide)

omit [PythonFloat F] in
theorem notMissing_read (slots : Slots F) (keyword : String) : NotMissing (slots.read keyword) := by
  unfold Slots.read
  split
  · exact notMissing_ok _
  · exact notMissing_error (by decide)

theorem notMissing_source (vals : List Int) (word : Option Int) (source : Source) :
    NotMissing (source.eval vals word) := by
  unfold Source.eval
  split
  · exact notMissing_item _ _
  · split
    · exact notMissing_ok _
    · exact notMissing_error (by decide)

theorem notMissing_decodeStmt (vals : List Int) (word : Option Int) (slots : Slots F) (s : DecodeStmt) :
    NotMissing (s.run vals word slots) := by
  cases s with
  | setWord i =>
    exact (notMissing_item _ _).bind (fun _ => (notMissing_item _ _).bind (fun _ => notMissing_ok _))
  | raiseIfInvalid keyword invalid =>
    refine (notMissing_read _ _).bind (fun v => ?_)
    split
    · exact notMissing_error (by decide)
    · exact notMissing_ok _
  | checkValid | checkConvertFloat | toFloat | copy | bits =>
    exact (notMissing_source _ _ _).bind (fun _ => notMissing_ok _)

theorem notMissing_runDecodeStmts (vals : List Int) (word : Option Int) (slots : Slots F)
    (code : List DecodeStmt) : NotMissing (runDecodeStmts vals word slots code) := by
  induction code generalizing word slots with
  | nil => exact notMissing_ok _
  | cons s code ih => exact (notMissing_decodeStmt vals word slots s).bind (fun result => ih result.1 result.2)

section Decode

variable (printable : Char → Bool)

theorem notMissing_extractVarStr (payload : Bytes) (start : Nat) :
    NotMissing (extractVarStr printable payload start) := by
  unfold extractVarStr
  refine (notMissing_item _ _).bind (fun totalLen => (notMissing_item _ _).bind (fun kind => ?_))
  split
  · exact notMissing_ok _
  · split <;> exact notMissing_ok _

theorem notMissing_decodeStep (payload : Bytes) (st : DecodeState F) (step : DecodeStep) :
    NotMissing (step.run printable payload st) := by
  cases step with
  | unpackFrom format code =>
    unfold DecodeStep.run
    dsimp only
    split
    · exact notMissing_error (by decide)
    · exact (notMissing_runDecodeStmts _ _ _ _).bind (fun _ => notMissing_ok _)
  | cleanString length keyword => exact notMissing_ok _
  | extractVarStr keyword =>
    exact (notMissing_extractVarStr printable payload st.startByte).bind (fun _ => notMissing_ok _)

theorem notMissing_runDecode (payload : Bytes) (st : DecodeState F) (steps : List DecodeStep) :
    NotMissing (runDecode printable payload st steps) := by
  induction steps generalizing st with
  | nil => exact notMissing_ok _
  | cons step steps ih =>
    exact (notMissing_decodeStep printable payload st step).bind (fun next => ih next)

theorem notMissing_decodeItems (c : Codec) (payload : Bytes) (n startByte : Nat) :
    NotMissing (c.decodeItems (F := F) printable payload n startByte) := by
  induction n generalizing startByte with
  | zero => exact notMissing_ok _
  | succ n ih =>
    refine NotMissing.bind ?_ (fun result => (ih result.2).bind (fun _ => notMissing_ok _))
    exact (notMissing_runDecode printable _ _ _).bind (fun _ => notMissing_ok _)

theorem notMissing_decodePayload (c : GeneratedClass) (payload : Bytes) :
    NotMissing (c.decodePayload (F := F) printable payload) := by
  unfold GeneratedClass.decodePayload
  refine (notMissing_runDecode printable _ _ _).bind (fun st => ?_)
  split
  · exact notMissing_ok _
  · refine NotMissing.bind ?_ (fun count =>
      (notMissing_decodeItems printable _ _ _ _).bind (fun _ => notMissing_ok _))
    refine (notMissing_read _ _).bind (fun v => ?_)
    cases v with
    | int n => exact notMissing_ok _
    | float x => exact notMissing_error (by decide)
    | str s => exact notMissing_error (by decide)

end Decode

/-! ## 2. The class of a message -/

/-- The last class of a PGN. -/
def lastClass (classes : List GeneratedClass) (pgn : Nat) : Option GeneratedClass :=
  classes.reverse.find? (fun c => c.pgn = pgn)

/-- The generated dictionary keeps the last class of each PGN. -/
theorem find_generatedClasses (classes : List GeneratedClass) (pgn : Nat) :
    (generatedClasses classes).find pgn = (lastClass classes pgn).map .generated := by
  unfold ClassDictionary.find generatedClasses lastClass
  rw [← List.map_reverse, List.find?_map, Option.map_map]
  rfl

/-- A message of a proprietary PGN goes to the last class, or to none. -/
theorem getN2kDecodedObject_eq {printable : Char → Bool} {classes : List GeneratedClass}
    {msg : NMEA2000Msg} (hprop : isPgnProprietary msg.pgn = .ok true) :
    getN2kDecodedObject (F := F) printable (generatedClasses classes) msg
      = match lastClass classes msg.pgn with
        | none => .error .n2kMissingDecodeEncode
        | some c => (c.decodePayload printable msg.payload).map (fun o => (c, o)) := by
  unfold getN2kDecodedObject
  rw [find_generatedClasses]
  cases lastClass classes msg.pgn with
  | none => rfl
  | some c =>
    have hclass : classOf (.generated c) msg = .ok c := by
      unfold classOf
      rw [hprop]
      rfl
    dsimp only [Option.map_some]
    rw [hclass]
    change (c.decodePayload (F := F) printable msg.payload >>= fun o => pure (c, o)) = _
    cases c.decodePayload (F := F) printable msg.payload <;> rfl

theorem getN2kDecodedObject_eq_ok {printable : Char → Bool} {classes : List GeneratedClass}
    {msg : NMEA2000Msg} (hprop : isPgnProprietary msg.pgn = .ok true) (c : GeneratedClass) :
    (∃ o : Obj F, getN2kDecodedObject printable (generatedClasses classes) msg = .ok (c, o)) ↔
      lastClass classes msg.pgn = some c ∧
        (c.decodePayload (F := F) printable msg.payload).isOk = true := by
  rw [getN2kDecodedObject_eq hprop]
  cases hlast : lastClass classes msg.pgn with
  | none =>
    constructor
    · rintro ⟨o, h⟩
      cases h
    · rintro ⟨h, -⟩
      cases h
  | some c' =>
    dsimp only
    constructor
    · rintro ⟨o, h⟩
      cases hdecode : c'.decodePayload (F := F) printable msg.payload with
      | error e =>
        rw [hdecode] at h
        cases h
      | ok o' =>
        rw [hdecode] at h
        cases h
        exact ⟨rfl, by rw [hdecode]; rfl⟩
    · rintro ⟨heq, hdecode⟩
      cases heq
      cases hdecode' : c.decodePayload (F := F) printable msg.payload with
      | error e =>
        rw [hdecode'] at hdecode
        cases hdecode
      | ok o => exact ⟨o, rfl⟩

/-! ## 3. What the dispatch promises -/

/-- An object of a class of another manufacturer is not made, and where no
object is made a class is missing. -/
def Respects (F : Type) [PythonFloat F] (printable : Char → Bool) (classes : List GeneratedClass)
    (msg : NMEA2000Msg) : Prop :=
  match getN2kDecodedObject (F := F) printable (generatedClasses classes) msg with
  | .ok (c, _) => msg.getManufacturer = .ok c.manufacturerId
  | .error e => e = .n2kMissingDecodeEncode

/-- Some message of the PGN of the class becomes an object of it. -/
def Reachable (F : Type) [PythonFloat F] (printable : Char → Bool) (classes : List GeneratedClass)
    (c : GeneratedClass) : Prop :=
  ∃ msg : NMEA2000Msg, msg.pgn = c.pgn ∧
    ∃ o : Obj F, getN2kDecodedObject printable (generatedClasses classes) msg = .ok (c, o)

theorem respects_iff {printable : Char → Bool} {classes : List GeneratedClass} {msg : NMEA2000Msg}
    (hprop : isPgnProprietary msg.pgn = .ok true) :
    Respects F printable classes msg ↔ ∀ c, lastClass classes msg.pgn = some c →
      msg.getManufacturer = .ok c.manufacturerId ∧
        (c.decodePayload (F := F) printable msg.payload).isOk = true := by
  unfold Respects
  rw [getN2kDecodedObject_eq hprop]
  cases hlast : lastClass classes msg.pgn with
  | none =>
    refine iff_of_true rfl ?_
    intro c h
    cases h
  | some c =>
    dsimp only
    cases hdecode : c.decodePayload (F := F) printable msg.payload with
    | error e =>
      refine iff_of_false ?_ ?_
      · intro he
        exact notMissing_decodePayload printable c msg.payload (by rw [hdecode]; exact congrArg _ he)
      · intro h
        have hok := (h c rfl).2
        rw [hdecode] at hok
        cases hok
    | ok o =>
      constructor
      · intro hcode c' hc'
        cases hc'
        exact ⟨hcode, by rw [hdecode]; rfl⟩
      · intro h
        exact (h c rfl).1

theorem reachable_iff {printable : Char → Bool} {classes : List GeneratedClass} {c : GeneratedClass}
    (hprop : isPgnProprietary c.pgn = .ok true) :
    Reachable F printable classes c ↔ lastClass classes c.pgn = some c ∧
      ∃ payload, (c.decodePayload (F := F) printable payload).isOk = true := by
  constructor
  · rintro ⟨msg, hpgn, hobject⟩
    rw [← hpgn] at hprop
    obtain ⟨hlast, hdecode⟩ := (getN2kDecodedObject_eq_ok hprop c).mp hobject
    rw [hpgn] at hlast
    exact ⟨hlast, msg.payload, hdecode⟩
  · rintro ⟨hlast, payload, hdecode⟩
    exact ⟨.of c.pgn 0 0 0 payload, rfl, (getN2kDecodedObject_eq_ok hprop c).mpr ⟨hlast, hdecode⟩⟩

/-! ## 4. The code in a payload -/

/-- The definition begins with a manufacturer code, in `f`. -/
def BeginsWithCode (f : FieldDef) (d : NMEA2000Meta) : Prop :=
  f.bitLength = 11 ∧ ∃ fieldList repeated, FieldSetMeta.init fieldList repeated = .ok d.fields ∧
    ∃ b fields others, fieldList = .bitField b :: others ∧ b.fields = f :: fields

theorem segments_of_init {fieldList : List FieldItem} {repeated : Option RepeatedFieldSet}
    {m : FieldSetMeta} (h : FieldSetMeta.init fieldList repeated = .ok m) :
    analyzeAttributes fieldList = .ok m.segments := by
  unfold FieldSetMeta.init at h
  obtain ⟨segments, hsegments, h⟩ := bind_eq_ok.mp h
  rw [hsegments]
  split at h
  · cases h
    rfl
  · obtain ⟨_, -, h⟩ := bind_eq_ok.mp h
    obtain ⟨inner, -, h⟩ := bind_eq_ok.mp h
    split at h
    · cases h
      rfl
    · cases h

theorem message_eq_ok {c : GeneratedClass} {o : Obj F} {prio sa da : Nat} {msg : NMEA2000Msg}
    (h : message c o prio sa da = .ok msg) :
    ∃ payload, c.encodePayload o = .ok payload ∧ msg = .of c.pgn prio sa da payload := by
  unfold message at h
  obtain ⟨payload, hpayload, hdone⟩ := bind_eq_ok.mp h
  cases hdone
  exact ⟨payload, hpayload, rfl⟩

/-- **The code of a message is what the first field of its class puts there.** -/
theorem getManufacturer_message {d : NMEA2000Meta} {c : GeneratedClass} {f : FieldDef}
    (hclass : genClass d = .ok c) (hcode : BeginsWithCode f d) {o : Obj F} {prio sa da : Nat}
    {msg : NMEA2000Msg} (h : message c o prio sa da = .ok msg) :
    msg.getManufacturer = .ok (fieldBits o.slots f) := by
  obtain ⟨hlength, fieldList, repeated, hinit, hfirst⟩ := hcode
  obtain ⟨payload, hpayload, rfl⟩ := message_eq_ok h
  have hbegins : BeginsWith f fieldList := ⟨hfirst, by rw [hlength]; decide, by rw [hlength]; decide⟩
  obtain ⟨htwo, hlow⟩ := encodePayload_first hclass (segments_of_init hinit) hbegins hpayload
  unfold NMEA2000Msg.getManufacturer
  rw [if_neg (show ¬ (NMEA2000Msg.of c.pgn prio sa da payload).payload.length < 2 from Nat.not_lt.mpr htwo),
    ← hlow, hlength]
  rfl

/-! ## 5. The dispatch by manufacturer -/

/-- **The dispatch by manufacturer, exactly.** A payload carries the manufacturer
of its class when the field of the code holds it, and the dispatcher takes the
last class of a PGN whatever the code is. -/
theorem dispatch_byManufacturer (printable : Char → Bool) (classes : List GeneratedClass) :
    (∀ d c f, genClass d = .ok c → BeginsWithCode f d → ∀ (o : Obj F) prio sa da msg,
      message c o prio sa da = .ok msg →
        (msg.getManufacturer = .ok c.manufacturerId ↔ fieldBits o.slots f = c.manufacturerId)) ∧
    (∀ msg : NMEA2000Msg, isPgnProprietary msg.pgn = .ok true →
      (Respects F printable classes msg ↔ ∀ c, lastClass classes msg.pgn = some c →
        msg.getManufacturer = .ok c.manufacturerId ∧
          (c.decodePayload (F := F) printable msg.payload).isOk = true)) ∧
    (∀ c, isPgnProprietary c.pgn = .ok true →
      (Reachable F printable classes c ↔ lastClass classes c.pgn = some c ∧
        ∃ payload, (c.decodePayload (F := F) printable payload).isOk = true)) ∧
    (∀ c (o : Obj F) prio sa da msg, isPgnProprietary c.pgn = .ok true → message c o prio sa da = .ok msg →
      ((∃ o' : Obj F, getN2kDecodedObject printable (generatedClasses classes) msg = .ok (c, o')) ↔
        lastClass classes c.pgn = some c ∧
          (c.decodePayload (F := F) printable msg.payload).isOk = true)) := by
  refine ⟨?_, fun msg hprop => respects_iff hprop, fun c hprop => reachable_iff hprop, ?_⟩
  · intro d c f hclass hcode o prio sa da msg h
    rw [getManufacturer_message hclass hcode h]
    exact ⟨Except.ok.inj, congrArg _⟩
  · intro c o prio sa da msg hprop h
    obtain ⟨payload, -, rfl⟩ := message_eq_ok h
    exact getN2kDecodedObject_eq_ok hprop c

/-- The field of the manufacturer code of a definition, which has no key. -/
def manufacturerCode : FieldDef := ⟨.uintField, none, 0, 11, none, none, none⟩

/-- The fields of PGN 65379. -/
def pilotModeFields : List FieldItem :=
  [.bitField ⟨0, [manufacturerCode]⟩, .field (byte "sequence_id" 16), .field (byte "pilot_mode" 24),
    .field (byte "sub_mode" 32), .field (byte "pilot_mode_data" 40)]
where
  byte (keyword : String) (bitOffset : Nat) : FieldDef :=
    ⟨.uintField, some keyword, bitOffset, 8, none, none, none⟩

/-- The definition of PGN 65379. -/
def pilotMode : Except Exn NMEA2000Meta := do
  let fields ← FieldSetMeta.init pilotModeFields none
  return ⟨65379, "Raymarine: Pilot mode", true, 1851, false, fields⟩

theorem beginsWithCode_pilotMode {d : NMEA2000Meta} (h : pilotMode = .ok d) :
    BeginsWithCode manufacturerCode d := by
  unfold pilotMode at h
  obtain ⟨fields, hfields, hdone⟩ := bind_eq_ok.mp h
  cases hdone
  exact ⟨rfl, pilotModeFields, none, hfields, ⟨0, [manufacturerCode]⟩, [], _, rfl, rfl⟩

/-- An object of PGN 65379, all of whose slots have a one. -/
def pilotModeObject : Obj (Option ℚ) := ⟨fun _ => some (.int 1), []⟩

/-- The class of PGN 65379: no payload of it carries 1851, and every payload of
it comes back as an object. -/
theorem dispatch_byManufacturer_pilotMode : ∃ d c msg, pilotMode = .ok d ∧ genClass d = .ok c ∧
    message c pilotModeObject 3 1 255 = .ok msg ∧
    msg.getManufacturer ≠ .ok c.manufacturerId ∧ ¬ Respects (Option ℚ) (fun _ => true) [c] msg ∧
    Reachable (Option ℚ) (fun _ => true) [c] c ∧
    ∃ o' : Obj (Option ℚ), getN2kDecodedObject (fun _ => true) (generatedClasses [c]) msg = .ok (c, o') := by
  obtain ⟨d, hd⟩ : ∃ d, pilotMode = .ok d := ⟨_, rfl⟩
  obtain ⟨c, hclass⟩ : ∃ c, genClass d = .ok c := by
    cases hd
    exact ⟨_, rfl⟩
  obtain ⟨msg, hmsg⟩ : ∃ msg, message c pilotModeObject 3 1 255 = .ok msg := by
    cases hd
    cases hclass
    exact ⟨_, rfl⟩
  have hprop : isPgnProprietary c.pgn = .ok true := by
    cases hd
    cases hclass
    decide +kernel
  have hlast : lastClass [c] c.pgn = some c := by
    cases hd
    cases hclass
    decide +kernel
  have hdecode : (c.decodePayload (F := Option ℚ) (fun _ => true) msg.payload).isOk = true := by
    cases hd
    cases hclass
    cases hmsg
    rfl
  obtain ⟨hcode, hrespects, hreachable, hback⟩ := dispatch_byManufacturer (F := Option ℚ) (fun _ => true) [c]
  have hother : msg.getManufacturer ≠ .ok c.manufacturerId := by
    rw [ne_eq, hcode d c manufacturerCode hclass (beginsWithCode_pilotMode hd) _ 3 1 255 msg hmsg]
    cases hd
    cases hclass
    decide
  have hpgn : msg.pgn = c.pgn := by
    obtain ⟨payload, -, rfl⟩ := message_eq_ok hmsg
    rfl
  refine ⟨d, c, msg, hd, hclass, hmsg, hother, ?_, (hreachable c hprop).mpr ⟨hlast, _, hdecode⟩,
    (hback c _ 3 1 255 msg hprop hmsg).mpr ⟨hlast, hdecode⟩⟩
  rw [hrespects msg (by rw [hpgn]; exact hprop), hpgn]
  intro h
  exact hother (h c hlast).1

/-- The message of an object of PGN 65379 has the code 2047, and its own class
takes it for a message of 1851. -/
theorem not_respects_pilotMode : ∃ d c msg, pilotMode = .ok d ∧ genClass d = .ok c ∧
    message c pilotModeObject 3 1 255 = .ok msg ∧
    isPgnProprietary msg.pgn = .ok true ∧ msg.getManufacturer = .ok 2047 ∧
    c.manufacturerId = 1851 ∧ ¬ Respects (Option ℚ) (fun _ => true) [c] msg := by
  refine ⟨_, _, _, rfl, rfl, rfl, by decide +kernel, by decide +kernel, rfl, ?_⟩
  intro h
  have hcode := congrArg Except.toOption h
  revert hcode
  decide +kernel

end NavigationServer.Nmea2000
