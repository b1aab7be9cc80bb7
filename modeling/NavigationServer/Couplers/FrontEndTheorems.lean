/-
NavigationServer.Couplers.FrontEndTheorems — the four receive paths on the same
CAN traffic.

A CAN frame is given to each path in its own format: as it is, as a log record,
as a Shipmodul sentence, as a Yacht Devices line. `frontEnds_agree` : from new
couplers, over any traffic for the addresses of the CAN interface, the paths
deliver the same messages as long as every frame meets `AgreedFrame` in the
state of the CAN interface that it comes to.
-/
import NavigationServer.Couplers.FrontEnds
import NavigationServer.Couplers.Ydn2kCouplerTheorems
import NavigationServer.RouterCore.Nmea2000MsgTheorems

namespace NavigationServer.Couplers

open NavigationServer.Lib
open NavigationServer.Nmea2000
open NavigationServer.Nmea2000Datamodel
open NavigationServer.RouterCore
open NavigationServer.CanInterface
open NavigationServer.LogReplay
open FastPacketHandler (counterOf seqOf)

/-! ## 1. The formats -/

/-- A log record: the identifier, a comma, the data. -/
def logFrame (m : CanMessage) : Bytes :=
  hexNumber .upper 8 m.arbitrationId ++ comma :: hexBytes .lower m.data

def attributeWord (m : CanMessage) : Nat := m.prio * 4096 + m.data.length * 256 + m.sa

/-- A `$MXPGN` sentence. -/
def mxpgnSentence (m : CanMessage) : Bytes :=
  sentence (36 :: [77, 88, 80, 71, 78] ++ comma :: [comma].intercalate
    [hexNumber .upper 6 (pgnField m), hexNumber .upper 4 (attributeWord m),
      hexBytes .upper m.data.reverse])

/-- A line for a received frame. -/
def ydLine (time : Bytes) (m : CanMessage) : Bytes :=
  [YDCoupler.blank].intercalate
    (time :: [82] :: hexNumber .upper 8 m.arbitrationId :: m.data.map (hexByte .upper))

/-! ## 2. The log record -/

def logStep (defs : PGNDefinitions) (c : RawLogCoupler) (now : Time) (m : CanMessage) :
    Outcome × RawLogCoupler :=
  let (r, c') := c.processCanFrame defs now (logFrame m)
  (outcomeOf r, c')

theorem processCanFrame_logFrame {defs : PGNDefinitions} {c : RawLogCoupler} (now : Time)
    {m : CanMessage} (hid : m.arbitrationId < 2 ^ 29) (hwhite : c.pgnWhiteList = none)
    (hblack : c.saBlackList = []) :
    c.processCanFrame defs now (logFrame m)
      = c.reassemble defs now m.pgn m.prio m.sa m.da m.data := by
  have hlen := length_hexNumber .upper 8 m.arbitrationId
  have hhead : slice (logFrame m) 0 8 = hexNumber .upper 8 m.arbitrationId := by
    rw [show (8 : Int) = ((8 : Nat) : Int) from rfl, slice_zero, logFrame, List.take_left' hlen]
  have htail : (logFrame m).drop 9 = hexBytes .lower m.data := by
    rw [logFrame, List.append_cons, List.drop_left' (by simp)]
  rw [RawLogCoupler.processCanFrame, hhead, htail, int16_hexNumber .upper (by decide),
    fromhex_hexBytes, Nat.mod_eq_of_lt (by omega)]
  simp only [hwhite, hblack]
  rw [if_neg (by simp), if_neg (by simp)]
  rfl

theorem logStep_eq (defs : PGNDefinitions) {c : RawLogCoupler} (now : Time) {m : CanMessage}
    (hid : m.arbitrationId < 2 ^ 29) (hwhite : c.pgnWhiteList = none)
    (hblack : c.saBlackList = []) :
    logStep defs c now m
      = (outcomeOf (c.reassemble defs now m.pgn m.prio m.sa m.da m.data).1,
          (c.reassemble defs now m.pgn m.prio m.sa m.da m.data).2) := by
  unfold logStep
  rw [processCanFrame_logFrame now hid hwhite hblack]

/-! ## 3. The sentence -/

def shipStep (defs : PGNDefinitions) (c : ShipModulInterface) (now : Time) (m : CanMessage) :
    Outcome × ShipModulInterface :=
  match NMEA0183Msg.init (mxpgnSentence m) true with
  | .error e => (.error e, c)
  | .ok m0183 =>
      let (r, c') := c.mxpgnDecode defs now m0183
      (outcomeOf r, c')

theorem comma_notMem_hexNumber (c : LetterCase) (w n : Nat) : comma ∉ hexNumber c w n :=
  fun h => (isHexDigit_of_mem_hexNumber h).ne (by decide) rfl

theorem comma_notMem_hexBytes (c : LetterCase) (data : Bytes) : comma ∉ hexBytes c data :=
  fun h => (isHexDigit_of_mem_hexBytes h).ne (by decide) rfl

/-- The fields of the sentence. -/
theorem init_mxpgnSentence (m : CanMessage) :
    ∃ m0183, NMEA0183Msg.init (mxpgnSentence m) true = .ok m0183 ∧ m0183.fields =
      [hexNumber .upper 6 (pgnField m), hexNumber .upper 4 (attributeWord m),
        hexBytes .upper m.data.reverse] := by
  obtain ⟨m0183, hinit, -, hfields⟩ := @init_sentence 36 [77, 88, 80, 71, 78]
    [hexNumber .upper 6 (pgnField m), hexNumber .upper 4 (attributeWord m),
      hexBytes .upper m.data.reverse]
    (by simp) (by decide) (by simp) (by
      intro f hf
      rcases List.mem_cons.mp hf with rfl | hf
      · exact comma_notMem_hexNumber _ _ _
      · rcases List.mem_pair.mp hf with rfl | rfl
        · exact comma_notMem_hexNumber _ _ _
        · exact comma_notMem_hexBytes _ _)
  exact ⟨m0183, hinit, hfields⟩

theorem mxpgnFields_mxpgnSentence {c : ShipModulInterface} {m : CanMessage} {m0183 : NMEA0183Msg}
    (hmode : c.mode = .nmea2000) (hfield : pgnField m = m.pgn) (hlen : m.data.length ≤ 8)
    (hfields : m0183.fields = [hexNumber .upper 6 (pgnField m), hexNumber .upper 4 (attributeWord m),
      hexBytes .upper m.data.reverse]) :
    ∃ da, c.mxpgnFields m0183 = .ok (m.pgn, m.prio, m.sa, da, m.data) := by
  have hadjust : (pgnPdu1Adjust (pgnField m)).1 = m.pgn := by
    rw [hfield]
    exact pgnPdu1Adjust_valid (validPgn_pgnPdu1Adjust m.rawPgn_lt)
  have hpgn : pgnField m % 16 ^ 6 = pgnField m := by
    rw [pgnField_eq]
    omega
  have hsa : m.sa < 256 := by
    rw [sa_eq]
    omega
  have hprio : m.prio < 8 := by
    rw [prio_eq]
    omega
  have hword : attributeWord m % 16 ^ 4 = attributeWord m := by
    rw [attributeWord]
    omega
  have hattrPrio : (attributeWord m >>> 12) &&& 7 = m.prio := by
    rw [Nat.shiftRight_eq_div_pow, show (7 : Nat) = 2 ^ 3 - 1 from rfl, and_mask, attributeWord]
    omega
  have hattrSa : attributeWord m &&& 0xFF = m.sa := by
    rw [show (0xFF : Nat) = 2 ^ 8 - 1 from rfl, and_mask, attributeWord]
    omega
  refine ⟨(pgnPdu1Adjust (pgnField m)).2, ?_⟩
  rw [ShipModulInterface.mxpgnFields, hfields]
  simp only [item, List.getElem?_cons_zero, List.getElem?_cons_succ, bind, Except.bind,
    int16_hexNumber LetterCase.upper (show 0 < 6 by decide),
    int16_hexNumber LetterCase.upper (show 0 < 4 by decide), fromhex_hexBytes, hpgn, hword, hmode,
    hattrPrio, hattrSa]
  rw [if_neg (by simp), hadjust, List.reverse_reverse]
  rfl

theorem shipStep_eq (defs : PGNDefinitions) {c : ShipModulInterface} (now : Time) {m : CanMessage}
    (hmode : c.mode = .nmea2000) (hfield : pgnField m = m.pgn) (hlen : m.data.length ≤ 8) :
    ∃ da, shipStep defs c now m
      = (outcomeOf (c.reassemble defs now m.pgn m.prio m.sa da m.data).1,
          (c.reassemble defs now m.pgn m.prio m.sa da m.data).2) := by
  obtain ⟨m0183, hinit, hfields⟩ := init_mxpgnSentence m
  obtain ⟨da, hda⟩ := mxpgnFields_mxpgnSentence hmode hfield hlen hfields
  refine ⟨da, ?_⟩
  rcases hr : c.reassemble defs now m.pgn m.prio m.sa da m.data with ⟨r, c'⟩
  have hdecode : c.mxpgnDecode defs now m0183 = (r, c') := by
    rw [ShipModulInterface.mxpgnDecode, hda]
    exact hr
  unfold shipStep
  rw [hinit]
  simp only [hdecode]

/-! ## 4. The line -/

/-- A call of `decode_frame` without a white list. -/
def ydStep (defs : PGNDefinitions) (c : YDCoupler) (now : Time) (time : Bytes) (m : CanMessage) :
    Outcome × YDCoupler :=
  let (r, c') := c.decodeFrame defs now (ydLine time m) none
  match r with
  | .ok none => (.ok none, c')
  | .ok (some msg) => (.ok (some (delivery msg)), c')
  | .error e => (outcomeOf (.error e), c')

theorem ydLine_eq (time : Bytes) (m : CanMessage) :
    ydLine time m = YDCoupler.rawLine .upper .upper time [82] m := rfl

theorem ydStep_eq (defs : PGNDefinitions) (c : YDCoupler) (now : Time) {time : Bytes}
    {m : CanMessage} (hid : m.arbitrationId < 2 ^ 29) (hne : m.data ≠ [])
    (htime : YDCoupler.blank ∉ time) (hhead : time.head? ≠ some 4) :
    ydStep defs c now time m
      = (outcomeOf (c.reassemble defs now (pgnField m) m.prio m.sa m.data).1,
          (c.reassemble defs now (pgnField m) m.prio m.sa m.data).2) := by
  rw [ydStep, ydLine_eq, YDCoupler.decodeFrame_received defs c now .upper hid hne htime hhead]
  generalize c.reassemble defs now (pgnField m) m.prio m.sa m.data = result
  obtain ⟨r, c'⟩ := result
  cases r <;> rfl

-- From here on the steps are known by their equations.
attribute [irreducible] logStep shipStep ydStep

/-! ## 5. The same traffic -/

/-- A CAN frame on its way to the four paths: what their clocks read when it
comes, and the time in the line. -/
structure FrontEndInput where
  msg : CanMessage
  canNow : Time
  logNow : Time
  shipNow : Time
  ydNow : Time
  ydTime : Bytes

def canPath (defs : PGNDefinitions) : Machine SocketCANInterface FrontEndInput Outcome where
  step s i := canStep defs s i.canNow i.msg

def logPath (defs : PGNDefinitions) : Machine RawLogCoupler FrontEndInput Outcome where
  step c i := logStep defs c i.logNow i.msg

def shipPath (defs : PGNDefinitions) : Machine ShipModulInterface FrontEndInput Outcome where
  step c i := shipStep defs c i.shipNow i.msg

def ydPath (defs : PGNDefinitions) : Machine YDCoupler FrontEndInput Outcome where
  step c i := ydStep defs c i.ydNow i.ydTime i.msg

theorem logPath_step (defs : PGNDefinitions) (c : RawLogCoupler) (i : FrontEndInput) :
    (logPath defs).step c i = logStep defs c i.logNow i.msg := rfl

theorem shipPath_step (defs : PGNDefinitions) (c : ShipModulInterface) (i : FrontEndInput) :
    (shipPath defs).step c i = shipStep defs c i.shipNow i.msg := rfl

theorem ydPath_step (defs : PGNDefinitions) (c : YDCoupler) (i : FrontEndInput) :
    (ydPath defs).step c i = ydStep defs c i.ydNow i.ydTime i.msg := rfl

/-- A frame of the traffic: for an accepted address, with one to eight bytes,
of a defined PGN that is not one of the ISO transport. -/
structure InTraffic (defs : PGNDefinitions) (addresses : List Nat) (i : FrontEndInput) : Prop where
  id_lt : i.msg.arbitrationId < 2 ^ 29
  data_ne_nil : i.msg.data ≠ []
  data_le : i.msg.data.length ≤ 8
  da_mem : i.msg.da ∈ addresses
  defined : ∃ d, defs.Defines i.msg.pgn d
  not_iso : i.msg.pgn ≠ 60416 ∧ i.msg.pgn ≠ 60160
  ydTime_blank : YDCoupler.blank ∉ i.ydTime
  ydTime_head : i.ydTime.head? ≠ some 4

/-- A frame that the paths agree on: its PGN is the PGN field as it stands,
and it starts a transfer if its key is free and its PGN fast packet. -/
def AgreedFrame (defs : PGNDefinitions) (s : SocketCANInterface) (m : CanMessage) : Prop :=
  pgnField m = m.pgn ∧ Starts defs s.fpHandler (received 0 m)

/-- The messages of a run. -/
def delivered (outs : List Outcome) : List Delivery :=
  outs.filterMap (fun o => match o with | .ok d => d | .error _ => none)

/-- The outcome is no fast packet exception. -/
def Silent (o : Outcome) : Prop := ∀ text, o ≠ .error (.fastPacket text)

/-- The paths deliver the same, and let no fast packet exception out. -/
structure Agree (can log ship yd : List Outcome) : Prop where
  log_eq : delivered log = delivered can
  ship_eq : delivered ship = delivered can
  yd_eq : delivered yd = delivered can
  silent : ∀ o ∈ can ++ log ++ ship ++ yd, Silent o

theorem Starts.of_alike {defs : PGNDefinitions} {fp fp' : FastPacketHandler} (ha : Alike fp fp')
    {now now' : Time} {m : CanMessage} (h : Starts defs fp (received now m)) :
    Starts defs fp' (received now' m) := by
  intro b rest hf hfree hfast
  refine h b rest hf ?_ hfast
  rw [ha.isSome_eq]
  exact hfree

section Agreement

variable {defs : PGNDefinitions} {addresses : List Nat} {s : SocketCANInterface}
  {i : FrontEndInput}

/-- A path that accepts what a transfer may start with: its reassembly, and
the states it works in. -/
structure Accepts (defs : PGNDefinitions) (addresses : List Nat) {τ : Type}
    (n : Machine τ FrontEndInput Outcome) (fp : τ → FastPacketHandler) (Inv : τ → Prop) : Prop where
  step : ∀ t i, Inv t → InTraffic defs addresses i → pgnField i.msg = i.msg.pgn →
    Starts defs (fp t) (received 0 i.msg) → ∃ now,
      (n.step t i).1 = (accept defs (fp t) i.msg.prio (received now i.msg)).1 ∧
      fp (n.step t i).2 = (accept defs (fp t) i.msg.prio (received now i.msg)).2 ∧
      Inv (n.step t i).2

variable {τ : Type} {n : Machine τ FrontEndInput Outcome} {fp : τ → FastPacketHandler}
  {Inv : τ → Prop}

/-- One step beside the CAN interface. -/
theorem Accepts.agree_step (h : Accepts defs addresses n fp Inv) {t : τ} (ht : Inv t)
    (ha : Alike s.fpHandler (fp t)) (hs : s.addresses = addresses)
    (hi : InTraffic defs addresses i) (hagreed : AgreedFrame defs s i.msg) :
    (((canPath defs).step s i).1 = (n.step t i).1 ∧ Silent ((canPath defs).step s i).1) ∧
      ((canPath defs).step s i).2.addresses = addresses ∧
      Alike ((canPath defs).step s i).2.fpHandler (fp (n.step t i).2) ∧ Inv (n.step t i).2 := by
  obtain ⟨d, hd⟩ := hi.defined
  obtain ⟨hout, hfp, haddr⟩ := can_accept i.canNow (hs ▸ hi.da_mem) hi.not_iso hi.data_ne_nil
    (fastPacketCheck_of_defines hd)
  obtain ⟨now, hout', hfp', hinv⟩ := h.step t i ht hi hagreed.1 (hagreed.2.of_alike ha)
  have hrx : (received i.canNow i.msg).untimed = (received now i.msg).untimed := rfl
  obtain ⟨h1, h2⟩ := accept_alike defs ha i.msg.prio hrx
  refine ⟨⟨hout.trans (h1.trans hout'.symm), ?_⟩, haddr.trans hs, ?_, hinv⟩
  · intro text heq
    exact accept_ne_fastPacket defs s.fpHandler i.msg.prio (received i.canNow i.msg) text
      (hout.symm.trans heq)
  · rw [hfp']
    exact hfp ▸ h2

theorem eq_of_forall₂_silent {os os' : List Outcome}
    (h : List.Forall₂ (fun o o' => o = o' ∧ Silent o) os os') : os' = os ∧ ∀ o ∈ os, Silent o := by
  induction h with
  | nil => exact ⟨rfl, by simp⟩
  | cons hQ _ ih => exact ⟨by rw [hQ.1, ih.1], List.forall_mem_cons.mpr ⟨hQ.2, ih.2⟩⟩

/-- A run beside the CAN interface. -/
theorem Accepts.outs_eq (h : Accepts defs addresses n fp Inv) {t : τ} (ht : Inv t)
    (ha : Alike s.fpHandler (fp t)) (hs : s.addresses = addresses) {inputs : List FrontEndInput}
    (htraffic : ∀ i ∈ inputs, InTraffic defs addresses i)
    (hagreed : ∀ mv ∈ (canPath defs).trace s inputs, AgreedFrame defs mv.pre mv.input.msg) :
    n.outs t inputs = (canPath defs).outs s inputs ∧
      ∀ o ∈ (canPath defs).outs s inputs, Silent o := by
  have hrun := Machine.simulation
    (fun s t => s.addresses = addresses ∧ Alike s.fpHandler (fp t) ∧ Inv t)
    (fun s i => InTraffic defs addresses i ∧ AgreedFrame defs s i.msg)
    (fun o o' => o = o' ∧ Silent o) id
    (fun s t i hR hC => h.agree_step hR.2.2 hR.2.1 hR.1 hC.1 hC.2) ⟨hs, ha, ht⟩ inputs
    (fun mv hmv => ⟨htraffic _ ((canPath defs).input_mem_of_mem_trace hmv), hagreed mv hmv⟩)
  rw [List.map_id] at hrun
  exact eq_of_forall₂_silent hrun

theorem accepts_logPath : Accepts defs addresses (logPath defs) RawLogCoupler.fastPacketHandler
    (fun c => c.pgnWhiteList = none ∧ c.saBlackList = []) where
  step := by
    intro c i hc hi hfield hstart
    obtain ⟨d, hd⟩ := hi.defined
    obtain ⟨h1, h2⟩ := @log_accept defs (received i.logNow i.msg) _ c i.msg.prio i.msg.da
      hi.data_ne_nil (fastPacketCheck_of_defines hd) (hstart.of_alike (Alike.refl _))
    refine ⟨i.logNow, ?_⟩
    rw [logPath_step, logStep_eq defs i.logNow hi.id_lt hc.1 hc.2]
    exact ⟨h1, congrArg RawLogCoupler.fastPacketHandler h2, h2 ▸ hc⟩

theorem accepts_shipPath : Accepts defs addresses (shipPath defs)
    ShipModulInterface.fastPacketHandler (fun c => c.mode = .nmea2000) where
  step := by
    intro c i hc hi hfield hstart
    obtain ⟨d, hd⟩ := hi.defined
    obtain ⟨da, hstep⟩ := shipStep_eq defs i.shipNow hc hfield hi.data_le
    obtain ⟨h1, h2⟩ := @ship_accept defs (received i.shipNow i.msg) _ c i.msg.prio da
      hi.data_ne_nil (fastPacketCheck_of_defines hd) (hstart.of_alike (Alike.refl _))
    refine ⟨i.shipNow, ?_⟩
    rw [shipPath_step, hstep]
    exact ⟨h1, congrArg ShipModulInterface.fastPacketHandler h2, h2 ▸ hc⟩

theorem accepts_ydPath : Accepts defs addresses (ydPath defs) YDCoupler.fastPacketHandler
    (fun _ => True) where
  step := by
    intro c i _ hi hfield hstart
    obtain ⟨d, hd⟩ := hi.defined
    have hstep := ydStep_eq defs c i.ydNow hi.id_lt hi.data_ne_nil hi.ydTime_blank hi.ydTime_head
    obtain ⟨h1, h2⟩ := @yd_accept defs (received i.ydNow i.msg) _ c i.msg.prio hi.data_ne_nil
      (fastPacketCheck_of_defines hd) (definedFastPacket_of_defines hd)
      (hstart.of_alike (Alike.refl _))
    refine ⟨i.ydNow, ?_⟩
    rw [ydPath_step, hstep, hfield]
    exact ⟨h1, congrArg YDCoupler.fastPacketHandler h2, trivial⟩

end Agreement

/-- A new CAN interface that accepts the given addresses. -/
def canInterface (addresses : List Nat) : SocketCANInterface :=
  { SocketCANInterface.new with addresses := addresses }

/-- **The front ends agree**, from new couplers and over any traffic, as long
as every frame is one that they agree on in the state it meets. -/
theorem frontEnds_agree (defs : PGNDefinitions) (addresses : List Nat)
    (inputs : List FrontEndInput) (htraffic : ∀ i ∈ inputs, InTraffic defs addresses i)
    (hagreed : ∀ mv ∈ (canPath defs).trace (canInterface addresses) inputs,
      AgreedFrame defs mv.pre mv.input.msg) :
    Agree ((canPath defs).outs (canInterface addresses) inputs)
      ((logPath defs).outs .new inputs) ((shipPath defs).outs .new inputs)
      ((ydPath defs).outs .new inputs) := by
  obtain ⟨hlog, hsilent⟩ := accepts_logPath.outs_eq (t := .new) ⟨rfl, rfl⟩
    (Alike.refl _) rfl htraffic hagreed
  obtain ⟨hship, -⟩ := accepts_shipPath.outs_eq (t := .new) rfl
    (Alike.refl _) rfl htraffic hagreed
  obtain ⟨hyd, -⟩ := accepts_ydPath.outs_eq (t := .new) trivial
    (Alike.refl _) rfl htraffic hagreed
  rw [hlog, hship, hyd]
  refine ⟨rfl, rfl, rfl, ?_⟩
  simp only [List.mem_append]
  rintro o (((h | h) | h) | h) <;> exact hsilent o h

/-- A frame of the PGN list. -/
def pgnListFrame (da : Nat) (data : Bytes) : FrontEndInput where
  msg := ⟨0x19EE0003 + da * 256, data⟩
  canNow := 0
  logNow := 0
  shipNow := 0
  ydNow := 0
  ydTime := []

/-- A list to address 0, in two frames. -/
theorem frontEnds_agree_pgnList :
    Agree ((canPath pgnListDefinitions).outs (canInterface [255, 0])
        [pgnListFrame 0 [0, 7, 0, 0, 238, 0, 20, 240], pgnListFrame 0 [1, 1]])
      ((logPath pgnListDefinitions).outs .new
        [pgnListFrame 0 [0, 7, 0, 0, 238, 0, 20, 240], pgnListFrame 0 [1, 1]])
      ((shipPath pgnListDefinitions).outs .new
        [pgnListFrame 0 [0, 7, 0, 0, 238, 0, 20, 240], pgnListFrame 0 [1, 1]])
      ((ydPath pgnListDefinitions).outs .new
        [pgnListFrame 0 [0, 7, 0, 0, 238, 0, 20, 240], pgnListFrame 0 [1, 1]]) := by
  refine frontEnds_agree pgnListDefinitions [255, 0] _ ?_ ?_
  · simp only [List.mem_cons, List.not_mem_nil, or_false]
    rintro i (rfl | rfl)
    · exact ⟨by decide, by decide, by decide, by decide, ⟨pgnList, defines_pgnList⟩, by decide,
        by decide, by decide⟩
    · exact ⟨by decide, by decide, by decide, by decide, ⟨pgnList, defines_pgnList⟩, by decide,
        by decide, by decide⟩
  · simp only [Machine.trace_cons, Machine.trace_nil, List.mem_cons, List.not_mem_nil, or_false]
    rintro mv (rfl | rfl)
    · refine ⟨by decide, fun b rest hf _ _ => ?_⟩
      obtain ⟨rfl, rfl⟩ := List.cons_eq_cons.mp hf
      exact ⟨by decide, by simp⟩
    · refine ⟨by decide, fun b rest hf hfree => ?_⟩
      exact absurd hfree (by decide +kernel)

/-- The second frame of a transfer whose first one is lost, sent to all: the
log replay lets the exception out. -/
theorem not_frontEnds_agree_lost :
    ¬ ∀ (defs : PGNDefinitions) (addresses : List Nat) (inputs : List FrontEndInput),
      (∀ i ∈ inputs, InTraffic defs addresses i) →
      Agree ((canPath defs).outs (canInterface addresses) inputs)
        ((logPath defs).outs .new inputs) ((shipPath defs).outs .new inputs)
        ((ydPath defs).outs .new inputs) := by
  intro h
  have hagree := h pgnListDefinitions [255, 0] [pgnListFrame 255 [1, 1]] (by
    intro i hi
    rw [List.mem_singleton.mp hi]
    exact ⟨by decide, by decide, by decide, by decide, ⟨pgnList, defines_pgnList⟩, by decide,
      by decide, by decide⟩)
  have hout : (logPath pgnListDefinitions).outs .new [pgnListFrame 255 [1, 1]]
      = [.error (.fastPacket "Fast packet PGN 126464 from address 3 wrong first packet 1")] := by
    rw [Machine.outs_cons, logPath_step, logStep_eq _ _ (by decide) rfl rfl]
    rfl
  have hsilent := hagree.silent
  rw [hout] at hsilent
  exact hsilent _ (List.mem_append_left _ (List.mem_append_left _
    (List.mem_append_right _ List.mem_cons_self))) _ rfl

end NavigationServer.Couplers
