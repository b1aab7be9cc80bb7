/-
NavigationServer.Nmea2000.ControllerTheorems — when the lock of the controller
is released.

No method releases the lock when what it calls raises, and the generator of
`get_device` releases it only behind its last device. `lock_released_iff` : in
every run from a new controller, every call comes back with the lock free
exactly when every call meets `ReleasesLock`, a condition on its input and on
the state it is called in. What a handler raises is settled by the length of the
payload (`receiveMsg_error_iff`): a KeyError is swallowed, so a claim that is
cut short is harmless.

Each call is looked at by itself: with a free lock it takes it, and gives it back or not
as its body ends. A call that comes while the lock is taken waits for ever, which is why
the run needs the condition of every call before it. What the messages say is left out
where no decoder raises for it.
-/
import NavigationServer.Nmea2000.Controller

namespace NavigationServer.Nmea2000

open NavigationServer.Lib
open NavigationServer.Nmea2000Datamodel
open NavigationServer.RouterCore

/-! ## 1. What the decoders raise -/

/-- The length and type bytes of `n` strings in a row lie in the payload. -/
def StringsFit (payload : Bytes) : Nat → Nat → Prop
  | 0, _ => True
  | n + 1, start =>
      match payload[start]? with
      | some totalLen => start + 1 < payload.length ∧ StringsFit payload n (start + totalLen.toNat)
      | none => False

/-- `unpack_from` asks for enough bytes and for nothing else. -/
theorem unpackFrom_isOk_iff (size start : Nat) (payload : Bytes) :
    (∃ val, unpackFrom size payload start = .ok val) ↔ start + size ≤ payload.length := by
  unfold unpackFrom
  split <;> simp_all

/-- Reading one string: it ends where its length says. -/
theorem extractVarStr_cases (payload : Bytes) (start : Nat) :
    (∃ str totalLen, payload[start]? = some totalLen ∧ start + 1 < payload.length ∧
      extractVarStr payload start = .ok (str, totalLen.toNat)) ∨
    ((payload[start]? = none ∨ payload.length ≤ start + 1) ∧
      extractVarStr payload start = .error .indexError) := by
  unfold extractVarStr item
  cases hlen : payload[start]? with
  | none => exact Or.inr ⟨Or.inl rfl, rfl⟩
  | some totalLen =>
    cases htype : payload[start + 1]? with
    | none => exact Or.inr ⟨Or.inr (List.getElem?_eq_none_iff.mp htype), rfl⟩
    | some type =>
      have hlt := (List.getElem?_eq_some_iff.mp htype).1
      refine Or.inl ?_
      by_cases h1 : type = 1
      · by_cases h2 : totalLen = 2
        · exact ⟨[], totalLen, rfl, hlt, by simp [h1, h2, bind, Except.bind, pure, Except.pure]⟩
        · exact ⟨slice payload (start + 2 : Nat) (start + totalLen.toNat : Nat), totalLen, rfl, hlt,
            by simp [h1, h2, bind, Except.bind, pure, Except.pure]⟩
      · exact ⟨[], totalLen, rfl, hlt, by simp [h1, bind, Except.bind, pure, Except.pure]⟩

/-- A string whose first two bytes are there is stepped over by its length. -/
theorem stringsFit_succ {payload : Bytes} {start : Nat} {totalLen : UInt8} (n : Nat)
    (h : payload[start]? = some totalLen) (hlt : start + 1 < payload.length) :
    StringsFit payload (n + 1) start ↔ StringsFit payload n (start + totalLen.toNat) := by
  rw [StringsFit, h]
  exact and_iff_right hlt

/-- Without the first two bytes of a string there is an IndexError. -/
theorem not_stringsFit {payload : Bytes} {start : Nat} (n : Nat)
    (h : payload[start]? = none ∨ payload.length ≤ start + 1) :
    ¬ StringsFit payload (n + 1) start := by
  intro hfit
  unfold StringsFit at hfit
  rcases h with h | h
  · rw [h] at hfit
    exact hfit
  · split at hfit
    · exact absurd hfit.1 (Nat.not_lt.mpr h)
    · exact hfit

/-- The fields of a heartbeat take eight bytes. -/
theorem heartbeat_isOk_iff (payload : Bytes) :
    (∃ info, Heartbeat.decodePayload payload = .ok info) ↔ 8 ≤ payload.length := by
  have h := unpackFrom_isOk_iff 8 0 payload
  rw [Nat.zero_add] at h
  rw [← h]
  unfold Heartbeat.decodePayload
  cases unpackFrom 8 payload 0 <;> simp [bind, Except.bind, pure, Except.pure]

/-- Two numbers, four texts of 32 bytes, and two numbers. -/
theorem productInformation_isOk_iff (payload : Bytes) :
    (∃ info, ProductInformation.decodePayload payload = .ok info) ↔ 134 ≤ payload.length := by
  have hfirst := unpackFrom_isOk_iff 4 0 payload
  have hlast := unpackFrom_isOk_iff 2 132 payload
  unfold ProductInformation.decodePayload
  cases h4 : unpackFrom 4 payload 0 with
  | error e =>
    rw [h4] at hfirst
    have hshort : ¬ 4 ≤ payload.length := by simpa using hfirst
    have : ¬ 134 ≤ payload.length := by omega
    simp [bind, Except.bind, this]
  | ok first =>
    rw [← hlast]
    cases unpackFrom 2 payload 132 <;> simp [bind, Except.bind, pure, Except.pure]

/-- The three strings of the configuration, each from where the last one ended. -/
theorem configurationInformation_isOk_iff (payload : Bytes) :
    (∃ info, ConfigurationInformation.decodePayload payload = .ok info) ↔
      StringsFit payload 3 0 := by
  unfold ConfigurationInformation.decodePayload
  rcases extractVarStr_cases payload 0 with ⟨str1, len1, h1, hlt1, heq1⟩ | ⟨h1, heq1⟩
  · rw [heq1, stringsFit_succ 2 h1 hlt1, Nat.zero_add]
    dsimp only [bind, Except.bind]
    rcases extractVarStr_cases payload len1.toNat with ⟨str2, len2, h2, hlt2, heq2⟩ | ⟨h2, heq2⟩
    · rw [heq2, stringsFit_succ 1 h2 hlt2]
      dsimp only
      rcases extractVarStr_cases payload (len1.toNat + len2.toNat) with
        ⟨str3, len3, h3, hlt3, heq3⟩ | ⟨h3, heq3⟩
      · rw [heq3, stringsFit_succ 0 h3 hlt3]
        simp [StringsFit, pure, Except.pure]
      · rw [heq3]
        simp [not_stringsFit 0 h3]
    · rw [heq2]
      simp [not_stringsFit 1 h2]
  · rw [heq1]
    simp [not_stringsFit 2 h1, bind, Except.bind]

/-! ## 2. What a device raises -/

/-- The PGN has a definition, or the device has counted it before. -/
def Counted (defs : PGNDefinitions) (dev : NMEA2000Device) (pgn : Nat) : Prop :=
  (dev.pgnReceived.lookup pgn).isSome = true ∨ ∃ d, defs.pgnDefinition pgn 0 = .ok d

/-- A heartbeat, a product information that the device does not have yet, or a
configuration information, cut short. -/
def CutShort (dev : NMEA2000Device) (msg : NMEA2000Msg) : Prop :=
  (msg.pgn = 126993 ∧ msg.payload.length < 8) ∨
    (msg.pgn = 126996 ∧ dev.productInformation = none ∧ msg.payload.length < 134) ∨
    (msg.pgn = 126998 ∧ ¬ StringsFit msg.payload 3 0)

namespace NMEA2000Device

variable {defs : PGNDefinitions} {dev : NMEA2000Device} {msg : NMEA2000Msg}

theorem addPgnCount_eq_none_iff (pgn : Nat) :
    dev.addPgnCount defs pgn = none ↔ ¬ Counted defs dev pgn := by
  unfold addPgnCount Counted
  cases dev.pgnReceived.lookup pgn with
  | some count => simp
  | none =>
    cases defs.pgnDefinition pgn 0 <;> simp

/-- Counting a PGN leaves what the device said of itself. -/
theorem productInformation_addPgnCount {dev' : NMEA2000Device} {pgn : Nat}
    (h : dev.addPgnCount defs pgn = some dev') :
    dev'.productInformation = dev.productInformation := by
  unfold addPgnCount at h
  split at h
  · cases h
    rfl
  · split at h
    · cases h
      rfl
    · cases h

/-- `unpack_from` raises `struct.error` only. -/
theorem unpackFrom_error {size start : Nat} {payload : Bytes} {e : Exn}
    (h : unpackFrom size payload start = .error e) : e = .structError := by
  unfold unpackFrom at h
  split at h
  · cases h
  · cases h
    rfl

/-- What a short heartbeat raises is no KeyError. -/
theorem heartbeat_error {payload : Bytes} {e : Exn} (h : Heartbeat.decodePayload payload = .error e) :
    e ≠ .keyError := by
  unfold Heartbeat.decodePayload at h
  cases hval : unpackFrom 8 payload 0 with
  | ok val =>
    rw [hval] at h
    cases h
  | error e' =>
    rw [hval] at h
    cases h
    rw [unpackFrom_error hval]
    decide

/-- As `heartbeat_error`: a KeyError would be swallowed by `receive_msg`. -/
theorem productInformation_error {payload : Bytes} {e : Exn}
    (h : ProductInformation.decodePayload payload = .error e) : e ≠ .keyError := by
  unfold ProductInformation.decodePayload at h
  cases hfirst : unpackFrom 4 payload 0 with
  | error e' =>
    rw [hfirst] at h
    cases h
    rw [unpackFrom_error hfirst]
    decide
  | ok first =>
    rw [hfirst] at h
    cases hlast : unpackFrom 2 payload 132 with
    | ok last =>
      rw [hlast] at h
      cases h
    | error e' =>
      rw [hlast] at h
      cases h
      rw [unpackFrom_error hlast]
      decide

/-- Reading a string raises IndexError only. -/
theorem extractVarStr_error {payload : Bytes} {start : Nat} {e : Exn}
    (h : extractVarStr payload start = .error e) : e = .indexError := by
  rcases extractVarStr_cases payload start with ⟨str, len, -, -, heq⟩ | ⟨-, heq⟩
  · rw [heq] at h
    cases h
  · rw [heq] at h
    cases h
    rfl

/-- As `heartbeat_error`, for the strings. -/
theorem configurationInformation_error {payload : Bytes} {e : Exn}
    (h : ConfigurationInformation.decodePayload payload = .error e) : e ≠ .keyError := by
  unfold ConfigurationInformation.decodePayload at h
  cases h1 : extractVarStr payload 0 with
  | error e' =>
    rw [h1] at h
    cases h
    rw [extractVarStr_error h1]
    decide
  | ok r1 =>
    rw [h1] at h
    dsimp only [bind, Except.bind] at h
    cases h2 : extractVarStr payload r1.2 with
    | error e' =>
      rw [h2] at h
      cases h
      rw [extractVarStr_error h2]
      decide
    | ok r2 =>
      rw [h2] at h
      dsimp only at h
      cases h3 : extractVarStr payload (r1.2 + r2.2) with
      | error e' =>
        rw [h3] at h
        cases h
        rw [extractVarStr_error h3]
        decide
      | ok r3 =>
        rw [h3] at h
        cases h

/-- What a handler raises, and is not swallowed. -/
theorem processVector_error_iff :
    (∃ e, e ≠ .keyError ∧ (dev.processVector msg).1 = .error e) ↔ CutShort dev msg := by
  unfold processVector CutShort
  split_ifs with h1 h2 h3 h4
  · -- the only exception of an address claim is the KeyError
    unfold p60928 AddressClaim.decode
    split_ifs <;> simp [h1]
    split <;> simp_all
  · have hok := heartbeat_isOk_iff msg.payload
    unfold p126993
    cases hval : Heartbeat.decodePayload msg.payload with
    | ok info =>
      rw [hval] at hok
      have hlong : 8 ≤ msg.payload.length := hok.mp ⟨info, rfl⟩
      simp [h2, hlong]
    | error e =>
      rw [hval] at hok
      have hshort : msg.payload.length < 8 := by simpa using hok
      simp [h2, hshort, heartbeat_error hval]
  · have hok := productInformation_isOk_iff msg.payload
    unfold p126996
    cases hinfo : dev.productInformation with
    | some info => simp [h3]
    | none =>
      cases hval : ProductInformation.decodePayload msg.payload with
      | ok info =>
        rw [hval] at hok
        have hlong : 134 ≤ msg.payload.length := hok.mp ⟨info, rfl⟩
        simp [h3, hlong]
      | error e =>
        rw [hval] at hok
        have hshort : msg.payload.length < 134 := by simpa using hok
        simp [h3, hshort, productInformation_error hval]
  · have hok := configurationInformation_isOk_iff msg.payload
    unfold p126998
    cases hval : ConfigurationInformation.decodePayload msg.payload with
    | ok info =>
      rw [hval] at hok
      have hfit : StringsFit msg.payload 3 0 := hok.mp ⟨info, rfl⟩
      simp [h4, hfit]
    | error e =>
      rw [hval] at hok
      have hcut : ¬ StringsFit msg.payload 3 0 := by simpa using hok
      simp [h4, hcut, configurationInformation_error hval]
  · simp [h2, h3, h4]

/-- A device raises exactly for the messages that are cut short. -/
theorem receiveMsg_error_iff (now : Time) :
    (∃ e, (dev.receiveMsg defs now msg).1 = .error e) ↔
      Counted defs dev msg.pgn ∧ CutShort dev msg := by
  have hcounted : addPgnCount defs { dev with lastmsgTs := now } msg.pgn = none ↔
      ¬ Counted defs { dev with lastmsgTs := now } msg.pgn := addPgnCount_eq_none_iff msg.pgn
  unfold receiveMsg
  dsimp only
  cases hcount : addPgnCount defs { dev with lastmsgTs := now } msg.pgn with
  | none =>
    rw [hcount] at hcounted
    have hnot : ¬ Counted defs dev msg.pgn := hcounted.mp rfl
    simp [hnot]
  | some dev' =>
    rw [hcount] at hcounted
    have hyes : Counted defs dev msg.pgn := by
      by_contra hno
      cases hcounted.mpr hno
    have hinfo : dev'.productInformation = dev.productInformation := by
      have hkept := productInformation_addPgnCount hcount
      exact hkept
    have hcut : CutShort dev' msg ↔ CutShort dev msg := by
      unfold CutShort
      rw [hinfo]
    rw [← hcut, ← processVector_error_iff, and_iff_right hyes]
    dsimp only
    split
    · rename_i heq
      rw [heq]
      simp
    · rename_i hne
      constructor
      · rintro ⟨e, he⟩
        refine ⟨e, ?_, he⟩
        rintro rfl
        exact hne _ (Prod.ext he rfl)
      · rintro ⟨e, -, he⟩
        exact ⟨e, he⟩

end NMEA2000Device

/-! ## 3. The lock -/

namespace NMEA2KController

/-- **The condition of a call**: a message from 254 or 255, or one that is not
cut short and that its subscriber takes; an iteration that is not begun or not
abandoned; a search for a property in an empty table. -/
def ReleasesLock (defs : PGNDefinitions) (s : NMEA2KController) : ControllerCall → Prop
  | .processMsg _ msg => 254 ≤ msg.sa ∨
      (¬ (Counted defs (s.checkDevice msg.sa) msg.pgn ∧ CutShort (s.checkDevice msg.sa) msg) ∧
        ∀ function, s.subscriber.lookup msg.pgn = some function → function msg = none)
  | .getDevice taken => taken = 0 ∨ s.devices.entries.length < taken
  | .getDeviceWithPropertyValue => s.devices.entries = []
  | _ => True

variable {defs : PGNDefinitions} {s : NMEA2KController}

/-- A free lock is taken for the body. -/
theorem locked_of_free (h : s.gcLock = false) (body : NMEA2KController → Outcome × NMEA2KController) :
    s.locked body = body { s with gcLock := true } := by
  rw [locked, h]
  rfl

/-- Only the subscriber of the PGN is called, and what it raises is not caught. -/
theorem callSubscribers_isOk_iff (msg : NMEA2000Msg) :
    s.callSubscribers msg = .ok () ↔
      ∀ function, s.subscriber.lookup msg.pgn = some function → function msg = none := by
  unfold callSubscribers
  cases s.subscriber.lookup msg.pgn with
  | none => simp
  | some function =>
    cases h : function msg <;> simp [h]

/-- **One message**: the lock is free behind it in just the case that the condition names. -/
theorem processMsg_releases_iff (h : s.gcLock = false) (now : Time) (msg : NMEA2000Msg) :
    (s.processMsg defs now msg).2.gcLock = false ↔ ReleasesLock defs s (.processMsg now msg) := by
  unfold processMsg ReleasesLock
  by_cases hsa : msg.sa ≥ 254
  · rw [if_pos hsa]
    exact iff_of_true h (Or.inl hsa)
  · dsimp only
    rw [if_neg hsa, locked_of_free h, or_iff_right (by omega)]
    have hdevice : (∃ e, ((s.checkDevice msg.sa).receiveMsg defs now msg).1 = .error e) ↔ _ :=
      NMEA2000Device.receiveMsg_error_iff now
    have hcheck : ({ s with gcLock := true } : NMEA2KController).checkDevice msg.sa
        = s.checkDevice msg.sa := rfl
    rw [← hdevice]
    dsimp only
    rw [hcheck]
    cases hresult : ((s.checkDevice msg.sa).receiveMsg defs now msg).1 with
    | error e => simp
    | ok u =>
      have hsub := callSubscribers_isOk_iff (s := { s with
        gcLock := true
        devices := s.devices.insert msg.sa ((s.checkDevice msg.sa).receiveMsg defs now msg).2 }) msg
      simp only at hsub
      rw [← hsub]
      dsimp only
      cases callSubscribers _ msg with
      | error e => simp
      | ok u => simp [release]

/-- From a free lock: a call comes back, and leaves the lock free exactly under
its condition. -/
theorem step_releases_iff (h : s.gcLock = false) (call : ControllerCall) :
    (((controllerCalls defs).step s call).2.gcLock = false ∧
      ((controllerCalls defs).step s call).1 ≠ .blocked) ↔ ReleasesLock defs s call := by
  cases call with
  | processMsg now msg =>
    change ((s.processMsg defs now msg).2.gcLock = false ∧ _) ↔ _
    rw [processMsg_releases_iff h, and_iff_left]
    change (s.processMsg defs now msg).1 ≠ .blocked
    unfold processMsg
    split
    · exact Outcome.noConfusion
    · rw [locked_of_free h]
      dsimp only
      split
      · exact Outcome.noConfusion
      · split <;> exact Outcome.noConfusion
  | getDevice taken =>
    change ((s.getDevice taken).2.gcLock = false ∧ (s.getDevice taken).1 ≠ .blocked) ↔ _
    unfold getDevice ReleasesLock
    rw [locked_of_free h]
    by_cases h0 : taken = 0
    · simp [h0, h]
    · by_cases hle : taken ≤ s.devices.entries.length
      · simp [h0, hle]
      · simp [h0, hle, release, Nat.lt_of_not_le hle]
  | getDeviceByAddress address =>
    change ((s.getDeviceByAddress address).2.gcLock = false ∧
      (s.getDeviceByAddress address).1 ≠ .blocked) ↔ True
    unfold getDeviceByAddress
    rw [locked_of_free h]
    dsimp only
    split <;> simp [release]
  | getDeviceWithPropertyValue =>
    change (s.getDeviceWithPropertyValue.2.gcLock = false ∧
      s.getDeviceWithPropertyValue.1 ≠ .blocked) ↔ s.devices.entries = []
    unfold getDeviceWithPropertyValue
    rw [locked_of_free h]
    dsimp only
    split
    · rename_i heq
      simp [heq]
    · rename_i heq
      simp [heq, release]
  | deviceGc now =>
    change ((s.deviceGc now).2.gcLock = false ∧ (s.deviceGc now).1 ≠ .blocked) ↔ True
    unfold deviceGc
    split
    · simp [h]
    · rw [locked_of_free h]
      simp [release]
  | addSubscriber pgn function =>
    change (s.gcLock = false ∧ _) ↔ True
    simp [h, controllerCalls]
  | stop =>
    change (s.gcLock = false ∧ _) ↔ True
    simp [h, controllerCalls]

/-- **Along a run, every call comes back and leaves the lock free exactly when
every call meets its condition.** -/
theorem lock_released_iff (defs : PGNDefinitions) (maxSilent : Time) (calls : List ControllerCall) :
    (∀ mv ∈ (controllerCalls defs).trace (.new maxSilent) calls,
        mv.post.gcLock = false ∧ mv.output ≠ .blocked) ↔
      ∀ mv ∈ (controllerCalls defs).trace (.new maxSilent) calls,
        ReleasesLock defs mv.pre mv.input := by
  have hfree : (NMEA2KController.new maxSilent).gcLock = false := rfl
  generalize NMEA2KController.new maxSilent = s at hfree
  induction calls generalizing s with
  | nil => simp
  | cons call calls ih =>
    rw [Machine.trace_cons, List.forall_mem_cons, List.forall_mem_cons, step_releases_iff hfree]
    refine and_congr_right ?_
    intro hcall
    exact ih _ ((step_releases_iff hfree call).mpr hcall).1

/-- A definition of the heartbeat. -/
def heartbeatDefs : PGNDefinitions :=
  .init [⟨126993, "Heartbeat", none, some 8, some (.ok ⟨5, .error .keyError⟩)⟩]

/-- A heartbeat without data, and the next message. -/
def heartbeatRun : List ControllerCall :=
  [.processMsg 0 (.of 126993 7 3 255 []), .processMsg 1 (.of 127250 2 4 255 [0, 1, 2, 3, 4, 5, 6, 7])]

/-- **The next message is not processed.** -/
theorem not_lock_released_heartbeat :
    ¬ ∀ mv ∈ (controllerCalls heartbeatDefs).trace (.new 60) heartbeatRun,
        mv.post.gcLock = false ∧ mv.output ≠ .blocked := by
  intro h
  have hlast := (h _ (List.mem_cons_of_mem _ List.mem_cons_self)).2
  exact hlast (by rfl)

end NMEA2KController

end NavigationServer.Nmea2000
