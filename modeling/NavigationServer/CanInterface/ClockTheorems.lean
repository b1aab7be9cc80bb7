/-
NavigationServer.CanInterface.ClockTheorems — when the claims and the
heartbeats of the applications go on.

`claim_timer_armed` : an application that claims has a claim timer pending, in
every state of a run whose claim receipts all leave or start one. A receipt
cancels the timer before it looks at who claims.

`heartbeat_chain` : at most one heartbeat timer of an application is pending,
the one that is remembered, and none when it is stopping, in every state of a
run in which no claim timer expires for an application that has a heartbeat
timer or is stopping.

What a call does to the clock is said once (`call_clock`); the invariants are
those of the clock. Each method of the controller is read as one operation on the
clock or as none, in the order of the source's calls, so that a step of either
invariant is a case for each call and the lemma of the operation.

The callbacks of the timers are single steps here, as are the methods they run beside.
How long a timer runs is left out: any pending timer may expire at any time, so
what is proved holds for every order in which they do.
-/
import NavigationServer.CanInterface.AddressTheorems
import NavigationServer.CanInterface.Clock

namespace NavigationServer.CanInterface

open NavigationServer.Lib
open NavigationServer.Nmea2000
open NavigationServer.Nmea2000Datamodel
open NavigationServer.RouterCore

/-! ## 1. The clock of a node -/

/-- What the timers see of an application. -/
def AppClock.of (app : NMEA2000Application) : AppClock :=
  ⟨app.state, app.claimTimer, app.heartbeatTimer⟩

namespace NMEA2KActiveController

/-- What they see of the node. -/
def clock (s : NMEA2KActiveController) : Clock :=
  ⟨s.applications.map AppClock.of, s.timers, s.stopFlag⟩

section Views

variable (s : NMEA2KActiveController) (k : Nat)

/-- An application of the clock. -/
theorem clock_getElem? : s.clock.apps[k]? = s.applications[k]?.map AppClock.of :=
  List.getElem?_map ..

/-- A change of one application, seen by the timers. -/
theorem clock_modifyApp {f : NMEA2000Application → NMEA2000Application} {g : AppClock → AppClock}
    (h : ∀ app, AppClock.of (f app) = g (AppClock.of app)) :
    (s.modifyApp k f).clock = s.clock.modifyApp k g := by
  unfold clock modifyApp Clock.modifyApp
  rw [map_modify_comm _ _ _ _ _ h]

/-- A change of other fields. -/
theorem clock_modifyApp_same {f : NMEA2000Application → NMEA2000Application}
    (h : ∀ app, AppClock.of (f app) = AppClock.of app) : (s.modifyApp k f).clock = s.clock := by
  unfold clock modifyApp
  rw [map_modify _ _ _ _ h]

@[simp] theorem clock_send (msg : Outgoing) : (s.send msg).clock = s.clock := rfl

@[simp] theorem clock_respondAddressClaim : (s.respondAddressClaim k).clock = s.clock := by
  unfold respondAddressClaim
  split <;> rfl

@[simp] theorem clock_sendIsoRequest (da pgn : Nat) :
    (s.sendIsoRequest k da pgn).clock = s.clock := by
  unfold sendIsoRequest
  split <;> rfl

@[simp] theorem clock_cancelTimer (timer : Option Nat) :
    (s.cancelTimer timer).clock = s.clock.cancel timer := by
  cases timer <;> rfl

/-- `send_address_claim` is a claim. -/
theorem clock_sendAddressClaim : (s.sendAddressClaim k).clock = s.clock.claim k := by
  unfold sendAddressClaim Clock.claim
  rw [clock_getElem?]
  cases h : s.applications[k]? with
  | none => rfl
  | some app =>
    dsimp only [Option.map_some, AppClock.of]
    split
    · rfl
    · have hsent : (s.respondAddressClaim k).timers = s.timers :=
        congrArg Clock.timers (s.clock_respondAddressClaim k)
      change (clock (modifyApp _ k _)).start k .claim = _
      rw [clock_modifyApp (g := fun a => { a with
        state := .addressClaim, claimTimer := some (s.respondAddressClaim k).timers.length }),
        clock_respondAddressClaim, hsent]
      · rfl
      · exact fun _ => rfl

/-- `send_heartbeat` is a heartbeat. -/
theorem clock_sendHeartbeat : (s.sendHeartbeat k).clock = s.clock.beat k := by
  unfold sendHeartbeat Clock.beat
  rw [clock_getElem?]
  cases h : s.applications[k]? with
  | none => rfl
  | some app =>
    dsimp only [Option.map_some, AppClock.of]
    split
    · rfl
    · change (clock (modifyApp _ k _)).start k .heartbeat = _
      rw [clock_modifyApp (g := fun a => { a with heartbeatTimer := some s.timers.length })]
      · rfl
      · exact fun _ => rfl

/-- `stop_request` of one application. -/
theorem clock_stopRequest : (s.stopRequest k).clock = s.clock.stopRequest k := by
  unfold stopRequest Clock.stopRequest
  rw [clock_getElem?]
  cases h : s.applications[k]? with
  | none => rfl
  | some app =>
    dsimp only [Option.map_some, AppClock.of]
    rw [clock_cancelTimer, clock_modifyApp (g := fun a => { a with state := .stopInProgress })]
    exact fun _ => rfl

/-- `stop`, when it comes to its end. -/
theorem clock_stop (h : s.appTimer = true) : s.stop.2.clock = s.clock.stop := by
  have hfold : ∀ (ks : List Nat) (s : NMEA2KActiveController),
      (ks.foldl stopRequest s).clock = ks.foldl Clock.stopRequest s.clock := by
    intro ks
    induction ks with
    | nil => exact fun _ => rfl
    | cons k ks ih =>
      intro s
      rw [List.foldl_cons, List.foldl_cons, ih, clock_stopRequest]
  have hlength : s.clock.apps.length = s.applications.length := List.length_map ..
  unfold stop Clock.stop
  rw [if_pos h, hlength, ← hfold]
  rfl

/-- Without the timer of the applications `stop` raises before it comes to one of them. -/
theorem clock_stop_cases : s.stop.2.clock = s.clock ∨ s.stop.2.clock = s.clock.stop := by
  by_cases h : s.appTimer = true
  · exact Or.inr (s.clock_stop h)
  · left
    unfold stop
    rw [if_neg h]

/-- What the claim timer calls: the claim has come through. -/
theorem clock_addressClaimDelay : (s.addressClaimDelay k).clock = s.clock.claimed k := by
  unfold addressClaimDelay Clock.claimed
  rw [clock_modifyApp (g := fun a => { a with claimTimer := none }), clock_sendHeartbeat,
    clock_sendIsoRequest]
  · congr 2
    refine s.clock_modifyApp k (g := fun a => { a with state := .active }) ?_
    exact fun _ => rfl
  · exact fun _ => rfl

/-- A timer that expires in the node does so in the clock. -/
theorem clock_expire (i : Nat) : (s.expire i).clock = s.clock.expire i := by
  unfold expire Clock.expire
  rw [show s.clock.timers = s.timers from rfl]
  cases s.timers[i]? with
  | none => rfl
  | some timer =>
    dsimp only
    split
    · unfold callback
      cases timer.kind with
      | claim => exact clock_addressClaimDelay _ _
      | heartbeat => exact clock_sendHeartbeat _ _
    · rfl

@[simp] theorem clock_getNewAddress : s.getNewAddress.2.clock = s.clock := rfl

@[simp] theorem clock_exceptKeyError (r : Outcome × NMEA2KActiveController) :
    (exceptKeyError r).2.clock = r.2.clock := by
  unfold exceptKeyError
  split <;> rfl

/-- A request is answered, no timer is touched. -/
theorem clock_isoRequest (msg : NMEA2000Msg) : (s.isoRequest k msg).2.clock = s.clock := by
  unfold isoRequest
  split
  · rfl
  · dsimp only
    split_ifs
    · exact s.clock_respondAddressClaim k
    · rfl
    · rfl
    · rfl
    · rfl

/-- A remote claim is answered by requests. -/
theorem clock_remoteAddressClaim (msg : NMEA2000Msg) :
    (s.remoteAddressClaim k msg).2.clock = s.clock := by
  unfold remoteAddressClaim
  split
  · rfl
  · split
    · dsimp only
      rw [clock_sendIsoRequest, clock_sendIsoRequest]
    · rfl

/-- A group function counts, at most. -/
theorem clock_groupFunctionHandler (msg : NMEA2000Msg) :
    (s.groupFunctionHandler k msg).2.clock = s.clock := by
  unfold groupFunctionHandler
  split
  · rfl
  · split
    · rfl
    · dsimp only
      split
      · rw [clock_send]
        refine s.clock_modifyApp_same k ?_
        exact fun _ => rfl
      · refine s.clock_modifyApp_same k ?_
        exact fun _ => rfl

/-- An application claims the new address, or another change still waits. -/
theorem clock_changeAddress (address : Nat) :
    (s.changeAddress k address).2.clock = s.clock ∨
      (s.changeAddress k address).2.clock = s.clock.claim k := by
  have hmodify : (s.modifyApp k (fun app => { app with address := address })).clock = s.clock := by
    refine s.clock_modifyApp_same k ?_
    exact fun _ => rfl
  unfold changeAddress
  split
  · exact Or.inl rfl
  · dsimp only
    unfold changeApplicationAddress
    split
    · exact Or.inl hmodify
    · right
      change (sendAddressClaim _ k).clock = _
      rw [clock_sendAddressClaim]
      exact congrArg (fun c => Clock.claim c k) hmodify

/-- With no other change that waits, it does claim. -/
theorem clock_changeAddress_free (hk : (s.applications[k]?).isSome)
    (hreq : s.addressChangeRequest = none) (address : Nat) :
    (s.changeAddress k address).2.clock = s.clock.claim k := by
  have hmodify : (s.modifyApp k (fun app => { app with address := address })).clock = s.clock := by
    refine s.clock_modifyApp_same k ?_
    exact fun _ => rfl
  obtain ⟨app, happ⟩ := Option.isSome_iff_exists.mp hk
  unfold changeAddress
  rw [happ]
  dsimp only
  unfold changeApplicationAddress
  rw [show (s.modifyApp k (fun app => { app with address := address })).addressChangeRequest = none
    from hreq]
  change (sendAddressClaim _ k).clock = _
  rw [clock_sendAddressClaim]
  exact congrArg (fun c => Clock.claim c k) hmodify

end Views

/-! ## 2. What a call does to the clock -/

/-- A claim is received at application `k`, from the bus or addressed. -/
def ReceivesClaim (defs : PGNDefinitions) (s : NMEA2KActiveController) (k : Nat)
    (msg : NMEA2000Msg) : Prop :=
  msg.pgn = 60928 ∧
    (∃ app, s.applications[k]? = some app ∧ (app.toNMEA2000Device.addPgnCount defs 60928).isSome) ∧
    ((msg.da ≠ 255 ∧ s.appIndex.lookup msg.da = some k) ∨
      (msg.da = 255 ∧ msg.sa < 254 ∧ s.gcLock = false ∧
        s.devices.lookup msg.sa = some (.application k)))

/-- The claim has the address of the application, and the application takes
another address, or the node goes off line. -/
def Restarts (s : NMEA2KActiveController) (k : Nat) (msg : NMEA2000Msg) : Prop :=
  ∃ app name, s.applications[k]? = some app ∧ app.address = msg.sa ∧
    AddressClaim.decode msg.payload = .ok name ∧
    ((nameValue name < nameValue app.name.intValue ∧ s.getNewAddress.1 ≠ 254 ∧
        s.addressChangeRequest = none) ∨
      (((nameValue name < nameValue app.name.intValue ∧ s.getNewAddress.1 = 254) ∨
        nameValue name = nameValue app.name.intValue) ∧ s.appTimer = true))

section Messages

variable {s : NMEA2KActiveController} {k : Nat} {msg : NMEA2000Msg}

/-- What a receipt leaves: the claim timer is cancelled, and then the
application claims anew, or stops, or nothing. -/
def Receipt (c : Clock) (k : Nat) (restarts : Prop) (c' : Clock) : Prop :=
  (¬ restarts ∧ c' = c.forget k) ∨ c' = (c.forget k).claim k ∨ c' = (c.forget k).stop

/-- **A claim at an application.** It has three ways out behind the cancelled timer, and
the first, which starts none, is taken only when the claim is no restart. -/
theorem clock_addressClaimReceipt {app : NMEA2000Application} (hk : s.applications[k]? = some app)
    (msg : NMEA2000Msg) :
    Receipt s.clock k (s.Restarts k msg) (s.addressClaimReceipt k msg).2.clock := by
  have hforget : (s.cancelTimer app.claimTimer).clock = s.clock.forget k := by
    unfold Clock.forget
    rw [clock_getElem?, hk, clock_cancelTimer]
    rfl
  have hnew : (s.cancelTimer app.claimTimer).getNewAddress.1 = s.getNewAddress.1 := by
    cases app.claimTimer <;> rfl
  have hreq : (s.cancelTimer app.claimTimer).addressChangeRequest = s.addressChangeRequest := by
    cases app.claimTimer <;> rfl
  have happTimer : (s.cancelTimer app.claimTimer).appTimer = s.appTimer := by
    cases app.claimTimer <;> rfl
  have happs : (s.cancelTimer app.claimTimer).applications = s.applications := by
    cases app.claimTimer <;> rfl
  -- a stop that does not come to its end is no restart
  have hstop : ∀ s' : NMEA2KActiveController, s'.clock = s.clock.forget k →
      s'.appTimer = s.appTimer → (s.appTimer ≠ true → ¬ s.Restarts k msg) →
      Receipt s.clock k (s.Restarts k msg) s'.stop.2.clock := by
    intro s' hclock htimer hnot
    by_cases h : s.appTimer = true
    · right; right
      rw [s'.clock_stop (htimer.trans h), hclock]
    · left
      refine ⟨hnot h, ?_⟩
      unfold stop
      rw [if_neg (by rw [htimer]; exact h)]
      exact hclock
  unfold addressClaimReceipt
  rw [hk]
  dsimp only
  split
  · rename_i hsa
    split
    · rename_i e hdec
      refine Or.inl ⟨?_, hforget⟩
      rintro ⟨app', name, -, -, hdec', -⟩
      rw [hdec] at hdec'
      cases hdec'
    · rename_i name hdec
      -- what a restart says of this claim
      have hrestarts : s.Restarts k msg →
          (nameValue name < nameValue app.name.intValue ∧ s.getNewAddress.1 ≠ 254 ∧
              s.addressChangeRequest = none) ∨
            (((nameValue name < nameValue app.name.intValue ∧ s.getNewAddress.1 = 254) ∨
              nameValue name = nameValue app.name.intValue) ∧ s.appTimer = true) := by
        rintro ⟨app', name', hk', -, hdec', hcase⟩
        rw [hk] at hk'
        cases hk'
        rw [hdec] at hdec'
        cases hdec'
        exact hcase
      rw [hnew]
      split
      · rename_i hlower
        split
        · rename_i hexhausted
          refine hstop _ hforget happTimer ?_
          intro hoff hre
          rcases hrestarts hre with ⟨-, hne, -⟩ | ⟨-, hon⟩
          · exact hne hexhausted
          · exact hoff hon
        · rename_i hleft
          by_cases hfree : s.addressChangeRequest = none
          · right; left
            rw [clock_changeAddress_free]
            · rw [clock_getNewAddress, hforget]
            · change ((s.cancelTimer app.claimTimer).applications[k]?).isSome
              rw [happs, hk]
              rfl
            · exact hreq.trans hfree
          · left
            refine ⟨?_, ?_⟩
            · intro hre
              rcases hrestarts hre with ⟨-, -, hnone⟩ | ⟨⟨-, hexhausted⟩ | hequal, -⟩
              · exact hfree hnone
              · exact hleft hexhausted
              · omega
            · obtain ⟨request, hrequest⟩ := Option.ne_none_iff_exists'.mp hfree
              unfold changeAddress
              rw [show (s.cancelTimer app.claimTimer).getNewAddress.2.applications[k]? = some app by
                change (s.cancelTimer app.claimTimer).applications[k]? = some app
                rw [happs, hk]]
              dsimp only
              unfold changeApplicationAddress
              rw [show ((s.cancelTimer app.claimTimer).getNewAddress.2.modifyApp k (fun app =>
                  { app with address := s.getNewAddress.1 })).addressChangeRequest = some request
                from hreq.trans hrequest]
              dsimp only [andThen]
              rw [clock_modifyApp_same _ _ (by exact fun _ => rfl), clock_getNewAddress, hforget]
      · rename_i hlower
        split
        · rename_i hequal
          refine hstop _ hforget happTimer ?_
          intro hoff hre
          rcases hrestarts hre with ⟨hlt, -⟩ | ⟨-, hon⟩
          · exact hlower hlt
          · exact hoff hon
        · rename_i hdiffer
          left
          refine ⟨?_, ?_⟩
          · intro hre
            rcases hrestarts hre with ⟨hlt, -⟩ | ⟨⟨hlt, -⟩ | hequal, -⟩
            · exact hlower hlt
            · exact hlower hlt
            · exact hdiffer hequal
          · rw [clock_respondAddressClaim, hforget]
  · rename_i hsa
    refine Or.inl ⟨?_, hforget⟩
    rintro ⟨app', name, hk', hsa', -⟩
    rw [hk] at hk'
    cases hk'
    exact hsa hsa'

/-- A restart does not depend on the fields that `receive_msg` counts in. -/
theorem restarts_modifyApp {f : NMEA2000Application → NMEA2000Application}
    (hf : ∀ app, (f app).address = app.address ∧ (f app).name = app.name) :
    (s.modifyApp k f).Restarts k msg ↔ s.Restarts k msg := by
  have hget : (s.modifyApp k f).applications[k]? = s.applications[k]?.map f := by
    change (s.applications.modify k f)[k]? = _
    rw [List.getElem?_modify]
    simp
  unfold Restarts
  rw [hget]
  constructor
  · rintro ⟨app, name, happ, hsa, hdec, hcase⟩
    obtain ⟨app', happ', rfl⟩ := Option.map_eq_some_iff.mp happ
    rw [(hf app').1] at hsa
    rw [(hf app').2] at hcase
    exact ⟨app', name, happ', hsa, hdec, hcase⟩
  · rintro ⟨app, name, happ, hsa, hdec, hcase⟩
    refine ⟨f app, name, by rw [happ]; rfl, (hf app).1.trans hsa, hdec, ?_⟩
    rw [(hf app).2]
    exact hcase

/-- **A message at an application**: only a claim whose PGN is known changes its
clock. -/
theorem clock_receiveMsg (defs : PGNDefinitions) (now : Time) (s : NMEA2KActiveController) (k : Nat)
    (msg : NMEA2000Msg) :
    (receiveMsg defs now s k msg).2.clock = s.clock ∨
      (msg.pgn = 60928 ∧
        (∃ app, s.applications[k]? = some app ∧
          (app.toNMEA2000Device.addPgnCount defs 60928).isSome) ∧
        Receipt s.clock k (s.Restarts k msg) (receiveMsg defs now s k msg).2.clock) := by
  unfold receiveMsg
  split
  · exact Or.inl rfl
  · rename_i app hk
    dsimp only
    have hts : (s.modifyApp k (fun app => { app with lastmsgTs := now })).clock = s.clock := by
      refine s.clock_modifyApp_same k ?_
      exact fun _ => rfl
    split
    · exact Or.inl hts
    · rename_i dev hdev
      have hboth : ((s.modifyApp k (fun app => { app with lastmsgTs := now })).modifyApp k
          (fun app => { app with pgnReceived := dev.pgnReceived })).clock = s.clock := by
        refine (clock_modifyApp_same _ k ?_).trans hts
        exact fun _ => rfl
      rw [clock_exceptKeyError]
      unfold processVector
      split
      · rename_i hpgn
        right
        refine ⟨hpgn, ⟨app, hk, ?_⟩, ?_⟩
        · rw [← hpgn, hdev]
          rfl
        · have hrestarts : ((s.modifyApp k (fun app => { app with lastmsgTs := now })).modifyApp k
              (fun app => { app with pgnReceived := dev.pgnReceived })).Restarts k msg
                ↔ s.Restarts k msg :=
            (restarts_modifyApp (by exact fun _ => ⟨rfl, rfl⟩)).trans
              (restarts_modifyApp (by exact fun _ => ⟨rfl, rfl⟩))
          have hk' : ((s.modifyApp k (fun app => { app with lastmsgTs := now })).modifyApp k
              (fun app => { app with pgnReceived := dev.pgnReceived })).applications[k]?
              = some { app with lastmsgTs := now, pgnReceived := dev.pgnReceived } := by
            simp [modifyApp, hk]
          have hreceipt := clock_addressClaimReceipt hk' msg
          rw [hboth] at hreceipt
          unfold Receipt at hreceipt ⊢
          rw [hrestarts] at hreceipt
          exact hreceipt
      · left
        split
        · exact (clock_isoRequest _ _ _).trans hboth
        · split
          · exact (clock_groupFunctionHandler _ _ _).trans hboth
          · split
            · exact hboth
            · -- the handlers of the superclass change fields of the device only
              dsimp only
              refine (clock_modifyApp_same _ k ?_).trans hboth
              exact fun _ => rfl

/-- The change of address that waited is one of the index only. -/
theorem clock_applyChange (s : NMEA2KActiveController) :
    s.applyChangeApplicationAddress.2.clock = s.clock := by
  have hremove : ∀ old, (s.removeApplicationIndex old).2.clock = s.clock := by
    intro old
    unfold removeApplicationIndex
    split
    · rfl
    · dsimp only
      split <;> rfl
  unfold applyChangeApplicationAddress
  split
  · rfl
  · rename_i k old _
    by_cases hr : (s.removeApplicationIndex old).1 = .returned
    · rw [andThen_returned hr]
      split
      · exact hremove old
      · exact hremove old
    · rw [andThen_not_returned hr]
      exact hremove old

/-- A commanded address makes its application claim. -/
theorem clock_receiveIsoMsg (s : NMEA2KActiveController) (k : Nat) (msg : NMEA2000Msg) :
    (s.receiveIsoMsg k msg).2.clock = s.clock ∨ (s.receiveIsoMsg k msg).2.clock = s.clock.claim k := by
  unfold receiveIsoMsg
  split
  · rw [clock_exceptKeyError]
    exact Or.inl (clock_isoRequest ..)
  · split
    · rw [clock_exceptKeyError]
      exact Or.inl (clock_remoteAddressClaim ..)
    · split
      · rw [clock_exceptKeyError]
        unfold commandedAddressRequest
        split
        · exact Or.inl rfl
        · split
          · exact Or.inl rfl
          · split
            · exact Or.inl rfl
            · exact clock_changeAddress s k _
      · exact Or.inl rfl

/-- No other PGN makes an application claim here. -/
theorem clock_receiveIsoMsg_other (s : NMEA2KActiveController) (k : Nat) (hpgn : msg.pgn ≠ 65240) :
    (s.receiveIsoMsg k msg).2.clock = s.clock := by
  unfold receiveIsoMsg
  split
  · rw [clock_exceptKeyError, clock_isoRequest]
  · split
    · rw [clock_exceptKeyError, clock_remoteAddressClaim]
    · rfl

/-- A message for all applications makes some of them claim. -/
theorem clock_broadcast (msg : NMEA2000Msg) (l : List Nat) (s : NMEA2KActiveController) :
    ∃ ks : List Nat, (broadcast msg s l).2.clock = ks.foldl Clock.claim s.clock := by
  induction l generalizing s with
  | nil => exact ⟨[], rfl⟩
  | cons k l ih =>
    have hone : ∃ ks : List Nat, (s.receiveIsoMsg k msg).2.clock = ks.foldl Clock.claim s.clock := by
      rcases clock_receiveIsoMsg s k msg with h | h
      · exact ⟨[], h⟩
      · exact ⟨[k], h⟩
    obtain ⟨ks, hks⟩ := hone
    rw [broadcast]
    by_cases hr : (s.receiveIsoMsg k msg).1 = .returned
    · rw [andThen_returned hr]
      obtain ⟨ks', hks'⟩ := ih (s.receiveIsoMsg k msg).2
      exact ⟨ks ++ ks', by rw [hks', hks, List.foldl_append]⟩
    · rw [andThen_not_returned hr]
      exact ⟨ks, hks⟩

/-- Only a commanded address does. -/
theorem clock_broadcast_other (hpgn : msg.pgn ≠ 65240) (l : List Nat) (s : NMEA2KActiveController) :
    (broadcast msg s l).2.clock = s.clock := by
  induction l generalizing s with
  | nil => rfl
  | cons k l ih =>
    rw [broadcast]
    by_cases hr : (s.receiveIsoMsg k msg).1 = .returned
    · rw [andThen_returned hr, ih, clock_receiveIsoMsg_other s k hpgn]
    · rw [andThen_not_returned hr, clock_receiveIsoMsg_other s k hpgn]

/-- What comes behind the superclass. -/
theorem clock_tail (r : Outcome × NMEA2KActiveController) (msg : NMEA2000Msg) :
    ∃ ks : List Nat, (andThen r fun s =>
        andThen (broadcast msg s (List.range s.applications.length)) fun s =>
          s.applyChangeApplicationAddress).2.clock = ks.foldl Clock.claim r.2.clock ∧
      (msg.pgn ≠ 65240 → ks = []) := by
  by_cases hr : r.1 = .returned
  · rw [andThen_returned hr]
    have hlast : (andThen (broadcast msg r.2 (List.range r.2.applications.length)) fun s =>
        s.applyChangeApplicationAddress).2.clock
          = (broadcast msg r.2 (List.range r.2.applications.length)).2.clock := by
      by_cases hb : (broadcast msg r.2 (List.range r.2.applications.length)).1 = .returned
      · rw [andThen_returned hb, clock_applyChange]
      · rw [andThen_not_returned hb]
    rw [hlast]
    by_cases hpgn : msg.pgn = 65240
    · obtain ⟨ks, hks⟩ := clock_broadcast msg (List.range r.2.applications.length) r.2
      exact ⟨ks, hks, fun hne => absurd hpgn hne⟩
    · exact ⟨[], clock_broadcast_other hpgn _ _, fun _ => rfl⟩
  · rw [andThen_not_returned hr]
    exact ⟨[], rfl, fun _ => rfl⟩

/-- **A message**: some applications claim, or one receives a claim. -/
theorem clock_processMsg (defs : PGNDefinitions) (now : Time) (s : NMEA2KActiveController)
    (msg : NMEA2000Msg) :
    (∃ ks : List Nat, (processMsg defs now s msg).2.clock = ks.foldl Clock.claim s.clock) ∨
      ∃ k, s.ReceivesClaim defs k msg ∧
        Receipt s.clock k (s.Restarts k msg) (processMsg defs now s msg).2.clock := by
  unfold processMsg
  by_cases hda : msg.da = 255
  · rw [if_neg (fun hne => hne hda)]
    split
    · obtain ⟨ks, hks, hnone⟩ := clock_tail (superProcessMsg defs now s msg) msg
      rw [hks]
      rcases superProcessMsg_state defs now s msg with hsame | ⟨hsa, hlock, lock, hstate⟩
      · rw [hsame]
        exact Or.inl ⟨ks, rfl⟩
      · have hdevice : (superProcessMsg defs now s msg).2.clock
            = (deviceReceive defs now { s with gcLock := true } msg).2.clock := by
          rw [hstate]
          rfl
        rw [hdevice]
        by_cases happ : ∃ k, s.devices.lookup msg.sa = some (.application k)
        · obtain ⟨k, hk⟩ := happ
          have hreceive : deviceReceive defs now { s with gcLock := true } msg
              = receiveMsg defs now { s with gcLock := true } k msg := by
            unfold deviceReceive
            rw [show ({ s with gcLock := true } : NMEA2KActiveController).devices.lookup msg.sa
              = some (.application k) from hk]
          rw [hreceive]
          rcases clock_receiveMsg defs now { s with gcLock := true } k msg with
            hkept | ⟨hpgn, hknown, hreceipt⟩
          · rw [hkept]
            exact Or.inl ⟨ks, rfl⟩
          · rw [hnone (by omega)]
            exact Or.inr ⟨k, ⟨hpgn, hknown, Or.inr ⟨hda, hsa, hlock, hk⟩⟩, hreceipt⟩
        · left
          refine ⟨ks, ?_⟩
          congr 1
          unfold deviceReceive
          dsimp only
          split
          · rename_i k hk
            exact absurd ⟨k, hk⟩ happ
          · rfl
          · rfl
    · exact Or.inl ⟨[], rfl⟩
  · rw [if_pos hda]
    split
    · exact Or.inl ⟨[], rfl⟩
    · rename_i k hk
      split
      · rcases clock_receiveMsg defs now s k msg with hkept | ⟨hpgn, hknown, hreceipt⟩
        · exact Or.inl ⟨[], hkept⟩
        · exact Or.inr ⟨k, ⟨hpgn, hknown, Or.inl ⟨hda, hk⟩⟩, hreceipt⟩
      · exact Or.inl ⟨[], rfl⟩

end Messages

section Calls

/-- A new application, unless its address is refused. -/
theorem clock_addApplication (s : NMEA2KActiveController) (address : Option Nat)
    (deviceClass deviceFunction : Nat) (info : ProductInformation) :
    (s.addApplication address deviceClass deviceFunction info).2.clock = s.clock ∨
      (s.addApplication address deviceClass deviceFunction info).2.clock = s.clock.add := by
  obtain ⟨address', s', hfrom, hcase⟩ := s.addApplication_cases address deviceClass deviceFunction info
  have hclock : s'.clock = s.clock := by
    rcases hfrom with ⟨rfl, -⟩ | ⟨rfl, -⟩
    · rfl
    · exact s.clock_getNewAddress
  rcases hcase with heq | ⟨a, name, -, -, heq⟩
  · left
    rw [heq]
    exact hclock
  · right
    rw [heq, ← hclock]
    unfold addNamed addApplicationIndex clock Clock.add
    dsimp only
    rw [List.map_append]
    rfl

/-- The garbage collection of the devices. -/
theorem clock_deviceGc (now : Time) (s : NMEA2KActiveController) :
    (s.deviceGc now).2.clock = s.clock := by
  unfold deviceGc
  split
  · rfl
  · split <;> rfl

/-- What a call does to the clock. -/
def ClockStep (defs : PGNDefinitions) (s : NMEA2KActiveController) (c : Clock) : EcuCall → Prop
  | .addApplication .. => c = s.clock ∨ c = s.clock.add
  | .message _ msg =>
      (∃ ks : List Nat, c = ks.foldl Clock.claim s.clock) ∨
        (s.stopFlag = false ∧ ∃ k, s.ReceivesClaim defs k msg ∧
          Receipt s.clock k (s.Restarts k msg) c)
  | .expire i => c = s.clock.expire i
  | .busReady _ | .pollDevices => ∃ ks : List Nat, c = ks.foldl Clock.claim s.clock
  | .stop => c = s.clock ∨ c = s.clock.stop
  | .started | .deviceGc _ | .addSubscriber .. => c = s.clock

/-- **Any call**, in terms of the clock. -/
theorem call_clock (defs : PGNDefinitions) (s : NMEA2KActiveController) (call : EcuCall) :
    s.ClockStep defs (s.call defs call).2.clock call := by
  cases call with
  | addApplication address deviceClass deviceFunction info =>
    exact s.clock_addApplication address deviceClass deviceFunction info
  | started => rfl
  | busReady k => exact ⟨[k], s.clock_sendAddressClaim k⟩
  | message now msg =>
    rw [NMEA2KActiveController.call]
    by_cases hstop : s.stopFlag = true
    · rw [if_pos hstop]
      exact Or.inl ⟨[], rfl⟩
    · rw [if_neg hstop]
      rcases clock_processMsg defs now s msg with hclaims | ⟨k, hreceives, hreceipt⟩
      · exact Or.inl hclaims
      · exact Or.inr ⟨by simpa using hstop, k, hreceives, hreceipt⟩
  | expire i => exact s.clock_expire i
  | pollDevices =>
    rw [NMEA2KActiveController.call]
    split
    · exact ⟨[], rfl⟩
    · exact ⟨[0], s.clock_sendAddressClaim 0⟩
  | deviceGc now => exact clock_deviceGc now s
  | addSubscriber pgn function => rfl
  | stop => exact s.clock_stop_cases

end Calls

/-! ## 3. Claims -/

/-- An application that claims has a claim timer pending, and is active when
it expires. -/
structure ClaimTimerArmed (s : NMEA2KActiveController) : Prop where
  armed : s.stopFlag = false → ∀ (k : Nat) (app : NMEA2000Application),
    s.applications[k]? = some app → app.state = .addressClaim →
      ∃ i : Nat, s.timers[i]? = some ⟨k, .claim, .pending⟩
  active : ∀ (k i : Nat) (app : NMEA2000Application),
    s.timers[i]? = some ⟨k, .claim, .pending⟩ → (s.expire i).applications[k]? = some app →
      app.state = .active

/-- **The condition of a step**: the claim that an application receives while it
claims makes it claim anew or stops the node, or a claim timer other than the
one it remembers is pending. -/
def KeepsClaims (defs : PGNDefinitions) (s : NMEA2KActiveController) : EcuCall → Prop
  | .message _ msg => s.stopFlag = false →
      ∀ (k : Nat) (app : NMEA2000Application), s.ReceivesClaim defs k msg →
        s.applications[k]? = some app → app.state = .addressClaim →
          s.Restarts k msg ∨
            ∃ i : Nat, app.claimTimer ≠ some i ∧ s.timers[i]? = some ⟨k, .claim, .pending⟩
  | _ => True

section Claims

variable {s : NMEA2KActiveController}

/-- Several applications claim one after the other. -/
theorem claims_foldl (ks : List Nat) {c : Clock} (h : c.Owned ∧ c.Armed) :
    (ks.foldl Clock.claim c).Owned ∧ (ks.foldl Clock.claim c).Armed := by
  induction ks generalizing c with
  | nil => exact h
  | cons k ks ih => exact ih ⟨h.1.claim k, h.2.claim k⟩

/-- **A step keeps the claim timers.** -/
theorem armed_call (defs : PGNDefinitions) (call : EcuCall)
    (h : s.clock.Owned ∧ s.clock.Armed) (hkeeps : s.KeepsClaims defs call) :
    (s.call defs call).2.clock.Owned ∧ (s.call defs call).2.clock.Armed := by
  have hstep := s.call_clock defs call
  cases call with
  | addApplication address deviceClass deviceFunction info =>
    rcases hstep with hsame | hadd
    · rw [hsame]
      exact h
    · rw [hadd]
      exact ⟨h.1.add, h.2.add⟩
  | started =>
    rw [hstep]
    exact h
  | busReady k =>
    obtain ⟨ks, hks⟩ := hstep
    rw [hks]
    exact claims_foldl ks h
  | message now msg =>
    rcases hstep with ⟨ks, hks⟩ | ⟨hrun, k, hreceives, hreceipt⟩
    · rw [hks]
      exact claims_foldl ks h
    · rcases hreceipt with ⟨hnot, hforget⟩ | hclaim | hstop
      · rw [hforget]
        refine ⟨h.1.forget k, ?_⟩
        intro _ j
        refine (h.2 hrun j).forget h.1 k ?_
        rintro rfl a ha hstate
        rw [clock_getElem?] at ha
        obtain ⟨app, happ, rfl⟩ := Option.map_eq_some_iff.mp ha
        rcases hkeeps hrun j app hreceives happ hstate with hrestarts | hother
        · exact absurd hrestarts hnot
        · exact hother
      · rw [hclaim]
        exact ⟨(h.1.forget k).claim k, h.2.forget_claim h.1 k⟩
      · rw [hstop]
        exact ⟨(h.1.forget k).stop, Clock.Armed.stop _⟩
  | expire i =>
    rw [hstep]
    exact ⟨h.1.expire i, h.2.expire i⟩
  | pollDevices =>
    obtain ⟨ks, hks⟩ := hstep
    rw [hks]
    exact claims_foldl ks h
  | deviceGc now =>
    rw [hstep]
    exact h
  | addSubscriber pgn function =>
    rw [hstep]
    exact h
  | stop =>
    rcases hstep with hsame | hstop
    · rw [hsame]
      exact h
    · rw [hstop]
      exact ⟨h.1.stop, Clock.Armed.stop _⟩

/-- Back from the clock to the node. -/
theorem claimTimerArmed_of_clock (h : s.clock.Armed) : ClaimTimerArmed s := by
  refine ⟨?_, ?_⟩
  · intro hrun k app hk hstate
    exact h hrun k (AppClock.of app) (by rw [clock_getElem?, hk]; rfl) hstate
  · intro k i app hi hk
    have ha : (s.clock.expire i).apps[k]? = some (AppClock.of app) := by
      rw [← clock_expire, clock_getElem?, hk]
      rfl
    exact Clock.expire_claim (c := s.clock) hi ha

end Claims

/-- **In every run whose claim receipts leave or start a claim timer, no
application is stuck in a claim.** -/
theorem claim_timer_armed (defs : PGNDefinitions) (pool : NMEA2000ApplicationPool) (maxSilent : Time)
    (calls : List EcuCall)
    (hkeeps : ∀ mv ∈ (ecuCalls defs).trace (.init pool maxSilent) calls,
      mv.pre.KeepsClaims defs mv.input) :
    ∀ mv ∈ (ecuCalls defs).trace (.init pool maxSilent) calls,
      ClaimTimerArmed mv.pre ∧ ClaimTimerArmed mv.post := by
  have hinit : (init pool maxSilent).clock.Owned ∧ (init pool maxSilent).clock.Armed := by
    refine ⟨?_, ?_⟩
    · intro k a kind i hk
      cases hk
    · intro _ k a hk
      cases hk
  intro mv hmv
  have hclock := Machine.trace_invariant (ecuCalls defs)
    (fun s => s.clock.Owned ∧ s.clock.Armed) (KeepsClaims defs)
    (fun _ call hs hc => armed_call defs call hs hc) hinit calls hkeeps mv hmv
  exact ⟨claimTimerArmed_of_clock hclock.1.2, claimTimerArmed_of_clock hclock.2.2⟩

/-- A claim with a lower NAME, while the application claims. -/
theorem claim_timer_armed_broadcast :
    (∀ mv ∈ (ecuCalls claimDefs).trace (.init (.init 999 2 1 128) 60) broadcastRun,
      mv.pre.KeepsClaims claimDefs mv.input) ∧
    ∀ mv ∈ (ecuCalls claimDefs).trace (.init (.init 999 2 1 128) 60) broadcastRun,
      ClaimTimerArmed mv.pre ∧ ClaimTimerArmed mv.post := by
  have hkeeps : ∀ mv ∈ (ecuCalls claimDefs).trace (.init (.init 999 2 1 128) 60) broadcastRun,
      mv.pre.KeepsClaims claimDefs mv.input := by
    intro mv hmv
    simp only [broadcastRun, Machine.trace_cons, Machine.trace_nil, List.mem_cons,
      List.not_mem_nil, or_false] at hmv
    rcases hmv with rfl | rfl | rfl
    · trivial
    · trivial
    · intro _ k app hreceives happ hstate
      left
      obtain ⟨-, -, ⟨hda, -⟩ | ⟨-, -, -, hk⟩⟩ := hreceives
      · exact absurd rfl hda
      · cases hk
        cases happ
        exact ⟨_, 0, rfl, rfl, rfl, Or.inl ⟨by decide, by decide, rfl⟩⟩
  exact ⟨hkeeps, claim_timer_armed claimDefs (.init 999 2 1 128) 60 broadcastRun hkeeps⟩

/-- A claim with a higher NAME. -/
def defendedRun : List EcuCall :=
  [.addApplication none 25 130 ⟨2100, 1, [], [], [], [], 0, 1⟩, .busReady 0,
    .message 0 (.of 60928 6 128 255 [255, 255, 255, 255, 255, 255, 255, 255])]

/-- **The application keeps its address, and claims for ever.** -/
theorem not_claim_timer_armed_defended :
    ¬ ∀ mv ∈ (ecuCalls claimDefs).trace (.init (.init 999 2 1 128) 60) defendedRun,
      ClaimTimerArmed mv.pre ∧ ClaimTimerArmed mv.post := by
  intro h
  have hlast := (h _ (List.mem_cons_of_mem _ (List.mem_cons_of_mem _ List.mem_cons_self))).2
  obtain ⟨i, hi⟩ := hlast.armed rfl 0 _ rfl rfl
  have htimers : ((ecuCalls claimDefs).final (.init (.init 999 2 1 128) 60) defendedRun).timers
      = [⟨0, .claim, .cancelled⟩] := rfl
  change ((ecuCalls claimDefs).final (.init (.init 999 2 1 128) 60) defendedRun).timers[i]? = _ at hi
  rw [htimers] at hi
  have hmem := List.mem_of_getElem? hi
  exact absurd hmem (by decide)

/-! ## 4. Heartbeats -/

/-- The heartbeat timer that is pending is the one that is remembered, there is
no other one, and none when the application is stopping. -/
structure HeartbeatChain (s : NMEA2KActiveController) : Prop where
  remembered : ∀ k i : Nat, s.timers[i]? = some ⟨k, .heartbeat, .pending⟩ →
    ∃ app, s.applications[k]? = some app ∧ app.heartbeatTimer = some i
  unique : ∀ k i j : Nat, s.timers[i]? = some ⟨k, .heartbeat, .pending⟩ →
    s.timers[j]? = some ⟨k, .heartbeat, .pending⟩ → i = j
  stopped : ∀ (k : Nat) (app : NMEA2000Application), s.applications[k]? = some app →
    app.state = .stopInProgress → ∀ i : Nat, s.timers[i]? ≠ some ⟨k, .heartbeat, .pending⟩

/-- **The condition of a step**: a claim timer expires for an application that
is not stopping and has no heartbeat timer pending. -/
def StartsOneChain (s : NMEA2KActiveController) : EcuCall → Prop
  | .expire i => ∀ k : Nat, s.timers[i]? = some ⟨k, .claim, .pending⟩ →
      (∀ app, s.applications[k]? = some app → app.state ≠ .stopInProgress) ∧
        ∀ j : Nat, s.timers[j]? ≠ some ⟨k, .heartbeat, .pending⟩
  | _ => True

section Heartbeats

variable {s : NMEA2KActiveController} {k : Nat}

/-- An application that is stopping, in the clock and in the node. -/
theorem stopping_iff :
    s.clock.Stopping k ↔ ∃ app, s.applications[k]? = some app ∧ app.state = .stopInProgress := by
  unfold Clock.Stopping
  rw [clock_getElem?]
  constructor
  · rintro ⟨a, ha, hstate⟩
    obtain ⟨app, happ, rfl⟩ := Option.map_eq_some_iff.mp ha
    exact ⟨app, happ, hstate⟩
  · rintro ⟨app, happ, hstate⟩
    exact ⟨AppClock.of app, by rw [happ]; rfl, hstate⟩

/-- The condition, in terms of the clock. -/
theorem StartsOneChain.clock {i : Nat} (h : s.StartsOneChain (.expire i)) :
    s.clock.StartsChain i := by
  intro k hk
  obtain ⟨hstate, hnone⟩ := h k hk
  refine ⟨?_, hnone⟩
  intro hstop
  obtain ⟨app, happ, hstopped⟩ := stopping_iff.mp hstop
  exact hstate app happ hstopped

/-- Several applications claim: no heartbeat is started. -/
theorem chained_foldl (ks : List Nat) {c : Clock} (h : c.Chained) :
    (ks.foldl Clock.claim c).Chained := by
  induction ks generalizing c with
  | nil => exact h
  | cons k ks ih => exact ih (h.claim k)

/-- And none that is stopping goes on. -/
theorem stopping_foldl (ks : List Nat) {c : Clock} (h : c.Stopping k) :
    (ks.foldl Clock.claim c).Stopping k := by
  induction ks generalizing c with
  | nil => exact h
  | cons k' ks ih => exact ih (h.claim k')

/-- A claim timer is not a heartbeat timer. -/
theorem chained_forget {c : Clock} (h : c.Chained) (k : Nat) : (c.forget k).Chained := by
  unfold Clock.forget
  split
  · exact h
  · exact h.cancel _

/-- **A step keeps one chain of heartbeats.** -/
theorem chained_call (defs : PGNDefinitions) (call : EcuCall) (h : s.clock.Chained)
    (hkeeps : s.StartsOneChain call) : (s.call defs call).2.clock.Chained := by
  have hstep := s.call_clock defs call
  cases call with
  | addApplication address deviceClass deviceFunction info =>
    rcases hstep with hsame | hadd
    · rw [hsame]
      exact h
    · rw [hadd]
      exact h.add
  | started =>
    rw [hstep]
    exact h
  | busReady k =>
    obtain ⟨ks, hks⟩ := hstep
    rw [hks]
    exact chained_foldl ks h
  | message now msg =>
    rcases hstep with ⟨ks, hks⟩ | ⟨-, k, -, ⟨-, hforget⟩ | hclaim | hstop⟩
    · rw [hks]
      exact chained_foldl ks h
    · rw [hforget]
      exact chained_forget h k
    · rw [hclaim]
      exact (chained_forget h k).claim k
    · rw [hstop]
      exact (chained_forget h k).stop
  | expire i =>
    rw [hstep]
    exact h.expire hkeeps.clock
  | pollDevices =>
    obtain ⟨ks, hks⟩ := hstep
    rw [hks]
    exact chained_foldl ks h
  | deviceGc now =>
    rw [hstep]
    exact h
  | addSubscriber pgn function =>
    rw [hstep]
    exact h
  | stop =>
    rcases hstep with hsame | hstop
    · rw [hsame]
      exact h
    · rw [hstop]
      exact h.stop

/-- **An application that is stopping stays so.** -/
theorem stopping_call (defs : PGNDefinitions) (call : EcuCall) (h : s.clock.Stopping k)
    (hkeeps : s.StartsOneChain call) : (s.call defs call).2.clock.Stopping k := by
  have hstep := s.call_clock defs call
  cases call with
  | addApplication address deviceClass deviceFunction info =>
    rcases hstep with hsame | hadd
    · rw [hsame]
      exact h
    · rw [hadd]
      exact h.add
  | started =>
    rw [hstep]
    exact h
  | busReady k =>
    obtain ⟨ks, hks⟩ := hstep
    rw [hks]
    exact stopping_foldl ks h
  | message now msg =>
    rcases hstep with ⟨ks, hks⟩ | ⟨-, k, -, ⟨-, hforget⟩ | hclaim | hstop⟩
    · rw [hks]
      exact stopping_foldl ks h
    · rw [hforget]
      exact h.forget k
    · rw [hclaim]
      exact (h.forget k).claim k
    · rw [hstop]
      exact (h.forget k).stop
  | expire i =>
    rw [hstep]
    exact h.expire hkeeps.clock
  | pollDevices =>
    obtain ⟨ks, hks⟩ := hstep
    rw [hks]
    exact stopping_foldl ks h
  | deviceGc now =>
    rw [hstep]
    exact h
  | addSubscriber pgn function =>
    rw [hstep]
    exact h
  | stop =>
    rcases hstep with hsame | hstop
    · rw [hsame]
      exact h
    · rw [hstop]
      exact h.stop

/-- Back from the clock to the node. -/
theorem heartbeatChain_of_clock (h : s.clock.Chained) : HeartbeatChain s := by
  refine ⟨?_, ?_, ?_⟩
  · intro k i hi
    obtain ⟨a, ha, htimer, -⟩ := h k i hi
    rw [clock_getElem?] at ha
    obtain ⟨app, happ, rfl⟩ := Option.map_eq_some_iff.mp ha
    exact ⟨app, happ, htimer⟩
  · intro k i j hi hj
    exact h.unique hi hj
  · intro k app happ hstate i
    exact h.stopping (stopping_iff.mpr ⟨app, happ, hstate⟩) i

end Heartbeats

/-- **In every run in which each claim timer expires for an application that has
no heartbeat timer and is not stopping, there is one chain of heartbeats, and
once an application is stopping there is none in any later state.** -/
theorem heartbeat_chain (defs : PGNDefinitions) (pool : NMEA2000ApplicationPool) (maxSilent : Time)
    (calls : List EcuCall)
    (hkeeps : ∀ mv ∈ (ecuCalls defs).trace (.init pool maxSilent) calls,
      mv.pre.StartsOneChain mv.input) :
    (∀ mv ∈ (ecuCalls defs).trace (.init pool maxSilent) calls,
      HeartbeatChain mv.pre ∧ HeartbeatChain mv.post) ∧
    ∀ (before after : List EcuCall) (k : Nat) (app : NMEA2000Application), calls = before ++ after →
      ((ecuCalls defs).final (.init pool maxSilent) before).applications[k]? = some app →
      app.state = .stopInProgress →
        ∀ i : Nat, ((ecuCalls defs).final (.init pool maxSilent) calls).timers[i]?
          ≠ some ⟨k, .heartbeat, .pending⟩ := by
  have hinit : (init pool maxSilent).clock.Chained := by
    intro k i hi
    cases hi
  have hstep : ∀ (s : NMEA2KActiveController) (call : EcuCall), s.clock.Chained →
      s.StartsOneChain call → ((ecuCalls defs).step s call).2.clock.Chained :=
    fun _ call hs hc => chained_call defs call hs hc
  refine ⟨?_, ?_⟩
  · intro mv hmv
    have hclock := Machine.trace_invariant (ecuCalls defs) (fun s => s.clock.Chained) StartsOneChain
      hstep hinit calls hkeeps mv hmv
    exact ⟨heartbeatChain_of_clock hclock.1, heartbeatChain_of_clock hclock.2⟩
  · rintro before after k app rfl happ hstate
    rw [Machine.trace_append] at hkeeps
    have hbefore := Machine.final_invariant (ecuCalls defs) (fun s => s.clock.Chained) StartsOneChain
      hstep hinit before (fun mv hmv => hkeeps mv (List.mem_append_left _ hmv))
    have hstop : ((ecuCalls defs).final (.init pool maxSilent) before).clock.Stopping k :=
      stopping_iff.mpr ⟨app, happ, hstate⟩
    have hafter := Machine.final_invariant (ecuCalls defs)
      (fun s => s.clock.Chained ∧ s.clock.Stopping k) StartsOneChain
      (fun s call hs hc => ⟨chained_call defs call hs.1 hc, stopping_call defs call hs.2 hc⟩)
      ⟨hbefore, hstop⟩ after (fun mv hmv => hkeeps mv (List.mem_append_right _ hmv))
    rw [Machine.final_append]
    exact hafter.1.stopping hafter.2

/-- A claim comes through, the heartbeat goes on, and the node stops. -/
def heartbeatRun : List EcuCall :=
  [.addApplication none 25 130 ⟨2100, 1, [], [], [], [], 0, 1⟩, .started, .busReady 0, .expire 0,
    .expire 1, .stop, .expire 2]

theorem heartbeat_chain_stop :
    (∀ mv ∈ (ecuCalls claimDefs).trace (.init (.init 999 2 1 128) 60) heartbeatRun,
      mv.pre.StartsOneChain mv.input) ∧
    (∀ mv ∈ (ecuCalls claimDefs).trace (.init (.init 999 2 1 128) 60) heartbeatRun,
      HeartbeatChain mv.pre ∧ HeartbeatChain mv.post) ∧
    ∀ i : Nat, ((ecuCalls claimDefs).final (.init (.init 999 2 1 128) 60) heartbeatRun).timers[i]?
      ≠ some ⟨0, .heartbeat, .pending⟩ := by
  have hkeeps : ∀ mv ∈ (ecuCalls claimDefs).trace (.init (.init 999 2 1 128) 60) heartbeatRun,
      mv.pre.StartsOneChain mv.input := by
    intro mv hmv
    simp only [heartbeatRun, Machine.trace_cons, Machine.trace_nil, List.mem_cons,
      List.not_mem_nil, or_false] at hmv
    rcases hmv with rfl | rfl | rfl | rfl | rfl | rfl | rfl
    · trivial
    · trivial
    · trivial
    · intro k hk
      cases hk
      refine ⟨?_, ?_⟩
      · intro app happ
        cases happ
        decide
      · intro j hj
        exact absurd (List.mem_of_getElem? hj) (by decide)
    · intro k hk
      cases hk
    · trivial
    · intro k hk
      cases hk
  have hchain := heartbeat_chain claimDefs (.init 999 2 1 128) 60 heartbeatRun hkeeps
  exact ⟨hkeeps, hchain.1,
    hchain.2 (heartbeatRun.take 6) (heartbeatRun.drop 6) 0 _ rfl rfl rfl⟩

/-- The devices are polled once the application is active. -/
def pollRun : List EcuCall :=
  [.addApplication none 25 130 ⟨2100, 1, [], [], [], [], 0, 1⟩, .busReady 0, .expire 0,
    .pollDevices, .expire 2]

/-- **The second claim forks the chain.** -/
theorem not_heartbeat_chain_poll :
    ¬ ∀ mv ∈ (ecuCalls claimDefs).trace (.init (.init 999 2 1 128) 60) pollRun,
      HeartbeatChain mv.pre ∧ HeartbeatChain mv.post := by
  intro h
  have hlast := (h _ (List.mem_cons_of_mem _ (List.mem_cons_of_mem _ (List.mem_cons_of_mem _
    (List.mem_cons_of_mem _ List.mem_cons_self))))).2
  exact absurd (hlast.unique 0 1 3 rfl rfl) (by decide)

end NMEA2KActiveController

end NavigationServer.CanInterface
