/-
NavigationServer.CanInterface.ArbitrationTheorems — the arbitration of an
address is safe.

`arbitration_safe` : two running nodes claim one address, and messages are
delivered in any order. The node with the lower NAME keeps the address in every
state; the other one keeps it, goes to an address that its own table does not
have, or goes off line; and once a claim of the first has been delivered to it,
it uses the address no more.

The invariant of a node is `Node`. A step that is `Quiet` changes neither the
address nor the NAME, and sends claims with these only.

Every step of the lower node is quiet, since a message of the higher one is `Harmless` to
it, and so is every step of the higher node but one: the delivery of a claim of the
address that it uses. That one is followed through the whole of `process_msg`, from the
receipt (`addressClaimReceipt_lost`) over the broadcast to the second half of the change,
which has to find the entry that the first half left (`Node.loses`).

There are two nodes and one application in each. Any number of nodes is in
`ClaimNetworkTheorems`, which uses the same invariant. That two NAMEs are equal is
left out here; such nodes both go off line.
-/
import NavigationServer.CanInterface.AddressTheorems
import NavigationServer.CanInterface.Arbitration

namespace NavigationServer.CanInterface

open NavigationServer.Lib
open NavigationServer.Nmea2000
open NavigationServer.Nmea2000Datamodel
open NavigationServer.RouterCore

namespace NMEA2KActiveController

/-! ## 1. Quiet steps -/

/-- The tables and the flags are the same, and a claim that is sent is that of
an application. -/
structure Quiet (s s' : NMEA2KActiveController) : Prop where
  view : s'.view = s.view
  gcLock : s'.gcLock = s.gcLock
  appTimer : s'.appTimer = s.appTimer
  stopFlag : s'.stopFlag = s.stopFlag
  claims : ∀ sa name da : Nat, Outgoing.addressClaim sa name da ∈ s'.sent →
    Outgoing.addressClaim sa name da ∈ s.sent ∨
      (da = 255 ∧ ∃ x ∈ s.tables.apps, sa = x.1 ∧ name = x.2.intValue)

namespace Quiet

/-- Nothing was called. -/
theorem refl (s : NMEA2KActiveController) : Quiet s s :=
  ⟨rfl, rfl, rfl, rfl, fun _ _ _ h => Or.inl h⟩

/-- One call behind another: the claims of the second are those of the same tables. -/
theorem trans {s s' s'' : NMEA2KActiveController} (h : Quiet s s') (h' : Quiet s' s'') :
    Quiet s s'' := by
  refine ⟨h'.view.trans h.view, h'.gcLock.trans h.gcLock, h'.appTimer.trans h.appTimer,
    h'.stopFlag.trans h.stopFlag, ?_⟩
  intro sa name da hmem
  rcases h'.claims sa name da hmem with hold | ⟨hda, x, hx, hsa, hname⟩
  · exact h.claims sa name da hold
  · rw [show s'.tables = s.tables from congrArg Prod.fst h.view] at hx
    exact Or.inr ⟨hda, x, hx, hsa, hname⟩

end Quiet

section Quiet

variable (s : NMEA2KActiveController) (k : Nat)

/-- A change that keeps the address and the NAME. -/
theorem quiet_modifyApp {f : NMEA2000Application → NMEA2000Application}
    (h : ∀ app, (f app).address = app.address ∧ (f app).name = app.name) :
    Quiet s (s.modifyApp k f) :=
  ⟨s.view_modifyApp k h, rfl, rfl, rfl, fun _ _ _ hmem => Or.inl hmem⟩

/-- A message that is no claim. -/
theorem quiet_send {msg : Outgoing} (h : ∀ sa name da : Nat, msg ≠ .addressClaim sa name da) :
    Quiet s (s.send msg) := by
  refine ⟨rfl, rfl, rfl, rfl, ?_⟩
  intro sa name da hmem
  rcases List.mem_append.mp hmem with hmem | hmem
  · exact Or.inl hmem
  · exact absurd (List.mem_singleton.mp hmem).symm (h sa name da)

/-- A timer is started. -/
theorem quiet_startTimer (kind : TimerKind) : Quiet s (s.startTimer k kind) :=
  ⟨rfl, rfl, rfl, rfl, fun _ _ _ hmem => Or.inl hmem⟩

/-- A timer is cancelled. -/
theorem quiet_cancelTimer (timer : Option Nat) : Quiet s (s.cancelTimer timer) := by
  cases timer <;> exact ⟨rfl, rfl, rfl, rfl, fun _ _ _ hmem => Or.inl hmem⟩

/-- The claim of the address in use, with the NAME in use. -/
theorem quiet_respondAddressClaim : Quiet s (s.respondAddressClaim k) := by
  unfold respondAddressClaim
  split
  · exact Quiet.refl s
  · rename_i app hk
    refine ⟨rfl, rfl, rfl, rfl, ?_⟩
    intro sa name da hmem
    rcases List.mem_append.mp hmem with hmem | hmem
    · exact Or.inl hmem
    · cases List.mem_singleton.mp hmem
      exact Or.inr ⟨rfl, _, List.mem_of_getElem? (apps_getElem? hk), rfl, rfl⟩

/-- The same claim, and its timer. -/
theorem quiet_sendAddressClaim : Quiet s (s.sendAddressClaim k) := by
  unfold sendAddressClaim
  split
  · exact Quiet.refl s
  · split
    · exact Quiet.refl s
    · refine ((s.quiet_respondAddressClaim k).trans (quiet_modifyApp _ k ?_)).trans
        (quiet_startTimer _ k _)
      exact fun _ => ⟨rfl, rfl⟩

/-- A heartbeat, and its timer. -/
theorem quiet_sendHeartbeat : Quiet s (s.sendHeartbeat k) := by
  unfold sendHeartbeat
  split
  · exact Quiet.refl s
  · split
    · exact Quiet.refl s
    · refine ((s.quiet_send ?_).trans (quiet_modifyApp _ k ?_)).trans (quiet_startTimer _ k _)
      · exact fun _ _ _ h => nomatch h
      · exact fun _ => ⟨rfl, rfl⟩

/-- A request. -/
theorem quiet_sendIsoRequest (da pgn : Nat) : Quiet s (s.sendIsoRequest k da pgn) := by
  unfold sendIsoRequest
  split
  · exact Quiet.refl s
  · refine s.quiet_send ?_
    exact fun _ _ _ h => nomatch h

/-- A claim has come through. -/
theorem quiet_addressClaimDelay : Quiet s (s.addressClaimDelay k) := by
  have hactive : Quiet s (s.modifyApp k (fun app => { app with state := .active })) := by
    refine s.quiet_modifyApp k ?_
    exact fun _ => ⟨rfl, rfl⟩
  have hsend : Quiet (s.modifyApp k (fun app => { app with state := .active }))
      { s.modifyApp k (fun app => { app with state := .active }) with allowedSend := true } :=
    ⟨rfl, rfl, rfl, rfl, fun _ _ _ hmem => Or.inl hmem⟩
  unfold addressClaimDelay
  refine (((hactive.trans hsend).trans (quiet_sendIsoRequest _ k 255 60928)).trans
    (quiet_sendHeartbeat _ k)).trans (quiet_modifyApp _ k ?_)
  exact fun _ => ⟨rfl, rfl⟩

/-- Whatever the timer calls. -/
theorem quiet_expire (i : Nat) : Quiet s (s.expire i) := by
  unfold expire
  split
  · exact Quiet.refl s
  · rename_i timer _
    split
    · have hfire : Quiet s
          { s with timers := s.timers.modify i (fun t => { t with status := .fired }) } :=
        ⟨rfl, rfl, rfl, rfl, fun _ _ _ hmem => Or.inl hmem⟩
      refine hfire.trans ?_
      unfold callback
      split
      · exact quiet_addressClaimDelay _ timer.app
      · exact quiet_sendHeartbeat _ timer.app
    · exact Quiet.refl s

/-- A request returns, and is answered with the claim in use at most. -/
theorem quiet_isoRequest (msg : NMEA2000Msg) :
    (s.isoRequest k msg).1 = .returned ∧ Quiet s (s.isoRequest k msg).2 := by
  unfold isoRequest
  split
  · exact ⟨rfl, Quiet.refl s⟩
  · dsimp only
    split_ifs
    · exact ⟨rfl, s.quiet_respondAddressClaim k⟩
    · exact ⟨rfl, s.quiet_send (fun _ _ _ h => nomatch h)⟩
    · exact ⟨rfl, s.quiet_send (fun _ _ _ h => nomatch h)⟩
    · exact ⟨rfl, Quiet.refl s⟩
    · exact ⟨rfl, Quiet.refl s⟩

/-- The claim of another node. -/
theorem quiet_remoteAddressClaim (msg : NMEA2000Msg) : Quiet s (s.remoteAddressClaim k msg).2 := by
  unfold remoteAddressClaim
  split
  · exact Quiet.refl s
  · split
    · exact (s.quiet_sendIsoRequest k msg.sa 126996).trans (quiet_sendIsoRequest _ k msg.sa 126998)
    · exact Quiet.refl s

/-- The handler of the exception. -/
theorem quiet_exceptKeyError {r : Outcome × NMEA2KActiveController} (h : Quiet s r.2) :
    Quiet s (exceptKeyError r).2 := by
  unfold exceptKeyError
  split
  · exact h
  · exact h

/-- A broadcast that commands no address. -/
theorem quiet_broadcast {msg : NMEA2000Msg} (hpgn : msg.pgn ≠ 65240) (ks : List Nat) :
    Quiet s (broadcast msg s ks).2 := by
  induction ks generalizing s with
  | nil => exact Quiet.refl s
  | cons k ks ih =>
    have hone : Quiet s (s.receiveIsoMsg k msg).2 := by
      unfold receiveIsoMsg
      split
      · exact quiet_exceptKeyError s (s.quiet_isoRequest k msg).2
      · split
        · exact quiet_exceptKeyError s (s.quiet_remoteAddressClaim k msg)
        · exact Quiet.refl s
    rw [broadcast]
    by_cases hr : (s.receiveIsoMsg k msg).1 = .returned
    · rw [andThen_returned hr]
      exact hone.trans (ih _)
    · rw [andThen_not_returned hr]
      exact hone

end Quiet

/-! ## 2. Messages that take no address -/

/-- A request, or a claim of an address that no application has, or with a
higher NAME. -/
def Harmless (s : NMEA2KActiveController) (msg : NMEA2000Msg) : Prop :=
  msg.pgn = 59904 ∨ (msg.pgn = 60928 ∧ ∃ name, AddressClaim.decode msg.payload = .ok name ∧
    ∀ x ∈ s.tables.apps, x.1 = msg.sa → nameValue x.2.intValue < nameValue name)

section Harmless

variable {s : NMEA2KActiveController} {msg : NMEA2000Msg}

/-- What is harmless is a matter of the tables. -/
theorem Harmless.of_quiet {s' : NMEA2KActiveController} (h : s.Harmless msg) (hquiet : Quiet s s') :
    s'.Harmless msg := by
  unfold Harmless
  rw [show s'.tables = s.tables from congrArg Prod.fst hquiet.view]
  exact h

/-- Two PGNs are looked at. -/
theorem Harmless.pgn (h : s.Harmless msg) : msg.pgn = 59904 ∨ msg.pgn = 60928 :=
  h.imp id And.left

/-- The application defends its address, or nothing is to be defended. -/
theorem quiet_addressClaimReceipt (h : s.Harmless msg) (hpgn : msg.pgn = 60928) (k : Nat) :
    (s.addressClaimReceipt k msg).1 = .returned ∧ Quiet s (s.addressClaimReceipt k msg).2 := by
  obtain ⟨name, hdec, hhigher⟩ : ∃ name, AddressClaim.decode msg.payload = .ok name ∧
      ∀ x ∈ s.tables.apps, x.1 = msg.sa → nameValue x.2.intValue < nameValue name := by
    rcases h with hreq | ⟨-, h⟩
    · omega
    · exact h
  unfold addressClaimReceipt
  split
  · exact ⟨rfl, Quiet.refl s⟩
  · rename_i app hk
    dsimp only
    split
    · rename_i hsa
      -- the address is that of the application, so the NAME is a higher one
      have hlt := hhigher _ (List.mem_of_getElem? (apps_getElem? hk)) hsa
      dsimp only at hlt
      rw [hdec]
      dsimp only
      rw [if_neg (by omega), if_neg (by omega)]
      exact ⟨rfl, (s.quiet_cancelTimer app.claimTimer).trans (quiet_respondAddressClaim _ k)⟩
    · exact ⟨rfl, s.quiet_cancelTimer app.claimTimer⟩

/-- A harmless message at an application returns and is quiet. -/
theorem quiet_receiveMsg (defs : PGNDefinitions) (now : Time) (h : s.Harmless msg) (k : Nat) :
    (receiveMsg defs now s k msg).1 = .returned ∧ Quiet s (receiveMsg defs now s k msg).2 := by
  unfold receiveMsg
  split
  · exact ⟨rfl, Quiet.refl s⟩
  · dsimp only
    have hts : Quiet s (s.modifyApp k (fun app => { app with lastmsgTs := now })) := by
      refine s.quiet_modifyApp k ?_
      exact fun _ => ⟨rfl, rfl⟩
    split
    · exact ⟨rfl, hts⟩
    · rename_i dev _
      have hboth := hts.trans (quiet_modifyApp (s.modifyApp k (fun app => { app with lastmsgTs := now }))
        k (f := fun app => { app with pgnReceived := dev.pgnReceived })
        (by exact fun _ => ⟨rfl, rfl⟩))
      have hprocess : ∀ s' : NMEA2KActiveController, s'.Harmless msg →
          (s'.processVector k msg).1 = .returned ∧ Quiet s' (s'.processVector k msg).2 := by
        intro s' h'
        unfold processVector
        rcases h'.pgn with hpgn | hpgn
        · rw [if_neg (by omega), if_pos hpgn]
          exact s'.quiet_isoRequest k msg
        · rw [if_pos hpgn]
          exact quiet_addressClaimReceipt h' hpgn k
      obtain ⟨hreturned, hquiet⟩ := hprocess _ (h.of_quiet hboth)
      exact ⟨exceptKeyError_returned hreturned, quiet_exceptKeyError s (hboth.trans hquiet)⟩

/-- A device reads such a message. -/
theorem receiveMsg_harmless (defs : PGNDefinitions) (now : Time) (dev : NMEA2000Device)
    (h : s.Harmless msg) : (dev.receiveMsg defs now msg).1 = .ok () := by
  have hprocess : ∀ dev : NMEA2000Device,
      (dev.processVector msg).1 = .ok () ∨ (dev.processVector msg).1 = .error .keyError := by
    intro dev
    unfold NMEA2000Device.processVector
    rcases h with hpgn | ⟨hpgn, name, hdec, -⟩
    · rw [if_neg (by omega), if_neg (by omega), if_neg (by omega), if_neg (by omega)]
      exact Or.inr rfl
    · rw [if_pos hpgn]
      unfold NMEA2000Device.p60928
      rw [hdec]
      dsimp only
      split <;> exact Or.inl rfl
  unfold NMEA2000Device.receiveMsg
  dsimp only
  split
  · rfl
  · rename_i dev' _
    split
    · rfl
    · rename_i hno
      rcases hprocess dev' with hok | herror
      · exact hok
      · exact (hno (dev'.processVector msg).2 (Prod.ext herror rfl)).elim

/-- At the device that has the source address, which is an application, a proxy, or a new
proxy. -/
theorem quiet_deviceReceive (defs : PGNDefinitions) (now : Time) (h : s.Harmless msg) :
    (deviceReceive defs now s msg).1 = .returned ∧ Quiet s (deviceReceive defs now s msg).2 := by
  by_cases happ : ∃ k, s.devices.lookup msg.sa = some (.application k)
  · obtain ⟨k, hk⟩ := happ
    unfold deviceReceive
    rw [hk]
    exact quiet_receiveMsg defs now h k
  · have hview : (deviceReceive defs now s msg).2.view = s.view :=
      deviceReceive_proxy defs now (fun k hk => happ ⟨k, hk⟩)
    unfold deviceReceive at hview ⊢
    dsimp only at hview ⊢
    split
    · rename_i k hk
      exact absurd ⟨k, hk⟩ happ
    · rename_i dev hk
      rw [hk] at hview
      refine ⟨?_, hview, rfl, rfl, rfl, fun _ _ _ hmem => Or.inl hmem⟩
      dsimp only
      rw [receiveMsg_harmless defs now dev h]
      rfl
    · rename_i hk
      rw [hk] at hview
      refine ⟨?_, hview, rfl, rfl, rfl, fun _ _ _ hmem => Or.inl hmem⟩
      dsimp only
      rw [receiveMsg_harmless defs now (.new msg.sa) h]
      rfl

/-- The subscribers are called with nothing else of the state. -/
theorem callSubscribers_congr {s' : NMEA2KActiveController} (h : s'.subscriber = s.subscriber)
    (msg : NMEA2000Msg) : s'.callSubscribers msg = s.callSubscribers msg := by
  unfold callSubscribers
  rw [h]

/-- **A harmless message is quiet.** -/
theorem quiet_processMsg (defs : PGNDefinitions) (now : Time) (h : s.Harmless msg)
    (hlock : s.gcLock = false) (hsub : s.callSubscribers msg = .returned)
    (hreq : s.addressChangeRequest = none) :
    Quiet s (processMsg defs now s msg).2 := by
  unfold processMsg
  by_cases hda : msg.da = 255
  · rw [if_neg (fun hne => hne hda)]
    split
    · have hsuper : Quiet s (superProcessMsg defs now s msg).2 := by
        unfold superProcessMsg
        split
        · exact Quiet.refl s
        · rw [hlock, if_neg Bool.false_ne_true]
          have hlocked : Harmless { s with gcLock := true } msg := h
          obtain ⟨hreturned, hquiet⟩ := quiet_deviceReceive defs now hlocked
          rw [andThen_returned hreturned]
          generalize (deviceReceive defs now { s with gcLock := true } msg).2 = s' at hquiet
          have hreturn : s'.callSubscribers msg = .returned :=
            (callSubscribers_congr (congrArg (fun v => v.2.2) hquiet.view) msg).trans hsub
          rw [andThen_returned (by exact hreturn)]
          exact ⟨hquiet.view, hlock.symm, hquiet.appTimer, hquiet.stopFlag, hquiet.claims⟩
      by_cases hr : (superProcessMsg defs now s msg).1 = .returned
      · rw [andThen_returned hr]
        generalize (superProcessMsg defs now s msg).2 = s' at hsuper
        have hne : msg.pgn ≠ 65240 := by
          rcases h.pgn with hpgn | hpgn <;> omega
        have hbroadcast := hsuper.trans
          (s'.quiet_broadcast hne (List.range s'.applications.length))
        by_cases hb : (broadcast msg s' (List.range s'.applications.length)).1 = .returned
        · rw [andThen_returned hb]
          generalize (broadcast msg s' (List.range s'.applications.length)).2 = s'' at hbroadcast
          unfold applyChangeApplicationAddress
          rw [show s''.addressChangeRequest = none from
            (congrArg (fun v => v.2.1) hbroadcast.view).trans hreq]
          exact hbroadcast
        · rw [andThen_not_returned hb]
          exact hbroadcast
      · rw [andThen_not_returned hr]
        exact hsuper
    · exact Quiet.refl s
  · rw [if_pos hda]
    split
    · exact Quiet.refl s
    · rename_i k _
      split
      · exact (quiet_receiveMsg defs now h k).2
      · exact Quiet.refl s

end Harmless

/-! ## 3. A claim that takes the address -/

/-- The NAMEs are the same, and claims are sent with these only. -/
structure Framed (s s' : NMEA2KActiveController) : Prop where
  gcLock : s'.gcLock = s.gcLock
  appTimer : s'.appTimer = s.appTimer
  subscriber : s'.subscriber = s.subscriber
  names : s'.tables.apps.map Prod.snd = s.tables.apps.map Prod.snd
  claims : ∀ sa name da : Nat, Outgoing.addressClaim sa name da ∈ s'.sent →
    Outgoing.addressClaim sa name da ∈ s.sent ∨
      ∃ n ∈ s.tables.apps.map Prod.snd, name = n.intValue

namespace Framed

/-- One call behind another. -/
theorem trans {s s' s'' : NMEA2KActiveController} (h : Framed s s') (h' : Framed s' s'') :
    Framed s s'' := by
  refine ⟨h'.gcLock.trans h.gcLock, h'.appTimer.trans h.appTimer,
    h'.subscriber.trans h.subscriber, h'.names.trans h.names, ?_⟩
  intro sa name da hmem
  rcases h'.claims sa name da hmem with hold | ⟨n, hn, hname⟩
  · exact h.claims sa name da hold
  · rw [h.names] at hn
    exact Or.inr ⟨n, hn, hname⟩

/-- What is quiet keeps more. -/
theorem of_quiet {s s' : NMEA2KActiveController} (h : Quiet s s') : Framed s s' := by
  have htables : s'.tables = s.tables := congrArg Prod.fst h.view
  refine ⟨h.gcLock, h.appTimer, congrArg (fun v => v.2.2) h.view, by rw [htables], ?_⟩
  intro sa name da hmem
  rcases h.claims sa name da hmem with hold | ⟨-, x, hx, -, hname⟩
  · exact Or.inl hold
  · exact Or.inr ⟨x.2, List.mem_map.mpr ⟨x, hx, rfl⟩, hname⟩

end Framed

section Losing

variable {s : NMEA2KActiveController} {k : Nat} {app : NMEA2000Application} {msg : NMEA2000Msg}

/-- One application is told to stop. -/
theorem quiet_stopRequest (s : NMEA2KActiveController) (k : Nat) : Quiet s (s.stopRequest k) := by
  unfold stopRequest
  split
  · exact Quiet.refl s
  · refine (s.quiet_modifyApp k ?_).trans (quiet_cancelTimer _ _)
    exact fun _ => ⟨rfl, rfl⟩

/-- The node goes off line, when it is started. -/
theorem stop_started (h : s.appTimer = true) :
    s.stop.1 = .returned ∧ Framed s s.stop.2 ∧ s.stop.2.stopFlag = true := by
  have hfold : ∀ (ks : List Nat) (s : NMEA2KActiveController), Quiet s (ks.foldl stopRequest s) := by
    intro ks
    induction ks with
    | nil => exact Quiet.refl
    | cons k ks ih => exact fun s => (s.quiet_stopRequest k).trans (ih _)
  have hframed := Framed.of_quiet (hfold (List.range s.applications.length) s)
  unfold stop
  rw [if_pos h]
  exact ⟨rfl, ⟨hframed.gcLock, hframed.appTimer, hframed.subscriber, hframed.names,
    hframed.claims⟩, rfl⟩

/-- Another address, and a claim of it. -/
theorem changeAddress_framed (hk : s.applications[k]? = some app)
    (hreq : s.addressChangeRequest = none) (a : Nat) :
    Framed s (s.changeAddress k a).2 ∧ (s.changeAddress k a).2.stopFlag = s.stopFlag := by
  have hquiet : Quiet { s.modifyApp k (fun app => { app with address := a }) with
      addressChangeRequest := some (k, app.address) } (s.changeAddress k a).2 := by
    unfold changeAddress
    rw [hk]
    dsimp only
    unfold changeApplicationAddress
    rw [show (s.modifyApp k (fun app => { app with address := a })).addressChangeRequest = none
      from hreq]
    exact quiet_sendAddressClaim _ k
  have hframed : Framed s { s.modifyApp k (fun app => { app with address := a }) with
      addressChangeRequest := some (k, app.address) } := by
    refine ⟨rfl, rfl, rfl, ?_, fun _ _ _ hmem => Or.inl hmem⟩
    unfold tables modifyApp
    dsimp only
    rw [List.map_map, List.map_map]
    exact map_modify _ _ _ _ (fun _ => rfl)
  exact ⟨hframed.trans (Framed.of_quiet hquiet), hquiet.stopFlag⟩

/-- What a node is left with that has lost its address `old`, when `new` is what
its pool gives: off line, or at `new`, with a change that waits. -/
structure Lost (s s' : NMEA2KActiveController) (k old new : Nat) : Prop where
  framed : Framed s s'
  outcome : ∃ rest, (∀ a ∈ rest, a ∈ s.pool.addressPool) ∧
    ((new = 254 ∧ s'.stopFlag = true ∧
        s'.view = (s.tables.leavePool rest, s.addressChangeRequest, s.subscriber)) ∨
      (new ≠ 254 ∧ s'.stopFlag = s.stopFlag ∧
        s'.view = ((s.tables.leavePool rest).withAddress k new, some (k, old), s.subscriber)))

/-- **The receipt of a lower NAME.** -/
theorem addressClaimReceipt_lost (hk : s.applications[k]? = some app) (hsa : app.address = msg.sa)
    {name : Nat} (hdec : AddressClaim.decode msg.payload = .ok name)
    (hlower : nameValue name < nameValue app.name.intValue) (hreq : s.addressChangeRequest = none)
    (hstarted : s.appTimer = true) :
    (s.addressClaimReceipt k msg).1 = .returned ∧
      Lost s (s.addressClaimReceipt k msg).2 k msg.sa s.getNewAddress.1 := by
  have hcancel := s.quiet_cancelTimer app.claimTimer
  have hnew : (s.cancelTimer app.claimTimer).getNewAddress.1 = s.getNewAddress.1 := by
    cases app.claimTimer <;> rfl
  have hkc : (s.cancelTimer app.claimTimer).applications[k]? = some app := by
    cases app.claimTimer <;> exact hk
  unfold addressClaimReceipt
  rw [hk]
  dsimp only
  rw [if_pos hsa, hdec]
  dsimp only
  rw [if_pos hlower, hnew]
  generalize s.cancelTimer app.claimTimer = c at hcancel hkc hnew
  obtain ⟨rest, hrest, hview⟩ := view_getNewAddress c
  have htables : c.tables = s.tables := congrArg Prod.fst hcancel.view
  have hreqc : c.addressChangeRequest = s.addressChangeRequest :=
    congrArg (fun v => v.2.1) hcancel.view
  have hsubc : c.subscriber = s.subscriber := congrArg (fun v => v.2.2) hcancel.view
  have hpool : c.pool = s.pool := congrArg Tables.pool htables
  have htaken : Framed c c.getNewAddress.2 :=
    ⟨rfl, rfl, rfl, rfl, fun _ _ _ hmem => Or.inl hmem⟩
  have hbase := (Framed.of_quiet hcancel).trans htaken
  rw [htables, hreqc, hsubc] at hview
  split
  -- no address is left: the claim says so, and the node stops
  · rename_i hexhausted
    have hsend : Framed c.getNewAddress.2
        (c.getNewAddress.2.send (.addressClaim s.getNewAddress.1 app.name.intValue msg.sa)) := by
      refine ⟨rfl, rfl, rfl, rfl, ?_⟩
      intro sa name' da hmem
      rcases List.mem_append.mp hmem with hmem | hmem
      · exact Or.inl hmem
      · cases List.mem_singleton.mp hmem
        refine Or.inr ⟨app.name, ?_, rfl⟩
        exact List.mem_map.mpr ⟨_, List.mem_of_getElem? (apps_getElem? hkc), rfl⟩
    obtain ⟨hreturned, hstop, hflag⟩ := stop_started (s := c.getNewAddress.2.send
      (.addressClaim s.getNewAddress.1 app.name.intValue msg.sa)) (hcancel.appTimer.trans hstarted)
    refine ⟨hreturned, (hbase.trans hsend).trans hstop, rest, fun a ha => hpool ▸ hrest a ha, ?_⟩
    left
    exact ⟨hexhausted, hflag, (view_stop _).trans hview⟩
  · rename_i hleft
    have hk' : c.getNewAddress.2.applications[k]? = some app := hkc
    have hreq' : c.getNewAddress.2.addressChangeRequest = none := hreqc.trans hreq
    obtain ⟨hreturned, hchanged⟩ := changeAddress_free hk' hreq' s.getNewAddress.1
    obtain ⟨hframed, hflag⟩ := changeAddress_framed hk' hreq' s.getNewAddress.1
    refine ⟨hreturned, hbase.trans hframed, rest, fun a ha => hpool ▸ hrest a ha, ?_⟩
    right
    refine ⟨hleft, hflag.trans hcancel.stopFlag, ?_⟩
    rw [hchanged, hsa]
    simp only [view, Prod.mk.injEq] at hview
    rw [hview.1, hview.2.2]

/-- `receive_msg` of a claim whose PGN is known. -/
theorem receiveMsg_lost (defs : PGNDefinitions) (now : Time)
    (hdefs : ∃ d, defs.pgnDefinition 60928 0 = .ok d) (hpgn : msg.pgn = 60928)
    (hk : s.applications[k]? = some app) (hsa : app.address = msg.sa)
    {name : Nat} (hdec : AddressClaim.decode msg.payload = .ok name)
    (hlower : nameValue name < nameValue app.name.intValue) (hreq : s.addressChangeRequest = none)
    (hstarted : s.appTimer = true) :
    (receiveMsg defs now s k msg).1 = .returned ∧
      Lost s (receiveMsg defs now s k msg).2 k msg.sa s.getNewAddress.1 := by
  have hcount : ∀ dev : NMEA2000Device, ∃ dev', dev.addPgnCount defs msg.pgn = some dev' := by
    intro dev
    obtain ⟨d, hd⟩ := hdefs
    unfold NMEA2000Device.addPgnCount
    rw [hpgn]
    split
    · exact ⟨_, rfl⟩
    · rw [hd]
      exact ⟨_, rfl⟩
  unfold receiveMsg
  rw [hk]
  dsimp only
  obtain ⟨dev, hdev⟩ := hcount app.toNMEA2000Device
  rw [hdev]
  dsimp only
  have hcounted : Quiet s ((s.modifyApp k (fun app => { app with lastmsgTs := now })).modifyApp k
      (fun app => { app with pgnReceived := dev.pgnReceived })) := by
    refine (s.quiet_modifyApp k ?_).trans (quiet_modifyApp _ k ?_)
    · exact fun _ => ⟨rfl, rfl⟩
    · exact fun _ => ⟨rfl, rfl⟩
  have hk₁ : ((s.modifyApp k (fun app => { app with lastmsgTs := now })).modifyApp k
      (fun app => { app with pgnReceived := dev.pgnReceived })).applications[k]?
        = some { app with lastmsgTs := now, pgnReceived := dev.pgnReceived } := by
    simp [modifyApp, hk]
  have hnew : ((s.modifyApp k (fun app => { app with lastmsgTs := now })).modifyApp k
      (fun app => { app with pgnReceived := dev.pgnReceived })).getNewAddress.1
        = s.getNewAddress.1 := rfl
  generalize (s.modifyApp k (fun app => { app with lastmsgTs := now })).modifyApp k
    (fun app => { app with pgnReceived := dev.pgnReceived }) = s₁ at hcounted hk₁ hnew
  have htables : s₁.tables = s.tables := congrArg Prod.fst hcounted.view
  have hreq₁ : s₁.addressChangeRequest = s.addressChangeRequest :=
    congrArg (fun v => v.2.1) hcounted.view
  have hsub₁ : s₁.subscriber = s.subscriber := congrArg (fun v => v.2.2) hcounted.view
  have hpool : s₁.pool = s.pool := congrArg Tables.pool htables
  have hprocess : s₁.processVector k msg = s₁.addressClaimReceipt k msg := by
    unfold processVector
    rw [if_pos hpgn]
  rw [hprocess]
  obtain ⟨hreturned, hlost⟩ := addressClaimReceipt_lost hk₁ hsa hdec hlower (hreq₁.trans hreq)
    (hcounted.appTimer.trans hstarted)
  have hstate : ∀ r : Outcome × NMEA2KActiveController, (exceptKeyError r).2 = r.2 := by
    intro r
    unfold exceptKeyError
    split <;> rfl
  refine ⟨exceptKeyError_returned hreturned, ?_⟩
  rw [hstate]
  obtain ⟨hframed, rest, hrest, hcase⟩ := hlost
  rw [hnew, hreq₁, hsub₁, htables, hcounted.stopFlag] at hcase
  exact ⟨(Framed.of_quiet hcounted).trans hframed, rest, fun a ha => hpool ▸ hrest a ha, hcase⟩

end Losing

/-! ## 4. The node -/

/-- The invariant of a running node with one application, whose NAME is `n`: no
call waits, no subscriber raises, and all its claims have its NAME. -/
structure Node (n : Nat) (s : NMEA2KActiveController) : Prop where
  good : s.Good
  lock : s.gcLock = false
  started : s.appTimer = true
  subscriber : ∀ msg, s.callSubscribers msg = .returned
  one : s.tables.apps.length = 1
  name : ∀ m ∈ s.tables.apps.map Prod.snd, nameValue m.intValue = n
  claims : ∀ sa name da : Nat, Outgoing.addressClaim sa name da ∈ s.sent → nameValue name = n

/-- The node uses an address. -/
def Uses (s : NMEA2KActiveController) (a : Nat) : Prop :=
  s.stopFlag = false ∧ ∃ app, s.applications[0]? = some app ∧ app.address = a

namespace Node

variable {n : Nat} {s s' : NMEA2KActiveController}

/-- The invariant, when the tables are well formed again. -/
theorem of_framed (h : Node n s) (hgood : s'.Good) (hframed : Framed s s') : Node n s' := by
  refine ⟨hgood, hframed.gcLock.trans h.lock, hframed.appTimer.trans h.started,
    fun msg => (callSubscribers_congr hframed.subscriber msg).trans (h.subscriber msg), ?_, ?_, ?_⟩
  · have hlength := congrArg List.length hframed.names
    rw [List.length_map, List.length_map] at hlength
    exact hlength.trans h.one
  · rw [hframed.names]
    exact h.name
  · intro sa name da hmem
    rcases hframed.claims sa name da hmem with hold | ⟨m, hm, rfl⟩
    · exact h.claims sa name da hold
    · exact h.name m hm

/-- A quiet step keeps the invariant. -/
theorem of_quiet (h : Node n s) (hquiet : Quiet s s') : Node n s' :=
  h.of_framed (h.good.of_view hquiet.view) (Framed.of_quiet hquiet)

/-- The application of the node. -/
theorem app (h : Node n s) : ∃ app, s.applications = [app] ∧
    s.tables.apps = [(app.address, app.name)] ∧ nameValue app.name.intValue = n := by
  have hone : s.applications.length = 1 := by
    have := h.one
    rwa [tables, List.length_map] at this
  obtain ⟨app, happ⟩ := List.length_eq_one_iff.mp hone
  have htable : s.tables.apps = [(app.address, app.name)] := by
    rw [tables, happ]
    rfl
  refine ⟨app, happ, htable, h.name app.name ?_⟩
  rw [htable]
  exact List.mem_singleton.mpr rfl

/-- The address that is used, in terms of the tables. -/
theorem uses_iff (h : Node n s) (a : Nat) :
    s.Uses a ↔ s.stopFlag = false ∧ ∃ m, s.tables.apps = [(a, m)] := by
  obtain ⟨app, happ, htable, -⟩ := h.app
  unfold Uses
  rw [happ, htable]
  constructor
  · rintro ⟨hflag, app', hget, rfl⟩
    cases hget
    exact ⟨hflag, app.name, rfl⟩
  · rintro ⟨hflag, m, hm⟩
    cases hm
    exact ⟨hflag, app, rfl, rfl⟩

end Node

/-- A node uses one address. -/
theorem Uses.unique {s : NMEA2KActiveController} {a b : Nat} (ha : s.Uses a) (hb : s.Uses b) :
    a = b := by
  obtain ⟨-, app, happ, rfl⟩ := ha
  obtain ⟨-, app', happ', rfl⟩ := hb
  rw [happ] at happ'
  cases happ'
  rfl

/-- A quiet step keeps the address. -/
theorem Uses.of_quiet {n a : Nat} {s s' : NMEA2KActiveController} (hs : Node n s)
    (hquiet : Quiet s s') : s'.Uses a ↔ s.Uses a := by
  rw [(hs.of_quiet hquiet).uses_iff, hs.uses_iff, hquiet.stopFlag,
    show s'.tables = s.tables from congrArg Prod.fst hquiet.view]

/-- A NAME of eight bytes is read as it was written. -/
theorem decode_toLE (name : Nat) :
    AddressClaim.decode (toLE 8 name) = .ok (name % 2 ^ 64) := by
  unfold AddressClaim.decode
  rw [length_toLE, if_pos (by omega), List.take_of_length_le (by rw [length_toLE]), ofLE_toLE]
  rfl

/-- A NAME has 64 bits. -/
theorem nameValue_mod (name : Nat) : nameValue (name % 2 ^ 64) = nameValue name := by
  have hvalue : ∀ v, nameValue v = v % 2 ^ 64 := by
    intro v
    change (v >>> 0) &&& (2 ^ 64 - 1) = _
    rw [Nat.shiftRight_zero, Nat.and_two_pow_sub_one_eq_mod]
  rw [hvalue, hvalue, Nat.mod_mod]

/-- The second half of a change keeps the NAMEs and the flags. -/
theorem framed_applyChange (s : NMEA2KActiveController) :
    Framed s s.applyChangeApplicationAddress.2 ∧
      s.applyChangeApplicationAddress.2.stopFlag = s.stopFlag := by
  have hrefl : Framed s s := ⟨rfl, rfl, rfl, rfl, fun _ _ _ hmem => Or.inl hmem⟩
  have hremove : ∀ old, Framed s (s.removeApplicationIndex old).2 ∧
      (s.removeApplicationIndex old).2.stopFlag = s.stopFlag := by
    intro old
    unfold removeApplicationIndex
    split
    · exact ⟨hrefl, rfl⟩
    · dsimp only
      split <;> exact ⟨⟨rfl, rfl, rfl, rfl, fun _ _ _ hmem => Or.inl hmem⟩, rfl⟩
  unfold applyChangeApplicationAddress
  split
  · exact ⟨hrefl, rfl⟩
  · rename_i k old _
    obtain ⟨hframed, hflag⟩ := hremove old
    by_cases hr : (s.removeApplicationIndex old).1 = .returned
    · rw [andThen_returned hr]
      split
      · exact ⟨hframed, hflag⟩
      · exact ⟨hframed.trans ⟨rfl, rfl, rfl, rfl, fun _ _ _ hmem => Or.inl hmem⟩, hflag⟩
    · rw [andThen_not_returned hr]
      exact ⟨hframed, hflag⟩

section Claims

variable {n : Nat} {s : NMEA2KActiveController}

/-- **A claim with a lower NAME takes the address**: the node goes off line, or
to an address that its table does not have. -/
theorem Node.loses (h : Node n s) (defs : PGNDefinitions)
    (hdefs : ∃ d, defs.pgnDefinition 60928 0 = .ok d) (now : Time) {a name : Nat}
    (huses : s.Uses a) (hlower : nameValue name < n) :
    Node n (processMsg defs now s (.of 60928 6 a 255 (toLE 8 name))).2 ∧
      ((processMsg defs now s (.of 60928 6 a 255 (toLE 8 name))).2.stopFlag = true ∨
        ∃ b, b ≠ a ∧ s.devices.lookup b = none ∧
          (processMsg defs now s (.of 60928 6 a 255 (toLE 8 name))).2.Uses b) := by
  generalize hmsg : NMEA2000Msg.of 60928 6 a 255 (toLE 8 name) = msg
  have hpgn : msg.pgn = 60928 := by rw [← hmsg]; rfl
  have hsa : msg.sa = a := by rw [← hmsg]; rfl
  have hda : msg.da = 255 := by rw [← hmsg]; rfl
  have hiso : msg.isIso = true := by rw [← hmsg]; rfl
  have hdec : AddressClaim.decode msg.payload = .ok (name % 2 ^ 64) := by
    rw [← hmsg]
    exact decode_toLE name
  obtain ⟨app, happ, htable, hname⟩ := h.app
  obtain ⟨hflag, app', hk', haddress⟩ := huses
  rw [happ] at hk'
  cases hk'
  have hk : s.applications[0]? = some app := by rw [happ]; rfl
  have hle : a ≤ 253 := by
    rw [← haddress]
    exact h.good.1.le 0 _ _ (apps_getElem? hk)
  have hdevice : s.devices.lookup msg.sa = some (.application 0) := by
    rw [hsa, ← haddress]
    exact h.good.device hk
  have hlower' : nameValue (name % 2 ^ 64) < nameValue app.name.intValue := by
    rw [nameValue_mod, hname]
    exact hlower
  have hreceive : deviceReceive defs now { s with gcLock := true } msg
      = receiveMsg defs now { s with gcLock := true } 0 msg := by
    unfold deviceReceive
    rw [show ({ s with gcLock := true } : NMEA2KActiveController).devices.lookup msg.sa
      = some (.application 0) from hdevice]
  obtain ⟨hreturned, hframed, rest, hrest, hcase⟩ :=
    receiveMsg_lost (s := { s with gcLock := true }) (k := 0) defs now hdefs hpgn hk
      (haddress.trans hsa.symm) hdec hlower' h.good.2 h.started
  rw [← hreceive] at hreturned hframed hcase
  have hsub : (deviceReceive defs now { s with gcLock := true } msg).2.callSubscribers msg
      = .returned :=
    (callSubscribers_congr hframed.subscriber msg).trans (h.subscriber msg)
  have hgood : (processMsg defs now s msg).2.Good := h.good.processMsg defs now ⟨fun hne => absurd hda hne, ?_, ?_⟩
  · have hsuper := superProcessMsg_returned defs now (show msg.sa < 254 by omega) h.lock hreturned hsub
    generalize hs₁ : (deviceReceive defs now { s with gcLock := true } msg).2 = s₁ at *
    -- what comes behind the superclass
    have hfree : Framed s { s₁ with gcLock := false } :=
      ⟨h.lock.symm, hframed.appTimer, hframed.subscriber, hframed.names, hframed.claims⟩
    have hquiet := quiet_broadcast { s₁ with gcLock := false } (show msg.pgn ≠ 65240 by omega)
      (List.range s₁.applications.length)
    -- the sender is known still, so the broadcast does not raise
    have hknown : (s₁.devices.lookup msg.sa).isSome := by
      have hat : s₁.tables.appAt = s.tables.appAt := by
        rcases hcase with ⟨-, -, hview⟩ | ⟨-, -, hview⟩
        · exact congrArg (fun v => v.1.appAt) hview
        · exact congrArg (fun v => v.1.appAt) hview
      have hat := congrFun hat msg.sa
      change s₁.devices.lookup msg.sa >>= Device.number = s.devices.lookup msg.sa >>= _ at hat
      rw [hdevice] at hat
      cases hd : s₁.devices.lookup msg.sa with
      | none =>
        rw [hd] at hat
        cases hat
      | some d => rfl
    have hbroadcast := broadcast_claim_returned hpgn (List.range s₁.applications.length)
      { s₁ with gcLock := false } rfl hknown
    have hprocess : processMsg defs now s msg
        = (broadcast msg { s₁ with gcLock := false }
            (List.range s₁.applications.length)).2.applyChangeApplicationAddress := by
      unfold processMsg
      rw [if_neg (fun hne => hne hda), if_pos hiso, hsuper]
      change andThen (broadcast msg { s₁ with gcLock := false }
        (List.range s₁.applications.length)) _ = _
      rw [andThen_returned hbroadcast]
    rw [hprocess] at hgood ⊢
    generalize (broadcast msg { s₁ with gcLock := false }
      (List.range s₁.applications.length)).2 = s₂ at hquiet hgood
    have hframed₂ := hfree.trans (Framed.of_quiet hquiet)
    have hflag₂ : s₂.stopFlag = s₁.stopFlag := hquiet.stopFlag
    obtain ⟨happly, hflag₃⟩ := framed_applyChange s₂
    have hnode := h.of_framed hgood (hframed₂.trans happly)
    refine ⟨hnode, ?_⟩
    rcases hcase with ⟨-, hstop, -⟩ | ⟨hleft, hrun, hview⟩
    · exact Or.inl ((hflag₃.trans hflag₂).trans hstop)
    · right
      obtain ⟨hmem, hnone⟩ := getNewAddress_fresh (s := s) hleft
      refine ⟨s.getNewAddress.1, ?_, hnone, ?_⟩
      -- an address that the table does not have is not the one that was lost
      · intro heq
        rw [heq, ← hsa, hdevice] at hnone
        cases hnone
      · rw [hnode.uses_iff]
        refine ⟨(hflag₃.trans hflag₂).trans (hrun.trans hflag), app.name, ?_⟩
        have htable' : (s.tables.leavePool rest).apps[0]? = some (msg.sa, app.name) := by
          change s.tables.apps[0]? = _
          rw [htable, haddress, hsa]
          rfl
        have hwf := h.good.1.leavePool hrest
        have happlied := applyChange_view (s := s₂) (t := s.tables.leavePool rest)
          (hquiet.view.trans hview) htable' ((hwf.appAt _ _).mpr ⟨_, htable'⟩)
          (hwf.appIndex _ _ _ htable')
        have happs := congrArg (fun v => v.1.apps) happlied
        refine happs.trans ?_
        change s.tables.apps.modify 0 _ = _
        rw [htable]
        rfl
  · exact fun _ _ k _ _ => h.subscriber msg
  · exact fun _ hpgn' => absurd (hpgn.symm.trans hpgn') (by decide)

/-- A device that is deleted is a proxy. -/
theorem quiet_deviceGc (h : Node n s) (now : Time) : Quiet s (s.deviceGc now).2 := by
  have hview := s.view_deviceGc now
  unfold NMEA2KActiveController.deviceGc at hview ⊢
  split
  · exact Quiet.refl s
  · rename_i hstop
    rw [if_neg hstop] at hview
    rw [h.lock, if_neg Bool.false_ne_true] at hview ⊢
    exact ⟨hview, h.lock.symm, rfl, rfl, fun _ _ _ hmem => Or.inl hmem⟩

/-- A turn of the node's own. -/
theorem quiet_turn (h : Node n s) (defs : PGNDefinitions) {event : NetworkEvent}
    (hlocal : ∀ side now i, event ≠ .deliver side now i) (other : List Outgoing) :
    Quiet s (s.turn defs (event.ecuCall other)).2 := by
  cases event with
  | busReady side => exact s.quiet_sendAddressClaim 0
  | pollDevices side =>
    unfold turn NetworkEvent.ecuCall
    dsimp only
    rw [call]
    split
    · exact Quiet.refl s
    · exact s.quiet_sendAddressClaim 0
  | expire side i => exact s.quiet_expire i
  | deviceGc side now => exact quiet_deviceGc h now
  | deliver side now i => exact absurd rfl (hlocal side now i)

/-- A harmless message of the loop. -/
theorem quiet_call (h : Node n s) (defs : PGNDefinitions) (now : Time) {msg : NMEA2000Msg}
    (hmsg : s.Harmless msg) : Quiet s (s.call defs (.message now msg)).2 := by
  rw [call]
  split
  · exact Quiet.refl s
  · exact quiet_processMsg defs now hmsg h.lock (h.subscriber msg) h.good.2

/-- A delivery of anything but a claim. -/
theorem quiet_deliver (h : Node n s) (defs : PGNDefinitions) (side : Side) (now : Time) (i : Nat)
    {other : List Outgoing}
    (hno : ∀ sa name da : Nat, other[i]? ≠ some (.addressClaim sa name da)) :
    Quiet s (s.turn defs (NetworkEvent.ecuCall other (.deliver side now i))).2 := by
  unfold NetworkEvent.ecuCall
  dsimp only
  cases hmsg : other[i]? with
  | none => exact Quiet.refl s
  | some msg =>
    cases msg with
    | addressClaim sa name da => exact absurd hmsg (hno sa name da)
    | isoRequest sa da pgn => exact quiet_call h defs now (Or.inl rfl)
    | heartbeat sa sequence => exact Quiet.refl s
    | productInformation sa => exact Quiet.refl s
    | configurationInformation sa => exact Quiet.refl s
    | acknowledge sa da => exact Quiet.refl s

/-- A delivery of a claim. -/
theorem turn_deliver (defs : PGNDefinitions) (s : NMEA2KActiveController) (side : Side) (now : Time)
    {i : Nat} {other : List Outgoing} {sa name da : Nat}
    (hsent : other[i]? = some (.addressClaim sa name da)) :
    s.turn defs (NetworkEvent.ecuCall other (.deliver side now i))
      = s.call defs (.message now (.of 60928 6 sa da (toLE 8 name))) := by
  unfold NetworkEvent.ecuCall
  dsimp only
  rw [hsent]
  rfl

/-- A claim of another address, or with a higher NAME. -/
theorem Node.harmless (h : Node n s)
    {prio sa da name : Nat}
    (hclaim : (∀ m, s.tables.apps ≠ [(sa, m)]) ∨ n < nameValue name) :
    s.Harmless (.of 60928 prio sa da (toLE 8 name)) := by
  obtain ⟨app, -, htable, hname⟩ := h.app
  refine Or.inr ⟨rfl, name % 2 ^ 64, decode_toLE name, ?_⟩
  intro x hx hsa
  rw [htable] at hx
  cases List.mem_singleton.mp hx
  rcases hclaim with hother | hhigher
  · refine absurd ?_ (hother app.name)
    rw [htable]
    exact congrArg (fun b => [(b, app.name)]) hsa
  · rw [nameValue_mod]
    dsimp only
    rw [hname]
    exact hhigher

end Claims

end NMEA2KActiveController

/-! ## 5. The network -/

open NMEA2KActiveController

/-- A node that claims the address `a` with the NAME `n`, and has sent nothing
yet. -/
structure Claimant (a n : Nat) (s : NMEA2KActiveController) : Prop where
  node : Node n s
  uses : s.Uses a
  sent : s.sent = []

/-- The invariant of the network: all claims of the lower node are claims of
the address. -/
structure NetworkInv (a nLow nHigh : Nat) (net : Network) : Prop where
  low : Node nLow net.low
  uses : net.low.Uses a
  claims : ∀ sa name da : Nat, Outgoing.addressClaim sa name da ∈ net.low.sent → sa = a ∧ da = 255
  high : Node nHigh net.high

/-- The event delivers a claim of the lower node to the other one. -/
def DeliversClaim (net : Network) : NetworkEvent → Prop
  | .deliver .high _ i => ∃ sa name da : Nat, net.low.sent[i]? = some (.addressClaim sa name da)
  | _ => False

/-- What a step does to the higher node: it keeps its address, goes to one that
its table does not have, or goes off line. -/
def Gives (s s' : NMEA2KActiveController) : Prop :=
  (∀ b, s'.Uses b ↔ s.Uses b) ∨ s'.stopFlag = true ∨
    ∃ b, s.devices.lookup b = none ∧ s'.Uses b

section Network

variable {a nLow nHigh : Nat} {net : Network}

/-- **A turn of the lower node is quiet.** -/
theorem NetworkInv.low_quiet (h : NetworkInv a nLow nHigh net) (hlt : nLow < nHigh)
    (defs : PGNDefinitions) (event : NetworkEvent) :
    Quiet net.low (net.low.turn defs (event.ecuCall net.high.sent)).2 := by
  rcases event.local_or_deliver with hlocal | ⟨side, now, i, rfl⟩
  · exact quiet_turn h.low defs hlocal net.high.sent
  · by_cases hclaim : ∃ sa name da : Nat, net.high.sent[i]? = some (.addressClaim sa name da)
    · obtain ⟨sa, name, da, hsent⟩ := hclaim
      rw [turn_deliver defs net.low side now hsent]
      refine quiet_call h.low defs now (h.low.harmless (Or.inr ?_))
      rw [h.high.claims sa name da (List.mem_of_getElem? hsent)]
      exact hlt
    · refine quiet_deliver h.low defs side now i ?_
      exact fun sa name da hsent => hclaim ⟨sa, name, da, hsent⟩

/-- **A turn of the higher node**: a claim of the lower one takes the address. -/
theorem NetworkInv.high_turn (h : NetworkInv a nLow nHigh net) (hlt : nLow < nHigh)
    (defs : PGNDefinitions) (hdefs : ∃ d, defs.pgnDefinition 60928 0 = .ok d)
    (event : NetworkEvent) (hside : event.side = .high) :
    Node nHigh (net.high.turn defs (event.ecuCall net.low.sent)).2 ∧
      Gives net.high (net.high.turn defs (event.ecuCall net.low.sent)).2 ∧
      (¬ net.high.Uses a ∨ DeliversClaim net event →
        ¬ (net.high.turn defs (event.ecuCall net.low.sent)).2.Uses a) := by
  -- a quiet turn: if it delivers a claim, the address is not used any more
  have hquiet : ∀ s', Quiet net.high s' → (DeliversClaim net event → ¬ net.high.Uses a) →
      Node nHigh s' ∧ Gives net.high s' ∧
        (¬ net.high.Uses a ∨ DeliversClaim net event → ¬ s'.Uses a) := by
    intro s' hs' hnot
    refine ⟨h.high.of_quiet hs', Or.inl (fun b => Uses.of_quiet h.high hs'), ?_⟩
    rw [Uses.of_quiet h.high hs']
    rintro (hno | hdelivers)
    · exact hno
    · exact hnot hdelivers
  rcases event.local_or_deliver with hlocal | ⟨side, now, i, rfl⟩
  · refine hquiet _ (quiet_turn h.high defs hlocal net.low.sent) ?_
    intro hdelivers
    cases event with
    | deliver side now i => exact absurd rfl (hlocal side now i)
    | _ => exact hdelivers.elim
  · have hside : side = .high := hside
    subst hside
    by_cases hclaim : DeliversClaim net (.deliver .high now i)
    · obtain ⟨sa, name, da, hsent⟩ := hclaim
      have hmem := List.mem_of_getElem? hsent
      obtain ⟨rfl, rfl⟩ := h.claims sa name da hmem
      have hlower : nameValue name < nHigh := by
        rw [h.low.claims _ _ _ hmem]
        exact hlt
      -- a claim that comes a second time finds the node at another address
      by_cases huses : net.high.Uses sa
      · have hrun : ¬ net.high.stopFlag = true := by simp [huses.1]
        rw [turn_deliver defs net.high .high now hsent, call, if_neg hrun]
        obtain ⟨hnode, hcase⟩ := h.high.loses defs hdefs now huses hlower
        refine ⟨hnode, ?_, ?_⟩
        · rcases hcase with hstop | ⟨b, -, hfree, hb⟩
          · exact Or.inr (Or.inl hstop)
          · exact Or.inr (Or.inr ⟨b, hfree, hb⟩)
        · intro _ hafter
          rcases hcase with hstop | ⟨b, hne, -, hb⟩
          · rw [hafter.1] at hstop
            cases hstop
          · exact hne (hb.unique hafter)
      · rw [turn_deliver defs net.high .high now hsent]
        refine hquiet _ ?_ (fun _ => huses)
        by_cases hstop : net.high.stopFlag = true
        · rw [call, if_pos hstop]
          exact Quiet.refl _
        · refine quiet_call h.high defs now (h.high.harmless (Or.inl ?_))
          intro m hm
          exact huses ((h.high.uses_iff sa).mpr ⟨by simpa using hstop, m, hm⟩)
    · refine hquiet _ (quiet_deliver h.high defs .high now i ?_) ?_
      · exact fun sa name da hsent => hclaim ⟨sa, name, da, hsent⟩
      · exact fun hdelivers => absurd hdelivers hclaim

/-- **What a step keeps.** -/
theorem NetworkInv.step (h : NetworkInv a nLow nHigh net) (hlt : nLow < nHigh)
    (defs : PGNDefinitions) (hdefs : ∃ d, defs.pgnDefinition 60928 0 = .ok d)
    (event : NetworkEvent) :
    NetworkInv a nLow nHigh ((network defs).step net event).2 ∧
      Gives net.high ((network defs).step net event).2.high ∧
      (¬ net.high.Uses a ∨ DeliversClaim net event →
        ¬ ((network defs).step net event).2.high.Uses a) := by
  cases hside : event.side with
  | low =>
    have hquiet := h.low_quiet hlt defs event
    have hstep : ((network defs).step net event).2
        = { net with low := (net.low.turn defs (event.ecuCall net.high.sent)).2 } := by
      simp only [network, hside]
    rw [hstep]
    refine ⟨⟨h.low.of_quiet hquiet, (Uses.of_quiet h.low hquiet).mpr h.uses, ?_, h.high⟩,
      Or.inl (fun b => Iff.rfl), ?_⟩
    · intro sa name da hmem
      rcases hquiet.claims sa name da hmem with hold | ⟨hda, x, hx, hsa, -⟩
      · exact h.claims sa name da hold
      · obtain ⟨-, m, hm⟩ := (h.low.uses_iff a).mp h.uses
        rw [hm] at hx
        cases List.mem_singleton.mp hx
        exact ⟨hsa, hda⟩
    · rintro (hno | hdelivers)
      · exact hno
      · cases event with
        | deliver side now i =>
          cases hside
          exact hdelivers.elim
        | _ => exact hdelivers.elim
  | high =>
    obtain ⟨hnode, hgives, hgone⟩ := h.high_turn hlt defs hdefs event hside
    have hstep : ((network defs).step net event).2
        = { net with high := (net.high.turn defs (event.ecuCall net.low.sent)).2 } := by
      simp only [network, hside]
    rw [hstep]
    exact ⟨⟨h.low, h.uses, h.claims, hnode⟩, hgives, hgone⟩

/-- Once the address is not used any more, it stays so. -/
theorem NetworkInv.final (h : NetworkInv a nLow nHigh net) (hlt : nLow < nHigh)
    (defs : PGNDefinitions) (hdefs : ∃ d, defs.pgnDefinition 60928 0 = .ok d)
    (events : List NetworkEvent) :
    NetworkInv a nLow nHigh ((network defs).final net events) ∧
      (¬ net.high.Uses a → ¬ ((network defs).final net events).high.Uses a) := by
  induction events generalizing net with
  | nil => exact ⟨h, fun hno => hno⟩
  | cons event events ih =>
    obtain ⟨hinv, -, hgone⟩ := h.step hlt defs hdefs event
    obtain ⟨hfinal, hkept⟩ := ih hinv
    exact ⟨hfinal, fun hno => hkept (hgone (Or.inl hno))⟩

/-- A node that does not use an address is off line, or uses another one. -/
theorem not_uses_cases {n : Nat} {s : NMEA2KActiveController} (h : Node n s) (hno : ¬ s.Uses a) :
    s.stopFlag = true ∨ ∃ b, b ≠ a ∧ s.Uses b := by
  cases hflag : s.stopFlag with
  | true => exact Or.inl rfl
  | false =>
    right
    obtain ⟨app, happ, -, -⟩ := h.app
    have huses : s.Uses app.address := ⟨hflag, app, by rw [happ]; rfl, rfl⟩
    refine ⟨app.address, ?_, huses⟩
    rintro rfl
    exact hno huses

end Network

/-- **The arbitration is safe.** In every run of two nodes that claim one
address, the lower NAME keeps it in every state, and each step of the other node
keeps its address, takes one that its table does not have, or goes off line.
From the first claim of the lower NAME that is delivered to it, the other node
does not use the address. -/
theorem arbitration_safe (defs : PGNDefinitions) (hdefs : ∃ d, defs.pgnDefinition 60928 0 = .ok d)
    {a nLow nHigh : Nat} (hlt : nLow < nHigh) {net : Network} (hlow : Claimant a nLow net.low)
    (hhigh : Claimant a nHigh net.high) (events : List NetworkEvent) :
    (∀ mv ∈ (network defs).trace net events,
      mv.post.low.Uses a ∧ Gives mv.pre.high mv.post.high) ∧
    ∀ (before after : List NetworkEvent) (event : NetworkEvent), events = before ++ event :: after →
      DeliversClaim ((network defs).final net before) event →
        ¬ ((network defs).final net events).high.Uses a ∧
          (((network defs).final net events).high.stopFlag = true ∨
            ∃ b, b ≠ a ∧ ((network defs).final net events).high.Uses b) := by
  have hinv : NetworkInv a nLow nHigh net := by
    refine ⟨hlow.node, hlow.uses, ?_, hhigh.node⟩
    intro sa name da hmem
    rw [hlow.sent] at hmem
    cases hmem
  refine ⟨?_, ?_⟩
  · clear hlow hhigh
    induction events generalizing net with
    | nil => exact fun _ hmv => absurd hmv List.not_mem_nil
    | cons event events ih =>
      obtain ⟨hnext, hgives, -⟩ := hinv.step hlt defs hdefs event
      rw [Machine.trace_cons, List.forall_mem_cons]
      exact ⟨⟨hnext.uses, hgives⟩, ih hnext⟩
  · rintro before after event rfl hdelivers
    rw [Machine.final_append, Machine.final_cons]
    obtain ⟨hbefore, -⟩ := hinv.final hlt defs hdefs before
    obtain ⟨hnext, -, hgone⟩ := hbefore.step hlt defs hdefs event
    obtain ⟨hfinal, hkept⟩ := hnext.final hlt defs hdefs after
    have hno := hkept (hgone (Or.inr hdelivers))
    exact ⟨hno, not_uses_cases hfinal.high hno⟩

/-- A node that has started with one application claims its address. -/
theorem claimant_started (mfgCode macId : Nat) {maxApplication firstAddress : Nat}
    (hpool : firstAddress + 2 * maxApplication ≤ 254) (maxSilent : Time) (address : Option Nat)
    (deviceClass deviceFunction : Nat) (info : ProductInformation) {s : NMEA2KActiveController}
    (h : NMEA2KActiveController.addApplication
        (.init (.init mfgCode maxApplication macId firstAddress) maxSilent) address deviceClass
        deviceFunction info = (.returned, s)) {app : NMEA2000Application}
    (happ : s.applications[0]? = some app) :
    Claimant app.address (nameValue app.name.intValue) { s with appTimer := true } := by
  have hgood := (Good.init mfgCode macId hpool maxSilent).addApplication address deviceClass
    deviceFunction info
  rw [h] at hgood
  -- the new application is the only one, and nothing is sent
  obtain ⟨happs, hlock, hsub, hflag, hsent⟩ : s.applications = [app] ∧ s.gcLock = false ∧
      s.subscriber = ∅ ∧ s.stopFlag = false ∧ s.sent = [] := by
    obtain ⟨address', s', hfrom, hcase⟩ :=
      NMEA2KActiveController.addApplication_cases (.init (.init mfgCode maxApplication macId firstAddress)
        maxSilent) address deviceClass deviceFunction info
    obtain ⟨hnone, hlock, hsub, hflag, hsent⟩ : s'.applications = [] ∧ s'.gcLock = false ∧
        s'.subscriber = ∅ ∧ s'.stopFlag = false ∧ s'.sent = [] := by
      rcases hfrom with ⟨rfl, -⟩ | ⟨rfl, -⟩ <;> exact ⟨rfl, rfl, rfl, rfl, rfl⟩
    rcases hcase with heq | ⟨a, name, -, -, heq⟩
    · rw [h] at heq
      cases heq
    · rw [h] at heq
      cases heq
      unfold addNamed addApplicationIndex at happ ⊢
      dsimp only at happ ⊢
      rw [hnone] at happ ⊢
      cases happ
      exact ⟨rfl, hlock, hsub, hflag, hsent⟩
  have htable : s.tables.apps = [(app.address, app.name)] := by
    rw [tables, happs]
    rfl
  have hreturn : ∀ msg, ({ s with appTimer := true } : NMEA2KActiveController).callSubscribers msg
      = .returned := by
    intro msg
    unfold callSubscribers
    rw [hsub]
    rfl
  refine ⟨⟨hgood, hlock, rfl, hreturn, ?_, ?_, ?_⟩, ⟨hflag, app, happ, rfl⟩, hsent⟩
  · change s.tables.apps.length = 1
    rw [htable]
    rfl
  · intro m hm
    change m ∈ s.tables.apps.map Prod.snd at hm
    rw [htable] at hm
    cases List.mem_singleton.mp hm
    rfl
  · intro sa name da hmem
    change Outgoing.addressClaim sa name da ∈ s.sent at hmem
    rw [hsent] at hmem
    cases hmem

/-- A started node at 128, by its MAC identifier. -/
def startedNode (macId : Nat) : NMEA2KActiveController :=
  { (NMEA2KActiveController.addApplication (.init (.init 999 2 macId 128) 60) none 25 130
      ⟨2100, 1, [], [], [], [], 0, 1⟩).2 with appTimer := true }

/-- Two nodes at one address, whose NAMEs differ in the unique number. -/
def crossingNetwork : Network := ⟨startedNode 1, startedNode 2⟩

/-- Both claim, and the claims cross. -/
def crossingRun : List NetworkEvent :=
  [.busReady .low, .busReady .high, .deliver .high 0 0, .deliver .low 0 0, .expire .high 1]

/-- The claim of the first is delivered, and the second has gone. -/
theorem arbitration_safe_crossing :
    (∀ mv ∈ (network claimDefs).trace crossingNetwork crossingRun,
      mv.post.low.Uses 128 ∧ Gives mv.pre.high mv.post.high) ∧
    ¬ ((network claimDefs).final crossingNetwork crossingRun).high.Uses 128 := by
  have hlow : Claimant 128 _ crossingNetwork.low :=
    claimant_started 999 1 (show 128 + 2 * 2 ≤ 254 by decide) 60 none 25 130 _ rfl rfl
  have hhigh : Claimant 128 _ crossingNetwork.high :=
    claimant_started 999 2 (show 128 + 2 * 2 ≤ 254 by decide) 60 none 25 130 _ rfl rfl
  have hsafe := arbitration_safe claimDefs ⟨_, rfl⟩ (by decide) hlow hhigh crossingRun
  exact ⟨hsafe.1, (hsafe.2 (crossingRun.take 2) (crossingRun.drop 3) (.deliver .high 0 0) rfl
    ⟨_, _, _, rfl⟩).1⟩

end NavigationServer.CanInterface
