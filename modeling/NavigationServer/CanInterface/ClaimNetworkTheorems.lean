/-
NavigationServer.CanInterface.ClaimNetworkTheorems — the addresses of any number
of nodes.

`addresses_settle` : any number of nodes claim addresses, and what they send is
delivered at any time and in any order. Two of them use one address only as
long as a claim of it waits for one of the two, or as long as neither has
claimed it; and a node whose NAME is the lowest keeps its address in every
state.

A claim of the address of a node has an answer (`Answered`): the node claims the address
again, goes to another one and claims that, or goes off line. The clock tells
that a running node is `Awake`, so that it sends its claims.

That is one step of one node, with its invariant `ClaimInv`; what it means for the network
is in `Lib.Mailbox`, whose rules ask for two things of a party: each turn keeps the
invariant (`Keeps`), and an address that comes to be used is claimed in the same turn
(`Defends`). Most of this file follows the history of a node through the calls
(`Says`): nothing is taken back, and no claim goes to one node alone.

A node has one application here; that those of one node differ is in
`AddressTheorems`. That a claim is delivered at last is not said: a network that
keeps it back keeps the dispute.
-/
import NavigationServer.CanInterface.ArbitrationTheorems
import NavigationServer.CanInterface.ClaimNetwork
import NavigationServer.CanInterface.ClockTheorems
import NavigationServer.CanInterface.CommandedAddress

namespace NavigationServer.CanInterface

open NavigationServer.Lib
open NavigationServer.Nmea2000
open NavigationServer.Nmea2000Datamodel
open NavigationServer.RouterCore

/-! ## 1. A running node does not stop -/

namespace Clock

/-- No application of a running node is stopping. -/
def Awake (c : Clock) : Prop := c.stopFlag = false → ∀ a ∈ c.apps, a.state ≠ .stopInProgress

section Awake

variable {c : Clock}

/-- A change that stops no application. -/
theorem Awake.modifyApp (h : c.Awake) (k : Nat) {f : AppClock → AppClock}
    (hf : ∀ a, a.state ≠ .stopInProgress → (f a).state ≠ .stopInProgress) :
    (c.modifyApp k f).Awake := by
  intro hrun a ha
  obtain ⟨j, hj⟩ := List.getElem?_of_mem ha
  change (c.apps.modify k f)[j]? = some a at hj
  rw [List.getElem?_modify] at hj
  obtain ⟨a', ha', rfl⟩ := Option.map_eq_some_iff.mp hj
  have hawake := h hrun a' (List.mem_of_getElem? ha')
  split
  · exact hf a' hawake
  · exact hawake

/-- A timer is started. -/
theorem Awake.start (h : c.Awake) (k : Nat) (kind : TimerKind) : (c.start k kind).Awake := h

/-- A claim. -/
theorem Awake.claim (h : c.Awake) (k : Nat) : (c.claim k).Awake := by
  rcases c.claim_cases k with ⟨heq, -⟩ | heq
  · rw [heq]
    exact h
  · rw [heq]
    refine (h.modifyApp k ?_).start k .claim
    exact fun _ _ hstop => nomatch hstop

/-- Several claims. -/
theorem Awake.foldl_claim (h : c.Awake) (ks : List Nat) : (ks.foldl Clock.claim c).Awake := by
  induction ks generalizing c with
  | nil => exact h
  | cons k ks ih => exact ih (h.claim k)

/-- A heartbeat. -/
theorem Awake.beat (h : c.Awake) (k : Nat) : (c.beat k).Awake := by
  rcases c.beat_cases k with ⟨heq, -⟩ | ⟨heq, -⟩
  · rw [heq]
    exact h
  · rw [heq]
    refine (h.modifyApp k ?_).start k .heartbeat
    exact fun _ hawake => hawake

/-- A claim that has come through. -/
theorem Awake.claimed (h : c.Awake) (k : Nat) : (c.claimed k).Awake := by
  refine ((h.modifyApp k ?_).beat k).modifyApp k ?_
  · exact fun _ _ hstop => nomatch hstop
  · exact fun _ hawake => hawake

/-- A timer expires. -/
theorem Awake.expire (h : c.Awake) (i : Nat) : (c.expire i).Awake := by
  unfold Clock.expire
  split
  · exact h
  · split
    · have hfire : (c.fire i).Awake := h
      split
      · exact hfire.claimed _
      · exact hfire.beat _
    · exact h

/-- A claim timer is cancelled. -/
theorem Awake.forget (h : c.Awake) (k : Nat) : (c.forget k).Awake := by
  unfold Clock.forget
  split
  · exact h
  · rename_i a _
    cases a.claimTimer <;> exact h

end Awake

end Clock

namespace NMEA2KActiveController

/-- **A call keeps a running node awake.** -/
theorem awake_call {s : NMEA2KActiveController} (h : s.clock.Awake) (defs : PGNDefinitions)
    (call : EcuCall) : (s.call defs call).2.clock.Awake := by
  have hstopped : ∀ c : Clock, c.stop.Awake := fun _ hrun => nomatch hrun
  have hstep := s.call_clock defs call
  cases call with
  | addApplication address deviceClass deviceFunction info =>
    rcases hstep with hsame | hadd
    · rw [hsame]
      exact h
    · rw [hadd]
      intro hrun a ha
      rcases List.mem_append.mp ha with ha | ha
      · exact h hrun a ha
      · rw [List.mem_singleton.mp ha]
        exact fun hstop => nomatch hstop
  | message now msg =>
    rcases hstep with ⟨ks, hks⟩ | ⟨-, k, -, hreceipt⟩
    · rw [hks]
      exact h.foldl_claim ks
    · rcases hreceipt with ⟨-, heq⟩ | heq | heq
      · rw [heq]
        exact h.forget k
      · rw [heq]
        exact (h.forget k).claim k
      · rw [heq]
        exact hstopped _
  | expire i =>
    rw [show (s.call defs (.expire i)).2.clock = s.clock.expire i from hstep]
    exact h.expire i
  | busReady k =>
    obtain ⟨ks, hks⟩ := hstep
    rw [hks]
    exact h.foldl_claim ks
  | pollDevices =>
    obtain ⟨ks, hks⟩ := hstep
    rw [hks]
    exact h.foldl_claim ks
  | stop =>
    rcases hstep with hsame | hstop
    · rw [hsame]
      exact h
    · rw [hstop]
      exact hstopped _
  | started | deviceGc _ | addSubscriber _ _ =>
    rw [hstep]
    exact h

/-! ## 2. The history grows -/

end NMEA2KActiveController

/-- A claim of an address is broadcast. -/
def Outgoing.Lawful (m : Outgoing) : Prop :=
  ∀ sa name da : Nat, m = .addressClaim sa name da → da = 255 ∨ sa = 254

namespace NMEA2KActiveController

/-- What is sent comes behind the history. -/
def Says (s s' : NMEA2KActiveController) : Prop :=
  ∃ posts : List Outgoing, s'.sent = s.sent ++ posts ∧ ∀ m ∈ posts, m.Lawful

namespace Says

/-- Nothing was sent. -/
theorem of_sent {s s' : NMEA2KActiveController} (h : s'.sent = s.sent) : Says s s' :=
  ⟨[], by rw [h, List.append_nil], fun _ hm => absurd hm List.not_mem_nil⟩

/-- Nothing was called. -/
theorem refl (s : NMEA2KActiveController) : Says s s := of_sent rfl

/-- One call behind another. -/
theorem trans {s s' s'' : NMEA2KActiveController} (h : Says s s') (h' : Says s' s'') :
    Says s s'' := by
  obtain ⟨posts, heq, hlawful⟩ := h
  obtain ⟨posts', heq', hlawful'⟩ := h'
  refine ⟨posts ++ posts', by rw [heq', heq, List.append_assoc], ?_⟩
  intro m hm
  rcases List.mem_append.mp hm with hm | hm
  · exact hlawful m hm
  · exact hlawful' m hm

/-- Before the call, something changed that is not the history. -/
theorem congr_left {s t s' : NMEA2KActiveController} (h : Says t s') (heq : t.sent = s.sent) :
    Says s s' := (of_sent heq).trans h

end Says

section Says

variable (s : NMEA2KActiveController) (k : Nat)

/-- A message that is sent. -/
theorem says_send {m : Outgoing} (h : m.Lawful) : Says s (s.send m) := by
  refine ⟨[m], rfl, ?_⟩
  intro m' hm'
  rwa [List.mem_singleton.mp hm']

/-- A timer is cancelled in silence. -/
theorem says_cancelTimer (timer : Option Nat) : Says s (s.cancelTimer timer) := by
  cases timer <;> exact Says.of_sent rfl

/-- The claim of the address in use goes to all nodes. -/
theorem says_respondAddressClaim : Says s (s.respondAddressClaim k) := by
  unfold respondAddressClaim
  split
  · exact Says.refl s
  · refine s.says_send ?_
    rintro sa name da ⟨⟩
    exact Or.inl rfl

/-- So does the claim that starts the timer. -/
theorem says_sendAddressClaim : Says s (s.sendAddressClaim k) := by
  unfold sendAddressClaim
  split
  · exact Says.refl s
  · split
    · exact Says.refl s
    · exact (s.says_respondAddressClaim k).trans (Says.of_sent rfl)

/-- A heartbeat claims nothing. -/
theorem says_sendHeartbeat : Says s (s.sendHeartbeat k) := by
  unfold sendHeartbeat
  split
  · exact Says.refl s
  · split
    · exact Says.refl s
    · refine (s.says_send ?_).trans (Says.of_sent rfl)
      exact fun _ _ _ h => nomatch h

/-- A request claims nothing. -/
theorem says_sendIsoRequest (da pgn : Nat) : Says s (s.sendIsoRequest k da pgn) := by
  unfold sendIsoRequest
  split
  · exact Says.refl s
  · exact s.says_send (fun _ _ _ h => nomatch h)

/-- The callback of the claim timer: a request to all, and the first heartbeat. -/
theorem says_addressClaimDelay : Says s (s.addressClaimDelay k) := by
  have hactive : ({ s.modifyApp k (fun app => { app with state := .active }) with
      allowedSend := true } : NMEA2KActiveController).sent = s.sent := rfl
  unfold addressClaimDelay
  refine ((Says.congr_left (says_sendIsoRequest _ k 255 60928) hactive).trans
    (says_sendHeartbeat _ k)).trans ?_
  exact Says.of_sent rfl

/-- Whatever the timer calls. -/
theorem says_expire (i : Nat) : Says s (s.expire i) := by
  unfold expire
  split
  · exact Says.refl s
  · rename_i timer _
    split
    · unfold callback
      split
      · exact Says.congr_left (says_addressClaimDelay _ timer.app) rfl
      · exact Says.congr_left (says_sendHeartbeat _ timer.app) rfl
    · exact Says.refl s

/-- The answer to a request is a claim, or one of two PGNs, or nothing. -/
theorem says_isoRequest (msg : NMEA2000Msg) : Says s (s.isoRequest k msg).2 := by
  unfold isoRequest
  split
  · exact Says.refl s
  · dsimp only
    split_ifs
    · exact s.says_respondAddressClaim k
    · exact s.says_send (fun _ _ _ h => nomatch h)
    · exact s.says_send (fun _ _ _ h => nomatch h)
    · exact Says.refl s
    · exact Says.refl s

/-- Two requests. -/
theorem says_remoteAddressClaim (msg : NMEA2000Msg) : Says s (s.remoteAddressClaim k msg).2 := by
  unfold remoteAddressClaim
  split
  · exact Says.refl s
  · split
    · exact (s.says_sendIsoRequest k msg.sa 126996).trans (says_sendIsoRequest _ k msg.sa 126998)
    · exact Says.refl s

/-- A node stops in silence: the timers are cancelled. -/
theorem says_stop : Says s s.stop.2 := by
  have hfold : ∀ (ks : List Nat) (s : NMEA2KActiveController),
      (ks.foldl stopRequest s).sent = s.sent := by
    intro ks
    induction ks with
    | nil => exact fun _ => rfl
    | cons k ks ih =>
      intro s
      rw [List.foldl_cons, ih]
      unfold stopRequest
      split
      · rfl
      · rename_i app _
        cases app.heartbeatTimer <;> rfl
  unfold stop
  split
  · exact Says.of_sent (hfold _ s)
  · exact Says.refl s

/-- The change waits, or the new address is claimed. -/
theorem says_changeAddress (address : Nat) : Says s (s.changeAddress k address).2 := by
  unfold changeAddress
  split
  · exact Says.refl s
  · dsimp only
    unfold changeApplicationAddress
    split
    · exact Says.of_sent rfl
    · exact Says.congr_left (says_sendAddressClaim _ k) rfl

/-- The claim of the address 254 is the one that says that no address is left. -/
theorem says_addressClaimReceipt (msg : NMEA2000Msg) : Says s (s.addressClaimReceipt k msg).2 := by
  unfold addressClaimReceipt
  split
  · exact Says.refl s
  · rename_i app _
    have hcancel := s.says_cancelTimer app.claimTimer
    dsimp only
    split
    · cases AddressClaim.decode msg.payload with
      | error e => exact hcancel
      | ok name =>
        dsimp only
        split_ifs
        · refine hcancel.trans (Says.congr_left ((says_send _ ?_).trans (says_stop _)) rfl)
          rintro sa name' da ⟨⟩
          exact Or.inr (by assumption)
        · exact hcancel.trans (Says.congr_left (says_changeAddress _ k _) rfl)
        · exact hcancel.trans (says_stop _)
        · exact hcancel.trans (says_respondAddressClaim _ k)
    · exact hcancel

/-- A group function is acknowledged. -/
theorem says_groupFunctionHandler (msg : NMEA2000Msg) :
    Says s (s.groupFunctionHandler k msg).2 := by
  unfold groupFunctionHandler
  split
  · exact Says.refl s
  · split
    · exact Says.refl s
    · dsimp only
      split
      · exact (Says.of_sent rfl).trans (says_send _ (fun _ _ _ h => nomatch h))
      · exact Says.of_sent rfl

/-- A commanded address is claimed. -/
theorem says_commandedAddressRequest (msg : NMEA2000Msg) :
    Says s (s.commandedAddressRequest k msg).2 := by
  unfold commandedAddressRequest
  split
  · exact Says.refl s
  · split
    · exact Says.refl s
    · split
      · exact Says.refl s
      · exact s.says_changeAddress k _

/-- The handler of the exception sends nothing. -/
theorem says_exceptKeyError {r : Outcome × NMEA2KActiveController} (h : Says s r.2) :
    Says s (exceptKeyError r).2 := by
  unfold exceptKeyError
  split <;> exact h

/-- What comes behind a call that raised is not run. -/
theorem says_andThen {r : Outcome × NMEA2KActiveController}
    {f : NMEA2KActiveController → Outcome × NMEA2KActiveController} (h : Says s r.2)
    (hf : ∀ t, Says t (f t).2) : Says s (andThen r f).2 := by
  unfold andThen
  split
  · exact h.trans (hf _)
  · exact h

/-- A message at an application. -/
theorem says_receiveMsg (defs : PGNDefinitions) (now : Time) (msg : NMEA2000Msg) :
    Says s (receiveMsg defs now s k msg).2 := by
  unfold receiveMsg
  split
  · exact Says.refl s
  · dsimp only
    split
    · exact Says.of_sent rfl
    · refine says_exceptKeyError s (Says.congr_left ?_ rfl)
      unfold processVector
      split
      · exact says_addressClaimReceipt _ k msg
      · split
        · exact says_isoRequest _ k msg
        · split
          · exact says_groupFunctionHandler _ k msg
          · split
            · exact Says.refl _
            · exact Says.of_sent rfl

/-- A broadcast at an application. -/
theorem says_receiveIsoMsg (msg : NMEA2000Msg) : Says s (s.receiveIsoMsg k msg).2 := by
  unfold receiveIsoMsg
  split
  · exact says_exceptKeyError s (s.says_isoRequest k msg)
  · split
    · exact says_exceptKeyError s (s.says_remoteAddressClaim k msg)
    · split
      · exact says_exceptKeyError s (s.says_commandedAddressRequest k msg)
      · exact Says.refl s

/-- At one application after the other. -/
theorem says_broadcast (msg : NMEA2000Msg) (ks : List Nat) : Says s (broadcast msg s ks).2 := by
  induction ks generalizing s with
  | nil => exact Says.refl s
  | cons k ks ih => exact says_andThen s (s.says_receiveIsoMsg k msg) ih

/-- The second half of a change says nothing, and leaves the applications. -/
theorem applyChange_frame : s.applyChangeApplicationAddress.2.sent = s.sent ∧
    s.applyChangeApplicationAddress.2.tables.apps = s.tables.apps := by
  have hremove : ∀ old, (s.removeApplicationIndex old).2.sent = s.sent ∧
      (s.removeApplicationIndex old).2.tables.apps = s.tables.apps := by
    intro old
    unfold removeApplicationIndex
    split
    · exact ⟨rfl, rfl⟩
    · dsimp only
      split <;> exact ⟨rfl, rfl⟩
  unfold applyChangeApplicationAddress
  split
  · exact ⟨rfl, rfl⟩
  · rename_i k old _
    by_cases hr : (s.removeApplicationIndex old).1 = .returned
    · rw [andThen_returned hr]
      split <;> exact hremove old
    · rw [andThen_not_returned hr]
      exact hremove old

/-- The device that has the source address. -/
theorem says_superProcessMsg (defs : PGNDefinitions) (now : Time) (msg : NMEA2000Msg) :
    Says s (superProcessMsg defs now s msg).2 := by
  have hdevice : ∀ t : NMEA2KActiveController, Says t (deviceReceive defs now t msg).2 := by
    intro t
    unfold deviceReceive
    split
    · exact t.says_receiveMsg _ defs now msg
    · exact Says.of_sent rfl
    · exact Says.of_sent rfl
  unfold superProcessMsg
  split
  · exact Says.refl s
  · split
    · exact Says.refl s
    · refine says_andThen s (Says.congr_left (hdevice _) rfl) ?_
      exact fun t => says_andThen t (Says.refl t) (fun _ => Says.of_sent rfl)

/-- **A message adds to the history.** -/
theorem says_processMsg (defs : PGNDefinitions) (now : Time) (msg : NMEA2000Msg) :
    Says s (processMsg defs now s msg).2 := by
  unfold processMsg
  split
  · split
    · exact Says.refl s
    · split
      · exact s.says_receiveMsg _ defs now msg
      · exact Says.refl s
  · split
    · refine says_andThen s (s.says_superProcessMsg defs now msg) ?_
      intro t
      exact says_andThen t (t.says_broadcast msg _) (fun u => Says.of_sent u.applyChange_frame.1)
    · exact Says.refl s

/-- **Any call** adds to the history. -/
theorem says_call (defs : PGNDefinitions) (call : EcuCall) : Says s (s.call defs call).2 := by
  cases call with
  | addApplication address deviceClass deviceFunction info =>
    obtain ⟨address', s', hfrom, hcase⟩ := s.addApplication_cases address deviceClass deviceFunction info
    have hsent : s'.sent = s.sent := by
      rcases hfrom with ⟨rfl, -⟩ | ⟨rfl, -⟩ <;> rfl
    rcases hcase with heq | ⟨a, name, -, -, heq⟩
    · exact Says.of_sent ((congrArg (fun r => r.2.sent) heq).trans hsent)
    · exact Says.of_sent ((congrArg (fun r => r.2.sent) heq).trans hsent)
  | started => exact Says.of_sent rfl
  | busReady k => exact s.says_sendAddressClaim k
  | message now msg =>
    rw [NMEA2KActiveController.call]
    split
    · exact Says.refl s
    · exact s.says_processMsg defs now msg
  | expire i => exact s.says_expire i
  | pollDevices =>
    rw [NMEA2KActiveController.call]
    split
    · exact Says.refl s
    · exact s.says_sendAddressClaim 0
  | deviceGc now =>
    refine Says.of_sent ?_
    rw [NMEA2KActiveController.call]
    unfold NMEA2KActiveController.deviceGc
    split
    · rfl
    · split <;> rfl
  | addSubscriber pgn function => exact Says.of_sent rfl
  | stop => exact s.says_stop

end Says

/-! ## 3. A claim of the address of a node has an answer -/

/-- The node is off line, or has claimed the address that it uses. -/
def Answered (s s' : NMEA2KActiveController) : Prop :=
  s'.stopFlag = true ∨ ∃ (app : NMEA2000Application) (posts : List Outgoing),
    s'.applications[0]? = some app ∧ s'.sent = s.sent ++ posts ∧
      .addressClaim app.address app.name.intValue 255 ∈ posts

/-- What comes behind it changes neither. -/
theorem Answered.behind {s t u : NMEA2KActiveController} (h : Answered s t) (hgrown : Says t u)
    (hflag : u.stopFlag = t.stopFlag) (happs : u.tables.apps = t.tables.apps) : Answered s u := by
  rcases h with hstop | ⟨app, posts, hk, hsent, hmem⟩
  · exact Or.inl (hflag.trans hstop)
  · obtain ⟨posts', hsent', -⟩ := hgrown
    have htable := apps_getElem? hk
    rw [← happs, tables, List.getElem?_map] at htable
    obtain ⟨app', hk', heq⟩ := Option.map_eq_some_iff.mp htable
    have haddress : app'.address = app.address := congrArg Prod.fst heq
    have hname : app'.name = app.name := congrArg Prod.snd heq
    refine Or.inr ⟨app', posts ++ posts', hk', by rw [hsent', hsent, List.append_assoc], ?_⟩
    rw [haddress, hname]
    exact List.mem_append_left _ hmem

/-- Before the claim came, something changed that is not the history. -/
theorem Answered.congr_left {s t u : NMEA2KActiveController} (h : Answered t u)
    (heq : t.sent = s.sent) : Answered s u := by
  unfold Answered at h ⊢
  rwa [heq] at h

section Answered

variable {s : NMEA2KActiveController} {app : NMEA2000Application} {msg : NMEA2000Msg} {name : Nat}

/-- **The receipt of a claim of the address.** -/
theorem addressClaimReceipt_answered (hk : s.applications[0]? = some app)
    (hsa : app.address = msg.sa) (hdec : AddressClaim.decode msg.payload = .ok name)
    (hreq : s.addressChangeRequest = none) (hstarted : s.appTimer = true)
    (hawake : app.state ≠ .stopInProgress) :
    (s.addressClaimReceipt 0 msg).1 = .returned ∧ Framed s (s.addressClaimReceipt 0 msg).2 ∧
      Answered s (s.addressClaimReceipt 0 msg).2 := by
  have hcancel := s.quiet_cancelTimer app.claimTimer
  have hkc : (s.cancelTimer app.claimTimer).applications[0]? = some app := by
    cases app.claimTimer <;> exact hk
  have hsent : (s.cancelTimer app.claimTimer).sent = s.sent := by
    cases app.claimTimer <;> rfl
  -- a lower NAME takes the address, the same one is a second node with this NAME
  by_cases hlower : nameValue name < nameValue app.name.intValue
  · obtain ⟨hreturned, hlost⟩ := addressClaimReceipt_lost hk hsa hdec hlower hreq hstarted
    refine ⟨hreturned, hlost.framed, ?_⟩
    clear hreturned hlost
    unfold addressClaimReceipt
    rw [hk]
    dsimp only
    rw [if_pos hsa, hdec]
    dsimp only
    rw [if_pos hlower]
    generalize s.cancelTimer app.claimTimer = c at hcancel hkc hsent
    have hreqc : c.getNewAddress.2.addressChangeRequest = none :=
      (congrArg (fun v => v.2.1) hcancel.view).trans hreq
    split
    · refine Or.inl (stop_started ?_).2.2
      exact hcancel.appTimer.trans hstarted
    · have hkn : c.getNewAddress.2.applications[0]? = some app := hkc
      obtain ⟨-, hchanged⟩ := changed_changeAddress hkn hreqc c.getNewAddress.1
      obtain ⟨app', hk', haddress, hname⟩ := hchanged.self
      refine Or.inr ⟨app', [.addressClaim app'.address app'.name.intValue 255], hk', ?_,
        List.mem_singleton_self _⟩
      have hposts := hchanged.sent
      rw [if_neg hawake] at hposts
      rw [haddress, hname]
      refine hposts.trans ?_
      exact congrArg (· ++ _) hsent
  · by_cases hequal : nameValue name = nameValue app.name.intValue
    · have hstop := stop_started (hcancel.appTimer.trans hstarted)
      unfold addressClaimReceipt
      rw [hk]
      dsimp only
      rw [if_pos hsa, hdec]
      dsimp only
      rw [if_neg hlower, if_pos hequal]
      exact ⟨hstop.1, (Framed.of_quiet hcancel).trans hstop.2.1, Or.inl hstop.2.2⟩
    · unfold addressClaimReceipt
      rw [hk]
      dsimp only
      rw [if_pos hsa, hdec]
      dsimp only
      rw [if_neg hlower, if_neg hequal]
      refine ⟨rfl, Framed.of_quiet (hcancel.trans (quiet_respondAddressClaim _ 0)), ?_⟩
      unfold respondAddressClaim
      rw [hkc]
      refine Or.inr ⟨app, _, hkc, ?_, List.mem_singleton_self _⟩
      change (s.cancelTimer app.claimTimer).sent ++ _ = _
      rw [hsent]

/-- `receive_msg` of such a claim. -/
theorem receiveMsg_answered (defs : PGNDefinitions) (now : Time)
    (hdefs : ∃ d, defs.pgnDefinition 60928 0 = .ok d) (hpgn : msg.pgn = 60928)
    (hk : s.applications[0]? = some app)
    (hsa : app.address = msg.sa) (hdec : AddressClaim.decode msg.payload = .ok name)
    (hreq : s.addressChangeRequest = none) (hstarted : s.appTimer = true)
    (hawake : app.state ≠ .stopInProgress) :
    (receiveMsg defs now s 0 msg).1 = .returned ∧ Framed s (receiveMsg defs now s 0 msg).2 ∧
      Answered s (receiveMsg defs now s 0 msg).2 := by
  have hcount : ∃ dev', app.toNMEA2000Device.addPgnCount defs msg.pgn = some dev' := by
    obtain ⟨d, hd⟩ := hdefs
    unfold NMEA2000Device.addPgnCount
    rw [hpgn]
    split
    · exact ⟨_, rfl⟩
    · rw [hd]
      exact ⟨_, rfl⟩
  obtain ⟨dev, hdev⟩ := hcount
  unfold receiveMsg
  rw [hk]
  dsimp only
  rw [hdev]
  dsimp only
  have hcounted : Quiet s ((s.modifyApp 0 (fun app => { app with lastmsgTs := now })).modifyApp 0
      (fun app => { app with pgnReceived := dev.pgnReceived })) := by
    refine (s.quiet_modifyApp 0 ?_).trans (quiet_modifyApp _ 0 ?_)
    · exact fun _ => ⟨rfl, rfl⟩
    · exact fun _ => ⟨rfl, rfl⟩
  have hkc : ((s.modifyApp 0 (fun app => { app with lastmsgTs := now })).modifyApp 0
      (fun app => { app with pgnReceived := dev.pgnReceived })).applications[0]?
        = some { app with lastmsgTs := now, pgnReceived := dev.pgnReceived } := by
    simp [modifyApp, hk]
  have hsent : ((s.modifyApp 0 (fun app => { app with lastmsgTs := now })).modifyApp 0
      (fun app => { app with pgnReceived := dev.pgnReceived })).sent = s.sent := rfl
  generalize (s.modifyApp 0 (fun app => { app with lastmsgTs := now })).modifyApp 0
    (fun app => { app with pgnReceived := dev.pgnReceived }) = c at hcounted hkc hsent
  have hreqc : c.addressChangeRequest = none :=
    (congrArg (fun v => v.2.1) hcounted.view).trans hreq
  obtain ⟨hreturned, hframed, hanswered⟩ := addressClaimReceipt_answered (s := c) hkc
    (show _ = msg.sa from hsa) hdec hreqc (hcounted.appTimer.trans hstarted) hawake
  have hprocess : c.processVector 0 msg = c.addressClaimReceipt 0 msg := by
    unfold processVector
    rw [if_pos hpgn]
  rw [hprocess, exceptKeyError_of_returned hreturned]
  exact ⟨hreturned, (Framed.of_quiet hcounted).trans hframed, hanswered.congr_left hsent⟩

/-- **A claim of the address of a running node has an answer.** -/
theorem Node.answers {n : Nat} (h : Node n s) (hawake : s.clock.Awake) (defs : PGNDefinitions)
    (hdefs : ∃ d, defs.pgnDefinition 60928 0 = .ok d) (now : Time) {a : Nat} (huses : s.Uses a) :
    Node n (processMsg defs now s (.of 60928 6 a 255 (toLE 8 name))).2 ∧
      Answered s (processMsg defs now s (.of 60928 6 a 255 (toLE 8 name))).2 := by
  generalize hmsg : NMEA2000Msg.of 60928 6 a 255 (toLE 8 name) = msg
  have hpgn : msg.pgn = 60928 := by rw [← hmsg]; rfl
  have hsa : msg.sa = a := by rw [← hmsg]; rfl
  have hda : msg.da = 255 := by rw [← hmsg]; rfl
  have hiso : msg.isIso = true := by rw [← hmsg]; rfl
  have hdec : AddressClaim.decode msg.payload = .ok (name % 2 ^ 64) := by
    rw [← hmsg]
    exact decode_toLE name
  obtain ⟨hflag, app, hk, haddress⟩ := huses
  have hle : a ≤ 253 := by
    rw [← haddress]
    exact h.good.1.le 0 _ _ (apps_getElem? hk)
  have hstate : app.state ≠ .stopInProgress := by
    refine hawake hflag (AppClock.of app) (List.mem_of_getElem? (i := 0) ?_)
    rw [clock_getElem?, hk]
    rfl
  have hgood : (processMsg defs now s msg).2.Good :=
    h.good.processMsg defs now ⟨fun hne => absurd hda hne, fun _ _ k _ _ => h.subscriber msg,
      fun _ hpgn' => absurd (hpgn.symm.trans hpgn') (by decide)⟩
  have hreceive : deviceReceive defs now { s with gcLock := true } msg
      = receiveMsg defs now { s with gcLock := true } 0 msg := by
    unfold deviceReceive
    rw [show ({ s with gcLock := true } : NMEA2KActiveController).devices.lookup msg.sa
      = some (.application 0) by rw [hsa, ← haddress]; exact h.good.device hk]
  obtain ⟨hreturned, hframed, hanswered⟩ :=
    receiveMsg_answered (s := { s with gcLock := true }) defs now hdefs hpgn hk
      (haddress.trans hsa.symm) hdec h.good.2 h.started hstate
  rw [← hreceive] at hreturned hframed hanswered
  have hsub : (deviceReceive defs now { s with gcLock := true } msg).2.callSubscribers msg
      = .returned :=
    (callSubscribers_congr hframed.subscriber msg).trans (h.subscriber msg)
  have hsuper := superProcessMsg_returned defs now (show msg.sa < 254 by omega) h.lock hreturned hsub
  generalize hs₁ : (deviceReceive defs now { s with gcLock := true } msg).2 = s₁ at *
  -- the lock was free, and is free again
  have hfree : Framed s { s₁ with gcLock := false } :=
    ⟨h.lock.symm, hframed.appTimer, hframed.subscriber, hframed.names, hframed.claims⟩
  have hfreeAnswered : Answered s { s₁ with gcLock := false } := hanswered
  -- the broadcast to the applications, and the second half of a change
  have hquiet := quiet_broadcast { s₁ with gcLock := false } (show msg.pgn ≠ 65240 by omega)
    (List.range s₁.applications.length)
  have hgrown := says_broadcast { s₁ with gcLock := false } msg (List.range s₁.applications.length)
  have hbroadcast := hfreeAnswered.behind hgrown hquiet.stopFlag
    (congrArg (fun v => v.1.apps) hquiet.view)
  have hframed₂ := hfree.trans (Framed.of_quiet hquiet)
  have hprocess : (processMsg defs now s msg).2
      = (andThen (broadcast msg { s₁ with gcLock := false } (List.range s₁.applications.length))
          fun s => s.applyChangeApplicationAddress).2 := by
    unfold processMsg
    rw [if_neg (fun hne => hne hda), if_pos hiso, hsuper]
    rfl
  rw [hprocess] at hgood ⊢
  generalize broadcast msg { s₁ with gcLock := false } (List.range s₁.applications.length) = r
    at hbroadcast hframed₂ hgood
  by_cases hr : r.1 = .returned
  · rw [andThen_returned hr] at hgood ⊢
    obtain ⟨happly, hflag₃⟩ := framed_applyChange r.2
    refine ⟨h.of_framed hgood (hframed₂.trans happly), ?_⟩
    exact hbroadcast.behind (Says.of_sent (applyChange_frame _).1) hflag₃ (applyChange_frame _).2
  · rw [andThen_not_returned hr] at hgood ⊢
    exact ⟨h.of_framed hgood hframed₂, hbroadcast⟩

end Answered

/-! ## 4. The turns of a node -/

section Turns

variable {n : Nat} {s : NMEA2KActiveController}

/-- A turn of the node's own changes no address. -/
theorem quiet_nodeTurn (h : Node n s) (defs : PGNDefinitions) (turn : NodeTurn) :
    Quiet s (s.call defs turn.ecuCall).2 := by
  cases turn with
  | busReady => exact s.quiet_sendAddressClaim 0
  | pollDevices =>
    rw [NodeTurn.ecuCall, NMEA2KActiveController.call]
    split
    · exact Quiet.refl s
    · exact s.quiet_sendAddressClaim 0
  | expire i => exact s.quiet_expire i
  | deviceGc now => exact quiet_deviceGc h now

/-- **A message that is received** changes no address, and is no claim of the
one that is used; or it is such a claim, and has an answer. -/
theorem receive_cases (h : Node n s) (hawake : s.clock.Awake) (defs : PGNDefinitions)
    (hdefs : ∃ d, defs.pgnDefinition 60928 0 = .ok d) (now : Time) {m : Outgoing}
    (hlawful : m.Lawful) :
    (Quiet s (s.turn defs (m.message.map (EcuCall.message now))).2 ∧
        ∀ a name : Nat, m = .addressClaim a name 255 → ¬ s.Uses a) ∨
      ((Node n (s.turn defs (m.message.map (EcuCall.message now))).2 ∧
          Answered s (s.turn defs (m.message.map (EcuCall.message now))).2) ∧
        ∃ a name : Nat, m = .addressClaim a name 255 ∧ s.Uses a ∧
          (n < nameValue name → Quiet s (s.turn defs (m.message.map (EcuCall.message now))).2)) := by
  cases m with
  | addressClaim sa name da =>
    by_cases huses : s.Uses sa ∧ da = 255
    · obtain ⟨huses, rfl⟩ := huses
      right
      have hrun : ¬ s.stopFlag = true := by simp [huses.1]
      have hturn : s.turn defs ((Outgoing.addressClaim sa name 255).message.map (EcuCall.message now))
          = processMsg defs now s (.of 60928 6 sa 255 (toLE 8 name)) := if_neg hrun
      rw [hturn]
      refine ⟨h.answers hawake defs hdefs now huses, sa, name, rfl, huses, ?_⟩
      intro hhigher
      rw [← hturn]
      exact quiet_call h defs now (h.harmless (Or.inr hhigher))
    · left
      refine ⟨?_, ?_⟩
      · by_cases hstop : s.stopFlag = true
        · rw [show s.turn defs ((Outgoing.addressClaim sa name da).message.map (EcuCall.message now))
            = (.returned, s) from if_pos hstop]
          exact Quiet.refl s
        · refine quiet_call h defs now (h.harmless (Or.inl ?_))
          intro m hm
          have husesSa : s.Uses sa := (h.uses_iff sa).mpr ⟨by simpa using hstop, m, hm⟩
          obtain ⟨-, app, hk, haddress⟩ := husesSa
          have hle : sa ≤ 253 := by
            rw [← haddress]
            exact h.good.1.le 0 _ _ (apps_getElem? hk)
          -- a claim to one node would have to be of the address 254
          rcases hlawful sa name da rfl with hda | h254
          · exact huses ⟨(h.uses_iff sa).mpr ⟨by simpa using hstop, m, hm⟩, hda⟩
          · omega
      · rintro a name' ⟨⟩ hu
        exact huses ⟨hu, rfl⟩
  | isoRequest sa da pgn =>
    left
    exact ⟨quiet_call h defs now (Or.inl rfl), fun _ _ heq => nomatch heq⟩
  | heartbeat sa sequence => exact Or.inl ⟨Quiet.refl s, fun _ _ heq => nomatch heq⟩
  | productInformation sa => exact Or.inl ⟨Quiet.refl s, fun _ _ heq => nomatch heq⟩
  | configurationInformation sa => exact Or.inl ⟨Quiet.refl s, fun _ _ heq => nomatch heq⟩
  | acknowledge sa da => exact Or.inl ⟨Quiet.refl s, fun _ _ heq => nomatch heq⟩

/-- A turn adds to the history. -/
theorem says_turn (s : NMEA2KActiveController) (defs : PGNDefinitions) (call : Option EcuCall) :
    Says s (s.turn defs call).2 := by
  cases call with
  | none => exact Says.refl s
  | some call => exact s.says_call defs call

/-- A turn keeps a running node awake. -/
theorem awake_turn (hawake : s.clock.Awake) (defs : PGNDefinitions) (call : Option EcuCall) :
    (s.turn defs call).2.clock.Awake := by
  cases call with
  | none => exact hawake
  | some call => exact awake_call hawake defs call

/-- What a call has sent. -/
theorem sentBy_posts {r : Outcome × NMEA2KActiveController} (h : Says s r.2) :
    r.2.sent = s.sent ++ (sentBy s r).2.2 ∧ ∀ m ∈ (sentBy s r).2.2, m.Lawful := by
  obtain ⟨posts, heq, hlawful⟩ := h
  have hposts : (sentBy s r).2.2 = posts := by
    unfold sentBy
    dsimp only
    rw [heq, List.drop_left]
  rw [hposts]
  exact ⟨heq, hlawful⟩

end Turns

end NMEA2KActiveController

/-! ## 5. The network -/

open NMEA2KActiveController

/-- The message claims the address. -/
def Outgoing.Claims (m : Outgoing) (a : Nat) : Prop := ∃ name : Nat, m = .addressClaim a name 255

/-- The node has claimed the address. -/
def NMEA2KActiveController.HasClaimed (s : NMEA2KActiveController) (a : Nat) : Prop :=
  ∃ m ∈ s.sent, m.Claims a

section Network

variable {ι : Type} {defs : PGNDefinitions} {names addresses : ι → Nat} {i : ι}
  {s : NMEA2KActiveController}

/-- The invariant of node `i`: when its NAME is the lowest, it is at its first
address. -/
structure ClaimInv (names addresses : ι → Nat) (i : ι) (s : NMEA2KActiveController) : Prop where
  node : Node (names i) s
  awake : s.clock.Awake
  lowest : (∀ j, j ≠ i → names i < names j) → s.Uses (addresses i)

/-- What node `i` sends. -/
structure SentBy (names : ι → Nat) (i : ι) (m : Outgoing) : Prop where
  lawful : m.Lawful
  name : ∀ sa name da : Nat, m = .addressClaim sa name da → nameValue name = names i

/-- What changes no address keeps the invariant. -/
theorem ClaimInv.of_quiet (h : ClaimInv names addresses i s) {s' : NMEA2KActiveController}
    (hquiet : Quiet s s') (hawake : s'.clock.Awake) : ClaimInv names addresses i s' :=
  ⟨h.node.of_quiet hquiet, hawake, fun hlow => (Uses.of_quiet h.node hquiet).mpr (h.lowest hlow)⟩

/-- What a turn sends are lawful claims with the NAME of the node. -/
theorem ClaimInv.sent {r : Outcome × NMEA2KActiveController} (h : ClaimInv names addresses i r.2)
    (hgrown : Says s r.2) : ∀ m ∈ (sentBy s r).2.2, SentBy names i m := by
  obtain ⟨heq, hlawful⟩ := sentBy_posts hgrown
  intro m hm
  refine ⟨hlawful m hm, ?_⟩
  rintro sa name da rfl
  refine h.node.claims sa name da ?_
  rw [heq]
  exact List.mem_append_right _ hm

/-- What is said behind a call was said before, or is sent in it. -/
theorem hasClaimed_cases {r : Outcome × NMEA2KActiveController} (hgrown : Says s r.2) {a : Nat}
    (h : r.2.HasClaimed a) : s.HasClaimed a ∨ ∃ m ∈ (sentBy s r).2.2, m.Claims a := by
  obtain ⟨m, hm, hclaims⟩ := h
  rw [(sentBy_posts hgrown).1] at hm
  rcases List.mem_append.mp hm with hm | hm
  · exact Or.inl ⟨m, hm, hclaims⟩
  · exact Or.inr ⟨m, hm, hclaims⟩

/-- **A turn keeps the invariant.** -/
theorem keeps_claimInv (hdefs : ∃ d, defs.pgnDefinition 60928 0 = .ok d) :
    Keeps (claimParty defs) (ClaimInv names addresses) (SentBy names) := by
  refine ⟨?_, ?_⟩
  · intro i s turn h
    have hinv : ClaimInv names addresses i (s.call defs turn.ecuCall).2 :=
      h.of_quiet (quiet_nodeTurn h.node defs turn) (awake_call h.awake defs _)
    exact ⟨hinv, hinv.sent (s.says_call defs _)⟩
  · intro i j s m now hij h hsent
    have hawake := awake_turn h.awake defs (m.message.map (EcuCall.message now))
    have hinv : ClaimInv names addresses i
        (s.turn defs (m.message.map (EcuCall.message now))).2 := by
      rcases receive_cases h.node h.awake defs hdefs now hsent.lawful with
        ⟨hquiet, -⟩ | ⟨⟨hnode, -⟩, a, name, rfl, -, hhigher⟩
      · exact h.of_quiet hquiet hawake
      · refine ⟨hnode, hawake, ?_⟩
        -- the claim comes from a node with a higher NAME, and changes nothing
        intro hlow
        have hlt : names i < nameValue name := by
          rw [hsent.name _ _ _ rfl]
          exact hlow j (Ne.symm hij)
        exact (Uses.of_quiet h.node (hhigher hlt)).mpr (h.lowest hlow)
    exact ⟨hinv, hinv.sent (says_turn s defs _)⟩

/-- **An address that is used is defended.** -/
theorem defends_claimInv (hdefs : ∃ d, defs.pgnDefinition 60928 0 = .ok d) :
    Defends (claimParty defs) (ClaimInv names addresses) (SentBy names) Uses HasClaimed
      Outgoing.Claims := by
  refine ⟨?_, ?_⟩
  · intro i s a turn h huses
    by_cases hclaimed : ∃ m ∈ (sentBy s (s.call defs turn.ecuCall)).2.2, m.Claims a
    · exact Or.inr hclaimed
    · left
      refine ⟨(Uses.of_quiet h.node (quiet_nodeTurn h.node defs turn)).mp huses, ?_⟩
      intro hsaid
      exact (hasClaimed_cases (s.says_call defs _) hsaid).resolve_right hclaimed
  · intro i j s m a now hij h hsent huses
    by_cases hclaimed : ∃ m' ∈ (sentBy s (s.turn defs
        (m.message.map (EcuCall.message now)))).2.2, m'.Claims a
    · exact Or.inr hclaimed
    · left
      have hgrown := says_turn s defs (m.message.map (EcuCall.message now))
      have huses : (s.turn defs (m.message.map (EcuCall.message now))).2.Uses a := huses
      rcases receive_cases h.node h.awake defs hdefs now hsent.lawful with
        ⟨hquiet, hother⟩ | ⟨⟨-, hanswered⟩, -⟩
      · have hbefore := (Uses.of_quiet h.node hquiet).mp huses
        refine ⟨hbefore, ?_, ?_⟩
        · intro hsaid
          exact (hasClaimed_cases hgrown hsaid).resolve_right hclaimed
        · rintro ⟨name, rfl⟩
          exact hother a name rfl hbefore
      -- the answer is a claim of the address that is used now
      · obtain ⟨hflag, app, hk, rfl⟩ := huses
        refine absurd ?_ hclaimed
        rcases hanswered with hstop | ⟨app', posts, hk', heq, hmem⟩
        · rw [hflag] at hstop
          cases hstop
        · rw [hk] at hk'
          cases hk'
          refine ⟨_, ?_, app.name.intValue, rfl⟩
          rw [(sentBy_posts hgrown).1] at heq
          rwa [List.append_cancel_left heq]

/-- A node that has started to claim the address `a` with the NAME `n`. -/
structure Starting (a n : Nat) (s : NMEA2KActiveController) : Prop extends Claimant a n s where
  awake : ∀ app ∈ s.applications, app.state ≠ .stopInProgress

/-- **The addresses settle.** In every run of any number of nodes, two of them
use one address only as long as a claim of it waits for one of the two, or as
long as neither of them has claimed it. A node whose NAME is the lowest keeps
its address. -/
theorem addresses_settle [DecidableEq ι] (defs : PGNDefinitions)
    (hdefs : ∃ d, defs.pgnDefinition 60928 0 = .ok d) {names addresses : ι → Nat}
    {net : Mail ι NMEA2KActiveController Outgoing}
    (hstart : ∀ i, Starting (addresses i) (names i) (net.party i))
    (hempty : ∀ i, net.inbox i = []) (events : List (MailEvent ι NodeTurn Time)) :
    (∀ i j a, i ≠ j → (((claimNetwork defs).final net events).party i).Uses a →
      (((claimNetwork defs).final net events).party j).Uses a →
        (((claimNetwork defs).final net events).Attacked Outgoing.Claims i a ∨
            ((claimNetwork defs).final net events).Attacked Outgoing.Claims j a) ∨
          (¬ (((claimNetwork defs).final net events).party i).HasClaimed a ∧
            ¬ (((claimNetwork defs).final net events).party j).HasClaimed a)) ∧
    ∀ i, (∀ j, j ≠ i → names i < names j) →
      (((claimNetwork defs).final net events).party i).Uses (addresses i) := by
  have hsound : net.Sound (ClaimInv names addresses) (SentBy names) := by
    refine ⟨?_, ?_⟩
    · intro i
      refine ⟨(hstart i).node, ?_, fun _ => (hstart i).uses⟩
      intro _ a ha
      obtain ⟨app, happ, rfl⟩ := List.mem_map.mp ha
      exact (hstart i).awake app happ
    · intro i m hm
      rw [hempty i] at hm
      cases hm
  have hsettling : net.Settling Uses HasClaimed Outgoing.Claims := by
    intro i j _ a _ _
    refine Or.inr ⟨?_, ?_⟩
    · rintro ⟨m, hm, -⟩
      rw [(hstart i).sent] at hm
      cases hm
    · rintro ⟨m, hm, -⟩
      rw [(hstart j).sent] at hm
      cases hm
  have hkeeps : Keeps (claimParty defs) (ClaimInv names addresses) (SentBy names) :=
    keeps_claimInv hdefs
  refine ⟨?_, ?_⟩
  · intro i j a hij hi hj
    exact (defends_claimInv hdefs).final hkeeps hsound hsettling events hij hi hj
  · intro i hlow
    exact ((hkeeps.final hsound events).party i).lowest hlow

end Network

/-- Three nodes that start at one address. -/
def threeNodes : Mail (Fin 3) NMEA2KActiveController Outgoing :=
  ⟨fun i => startedNode (i + 1), fun _ => []⟩

/-- Their NAMEs, which differ in the unique number. -/
def threeNames (i : Fin 3) : Nat :=
  match (threeNodes.party i).applications with
  | app :: _ => nameValue app.name.intValue
  | [] => 0

/-- The first one claims, and the second one hears of it. -/
def settlingRun : List (MailEvent (Fin 3) NodeTurn Time) :=
  [.act 0 .busReady, .deliver 1 0 0]

/-- The first node has the lowest NAME, and keeps the address. -/
theorem addresses_settle_three :
    (((claimNetwork claimDefs).final threeNodes settlingRun).party 0).Uses 128 ∧
      ¬ (((claimNetwork claimDefs).final threeNodes settlingRun).party 1).Uses 128 := by
  have hstart : ∀ i : Fin 3, Starting 128 (threeNames i) (threeNodes.party i) := by
    intro i
    refine ⟨claimant_started 999 (i + 1) (show 128 + 2 * 2 ≤ 254 by decide) 60 none 25 130
      ⟨2100, 1, [], [], [], [], 0, 1⟩ rfl rfl, ?_⟩
    intro app happ
    cases List.mem_singleton.mp happ
    exact fun hstop => nomatch hstop
  obtain ⟨hapart, hlowest⟩ :=
    addresses_settle claimDefs ⟨_, rfl⟩ hstart (fun _ => rfl) settlingRun
  have hfirst := hlowest 0 (by decide)
  refine ⟨hfirst, fun hsecond => ?_⟩
  -- what waits for the two, and what the first one has said
  have hinbox : ((claimNetwork claimDefs).final threeNodes settlingRun).inbox 0
      = [.addressClaim 129 13849274742724362244 255] := rfl
  have hinbox' : ((claimNetwork claimDefs).final threeNodes settlingRun).inbox 1 = [] := rfl
  have hsent : (((claimNetwork claimDefs).final threeNodes settlingRun).party 0).sent
      = [.addressClaim 128 13849274742724362242 255] := rfl
  rcases hapart 0 1 128 (by decide) hfirst hsecond with
    (⟨m, hm, name, rfl⟩ | ⟨m, hm, -⟩) | ⟨hno, -⟩
  · rw [hinbox] at hm
    cases List.mem_singleton.mp hm
  · rw [hinbox'] at hm
    cases hm
  · refine hno ⟨_, ?_, 13849274742724362242, rfl⟩
    rw [hsent]
    exact List.mem_singleton_self _

end NavigationServer.CanInterface
