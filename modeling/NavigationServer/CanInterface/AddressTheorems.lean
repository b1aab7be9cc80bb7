/-
NavigationServer.CanInterface.AddressTheorems — when the local address tables
stay consistent.

`tables_consistent` : in every run from a new controller whose pool ends at 254
at most, the tables say the same in every state reached, when no step takes a
wrong turn (`KeepsTables`). A conflict that is broadcast is handled within one
`process_msg`, which applies the change; on the addressed path nobody applies
it. A commanded address comes from the wire unchecked.

Most methods leave the tables alone: the `view_` lemmas say so once for each.
The two NAMEs that are compared are of two classes. Python asks the operand of
the subclass first, so the inherited equality compares their numbers
(`ne_mutable`).

A change of address comes in two halves. The first gives the application its address
and remembers the old one, and in between the tables do not agree; the second
moves the entries (`applyChange_view`). So the invariant `Good` is one between two
calls: the tables agree and no change waits. What each call does to the tables is
followed to the end of `process_msg`, where it meets the second half. What a table
change does to `WellFormed` is in `AddressTables`.

What the controller says on the bus is left out here, as are its timers.
-/
import NavigationServer.CanInterface.AddressTables

namespace NavigationServer.CanInterface

open NavigationServer.Lib
open NavigationServer.Nmea2000
open NavigationServer.Nmea2000Datamodel
open NavigationServer.RouterCore

/-! ## 1. NAMEs of two classes -/

/-- An object of `NMEA2000Name`, or of its subclass. -/
inductive NameObject where
  | name (value : Nat)
  | mutableName (value : Nat)

namespace NameObject

/-- The number of the NAME. -/
def value : NameObject → Nat
  | .name value => value
  | .mutableName value => value

/-- `__eq__`, which the subclass inherits: its argument is of the superclass
itself. -/
def eq (self name : NameObject) : Bool :=
  match name with
  | .name value => self.value = value
  | .mutableName _ => false

/-- `left != right`, which is `not right == left` when `right` is of the subclass
of the class of `left`. -/
def ne (left right : NameObject) : Bool :=
  match left, right with
  | .name _, .mutableName _ => !right.eq left
  | _, _ => !left.eq right

/-- A NAME that was decoded and that of an application are told apart by their
numbers. -/
theorem ne_mutable (value value' : Nat) :
    (NameObject.name value).ne (.mutableName value') = decide (value ≠ value') := by
  simp [ne, eq, NameObject.value, eq_comm]

end NameObject

/-! ## 2. What is claimed of a state -/

/-- The local applications have different addresses below 254, each is mapped
to its application in both tables, and the CAN interface accepts 255 and these
addresses. -/
structure Consistent (s : NMEA2KActiveController) : Prop where
  nodup : (s.applications.map (fun app => app.address)).Nodup
  le : ∀ app ∈ s.applications, app.address ≤ 253
  indexed : ∀ (k : Nat) (app : NMEA2000Application), s.applications[k]? = some app →
    s.appIndex.lookup app.address = some k ∧
      s.devices.lookup app.address = some (.application k)
  accepted : s.addresses.Perm (255 :: s.applications.map (fun app => app.address))

/-- The application of an entry of the table. -/
def Device.number : Device → Option Nat
  | .proxy _ => none
  | .application k => some k

namespace NMEA2KActiveController

/-- The claim has the address of the application and a lower NAME, and the pool
has another address. -/
def LosesAddress (s : NMEA2KActiveController) (k : Nat) (msg : NMEA2000Msg) : Prop :=
  ∃ app name, s.applications[k]? = some app ∧ app.address = msg.sa ∧
    AddressClaim.decode msg.payload = .ok name ∧
    nameValue name < nameValue app.name.intValue ∧ s.getNewAddress.1 ≠ 254

/-- **The condition of a step**: no application loses its address to a claim
that is addressed; a subscriber does not raise on a claim that takes an address;
a commanded address is below 254 and not that of another application. -/
def KeepsTables (s : NMEA2KActiveController) : EcuCall → Prop
  | .message _ msg =>
      (msg.da ≠ 255 → msg.pgn = 60928 →
        ∀ k, s.appIndex.lookup msg.da = some k → ¬ s.LosesAddress k msg) ∧
      (msg.da = 255 → msg.pgn = 60928 →
        ∀ k, s.devices.lookup msg.sa = some (.application k) → s.LosesAddress k msg →
          s.callSubscribers msg = .returned) ∧
      (msg.da = 255 → msg.pgn = 65240 →
        ∀ (k : Nat) (app : NMEA2000Application) (a : Nat), s.applications[k]? = some app →
          CommandedAddress.decode msg.payload = .ok (app.name.intValue, a) →
          a ≤ 253 ∧ ∀ (j : Nat) (app' : NMEA2000Application),
            s.applications[j]? = some app' → app'.address = a → j = k)
  | _ => True

/-! ## 3. The view of the tables -/

/-- The tables of a controller. -/
def tables (s : NMEA2KActiveController) : Tables where
  apps := s.applications.map (fun app => (app.address, app.name))
  appAt := fun a => s.devices.lookup a >>= Device.number
  appIndex := s.appIndex
  addresses := s.addresses
  pool := s.pool

/-- The tables with the request, and the subscribers. -/
def view (s : NMEA2KActiveController) :
    Tables × Option (Nat × Nat) × AList (fun _ : Nat => Subscriber) :=
  (s.tables, s.addressChangeRequest, s.subscriber)

section Views

variable (s : NMEA2KActiveController) (k : Nat)

/-- A change that keeps the address and the NAME. -/
theorem view_modifyApp {f : NMEA2000Application → NMEA2000Application}
    (h : ∀ app, (f app).address = app.address ∧ (f app).name = app.name) :
    (s.modifyApp k f).view = s.view := by
  unfold view tables modifyApp
  rw [map_modify _ _ _ _ (fun app => by rw [(h app).1, (h app).2])]

@[simp] theorem view_send (msg : Outgoing) : (s.send msg).view = s.view := rfl

@[simp] theorem view_startTimer (kind : TimerKind) : (s.startTimer k kind).view = s.view := rfl

@[simp] theorem view_cancelTimer (timer : Option Nat) : (s.cancelTimer timer).view = s.view := by
  cases timer <;> rfl

@[simp] theorem view_stopRequest : (s.stopRequest k).view = s.view := by
  unfold stopRequest
  split
  · rfl
  · rw [view_cancelTimer]
    exact s.view_modifyApp k (fun _ => ⟨rfl, rfl⟩)

@[simp] theorem view_stop : s.stop.2.view = s.view := by
  have hfold : ∀ (ks : List Nat) (s : NMEA2KActiveController),
      (ks.foldl stopRequest s).view = s.view := by
    intro ks
    induction ks with
    | nil => exact fun _ => rfl
    | cons k ks ih => exact fun s => (ih _).trans (s.view_stopRequest k)
  unfold stop
  split
  · exact hfold _ s
  · rfl

@[simp] theorem view_respondAddressClaim : (s.respondAddressClaim k).view = s.view := by
  unfold respondAddressClaim
  split <;> rfl

@[simp] theorem view_sendIsoRequest (da pgn : Nat) : (s.sendIsoRequest k da pgn).view = s.view := by
  unfold sendIsoRequest
  split <;> rfl

@[simp] theorem view_sendAddressClaim : (s.sendAddressClaim k).view = s.view := by
  unfold sendAddressClaim
  split
  · rfl
  · split
    · rfl
    · rw [view_startTimer]
      refine (view_modifyApp _ k ?_).trans (s.view_respondAddressClaim k)
      exact fun _ => ⟨rfl, rfl⟩

@[simp] theorem view_sendHeartbeat : (s.sendHeartbeat k).view = s.view := by
  unfold sendHeartbeat
  split
  · rfl
  · split
    · rfl
    · rw [view_startTimer]
      refine (view_modifyApp _ k ?_).trans (s.view_send _)
      exact fun _ => ⟨rfl, rfl⟩

@[simp] theorem view_addressClaimDelay : (s.addressClaimDelay k).view = s.view := by
  unfold addressClaimDelay
  refine (view_modifyApp _ k ?_).trans ?_
  · exact fun _ => ⟨rfl, rfl⟩
  · rw [view_sendHeartbeat, view_sendIsoRequest]
    refine s.view_modifyApp k ?_
    exact fun _ => ⟨rfl, rfl⟩

@[simp] theorem view_expire (i : Nat) : (s.expire i).view = s.view := by
  unfold expire
  split
  · rfl
  · split
    · rename_i timer _ _
      unfold callback
      split
      · exact view_addressClaimDelay _ timer.app
      · exact view_sendHeartbeat _ timer.app
    · rfl

@[simp] theorem view_isoRequest (msg : NMEA2000Msg) : (s.isoRequest k msg).2.view = s.view := by
  unfold isoRequest
  split
  · rfl
  · dsimp only
    split_ifs
    · exact s.view_respondAddressClaim k
    · rfl
    · rfl
    · rfl
    · rfl

@[simp] theorem view_remoteAddressClaim (msg : NMEA2000Msg) :
    (s.remoteAddressClaim k msg).2.view = s.view := by
  unfold remoteAddressClaim
  split
  · rfl
  · split
    · dsimp only
      rw [view_sendIsoRequest, view_sendIsoRequest]
    · rfl

@[simp] theorem view_exceptKeyError (r : Outcome × NMEA2KActiveController) :
    (exceptKeyError r).2.view = r.2.view := by
  unfold exceptKeyError
  split <;> rfl

/-- The handler leaves a call alone that returned. -/
theorem exceptKeyError_returned {r : Outcome × NMEA2KActiveController} (h : r.1 = .returned) :
    (exceptKeyError r).1 = .returned := by
  unfold exceptKeyError
  split
  · rfl
  · exact h

end Views

/-! ## 4. What the methods do to the tables -/

section Methods

variable {s : NMEA2KActiveController} {k : Nat} {app : NMEA2000Application}

/-- What is taken from the pool is one of its addresses that no device has, or 254; and the
pool only gets smaller. -/
theorem takeAddress_cases (known : Nat → Bool) (pool : List Nat) :
    (∀ a ∈ (takeAddress known pool).2, a ∈ pool) ∧
      ((takeAddress known pool).1 = 254 ∨
        ((takeAddress known pool).1 ∈ pool ∧ known (takeAddress known pool).1 = false)) := by
  induction pool with
  | nil => exact ⟨fun _ h => h, Or.inl rfl⟩
  | cons a pool ih =>
    rw [takeAddress]
    split
    · refine ⟨fun b hb => List.mem_cons_of_mem _ (ih.1 b hb), ?_⟩
      rcases ih.2 with h | ⟨hmem, hknown⟩
      · exact Or.inl h
      · exact Or.inr ⟨List.mem_cons_of_mem _ hmem, hknown⟩
    · rename_i hknown
      exact ⟨fun b hb => List.mem_cons_of_mem _ hb, Or.inr ⟨List.mem_cons_self, by simpa using hknown⟩⟩

/-- A new address costs the pool some addresses, and nothing else. -/
theorem view_getNewAddress (s : NMEA2KActiveController) :
    ∃ rest, (∀ a ∈ rest, a ∈ s.pool.addressPool) ∧
      s.getNewAddress.2.view = (s.tables.leavePool rest, s.addressChangeRequest, s.subscriber) :=
  ⟨_, (takeAddress_cases (fun a => (s.devices.lookup a).isSome) s.pool.addressPool).1, rfl⟩

/-- A new address is one that no device has. -/
theorem getNewAddress_fresh (h : s.getNewAddress.1 ≠ 254) :
    s.getNewAddress.1 ∈ s.pool.addressPool ∧ s.devices.lookup s.getNewAddress.1 = none := by
  rcases (takeAddress_cases (fun a => (s.devices.lookup a).isSome) s.pool.addressPool).2 with
    h254 | ⟨hmem, hknown⟩
  · exact absurd h254 h
  · exact ⟨hmem, by simpa [getNewAddress] using hknown⟩

/-- An application in the tables. -/
theorem apps_getElem? (h : s.applications[k]? = some app) :
    s.tables.apps[k]? = some (app.address, app.name) := by
  rw [tables, List.getElem?_map, h]
  rfl

/-- A change of address, when no other one waits. -/
theorem changeAddress_free (h : s.applications[k]? = some app) (hreq : s.addressChangeRequest = none)
    (a : Nat) :
    (s.changeAddress k a).1 = .returned ∧
      (s.changeAddress k a).2.view
        = (s.tables.withAddress k a, some (k, app.address), s.subscriber) := by
  unfold changeAddress
  rw [h]
  dsimp only
  unfold changeApplicationAddress
  have hkept : (s.modifyApp k (fun app => { app with address := a })).addressChangeRequest = none :=
    hreq
  rw [hkept]
  refine ⟨rfl, ?_⟩
  change (sendAddressClaim _ k).view = _
  rw [view_sendAddressClaim]
  have hmap := map_modify_comm s.applications k
    (fun app : NMEA2000Application => { app with address := a })
    (fun x : Nat × NMEA2000MutableName => (a, x.2))
    (fun app => (app.address, app.name)) (fun _ => rfl)
  simp only [view, tables, modifyApp, Tables.withAddress]
  rw [hmap]

/-- **A claim receipt** takes addresses from the pool at most, or the
application loses its address. -/
theorem addressClaimReceipt_cases (h : s.applications[k]? = some app) (msg : NMEA2000Msg) :
    (∃ rest, (∀ a ∈ rest, a ∈ s.pool.addressPool) ∧
      (s.addressClaimReceipt k msg).2.view
        = (s.tables.leavePool rest, s.addressChangeRequest, s.subscriber)) ∨
    (s.LosesAddress k msg ∧
      s.addressClaimReceipt k msg = (s.cancelTimer app.claimTimer).getNewAddress.2.changeAddress k
        s.getNewAddress.1) := by
  have hkept : ∀ s' : NMEA2KActiveController, s'.view = s.view →
      ∃ rest, (∀ a ∈ rest, a ∈ s.pool.addressPool) ∧
        s'.view = (s.tables.leavePool rest, s.addressChangeRequest, s.subscriber) :=
    fun s' hs' => ⟨s.pool.addressPool, fun _ ha => ha, hs'⟩
  have hnew : (s.cancelTimer app.claimTimer).getNewAddress.1 = s.getNewAddress.1 := by
    cases app.claimTimer <;> rfl
  unfold addressClaimReceipt
  rw [h]
  dsimp only
  by_cases hsa : app.address = msg.sa
  · rw [if_pos hsa]
    cases hdec : AddressClaim.decode msg.payload with
    | error e => exact Or.inl (hkept _ (view_cancelTimer ..))
    | ok name =>
      dsimp only
      split_ifs with hlower hexhausted hequal
      -- a lower NAME and no address left: the pool is empty, and the node stops
      · left
        obtain ⟨rest, hrest, hview⟩ := view_getNewAddress (s.cancelTimer app.claimTimer)
        have hcancel := s.view_cancelTimer app.claimTimer
        have hpool : (s.cancelTimer app.claimTimer).pool = s.pool :=
          congrArg (fun v => v.1.pool) hcancel
        refine ⟨rest, fun a ha => hpool ▸ hrest a ha, ?_⟩
        rw [view_stop, view_send, hview]
        simp only [view, Prod.mk.injEq] at hcancel
        rw [hcancel.1, hcancel.2.1, hcancel.2.2]
      · right
        rw [hnew] at hexhausted ⊢
        exact ⟨⟨app, name, h, hsa, hdec, hlower, hexhausted⟩, rfl⟩
      · exact Or.inl (hkept _ (by rw [view_stop, view_cancelTimer]))
      · exact Or.inl (hkept _ (by rw [view_respondAddressClaim, view_cancelTimer]))
  · rw [if_neg hsa]
    exact Or.inl (hkept _ (view_cancelTimer ..))

/-- What a device reads does not change its address. -/
theorem address_processVector (dev : NMEA2000Device) (msg : NMEA2000Msg) :
    (dev.processVector msg).2.address = dev.address := by
  unfold NMEA2000Device.processVector NMEA2000Device.p60928 NMEA2000Device.p126993
    NMEA2000Device.p126996 NMEA2000Device.p126998
  repeat' split
  all_goals rfl

/-- Whether an application loses its address depends on the tables and the
devices. -/
theorem losesAddress_congr {s' : NMEA2KActiveController} (happs : s'.tables.apps = s.tables.apps)
    (hdevices : s'.devices = s.devices) (hpool : s'.pool = s.pool) {msg : NMEA2000Msg}
    (h : s'.LosesAddress k msg) : s.LosesAddress k msg := by
  obtain ⟨app', name, hk', hsa, hdec, hlower, hnew⟩ := h
  have htable := apps_getElem? hk'
  rw [happs, tables, List.getElem?_map] at htable
  obtain ⟨app, hk, heq⟩ := Option.map_eq_some_iff.mp htable
  have haddress : app.address = app'.address := congrArg Prod.fst heq
  have hname : app.name = app'.name := congrArg Prod.snd heq
  refine ⟨app, name, hk, haddress.trans hsa, hdec, hname ▸ hlower, ?_⟩
  have : s'.getNewAddress.1 = s.getNewAddress.1 := by
    unfold getNewAddress
    rw [hdevices, hpool]
  exact this ▸ hnew

/-- The two updates of `receive_msg` before the handler. -/
theorem receiveMsg_cases (defs : PGNDefinitions) (now : Time) (h : s.applications[k]? = some app)
    (msg : NMEA2000Msg) :
    (receiveMsg defs now s k msg).2.view = s.view ∨
      ∃ (s' : NMEA2KActiveController) (app' : NMEA2000Application), s'.view = s.view ∧ s'.devices = s.devices ∧ s'.applications[k]? = some app' ∧
        receiveMsg defs now s k msg = exceptKeyError (s'.processVector k msg) := by
  have hts : (s.modifyApp k (fun app => { app with lastmsgTs := now })).view = s.view := by
    refine s.view_modifyApp k ?_
    exact fun _ => ⟨rfl, rfl⟩
  unfold receiveMsg
  rw [h]
  dsimp only
  split
  · exact Or.inl hts
  · rename_i dev hdev
    refine Or.inr ⟨(s.modifyApp k (fun app => { app with lastmsgTs := now })).modifyApp k
      (fun app => { app with pgnReceived := dev.pgnReceived }),
      { app with lastmsgTs := now, pgnReceived := dev.pgnReceived }, ?_, rfl, ?_, rfl⟩
    · refine (view_modifyApp _ k ?_).trans hts
      exact fun _ => ⟨rfl, rfl⟩
    · simp [modifyApp, h]

/-- A message that is no claim and no group function changes no table. -/
theorem receiveMsg_view (defs : PGNDefinitions) (now : Time) (s : NMEA2KActiveController) (k : Nat)
    {msg : NMEA2000Msg} (hclaim : msg.pgn ≠ 60928) (hgroup : msg.pgn ≠ 126208) :
    (receiveMsg defs now s k msg).2.view = s.view := by
  cases h : s.applications[k]? with
  | none =>
    unfold receiveMsg
    rw [h]
  | some app =>
    rcases receiveMsg_cases defs now h msg with hkept | ⟨s', app', hview, -, hk', heq⟩
    · exact hkept
    · rw [heq, view_exceptKeyError, ← hview]
      unfold processVector
      rw [if_neg hclaim, if_neg hgroup]
      split
      · exact s'.view_isoRequest k msg
      · rw [hk']
        dsimp only
        unfold view tables modifyApp
        -- the handler of the superclass keeps the address of its device
        have hmap : (s'.applications.modify k (fun app =>
              { app with toNMEA2000Device := (app'.toNMEA2000Device.processVector msg).2 })).map
              (fun app => (app.address, app.name))
            = s'.applications.map (fun app => (app.address, app.name)) := by
          apply List.ext_getElem?
          intro j
          rw [List.getElem?_map, List.getElem?_modify, List.getElem?_map]
          rcases eq_or_ne k j with rfl | hkj
          · simp [hk', address_processVector]
          · simp [hkj]
        rw [hmap]

/-- A group function changes fields of the NAME. -/
theorem receiveMsg_group (defs : PGNDefinitions) (now : Time) (s : NMEA2KActiveController) (k : Nat)
    {msg : NMEA2000Msg} (hpgn : msg.pgn = 126208) :
    (receiveMsg defs now s k msg).2.view = s.view ∨
      ∃ params, (receiveMsg defs now s k msg).2.view
        = (s.tables.rename k params, s.addressChangeRequest, s.subscriber) := by
  cases h : s.applications[k]? with
  | none =>
    unfold receiveMsg
    rw [h]
    exact Or.inl rfl
  | some app =>
    rcases receiveMsg_cases defs now h msg with hkept | ⟨s', app', hview, -, hk', heq⟩
    · exact Or.inl hkept
    · rw [heq, view_exceptKeyError]
      unfold processVector
      rw [if_neg (by omega), if_neg (by omega), if_pos hpgn]
      unfold groupFunctionHandler
      rw [hk']
      dsimp only
      split
      · exact Or.inl hview
      · rename_i params hparams
        refine Or.inr ⟨params.getD [], ?_⟩
        have hmap := map_modify_comm s'.applications k
          (fun app : NMEA2000Application =>
            { app with name := app.name.modifyParameters (params.getD []) })
          (fun x : Nat × NMEA2000MutableName => (x.1, x.2.modifyParameters (params.getD [])))
          (fun app => (app.address, app.name)) (fun _ => rfl)
        have hmodified : (s'.modifyApp k (fun app =>
              { app with name := app.name.modifyParameters (params.getD []) })).view
            = (s'.tables.rename k (params.getD []), s'.addressChangeRequest, s'.subscriber) := by
          simp only [view, tables, modifyApp, Tables.rename]
          rw [hmap]
        simp only [view, Prod.mk.injEq] at hview
        rw [← hview.1, ← hview.2.1, ← hview.2.2, ← hmodified]
        split <;> rfl

/-- A claim: an application that loses its address has another one, which waits
to be applied. -/
theorem receiveMsg_claim (defs : PGNDefinitions) (now : Time) (hreq : s.addressChangeRequest = none)
    {msg : NMEA2000Msg} (hpgn : msg.pgn = 60928) :
    (∃ rest, (∀ a ∈ rest, a ∈ s.pool.addressPool) ∧
      (receiveMsg defs now s k msg).2.view = (s.tables.leavePool rest, none, s.subscriber)) ∨
    (s.LosesAddress k msg ∧ ∃ rest, (∀ a ∈ rest, a ∈ s.pool.addressPool) ∧
      (receiveMsg defs now s k msg).1 = .returned ∧
      (receiveMsg defs now s k msg).2.view
        = ((s.tables.leavePool rest).withAddress k s.getNewAddress.1, some (k, msg.sa),
          s.subscriber)) := by
  have hkept : ∀ s' : NMEA2KActiveController, s'.view = s.view →
      ∃ rest, (∀ a ∈ rest, a ∈ s.pool.addressPool) ∧
        s'.view = (s.tables.leavePool rest, none, s.subscriber) := by
    intro s' hs'
    refine ⟨s.pool.addressPool, fun _ ha => ha, ?_⟩
    rw [hs', view, hreq]
    rfl
  cases h : s.applications[k]? with
  | none =>
    unfold receiveMsg
    rw [h]
    exact Or.inl (hkept _ rfl)
  | some app =>
    rcases receiveMsg_cases defs now h msg with hsame | ⟨s', app', hview, hdevices, hk', heq⟩
    · exact Or.inl (hkept _ hsame)
    · have hparts : s'.tables = s.tables ∧ s'.addressChangeRequest = s.addressChangeRequest ∧
          s'.subscriber = s.subscriber := by simpa [view] using hview
      obtain ⟨htables, hreq', hsub⟩ := hparts
      have hpool : s'.pool = s.pool := congrArg Tables.pool htables
      rw [heq, view_exceptKeyError]
      unfold processVector
      rw [if_pos hpgn]
      rcases addressClaimReceipt_cases hk' msg with ⟨rest, hrest, hleave⟩ | ⟨hloses, hchange⟩
      · left
        refine ⟨rest, fun a ha => hpool ▸ hrest a ha, ?_⟩
        rw [hleave, htables, hreq', hreq, hsub]
      · right
        have hsa : app'.address = msg.sa := by
          obtain ⟨app'', -, hk'', hsa, -⟩ := hloses
          rw [hk'] at hk''
          cases hk''
          exact hsa
        have hnew : s'.getNewAddress.1 = s.getNewAddress.1 := by
          unfold getNewAddress
          rw [hdevices, hpool]
        obtain ⟨rest, hrest, hleave⟩ := view_getNewAddress (s'.cancelTimer app'.claimTimer)
        have hcancel := s'.view_cancelTimer app'.claimTimer
        have hcancelParts : (s'.cancelTimer app'.claimTimer).tables = s.tables ∧
            (s'.cancelTimer app'.claimTimer).addressChangeRequest = none ∧
            (s'.cancelTimer app'.claimTimer).subscriber = s.subscriber := by
          have hsame := hcancel.trans hview
          simp only [view, Prod.mk.injEq, hreq] at hsame
          exact hsame
        have happs : (s'.cancelTimer app'.claimTimer).getNewAddress.2.applications[k]? = some app' := by
          have : (s'.cancelTimer app'.claimTimer).applications = s'.applications := by
            cases app'.claimTimer <;> rfl
          change (s'.cancelTimer app'.claimTimer).applications[k]? = some app'
          rw [this, hk']
        obtain ⟨hreturned, hafter⟩ := changeAddress_free happs hcancelParts.2.1 s'.getNewAddress.1
        refine ⟨losesAddress_congr (congrArg Tables.apps htables) hdevices hpool hloses, rest, ?_, ?_, ?_⟩
        · intro a ha
          have := hrest a ha
          rw [show (s'.cancelTimer app'.claimTimer).pool = s.pool from
            congrArg Tables.pool hcancelParts.1] at this
          exact this
        · rw [hchange]
          exact exceptKeyError_returned hreturned
        · rw [hchange, hafter, hnew, hsa]
          simp only [view, Prod.mk.injEq] at hleave
          rw [hleave.1, hleave.2.2, hcancelParts.1, hcancelParts.2.2]

end Methods

/-! ## 5. What the controller does to the tables -/

section Controller

variable {s : NMEA2KActiveController} {k : Nat} {msg : NMEA2000Msg}

/-- The next call, when this one returned. -/
theorem andThen_returned {r : Outcome × NMEA2KActiveController} (h : r.1 = .returned)
    (f : NMEA2KActiveController → Outcome × NMEA2KActiveController) : andThen r f = f r.2 := by
  obtain ⟨o, s⟩ := r
  simp only at h
  subst h
  rfl

/-- And none when it did not. -/
theorem andThen_not_returned {r : Outcome × NMEA2KActiveController} (h : r.1 ≠ .returned)
    (f : NMEA2KActiveController → Outcome × NMEA2KActiveController) : andThen r f = r := by
  obtain ⟨o, s⟩ := r
  cases o with
  | returned => exact absurd rfl h
  | raised e => rfl
  | blocked => rfl

/-- **The second half of a change**: the other tables follow. -/
theorem applyChange_view {t : Tables} {old a : Nat} {n : NMEA2000MutableName}
    {subs : AList (fun _ : Nat => Subscriber)}
    (hview : s.view = (t.withAddress k a, some (k, old), subs)) (hk : t.apps[k]? = some (old, n))
    (hat : t.appAt old = some k) (hindex : t.appIndex.lookup old = some k) :
    s.applyChangeApplicationAddress.2.view = (t.readdress k old a, none, subs) := by
  have hparts : s.tables = t.withAddress k a ∧ s.addressChangeRequest = some (k, old) ∧
      s.subscriber = subs := by simpa [view] using hview
  obtain ⟨htables, hreq, hsub⟩ := hparts
  have happAt : ∀ b, s.devices.lookup b >>= Device.number = t.appAt b :=
    fun b => congrFun (congrArg Tables.appAt htables) b
  have happIndex : s.appIndex = t.appIndex := congrArg Tables.appIndex htables
  -- the entries of the old address are there, so nothing raises
  have hdevice : (s.devices.lookup old).isNone = false := by
    have h := happAt old
    rw [hat] at h
    cases hd : s.devices.lookup old with
    | none =>
      rw [hd] at h
      cases h
    | some d => rfl
  have happs : s.applications.map (fun app => (app.address, app.name))
      = t.apps.modify k (fun x => (a, x.2)) := congrArg Tables.apps htables
  obtain ⟨app, hkapp, haddress⟩ : ∃ app, s.applications[k]? = some app ∧ app.address = a := by
    have hget : (s.applications.map (fun app => (app.address, app.name)))[k]? = some (a, n) := by
      rw [happs, List.getElem?_modify, hk]
      simp
    rw [List.getElem?_map] at hget
    obtain ⟨app, happ, heq⟩ := Option.map_eq_some_iff.mp hget
    exact ⟨app, happ, congrArg Prod.fst heq⟩
  unfold applyChangeApplicationAddress
  rw [hreq]
  dsimp only
  unfold removeApplicationIndex
  rw [hdevice, if_neg Bool.false_ne_true]
  dsimp only
  rw [happIndex, hindex, if_neg (by simp)]
  dsimp only [andThen]
  rw [hkapp]
  dsimp only [addApplicationIndex]
  rw [haddress]
  unfold view tables Tables.readdress
  dsimp only
  rw [happs, hsub, show s.addresses = t.addresses from congrArg Tables.addresses htables,
    show s.pool = t.pool from congrArg Tables.pool htables]
  congr 2
  funext b
  rcases eq_or_ne b a with rfl | hba
  · rw [AList.lookup_insert, Function.update_self]
    rfl
  · rw [AList.lookup_insert_ne hba, Function.update_of_ne hba]
    rcases eq_or_ne b old with rfl | hbo
    · rw [AList.lookup_erase, Function.update_self]
      rfl
    · rw [AList.lookup_erase_ne hbo, Function.update_of_ne hbo]
      exact happAt b

/-- A proxy takes the place of no application. -/
theorem deviceReceive_proxy (defs : PGNDefinitions) (now : Time)
    (h : ∀ k, s.devices.lookup msg.sa ≠ some (.application k)) :
    (deviceReceive defs now s msg).2.view = s.view := by
  have hinsert : ∀ dev : NMEA2000Device,
      ({ s with devices := s.devices.insert msg.sa (.proxy dev) } : NMEA2KActiveController).view
        = s.view := by
    intro dev
    have hat : (fun a => (s.devices.insert msg.sa (Device.proxy dev)).lookup a >>= Device.number)
        = fun a => s.devices.lookup a >>= Device.number := by
      funext a
      rcases eq_or_ne a msg.sa with rfl | hne
      · rw [AList.lookup_insert]
        cases hd : s.devices.lookup msg.sa with
        | none => rfl
        | some d =>
          cases d with
          | proxy dev' => rfl
          | application k => exact absurd hd (h k)
      · rw [AList.lookup_insert_ne hne]
    unfold view tables
    dsimp only
    rw [hat]
  unfold deviceReceive
  dsimp only
  split
  · rename_i k hk
    exact absurd hk (h k)
  · exact hinsert _
  · exact hinsert _

/-- What the superclass does is what the device does, but for the lock. -/
theorem superProcessMsg_state (defs : PGNDefinitions) (now : Time) (s : NMEA2KActiveController)
    (msg : NMEA2000Msg) :
    (superProcessMsg defs now s msg).2 = s ∨
      (msg.sa < 254 ∧ s.gcLock = false ∧ ∃ lock, (superProcessMsg defs now s msg).2
        = { (deviceReceive defs now { s with gcLock := true } msg).2 with gcLock := lock }) := by
  unfold superProcessMsg
  split
  · exact Or.inl rfl
  · split
    · exact Or.inl rfl
    · rename_i hsa hlock
      refine Or.inr ⟨by omega, by simpa using hlock, ?_⟩
      generalize deviceReceive defs now { s with gcLock := true } msg = r
      by_cases hr : r.1 = .returned
      · rw [andThen_returned hr]
        by_cases hsub : r.2.callSubscribers msg = .returned
        · rw [andThen_returned hsub]
          exact ⟨false, rfl⟩
        · rw [andThen_not_returned (by exact hsub)]
          exact ⟨r.2.gcLock, rfl⟩
      · rw [andThen_not_returned hr]
        exact ⟨r.2.gcLock, rfl⟩

/-- For the tables the superclass is the device, or nothing. -/
theorem superProcessMsg_cases (defs : PGNDefinitions) (now : Time) (s : NMEA2KActiveController)
    (msg : NMEA2000Msg) :
    (superProcessMsg defs now s msg).2.view = s.view ∨
      (msg.sa < 254 ∧ s.gcLock = false ∧
        (superProcessMsg defs now s msg).2.view
          = (deviceReceive defs now { s with gcLock := true } msg).2.view) := by
  rcases superProcessMsg_state defs now s msg with hsame | ⟨hsa, hlock, lock, heq⟩
  · exact Or.inl (congrArg view hsame)
  · refine Or.inr ⟨hsa, hlock, ?_⟩
    rw [heq]
    rfl

/-- When the device and the subscriber return, so does the superclass, with the
lock released. -/
theorem superProcessMsg_returned (defs : PGNDefinitions) (now : Time) (hsa : msg.sa < 254)
    (hlock : s.gcLock = false)
    (hdevice : (deviceReceive defs now { s with gcLock := true } msg).1 = .returned)
    (hsub : (deviceReceive defs now { s with gcLock := true } msg).2.callSubscribers msg
      = .returned) :
    superProcessMsg defs now s msg
      = (.returned, { (deviceReceive defs now { s with gcLock := true } msg).2 with
          gcLock := false }) := by
  unfold superProcessMsg
  rw [if_neg (by omega), hlock, if_neg Bool.false_ne_true, andThen_returned hdevice,
    andThen_returned (by exact hsub)]

/-- Only a commanded address changes a table on this path. -/
theorem receiveIsoMsg_view (s : NMEA2KActiveController) (k : Nat) (hpgn : msg.pgn ≠ 65240) :
    (s.receiveIsoMsg k msg).2.view = s.view := by
  unfold receiveIsoMsg
  split
  · rw [view_exceptKeyError, view_isoRequest]
  · split
    · rw [view_exceptKeyError, view_remoteAddressClaim]
    · rfl

/-- Whatever the applications make of it. -/
theorem broadcast_view (hpgn : msg.pgn ≠ 65240) (ks : List Nat) (s : NMEA2KActiveController) :
    (broadcast msg s ks).2.view = s.view := by
  induction ks generalizing s with
  | nil => rfl
  | cons k ks ih =>
    rw [broadcast]
    by_cases hr : (s.receiveIsoMsg k msg).1 = .returned
    · rw [andThen_returned hr, ih, receiveIsoMsg_view s k hpgn]
    · rw [andThen_not_returned hr, receiveIsoMsg_view s k hpgn]

/-- A claim that is broadcast, from a device that is known: every application
returns. -/
theorem broadcast_claim_returned (hpgn : msg.pgn = 60928) (ks : List Nat)
    (s : NMEA2KActiveController) (hlock : s.gcLock = false)
    (hknown : (s.devices.lookup msg.sa).isSome) : (broadcast msg s ks).1 = .returned := by
  induction ks generalizing s with
  | nil => rfl
  | cons k ks ih =>
    obtain ⟨device, hdevice⟩ := Option.isSome_iff_exists.mp hknown
    have hone : (s.receiveIsoMsg k msg).1 = .returned ∧
        (s.receiveIsoMsg k msg).2.gcLock = s.gcLock ∧
        (s.receiveIsoMsg k msg).2.devices = s.devices := by
      have hsend : ∀ (s : NMEA2KActiveController) (da pgn : Nat),
          (s.sendIsoRequest k da pgn).gcLock = s.gcLock ∧
            (s.sendIsoRequest k da pgn).devices = s.devices := by
        intro s da pgn
        unfold sendIsoRequest
        split <;> exact ⟨rfl, rfl⟩
      unfold receiveIsoMsg
      rw [if_neg (by omega), if_pos hpgn]
      unfold remoteAddressClaim getDeviceByAddress
      rw [hlock, if_neg Bool.false_ne_true, hdevice]
      dsimp only
      split
      · refine ⟨rfl, ?_, ?_⟩
        · exact (((hsend _ _ _).1.trans (hsend _ _ _).1)).trans hlock
        · exact (hsend _ _ _).2.trans (hsend _ _ _).2
      · exact ⟨rfl, hlock, rfl⟩
    obtain ⟨hreturned, hlock', hdevices⟩ := hone
    rw [broadcast, andThen_returned hreturned]
    exact ih _ (hlock'.trans hlock) (by rw [hdevices]; exact hknown)

/-- Some applications first, and the others behind, unless one raises. -/
theorem broadcast_append (ks ks' : List Nat) (s : NMEA2KActiveController) :
    broadcast msg s (ks ++ ks') = andThen (broadcast msg s ks) fun s => broadcast msg s ks' := by
  induction ks generalizing s with
  | nil => rfl
  | cons k ks ih =>
    rw [List.cons_append, broadcast, broadcast]
    by_cases hr : (s.receiveIsoMsg k msg).1 = .returned
    · rw [andThen_returned hr, andThen_returned hr, ih]
    · rw [andThen_not_returned hr, andThen_not_returned hr, andThen_not_returned hr]

/-- A commanded address at an application. -/
theorem receiveIsoMsg_commanded (hpgn : msg.pgn = 65240) :
    s.receiveIsoMsg k msg = exceptKeyError (s.commandedAddressRequest k msg) := by
  rw [receiveIsoMsg, if_neg (by omega), if_neg (by omega), if_pos hpgn]

/-- `commanded_address_request`, with its comparison of objects. -/
theorem commandedAddressRequest_eq {app : NMEA2000Application} (hk : s.applications[k]? = some app)
    {name a : Nat} (hdec : CommandedAddress.decode msg.payload = .ok (name, a)) :
    s.commandedAddressRequest k msg =
      if (NameObject.name name).ne (.mutableName app.name.intValue) then (.returned, s)
      else s.changeAddress k a := by
  rw [commandedAddressRequest, hk]
  simp only [hdec, NameObject.ne_mutable, decide_eq_true_eq]

/-- A commanded address is not for an application with another NAME. -/
theorem receiveIsoMsg_other (hpgn : msg.pgn = 65240) {name a : Nat}
    (hdec : CommandedAddress.decode msg.payload = .ok (name, a))
    (hother : ∀ app, s.applications[k]? = some app → app.name.intValue ≠ name) :
    s.receiveIsoMsg k msg = (.returned, s) := by
  rw [receiveIsoMsg_commanded hpgn]
  cases hk : s.applications[k]? with
  | none =>
    rw [commandedAddressRequest, hk]
    rfl
  | some app =>
    rw [commandedAddressRequest_eq hk hdec, NameObject.ne_mutable,
      if_pos (decide_eq_true (Ne.symm (hother app hk)))]
    rfl

/-- It is for the application with its NAME. -/
theorem receiveIsoMsg_self (hpgn : msg.pgn = 65240) {name a : Nat}
    (hdec : CommandedAddress.decode msg.payload = .ok (name, a)) {app : NMEA2000Application}
    (hk : s.applications[k]? = some app) (hname : app.name.intValue = name) :
    s.receiveIsoMsg k msg = exceptKeyError (s.changeAddress k a) := by
  rw [receiveIsoMsg_commanded hpgn, commandedAddressRequest_eq hk hdec, NameObject.ne_mutable, if_neg]
  exact fun hne => of_decide_eq_true hne hname.symm

/-- The handler, with the state. -/
theorem exceptKeyError_of_returned {r : Outcome × NMEA2KActiveController} (h : r.1 = .returned) :
    exceptKeyError r = r := by
  unfold exceptKeyError
  rw [← Prod.mk.eta (p := r), h]

/-- A commanded address with a NAME that no application has. -/
theorem broadcast_other (hpgn : msg.pgn = 65240) {name a : Nat}
    (hdec : CommandedAddress.decode msg.payload = .ok (name, a)) (ks : List Nat)
    (hother : ∀ k ∈ ks, ∀ app, s.applications[k]? = some app → app.name.intValue ≠ name) :
    broadcast msg s ks = (.returned, s) := by
  induction ks with
  | nil => rfl
  | cons k ks ih =>
    rw [broadcast, receiveIsoMsg_other hpgn hdec (hother k List.mem_cons_self)]
    exact ih (fun j hj => hother j (List.mem_cons_of_mem _ hj))

/-- A commanded address that is not read changes no table. -/
theorem broadcast_error (hpgn : msg.pgn = 65240) {e : Exn}
    (hdec : CommandedAddress.decode msg.payload = .error e) (ks : List Nat) :
    (broadcast msg s ks).2 = s := by
  have hone : ∀ k, (s.receiveIsoMsg k msg).2 = s := by
    intro k
    rw [receiveIsoMsg_commanded hpgn, commandedAddressRequest]
    cases s.applications[k]? with
    | none => rfl
    | some app =>
      dsimp only
      rw [hdec]
      unfold exceptKeyError
      split
      · rename_i heq
        exact congrArg Prod.snd heq.symm
      · rename_i heq
        exact congrArg Prod.snd heq.symm
  induction ks with
  | nil => rfl
  | cons k ks ih =>
    rw [broadcast]
    by_cases hr : (s.receiveIsoMsg k msg).1 = .returned
    · rw [andThen_returned hr, hone k, ih]
    · rw [andThen_not_returned hr, hone k]

/-- **A commanded address** is for one application at most: the others do
nothing. -/
theorem broadcast_commanded (hpgn : msg.pgn = 65240) {name a : Nat}
    (hdec : CommandedAddress.decode msg.payload = .ok (name, a)) {app : NMEA2000Application}
    (hk : s.applications[k]? = some app) (hname : app.name.intValue = name)
    (hreq : s.addressChangeRequest = none)
    (honly : ∀ (j : Nat) (app' : NMEA2000Application), s.applications[j]? = some app' →
      app'.name.intValue = name → j = k) :
    broadcast msg s (List.range s.applications.length) = s.changeAddress k a := by
  obtain ⟨hreturned, hview⟩ := changeAddress_free hk hreq a
  have hmem : k ∈ List.range s.applications.length :=
    List.mem_range.mpr (List.getElem?_eq_some_iff.mp hk).1
  -- the one application among those before it and those behind it
  obtain ⟨before, after, hsplit⟩ := List.append_of_mem hmem
  have hnodup : (before ++ k :: after).Nodup := hsplit ▸ List.nodup_range
  have hbefore : k ∉ before := by
    intro hb
    exact (List.nodup_append.mp hnodup).2.2 k hb k List.mem_cons_self rfl
  have hafter : k ∉ after := (List.nodup_cons.mp (List.nodup_append.mp hnodup).2.1).1
  have hself : s.receiveIsoMsg k msg = s.changeAddress k a := by
    rw [receiveIsoMsg_self hpgn hdec hk hname, exceptKeyError_of_returned hreturned]
  rw [hsplit, broadcast_append, broadcast_other hpgn hdec before]
  · change broadcast msg s (k :: after) = _
    rw [broadcast, hself, andThen_returned hreturned]
    -- the change left the NAMEs of the others
    rw [broadcast_other hpgn hdec after]
    · rw [← hreturned]
    · intro j hj app' hj' hname'
      have htable := apps_getElem? hj'
      rw [show (s.changeAddress k a).2.tables = s.tables.withAddress k a from
        congrArg Prod.fst hview] at htable
      have hkj : k ≠ j := fun heq => hafter (heq ▸ hj)
      obtain ⟨x, hx, heq⟩ := Tables.WellFormed.getElem?_modify_some htable
      rw [if_neg hkj] at heq
      subst heq
      rw [tables, List.getElem?_map] at hx
      obtain ⟨app'', hj'', heq⟩ := Option.map_eq_some_iff.mp hx
      have hsame : app''.name = app'.name := congrArg Prod.snd heq
      exact hkj (honly j app'' hj'' (by rw [hsame]; exact hname')).symm
  · intro j hj app' hj' hname'
    have := honly j app' hj' hname'
    subst this
    exact hbefore hj

end Controller

/-! ## 6. A step and a run -/

/-- Between two calls: the tables say the same, and no change waits. -/
def Good (s : NMEA2KActiveController) : Prop :=
  s.tables.WellFormed ∧ s.addressChangeRequest = none

namespace Good

variable {s : NMEA2KActiveController}

/-- A call that leaves the tables. -/
theorem of_view {s' : NMEA2KActiveController} (h : s.Good) (hview : s'.view = s.view) : s'.Good := by
  simp only [view, Prod.mk.injEq] at hview
  exact ⟨hview.1 ▸ h.1, hview.2.1.trans h.2⟩

/-- A call that takes addresses from the pool at most. -/
theorem of_leavePool {s' : NMEA2KActiveController} (h : s.Good) {rest : List Nat}
    (hrest : ∀ a ∈ rest, a ∈ s.pool.addressPool) {subs : AList (fun _ : Nat => Subscriber)}
    (hview : s'.view = (s.tables.leavePool rest, none, subs)) : s'.Good := by
  simp only [view, Prod.mk.injEq] at hview
  refine ⟨?_, hview.2.1⟩
  rw [hview.1]
  exact h.1.leavePool hrest

/-- Nothing is applied when no change waits. -/
theorem apply (h : s.Good) : s.applyChangeApplicationAddress.2.Good := by
  unfold applyChangeApplicationAddress
  rw [h.2]
  exact h

/-- What comes behind the superclass, for a message that commands no
address. -/
theorem tail {r : Outcome × NMEA2KActiveController} (h : r.2.Good) {msg : NMEA2000Msg}
    (hpgn : msg.pgn ≠ 65240) :
    (andThen r fun s =>
      andThen (broadcast msg s (List.range s.applications.length)) fun s =>
        s.applyChangeApplicationAddress).2.Good := by
  by_cases hr : r.1 = .returned
  · rw [andThen_returned hr]
    have hb := h.of_view (broadcast_view hpgn (List.range r.2.applications.length) r.2)
    by_cases hb1 : (broadcast msg r.2 (List.range r.2.applications.length)).1 = .returned
    · rw [andThen_returned hb1]
      exact hb.apply
    · rw [andThen_not_returned hb1]
      exact hb
  · rw [andThen_not_returned hr]
    exact h

/-- An application with its address. -/
theorem device (h : s.Good) {k : Nat} {app : NMEA2000Application}
    (hk : s.applications[k]? = some app) :
    s.devices.lookup app.address = some (.application k) := by
  have hat := (h.1.appAt app.address k).mpr ⟨app.name, apps_getElem? hk⟩
  change s.devices.lookup app.address >>= Device.number = some k at hat
  cases hd : s.devices.lookup app.address with
  | none =>
    rw [hd] at hat
    cases hat
  | some d =>
    rw [hd] at hat
    cases d with
    | proxy dev => cases hat
    | application j =>
      cases hat
      rfl

/-- What is claimed of a state, for one between two calls. -/
theorem consistent (h : s.Good) : Consistent s := by
  have hfst : s.tables.apps.map Prod.fst = s.applications.map (fun app => app.address) := by
    rw [tables, List.map_map]
    rfl
  refine ⟨?_, ?_, ?_, ?_⟩
  · rw [← hfst]
    exact h.1.nodup
  · intro app happ
    obtain ⟨k, hk⟩ := List.getElem?_of_mem happ
    exact h.1.le k _ _ (apps_getElem? hk)
  · intro k app hk
    exact ⟨h.1.appIndex k _ _ (apps_getElem? hk), h.device hk⟩
  · rw [← hfst]
    exact h.1.addresses

/-- An application gets an address that no other one has, in all tables. -/
theorem of_readdress {s' : NMEA2KActiveController} (h : s.Good) {rest : List Nat}
    (hrest : ∀ a ∈ rest, a ∈ s.pool.addressPool) {k a : Nat} {app : NMEA2000Application}
    (hk : s.applications[k]? = some app) (ha : a ≤ 253)
    (hfree : ∀ j, s.devices.lookup a >>= Device.number = some j → j = k)
    {subs : AList (fun _ : Nat => Subscriber)}
    (hview : s'.view = ((s.tables.leavePool rest).withAddress k a, some (k, app.address), subs)) :
    s'.applyChangeApplicationAddress.2.Good := by
  have hwf := h.1.leavePool hrest
  have htable : (s.tables.leavePool rest).apps[k]? = some (app.address, app.name) := apps_getElem? hk
  have happly := applyChange_view hview htable ((hwf.appAt _ _).mpr ⟨_, htable⟩)
    (hwf.appIndex _ _ _ htable)
  simp only [view, Prod.mk.injEq] at happly
  refine ⟨?_, happly.2.1⟩
  rw [happly.1]
  exact hwf.readdress htable ha hfree

end Good

section Steps

variable {s : NMEA2KActiveController} {msg : NMEA2000Msg}

/-- An address of the pool that no device has. -/
theorem Good.getNewAddress_le (h : s.Good) (hnew : s.getNewAddress.1 ≠ 254) :
    s.getNewAddress.1 ≤ 253 ∧
      ∀ j k, s.devices.lookup s.getNewAddress.1 >>= Device.number = some j → j = k := by
  obtain ⟨hmem, hfree⟩ := getNewAddress_fresh hnew
  have hle := h.1.pool.le _ hmem
  refine ⟨by omega, ?_⟩
  intro j k hj
  rw [hfree] at hj
  cases hj

/-- **A claim that is broadcast**: the application that loses its address gets
another one in all tables. -/
theorem Good.broadcastClaim (h : s.Good) (defs : PGNDefinitions) (now : Time)
    (hpgn : msg.pgn = 60928)
    (hsub : ∀ k, s.devices.lookup msg.sa = some (.application k) → s.LosesAddress k msg →
      s.callSubscribers msg = .returned) :
    (andThen (superProcessMsg defs now s msg) fun s =>
      andThen (broadcast msg s (List.range s.applications.length)) fun s =>
        s.applyChangeApplicationAddress).2.Good := by
  have hne : msg.pgn ≠ 65240 := by omega
  rcases superProcessMsg_cases defs now s msg with hkept | ⟨hsa, hlock, hview⟩
  · exact (h.of_view hkept).tail hne
  · have hlocked : Good { s with gcLock := true } := h
    by_cases happ : ∃ k, s.devices.lookup msg.sa = some (.application k)
    · obtain ⟨k, hk⟩ := happ
      have hreceive : deviceReceive defs now { s with gcLock := true } msg
          = receiveMsg defs now { s with gcLock := true } k msg := by
        unfold deviceReceive
        rw [show ({ s with gcLock := true } : NMEA2KActiveController).devices.lookup msg.sa
          = some (.application k) from hk]
      rcases receiveMsg_claim (k := k) defs now hlocked.2 hpgn with
        ⟨rest, hrest, hleave⟩ | ⟨hloses, rest, hrest, hreturned, hmoved⟩
      · refine Good.tail ?_ hne
        exact h.of_leavePool hrest (hview.trans (by rw [hreceive]; exact hleave))
      · -- the device returns, and so do the subscriber and the applications
        have hloses' : s.LosesAddress k msg := losesAddress_congr (s := s) rfl rfl rfl hloses
        have hcall := hsub k hk hloses'
        rw [← hreceive] at hreturned hmoved
        have hsubscriber : (deviceReceive defs now { s with gcLock := true } msg).2.callSubscribers msg
            = .returned := by
          have : (deviceReceive defs now { s with gcLock := true } msg).2.subscriber
              = s.subscriber := congrArg (fun v => v.2.2) hmoved
          unfold callSubscribers at hcall ⊢
          rw [this]
          exact hcall
        rw [superProcessMsg_returned defs now hsa hlock hreturned hsubscriber]
        generalize (deviceReceive defs now { s with gcLock := true } msg).2 = s₁ at hmoved
        change (andThen (broadcast msg { s₁ with gcLock := false } (List.range s₁.applications.length))
          _).2.Good
        obtain ⟨app, name, hkapp, hsame, -, -, hnew⟩ := hloses'
        -- the first half left the entry of the address, so the broadcast finds the sender
        have hknown : (s₁.devices.lookup msg.sa).isSome := by
          have hat : s₁.devices.lookup msg.sa >>= Device.number
              = s.devices.lookup msg.sa >>= Device.number :=
            congrFun (congrArg (fun v => v.1.appAt) hmoved) msg.sa
          rw [hk] at hat
          cases hd : s₁.devices.lookup msg.sa with
          | none =>
            rw [hd] at hat
            cases hat
          | some d => rfl
        have hbroadcast := broadcast_claim_returned hpgn (List.range s₁.applications.length)
          { s₁ with gcLock := false } rfl hknown
        rw [andThen_returned hbroadcast]
        have hlast := (broadcast_view hne (List.range s₁.applications.length)
          { s₁ with gcLock := false }).trans hmoved
        obtain ⟨hle, hfree⟩ := h.getNewAddress_le hnew
        rw [← hsame] at hlast
        exact h.of_readdress hrest hkapp hle (fun j => hfree j k) hlast
    · refine Good.tail ?_ hne
      refine h.of_view (hview.trans ?_)
      exact deviceReceive_proxy defs now (s := { s with gcLock := true })
        (fun k hk => happ ⟨k, hk⟩)

/-- **A commanded address**, below 254 and not that of another application. -/
theorem Good.commanded (h : s.Good) (defs : PGNDefinitions) (now : Time) (hpgn : msg.pgn = 65240)
    (hfree : ∀ (k : Nat) (app : NMEA2000Application) (a : Nat), s.applications[k]? = some app →
      CommandedAddress.decode msg.payload = .ok (app.name.intValue, a) →
      a ≤ 253 ∧ ∀ (j : Nat) (app' : NMEA2000Application),
        s.applications[j]? = some app' → app'.address = a → j = k) :
    (andThen (superProcessMsg defs now s msg) fun s =>
      andThen (broadcast msg s (List.range s.applications.length)) fun s =>
        s.applyChangeApplicationAddress).2.Good := by
  -- the superclass changes no table
  have hsuper : (superProcessMsg defs now s msg).2.view = s.view := by
    rcases superProcessMsg_cases defs now s msg with hkept | ⟨-, -, hview⟩
    · exact hkept
    · rw [hview]
      by_cases happ : ∃ k, s.devices.lookup msg.sa = some (.application k)
      · obtain ⟨k, hk⟩ := happ
        unfold deviceReceive
        rw [show ({ s with gcLock := true } : NMEA2KActiveController).devices.lookup msg.sa
          = some (.application k) from hk]
        exact receiveMsg_view defs now { s with gcLock := true } k (by omega) (by omega)
      · exact deviceReceive_proxy defs now (s := { s with gcLock := true })
          (fun k hk => happ ⟨k, hk⟩)
  have hgood := h.of_view hsuper
  by_cases hr : (superProcessMsg defs now s msg).1 = .returned
  · rw [andThen_returned hr]
    generalize (superProcessMsg defs now s msg).2 = s₁ at hsuper hgood
    have htables : s₁.tables = s.tables := congrArg Prod.fst hsuper
    cases hdec : CommandedAddress.decode msg.payload with
    | error e =>
      have hsame := broadcast_error (s := s₁) hpgn hdec (List.range s₁.applications.length)
      by_cases hb : (broadcast msg s₁ (List.range s₁.applications.length)).1 = .returned
      · rw [andThen_returned hb, hsame]
        exact hgood.apply
      · rw [andThen_not_returned hb, hsame]
        exact hgood
    | ok commanded =>
      obtain ⟨name, a⟩ := commanded
      by_cases hsome : ∃ (k : Nat) (app : NMEA2000Application),
          s₁.applications[k]? = some app ∧ app.name.intValue = name
      · obtain ⟨k, app, hk, rfl⟩ := hsome
        have honly : ∀ (j : Nat) (app' : NMEA2000Application), s₁.applications[j]? = some app' →
            app'.name.intValue = app.name.intValue → j = k := by
          intro j app' hj hname
          exact hgood.1.name_injective (apps_getElem? hj) (apps_getElem? hk) hname
        rw [broadcast_commanded hpgn hdec hk rfl hgood.2 honly]
        obtain ⟨hreturned, hview⟩ := changeAddress_free hk hgood.2 a
        rw [andThen_returned hreturned]
        -- the applications of the step have the same address and NAME
        have hback : ∀ (j : Nat) (app' : NMEA2000Application), s₁.applications[j]? = some app' →
            ∃ app'', s.applications[j]? = some app'' ∧ app''.address = app'.address ∧
              app''.name = app'.name := by
          intro j app' hj
          have htable := apps_getElem? hj
          rw [htables, tables, List.getElem?_map] at htable
          obtain ⟨app'', hj'', heq⟩ := Option.map_eq_some_iff.mp htable
          exact ⟨app'', hj'', congrArg Prod.fst heq, congrArg Prod.snd heq⟩
        obtain ⟨app₀, hk₀, -, hname₀⟩ := hback k app hk
        obtain ⟨hle, hother⟩ := hfree k app₀ a hk₀ (by rw [hname₀, hdec])
        -- who has the commanded address in the tables is an application of the step
        refine hgood.of_readdress (fun b (hb : b ∈ s₁.pool.addressPool) => hb) hk hle ?_ hview
        intro j hj
        obtain ⟨n, hn⟩ := (hgood.1.appAt a j).mp hj
        rw [tables, List.getElem?_map] at hn
        obtain ⟨app', hj', heq⟩ := Option.map_eq_some_iff.mp hn
        obtain ⟨app'', hj'', haddress, -⟩ := hback j app' hj'
        exact hother j app'' hj'' (haddress.trans (congrArg Prod.fst heq))
      · have hnone : broadcast msg s₁ (List.range s₁.applications.length) = (.returned, s₁) := by
          refine broadcast_other hpgn hdec _ ?_
          intro k _ app hk hname
          exact hsome ⟨k, app, hk, hname⟩
        rw [hnone]
        exact hgood.apply
  · rw [andThen_not_returned hr]
    exact hgood

/-- **A message for an application**, which takes no address. -/
theorem Good.addressed (h : s.Good) (defs : PGNDefinitions) (now : Time) {k : Nat}
    (hkeeps : msg.pgn = 60928 → ¬ s.LosesAddress k msg) :
    (receiveMsg defs now s k msg).2.Good := by
  by_cases hclaim : msg.pgn = 60928
  · rcases receiveMsg_claim (k := k) defs now h.2 hclaim with
      ⟨rest, hrest, hview⟩ | ⟨hloses, -⟩
    · exact h.of_leavePool hrest hview
    · exact absurd hloses (hkeeps hclaim)
  · by_cases hgroup : msg.pgn = 126208
    · rcases receiveMsg_group defs now s k hgroup with hview | ⟨params, hview⟩
      · exact h.of_view hview
      · simp only [view, Prod.mk.injEq] at hview
        refine ⟨?_, hview.2.1.trans h.2⟩
        rw [hview.1]
        exact h.1.rename k params
    · exact h.of_view (receiveMsg_view defs now s k hclaim hgroup)

/-- **A message**, by its destination and its PGN: a claim that is broadcast, a commanded
address, any other broadcast, or a message for one application. -/
theorem Good.processMsg (h : s.Good) (defs : PGNDefinitions) (now : Time)
    (hkeeps : s.KeepsTables (.message now msg)) : (processMsg defs now s msg).2.Good := by
  obtain ⟨haddressed, hbroadcast, hcommanded⟩ := hkeeps
  unfold NMEA2KActiveController.processMsg
  by_cases hda : msg.da = 255
  · rw [if_neg (fun hne => hne hda)]
    split
    · by_cases hclaim : msg.pgn = 60928
      · exact h.broadcastClaim defs now hclaim (hbroadcast hda hclaim)
      · by_cases hcommand : msg.pgn = 65240
        · exact h.commanded defs now hcommand (hcommanded hda hcommand)
        · refine Good.tail ?_ hcommand
          rcases superProcessMsg_cases defs now s msg with hview | ⟨-, -, hview⟩
          · exact h.of_view hview
          · have hlocked : Good { s with gcLock := true } := h
            by_cases happ : ∃ k, s.devices.lookup msg.sa = some (.application k)
            · obtain ⟨k, hk⟩ := happ
              refine Good.of_view (s := (receiveMsg defs now { s with gcLock := true } k msg).2) ?_ ?_
              · exact hlocked.addressed defs now (fun hpgn => absurd hpgn hclaim)
              · rw [hview]
                unfold deviceReceive
                rw [show ({ s with gcLock := true } : NMEA2KActiveController).devices.lookup msg.sa
                  = some (.application k) from hk]
            · refine h.of_view (hview.trans ?_)
              exact deviceReceive_proxy defs now (s := { s with gcLock := true })
                (fun k hk => happ ⟨k, hk⟩)
    · exact h
  · rw [if_pos hda]
    split
    · exact h
    · rename_i k hk
      split
      · exact h.addressed defs now (fun hpgn => haddressed hda hpgn k hk)
      · exact h

/-- The collection removes proxies only. -/
theorem view_deviceGc (s : NMEA2KActiveController) (now : Time) :
    (s.deviceGc now).2.view = s.view := by
  unfold deviceGc
  split
  · rfl
  · split
    · rfl
    · unfold view tables
      dsimp only
      congr 2
      funext a
      rw [lookup_foldl_erase]
      split
      · rename_i hmem
        obtain ⟨⟨b, d⟩, hentry, rfl⟩ := List.mem_map.mp hmem
        obtain ⟨hentry, hsilent⟩ := List.mem_filter.mp hentry
        rw [AList.mem_lookup_iff.mpr hentry]
        cases d with
        | proxy dev => rfl
        | application k => cases hsilent
      · rfl

/-- The NAME of a new application has its identity number. -/
theorem applicationName_identity {pool : NMEA2000ApplicationPool} {deviceClass deviceFunction : Nat}
    {name : NMEA2000MutableName} (h : applicationName pool deviceClass deviceFunction = some name) :
    name.HasIdentity (pool.uniqueIdRoot ||| pool.applicationCount) ∧
      pool.applicationCount < pool.maxApplication := by
  unfold applicationName at h
  split at h
  · rename_i hlt
    cases h
    refine ⟨⟨?_, ?_⟩, hlt⟩
    · simp [-AList.insert_empty, AList.lookup_insert_ne]
    · simp [-AList.insert_empty, AList.lookup_insert_ne]
  · cases h

/-- An application comes into all tables at once. -/
theorem Good.addNamed (h : s.Good) {a : Nat} {name : NMEA2000MutableName} (info : ProductInformation)
    (ha : a ≤ 253) (hfree : s.devices.lookup a = none)
    (hname : name.HasIdentity (s.pool.uniqueIdRoot ||| s.pool.applicationCount))
    (hcount : s.pool.applicationCount < s.pool.maxApplication) :
    ({ s with pool := { s.pool with applicationCount := s.pool.applicationCount + 1 } }.addNamed a
      name info).Good := by
  refine ⟨?_, h.2⟩
  have hadd : ({ s with pool := { s.pool with applicationCount := s.pool.applicationCount + 1 } }.addNamed
      a name info).tables = s.tables.add a name := by
    simp only [NMEA2KActiveController.addNamed, addApplicationIndex, tables, Tables.add,
      List.map_append, List.map_cons, List.map_nil, List.length_map]
    congr 1
    funext b
    rcases eq_or_ne b a with rfl | hba
    · rw [AList.lookup_insert, Function.update_self]
      rfl
    · rw [AList.lookup_insert_ne hba, Function.update_of_ne hba]
  rw [hadd]
  refine h.1.add ha ?_ hname hcount
  change s.devices.lookup a >>= Device.number = none
  rw [hfree]
  rfl

/-- An address is taken from the pool. -/
theorem Good.getNewAddress (h : s.Good) : s.getNewAddress.2.Good := by
  obtain ⟨rest, hrest, hview⟩ := view_getNewAddress s
  have hview' : s.getNewAddress.2.view = (s.tables.leavePool rest, none, s.subscriber) := by
    rw [hview, h.2]
  exact h.of_leavePool hrest hview'

/-- A new application gets an address or is refused. The address is the one that
is given, where no device has it, or a new one. -/
theorem addApplication_cases (s : NMEA2KActiveController) (address : Option Nat)
    (deviceClass deviceFunction : Nat) (info : ProductInformation) :
    ∃ address' s', ((s' = s ∧ ∀ a, address' = some a → a ≤ 253 ∧ s.devices.lookup a = none) ∨
        (s' = s.getNewAddress.2 ∧ ∀ a, address' = some a → a = s.getNewAddress.1 ∧ a ≠ 254)) ∧
      (s.addApplication address deviceClass deviceFunction info = (.raised .indexError, s') ∨
        ∃ a name, address' = some a ∧ applicationName s'.pool deviceClass deviceFunction = some name ∧
          s.addApplication address deviceClass deviceFunction info
            = (.returned, { s' with pool :=
                { s'.pool with applicationCount := s'.pool.applicationCount + 1 } }.addNamed a name
                  info)) := by
  have hnew : ∀ a, (if s.getNewAddress.1 = 254 then none else some s.getNewAddress.1) = some a →
      a = s.getNewAddress.1 ∧ a ≠ 254 := by
    intro a ha
    split at ha
    · cases ha
    · rename_i hne
      cases ha
      exact ⟨rfl, hne⟩
  unfold NMEA2KActiveController.addApplication
  cases address with
  | none =>
    refine ⟨_, _, .inr ⟨rfl, hnew⟩, ?_⟩
    dsimp only
    generalize (if s.getNewAddress.1 = 254 then none else some s.getNewAddress.1) = address'
    cases address' with
    | none => exact .inl rfl
    | some a =>
      cases hname : applicationName s.getNewAddress.2.pool deviceClass deviceFunction with
      | none => exact .inl rfl
      | some name => exact .inr ⟨a, name, rfl, rfl, rfl⟩
  | some given =>
    dsimp only
    by_cases hgiven : given ≤ 253
    · rw [if_pos hgiven]
      refine ⟨if (s.devices.lookup given).isSome then none else some given, s, .inl ⟨rfl, ?_⟩, ?_⟩
      · intro a ha
        split at ha
        · cases ha
        · rename_i hnone
          cases ha
          exact ⟨hgiven, by simpa using hnone⟩
      · dsimp only
        generalize (if (s.devices.lookup given).isSome then none else some given) = address'
        cases address' with
        | none => exact .inl rfl
        | some a =>
          cases hname : applicationName s.pool deviceClass deviceFunction with
          | none => exact .inl rfl
          | some name => exact .inr ⟨a, name, rfl, rfl, rfl⟩
    · rw [if_neg hgiven]
      refine ⟨_, _, .inr ⟨rfl, hnew⟩, ?_⟩
      dsimp only
      generalize (if s.getNewAddress.1 = 254 then none else some s.getNewAddress.1) = address'
      cases address' with
      | none => exact .inl rfl
      | some a =>
        cases hname : applicationName s.getNewAddress.2.pool deviceClass deviceFunction with
        | none => exact .inl rfl
        | some name => exact .inr ⟨a, name, rfl, rfl, rfl⟩

/-- **A new application** has an address that no device has. -/
theorem Good.addApplication (h : s.Good) (address : Option Nat) (deviceClass deviceFunction : Nat)
    (info : ProductInformation) :
    (s.addApplication address deviceClass deviceFunction info).2.Good := by
  obtain ⟨address', s', hfrom, hcase⟩ := s.addApplication_cases address deviceClass deviceFunction info
  have hgood : s'.Good ∧ ∀ a, address' = some a → a ≤ 253 ∧ s'.devices.lookup a = none := by
    rcases hfrom with ⟨rfl, hfree⟩ | ⟨rfl, hnew⟩
    · exact ⟨h, hfree⟩
    · refine ⟨h.getNewAddress, ?_⟩
      intro a ha
      obtain ⟨rfl, hne⟩ := hnew a ha
      exact ⟨(h.getNewAddress_le hne).1, (getNewAddress_fresh hne).2⟩
  rcases hcase with heq | ⟨a, name, ha, hname, heq⟩
  · rw [heq]
    exact hgood.1
  · rw [heq]
    obtain ⟨hle, hfree⟩ := hgood.2 a ha
    obtain ⟨hidentity, hcount⟩ := applicationName_identity hname
    exact hgood.1.addNamed info hle hfree hidentity hcount

/-- **What a step keeps.** -/
theorem Good.call (h : s.Good) (defs : PGNDefinitions) (c : EcuCall) (hkeeps : s.KeepsTables c) :
    (s.call defs c).2.Good := by
  cases c with
  | addApplication address deviceClass deviceFunction info =>
    exact h.addApplication address deviceClass deviceFunction info
  | started => exact h
  | busReady k => exact h.of_view (s.view_sendAddressClaim k)
  | message now msg =>
    rw [NMEA2KActiveController.call]
    split
    · exact h
    · exact h.processMsg defs now hkeeps
  | expire i => exact h.of_view (s.view_expire i)
  | pollDevices =>
    rw [NMEA2KActiveController.call]
    split
    · exact h
    · exact h.of_view (s.view_sendAddressClaim 0)
  | deviceGc now => exact h.of_view (s.view_deviceGc now)
  | addSubscriber pgn function => exact h
  | stop => exact h.of_view s.view_stop

end Steps

/-- A new controller has no applications, and the pool of the claim. -/
theorem Good.init (mfgCode macId : Nat) {maxApplication firstAddress : Nat}
    (hpool : firstAddress + 2 * maxApplication ≤ 254) (maxSilent : Time) :
    Good (.init (.init mfgCode maxApplication macId firstAddress) maxSilent) := by
  refine ⟨⟨List.nodup_nil, ?_, ?_, ?_, List.Perm.refl _, ?_, rfl, Nat.zero_le _, ?_, ?_, ?_⟩, rfl⟩
  · intro k a n hk
    cases hk
  · intro a k
    constructor
    · intro ha
      cases ha
    · rintro ⟨n, hn⟩
      cases hn
  · intro k a n hk
    cases hk
  · intro k a n hk
    cases hk
  · intro a ha
    have hmem : a ∈ List.range' firstAddress (2 * maxApplication + 1) := ha
    rw [List.mem_range'_1] at hmem
    omega
  · change maxApplication ≤ 127
    omega
  · change 2 ^ (maxApplication - 1).size ∣ macId <<< (maxApplication - 1).size
    rw [Nat.shiftLeft_eq]
    exact Nat.dvd_mul_left _ _

/-- **In every run whose steps keep to the condition, the tables are consistent
in every state reached.** -/
theorem tables_consistent (defs : PGNDefinitions) (mfgCode maxApplication macId firstAddress : Nat)
    (hpool : firstAddress + 2 * maxApplication ≤ 254) (maxSilent : Time) (calls : List EcuCall)
    (hkeeps : ∀ mv ∈ (ecuCalls defs).trace
        (.init (.init mfgCode maxApplication macId firstAddress) maxSilent) calls,
      mv.pre.KeepsTables mv.input) :
    ∀ mv ∈ (ecuCalls defs).trace
        (.init (.init mfgCode maxApplication macId firstAddress) maxSilent) calls,
      Consistent mv.pre ∧ Consistent mv.post := by
  intro mv hmv
  have hgood := Machine.trace_invariant (ecuCalls defs) Good KeepsTables
    (fun _ c hs hc => hs.call defs c hc) (Good.init mfgCode macId hpool maxSilent) calls hkeeps mv hmv
  exact ⟨hgood.1.consistent, hgood.2.consistent⟩

/-- A claim has a definition. -/
def claimDefs : PGNDefinitions :=
  .init [⟨60928, "ISO Address Claim", none, some 8, some (.ok ⟨60, .error .keyError⟩)⟩]

/-- One application at 128, and a claim of its address that another node
broadcasts. -/
def broadcastRun : List EcuCall :=
  [.addApplication none 25 130 ⟨2100, 1, [], [], [], [], 0, 1⟩, .busReady 0,
    .message 0 (.of 60928 6 128 255 [0, 0, 0, 0, 0, 0, 0, 0])]

/-- The application moves, with all its entries. -/
theorem tables_consistent_broadcast :
    (∀ mv ∈ (ecuCalls claimDefs).trace (.init (.init 999 2 1 128) 60) broadcastRun,
      mv.pre.KeepsTables mv.input) ∧
    ∀ mv ∈ (ecuCalls claimDefs).trace (.init (.init 999 2 1 128) 60) broadcastRun,
      Consistent mv.pre ∧ Consistent mv.post := by
  have hkeeps : ∀ mv ∈ (ecuCalls claimDefs).trace (.init (.init 999 2 1 128) 60) broadcastRun,
      mv.pre.KeepsTables mv.input := by
    intro mv hmv
    simp only [broadcastRun, Machine.trace_cons, Machine.trace_nil, List.mem_cons,
      List.not_mem_nil, or_false] at hmv
    rcases hmv with rfl | rfl | rfl
    · trivial
    · trivial
    · refine ⟨?_, ?_, ?_⟩
      · exact fun hda => absurd rfl hda
      · exact fun _ _ _ _ _ => rfl
      · exact fun _ hpgn => absurd hpgn (by decide)
  exact ⟨hkeeps, tables_consistent claimDefs 999 2 1 128 (by decide) 60 broadcastRun hkeeps⟩

/-- The claim is addressed to the application. -/
def addressedRun : List EcuCall :=
  [.addApplication none 25 130 ⟨2100, 1, [], [], [], [], 0, 1⟩, .busReady 0,
    .message 0 (.of 60928 6 128 128 [0, 0, 0, 0, 0, 0, 0, 0])]

/-- **The application goes to 129, and the tables do not know.** -/
theorem not_consistent_addressed :
    ¬ ∀ mv ∈ (ecuCalls claimDefs).trace (.init (.init 999 2 1 128) 60) addressedRun,
      Consistent mv.pre ∧ Consistent mv.post := by
  intro h
  have hlast := (h _ (List.mem_cons_of_mem _ (List.mem_cons_of_mem _ List.mem_cons_self))).2
  obtain ⟨app, hk, haddress⟩ : ∃ app : NMEA2000Application,
      ((ecuCalls claimDefs).final (.init (.init 999 2 1 128) 60) addressedRun).applications[0]?
        = some app ∧ app.address = 129 := ⟨_, rfl, rfl⟩
  have hindex := (hlast.indexed 0 app hk).1
  rw [haddress] at hindex
  have hnone : ((ecuCalls claimDefs).final (.init (.init 999 2 1 128) 60)
      addressedRun).appIndex.lookup 129 = none := rfl
  exact absurd (hnone.symm.trans hindex) (by decide)

end NMEA2KActiveController

end NavigationServer.CanInterface
