/-
NavigationServer.CanInterface.CommandedAddress — a commanded address reaches the
application with the NAME.

`commanded_iff`: behind a broadcast command (PGN 65240) `process_msg` has come to
its end, the application with the NAME has the address, in its own state and in
all tables, and has claimed it, and the others keep theirs, exactly when the
superclass lets the message pass, the NAME is of one application, this one is not
stopping, and the tables know its present address. The tables of a node can have
lost it: an application that is given an address while the change of another one
waits takes it for itself alone (`not_obeyed_lostAddress`).

The message goes through the superclass first, which keeps every application as it is
(`Frame`), then to the application with the NAME, and then through the tables; the sections
follow that way. Each lemma gives both outcomes of its call, so the equivalence is their
chain.
-/
import NavigationServer.CanInterface.AddressTheorems

namespace NavigationServer.CanInterface

open NavigationServer.Lib
open NavigationServer.Nmea2000
open NavigationServer.Nmea2000Datamodel
open NavigationServer.RouterCore

namespace NMEA2KActiveController

variable {s : NMEA2KActiveController} {k name a : Nat} {msg : NMEA2000Msg}

/-! ## 1. What is claimed -/

/-- The application has the NAME. -/
def HasName (s : NMEA2KActiveController) (name k : Nat) : Prop :=
  ∃ app, s.applications[k]? = some app ∧ app.name.intValue = name

/-- `process_msg` has come to its end, the application with the NAME has the
address in all places and has claimed it, its old address is gone, and the others
keep their address. -/
structure Obeyed (s : NMEA2KActiveController) (name a : Nat)
    (r : Outcome × NMEA2KActiveController) : Prop where
  returned : r.1 = .returned
  named : ∀ (k : Nat) (app : NMEA2000Application), s.applications[k]? = some app → app.name.intValue = name →
    (∃ app' : NMEA2000Application, r.2.applications[k]? = some app' ∧ app'.address = a) ∧
      r.2.devices.lookup a = some (.application k) ∧ r.2.appIndex.lookup a = some k ∧
      a ∈ r.2.addresses ∧ r.2.devices.lookup app.address = none ∧
      r.2.appIndex.lookup app.address = none ∧
      r.2.sent = s.sent ++ [.addressClaim a name 255]
  others : ∀ (k : Nat) (app : NMEA2000Application), s.applications[k]? = some app → app.name.intValue ≠ name →
    ∃ app' : NMEA2000Application, r.2.applications[k]? = some app' ∧ app'.address = app.address

/-- The superclass lets the message pass. -/
def Passes (s : NMEA2KActiveController) (msg : NMEA2000Msg) : Prop :=
  msg.sa ≥ 254 ∨ (s.gcLock = false ∧ s.callSubscribers msg = .returned)

/-- The tables know the address of an application. The sender of the message is
known when it comes to the applications. -/
def Knows (s : NMEA2KActiveController) (msg : NMEA2000Msg) (address : Nat) : Prop :=
  ((s.devices.lookup address).isSome = true ∨ (msg.sa = address ∧ msg.sa < 254)) ∧
    (s.appIndex.lookup address).isSome = true

/-- The message passes, the NAME is of one application at most, and this one is
not stopping and the tables know its address. -/
structure CanObey (s : NMEA2KActiveController) (name : Nat) (msg : NMEA2000Msg) : Prop where
  passes : s.Passes msg
  unique : ∀ k k', s.HasName name k → s.HasName name k' → k = k'
  known : ∀ (k : Nat) (app : NMEA2000Application), s.applications[k]? = some app → app.name.intValue = name →
    app.state ≠ .stopInProgress ∧ s.Knows msg app.address

/-! ## 2. The superclass -/

/-- What the rest of `process_msg` reads of an application. -/
def core (app : NMEA2000Application) : Nat × NMEA2000MutableName × AppState :=
  (app.address, app.name, app.state)

/-- Nothing has changed but the devices, and fields of the applications that do
not matter here. -/
structure Frame (s t : NMEA2KActiveController) : Prop where
  apps : t.applications.map core = s.applications.map core
  request : t.addressChangeRequest = s.addressChangeRequest
  appIndex : t.appIndex = s.appIndex
  addresses : t.addresses = s.addresses
  sent : t.sent = s.sent
  subscriber : t.subscriber = s.subscriber

theorem Frame.rfl : Frame s s := ⟨Eq.refl _, Eq.refl _, Eq.refl _, Eq.refl _, Eq.refl _, Eq.refl _⟩

/-- Two calls leave alone what both do. -/
theorem Frame.trans {t u : NMEA2KActiveController} (h : Frame s t) (h' : Frame t u) : Frame s u :=
  ⟨h'.apps.trans h.apps, h'.request.trans h.request, h'.appIndex.trans h.appIndex,
    h'.addresses.trans h.addresses, h'.sent.trans h.sent, h'.subscriber.trans h.subscriber⟩

/-- A change of an application that leaves its core is such a call. -/
theorem frame_modifyApp {f : NMEA2000Application → NMEA2000Application}
    (h : ∀ app, core (f app) = core app) : Frame s (s.modifyApp k f) :=
  ⟨map_modify _ _ _ _ h, Eq.refl _, Eq.refl _, Eq.refl _, Eq.refl _, Eq.refl _⟩

/-- An application is the same one behind a frame. -/
theorem Frame.getElem? {t : NMEA2KActiveController} (h : Frame s t) {app : NMEA2000Application}
    (hk : s.applications[k]? = some app) :
    ∃ app', t.applications[k]? = some app' ∧ core app' = core app := by
  have hcore : (t.applications.map core)[k]? = some (core app) := by
    rw [h.apps, List.getElem?_map, hk]
    rfl
  rw [List.getElem?_map] at hcore
  exact Option.map_eq_some_iff.mp hcore

/-- The applications behind the call are those before it. -/
theorem Frame.getElem?_back {t : NMEA2KActiveController} (h : Frame s t)
    {app : NMEA2000Application} (hk : t.applications[k]? = some app) :
    ∃ app', s.applications[k]? = some app' ∧ core app' = core app :=
  Frame.getElem? ⟨h.apps.symm, h.request.symm, h.appIndex.symm, h.addresses.symm, h.sent.symm,
    h.subscriber.symm⟩ hk

/-- And they have the same NAMEs. -/
theorem Frame.hasName_iff {t : NMEA2KActiveController} (h : Frame s t) :
    t.HasName name k ↔ s.HasName name k := by
  constructor
  · rintro ⟨app, hk, hname⟩
    obtain ⟨app', hk', hcore⟩ := h.getElem?_back hk
    exact ⟨app', hk', by rw [show app'.name = app.name from congrArg (fun c => c.2.1) hcore, hname]⟩
  · rintro ⟨app, hk, hname⟩
    obtain ⟨app', hk', hcore⟩ := h.getElem? hk
    exact ⟨app', hk', by rw [show app'.name = app.name from congrArg (fun c => c.2.1) hcore, hname]⟩

/-- A device has no handler for a command. -/
theorem processVector_commanded (dev : NMEA2000Device) (hpgn : msg.pgn = 65240) :
    dev.processVector msg = (.error .keyError, dev) := by
  simp [NMEA2000Device.processVector, hpgn]

/-- The handlers of an application have nothing for the command. -/
theorem appProcessVector_commanded (s : NMEA2KActiveController) (k : Nat) (hpgn : msg.pgn = 65240) :
    (exceptKeyError (s.processVector k msg)).1 = .returned ∧
      Frame s (exceptKeyError (s.processVector k msg)).2 ∧
      (exceptKeyError (s.processVector k msg)).2.devices = s.devices := by
  unfold processVector
  rw [if_neg (by omega), if_neg (by omega), if_neg (by omega)]
  split
  · exact ⟨rfl, .rfl, rfl⟩
  · rename_i app hk
    simp only [processVector_commanded _ hpgn, deviceOutcome, exceptKeyError]
    refine ⟨trivial, ⟨?_, rfl, rfl, rfl, rfl, rfl⟩, rfl⟩
    apply List.ext_getElem?
    intro j
    rw [modifyApp, List.getElem?_map, List.getElem?_modify, List.getElem?_map]
    by_cases hj : k = j
    · subst hj
      simp [hk]
    · simp [hj]

/-- An application that receives the message as a device does nothing with it. -/
theorem receiveMsg_commanded (defs : PGNDefinitions) (now : Time) (s : NMEA2KActiveController)
    (k : Nat) (hpgn : msg.pgn = 65240) :
    (receiveMsg defs now s k msg).1 = .returned ∧ Frame s (receiveMsg defs now s k msg).2 ∧
      (receiveMsg defs now s k msg).2.devices = s.devices := by
  unfold receiveMsg
  split
  · exact ⟨rfl, .rfl, rfl⟩
  · rename_i app hk
    dsimp only
    have hts : Frame s (s.modifyApp k fun app => { app with lastmsgTs := now }) :=
      frame_modifyApp fun _ => rfl
    split
    · exact ⟨rfl, hts, rfl⟩
    · rename_i dev hdev
      have hcount := hts.trans (frame_modifyApp (k := k)
        (f := fun app => { app with pgnReceived := dev.pgnReceived }) fun _ => rfl)
      obtain ⟨hreturned, hframe, hdevices⟩ := appProcessVector_commanded
        ((s.modifyApp k fun app => { app with lastmsgTs := now }).modifyApp k
          fun app => { app with pgnReceived := dev.pgnReceived }) k hpgn
      exact ⟨hreturned, hcount.trans hframe, hdevices⟩

/-- The device of the sender is there behind the superclass, and no other one is
new. -/
theorem deviceReceive_commanded (defs : PGNDefinitions) (now : Time) (s : NMEA2KActiveController)
    (hpgn : msg.pgn = 65240) :
    (deviceReceive defs now s msg).1 = .returned ∧ Frame s (deviceReceive defs now s msg).2 ∧
      ∀ b, ((deviceReceive defs now s msg).2.devices.lookup b).isSome = true ↔
        (s.devices.lookup b).isSome = true ∨ msg.sa = b := by
  have hproxy : ∀ dev : NMEA2000Device,
      deviceOutcome (dev.receiveMsg defs now msg).1 = .returned ∧
      ∀ b, ((s.devices.insert msg.sa (.proxy (dev.receiveMsg defs now msg).2)).lookup b).isSome
          = true ↔ (s.devices.lookup b).isSome = true ∨ msg.sa = b := by
    intro dev
    refine ⟨?_, fun b => ?_⟩
    · unfold NMEA2000Device.receiveMsg
      dsimp only
      split
      · rfl
      · rw [processVector_commanded _ hpgn]
        rfl
    · by_cases hb : b = msg.sa
      · subst hb
        simp
      · simp [AList.lookup_insert_ne hb, Ne.symm hb]
  unfold deviceReceive
  dsimp only
  split
  · rename_i k hk
    obtain ⟨hreturned, hframe, hdevices⟩ := receiveMsg_commanded defs now s k hpgn
    refine ⟨hreturned, hframe, fun b => ?_⟩
    rw [hdevices]
    refine ⟨.inl, fun h => h.elim id ?_⟩
    rintro rfl
    simp [hk]
  · rename_i dev hdev
    exact ⟨(hproxy dev).1, ⟨rfl, rfl, rfl, rfl, rfl, rfl⟩, (hproxy dev).2⟩
  · exact ⟨(hproxy _).1, ⟨rfl, rfl, rfl, rfl, rfl, rfl⟩, (hproxy _).2⟩

/-- The subscribers do not depend on what is framed. -/
theorem Frame.callSubscribers {t : NMEA2KActiveController} (h : Frame s t) (msg : NMEA2000Msg) :
    t.callSubscribers msg = s.callSubscribers msg := by
  rw [NMEA2KActiveController.callSubscribers, NMEA2KActiveController.callSubscribers, h.subscriber]

/-- **The superclass** returns when it lets the message pass, and then the device
of the sender is known. -/
theorem superProcessMsg_commanded (defs : PGNDefinitions) (now : Time) (s : NMEA2KActiveController)
    (hpgn : msg.pgn = 65240) :
    ((superProcessMsg defs now s msg).1 = .returned ↔ s.Passes msg) ∧
      (s.Passes msg → Frame s (superProcessMsg defs now s msg).2 ∧
        ∀ b, ((superProcessMsg defs now s msg).2.devices.lookup b).isSome = true ↔
          (s.devices.lookup b).isSome = true ∨ (msg.sa = b ∧ msg.sa < 254)) := by
  by_cases hsa : msg.sa ≥ 254
  · have heq : superProcessMsg defs now s msg = (.returned, s) := by
      rw [superProcessMsg, if_pos hsa]
    rw [heq]
    refine ⟨iff_of_true rfl (.inl hsa), fun _ => ⟨.rfl, fun b => ⟨.inl, fun h => h.elim id ?_⟩⟩⟩
    exact fun h => absurd h.2 (by omega)
  · cases hlock : s.gcLock with
    | true =>
      have heq : superProcessMsg defs now s msg = (.blocked, s) := by
        rw [superProcessMsg, if_neg hsa, if_pos hlock]
      have hnot : ¬ s.Passes msg := fun h => by
        rcases h with h | h
        · exact hsa h
        · rw [hlock] at h
          cases h.1
      rw [heq]
      exact ⟨iff_of_false (by simp) hnot, fun h => absurd h hnot⟩
    | false =>
      obtain ⟨hreturned, hframe, hdevices⟩ :=
        deviceReceive_commanded defs now { s with gcLock := true } hpgn
      have hframe : Frame s (deviceReceive defs now { s with gcLock := true } msg).2 :=
        ⟨hframe.apps, hframe.request, hframe.appIndex, hframe.addresses, hframe.sent,
          hframe.subscriber⟩
      have hpasses : s.Passes msg ↔ s.callSubscribers msg = .returned := by
        simp [Passes, hlock, hsa]
      have hsuper : superProcessMsg defs now s msg =
          andThen (deviceReceive defs now { s with gcLock := true } msg) fun s =>
            andThen (s.callSubscribers msg, s) fun s => (.returned, { s with gcLock := false }) := by
        rw [superProcessMsg, if_neg hsa, if_neg (by simp [hlock])]
      rw [hsuper, andThen_returned hreturned, hpasses, hframe.callSubscribers]
      by_cases hsub : s.callSubscribers msg = .returned
      · rw [hsub]
        refine ⟨iff_of_true rfl rfl, fun _ => ⟨⟨hframe.apps, hframe.request, hframe.appIndex,
          hframe.addresses, hframe.sent, hframe.subscriber⟩, fun b => ?_⟩⟩
        refine (hdevices b).trans (or_congr Iff.rfl ?_)
        simp only [iff_self_and]
        omega
      · have hnot : (andThen (s.callSubscribers msg,
            (deviceReceive defs now { s with gcLock := true } msg).2) fun s =>
              (.returned, { s with gcLock := false })).1 ≠ .returned := by
          rw [andThen_not_returned hsub]
          exact hsub
        exact ⟨iff_of_false hnot hsub, fun h => absurd h hsub⟩

/-! ## 3. The applications -/

/-- A change of address is asked for, and claimed by an application that is not
stopping. -/
theorem changeAddress_eq {app : NMEA2000Application} (hk : s.applications[k]? = some app)
    (hreq : s.addressChangeRequest = none) (a : Nat) :
    s.changeAddress k a = (.returned,
      sendAddressClaim { s.modifyApp k (fun app => { app with address := a }) with
        addressChangeRequest := some (k, app.address) } k) := by
  unfold changeAddress
  rw [hk]
  dsimp only
  unfold changeApplicationAddress
  rw [show (s.modifyApp k fun app => { app with address := a }).addressChangeRequest = none from hreq]
  rfl

/-- A claim is sent, and the tables stay. -/
theorem sendAddressClaim_frame (s : NMEA2KActiveController) (k : Nat) :
    (s.sendAddressClaim k).devices = s.devices ∧ (s.sendAddressClaim k).appIndex = s.appIndex ∧
      (s.sendAddressClaim k).addresses = s.addresses ∧
      (s.sendAddressClaim k).addressChangeRequest = s.addressChangeRequest ∧
      (s.sendAddressClaim k).applications.map (fun app => (app.address, app.name))
        = s.applications.map fun app => (app.address, app.name) := by
  unfold sendAddressClaim
  split
  · exact ⟨rfl, rfl, rfl, rfl, rfl⟩
  · rename_i app hk
    split
    · exact ⟨rfl, rfl, rfl, rfl, rfl⟩
    · have hrespond : s.respondAddressClaim k
          = s.send (.addressClaim app.address app.name.intValue 255) := by
        rw [respondAddressClaim, hk]
      rw [hrespond]
      exact ⟨rfl, rfl, rfl, rfl, map_modify _ _ _ _ fun _ => rfl⟩

/-- An application that is stopping sends none. -/
theorem sendAddressClaim_sent {app : NMEA2000Application} (hk : s.applications[k]? = some app) :
    (s.sendAddressClaim k).sent =
      if app.state = .stopInProgress then s.sent
      else s.sent ++ [.addressClaim app.address app.name.intValue 255] := by
  rw [sendAddressClaim, hk]
  dsimp only
  split
  · rfl
  · rw [respondAddressClaim, hk]
    rfl

/-- What a change of address leaves, before it is applied. -/
structure Changed (s : NMEA2KActiveController) (k a : Nat) (app : NMEA2000Application)
    (t : NMEA2KActiveController) : Prop where
  devices : t.devices = s.devices
  appIndex : t.appIndex = s.appIndex
  addresses : t.addresses = s.addresses
  request : t.addressChangeRequest = some (k, app.address)
  self : ∃ app' : NMEA2000Application, t.applications[k]? = some app' ∧ app'.address = a ∧
    app'.name = app.name
  others : ∀ j, j ≠ k → (t.applications[j]?).map (fun app : NMEA2000Application =>
      (app.address, app.name))
    = (s.applications[j]?).map fun app : NMEA2000Application => (app.address, app.name)
  sent : t.sent = if app.state = .stopInProgress then s.sent
    else s.sent ++ [.addressClaim a app.name.intValue 255]

/-- A change of address that nothing else waits for is made at once. -/
theorem changed_changeAddress {app : NMEA2000Application} (hk : s.applications[k]? = some app)
    (hreq : s.addressChangeRequest = none) (a : Nat) :
    (s.changeAddress k a).1 = .returned ∧ Changed s k a app (s.changeAddress k a).2 := by
  rw [changeAddress_eq hk hreq a]
  refine ⟨rfl, ?_⟩
  generalize ht : ({ s.modifyApp k (fun app => { app with address := a }) with
    addressChangeRequest := some (k, app.address) } : NMEA2KActiveController) = t
  have hself : t.applications[k]? = some { app with address := a } := by
    rw [← ht]
    simp [modifyApp, hk]
  have happs : t.applications = s.applications.modify k fun app => { app with address := a } := by
    rw [← ht]
    rfl
  obtain ⟨hdevices, hindex, haddresses, hrequest, hmap⟩ := sendAddressClaim_frame t k
  have hat : ∀ j : Nat, ((t.sendAddressClaim k).applications[j]?).map
      (fun app : NMEA2000Application => (app.address, app.name))
        = (t.applications[j]?).map fun app : NMEA2000Application => (app.address, app.name) := by
    intro j
    rw [← List.getElem?_map, hmap, List.getElem?_map]
  refine ⟨?_, ?_, ?_, ?_, ?_, ?_, ?_⟩
  · rw [hdevices, ← ht]
    rfl
  · rw [hindex, ← ht]
    rfl
  · rw [haddresses, ← ht]
    rfl
  · rw [hrequest, ← ht]
  · have hat := hat k
    rw [hself] at hat
    obtain ⟨app', hk', heq⟩ := Option.map_eq_some_iff.mp hat
    exact ⟨app', hk', congrArg Prod.fst heq, congrArg Prod.snd heq⟩
  · intro j hj
    rw [hat j, happs, List.getElem?_modify]
    simp [Ne.symm hj]
  · rw [sendAddressClaim_sent hself]
    have hsent : t.sent = s.sent := by
      rw [← ht]
      rfl
    rw [hsent]

/-- An application with the NAME, while a change waits, fails an assertion. -/
theorem broadcast_waiting (hpgn : msg.pgn = 65240)
    (hdec : CommandedAddress.decode msg.payload = .ok (name, a)) (ks : List Nat)
    (hreq : s.addressChangeRequest ≠ none) (hmem : k ∈ ks) (hname : s.HasName name k) :
    (broadcast msg s ks).1 ≠ .returned := by
  induction ks with
  | nil => cases hmem
  | cons j ks ih =>
    rw [broadcast]
    by_cases hj : s.HasName name j
    · obtain ⟨app, hjapp, hjname⟩ := hj
      obtain ⟨request, hrequest⟩ := Option.ne_none_iff_exists'.mp hreq
      have hraised : (s.receiveIsoMsg j msg).1 = .raised .assertionError := by
        rw [receiveIsoMsg_self hpgn hdec hjapp hjname]
        unfold changeAddress changeApplicationAddress
        rw [hjapp]
        dsimp only [modifyApp]
        rw [hrequest]
        rfl
      rw [andThen_not_returned (by simp [hraised]), hraised]
      simp
    · have hother : s.receiveIsoMsg j msg = (.returned, s) :=
        receiveIsoMsg_other hpgn hdec fun app hjapp hjname => hj ⟨app, hjapp, hjname⟩
      rw [hother]
      refine ih ?_
      rcases List.mem_cons.mp hmem with rfl | hmem
      · exact absurd hname hj
      · exact hmem

/-- Two applications with the NAME fail it too. -/
theorem broadcast_twice (hpgn : msg.pgn = 65240)
    (hdec : CommandedAddress.decode msg.payload = .ok (name, a)) {k' : Nat} (ks : List Nat)
    (hreq : s.addressChangeRequest = none) (hmem : k ∈ ks) (hmem' : k' ∈ ks) (hne : k ≠ k')
    (hname : s.HasName name k) (hname' : s.HasName name k') :
    (broadcast msg s ks).1 ≠ .returned := by
  induction ks with
  | nil => cases hmem
  | cons j ks ih =>
    rw [broadcast]
    by_cases hj : s.HasName name j
    · obtain ⟨app, hjapp, hjname⟩ := hj
      obtain ⟨hreturned, hchanged⟩ := changed_changeAddress hjapp hreq a
      have hself : s.receiveIsoMsg j msg = s.changeAddress j a := by
        rw [receiveIsoMsg_self hpgn hdec hjapp hjname, exceptKeyError_of_returned hreturned]
      rw [hself, andThen_returned hreturned]
      -- one of the two is still to come
      have hleft : ∃ i ∈ ks, i ≠ j ∧ s.HasName name i := by
        by_cases hkj : k = j
        · refine ⟨k', ?_, fun h => hne (hkj.trans h.symm), hname'⟩
          exact (List.mem_cons.mp hmem').resolve_left fun h => hne (hkj.trans h.symm)
        · exact ⟨k, (List.mem_cons.mp hmem).resolve_left hkj, hkj, hname⟩
      obtain ⟨i, hi, hij, app', hiapp, hiname⟩ := hleft
      have hkept := hchanged.others i hij
      rw [hiapp] at hkept
      obtain ⟨app'', hiapp'', heq⟩ := Option.map_eq_some_iff.mp hkept
      refine broadcast_waiting hpgn hdec ks (by simp [hchanged.request]) hi ⟨app'', hiapp'', ?_⟩
      rw [show app''.name = app'.name from congrArg Prod.snd heq, hiname]
    · have hother : s.receiveIsoMsg j msg = (.returned, s) :=
        receiveIsoMsg_other hpgn hdec fun app hjapp hjname => hj ⟨app, hjapp, hjname⟩
      rw [hother]
      refine ih ?_ ?_
      · exact (List.mem_cons.mp hmem).resolve_left fun h => hj (h ▸ hname)
      · exact (List.mem_cons.mp hmem').resolve_left fun h => hj (h ▸ hname')

/-! ## 4. The tables -/

/-- An address that the tables know is taken out of both. -/
theorem removeApplicationIndex_known {old : Nat} (hdevice : (s.devices.lookup old).isSome = true)
    (hindex : (s.appIndex.lookup old).isSome = true) :
    s.removeApplicationIndex old = (.returned, { s with
      devices := s.devices.erase old
      addresses := s.addresses.erase old
      appIndex := s.appIndex.erase old }) := by
  have hdevice' : ¬ (s.devices.lookup old).isNone = true := by
    simpa [Option.isSome_iff_ne_none] using hdevice
  have hindex' : ¬ (s.appIndex.lookup old).isNone = true := by
    simpa [Option.isSome_iff_ne_none] using hindex
  rw [removeApplicationIndex, if_neg hdevice']
  exact if_neg hindex'

/-- One that they have lost raises a KeyError. -/
theorem removeApplicationIndex_unknown {old : Nat}
    (h : ¬ ((s.devices.lookup old).isSome = true ∧ (s.appIndex.lookup old).isSome = true)) :
    (s.removeApplicationIndex old).1 = .raised .keyError := by
  rw [removeApplicationIndex]
  split
  · rfl
  · rename_i hdevice
    have hindex : (s.appIndex.lookup old).isNone = true := by
      simp only [Option.isNone_iff_eq_none, Option.isSome_iff_ne_none] at h hdevice ⊢
      exact not_not.mp fun hindex => h ⟨hdevice, hindex⟩
    dsimp only
    rw [if_pos hindex]

/-- The tables follow when they know the old address. -/
theorem apply_changed {t : NMEA2KActiveController} {app : NMEA2000Application}
    (h : Changed s k a app t) :
    (t.applyChangeApplicationAddress.1 = .returned ↔
      (s.devices.lookup app.address).isSome = true ∧
        (s.appIndex.lookup app.address).isSome = true) ∧
    (t.applyChangeApplicationAddress.1 = .returned →
      t.applyChangeApplicationAddress.2.applications = t.applications ∧
      t.applyChangeApplicationAddress.2.devices
        = (s.devices.erase app.address).insert a (.application k) ∧
      t.applyChangeApplicationAddress.2.appIndex = (s.appIndex.erase app.address).insert a k ∧
      a &&& 0xFF ∈ t.applyChangeApplicationAddress.2.addresses ∧
      t.applyChangeApplicationAddress.2.sent = t.sent) := by
  obtain ⟨app', hk', haddress, -⟩ := h.self
  rw [applyChangeApplicationAddress, h.request, ← h.devices, ← h.appIndex]
  dsimp only
  by_cases hknown : (t.devices.lookup app.address).isSome = true ∧
      (t.appIndex.lookup app.address).isSome = true
  · rw [removeApplicationIndex_known hknown.1 hknown.2]
    simp only [andThen, hk', addApplicationIndex, haddress]
    exact ⟨iff_of_true trivial hknown, fun _ => ⟨trivial, trivial, trivial, by simp, trivial⟩⟩
  · have hraised := removeApplicationIndex_unknown hknown
    have hnot : (t.removeApplicationIndex app.address).1 ≠ .returned := by simp [hraised]
    rw [andThen_not_returned hnot]
    exact ⟨iff_of_false hnot hknown, fun hreturned => absurd hreturned hnot⟩

/-- The application that the message is for. -/
theorem obeyed_named_iff {t : NMEA2KActiveController} {app : NMEA2000Application}
    (hframe : Frame s t) (hk : s.applications[k]? = some app) (hname : app.name.intValue = name)
    (hunique : ∀ j, s.HasName name j → j = k) (hreq : s.addressChangeRequest = none)
    (ha : a ≤ 253) (hfree : app.address ≠ a) :
    s.Obeyed name a (andThen (t.changeAddress k a) fun s => s.applyChangeApplicationAddress) ↔
      app.state ≠ .stopInProgress ∧ (t.devices.lookup app.address).isSome = true ∧
        (s.appIndex.lookup app.address).isSome = true := by
  obtain ⟨app₁, hk₁, hcore⟩ := hframe.getElem? hk
  have haddress : app₁.address = app.address := congrArg Prod.fst hcore
  have hstate : app₁.state = app.state := congrArg (fun c => c.2.2) hcore
  have hname₁ : app₁.name = app.name := congrArg (fun c => c.2.1) hcore
  obtain ⟨hreturned, hchanged⟩ := changed_changeAddress hk₁ (hframe.request.trans hreq) a
  obtain ⟨happly, htables⟩ := apply_changed hchanged
  rw [andThen_returned hreturned]
  rw [haddress, hframe.appIndex] at happly
  rw [haddress, hframe.appIndex] at htables
  have hsent := hchanged.sent
  rw [hstate, hname₁, hname, hframe.sent] at hsent
  constructor
  · intro hobeyed
    refine ⟨fun hstop => ?_, happly.mp hobeyed.returned⟩
    -- a stopping application claims nothing
    obtain ⟨-, -, -, -, -, -, hclaimed⟩ := hobeyed.named k app hk hname
    rw [(htables hobeyed.returned).2.2.2.2, hsent, if_pos hstop] at hclaimed
    simp at hclaimed
  · rintro ⟨hstate, hknown⟩
    have hreturned' := happly.mpr hknown
    obtain ⟨happs, hdevices, hindex, haddresses, hsame⟩ := htables hreturned'
    refine ⟨hreturned', fun j app' hj hjname => ?_, fun j app' hj hjname => ?_⟩
    · obtain rfl := hunique j ⟨app', hj, hjname⟩
      rw [hk] at hj
      cases hj
      obtain ⟨app₂, hk₂, haddress₂, -⟩ := hchanged.self
      refine ⟨⟨app₂, happs ▸ hk₂, haddress₂⟩, ?_, ?_, ?_, ?_, ?_, ?_⟩
      · rw [hdevices, AList.lookup_insert]
      · rw [hindex, AList.lookup_insert]
      · rwa [Tables.WellFormed.and_low_byte ha] at haddresses
      · rw [hdevices, AList.lookup_insert_ne hfree, AList.lookup_erase]
      · rw [hindex, AList.lookup_insert_ne hfree, AList.lookup_erase]
      · rw [hsame, hsent, if_neg hstate]
    · have hjk : j ≠ k := by
        rintro rfl
        rw [hk] at hj
        cases hj
        exact hjname hname
      obtain ⟨app₁', hj₁, hcore'⟩ := hframe.getElem? hj
      have hkept := hchanged.others j hjk
      rw [hj₁] at hkept
      obtain ⟨app₂, hj₂, heq⟩ := Option.map_eq_some_iff.mp hkept
      refine ⟨app₂, happs ▸ hj₂, ?_⟩
      exact (congrArg Prod.fst heq).trans (congrArg Prod.fst hcore')

/-- **A commanded address reaches exactly the named application** when the message
passes, the NAME is of one application, this one is not stopping, and the tables
know its address. -/
theorem commanded_iff (defs : PGNDefinitions) (now : Time) {s : NMEA2KActiveController}
    {msg : NMEA2000Msg} {name a : Nat} (hpgn : msg.pgn = 65240) (hda : msg.da = 255)
    (hdec : CommandedAddress.decode msg.payload = .ok (name, a)) (ha : a ≤ 253)
    (hfree : ∀ app ∈ s.applications, app.address ≠ a) (hreq : s.addressChangeRequest = none) :
    s.Obeyed name a (processMsg defs now s msg) ↔ s.CanObey name msg := by
  have hiso : msg.isIso = true := by
    rw [msg.isIso_eq, hpgn]
    decide
  rw [processMsg, if_neg (by simp [hda]), if_pos hiso]
  obtain ⟨hsuper, hframed⟩ := superProcessMsg_commanded defs now s hpgn
  by_cases hpasses : s.Passes msg
  · obtain ⟨hframe, hdevices⟩ := hframed hpasses
    rw [andThen_returned (hsuper.mpr hpasses)]
    generalize (superProcessMsg defs now s msg).2 = t at hframe hdevices
    have hreq' : t.addressChangeRequest = none := hframe.request.trans hreq
    by_cases hsome : ∃ k, s.HasName name k
    · obtain ⟨k, hk⟩ := hsome
      by_cases hunique : ∀ j, s.HasName name j → j = k
      · obtain ⟨app, hk, hname⟩ := hk
        obtain ⟨app₁, hk₁, hcore⟩ := hframe.getElem? hk
        have hname₁ : app₁.name.intValue = name := by
          rw [show app₁.name = app.name from congrArg (fun c => c.2.1) hcore, hname]
        rw [broadcast_commanded hpgn hdec hk₁ hname₁ hreq' fun j app' hj hjname =>
          hunique j (hframe.hasName_iff.mp ⟨app', hj, hjname⟩)]
        refine (obeyed_named_iff hframe hk hname hunique hreq ha
          (hfree app (List.mem_of_getElem? hk))).trans ?_
        rw [hdevices]
        constructor
        · intro ⟨hstate, hknown⟩
          refine ⟨hpasses, fun j j' hj hj' => ?_, fun j app' hj hjname => ?_⟩
          · rw [hunique j hj, hunique j' hj']
          · obtain rfl := hunique j ⟨app', hj, hjname⟩
            rw [hk] at hj
            cases hj
            exact ⟨hstate, hknown⟩
        · exact fun h => h.known k app hk hname
      · obtain ⟨k', hk', hne⟩ : ∃ k', s.HasName name k' ∧ k' ≠ k := by
          simpa using hunique
        refine iff_of_false (fun hobeyed => ?_) fun h => hne (h.unique k' k hk' hk)
        have hplace : ∀ {j : Nat}, s.HasName name j → j ∈ List.range t.applications.length := by
          intro j hj
          obtain ⟨app, hjapp, -⟩ := hframe.hasName_iff.mpr hj
          exact List.mem_range.mpr (List.getElem?_eq_some_iff.mp hjapp).1
        have htwice := broadcast_twice hpgn hdec (List.range t.applications.length) hreq'
          (hplace hk') (hplace hk) hne (hframe.hasName_iff.mpr hk') (hframe.hasName_iff.mpr hk)
        have hreturned := hobeyed.returned
        rw [andThen_not_returned htwice] at hreturned
        exact htwice hreturned
    · have hnone : ∀ (j : Nat) (app : NMEA2000Application), s.applications[j]? = some app → app.name.intValue ≠ name :=
        fun j app hj hname => hsome ⟨j, app, hj, hname⟩
      rw [broadcast_other hpgn hdec _ fun j _ app hj hname =>
        hsome ⟨j, hframe.hasName_iff.mp ⟨app, hj, hname⟩⟩]
      have happly : t.applyChangeApplicationAddress = (.returned, t) := by
        rw [applyChangeApplicationAddress, hreq']
      refine iff_of_true ⟨?_, ?_, ?_⟩ ⟨hpasses, ?_, ?_⟩
      · simp only [andThen, happly]
      · exact fun j app hj hname => absurd hname (hnone j app hj)
      · intro j app hj _
        obtain ⟨app', hj', hcore⟩ := hframe.getElem? hj
        simp only [andThen, happly]
        exact ⟨app', hj', congrArg Prod.fst hcore⟩
      · exact fun j _ hj => absurd ⟨j, hj⟩ hsome
      · exact fun j app hj hname => absurd hname (hnone j app hj)
  · refine iff_of_false (fun hobeyed => ?_) fun h => hpasses h.passes
    have hnot : (superProcessMsg defs now s msg).1 ≠ .returned := fun h => hpasses (hsuper.mp h)
    have hreturned := hobeyed.returned
    rw [andThen_not_returned hnot] at hreturned
    exact hnot hreturned

/-! ## 5. Two nodes -/

/-- A node with an application at 128 and one at 129. -/
def twoApplications : List EcuCall :=
  [.addApplication none 25 130 ⟨2100, 1, [], [], [], [], 0, 1⟩,
    .addApplication none 25 131 ⟨2100, 1, [], [], [], [], 0, 1⟩]

/-- A node with two applications. -/
def twoNode : NMEA2KActiveController :=
  (ecuCalls claimDefs).final (.init (.init 999 4 1 128) 60) twoApplications

/-- The address 140 for the second one. -/
def command : NMEA2000Msg := .of 65240 6 50 255 [5, 0, 224, 124, 0, 131, 50, 192, 140]

/-- The NAME of its second application. -/
def commandedName : Nat := 13849275842235990021

/-- The second application takes the address of the command. -/
theorem commanded_twoNode :
    twoNode.Obeyed commandedName 140 (processMsg claimDefs 0 twoNode command) := by
  have hnames : twoNode.applications.map (fun app => (app.address, app.name.intValue, app.state))
      = [(128, 13849274742724362244, .waitForBus), (129, commandedName, .waitForBus)] := by
    decide +kernel
  have hplace : ∀ (k : Nat) (app : NMEA2000Application), twoNode.applications[k]? = some app →
      app.name.intValue = commandedName →
        k = 1 ∧ app.address = 129 ∧ app.state ≠ .stopInProgress := by
    intro k app hk hname
    have hmap := congrArg (fun l => l[k]?) hnames
    simp only [List.getElem?_map, hk, Option.map_some, hname] at hmap
    match k with
    | 0 =>
      rw [List.getElem?_cons_zero] at hmap
      simp [commandedName] at hmap
    | 1 =>
      simp only [List.getElem?_cons_succ, List.getElem?_cons_zero, Option.some.injEq,
        Prod.mk.injEq] at hmap
      exact ⟨rfl, hmap.1, by simp [hmap.2.2]⟩
    | k + 2 => simp at hmap
  refine (commanded_iff claimDefs 0 rfl rfl (by decide +kernel) (by decide) ?_ rfl).mpr ⟨?_, ?_, ?_⟩
  · intro app happ haddress
    have hmem := List.mem_map_of_mem (f := fun app => (app.address, app.name.intValue, app.state)) happ
    rw [hnames] at hmem
    simp [haddress] at hmem
  · exact .inr ⟨by decide +kernel, by decide +kernel⟩
  · rintro k k' ⟨app, hk, hname⟩ ⟨app', hk', hname'⟩
    rw [(hplace k app hk hname).1, (hplace k' app' hk' hname').1]
  · intro k app hk hname
    obtain ⟨-, haddress, hstate⟩ := hplace k app hk hname
    rw [haddress]
    exact ⟨hstate, .inl (by decide +kernel), by decide +kernel⟩

/-- Both applications lose their address to claims that are addressed, the second
one while the change of the first one waits, and a broadcast message comes. -/
def lostAddress : List EcuCall :=
  twoApplications ++
    [.message 0 (.of 60928 6 128 128 [0, 0, 0, 0, 0, 0, 0, 0]),
      .message 0 (.of 60928 6 129 129 [0, 0, 0, 0, 0, 0, 0, 0]),
      .message 0 (.of 59904 6 50 255 [0, 0, 0])]

/-- The node behind a change of address that its tables have missed. -/
def lostNode : NMEA2KActiveController :=
  (ecuCalls claimDefs).final (.init (.init 999 4 1 128) 60) lostAddress

/-- No change waits, but the second application is at 131 and its tables are at
129: the command raises, and its change waits for ever. -/
theorem not_obeyed_lostAddress :
    lostNode.addressChangeRequest = none ∧ lostNode.stopFlag = false ∧
      lostNode.applications.map (fun app => (app.address, app.name.intValue))
        = [(130, 13849274742724362244), (131, commandedName)] ∧
      CommandedAddress.decode command.payload = .ok (commandedName, 140) ∧
      (processMsg claimDefs 0 lostNode command).1 = .raised .keyError ∧
      ¬ lostNode.Obeyed commandedName 140 (processMsg claimDefs 0 lostNode command) := by
  have hraised : (processMsg claimDefs 0 lostNode command).1 = .raised .keyError := by
    decide +kernel
  refine ⟨by decide +kernel, by decide +kernel, by decide +kernel, by decide +kernel, hraised, ?_⟩
  intro hobeyed
  rw [hobeyed.returned] at hraised
  cases hraised

end NMEA2KActiveController

end NavigationServer.CanInterface
