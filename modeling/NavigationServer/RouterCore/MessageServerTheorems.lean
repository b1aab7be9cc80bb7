/-
NavigationServer.RouterCore.MessageServerTheorems — the limit and the lock.

`limited_iff`: the server has `max_connections` connections at most, and its
lock is taken by a running heartbeat only, in exactly the runs in which a client
with a new address is registered below the limit, and a heartbeat closes clients
only that have their publisher. The test before `accept` lets one client too many
in, and a heartbeat that comes between the registration and the publisher can
leave with the lock (`lock_lost`).
-/
import NavigationServer.RouterCore.MessageServer

namespace NavigationServer.RouterCore

open NavigationServer.Lib

namespace MessageServer

/-! ## 1. The dictionary -/

theorem length_setConnection (connections : List (Nat × Nat)) (address client : Nat) :
    (setConnection connections address client).length
      = if address ∈ connections.map Prod.fst then connections.length
        else connections.length + 1 := by
  rw [setConnection]
  split <;> simp

theorem length_delConnection_le (connections : List (Nat × Nat)) (address : Nat) :
    (delConnection connections address).length ≤ connections.length :=
  List.length_filter_le ..

namespace NMEAServer

/-! ## 2. The limit and the lock -/

/-- The limit is kept, and the lock is taken by a running heartbeat only. -/
structure Limited (o : ServerOptions) (s : NMEAServer) : Prop where
  connections : s.connections.length ≤ o.maxConnections
  lock : s.clientLock = true → s.closing.isSome = true

/-- No step behind this one has more to do with the limit and the lock. -/
structure Within (s t : NMEAServer) : Prop where
  connections : t.connections.length ≤ s.connections.length
  clientLock : t.clientLock = s.clientLock
  closing : t.closing = s.closing

theorem Within.rfl {s : NMEAServer} : Within s s := ⟨Nat.le_refl _, Eq.refl _, Eq.refl _⟩

theorem Within.trans {s t u : NMEAServer} (h : Within s t) (h' : Within t u) : Within s u :=
  ⟨Nat.le_trans h'.connections h.connections, h'.clientLock.trans h.clientLock,
    h'.closing.trans h.closing⟩

theorem Limited.within {o : ServerOptions} {s t : NMEAServer} (h : s.Limited o)
    (ht : Within s t) : t.Limited o := by
  refine ⟨Nat.le_trans ht.connections h.connections, fun hlock => ?_⟩
  rw [ht.closing]
  exact h.lock (ht.clientLock ▸ hlock)

theorem within_removeClient (s : NMEAServer) (address : Nat) (timedOut : Bool) :
    Within s (s.removeClient address timedOut) := by
  rw [removeClient]
  split
  · exact ⟨length_delConnection_le .., Eq.refl _, Eq.refl _⟩
  · exact .rfl

/-- The client has its publisher. -/
def HasPublisher (s : NMEAServer) (k : Nat) : Prop :=
  ∃ client, s.clients[k]? = some client ∧ client.publisher.isSome = true

/-- `_close` of a client that has its publisher changes that client only. -/
theorem closeClient_ok {s : NMEAServer} {k : Nat} (h : s.HasPublisher k) :
    ∃ client, s.closeClient k = .ok { s with clients := s.clients.set k client } := by
  obtain ⟨client, hclient, hpublisher⟩ := h
  obtain ⟨p, hp⟩ := Option.isSome_iff_exists.mp hpublisher
  refine ⟨{ client with publisher := some { p with stopFlag := true } }, ?_⟩
  rw [closeClient, hclient]
  simp only [ClientConnection.close, hp]
  rfl

theorem closeClient_error {s : NMEAServer} {k : Nat} (h : ¬ s.HasPublisher k) :
    s.closeClient k = .error .attributeError := by
  rw [closeClient]
  split
  · rename_i client hclient
    cases hp : client.publisher with
    | some p => exact absurd ⟨client, hclient, by simp [hp]⟩ h
    | none =>
      simp only [ClientConnection.close, hp]
      rfl
  · rfl

theorem within_closeClient {s t : NMEAServer} {k : Nat} (h : s.closeClient k = .ok t) :
    Within s t := by
  by_cases hk : s.HasPublisher k
  · obtain ⟨client, hclient⟩ := closeClient_ok hk
    rw [hclient] at h
    cases h
    exact ⟨Nat.le_refl _, Eq.refl _, Eq.refl _⟩
  · rw [closeClient_error hk] at h
    cases h

theorem within_close (s : NMEAServer) (k : Nat) (timedOut : Bool) :
    Within s (s.close k timedOut).2 := by
  rw [close]
  split
  · rename_i t ht
    have hwithin := within_closeClient ht
    split
    · exact hwithin.trans (within_removeClient ..)
    · exact hwithin
  · exact .rfl

theorem within_addToClients (name : String) (ks : List Nat) (s : NMEAServer) :
    Within s (addToClients name ks s).2 := by
  induction ks generalizing s with
  | nil => exact .rfl
  | cons k ks ih =>
    rw [addToClients]
    split
    · refine Within.trans ?_ (ih _)
      exact ⟨Nat.le_refl _, Eq.refl _, Eq.refl _⟩
    · exact .rfl

theorem within_closeAll (ks : List Nat) (s : NMEAServer) : Within s (closeAll ks s).2 := by
  induction ks generalizing s with
  | nil => exact ⟨Nat.zero_le _, Eq.refl _, Eq.refl _⟩
  | cons k ks ih =>
    rw [closeAll]
    split
    · rename_i t ht
      exact (within_closeClient ht).trans (ih t)
    · exact .rfl

/-! ## 3. One step -/

/-- A new client is registered below the limit, or under an address that is
registered; a client that the heartbeat closes has its publisher. -/
def TakesPart (o : ServerOptions) (s : NMEAServer) : ServerInput → Prop
  | .register timedOut => ∀ k client, s.loop = .accepted k → s.clients[k]? = some client →
      s.acquire timedOut = true →
        client.address ∈ s.connections.map Prod.fst ∨ s.connections.length < o.maxConnections
  | .heartbeatClose => ∀ k ks, s.closing = some (k :: ks) → s.HasPublisher k
  | _ => True

theorem limited_register_iff {o : ServerOptions} {s : NMEAServer} (h : s.Limited o)
    (timedOut : Bool) :
    (s.register timedOut).Limited o ↔ s.TakesPart o (.register timedOut) := by
  have hout : (∀ k client, s.loop = .accepted k → s.clients[k]? = some client →
      s.acquire timedOut = true → False) → s.TakesPart o (.register timedOut) := by
    intro hno k client hloop hclient hacquire
    exact (hno k client hloop hclient hacquire).elim
  rw [register]
  split
  · rename_i k hloop
    split
    · rename_i hacquire
      split
      · rename_i client hclient
        have hlength : o.maxConnections ≥ (setConnection s.connections client.address k).length ↔
            client.address ∈ s.connections.map Prod.fst ∨
              s.connections.length < o.maxConnections := by
          rw [length_setConnection]
          have hlimit := h.connections
          split
          · rename_i hknown
            exact iff_of_true hlimit (.inl hknown)
          · rename_i hnew
            simp only [hnew, false_or]
            omega
        constructor
        · intro hlimited k' client' hloop' hclient' _
          rw [hloop] at hloop'
          cases hloop'
          rw [hclient] at hclient'
          cases hclient'
          exact hlength.mp hlimited.connections
        · intro htakes
          exact ⟨hlength.mpr (htakes k client hloop hclient hacquire), h.lock⟩
      · rename_i hclient
        refine iff_of_true h (hout fun k' client' hloop' hclient' _ => ?_)
        rw [hloop] at hloop'
        cases hloop'
        rw [hclient] at hclient'
        cases hclient'
    · rename_i hacquire
      exact iff_of_true (h.within ⟨Nat.le_refl _, rfl, rfl⟩)
        (hout fun _ _ _ _ hacquire' => hacquire hacquire')
  · rename_i hloop
    exact iff_of_true h (hout fun k _ hloop' _ _ => hloop k hloop')

/-- The lock is taken while a heartbeat runs. -/
def Held (s : NMEAServer) : Prop := s.closing.isSome = true → s.clientLock = true

theorem Held.within {s t : NMEAServer} (h : s.Held) (ht : Within s t) : t.Held := by
  rw [Held, ht.closing, ht.clientLock]
  exact h

theorem limited_heartbeatClose_iff {o : ServerOptions} {s : NMEAServer} (h : s.Limited o)
    (hheld : s.Held) : s.heartbeatClose.2.Limited o ↔ s.TakesPart o .heartbeatClose := by
  rw [heartbeatClose]
  split
  · rename_i hclosing
    exact iff_of_true h fun k ks hks => by simp [hclosing] at hks
  · rename_i hclosing
    exact iff_of_true ⟨h.connections, by simp⟩ fun k ks hks => by simp [hclosing] at hks
  · rename_i k ks hclosing
    by_cases hk : s.HasPublisher k
    · obtain ⟨client, hclient⟩ := closeClient_ok hk
      rw [hclient]
      refine iff_of_true ?_ fun k' ks' hks => ?_
      · simp only
        split
        · exact ⟨Nat.le_trans (length_delConnection_le ..) h.connections, by simp⟩
        · exact ⟨h.connections, by simp⟩
      · rw [hclosing] at hks
        cases hks
        exact hk
    · rw [closeClient_error hk]
      refine iff_of_false (fun hlimited => ?_) fun htakes => hk (htakes k ks hclosing)
      exact absurd (hlimited.lock (hheld (by simp [hclosing]))) (by simp)

/-- The steps that register a client or belong to a heartbeat. -/
def critical : ServerInput → Bool
  | .register _ | .heartbeat _ _ | .heartbeatClose => true
  | _ => false

theorem within_step (o : ServerOptions) (s : NMEAServer) {i : ServerInput}
    (hi : critical i = false) : Within s (s.step o i).2 := by
  cases i with
  | register | heartbeat | heartbeatClose => cases hi
  | loopTest =>
    simp only [step, loopTest]
    split
    · split
      · exact ⟨Nat.le_refl _, rfl, rfl⟩
      · split <;> exact ⟨Nat.le_refl _, rfl, rfl⟩
    · exact .rfl
  | accept address =>
    simp only [step, accept]
    split
    · split
      · exact ⟨Nat.le_refl _, rfl, rfl⟩
      · split
        · exact ⟨Nat.le_refl _, rfl, rfl⟩
        · split <;> exact ⟨Nat.le_refl _, rfl, rfl⟩
    · exact .rfl
  | createPublisher =>
    simp only [step, createPublisher]
    split
    · exact ⟨Nat.le_refl _, rfl, rfl⟩
    · exact .rfl
  | sent k => exact ⟨Nat.le_refl _, rfl, rfl⟩
  | close k timedOut => exact within_close s k timedOut
  | removeClient address timedOut => exact within_removeClient s address timedOut
  | addCoupler name =>
    refine Within.trans ?_ (within_addToClients name _ _)
    exact ⟨Nat.le_refl _, rfl, rfl⟩
  | stop =>
    refine Within.trans ?_ (within_closeAll _ _)
    exact ⟨Nat.le_refl _, rfl, rfl⟩

theorem heartbeat_eq (o : ServerOptions) (s : NMEAServer) (timedOut : Bool) (fails : Nat → Bool) :
    s.heartbeat o timedOut fails = s ∨
      s.acquire timedOut = true ∧ ∃ toBeClosed clients, s.heartbeat o timedOut fails =
        { s with clients := clients, clientLock := true, closing := some toBeClosed } := by
  rw [heartbeat]
  split
  · exact .inl rfl
  · split
    · rename_i hacquire
      exact .inr ⟨hacquire, _, _, rfl⟩
    · exact .inl rfl

theorem held_step {s : NMEAServer} (h : s.Held) (o : ServerOptions) (i : ServerInput) :
    (s.step o i).2.Held := by
  cases i with
  | register timedOut =>
    simp only [step, register]
    split
    · split
      · split <;> exact h
      · exact h
    · exact h
  | heartbeat timedOut fails =>
    rcases heartbeat_eq o s timedOut fails with heq | ⟨-, toBeClosed, clients, heq⟩
    · simp only [step, heq]
      exact h
    · simp [step, heq, Held]
  | heartbeatClose =>
    simp only [step, heartbeatClose]
    split
    · exact h
    · intro hsome
      cases hsome
    · rename_i k ks hclosing
      have hheld : s.clientLock = true := h (by simp [hclosing])
      split
      · rename_i t ht
        have hlock := (within_closeClient ht).clientLock.trans hheld
        split <;> exact fun _ => hlock
      · intro hsome
        cases hsome
  | _ => exact h.within (within_step o s rfl)

/-- **One step**: of a server that keeps its limit. -/
theorem limited_step_iff {o : ServerOptions} {s : NMEAServer} (h : s.Limited o) (hheld : s.Held)
    (i : ServerInput) : (s.step o i).2.Limited o ↔ s.TakesPart o i := by
  cases i with
  | register timedOut => exact limited_register_iff h timedOut
  | heartbeat timedOut fails =>
    refine iff_of_true ?_ trivial
    rcases heartbeat_eq o s timedOut fails with heq | ⟨-, toBeClosed, clients, heq⟩
    · simp only [step, heq]
      exact h
    · simp only [step, heq]
      exact ⟨h.connections, fun _ => rfl⟩
  | heartbeatClose => exact limited_heartbeatClose_iff h hheld
  | _ => exact iff_of_true (h.within (within_step o s rfl)) trivial

/-! ## 4. A lost lock -/

/-- The lock is taken, and no heartbeat runs. -/
def Lost (s : NMEAServer) : Prop := s.clientLock = true ∧ s.closing = none

theorem within_step_of_lost {s : NMEAServer} (h : s.Lost) (o : ServerOptions) (i : ServerInput) :
    Within s (s.step o i).2 := by
  have hacquire : ∀ timedOut, s.acquire timedOut = false := by
    intro timedOut
    simp [acquire, h.1]
  cases i with
  | register timedOut =>
    simp only [step, register, hacquire]
    split
    · exact ⟨Nat.le_refl _, rfl, rfl⟩
    · exact .rfl
  | heartbeat timedOut fails =>
    rcases heartbeat_eq o s timedOut fails with heq | ⟨hyes, -⟩
    · simp only [step, heq]
      exact .rfl
    · rw [hacquire] at hyes
      cases hyes
  | heartbeatClose =>
    simp only [step, heartbeatClose, h.2]
    exact .rfl
  | _ => exact within_step o s rfl

/-- **A lost lock stays lost**, and no client is registered any more. -/
theorem lock_lost {s : NMEAServer} (h : s.Lost) (o : ServerOptions) (is : List ServerInput) :
    ((machine o).final s is).Lost ∧
      ((machine o).final s is).connections.length ≤ s.connections.length := by
  induction is generalizing s with
  | nil => exact ⟨h, Nat.le_refl _⟩
  | cons i is ih =>
    have hstep := within_step_of_lost h o i
    have hlost : (s.step o i).2.Lost := ⟨hstep.clientLock.trans h.1, hstep.closing.trans h.2⟩
    exact ⟨(ih hlost).1, Nat.le_trans (ih hlost).2 hstep.connections⟩

/-! ## 5. Runs -/

theorem limited_new (o : ServerOptions) : new.Limited o ∧ new.Held :=
  ⟨⟨Nat.zero_le _, by simp [new]⟩, by simp [Held, new]⟩

/-- **The limit is kept and the lock is given back in exactly the runs whose
registrations are below the limit and whose heartbeats find the publishers.** -/
theorem limited_iff (o : ServerOptions) (is : List ServerInput) :
    (∀ mv ∈ (machine o).trace new is, mv.post.Limited o) ↔
      ∀ mv ∈ (machine o).trace new is, mv.pre.TakesPart o mv.input := by
  refine (machine o).trace_forall_iff_of_invariant (fun s => s.Limited o ∧ s.Held)
    (fun mv => mv.post.Limited o) (TakesPart o) ?_ ?_ (limited_new o) is
  · intro s i h
    exact limited_step_iff h.1 h.2 i
  · intro s i h htakes
    exact ⟨(limited_step_iff h.1 h.2 i).mpr htakes, held_step h.2 o i⟩

/-- A limit of one. -/
def oneConnection : ServerOptions := ⟨1, 4⟩

/-- Two clients connect. -/
def twoClients : List ServerInput :=
  [.addCoupler "coupler", .loopTest, .accept (some 1), .register false, .createPublisher,
    .loopTest, .accept (some 2), .register false]

/-- A client is registered and leaves, and the heartbeat comes before its
publisher. -/
def earlyHeartbeat : List ServerInput :=
  [.addCoupler "coupler", .loopTest, .accept (some 1), .register false,
    .heartbeat false (fun _ => true), .heartbeatClose]

/-- There are two connections, or the lock is lost with an exception. -/
theorem not_limited_twoClients :
    (¬ ∀ mv ∈ (machine oneConnection).trace new twoClients, mv.post.Limited oneConnection) ∧
      ((machine oneConnection).final new twoClients).connections = [(1, 0), (2, 1)] ∧
      ((machine oneConnection).final new earlyHeartbeat).Lost ∧
      ((machine oneConnection).outs new earlyHeartbeat).getLast? = some (some .attributeError) := by
  refine ⟨fun h => ?_, by decide, ⟨by decide, by decide⟩, by decide⟩
  have hlast : ((machine oneConnection).final new twoClients).Limited oneConnection := by
    refine h ⟨(machine oneConnection).final new (twoClients.take 7), .register false, none,
      (machine oneConnection).final new twoClients⟩ ?_
    simp [twoClients, Machine.trace_cons, machine, step]
  exact absurd hlast.connections (by decide)

end NMEAServer

end MessageServer

end NavigationServer.RouterCore
