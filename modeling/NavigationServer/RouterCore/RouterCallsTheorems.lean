/-
NavigationServer.RouterCore.RouterCallsTheorems — when a message reaches each
publisher at most once.

The lists of the couplers have no check: a publisher that is registered twice gets
every message twice, and so does one that is taken off a list and put on its end
while the coupler goes round with the message. `publish_once` : in every run in which
no call registers a publisher with a coupler that has it on its list, or that goes
round with a message which it has put on the queue of that publisher (`MayRegister`),
no list has a publisher twice, no message is put twice on one queue, and none is sent
twice to one client.

The invariant is `RouterInv`. What the methods do to the lists, the wiring and the
messages is in `PublishingTheorems`; here a coupler on its way is added
(`InProgress`): no publisher that it comes to has its message yet. A deregistration
moves the publishers behind it to the front, so that the loop may miss one, and never
shows it one again.
-/
import NavigationServer.RouterCore.PublishingTheorems
import NavigationServer.RouterCore.PublishLoopTheorems
import NavigationServer.RouterCore.RouterCalls

namespace NavigationServer.RouterCore

open NavigationServer.Lib

/-! ## 1. What is claimed of a state -/

/-- No publisher is twice on a list, no message has been put twice on a queue,
none has been sent twice to a client. -/
structure Once (s : Router) : Prop where
  registered : ∀ x ∈ s.couplers, x.publishers.Nodup
  queued : ∀ x ∈ s.publishers, (x.handled ++ x.queue).Nodup
  sent : ∀ cl ∈ s.clients, cl.sent.Nodup

/-- A call that registers no publisher with a coupler that lists it, or that has just
put the message it goes round with on its queue. -/
def RunningRouter.MayRegister (s : RunningRouter) : RouterCall → Prop
  | .register p c | .addCoupler p c => s.router.MayList s.given p c
  | .start p => s.router.MayStart s.given p
  | .startCreated sv => ∀ cs connections p,
      s.router.servers[sv]? = some (.nmea cs connections (.created p)) →
        s.router.MayStart s.given p
  | .udpStart sv => ∀ cs p, s.router.servers[sv]? = some (.udp cs p) →
      s.router.MayStart s.given p
  | .serverAddCoupler sv c => ∀ p ∈ s.router.publishersOfServer sv, s.router.MayList s.given p c
  | _ => True

namespace Router

/-! ## 2. The calls beside the loops -/

section Calls

variable {s : Router} {given : Nat → List Nat}

/-- The wiring is kept by every call. -/
theorem wired_call (h : Wired s.wiring) (call : RouterCall) : Wired (s.call call).wiring := by
  cases call with
  | newCoupler name => simpa [Router.call, wiring] using h.newName name
  | newPublisher cs active queueSize maxLost =>
    simpa [Router.call, wiring, Router.newPublisher] using
      h.newPublisher (fun n c hc => get?_couplerDict hc)
  | register p c => exact (wiring_of_unlisted (unlisted_register s p c)).symm ▸ h
  | deregister p c => exact (wiring_of_unlisted (unlisted_deregister s p c)).symm ▸ h
  | start p => exact (wiring_of_unlisted (unlisted_start s p)).symm ▸ h
  | stop p => exact (wiring_of_unlisted (unlisted_stop s p)).symm ▸ h
  | setCoupler p c => exact wired_setCoupler h p c
  | addCoupler p c => exact wired_addCoupler h p c
  | newServer =>
    exact h.newServer (x := .nmea [] ∅ .waiting) (fun _ _ _ heq => by cases heq; exact ⟨rfl, rfl⟩)
  | newUdpServer => exact wired_newUdpServer h
  | serverAppend sv c => exact wired_serverAppend h sv c
  | serverAddCoupler sv c => exact wired_serverAddCoupler h sv c
  | serverRemoveCoupler sv c => exact wired_serverRemoveCoupler h sv c
  | accept sv address => exact wired_accept h sv address
  | createPublisher sv => exact wired_createPublisher h sv
  | startCreated sv => exact wired_startCreated h sv
  | removeClient sv address => exact wired_removeClient h sv address
  | closeClient k => exact (wiring_of_unlisted (unlisted_closeClient s k)).symm ▸ h
  | udpStart sv =>
    change Wired (s.udpStart sv).wiring
    unfold udpStart
    split
    · exact (wiring_of_unlisted (unlisted_start s _)).symm ▸ h
    · exact h
  | udpStop sv =>
    change Wired (s.udpStop sv).wiring
    unfold udpStop
    split
    · exact (wiring_of_unlisted (unlisted_stop s _)).symm ▸ h
    · exact h
  | take p sends => exact (wiring_take s p sends).symm ▸ h
  | read c content => exact h
  | turn c filter => exact h

/-- A call that may register keeps the lists. -/
theorem keeps_call {given : Nat → List Nat} {calls : Nat → Option PublishCall} (h : Wired s.wiring)
    {call : RouterCall} (hmay : (⟨s, calls, given⟩ : RunningRouter).MayRegister call) :
    Keeps given s (s.call call) := by
  cases call with
  | newCoupler name => exact keeps_newCoupler s name
  | newPublisher cs active queueSize maxLost => exact keeps_of_eq fun _ => rfl
  | register p c => exact keeps_register hmay
  | deregister p c => exact keeps_deregister s p c
  | start p => exact keeps_start h hmay
  | stop p => exact keeps_stop s p
  | setCoupler p c => exact keeps_of_eq (publishersOf_setCoupler s p c)
  | addCoupler p c => exact keeps_addCoupler hmay
  | newServer => exact keeps_of_eq fun _ => rfl
  | newUdpServer => exact keeps_of_eq fun _ => rfl
  | serverAppend sv c => exact keeps_of_eq (publishersOf_serverAppend s sv c)
  | serverAddCoupler sv c => exact keeps_serverAddCoupler h hmay
  | serverRemoveCoupler sv c => exact keeps_serverRemoveCoupler s sv c
  | accept sv address => exact keeps_accept s sv address
  | createPublisher sv => exact keeps_createPublisher s sv
  | startCreated sv => exact keeps_startCreated h hmay
  | removeClient sv address => exact keeps_removeClient s sv address
  | closeClient k => exact keeps_closeClient s k
  | udpStart sv => exact keeps_udpStart h hmay
  | udpStop sv => exact keeps_udpStop s sv
  | take p sends => exact keeps_of_eq (publishersOf_take s p sends)
  | read c content => exact .refl given s
  | turn c filter => exact .refl given s

/-- Every call keeps the messages in order, and brings no publisher one. -/
theorem traffic_call (h : Traffic s.flow) (hw : Wired s.wiring) (call : RouterCall) :
    Traffic (s.call call).flow ∧ Quiet s.flow (s.call call).flow := by
  have hsame : ∀ {s' : Router}, s'.flow = s.flow → Traffic s'.flow ∧ Quiet s.flow s'.flow :=
    fun heq => traffic_of_flow h heq
  cases call with
  | newCoupler name =>
    have htotal := h.newTotal 0
    have hquiet := Quiet.newTotal s.flow 0
    exact ⟨by simpa [Router.call, flow] using htotal, by simpa [Router.call, flow] using hquiet⟩
  | newPublisher cs active queueSize maxLost =>
    have hquiet := Quiet.newPublisher s.flow
    exact ⟨by simpa [Router.call, flow, Router.newPublisher] using h.newPublisher,
      by simpa [Router.call, flow, Router.newPublisher] using hquiet⟩
  | register p c => exact hsame (flow_of_unlisted (unlisted_register s p c))
  | deregister p c => exact hsame (flow_of_unlisted (unlisted_deregister s p c))
  | start p => exact hsame (flow_of_unlisted (unlisted_start s p))
  | stop p => exact hsame (flow_of_unlisted (unlisted_stop s p))
  | setCoupler p c => exact hsame (flow_setCoupler s p c)
  | addCoupler p c => exact hsame (flow_addCoupler s p c)
  | newServer => exact hsame rfl
  | newUdpServer =>
    have hquiet := Quiet.newPublisher s.flow
    refine ⟨?_, hquiet.totals, fun p handled queue hp => hquiet.publishers p handled queue ?_⟩
    · simpa [Router.call, Router.newUdpServer, flow, Router.newPublisher] using
        h.newPublisher.newClient (some s.publishers.length)
    · simpa [Router.call, Router.newUdpServer, flow, Router.newPublisher] using hp
  | serverAppend sv c => exact hsame (flow_serverAppend s sv c)
  | serverAddCoupler sv c => exact hsame (flow_serverAddCoupler s sv c)
  | serverRemoveCoupler sv c =>
    refine hsame ?_
    change (s.serverRemoveCoupler sv c).flow = s.flow
    unfold serverRemoveCoupler
    split <;> rfl
  | accept sv address => exact ⟨traffic_accept h sv address, quiet_accept s sv address⟩
  | createPublisher sv => exact ⟨traffic_createPublisher h hw sv, quiet_createPublisher s sv⟩
  | startCreated sv =>
    refine hsame ?_
    change (s.startCreated sv).flow = s.flow
    unfold startCreated
    split
    · rename_i cs conns p hsv
      have hstart := unlisted_start (s.setServer sv (.nmea cs conns .waiting)) p
      exact (flow_of_unlisted hstart).trans rfl
    · rfl
  | removeClient sv address =>
    refine hsame ?_
    change (s.removeClient sv address).flow = s.flow
    unfold removeClient
    split <;> rfl
  | closeClient k => exact hsame (flow_of_unlisted (unlisted_closeClient s k))
  | udpStart sv =>
    refine hsame ?_
    change (s.udpStart sv).flow = s.flow
    unfold udpStart
    split
    · exact flow_of_unlisted (unlisted_start s _)
    · rfl
  | udpStop sv =>
    refine hsame ?_
    change (s.udpStop sv).flow = s.flow
    unfold udpStop
    split
    · exact flow_of_unlisted (unlisted_stop s _)
    · rfl
  | take p sends => exact ⟨traffic_take h hw p sends, quiet_take s p sends⟩
  | read c content => exact hsame rfl
  | turn c filter => exact hsame rfl

end Calls

/-! ## 3. A coupler on its way -/

/-- The message has the last number of the coupler, the publishers that are to come
have not been given it, and only those that have been given it have it. -/
structure InProgress (s : Router) (c : Nat) (call : PublishCall) (given : List Nat) : Prop where
  coupler : call.msg.coupler = c
  counted : s.flow.totals[c]? = some call.msg.number
  ahead : ∀ p ∈ (s.publishersOf c).drop call.index, p ∉ given
  given : ∀ (p : Nat) (handled queue : List RouterMsg),
    s.flow.publishers[p]? = some (handled, queue) → call.msg ∈ handled ++ queue → p ∈ given

/-- Calls that keep the lists and bring no messages. -/
theorem InProgress.kept {s s' : Router} {c : Nat} {call : PublishCall} {given : Nat → List Nat}
    (h : InProgress s c call (given c)) (hk : Keeps given s s') (hq : Quiet s.flow s'.flow) :
    InProgress s' c call (given c) where
  coupler := h.coupler
  counted := hq.totals c _ h.counted
  ahead := fun p hp => (hk.joins c call.index p hp).elim (h.ahead p) id
  given := fun p handled queue hp hmem => by
    obtain ⟨handled', queue', hold, hmem'⟩ := hq.publishers p handled queue hp _ hmem
    exact h.given p handled' queue' hold hmem'

/-- What `removeFaulty` removes it deregisters. -/
theorem keeps_removeFaulty (given : Nat → List Nat) (c : Nat) (faulty : List Nat) (s : Router) :
    Keeps given s (s.removeFaulty c faulty).2 ∧ (s.removeFaulty c faulty).2.unlisted = s.unlisted := by
  induction faulty generalizing s with
  | nil => exact ⟨.refl given s, rfl⟩
  | cons p ps ih =>
    rw [removeFaulty]
    split
    · obtain ⟨hkeeps, hunlisted⟩ := ih (s.deregister p c)
      exact ⟨(keeps_deregister s p c).trans hkeeps, hunlisted.trans (unlisted_deregister s p c)⟩
    · exact ⟨.refl given s, rfl⟩

end Router

/-! ## 4. The invariant -/

/-- Who belongs to whom, the lists, the messages, and the couplers on their way. -/
structure RouterInv (s : RunningRouter) : Prop where
  wired : Router.Wired s.router.wiring
  listed : s.router.Listed
  traffic : Router.Traffic s.router.flow
  loops : ∀ c call, s.calls c = some call → s.router.InProgress c call (s.given c)

namespace RouterInv

open Router

variable {s : RunningRouter}

theorem new : RouterInv .new where
  wired := Wired.new
  listed := fun _ => List.nodup_nil
  traffic := Traffic.new
  loops := nofun

/-- A call beside the loops. -/
theorem beside (h : RouterInv s) {call : RouterCall} (hmay : s.MayRegister call) :
    RouterInv { s with router := s.router.call call } := by
  have hkeeps := keeps_call h.wired hmay
  obtain ⟨htraffic, hquiet⟩ := traffic_call h.traffic h.wired call
  exact ⟨wired_call h.wired call, hkeeps.listed h.listed, htraffic,
    fun c loop hloop => (h.loops c loop hloop).kept hkeeps hquiet⟩

/-- A coupler reads a message, with a number that no message had. -/
theorem read (h : RouterInv s) (c : Nat) (content : Bytes) : RouterInv (s.read c content) := by
  unfold RunningRouter.read
  split
  · rename_i x hcall hx
    have htotal : s.router.flow.totals[c]? = some x.totalMsg := by
      rw [flow, List.getElem?_map, hx]
      rfl
    have hflow : (s.router.modifyCoupler c (fun x => { x with totalMsg := x.totalMsg + 1 })).flow
        = { s.router.flow with totals := s.router.flow.totals.modify c (· + 1) } :=
      congrArg (fun totals => (⟨totals, _, _⟩ : Flow))
        (map_modify_comm _ _ _ (· + 1) _ (fun _ => rfl))
    have hlists : ∀ c', (s.router.modifyCoupler c
        (fun x => { x with totalMsg := x.totalMsg + 1 })).publishersOf c'
        = s.router.publishersOf c' := by
      intro c'
      rw [publishersOf_modifyCoupler, publishersOf]
      cases s.router.couplers[c']? with
      | none => rfl
      | some y => exact ite_self _
    have hnew : ∀ (p : Nat) (handled queue : List RouterMsg),
        s.router.flow.publishers[p]? = some (handled, queue) →
          ⟨c, x.totalMsg + 1, content⟩ ∉ handled ++ queue := by
      intro p handled queue hp hmem
      obtain ⟨t, ht, hle⟩ := h.traffic.number_le p handled queue hp _ hmem
      rw [htotal] at ht
      cases ht
      exact absurd hle (Nat.not_succ_le_self _)
    refine ⟨?_, ?_, ?_, ?_⟩
    · have hwiring := s.router.wiring_modifyCoupler c
        (f := fun x => { x with totalMsg := x.totalMsg + 1 }) fun _ => rfl
      exact hwiring.symm ▸ h.wired
    · intro c'
      rw [hlists]
      exact h.listed c'
    · rw [hflow]
      exact h.traffic.count c
    · intro c' call hc'
      dsimp only at hc' ⊢
      rcases eq_or_ne c' c with rfl | hne
      · rw [Function.update_self] at hc' ⊢
        obtain rfl := Option.some.inj hc'
        refine ⟨rfl, ?_, fun _ _ => List.not_mem_nil, ?_⟩
        · rw [hflow]
          exact (getElem?_modify_of c' (· + 1) htotal).trans (congrArg some (if_pos rfl))
        · intro p handled queue hp hmem
          rw [hflow] at hp
          exact absurd hmem (hnew p handled queue hp)
      · rw [Function.update_of_ne hne] at hc' ⊢
        have hloop := h.loops c' call hc'
        refine ⟨hloop.coupler, ?_, ?_, ?_⟩
        · rw [hflow]
          exact (getElem?_modify_of c (· + 1) hloop.counted).trans
            (congrArg some (if_neg (Ne.symm hne)))
        · rw [hlists]
          exact hloop.ahead
        · rw [hflow]
          exact hloop.given
  · exact h

/-- The loop of a coupler ends or is left. -/
theorem finish (h : RouterInv s) (c : Nat) {router : Router} (hkeeps : Keeps s.given s.router router)
    (hunlisted : router.unlisted = s.router.unlisted) :
    RouterInv ⟨router, Function.update s.calls c none, Function.update s.given c []⟩ := by
  have hflow := flow_of_unlisted hunlisted
  refine ⟨?_, hkeeps.listed h.listed, ?_, ?_⟩
  · rw [wiring_of_unlisted hunlisted]
    exact h.wired
  · rw [hflow]
    exact h.traffic
  · intro c' call hc'
    dsimp only at hc' ⊢
    rcases eq_or_ne c' c with rfl | hne
    · rw [Function.update_self] at hc'
      cases hc'
    · rw [Function.update_of_ne hne] at hc' ⊢
      exact (h.loops c' call hc').kept hkeeps (hflow ▸ .refl _)

/-- The loop of a coupler goes on behind a publisher that gets nothing. -/
theorem pass (h : RouterInv s) {c : Nat} {call : PublishCall} (hcall : s.calls c = some call)
    {router : Router} (faulty : List Nat)
    (hlists : ∀ c, router.publishersOf c = s.router.publishersOf c)
    (hwiring : router.wiring = s.router.wiring) (hflow : router.flow = s.router.flow) :
    RouterInv ⟨router, Function.update s.calls c (some ⟨call.msg, call.index + 1, faulty⟩),
      Function.update s.given c (s.given c ++ [])⟩ := by
  have hkeeps : Keeps s.given s.router router := keeps_of_eq hlists
  have hquiet : Quiet s.router.flow router.flow := hflow ▸ .refl _
  refine ⟨hwiring ▸ h.wired, hkeeps.listed h.listed, hflow ▸ h.traffic, ?_⟩
  intro c' loop hc'
  dsimp only at hc' ⊢
  rcases eq_or_ne c' c with rfl | hne
  · rw [Function.update_self] at hc' ⊢
    obtain rfl := Option.some.inj hc'
    obtain ⟨hcoupler, hcounted, hahead, hgiven⟩ := (h.loops c' call hcall).kept hkeeps hquiet
    rw [List.append_nil]
    refine ⟨hcoupler, hcounted, fun p hp => hahead p ?_, hgiven⟩
    exact (List.drop_sublist_drop_left _ (Nat.le_succ call.index)).subset hp
  · rw [Function.update_of_ne hne] at hc' ⊢
    exact (h.loops c' loop hc').kept hkeeps hquiet

/-- The message of the coupler goes on the queue of the publisher at the index. -/
theorem give (h : RouterInv s) {c p : Nat} {call : PublishCall} (hcall : s.calls c = some call)
    (hp : (s.router.publishersOf c)[call.index]? = some p) {router : Router} (faulty : List Nat)
    {handled queue : List RouterMsg} (hx : s.router.flow.publishers[p]? = some (handled, queue))
    (hlists : ∀ c, router.publishersOf c = s.router.publishersOf c)
    (hwiring : router.wiring = s.router.wiring)
    (hflow : router.flow = { s.router.flow with
      publishers := s.router.flow.publishers.modify p (fun x => (x.1, x.2 ++ [call.msg])) }) :
    RouterInv ⟨router, Function.update s.calls c (some ⟨call.msg, call.index + 1, faulty⟩),
      Function.update s.given c (s.given c ++ [p])⟩ := by
  have hloop := h.loops c call hcall
  obtain ⟨hlt, hget⟩ := List.getElem?_eq_some_iff.mp hp
  have hdrop : (s.router.publishersOf c).drop call.index
      = p :: (s.router.publishersOf c).drop (call.index + 1) := by
    rw [List.drop_eq_getElem_cons hlt, hget]
  have hnot : p ∉ s.given c := hloop.ahead p (hdrop ▸ List.mem_cons_self)
  have hnew : call.msg ∉ handled ++ queue := fun hmem => hnot (hloop.given p _ _ hx hmem)
  -- what any publisher has now, it had before, or it is this message on this queue
  have hold : ∀ (q : Nat) (handled' queue' : List RouterMsg),
      router.flow.publishers[q]? = some (handled', queue') → ∀ m ∈ handled' ++ queue',
        (m = call.msg ∧ q = p) ∨ ∃ handled₀ queue₀,
          s.router.flow.publishers[q]? = some (handled₀, queue₀) ∧ m ∈ handled₀ ++ queue₀ := by
    intro q handled' queue' hq m hm
    rw [hflow] at hq
    obtain ⟨y, hy, heq⟩ := of_getElem?_modify hq
    split at heq
    · rename_i hpq
      cases heq
      rw [← List.append_assoc] at hm
      rcases List.mem_append.mp hm with hm | hm
      · exact Or.inr ⟨y.1, y.2, hy, hm⟩
      · exact Or.inl ⟨List.mem_singleton.mp hm, hpq.symm⟩
    · exact Or.inr ⟨handled', queue', heq ▸ hy, hm⟩
  have hkeeps : Keeps s.given s.router router := keeps_of_eq hlists
  refine ⟨hwiring ▸ h.wired, hkeeps.listed h.listed, ?_, ?_⟩
  · rw [hflow]
    exact h.traffic.put hx hnew ⟨_, hloop.coupler.symm ▸ hloop.counted, Nat.le_refl _⟩
  · intro c' loop hc'
    dsimp only at hc' ⊢
    rcases eq_or_ne c' c with rfl | hne
    · rw [Function.update_self] at hc' ⊢
      obtain rfl := Option.some.inj hc'
      refine ⟨hloop.coupler, hflow ▸ hloop.counted, ?_, ?_⟩
      · intro q hq hmem
        rw [hlists] at hq
        have hq' : q ∈ (s.router.publishersOf c').drop call.index :=
          hdrop ▸ List.mem_cons_of_mem _ hq
        rcases List.mem_append.mp hmem with hmem | hmem
        · exact hloop.ahead q hq' hmem
        · obtain rfl := List.mem_singleton.mp hmem
          have hnodup := (List.drop_sublist call.index _).nodup (h.listed c')
          rw [hdrop, List.nodup_cons] at hnodup
          exact hnodup.1 hq
      · intro q handled' queue' hq hmem
        rcases hold q handled' queue' hq _ hmem with ⟨-, rfl⟩ | ⟨handled₀, queue₀, hq₀, hmem₀⟩
        · exact List.mem_append_right _ (List.mem_singleton_self q)
        · exact List.mem_append_left _ (hloop.given q handled₀ queue₀ hq₀ hmem₀)
    · rw [Function.update_of_ne hne] at hc' ⊢
      have hother := h.loops c' loop hc'
      refine ⟨hother.coupler, hflow ▸ hother.counted, fun q hq => hother.ahead q (hlists c' ▸ hq), ?_⟩
      intro q handled' queue' hq hmem
      rcases hold q handled' queue' hq _ hmem with ⟨heq, -⟩ | ⟨handled₀, queue₀, hq₀, hmem₀⟩
      · -- the message of another coupler
        rw [← hother.coupler, heq, hloop.coupler] at hne
        exact absurd rfl hne
      · exact hother.given q handled₀ queue₀ hq₀ hmem₀

/-- A turn of the loop of a coupler. -/
theorem turn (h : RouterInv s) (c : Nat) (filter : FilterOutcome) : RouterInv (s.turn c filter) := by
  unfold RunningRouter.turn
  cases hcall : s.calls c with
  | none => exact h
  | some call =>
    dsimp only
    unfold RunningRouter.queues
    rw [PublishLoop.turn]
    cases hp : (s.router.publishersOf c)[call.index]? with
    | none =>
      obtain ⟨hkeeps, hunlisted⟩ := keeps_removeFaulty s.given c call.faulty s.router
      dsimp only
      cases hremove : s.router.removeFaulty c call.faulty with
      | mk e router =>
        rw [hremove] at hkeeps hunlisted
        cases e with
        | none => exact h.finish c hkeeps hunlisted
        | some e => exact h.finish c hkeeps hunlisted
    | some p =>
      have hlists : ∀ discarded c', (s.router.publish p call.msg discarded).2.publishersOf c'
          = s.router.publishersOf c' := fun discarded c' => publishersOf_publish _ _ _ _ _
      cases filter with
      | raises e => exact h.finish c (.refl _ _) rfl
      | discards =>
        have hpub := publish_discarded (s := s.router) (p := p) call.msg
        dsimp only
        simp only [decide_true, hpub]
        exact h.pass hcall _ (fun _ => rfl) rfl rfl
      | passes =>
        have hwiring := wiring_publish s.router p call.msg false
        dsimp only
        rw [show decide (FilterOutcome.passes = FilterOutcome.discards) = false from rfl]
        cases hx : s.router.publishers[p]? with
        | none =>
          rw [publish_absent hx]
          exact h.pass hcall _ (fun _ => rfl) rfl rfl
        | some x =>
          have hflow : s.router.flow.publishers[p]? = some (x.handled, x.queue) := by
            rw [flow, List.getElem?_map, hx]
            rfl
          dsimp only
          cases hplace : x.hasPlace with
          | true =>
            have hlist := hlists false
            rw [publish_hasPlace hx hplace] at hlist hwiring ⊢
            rw [if_pos rfl]
            refine h.give hcall hp _ hflow hlist hwiring ?_
            exact congrArg (fun publishers => (⟨_, publishers, _⟩ : Flow))
              (map_modify_comm _ _ _ _ _ (fun _ => rfl))
          | false =>
            have hlist := hlists false
            rw [publish_lost hx hplace] at hlist hwiring ⊢
            rw [if_neg Bool.false_ne_true]
            refine h.pass hcall _ hlist hwiring ?_
            exact flow_modifyPublisher _ _ (fun _ => ⟨rfl, rfl⟩)

/-- **A call that may register keeps the invariant.** -/
theorem call (h : RouterInv s) {call : RouterCall} (hmay : s.MayRegister call) :
    RouterInv (s.call call) := by
  cases call with
  | read c content => exact h.read c content
  | turn c filter => exact h.turn c filter
  | _ => exact h.beside hmay

/-- What has been sent to a client was handled by its publisher, which has no
message twice. -/
theorem once (h : RouterInv s) : Once s.router := by
  refine ⟨?_, ?_, ?_⟩
  · intro x hx
    obtain ⟨c, hc⟩ := List.getElem?_of_mem hx
    have hnodup := h.listed c
    unfold publishersOf at hnodup
    rwa [hc] at hnodup
  · intro x hx
    obtain ⟨p, hp⟩ := List.getElem?_of_mem hx
    refine h.traffic.nodup p x.handled x.queue ?_
    rw [flow, List.getElem?_map, hp]
    rfl
  · intro cl hcl
    obtain ⟨k, hk⟩ := List.getElem?_of_mem hcl
    have hflow : s.router.flow.clients[k]? = some (cl.publisher, cl.sent) := by
      rw [flow, List.getElem?_map, hk]
      rfl
    rcases h.traffic.sent k _ _ hflow with hnil | ⟨p, handled, queue, -, hp, hsub⟩
    · rw [hnil]
      exact List.nodup_nil
    · exact hsub.nodup (List.nodup_append.mp (h.traffic.nodup p handled queue hp)).1

end RouterInv

/-! ## 5. Runs -/

namespace Router

/-- A coupler, a server, a client and a message. -/
def tcpRun : List RouterCall :=
  [.newCoupler "Can", .newServer, .serverAddCoupler 0 0, .accept 0 5000, .createPublisher 0,
    .startCreated 0, .read 0 [1], .turn 0 .passes, .turn 0 .passes, .take 0 true]

/-- A UDP server that is given its coupler before it starts. -/
def udpRun : List RouterCall :=
  [.newCoupler "Can", .newUdpServer, .serverAddCoupler 0 0, .udpStart 0]

/-- A publisher that has the message is stopped and registered again before the loop
comes to its end. -/
example :
    ((routerCalls.final .new
      [.newCoupler "Can", .newPublisher [0] true 20 5, .newPublisher [0] true 20 5, .start 0,
        .start 1, .read 0 [1], .turn 0 .passes, .stop 0, .register 0 0, .turn 0 .passes]).router
      ).publishers.map Publisher.queue = [[⟨0, 1, [1]⟩, ⟨0, 1, [1]⟩], []] := by decide

end Router

end NavigationServer.RouterCore
