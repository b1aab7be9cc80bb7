/-
NavigationServer.RouterCore.SenderServerTheorems — one sender at a time.

`one_sender` : as long as no connection is admitted while the heartbeat waits for
the end of a sender, there is one sender at most, and the coupler gets the
messages of one connection behind those of the other. `two_senders` is a run in
which a connection is admitted there: the heartbeat then forgets the new sender,
and the next connection gets one as well.

`takeover` : as long as no connection is admitted during a heartbeat, another host
comes in only where the sender before it has been silent over as many heartbeats
as the configuration asks for.

Each of the two has an invariant that is kept step by step. `SenderInv` says of every
place of the two threads what they know there: at the end of a wait nobody is alive,
so what is assigned behind it is the only sender. It would break where the heartbeat
forgets a sender that is not the one it waited for, which is what the condition
excludes. `TakeoverInv` is about what the heartbeats have counted: the last ones found
as many empty periods as the sender's counter says, and a connection that goes on is
of the host of the sender, or finds none. What becomes of a socket is not looked at.
-/
import NavigationServer.Lib.Lists
import NavigationServer.RouterCore.SenderServer

namespace NavigationServer.RouterCore

open NavigationServer.Lib

namespace NMEASenderServer

variable {M : Type*} {cfg : SenderConfig} {s : NMEASenderServer M} {k : Nat}
  {f : SenderThread M → SenderThread M}

/-! ## 1. Senders -/

/-- All senders have ended. -/
def NoneAlive (s : NMEASenderServer M) : Prop :=
  ∀ (k : Nat) (t : SenderThread M), s.senders[k]? = some t → ¬ t.Alive

/-- What the senders have handed over, each with its number. -/
def blocks : Nat → List (SenderThread M) → List (Nat × QueueItem M)
  | _, [] => []
  | n, t :: ts => t.sender.handed.map (fun msg => (n, msg)) ++ blocks (n + 1) ts

theorem blocks_append (n : Nat) (ts us : List (SenderThread M)) :
    blocks n (ts ++ us) = blocks n ts ++ blocks (n + ts.length) us := by
  induction ts generalizing n with
  | nil => rfl
  | cons t ts ih =>
    rw [List.cons_append, blocks, blocks, ih, List.append_assoc, List.length_cons,
      Nat.add_assoc, Nat.add_comm 1]

/-- Nothing is handed over. -/
theorem blocks_modify (hf : ∀ t, (f t).sender.handed = t.sender.handed) (n k : Nat)
    (ts : List (SenderThread M)) : blocks n (ts.modify k f) = blocks n ts := by
  induction ts generalizing n k with
  | nil => rw [List.modify_nil]
  | cons t ts ih =>
    cases k with
    | zero =>
      rw [List.modify_zero_cons, blocks, blocks, hf]
    | succ k => rw [List.modify_succ_cons, blocks, blocks, ih]

/-- The last sender hands a message over. -/
theorem blocks_modify_last {msg : QueueItem M}
    (hf : ∀ t, (f t).sender.handed = t.sender.handed ++ [msg]) (n k : Nat)
    (ts : List (SenderThread M)) (hk : k + 1 = ts.length) :
    blocks n (ts.modify k f) = blocks n ts ++ [(n + k, msg)] := by
  induction ts generalizing n k with
  | nil => cases hk
  | cons t ts ih =>
    rw [List.length_cons, Nat.add_left_inj] at hk
    cases k with
    | zero =>
      obtain rfl := List.length_eq_zero_iff.mp hk.symm
      rw [List.modify_zero_cons, blocks, blocks, hf, List.map_append]
      simp only [blocks, List.append_nil, List.map_singleton, Nat.add_zero]
    | succ k =>
      rw [List.modify_succ_cons, blocks, blocks, ih (n + 1) k hk, List.append_assoc,
        Nat.add_assoc n, Nat.add_comm 1]

/-- A turn of the thread brings none back to life: it acts at the head of the loop only. -/
theorem alive_turn {t : SenderThread M} (h : t.turn.Alive) : t.Alive := by
  unfold SenderThread.turn at h
  split at h
  · rename_i hplace
    intro hleft
    rw [hplace.2] at hleft
    cases hleft
  · exact h

/-- The head of the loop hands nothing over. -/
theorem handed_turn_sender (t : SenderThread M) : t.turn.sender.handed = t.sender.handed := by
  unfold SenderThread.turn NMEASender.atHead
  split
  · dsimp only
    split <;> rfl
  · rfl

/-! ## 2. The invariant -/

/-- There is one sender at most, the last one. -/
structure SenderInv (s : NMEASenderServer M) : Prop where
  last : ∀ k, s.sender = some k → k + 1 = s.senders.length
  alive : ∀ (k : Nat) (t : SenderThread M), s.senders[k]? = some t → t.Alive → s.sender = some k
  accepts : ∀ k peer, s.accept = .waiting k peer → ∀ j, s.sender = some j → j = k
  admits : ∀ peer, s.accept = .admitting peer → NoneAlive s
  waits : ∀ k, s.beat = .waiting k → s.sender = some k
  clears : s.beat = .clearing → NoneAlive s
  blocks_eq : s.toCoupler = blocks 0 s.senders

theorem senderInv_start : SenderInv (start : NMEASenderServer M) := by
  refine ⟨?_, ?_, ?_, ?_, ?_, ?_, rfl⟩
  all_goals
    intros
    simp_all [start]

/-- The sender that has ended was the last to run. -/
theorem SenderInv.noneAlive (h : SenderInv s) (hleft : s.hasLeft k = true)
    (hsender : ∀ j, s.sender = some j → j = k) : NoneAlive s := by
  intro j t ht halive
  obtain rfl := hsender j (h.alive j t ht halive)
  rw [hasLeft, ht] at hleft
  exact halive (of_decide_eq_true hleft)

/-- What is done to a sender keeps the invariant when it wakes no thread and hands nothing
over: the numbers of the senders, and the places of the two threads, stay. -/
theorem SenderInv.modify (h : SenderInv s) (k : Nat) (hf : ∀ t, (f t).Alive → t.Alive)
    (hhanded : ∀ t, (f t).sender.handed = t.sender.handed) : SenderInv (s.modifySender k f) := by
  have hback : ∀ {j : Nat} {t' : SenderThread M}, (s.senders.modify k f)[j]? = some t' → t'.Alive →
      ∃ t, s.senders[j]? = some t ∧ t.Alive := by
    intro j t' ht' halive
    obtain ⟨t, ht, rfl⟩ := of_getElem?_modify ht'
    refine ⟨t, ht, ?_⟩
    split at halive
    · exact hf t halive
    · exact halive
  have hnone : NoneAlive s → NoneAlive (s.modifySender k f) := by
    intro hnone j t' ht' halive
    obtain ⟨t, ht, halive⟩ := hback ht' halive
    exact hnone j t ht halive
  refine ⟨fun j hj => ?_, fun j t' ht' halive => ?_, h.accepts, fun peer hpeer => ?_, h.waits,
    fun hclear => ?_, ?_⟩
  · show j + 1 = (s.senders.modify k f).length
    rw [List.length_modify]
    exact h.last j hj
  · obtain ⟨t, ht, halive⟩ := hback ht' halive
    exact h.alive j t ht halive
  · exact hnone (h.admits peer hpeer)
  · exact hnone (h.clears hclear)
  · show s.toCoupler = blocks 0 (s.senders.modify k f)
    rw [blocks_modify hhanded]
    exact h.blocks_eq

/-- The accepting thread goes to a place where it knows less, or what it has just found. -/
theorem SenderInv.atAccept (h : SenderInv s) {a : AcceptPlace}
    (hwaits : ∀ k peer, a = .waiting k peer → ∀ j, s.sender = some j → j = k)
    (hruns : ∀ peer, a = .admitting peer → NoneAlive s) : SenderInv { s with accept := a } :=
  ⟨h.last, h.alive, hwaits, hruns, h.waits, h.clears, h.blocks_eq⟩

/-- So does the heartbeat. -/
theorem SenderInv.atBeat (h : SenderInv s) {b : BeatPlace}
    (hwaits : ∀ k, b = .waiting k → s.sender = some k)
    (hclears : b = .clearing → NoneAlive s) : SenderInv { s with beat := b } :=
  ⟨h.last, h.alive, h.accepts, h.admits, hwaits, hclears, h.blocks_eq⟩

theorem SenderInv.stopSender (h : SenderInv s) (k : Nat) : SenderInv (s.modifySender k .stop) :=
  h.modify k (fun _ halive => halive) fun _ => rfl

theorem SenderInv.atStop (h : SenderInv s) : SenderInv { s with stopFlag := true } :=
  ⟨h.last, h.alive, h.accepts, h.admits, h.waits, h.clears, h.blocks_eq⟩

/-- A sender that has not ended hands a message over: it is the last one. -/
theorem SenderInv.got (h : SenderInv s) {t : SenderThread M} (ht : s.senders[k]? = some t)
    (hreads : t.Reads) (msg : QueueItem M) (writeError : Bool) :
    SenderInv { s.modifySender k (fun t => t.got msg writeError) with
      toCoupler := if msg.isNull then s.toCoupler else s.toCoupler ++ [(k, msg)] } := by
  have halive : t.Alive := by
    intro hleft
    rw [hreads.2] at hleft
    cases hleft
  have hsender := h.alive k t ht halive
  have hlast := h.last k hsender
  have hback : ∀ {j : Nat} {t' : SenderThread M},
      (s.senders.modify k (fun t => t.got msg writeError))[j]? = some t' → t'.Alive →
      s.sender = some j := by
    intro j t' ht' halive'
    obtain ⟨u, hu, rfl⟩ := of_getElem?_modify ht'
    split at halive'
    · rename_i hkj
      rw [← hkj]
      exact hsender
    · exact h.alive j u hu halive'
  refine ⟨fun j hj => ?_, fun j t' ht' halive' => hback ht' halive', h.accepts,
    fun peer hpeer => absurd halive (h.admits peer hpeer k t ht), h.waits,
    fun hclear => absurd halive (h.clears hclear k t ht), ?_⟩
  · show j + 1 = (s.senders.modify k _).length
    rw [List.length_modify]
    exact h.last j hj
  · show (if msg.isNull then s.toCoupler else s.toCoupler ++ [(k, msg)])
      = blocks 0 (s.senders.modify k _)
    split
    · rename_i hnull
      rw [blocks_modify fun t => by simp only [SenderThread.got, NMEASender.read, hnull, if_true]]
      exact h.blocks_eq
    · rename_i hnull
      have hhanded : ∀ t : SenderThread M,
          (t.got msg writeError).sender.handed = t.sender.handed ++ [msg] := by
        intro t
        simp only [SenderThread.got, NMEASender.read, if_neg hnull]
      rw [blocks_modify_last hhanded 0 k s.senders hlast, h.blocks_eq, Nat.zero_add]

/-! ## 3. The steps -/

/-- A connection that is let in is admitted at once where there is no sender, since then
none is alive; otherwise the one before it is stopped first. -/
theorem SenderInv.connect (h : SenderInv s) (peer : PeerAddress) :
    SenderInv (s.connect cfg peer) := by
  unfold NMEASenderServer.connect
  split
  · exact h.atAccept (fun _ _ hplace => nomatch hplace) fun _ hplace => nomatch hplace
  · split
    · exact h
    · split
      · rename_i hnone
        refine h.atAccept (fun _ _ hplace => nomatch hplace) fun _ _ k t ht halive => ?_
        -- who is alive is the sender, and there is none
        have := h.alive k t ht halive
        rw [hnone] at this
        cases this
      · split
        · exact h.atAccept (fun _ _ hplace => nomatch hplace) fun _ hplace => nomatch hplace
        · split
          · exact h
          · exact h.atAccept (fun _ _ hplace => nomatch hplace) fun _ hplace => nomatch hplace

/-- The wait for a sender ends when this one has left. By `accepts` no other can have taken
its place, as only this thread makes senders. -/
theorem SenderInv.acceptTurn (h : SenderInv s) : SenderInv s.acceptTurn := by
  unfold NMEASenderServer.acceptTurn
  split
  · split
    · exact h.atAccept (fun _ _ hplace => nomatch hplace) fun _ hplace => nomatch hplace
    · exact (h.stopSender _).atAccept (fun _ _ hplace => nomatch hplace)
        fun _ hplace => nomatch hplace
  · split
    · exact h.atAccept (fun _ _ hplace => nomatch hplace) fun _ hplace => nomatch hplace
    · rename_i hsender
      refine h.atAccept (fun _ _ hplace j hj => ?_) fun _ hplace => nomatch hplace
      cases hplace
      rw [hsender] at hj
      cases hj
      rfl
  · rename_i k peer hplace
    split
    · rename_i hleft
      exact h.atAccept (fun _ _ hplace => nomatch hplace)
        fun _ _ => h.noneAlive hleft (h.accepts k peer hplace)
    · exact h
  · rename_i k _
    exact (h.modify (f := fun t => { t with started := true }) k (fun _ halive => halive)
      fun _ => rfl).atAccept (fun _ _ hplace => nomatch hplace) fun _ hplace => nomatch hplace
  · exact h

/-- The new sender is the only one. -/
theorem SenderInv.newSender (h : SenderInv s) (coupler : CouplerFound)
    (hwaits : s.beat.waitsForEnd = false) : SenderInv (s.newSender coupler) := by
  unfold NMEASenderServer.newSender
  split
  · rename_i peer hplace
    have hnone := h.admits peer hplace
    split
    · exact ⟨h.last, h.alive, fun _ _ hplace => (nomatch hplace), fun _ hplace => (nomatch hplace),
        h.waits, h.clears, h.blocks_eq⟩
    -- by `admits` all the others have ended
    · refine ⟨fun k hk => ?_, fun k t ht halive => ?_, fun _ _ hplace => (nomatch hplace),
        fun _ hplace => (nomatch hplace), fun k hk => ?_, fun hclear => ?_, ?_⟩
      · cases hk
        show s.senders.length + 1 = (s.senders ++ [SenderThread.new peer]).length
        rw [List.length_append, List.length_singleton]
      · rcases Nat.lt_or_ge k s.senders.length with hk | hk
        · exact absurd halive (hnone k t ((List.getElem?_append_left hk).symm.trans ht))
        · have hlt := (List.getElem?_eq_some_iff.mp ht).1
          rw [List.length_append, List.length_singleton] at hlt
          show some s.senders.length = some k
          rw [Nat.le_antisymm hk (Nat.lt_succ_iff.mp hlt)]
      · change s.beat = _ at hk
        rw [hk] at hwaits
        cases hwaits
      · change s.beat = _ at hclear
        rw [hclear] at hwaits
        cases hwaits
      · show s.toCoupler = blocks 0 (s.senders ++ [SenderThread.new peer])
        rw [blocks_append, ← h.blocks_eq]
        exact (List.append_nil _).symm
  · exact h

/-- The heartbeat forgets the sender behind its wait, when by `waits` it is the one waited
for. -/
theorem SenderInv.beatTurn (h : SenderInv s) : SenderInv (s.beatTurn cfg) := by
  unfold NMEASenderServer.beatTurn
  split
  -- nobody is alive, so that there is nothing to forget
  · rename_i hclear
    exact ⟨fun _ hk => (nomatch hk), fun k t ht halive => absurd halive (h.clears hclear k t ht),
      fun _ _ _ _ hj => (nomatch hj), h.admits, fun _ hplace => (nomatch hplace),
      fun hplace => (nomatch hplace), h.blocks_eq⟩
  -- the end of the sender that is waited for
  · rename_i k hwait
    split
    · rename_i hleft
      refine h.atBeat (fun _ hplace => nomatch hplace) fun _ => h.noneAlive hleft fun j hj => ?_
      rw [h.waits k hwait] at hj
      cases hj
      rfl
    · exact h
  · exact h
  · exact h.atBeat (fun _ hplace => nomatch hplace) fun hplace => nomatch hplace
  · split
    · exact h
    · refine (h.modify (f := fun t => { t with counts := t.counts ++ [t.msgcount] }) _
        (fun _ halive => halive) fun _ => rfl).atBeat ?_ ?_
      · intro k hplace
        split at hplace <;> cases hplace
      · intro hplace
        split at hplace <;> cases hplace
  · exact (h.modify (f := .addSilentPeriod) _ (fun _ halive => halive) fun _ => rfl).atBeat
      (fun _ hplace => nomatch hplace) fun hplace => nomatch hplace
  · split
    · exact h
    · refine h.atBeat ?_ ?_
      · intro k hplace
        split at hplace <;> cases hplace
      · intro hplace
        split at hplace <;> cases hplace
  · exact (h.stopSender _).atBeat (fun _ hplace => nomatch hplace) fun hplace => nomatch hplace
  · rename_i hsender
    split
    · exact h
    · refine h.atBeat ?_ ?_
      · intro k hplace
        split at hplace
        · cases hplace
          exact hsender
        · cases hplace
      · intro hplace
        split at hplace <;> cases hplace
  · exact (h.modify (f := .resetPeriod) _ (fun _ halive => halive) fun _ => rfl).atBeat
      (fun _ hplace => nomatch hplace) fun hplace => nomatch hplace

/-- No connection is admitted while the heartbeat waits for the end of a sender. -/
def NotWhileWaiting (s : NMEASenderServer M) (i : SenderServerInput M) : Prop :=
  i.isNewSender = true → s.beat.waitsForEnd = false

instance (s : NMEASenderServer M) (i : SenderServerInput M) : Decidable (NotWhileWaiting s i) :=
  inferInstanceAs (Decidable (_ → _))

/-- **Every step keeps one sender.** The condition is asked of `newSender` alone. -/
theorem SenderInv.step (h : SenderInv s) (i : SenderServerInput M) (hi : NotWhileWaiting s i) :
    SenderInv (s.step cfg i) := by
  cases i with
  | connect peer =>
    unfold NMEASenderServer.step
    dsimp only
    split
    · exact h.connect peer
    · exact h
  | acceptTimeOut =>
    unfold NMEASenderServer.step
    dsimp only
    split
    · split
      · exact h.atAccept (fun _ _ hplace => nomatch hplace) fun _ hplace => nomatch hplace
      · exact h
    · exact h
  | acceptTurn => exact h.acceptTurn
  | newSender coupler => exact h.newSender coupler (hi rfl)
  | heartbeat =>
    unfold NMEASenderServer.step
    dsimp only
    split
    · split
      · exact h
      · exact h.atBeat (fun _ hplace => nomatch hplace) fun hplace => nomatch hplace
    · exact h
  | beatTurn => exact h.beatTurn
  | senderTurn k =>
    exact h.modify k (fun _ halive => alive_turn halive) handed_turn_sender
  | senderGot k msg writeError =>
    unfold NMEASenderServer.step
    dsimp only
    split
    · exact h
    · rename_i t ht
      split
      · rename_i hreads
        exact h.got ht hreads msg writeError
      · exact h
  | stop =>
    unfold NMEASenderServer.step
    dsimp only
    split
    · exact h.atStop
    · exact (h.stopSender _).atStop

/-! ## 4. One sender -/

/-- The connection may send. -/
def Authorized (cfg : SenderConfig) (peer : PeerAddress) : Prop :=
  ∀ master, cfg.master = some master → peer.host = master

def peers (s : NMEASenderServer M) : List PeerAddress := s.senders.map SenderThread.peer

/-- The connections that got a sender, and the one that the server has before it, may
send. -/
structure MasterInv (cfg : SenderConfig) (s : NMEASenderServer M) : Prop where
  senders : ∀ peer ∈ s.peers, Authorized cfg peer
  connection : ∀ peer, s.accept.connection = some peer → Authorized cfg peer

theorem masterInv_start : MasterInv cfg (start : NMEASenderServer M) :=
  ⟨fun _ hpeer => absurd hpeer List.not_mem_nil, fun _ hplace => nomatch hplace⟩

theorem MasterInv.atAccept (h : MasterInv cfg s) {s' : NMEASenderServer M}
    (hpeers : s'.peers = s.peers)
    (hplace : ∀ peer, s'.accept.connection = some peer → Authorized cfg peer) :
    MasterInv cfg s' :=
  ⟨fun peer hpeer => h.senders peer (hpeers ▸ hpeer), hplace⟩

/-- The server stays where it is. -/
theorem MasterInv.stay (h : MasterInv cfg s) {s' : NMEASenderServer M}
    (hpeers : s'.peers = s.peers) (hplace : s'.accept = s.accept) : MasterInv cfg s' :=
  h.atAccept hpeers fun peer hpeer => h.connection peer (hplace ▸ hpeer)

theorem MasterInv.modify (h : MasterInv cfg s) (f : SenderThread M → SenderThread M)
    (hf : ∀ t, (f t).peer = t.peer) (k : Nat) : MasterInv cfg (s.modifySender k f) :=
  h.stay (map_modify s.senders k f SenderThread.peer hf) rfl

/-- The master is asked for before anything else is looked at. -/
theorem MasterInv.connect (h : MasterInv cfg s) (peer : PeerAddress) :
    MasterInv cfg (s.connect cfg peer) := by
  unfold NMEASenderServer.connect
  split
  · exact h.atAccept rfl nofun
  · split
    · exact h
    · rename_i hmaster
      have hpeer : ∀ peer', some peer = some peer' → Authorized cfg peer' := by
        intro peer' hpeer master hcfg
        cases hpeer
        rw [hcfg] at hmaster
        simpa using hmaster
      split
      · exact h.atAccept rfl hpeer
      · split
        · exact h.atAccept rfl nofun
        · split
          · exact h
          · exact h.atAccept rfl hpeer

theorem MasterInv.acceptTurn (h : MasterInv cfg s) : MasterInv cfg s.acceptTurn := by
  unfold NMEASenderServer.acceptTurn
  split
  · rename_i peer hplace
    have hpeer := h.connection peer (congrArg AcceptPlace.connection hplace)
    split
    · exact h.atAccept rfl nofun
    · refine (h.modify .stop (fun _ => rfl) _).atAccept rfl fun peer' hpeer' => ?_
      cases hpeer'
      exact hpeer
  · rename_i peer hplace
    have hpeer := h.connection peer (congrArg AcceptPlace.connection hplace)
    split
    · exact h.atAccept rfl nofun
    · refine h.atAccept rfl fun peer' hpeer' => ?_
      cases hpeer'
      exact hpeer
  · rename_i k peer hplace
    have hpeer := h.connection peer (congrArg AcceptPlace.connection hplace)
    split
    · refine h.atAccept rfl fun peer' hpeer' => ?_
      cases hpeer'
      exact hpeer
    · exact h
  · exact (h.modify (fun t => { t with started := true }) (fun _ => rfl) _).atAccept rfl nofun
  · exact h

/-- The new sender is of the connection that was let in. -/
theorem MasterInv.newSender (h : MasterInv cfg s) (coupler : CouplerFound) :
    MasterInv cfg (s.newSender coupler) := by
  unfold NMEASenderServer.newSender
  split
  · rename_i peer hplace
    split
    · exact h.atAccept rfl nofun
    · refine ⟨fun peer' hpeer' => ?_, nofun⟩
      unfold peers at hpeer'
      dsimp only at hpeer'
      rw [List.map_append, List.mem_append, List.map_singleton, List.mem_singleton] at hpeer'
      rcases hpeer' with hpeer' | hpeer'
      · exact h.senders peer' hpeer'
      · rw [hpeer']
        exact h.connection peer (congrArg AcceptPlace.connection hplace)
  · exact h

theorem MasterInv.beatTurn (h : MasterInv cfg s) : MasterInv cfg (s.beatTurn cfg) := by
  unfold NMEASenderServer.beatTurn
  split
  · exact h.stay rfl rfl
  · split
    · exact h.stay rfl rfl
    · exact h
  · exact h
  · exact h.stay rfl rfl
  · split
    · exact h
    · exact (h.modify (fun t => { t with counts := t.counts ++ [t.msgcount] })
        (fun _ => rfl) _).stay rfl rfl
  · exact (h.modify .addSilentPeriod (fun _ => rfl) _).stay rfl rfl
  · split
    · exact h
    · exact h.stay rfl rfl
  · exact (h.modify .stop (fun _ => rfl) _).stay rfl rfl
  · split
    · exact h
    · exact h.stay rfl rfl
  · exact (h.modify .resetPeriod (fun _ => rfl) _).stay rfl rfl

theorem peer_turn (t : SenderThread M) : t.turn.peer = t.peer := by
  unfold SenderThread.turn
  split <;> rfl

/-- **Every step keeps to the master.** No condition is needed for it. -/
theorem MasterInv.step (h : MasterInv cfg s) (i : SenderServerInput M) :
    MasterInv cfg (s.step cfg i) := by
  cases i with
  | connect peer =>
    unfold NMEASenderServer.step
    dsimp only
    split
    · exact h.connect peer
    · exact h
  | acceptTimeOut =>
    unfold NMEASenderServer.step
    dsimp only
    split
    · split
      · exact h.atAccept rfl nofun
      · exact h
    · exact h
  | acceptTurn => exact h.acceptTurn
  | newSender coupler => exact h.newSender coupler
  | heartbeat =>
    unfold NMEASenderServer.step
    dsimp only
    split
    · split
      · exact h
      · exact h.stay rfl rfl
    · exact h
  | beatTurn => exact h.beatTurn
  | senderTurn k => exact h.modify .turn peer_turn k
  | senderGot k msg writeError =>
    unfold NMEASenderServer.step
    dsimp only
    split
    · exact h
    · split
      · exact (h.modify (fun t => t.got msg writeError) (fun _ => rfl) k).stay rfl rfl
      · exact h
  | stop =>
    unfold NMEASenderServer.step
    dsimp only
    split
    · exact h.stay rfl rfl
    · exact (h.modify .stop (fun _ => rfl) _).stay rfl rfl

/-- The run admits no connection while the heartbeat waits for the end of a
sender. The sender that runs is the last one, the coupler has what each sender has
handed over behind what the senders before it did, and where a master is configured
all senders are its own. -/
theorem one_sender (cfg : SenderConfig) (is : List (SenderServerInput M))
    (hrun : ∀ mv ∈ (senderServer cfg).trace start is, NotWhileWaiting mv.pre mv.input) :
    (∀ (k : Nat) (t : SenderThread M), ((senderServer cfg).final start is).senders[k]? = some t →
      t.Alive → ((senderServer cfg).final start is).sender = some k ∧
        k + 1 = ((senderServer cfg).final start is).senders.length) ∧
    ((senderServer cfg).final start is).toCoupler
      = blocks 0 ((senderServer cfg).final start is).senders ∧
    ∀ t ∈ ((senderServer cfg).final start is).senders, ∀ master, cfg.master = some master →
      t.peer.host = master := by
  have h : SenderInv ((senderServer cfg).final start is) :=
    (senderServer cfg).final_invariant SenderInv NotWhileWaiting
      (fun s i hs hi => hs.step i hi) senderInv_start is hrun
  have hmaster : MasterInv cfg ((senderServer cfg).final start is) :=
    Machine.Reachable.induction (m := senderServer cfg) (MasterInv cfg) masterInv_start
      (fun s i hs => hs.step i) ⟨is, rfl⟩
  refine ⟨fun k t ht halive => ?_, h.blocks_eq, fun t ht => ?_⟩
  · have hsender := h.alive k t ht halive
    exact ⟨hsender, h.last k hsender⟩
  · exact hmaster.senders t.peer (List.mem_map_of_mem ht)

/-- The address of a boat's own plotter. -/
private def plotter (port : Nat) : PeerAddress := ⟨"192.168.1.20", port⟩

/-- The plotter connects a second time. -/
private def reconnected : List (SenderServerInput Unit) :=
  [.connect (plotter 4000), .newSender .startable, .acceptTurn, .senderTurn 0,
    .senderGot 0 (.received (some ())) false, .connect (plotter 4001), .acceptTurn, .acceptTurn,
    .senderTurn 0, .acceptTurn, .newSender .alive, .acceptTurn, .senderTurn 1,
    .senderGot 1 (.received (some ())) false]

theorem one_sender_reconnected :
    (∀ mv ∈ (senderServer ⟨some "192.168.1.20", 2⟩).trace start reconnected,
      NotWhileWaiting mv.pre mv.input) ∧
    ((senderServer ⟨some "192.168.1.20", 2⟩).final start reconnected).toCoupler
      = [(0, .received (some ())), (1, .received (some ()))] := by
  have hrun : ∀ mv ∈ (senderServer ⟨some "192.168.1.20", 2⟩).trace start reconnected,
      NotWhileWaiting mv.pre mv.input := by decide +kernel
  refine ⟨hrun, (one_sender _ reconnected hrun).2.1.trans ?_⟩
  decide +kernel

/-- A connection is admitted while the heartbeat waits for the end of the sender
before it. The heartbeat forgets the new sender, and the next connection gets one
too. -/
theorem two_senders :
    ∃ is : List (SenderServerInput Unit),
      let s := (senderServer ⟨none, 1⟩).final start is
      ∃ t t', s.senders[1]? = some t ∧ s.senders[2]? = some t' ∧ t.Alive ∧ t'.Alive ∧
        t.peer.host ≠ t'.peer.host := by
  refine ⟨[.connect (plotter 4000), .newSender .alive, .acceptTurn, .senderTurn 0,
    .heartbeat, .beatTurn, .beatTurn, .beatTurn, .beatTurn, .beatTurn,
    .connect (plotter 4001), .acceptTurn, .acceptTurn,
    .senderGot 0 (.received none) false, .acceptTurn, .newSender .alive, .acceptTurn,
    .beatTurn, .beatTurn,
    .connect ⟨"192.168.1.30", 5000⟩, .newSender .alive], ?_⟩
  dsimp only
  refine ⟨_, _, rfl, rfl, ?_, ?_, ?_⟩
  · exact nofun
  · exact nofun
  · decide +kernel

/-! ## 5. Silent senders -/

/-- What the heartbeats have found of a sender. -/
structure SenderRecord where
  peer : PeerAddress
  silentCount : Nat
  counts : List Nat

def record (t : SenderThread M) : SenderRecord := ⟨t.peer, t.silentCount, t.counts⟩

def records (s : NMEASenderServer M) : List SenderRecord := s.senders.map record

/-- No heartbeat looks at the sender. -/
theorem records_modifySender (hf : ∀ t, record (f t) = record t) (k : Nat) :
    (s.modifySender k f).records = s.records :=
  map_modify s.senders k f record hf

/-- The counters are the heartbeat's, and the thread of the sender leaves the silent period
alone. -/
theorem record_turn (t : SenderThread M) : record t.turn = record t := by
  unfold SenderThread.turn
  split <;> rfl

/-- The counts of the last `cfg.maxSilentPeriod` heartbeats are zero. -/
def SilentFor (cfg : SenderConfig) (r : SenderRecord) : Prop :=
  List.replicate cfg.maxSilentPeriod 0 <:+ r.counts

theorem of_records_modify {j : Nat} {r' : SenderRecord}
    (h : (s.modifySender k f).records[j]? = some r') :
    ∃ t, s.senders[j]? = some t ∧ r' = record (if k = j then f t else t) := by
  obtain ⟨t', ht', rfl⟩ := Option.map_eq_some_iff.mp ((List.getElem?_map ..).symm.trans h)
  obtain ⟨t, ht, rfl⟩ := of_getElem?_modify ht'
  exact ⟨t, ht, rfl⟩

theorem getElem?_records {j : Nat} {t : SenderThread M} (h : s.senders[j]? = some t) :
    s.records[j]? = some (record t) := by
  unfold records
  rw [List.getElem?_map, h]
  rfl

/-- What the server knows of the last sender, and what the heartbeat knows of the
sender it looks at. -/
structure TakeoverInv (cfg : SenderConfig) (s : NMEASenderServer M) : Prop where
  last : ∀ k, s.sender = some k → k + 1 = s.records.length
  silent : ∀ (k : Nat) (r : SenderRecord), s.records[k]? = some r →
    (s.sender = some k → s.beat ≠ .resetting) → List.replicate r.silentCount 0 <:+ r.counts
  adding : ∀ (k : Nat) (r : SenderRecord), s.records[k]? = some r → s.sender = some k →
    s.beat = .adding → List.replicate (r.silentCount + 1) 0 <:+ r.counts
  closes : ∀ (k : Nat) (r : SenderRecord), s.records[k]? = some r → s.sender = some k →
    s.beat.Closes → SilentFor cfg r
  cleared : ∀ (k : Nat) (r : SenderRecord), s.records[k]? = some r → k + 1 = s.records.length →
    s.sender = none → SilentFor cfg r
  address : ∀ (k : Nat) (r : SenderRecord), s.records[k]? = some r → k + 1 = s.records.length →
    s.accept = .accepting ∨ (∃ j, s.accept = .starting j) → s.address = some r.peer
  hosts : ∀ (k : Nat) (r : SenderRecord) (peer : PeerAddress), s.records[k]? = some r →
    k + 1 = s.records.length → s.accept.connection = some peer →
    s.sender = none ∨ r.peer.host = peer.host
  pairs : ∀ (k : Nat) (r r' : SenderRecord), s.records[k]? = some r →
    s.records[k + 1]? = some r' → r.peer.host ≠ r'.peer.host → SilentFor cfg r

theorem takeoverInv_start : TakeoverInv cfg (start : NMEASenderServer M) := by
  refine ⟨?_, ?_, ?_, ?_, ?_, ?_, ?_, ?_⟩
  all_goals
    intros
    simp_all [start, records]

/-- No heartbeat looks at the sender. -/
theorem TakeoverInv.modify (h : TakeoverInv cfg s) (k : Nat) (hf : ∀ t, record (f t) = record t) :
    TakeoverInv cfg (s.modifySender k f) := by
  have hrecords := records_modifySender (s := s) hf k
  refine ⟨?_, ?_, ?_, ?_, ?_, ?_, ?_, ?_⟩
  all_goals rw [hrecords]
  · exact h.last
  · exact h.silent
  · exact h.adding
  · exact h.closes
  · exact h.cleared
  · exact h.address
  · exact h.hosts
  · exact h.pairs

theorem TakeoverInv.atAccept (h : TakeoverInv cfg s) {a : AcceptPlace}
    (haddress : ∀ (k : Nat) (r : SenderRecord), s.records[k]? = some r → k + 1 = s.records.length →
      a = .accepting ∨ (∃ j, a = .starting j) → s.address = some r.peer)
    (hhosts : ∀ (k : Nat) (r : SenderRecord) (peer : PeerAddress), s.records[k]? = some r →
      k + 1 = s.records.length → a.connection = some peer →
      s.sender = none ∨ r.peer.host = peer.host) : TakeoverInv cfg { s with accept := a } :=
  ⟨h.last, h.silent, h.adding, h.closes, h.cleared, haddress, hhosts, h.pairs⟩

/-- The thread of the server has come to its end. -/
theorem TakeoverInv.atEnd (h : TakeoverInv cfg s) {a : AcceptPlace}
    (ha : a = .left ∨ a = .died) : TakeoverInv cfg { s with accept := a } := by
  rcases ha with rfl | rfl
  all_goals
    refine h.atAccept (fun _ _ _ _ hplace => ?_) fun _ _ _ _ _ hplace => nomatch hplace
    rcases hplace with hplace | ⟨_, hplace⟩ <;> cases hplace

/-- It goes on with the same connection. -/
theorem TakeoverInv.atNext (h : TakeoverInv cfg s) {a : AcceptPlace} {peer : PeerAddress}
    (hplace : s.accept.connection = some peer) (ha : a.connection = some peer) :
    TakeoverInv cfg { s with accept := a } := by
  refine h.atAccept (fun _ _ _ _ hplace => ?_) fun k r peer' hr hk hpeer => ?_
  · rcases hplace with rfl | ⟨_, rfl⟩ <;> cases ha
  · rw [ha] at hpeer
    cases hpeer
    exact h.hosts k r peer hr hk hplace

theorem TakeoverInv.atBeat (h : TakeoverInv cfg s) {b : BeatPlace} (hfrom : s.beat ≠ .resetting)
    (hadding : b ≠ .adding)
    (hcloses : b.Closes → ∀ (k : Nat) (r : SenderRecord), s.records[k]? = some r →
      s.sender = some k → SilentFor cfg r) : TakeoverInv cfg { s with beat := b } :=
  ⟨h.last, fun k r hr _ => h.silent k r hr fun _ => hfrom, fun _ _ _ _ hb => absurd hb hadding,
    fun k r hr hk hb => hcloses hb k r hr hk, h.cleared, h.address, h.hosts, h.pairs⟩

/-- A connection of another host than the sender's is refused, so one that goes on is of
its host, or has found no sender. -/
theorem TakeoverInv.connect (h : TakeoverInv cfg s) (hplace : s.accept = .accepting)
    (peer : PeerAddress) : TakeoverInv cfg (s.connect cfg peer) := by
  unfold NMEASenderServer.connect
  split
  · exact h.atEnd (.inl rfl)
  · split
    · exact h
    · split
      · rename_i hnone
        refine h.atAccept (fun _ _ _ _ hplace => ?_) fun _ _ _ _ _ _ => .inl hnone
        rcases hplace with hplace | ⟨_, hplace⟩ <;> cases hplace
      · split
        · exact h.atEnd (.inr rfl)
        · rename_i address haddress
          split
          · exact h
          · rename_i hhost
            refine h.atAccept (fun _ _ _ _ hplace => ?_) fun k r peer' hr hk hpeer => .inr ?_
            · rcases hplace with hplace | ⟨_, hplace⟩ <;> cases hplace
            · cases hpeer
              have hlast := h.address k r hr hk (.inl hplace)
              rw [haddress] at hlast
              cases hlast
              exact (not_not.mp hhost).symm

/-- The connection stays the same up to its admission. -/
theorem TakeoverInv.acceptTurn (h : TakeoverInv cfg s) : TakeoverInv cfg s.acceptTurn := by
  unfold NMEASenderServer.acceptTurn
  split
  · rename_i peer hplace
    split
    · exact h.atEnd (.inr rfl)
    · have hstop := fun k => h.modify (f := .stop) k fun _ => rfl
      exact (hstop _).atNext (congrArg AcceptPlace.connection hplace) rfl
  · rename_i peer hplace
    split
    · exact h.atEnd (.inr rfl)
    · exact h.atNext (congrArg AcceptPlace.connection hplace) rfl
  · rename_i k peer hplace
    split
    · exact h.atNext (congrArg AcceptPlace.connection hplace) rfl
    · exact h
  · rename_i j hplace
    have hstarted := h.modify (f := fun t => { t with started := true }) j fun _ => rfl
    refine hstarted.atAccept (fun k r hr hk _ => ?_) fun _ _ _ _ _ hpeer => nomatch hpeer
    exact hstarted.address k r hr hk (.inr ⟨j, hplace⟩)
  · exact h

theorem records_admitted (s : NMEASenderServer M) (peer : PeerAddress) :
    (s.senders ++ [SenderThread.new peer]).map record = s.records ++ [⟨peer, 0, []⟩] :=
  List.map_append

/-- The new sender follows the last one. Where the hosts differ no sender was found, so the
heartbeat had forgotten the last one, and `cleared` says that it was silent. -/
theorem TakeoverInv.newSender (h : TakeoverInv cfg s) (coupler : CouplerFound)
    (hidle : s.beat = .idle) : TakeoverInv cfg (s.newSender coupler) := by
  unfold NMEASenderServer.newSender
  split
  · rename_i peer hplace
    split
    · refine ⟨h.last, h.silent, h.adding, h.closes, h.cleared, fun _ _ _ _ hplace => ?_,
        fun _ _ _ _ _ hpeer => (nomatch hpeer), h.pairs⟩
      rcases hplace with hplace | ⟨_, hplace⟩ <;> cases hplace
    · have hof : ∀ {k : Nat} {r : SenderRecord}, (s.records ++ [⟨peer, 0, []⟩])[k]? = some r →
          s.records[k]? = some r ∨ k = s.records.length ∧ r = ⟨peer, 0, []⟩ := by
        intro k r hr
        rcases Nat.lt_or_ge k s.records.length with hk | hk
        · exact .inl ((List.getElem?_append_left hk).symm.trans hr)
        · rw [List.getElem?_append_right hk, List.getElem?_singleton] at hr
          split at hr
          · cases hr
            exact .inr ⟨by omega, rfl⟩
          · cases hr
      have hlength : s.records.length = s.senders.length := List.length_map ..
      refine ⟨?_, ?_, ?_, ?_, ?_, ?_, ?_, ?_⟩
      all_goals
        unfold records
        dsimp only
        rw [records_admitted]
      · intro k hk
        cases hk
        rw [List.length_append, List.length_singleton, hlength]
      · intro k r hr _
        rcases hof hr with hr | ⟨-, rfl⟩
        · exact h.silent k r hr fun _ => by rw [hidle]; exact nofun
        · exact List.nil_suffix
      · intro k r _ _ hb
        rw [hidle] at hb
        cases hb
      · intro k r _ _ hb
        rw [hidle] at hb
        exact hb.elim
      · intro k r _ _ hk
        cases hk
      · intro k r hr hk _
        rw [List.length_append, List.length_singleton, Nat.add_left_inj] at hk
        rcases hof hr with hr | ⟨-, rfl⟩
        · have := (List.getElem?_eq_some_iff.mp hr).1
          omega
        · rfl
      · intro k r peer' _ _ hpeer
        cases hpeer
      · intro k r r' hr hr' hhost
        have hk : k < s.records.length := by
          have := (List.getElem?_eq_some_iff.mp hr').1
          rw [List.length_append, List.length_singleton] at this
          omega
        rw [List.getElem?_append_left hk] at hr
        rcases hof hr' with hr' | ⟨hk, rfl⟩
        · exact h.pairs k r r' hr hr' hhost
        -- the new sender
        · rcases h.hosts k r peer hr hk (congrArg AcceptPlace.connection hplace) with hnone | heq
          · exact h.cleared k r hr hk hnone
          · exact absurd heq hhost
  · exact h

theorem replicate_suffix_of_le {m n : Nat} {counts : List Nat} (hmn : m ≤ n)
    (h : List.replicate n 0 <:+ counts) : List.replicate m 0 <:+ counts := by
  refine List.IsSuffix.trans ⟨List.replicate (n - m) 0, ?_⟩ h
  rw [List.replicate_append_replicate, Nat.sub_add_cancel hmn]

/-- One more empty period at the end. -/
theorem replicate_suffix_concat {n : Nat} {counts : List Nat} (h : List.replicate n 0 <:+ counts) :
    List.replicate (n + 1) 0 <:+ counts ++ [0] := by
  obtain ⟨front, rfl⟩ := h
  exact ⟨front, by rw [List.replicate_succ', List.append_assoc]⟩

/-- The heartbeat looks at the sender, and does not close it. -/
theorem TakeoverInv.atSender (h : TakeoverInv cfg s) {b : BeatPlace} {t : SenderThread M}
    (hk : s.sender = some k) (ht : s.senders[k]? = some t) (hpeer : ∀ t, (f t).peer = t.peer)
    (hsilent : b ≠ .resetting → List.replicate (f t).silentCount 0 <:+ (f t).counts)
    (hadding : b = .adding → List.replicate ((f t).silentCount + 1) 0 <:+ (f t).counts)
    (hb : ¬ b.Closes) : TakeoverInv cfg { s.modifySender k f with beat := b } := by
  have hlength : (s.modifySender k f).records.length = s.records.length := by
    show ((s.senders.modify k f).map record).length = (s.senders.map record).length
    rw [List.length_map, List.length_map, List.length_modify]
  have hrecord : ∀ {j : Nat} {r : SenderRecord}, (s.modifySender k f).records[j]? = some r →
      ∃ r₀, s.records[j]? = some r₀ ∧ r.peer = r₀.peer ∧
        (k = j → r = record (f t)) ∧ (k ≠ j → r = r₀) := by
    intro j r hr
    obtain ⟨u, hu, rfl⟩ := of_records_modify hr
    refine ⟨record u, getElem?_records hu, ?_, fun hkj => ?_, fun hkj => by rw [if_neg hkj]⟩
    · split
      · exact hpeer u
      · rfl
    · subst hkj
      rw [ht] at hu
      cases hu
      rw [if_pos rfl]
  refine ⟨fun j hj => (h.last j hj).trans hlength.symm, fun j r hr hresetting => ?_,
    fun j r hr hj hbeat => ?_, fun _ _ _ _ hbeat => absurd hbeat hb,
    fun j r _ _ hnone => (nomatch hk.symm.trans hnone), fun j r hr hj hplace => ?_,
    fun j r peer hr hj hplace => ?_, fun j r r' hr hr' hhost => ?_⟩
  · obtain ⟨r₀, hr₀, -, heq, hne⟩ := hrecord hr
    by_cases hkj : k = j
    · rw [heq hkj]
      exact hsilent (hresetting (hkj ▸ hk))
    · rw [hne hkj]
      refine h.silent j r₀ hr₀ fun hj => ?_
      rw [hk] at hj
      cases hj
      exact absurd rfl hkj
  · obtain ⟨r₀, -, -, heq, -⟩ := hrecord hr
    cases hk.symm.trans hj
    rw [heq rfl]
    exact hadding hbeat
  · obtain ⟨r₀, hr₀, hpeer₀, -⟩ := hrecord hr
    rw [hpeer₀]
    exact h.address j r₀ hr₀ (hj.trans hlength) hplace
  · obtain ⟨r₀, hr₀, hpeer₀, -⟩ := hrecord hr
    rw [hpeer₀]
    exact h.hosts j r₀ peer hr₀ (hj.trans hlength) hplace
  · obtain ⟨r₀, hr₀, hpeer₀, -, hne⟩ := hrecord hr
    obtain ⟨r₁, hr₁, hpeer₁, -⟩ := hrecord hr'
    have hkj : k ≠ j := by
      have hlast := h.last k hk
      have := (List.getElem?_eq_some_iff.mp hr₁).1
      omega
    rw [hpeer₀, hpeer₁] at hhost
    rw [hne hkj]
    exact h.pairs j r₀ r₁ hr₀ hr₁ hhost

/-- The places of a heartbeat one after the other: the count is written down, an empty one
raises the silent period by one, and at the limit the sender is closed. -/
theorem TakeoverInv.beatTurn (h : TakeoverInv cfg s) : TakeoverInv cfg (s.beatTurn cfg) := by
  unfold NMEASenderServer.beatTurn
  split
  · rename_i hclear
    refine ⟨fun _ hk => (nomatch hk), fun k r hr _ => h.silent k r hr fun _ => ?_,
      fun _ _ _ hk => (nomatch hk), fun _ _ _ hk => (nomatch hk), fun k r hr hk _ => ?_, h.address,
      fun _ _ _ _ _ _ => .inl rfl, h.pairs⟩
    · rw [hclear]
      exact nofun
    · cases hsender : s.sender with
      | none => exact h.cleared k r hr hk hsender
      | some j =>
        have hj := h.last j hsender
        obtain rfl : j = k := Nat.succ.inj (hj.trans hk.symm)
        exact h.closes j r hr hsender (hclear ▸ trivial)
  · rename_i k hwait
    split
    · refine h.atBeat (by rw [hwait]; exact nofun) nofun fun _ j r hr hj => ?_
      exact h.closes j r hr hj (hwait ▸ trivial)
    · exact h
  · exact h
  · rename_i hnone _ _ _
    refine ⟨h.last, fun k r hr _ => h.silent k r hr fun hk => (nomatch hk.symm.trans hnone),
      fun _ _ _ hk => (nomatch hk.symm.trans hnone), fun _ _ _ hk => (nomatch hk.symm.trans hnone),
      h.cleared, h.address, h.hosts, h.pairs⟩
  -- the count
  · rename_i k hbeat hk
    split
    · exact h
    · rename_i t ht
      have hsilent := h.silent k (record t) (getElem?_records ht) fun _ => by
        rw [hbeat]
        exact nofun
      refine h.atSender (f := fun t => { t with counts := t.counts ++ [t.msgcount] }) hk ht
        (fun _ => rfl) (fun hb => ?_) (fun hb => ?_) fun hb => ?_
      · split at hb
        · rename_i hzero
          dsimp only
          rw [hzero]
          exact replicate_suffix_of_le (Nat.le_succ _) (replicate_suffix_concat hsilent)
        · exact absurd rfl hb
      · split at hb
        · rename_i hzero
          dsimp only
          rw [hzero]
          exact replicate_suffix_concat hsilent
        · cases hb
      · split at hb <;> exact hb.elim
  -- one silent period more
  · rename_i k hbeat hk
    cases ht : s.senders[k]? with
    | none =>
      have hlast := h.last k hk
      have hlength : s.records.length = s.senders.length := List.length_map ..
      have := List.getElem?_eq_none_iff.mp ht
      omega
    | some t =>
      have hadding := h.adding k (record t) (getElem?_records ht) hk hbeat
      exact h.atSender hk ht (fun _ => rfl) (fun _ => hadding) nofun id
  -- the limit
  · rename_i k hbeat hk
    split
    · exact h
    · rename_i t ht
      refine h.atBeat (by rw [hbeat]; exact nofun) ?_ fun hcloses j r hr hj => ?_
      · split <;> exact nofun
      · split at hcloses
        · rename_i hmax
          cases hk.symm.trans hj
          cases (getElem?_records ht).symm.trans hr
          refine replicate_suffix_of_le hmax (h.silent k (record t) hr fun _ => ?_)
          rw [hbeat]
          exact nofun
        · exact hcloses.elim
  -- the sender is closed: it is still the one that was found silent
  · rename_i k hbeat hk
    have hstop := h.modify (f := .stop) k fun _ => rfl
    refine hstop.atBeat (fun hb => nomatch hbeat.symm.trans hb) nofun fun _ j r hr hj => ?_
    exact hstop.closes j r hr hj (hbeat ▸ trivial)
  · rename_i k hbeat hk
    split
    · exact h
    · refine h.atBeat (by rw [hbeat]; exact nofun) ?_ fun _ j r hr hj => ?_
      · split <;> exact nofun
      · exact h.closes j r hr hj (hbeat ▸ trivial)
  -- the periods are counted anew
  · rename_i k hbeat hk
    cases ht : s.senders[k]? with
    | none =>
      have hlast := h.last k hk
      have hlength : s.records.length = s.senders.length := List.length_map ..
      have := List.getElem?_eq_none_iff.mp ht
      omega
    | some t => exact h.atSender hk ht (fun _ => rfl) (fun _ => List.nil_suffix) nofun id

/-- No connection is admitted during a heartbeat. -/
def NotDuringHeartbeat (s : NMEASenderServer M) (i : SenderServerInput M) : Prop :=
  i.isNewSender = true → s.beat = .idle

instance (s : NMEASenderServer M) (i : SenderServerInput M) :
    Decidable (NotDuringHeartbeat s i) :=
  inferInstanceAs (Decidable (_ → _))

/-- **Every step keeps what is counted**, when none admits a connection in the middle of a
heartbeat, which would go on with the counters of another sender. -/
theorem TakeoverInv.step (h : TakeoverInv cfg s) (i : SenderServerInput M)
    (hi : NotDuringHeartbeat s i) : TakeoverInv cfg (s.step cfg i) := by
  cases i with
  | connect peer =>
    unfold NMEASenderServer.step
    dsimp only
    split
    · rename_i hplace
      exact h.connect hplace peer
    · exact h
  | acceptTimeOut =>
    unfold NMEASenderServer.step
    dsimp only
    split
    · split
      · exact h.atEnd (.inl rfl)
      · exact h
    · exact h
  | acceptTurn => exact h.acceptTurn
  | newSender coupler => exact h.newSender coupler (hi rfl)
  | heartbeat =>
    unfold NMEASenderServer.step
    dsimp only
    split
    · rename_i hidle
      split
      · exact h
      · exact h.atBeat (by rw [hidle]; exact nofun) nofun fun hb => hb.elim
    · exact h
  | beatTurn => exact h.beatTurn
  | senderTurn k => exact h.modify k record_turn
  | senderGot k msg writeError =>
    unfold NMEASenderServer.step
    dsimp only
    split
    · exact h
    · split
      · have hgot := h.modify (f := fun t => t.got msg writeError) k fun _ => rfl
        exact ⟨hgot.last, hgot.silent, hgot.adding, hgot.closes, hgot.cleared, hgot.address,
          hgot.hosts, hgot.pairs⟩
      · exact h
  | stop =>
    unfold NMEASenderServer.step
    dsimp only
    split
    · exact ⟨h.last, h.silent, h.adding, h.closes, h.cleared, h.address, h.hosts, h.pairs⟩
    · rename_i k _
      have hstop := h.modify (f := .stop) k fun _ => rfl
      exact ⟨hstop.last, hstop.silent, hstop.adding, hstop.closes, hstop.cleared, hstop.address,
        hstop.hosts, hstop.pairs⟩

/-! ## 6. Another host takes over -/

/-- The run admits no connection during a heartbeat. Where a sender is followed by
one of another host, the last `cfg.maxSilentPeriod` heartbeats that looked at it
have found no message. -/
theorem takeover (cfg : SenderConfig) (is : List (SenderServerInput M))
    (hrun : ∀ mv ∈ (senderServer cfg).trace start is, NotDuringHeartbeat mv.pre mv.input)
    (k : Nat) (t t' : SenderThread M)
    (ht : ((senderServer cfg).final start is).senders[k]? = some t)
    (ht' : ((senderServer cfg).final start is).senders[k + 1]? = some t')
    (hhost : t.peer.host ≠ t'.peer.host) :
    List.replicate cfg.maxSilentPeriod 0 <:+ t.counts := by
  have h : TakeoverInv cfg ((senderServer cfg).final start is) :=
    (senderServer cfg).final_invariant (TakeoverInv cfg) NotDuringHeartbeat
      (fun s i hs hi => hs.step i hi) takeoverInv_start is hrun
  exact h.pairs k (record t) (record t') (getElem?_records ht) (getElem?_records ht') hhost

/-- The plotter is silent over a heartbeat, and another host connects. -/
private def takenOver : List (SenderServerInput Unit) :=
  [.connect (plotter 4000), .newSender .alive, .acceptTurn, .senderTurn 0,
    .heartbeat, .beatTurn, .beatTurn, .beatTurn, .beatTurn, .beatTurn,
    .senderGot 0 (.received none) false, .beatTurn, .beatTurn,
    .connect ⟨"192.168.1.30", 5000⟩, .newSender .alive]

theorem takeover_takenOver :
    ∃ t t', ((senderServer ⟨none, 1⟩).final start takenOver).senders[0]? = some t ∧
      ((senderServer ⟨none, 1⟩).final start takenOver).senders[1]? = some t' ∧
      t.peer.host ≠ t'.peer.host ∧ List.replicate 1 0 <:+ t.counts := by
  have hrun : ∀ mv ∈ (senderServer ⟨none, 1⟩).trace start takenOver,
      NotDuringHeartbeat mv.pre mv.input := by decide +kernel
  have hhost : (plotter 4000).host ≠ "192.168.1.30" := by decide +kernel
  exact ⟨_, _, rfl, rfl, hhost, takeover ⟨none, 1⟩ takenOver hrun 0 _ _ rfl rfl hhost⟩

end NMEASenderServer

end NavigationServer.RouterCore
