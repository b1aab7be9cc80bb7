/-
NavigationServer.CanInterface.BusTheorems — what the nodes of a bus get from
each other.

`bus_delivers`: in every run, the messages of node `n` on the queue of node `r`
are the first of those that `n` has put and `r` accepts, each once and in
their order, and all of them once no frame is under way. The frames of the nodes
may be mixed in any way (`SourceIsolation`), a writer sends its frames in the
order of its queue (`NodeInv.sent_le`), and what comes of the frames of one
node is followed call by call (`NodeInv.carried`).

An event is one call: `send` of an application, a turn of a writer, or a frame taken from
a socket. Three invariants meet. A node is right by itself (`NodeInv`); a reader has of
each node what the reader of that node alone would have (`ReaderInv`); and the bus keeps
both for all nodes at once (`BusInv`). Arbitration on the wire is left out: a frame that
the bus takes is on it for all.
-/
import NavigationServer.CanInterface.MessageFrames

namespace NavigationServer.CanInterface

open NavigationServer.Lib
open NavigationServer.Nmea2000
open NavigationServer.Nmea2000Datamodel
open NavigationServer.RouterCore
open FastPacketHandler (seqOf)
open SocketCANInterface (buildArbitrationId)

/-! ## 1. What a node has put and sent -/

namespace SocketCANWriter

/-- The frames of a message, put one after the other. -/
theorem foldl_putMsg {Msg : Type*} (frames : List Msg) : ∀ s : SocketCANWriter Msg,
    frames.foldl (putMsg 0) s = { s with inQueue := s.inQueue ++ frames, put := s.put ++ frames } := by
  induction frames with
  | nil => intro s; simp
  | cons m frames ih =>
    intro s
    rw [List.foldl_cons, ih, putMsg, if_neg (by simp)]
    simp

/-- A turn puts nothing. What it sends is the message in hand; or else it sends
nothing, and takes what it takes behind what it has. -/
theorem turn_cases {Msg : Type*} (s : SocketCANWriter Msg) (size : Nat) (bus : Nat → SendResult) :
    (s.turn size bus).put = s.put ∧
      ((∃ msg, s.place = .sending ∧ s.msg = some msg ∧
          (s.turn size bus).sent = s.sent ++ [msg] ∧ (s.turn size bus).taken = s.taken) ∨
        ((s.turn size bus).sent = s.sent ∧ s.taken <+: (s.turn size bus).taken)) := by
  unfold turn
  cases hplace : s.place with
  | outer =>
    simp only [outerTurn, get]
    split
    · exact ⟨rfl, .inr ⟨rfl, List.prefix_rfl⟩⟩
    · split
      · exact ⟨rfl, .inr ⟨rfl, List.prefix_rfl⟩⟩
      · cases s.inQueue with
        | nil => exact ⟨rfl, .inr ⟨rfl, List.prefix_rfl⟩⟩
        | cons m rest => exact ⟨rfl, .inr ⟨rfl, List.prefix_append _ _⟩⟩
  | pacing =>
    simp only [setBurst]
    split <;> exact ⟨rfl, .inr ⟨rfl, List.prefix_rfl⟩⟩
  | sending =>
    simp only [trySend]
    cases hmsg : s.msg with
    | none => exact ⟨rfl, .inr ⟨rfl, List.prefix_rfl⟩⟩
    | some msg =>
      simp only
      cases bus s.totalMsg with
      | success => exact ⟨rfl, .inl ⟨msg, trivial, rfl, rfl, rfl⟩⟩
      | valueError => exact ⟨rfl, .inr ⟨rfl, List.prefix_rfl⟩⟩
      | canError =>
        simp only
        split <;> exact ⟨rfl, .inr ⟨rfl, List.prefix_rfl⟩⟩
  | inBurst =>
    simp only [burstTurn, get]
    cases s.inQueue with
    | nil => exact ⟨rfl, .inr ⟨rfl, List.prefix_rfl⟩⟩
    | cons m rest => exact ⟨rfl, .inr ⟨rfl, List.prefix_append _ _⟩⟩
  | returned => exact ⟨rfl, .inr ⟨rfl, List.prefix_rfl⟩⟩
  | raised e => exact ⟨rfl, .inr ⟨rfl, List.prefix_rfl⟩⟩

/-- What a writer has sent is the first of what it has taken, turn by turn. -/
theorem InOrder.sent_le_turn {Msg : Type*} {s : SocketCANWriter Msg} (h : s.InOrder)
    (hsent : s.sent <+: s.taken) (size : Nat) (bus : Nat → SendResult) :
    (s.turn size bus).sent <+: (s.turn size bus).taken := by
  rcases (s.turn_cases size bus).2 with ⟨msg, hplace, hmsg, hs, ht⟩ | ⟨hs, ht⟩
  · obtain ⟨msg', hmsg', htaken⟩ := h.holding (.inr (.inl hplace))
    obtain rfl := Option.some.inj (hmsg.symm.trans hmsg')
    rw [hs, ht, htaken]
  · rw [hs]
    exact hsent.trans ht

end SocketCANWriter

/-- A frame as the nodes send them: the reader can classify it, and takes more
than its control byte where it is one of a fast packet. -/
structure OnBus (defs : PGNDefinitions) (a : Nat) (m : CanMessage) : Prop where
  source : m.sa = a
  notIso : m.pgn ≠ 60416 ∧ m.pgn ≠ 60160
  bytes : ∃ b rest fast, m.data = b :: rest ∧ fastPacketCheck defs m.pgn = .ok fast ∧
    (fast = true → rest ≠ [])

/-- The frames of a message have the address of their node and a valid header. -/
theorem onBus_frames {defs : PGNDefinitions} {a : Nat} {msg : NMEA2000Msg}
    (h : Sendable defs a msg) {m : CanMessage}
    (hm : m ∈ (frameData msg).map (CanMessage.mk (buildArbitrationId msg))) : OnBus defs a m := by
  obtain ⟨hhead, hdata⟩ := header_of_mem_frames h.header hm
  simp only [header, Prod.mk.injEq] at hhead
  obtain ⟨hp, -, hs, -⟩ := hhead
  refine ⟨hs.trans h.source, hp ▸ h.notIso, ?_⟩
  rw [hp, h.flag]
  cases hfast : msg.fastPacket with
  | false =>
    rw [frameData, hfast, if_neg (by simp), List.mem_singleton] at hdata
    obtain ⟨b, rest, hpayload⟩ := List.exists_cons_of_length_pos (h.single hfast).1
    exact ⟨b, rest, false, hdata.trans hpayload, rfl, by simp⟩
  | true =>
    have h255 := (h.fast hfast).2
    rw [frameData, if_pos hfast, FastPacketHandler.splitFrames_eq msg.payload 1 (by omega) (by omega)]
      at hdata
    rcases List.mem_cons.mp hdata with hfirst | hcont
    · exact ⟨_, _, true, hfirst, rfl, by simp⟩
    · obtain ⟨k, -, hk⟩ := List.mem_map.mp hcont
      refine ⟨_, _, true, hk.symm, rfl, fun _ hnil => ?_⟩
      have hlength := FastPacketHandler.length_chunkAt msg.payload (7 * k - 1)
      rw [hnil] at hlength
      cases hlength

/-- The frames of two messages are read one message behind the other. -/
theorem Handed.split {front back : List CanMessage} {inputs : List CanInput}
    (h : Handed (front ++ back) inputs) :
    ∃ ins ins', inputs = ins ++ ins' ∧ Handed front ins ∧ Handed back ins' := by
  obtain ⟨ins, ins', rfl, hfront, hback⟩ := List.map_eq_append_iff.mp h.1
  exact ⟨ins, ins', rfl, ⟨hfront, fun i hi => h.2 i (List.mem_append_left _ hi)⟩,
    ⟨hback, fun i hi => h.2 i (List.mem_append_right _ hi)⟩⟩

/-- What holds of node `a`. The last field is about a reader, of any node, that
gets all frames put so far and no others. -/
structure NodeInv (defs : PGNDefinitions) (a : Nat) (node : BusNode) : Prop where
  put_eq : node.writer.put = node.interface.inQueue
  inOrder : node.writer.InOrder
  sent_le : node.writer.sent <+: node.writer.taken
  onBus : ∀ m ∈ node.writer.put, OnBus defs a m
  carried : ∀ addresses inputs, Handed node.writer.put inputs →
    ((reader defs).final (listening addresses) inputs).queue = arriving addresses node.posted ∧
      ∀ pgn < 0x20000, node.interface.fpHandler.SequenceFree pgn ∨
        fastPacketCheck defs pgn = .ok false →
          Clear ((reader defs).final (listening addresses) inputs) pgn a

namespace NodeInv

variable {defs : PGNDefinitions} {a : Nat} {node : BusNode}

/-- Before its first call a node has put nothing. -/
theorem start (addresses : List Nat) : NodeInv defs a (.start addresses) where
  put_eq := rfl
  inOrder := SocketCANWriter.inOrder_start
  sent_le := List.prefix_rfl
  onBus := fun m hm => absurd hm List.not_mem_nil
  carried := by
    intro addresses inputs hin
    obtain rfl : inputs = [] := List.map_eq_nil_iff.mp hin.1
    exact ⟨rfl, fun _ _ _ _ _ => rfl⟩

/-- A step that leaves what is put as it is, and no sequence free that was not. -/
theorem congr (h : NodeInv defs a node) {node' : BusNode} (hposted : node'.posted = node.posted)
    (hput : node'.writer.put = node.writer.put) (hqueue : node'.interface.inQueue = node.interface.inQueue)
    (hfree : ∀ pgn, node'.interface.fpHandler.SequenceFree pgn →
      node.interface.fpHandler.SequenceFree pgn)
    (hinOrder : node'.writer.InOrder) (hsent : node'.writer.sent <+: node'.writer.taken) :
    NodeInv defs a node' where
  put_eq := by rw [hput, hqueue, h.put_eq]
  inOrder := hinOrder
  sent_le := hsent
  onBus := by rw [hput]; exact h.onBus
  carried := by
    intro addresses inputs hin
    rw [hput] at hin
    obtain ⟨hmsgs, hclear⟩ := h.carried addresses inputs hin
    rw [hposted]
    exact ⟨hmsgs, fun pgn hpgn hor => hclear pgn hpgn (hor.imp (hfree pgn) id)⟩

/-- A turn of the writer: nothing is put, and what is sent stays in order. -/
theorem write (h : NodeInv defs a node) (size : Nat) (bus : Nat → SendResult) :
    NodeInv defs a (node.write size bus).2 :=
  h.congr rfl (node.writer.turn_cases size bus).1 rfl (fun _ hfree => hfree)
    (h.inOrder.turn size bus) (h.inOrder.sent_le_turn h.sent_le size bus)

/-- The queue of the writer behind a call that put some frames. -/
theorem inOrder_send (h : NodeInv defs a node) (frames : List CanMessage) :
    (frames.foldl (SocketCANWriter.putMsg 0) node.writer).InOrder ∧
      (frames.foldl (SocketCANWriter.putMsg 0) node.writer).sent
        <+: (frames.foldl (SocketCANWriter.putMsg 0) node.writer).taken := by
  rw [SocketCANWriter.foldl_putMsg]
  refine ⟨⟨?_, h.inOrder.holding, h.inOrder.free, h.inOrder.noRetry⟩, h.sent_le⟩
  simp only
  rw [h.inOrder.put_eq, List.append_assoc]

/-- **A call of `send`.** -/
theorem send (h : NodeInv defs a node) {msg : NMEA2000Msg} (hs : Sendable defs a msg)
    (full : Nat → Bool) (forceSend : Bool) : NodeInv defs a (node.send full msg forceSend) := by
  obtain ⟨hinOrder, hsent⟩ := h.inOrder_send
    ((node.interface.send full msg forceSend).2.inQueue.drop node.interface.inQueue.length)
  have hlow : msg.pgn < 0x20000 := hs.header.pgn.1
  cases sendEffect hs node.interface full forceSend with
  | nothing hresult hqueued hfree =>
    refine h.congr ?_ ?_ hqueued (fun pgn => (hfree pgn).mp) hinOrder hsent
    · simp [BusNode.send, hresult]
    · simp [BusNode.send, hqueued]
  | all hresult hstart hqueued hfree =>
    have hput : (node.send full msg forceSend).writer.put
        = node.writer.put ++ (frameData msg).map (CanMessage.mk (buildArbitrationId msg)) := by
      simp [BusNode.send, SocketCANWriter.foldl_putMsg, hqueued]
    refine ⟨?_, hinOrder, hsent, ?_, ?_⟩
    · rw [hput, h.put_eq]
      exact hqueued.symm
    · intro m hm
      rw [hput] at hm
      exact (List.mem_append.mp hm).elim (h.onBus m) (onBus_frames hs)
    · intro addresses inputs hin
      rw [hput] at hin
      obtain ⟨ins, ins', rfl, hbefore, hnew⟩ := hin.split
      obtain ⟨hqueue, hclear⟩ := h.carried addresses ins hbefore
      have hown : Clear ((reader defs).final (listening addresses) ins) msg.pgn a := by
        refine hclear msg.pgn hlow ?_
        cases hfast : msg.fastPacket with
        | true => exact .inl (hstart hfast)
        | false => exact .inr (hfast ▸ hs.flag)
      obtain ⟨hnext, hkept⟩ := all_frames hs hown
        (show HandsFirst (frameData msg).length msg ins' by
          rw [HandsFirst, List.take_length]; exact hnew)
      rw [Machine.final_append]
      refine ⟨?_, fun pgn hpgn hor => hkept pgn hpgn (hclear pgn hpgn (hor.imp (hfree pgn).mp id))⟩
      have hposted : (node.send full msg forceSend).posted = node.posted ++ [msg] := by
        simp [BusNode.send, hresult]
      rw [hnext, hqueue, addresses_final, hposted, arriving_append]
      rfl
  | some hresult hfast hstart hrefused hqueued hfree =>
    rename_i j
    have hput : (node.send full msg forceSend).writer.put = node.writer.put
        ++ ((frameData msg).take j).map (CanMessage.mk (buildArbitrationId msg)) := by
      simp [BusNode.send, SocketCANWriter.foldl_putMsg, hqueued]
    refine ⟨?_, hinOrder, hsent, ?_, ?_⟩
    · rw [hput, h.put_eq]
      exact hqueued.symm
    · intro m hm
      rw [hput] at hm
      exact (List.mem_append.mp hm).elim (h.onBus m) (fun hnew => onBus_frames hs
        (List.map_subset _ (List.take_subset j _) hnew))
    · intro addresses inputs hin
      rw [hput] at hin
      obtain ⟨ins, ins', rfl, hbefore, hnew⟩ := hin.split
      obtain ⟨hqueue, hclear⟩ := h.carried addresses ins hbefore
      obtain ⟨hnext, hkept⟩ := some_frames hs hfast (hclear msg.pgn hlow (.inl hstart)) hrefused hnew
      rw [Machine.final_append]
      refine ⟨?_, fun pgn hpgn hor => ?_⟩
      · rw [hnext, hqueue]
        simp [BusNode.send, hresult]
      · -- the PGN of the message is fast, and its sequence is in use from now on
        have hne : pgn ≠ msg.pgn := by
          rintro rfl
          rcases hor with hor | hor
          · exact ((hfree msg.pgn).mp hor).1 rfl
          · rw [hs.flag, hfast] at hor
            cases hor
        exact hkept pgn hpgn hne (hclear pgn hpgn (hor.imp (fun hf => ((hfree pgn).mp hf).2) id))

end NodeInv

/-! ## 2. A frame of a node in the reader of another -/

/-- Only sequences of fast packet PGNs are open. -/
def OpenFast (defs : PGNDefinitions) (s : SocketCANInterface) : Prop :=
  ∀ pgn < 0x20000, ∀ a < 256, ∀ seq < 8,
    s.fpHandler.sequences.lookup (FastPacket.computeKey pgn a seq) ≠ none →
      fastPacketCheck defs pgn = .ok true

/-- The reader leaves the sequences of the sender alone. -/
theorem writeSequences_receive (h : FastPacketHandler) (rx : Received) :
    (h.receive rx).2.writeSequences = h.writeSequences := by
  obtain ⟨now, pgn, addr, frame⟩ := rx
  have hfeed : ∀ (key counter : Nat) (p : FastPacket) (frame : Bytes),
      (h.feed key counter p frame).2.writeSequences = h.writeSequences := by
    intro key counter p frame
    rw [FastPacketHandler.feed]
    cases p.takeFrame counter frame with
    | error e =>
      simp only
      split <;> rfl
    | ok p' =>
      simp only
      split <;> rfl
  cases frame with
  | nil => rfl
  | cons b rest =>
    simp only [FastPacketHandler.receive, FastPacketHandler.processFrame]
    split
    · exact hfeed _ _ _ _
    · split
      · rfl
      · exact hfeed _ _ _ _

/-- What the senders of an interface work on is not touched by its reader. -/
theorem sender_process (defs : PGNDefinitions) (s : SocketCANInterface) (now : Time) (full : Bool)
    (m : CanMessage) :
    (s.processReceiveMsg defs now full m).2.inQueue = s.inQueue ∧
      (s.processReceiveMsg defs now full m).2.fpHandler.writeSequences
        = s.fpHandler.writeSequences := by
  by_cases hda : m.da ∈ s.addresses
  · rw [processReceiveMsg_accepted defs now full hda]
    by_cases hiso : m.pgn = 60416 ∨ m.pgn = 60160
    · rw [processAccepted_iso defs _ now full hiso]
      exact ⟨rfl, rfl⟩
    · rw [processAccepted_plain defs _ now full hiso]
      cases (counted s).fpHandler.isPgnActive m.pgn m.sa m.data with
      | error e => exact ⟨rfl, rfl⟩
      | ok active =>
        simp only
        cases (if active then .ok true else fastPacketCheck defs m.pgn) with
        | error e => exact ⟨rfl, rfl⟩
        | ok fast =>
          cases fast with
          | true =>
            simp only
            rw [reassemble_eq]
            exact ⟨rfl, writeSequences_receive _ _⟩
          | false => cases full <;> exact ⟨rfl, rfl⟩
  · rw [processReceiveMsg_ignored defs now full hda]
    exact ⟨rfl, rfl⟩

section Reader

variable {defs : PGNDefinitions} {a : Nat} {s : SocketCANInterface} {m : CanMessage}

/-- An entry is open for fast packets only. -/
theorem OpenFast.keyOpen (hopen : OpenFast defs s) {b : UInt8} (hkey : KeyOpen s m b) : fastPacketCheck defs m.pgn = .ok true := by
  refine hopen m.pgn m.pgn_lt m.sa m.sa_lt (seqOf b) (FastPacketHandler.seqOf_lt b) ?_
  rw [KeyOpen, Option.isSome_iff_ne_none] at hkey
  exact hkey

/-- **The reader is not stopped by a frame of a node.** -/
theorem OnBus.returns (h : OnBus defs a m) (hopen : OpenFast defs s) (now : Time) (full : Bool) :
    ∃ x, (s.processReceiveMsg defs now full m).1 = .ok x := by
  obtain ⟨b, rest, fast, hdata, hcheck, hrest⟩ := h.bytes
  refine (processReceiveMsg_returns_iff defs s now full m).mpr (.inr (.inr (.inr
    ⟨h.notIso.1, h.notIso.2, b, rest, hdata, .inr ?_, ?_⟩)))
  · exact (fastPacketCheck_isOk_iff defs m.pgn_lt).mp ⟨fast, hcheck⟩
  · rintro hor ⟨-, hnil⟩
    have htrue : fastPacketCheck defs m.pgn = .ok true := hor.elim hopen.keyOpen id
    rw [hcheck, Except.ok.injEq] at htrue
    exact hrest htrue hnil

/-- A frame of the bus opens no entry but one of a fast packet. -/
theorem openFast_process (h : OnBus defs a m) (hopen : OpenFast defs s) (now : Time) (full : Bool) :
    OpenFast defs (s.processReceiveMsg defs now full m).2 := by
  by_cases hda : m.da ∈ s.addresses
  · rw [processReceiveMsg_accepted defs now full hda, processAccepted_plain defs _ now full
      (fun hiso => hiso.elim h.notIso.1 h.notIso.2)]
    obtain ⟨b, rest, fast, hdata, hcheck, -⟩ := h.bytes
    obtain ⟨active, hactive⟩ : ∃ active,
        (counted s).fpHandler.isPgnActive m.pgn m.sa m.data = .ok active := by
      rw [hdata]
      exact ⟨_, rfl⟩
    have hfast : (if active then .ok true else fastPacketCheck defs m.pgn) = .ok fast := by
      cases active with
      | false => exact hcheck
      | true =>
        rw [hdata, FastPacketHandler.isPgnActive, Except.ok.injEq] at hactive
        rw [if_pos rfl, ← hopen.keyOpen hactive, hcheck]
    rw [hactive]
    simp only [hfast]
    cases fast with
    | false => cases full <;> exact hopen
    | true =>
      simp only
      rw [reassemble_eq]
      intro pgn hpgn a' ha' seq hseq hne
      obtain ⟨seq', hseq', hkey⟩ := m.key_received now
      by_cases hk : FastPacket.computeKey pgn a' seq = (m.received now).key
      · rw [hkey] at hk
        have hlow := m.pgn_lt
        rw [(FastPacket.computeKey_inj (by omega) (by omega) ha' m.sa_lt hk).1]
        exact hcheck
      · simp only at hne
        rw [FastPacketHandler.lookup_receive_ne _ _ hk] at hne
        exact hopen pgn hpgn a' ha' seq hseq hne
  · rw [processReceiveMsg_ignored defs now full hda]
    exact hopen

end Reader

theorem AgreeFor.symm {a : Nat} {s t : SocketCANInterface} (h : AgreeFor a s t) : AgreeFor a t s :=
  ⟨h.addresses.symm, fun pgn hpgn seq hseq => (h.sequences pgn hpgn seq hseq).symm,
    h.transaction.symm, h.messages.symm, h.owned', h.owned⟩

/-- A frame of any source, given to two interfaces. -/
theorem AgreeFor.process_both {a : Nat} {s t : SocketCANInterface} (h : AgreeFor a s t) (ha : a < 256)
    (defs : PGNDefinitions) (now : Time) (full : Bool) (m : CanMessage) :
    AgreeFor a (s.processReceiveMsg defs now full m).2 (t.processReceiveMsg defs now full m).2 := by
  by_cases hsa : m.sa = a
  · exact (h.process hsa defs now full).2
  · exact ((h.process_other ha hsa defs now full).symm.process_other ha hsa defs now full).symm

/-- What does not touch the reader keeps the agreement. -/
theorem SameReader.agreeFor {a : Nat} {s s' t : SocketCANInterface} (h : SameReader s s')
    (hagree : AgreeFor a s t) : AgreeFor a s' t :=
  ⟨h.addresses.trans hagree.addresses, by rw [h.sequences]; exact hagree.sequences,
    by rw [h.isoTpHandler]; exact hagree.transaction, by rw [h.queue]; exact hagree.messages,
    by rw [h.isoTpHandler]; exact hagree.owned, hagree.owned'⟩

/-! ## 3. The bus -/

/-- The frames that the bus has shown to a node. -/
def BusNode.heard (node : BusNode) : List CanMessage := node.reads.map CanInput.msg ++ node.socket

theorem BusNode.heard_hear (node : BusNode) (frames : List CanMessage) :
    (node.hear frames).heard = node.heard ++ frames := by
  simp [heard, hear]

/-- What holds of the reader of node `r`, with the frames that each node has sent
so far: it has heard those of each other node in their order, and its state is,
for every source, that of a reader that read them. -/
structure ReaderInv {ι : Type*} (defs : PGNDefinitions) (address : ι → Nat) (addresses : List Nat)
    (sent : ι → List CanMessage) (r : ι) (node : BusNode) : Prop where
  heard : ∀ n ≠ r, node.heard.filter (fun m => decide (m.sa = address n)) = sent n
  sources : ∀ m ∈ node.heard, ∃ n ≠ r, m ∈ sent n
  room : ∀ i ∈ node.reads, i.full = false
  agree : ∀ a < 256,
    AgreeFor a node.interface ((reader defs).final (listening addresses) node.reads)
  openFast : OpenFast defs node.interface
  queue : ∀ msg ∈ node.interface.queue, ∃ n ≠ r, msg.sa = address n
  raised : node.raised = none

/-- Every node is right by itself, and every reader right about all others. -/
structure BusInv {ι : Type*} (defs : PGNDefinitions) (address : ι → Nat)
    (addresses : ι → List Nat) (nodes : ι → BusNode) : Prop where
  nodeInv : ∀ n, NodeInv defs (address n) (nodes n)
  readerInv : ∀ r, ReaderInv defs address (addresses r) (fun n => (nodes n).writer.sent) r (nodes r)

/-- Whatever a writer has sent was a frame of a message. -/
theorem NodeInv.onBus_sent {defs : PGNDefinitions} {a : Nat} {node : BusNode}
    (h : NodeInv defs a node) {m : CanMessage} (hm : m ∈ node.writer.sent) : OnBus defs a m :=
  h.onBus m (by rw [h.inOrder.put_eq]; exact List.mem_append_left _ (h.sent_le.subset hm))

section Reader

variable {ι : Type*} {defs : PGNDefinitions} {address : ι → Nat} {addresses : List Nat}
  {sent : ι → List CanMessage} {r : ι} {node : BusNode}

/-- Before the first frame a reader has nothing of anybody. -/
theorem ReaderInv.start (h : ∀ n, sent n = []) :
    ReaderInv defs address addresses sent r (.start addresses) where
  heard := fun n _ => (h n).symm
  sources := fun _ hm => absurd hm List.not_mem_nil
  room := fun _ hi => absurd hi List.not_mem_nil
  agree := fun _ _ => ⟨rfl, fun _ _ _ _ => rfl, rfl, rfl, owned_listening addresses,
    owned_listening addresses⟩
  openFast := fun _ _ _ _ _ _ hne => absurd rfl hne
  queue := fun _ hmsg => absurd hmsg List.not_mem_nil
  raised := rfl

/-- A step of the senders of the node. -/
theorem ReaderInv.congr (h : ReaderInv defs address addresses sent r node) {node' : BusNode}
    (hsame : SameReader node.interface node'.interface) (hsocket : node'.socket = node.socket)
    (hreads : node'.reads = node.reads) (hraised : node'.raised = node.raised) :
    ReaderInv defs address addresses sent r node' where
  heard := by rw [BusNode.heard, hreads, hsocket]; exact h.heard
  sources := by rw [BusNode.heard, hreads, hsocket]; exact h.sources
  room := by rw [hreads]; exact h.room
  agree := by rw [hreads]; exact fun a ha => hsame.agreeFor (h.agree a ha)
  openFast := by rw [OpenFast, hsame.sequences]; exact h.openFast
  queue := by rw [hsame.queue]; exact h.queue
  raised := by rw [hraised]; exact h.raised

/-- **The bus shows some frames of node `k`.** -/
theorem ReaderInv.hear [DecidableEq ι] (h : ReaderInv defs address addresses sent r node)
    (hinj : Function.Injective address) {k : ι} (hk : k ≠ r) {frames : List CanMessage}
    (hsa : ∀ m ∈ frames, m.sa = address k) :
    ReaderInv defs address addresses (Function.update sent k (sent k ++ frames)) r
      (node.hear frames) where
  heard := by
    intro n hn
    rw [BusNode.heard_hear, List.filter_append, h.heard n hn]
    by_cases hnk : n = k
    · subst hnk
      rw [Function.update_self, List.filter_eq_self.mpr (fun m hm => by simpa using hsa m hm)]
    · have hother : ∀ m ∈ frames, ¬ decide (m.sa = address n) = true := by
        intro m hm
        rw [decide_eq_true_eq, hsa m hm]
        exact fun heq => hnk (hinj heq).symm
      rw [Function.update_of_ne hnk, List.filter_eq_nil_iff.mpr hother, List.append_nil]
  sources := by
    intro m hm
    rw [BusNode.heard_hear, List.mem_append] at hm
    rcases hm with hm | hm
    · obtain ⟨n, hn, hmem⟩ := h.sources m hm
      refine ⟨n, hn, ?_⟩
      by_cases hnk : n = k
      · subst hnk
        rw [Function.update_self]
        exact List.mem_append_left _ hmem
      · rw [Function.update_of_ne hnk]
        exact hmem
    · refine ⟨k, hk, ?_⟩
      rw [Function.update_self]
      exact List.mem_append_right _ hm
  room := h.room
  agree := h.agree
  openFast := h.openFast
  queue := h.queue
  raised := h.raised

/-- The bus does not show a node its own frames. -/
theorem ReaderInv.own [DecidableEq ι] (h : ReaderInv defs address addresses sent r node)
    (frames : List CanMessage) :
    ReaderInv defs address addresses (Function.update sent r frames) r node :=
  { h with
    heard := fun n hn => by rw [Function.update_of_ne hn]; exact h.heard n hn
    sources := fun m hm => by
      obtain ⟨n, hn, hmem⟩ := h.sources m hm
      exact ⟨n, hn, by rw [Function.update_of_ne hn]; exact hmem⟩ }

/-- **The reader takes a frame.** -/
theorem ReaderInv.read (h : ReaderInv defs address addresses sent r node)
    (hsent : ∀ n, ∀ m ∈ sent n, OnBus defs (address n) m) (now : Time) :
    ReaderInv defs address addresses sent r (node.read defs now false) := by
  cases hsocket : node.socket with
  | nil =>
    have hsame : node.read defs now false = node := by
      rw [BusNode.read, h.raised, hsocket]
    rw [hsame]
    exact h
  | cons m socket =>
    obtain ⟨n, hn, hmem⟩ := h.sources m (by rw [BusNode.heard, hsocket]; simp)
    have hbus := hsent n m hmem
    obtain ⟨x, hx⟩ := hbus.returns h.openFast now false
    have hread : node.read defs now false = { node with
        interface := (node.interface.processReceiveMsg defs now false m).2
        socket
        reads := node.reads ++ [⟨now, false, m⟩]
        raised := none } := by
      rw [BusNode.read, h.raised, hsocket]
      simp only [hx]
    have hheard : (node.read defs now false).heard = node.heard := by
      rw [hread, BusNode.heard, BusNode.heard, hsocket]
      simp
    have howned : OwnTransactions node.interface.isoTpHandler := (h.agree 0 (by omega)).owned
    refine ⟨by rw [hheard]; exact h.heard, by rw [hheard]; exact h.sources, ?_, ?_, ?_, ?_, ?_⟩
    · rw [hread]
      intro i hi
      rcases List.mem_append.mp hi with hi | hi
      · exact h.room i hi
      · rw [List.mem_singleton.mp hi]
    · intro a ha
      rw [hread, Machine.final_append]
      exact (h.agree a ha).process_both ha defs now false m
    · rw [hread]
      exact openFast_process hbus h.openFast now false
    · intro msg hmsg
      rw [hread] at hmsg
      obtain ⟨added, hqueue, hsa⟩ := process_adds howned defs now false m
      rw [show (node.interface.processReceiveMsg defs now false m).2.queue
        = node.interface.queue ++ added from hqueue] at hmsg
      rcases List.mem_append.mp hmsg with hmsg | hmsg
      · exact h.queue msg hmsg
      · exact ⟨n, hn, (hsa msg hmsg).trans hbus.source⟩
    · rw [hread]

end Reader

/-- What may happen on the bus: messages that can be sent, by the node whose
address they have, and room in the queues of the readers. -/
def Admitted {ι : Type*} (defs : PGNDefinitions) (address : ι → Nat) : BusEvent ι → Prop
  | .send n _ msg _ => Sendable defs (address n) msg
  | .read _ _ full => full = false
  | _ => True

/-- **Every step keeps the invariant.** -/
theorem BusInv.step {ι : Type*} [DecidableEq ι] {defs : PGNDefinitions} {address : ι → Nat}
    (hinj : Function.Injective address) {addresses : ι → List Nat} {nodes : ι → BusNode}
    (h : BusInv defs address addresses nodes) (size : Nat) (bus : ι → Nat → SendResult)
    {event : BusEvent ι} (hadm : Admitted defs address event) :
    BusInv defs address addresses ((canBus defs size bus).step nodes event).2 := by
  -- a step of one node that sends nothing
  have hlocal : ∀ (n : ι) (node : BusNode), NodeInv defs (address n) node →
      node.writer.sent = (nodes n).writer.sent →
      ReaderInv defs address (addresses n) (fun k => (nodes k).writer.sent) n node →
      BusInv defs address addresses (Function.update nodes n node) := by
    intro n node hnode hsent hreader
    have hsame : (fun k => (Function.update nodes n node k).writer.sent)
        = fun k => (nodes k).writer.sent := by
      funext k
      by_cases hk : k = n
      · rw [hk, Function.update_self, hsent]
      · rw [Function.update_of_ne hk]
    refine ⟨fun k => ?_, fun k => ?_⟩
    · by_cases hk : k = n
      · subst hk
        rw [Function.update_self]
        exact hnode
      · rw [Function.update_of_ne hk]
        exact h.nodeInv k
    · rw [hsame]
      by_cases hk : k = n
      · subst hk
        rw [Function.update_self]
        exact hreader
      · rw [Function.update_of_ne hk]
        exact h.readerInv k
  cases event with
  | send n full msg forceSend =>
    refine hlocal n _ ((h.nodeInv n).send hadm full forceSend) ?_
      ((h.readerInv n).congr (sameReader_send _ full msg forceSend) rfl rfl rfl)
    simp [BusNode.send, SocketCANWriter.foldl_putMsg]
  | read n now full =>
    obtain rfl : full = false := hadm
    refine hlocal n _ ?_ ?_ ((h.readerInv n).read (fun k m hm => (h.nodeInv k).onBus_sent hm) now)
    · rw [BusNode.read]
      split
      · rename_i m socket _ _
        obtain ⟨hqueue, hwrite⟩ := sender_process defs (nodes n).interface now false m
        refine (h.nodeInv n).congr rfl rfl hqueue (fun pgn hfree => ?_) (h.nodeInv n).inOrder
          (h.nodeInv n).sent_le
        rw [FastPacketHandler.SequenceFree, hwrite] at hfree
        exact hfree
      · exact h.nodeInv n
    · rw [BusNode.read]
      split <;> rfl
  | allowSend n =>
    exact hlocal n _ ((h.nodeInv n).congr rfl rfl rfl (fun _ hfree => hfree) (h.nodeInv n).inOrder
      (h.nodeInv n).sent_le) rfl ((h.readerInv n).congr ⟨rfl, rfl, rfl, rfl⟩ rfl rfl rfl)
  | stopWriter n =>
    have hin := (h.nodeInv n).inOrder
    exact hlocal n _ ((h.nodeInv n).congr rfl rfl rfl (fun _ hfree => hfree)
      ⟨hin.put_eq, hin.holding, hin.free, hin.noRetry⟩ (h.nodeInv n).sent_le) rfl
      ((h.readerInv n).congr (.refl _) rfl rfl rfl)
  | write n =>
    have hnode := (h.nodeInv n).write size (bus n)
    obtain ⟨frames, hframes⟩ : ∃ frames, ((nodes n).write size (bus n)).2.writer.sent
        = (nodes n).writer.sent ++ frames := by
      rcases ((nodes n).writer.turn_cases size (bus n)).2 with ⟨m, -, -, hs, -⟩ | ⟨hs, -⟩
      · exact ⟨[m], hs⟩
      · exact ⟨[], hs.trans (List.append_nil _).symm⟩
    have hshown : ((nodes n).write size (bus n)).1 = frames := by
      rw [BusNode.write] at hframes ⊢
      simp only at hframes ⊢
      rw [hframes, List.drop_left]
    have hsa : ∀ m ∈ frames, m.sa = address n := fun m hm =>
      (hnode.onBus_sent (by rw [hframes]; exact List.mem_append_right _ hm)).source
    have hsent : (fun k => (((canBus defs size bus).step nodes (.write n)).2 k).writer.sent)
        = Function.update (fun k => (nodes k).writer.sent) n ((nodes n).writer.sent ++ frames) := by
      funext k
      by_cases hk : k = n
      · subst hk
        simpa [canBus] using hframes
      · simp [canBus, hk, BusNode.hear]
    refine ⟨fun k => ?_, fun k => ?_⟩
    · by_cases hk : k = n
      · subst hk
        simpa [canBus] using hnode
      · have hkept : NodeInv defs (address k) ((nodes k).hear frames) :=
          (h.nodeInv k).congr rfl rfl rfl (fun _ hfree => hfree) (h.nodeInv k).inOrder
            (h.nodeInv k).sent_le
        simpa [canBus, hk, hshown] using hkept
    · rw [hsent]
      by_cases hk : k = n
      · subst hk
        have hown : ReaderInv defs address (addresses k) (fun n => (nodes n).writer.sent) k
            ((nodes k).write size (bus k)).2 := (h.readerInv k).congr (.refl _) rfl rfl rfl
        have hshow := hown.own ((nodes k).writer.sent ++ frames)
        simpa [canBus] using hshow
      · have hheard := (h.readerInv k).hear hinj (Ne.symm hk) hsa
        simpa [canBus, hk, hshown] using hheard

/-- The nodes of a bus as they are started. -/
def startAll {ι : Type*} (addresses : ι → List Nat) (n : ι) : BusNode := .start (addresses n)

/-- **The invariant in every run**, by induction on the events. -/
theorem busInv_final {ι : Type*} [DecidableEq ι] {defs : PGNDefinitions} {address : ι → Nat}
    (hinj : Function.Injective address) (addresses : ι → List Nat) (size : Nat)
    (bus : ι → Nat → SendResult) {events : List (BusEvent ι)}
    (hadm : ∀ event ∈ events, Admitted defs address event) :
    BusInv defs address addresses ((canBus defs size bus).final (startAll addresses) events) := by
  have hrun : ∀ events : List (BusEvent ι), (∀ event ∈ events, Admitted defs address event) →
      ∀ nodes, BusInv defs address addresses nodes →
        BusInv defs address addresses ((canBus defs size bus).final nodes events) := by
    intro events
    induction events with
    | nil => exact fun _ _ h => h
    | cons event events ih =>
      intro hadm nodes h
      exact ih (fun e he => hadm e (List.mem_cons_of_mem _ he)) _
        (h.step hinj size bus (hadm event List.mem_cons_self))
  exact hrun events hadm _ ⟨fun n => .start (addresses n), fun r => .start (fun _ => rfl)⟩

/-! ## 4. What arrives -/

/-- No frame of the node is in its queue or in the hand of its writer. -/
def Drained (node : BusNode) : Prop := node.writer.inQueue = [] ∧ node.writer.AboutToGet

/-- What node `r` has on its queue of node `n`: the first of the messages that `n`
has put and `r` accepts, as the reassembly leaves them, and all of them when no
frame is under way from one to the other. -/
structure Delivers {ι : Type*} (address : ι → Nat) (addresses : ι → List Nat) (nodes : ι → BusNode)
    (n r : ι) : Prop where
  inOrder : messagesFrom (address n) (nodes r).interface.queue
    <+: arriving (addresses r) (nodes n).posted
  complete : Drained (nodes n) → (nodes r).socket = [] →
    messagesFrom (address n) (nodes r).interface.queue = arriving (addresses r) (nodes n).posted

/-- The readers run, and hold messages of other nodes only, as these have sent
them. -/
structure BusDelivers {ι : Type*} (address : ι → Nat) (addresses : ι → List Nat)
    (nodes : ι → BusNode) : Prop where
  running : ∀ r, (nodes r).raised = none
  sources : ∀ r, ∀ msg ∈ (nodes r).interface.queue, ∃ n ≠ r, msg.sa = address n
  delivers : ∀ n r, n ≠ r → Delivers address addresses nodes n r

/-- The messages of a reader that has read the first of some frames. -/
theorem queue_mono (defs : PGNDefinitions) (addresses : List Nat) (ins ins' : List CanInput) :
    ((reader defs).final (listening addresses) ins).queue
      <+: ((reader defs).final (listening addresses) (ins ++ ins')).queue := by
  have howned : OwnTransactions ((reader defs).final (listening addresses) ins).isoTpHandler := by
    have hagree := agreeFor_final defs (a := 0) (by omega) (owned_listening addresses) ins
    exact hagree.owned
  obtain ⟨added, hqueue, -⟩ := final_adds defs ins' howned
  rw [Machine.final_append, hqueue]
  exact List.prefix_append _ _

/-- The frames of node `n` that node `r` has read, and those it has not, are the
frames that `n` has sent. -/
theorem BusInv.read_sent {ι : Type*} {defs : PGNDefinitions} {address : ι → Nat}
    {addresses : ι → List Nat} {nodes : ι → BusNode} (h : BusInv defs address addresses nodes)
    {n r : ι} (hnr : n ≠ r) :
    (inputsFrom (address n) (nodes r).reads).map CanInput.msg
        ++ (nodes r).socket.filter (fun m => decide (m.sa = address n))
      = (nodes n).writer.sent := by
  have hheard := (h.readerInv r).heard n hnr
  rw [BusNode.heard, List.filter_append, List.filter_map] at hheard
  exact hheard

/-- The messages of a node are those of a reader of its frames alone. -/
theorem BusInv.messages {ι : Type*} {defs : PGNDefinitions} {address : ι → Nat}
    {addresses : ι → List Nat} {nodes : ι → BusNode} (h : BusInv defs address addresses nodes)
    {a : Nat} (ha : a < 256) (r : ι) :
    messagesFrom a (nodes r).interface.queue
      = ((reader defs).final (listening (addresses r)) (inputsFrom a (nodes r).reads)).queue := by
  rw [((h.readerInv r).agree a ha).messages,
    (agreeFor_final defs ha (owned_listening (addresses r)) (nodes r).reads).messages,
    messagesFrom_final]

/-- **The messages of one node at another.** -/
theorem BusInv.delivers {ι : Type*} {defs : PGNDefinitions} {address : ι → Nat}
    {addresses : ι → List Nat} {nodes : ι → BusNode} (h : BusInv defs address addresses nodes)
    {n r : ι} (ha : address n < 256) (hnr : n ≠ r) : Delivers address addresses nodes n r := by
  have hnode := h.nodeInv n
  have hread := h.read_sent hnr
  have hfull : ∀ i ∈ inputsFrom (address n) (nodes r).reads, i.full = false :=
    fun i hi => (h.readerInv r).room i (List.mem_of_mem_filter hi)
  refine ⟨?_, fun hdrained hsocket => ?_⟩
  · -- the frames that are not read yet are handed behind those that are
    obtain ⟨untaken, htaken⟩ := hnode.sent_le
    obtain ⟨rest, hrest⟩ : ∃ rest, (nodes n).writer.put
        = (inputsFrom (address n) (nodes r).reads).map CanInput.msg ++ rest := by
      rw [hnode.inOrder.put_eq, ← htaken, ← hread]
      exact ⟨_, by rw [List.append_assoc, List.append_assoc]⟩
    have hhanded : Handed (nodes n).writer.put (inputsFrom (address n) (nodes r).reads
        ++ rest.map (CanInput.mk 0 false)) := by
      refine ⟨?_, fun i hi => ?_⟩
      · rw [List.map_append, List.map_map, hrest]
        exact congrArg _ (List.map_id rest)
      · rcases List.mem_append.mp hi with hi | hi
        · exact hfull i hi
        · obtain ⟨m, -, rfl⟩ := List.mem_map.mp hi
          rfl
    rw [h.messages ha r, ← (hnode.carried (addresses r) _ hhanded).1]
    exact queue_mono defs (addresses r) _ _
  · have hput : (nodes n).writer.put = (nodes n).writer.sent := by
      rw [hnode.inOrder.put_eq, hdrained.1, List.append_nil, hnode.inOrder.free hdrained.2]
    rw [hsocket, List.filter_nil, List.append_nil, ← hput] at hread
    rw [h.messages ha r]
    exact (hnode.carried (addresses r) _ ⟨hread, hfull⟩).1

/-- **The nodes of a bus get each other's messages.** In every run, whatever the
order of the calls, of the turns of the writers and of the turns of the readers,
and however the calls of the bus end: no reader is stopped, and each has the
messages of each other node once, in their order, and no others. -/
theorem bus_delivers {ι : Type*} [DecidableEq ι] (defs : PGNDefinitions) {address : ι → Nat}
    (hlow : ∀ n, address n < 254) (hinj : Function.Injective address) (addresses : ι → List Nat)
    (size : Nat) (bus : ι → Nat → SendResult) {events : List (BusEvent ι)}
    (hadm : ∀ event ∈ events, Admitted defs address event) :
    BusDelivers address addresses ((canBus defs size bus).final (startAll addresses) events) := by
  have hinv := busInv_final hinj addresses size bus hadm
  refine ⟨fun r => (hinv.readerInv r).raised, fun r => (hinv.readerInv r).queue, fun n r hnr => ?_⟩
  have hn := hlow n
  exact hinv.delivers (by omega) hnr

/-- Thirteen bytes of node 3 and a request of node 5, whose frames meet on the
bus. -/
theorem bus_delivers_two :
    BusDelivers (fun n : Bool => if n then 5 else 3) (fun n => if n then [255, 5] else [255, 3])
      ((canBus PGNDefinitions.empty 40 (fun _ _ => .success)).final
        (startAll (fun n => if n then [255, 5] else [255, 3]))
        [.allowSend false, .allowSend true,
          .send false (fun _ => false)
            (.of 130820 2 3 255 [1, 2, 3, 4, 5, 6, 7, 8, 9, 10, 11, 12, 13]) false,
          .send true (fun _ => false) (.of 59904 6 5 3 [0, 238, 0]) false,
          .write false, .write false, .write false, .write true, .write true, .write true,
          .read false 1 false, .write false, .write false, .write false,
          .read true 2 false, .read true 3 false]) :=
  bus_delivers PGNDefinitions.empty (by decide) (by decide) _ 40 _ (by
    have hthirteen : Sendable PGNDefinitions.empty 3
        (.of 130820 2 3 255 [1, 2, 3, 4, 5, 6, 7, 8, 9, 10, 11, 12, 13]) :=
      ⟨⟨⟨by decide, by decide⟩, by decide, by decide, by decide, fun _ => rfl⟩, rfl, by decide, rfl,
        fun _ => by decide, by decide⟩
    have hrequest : Sendable PGNDefinitions.empty 5 (.of 59904 6 5 3 [0, 238, 0]) :=
      ⟨⟨⟨by decide, by decide⟩, by decide, by decide, by decide, by decide⟩, rfl, by decide, rfl,
        by decide, fun _ => by decide⟩
    simp only [List.forall_mem_cons, Admitted, true_and]
    exact ⟨hthirteen, hrequest, by simp⟩)

end NavigationServer.CanInterface
